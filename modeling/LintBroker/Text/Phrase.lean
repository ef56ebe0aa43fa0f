import LintBroker.Template.Basic

/-! # Lists as phrases

A list is put into words by showing each item with a template, sorting the shown items if asked
to, and joining them: commas after all but the last, the last comma only from three items on, and
a conjunction before the last. -/
namespace LintBroker.Text

def phrase (conjunction : String) : List String → String
  | [] => ""
  | [item] => item
  | items =>
    let head := ", ".intercalate items.dropLast
    let comma := if 2 < items.length then "," else ""
    head ++ comma ++ " " ++ conjunction ++ " " ++ items.getLastD ""

def sortTexts (items : List String) : List String := items.mergeSort fun a b => decide (a ≤ b)

/-- The template that shows an item as a literal. -/
def literalTemplate : String := "\x7b!r\x7d"

/-- Shows each item with a template and joins the shown items into a phrase. -/
def humanizeList (items : List Value) (conjunction template : String) (sort : Bool) :
    Except Failure String := do
  let shown ← items.mapM (Template.format template)
  return phrase conjunction (if sort then sortTexts shown else shown)

end LintBroker.Text

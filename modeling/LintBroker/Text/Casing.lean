import LintBroker.Text.CasingTable

/-! # Upper and lower case

Full case mapping: one character may become several, and the lower case of the Greek capital
sigma depends on its neighbours. -/
namespace LintBroker.Text

/-- The image of a code point under the runs, or the code point itself. -/
def caseImage (runs : List CaseRun) (expansions : List (Nat × List Nat)) (c : Char) : List Char :=
  let code := c.toNat
  match expansions.lookup code with
  | some image => image.map Char.ofNat
  | none =>
    match runs.find? fun r => r.first ≤ code && code ≤ r.last && (code - r.first) % r.stride == 0 with
    | some r => [Char.ofNat (code + r.offset).toNat]
    | none => [c]

def upperChar (c : Char) : List Char :=
  if c.toNat < 0x80 then [c.toUpper] else caseImage upperRuns upperExpansions c

/-- The lower case of one character, its neighbours not considered. -/
def lowerChar (c : Char) : List Char :=
  if c.toNat < 0x80 then [c.toLower] else caseImage lowerRuns lowerExpansions c

def upper (s : String) : String := String.ofList (s.toList.flatMap upperChar)

/-- Whether the first character that is not skipped is a cased one. -/
def meetsCased (cs : List Char) : Bool :=
  match cs.dropWhile fun c => caseIgnorableSpans.has c.toNat with
  | [] => false
  | c :: _ => casedSpans.has c.toNat

/-- Lower-cases a list of characters, `before` being those already passed, last first. A capital
sigma that ends a word becomes the final form. -/
def lowerFrom (before : List Char) : List Char → List Char
  | [] => []
  | c :: rest =>
    let image :=
      if c = 'Σ' then
        if meetsCased before && !meetsCased rest then ['ς'] else ['σ']
      else lowerChar c
    image ++ lowerFrom (c :: before) rest

def lower (s : String) : String := String.ofList (lowerFrom [] s.toList)

end LintBroker.Text

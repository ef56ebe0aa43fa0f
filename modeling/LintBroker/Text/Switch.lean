import LintBroker.Failure.Basic
import LintBroker.Text.Blank
import LintBroker.Text.Casing

/-! # Switches written as words

Two readers of truth values. The wide one ignores blanks around the word and the case of every
letter; the narrow one ignores the case of ASCII letters only and trims nothing. -/
namespace LintBroker.Text

def trueWords : List String := ["true", "t", "yes", "y", "on", "1"]

def falseWords : List String := ["false", "f", "no", "n", "off", "0"]

/-- The truth value of a lower-case word. -/
def wordSwitch? (word : String) : Option Bool :=
  if trueWords.contains word then some true
  else if falseWords.contains word then some false
  else none

/-- Reads a word as it is but for the case of ASCII letters. -/
def narrowSwitch? (s : String) : Option Bool :=
  wordSwitch? (String.ofList (s.toList.map Char.toLower))

/-- Reads a word, blanks around it and letter case ignored. -/
def switch (s : String) : Except Failure Bool :=
  let word := lower (strip s)
  match wordSwitch? word with
  | some b => .ok b
  | none => .error (.ofText .badValue ("Invalid boolean value: " ++ word))

/-- Reads a value that has to be a string. -/
def switchOfValue (v : Value) : Except Failure Bool :=
  match v.text? with
  | some s => switch s
  | none => .error (.ofText .badType ("Invalid str value: " ++ v.plain))

end LintBroker.Text

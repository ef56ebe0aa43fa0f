import LintBroker.Number.Decimal
import LintBroker.Setting.Kind
import LintBroker.Text.Switch

/-! # Reading settings from text

The text of an environment variable is read by the kind of the setting. A list of any kind is
written with commas; the other kinds are read strictly, and what does not fit is an issue. -/
namespace LintBroker.Setting
open Text Number

def rejected (issues : List Issue) : Failure := .mk (.rejectedValue issues) [] [] none none

def wholeIssue (code : String) : List Issue := [⟨code, []⟩]

/-- Splits a list at a separator; there is one more part than separators. -/
def splitAt (sep : Char) : List Char → List (List Char)
  | [] => [[]]
  | c :: rest =>
    if c = sep then [] :: splitAt sep rest
    else
      match splitAt sep rest with
      | part :: parts => (c :: part) :: parts
      | [] => [[c]]

/-- The items of a list written with commas: the parts, trimmed, without the blank ones. -/
def commaItems (s : String) : List String :=
  (((splitAt ',' s.toList).map (trimChars isBlank)).filter fun part => !part.isEmpty).map
    String.ofList

/-- Drops zeros and underscores before the first other digit, keeping one zero before a point or at
the end; none if another character comes first. -/
def dropZeros : Char → List Char → Option (List Char)
  | last, [] => some [last]
  | last, c :: rest =>
    if c = '0' || c = '_' then dropZeros c rest
    else if '1' ≤ c && c ≤ '9' then some (c :: rest)
    else if c = '.' then some (last :: c :: rest)
    else none

def withoutLeadingZeros : List Char → Option (List Char)
  | '0' :: rest => dropZeros '0' rest
  | c :: rest =>
    if ('1' ≤ c && c ≤ '9') || c = '-' || c = '+' then some (c :: rest) else none
  | [] => none

def withoutZeroFraction (cs : List Char) : List Char :=
  match cs.dropWhile (· != '.') with
  | _ :: zeros =>
    if !zeros.isEmpty && zeros.all (· == '0') then cs.takeWhile (· != '.') else cs
  | [] => cs

def hasDoubleUnderscore : List Char → Bool
  | '_' :: '_' :: _ => true
  | _ :: rest => hasDoubleUnderscore rest
  | [] => false

/-- A numeral without the single underscores between its characters. A numeral with an underscore
elsewhere is left as it is. -/
def withoutUnderscores (cs : List Char) : List Char :=
  if cs.head? == some '_' || cs.getLast? == some '_' || hasDoubleUnderscore cs then cs
  else cs.filter (· != '_')

def numeralLimit : Nat := 4300

/-- Reads an integer: blanks around it, a sign, leading zeros, single underscores between digits and
a fraction of zeros are allowed. -/
def wholeOfText (s : String) : Except (List Issue) Int :=
  let parsing := .error (wholeIssue "int_parsing")
  match withoutLeadingZeros (trimWhiteSpace s).toList with
  | none => parsing
  | some cs =>
    let numeral := withoutUnderscores (withoutZeroFraction cs)
    let (negative, digits) := splitSign numeral
    if numeralLimit < numeral.length then .error (wholeIssue "int_parsing_size")
    else
      match digitsValue? digits with
      | some n => .ok (if negative then -(n : Int) else n)
      | none => parsing

/-- Reads a decimal number; single underscores are allowed if no blank is around it. -/
def realOfText (s : String) : Except (List Issue) Binary64 :=
  match Binary64.ofText? (trimWhiteSpace s) with
  | some x => .ok x
  | none =>
    let bare := withoutUnderscores s.toList
    match if bare.length < s.length then Binary64.ofText? (String.ofList bare) else none with
    | some x => .ok x
    | none => .error (wholeIssue "float_parsing")

def switchOfText (s : String) : Except (List Issue) Bool :=
  match narrowSwitch? s with
  | some b => .ok b
  | none => .error (wholeIssue "bool_parsing")

/-- Reads a text strictly by a kind. The text is passed as the value it is, which may be a scope. -/
def strictOfText (v : Value) (s : String) : Kind → Except (List Issue) Value
  | .text | .anything => .ok v
  | .whole => (wholeOfText s).map .int
  | .real => (realOfText s).map .real
  | .switch => (switchOfText s).map .bool
  | .list | .listOf _ => .error (wholeIssue "list_type")
  | .mapOf _ => .error (wholeIssue "dict_type")
  | .optional inner => strictOfText v s inner

/-- Reads a value that is a string by a kind; other values are what they are. -/
def ofText (kind : Kind) (v : Value) : Except Failure Value :=
  match v.text? with
  | none => .ok v
  | some s =>
    match kind with
    | .listOf _ => .ok (.list ((commaItems s).map .str))
    | .text => .ok (.str v.plain)
    | .switch => (switch s).map .bool
    | kind =>
      match strictOfText v s kind with
      | .ok w => .ok w
      | .error issues => .error (rejected issues)

end LintBroker.Setting

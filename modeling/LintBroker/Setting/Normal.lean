import LintBroker.Setting.Reading
import LintBroker.Text.Utf8

/-! # Fitting values to settings

A value given at run time is fitted to the kind of its setting: numbers, truth values and their
texts stand for one another where nothing is lost, and containers are rebuilt. Every item that does
not fit is an issue of its own, with its place. -/
namespace LintBroker.Setting
open Text Number

/-- The text that a value stands for: a string, or bytes that encode one. -/
inductive AsText
  | text (s : String)
  | notText
  | badBytes

/-- Reads strings and bytes as text. -/
def asText (v : Value) : AsText :=
  match v with
  | .bytes b => match decodeUtf8? b with
    | some s => .text s
    | none => .badBytes
  | v => match v.text? with
    | some s => .text s
    | none => .notText

def fitsWord (i : Int) : Bool := -(Nat.pow 2 63 : Int) ≤ i && i < (Nat.pow 2 63 : Int)

def switchOfWhole (i : Int) : Except (List Issue) Bool :=
  if i = 0 then .ok false
  else if i = 1 then .ok true
  else .error (wholeIssue "bool_parsing")

def fitSwitch (v : Value) : Except (List Issue) Bool :=
  let wrongType := .error (wholeIssue "bool_type")
  match v with
  | .bool b => .ok b
  | .int i => if fitsWord i then switchOfWhole i else wrongType
  | .real x => match x.toInt? with
    | some i => if fitsWord i then switchOfWhole i else wrongType
    | none => wrongType
  | v => match asText v with
    | .text s => switchOfText s
    | .badBytes => .error (wholeIssue "bool_parsing")
    | .notText => wrongType

def fitWhole (v : Value) : Except (List Issue) Int :=
  match v with
  | .int i => .ok i
  | .bool b => .ok (if b then 1 else 0)
  | .real x =>
    if !x.isFinite then .error (wholeIssue "finite_number")
    else
      match x.toInt? with
      | none => .error (wholeIssue "int_from_float")
      | some i => if fitsWord i then .ok i else .error (wholeIssue "int_parsing_size")
  | v => match asText v with
    | .text s => wholeOfText s
    | .badBytes => .error (wholeIssue "int_parsing")
    | .notText => .error (wholeIssue "int_type")

def fitReal (v : Value) : Except (List Issue) Binary64 :=
  let wrongType := .error (wholeIssue "float_type")
  match v with
  | .real x => .ok x
  | .bool b => .ok (.ofInt (if b then 1 else 0))
  | .int i => match Binary64.ofInt i with
    | .infinite _ => wrongType
    | x => .ok x
  | v => match asText v with
    | .text s => realOfText s
    | .badBytes => .error (wholeIssue "float_parsing")
    | .notText => wrongType

def fitText (v : Value) : Except (List Issue) String :=
  match asText v with
  | .text s => .ok s
  | .badBytes => .error (wholeIssue "string_unicode")
  | .notText => .error (wholeIssue "string_type")

/-- The items of a value that may become a list: texts, bytes and dictionaries may not. -/
def listItems (v : Value) : Except (List Issue) (List Value) :=
  match v with
  | .list items | .tuple items | .set items | .stream items => .ok items
  | _ => .error (wholeIssue "list_type")

/-- Fits every item; the issues of all of them are gathered, each below its place. -/
def fitAll (fit : Value → Except (List Issue) Value) :
    List (Value × Value) → Except (List Issue) (List Value)
  | [] => .ok []
  | (place, v) :: rest =>
    match fit v, fitAll fit rest with
    | .ok w, .ok ws => .ok (w :: ws)
    | .ok _, .error issues => .error issues
    | .error issues, .ok _ => .error (issues.map fun i => ⟨i.code, place :: i.path⟩)
    | .error issues, .error more =>
      .error (issues.map (fun i => ⟨i.code, place :: i.path⟩) ++ more)

/-- Fits a value to a kind. -/
def normalize : Kind → Value → Except (List Issue) Value
  | .text, v => (fitText v).map .str
  | .whole, v => (fitWhole v).map .int
  | .real, v => (fitReal v).map .real
  | .switch, v => (fitSwitch v).map .bool
  | .anything, v => .ok v
  | .list, v => (listItems v).map .list
  | .listOf item, v => do
    let items ← listItems v
    let placed := items.mapIdx fun n x => (Value.int n, x)
    return .list (← fitAll (normalize item) placed)
  | .mapOf item, v =>
    match v with
    | .dict rows => do
      let fitted ← fitAll (normalize item) (rows.map fun r => (.str r.1, r.2))
      return .dict ((rows.map Prod.fst).zip fitted)
    | _ => .error (wholeIssue "dict_type")
  | .optional inner, v =>
    match v with
    | .none => .ok .none
    | v => normalize inner v

end LintBroker.Setting

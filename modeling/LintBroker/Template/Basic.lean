import LintBroker.Template.Numeral
import LintBroker.Value.Compare

/-! # Templates

A template is text with fields in braces; a doubled brace is a plain one. A field names the item
that is shown, by nothing or by its number, perhaps a part of the item, a conversion to text and a
layout, which may itself hold fields. The first thing that is wrong ends the showing. -/
namespace LintBroker.Template
open Text

/-- How fields have been numbered so far: not at all, by themselves up to a count, or by hand. -/
inductive Numbering
  | unused
  | automatic (next : Nat)
  | manual
deriving DecidableEq, Repr, Inhabited

structure Field where
  name : List Char
  conversion : Option Char := none
  spec : List Char := []
  specHasFields : Bool := false
deriving Inhabited

/-- Splits at the end of a field's name: a closing brace, a colon or an exclamation mark. Inside
brackets these are part of the name. The name comes first character first. -/
def splitName (held : List Char) (bracketed : Bool) :
    List Char → Except Failure (List Char × Option (Char × List Char))
  | [] => .ok (held.reverse, none)
  | c :: rest =>
    if bracketed then splitName (c :: held) (c != ']') rest
    else if c = '\x7b' then refused "unexpected '\x7b' in field name"
    else if c = '[' then splitName (c :: held) true rest
    else if c = '\x7d' || c = ':' || c = '!' then .ok (held.reverse, some (c, rest))
    else splitName (c :: held) false rest

/-- Splits at the brace that closes a layout. The flag tells whether the layout has fields. -/
def splitSpec (held : List Char) (depth : Nat) (fields : Bool) :
    List Char → Option (List Char × Bool × List Char)
  | [] => none
  | c :: rest =>
    if c = '\x7b' then splitSpec (c :: held) (depth + 1) true rest
    else if c = '\x7d' then
      match depth with
      | 0 => some (held.reverse, fields, rest)
      | n + 1 => splitSpec (c :: held) n fields rest
    else splitSpec (c :: held) depth fields rest

def readSpec (name : List Char) (conversion : Option Char) (cs : List Char) :
    Except Failure (Field × List Char) :=
  match splitSpec [] 0 false cs with
  | some (spec, specHasFields, rest) => .ok ({ name, conversion, spec, specHasFields }, rest)
  | none => refused "unmatched '\x7b' in format spec"

def readField (cs : List Char) : Except Failure (Field × List Char) := do
  match ← splitName [] false cs with
  | (_, none) => refused "expected '\x7d' before end of string"
  | (name, some ('\x7d', rest)) => return ({ name }, rest)
  | (name, some (':', rest)) => readSpec name none rest
  | (name, some (_, rest)) =>
    match rest with
    | [] => refused "end of string while looking for conversion specifier"
    | [c] => readSpec name (some c) []
    | c :: '\x7d' :: rest => return ({ name, conversion := some c }, rest)
    | c :: ':' :: rest => readSpec name (some c) rest
    | _ => refused "expected ':' after conversion specifier"

/-- The number that a name is, if it is made of digits. -/
def nameNumber (name : List Char) : Except Failure (Option Nat) := do
  match ← readNumber name with
  | (some n, []) => return some n
  | _ => return none

/-- Which item a field shows, and how fields are numbered from there on. -/
def itemNumber (numbering : Numbering) (name : List Char) : Except Failure (Nat × Numbering) := do
  let toAutomatic := "cannot switch from manual field specification to automatic field numbering"
  let toManual := "cannot switch from automatic field numbering to manual field specification"
  if name.isEmpty then
    match numbering with
    | .unused => return (0, .automatic 1)
    | .automatic n => return (n, .automatic (n + 1))
    | .manual => refused toAutomatic
  else
    match ← nameNumber name with
    | none => throw (.ofText .missingKey (String.ofList name))
    | some n =>
      match numbering with
      | .automatic _ => refused toManual
      | _ => return (n, .manual)

/-- The parts that a whole number knows. -/
def wholeAttribute? (i : Int) (name : String) : Option Value :=
  if name = "real" || name = "numerator" then some (.int i)
  else if name = "imag" then some (.int 0)
  else if name = "denominator" then some (.int 1)
  else none

/-- An attribute of a shown item. Numbers know their parts. -/
def itemAttribute (v : Value) (name : String) : Except Failure Value :=
  let missing := .error (.noAttribute v.typeName name)
  match v with
  | .int i => ((wholeAttribute? i name).map Except.ok).getD missing
  | .bool b => ((wholeAttribute? (if b then 1 else 0) name).map Except.ok).getD missing
  | .real x =>
    if name = "real" then .ok (.real x)
    else if name = "imag" then .ok (.real (.zero false))
    else missing
  | .scope s =>
    if name = "value" then .ok (.str s.word)
    else if name = "name" then .ok (.str s.memberName)
    else missing
  | _ => missing

def nthItem (what : String) (items : List Value) (n : Nat) : Except Failure Value :=
  match items[n]? with
  | some v => .ok v
  | none => .error (.ofText .index (what ++ " index out of range"))

def notSubscriptable (v : Value) : Failure :=
  .ofText .badType ("'" ++ v.typeName ++ "' object is not subscriptable")

def partAt (v : Value) (n : Nat) : Except Failure Value :=
  match v with
  | .list items => nthItem "list" items n
  | .tuple items => nthItem "tuple" items n
  | .str s => nthItem "string" (s.toList.map fun c => .str c.toString) n
  | .scope s => nthItem "string" (s.word.toList.map fun c => .str c.toString) n
  | .bytes b => match b[n]? with
    | some x => .ok (.int x.toNat)
    | none => .error (.ofText .index "index out of range")
  | .dict _ => .error (.ofArgs .missingKey [.int n])
  | v => .error (notSubscriptable v)

def partNamed (v : Value) (name : String) : Except Failure Value :=
  let onlyNumbers (what : String) := .error (.ofText .badType what)
  match v with
  | .dict rows => match rows.lookup name with
    | some x => .ok x
    | none => .error (.ofText .missingKey name)
  | .str _ | .scope _ => onlyNumbers "string indices must be integers, not 'str'"
  | .list _ => onlyNumbers "list indices must be integers or slices, not str"
  | .tuple _ => onlyNumbers "tuple indices must be integers or slices, not str"
  | .bytes _ => onlyNumbers "byte indices must be integers or slices, not str"
  | v => .error (notSubscriptable v)

/-- The rest of a field's name: parts of the item, each after a point or in brackets. The fuel
bounds their number. -/
def partOf : (fuel : Nat) → Value → List Char → Except Failure Value
  | 0, v, _ => .ok v
  | fuel + 1, v, cs =>
    let emptyName := refused "Empty attribute in format string"
    match cs with
    | [] => .ok v
    | '.' :: rest => do
      let isEnd := fun c : Char => c = '.' || c = '['
      let name := rest.takeWhile fun c => !isEnd c
      if name.isEmpty then emptyName
      else partOf fuel (← itemAttribute v (String.ofList name)) (rest.dropWhile fun c => !isEnd c)
    | '[' :: rest => do
      let name := rest.takeWhile (· != ']')
      match rest.dropWhile (· != ']') with
      | [] => refused "Missing ']' in format string"
      | _ :: rest =>
        let number ← nameNumber name
        if name.isEmpty then emptyName
        else
          let part ← match number with
            | some n => partAt v n
            | none => partNamed v (String.ofList name)
          partOf fuel part rest
    | _ => refused "Only '.' or '[' may follow ']' in format field specifier"

/-- What a field shows, before conversion. There is one item to show. -/
def fieldValue (item : Value) (numbering : Numbering) (name : List Char) :
    Except Failure (Value × Numbering) := do
  let isEnd := fun c : Char => c = '.' || c = '['
  let (n, numbering) ← itemNumber numbering (name.takeWhile fun c => !isEnd c)
  if n != 0 then
    throw (.ofText .index
      ("Replacement index " ++ toString n ++ " out of range for positional args tuple"))
  return (← partOf name.length item (name.dropWhile fun c => !isEnd c), numbering)

/-- A literal in ASCII: other characters are written by their codes. -/
def asciiLiteral (s : String) : String :=
  String.ofList (s.toList.flatMap fun c => if c.toNat < 0x80 then [c] else codeEscape c.toNat)

def convert (v : Value) (conversion : Char) : Except Failure Value :=
  match conversion with
  | 'r' => .ok (.str v.literal)
  | 's' => .ok (.str v.plain)
  | 'a' => .ok (.str (asciiLiteral v.literal))
  | c => refused ("Unknown conversion specifier " ++ shownChar c)

/-- Lays out a value. Only strings and numbers have layouts. -/
def placeValue (v : Value) (spec : List Char) : Except Failure (List Char) :=
  if spec.isEmpty then .ok v.plain.toList
  else
    match v with
    | .str s => placeText s.toList spec
    | .scope _ => placeText v.plain.toList spec
    | .int i => formatWhole "int" i spec
    | .bool b => formatWhole "bool" (if b then 1 else 0) spec
    | .real x => formatReal x spec
    | v => .error (.ofText .badType
        ("unsupported format string passed to " ++ v.typeName ++ ".__format__"))

/-- What a showing yields: the text, and how fields are numbered after it. -/
abbrev Shown := Except Failure (List Char × Numbering)

/-- Shows a field, given how a layout with fields is shown. -/
def showField (showSpec : Numbering → List Char → Shown) (item : Value) (numbering : Numbering)
    (f : Field) : Shown := do
  let (v, numbering) ← fieldValue item numbering f.name
  let v ← match f.conversion with
    | some c => convert v c
    | none => .ok v
  let (spec, numbering) ← if f.specHasFields then showSpec numbering f.spec else .ok (f.spec, numbering)
  return (← placeValue v spec, numbering)

/-- Shows a template, given how layouts with fields are shown. Every round reads a character at
least, so that fuel beyond the length of the template is not used. -/
def showAll (showSpec : Numbering → List Char → Shown) (item : Value) :
    (fuel : Nat) → Numbering → List Char → Shown
  | 0, numbering, _ => .ok ([], numbering)
  | fuel + 1, numbering, cs =>
    match cs with
    | [] => .ok ([], numbering)
    | '\x7b' :: '\x7b' :: rest => do
      let (more, numbering) ← showAll showSpec item fuel numbering rest
      return ('\x7b' :: more, numbering)
    | '\x7d' :: '\x7d' :: rest => do
      let (more, numbering) ← showAll showSpec item fuel numbering rest
      return ('\x7d' :: more, numbering)
    | '\x7d' :: _ => refused "Single '\x7d' encountered in format string"
    | ['\x7b'] => refused "Single '\x7b' encountered in format string"
    | '\x7b' :: rest => do
      let (f, rest) ← readField rest
      let (shown, numbering) ← showField showSpec item numbering f
      let (more, numbering) ← showAll showSpec item fuel numbering rest
      return (shown ++ more, numbering)
    | c :: rest => do
      let (more, numbering) ← showAll showSpec item fuel numbering rest
      return (c :: more, numbering)

/-- Shows a template whose layouts may be nested to a depth. -/
def showNested (item : Value) : (depth : Nat) → Numbering → List Char → Shown
  | 0, _, _ => refused "Max string recursion exceeded"
  | depth + 1, numbering, cs => showAll (showNested item depth) item (cs.length + 1) numbering cs

def format (template : String) (item : Value) : Except Failure String := do
  let (shown, _) ← showNested item 2 .unused template.toList
  return String.ofList shown

end LintBroker.Template

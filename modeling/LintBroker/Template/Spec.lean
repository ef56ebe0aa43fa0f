import LintBroker.Failure.Basic
import LintBroker.Text.Digit

/-! # Layout of a shown value

The part of a field after the colon says how a value is laid out: a fill character and an
alignment, how a sign is shown, a width, whether digits are grouped, a precision, and a letter for
the form. -/
namespace LintBroker.Template
open Text

/-- Where a short text stands in its width. -/
inductive Align
  | left
  | right
  | center
  | afterSign
deriving DecidableEq, Repr, Inhabited

/-- How a layout is written down; what is not written is left to the value. -/
structure Layout where
  fill : Char := ' '
  align : Align
  sign : Option Char := none
  positiveZero : Bool := false
  alternate : Bool := false
  width : Nat := 0
  group : Option Char := none
  precision : Option Nat := none
  form : Option Char := none
deriving Inhabited

def alignOf? : Char → Option Align
  | '<' => some .left
  | '>' => some .right
  | '^' => some .center
  | '=' => some .afterSign
  | _ => none

def refused {α : Type} (text : String) : Except Failure α := .error (.ofText .badValue text)

/-- The greatest number that may be written in a template. -/
def numberLimit : Nat := Nat.pow 2 63 - 1

/-- Reads the digits at the start; none if there are none. -/
def readNumber (cs : List Char) : Except Failure (Option Nat × List Char) :=
  match leadingNumber cs with
  | (_, 0, rest) => .ok (none, rest)
  | (n, _, rest) =>
    if numberLimit < n then refused "Too many decimal digits in format string"
    else .ok (some n, rest)

def shownChar (c : Char) : String :=
  if 32 < c.toNat && c.toNat < 127 then c.toString
  else "\\x" ++ String.ofList (Nat.toDigits 16 c.toNat)

def unknownForm {α : Type} (c : Char) (typeName : String) : Except Failure α :=
  refused ("Unknown format code '" ++ shownChar c ++ "' for object of type '" ++ typeName ++ "'")

def readAlign (default : Align) (cs : List Char) : Char × Align × Bool × Bool × List Char :=
  match cs with
  | a :: b :: rest =>
    match alignOf? b, alignOf? a with
    | some x, _ => (a, x, true, true, rest)
    | none, some x => (' ', x, false, true, b :: rest)
    | none, none => (' ', default, false, false, cs)
  | [a] =>
    match alignOf? a with
    | some x => (' ', x, false, true, [])
    | none => (' ', default, false, false, cs)
  | [] => (' ', default, false, false, [])

def takeChar (c : Char) : List Char → Bool × List Char
  | x :: rest => if x = c then (true, rest) else (false, x :: rest)
  | [] => (false, [])

def readSign : List Char → Option Char × List Char
  | c :: rest => if c = '+' || c = '-' || c = ' ' then (some c, rest) else (none, c :: rest)
  | [] => (none, [])

def readGroup (cs : List Char) : Except Failure (Option Char × List Char) :=
  let both := refused "Cannot specify both ',' and '_'."
  match takeChar ',' cs with
  | (true, rest) => match takeChar '_' rest with
    | (true, _) => both
    | (false, rest) => .ok (some ',', rest)
  | (false, rest) => match takeChar '_' rest with
    | (true, rest) => match takeChar ',' rest with
      | (true, _) => both
      | (false, rest) => .ok (some '_', rest)
    | (false, rest) => .ok (none, rest)

def readPrecision (cs : List Char) : Except Failure (Option Nat × List Char) := do
  match takeChar '.' cs with
  | (false, rest) => return (none, rest)
  | (true, rest) =>
    match ← readNumber rest with
    | (none, _) => refused "Format specifier missing precision"
    | (some n, rest) => return (some n, rest)

/-- Whether digits of a form may be grouped by a mark. -/
def groupable (mark form : Char) : Bool :=
  ['d', 'e', 'f', 'g', 'E', 'G', '%', 'F', '\x00'].contains form ||
    (mark = '_' && ['b', 'o', 'x', 'X'].contains form)

/-- Reads a layout for a value of the named type, whose own form and alignment are given. -/
def readLayout (typeName : String) (form : Char) (default : Align) (spec : List Char) :
    Except Failure Layout := do
  let (fill, align, filled, aligned, cs) := readAlign default spec
  let (sign, cs) := readSign cs
  let (positiveZero, cs) := takeChar 'z' cs
  let (alternate, cs) := takeChar '#' cs
  let (zero, cs) := if filled then (false, cs) else takeChar '0' cs
  let fill := if zero then '0' else fill
  let align := if zero && !aligned && default = .right then .afterSign else align
  let (width, cs) ← readNumber cs
  let (group, cs) ← readGroup cs
  let (precision, cs) ← readPrecision cs
  match cs with
  | _ :: _ :: _ =>
    refused ("Invalid format specifier '" ++ String.ofList spec ++ "' for object of type '" ++
      typeName ++ "'")
  | rest =>
    let written := rest.head?
    match group with
    | some mark =>
      if !groupable mark (written.getD form) then
        refused ("Cannot specify '" ++ mark.toString ++ "' with '" ++
          shownChar (written.getD form) ++ "'.")
    | none => pure ()
    return { fill, align, sign, positiveZero, alternate, width := width.getD 0, group, precision,
             form := written }

/-- Lays out a text: a sign or mark in front that stays in front, then the rest. -/
def Layout.place (l : Layout) (front body : List Char) : List Char :=
  let missing := l.width - (front.length + body.length)
  let fill (n : Nat) := List.replicate n l.fill
  match l.align with
  | .left => front ++ body ++ fill missing
  | .right => fill missing ++ front ++ body
  | .center => fill (missing / 2) ++ front ++ body ++ fill (missing - missing / 2)
  | .afterSign => front ++ fill missing ++ body

/-- Lays out a string. Signs, grouping and number forms are not for strings. -/
def placeText (s : List Char) (spec : List Char) : Except Failure (List Char) := do
  if spec.isEmpty then return s
  let l ← readLayout "str" 's' .left spec
  match l.form with
  | some c => if c != 's' then unknownForm c "str"
  | none => pure ()
  match l.sign with
  | some ' ' => refused "Space not allowed in string format specifier"
  | some _ => refused "Sign not allowed in string format specifier"
  | none => pure ()
  if l.positiveZero then
    refused "Negative zero coercion (z) not allowed in string format specifier"
  if l.alternate then refused "Alternate form (#) not allowed in string format specifier"
  if l.align = .afterSign then refused "'=' alignment not allowed in string format specifier"
  let shown := match l.precision with
    | some n => s.take n
    | none => s
  return l.place [] shown

end LintBroker.Template

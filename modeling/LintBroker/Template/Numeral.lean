import LintBroker.Number.Rounded
import LintBroker.Template.Spec

/-! # Layout of numbers -/
namespace LintBroker.Template
open Number Text

/-- Groups of digits from the right, separated by a mark; zeros are put in front until a width is
reached. `digits` come last digit first, `room` counts what is left in the current group, and `used`
the characters written so far. -/
def groupDigits (mark : Char) (size width : Nat) : (fuel : Nat) → (digits : List Char) →
    (room used : Nat) → List Char
  | 0, _, _, _ => []
  | fuel + 1, digits, room, used =>
    match digits with
    | [] =>
      if width ≤ used then []
      else
        match room with
        | 0 => mark :: groupDigits mark size width fuel ['0'] size (used + 1)
        | n + 1 => '0' :: groupDigits mark size width fuel [] n (used + 1)
    | d :: rest =>
      match room with
      | 0 => mark :: groupDigits mark size width fuel digits size (used + 1)
      | n + 1 => d :: groupDigits mark size width fuel rest n (used + 1)

/-- Digits as a layout groups them; zeros fill up what `outside` leaves of the width. -/
def Layout.grouped (l : Layout) (size outside : Nat) (digits : List Char) : List Char :=
  match l.group with
  | none => digits
  | some mark =>
    let width := if l.fill = '0' && l.align = .afterSign then l.width - outside else 0
    (groupDigits mark size width (2 * (digits.length + width) + 2) digits.reverse size 0).reverse

def Layout.signChars (l : Layout) (negative : Bool) : List Char :=
  if negative then ['-']
  else
    match l.sign with
    | some '+' => ['+']
    | some ' ' => [' ']
    | _ => []

def placeWhole (l : Layout) (i : Int) (form : Char) : Except Failure (List Char) := do
  if l.precision.isSome then refused "Precision not allowed in integer format specifier"
  if l.positiveZero then
    refused "Negative zero coercion (z) not allowed in integer format specifier"
  if form = 'c' then
    if l.sign.isSome then refused "Sign not allowed with integer format specifier 'c'"
    if l.alternate then refused "Alternate form (#) not allowed with integer format specifier 'c'"
    if i < 0 || 0x10FFFF < i then
      throw (.ofText .overflow "%c arg not in range(0x110000)")
    return l.place [] [Char.ofNat i.toNat]
  let (base, mark) := match form with
    | 'b' => (2, ['0', 'b'])
    | 'o' => (8, ['0', 'o'])
    | 'x' => (16, ['0', 'x'])
    | 'X' => (16, ['0', 'X'])
    | _ => (10, [])
  let digits := Nat.toDigits base i.natAbs
  let digits := if form = 'X' then digits.map Char.toUpper else digits
  let front := l.signChars (i < 0) ++ (if l.alternate then mark else [])
  let size := if base = 10 then 3 else 4
  return l.place front (l.grouped size front.length digits)

def magnitudeText (l : Layout) (m : Nat) (e : Int) (form : Char) : List Char :=
  let precision := l.precision.getD 6
  match form with
  | 'e' => scientificText l.alternate precision m e
  | 'f' => fixedText l.alternate precision m e
  | 'g' => generalText l.alternate false precision m e
  | _ =>
    match l.precision with
    | some n => generalText l.alternate true n m e
    | none =>
      let text := (Binary64.finite false m e).text.toList
      if l.alternate && !text.contains '.' then
        text.takeWhile (· != 'e') ++ '.' :: text.dropWhile (· != 'e')
      else text

def placeReal (l : Layout) (x : Binary64) (form : Char) : Except Failure (List Char) := do
  let percent := form = '%'
  let upperCase := form.isUpper
  let base : Char := if percent then 'f' else if form = 'n' then 'g' else form.toLower
  let x := if percent then
      match x with
      | .finite negative m e =>
        let (n, d) := Binary64.ratio m e
        Binary64.ofRatio negative (100 * n) d
      | x => x
    else x
  let (negative, text) := match x with
    | .nan => (false, ['n', 'a', 'n'])
    | .infinite negative => (negative, ['i', 'n', 'f'])
    | .finite negative m e => (negative, magnitudeText l m e base)
  let isZero := text.all fun c => !('1' ≤ c && c ≤ '9')
  let negative := negative && !(l.positiveZero && isZero && x.isFinite)
  let text := if upperCase then text.map Char.toUpper else text
  let text := if percent then text ++ ['%'] else text
  let front := l.signChars negative
  let whole := text.takeWhile Char.isDigit
  let rest := text.dropWhile Char.isDigit
  return l.place front (l.grouped 3 (front.length + rest.length) whole ++ rest)

def wholeForms : List Char := ['b', 'c', 'd', 'o', 'x', 'X', 'n']

def realForms : List Char := ['e', 'E', 'f', 'F', 'g', 'G', '%']

/-- Lays out an integer, in its own forms or as a binary number. -/
def formatWhole (typeName : String) (i : Int) (spec : List Char) : Except Failure (List Char) := do
  let l ← readLayout typeName 'd' .right spec
  let form := l.form.getD 'd'
  if wholeForms.contains form then placeWhole l i form
  else if realForms.contains form then
    match Binary64.ofInt i with
    | .infinite _ => throw (.ofText .overflow "int too large to convert to float")
    | x => placeReal l x form
  else unknownForm form typeName

def formatReal (x : Binary64) (spec : List Char) : Except Failure (List Char) := do
  let l ← readLayout "float" '\x00' .right spec
  match l.form with
  | none => placeReal l x 'r'
  | some form =>
    if realForms.contains form || form = 'n' then placeReal l x form
    else unknownForm form "float"

end LintBroker.Template

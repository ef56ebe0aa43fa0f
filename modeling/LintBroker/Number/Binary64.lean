/-! # Binary floating point

Binary64 numbers as data: a sign, a mantissa below `2 ^ 53` and an exponent of two, in the one form
in which the mantissa has 53 bits unless the exponent is the least one. Values enter by rounding a
ratio of naturals to the nearest such number, a tie going to the even mantissa. -/
namespace LintBroker.Number

/-- A binary64 number; `finite s m e` is `± m * 2 ^ e`. -/
inductive Binary64
  | nan
  | infinite (negative : Bool)
  | finite (negative : Bool) (mantissa : Nat) (exponent : Int)
deriving DecidableEq, Repr, Inhabited

namespace Binary64

def minExponent : Int := -1074

def maxExponent : Int := 971

def zero (negative : Bool) : Binary64 := .finite negative 0 minExponent

/-- `n / d` rounded to the nearest natural, a tie going to the even one. -/
def divideToEven (n d : Nat) : Nat :=
  let q := n / d
  let r := n % d
  if 2 * r < d then q else if d < 2 * r then q + 1 else q + q % 2

/-- `n / d` as a numerator and a denominator of `n / d / 2 ^ e`. -/
def scaleDown (n d : Nat) (e : Int) : Nat × Nat :=
  if 0 ≤ e then (n, d * Nat.pow 2 e.toNat) else (n * Nat.pow 2 (-e).toNat, d)

/-- The exponent that leaves 53 bits before the point of `n / d / 2 ^ e`, unless that is below the
least exponent. -/
def exponentFor (n d : Nat) : Int :=
  let k : Int := n.log2 - d.log2
  let (a, b) := scaleDown n d k
  let top := if b ≤ a then k else k - 1
  max minExponent (top - 52)

/-- The number nearest to `± n / d`. -/
def ofRatio (negative : Bool) (n d : Nat) : Binary64 :=
  if n = 0 then zero negative
  else
    let e := exponentFor n d
    let (a, b) := scaleDown n d e
    let m := divideToEven a b
    let (m, e) := if m = Nat.pow 2 53 then (Nat.pow 2 52, e + 1) else (m, e)
    if maxExponent < e then .infinite negative else .finite negative m e

def ofInt (i : Int) : Binary64 := ofRatio (i < 0) i.natAbs 1

/-- The number nearest to `± m * 10 ^ e`. Exponents far outside the range need no large powers. -/
def ofDecimal (negative : Bool) (m : Nat) (e : Int) : Binary64 :=
  if m = 0 then zero negative
  else
    let size : Int := e + (Nat.toDigits 10 m).length
    if 310 < size then .infinite negative
    else if size < -330 then zero negative
    else if 0 ≤ e then ofRatio negative (m * Nat.pow 10 e.toNat) 1
    else ofRatio negative m (Nat.pow 10 (-e).toNat)

def isZero : Binary64 → Bool
  | .finite _ m _ => m == 0
  | _ => false

def isFinite : Binary64 → Bool
  | .finite .. => true
  | _ => false

/-- The magnitude of a finite number as a ratio. -/
def ratio (m : Nat) (e : Int) : Nat × Nat :=
  if 0 ≤ e then (m * Nat.pow 2 e.toNat, 1) else (m, Nat.pow 2 (-e).toNat)

/-- The integer that a finite number without a fractional part equals. -/
def toInt? : Binary64 → Option Int
  | .finite negative m e =>
    let (n, d) := ratio m e
    if n % d = 0 then
      let q : Int := (n / d : Nat)
      some (if negative then -q else q)
    else none
  | _ => none

end Binary64

end LintBroker.Number

namespace LintBroker

/-- A number of either form. -/
inductive Number
  | whole (i : Int)
  | real (x : Number.Binary64)
deriving DecidableEq, Repr, Inhabited

namespace Number

/-- A finite number as a signed numerator over a positive denominator. -/
def fraction? : Number → Option (Int × Nat)
  | .whole i => some (i, 1)
  | .real (.finite negative m e) =>
    let (n, d) := Binary64.ratio m e
    some (if negative then -(n : Int) else n, d)
  | .real _ => none

/-- Order by value. An undefined number is not comparable with anything. -/
def le (a b : Number) : Bool :=
  match a, b with
  | .real .nan, _ => false
  | _, .real .nan => false
  | .real (.infinite true), _ => true
  | _, .real (.infinite false) => true
  | _, _ =>
    match a.fraction?, b.fraction? with
    | some (n, d), some (n', d') => n * d' ≤ n' * d
    | _, _ => false

/-- Equality of value, across the two forms. -/
def same (a b : Number) : Bool := a.le b && b.le a

instance : LE Number := ⟨fun a b => a.le b = true⟩

instance (a b : Number) : Decidable (a ≤ b) := inferInstanceAs (Decidable (a.le b = true))

/-- Whole numbers are ordered as integers. -/
@[simp] theorem whole_le_whole {i j : Int} : Number.whole i ≤ Number.whole j ↔ i ≤ j := by
  simp [LE.le, le, fraction?]

end Number
end LintBroker

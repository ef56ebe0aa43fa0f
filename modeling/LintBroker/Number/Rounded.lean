import LintBroker.Number.Decimal

/-! # Decimal text with a given number of digits

Positional and exponential text of a magnitude `m * 2 ^ e`, rounded to the nearest text of its
length; a tie goes to the even digit. -/
namespace LintBroker.Number

/-- `m * 2 ^ e / 10 ^ g` rounded to the nearest natural. -/
def roundAt (m : Nat) (e g : Int) : Nat :=
  Binary64.divideToEven (m * Nat.pow 2 e.toNat * Nat.pow 10 (-g).toNat)
    (Nat.pow 10 g.toNat * Nat.pow 2 (-e).toNat)

/-- A natural as digits, padded with zeros in front to a width. -/
def paddedDigits (width n : Nat) : List Char :=
  let digits := Nat.toDigits 10 n
  List.replicate (width - digits.length) '0' ++ digits

/-- Digits around a point; the point is left out if nothing follows it, unless it is wanted. -/
def withPoint (keepPoint : Bool) (whole part : List Char) : List Char :=
  if part.isEmpty && !keepPoint then whole else whole ++ '.' :: part

/-- A given number of digits and the exponent of the first one. -/
def leadingDigits (count m : Nat) (e : Int) : List Char × Int :=
  if m = 0 then (List.replicate count '0', 0)
  else
    let first := decimalSize m e - 1
    let n := roundAt m e (first - (count - 1 : Nat))
    if n = Nat.pow 10 count then (paddedDigits count (n / 10), first + 1)
    else (paddedDigits count n, first)

def fixedText (keepPoint : Bool) (places m : Nat) (e : Int) : List Char :=
  let digits := paddedDigits (places + 1) (roundAt m e (-places))
  withPoint keepPoint (digits.take (digits.length - places)) (digits.drop (digits.length - places))

def scientific (keepPoint : Bool) (digits : List Char) (exponent : Int) : List Char :=
  withPoint keepPoint (digits.take 1) (digits.drop 1) ++ exponentText exponent

def scientificText (keepPoint : Bool) (places m : Nat) (e : Int) : List Char :=
  let (digits, exponent) := leadingDigits (places + 1) m e
  scientific keepPoint digits exponent

/-- Digits without the zeros at their end, of which a number has to stay. -/
def withoutFinalZeros (keep : Nat) (digits : List Char) : List Char :=
  let kept := (digits.reverse.dropWhile (· == '0')).reverse
  digits.take (max keep kept.length)

/-- Text with a number of digits, positional unless the exponent is below -4 or reaches `limit`.
Zeros at the end are dropped unless they are wanted, in which case the point is kept too. -/
def generalText (keepZeros withPart : Bool) (precision : Nat) (m : Nat) (e : Int) : List Char :=
  let count := max precision 1
  let limit : Int := if withPart then (count : Int) - 1 else count
  let (digits, exponent) := leadingDigits count m e
  if exponent < -4 || limit ≤ exponent then
    let digits := if keepZeros then digits else withoutFinalZeros 1 digits
    scientific keepZeros digits exponent
  else
    let point := exponent + 1
    let whole := if point ≤ 0 then ['0'] else digits.take point.toNat
    let part :=
      if point ≤ 0 then List.replicate (-point).toNat '0' ++ digits else digits.drop point.toNat
    let part := if keepZeros then part else withoutFinalZeros 0 part
    let part := if part.isEmpty && withPart then ['0'] else part
    withPoint keepZeros whole part

end LintBroker.Number

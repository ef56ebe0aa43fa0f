import LintBroker.Number.Binary64

/-! # Decimal text of binary numbers

A finite number is written with the fewest digits that round back to it, the nearest such text if
there are several; positionally from `0.0001` up to below `10 ^ 16`, otherwise with an exponent. -/
namespace LintBroker.Number

/-- Compares `d * 10 ^ g` with `x * 2 ^ e`. -/
def comparePowers (d : Nat) (g : Int) (x : Nat) (e : Int) : Ordering :=
  let left := d * Nat.pow 10 g.toNat * Nat.pow 2 (-e).toNat
  let right := x * Nat.pow 2 e.toNat * Nat.pow 10 (-g).toNat
  compare left right

/-- The least `p` with `m * 2 ^ e < 10 ^ p`, for positive `m`. -/
def decimalSize (m : Nat) (e : Int) : Int :=
  let estimate := ((m.log2 + e) * 30103) / 100000
  let candidates := (List.range 5).map fun k : Nat => estimate - 1 + (k : Int)
  (candidates.find? fun p => comparePowers 1 p m e == .gt).getD (estimate + 4)

/-- Whether `d * 10 ^ g` rounds to `m * 2 ^ e`. The lower half of the interval is shorter where the
exponent changes; the ends belong to it if the mantissa is even. -/
def roundsTo (m : Nat) (e : Int) (d : Nat) (g : Int) : Bool :=
  let low := if m = Nat.pow 2 52 && Binary64.minExponent < e then 4 * m - 1 else 4 * m - 2
  let high := 4 * m + 2
  let closed := m % 2 == 0
  let aboveLow := comparePowers d g low (e - 2)
  let belowHigh := comparePowers d g high (e - 2)
  (aboveLow == .gt || (closed && aboveLow == .eq)) &&
    (belowHigh == .lt || (closed && belowHigh == .eq))

/-- The better of the two neighbours of `m * 2 ^ e` on the grid of multiples of `10 ^ g`, if one of
them rounds back. -/
def onGrid (m : Nat) (e : Int) (g : Int) : Option Nat :=
  let floor := (m * Nat.pow 2 e.toNat * Nat.pow 10 (-g).toNat) /
    (Nat.pow 10 g.toNat * Nat.pow 2 (-e).toNat)
  match roundsTo m e floor g && floor != 0, roundsTo m e (floor + 1) g with
  | true, false => some floor
  | false, true => some (floor + 1)
  | false, false => none
  | true, true =>
    match comparePowers (2 * floor + 1) g (2 * m) e with
    | .gt => some floor
    | .lt => some (floor + 1)
    | .eq => some (floor + floor % 2)

/-- The shortest digits that round back, with the power of ten of the last one. -/
def shortest (m : Nat) (e : Int) : Nat × Int :=
  let size := decimalSize m e
  let grids := (List.range 17).map fun n : Nat => size - 1 - (n : Int)
  (grids.findSome? fun g => (onGrid m e g).map fun d => (d, g)).getD (m, 0)

/-- Digits without the zeros at their end, and where the point stands, counted from their start. -/
def significant (d : Nat) (g : Int) : List Char × Int :=
  let digits := Nat.toDigits 10 d
  ((digits.reverse.dropWhile (· == '0')).reverse, digits.length + g)

/-- The exponent part: a sign and at least two digits. -/
def exponentText (e : Int) : List Char :=
  let digits := Nat.toDigits 10 e.natAbs
  'e' :: (if e < 0 then '-' else '+') :: (List.replicate (2 - digits.length) '0' ++ digits)

/-- Lays digits out around the point. -/
def layOut (digits : List Char) (point : Int) : List Char :=
  if -4 < point && point ≤ 16 then
    if point ≤ 0 then '0' :: '.' :: (List.replicate (-point).toNat '0' ++ digits)
    else
      let n := point.toNat
      let whole := digits.take n ++ List.replicate (n - digits.length) '0'
      let part := digits.drop n
      whole ++ '.' :: (if part.isEmpty then ['0'] else part)
  else
    let tail := digits.drop 1
    digits.take 1 ++ (if tail.isEmpty then [] else '.' :: tail) ++ exponentText (point - 1)

def Binary64.text : Binary64 → String
  | .nan => "nan"
  | .infinite false => "inf"
  | .infinite true => "-inf"
  | .finite negative m e =>
    let body :=
      if m = 0 then ['0', '.', '0']
      else
        let (d, g) := shortest m e
        let (digits, point) := significant d g
        layOut digits point
    String.ofList (if negative then '-' :: body else body)

/-- The value of a list of decimal digits; none if it is empty or holds another character. -/
def digitsValue? (cs : List Char) : Option Nat :=
  if cs.isEmpty || !cs.all Char.isDigit then none
  else some (cs.foldl (fun n c => 10 * n + (c.toNat - '0'.toNat)) 0)

/-- Splits off a leading sign; the flag tells a minus. -/
def splitSign : List Char → Bool × List Char
  | '-' :: rest => (true, rest)
  | '+' :: rest => (false, rest)
  | cs => (false, cs)

/-- The exponent after an `e`: an optional sign and digits. -/
def exponentValue? (cs : List Char) : Option Int :=
  let (negative, digits) := splitSign cs
  (digitsValue? digits).map fun n => if negative then -(n : Int) else n

/-- Reads digits with an optional point, at least one digit in all: their value and how many stood
after the point. -/
def mantissaValue? (cs : List Char) : Option (Nat × Nat) :=
  let whole := cs.takeWhile (· != '.')
  let part := (cs.dropWhile (· != '.')).drop 1
  (digitsValue? (whole ++ part)).map fun n => (n, part.length)

/-- Reads a decimal number: a sign, digits with an optional point and an optional exponent, or one
of the words for infinity and for an undefined number in any letter case. -/
def Binary64.ofText? (s : String) : Option Binary64 :=
  let (negative, body) := splitSign s.toList
  let word := String.ofList (body.map Char.toLower)
  if word = "nan" then some .nan
  else if word = "inf" || word = "infinity" then some (.infinite negative)
  else
    let isMark := fun c : Char => c == 'e' || c == 'E'
    let mantissa := body.takeWhile fun c => !isMark c
    let exponent := match body.dropWhile fun c => !isMark c with
      | [] => some 0
      | _ :: rest => exponentValue? rest
    match mantissaValue? mantissa, exponent with
    | some (n, places), some e => some (Binary64.ofDecimal negative n (e - places))
    | _, _ => none

end LintBroker.Number

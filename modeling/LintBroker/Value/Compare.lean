import LintBroker.Value.Printed
import LintBroker.Failure.Basic

/-! # Equality, membership and iteration

Values are equal by what they hold: numbers across their forms, strings by their text. Containers
that look values up by hash refuse those that can change. -/
namespace LintBroker
namespace Value
open Number

mutual
/-- Equality of what two values hold. -/
def same : Value → Value → Bool
  | .none, .none => true
  | .bool a, v => match v.number? with
    | some n => Number.same (.whole (if a then 1 else 0)) n
    | Option.none => false
  | .int a, v => match v.number? with
    | some n => Number.same (.whole a) n
    | Option.none => false
  | .real a, v => match v.number? with
    | some n => Number.same (.real a) n
    | Option.none => false
  | .str a, v => v.text? == some a
  | .scope a, v => v.text? == some a.word
  | .bytes a, .bytes b => a == b
  | .list as, .list bs | .tuple as, .tuple bs => sameItems as bs
  | .set as, .set bs => as.length == bs.length && allAmong as bs
  | .dict as, .dict bs => as.length == bs.length && sameRows as bs
  | _, _ => false

def sameItems : List Value → List Value → Bool
  | [], [] => true
  | a :: as, b :: bs => same a b && sameItems as bs
  | _, _ => false

/-- Every value of the first list is among those of the second. -/
def allAmong : List Value → List Value → Bool
  | [], _ => true
  | a :: as, bs => bs.any (same a) && allAmong as bs

/-- Every row of the first dictionary is a row of the second. -/
def sameRows : List (String × Value) → List (String × Value) → Bool
  | [], _ => true
  | (k, a) :: as, bs =>
    (match bs.lookup k with
      | some b => same a b
      | Option.none => false) && sameRows as bs
end

mutual
/-- The type that keeps a value from being looked up by hash. -/
def mutableType? : Value → Option String
  | .list _ => some "list"
  | .dict _ => some "dict"
  | .set _ => some "set"
  | .tuple items => firstMutableType? items
  | _ => Option.none

/-- The first such type among the items of a tuple. -/
def firstMutableType? : List Value → Option String
  | [] => Option.none
  | v :: rest => match mutableType? v with
    | some t => some t
    | Option.none => firstMutableType? rest
end

def unhashable (typeName : String) : Failure :=
  .ofText .badType ("unhashable type: '" ++ typeName ++ "'")

/-- Whether the values of a list hold one that equals the given value. -/
def among (v : Value) (items : List Value) : Bool := items.any (same v)

/-- The values that running through a value yields. -/
def items (v : Value) : Except Failure (List Value) :=
  match v with
  | .list items | .tuple items | .set items | .stream items => .ok items
  | .str s => .ok (s.toList.map fun c => .str c.toString)
  | .scope s => .ok (s.word.toList.map fun c => .str c.toString)
  | .bytes b => .ok (b.map fun x => .int x.toNat)
  | .dict rows => .ok (rows.map fun r => .str r.1)
  | v => .error (.ofText .badType ("'" ++ v.typeName ++ "' object is not iterable"))

/-- The distinct values that running through a value yields, each fit to be looked up by hash. -/
def distinctItems (v : Value) : Except Failure (List Value) := do
  let found ← v.items
  found.foldlM (fun seen x =>
    match x.mutableType? with
    | some t => throw (unhashable t)
    | Option.none => return if x.among seen then seen else seen ++ [x]) []

def occursIn (part whole : List Char) : Bool :=
  match whole with
  | [] => part.isEmpty
  | c :: rest => part.isPrefixOf (c :: rest) || occursIn part rest

/-- Whether a value contains another: as a part of a string, as an item, or as a key. -/
def contains (container v : Value) : Except Failure Bool :=
  match container with
  | .str s => within s v
  | .scope s => within s.word v
  | .bytes b => match v with
    | .bytes part => .ok (occursIn (part.map byteChar) (b.map byteChar))
    | .int i =>
      if 0 ≤ i && i < 256 then .ok (b.any fun x => x.toNat == i.toNat)
      else .error (.ofText .badValue "byte must be in range(0, 256)")
    | v => .error (.ofText .badType
        ("a bytes-like object is required, not '" ++ v.typeName ++ "'"))
  | .list items | .tuple items | .stream items => .ok (v.among items)
  | .set items => match v, v.mutableType? with
    | .set _, _ => .ok (v.among items)
    | _, some t => .error (unhashable t)
    | _, Option.none => .ok (v.among items)
  | .dict rows => match v.mutableType? with
    | some t => .error (unhashable t)
    | Option.none => .ok (rows.any fun r => same (.str r.1) v)
  | container => .error (.ofText .badType
      ("argument of type '" ++ container.typeName ++ "' is not iterable"))
where
  /-- A text contains only texts. -/
  within (s : String) (v : Value) : Except Failure Bool :=
    match v.text? with
    | some part => .ok (occursIn part.toList s.toList)
    | Option.none => .error (.ofText .badType
        ("'in <string>' requires string as left operand, not " ++ v.typeName))
  /-- A byte as the character of the same code. -/
  byteChar (b : UInt8) : Char := Char.ofNat b.toNat

end Value
end LintBroker

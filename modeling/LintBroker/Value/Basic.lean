import LintBroker.Number.Binary64
import LintBroker.Scope

/-! # Dynamic values

What editors, providers and users hand over has no fixed type: settings, attributes, messages and
the arguments of errors are values of one dynamic type. -/
namespace LintBroker
open Number

/-- A dynamic value. A stream can be run through once; an object is opaque but for its type. -/
inductive Value
  | none
  | bool (b : Bool)
  | int (i : Int)
  | real (x : Binary64)
  | str (s : String)
  | scope (s : Scope)
  | bytes (bytes : List UInt8)
  | list (items : List Value)
  | tuple (items : List Value)
  | set (items : List Value)
  | dict (rows : List (String × Value))
  | stream (items : List Value)
  | object (typeName : String)
deriving Inhabited

namespace Value

def typeName : Value → String
  | .none => "NoneType"
  | .bool _ => "bool"
  | .int _ => "int"
  | .real _ => "float"
  | .str _ => "str"
  | .scope _ => "Scope"
  | .bytes _ => "bytes"
  | .list _ => "list"
  | .tuple _ => "tuple"
  | .set _ => "set"
  | .dict _ => "dict"
  | .stream _ => "generator"
  | .object t => t

/-- Whether a value counts as true: zero and whatever is empty do not. -/
def truthy : Value → Bool
  | .none => false
  | .bool b => b
  | .int i => i != 0
  | .real x => !x.isZero
  | .str s => !s.isEmpty
  | .bytes b => !b.isEmpty
  | .list items | .tuple items | .set items => !items.isEmpty
  | .dict rows => !rows.isEmpty
  | .scope _ | .stream _ | .object _ => true

/-- The text of a value that is a string. A scope is a string, its word. -/
def text? : Value → Option String
  | .str s => some s
  | .scope s => some s.word
  | _ => Option.none

/-- The number that a value is. The two truth values are one and zero. -/
def number? : Value → Option Number
  | .bool b => some (.whole (if b then 1 else 0))
  | .int i => some (.whole i)
  | .real x => some (.real x)
  | _ => Option.none

def sequence? : Value → Option (List Value)
  | .list items | .tuple items => some items
  | _ => Option.none

def isBool : Value → Bool
  | .bool _ => true
  | _ => false

@[simp] theorem truthy_bool (b : Bool) : (Value.bool b).truthy = b := rfl

end Value
end LintBroker

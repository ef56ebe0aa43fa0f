import LintBroker.Failure.Basic
import LintBroker.Notice
import LintBroker.Table

/-! # Attributes of providers

A provider is an object of the host's: its attributes are read when they are needed, may change at
any time, and reading one may fail. -/
namespace LintBroker

/-- The two contracts for providers; they differ in the name of the field that says whether a
provider runs while the user types. -/
inductive Contract
  | legacy
  | current
deriving DecidableEq, Repr, Inhabited

namespace Contract

def number : Contract → Nat
  | .legacy => 1
  | .current => 2

/-- The field that says whether a provider runs while the user types. -/
def trigger : Contract → String
  | .legacy => "lint_on_fly"
  | .current => "lints_on_change"

end Contract

/-- The attributes of a provider. Its own values come before the defaults of its class, and a
failure comes before both. -/
structure Attributes where
  className : String := "Provider"
  own : Table String Value := ∅
  defaults : Table String Value := ∅
  failures : Table String Failure := ∅
  hasLint : Bool := true

/-- What an attribute is: a value, or the method that lints. -/
inductive Attribute
  | value (v : Value)
  | method
deriving Inhabited

/-- The value standing for an attribute. The method that lints is opaque. -/
def Attribute.toValue : Attribute → Value
  | .value v => v
  | .method => .object "method"

namespace Attributes

/-- The defaults that a class of providers inherits from the base class of its contract. -/
def baseDefaults (c : Contract) : Table String Value :=
  .ofList [("scope", .scope .file), ("grammar_scopes", .tuple []), (c.trigger, .bool false)]

/-- The attributes of a new provider of a class. A class that inherits from a base class has to
define the method that lints. -/
def ofClass (className : String) (base : Option Contract) (hasLint : Bool) :
    Except Failure Attributes :=
  match base with
  | none => .ok { className, hasLint }
  | some c =>
    if hasLint then .ok { className, hasLint, defaults := baseDefaults c }
    else .error (.ofText .badType
      ("Can't instantiate abstract class " ++ className ++ " with abstract method lint"))

def lookUp (a : Attributes) (name : String) : Except Failure Attribute :=
  match a.failures.get? name with
  | some f => .error f
  | none =>
    match a.own.get? name, a.defaults.get? name with
    | some v, _ => .ok (.value v)
    | none, some v => .ok (.value v)
    | none, none =>
      if name = "lint" && a.hasLint then .ok .method
      else .error (Failure.noAttribute a.className name)

def read (a : Attributes) (name : String) : Except Failure Value :=
  (a.lookUp name).map Attribute.toValue

/-- Reads an attribute that may be missing. Every other failure to read it stays one. -/
def read? (a : Attributes) (name : String) : Except Failure (Option Attribute) :=
  match a.lookUp name with
  | .ok v => .ok (some v)
  | .error f => if f.isMissingAttribute then .ok none else .error f

def set (a : Attributes) (name : String) (v : Value) : Attributes := { a with own := a.own.put name v }

/-- Removes an attribute that was set. The defaults of the class cannot be removed. -/
def delete (a : Attributes) (name : String) : Except Failure Attributes :=
  if a.own.has name then .ok { a with own := a.own.erase name }
  else .error (Failure.noAttribute a.className name)

def name (a : Attributes) : Except Failure String := (a.read "name").map Value.plain

def scope (a : Attributes) : Except Failure Scope := do
  let v ← a.read "scope"
  match v.text?.bind Scope.ofWord? with
  | some s => return s
  | none => throw (Failure.notAScope v)

/-- Whether the provider runs while the user types, read through the contract it was registered
with. -/
def lintsOnChange (a : Attributes) (c : Contract) : Except Failure Bool :=
  (a.read c.trigger).map Value.truthy

end Attributes
end LintBroker

import LintBroker.Failure.Broker
import LintBroker.Provider.Basic

/-! # The provider contract

A provider may be registered if it has a name, a scope, a list of grammar scopes, a trigger field
and a method that lints. Every breach is reported, not only the first. -/
namespace LintBroker

/-- The contract that a provider follows: the legacy one if the caller says so, or if the provider
has only the legacy trigger field. -/
def Contract.of (a : Attributes) (forced : Bool) : Except Failure Contract := do
  if forced then return .legacy
  match ← a.read? Contract.legacy.trigger with
  | none => return .current
  | some _ =>
    match ← a.read? Contract.current.trigger with
    | some _ => return .current
    | none => return .legacy

inductive Breach
  | name
  | scope (given : Value)
  | grammarScopes
  | trigger (field : String)
  | lint
deriving Inhabited

def Breach.message : Breach → String
  | .name => "'name' must be a non-empty string"
  | .scope v => "'scope' must be one of 'file' or 'project', not " ++ v.literal
  | .grammarScopes => "'grammar_scopes' must be a list of strings"
  | .trigger field => Text.quoted field ++ " must be a boolean"
  | .lint => "'lint' must be callable"

namespace Attributes

/-- An attribute as a value; a missing one counts as none. -/
def valueOrNone : Option Attribute → Value
  | some x => x.toValue
  | none => .none

/-- A name is a string that is not empty. -/
def nameBreach (v : Value) : Option Breach :=
  match v.text? with
  | some s => if s.isEmpty then some .name else none
  | none => some .name

/-- A scope is one of the two words, or the scope itself. Values that cannot be looked up by hash
cannot be compared with the words. -/
def scopeBreach (v : Value) : Except Failure (Option Breach) :=
  match v.text? with
  | some w => .ok (if (Scope.ofWord? w).isSome then none else some (.scope v))
  | none =>
    match v, v.mutableType? with
    | .set _, _ => .ok (some (.scope v))
    | _, some t => .error (Value.unhashable t)
    | _, none => .ok (some (.scope v))

/-- Grammar scopes are a list or a tuple of strings. -/
def grammarBreach (v : Value) : Option Breach :=
  match v.sequence? with
  | some items => if items.all fun x => x.text?.isSome then none else some .grammarScopes
  | none => some .grammarScopes

/-- Every breach of a contract, in the order of its clauses. -/
def breaches (a : Attributes) (c : Contract) : Except Failure (List Breach) := do
  let name := nameBreach (valueOrNone (← a.read? "name"))
  let scope ← scopeBreach (valueOrNone (← a.read? "scope"))
  let grammar := grammarBreach (valueOrNone (← a.read? "grammar_scopes"))
  let trigger :=
    if (valueOrNone (← a.read? c.trigger)).isBool then none else some (Breach.trigger c.trigger)
  let lint := match ← a.read? "lint" with
    | some .method => none
    | _ => some Breach.lint
  return [name, scope, grammar, trigger, lint].filterMap id

/-- Refuses a provider that breaks the contract. It is named by its name or, failing that, by its
class. -/
def validate (a : Attributes) (c : Contract) : Except Failure Unit := do
  match ← a.breaches c with
  | [] => return ()
  | found =>
    let name := valueOrNone (← a.read? "name")
    let shown := if name.truthy then name.plain else a.className
    throw (.invalidProvider shown (found.map Breach.message))

end Attributes
end LintBroker

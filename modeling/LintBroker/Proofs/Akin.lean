import LintBroker.Proofs.Lockstep
import LintBroker.Proofs.Quiet

/-!
# Akin attributes and records

Attributes are akin if they differ at most in the trigger fields, and records if they differ at most
in the contract, as long as whether the provider runs while the user types is the same through both.
So everything else that is read of them is the same.
-/
namespace LintBroker

namespace Attributes

/-- An attribute that is the trigger field of no contract. -/
def IsPlain (name : String) : Prop := ∀ c : Contract, name ≠ c.trigger

instance (name : String) : Decidable (IsPlain name) :=
  decidable_of_iff (name ≠ Contract.legacy.trigger ∧ name ≠ Contract.current.trigger)
    ⟨fun h c => by cases c; exacts [h.1, h.2], fun h => ⟨h .legacy, h .current⟩⟩

/-- Attributes that differ at most in the trigger fields. -/
structure Akin (a a' : Attributes) : Prop where
  className : a.className = a'.className
  hasLint : a.hasLint = a'.hasLint
  own : ∀ n, IsPlain n → a.own.get? n = a'.own.get? n
  defaults : ∀ n, IsPlain n → a.defaults.get? n = a'.defaults.get? n
  failures : ∀ n, IsPlain n → a.failures.get? n = a'.failures.get? n

namespace Akin
variable {a a' : Attributes}

theorem refl (a : Attributes) : a.Akin a := ⟨rfl, rfl, fun _ _ => rfl, fun _ _ => rfl, fun _ _ => rfl⟩

variable (h : a.Akin a')
include h

theorem lookUp {n : String} (plain : IsPlain n) : a.lookUp n = a'.lookUp n := by
  simp only [Attributes.lookUp, h.className, h.hasLint, h.own n plain, h.defaults n plain,
    h.failures n plain]

theorem read {n : String} (plain : IsPlain n) : a.read n = a'.read n :=
  congrArg (Except.map Attribute.toValue) (h.lookUp plain)

theorem read? {n : String} (plain : IsPlain n) : a.read? n = a'.read? n := by
  rw [Attributes.read?, Attributes.read?, h.lookUp plain]

theorem name : a.name = a'.name := by
  rw [Attributes.name, Attributes.name, h.read (by decide)]

theorem scope : a.scope = a'.scope := by
  rw [Attributes.scope, Attributes.scope, h.read (by decide)]

/-- Setting an attribute that is no trigger. -/
theorem set (n : String) (v : Value) : (a.set n v).Akin (a'.set n v) where
  className := h.className
  hasLint := h.hasLint
  own m plain := by
    simp only [Attributes.set, Table.get?_put]
    split
    · rfl
    · exact h.own m plain
  defaults := h.defaults
  failures := h.failures

end Akin
end Attributes

/-- Records that differ at most in the contract. What is read through them of whether the provider
runs while the user types is the same in all sessions that are related. -/
structure Record.Akin (S : Session → Session → Prop) (x x' : Record Nat) : Prop where
  provider : x.provider = x'.provider
  activated : x.activated = x'.activated
  counters : x.counters = x'.counters
  runs : ∀ s s', S s s' → (s.attributesOf x.provider).bind (·.lintsOnChange x.contract) =
    (s'.attributesOf x.provider).bind (·.lintsOnChange x'.contract)

theorem Record.Akin.refl {S : Session → Session → Prop} {x : Record Nat}
    (same : ∀ s s', S s s' → s.attributesOf x.provider = s'.attributesOf x.provider) :
    Record.Akin S x x := ⟨rfl, rfl, rfl, fun s s' h => by rw [same s s' h]⟩

theorem Record.Akin.rel_refl {S : Session → Session → Prop}
    (same : ∀ s s', S s s' → ∀ p, s.attributesOf p = s'.attributesOf p) (x : Option (Record Nat)) :
    Option.Rel (Record.Akin S) x x := by
  cases x with
  | none => exact .none
  | some x => exact .some (.refl fun s s' h => same s s' h x.provider)

/-- What is done to a registry. Providers that are set apart are registered elsewhere. -/
inductive Registry.Deed (apart : ProviderId → Prop) : (Registry → Registry) → Prop
  | insert {p : ProviderId} (hp : ¬ apart p) (c : Contract) : Deed apart (·.insert p c)
  | remove (p : ProviderId) : Deed apart (·.remove p)
  | dispose : Deed apart Registry.dispose
  | count (id : RecordId) (f : Counters Nat → Counters Nat) :
      Deed apart (·.changeRecord id fun x => { x with counters := f x.counters })
  | subscribe (x : Subscription) : Deed apart fun r => { r with bus := r.bus.subscribe x }
  | unsubscribe (x : Subscription) : Deed apart fun r => { r with bus := r.bus.unsubscribe x }

end LintBroker

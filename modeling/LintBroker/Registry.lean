import LintBroker.Bus
import LintBroker.Record

/-! # The registry

The registry keeps every registration ever made, in order, and says which of them are in force: at
most one for each provider, in the order in which they were made. -/
namespace LintBroker

/-- Registrations are numbered in the order in which they were made. -/
abbrev RecordId := Nat

/-- Every registration ever made, those in force by provider, the bus, and whether the registry has
been disposed. -/
structure Registry where
  records : Array (Record Nat) := #[]
  active : Table ProviderId RecordId := ∅
  bus : Bus := {}
  disposed : Bool := false

namespace Registry

def find? (r : Registry) (p : ProviderId) : Option RecordId := r.active.get? p

/-- The providers whose registrations are in force, in order. -/
def providers (r : Registry) : List ProviderId := r.active.keys

def changeRecord (r : Registry) (id : RecordId) (change : Record Nat → Record Nat) : Registry :=
  { r with records := r.records.modify id change }

/-- Makes a new registration, with counters at zero, and puts it in force. -/
def insert (r : Registry) (p : ProviderId) (contract : Contract) : Registry :=
  { r with
    records := r.records.push { provider := p, contract, counters := { lastReceived := 0 } }
    active := r.active.put p r.records.size }

/-- Takes the registration of a provider out of force. -/
def remove (r : Registry) (p : ProviderId) : Registry :=
  match r.find? p with
  | some id =>
    { r.changeRecord id Record.deactivate with active := r.active.erase p }
  | none => r

/-- Takes every registration out of force and silences the bus. -/
def dispose (r : Registry) : Registry :=
  { records := r.active.values.foldl (fun records id => records.modify id Record.deactivate) r.records
    active := ∅
    bus := r.bus.dispose
    disposed := true }

@[simp] theorem disposed_dispose (r : Registry) : r.dispose.disposed = true := rfl
@[simp] theorem providers_dispose (r : Registry) : r.dispose.providers = [] := rfl

/-- A new registration is the one in force for its provider, and for no other. -/
@[simp] theorem find?_insert (r : Registry) (p q : ProviderId) (contract : Contract) :
    (r.insert p contract).find? q = if p = q then some r.records.size else r.find? q := by
  simp [insert, find?]

/-- Removing a provider takes its registration out of force, and no other. -/
@[simp] theorem find?_remove (r : Registry) (p q : ProviderId) :
    (r.remove p).find? q = if p = q then none else r.find? q := by
  unfold remove
  cases h : r.find? p with
  | none =>
    by_cases hq : p = q
    · subst hq
      simp [h]
    · simp [hq]
  | some id => simp [find?]

@[simp] theorem disposed_insert (r : Registry) (p : ProviderId) (contract : Contract) :
    (r.insert p contract).disposed = r.disposed := rfl

@[simp] theorem disposed_remove (r : Registry) (p : ProviderId) :
    (r.remove p).disposed = r.disposed := by
  unfold remove
  split <;> rfl

end Registry
end LintBroker

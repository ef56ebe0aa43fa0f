import LintBroker.Provider.Basic

/-! # Registration records

A record belongs to one registration of one provider. It counts the requests sent, and remembers
the newest response that was accepted: a response is accepted only if it is newer than that. -/
namespace LintBroker

/-- Requests sent, and the newest response accepted. -/
structure Counters (γ : Type) where
  latest : Nat := 0
  lastReceived : γ
deriving DecidableEq, Repr, Inhabited

namespace Counters
variable {γ : Type} [LE γ] [DecidableLE γ]

/-- Counts one more request; its number is the new count. -/
def next (c : Counters γ) : Counters γ := { c with latest := c.latest + 1 }

/-- Whether a response would be accepted: it must not be older than or equal to the newest one. -/
def isNews (c : Counters γ) (g : γ) : Bool := !decide (g ≤ c.lastReceived)

/-- Remembers a response if it is news. -/
def receive (c : Counters γ) (g : γ) : Counters γ :=
  if c.isNews g then { c with lastReceived := g } else c

omit [LE γ] [DecidableLE γ] in
@[simp] theorem latest_next (c : Counters γ) : c.next.latest = c.latest + 1 := rfl

omit [LE γ] [DecidableLE γ] in
@[simp] theorem lastReceived_next (c : Counters γ) : c.next.lastReceived = c.lastReceived := rfl

@[simp] theorem latest_receive (c : Counters γ) (g : γ) : (c.receive g).latest = c.latest := by
  unfold receive
  split <;> rfl

/-- After a response has been presented the newest is the greater of the two. -/
theorem lastReceived_receive (c : Counters Nat) (g : Nat) :
    (c.receive g).lastReceived = max c.lastReceived g := by
  unfold receive isNews
  by_cases h : g ≤ c.lastReceived
  · simp [h]
  · simp [h, Nat.max_eq_right (Nat.le_of_lt (Nat.lt_of_not_le h))]

end Counters

/-- One registration of a provider: its contract, whether it is still in force, and its counters. -/
structure Record (γ : Type) where
  provider : ProviderId
  contract : Contract
  activated : Bool := true
  counters : Counters γ
deriving Inhabited

namespace Record
variable {γ : Type}

/-- Takes a registration out of force. The counters stay. -/
def deactivate (r : Record γ) : Record γ := { r with activated := false }

@[simp] theorem activated_deactivate (r : Record γ) : r.deactivate.activated = false := rfl
@[simp] theorem counters_deactivate (r : Record γ) : r.deactivate.counters = r.counters := rfl

end Record
end LintBroker

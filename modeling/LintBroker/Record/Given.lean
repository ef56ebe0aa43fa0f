import LintBroker.Record

/-! # Responses presented with any value

Whoever keeps a record outside a registry may present any value as the number of a response. Values
that are numbers are compared as numbers; others cannot be compared. -/
namespace LintBroker

/-- A value together with the number that it is. -/
structure Given where
  value : Value
  number : Number
deriving Inhabited

namespace Given

def zero : Given := ⟨.int 0, .whole 0⟩

instance : LE Given := ⟨fun a b => a.number ≤ b.number⟩

instance (a b : Given) : Decidable (a ≤ b) := inferInstanceAs (Decidable (a.number ≤ b.number))

def incomparable (a b : Value) : Failure :=
  .ofText .badType ("'<=' not supported between instances of '" ++ a.typeName ++ "' and '" ++
    b.typeName ++ "'")

end Given

/-- Presents a value as the number of a response, and tells whether it was accepted. -/
def Counters.present (c : Counters Given) (v : Value) : Except Failure (Bool × Counters Given) :=
  match v.number? with
  | none => .error (Given.incomparable v c.lastReceived.value)
  | some n => .ok (c.isNews ⟨v, n⟩, c.receive ⟨v, n⟩)

/-- What can be asked of a record. -/
inductive RecordCall
  | next
  | accept (v : Value)
  | deactivate
deriving Inhabited

namespace Record

/-- The record of a provider that was not asked yet. -/
def fresh (p : ProviderId) (c : Contract) : Record Given :=
  { provider := p, contract := c, counters := { lastReceived := Given.zero } }

/-- Answers a call: with the number of a new request, or with whether a response was accepted. -/
def perform (r : Record Given) : RecordCall → Except Failure Value × Record Given
  | .next =>
    let counters := r.counters.next
    (.ok (.int counters.latest), { r with counters })
  | .accept v =>
    match r.counters.present v with
    | .ok (news, counters) => (.ok (.bool news), { r with counters })
    | .error f => (.error f, r)
  | .deactivate => (.ok .none, r.deactivate)

end Record
end LintBroker

import LintBroker.Proofs.Isolation
import LintBroker.Proofs.Mirrors

/-!
# Faults of listeners

Two runs that differ only in when those listeners fail that only observe are the same to everybody
else: every task comes to the same result, every registration counts the same and is in force in both
or in neither, and the same listeners are called with the same notices in the same order.
-/
namespace LintBroker
open Session

/-- A listener that also fails on some of its calls, before it does anything. -/
def Listener.failing (x : Listener) (faults : Nat → Notice → Option Failure) : Listener where
  script count n := match faults count n with
    | some f => .fail f
    | none => x.script count n

theorem Listener.script_failing_some {x : Listener} {faults : Nat → Notice → Option Failure}
    {count : Nat} {n : Notice} {f : Failure} (hf : faults count n = some f) :
    (x.failing faults).script count n = .fail f := by
  simp only [Listener.failing, hf]

theorem Listener.script_failing_none {x : Listener} {faults : Nat → Notice → Option Failure}
    {count : Nat} {n : Notice} (hf : faults count n = none) :
    (x.failing faults).script count n = x.script count n := by
  simp only [Listener.failing, hf]

/-- A listener that observes still does if it fails in ordinary ways at any of its calls. -/
theorem Listener.Observes.failing {x : Listener} (h : x.Observes)
    {faults : Nat → Notice → Option Failure}
    (ordinary : ∀ count n f, faults count n = some f → f.isOrdinary = true) :
    (x.failing faults).Observes := by
  intro count handling n s
  cases hf : faults count n with
  | none =>
    rw [Listener.script_failing_none hf]
    exact h count handling n s
  | some f =>
    rw [Listener.script_failing_some hf]
    refine ⟨rfl, fun g hg => ?_, Airs.refl s⟩
    obtain rfl := Except.error.inj hg
    exact ordinary count n f hf

namespace Session
variable {s s' : Session}

def withListeners (s : Session) (ls : Table ListenerId Listener) : Session :=
  s.onHost fun h => { h with listeners := ls }

def deliveries (s : Session) : List (ListenerId × Notice) :=
  s.history.filterMap fun
    | .delivered l n => some (l, n)
    | _ => none

/-- What two runs have in common that the faults of listeners do not disturb: the result of every
task, what every registration counts and whether it is in force, who is registered, and who was called
with what; and every call that is made next comes to the same. -/
structure Unshaken (last last' : Session) : Prop where
  results : ∀ t, last.resultOf t = last'.resultOf t
  records : last.registry.records = last'.registry.records
  providers : last.registry.providers = last'.registry.providers
  deliveries : last.deliveries = last'.deliveries
  calls : ∀ a, (last.perform a).1 = (last'.perform a).1

theorem Mirrors.unshaken (h : s.Mirrors s') : s.Unshaken s' where
  results := resultOf_alike h.loop
  records := h.registry.records
  providers := congrArg Table.keys h.registry.active
  deliveries := h.filterMap_history fun e he => by
    cases e with
    | delivered => cases he
    | _ => rfl
  calls a := (h.perform a).1

theorem mirrors_opening {ls : Table ListenerId Listener}
    (alike : ∀ l, Option.Rel Listener.Mirrors (s.host.listeners.get? l) (ls.get? l)) :
    s.opening.Mirrors (s.withListeners ls).opening where
  host := ⟨rfl, rfl, alike, rfl, rfl, rfl⟩
  source := rfl
  template := rfl
  settings := rfl
  registry := .refl _
  loop := .refl (fun _ => rfl) _
  history := rfl

/-- Two runs that differ only in the faults of listeners that otherwise observe are unshaken by
them. -/
theorem unshaken_by_faults (s : Session) {ls : Table ListenerId Listener}
    (alike : ∀ l, Option.Rel Listener.Mirrors (s.host.listeners.get? l) (ls.get? l))
    (moves : List Move) :
    (s.opening.run moves).Unshaken ((s.withListeners ls).opening.run moves) :=
  ((mirrors_opening alike).run moves).unshaken

/-- The listener of a sample does nothing, and in the other run it fails on every call. -/
theorem sample_unshaken :
    let s := sample []
    let idle : Listener := ⟨fun _ _ => .done⟩
    let ls : Table ListenerId Listener := .ofList [("c", idle.failing fun _ _ => some sampleFault)]
    let moves := .act (.add "p" false) :: .act (.add "q" false) :: sampleLint
    (∀ l, Option.Rel Listener.Mirrors (s.host.listeners.get? l) (ls.get? l)) ∧
      (s.opening.run moves).Unshaken ((s.withListeners ls).opening.run moves) := by
  intro s idle ls moves
  have observes : idle.Observes := Listener.observes_of_idle fun _ _ => .inl rfl
  have fails : (idle.failing fun _ _ => some sampleFault).Observes :=
    observes.failing fun _ _ f hf => by
      obtain rfl := Option.some.inj hf
      rfl
  have alike (l : ListenerId) :
      Option.Rel Listener.Mirrors (s.host.listeners.get? l) (ls.get? l) := by
    have rows (x : Listener) : (Table.ofList [("c", x)]).get? l = if "c" = l then some x else none := by
      show ((∅ : Table ListenerId Listener).put "c" x).get? l = _
      rw [Table.get?_put, Table.get?_empty]
    show Option.Rel Listener.Mirrors ((Table.ofList [("c", idle)]).get? l) (ls.get? l)
    rw [rows, rows]
    split
    · exact .some (.inr ⟨observes, fails⟩)
    · exact .none
  exact ⟨alike, unshaken_by_faults s alike moves⟩

end Session
end LintBroker

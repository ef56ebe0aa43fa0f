import LintBroker.Proofs.Speech

/-!
# Listeners that only observe

A listener that only observes leaves the notice and the session as they are, apart from the lines that
it writes, and fails in ordinary ways if at all. With such listeners an emission always comes to its
end, and all that it does is to write who was called with what.
-/
namespace LintBroker
namespace Session
variable {s s' s'' : Session} {K K' : List Entry}

/-- Nothing happens but that entries are written, these and quiet ones, and that the calls of
listeners are counted. -/
def Airs (s : Session) (K : List Entry) (s' : Session) : Prop :=
  ∃ (deliveries : Table ListenerId Nat) (J : List Entry),
    s' = { s with host := { s.host with deliveries }, journal := s.journal ++ J.toArray } ∧
      J.filter (fun e => !e.isQuiet) = K

theorem Airs.refl (s : Session) : s.Airs [] s := ⟨s.host.deliveries, [], by simp, rfl⟩

theorem Airs.trans (h : s.Airs K s') (h' : s'.Airs K' s'') : s.Airs (K ++ K') s'' := by
  obtain ⟨_, J, rfl, rfl⟩ := h
  obtain ⟨deliveries, J', rfl, rfl⟩ := h'
  exact ⟨deliveries, J ++ J', by simp, List.filter_append ..⟩

/-- An entry that is not quiet is written. -/
theorem airs_noted {e : Entry} (h : e.isQuiet = false) (s : Session) : s.Airs [e] (s.noted e) :=
  ⟨s.host.deliveries, [e], by simp [noted], by simp [h]⟩

def Still (s s' : Session) : Prop := s.Airs [] s'

instance : IsPreorder Session Still where
  refl := Airs.refl
  trans _ _ _ := Airs.trans

theorem still_noted {e : Entry} (h : e.isQuiet = true) (s : Session) : s.Still (s.noted e) :=
  ⟨s.host.deliveries, [e], by simp [noted], by simp [h]⟩

theorem Airs.still (h : s.Airs K s') (h' : s'.Still s'') : s.Airs K s'' := by
  have both := h.trans h'
  rwa [List.append_nil] at both

theorem Still.airs (h : s.Still s') (h' : s'.Airs K s'') : s.Airs K s'' := Airs.trans h h'

theorem Airs.listeners (h : s.Airs K s') : s'.host.listeners = s.host.listeners := by
  obtain ⟨_, _, rfl, _⟩ := h
  rfl

theorem Airs.registry (h : s.Airs K s') : s'.registry = s.registry := by
  obtain ⟨_, _, rfl, _⟩ := h
  rfl

theorem Airs.attributesOf (h : s.Airs K s') (p : ProviderId) :
    s'.attributesOf p = s.attributesOf p := by
  obtain ⟨_, _, rfl, _⟩ := h
  rfl

theorem Airs.answerOf (h : s.Airs K s') (id : SurfaceId) (q : Surface.Question) :
    s'.answerOf id q = s.answerOf id q := by
  obtain ⟨_, _, rfl, _⟩ := h
  rfl

end Session

open Session

/-- The listener observes: whenever it is called it leaves the notice alone and only writes lines, and
its failures are ordinary. -/
def Listener.Observes (x : Listener) : Prop :=
  ∀ (count : Nat) (handling : Option Failure) (n : Notice) (s : Session),
    let r := ((x.script count n).run (Act.performIn handling) n).run s
    r.1.1 = n ∧ (∀ f, r.1.2 = .error f → f.isOrdinary = true) ∧ s.Still r.2

/-- All listeners only observe. -/
def Session.Observed (s : Session) : Prop :=
  ∀ l x, s.host.listeners.get? l = some x → x.Observes

theorem Session.Observed.congr {s s' : Session} (h : s.Observed)
    (listeners : s'.host.listeners = s.host.listeners) : s'.Observed := by
  intro l x hx
  rw [listeners] at hx
  exact h l x hx

/-- A listener that does nothing, or fails in an ordinary way, observes. -/
theorem Listener.observes_of_idle {x : Listener}
    (h : ∀ count n, x.script count n = .done ∨
      ∃ f, x.script count n = .fail f ∧ f.isOrdinary = true) : x.Observes := by
  intro count handling n s
  rcases h count n with idle | ⟨f, fails, ordinary⟩
  · rw [idle]
    exact ⟨rfl, nofun, .refl s⟩
  · rw [fails]
    refine ⟨rfl, fun g hg => ?_, .refl s⟩
    obtain rfl := Except.error.inj hg
    exact ordinary

namespace Act

theorem still_lines (e : Entry) (h : e.isLine = true) : KeepsTo Session.Still (note e).run :=
  still_noted (Entry.isQuiet_of_isLine h)

variable {s : Session} (handling : Option Failure) (d : Dispatch) (n : Notice)

def callEntries (l : ListenerId) : List Entry := [.delivered l n, .heard d l n]

/-- What is written of an emission to an audience. -/
def emissionEntries (audience : List ListenerId) : List Entry :=
  .emitted d n :: audience.flatMap (callEntries d n)

section observed
variable (observed : s.Observed)
include observed

theorem airs_call (l : ListenerId) :
    let r := (call handling d l n).run s
    r.1.1 = n ∧ (∀ f, r.1.2 = .error f → f.isOrdinary = true) ∧ s.Airs (callEntries d n l) r.2 := by
  have called : s.Airs (callEntries d n l) (atListener s d l n) :=
    (airs_noted (e := .delivered l n) rfl s).trans (airs_noted (e := .heard d l n) rfl _)
  rw [run_call]
  cases hx : s.host.listeners.get? l with
  | none => exact ⟨rfl, nofun, called⟩
  | some x =>
    let count := (s.host.deliveries.get? l).getD 0
    let counted := (atListener s d l n).onHost fun h =>
      { h with deliveries := h.deliveries.put l (count + 1) }
    have counts : (atListener s d l n).Still counted := 
      ⟨s.host.deliveries.put l (count + 1), [], by simp [counted, onHost, atListener], rfl⟩
    obtain ⟨same, ordinary, still⟩ := observed l x hx count handling n counted
    refine ⟨same, ?_, called.still (IsTrans.trans _ _ _ counts still)⟩
    intro f hf
    dsimp only at hf
    split at hf
    · rename_i g e hg
      obtain rfl := Except.error.inj hf
      rw [Failure.isOrdinary_during]
      exact ordinary g hg
    · exact ordinary f hf

theorem airs_deliverAll (kind : NoticeKind) (audience : List ListenerId) :
    let r := (deliverAll (call handling d) (reportListener kind) audience n).run s
    r.1 = .ok () ∧ s.Airs (audience.flatMap (callEntries d n)) r.2 := by
  induction audience generalizing s with
  | nil => exact ⟨rfl, .refl s⟩
  | cons l rest ih =>
    obtain ⟨same, ordinary, called⟩ := airs_call handling d n observed l
    cases hcall : (call handling d l n).run s with
    | mk answer s₁ =>
      obtain ⟨n', outcome⟩ := answer
      rw [hcall] at same ordinary called
      obtain rfl : n' = n := same
      -- the listeners that are left are called in whatever state the first one leaves behind
      have go {u : Session} (before : s.Airs (callEntries d n' l) u) :
          let r := (deliverAll (call handling d) (reportListener kind) rest n').run u
          r.1 = .ok () ∧ s.Airs ((l :: rest).flatMap (callEntries d n')) r.2 := by
        obtain ⟨done, others⟩ := ih (observed.congr before.listeners)
        exact ⟨done, before.trans others⟩
      have calls : (call handling d l n').run s = pure ((n', outcome), s₁) := hcall
      simp only [deliverAll, StateT.run_bind, calls, pure_bind]
      cases outcome with
      | ok _ => exact go called
      | error f =>
        have reports : Session.Still s₁ ((reportListener kind l f).run s₁).2 := by
          exact keepsTo_reportFault still_lines (listenerFault kind l) f s₁
        simp only [ordinary f rfl, if_true]
        exact go (called.still reports)

/-- An emission to listeners that observe comes to its end, and all that it does is to write what it
says and who was called. -/
theorem airs_emit : ((emit handling d n).exec s).1 = .ok () ∧
    s.Airs (emissionEntries d n (s.registry.bus.audience n.kind)) ((emit handling d n).exec s).2 := by
  have emitted := airs_noted (e := .emitted d n) rfl s
  obtain ⟨done, delivered⟩ := airs_deliverAll (s := s.noted (.emitted d n)) handling d n observed
    n.kind (s.registry.bus.audience n.kind)
  exact ⟨done, emitted.trans delivered⟩

end observed
end Act

/-! ### What can be read -/

namespace Session

/-- What can be read is the same, and listeners go on to observe. -/
structure SameReadings (s s' : Session) : Prop where
  observed : s'.Observed
  attributesOf : ∀ p, s'.attributesOf p = s.attributesOf p
  answerOf : ∀ id q, s'.answerOf id q = s.answerOf id q

/-- If listeners only observe, what can be read stays as it is. -/
def KeepsReadings (s s' : Session) : Prop := s.Observed → s.SameReadings s'

instance : IsPreorder Session KeepsReadings where
  refl _ observed := ⟨observed, fun _ => rfl, fun _ _ => rfl⟩
  trans _ _ _ h h' observed := by
    have first := h observed
    have last := h' first.observed
    exact ⟨last.observed, fun p => (last.attributesOf p).trans (first.attributesOf p),
      fun id q => (last.answerOf id q).trans (first.answerOf id q)⟩

end Session

section readings
open Act

theorem readings_note (e : Entry) : KeepsTo KeepsReadings (note e).run :=
  fun _ observed => ⟨observed, fun _ => rfl, fun _ _ => rfl⟩

theorem readings_emit (handling : Option Failure) (d : Dispatch) (n : Notice) :
    KeepsTo KeepsReadings (emit handling d n).run := by
  intro s observed
  have airs := (airs_emit handling d n observed).2
  exact ⟨observed.congr airs.listeners, airs.attributesOf, airs.answerOf⟩

namespace Dispatch
variable (d : Dispatch) (p : ProviderId) (cancelling : Bool) (r : Except Failure Value)

theorem readings_accept : KeepsTo KeepsReadings (accept d).run := by
  refine keepsTo_bind (Broker.keepsTo_record _) fun _ => keepsTo_bind ?_ fun _ =>
    keepsTo_bind (readings_note _) fun _ => keepsTo_pure _
  exact fun _ observed => ⟨observed, fun _ => rfl, fun _ _ => rfl⟩

theorem readings_respond : KeepsTo KeepsReadings (respond d p cancelling r).run := by
  have lines (e : Entry) (_ : e.isLine = true) : KeepsTo KeepsReadings (note e).run :=
    readings_note e
  refine keepsTo_bind (readings_note _) fun _ =>
    keepsTo_bind (keepsTo_awaited (keepsTo_contain lines p _ r)) fun outcome =>
      keepsTo_bind (readings_accept d) fun news => ?_
  split
  · exact keepsTo_bind (Broker.keepsTo_nameOf p) fun _ => keepsTo_bind (readings_note _) fun _ =>
      keepsTo_pure _
  · split
    · exact keepsTo_pure _
    · refine keepsTo_bind (keepsTo_shouldSurface (readings_note _) p) fun may => ?_
      split
      · exact keepsTo_bind (keepsTo_bind (Broker.keepsTo_scopeOf p) fun _ => keepsTo_pure _)
          fun _ => keepsTo_pure _
      · exact keepsTo_pure _

/-- An answer is dealt with, and all that can be read stays as it is. -/
theorem readings_conclude : KeepsTo KeepsReadings (conclude d p cancelling r).run := by
  have delivers : KeepsTo KeepsReadings (deliver d p cancelling r).run := by
    refine keepsTo_bind (readings_respond d p _ r) fun notice => ?_
    split
    · exact readings_emit none d _
    · exact keepsTo_pure _
  have announces (leaving : Option Failure) : KeepsTo KeepsReadings (announceEnd d p leaving).run :=
    keepsTo_bind
      (keepsTo_during _ (keepsTo_bind (Broker.keepsTo_scopeOf p) fun _ => keepsTo_pure _))
      fun _ => readings_emit _ d _
  exact keepsTo_bind (keepsTo_attempt delivers) fun _ => keepsTo_bind (announces _) fun _ =>
    keepsTo_take _

end Dispatch
end readings
end LintBroker

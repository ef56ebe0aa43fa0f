import LintBroker.Proofs.Actions
import LintBroker.Proofs.Concert
import LintBroker.Proofs.Observers

/-!
# Mirrored sessions

Two sessions *mirror* each other if they differ in no more than lines and questions, in what a
disposed bus still lists, and in what those listeners do that only observe. Whatever is done to
both, they go on to mirror each other, and it comes to the same result: an emission calls the same
listeners with the same notices, and one that fails in an ordinary way takes nothing from the
others.
-/
namespace LintBroker

/-- Whether an entry tells of more than a question, a line, or an end of listening. -/
def Entry.isEvent : Entry → Bool
  | .unsubscribed _ | .disposed => false
  | e => !e.isQuiet

theorem Entry.isEvent_of_isQuiet {e : Entry} (h : e.isQuiet = true) : e.isEvent = false := by
  cases e <;> first | rfl | cases h

/-- Listeners that are the same, or only observe, each in its own way. -/
def Listener.Mirrors (x x' : Listener) : Prop := x = x' ∨ x.Observes ∧ x'.Observes

/-- Hosts that differ in listeners that only observe. -/
structure Host.Mirrors (h h' : Host) : Prop where
  furniture : h.furniture = h'.furniture
  providers : h.providers = h'.providers
  listeners : ∀ l, Option.Rel Listener.Mirrors (h.listeners.get? l) (h'.listeners.get? l)
  matcher : h.matcher = h'.matcher
  calls : h.calls = h'.calls
  deliveries : h.deliveries = h'.deliveries

namespace Session

/-- Sessions that differ in no more than quiet entries, listeners that only observe, and what a
disposed bus still lists. -/
structure Mirrors (s s' : Session) : Prop where
  host : s.host.Mirrors s'.host
  source : s.source = s'.source
  template : s.template = s'.template
  settings : s.settings = s'.settings
  registry : s.registry.Alike s'.registry
  loop : s.loop.Plays Eq s'.loop
  history : s.history.filter Entry.isEvent = s'.history.filter Entry.isEvent

/-- Nothing but lines and questions was written. -/
def Lines (s s' : Session) : Prop :=
  ∃ J : List Entry, s' = { s with journal := s.journal ++ J.toArray } ∧ ∀ e ∈ J, e.isQuiet = true

variable {s s' u u' : Session}

instance : IsPreorder Session Lines where
  refl s := ⟨[], by simp, by simp⟩
  trans := by
    rintro s _ _ ⟨J, rfl, quiet⟩ ⟨J', rfl, quiet'⟩
    refine ⟨J ++ J', by simp, fun e he => ?_⟩
    rcases List.mem_append.mp he with he | he
    · exact quiet e he
    · exact quiet' e he

theorem lines_noted {e : Entry} (h : e.isQuiet = true) (s : Session) : s.Lines (s.noted e) :=
  ⟨[e], by simp [noted], by simpa using h⟩

namespace Mirrors
variable (h : s.Mirrors s')
include h

theorem onHost {f f' : Host → Host} (mirrors : (f s.host).Mirrors (f' s'.host)) :
    (s.onHost f).Mirrors (s'.onHost f') := { h with host := mirrors }

theorem onLoop {f f' : Loop → Loop} (alike : (f s.loop).Plays Eq (f' s'.loop)) :
    (s.onLoop f).Mirrors (s'.onLoop f') := { h with loop := alike }

theorem noted (e : Entry) : (s.noted e).Mirrors (s'.noted e) :=
  { h with history := by simp only [history_noted, List.filter_append, h.history] }

/-- Each of them has more lines written. -/
theorem lines (written : s.Lines u) (written' : s'.Lines u') : u.Mirrors u' := by
  obtain ⟨J, rfl, quiet⟩ := written
  obtain ⟨J', rfl, quiet'⟩ := written'
  have same (s : Session) {J : List Entry} (quiet : ∀ e ∈ J, e.isQuiet = true) :
      (s.journal ++ J.toArray).toList.filter Entry.isEvent = s.history.filter Entry.isEvent := by
    have none : J.filter Entry.isEvent = [] :=
      List.filter_eq_nil_iff.mpr fun e he => by simp [Entry.isEvent_of_isQuiet (quiet e he)]
    simp [Session.history, none]
  have both : (s.journal ++ J.toArray).toList.filter Entry.isEvent =
      (s'.journal ++ J'.toArray).toList.filter Entry.isEvent := by
    rw [same s quiet, same s' quiet', h.history]
  exact { h with history := both }

theorem attributesOf (p : ProviderId) : s.attributesOf p = s'.attributesOf p := by
  rw [Session.attributesOf, Session.attributesOf, h.host.providers]

theorem furniture (f : Furniture → Furniture) :
    (s.onHost (·.refurnish f)).Mirrors (s'.onHost (·.refurnish f)) := by
  refine h.onHost { h.host with furniture := ?_ }
  show f s.host.furniture = f s'.host.furniture
  rw [h.host.furniture]

/-- What is read off the events of a history is the same. -/
theorem filterMap_history {α : Type} {f : Entry → Option α}
    (hf : ∀ e, e.isEvent = false → f e = none) : s.history.filterMap f = s'.history.filterMap f := by
  have events (J : List Entry) : J.filterMap f = (J.filter Entry.isEvent).filterMap f := by
    rw [List.filterMap_filter]
    refine List.filterMap_congr fun e _ => ?_
    cases he : e.isEvent with
    | true => rfl
    | false => exact hf e he
  rw [events, h.history, ← events]

end Mirrors

instance : Likeness Mirrors fun _ => False where
  source h := h.source
  template h := h.template
  settings h := h.settings
  records h id := by
    rw [h.registry.records]
    exact Record.Akin.rel_refl (fun _ _ h => h.attributesOf) _
  active h := h.registry.active
  disposed h := h.registry.disposed
  bus h := h.registry.bus
  furniture h := h.host.furniture
  matcher h := h.host.matcher
  attributesOf h _ _ := h.attributesOf _
  akin h p := .of_eq Attributes.Akin.refl (h.attributesOf p)
  told h := h.loop.told
  noted h := h.noted
  withSettings h _ := { h with settings := rfl }
  onRegistry h _ hf := { h with registry := h.registry.deed hf }
  refurnish h f := h.furniture f
  reshape h p x x' _ hx hx' a := by
    rw [← h.host.providers, hx, Option.some.injEq] at hx'
    subst hx'
    exact h.onHost { h.host with providers := by rw [h.host.providers] }
  spawn h name job := h.onLoop (h.loop.spawn name job)
  cancel h t := h.onLoop (h.loop.cancel t)
  settle h r _ := h.onLoop (h.loop.settle r fun _ _ => rfl)

end Session

open Session

/-! ### Emissions -/

namespace Act
variable {s s' : Session} {handling : Option Failure} {d : Dispatch} {l : ListenerId} {n : Notice}

/-- A listener that observes leaves the notice alone, fails in ordinary ways, and only writes lines.
-/
theorem lines_of_observes {x : Listener} (observes : x.Observes) (count : Nat)
    (handling : Option Failure) (n : Notice) (s : Session) :
    let r := ((x.script count n).run (performIn handling) n).run s
    r.1.1 = n ∧ (∀ f, r.1.2 = .error f → f.isOrdinary = true) ∧ s.Lines r.2 := by
  obtain ⟨same, ordinary, deliveries, J, after, none⟩ := observes count handling n s
  refine ⟨same, ordinary, J, ?_, fun e he => ?_⟩
  · have strokes : KeepsTo Strokes ((x.script count n).run (performIn handling) n) :=
      Script.keepsTo_run (fun a => keepsTo_during _ (strokes_perform a)) _ n
    have counts : ∀ u u', Strokes u u' → u'.host.deliveries = u.host.deliveries := by
      intro u u' h
      induction h with
      | refl => rfl
      | tail _ stroke ih => rw [stroke.audience.1, ih]
    have kept := counts _ _ (strokes s)
    rw [after] at kept ⊢
    obtain rfl : deliveries = s.host.deliveries := kept
    rfl
  · have empty : J.filter (fun e => !e.isQuiet) = [] := none
    simpa using List.filter_eq_nil_iff.mp empty e he

/-- What comes of calling a listener in two sessions: the same notice, and the same outcome, or two
that keep nobody from being called. -/
structure CalledAlike (r r' : (Notice × Except Failure Unit) × Session) : Prop where
  notice : r.1.1 = r'.1.1
  outcome : r.1.2 = r'.1.2 ∨ (∀ f, r.1.2 = .error f → f.isOrdinary = true) ∧
    ∀ f, r'.1.2 = .error f → f.isOrdinary = true
  mirrors : r.2.Mirrors r'.2

theorem isOrdinary_remembered {r : Except Failure Unit}
    (h : ∀ f, r = .error f → f.isOrdinary = true) (f : Failure)
    (hf : (match r, handling with
      | .error f, some e => (.error (e.during f) : Except Failure Unit)
      | r, _ => r) = .error f) : f.isOrdinary = true := by
  split at hf
  · rename_i g e
    obtain rfl := Except.error.inj hf
    rw [Failure.isOrdinary_during]
    exact h g rfl
  · exact h f hf

theorem calledAlike (h : s.Mirrors s') (handling : Option Failure) (d : Dispatch) (l : ListenerId)
    (n : Notice) : CalledAlike ((call handling d l n).run s) ((call handling d l n).run s') := by
  have told : (atListener s d l n).Mirrors (atListener s' d l n) := (h.noted _).noted _
  rw [run_call, run_call, ← h.host.deliveries]
  have listeners := h.host.listeners l
  generalize s.host.listeners.get? l = x, s'.host.listeners.get? l = x' at listeners
  cases listeners with
  | none => exact ⟨rfl, .inl rfl, told⟩
  | @some x x' same =>
    let count := (s.host.deliveries.get? l).getD 0
    have counted : ((atListener s d l n).onHost fun h =>
          { h with deliveries := h.deliveries.put l (count + 1) }).Mirrors
        ((atListener s' d l n).onHost fun h =>
          { h with deliveries := h.deliveries.put l (count + 1) }) :=
      told.onHost
        { told.host with deliveries := congrArg (Table.put · l (count + 1)) told.host.deliveries }
    rcases same with rfl | ⟨observes, observes'⟩
    · have performs (a b : Action) (same : a = b) :
          InStep Mirrors (performIn handling a) (performIn handling b) :=
        same ▸ inStep_during _ (blind_perform a fun _ _ => id)
      obtain ⟨outcome, mirrors⟩ :=
        inStep_script performs (.refl (fun _ => rfl) (x.script count n)) n _ _ counted
      have notice := congrArg Prod.fst outcome
      refine ⟨notice, .inl ?_, mirrors⟩
      dsimp only
      rw [outcome]
    · obtain ⟨same, ordinary, lines⟩ := lines_of_observes observes count handling n
        ((atListener s d l n).onHost fun h => { h with deliveries := h.deliveries.put l (count + 1) })
      obtain ⟨same', ordinary', lines'⟩ := lines_of_observes observes' count handling n
        ((atListener s' d l n).onHost fun h => { h with deliveries := h.deliveries.put l (count + 1) })
      exact ⟨same.trans same'.symm,
        .inr ⟨isOrdinary_remembered ordinary, isOrdinary_remembered ordinary'⟩,
        counted.lines lines lines'⟩

theorem lines_reportListener (kind : NoticeKind) (l : ListenerId) (f : Failure) :
    KeepsTo Lines (reportListener kind l f) :=
  keepsTo_reportFault (fun _ h => lines_noted (Entry.isQuiet_of_isLine h)) (listenerFault kind l) f

theorem run_deliverAll_passed (kind : NoticeKind) (rest : List ListenerId) {n' : Notice}
    {r : Except Failure Unit} {s₁ : Session} (called : (call handling d l n).run s = ((n', r), s₁))
    (ordinary : ∀ f, r = .error f → f.isOrdinary = true) :
    ∃ u, s₁.Lines u ∧
      (deliverAll (call handling d) (reportListener kind) (l :: rest) n).run s =
        (deliverAll (call handling d) (reportListener kind) rest n').run u := by
  rw [run_deliverAll_cons called]
  cases r with
  | ok _ => exact ⟨s₁, refl s₁, rfl⟩
  | error f => exact ⟨_, lines_reportListener kind l f s₁, if_pos (ordinary f rfl)⟩

/-- Whoever is called may fail in an ordinary way in one run and not in the other: the listeners that
are left are called in both. -/
theorem mirrors_deliverAll (handling : Option Failure) (d : Dispatch) (kind : NoticeKind)
    (audience : List ListenerId) (n : Notice) :
    InStep Mirrors (deliverAll (call handling d) (reportListener kind) audience n)
      (deliverAll (call handling d) (reportListener kind) audience n) := by
  induction audience generalizing n with
  | nil => exact .pure _
  | cons l rest ih =>
    intro s s' h
    obtain ⟨notice, outcome, mirrors⟩ := calledAlike h handling d l n
    rcases hc : (call handling d l n).run s with ⟨⟨n₁, r⟩, s₁⟩
    rcases hc' : (call handling d l n).run s' with ⟨⟨n₁', r'⟩, s₁'⟩
    rw [hc, hc'] at notice outcome mirrors
    obtain rfl : n₁ = n₁' := notice
    have passed (ordinary : ∀ f, r = .error f → f.isOrdinary = true)
        (ordinary' : ∀ f, r' = .error f → f.isOrdinary = true) :
        let all := deliverAll (call handling d) (reportListener kind) (l :: rest) n
        (all.run s).1 = (all.run s').1 ∧ (all.run s).2.Mirrors (all.run s').2 := by
      obtain ⟨u, lines, goes⟩ := run_deliverAll_passed kind rest hc ordinary
      obtain ⟨u', lines', goes'⟩ := run_deliverAll_passed kind rest hc' ordinary'
      dsimp only
      rw [goes, goes']
      exact ih n₁ u u' (mirrors.lines lines lines')
    rcases outcome with same | ⟨ordinary, ordinary'⟩
    · obtain rfl : r = r' := same
      cases r with
      | ok _ => exact passed nofun nofun
      | error f =>
        by_cases hf : f.isOrdinary = true
        · have ordinary : ∀ g, (.error f : Except Failure Unit) = .error g → g.isOrdinary = true :=
            fun g hg => Except.error.inj hg ▸ hf
          exact passed ordinary ordinary
        · rw [run_deliverAll_cons hc, run_deliverAll_cons hc']
          simp only [hf, Bool.false_eq_true, if_false]
          exact ⟨trivial, mirrors⟩
    · exact passed ordinary ordinary'

theorem mirrors_emit (handling : Option Failure) (d : Dispatch) (n : Notice) :
    BlindTo Mirrors (emit handling d n) := by
  refine inStep_bind (blind_note _) fun _ => inStep_get fun s s' h => ?_
  rw [h.registry.bus.audience]
  exact mirrors_deliverAll handling d n.kind _ n

end Act

instance : Voiced Mirrors fun _ => False where
  emit := Act.mirrors_emit

/-! ### Moves -/

/-- Mirrored sessions have the same providers, and what is done to them is the same. -/
instance : Concerted Mirrors (fun _ => False) Eq where
  perform same := same ▸ Act.blind_perform _ fun _ _ => id
  replies {s _} h p := by
    rw [← h.host.providers]
    cases s.host.providers.get? p with
    | none => exact .none
    | some x => exact .some fun n => .refl (fun _ => rfl) (x.reply n)
  calls h := h.host.calls
  count h p n := h.onHost { h.host with calls := congrArg (Table.put · p n) h.host.calls }
  loop h := h.loop
  onLoop h _ _ alike := h.onLoop alike

namespace Session
variable {s s' : Session}

/-- The same call comes to the same result, and afterwards the sessions mirror each other again. -/
theorem Mirrors.perform (h : s.Mirrors s') (a : Action) :
    (s.perform a).1 = (s'.perform a).1 ∧ (s.perform a).2.Mirrors (s'.perform a).2 :=
  Act.blind_perform a (fun _ _ => id) s s' h

theorem Mirrors.run (h : s.Mirrors s') (moves : List Move) : (s.run moves).Mirrors (s'.run moves) := by
  induction moves generalizing s s' with
  | nil => exact h
  | cons m moves ih =>
    have same : m.Alike Eq m := by
      cases m with
      | act a => exact .act rfl
      | tick => exact .tick
    exact ih (related_move same h)

end Session
end LintBroker

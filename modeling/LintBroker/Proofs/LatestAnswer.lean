import LintBroker.Proofs.Responses
import LintBroker.Proofs.Settlements

/-!
# No update is lost

As long as a provider stays registered, its attributes do not change and nobody cancels its
dispatches, each of its answers is presented to the registration as soon as it comes, and each that is
accepted and succeeded is surfaced as soon as it is accepted. An answer may trail behind only while
its own task runs, and no two tasks run at once. So the accepted answers are the strict left-to-right
maxima of the order in which answers came, and the last thing surfaced is what the newest dispatch
got, if it succeeded.
-/
namespace LintBroker
open Dispatch

/-- The answers that are no faults. -/
def successes (xs : List (Nat × Except Failure Value)) : List (Nat × Value) :=
  xs.filterMap fun
    | (g, .ok v) => some (g, v)
    | (_, .error _) => none

/-- The update that was made of a success carries its messages. -/
def Carried (answer update : Nat × Value) : Prop :=
  update.1 = answer.1 ∧ ∃ messages, IsMessagesOf answer.2 messages ∧ update.2 = .list messages

/-- What is to be surfaced of answers: the messages of those that succeeded. -/
def updatesOf (xs : List (Nat × Except Failure Value)) : List (Nat × Value) :=
  (successes xs).map fun x => (x.1, .list (messagesOf x.2))

theorem carried_updatesOf (xs : List (Nat × Except Failure Value)) :
    List.Forall₂ Carried (successes xs) (updatesOf xs) :=
  List.forall₂_map_right_iff.mpr (List.forall₂_same.mpr fun _ _ =>
    ⟨rfl, _, isMessagesOf_iff.mpr rfl, rfl⟩)

theorem updatesOf_append (xs ys : List (Nat × Except Failure Value)) :
    updatesOf (xs ++ ys) = updatesOf xs ++ updatesOf ys := by
  simp [updatesOf, successes, List.filterMap_append]

theorem mem_updatesOf_iff {xs : List (Nat × Except Failure Value)} {g : Nat} {m : Value} :
    (g, m) ∈ updatesOf xs ↔ ∃ v, (g, .ok v) ∈ xs ∧ m = .list (messagesOf v) := by
  simp only [updatesOf, successes, List.mem_map, List.mem_filterMap]
  constructor
  · rintro ⟨⟨g', v⟩, ⟨⟨g'', r⟩, hx, hs⟩, he⟩
    cases r with
    | error f => cases hs
    | ok w =>
      obtain ⟨rfl, rfl⟩ := Prod.mk.inj (Option.some.inj hs)
      obtain ⟨rfl, rfl⟩ := Prod.mk.inj he
      exact ⟨w, hx, rfl⟩
  · rintro ⟨v, hx, rfl⟩
    exact ⟨(g, v), ⟨_, hx, rfl⟩, rfl⟩

theorem fst_updatesOf_sublist (xs : List (Nat × Except Failure Value)) :
    ((updatesOf xs).map Prod.fst).Sublist (xs.map Prod.fst) := by
  induction xs with
  | nil => exact .slnil
  | cons x xs ih =>
    obtain ⟨g, r⟩ := x
    cases r with
    | ok v => exact ih.cons_cons g
    | error f => exact ih.cons g

/-- The answers to the dispatches of a registration, in the order in which they came, if they are such
as a provider may give. -/
def answersTo (id : RecordId) (came : List (Dispatch × Except Failure Value)) :
    List (Nat × Except Failure Value) :=
  came.filterMap fun x =>
    if x.1.record = id ∧ Contained x.2 then some (x.1.generation, x.2) else none

theorem answers_eq_answersTo (id : RecordId) (J : List Entry) :
    answers id J = answersTo id (answersIn J) := by
  rw [answersTo, answersIn, List.filterMap_filterMap]
  refine List.filterMap_congr fun e _ => ?_
  cases e with
  | answered d r =>
    by_cases hd : d.record = id <;> by_cases hr : Contained r <;>
      simp [Entry.mark?, Entry.answered?, Mark.answer?, hd, hr]
  | emitted d n => cases n <;> simp [Entry.mark?, Notice.mark, Entry.answered?, Mark.answer?]
  | _ => simp [Entry.mark?, Entry.answered?, Mark.answer?]

namespace Session
variable {s s' last : Session} {id : RecordId} {p : ProviderId} {t : TaskId} {d : Dispatch}

/-- A provider stays registered, with attributes that give it a name and a scope and do not change
after its registration; if its messages are about files, no surface that it was asked about is
destroyed; and nobody asks one of its dispatches to end. -/
structure Undisturbed (s last : Session) (id : RecordId) (p : ProviderId) : Prop where
  registered : last.InForce id
  provider : last.providerOf id = some p
  named : ∃ name, last.nameOf p = .ok name
  hasScope : ∃ scope, last.scopeOf p = .ok scope
  unchanged : ∀ (J₁ J₂ : List Entry) (a : Attributes),
    last.history = J₁ ++ .registered id p :: J₂ → .reshaped p a ∉ J₂
  standing : last.scopeOf p = .ok .file → ∀ d, .dispatched d ∈ last.history → d.record = id →
    (∃ v, s.answerOf d.context.surface .destroyed = .ok v ∧ v.truthy = false) ∧
      ∀ v, .altered d.context.surface .destroyed v ∈ last.history → v.truthy = false
  uncancelled : ∀ (t : TaskId) (x : Task) (d : Dispatch), last.loop.tasks[t]? = some x →
    x.job = .dispatch d → d.record = id → x.cancelling = false

/-- Where the answers to the dispatches of a registration are: one that was not yet presented, or not
yet surfaced, is with a task that runs. -/
structure Orderly (s : Session) (id : RecordId) : Prop where
  running : ∀ {k : DispatchKey} {r : Except Failure Value} {v : Verdict}, k.1 = id →
    s.Stands k (.answered r v) → ∃ t d, s.Runs t (.dispatch d) ∧ d.key = k
  heard : ∀ {k : DispatchKey} {r : Except Failure Value}, k.1 = id →
    s.Stands k (.closed r .unheard) → ¬ Contained r
  shown : ∀ {k : DispatchKey} {r : Except Failure Value}, k.1 = id →
    s.Stands k (.closed r .news) → ∀ v, r ≠ .ok v

/-- What is known when the end of a dispatch is announced. -/
theorem Step.finish {n : Notice} (h : s.Step s') (hJ : s'.history = s.history ++ [.emitted d n])
    (hn : n.kind = .finish) : ∃ t p r v, s.Runs t (.dispatch d) ∧ s.Stands d.key (.answered r v) ∧
      s.providerOf d.record = some p ∧ s.Leaves t d p r v := by
  cases h with
  | change h =>
    have := h.mark?_of_concat hJ
    simp [Entry.mark?] at this
  | closes runs stage hp leaves =>
    simp only [history_noted, List.append_cancel_left_eq, List.cons.injEq, and_true,
      Entry.emitted.injEq] at hJ
    obtain ⟨rfl, rfl⟩ := hJ
    exact ⟨_, _, _, _, runs, stage, hp, leaves⟩
  | begins | surfaces =>
    simp only [history_noted, List.append_cancel_left_eq, List.cons.injEq, and_true,
      Entry.emitted.injEq] at hJ
    obtain ⟨rfl, rfl⟩ := hJ
    cases hn
  | _ => simp at hJ

/-- A dispatch that is closed was so before the step, or it has just been closed by its task. -/
theorem Step.closed (h : s.Step s') (c : s.Coherent) {k : DispatchKey} {r : Except Failure Value}
    {v : Verdict} (hk : s'.Stands k (.closed r v)) : s.Stands k (.closed r v) ∨
      ∃ t d p, d.key = k ∧ s.Runs t (.dispatch d) ∧ s.providerOf d.record = some p ∧
        s.Leaves t d p r v := by
  rcases h.history c with hu | ⟨e, d, m, x, y, hJ, hm, hx, hy, _⟩
  · exact .inl ((hu.life_eq k).symm.trans hk)
  · by_cases hdk : d.key = k
    · subst hdk
      have hyk : y = .closed r v :=
        Stands.unique (s := s') (by rw [Stands, hJ, life_concat_self hm, hx, hy]) hk
      subst hyk
      obtain ⟨hx', rfl⟩ : (Stage.answered r v).marks = x.marks ∧ m = .finished := by
        have parts : (Stage.answered r v).marks ++ [.finished] = x.marks ++ [m] := hy
        obtain ⟨same, last⟩ := List.append_inj' parts rfl
        exact ⟨same, (List.singleton_inj.mp last).symm⟩
      obtain rfl := Stage.marks_injective hx'
      obtain ⟨n, rfl, hn⟩ : ∃ n, e = .emitted d n ∧ n.kind = .finish := by
        cases e with
        | emitted d' n =>
          cases n <;> simp [Entry.mark?, Notice.mark] at hm
          exact ⟨_, by rw [hm], rfl⟩
        | _ => simp [Entry.mark?] at hm
      obtain ⟨t, p, r', v', runs, stage, hp, leaves⟩ := h.finish hJ hn
      cases stage.unique hx
      exact .inr ⟨t, d, p, rfl, runs, hp, leaves⟩
    · exact .inl (by rw [Stands, ← life_concat_other hm hdk, ← hJ, hk])

namespace Undisturbed
variable (h : s.Undisturbed last id p) {u : Session}
include h

theorem providerOf (hu : s.opening.Path u) (rest : u.Path last) (known : .dispatched d ∈ u.history)
    (hd : d.record = id) : u.providerOf id = some p := by
  obtain ⟨x, hx, _⟩ := (s.coherent_opening.path hu).generation known
  rw [hd] at hx
  rw [providerOf_eq hx, ← rest.providerOf (providerOf_eq hx), h.provider]

/-- Since a dispatch was opened, and so since its provider was registered, attributes are the same. -/
theorem attributesOf (hu : s.opening.Path u) (rest : u.Path last)
    (known : .dispatched d ∈ u.history) (hd : d.record = id) :
    last.attributesOf p = u.attributesOf p := by
  have registered := registered_of_provider hu (h.providerOf hu rest known hd)
  obtain ⟨J₁, J₂, hJ⟩ := List.append_of_mem registered
  obtain ⟨K, hK⟩ := rest.history_prefix
  have all : last.history = J₁ ++ .registered id p :: (J₂ ++ K) := by
    rw [hK, hJ]
    simp
  exact rest.attributesOf (P := fun r => r = u.attributesOf p) hK rfl fun a ha =>
    absurd (List.mem_append_right J₂ ha) (h.unchanged _ _ a all)

theorem nameOf (hu : s.opening.Path u) (rest : u.Path last) (known : .dispatched d ∈ u.history)
    (hd : d.record = id) : ∃ name, u.nameOf p = .ok name := by
  rw [Session.nameOf, ← h.attributesOf hu rest known hd]
  exact h.named

theorem scopeOf (hu : s.opening.Path u) (rest : u.Path last) (known : .dispatched d ∈ u.history)
    (hd : d.record = id) : u.scopeOf p = last.scopeOf p := by
  rw [Session.scopeOf, ← h.attributesOf hu rest known hd]
  rfl

theorem not_cancelling (rest : u.Path last) (runs : u.Runs t (.dispatch d)) (hd : d.record = id) :
    ¬ u.IsCancelling t := by
  rintro ⟨x, hx, hc⟩
  obtain ⟨y, hy, hj, hcy⟩ := rest.task hx
  have := h.uncancelled t y d hy (hj.trans (runs.phase hx).2) hd
  rw [hcy hc] at this
  cases this

theorem surfaces (hu : s.opening.Path u) (rest : u.Path last) (known : .dispatched d ∈ u.history)
    (hd : d.record = id) : u.Surfaces d p := by
  have c := s.coherent_opening.path hu
  obtain ⟨x, hx, _⟩ := c.generation known
  refine ⟨rest.inForce hx (hd ▸ h.registered), ?_⟩
  rw [h.scopeOf hu rest known hd]
  obtain ⟨scope, hs⟩ := h.hasScope
  cases scope with
  | project => exact .inl hs
  | file =>
    obtain ⟨start, changed⟩ := h.standing hs d (rest.dispatched c known) hd
    refine .inr ⟨hs, ?_⟩
    exact hu.answerOf (P := fun r => ∃ v, r = .ok v ∧ v.truthy = false) rfl start fun v hv =>
      ⟨v, rfl, changed v (rest.mem_history hv)⟩

/-- An answer that has not gone all its way is with a running task. -/
theorem running (hu : s.opening.Path u) (rest : u.Path last) {k : DispatchKey}
    {r : Except Failure Value} {v : Verdict} (hk : k.1 = id) (stage : u.Stands k (.answered r v)) :
    ∃ t d, u.Runs t (.dispatch d) ∧ d.key = k := by
  have c := s.coherent_opening.path hu
  obtain ⟨t, z, d, hz, hd, rfl⟩ := c.carried stage trivial
  cases hp : z.phase with
  | running => exact ⟨t, d, ⟨z, hz, hp, hd⟩, rfl⟩
  | ended e =>
    have valid (w : Session) (f : Value) (hw : s.opening.Path w) (hwu : w.Path u)
        (begun : .emitted d (.begin p f) ∈ w.history) : ∃ scope, w.scopeOf p = .ok scope := by
      have known := (s.coherent_opening.path hw).known begun (m := .begun) rfl
      rw [h.scopeOf hw (hwu.trans rest) known hk]
      exact h.hasScope
    have provider : u.providerOf d.record = some p :=
      (show d.record = id from hk) ▸ h.providerOf hu rest (c.tasked hz hd) hk
    rcases hu.ended_cases valid hz hd hp provider with hs | ⟨r, v, hs⟩
    · cases hs.unique stage
    · cases hs.unique stage
  | fresh => cases (c.begun_of_fresh hz hd hp).unique stage
  | paused next => cases (c.entered_of_paused hz hd hp).unique stage
  | awaiting q next => cases (c.entered_of_awaiting hz hd hp).unique stage
  | gathering g => exact absurd hp (c.not_gathering hz hd g)

/-- A dispatch that is closed was closed at a moment that left no more to come of its answer. -/
theorem leaves (hu : s.opening.Path u) (rest : u.Path last) {k : DispatchKey}
    {r : Except Failure Value} {v : Verdict} (hk : k.1 = id) (stage : u.Stands k (.closed r v)) :
    ∃ w t d, s.opening.Path w ∧ w.Path last ∧ d.record = id ∧ .dispatched d ∈ w.history ∧
      w.Runs t (.dispatch d) ∧ w.Leaves t d p r v := by
  induction hu with
  | refl => cases stage.unique (y := .unopened) rfl
  | @tail w w' path step ih =>
    have c := s.coherent_opening.path path
    have rest' : w.Path last := .head step rest
    rcases step.closed c stage with hs | ⟨t, d, q, rfl, runs, hq, leaves⟩
    · exact ih rest' hs
    · have known := c.dispatched_of_runs runs
      have provider := h.providerOf path rest' known hk
      rw [← show d.record = id from hk] at provider
      obtain rfl := Option.some.inj (hq.symm.trans provider)
      exact ⟨w, t, d, path, rest', hk, known, runs, leaves⟩

/-- Wherever an undisturbed run has come to, the answers of the registration are in order. -/
theorem orderly (hu : s.opening.Path u) (rest : u.Path last) : u.Orderly id := by
  refine ⟨h.running hu rest, ?_, ?_⟩
  · intro k r hk stage contained
    obtain ⟨w, t, d, path, rest', hd, known, runs, leaves⟩ := h.leaves hu rest hk stage
    rcases leaves with ⟨f, hf⟩ | ⟨f, rfl, hf⟩
    · obtain ⟨name, hn⟩ := h.nameOf path rest' known hd
      rw [hf] at hn
      cases hn
    · split at hf
      · exact h.not_cancelling rest' runs hd hf
      · rcases contained f rfl with hc | ho
        · exact absurd hc ‹_›
        · rw [ho] at hf
          cases hf
  · intro k r hk stage v hv
    obtain ⟨w, t, d, path, rest', hd, known, _, leaves⟩ := h.leaves hu rest hk stage
    exact leaves v hv (h.surfaces path rest' known hd)

end Undisturbed

/-- What the journal says of a registration's answers keeps step: at most one answer trails behind
those presented, and at most one success behind those surfaced. -/
structure Timely (s : Session) (id : RecordId) : Prop where
  distinct : ((answers id s.history).map Prod.fst).Nodup
  trails : ∃ heard lag lag', answers id s.history = heard ++ lag ∧ lag.length ≤ 1 ∧
    heard.map Prod.fst = (presented id s.history).map Prod.fst ∧
    updatesOf (leftMaxima Prod.fst heard) = surfaced id s.history ++ lag' ∧ lag'.length ≤ 1

section trails
variable {x : Stage} {m : Mark} {g : Nat} {r : Except Failure Value}

theorem Stands.mem_saidOf {β : Type} {say : Mark → Option β} {b : β} {k : DispatchKey}
    (h : s.Stands k x) (hm : m ∈ x.marks) (hb : say m = some b) :
    (k.2, b) ∈ saidOf k.1 say s.history :=
  mem_saidOf_iff.mpr ⟨m, h ▸ hm, hb⟩

theorem Stands.exists_mark {β : Type} {say : Mark → Option β} {b : β}
    (h : s.Stands (id, g) x) (hb : (g, b) ∈ saidOf id say s.history) :
    ∃ m ∈ x.marks, say m = some b := by
  obtain ⟨m, hm, hmb⟩ := mem_saidOf_iff.mp hb
  exact ⟨m, h ▸ hm, hmb⟩

/-- A dispatch whose answer was given has come so far, and all that goes with the verdict was said. -/
theorem Coherent.answered (c : s.Coherent) (h : (g, r) ∈ answers id s.history) :
    Contained r ∧ ∃ v, (∀ m ∈ v.marks r, m ∈ life (id, g) s.history) ∧
      (s.Stands (id, g) (.answered r v) ∨ s.Stands (id, g) (.closed r v)) := by
  obtain ⟨x, hx⟩ := c.stage (id, g)
  obtain ⟨m, hm, hr⟩ := hx.exists_mark h
  obtain ⟨rfl, contained⟩ : m = .answered r ∧ Contained r := by
    cases m with
    | answered r' =>
      simp only [Mark.answer?, Option.ite_none_right_eq_some, Option.some.injEq] at hr
      exact ⟨by rw [hr.2], hr.2 ▸ hr.1⟩
    | _ => cases hr
  refine ⟨contained, ?_⟩
  cases x with
  | answered r' v =>
    obtain rfl : r = r' := by cases v <;> simpa [Stage.marks, Verdict.marks] using hm
    refine ⟨v, fun m hm => ?_, .inl hx⟩
    rw [hx]
    exact List.mem_append_right _ hm
  | closed r' v =>
    obtain rfl : r = r' := by cases v <;> simpa [Stage.marks, Verdict.marks] using hm
    refine ⟨v, fun m hm => ?_, .inr hx⟩
    rw [hx]
    exact List.mem_append_left _ (List.mem_append_right _ hm)
  | _ => simp [Stage.marks] at hm

/-- An answer that was not presented is with the task that runs. -/
theorem Orderly.unheard (o : s.Orderly id) (c : s.Coherent) (h : (g, r) ∈ answers id s.history)
    (hn : g ∉ (presented id s.history).map Prod.fst) :
    s.Stands (id, g) (.answered r .unheard) := by
  obtain ⟨contained, v, said, hs⟩ := c.answered h
  have not_accepted (news : Bool) : .accepted news ∉ v.marks r := fun hm =>
    hn (List.mem_map_of_mem (f := Prod.fst) (mem_presented_iff.mpr (said _ hm)))
  obtain rfl : v = .unheard := by
    cases v with
    | unheard => rfl
    | stale => exact (not_accepted false (by simp [Verdict.marks])).elim
    | news | surfaced => exact (not_accepted true (by simp [Verdict.marks])).elim
  exact hs.resolve_right fun closed => o.heard rfl closed contained

/-- A success that was accepted and not surfaced is with the task that runs. -/
theorem Orderly.unshown (o : s.Orderly id) (c : s.Coherent) {v : Value}
    (h : (g, .ok v) ∈ answers id s.history) (ha : (g, true) ∈ presented id s.history)
    (hn : g ∉ (surfaced id s.history).map Prod.fst) :
    s.Stands (id, g) (.answered (.ok v) .news) := by
  obtain ⟨_, w, said, hs⟩ := c.answered h
  have accepted : .accepted true ∈ w.marks (.ok v) := by
    have hm := mem_presented_iff.mp ha
    rcases hs with hs | hs <;> rw [hs] at hm <;> simpa [Stage.marks] using hm
  have not_updated (m : Value) : .updated m ∉ w.marks (.ok v) := fun hm =>
    hn (List.mem_map.mpr ⟨(g, m), mem_saidOf_iff.mpr ⟨_, said _ hm, rfl⟩, rfl⟩)
  obtain rfl : w = .news := by
    cases w with
    | news => rfl
    | unheard | stale => simp [Verdict.marks] at accepted
    | surfaced => exact (not_updated _ (List.mem_cons_of_mem _ List.mem_cons_self)).elim
  exact hs.resolve_right fun closed => o.shown rfl closed v rfl

/-- While a task runs, an answer that has not gone all its way is its own. -/
theorem Orderly.own (o : s.Orderly id) (c : s.Coherent) (runs : s.Runs t (.dispatch d))
    {v : Verdict} (hs : s.Stands (id, g) (.answered r v)) : d.key = (id, g) := by
  obtain ⟨u, d', runs', hk⟩ := o.running rfl hs
  obtain rfl := c.alone runs runs'
  obtain ⟨z, hz, hp, hd⟩ := runs
  have := (runs'.phase hz).2
  rw [hd, Job.dispatch.injEq] at this
  exact this ▸ hk

end trails

theorem fst_leftMaxima {heard : List (Nat × Except Failure Value)} (tally : s.Tallied id)
    (hh : heard.map Prod.fst = (presented id s.history).map Prod.fst) :
    (leftMaxima Prod.fst heard).map Prod.fst = acceptedOf id s.history := by
  have left := map_leftMaxima (Prod.fst : Nat × Except Failure Value → Nat) (fun g => g) heard
  have right := map_leftMaxima (Prod.fst : Nat × Bool → Nat) (fun g => g)
    (presented id s.history)
  exact left.trans ((congrArg _ hh).trans (right.symm.trans (congrArg _ tally.maxima.symm)))

theorem mem_acceptedOf_iff {J : List Entry} {g : Nat} :
    g ∈ acceptedOf id J ↔ (g, true) ∈ presented id J := by
  simp [acceptedOf]

theorem eq_of_nodup_fst {α : Type} {xs : List (Nat × α)} (h : (xs.map Prod.fst).Nodup) {g : Nat}
    {a b : α} (ha : (g, a) ∈ xs) (hb : (g, b) ∈ xs) : a = b :=
  congrArg Prod.snd (List.inj_on_of_nodup_map h ha hb rfl)

theorem eq_singleton_of_mem {α : Type} {xs : List α} {a : α} (h : a ∈ xs) (hx : xs.length ≤ 1) :
    xs = [a] := by
  match xs, h, hx with
  | [b], h, _ => rw [List.mem_singleton.mp h]

namespace Timely

theorem same (h : s.Timely id) (ha : answers id s'.history = answers id s.history)
    (hp : presented id s'.history = presented id s.history)
    (hs : surfaced id s'.history = surfaced id s.history) : s'.Timely id := by
  obtain ⟨distinct, trails⟩ := h
  exact ⟨ha ▸ distinct, by rwa [ha, hp, hs]⟩

variable (h : s.Timely id) (o : s.Orderly id) (tally : s.Tallied id) (c : s.Coherent)
include h o tally c

/-- Nothing trails behind but what the running task is about to do. -/
theorem behind {heard lag : List (Nat × Except Failure Value)} {lag' : List (Nat × Value)}
    (hs : answers id s.history = heard ++ lag)
    (hh : heard.map Prod.fst = (presented id s.history).map Prod.fst)
    (ht : updatesOf (leftMaxima Prod.fst heard) = surfaced id s.history ++ lag') :
    (∀ g r, (g, r) ∈ lag → s.Stands (id, g) (.answered r .unheard)) ∧
      ∀ g m, (g, m) ∈ lag' → ∃ v, s.Stands (id, g) (.answered (.ok v) .news) := by
  have distinct := h.distinct
  rw [hs, List.map_append] at distinct
  constructor
  · intro g r hg
    refine o.unheard c (hs ▸ List.mem_append_right _ hg) fun hp => ?_
    rw [← hh] at hp
    exact (List.nodup_append.mp distinct).2.2 g hp g (List.mem_map_of_mem hg) rfl
  · intro g m hg
    have hm : (g, m) ∈ updatesOf (leftMaxima Prod.fst heard) := ht ▸ List.mem_append_right _ hg
    obtain ⟨v, hv, rfl⟩ := mem_updatesOf_iff.mp hm
    have sub := leftMaxima_sublist Prod.fst heard
    refine ⟨v, o.unshown c (hs ▸ List.mem_append_left _ (sub.subset hv)) ?_ fun hp => ?_⟩
    · rw [← mem_acceptedOf_iff, ← fst_leftMaxima tally hh]
      exact List.mem_map_of_mem hv
    · have nodup : ((updatesOf (leftMaxima Prod.fst heard)).map Prod.fst).Nodup :=
        ((fst_updatesOf_sublist _).trans (sub.map _)).nodup (List.nodup_append.mp distinct).1
      rw [ht, List.map_append] at nodup
      exact (List.nodup_append.mp nodup).2.2 g hp g (List.mem_map_of_mem hg) rfl

section lags
variable {heard lag : List (Nat × Except Failure Value)} {lag' : List (Nat × Value)}
  (hs : answers id s.history = heard ++ lag)
  (hh : heard.map Prod.fst = (presented id s.history).map Prod.fst)
  (ht : updatesOf (leftMaxima Prod.fst heard) = surfaced id s.history ++ lag')
include hs hh ht

theorem lag_eq_nil (none : ∀ g r, ¬ s.Stands (id, g) (.answered r .unheard)) : lag = [] := by
  refine List.eq_nil_iff_forall_not_mem.mpr ?_
  rintro ⟨g, r⟩ hg
  exact none g r ((h.behind o tally c hs hh ht).1 g r hg)

theorem lag'_eq_nil (none : ∀ g r, ¬ s.Stands (id, g) (.answered r .news)) : lag' = [] := by
  refine List.eq_nil_iff_forall_not_mem.mpr ?_
  rintro ⟨g, m⟩ hg
  obtain ⟨v, hv⟩ := (h.behind o tally c hs hh ht).2 g m hg
  exact none g _ hv

end lags

/-- When no task runs, every answer was presented, and every success that was accepted surfaced. -/
theorem caught_up (idle : s.Idle) :
    (presented id s.history).map Prod.fst = (answers id s.history).map Prod.fst ∧
      surfaced id s.history = updatesOf (leftMaxima Prod.fst (answers id s.history)) := by
  obtain ⟨heard, lag, lag', hs, _, hh, ht, _⟩ := h.trails
  have nobody (g : Nat) (r : Except Failure Value) (v : Verdict) :
      ¬ s.Stands (id, g) (.answered r v) := by
    intro stage
    obtain ⟨t, d, ⟨z, hz, hp, _⟩, _⟩ := o.running rfl stage
    exact idle t z hz hp
  obtain rfl := h.lag_eq_nil o tally c hs hh ht fun g r => nobody g r _
  obtain rfl := h.lag'_eq_nil o tally c hs hh ht fun g r => nobody g r _
  rw [List.append_nil] at hs ht
  rw [hs]
  exact ⟨hh.symm, ht.symm⟩

theorem answers_step {r : Except Failure Value} (runs : s.Runs t (.dispatch d))
    (stage : s.Stands d.key .entered) (hJ : s'.history = s.history ++ [.answered d r]) :
    s'.Timely id := by
  obtain ⟨heard, lag, lag', hs, _, hh, ht, hl'⟩ := h.trails
  have presented_eq : presented id s'.history = presented id s.history :=
    hJ ▸ saidOf_concat_other rfl (.inl rfl)
  have surfaced_eq : surfaced id s'.history = surfaced id s.history :=
    hJ ▸ saidOf_concat_other rfl (.inl rfl)
  by_cases hd : d.record = id ∧ Contained r
  · obtain ⟨rfl, contained⟩ := hd
    have said : answers d.record s'.history =
        answers d.record s.history ++ [(d.generation, r)] :=
      hJ ▸ saidOf_concat_self rfl (if_pos contained)
    have new : d.generation ∉ (answers d.record s.history).map Prod.fst := by
      intro hm
      obtain ⟨⟨g, r'⟩, hg, rfl⟩ := List.mem_map.mp hm
      obtain ⟨_, v, _, hv | hv⟩ := c.answered hg
      · cases stage.unique hv
      · cases stage.unique hv
    obtain rfl := h.lag_eq_nil o tally c hs hh ht fun g r' hv => by
      cases stage.unique (o.own c runs hv ▸ hv)
    constructor
    · rw [said, List.map_append, List.nodup_append]
      refine ⟨h.distinct, by simp, ?_⟩
      rintro g hg _ hg' rfl
      obtain rfl := List.mem_singleton.mp hg'
      exact new hg
    · refine ⟨heard, [(d.generation, r)], lag', ?_, by simp, ?_, ?_, hl'⟩
      · rw [said, hs, List.append_nil]
      · rw [hh, presented_eq]
      · rw [ht, surfaced_eq]
  · refine h.same (hJ ▸ saidOf_concat_other rfl ?_) presented_eq surfaced_eq
    by_cases hr : d.record = id
    · exact .inl (if_neg fun contained => hd ⟨hr, contained⟩)
    · exact .inr hr

theorem accepts_step {r : Except Failure Value} {x : Record Nat} (runs : s.Runs t (.dispatch d))
    (stage : s.Stands d.key (.answered r .unheard)) (contained : Contained r)
    (hJ : s'.history = s.history ++ [.accepted d (x.counters.isNews d.generation)]) :
    s'.Timely id := by
  obtain ⟨heard, lag, lag', hs, hl, hh, ht, _⟩ := h.trails
  have answers_eq : answers id s'.history = answers id s.history :=
    hJ ▸ saidOf_concat_other rfl (.inl rfl)
  have surfaced_eq : surfaced id s'.history = surfaced id s.history :=
    hJ ▸ saidOf_concat_other rfl (.inl rfl)
  by_cases hd : d.record = id
  · subst hd
    have said : presented d.record s'.history =
        presented d.record s.history ++ [(d.generation, x.counters.isNews d.generation)] :=
      hJ ▸ saidOf_concat_self rfl rfl
    have given : (d.generation, r) ∈ answers d.record s.history :=
      stage.mem_saidOf (m := .answered r) (by simp [Stage.marks])
        (by simp [Mark.answer?, contained])
    have unheard : (d.generation, r) ∉ heard := by
      intro hm
      have hp : d.generation ∈ (presented d.record s.history).map Prod.fst :=
        hh ▸ List.mem_map_of_mem hm
      obtain ⟨⟨g, news⟩, hg, rfl⟩ := List.mem_map.mp hp
      obtain ⟨m, hm, hn⟩ := Stands.exists_mark (g := d.generation) stage hg
      simp only [Stage.marks, Verdict.marks, List.append_nil, List.mem_cons, List.not_mem_nil,
        or_false] at hm
      rcases hm with rfl | rfl | rfl | rfl <;> cases hn
    obtain rfl : lag = [(d.generation, r)] := by
      rw [hs, List.mem_append] at given
      exact eq_singleton_of_mem (given.resolve_left unheard) hl
    obtain rfl := h.lag'_eq_nil o tally c hs hh ht fun g r' hv => by
      cases stage.unique (o.own c runs hv ▸ hv)
    refine ⟨answers_eq ▸ h.distinct, heard ++ [(d.generation, r)], [],
      updatesOf (if ∀ y ∈ heard, y.1 < d.generation then [(d.generation, r)] else []), ?_,
      Nat.zero_le _, ?_, ?_, ?_⟩
    · rw [answers_eq, hs, List.append_nil]
    · rw [said, List.map_append, List.map_append, hh]
      rfl
    · rw [leftMaxima_concat, updatesOf_append, ht, surfaced_eq, List.append_nil]
    · rw [updatesOf, List.length_map]
      refine Nat.le_trans (List.length_filterMap_le _ _) ?_
      split
      · exact Nat.le_refl _
      · exact Nat.zero_le _
  · exact h.same answers_eq (hJ ▸ saidOf_concat_other rfl (.inr hd)) surfaced_eq

omit c in
theorem surfaces_step {v : Value} {q : ProviderId} {b : Value}
    (stage : s.Stands d.key (.answered (.ok v) .news))
    (hJ : s'.history = s.history ++ [.emitted d (.update q (.list (messagesOf v)) b)]) :
    s'.Timely id := by
  obtain ⟨heard, lag, lag', hs, hl, hh, ht, hl'⟩ := h.trails
  have answers_eq : answers id s'.history = answers id s.history :=
    hJ ▸ saidOf_concat_other rfl (.inl rfl)
  have presented_eq : presented id s'.history = presented id s.history :=
    hJ ▸ saidOf_concat_other rfl (.inl rfl)
  by_cases hd : d.record = id
  · subst hd
    have said : surfaced d.record s'.history =
        surfaced d.record s.history ++ [(d.generation, .list (messagesOf v))] :=
      hJ ▸ saidOf_concat_self rfl rfl
    have given : (d.generation, .ok v) ∈ answers d.record s.history :=
      stage.mem_saidOf (m := .answered (.ok v)) (by simp [Stage.marks])
        (by simp [Mark.answer?, contained_ok])
    have accepted : (d.generation, true) ∈ presented d.record s.history :=
      stage.mem_saidOf (m := .accepted true) (by simp [Stage.marks, Verdict.marks]) rfl
    -- the generation stands among the maxima, and answers of one generation are the same
    have chosen : (d.generation, .ok v) ∈ leftMaxima Prod.fst heard := by
      rw [← mem_acceptedOf_iff, ← fst_leftMaxima tally hh] at accepted
      obtain ⟨⟨g, r⟩, hg, hgd⟩ := List.mem_map.mp accepted
      obtain rfl : g = d.generation := hgd
      have heard_r := (leftMaxima_sublist Prod.fst heard).subset hg
      obtain rfl := eq_of_nodup_fst h.distinct (hs ▸ List.mem_append_left lag heard_r) given
      exact hg
    have due : (d.generation, .list (messagesOf v)) ∈ surfaced d.record s.history ++ lag' :=
      ht ▸ mem_updatesOf_iff.mpr ⟨v, chosen, rfl⟩
    have unshown : (d.generation, .list (messagesOf v)) ∉ surfaced d.record s.history := by
      intro hm
      obtain ⟨m, hm, hn⟩ := Stands.exists_mark (g := d.generation) stage hm
      simp only [Stage.marks, Verdict.marks, List.cons_append, List.nil_append, List.mem_cons,
        List.not_mem_nil, or_false] at hm
      rcases hm with rfl | rfl | rfl | rfl | rfl <;> cases hn
    obtain rfl := eq_singleton_of_mem ((List.mem_append.mp due).resolve_left unshown) hl'
    refine ⟨answers_eq ▸ h.distinct, heard, lag, [], answers_eq.trans hs, hl, ?_, ?_,
      Nat.zero_le _⟩
    · rw [hh, presented_eq]
    · rw [ht, said, List.append_nil]
  · exact h.same answers_eq presented_eq (hJ ▸ saidOf_concat_other rfl (.inr hd))

theorem step (step : s.Step s') : s'.Timely id := by
  have unsaid {e : Entry} {d : Dispatch} {m : Mark} (hJ : s'.history = s.history ++ [e])
      (he : e.mark? = some (d, m)) (ha : m.answer? = none) (hp : m.news? = none)
      (hs : m.messages? = none) : s'.Timely id := by
    refine h.same ?_ ?_ ?_ <;> rw [hJ]
    · exact saidOf_concat_other he (.inl ha)
    · exact saidOf_concat_other he (.inl hp)
    · exact saidOf_concat_other he (.inl hs)
  have unmarked (hJ : Unmarked s.history s'.history) : s'.Timely id :=
    h.same (saidOf_of_unmarked hJ) (saidOf_of_unmarked hJ) (saidOf_of_unmarked hJ)
  cases step with
  | change h => exact unmarked h.history
  | invokes => exact unmarked (by simpa using Unmarked.concat rfl)
  | opens | begins | enters | closes => exact unsaid (history_noted _ _) rfl rfl rfl rfl
  | answers r runs stage => exact h.answers_step o tally c runs stage (history_noted _ _)
  | accepts runs stage contained =>
    exact h.accepts_step o tally c runs stage contained (history_noted _ _)
  | surfaces _ stage => exact h.surfaces_step o tally stage (history_noted _ _)
  | _ => exact h.same rfl rfl rfl

end Timely

theorem timely (h : s.Undisturbed last id p) {u : Session} (hu : s.opening.Path u)
    (rest : u.Path last) : u.Timely id := by
  induction hu with
  | refl => exact ⟨.nil, [], [], [], rfl, Nat.zero_le _, rfl, rfl, Nat.zero_le _⟩
  | tail path step ih =>
    have rest' := Relation.ReflTransGen.head step rest
    exact (ih rest').step (h.orderly path rest') (tallied path id)
      (s.coherent_opening.path path) step

/-- What is promised of the answers that came to the dispatches of a registration. -/
structure NoUpdateLost (s : Session) (id : RecordId) (came : List (Nat × Except Failure Value)) :
    Prop where
  /-- Every answer is presented, in the order in which answers came. -/
  inOrder : (presented id s.history).map Prod.fst = came.map Prod.fst
  /-- The accepted generations are the strict left-to-right maxima of that order. -/
  accepts : acceptedOf id s.history = (leftMaxima Prod.fst came).map Prod.fst
  /-- There is an update with its messages for each of them that is a success, and no other. -/
  updates : List.Forall₂ Carried (successes (leftMaxima Prod.fst came)) (surfaced id s.history)
  /-- If every generation was answered, answers came in some order of all generations, and the newest
  received is the newest dispatched. -/
  settled : ∀ x, s.registry.records[id]? = some x →
    (∀ g, 1 ≤ g → g ≤ x.counters.latest → ∃ r, (g, r) ∈ came) →
      (came.map Prod.fst).Perm (List.range' 1 x.counters.latest) ∧
        x.counters.lastReceived = x.counters.latest
  /-- An answer to the newest generation is accepted, and if it is a success its messages are the last
  ones surfaced. -/
  latest : ∀ x r, s.registry.records[id]? = some x → (x.counters.latest, r) ∈ came →
    x.counters.latest ∈ acceptedOf id s.history ∧
      ∀ v, r = .ok v → ∃ update, (surfaced id s.history).getLast? = some update ∧
        Carried (x.counters.latest, v) update

theorem Coherent.generation_of_answer (c : s.Coherent) {x : Record Nat}
    (hx : s.registry.records[id]? = some x) {y : Nat × Except Failure Value}
    (hy : y ∈ answers id s.history) : 1 ≤ y.1 ∧ y.1 ≤ x.counters.latest := by
  obtain ⟨m, hm, _⟩ := mem_saidOf_iff.mp (show (y.1, y.2) ∈ answers id s.history from hy)
  obtain ⟨d, hd, hk⟩ := c.opened_of_life (List.ne_nil_of_mem hm)
  obtain ⟨z, hz, h1, hle⟩ := c.generation hd
  obtain ⟨rfl, hg⟩ := Prod.mk.inj hk
  rw [hx, Option.some.injEq] at hz
  exact ⟨hg ▸ h1, hg ▸ hz ▸ hle⟩

theorem getLast?_updatesOf {xs : List (Nat × Except Failure Value)} {g : Nat} {v : Value}
    (h : xs.getLast? = some (g, .ok v)) :
    (updatesOf xs).getLast? = some (g, .list (messagesOf v)) := by
  obtain ⟨ys, rfl⟩ := List.getLast?_eq_some_iff.mp h
  rw [updatesOf_append]
  exact List.getLast?_concat

section settled
variable (distinct : ((answers id s.history).map Prod.fst).Nodup) {x : Record Nat}
  (hx : s.registry.records[id]? = some x)
include distinct hx

theorem Coherent.answers_perm (c : s.Coherent)
    (all : ∀ g, 1 ≤ g → g ≤ x.counters.latest → ∃ r, (g, r) ∈ answers id s.history) :
    ((answers id s.history).map Prod.fst).Perm (List.range' 1 x.counters.latest) := by
  refine (List.perm_ext_iff_of_nodup distinct List.nodup_range').mpr fun g => ?_
  rw [List.mem_range'_1]
  constructor
  · intro hg
    obtain ⟨y, hy, rfl⟩ := List.mem_map.mp hg
    obtain ⟨h1, hle⟩ := c.generation_of_answer hx hy
    omega
  · rintro ⟨h1, hlt⟩
    obtain ⟨r, hr⟩ := all g h1 (by omega)
    exact List.mem_map_of_mem hr

/-- An answer to the newest generation is greater than all before it, and no other comes after it. -/
theorem Coherent.getLast?_leftMaxima_answers (c : s.Coherent) {r : Except Failure Value}
    (hr : (x.counters.latest, r) ∈ answers id s.history) :
    (leftMaxima Prod.fst (answers id s.history)).getLast? = some (x.counters.latest, r) := by
  obtain ⟨before, after, split⟩ := List.append_of_mem hr
  rw [split, List.map_append, List.map_cons, List.nodup_append, List.nodup_cons] at distinct
  obtain ⟨_, ⟨others, _⟩, apart⟩ := distinct
  have below (y : Nat × Except Failure Value) (hy : y ∈ answers id s.history)
      (hne : y.1 ≠ x.counters.latest) : y.1 < x.counters.latest :=
    Nat.lt_of_le_of_ne (c.generation_of_answer hx hy).2 hne
  rw [split] at below ⊢
  refine getLast?_leftMaxima (fun y hy => below y (by simp [hy]) ?_)
    fun y hy => below y (by simp [hy]) ?_
  · exact apart y.1 (List.mem_map_of_mem hy) _ List.mem_cons_self
  · intro he
    exact others (List.mem_map.mpr ⟨y, hy, he⟩)

end settled

theorem Tallied.lastReceived_eq (tally : s.Tallied id) (c : s.Coherent)
    (inOrder : (presented id s.history).map Prod.fst = (answers id s.history).map Prod.fst)
    {x : Record Nat} (hx : s.registry.records[id]? = some x)
    (newest : 1 ≤ x.counters.latest → ∃ r, (x.counters.latest, r) ∈ answers id s.history) :
    x.counters.lastReceived = x.counters.latest := by
  refine Nat.le_antisymm ?_ ?_
  · rcases tally.newest x hx with h0 | ⟨news, hn⟩
    · omega
    · have hm := List.mem_map_of_mem (f := Prod.fst) hn
      rw [inOrder] at hm
      obtain ⟨⟨g, r⟩, hy, he⟩ := List.mem_map.mp hm
      obtain rfl : g = x.counters.lastReceived := he
      exact (c.generation_of_answer hx hy).2
  · rcases Nat.eq_zero_or_pos x.counters.latest with h0 | hpos
    · omega
    · obtain ⟨r, hr⟩ := newest hpos
      have hm := List.mem_map_of_mem (f := Prod.fst) hr
      rw [← inOrder] at hm
      obtain ⟨⟨g, news⟩, hg, he⟩ := List.mem_map.mp hm
      obtain rfl : g = x.counters.latest := he
      exact c.le_lastReceived hx hg

/-- No update of a provider is lost, however its requests overlap, as long as it stays registered and
nothing disturbs it. -/
theorem no_update_lost (s : Session) (moves : List Move) {id : RecordId} {p : ProviderId}
    (h : s.Undisturbed (s.opening.run moves) id p) :
    (s.opening.run moves).NoUpdateLost id (answersTo id (s.opening.responses moves)) := by
  have path := (s.comes_opening moves).path
  have c := s.coherent_run moves
  have tally := tallied path id
  have timely := timely h path .refl
  obtain ⟨inOrder, updates⟩ :=
    timely.caught_up (h.orderly path .refl) tally c (s.comes_opening moves).idle
  have accepts := (fst_leftMaxima tally inOrder.symm).symm
  rw [← answersIn_run, ← answers_eq_answersTo]
  refine ⟨inOrder, accepts, updates ▸ carried_updatesOf _, ?_, ?_⟩
  · intro x hx all
    refine ⟨c.answers_perm timely.distinct hx all, tally.lastReceived_eq c inOrder hx fun hpos => ?_⟩
    exact all _ hpos (Nat.le_refl _)
  · intro x r hx hr
    have last := c.getLast?_leftMaxima_answers timely.distinct hx hr
    refine ⟨?_, ?_⟩
    · rw [accepts]
      exact List.mem_map_of_mem (f := Prod.fst) (List.mem_of_getLast? last)
    · rintro v rfl
      have shown := getLast?_updatesOf last
      rw [← updates] at shown
      exact ⟨_, shown, rfl, _, isMessagesOf_iff.mpr rfl, rfl⟩

/-- Of two requests that overlap the newer is answered first. -/
theorem sample_no_update_lost :
    let moves := .act (.add "p" false) :: sampleLint ++ sampleLint ++
      [.act (.resolve "p" 1 (.list [.int 2])), .act (.resolve "p" 0 (.list [.int 1]))] ++
        List.replicate 8 .tick
    let last := (sample []).opening.run moves
    let came := answersTo 0 ((sample []).opening.responses moves)
    (sample []).Undisturbed last 0 "p" ∧ came.map Prod.fst = [2, 1] ∧ last.NoUpdateLost 0 came := by
  intro moves last came
  have untouched : last.history.all (fun
      | .reshaped .. | .altered .. => false
      | .dispatched d => d.context.surface == "s"
      | _ => true) = true := by decide +kernel
  have uncancelled : last.loop.tasks.toList.all (fun x => !x.cancelling) = true := by
    decide +kernel
  have inForce : last.registry.records[0]?.any Record.activated = true := by decide +kernel
  have all := List.all_eq_true.mp untouched
  have undisturbed : (sample []).Undisturbed last 0 "p" := by
    have same : last.attributesOf "p" = (sample []).attributesOf "p" :=
      (comes_opening (sample []) moves).path.attributesOf
        (P := fun r => r = (sample []).attributesOf "p") (List.nil_append _).symm rfl
        fun a ha => by simpa using all _ ha
    refine ⟨(Option.any_eq_true _ _).mp inForce, by decide +kernel, ⟨"p", ?_⟩, ⟨.file, ?_⟩, ?_, ?_,
      ?_⟩
    · rw [Session.nameOf, same]
      rfl
    · rw [Session.scopeOf, same]
      rfl
    · intro J₁ J₂ a hJ ha
      simpa using all (.reshaped "p" a) (by simp [hJ, ha])
    · intro _ d hd _
      have hs : d.context.surface = "s" := by simpa using all _ hd
      rw [hs]
      refine ⟨⟨.bool false, rfl, rfl⟩, fun v hv => ?_⟩
      simpa using all _ hv
    · intro t x d hx _ _
      have hm : x ∈ last.loop.tasks.toList := Array.mem_toList_iff.mpr (Array.mem_of_getElem? hx)
      simpa using List.all_eq_true.mp uncancelled x hm
  exact ⟨undisturbed, by decide +kernel, no_update_lost (sample []) moves undisturbed⟩

end Session
end LintBroker

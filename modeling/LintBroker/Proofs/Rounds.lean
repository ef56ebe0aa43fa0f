import LintBroker.Proofs.Beats
import LintBroker.Proofs.Persistence
import LintBroker.Proofs.Roster
import LintBroker.Proofs.Tally

/-!
# Rounds that go well

A lint that waits for its round has made a task for every dispatch that it opened, one for a provider
at most. If it tells of success, then all these tasks have ended with a value, and a dispatch whose
task has ended with a value has announced its end. This holds after every move of a run.
-/
namespace LintBroker
namespace Session
variable {s s' s₀ : Session} {t u m : TaskId} {x y : Task} {d : Dispatch} {K : List Entry}

/-- A task that has started has started for good. -/
theorem Step.started (h : s.Step s') (hx : s.loop.tasks[t]? = some x) (hp : x.phase ≠ .fresh) :
    ∃ y, s'.loop.tasks[t]? = some y ∧ y.job = x.job ∧ y.phase ≠ .fresh := by
  obtain ⟨y, hy, hj, _, turn⟩ := h.task hx
  refine ⟨y, hy, hj, ?_⟩
  cases turn with
  | keeps hk =>
    rcases hk.phase with h | ⟨_, _, _, h⟩
    · exact h ▸ hp
    · simp [h]
  | wakes _ _ after => simp [after]
  | waits _ _ _ _ after => rcases after with ⟨_, h⟩ | ⟨_, _, h⟩ <;> simp [h]
  | gathers _ _ after => simp [after]
  | ends _ _ _ after => simp [after]

theorem Path.started (h : s.Path s') (hx : s.loop.tasks[t]? = some x) (hp : x.phase ≠ .fresh) :
    ∃ y, s'.loop.tasks[t]? = some y ∧ y.job = x.job ∧ y.phase ≠ .fresh := by
  induction h with
  | refl => exact ⟨x, hx, rfl, hp⟩
  | tail _ step ih =>
    obtain ⟨y, hy, hj, hyp⟩ := ih
    obtain ⟨z, hz, hzj, hzp⟩ := step.started hy hyp
    exact ⟨z, hz, hzj.trans hj, hzp⟩

/-- A dispatch was opened by its lint, for the context of that, and after the lint had started. -/
theorem Path.opener (h : s₀.opening.Path s) (hd : .dispatched d ∈ s.history) :
    ∃ z, s.loop.tasks[d.round]? = some z ∧ z.job = .lint d.context ∧ z.phase ≠ .fresh := by
  induction h with
  | refl => simp [opening, history] at hd
  | @tail u v path step ih =>
    have old (hd : .dispatched d ∈ u.history) :
        ∃ z, v.loop.tasks[d.round]? = some z ∧ z.job = .lint d.context ∧ z.phase ≠ .fresh := by
      obtain ⟨z, hz, hj, hp⟩ := ih hd
      obtain ⟨w, hw, hwj, hwp⟩ := step.started hz hp
      exact ⟨w, hw, hwj.trans hj, hwp⟩
    cases step with
    | change h => exact old ((h.history.mem_iff (by simp [Entry.mark?])).mp hd)
    | opens runs =>
      rw [history_noted, List.mem_append, List.mem_singleton] at hd
      rcases hd with hd | hd
      · exact old hd
      · obtain rfl := Entry.dispatched.inj hd
        obtain ⟨z, hz, hp, hj⟩ := runs
        exact ⟨z, hz, hj, by simp [hp]⟩
    | begins | enters | invokes | answers | accepts | surfaces | closes =>
      exact old (by simpa using hd)
    | _ => exact old hd

/-- A dispatch is for the edit of its lint. -/
theorem Path.context_eq (h : s₀.opening.Path s) (hd : .dispatched d ∈ s.history)
    (hx : s.loop.tasks[d.round]? = some x) {c : EditContext} (job : x.job = .lint c) :
    d.context = c := by
  obtain ⟨z, hz, opened, _⟩ := h.opener hd
  obtain rfl := Option.some.inj (hx.symm.trans hz)
  exact Job.lint.inj (opened.symm.trans job)

/-- How a task ended stays. -/
theorem Path.ended (h : s.Path s') {e : Ending} (hx : s.loop.tasks[t]? = some x)
    (he : x.phase = .ended e) :
    ∃ y, s'.loop.tasks[t]? = some y ∧ y.job = x.job ∧ y.phase = .ended e := by
  induction h with
  | refl => exact ⟨x, hx, rfl, he⟩
  | tail _ step ih =>
    obtain ⟨y, hy, hj, hye⟩ := ih
    obtain ⟨z, hz, hze⟩ := step.ended hy hye
    obtain ⟨w, hw, hwj, _⟩ := step.task hy
    obtain rfl := Option.some.inj (hz.symm.trans hw)
    exact ⟨z, hz, hwj.trans hj, hze⟩

/-- Every dispatch of the round has a task, and no two are for one provider. -/
structure Formed (s : Session) (t : TaskId) : Prop where
  tasked : ∀ d, .dispatched d ∈ s.history → d.round = t →
    ∃ (m : TaskId) (y : Task), s.loop.tasks[m]? = some y ∧ y.job = .dispatch d
  apart : ∀ d d', .dispatched d ∈ s.history → .dispatched d' ∈ s.history → d.round = t →
    d'.round = t → s.providerOf d.record = s.providerOf d'.record → d = d'

/-- Every dispatch of the round has a task that has ended with a value. -/
def WentWell (s : Session) (t : TaskId) : Prop :=
  ∀ d, .dispatched d ∈ s.history → d.round = t → ∃ (m : TaskId) (y : Task) (b : Bool),
    s.loop.tasks[m]? = some y ∧ y.job = .dispatch d ∧ y.phase = .ended (.value b)

/-- What a task that waits for its round, or that has ended with a value, has come to. -/
structure Settled (s : Session) (t : TaskId) : Prop where
  gathered : ∀ (x : Task) (g : Gathering), s.loop.tasks[t]? = some x → x.phase = .gathering g →
    s.Formed t
  success : ∀ (x : Task) (c : EditContext), s.loop.tasks[t]? = some x → x.job = .lint c →
    x.phase = .ended (.value true) → s.Formed t ∧ s.WentWell t
  closing : ∀ (x : Task) (d : Dispatch) (b : Bool), s.loop.tasks[t]? = some x → x.job = .dispatch d →
    x.phase = .ended (.value b) → ∃ n, .emitted d n ∈ s.history ∧ n.mark = .finished

/-- What all rounds have come to. -/
structure Rounds (s : Session) : Prop where
  tallied : s.loop.Tallied
  settled : ∀ t, s.Settled t

/-- A round is left alone: its lint goes on as it was, and no dispatch is opened for it. -/
structure LeavesAlone (s s' : Session) (t : TaskId) : Prop where
  task : ∀ y, s'.loop.tasks[t]? = some y → y.phase ≠ .fresh →
    ∃ x, s.loop.tasks[t]? = some x ∧ x.Keeps y
  dispatched : ∀ d, d.round = t → .dispatched d ∈ s'.history → .dispatched d ∈ s.history

theorem Formed.path (h : s.Formed t) (c : s.Coherent) (path : s.Path s')
    (same : ∀ d, d.round = t → .dispatched d ∈ s'.history → .dispatched d ∈ s.history) :
    s'.Formed t := by
  constructor
  · intro d hd hr
    obtain ⟨m, y, hy, hj⟩ := h.tasked d (same d hr hd) hr
    obtain ⟨z, hz, hzj, _⟩ := path.task hy
    exact ⟨m, z, hz, hzj.trans hj⟩
  · intro d d' hd hd' hr hr' hp
    have old := same d hr hd
    have old' := same d' hr' hd'
    obtain ⟨x, hx, _⟩ := c.generation old
    obtain ⟨x', hx', _⟩ := c.generation old'
    rw [path.providerOf (providerOf_eq hx), path.providerOf (providerOf_eq hx')] at hp
    exact h.apart d d' old old' hr hr' (by rw [providerOf_eq hx, providerOf_eq hx', hp])

theorem WentWell.path (h : s.WentWell t) (path : s.Path s')
    (same : ∀ d, d.round = t → .dispatched d ∈ s'.history → .dispatched d ∈ s.history) :
    s'.WentWell t := by
  intro d hd hr
  obtain ⟨m, y, b, hy, hj, he⟩ := h d (same d hr hd) hr
  obtain ⟨z, hz, hzj, hze⟩ := path.ended hy he
  exact ⟨m, z, b, hz, hzj.trans hj, hze⟩

theorem LeavesAlone.of_keeps (hk : s.loop.Keeps s'.loop)
    (dispatched : ∀ d, .dispatched d ∈ s'.history → .dispatched d ∈ s.history) (t : TaskId) :
    s.LeavesAlone s' t := by
  refine ⟨fun y hy hp => ?_, fun d _ => dispatched d⟩
  rcases hk.back hy with hx | ⟨hf, _⟩
  · exact hx
  · exact absurd hf hp

/-- What a round that is left alone had come to, it has come to still. -/
theorem LeavesAlone.settled (alone : s.LeavesAlone s' t) (h : s.Settled t) (c : s.Coherent)
    (path : s.Path s') : s'.Settled t := by
  constructor
  · intro y g hy hg
    obtain ⟨x, hx, kept⟩ := alone.task y hy (by simp [hg])
    obtain ⟨g', hg'⟩ : ∃ g, x.phase = .gathering g := by
      rcases kept.phase with hp | ⟨g', _, hp, _⟩
      · exact ⟨g, hp ▸ hg⟩
      · exact ⟨g', hp⟩
    exact (h.gathered x g' hx hg').path c path alone.dispatched
  · intro y c' hy hj he
    obtain ⟨x, hx, kept⟩ := alone.task y hy (by simp [he])
    have before := (kept.phase_eq' (by simp [he])).symm.trans he
    obtain ⟨formed, well⟩ := h.success x c' hx (kept.job.symm.trans hj) before
    exact ⟨formed.path c path alone.dispatched, well.path path alone.dispatched⟩
  · intro y d b hy hj he
    obtain ⟨x, hx, kept⟩ := alone.task y hy (by simp [he])
    have before := (kept.phase_eq' (by simp [he])).symm.trans he
    obtain ⟨n, hn, finish⟩ := h.closing x d b hx (kept.job.symm.trans hj) before
    exact ⟨n, path.mem_history hn, finish⟩

/-! ### The turn of a task -/

theorem others_turn (part : (s.woken t).TakesPart t x K s') : s.loop.KeepsOthers t s'.loop := by
  obtain ⟨s₁, account, ends⟩ := part
  have popped : s.loop.KeepsOthers t { s.loop with ready := s.loop.ready.tail } :=
    .of_keeps (.of_tasks_eq rfl)
  have woken : s.loop.KeepsOthers t (s.woken t).loop :=
    popped.trans (.of_turned (Loop.keeps_wake _ t))
  refine (woken.trans (.of_keeps account.loop.toKeeps)).trans ?_
  cases ends with
  | ends e => exact .of_turned (s₁.loop.keeps_finish t e)
  | pauses _ _ next => exact .of_turned (s₁.loop.keeps_pause t next)
  | awaits _ _ r next => exact .of_turned (s₁.loop.keeps_await t r next)
  | gathers => exact s₁.loop.keepsOthers_gather t _

theorem history_turn (part : (s.woken t).TakesPart t x K s') : s'.history = s.history ++ K := by
  obtain ⟨s₁, account, ends⟩ := part
  cases ends <;> exact account.history

theorem dispatched_turn (c : s.Coherent) (hx : s.loop.tasks[t]? = some x)
    (part : (s.woken t).TakesPart t x K s') (hd : .dispatched d ∈ s'.history) :
    .dispatched d ∈ s.history ∨ d ∈ opened K ∧ d.round = t ∧ ∃ c, x.job = .lint c := by
  rw [history_turn part] at hd
  rcases List.mem_append.mp hd with hd | hd
  · exact .inl hd
  · obtain ⟨s₁, account, _⟩ := part
    have speaks := account.spoken _ hd d rfl
    cases hj : x.job with
    | lint b =>
      rw [hj] at speaks
      exact .inr ⟨mem_opened_iff.mpr hd, speaks, b, rfl⟩
    | dispatch d' =>
      rw [hj] at speaks
      obtain rfl : d = d' := speaks
      exact .inl (c.tasked hx hj)

/-- A running task that is moved to another phase is at that phase afterwards. -/
theorem Runs.turned {job : Job} (runs : s.Runs t job) {p : Phase} {l : Loop}
    (hk : (s.loop.setPhase t p).Keeps l) (hp : ∀ g, p ≠ .gathering g) :
    ∃ y, l.tasks[t]? = some y ∧ y.job = job ∧ y.phase = p := by
  obtain ⟨z, hz, _, rfl⟩ := runs
  obtain ⟨y, hy, _, kept⟩ := hk.forth_turned hz
  exact ⟨y, hy, (kept rfl).job, (kept rfl).phase_eq hp⟩

/-- A lint that gathers its round waits for it afterwards. -/
theorem Runs.gathering {job : Job} (runs : s.Runs t job) (ds : List Dispatch) :
    ∃ y g, (s.loop.gather t ds).tasks[t]? = some y ∧ y.job = job ∧ y.phase = .gathering g := by
  obtain ⟨z, hz, _, rfl⟩ := runs
  obtain ⟨g, hk⟩ := s.loop.keeps_gather t ds
  obtain ⟨y, hy, _, kept⟩ := hk.forth_turned (s.loop.forth_spawnAll ds hz)
  rcases (kept rfl).phase with hp | ⟨_, g', _, hp⟩
  · exact ⟨y, g, hy, (kept rfl).job, hp⟩
  · exact ⟨y, g', hy, (kept rfl).job, hp⟩

section turn
variable {s₁ : Session} (h : s.Rounds) (c : s.Coherent) (hx : s.loop.tasks[t]? = some x)
include hx

/-- The task that has its turn runs until it leaves it. -/
theorem runs_turn (way : (s.woken t).loop.Keeps s₁.loop) : s₁.Runs t x.job :=
  (runs_wake (s := s.onLoop fun l => { l with ready := l.ready.tail }) hx).keeps way

include h c

theorem Rounds.tallied_turn {rest : List Ready} (hr : s.loop.ready = .step t :: rest)
    (before : ∀ e, x.phase ≠ .ended e) (part : (s.woken t).TakesPart t x K s') :
    s'.loop.Tallied := by
  obtain ⟨s₁, account, ends⟩ := part
  have woken : (s.woken t).loop.Tallied := by
    have tail : s.loop.ready.tail = rest := by rw [hr, List.tail_cons]
    have popped : Loop.Tallied { s.loop with ready := s.loop.ready.tail } :=
      tail ▸ h.tallied.popStep hr
    exact popped.wake hx before
  have way : s₁.loop.Tallied := woken.advances account.loop
  obtain ⟨z, hz, running, job⟩ := runs_turn hx account.loop.toKeeps
  cases ends with
  | ends e => exact way.finish hz running e
  | pauses _ _ next => exact way.pause hz running next
  | awaits _ _ r next => exact way.await hz running r next
  | @gathers c' ds hj fresh heeded round listed =>
    refine way.gather (fun d hd => ?_) hz running ?_
    · have hd : .dispatched d ∈ K := mem_opened_iff.mp (round ▸ hd)
      have speaks := account.spoken _ hd d rfl
      rwa [hj] at speaks
    · have barren : s₁.Barren t := by
        have started : (s.onLoop fun l => { l with ready := l.ready.tail }).Barren t :=
          c.barren_of_fresh hx fresh
        exact started.wake.keeps account.loop.toKeeps
      rintro m ⟨y, d, hy, hd, hr⟩
      exact barren m y d hy hd hr

omit h c in
/-- A lint that gathers its round has made a task for every dispatch of it. -/
theorem formed_gathers (path₀ : s₀.opening.Path s) (orderly : s.registry.Orderly)
    (path : s.Path (s₁.onLoop fun l => l.gather t (opened K)))
    (account : Account (SpeaksFor t x.job) (s.woken t) s₁ K) (fresh : x.phase = .fresh)
    (listed : ((opened K).map Dispatch.record).Sublist s.registry.active.values) :
    (s₁.onLoop fun l => l.gather t (opened K)).Formed t := by
  have mem {d : Dispatch} (hd : .dispatched d ∈ s₁.history) (hr : d.round = t) : d ∈ opened K := by
    rw [account.history] at hd
    rcases List.mem_append.mp hd with hd | hd
    · obtain ⟨z, hz, _, hp⟩ := Path.opener path₀ hd
      rw [hr, hx, Option.some.injEq] at hz
      exact absurd fresh (hz ▸ hp)
    · exact mem_opened_iff.mpr hd
  constructor
  · intro d hd hr
    obtain ⟨i, hi, rfl⟩ := List.getElem_of_mem (mem hd hr)
    obtain ⟨g, hk⟩ := s₁.loop.keeps_gather t (opened K)
    have spawned : (s₁.loop.spawnAll (opened K)).tasks[s₁.loop.tasks.size + i]? =
        some { name := none, job := .dispatch (opened K)[i] } := by
      rw [Loop.tasks_spawnAll, Array.getElem?_append_right (Nat.le_add_right ..)]
      simp [hi]
    obtain ⟨z, hz, _⟩ := runs_turn hx account.loop.toKeeps
    have other : t ≠ s₁.loop.tasks.size + i :=
      Nat.ne_of_lt (Nat.lt_add_right i (Array.getElem?_eq_some_iff.mp hz).1)
    obtain ⟨y, hy, kept, _⟩ := hk.forth_turned spawned
    exact ⟨_, y, hy, (kept other).job⟩
  · intro d d' hd hd' hr hr' hp
    have provider {e : Dispatch} (he : e ∈ opened K) :
        ∃ p, s.registry.records[e.record]?.map Record.provider = some p := by
      have hv : e.record ∈ s.registry.active.values := listed.subset (List.mem_map_of_mem he)
      have hm := List.mem_map_of_mem
        (f := fun id => s.registry.records[id]?.map Record.provider) hv
      rw [orderly.map_provider_values] at hm
      obtain ⟨p, _, hp⟩ := List.mem_map.mp hm
      exact ⟨p, hp.symm⟩
    obtain ⟨p, hp₁⟩ := provider (mem hd hr)
    obtain ⟨p', hp₂⟩ := provider (mem hd' hr')
    rw [path.providerOf hp₁, path.providerOf hp₂] at hp
    have distinct : ((opened K).map fun e =>
        s.registry.records[e.record]?.map Record.provider).Nodup := by
      have all := listed.map fun id => s.registry.records[id]?.map Record.provider
      rw [List.map_map, orderly.map_provider_values] at all
      exact all.nodup (orderly.distinct.map (Option.some_injective _))
    exact List.inj_on_of_nodup_map distinct (mem hd hr) (mem hd' hr') (by rw [hp₁, hp₂, hp])

/-- A lint that ends with success has a round in which all went well. -/
theorem Rounds.success_turn (path₀ : s₀.opening.Path s) (path : s.Path s')
    (part : (s.woken t).TakesPart t x K s') {c' : EditContext} (hj : x.job = .lint c')
    (well : (s.woken t).EndsWell x K true) : s'.Formed t ∧ s'.WentWell t := by
  obtain ⟨none, phase⟩ := well.success rfl c' hj
  have same (d : Dispatch) (_ : d.round = t) (hd : .dispatched d ∈ s'.history) :
      .dispatched d ∈ s.history := by
    rcases dispatched_turn c hx part hd with hd | ⟨hd, _⟩
    · exact hd
    · simp [none] at hd
  rcases phase with fresh | ⟨g, hg, went⟩
  · have nothing (d : Dispatch) (hd : .dispatched d ∈ s'.history) : d.round ≠ t := by
      intro hr
      obtain ⟨z, hz, _, hp⟩ := Path.opener path₀ (same d hr hd)
      rw [hr, hx, Option.some.injEq] at hz
      exact hp (hz ▸ fresh)
    exact ⟨⟨fun d hd hr => absurd hr (nothing d hd), fun d _ hd _ hr => absurd hr (nothing d hd)⟩,
      fun d hd hr => absurd hr (nothing d hd)⟩
  · have formed := (h.settled t).gathered x g hx hg
    have tally := h.tallied.tally t x g hx hg
    refine ⟨formed.path c path same, WentWell.path (fun d hd hr => ?_) path same⟩
    obtain ⟨m, y, hy, hd'⟩ := formed.tasked d hd hr
    obtain ⟨b, z, hz, he⟩ := tally.success went m ((tally.mem_iff m).mpr ⟨y, d, hy, hd', hr⟩)
    obtain rfl := Option.some.inj (hy.symm.trans hz)
    exact ⟨m, y, b, hy, hd', he⟩

theorem Rounds.settled_turn (path₀ : s₀.opening.Path s) (orderly : s.registry.Orderly)
    (path : s.Path s') (part : (s.woken t).TakesPart t x K s') : s'.Settled t := by
  obtain ⟨s₁, account, ends⟩ := id part
  have runs := runs_turn hx account.loop.toKeeps
  -- the task is at the phase that its turn left it at
  have left {p : Phase} (hk : (s₁.loop.setPhase t p).Keeps s'.loop) (hp : ∀ g, p ≠ .gathering g)
      {y : Task} (hy : s'.loop.tasks[t]? = some y) : y.job = x.job ∧ y.phase = p := by
    obtain ⟨z, hz, left⟩ := runs.turned hk hp
    obtain rfl := Option.some.inj (hy.symm.trans hz)
    exact left
  cases ends with
  | ends e well =>
    have ended {y : Task} (hy : (s₁.loop.finish t e).tasks[t]? = some y) :
        y.job = x.job ∧ y.phase = .ended e := left (s₁.loop.keeps_finish t e) (fun _ => nofun) hy
    constructor
    · intro y g hy hg
      simp [(ended hy).2] at hg
    · intro y c' hy hj he
      obtain rfl := Phase.ended.inj ((ended hy).2.symm.trans he)
      exact h.success_turn c hx path₀ path part ((ended hy).1.symm.trans hj) (well true rfl)
    · intro y d b hy hj he
      obtain rfl := Phase.ended.inj ((ended hy).2.symm.trans he)
      obtain ⟨n, hn, finish⟩ := (well b rfl).closing d ((ended hy).1.symm.trans hj)
      exact ⟨n, history_turn part ▸ List.mem_append_right _ hn, finish⟩
  | pauses _ _ next =>
    have waits {y : Task} (hy : (s₁.loop.pause t next).tasks[t]? = some y) :
        y.phase = .paused next := (left (s₁.loop.keeps_pause t next) (fun _ => nofun) hy).2
    exact ⟨fun y g hy hg => by simp [waits hy] at hg, fun y c' hy _ he => by simp [waits hy] at he,
      fun y d b hy _ he => by simp [waits hy] at he⟩
  | awaits _ _ r next =>
    have waits {y : Task} (hy : (s₁.loop.await t r next).tasks[t]? = some y) :
        y.phase = .awaiting r next := (left (s₁.loop.keeps_await t r next) (fun _ => nofun) hy).2
    exact ⟨fun y g hy hg => by simp [waits hy] at hg, fun y c' hy _ he => by simp [waits hy] at he,
      fun y d b hy _ he => by simp [waits hy] at he⟩
  | @gathers c' ds hj fresh heeded round listed =>
    subst round
    obtain ⟨z, g, hz, _, hg⟩ := runs.gathering (opened K)
    have waits {y : Task} (hy : (s₁.loop.gather t (opened K)).tasks[t]? = some y) :
        y.phase = .gathering g := by
      obtain rfl := Option.some.inj (hy.symm.trans hz)
      exact hg
    exact ⟨fun y g _ _ => formed_gathers hx path₀ orderly path account fresh listed,
      fun y c' hy _ he => by simp [waits hy] at he, fun y d b hy _ he => by simp [waits hy] at he⟩

omit h c in
/-- A task that has had its turn has started. -/
theorem started_turn (part : (s.woken t).TakesPart t x K s') :
    ∃ y, s'.loop.tasks[t]? = some y ∧ y.phase ≠ .fresh := by
  obtain ⟨s₁, account, ends⟩ := part
  have runs := runs_turn hx account.loop.toKeeps
  cases ends with
  | ends e =>
    obtain ⟨y, hy, _, hp⟩ := runs.turned (s₁.loop.keeps_finish t e) fun _ => nofun
    exact ⟨y, hy, by simp [hp]⟩
  | pauses _ _ next =>
    obtain ⟨y, hy, _, hp⟩ := runs.turned (s₁.loop.keeps_pause t next) fun _ => nofun
    exact ⟨y, hy, by simp [hp]⟩
  | awaits _ _ r next =>
    obtain ⟨y, hy, _, hp⟩ := runs.turned (s₁.loop.keeps_await t r next) fun _ => nofun
    exact ⟨y, hy, by simp [hp]⟩
  | gathers =>
    obtain ⟨y, g, hy, _, hg⟩ := runs.gathering _
    exact ⟨y, hy, by simp [hg]⟩

/-- What rounds have come to after a turn. -/
theorem Rounds.turn (path₀ : s₀.opening.Path s) (orderly : s.registry.Orderly) (path : s.Path s')
    {rest : List Ready} (hr : s.loop.ready = .step t :: rest) (before : ∀ e, x.phase ≠ .ended e)
    (part : (s.woken t).TakesPart t x K s') : s'.Rounds := by
  refine ⟨h.tallied_turn c hx hr before part, fun u => ?_⟩
  by_cases hu : u = t
  · subst hu
    exact h.settled_turn c hx path₀ orderly path part
  · have others := others_turn part
    have alone : s.LeavesAlone s' u := by
      constructor
      · intro y hy hp
        cases hz : s.loop.tasks[u]? with
        | none => exact absurd (others.fresh u y hu hz hy) hp
        | some z =>
          obtain ⟨w, hw, kept⟩ := others.forth u z hu hz
          obtain rfl := Option.some.inj (hy.symm.trans hw)
          exact ⟨z, rfl, kept⟩
      · intro d hd hs
        rcases dispatched_turn c hx part hs with hs | ⟨_, hr, _⟩
        · exact hs
        · exact absurd (hd.symm.trans hr) hu
    exact alone.settled (h.settled u) c path

end turn

theorem rounds_opening (s : Session) : s.opening.Rounds where
  tallied := Loop.tallied_empty
  settled t := ⟨fun x g hx => by simp [opening] at hx, fun x c hx => by simp [opening] at hx,
    fun x d b hx => by simp [opening] at hx⟩

/-- What rounds have come to after a beat. -/
theorem Rounds.beat (h : s.Rounds) (path₀ : s₀.opening.Path s) (path : s.Path s')
    (beat : s.Beat K s') : s'.Rounds := by
  have c := s₀.coherent_opening.path path₀
  have kept (tallied : s'.loop.Tallied) (hk : s.loop.Keeps s'.loop)
      (dispatched : ∀ d, .dispatched d ∈ s'.history → .dispatched d ∈ s.history) : s'.Rounds :=
    ⟨tallied, fun t => (LeavesAlone.of_keeps hk dispatched t).settled (h.settled t) c path⟩
  cases beat with
  | acts way silent =>
    refine kept (h.tallied.advances way.loop) way.loop.toKeeps fun d hd => ?_
    rw [way.history] at hd
    exact (List.mem_append.mp hd).resolve_right fun hd => by simpa [Entry.speaker?] using silent _ hd
  | skips hr => exact kept (h.tallied.popStep hr) (.of_tasks_eq rfl) fun _ => id
  | @hears t u rest hr =>
    have popped : s.loop.Keeps { s.loop with ready := rest } := .of_tasks_eq rfl
    exact kept (h.tallied.hear hr) (popped.trans (Loop.keeps_memberEnded _ t u)) fun _ => id
  | turns hr hx before part =>
    exact h.turn c hx path₀ (Path.orderly path₀ (Registry.orderly_empty _)) path hr before part

/-- What rounds come to in a run. -/
theorem rounds_run (s : Session) (moves : List Move) : (s.opening.run moves).Rounds :=
  Comes.beats s.comes_start s.rounds_opening
    (fun path₀ path beat h => h.beat path₀ path beat) moves

end Session
end LintBroker

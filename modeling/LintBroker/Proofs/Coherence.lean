import LintBroker.Proofs.Registrations
import LintBroker.Proofs.Turns

/-!
# Coherence of journal, registry and tasks

What the journal says of dispatches, what the registry has counted and what the tasks are doing agree
at every moment: the generations of a registration were opened in order and without gaps, every
dispatch stands at one of the stages, the phase of its task fits that stage, and at most one task
runs. Every step keeps this, one field at a time.
-/
namespace LintBroker

def Unmarked (J J' : List Entry) : Prop := ∃ es, J' = J ++ es ∧ ∀ e ∈ es, e.mark? = none

namespace Unmarked
variable {J J' : List Entry}

theorem refl (J : List Entry) : Unmarked J J := ⟨[], by simp, by simp⟩

theorem concat {e : Entry} (h : e.mark? = none) : Unmarked J (J ++ [e]) := ⟨[e], rfl, by simpa using h⟩

theorem mem_iff (h : Unmarked J J') {e : Entry} (he : e.mark? ≠ none) : e ∈ J' ↔ e ∈ J := by
  obtain ⟨es, rfl, hes⟩ := h
  constructor
  · intro hm
    rcases List.mem_append.mp hm with hm | hm
    · exact hm
    · exact absurd (hes e hm) he
  · exact List.mem_append_left es

theorem life_eq (h : Unmarked J J') (k : DispatchKey) : life k J' = life k J := by
  obtain ⟨es, rfl, hes⟩ := h
  have : life k es = [] := by
    rw [life, List.filterMap_eq_nil_iff]
    intro e he
    simp [Entry.markOf, hes e he]
  rw [life_append, this, List.append_nil]

end Unmarked

/-- The generations that were opened for a registration, in order. -/
def generations (id : RecordId) (J : List Entry) : List Nat :=
  J.filterMap fun
    | .dispatched d => if d.record = id then some d.generation else none
    | _ => none

section generations
variable {id : RecordId} {J J' : List Entry}

theorem mem_generations_iff {g : Nat} :
    g ∈ generations id J ↔ ∃ d, .dispatched d ∈ J ∧ d.key = (id, g) := by
  simp only [generations, List.mem_filterMap, Dispatch.key, Prod.mk.injEq]
  constructor
  · rintro ⟨e, he, hg⟩
    split at hg
    · split at hg
      · exact ⟨_, he, ‹_›, by simpa using hg⟩
      · cases hg
    · cases hg
  · rintro ⟨d, hd, rfl, rfl⟩
    exact ⟨_, hd, by simp⟩

theorem generations_concat (e : Entry) :
    generations id (J ++ [e]) = generations id J ++ generations id [e] := List.filterMap_append

theorem generations_of_unmarked (h : Unmarked J J') : generations id J' = generations id J := by
  obtain ⟨es, rfl, hes⟩ := h
  have : generations id es = [] := by
    rw [generations, List.filterMap_eq_nil_iff]
    intro e he
    have := hes e he
    cases e <;> first | rfl | simp [Entry.mark?] at this
  rw [generations, List.filterMap_append]
  change generations id J ++ generations id es = _
  rw [this, List.append_nil]

end generations

/-- The stages at which a dispatch's task may be in a phase. -/
def Phase.Fits : Phase → Stage → Prop
  | .fresh, x => x = .begun
  | .running, x => x ≠ .unopened ∧ x ≠ .opened
  | .paused _, x => x = .entered
  | .awaiting .., x => x = .entered
  | .gathering _, _ => False
  | .ended _, x => x ≠ .unopened ∧ x ≠ .opened ∧ x ≠ .entered

/-- A dispatch has had its task since it began. -/
def Stage.Beyond : Stage → Prop
  | .unopened | .opened | .begun => False
  | .entered | .answered .. | .closed .. => True

theorem Phase.Fits.opened {p : Phase} {x : Stage} (h : p.Fits x) : x ≠ .unopened ∧ x ≠ .opened := by
  cases p <;> simp_all [Phase.Fits]

namespace Session

/-- Journal, registry and tasks agree. -/
structure Coherent (s : Session) : Prop where
  sound : s.registry.Sound
  counted : ∀ {id : RecordId} {x : Record Nat}, s.registry.records[id]? = some x →
    generations id s.history = List.range' 1 x.counters.latest
  unmade : ∀ {id : RecordId}, s.registry.records[id]? = none → generations id s.history = []
  known : ∀ {e : Entry} {d : Dispatch} {m : Mark}, e ∈ s.history → e.mark? = some (d, m) →
    .dispatched d ∈ s.history
  unique : ∀ {d d' : Dispatch}, .dispatched d ∈ s.history → .dispatched d' ∈ s.history →
    d.key = d'.key → d = d'
  stage : ∀ k, ∃ x, s.Stands k x
  received : ∀ {d : Dispatch} {news : Bool}, .accepted d news ∈ s.history →
    ∃ x, s.registry.records[d.record]? = some x ∧ d.generation ≤ x.counters.lastReceived
  provider : ∀ {d : Dispatch} {n : Notice}, .emitted d n ∈ s.history →
    s.providerOf d.record = some n.provider
  tasked : ∀ {t : TaskId} {x : Task} {d : Dispatch}, s.loop.tasks[t]? = some x →
    x.job = .dispatch d → .dispatched d ∈ s.history
  fits : ∀ {t : TaskId} {x : Task} {d : Dispatch}, s.loop.tasks[t]? = some x →
    x.job = .dispatch d → ∃ y, s.Stands d.key y ∧ x.phase.Fits y
  single : ∀ {t t' : TaskId} {x x' : Task} {d d' : Dispatch}, s.loop.tasks[t]? = some x →
    s.loop.tasks[t']? = some x' → x.job = .dispatch d → x'.job = .dispatch d' →
    d.key = d'.key → t = t'
  carried : ∀ {k : DispatchKey} {y : Stage}, s.Stands k y → y.Beyond →
    ∃ (t : TaskId) (x : Task) (d : Dispatch), s.loop.tasks[t]? = some x ∧
      x.job = .dispatch d ∧ d.key = k
  round : ∀ {t : TaskId} {x : Task} {d : Dispatch}, s.loop.tasks[t]? = some x →
    x.job = .dispatch d → ∃ (z : Task) (c : EditContext), s.loop.tasks[d.round]? = some z ∧
      z.job = .lint c ∧ z.phase ≠ .fresh
  alone : ∀ {t t' : TaskId} {job job' : Job}, s.Runs t job → s.Runs t' job' → t = t'

namespace Coherent
variable {s : Session} (c : s.Coherent)
include c

/-- The generation of a dispatch was counted by its registration. -/
theorem generation {d : Dispatch} (h : .dispatched d ∈ s.history) :
    ∃ x, s.registry.records[d.record]? = some x ∧ 1 ≤ d.generation ∧
      d.generation ≤ x.counters.latest := by
  have hg : d.generation ∈ generations d.record s.history :=
    mem_generations_iff.mpr ⟨d, h, rfl⟩
  cases hx : s.registry.records[d.record]? with
  | none => simp [c.unmade hx] at hg
  | some x =>
    rw [c.counted hx, List.mem_range'_1] at hg
    exact ⟨x, rfl, by omega, by omega⟩

theorem opened_of_life {k : DispatchKey} (h : life k s.history ≠ []) :
    ∃ d, .dispatched d ∈ s.history ∧ d.key = k := by
  obtain ⟨m, hm⟩ := List.exists_mem_of_ne_nil _ h
  obtain ⟨e, he, d, hd, hk⟩ := mem_life_iff.mp hm
  exact ⟨d, c.known he hd, hk⟩

/-- The next generation of a registration has not been opened. -/
theorem unopened {id : RecordId} {x : Record Nat} (hx : s.registry.records[id]? = some x) :
    s.Stands (id, x.counters.latest + 1) .unopened := by
  by_contra h
  obtain ⟨d, hd, hk⟩ := c.opened_of_life h
  obtain ⟨y, hy, _, hle⟩ := c.generation hd
  simp only [Dispatch.key, Prod.mk.injEq] at hk
  rw [hk.1, hx, Option.some.injEq] at hy
  subst hy
  omega

section phases
variable {t : TaskId} {x : Task} {d : Dispatch} (hx : s.loop.tasks[t]? = some x)
  (hd : x.job = .dispatch d)
include hx hd

theorem begun_of_fresh (hp : x.phase = .fresh) : s.Stands d.key .begun := by
  obtain ⟨y, stage, fits⟩ := c.fits hx hd
  rw [hp] at fits
  obtain rfl : y = .begun := fits
  exact stage

theorem entered_of_paused {next} (hp : x.phase = .paused next) : s.Stands d.key .entered := by
  obtain ⟨y, stage, fits⟩ := c.fits hx hd
  rw [hp] at fits
  obtain rfl : y = .entered := fits
  exact stage

theorem entered_of_awaiting {r next} (hp : x.phase = .awaiting r next) :
    s.Stands d.key .entered := by
  obtain ⟨y, stage, fits⟩ := c.fits hx hd
  rw [hp] at fits
  obtain rfl : y = .entered := fits
  exact stage

theorem not_gathering (g : Gathering) : x.phase ≠ .gathering g := by
  intro hp
  obtain ⟨y, _, fits⟩ := c.fits hx hd
  rw [hp] at fits
  exact fits

end phases

end Coherent
variable {s s' : Session}

theorem Change.history (h : s.Change s') : Unmarked s.history s'.history := by
  cases h with
  | note h => simpa using Unmarked.concat (Entry.mark?_of_isPlain h)
  | reshape | alter | register | remove | dispose => simpa using Unmarked.concat rfl
  | _ => exact .refl _

theorem Change.mark?_of_concat (h : s.Change s') {e : Entry}
    (hJ : s'.history = s.history ++ [e]) : e.mark? = none := by
  obtain ⟨es, hes, unmarked⟩ := h.history
  obtain rfl := List.append_cancel_left (hes.symm.trans hJ)
  exact unmarked e (List.mem_singleton_self e)

theorem Coherent.dispatched_of_runs (c : s.Coherent) {t : TaskId} {d : Dispatch}
    (h : s.Runs t (.dispatch d)) : .dispatched d ∈ s.history := by
  obtain ⟨x, hx, _, hd⟩ := h
  exact c.tasked hx hd

/-- A step says at most one thing of one dispatch, and that takes the dispatch to its next stage. -/
theorem Step.history (h : s.Step s') (c : s.Coherent) :
    Unmarked s.history s'.history ∨
      ∃ (e : Entry) (d : Dispatch) (m : Mark) (x y : Stage), s'.history = s.history ++ [e] ∧
        e.mark? = some (d, m) ∧ s.Stands d.key x ∧ y.marks = x.marks ++ [m] ∧
          (e = .dispatched d ∨ .dispatched d ∈ s.history) ∧
            (x = .unopened ∨ x = .opened ∨ ∃ t, s.Runs t (.dispatch d)) := by
  cases h with
  | change h => exact .inl h.history
  | pop | hear | wake | gathers | requests | pauses | awaits | ends => exact .inl (.refl _)
  | invokes => exact .inl (by simpa using Unmarked.concat rfl)
  | opens runs hx _ =>
    exact .inr ⟨_, _, _, .unopened, .opened, history_noted _ _, rfl, c.unopened hx, rfl, .inl rfl,
      .inl rfl⟩
  | begins _ known stage =>
    exact .inr ⟨_, _, _, _, .begun, history_noted _ _, rfl, stage, rfl, .inr known,
      .inr (.inl rfl)⟩
  | enters runs stage =>
    exact .inr ⟨_, _, _, _, .entered, history_noted _ _, rfl, stage, rfl,
      .inr (c.dispatched_of_runs runs), .inr (.inr ⟨_, runs⟩)⟩
  | answers r runs stage =>
    exact .inr ⟨_, _, _, _, .answered r .unheard, history_noted _ _, rfl, stage, rfl,
      .inr (c.dispatched_of_runs runs), .inr (.inr ⟨_, runs⟩)⟩
  | @accepts t d r x runs stage =>
    refine .inr ⟨_, _, _, _, .answered r (if x.counters.isNews d.generation then .news else .stale),
      history_noted _ _, rfl, stage, ?_, .inr (c.dispatched_of_runs runs), .inr (.inr ⟨_, runs⟩)⟩
    cases x.counters.isNews d.generation <;> rfl
  | surfaces runs stage =>
    exact .inr ⟨_, _, _, _, .answered _ .surfaced, history_noted _ _, rfl, stage, rfl,
      .inr (c.dispatched_of_runs runs), .inr (.inr ⟨_, runs⟩)⟩
  | closes runs stage =>
    exact .inr ⟨_, _, _, _, .closed _ _, history_noted _ _, rfl, stage, rfl,
      .inr (c.dispatched_of_runs runs), .inr (.inr ⟨_, runs⟩)⟩

namespace Coherent
variable (c : s.Coherent)
include c

theorem known_step (h : s.Step s') {e : Entry} {d : Dispatch} {m : Mark} (he : e ∈ s'.history)
    (hm : e.mark? = some (d, m)) : .dispatched d ∈ s'.history := by
  rcases h.history c with hu | ⟨e', d', m', _, _, hJ, hm', _, _, hd, _⟩
  · rw [hu.mem_iff (by simp [hm])] at he
    exact (hu.mem_iff (by simp [Entry.mark?])).mpr (c.known he hm)
  · rw [hJ] at he ⊢
    rcases List.mem_append.mp he with he | he
    · exact List.mem_append_left _ (c.known he hm)
    · rw [List.mem_singleton.mp he, hm', Option.some.injEq, Prod.mk.injEq] at hm
      obtain ⟨rfl, rfl⟩ := hm
      rcases hd with rfl | hd
      · simp
      · exact List.mem_append_left _ hd

theorem unique_step (h : s.Step s') {d d' : Dispatch} (hd : .dispatched d ∈ s'.history)
    (hd' : .dispatched d' ∈ s'.history) (hk : d.key = d'.key) : d = d' := by
  rcases h.history c with hu | ⟨e, d₀, m, x, y, hJ, hm, hx, hy, _⟩
  · rw [hu.mem_iff (by simp [Entry.mark?])] at hd hd'
    exact c.unique hd hd' hk
  · have fresh (d₁ : Dispatch) (h₁ : .dispatched d₁ ∈ s.history) (he : e = .dispatched d₀)
        (hk : d₀.key = d₁.key) : False := by
      subst he
      simp only [Entry.mark?, Option.some.injEq, Prod.mk.injEq, true_and] at hm
      subst hm
      have hmem := mem_life h₁ rfl
      rw [← hk, hx, Stage.unopened_of_marks hy] at hmem
      cases hmem
    rw [hJ, List.mem_append, List.mem_singleton] at hd hd'
    have of_eq {d₁ : Dispatch} (he : Entry.dispatched d₁ = e) : d₁ = d₀ := by
      subst he
      simp only [Entry.mark?, Option.some.injEq, Prod.mk.injEq] at hm
      exact hm.1
    rcases hd with hd | hd <;> rcases hd' with hd' | hd'
    · exact c.unique hd hd' hk
    · have := of_eq hd'
      subst this
      exact (fresh d hd hd'.symm hk.symm).elim
    · have := of_eq hd
      subst this
      exact (fresh d' hd' hd.symm hk).elim
    · rw [of_eq hd, of_eq hd']

theorem stage_step (h : s.Step s') (k : DispatchKey) : ∃ x, s'.Stands k x := by
  obtain ⟨z, hz⟩ := c.stage k
  rcases h.history c with hu | ⟨e, d, m, x, y, hJ, hm, hx, hy, _⟩
  · exact ⟨z, (hu.life_eq k).trans hz⟩
  · by_cases hk : d.key = k
    · subst hk
      exact ⟨y, by rw [Stands, hJ, life_concat_self hm, hx, hy]⟩
    · exact ⟨z, by rw [Stands, hJ, life_concat_other hm hk, hz]⟩

theorem counted_step (h : s.Step s') {id : RecordId} {x : Record Nat}
    (hx : s'.registry.records[id]? = some x) :
    generations id s'.history = List.range' 1 x.counters.latest := by
  cases h with
  | change h =>
    rw [generations_of_unmarked h.history]
    rcases h.record hx with ⟨y, hy, _, hc⟩ | ⟨hn, hc, _⟩
    · rw [c.counted hy, hc]
    · rw [c.unmade hn, hc]
      rfl
  | @opens t e i y runs hy =>
    rw [registry_noted, registry_onRegistry, Registry.getElem?_changeRecord] at hx
    rw [history_noted, generations_concat, history_onRegistry]
    split at hx
    · subst i
      rw [hy] at hx
      cases hx
      rw [c.counted hy]
      simp [generations, List.range'_concat, Nat.add_comm]
    · rw [c.counted hx]
      simp [generations, *]
  | accepts =>
    rw [registry_noted, registry_onRegistry, Registry.getElem?_changeRecord] at hx
    rw [history_noted, generations_concat, history_onRegistry]
    refine (List.append_nil _).trans ?_
    split at hx
    · obtain ⟨y, hy, rfl⟩ := Option.map_eq_some_iff.mp hx
      simpa using c.counted hy
    · exact c.counted hx
  | begins | enters | invokes | answers | surfaces | closes =>
    rw [history_noted, generations_concat]
    exact (List.append_nil _).trans (c.counted hx)
  | _ => exact c.counted hx

theorem unmade_step (h : s.Step s') {id : RecordId} (hn : s'.registry.records[id]? = none) :
    generations id s'.history = [] := by
  have old : s.registry.records[id]? = none := by
    cases hx : s.registry.records[id]? with
    | none => rfl
    | some x =>
      obtain ⟨y, hy, _⟩ := h.record hx
      simp [hn] at hy
  cases h with
  | change h => rw [generations_of_unmarked h.history, c.unmade old]
  | @opens t e i y runs hy =>
    have : i ≠ id := by
      rintro rfl
      simp [old] at hy
    rw [history_noted, generations_concat, history_onRegistry, c.unmade old]
    simp [generations, this]
  | accepts | begins | enters | invokes | answers | surfaces | closes =>
    rw [history_noted, generations_concat]
    exact (List.append_nil _).trans (c.unmade old)
  | _ => exact c.unmade old

theorem received_step (h : s.Step s') {d : Dispatch} {news : Bool}
    (hd : .accepted d news ∈ s'.history) :
    ∃ x, s'.registry.records[d.record]? = some x ∧ d.generation ≤ x.counters.lastReceived := by
  have old (hd : .accepted d news ∈ s.history) :
      ∃ x, s'.registry.records[d.record]? = some x ∧ d.generation ≤ x.counters.lastReceived := by
    obtain ⟨x, hx, hle⟩ := c.received hd
    obtain ⟨y, hy, hxy⟩ := h.record hx
    exact ⟨y, hy, Nat.le_trans hle hxy.lastReceived⟩
  cases h with
  | change h => exact old ((h.history.mem_iff (by simp [Entry.mark?])).mp hd)
  | @accepts t d' r x runs stage _ hx =>
    rw [history_noted, List.mem_append, List.mem_singleton] at hd
    rcases hd with hd | hd
    · exact old hd
    · cases hd
      refine ⟨{ x with counters := x.counters.receive d.generation }, ?_, ?_⟩
      · simp [Registry.getElem?_changeRecord, hx]
      · simp [Counters.lastReceived_receive]
  | opens | begins | enters | invokes | answers | surfaces | closes =>
    exact old (by simpa using hd)
  | _ => exact old hd

theorem provider_step (h : s.Step s') {d : Dispatch} {n : Notice}
    (hd : .emitted d n ∈ s'.history) : s'.providerOf d.record = some n.provider := by
  have old (hd : .emitted d n ∈ s.history) : s'.providerOf d.record = some n.provider :=
    Path.providerOf (.single h) (c.provider hd)
  cases h with
  | change h => exact old ((h.history.mem_iff (by simp [Entry.mark?])).mp hd)
  | begins _ _ _ hp | surfaces _ _ hp | closes _ _ hp =>
    rw [history_noted, List.mem_append, List.mem_singleton] at hd
    rcases hd with hd | hd
    · exact old hd
    · cases hd
      exact hp
  | opens | accepts | enters | invokes | answers => exact old (by simpa using hd)
  | _ => exact old hd

end Coherent

theorem Step.dispatched (h : s.Step s') (c : s.Coherent) {d : Dispatch}
    (hd : .dispatched d ∈ s.history) : .dispatched d ∈ s'.history := by
  rcases h.history c with hu | ⟨_, _, _, _, _, hJ, _⟩
  · exact (hu.mem_iff (by simp [Entry.mark?])).mpr hd
  · exact hJ ▸ List.mem_append_left _ hd

namespace Coherent
variable (c : s.Coherent)
include c

theorem tasked_step (h : s.Step s') {t : TaskId} {y : Task} {d : Dispatch}
    (hy : s'.loop.tasks[t]? = some y) (hd : y.job = .dispatch d) : .dispatched d ∈ s'.history := by
  rcases h.dispatch_task hy hd with ⟨x, hx, hxd, _⟩ | ⟨_, _, _, _, known, _, hJ⟩
  · exact h.dispatched c (c.tasked hx hxd)
  · exact hJ ▸ known

/-- If a step changes the stage of a dispatch that has a task, that task runs, and the dispatch stays
one that may have a running task. -/
theorem stands_step (h : s.Step s') {t : TaskId} {x : Task} {d : Dispatch} {y : Stage}
    (hx : s.loop.tasks[t]? = some x) (hd : x.job = .dispatch d) (hy : s.Stands d.key y)
    (hf : x.phase.Fits y) :
    s'.Stands d.key y ∨ s.Runs t (.dispatch d) ∧
      ∃ z, s'.Stands d.key z ∧ z ≠ .unopened ∧ z ≠ .opened := by
  rcases h.history c with hu | ⟨e, d', m, x', y', hJ, hm, hx', hy', hd', hr⟩
  · exact .inl ((hu.life_eq _).trans hy)
  · by_cases hk : d'.key = d.key
    · have hxy : x' = y := (hk ▸ hx').unique hy
      subst hxy
      rcases hr with hr | hr | ⟨u, hr⟩
      · exact absurd hr hf.opened.1
      · exact absurd hr hf.opened.2
      · obtain ⟨z, hz, hzp, hzd⟩ := hr
        obtain rfl := c.single hz hx hzd hd hk
        obtain rfl := c.unique (c.tasked hz hzd) (c.tasked hx hd) hk
        refine .inr ⟨⟨z, hz, hzp, hzd⟩, y', ?_, ?_⟩
        · rw [Stands, hJ, life_concat_self hm, hx', hy']
        · have := hf.opened
          cases x' <;> cases y' <;> simp_all [Stage.marks]
    · exact .inl (by rw [Stands, hJ, life_concat_other hm hk, hy])

theorem fits_step (h : s.Step s') {t : TaskId} {y : Task} {d : Dispatch}
    (hy : s'.loop.tasks[t]? = some y) (hd : y.job = .dispatch d) :
    ∃ z, s'.Stands d.key z ∧ y.phase.Fits z := by
  rcases h.dispatch_task hy hd with ⟨x, hx, hxd, turn⟩ | ⟨_, hf, _, _, _, stage, hJ⟩
  · obtain ⟨z, hz, hf⟩ := c.fits hx hxd
    have same (hJ : s'.history = s.history) : s'.Stands d.key z := by rw [Stands, hJ, hz]
    cases turn with
    | keeps hk =>
      have hp : y.phase = x.phase := hk.phase_eq fun g hg => by simp [hg, Phase.Fits] at hf
      rcases c.stands_step h hx hxd hz hf with hz' | ⟨hr, z', hz', hn⟩
      · exact ⟨z, hz', hp ▸ hf⟩
      · exact ⟨z', hz', by rw [hp, (hr.phase hx).1]; exact hn⟩
    | wakes idle before after step =>
      exact ⟨z, same (step ▸ rfl), by rw [after]; exact hf.opened⟩
    | waits before job stage hJ after =>
      rw [hxd, Job.dispatch.injEq] at job
      subst job
      rcases after with ⟨next, hp⟩ | ⟨r, next, hp⟩
      · exact ⟨.entered, by rw [Stands, hJ, stage], by simp [hp, Phase.Fits]⟩
      · exact ⟨.entered, by rw [Stands, hJ, stage], by simp [hp, Phase.Fits]⟩
    | gathers _ job => simp [hxd] at job
    | ends before hJ may after =>
      obtain ⟨p, _, stage | ⟨r, v, stage⟩ | ⟨r, v, _, stage, _⟩⟩ := may d hxd
      · exact ⟨_, by rw [Stands, hJ, stage], by simp [after, Phase.Fits]⟩
      · exact ⟨_, by rw [Stands, hJ, stage], by simp [after, Phase.Fits]⟩
      · exact ⟨_, by rw [Stands, hJ, stage], by simp [after, Phase.Fits]⟩
  · exact ⟨.begun, by rw [Stands, hJ, stage], by simp [hf, Phase.Fits]⟩

theorem single_step (h : s.Step s') {t t' : TaskId} {y y' : Task} {d d' : Dispatch}
    (hy : s'.loop.tasks[t]? = some y) (hy' : s'.loop.tasks[t']? = some y')
    (hd : y.job = .dispatch d) (hd' : y'.job = .dispatch d') (hk : d.key = d'.key) : t = t' := by
  obtain ⟨ds, distinct, hds, new⟩ := h.new_tasks
  -- a new task is of a round that had no tasks
  have apart {u u' : TaskId} {z z' : Task} {e e' : Dispatch} (hu : s.loop.tasks[u]? = some z)
      (hn : s.loop.tasks[u']? = none) (hz' : s'.loop.tasks[u']? = some z')
      (he : z.job = .dispatch e) (he' : z'.job = .dispatch e') : e.key ≠ e'.key := by
    intro hk
    rcases (new u' z' hn hz').2 with ⟨_, hc⟩ | ⟨i, f, hi, _, hj⟩
    · simp [he'] at hc
    · rw [he', Job.dispatch.injEq] at hj
      subst hj
      obtain ⟨_, _, barren, known, _, _⟩ := hds e' (List.mem_of_getElem? hi)
      have := c.unique (c.tasked hu he) known hk
      exact barren u z e hu he (this ▸ rfl)
  have old {u : TaskId} {x z : Task} {e : Dispatch} (hx : s.loop.tasks[u]? = some x)
      (hz : s'.loop.tasks[u]? = some z) (he : z.job = .dispatch e) : x.job = .dispatch e := by
    obtain ⟨w, hw, hj, _⟩ := h.task hx
    rw [hz, Option.some.injEq] at hw
    subst hw
    exact hj.symm.trans he
  cases hx : s.loop.tasks[t]? with
  | some x =>
    cases hx' : s.loop.tasks[t']? with
    | some x' => exact c.single hx hx' (old hx hy hd) (old hx' hy' hd') hk
    | none => exact absurd hk (apart hx hx' hy' (old hx hy hd) hd')
  | none =>
    cases hx' : s.loop.tasks[t']? with
    | some x' => exact absurd hk.symm (apart hx' hx hy (old hx' hy' hd') hd)
    | none =>
      rcases (new t y hx hy).2 with ⟨_, hc⟩ | ⟨i, f, hi, hu, hj⟩
      · simp [hd] at hc
      · rcases (new t' y' hx' hy').2 with ⟨_, hc⟩ | ⟨i', f', hi', hu', hj'⟩
        · simp [hd'] at hc
        · rw [hd, Job.dispatch.injEq] at hj
          rw [hd', Job.dispatch.injEq] at hj'
          subst hj hj'
          have hi₁ : (ds.map Dispatch.key)[i]? = some d.key := by simp [hi]
          have hi₂ : (ds.map Dispatch.key)[i']? = some d.key := by simp [hi', hk]
          have := (List.getElem?_inj (List.getElem?_eq_some_iff.mp hi₁).1 distinct).mp
            (hi₁.trans hi₂.symm)
          rw [hu, hu', this]

theorem carried_step (h : s.Step s') {k : DispatchKey} {y : Stage} (hy : s'.Stands k y)
    (hb : y.Beyond) :
    ∃ (t : TaskId) (x : Task) (d : Dispatch), s'.loop.tasks[t]? = some x ∧
      x.job = .dispatch d ∧ d.key = k := by
  have forth {t : TaskId} {x : Task} {d : Dispatch} (hx : s.loop.tasks[t]? = some x)
      (hd : x.job = .dispatch d) (hk : d.key = k) :
      ∃ (t : TaskId) (x : Task) (d : Dispatch), s'.loop.tasks[t]? = some x ∧
        x.job = .dispatch d ∧ d.key = k := by
    obtain ⟨z, hz, hj, _⟩ := h.task hx
    exact ⟨t, z, d, hz, hj.trans hd, hk⟩
  have before (hy : s.Stands k y) : ∃ (t : TaskId) (x : Task) (d : Dispatch),
      s'.loop.tasks[t]? = some x ∧ x.job = .dispatch d ∧ d.key = k := by
    obtain ⟨t, x, d, hx, hd, hk⟩ := c.carried hy hb
    exact forth hx hd hk
  rcases h.history c with hu | ⟨e, d, m, x, z, hJ, hm, hx, hz, _, hr⟩
  · exact before ((hu.life_eq k).symm.trans hy)
  · by_cases hk : d.key = k
    · subst hk
      have hzy : z = y := by
        refine Stands.unique (s := s') (k := d.key) ?_ hy
        rw [Stands, hJ, life_concat_self hm, hx, hz]
      subst hzy
      rcases hr with rfl | rfl | ⟨t, w, hw, _, hd⟩
      · cases z <;> simp_all [Stage.marks, Stage.Beyond]
      · cases z <;> simp_all [Stage.marks, Stage.Beyond]
      · exact forth hw hd rfl
    · exact before (by rw [Stands, ← life_concat_other hm hk, ← hJ, hy])

theorem round_step (h : s.Step s') {t : TaskId} {y : Task} {d : Dispatch}
    (hy : s'.loop.tasks[t]? = some y) (hd : y.job = .dispatch d) :
    ∃ (z : Task) (b : EditContext), s'.loop.tasks[d.round]? = some z ∧ z.job = .lint b ∧
      z.phase ≠ .fresh := by
  have forth {z : Task} {b : EditContext} (hz : s.loop.tasks[d.round]? = some z)
      (hj : z.job = .lint b) (hp : z.phase ≠ .fresh) :
      ∃ (z : Task) (b : EditContext), s'.loop.tasks[d.round]? = some z ∧ z.job = .lint b ∧
        z.phase ≠ .fresh := by
    obtain ⟨w, hw, hwj, _, turn⟩ := h.task hz
    refine ⟨w, b, hw, hwj.trans hj, ?_⟩
    cases turn with
    | keeps hk =>
      rcases hk.phase with h | ⟨_, _, _, h⟩
      · exact h ▸ hp
      · simp [h]
    | wakes _ _ after => simp [after]
    | waits _ _ _ _ after => rcases after with ⟨_, h⟩ | ⟨_, _, h⟩ <;> simp [h]
    | gathers _ _ after => simp [after]
    | ends _ _ _ after => simp [after]
  rcases h.dispatch_task hy hd with ⟨x, hx, hxd, _⟩ | ⟨b, _, ⟨z, hz, hp, hj⟩, _⟩
  · obtain ⟨z, b, hz, hj, hp⟩ := c.round hx hxd
    exact forth hz hj hp
  · exact forth hz hj (by simp [hp])

theorem alone_step (h : s.Step s') {t t' : TaskId} {job job' : Job} (hr : s'.Runs t job)
    (hr' : s'.Runs t' job') : t = t' := by
  have idle_runs (hi : s.Idle) {u : TaskId} {j : Job} (hu : s.Runs u j) : False := by
    obtain ⟨x, hx, hp, _⟩ := hu
    exact hi u x hx hp
  rcases h.runs_back hr with hr₁ | ⟨idle, hs⟩ <;> rcases h.runs_back hr' with hr₂ | ⟨idle', hs'⟩
  · exact c.alone hr₁ hr₂
  · exact (idle_runs idle' hr₁).elim
  · exact (idle_runs idle hr₂).elim
  · -- were they two, the second would not run after the first was woken
    by_contra htt
    obtain ⟨y, hy, hp, _⟩ := hr'
    have hw : s'.loop.tasks[t']? = s.loop.tasks[t']? := by
      rw [hs, loop_onLoop, Loop.wake, Loop.getElem?_changeTask, if_neg htt]
    exact idle t' y (hw ▸ hy) hp

/-- Coherence is kept by every step. -/
theorem step (h : s.Step s') : s'.Coherent where
  sound := h.sound c.sound
  counted := c.counted_step h
  unmade := c.unmade_step h
  known := c.known_step h
  unique := c.unique_step h
  stage := c.stage_step h
  received := c.received_step h
  provider := c.provider_step h
  tasked := c.tasked_step h
  fits := c.fits_step h
  single := c.single_step h
  carried := c.carried_step h
  round := c.round_step h
  alone := c.alone_step h

theorem path (h : s.Path s') : s'.Coherent := by
  induction h with
  | refl => exact c
  | tail _ h ih => exact ih.step h

end Coherent

/-- A session that is just starting: its host is there, and nothing has happened. -/
def opening (s : Session) : Session :=
  { s with registry := { bus := s.registry.bus }, loop := {}, journal := #[] }

theorem coherent_opening (s : Session) : s.opening.Coherent where
  sound := Registry.sound_empty _
  counted h := by simp [opening] at h
  unmade _ := rfl
  known h := by simp [opening, history] at h
  unique h := by simp [opening, history] at h
  stage k := ⟨.unopened, rfl⟩
  received h := by simp [opening, history] at h
  provider h := by simp [opening, history] at h
  tasked h := by simp [opening] at h
  fits h := by simp [opening] at h
  single h := by simp [opening] at h
  carried {k y} h hb := by
    obtain rfl := Stands.unique (y := .unopened) h rfl
    cases hb
  round h := by simp [opening] at h
  alone {t t' job job'} h := by
    obtain ⟨x, hx, _⟩ := h
    simp [opening] at hx

end Session
end LintBroker

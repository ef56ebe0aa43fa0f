import LintBroker.Proofs.Persistence

/-!
# Launches

A dispatch enters the part whose end is announced exactly if its task's first step is let run: no
cancellation has come before it, and the provider has a name to trace. A tick that lets it run is its
launch. Whatever else happens in a run, in whatever order, no dispatch enters in another way.
-/
namespace LintBroker
namespace Session
variable {s s' : Session} {d : Dispatch} {k : DispatchKey} {x y : Stage}

/-- The next tick is the first step of the dispatch's task, no cancellation is pending for the task,
and the dispatch's provider has a name. -/
structure Launches (s : Session) (d : Dispatch) : Prop where
  turn : ∃ t rest z, s.loop.ready = .step t :: rest ∧ s.loop.tasks[t]? = some z ∧
    z.job = .dispatch d ∧ z.phase = .fresh ∧ z.cancelPending = false
  named : ∃ p name, s.providerOf d.record = some p ∧ s.nameOf p = .ok name

/-- The dispatch is launched by one of the moves. -/
def Launched (s : Session) (moves : List Move) (d : Dispatch) : Prop :=
  ∃ before after, moves = before ++ .tick :: after ∧ (s.run before).Launches d

/-- A launch lets the dispatch enter. -/
theorem Launches.enters (h : s.Launches d) (c : s.Coherent) (idle : s.Idle) :
    ∃ y, s.tick.Stands d.key y ∧ y.Beyond := by
  obtain ⟨⟨t, rest, z, hr, hz, hd, hf, hc⟩, p, name, hp, hn⟩ := h
  have first : Path s (s.woken t) := path_woken idle hr hz (by simp [hf])
  have runs : (s.woken t).Runs t (.dispatch d) := hd ▸ runs_wake hz
  have c₁ := c.path first
  have stage : (s.woken t).Stands d.key .begun := c.begun_of_fresh hz hd hf
  obtain ⟨p', hp', he⟩ := c₁.exec_provider (c₁.dispatched_of_runs runs)
  obtain rfl := Option.some.inj (hp'.symm.trans hp)
  obtain ⟨s₁, path, _, entered, turn⟩ := comes_named c₁ runs stage hp' he hn
  have unfolded : s.tick = ((startDispatch d t).run (s.woken t)).2 := by
    rw [tick_step hr hz, resume_dispatch hf hd hc]
  rw [unfolded]
  exact turn.path.beyond (c₁.path path) entered trivial

theorem enters_of_own_step (c : s.Coherent) (idle : s.Idle) {t : TaskId} {z : Task}
    (hz : s.loop.tasks[t]? = some z) (hd : z.job = .dispatch d) (hx : s.Stands d.key x)
    (hnx : ¬ x.Beyond) (hy : ((step t).run s).2.Stands d.key y) (hb : y.Beyond) :
    z.phase = .fresh ∧ z.cancelPending = false ∧
      ∃ p name, s.providerOf d.record = some p ∧ s.nameOf p = .ok name := by
  have turn := comes_step c idle t
  have apart {w : Stage} (h : ((step t).run s).2.Stands d.key w) (hn : ¬ w.Beyond) : False :=
    hn (h.unique hy ▸ hb)
  cases hp : z.phase with
  | fresh =>
    refine ⟨rfl, ?_⟩
    obtain rfl := hx.unique (c.begun_of_fresh hz hd hp)
    rw [run_step_some hz] at apart
    have c₁ : (s.onLoop fun l => l.wake t).Coherent :=
      c.step (.wake idle (not_ended hz (by simp [hp])))
    have runs : (s.onLoop fun l => l.wake t).Runs t (.dispatch d) := hd ▸ runs_wake hz
    obtain ⟨p, hpr, he⟩ := c₁.exec_provider (c₁.dispatched_of_runs runs)
    cases hc : z.cancelPending with
    | true =>
      rw [resume_cancelled hp hc] at apart
      exact (apart (w := .begun) hx hnx).elim
    | false =>
      rw [resume_dispatch hp hd hc] at apart
      cases hn : s.nameOf p with
      | ok name => exact ⟨rfl, p, name, hpr, hn⟩
      | error f =>
        rw [run_startDispatch_unnamed he hn] at apart
        exact (apart (w := .begun) hx hnx).elim
  | running => exact (idle t z hz hp).elim
  | paused next =>
    obtain rfl := hx.unique (c.entered_of_paused hz hd hp)
    exact absurd trivial hnx
  | awaiting r next =>
    obtain rfl := hx.unique (c.entered_of_awaiting hz hd hp)
    exact absurd trivial hnx
  | gathering g => exact absurd hp (c.not_gathering hz hd g)
  | ended e => exact (apart (turn.path.stands_of_ended c hz hd hp hx) hnx).elim

/-- The turn of a task takes no dispatch of another beyond its beginning: that task stays as it was,
or it is new. -/
theorem TakesTurn.not_beyond {t u : TaskId} (turn : s.TakesTurn t s') (c : s.Coherent) (idle : s.Idle)
    (hu : u ≠ t) {w : Task} (hw : s'.loop.tasks[u]? = some w) (hd : w.job = .dispatch d)
    (hx : s.Stands d.key x) (hnx : ¬ x.Beyond) (hy : s'.Stands d.key y) : ¬ y.Beyond := by
  have c' : s'.Coherent := c.path turn.path
  have fresh (hp : w.phase = .fresh) : ¬ y.Beyond := by
    rw [hy.unique (c'.begun_of_fresh hw hd hp)]
    exact id
  cases hz : s.loop.tasks[u]? with
  | none => exact fresh (turn.others.fresh u w hu hz hw)
  | some z =>
    obtain ⟨w', hw', kept⟩ := turn.others.forth u z hu hz
    rw [hw, Option.some.injEq] at hw'
    subst hw'
    have hzd := kept.job.symm.trans hd
    have hp : w.phase = z.phase := kept.phase_eq fun g hg => c.not_gathering hz hzd g hg
    cases hph : z.phase with
    | fresh => exact fresh (hp.trans hph)
    | running => exact (idle u z hz hph).elim
    | paused next =>
      obtain rfl := hx.unique (c.entered_of_paused hz hzd hph)
      exact absurd trivial hnx
    | awaiting r next =>
      obtain rfl := hx.unique (c.entered_of_awaiting hz hzd hph)
      exact absurd trivial hnx
    | gathering g => exact absurd hph (c.not_gathering hz hzd g)
    | ended e =>
      rw [hy.unique (turn.path.stands_of_ended c hz hzd hph hx)]
      exact hnx

theorem launches_of_enters (c : s.Coherent) (idle : s.Idle) (hx : s.Stands k x) (hnx : ¬ x.Beyond)
    (hy : s.tick.Stands k y) (hb : y.Beyond) : ∃ d, d.key = k ∧ s.Launches d := by
  have apart {z : Stage} (h : s.tick.Stands k z) (hz : ¬ z.Beyond) : False :=
    hz (h.unique hy ▸ hb)
  cases hr : s.loop.ready with
  | nil =>
    have same : s.tick = s := by simp [tick, hr]
    rw [same] at apart
    exact (apart hx hnx).elim
  | cons r rest =>
    let popped := s.onLoop fun l => { l with ready := rest }
    cases r with
    | memberEnded parent member =>
      have same : s.tick.history = s.history := by simp [tick, hr]
      exact (apart (by rw [Stands, same, hx]) hnx).elim
    | step t =>
      have unfolded : s.tick = ((step t).run popped).2 := by simp [tick, hr, popped]
      have pop : Step s popped := .pop hr
      have turn : popped.TakesTurn t s.tick := unfolded ▸ comes_step (c.step pop) idle t
      have c' := (c.step pop).path turn.path
      obtain ⟨u, w, d, hw, hd, rfl⟩ := c'.carried hy hb
      refine ⟨d, rfl, ?_⟩
      by_cases hu : u = t
      · subst hu
        cases hz : s.loop.tasks[u]? with
        | none =>
          rw [unfolded, run_step_none (s := popped) hz] at apart
          exact (apart (z := x) hx hnx).elim
        | some z =>
          obtain ⟨w', hw', hj, _⟩ := turn.path.task (z := z) hz
          rw [hw, Option.some.injEq] at hw'
          subst hw'
          have hzd := hj.symm.trans hd
          obtain ⟨hf, hc, named⟩ := enters_of_own_step (c.step pop) (z := z) idle hz hzd hx hnx
            (unfolded ▸ hy) hb
          exact ⟨⟨u, rest, z, hr, hz, hzd, hf, hc⟩, named⟩
      · exact absurd hb (turn.not_beyond (c.step pop) idle hu hw hd hx hnx hy)

theorem run_append (s : Session) (before after : List Move) :
    s.run (before ++ after) = (s.run before).run after := List.foldl_append

theorem Launched.append {moves : List Move} (h : s.Launched moves d) (more : List Move) :
    s.Launched (moves ++ more) d := by
  obtain ⟨before, after, rfl, launches⟩ := h
  exact ⟨before, after ++ more, by simp, launches⟩

theorem Launches.known (h : s.Launches d) (c : s.Coherent) : .dispatched d ∈ s.history := by
  obtain ⟨_, _, _, _, hz, hd, _⟩ := h.turn
  exact c.tasked hz hd

/-- What a run takes beyond its beginning it has launched. -/
theorem launched_of_beyond (s : Session) (moves : List Move)
    (hy : (s.opening.run moves).Stands k y) (hb : y.Beyond) :
    ∃ d, d.key = k ∧ .dispatched d ∈ (s.opening.run moves).history ∧
      s.opening.Launched moves d := by
  induction moves using List.reverseRecOn generalizing y with
  | nil =>
    obtain rfl := hy.unique (y := .unopened) rfl
    exact hb.elim
  | append_singleton moves m ih =>
    let u := s.opening.run moves
    have hu : s.opening.run (moves ++ [m]) = u.move m := run_append _ _ _
    have c : u.Coherent := s.coherent_run moves
    have idle : u.Idle := (s.comes_opening moves).idle
    have path : u.Path (u.move m) := (comes_move c idle m).path
    rw [hu] at hy ⊢
    obtain ⟨x, hx⟩ := c.stage k
    by_cases hxb : x.Beyond
    · obtain ⟨d, hk, known, launched⟩ := ih hx hxb
      exact ⟨d, hk, path.dispatched c known, launched.append [m]⟩
    · cases m with
      | act a =>
        have changes : Changes u (u.perform a).2 := Act.changes_perform a u
        obtain rfl := (changes.stands hx).unique hy
        exact absurd hb hxb
      | tick =>
        obtain ⟨d, hk, launches⟩ := launches_of_enters c idle hx hxb hy hb
        exact ⟨d, hk, path.dispatched c (launches.known c), moves, [], rfl, launches⟩

/-- A dispatch is beyond its beginning after a run exactly if the run has launched it. -/
theorem beyond_iff_launched (s : Session) (moves : List Move)
    (known : .dispatched d ∈ (s.opening.run moves).history) :
    (∃ y, (s.opening.run moves).Stands d.key y ∧ y.Beyond) ↔ s.opening.Launched moves d := by
  constructor
  · rintro ⟨y, hy, hb⟩
    obtain ⟨d', hk, known', launched⟩ := launched_of_beyond s moves hy hb
    obtain rfl := (s.coherent_run moves).unique known' known hk
    exact launched
  · rintro ⟨before, after, rfl, launches⟩
    have c : (s.opening.run before).Coherent := s.coherent_run before
    have idle := (s.comes_opening before).idle
    obtain ⟨y, hy, hb⟩ := launches.enters c idle
    have tick : (s.opening.run before).Comes (s.opening.run before).tick := comes_tick c idle
    have rest := (comes_run (c.path tick.path) tick.idle after).path
    rw [run_append]
    exact rest.beyond (c.path tick.path) hy hb

end Session
end LintBroker

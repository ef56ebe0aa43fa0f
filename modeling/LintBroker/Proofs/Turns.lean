import LintBroker.Proofs.Transition

/-!
# The turns of tasks

What one step makes of a task: it goes on as it was, or it is woken, or, if it was the one that ran,
it gives way, waits or ends. Tasks are never dropped and never change their jobs, and the new ones
are lints and the dispatches of a round that is gathered.
-/
namespace LintBroker
namespace Session
variable {s s' : Session}

theorem Change.loop (h : s.Change s') : s.loop.Keeps s'.loop := by
  cases h with
  | spawn name c => exact s.loop.keeps_spawn name c
  | settle r e => exact s.loop.keeps_settle r e
  | cancel t => exact s.loop.keeps_cancel t
  | _ => exact .of_tasks_eq rfl

/-- What one step makes of a task. -/
inductive Turn (s s' : Session) (t : TaskId) (x y : Task) : Prop
  | keeps (h : x.Keeps y)
  | wakes (idle : s.Idle) (before : ∀ e, x.phase ≠ .ended e) (after : y.phase = .running)
      (step : s' = s.onLoop fun l => l.wake t)
  | waits {d : Dispatch} (before : x.phase = .running) (job : x.job = .dispatch d)
      (stage : s.Stands d.key .entered) (history : s'.history = s.history)
      (after : (∃ next, y.phase = .paused next) ∨ ∃ r next, y.phase = .awaiting r next)
  | gathers {c : EditContext} {g : Gathering} (before : x.phase = .running) (job : x.job = .lint c)
      (after : y.phase = .gathering g)
  | ends {e : Ending} (before : x.phase = .running) (history : s'.history = s.history)
      (may : ∀ d, x.job = .dispatch d → ∃ p, s.providerOf d.record = some p ∧ s.MayEnd d p)
      (after : y.phase = .ended e)

theorem Runs.phase {t : TaskId} {job : Job} {x : Task} (h : s.Runs t job)
    (hx : s.loop.tasks[t]? = some x) : x.phase = .running ∧ x.job = job := by
  obtain ⟨z, hz, hp, hj⟩ := h
  rw [hz, Option.some.injEq] at hx
  exact hx ▸ ⟨hp, hj⟩

/-- A step ends no task's being there, and changes no task's job. -/
theorem Step.task (h : s.Step s') {u : TaskId} {x : Task} (hx : s.loop.tasks[u]? = some x) :
    ∃ y, s'.loop.tasks[u]? = some y ∧ y.job = x.job ∧
      (x.cancelling = true → y.cancelling = true) ∧ s.Turn s' u x y := by
  have kept (hk : s.loop.Keeps s'.loop) : ∃ y, s'.loop.tasks[u]? = some y ∧ y.job = x.job ∧
      (x.cancelling = true → y.cancelling = true) ∧ s.Turn s' u x y := by
    obtain ⟨y, hy, hxy⟩ := hk.forth u x hx
    exact ⟨y, hy, hxy.job, hxy.cancelling, .keeps hxy⟩
  have turned {t : TaskId} {p : Phase} (hk : (s.loop.setPhase t p).Keeps s'.loop)
      (ht : t = u → ∀ y, Task.Keeps { x with phase := p } y → s.Turn s' u x y) :
      ∃ y, s'.loop.tasks[u]? = some y ∧ y.job = x.job ∧
        (x.cancelling = true → y.cancelling = true) ∧ s.Turn s' u x y := by
    obtain ⟨y, hy, hne, he⟩ := hk.forth_turned hx
    by_cases htu : t = u
    · exact ⟨y, hy, (he htu).job, (he htu).cancelling, ht htu y (he htu)⟩
    · exact ⟨y, hy, (hne htu).job, (hne htu).cancelling, .keeps (hne htu)⟩
  cases h with
  | change h => exact kept h.loop
  | hear parent member => exact kept (s.loop.keeps_memberEnded parent member)
  | @wake t idle hn =>
    refine turned (s.loop.keeps_wake t) ?_
    rintro rfl y hy
    exact .wakes idle (fun e he => hn ⟨x, e, hx, he⟩) (hy.phase_eq nofun) rfl
  | @pauses t d next runs stage =>
    refine turned (s.loop.keeps_pause t next) ?_
    rintro rfl y hy
    obtain ⟨hp, hj⟩ := runs.phase hx
    exact .waits hp hj stage rfl (.inl ⟨next, hy.phase_eq nofun⟩)
  | @awaits t d r next runs stage =>
    refine turned (s.loop.keeps_await t r next) ?_
    rintro rfl y hy
    obtain ⟨hp, hj⟩ := runs.phase hx
    exact .waits hp hj stage rfl (.inr ⟨r, next, hy.phase_eq nofun⟩)
  | @ends t job e runs may =>
    refine turned (s.loop.keeps_finish t e) ?_
    rintro rfl y hy
    obtain ⟨hp, hj⟩ := runs.phase hx
    exact .ends hp rfl (fun d hd => may d (hj.symm.trans hd)) (hy.phase_eq nofun)
  | @gathers t c ds runs =>
    obtain ⟨g, hk⟩ := s.loop.keeps_gather t ds
    obtain ⟨y, hy, hne, he⟩ := hk.forth_turned (s.loop.forth_spawnAll ds hx)
    by_cases htu : t = u
    · subst htu
      obtain ⟨hp, hj⟩ := runs.phase hx
      have hy' := he rfl
      obtain ⟨g', hg⟩ : ∃ g', y.phase = .gathering g' := by
        rcases hy'.phase with h | ⟨_, g', _, h⟩
        · exact ⟨g, h⟩
        · exact ⟨g', h⟩
      exact ⟨y, hy, hy'.job, hy'.cancelling, .gathers hp hj hg⟩
    · exact ⟨y, hy, (hne htu).job, (hne htu).cancelling, .keeps (hne htu)⟩
  | _ => exact kept (.of_tasks_eq rfl)

/-- The tasks that are new after a step: lints, and the dispatches of the round that is gathered. -/
theorem Step.new_tasks (h : s.Step s') :
    ∃ ds : List Dispatch, (ds.map Dispatch.key).Nodup ∧
      (∀ d ∈ ds, ∃ c, s.Runs d.round (.lint c) ∧ s.Barren d.round ∧ .dispatched d ∈ s.history ∧
        s.Stands d.key .begun ∧ s'.history = s.history) ∧
      ∀ (u : TaskId) (y : Task), s.loop.tasks[u]? = none → s'.loop.tasks[u]? = some y →
        y.phase = .fresh ∧ ((∃ c, y.job = .lint c) ∨
          ∃ i d, ds[i]? = some d ∧ u = s.loop.tasks.size + i ∧ y.job = .dispatch d) := by
  have kept (hk : s.loop.Keeps s'.loop) (u : TaskId) (y : Task) (hn : s.loop.tasks[u]? = none)
      (hy : s'.loop.tasks[u]? = some y) : y.phase = .fresh ∧ ((∃ c, y.job = .lint c) ∨
        ∃ i d, ([] : List Dispatch)[i]? = some d ∧ u = s.loop.tasks.size + i ∧
          y.job = .dispatch d) :=
    (hk.fresh u y hn hy).imp_right .inl
  have turned {t : TaskId} {p : Phase} (hk : (s.loop.setPhase t p).Keeps s'.loop) (u : TaskId)
      (y : Task) (hn : s.loop.tasks[u]? = none) (hy : s'.loop.tasks[u]? = some y) :
      y.phase = .fresh ∧ ((∃ c, y.job = .lint c) ∨
        ∃ i d, ([] : List Dispatch)[i]? = some d ∧ u = s.loop.tasks.size + i ∧
          y.job = .dispatch d) := by
    rcases hk.back_turned hy with ⟨x, hx⟩ | hf
    · simp [hn] at hx
    · exact hf.imp_right .inl
  cases h with
  | change h => exact ⟨[], by simp, by simp, kept h.loop⟩
  | hear parent member =>
    exact ⟨[], by simp, by simp, kept (s.loop.keeps_memberEnded parent member)⟩
  | @wake t => exact ⟨[], by simp, by simp, turned (s.loop.keeps_wake t)⟩
  | @pauses t _ next => exact ⟨[], by simp, by simp, turned (s.loop.keeps_pause t next)⟩
  | @awaits t _ r next => exact ⟨[], by simp, by simp, turned (s.loop.keeps_await t r next)⟩
  | @ends t _ e => exact ⟨[], by simp, by simp, turned (s.loop.keeps_finish t e)⟩
  | @gathers t c ds runs barren distinct hds =>
    refine ⟨ds, distinct, ?_, ?_⟩
    · intro d hd
      obtain ⟨rfl, known, stage⟩ := hds d hd
      exact ⟨c, runs, barren, known, stage, rfl⟩
    · intro u y hn hy
      obtain ⟨g, hk⟩ := s.loop.keeps_gather t ds
      rcases hk.back hy with ⟨z, hz, hzy⟩ | hf
      · obtain ⟨w, hw, _⟩ := runs
        have htu : t ≠ u := by
          rintro rfl
          simp [hn] at hw
        rw [Loop.setPhase, Loop.getElem?_changeTask, if_neg htu] at hz
        rcases s.loop.back_spawnAll hz with hz | ⟨i, d, hi, hu, rfl⟩
        · simp [hn] at hz
        · exact ⟨hzy.phase_eq (by simp), .inr ⟨i, d, hi, hu, hzy.job⟩⟩
      · exact hf.imp_right .inl
  | _ => exact ⟨[], by simp, by simp, kept (.of_tasks_eq rfl)⟩

/-- A task that makes a dispatch was there before the step, or it was made for a dispatch that had
begun. -/
theorem Step.dispatch_task (h : s.Step s') {u : TaskId} {y : Task} {d : Dispatch}
    (hy : s'.loop.tasks[u]? = some y) (hd : y.job = .dispatch d) :
    (∃ x, s.loop.tasks[u]? = some x ∧ x.job = .dispatch d ∧ s.Turn s' u x y) ∨
      ∃ c, y.phase = .fresh ∧ s.Runs d.round (.lint c) ∧ s.Barren d.round ∧
        .dispatched d ∈ s.history ∧ s.Stands d.key .begun ∧ s'.history = s.history := by
  cases hx : s.loop.tasks[u]? with
  | none =>
    obtain ⟨ds, _, hds, new⟩ := h.new_tasks
    obtain ⟨hf, ⟨c, hc⟩ | ⟨i, d', hi, _, hj⟩⟩ := new u y hx hy
    · simp [hd] at hc
    · rw [hd, Job.dispatch.injEq] at hj
      subst hj
      obtain ⟨c, rest⟩ := hds d (List.mem_of_getElem? hi)
      exact .inr ⟨c, hf, rest⟩
  | some x =>
    obtain ⟨z, hz, hj, _, ht⟩ := h.task hx
    rw [hy, Option.some.injEq] at hz
    subst hz
    exact .inl ⟨x, rfl, hj.symm.trans hd, ht⟩

/-- The task that runs after a step ran before it, or it has just been woken. -/
theorem Step.runs_back (h : s.Step s') {t : TaskId} {job : Job} (hr : s'.Runs t job) :
    s.Runs t job ∨ s.Idle ∧ s' = s.onLoop fun l => l.wake t := by
  obtain ⟨y, hy, hp, hj⟩ := hr
  cases hx : s.loop.tasks[t]? with
  | none =>
    obtain ⟨_, _, _, new⟩ := h.new_tasks
    have := (new t y hx hy).1
    simp [hp] at this
  | some x =>
    obtain ⟨z, hz, hzj, _, ht⟩ := h.task hx
    rw [hy, Option.some.injEq] at hz
    subst hz
    cases ht with
    | keeps hk => exact .inl ⟨x, hx, (hk.phase_eq' (by simp [hp])).symm.trans hp, hzj.symm.trans hj⟩
    | wakes idle _ _ step => exact .inr ⟨idle, step⟩
    | waits _ _ _ _ after => rcases after with ⟨_, h⟩ | ⟨_, _, h⟩ <;> simp [hp] at h
    | gathers _ _ after => simp [hp] at after
    | ends _ _ _ after => simp [hp] at after

end Session
end LintBroker

import LintBroker.Proofs.DispatchWalk

/-!
# Every move is a path

Between moves no task runs. A tick wakes one task, lets it take its way, and leaves it where it
gives way, waits or has ended; an action makes changes. So all that a run does is made of the small
steps, and what these keep holds of every state that a run comes to.
-/
namespace LintBroker

/-- Nothing is there for the task to go on with. -/
def Task.Idles (x : Task) (l : Loop) : Prop :=
  match x.phase, x.job with
  | .fresh, _ => False
  | .paused _, .dispatch _ => False
  | .awaiting r _, .dispatch _ => l.requests[r]?.bind Request.settlement = none
  | .gathering g, _ => g.outcome = none
  | _, _ => True

namespace Session
open Act
variable {s s' : Session} {t : TaskId}

/-- After a task was moved to another phase, none runs. -/
theorem Coherent.idle_of_turned (c : s.Coherent) {job : Job} (runs : s.Runs t job) {l : Loop}
    {p : Phase} (hl : ∀ (u : TaskId) (z : Task), l.tasks[u]? = some z → z.phase = .running →
      s.loop.tasks[u]? = some z) (hk : (l.setPhase t p).Keeps s'.loop) (hp : p ≠ .running) :
    s'.Idle := by
  intro u y hy hr
  rcases hk.back hy with ⟨z, hz, hzy⟩ | ⟨hf, _⟩
  · have hzr : z.phase = .running := (hzy.phase_eq' (by simp [hr])).symm.trans hr
    rw [Loop.setPhase, Loop.getElem?_changeTask] at hz
    split at hz
    · obtain ⟨w, _, rfl⟩ := Option.map_eq_some_iff.mp hz
      exact hp hzr
    · exact absurd (c.alone runs ⟨z, hl u z hz hzr, hzr, rfl⟩) ‹_›
  · simp [hr] at hf

/-- A way comes to a state in which no task runs. -/
structure Comes (s s' : Session) : Prop where
  path : Path s s'
  idle : s'.Idle

theorem Comes.after {s₀ : Session} (h : s.Comes s') (path : Path s₀ s) : s₀.Comes s' :=
  ⟨path.trans h.path, h.idle⟩

/-- A task takes its turn: all others go on as they were. -/
structure TakesTurn (s : Session) (t : TaskId) (s' : Session) : Prop extends s.Comes s' where
  others : s.loop.KeepsOthers t s'.loop

theorem TakesTurn.after {s₀ : Session} (h : s.TakesTurn t s') (path : Path s₀ s)
    (others : s₀.loop.KeepsOthers t s.loop) : s₀.TakesTurn t s' :=
  ⟨h.toComes.after path, others.trans h.others⟩

theorem comes_finish (c : s.Coherent) {job : Job} (runs : s.Runs t job)
    (may : ∀ d, job = .dispatch d → ∃ p, s.providerOf d.record = some p ∧ s.MayEnd d p)
    (r : Except Failure Bool) : s.TakesTurn t ((finish t r).run s).2 :=
  ⟨⟨.single (.ends _ runs may),
    c.idle_of_turned runs (fun _ _ h _ => h) (s.loop.keeps_finish t _) nofun⟩,
    .of_turned (s.loop.keeps_finish t _)⟩

variable {d : Dispatch} {p : ProviderId}

theorem comes_follow (c : s.Coherent) (runs : s.Runs t (.dispatch d))
    (stage : s.Stands d.key .entered) (hp : s.providerOf d.record = some p) (g : Progress) :
    s.TakesTurn t ((follow d p t g).run s).2 := by
  cases g with
  | answered r =>
    let cancelling := ((s.loop.tasks[t]?).map Task.cancelling).getD false
    have hc : cancelling = true → s.IsCancelling t := by
      intro h
      obtain ⟨x, hx, _⟩ := runs
      exact ⟨x, hx, by simpa [cancelling, hx] using h⟩
    obtain ⟨path, loop, may⟩ := Dispatch.concluded (r := r) runs stage hp hc
    have last := comes_finish (c.path path) (runs.keeps loop)
      (fun d' hd => ⟨p, (Job.dispatch.inj hd) ▸ path.providerOf hp, (Job.dispatch.inj hd) ▸ may⟩)
      (((Dispatch.conclude d p cancelling r).exec s).1.map fun _ => true)
    exact last.after path (.of_keeps loop)
  | paused next =>
    exact ⟨⟨.single (.pauses next runs stage),
      c.idle_of_turned runs (fun _ _ h _ => h) (s.loop.keeps_pause t next) nofun⟩,
      .of_turned (s.loop.keeps_pause t next)⟩
  | awaiting r next =>
    exact ⟨⟨.single (.awaits r next runs stage),
      c.idle_of_turned runs (fun _ _ h _ => h) (s.loop.keeps_await t r next) nofun⟩,
      .of_turned (s.loop.keeps_await t r next)⟩

theorem exec_provider (hp : s.providerOf d.record = some p) :
    (Dispatch.provider d).exec s = (.ok p, s) := by
  obtain ⟨x, hx, rfl⟩ := Option.map_eq_some_iff.mp hp
  simp [Dispatch.provider, Broker.record, exec_bind, hx, Except.map]

/-- The provider of a dispatch that was opened is known. -/
theorem Coherent.exec_provider (c : s.Coherent) (hd : .dispatched d ∈ s.history) :
    ∃ p, s.providerOf d.record = some p ∧ (Dispatch.provider d).exec s = (.ok p, s) := by
  obtain ⟨x, hx, _⟩ := c.generation hd
  exact ⟨x.provider, providerOf_eq hx, Session.exec_provider (providerOf_eq hx)⟩

theorem comes_resumeDispatch (c : s.Coherent) (runs : s.Runs t (.dispatch d))
    (stage : s.Stands d.key .entered) (reply : Reply) :
    s.TakesTurn t ((resumeDispatch d t reply).run s).2 := by
  obtain ⟨p, hp, he⟩ := c.exec_provider (c.dispatched_of_runs runs)
  have way := Dispatch.meanwhile_advance (p := p) reply runs stage
  have last := comes_follow (c.path way.path) (runs.keeps way.loop) (way.stands stage nofun)
    (way.path.providerOf hp) ((Dispatch.advance p t reply).run s).1
  rw [resumeDispatch, run_bind_exec, he]
  exact last.after way.path (.of_keeps way.loop)

theorem run_startDispatch (he : (Dispatch.provider d).exec s = (.ok p, s)) :
    (startDispatch d t).run s = (match ((Dispatch.announce d p).exec s).1 with
      | .error f => finish t (.error f)
      | .ok () => do follow d p t (← Dispatch.start d p t)).run
        ((Dispatch.announce d p).exec s).2 := by
  rw [startDispatch, run_bind_exec, he]
  exact run_bind_exec _ _ s

/-- The first step of a dispatch whose provider has no name ends it. -/
theorem run_startDispatch_unnamed (he : (Dispatch.provider d).exec s = (.ok p, s)) {f : Failure}
    (hn : s.nameOf p = .error f) : (startDispatch d t).run s = (finish t (.error f)).run s := by
  rw [run_startDispatch he, Dispatch.exec_announce_error hn]

/-- The first step of a dispatch whose provider has a name goes by the moment at which it enters. -/
theorem comes_named (c : s.Coherent) (runs : s.Runs t (.dispatch d))
    (stage : s.Stands d.key .begun) (hp : s.providerOf d.record = some p)
    (he : (Dispatch.provider d).exec s = (.ok p, s)) {name : String} (hn : s.nameOf p = .ok name) :
    ∃ s₁, Path s s₁ ∧ s.loop.Keeps s₁.loop ∧ s₁.Stands d.key .entered ∧
      s₁.TakesTurn t ((startDispatch d t).run s).2 := by
  obtain ⟨s₁, ha, path, loop, entered⟩ := Dispatch.exec_announce_ok runs stage hn
  refine ⟨s₁, path, loop, entered, ?_⟩
  rw [run_startDispatch he, ha]
  have way := Dispatch.meanwhile_start (runs.keeps loop) entered (path.providerOf hp)
  have last := comes_follow ((c.path path).path way.path) ((runs.keeps loop).keeps way.loop)
    (way.stands entered nofun) (way.path.providerOf (path.providerOf hp))
    ((Dispatch.start d p t).run s₁).1
  exact last.after way.path (.of_keeps way.loop)

theorem comes_startDispatch (c : s.Coherent) (runs : s.Runs t (.dispatch d))
    (stage : s.Stands d.key .begun) : s.TakesTurn t ((startDispatch d t).run s).2 := by
  obtain ⟨p, hp, he⟩ := c.exec_provider (c.dispatched_of_runs runs)
  cases hn : s.nameOf p with
  | error f =>
    rw [run_startDispatch_unnamed he hn]
    refine comes_finish c runs (fun d' hd => ?_) _
    obtain rfl := Job.dispatch.inj hd
    exact ⟨p, hp, .inl stage⟩
  | ok name =>
    obtain ⟨s₁, path, loop, _, turn⟩ := comes_named c runs stage hp he hn
    exact turn.after path (.of_keeps loop)

theorem run_startLint (context : EditContext) (t : TaskId) (s : Session) :
    (startLint context t).run s = (match ((Round.start t context).exec s).1 with
      | .error f => finish t (.error f)
      | .ok none => finish t (.ok false)
      | .ok (some []) => finish t (.ok true)
      | .ok (some ds) => modify fun s : Session => s.onLoop fun l => l.gather t ds).run
        ((Round.start t context).exec s).2 :=
  run_bind_exec (Round.start t context) _ s

/-- When it has considered all registrations a lint ends, or it gathers its round. -/
theorem comes_started (c : s.Coherent) {context : EditContext} (runs : s.Runs t (.lint context))
    (barren : s.Barren t) :
    ((Round.start t context).exec s).2.TakesTurn t ((startLint context t).run s).2 := by
  have started := Round.started c runs
  rw [run_startLint]
  rcases he : (Round.start t context).exec s with ⟨r, s₁⟩
  rw [he] at started
  obtain ⟨way, chosen⟩ := started
  have c₁ := c.path way.path
  have runs₁ := runs.keeps way.loop
  have ends (r : Except Failure Bool) : s₁.TakesTurn t ((finish t r).run s₁).2 :=
    comes_finish c₁ runs₁ (by simp) r
  cases r with
  | error f => exact ends _
  | ok round =>
    cases round with
    | none => exact ends _
    | some ds =>
      cases ds with
      | nil => exact ends _
      | cons d ds =>
        obtain ⟨distinct, hds⟩ := chosen _ rfl
        refine ⟨⟨.single (.gathers runs₁ (barren.keeps way.loop) distinct hds), ?_⟩,
          s₁.loop.keepsOthers_gather t (d :: ds)⟩
        obtain ⟨g, hk⟩ := s₁.loop.keeps_gather t (d :: ds)
        refine c₁.idle_of_turned runs₁ (fun u z hz hr => ?_) hk (by simp)
        rcases s₁.loop.back_spawnAll hz with hz | ⟨_, _, _, _, rfl⟩
        · exact hz
        · cases hr

theorem comes_startLint (c : s.Coherent) {context : EditContext} (runs : s.Runs t (.lint context))
    (barren : s.Barren t) : s.TakesTurn t ((startLint context t).run s).2 := by
  have way := (Round.started c runs).meanwhile
  exact (comes_started c runs barren).after way.path (.of_keeps way.loop)

/-- A task that was woken and has nothing to go on with is put back as it was. -/
theorem onLoop_wake_back {x : Task} (hx : s.loop.tasks[t]? = some x) :
    (s.onLoop fun l => l.wake t).onLoop (fun l => l.changeTask t fun _ => x) = s := by
  have : (s.loop.wake t).changeTask t (fun _ => x) = s.loop := by
    rw [Loop.wake, Loop.changeTask_changeTask, Loop.changeTask]
    congr 1
    refine Array.ext_getElem? fun i => ?_
    rw [Array.getElem?_modify]
    split
    · subst i
      simp [hx]
    · rfl
  simp only [onLoop, this]

/-! ### How a task goes on -/

section resuming
variable {x : Task} {c : EditContext} {d : Dispatch} {g : Gathering} {q : RequestId}

theorem resume_cancelled (fresh : x.phase = .fresh) (asked : x.cancelPending = true) :
    resume t x = finish t (.error .cancellation) := by
  unfold resume
  cases job : x.job <;> simp only [fresh, asked, if_true]

theorem resume_lint (fresh : x.phase = .fresh) (job : x.job = .lint c)
    (unasked : x.cancelPending = false) : resume t x = startLint c t := by
  simp only [resume, fresh, job, unasked, Bool.false_eq_true, if_false]

theorem resume_dispatch (fresh : x.phase = .fresh) (job : x.job = .dispatch d)
    (unasked : x.cancelPending = false) : resume t x = startDispatch d t := by
  simp only [resume, fresh, job, unasked, Bool.false_eq_true, if_false]

theorem resume_paused {next : Except Failure Unit → Reply} (phase : x.phase = .paused next)
    (job : x.job = .dispatch d) :
    resume t x = resumeDispatch d t (next (arrival x.cancelPending (.ok ()))) := by
  simp only [resume, phase, job]

theorem run_resume_settled {next : Except Failure Value → Reply} {e : Settlement}
    (phase : x.phase = .awaiting q next) (job : x.job = .dispatch d)
    (he : (s.loop.requests[q]?).bind Request.settlement = some e) : (resume t x).run s =
      (resumeDispatch d t (next (arrival x.cancelPending (settled e)))).run s := by
  simp only [resume, phase, job]
  rw [run_get_bind, he]

theorem resume_decided {r : Except Failure Unit} (phase : x.phase = .gathering g)
    (outcome : g.outcome = some r) :
    resume t x = finish t ((arrival x.cancelPending r).map fun _ => true) := by
  simp only [resume, phase, outcome]

theorem run_resume_idle (idles : x.Idles s.loop) : (resume t x).run s = (putBack t x).run s := by
  obtain ⟨name, job, phase, cancelPending, cancelling⟩ := x
  cases phase with
  | fresh => exact idles.elim
  | gathering g =>
    have undecided : g.outcome = none := idles
    simp only [resume, undecided]
  | paused next =>
    cases job with
    | lint c => rfl
    | dispatch d => exact idles.elim
  | awaiting q next =>
    cases job with
    | lint c => rfl
    | dispatch d =>
      have pending : (s.loop.requests[q]?).bind Request.settlement = none := idles
      simp only [resume]
      rw [run_get_bind, pending]
  | running => rfl
  | ended e => rfl

/-- How a woken task goes on, by where it stood. It ends if it was cancelled before its first step,
and else it starts; it goes on from where it gave way, or with what became of its request; it ends
with its round; or it has nothing to go on with and is put back as it was. -/
inductive Resumption (s : Session) (t : TaskId) (x : Task) : Session → Prop
  | cancelled (fresh : x.phase = .fresh) (asked : x.cancelPending = true) :
      Resumption s t x ((finish t (.error .cancellation)).run s).2
  | lint {c : EditContext} (fresh : x.phase = .fresh) (job : x.job = .lint c)
      (unasked : x.cancelPending = false) : Resumption s t x ((startLint c t).run s).2
  | dispatch {d : Dispatch} (fresh : x.phase = .fresh) (job : x.job = .dispatch d)
      (unasked : x.cancelPending = false) : Resumption s t x ((startDispatch d t).run s).2
  | paused {next : Except Failure Unit → Reply} {d : Dispatch} (phase : x.phase = .paused next)
      (job : x.job = .dispatch d) : Resumption s t x
        ((resumeDispatch d t (next (arrival x.cancelPending (.ok ())))).run s).2
  | settled {q : RequestId} {next : Except Failure Value → Reply} {d : Dispatch} {e : Settlement}
      (phase : x.phase = .awaiting q next) (job : x.job = .dispatch d)
      (settlement : (s.loop.requests[q]?).bind Request.settlement = some e) : Resumption s t x
        ((resumeDispatch d t (next (arrival x.cancelPending (settled e)))).run s).2
  | decided {g : Gathering} {r : Except Failure Unit} (phase : x.phase = .gathering g)
      (outcome : g.outcome = some r) : Resumption s t x
        ((finish t ((arrival x.cancelPending r).map fun _ => true)).run s).2
  | idle (idles : x.Idles s.loop) : Resumption s t x ((putBack t x).run s).2

theorem resumption (s : Session) (t : TaskId) (x : Task) :
    s.Resumption t x ((resume t x).run s).2 := by
  have back (idles : x.Idles s.loop) : s.Resumption t x ((resume t x).run s).2 :=
    run_resume_idle (t := t) idles ▸ .idle idles
  cases phase : x.phase with
  | fresh =>
    cases asked : x.cancelPending with
    | true => exact resume_cancelled phase asked ▸ .cancelled phase asked
    | false =>
      cases job : x.job with
      | lint c => exact resume_lint phase job asked ▸ .lint phase job asked
      | dispatch d => exact resume_dispatch phase job asked ▸ .dispatch phase job asked
  | paused next =>
    cases job : x.job with
    | lint c => exact back (by simp only [Task.Idles, phase, job])
    | dispatch d => exact resume_paused phase job ▸ .paused phase job
  | awaiting q next =>
    cases job : x.job with
    | lint c => exact back (by simp only [Task.Idles, phase, job])
    | dispatch d =>
      cases settlement : (s.loop.requests[q]?).bind Request.settlement with
      | none => exact back (by simpa only [Task.Idles, phase, job] using settlement)
      | some e =>
        exact run_resume_settled phase job settlement ▸ .settled phase job settlement
  | gathering g =>
    cases outcome : g.outcome with
    | none => exact back (by simpa only [Task.Idles, phase] using outcome)
    | some r => exact resume_decided phase outcome ▸ .decided phase outcome
  | running => exact back (by simp only [Task.Idles, phase])
  | ended e => exact back (by simp only [Task.Idles, phase])

end resuming

theorem run_step_none (hx : s.loop.tasks[t]? = none) : (step t).run s = ((), s) := by
  rw [step, run_get_bind, hx]
  rfl

theorem run_step_some {x : Task} (hx : s.loop.tasks[t]? = some x) :
    (step t).run s = (resume t x).run (s.onLoop fun l => l.wake t) := by
  rw [step, run_get_bind, hx]
  rfl

theorem runs_wake {x : Task} (hx : s.loop.tasks[t]? = some x) :
    (s.onLoop fun l => l.wake t).Runs t x.job :=
  ⟨{ x with phase := .running, cancelPending := false },
    by simp [Loop.wake, Loop.getElem?_changeTask, hx], rfl, rfl⟩

theorem not_ended {x : Task} (hx : s.loop.tasks[t]? = some x) (hn : ∀ e, x.phase ≠ .ended e) :
    ¬ s.HasEnded t := by
  rintro ⟨y, e, hy, he⟩
  rw [hx, Option.some.injEq] at hy
  exact hn e (hy ▸ he)

/-- The session just after a task that stood first in the queue has been woken. -/
def woken (s : Session) (t : TaskId) : Session :=
  (s.onLoop fun l => { l with ready := l.ready.tail }).onLoop fun l => l.wake t

theorem tick_step {rest : List Ready} {x : Task} (hr : s.loop.ready = .step t :: rest)
    (hx : s.loop.tasks[t]? = some x) : s.tick = ((resume t x).run (s.woken t)).2 := by
  unfold tick woken
  rw [hr]
  change ((step t).run (s.onLoop fun l => { l with ready := rest })).2 = _
  rw [run_step_some (s := s.onLoop fun l => { l with ready := rest }) hx]
  simp only [onLoop, hr, List.tail_cons]

/-- A task that has nothing to go on with only leaves the queue. -/
theorem putBack_woken {rest : List Ready} {x : Task} (hr : s.loop.ready = .step t :: rest)
    (hx : s.loop.tasks[t]? = some x) :
    ((putBack t x).run (s.woken t)).2 = s.onLoop fun l => { l with ready := rest } := by
  have popped : s.onLoop (fun l => { l with ready := l.ready.tail }) =
      s.onLoop fun l => { l with ready := rest } := by
    simp only [onLoop, hr, List.tail_cons]
  rw [← popped]
  exact onLoop_wake_back (s := s.onLoop fun l => { l with ready := l.ready.tail }) hx

theorem path_woken {rest : List Ready} {x : Task} (idle : s.Idle)
    (hr : s.loop.ready = .step t :: rest) (hx : s.loop.tasks[t]? = some x)
    (hn : ∀ e, x.phase ≠ .ended e) : Path s (s.woken t) := by
  have popped : s.onLoop (fun l => { l with ready := l.ready.tail }) =
      s.onLoop fun l => { l with ready := rest } := by
    simp only [onLoop, hr, List.tail_cons]
  refine .tail (.single (.pop hr)) ?_
  rw [woken, popped]
  exact .wake idle (not_ended hx hn)

/-- A lint that has not started has no tasks in its round. -/
theorem Coherent.barren_of_fresh (c : s.Coherent) {x : Task} (hx : s.loop.tasks[t]? = some x)
    (hf : x.phase = .fresh) : s.Barren t := by
  rintro u y d hy hd rfl
  obtain ⟨z, _, hz, _, hp⟩ := c.round hy hd
  rw [hx, Option.some.injEq] at hz
  exact hp (hz ▸ hf)

theorem Barren.wake {u : TaskId} (h : s.Barren u) : (s.onLoop fun l => l.wake t).Barren u := by
  intro v y d hy hd
  rw [loop_onLoop, Loop.wake, Loop.getElem?_changeTask] at hy
  split at hy
  · obtain ⟨x, hx, rfl⟩ := Option.map_eq_some_iff.mp hy
    exact h v x d hx hd
  · exact h v y d hy hd

theorem comes_step (c : s.Coherent) (idle : s.Idle) (t : TaskId) :
    s.TakesTurn t ((step t).run s).2 := by
  have same : s.TakesTurn t s := ⟨⟨.refl, idle⟩, .of_keeps (.refl _)⟩
  cases hx : s.loop.tasks[t]? with
  | none =>
    rw [run_step_none hx]
    exact same
  | some x =>
    let woken := s.onLoop fun l => l.wake t
    have wake (hn : ∀ e, x.phase ≠ .ended e) : Step s woken :=
      .wake idle (not_ended hx hn)
    have others : s.loop.KeepsOthers t woken.loop := .of_turned (s.loop.keeps_wake t)
    have runs : woken.Runs t x.job := runs_wake hx
    have turn := resumption woken t x
    rw [run_step_some hx]
    generalize ((resume t x).run woken).2 = s' at turn
    cases turn with
    | cancelled fresh =>
      have first := wake (by simp [fresh])
      have c₁ := c.step first
      refine (comes_finish c₁ runs (fun d job => ?_) _).after (.single first) others
      obtain ⟨p, hp, _⟩ := c₁.exec_provider (c₁.dispatched_of_runs (job ▸ runs))
      exact ⟨p, hp, .inl (c.begun_of_fresh hx job fresh)⟩
    | lint fresh job =>
      have first := wake (by simp [fresh])
      exact (comes_startLint (c.step first) (job ▸ runs) (c.barren_of_fresh hx fresh).wake).after
        (.single first) others
    | dispatch fresh job =>
      have first := wake (by simp [fresh])
      have stage := c.begun_of_fresh hx job fresh
      exact (comes_startDispatch (c.step first) (job ▸ runs) stage).after (.single first) others
    | paused phase job =>
      have first := wake (by simp [phase])
      have stage := c.entered_of_paused hx job phase
      exact (comes_resumeDispatch (c.step first) (job ▸ runs) stage _).after (.single first) others
    | settled phase job =>
      have first := wake (by simp [phase])
      have stage := c.entered_of_awaiting hx job phase
      exact (comes_resumeDispatch (c.step first) (job ▸ runs) stage _).after (.single first) others
    | @decided g _ phase =>
      have first := wake (by simp [phase])
      refine (comes_finish (c.step first) runs (fun d job => ?_) _).after (.single first) others
      exact absurd phase (c.not_gathering hx job g)
    | idle =>
      show s.TakesTurn t (woken.onLoop fun l => l.changeTask t fun _ => x)
      rw [onLoop_wake_back hx]
      exact same

theorem idle_of_keeps (idle : s.Idle) (hk : s.loop.Keeps s'.loop) : s'.Idle := by
  intro u y hy hr
  rcases hk.back hy with ⟨x, hx, hxy⟩ | ⟨hf, _⟩
  · exact idle u x hx ((hxy.phase_eq' (by simp [hr])).symm.trans hr)
  · simp [hr] at hf

theorem comes_tick (c : s.Coherent) (idle : s.Idle) : s.Comes s.tick := by
  unfold tick
  split
  · exact ⟨.refl, idle⟩
  · rename_i r rest hr
    have pop : Step s (s.onLoop fun l => { l with ready := rest }) := .pop hr
    have idle₁ : (s.onLoop fun l => { l with ready := rest }).Idle := idle
    cases r with
    | step t => exact (comes_step (c.step pop) idle₁ t).toComes.after (.single pop)
    | memberEnded parent member =>
      exact ⟨.tail (.single pop) (.hear parent member),
        idle_of_keeps idle₁ (Loop.keeps_memberEnded _ parent member)⟩

theorem comes_move (c : s.Coherent) (idle : s.Idle) (m : Move) : s.Comes (s.move m) := by
  cases m with
  | act a =>
    have changes : Changes s (s.perform a).2 := changes_perform a s
    exact ⟨changes.path, idle_of_keeps idle changes.loop⟩
  | tick => exact comes_tick c idle

/-- A run is a path, and when it comes to its end no task runs. -/
theorem comes_run (c : s.Coherent) (idle : s.Idle) (moves : List Move) :
    s.Comes (s.run moves) := by
  induction moves generalizing s with
  | nil => exact ⟨.refl, idle⟩
  | cons m moves ih =>
    have first := comes_move c idle m
    exact (ih (c.path first.path) first.idle).after first.path

theorem idle_opening (s : Session) : s.opening.Idle := by
  intro t x hx
  simp [opening] at hx

/-- All that a session does from its start is a path. -/
theorem comes_opening (s : Session) (moves : List Move) :
    s.opening.Comes (s.opening.run moves) :=
  comes_run s.coherent_opening s.idle_opening moves

theorem coherent_run (s : Session) (moves : List Move) : (s.opening.run moves).Coherent :=
  s.coherent_opening.path (s.comes_opening moves).path

end Session
end LintBroker

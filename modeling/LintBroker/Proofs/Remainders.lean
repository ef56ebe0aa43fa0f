import LintBroker.Proofs.Waiting

/-!
# What is left of replies

A task that has its turn with something to go on with comes nearer to its end. A lint gathers its
round or ends; and a dispatch ends, or it has less left of its provider's reply, which is finite
whatever comes of its steps.
-/
namespace LintBroker
open Session Act

namespace Reply

/-- The one reply is how the other goes on when something has come of its first step. -/
inductive Next : Reply → Reply → Prop
  | act (a : Action) (next : Except Failure Result → Reply) (r : Except Failure Result) :
      Next (next r) (.act a next)
  | pause (next : Except Failure Unit → Reply) (r : Except Failure Unit) : Next (next r) (.pause next)
  | request (next : Except Failure Value → Reply) (r : Except Failure Value) :
      Next (next r) (.request next)

/-- No reply goes on forever. -/
theorem wellFounded_next : WellFounded Next := by
  refine ⟨fun r => ?_⟩
  induction r with
  | value | fail => exact ⟨_, fun _ h => by cases h⟩
  | act a next ih | pause next ih | request next ih =>
    refine ⟨_, fun _ h => ?_⟩
    cases h
    exact ih _

/-- The one reply is what the other comes to later. -/
def Later : Reply → Reply → Prop := Relation.TransGen Next

end Reply

/-- What is left of its provider's reply where a dispatch gives way or waits. -/
def Progress.left? : Progress → Option Reply
  | .answered _ => none
  | .paused next => some (.pause next)
  | .awaiting _ next => some (.request next)

namespace Phase

/-- What is left of its provider's reply to a dispatch that stands at the phase. -/
def left? : Phase → Option Reply
  | .paused next => some (.pause next)
  | .awaiting _ next => some (.request next)
  | _ => none

/-- The one phase is nearer to the end than the other. -/
inductive Nearer : Phase → Phase → Prop
  | ends {p : Phase} (e : Ending) (unended : ∀ e, p ≠ .ended e) : Nearer (.ended e) p
  | gathers (g : Gathering) : Nearer (.gathering g) .fresh
  | asks {q : Phase} {r : Reply} (left : q.left? = some r) : Nearer q .fresh
  | goesOn {p q : Phase} {r r' : Reply} (before : p.left? = some r) (left : q.left? = some r')
      (later : r'.Later r) : Nearer q p

theorem acc_ended (e : Ending) : Acc Nearer (.ended e) := by
  refine ⟨_, fun q h => ?_⟩
  cases h with
  | ends e' unended => exact absurd rfl (unended e)
  | goesOn before => cases before

theorem Nearer.of_gathering {q : Phase} {g : Gathering} (h : q.Nearer (.gathering g)) :
    ∃ e, q = .ended e := by
  cases h with
  | ends e => exact ⟨e, rfl⟩
  | goesOn before => cases before

theorem acc_gathering (g : Gathering) : Acc Nearer (.gathering g) := by
  refine ⟨_, fun q h => ?_⟩
  obtain ⟨e, rfl⟩ := h.of_gathering
  exact acc_ended e

theorem acc_of_left {r : Reply} {p : Phase} (left : p.left? = some r) : Acc Nearer p := by
  induction r using Reply.wellFounded_next.transGen.induction generalizing p with
  | _ r ih =>
    refine ⟨_, fun q h => ?_⟩
    cases h with
    | ends e => exact acc_ended e
    | gathers | asks => cases left
    | goesOn before left' later =>
      obtain rfl := Option.some.inj (before.symm.trans left)
      exact ih _ later left'

/-- A task cannot come nearer to its end forever. -/
theorem wellFounded_nearer : WellFounded Nearer := by
  refine ⟨fun p => ?_⟩
  cases p with
  | paused | awaiting => exact acc_of_left rfl
  | gathering g => exact acc_gathering g
  | ended e => exact acc_ended e
  | fresh =>
    refine ⟨_, fun q h => ?_⟩
    cases h with
    | ends e => exact acc_ended e
    | gathers g => exact acc_gathering g
    | asks left => exact acc_of_left left
    | goesOn before => cases before
  | running =>
    refine ⟨_, fun q h => ?_⟩
    cases h with
    | ends e => exact acc_ended e
    | goesOn before => cases before

theorem Nearer.ne_fresh {p q : Phase} (h : q.Nearer p) : q ≠ .fresh := by
  rintro rfl
  cases h with
  | asks left | goesOn _ left => cases left

/-- What is nearer to the end than a task is nearer than the task was before. -/
theorem Nearer.of_keeps {q : Phase} {x y : Task} (h : q.Nearer y.phase) (keeps : x.Keeps y) :
    q.Nearer x.phase := by
  rcases keeps.phase with same | ⟨g, g', hx, hy⟩
  · exact same ▸ h
  · rw [hy] at h
    cases h with
    | ends e => exact .ends e (by simp [hx])
    | goesOn before => cases before

end Phase

theorem Task.Keeps.gathering {x y : Task} (keeps : x.Keeps y) {g : Gathering}
    (phase : x.phase = .gathering g) : ∃ g', y.phase = .gathering g' := by
  rcases keeps.phase with same | ⟨_, g', _, h⟩
  · exact ⟨g, same.trans phase⟩
  · exact ⟨g', h⟩

namespace Loop
variable {l : Loop} {t : TaskId} {y : Task}

theorem phase_finish {e : Ending} (hy : (l.finish t e).tasks[t]? = some y) : y.phase = .ended e := by
  have tasks : (l.finish t e).tasks = (l.changeTask t fun task =>
      { task with phase := .ended e, cancelPending := false }).tasks := by
    unfold finish
    dsimp only
    split <;> rfl
  rw [tasks, getElem?_changeTask, if_pos rfl] at hy
  obtain ⟨_, _, rfl⟩ := Option.map_eq_some_iff.mp hy
  rfl

theorem phase_pause {next : Except Failure Unit → Reply} (hy : (l.pause t next).tasks[t]? = some y) :
    y.phase = .paused next := by
  rw [pause, tasks_enqueue, setPhase, getElem?_changeTask, if_pos rfl] at hy
  obtain ⟨_, _, rfl⟩ := Option.map_eq_some_iff.mp hy
  rfl

theorem phase_await {r : RequestId} {next : Except Failure Value → Reply}
    (hy : (l.await t r next).tasks[t]? = some y) : y.phase = .awaiting r next := by
  unfold await at hy
  dsimp only at hy
  split at hy
  · rw [tasks_settle, passCancellation, getElem?_changeTask, if_pos rfl, setPhase, getElem?_changeTask,
      if_pos rfl, Option.map_map] at hy
    obtain ⟨_, _, rfl⟩ := Option.map_eq_some_iff.mp hy
    rfl
  · rw [setPhase, getElem?_changeTask, if_pos rfl] at hy
    obtain ⟨_, _, rfl⟩ := Option.map_eq_some_iff.mp hy
    rfl

end Loop

namespace Session
variable {s s₀ : Session} {t : TaskId} {x y : Task} {d : Dispatch} {p : ProviderId}

/-- A reply that comes to wait has come to what it was or to a later part of it. -/
theorem left_advance (reply : Reply) {r : Reply}
    (h : ((Dispatch.advance p t reply).run s).1.left? = some r) :
    Relation.ReflTransGen Reply.Next r reply := by
  induction reply generalizing s with
  | value | fail => cases h
  | act a next ih => exact .tail (ih _ h) (.act a next _)
  | pause next | request next =>
    obtain rfl := Option.some.inj h
    exact .refl

theorem ends_of_finish {r : Except Failure Bool}
    (hy : ((finish t r).run s).2.loop.tasks[t]? = some y) : ∃ e, y.phase = .ended e :=
  ⟨_, Loop.phase_finish hy⟩

theorem left_follow {g : Progress} (hy : ((follow d p t g).run s).2.loop.tasks[t]? = some y) :
    (∃ e, y.phase = .ended e) ∨ ∃ r, g.left? = some r ∧ y.phase.left? = some r := by
  cases g with
  | answered r => exact .inl (ends_of_finish hy)
  | paused next => exact .inr ⟨_, rfl, by rw [Loop.phase_pause hy]; rfl⟩
  | awaiting r next => exact .inr ⟨_, rfl, by rw [Loop.phase_await hy]; rfl⟩

theorem left_resumeDispatch {reply : Reply}
    (hy : ((resumeDispatch d t reply).run s).2.loop.tasks[t]? = some y) :
    (∃ e, y.phase = .ended e) ∨
      ∃ r, y.phase.left? = some r ∧ Relation.ReflTransGen Reply.Next r reply := by
  rw [resumeDispatch, run_bind_exec] at hy
  cases he : ((Dispatch.provider d).exec s).1 with
  | error f =>
    rw [he] at hy
    exact .inl (ends_of_finish hy)
  | ok p =>
    rw [he] at hy
    rcases left_follow hy with ended | ⟨r, left, hr⟩
    · exact .inl ended
    · exact .inr ⟨r, hr, left_advance reply left⟩

theorem left_startDispatch (hy : ((startDispatch d t).run s).2.loop.tasks[t]? = some y) :
    (∃ e, y.phase = .ended e) ∨ ∃ r, y.phase.left? = some r := by
  rw [startDispatch, run_bind_exec] at hy
  cases he : ((Dispatch.provider d).exec s).1 with
  | error f =>
    rw [he] at hy
    exact .inl (ends_of_finish hy)
  | ok p =>
    rw [he] at hy
    change (((Dispatch.announce d p).run >>= _ : StateM Session Unit).run _).2.loop.tasks[t]? = _ at hy
    rw [run_bind_exec] at hy
    cases ha : ((Dispatch.announce d p).exec ((Dispatch.provider d).exec s).2).1 with
    | error f =>
      rw [ha] at hy
      exact .inl (ends_of_finish hy)
    | ok _ =>
      rw [ha] at hy
      rcases left_follow hy with ended | ⟨r, _, hr⟩
      · exact .inl ended
      · exact .inr ⟨r, hr⟩

/-- A lint that has started, and that is not in its turn, waits for its round or has ended. -/
theorem Path.lint_started (h : s₀.opening.Path s) (idle : s.Idle) {c : EditContext}
    (hx : s.loop.tasks[t]? = some x) (hj : x.job = .lint c) (started : x.phase ≠ .fresh) :
    (∃ g, x.phase = .gathering g) ∨ ∃ e, x.phase = .ended e := by
  obtain ⟨unpaused, waitless⟩ := h.lint_phase hx hj
  cases hp : x.phase with
  | fresh => exact absurd hp started
  | running => exact absurd hp (idle t x hx)
  | paused next => exact absurd hp (unpaused next)
  | awaiting r next => exact absurd hp (waitless r next)
  | gathering g => exact .inl ⟨g, rfl⟩
  | ended e => exact .inr ⟨e, rfl⟩

/-- A task that has its turn comes nearer to its end, or it has nothing to go on with and stays
where it stood. -/
theorem nearer_turn (path : s₀.opening.Path s) (idle : s.Idle) {rest : List Ready}
    (hr : s.loop.ready = .step t :: rest) (hx : s.loop.tasks[t]? = some x) :
    (∃ y, s.tick.loop.tasks[t]? = some y ∧ y.phase.Nearer x.phase) ∨
      s.tick.loop.tasks[t]? = some x ∧ x.Idles s.loop := by
  have c := s₀.coherent_opening.path path
  have comes := comes_tick c idle
  obtain ⟨y, hy, same, _⟩ := comes.path.task hx
  have runs : (s.woken t).Runs t x.job := runs_wake hx
  have ended (unended : ∀ e, x.phase ≠ .ended e) (h : ∃ e, y.phase = .ended e) :
      y.phase.Nearer x.phase := by
    obtain ⟨e, he⟩ := h
    exact he ▸ .ends e unended
  suffices y.phase.Nearer x.phase ∨ y = x ∧ x.Idles s.loop by
    rcases this with nearer | ⟨rfl, idles⟩
    · exact .inl ⟨y, hy, nearer⟩
    · exact .inr ⟨hy, idles⟩
  have turn := hy
  rw [tick_step hr hx] at turn
  have way := resumption (s.woken t) t x
  generalize ((resume t x).run (s.woken t)).2 = s' at way turn
  cases way with
  | cancelled fresh => exact .inl (ended (by simp [fresh]) (ends_of_finish turn))
  | lint fresh job =>
    have unended : ∀ e, x.phase ≠ .ended e := by simp [fresh]
    have barren : (s.woken t).Barren t := (c.barren_of_fresh hx fresh).wake
    have way := comes_startLint (c.path (path_woken idle hr hx unended)) (job ▸ runs) barren
    obtain ⟨z, hz, running, _⟩ := runs
    obtain ⟨y', hy', _, started⟩ := way.path.started hz (by simp [running])
    obtain rfl := Option.some.inj (turn.symm.trans hy')
    rcases Path.lint_started (path.trans comes.path) comes.idle hy (same.trans job) started with
      ⟨g, hg⟩ | end_
    · rw [hg, fresh]
      exact .inl (.gathers g)
    · exact .inl (ended unended end_)
  | dispatch fresh job =>
    rcases left_startDispatch turn with end_ | ⟨r, left⟩
    · exact .inl (ended (by simp [fresh]) end_)
    · exact .inl (fresh ▸ .asks left)
  | @paused next _ phase job =>
    rcases left_resumeDispatch turn with end_ | ⟨r, left, within⟩
    · exact .inl (ended (by simp [phase]) end_)
    · exact .inl (.goesOn (by rw [phase]; rfl) left (.tail' within (.pause next _)))
  | @settled _ next _ _ phase job =>
    rcases left_resumeDispatch turn with end_ | ⟨r, left, within⟩
    · exact .inl (ended (by simp [phase]) end_)
    · exact .inl (.goesOn (by rw [phase]; rfl) left (.tail' within (.request next _)))
  | decided phase => exact .inl (ended (by simp [phase]) (ends_of_finish turn))
  | idle idles =>
    rw [putBack_woken hr hx] at turn
    exact .inr ⟨Option.some.inj (turn.symm.trans hx), idles⟩

/-- However a session moves, a task goes on as it was or comes nearer to its end. -/
theorem keeps_or_nearer (path : s₀.opening.Path s) (idle : s.Idle) (m : Move)
    (hx : s.loop.tasks[t]? = some x) :
    ∃ y, (s.move m).loop.tasks[t]? = some y ∧ (x.Keeps y ∨ y.phase.Nearer x.phase) := by
  have c := s₀.coherent_opening.path path
  cases m with
  | act a =>
    obtain ⟨y, hy, kept⟩ := (Changes.loop (Act.changes_perform a s)).forth t x hx
    exact ⟨y, hy, .inl kept⟩
  | tick =>
    cases hr : s.loop.ready with
    | nil =>
      have same : s.move .tick = s := by simp only [move, tick, hr]
      exact ⟨x, by rw [same]; exact hx, .inl (.refl x)⟩
    | cons r rest =>
      by_cases own : r = .step t
      · subst r
        rcases nearer_turn path idle hr hx with ⟨y, hy, nearer⟩ | ⟨hy, _⟩
        · exact ⟨y, hy, .inr nearer⟩
        · exact ⟨x, hy, .inl (.refl x)⟩
      · obtain ⟨y, hy, kept⟩ := keeps_tick c idle hr own hx
        exact ⟨y, hy, .inl kept⟩

end Session
end LintBroker

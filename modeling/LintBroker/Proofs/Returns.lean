import LintBroker.Proofs.Beats
import LintBroker.Proofs.Habits

/-!
# What a lint returns

Only in its first turn can a lint return false. Once that is over it waits for its round or has
ended, and a lint that has waited tells of success if it comes to a value. What others do in their
turns, and what the host does, makes no difference to that.
-/
namespace LintBroker

namespace Phase
variable {p q r : Phase} {x y : Task}

def isLate : Phase → Bool
  | .gathering _ | .ended _ => true
  | _ => false

/-- A task that waits for its round waits on, or ends otherwise than with false; and a task that has
ended stays as it is. -/
inductive Leads : Phase → Phase → Prop
  | waits (g g' : Gathering) : Leads (.gathering g) (.gathering g')
  | returns (g : Gathering) {e : Ending} (other : e ≠ .value false) : Leads (.gathering g) (.ended e)
  | stays (e : Ending) : Leads (.ended e) (.ended e)

theorem Leads.late (h : p.Leads q) : q.isLate = true := by
  cases h <;> rfl

theorem leads_self (late : p.isLate = true) : p.Leads p := by
  cases p with
  | gathering g => exact .waits g g
  | ended e => exact .stays e
  | _ => cases late

theorem Leads.trans (h : p.Leads q) (h' : q.Leads r) : p.Leads r := by
  cases h with
  | waits g =>
    cases h' with
    | waits _ g' => exact .waits g g'
    | returns _ other => exact .returns g other
  | returns g other =>
    cases h'
    exact .returns g other
  | stays e => exact h'

theorem Leads.of_keeps (late : x.phase.isLate = true) (kept : x.Keeps y) :
    x.phase.Leads y.phase := by
  rcases kept.phase with same | ⟨g, g', hx, hy⟩
  · rw [same]
    exact leads_self late
  · rw [hx, hy]
    exact .waits g g'

end Phase

namespace Session
open Act
variable {s s' : Session} {t u : TaskId} {x : Task}

/-! ### While others have their turns -/

/-- If the task waits for its round or has ended, it has been led to where it stands now. -/
def Leads (t : TaskId) (s s' : Session) : Prop :=
  ∀ x, s.loop.tasks[t]? = some x → x.phase.isLate = true →
    ∃ y, s'.loop.tasks[t]? = some y ∧ x.phase.Leads y.phase

namespace Leads

theorem of_keeps (h : s.loop.Keeps s'.loop) : Leads t s s' := by
  intro x hx late
  obtain ⟨y, hy, kept⟩ := h.forth t x hx
  exact ⟨y, hy, .of_keeps late kept⟩

theorem of_eq (h : s'.loop = s.loop) : Leads t s s' := .of_keeps (.of_tasks_eq (by rw [h]))

theorem of_others (h : s.loop.KeepsOthers u s'.loop) (other : t ≠ u) : Leads t s s' := by
  intro x hx late
  obtain ⟨y, hy, kept⟩ := h.forth t x other hx
  exact ⟨y, hy, .of_keeps late kept⟩

end Leads

instance : IsPreorder Session (Leads t) where
  refl s := .of_eq rfl
  trans _ _ _ h h' x hx late := by
    obtain ⟨y, hy, led⟩ := h x hx late
    obtain ⟨z, hz, led'⟩ := h' y hy led.late
    exact ⟨z, hz, led.trans led'⟩

instance : Calling (Leads t) where
  stroke h := .of_keeps h.deeds.changes.loop
  own _ _ := .of_eq rfl
  answered _ _ _ := .of_eq rfl
  invoked _ _ _ := .of_eq rfl
  counts _ _ _ := .of_eq rfl
  calls _ _ := .of_eq rfl
  emit handling d n s := .of_keeps (changes_emit handling d n s).loop

theorem custom_leads (other : t ≠ u) : Custom u (Leads t) where
  work {s l} h := by
    have others : s.loop.KeepsOthers u l := by
      cases h with
      | wake => exact .of_turned (s.loop.keeps_wake u)
      | openRequest p => exact .of_keeps (.of_tasks_eq rfl)
      | pause next => exact .of_turned (s.loop.keeps_pause u next)
      | await _ next => exact .of_turned (s.loop.keeps_await u _ next)
      | gather _ => exact s.loop.keepsOthers_gather u _
      | finish e => exact .of_turned (s.loop.keeps_finish u e)
    exact .of_others others other

/-! ### In its own turn -/

/-- A lint whose round is over ends otherwise than with false. -/
theorem leads_gathered {g : Gathering} (hx : s.loop.tasks[t]? = some x)
    (waits : x.phase = .gathering g) (r : Except Failure Unit) :
    Leads t s (((finish t ((arrival x.cancelPending r).map fun _ => true)).run
      (s.onLoop fun l => l.wake t)).2) := by
  intro z hz late
  obtain rfl := Option.some.inj (hx.symm.trans hz)
  have woken : (s.onLoop fun l => l.wake t).loop.tasks[t]? =
      some { x with phase := .running, cancelPending := false } := by
    simp [Loop.wake, Loop.getElem?_changeTask, hx]
  obtain ⟨y, hy, _, ended⟩ := ((s.onLoop fun l => l.wake t).loop.keeps_finish t _).forth_turned woken
  refine ⟨y, hy, ?_⟩
  rw [(ended rfl).phase_eq (by simp), waits]
  refine .returns g fun untrue => ?_
  obtain ⟨_, _, told⟩ := map_eq_ok (mapError_eq_ok (endingOf_value untrue))
  cases told

theorem leads_own (t : TaskId) : KeepsTo (Leads t) (step t) := by
  intro s
  cases hx : s.loop.tasks[t]? with
  | none => rw [run_step_none hx]; exact refl s
  | some x =>
    rw [run_step_some hx]
    have back : Leads t s ((putBack t x).run (s.onLoop fun l => l.wake t)).2 := by
      have same : ((putBack t x).run (s.onLoop fun l => l.wake t)).2 = s := onLoop_wake_back hx
      rw [same]
      exact refl s
    intro z hz late
    obtain rfl := Option.some.inj (hx.symm.trans hz)
    have turn := resumption (s.onLoop fun l => l.wake t) t x
    generalize ((resume t x).run (s.onLoop fun l => l.wake t)).2 = s' at turn
    cases turn with
    | decided phase => exact leads_gathered hx phase _ _ hx late
    | idle => exact back _ hx late
    | cancelled fresh | lint fresh | dispatch fresh =>
      rw [fresh] at late
      cases late
    | paused phase | settled phase =>
      rw [phase] at late
      cases late

/-- All tasks go on as they were. -/
def KeepsTasks (s s' : Session) : Prop := s.loop.Keeps s'.loop

instance : IsPreorder Session KeepsTasks where
  refl s := .refl s.loop
  trans _ _ _ := Loop.Keeps.trans

instance : Manner KeepsTasks where
  stroke h := h.deeds.changes.loop
  own _ _ := .of_tasks_eq rfl
  answered _ _ _ := .of_tasks_eq rfl
  counts _ _ _ := .of_tasks_eq rfl
  calls _ _ := .of_tasks_eq rfl
  emit handling d n s := (changes_emit handling d n s).loop

/-- After its first turn a lint waits for its round, or it has ended. -/
theorem late_startLint (c : EditContext) (hx : s.loop.tasks[t]? = some x) :
    ∃ y, ((startLint c t).run s).2.loop.tasks[t]? = some y ∧ y.phase.isLate = true := by
  have kept : s.loop.Keeps ((Round.start t c).exec s).2.loop :=
    Round.habit_start (R := KeepsTasks) t c s
  obtain ⟨z, hz, _⟩ := kept.forth t x hx
  rw [run_startLint]
  generalize (Round.start t c).exec s = outcome at hz ⊢
  obtain ⟨r, s₁⟩ := outcome
  have finished (r' : Except Failure Bool) :
      ∃ y, ((finish t r').run s₁).2.loop.tasks[t]? = some y ∧ y.phase.isLate = true := by
    obtain ⟨y, hy, _, ended⟩ := (s₁.loop.keeps_finish t _).forth_turned hz
    exact ⟨y, hy, (Phase.Leads.of_keeps rfl (ended rfl)).late⟩
  match r with
  | .error f => exact finished (.error f)
  | .ok none => exact finished (.ok false)
  | .ok (some []) => exact finished (.ok true)
  | .ok (some (d :: ds)) =>
    obtain ⟨g, kept⟩ := s₁.loop.keeps_gather t (d :: ds)
    obtain ⟨y, hy, _, waits⟩ := kept.forth_turned (s₁.loop.forth_spawnAll (d :: ds) hz)
    exact ⟨y, hy, (Phase.Leads.of_keeps rfl (waits rfl)).late⟩

/-! ### Through a run -/

theorem leads_step (t u : TaskId) : KeepsTo (Leads t) (step u) := by
  by_cases own : t = u
  · exact own ▸ leads_own t
  · have := custom_leads own
    exact habit_step u

theorem leads_move (t : TaskId) (s : Session) (m : Move) : Leads t s (s.move m) := by
  cases m with
  | act a => exact habit_perform a s
  | tick =>
    show Leads t s s.tick
    unfold tick
    split
    · exact refl s
    · next r rest _ =>
      have popped : Leads t s (s.onLoop fun l => { l with ready := rest }) :=
        .of_keeps (.of_tasks_eq rfl)
      cases r with
      | step u => exact IsTrans.trans _ _ _ popped (leads_step t u _)
      | memberEnded parent member =>
        exact IsTrans.trans _ _ _ popped (.of_keeps (Loop.keeps_memberEnded _ parent member))

/-- Whatever happens, a task that waits for its round or has ended is led to where it stands in the
end. -/
theorem leads_run (t : TaskId) (s : Session) (moves : List Move) : Leads t s (s.run moves) := by
  induction moves generalizing s with
  | nil => exact refl s
  | cons m moves ih => exact IsTrans.trans _ _ _ (leads_move t s m) (ih _)

def ReturnedFalse (s : Session) (t : TaskId) : Prop :=
  ∃ x, s.loop.tasks[t]? = some x ∧ x.phase = .ended (.value false)

/-- Once a task waits for its round or has ended, it is settled whether it returns false. -/
theorem returnedFalse_run_iff (hx : s.loop.tasks[t]? = some x) (late : x.phase.isLate = true)
    (moves : List Move) : (s.run moves).ReturnedFalse t ↔ s.ReturnedFalse t := by
  obtain ⟨y, hy, led⟩ := leads_run t s moves x hx late
  have now : s.ReturnedFalse t ↔ x.phase = .ended (.value false) := by
    simp [ReturnedFalse, hx]
  have later : (s.run moves).ReturnedFalse t ↔ y.phase = .ended (.value false) := by
    simp [ReturnedFalse, hy]
  rw [now, later]
  generalize x.phase = p at led
  generalize y.phase = q at led
  cases led with
  | waits g g' => simp
  | returns g other => simp [other]
  | stays e => rfl

end Session
end LintBroker

import LintBroker.Proofs.Habits

/-!
# First come, first served

The queue is first in, first out, and a task stands in it from the moment at which it is made. So
tasks have their first turns in the order in which they were made: at every moment there is a bound
below which all tasks have started, and the tasks from there on stand in the queue one after the
other, whatever else stands between them. Only a task that has started is ever put into the queue
again.
-/
namespace LintBroker

def Ready.task? : Ready → Option TaskId
  | .step t => some t
  | .memberEnded .. => none

namespace Loop

/-- The steps in the queue of the tasks from a bound on. -/
def stepsFrom (l : Loop) (k : Nat) : List TaskId :=
  (l.ready.filterMap Ready.task?).filter fun t => k ≤ t

/-- Exactly the tasks below the bound have started. The others stand in the queue in the order in
which they were made, each once; and who awaits a request has started. -/
structure FirstCome (l : Loop) (k : Nat) : Prop where
  bound : k ≤ l.tasks.size
  fresh : ∀ (t : TaskId) (x : Task), l.tasks[t]? = some x → (x.phase = .fresh ↔ k ≤ t)
  line : l.stepsFrom k = List.range' k (l.tasks.size - k)
  awaited : ∀ (r : RequestId) (q : Request), l.requests[r]? = some q → q.awaitedBy < k

variable {l l' : Loop} {t k : Nat}

@[simp] theorem stepsFrom_enqueue (l : Loop) (r : Ready) (k : Nat) :
    (l.enqueue r).stepsFrom k = l.stepsFrom k ++ (r.task?.toList.filter fun t => k ≤ t) := by
  cases r <;> simp [stepsFrom, enqueue, Ready.task?]

theorem stepsFrom_cons {r : Ready} {rest : List Ready} (hr : l.ready = r :: rest) (k : Nat) :
    l.stepsFrom k = (r.task?.toList.filter fun t => k ≤ t) ++ { l with ready := rest }.stepsFrom k := by
  cases r with
  | step t =>
    simp only [stepsFrom, hr, Ready.task?, List.filterMap_cons, List.filter_cons, Option.toList_some]
    split <;> rfl
  | memberEnded parent member => simp [stepsFrom, hr, Ready.task?, List.filterMap_cons]

namespace FirstCome
variable (h : l.FirstCome k)
include h

/-- The news of an end, or the step of a task that has started, is put into the queue. -/
theorem enqueue {r : Ready} (started : ∀ t, r = .step t → t < k) : (l.enqueue r).FirstCome k where
  bound := h.bound
  fresh := h.fresh
  line := by
    rw [stepsFrom_enqueue, h.line]
    cases r with
    | step t => simp [Ready.task?, started t rfl, Loop.enqueue]
    | memberEnded parent member => simp [Ready.task?, Loop.enqueue]
  awaited := h.awaited

theorem changeTask {f : Task → Task}
    (hf : ∀ x, l.tasks[t]? = some x → ((f x).phase = .fresh ↔ x.phase = .fresh)) :
    (l.changeTask t f).FirstCome k where
  bound := by simpa [Loop.changeTask] using h.bound
  fresh u y hy := by
    rw [getElem?_changeTask] at hy
    split at hy
    · rename_i same
      subst same
      obtain ⟨x, hx, rfl⟩ := Option.map_eq_some_iff.mp hy
      exact (hf x hx).trans (h.fresh t x hx)
    · exact h.fresh u y hy
  line := by simpa [Loop.changeTask, stepsFrom] using h.line
  awaited := h.awaited

/-- A task that has started goes on to another phase. -/
theorem setPhase (started : t < k) {p : Phase} (hp : p ≠ .fresh) : (l.setPhase t p).FirstCome k :=
  h.changeTask fun x hx => iff_of_false hp fun fresh =>
    Nat.not_le_of_lt started ((h.fresh t x hx).mp fresh)

theorem leavePending : (l.leavePending t).FirstCome k := h.changeTask fun _ _ => .rfl

theorem markCancelling : (l.markCancelling t).FirstCome k := h.changeTask fun _ _ => .rfl

theorem passCancellation : (l.passCancellation t).FirstCome k := h.changeTask fun _ _ => .rfl

theorem settle (r : RequestId) (e : Settlement) : (l.settle r e).FirstCome k := by
  unfold Loop.settle
  split
  · rename_i q hq
    split
    · have settled : Loop.FirstCome
          { l with requests := l.requests.modify r fun q => { q with settlement := some e } } k := by
        refine ⟨h.bound, h.fresh, h.line, fun r' q' hq' => ?_⟩
        simp only [Array.getElem?_modify] at hq'
        split at hq'
        · obtain ⟨q, hq, rfl⟩ := Option.map_eq_some_iff.mp hq'
          exact h.awaited _ q hq
        · exact h.awaited r' q' hq'
      refine settled.enqueue ?_
      rintro _ ⟨⟩
      exact h.awaited r q hq
    · exact h
  · exact h

theorem cancelMember (t : TaskId) : (l.cancelMember t).FirstCome k := by
  unfold Loop.cancelMember
  split
  · exact h
  · split
    · split
      · exact h.markCancelling.settle _ _
      · exact h.leavePending
    · exact h.leavePending

theorem cancelMembers (members : List TaskId) : (l.cancelMembers members).FirstCome k := by
  unfold Loop.cancelMembers
  induction members generalizing l with
  | nil => exact h
  | cons t members ih => exact ih (h.cancelMember t)

theorem started_of_gathering {g : Gathering} (hg : l.tasks[t]?.map Task.phase = some (.gathering g)) :
    t < k := by
  obtain ⟨x, hx, hp⟩ := Option.map_eq_some_iff.mp hg
  refine Nat.lt_of_not_le fun fresh => ?_
  simp [(h.fresh t x hx).mpr fresh] at hp

theorem cancel (t : TaskId) : (l.cancel t).FirstCome k := by
  unfold Loop.cancel
  split
  · rename_i g hg
    split
    · have asked := (h.cancelMembers g.members).setPhase
        (p := .gathering { g with cancelRequested := true }) (h.started_of_gathering hg) (by simp)
      exact asked.markCancelling
    · exact h.leavePending
  · exact h.cancelMember t

/-- Who is new stands last in the queue. -/
theorem spawn (name : Option String) (job : Job) : (l.spawn name job).FirstCome k where
  bound := by
    simp only [Loop.spawn, tasks_enqueue, Array.size_push]
    exact Nat.le_succ_of_le h.bound
  fresh u y hy := by
    simp only [Loop.spawn, tasks_enqueue, Array.getElem?_push] at hy
    split at hy
    · obtain rfl := Option.some.inj hy
      exact iff_of_true rfl (by simpa [*] using h.bound)
    · exact h.fresh u y hy
  line := by
    have last : l.tasks.size + 1 - k = (l.tasks.size - k) + 1 := Nat.succ_sub h.bound
    have line := h.line
    unfold stepsFrom at line
    simp [Loop.spawn, Loop.enqueue, stepsFrom, Ready.task?, List.filterMap_append, line, h.bound, last,
      List.range'_concat]
  awaited := h.awaited

theorem spawnAll (ds : List Dispatch) : (l.spawnAll ds).FirstCome k := by
  unfold Loop.spawnAll
  induction ds generalizing l with
  | nil => exact h
  | cons d ds ih => exact ih (h.spawn none _)

theorem memberEnded (parent member : TaskId) : (l.memberEnded parent member).FirstCome k := by
  unfold Loop.memberEnded
  split
  · rename_i g e hg _
    have started := h.started_of_gathering hg
    have heard := h.setPhase (p := .gathering (g.afterMember e)) started (by simp)
    dsimp only
    split
    · refine heard.enqueue ?_
      rintro _ ⟨⟩
      exact started
    · exact heard
  · exact h

theorem openRequest (p : ProviderId) (started : t < k) : (l.openRequest p t).FirstCome k where
  bound := h.bound
  fresh := h.fresh
  line := h.line
  awaited r q hq := by
    simp only [Loop.openRequest, Array.getElem?_push] at hq
    split at hq
    · obtain rfl := Option.some.inj hq
      exact started
    · exact h.awaited r q hq

/-- All that a task asks of the loop once it has started. -/
theorem work (started : t < k) (w : l.Work t l') : l'.FirstCome k := by
  have again : ∀ u, Ready.step t = .step u → u < k := by
    rintro _ ⟨⟩
    exact started
  have ends (p : Phase) (hp : p ≠ .fresh) : (l.changeTask t fun task =>
      { task with phase := p, cancelPending := false }).FirstCome k := by
    have moved := (h.setPhase started hp).passCancellation (t := t)
    rwa [Loop.passCancellation, Loop.setPhase, changeTask_changeTask] at moved
  cases w with
  | wake => exact ends .running (by simp)
  | openRequest p => exact h.openRequest p started
  | pause next => exact (h.setPhase (p := .paused next) started (by simp)).enqueue again
  | @await r p own next =>
    have waits := h.setPhase (p := .awaiting r next) started (by simp)
    unfold Loop.await
    dsimp only
    split
    · exact waits.passCancellation.settle _ _
    · exact waits
  | @gather ds some =>
    have gathers (g : Gathering) := (h.spawnAll ds).setPhase (p := .gathering g) started (by simp)
    unfold Loop.gather
    dsimp only
    split
    · exact (gathers _).passCancellation.cancelMembers _
    · exact gathers _
  | finish e =>
    unfold Loop.finish
    dsimp only
    split
    · exact (ends (.ended e) (by simp)).enqueue (by simp)
    · exact ends (.ended e) (by simp)

/-- Whatever stands first in the queue but the step of a new task is taken from it. -/
theorem pop {r : Ready} {rest : List Ready} (hr : l.ready = r :: rest)
    (started : ∀ t, r = .step t → t < k) : Loop.FirstCome { l with ready := rest } k where
  bound := h.bound
  fresh := h.fresh
  line := by
    rw [← h.line, stepsFrom_cons hr]
    cases r with
    | step t => simp [Ready.task?, started t rfl]
    | memberEnded parent member => simp [Ready.task?]
  awaited := h.awaited

/-- The new task whose step stands first in the queue is the one at the bound. When it is woken the
bound goes up by one. -/
theorem popNew {rest : List Ready} (hr : l.ready = .step t :: rest) (new : k ≤ t) :
    t = k ∧ t < l.tasks.size ∧ (Loop.wake { l with ready := rest } t).FirstCome (k + 1) := by
  have line := h.line
  rw [stepsFrom_cons hr] at line
  obtain ⟨n, hn⟩ : ∃ n, l.tasks.size - k = n + 1 := by
    refine Nat.exists_eq_succ_of_ne_zero fun none => ?_
    simp [none, Ready.task?, new] at line
  simp only [hn, List.range'_succ, Ready.task?, Option.toList_some, List.filter_cons,
    decide_eq_true new, if_true, List.filter_nil, List.singleton_append, List.cons.injEq] at line
  obtain ⟨rfl, tail⟩ := line
  have bound : t ≤ l.tasks.size := h.bound
  refine ⟨rfl, by omega, ?_, fun u y hy => ?_, ?_, fun r q hq => ?_⟩
  · simp only [Loop.wake, Loop.changeTask, Array.size_modify]
    omega
  · rw [Loop.wake, getElem?_changeTask] at hy
    split at hy
    · rename_i same
      obtain ⟨x, _, rfl⟩ := Option.map_eq_some_iff.mp hy
      exact iff_of_false (by simp) (same ▸ Nat.not_succ_le_self t)
    · rename_i other
      exact (h.fresh u y hy).trans ⟨fun le => Nat.lt_of_le_of_ne le other, Nat.le_of_succ_le⟩
  · -- of the steps that stand behind it none is its own
    have behind : Loop.stepsFrom { l with ready := rest } (t + 1) =
        (Loop.stepsFrom { l with ready := rest } t).filter fun u => t + 1 ≤ u := by
      simp only [stepsFrom, List.filter_filter]
      refine List.filter_congr fun u _ => ?_
      simp only [Bool.and_eq_decide, decide_eq_true_eq, decide_eq_decide]
      omega
    have size : l.tasks.size - (t + 1) = n := by omega
    show Loop.stepsFrom { l with ready := rest } (t + 1) = _
    rw [behind, tail, List.filter_eq_self.mpr]
    · simp [Loop.wake, Loop.changeTask, size]
    · intro u hu
      have := List.mem_range'_1.mp hu
      simp
      omega
  · exact Nat.lt_succ_of_lt (h.awaited r q hq)

end FirstCome
end Loop
end LintBroker

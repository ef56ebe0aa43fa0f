import LintBroker.Proofs.Habits
import LintBroker.Proofs.Tally

/-!
# The queue

In a turn the queue only grows at its end, so that a task that stands in it has its turn after as many
ticks as stand before it. And a cancellation is left for a task only if it has been asked to end.
-/
namespace LintBroker

namespace Loop
variable {l l' : Loop} {t : TaskId}

/-! ### The queue grows at its end -/

def Queues (l l' : Loop) : Prop := l.ready <+: l'.ready

theorem Queues.refl (l : Loop) : l.Queues l := List.prefix_refl _

theorem Queues.trans {l'' : Loop} (h : l.Queues l') (h' : l'.Queues l'') : l.Queues l'' :=
  List.IsPrefix.trans h h'

theorem Advances.queues (h : l.Advances l') : l.Queues l' := by
  obtain ⟨ts, hts⟩ := h.ready
  exact ⟨ts.map Ready.step, hts.symm⟩

theorem queues_enqueue (l : Loop) (r : Ready) : l.Queues (l.enqueue r) := List.prefix_append _ _

theorem queues_finish (l : Loop) (t : TaskId) (e : Ending) : l.Queues (l.finish t e) := by
  unfold finish
  dsimp only
  split
  · exact queues_enqueue (l.changeTask t _) _
  · exact .refl l

theorem queues_gather (l : Loop) (t : TaskId) (ds : List Dispatch) : l.Queues (l.gather t ds) := by
  have spawned : l.Queues (l.spawnAll ds) := by
    obtain ⟨ts, hts⟩ := l.ready_spawnAll ds
    exact ⟨ts.map Ready.step, hts.symm⟩
  unfold gather
  dsimp only
  split
  · have asked (l : Loop) (members : List TaskId) :
        l.Queues ((l.passCancellation t).cancelMembers members) :=
      ((advances_passCancellation l t).trans (advances_cancelMembers _ members)).queues
    exact spawned.trans (asked ((l.spawnAll ds).setPhase t _) _)
  · exact spawned

theorem queues_memberEnded (l : Loop) (parent member : TaskId) :
    l.Queues (l.memberEnded parent member) := by
  unfold memberEnded
  split
  · dsimp only
    split
    · exact queues_enqueue (l.setPhase parent _) _
    · exact .refl l
  · exact .refl l

theorem Work.queues (h : l.Work t l') : l.Queues l' := by
  cases h with
  | wake => exact .refl l
  | openRequest p => exact .refl l
  | pause next => exact (l.advances_pause t next).queues
  | @await r p own next => exact (l.advances_await t r next).queues
  | @gather ds some => exact l.queues_gather t ds
  | finish e => exact l.queues_finish t e

/-! ### Cancellations -/

theorem tasks_settle (l : Loop) (r : RequestId) (e : Settlement) : (l.settle r e).tasks = l.tasks := by
  unfold settle
  split
  · split <;> rfl
  · rfl

/-- A cancellation is left for a task only if it has been asked to end. -/
def Asked (l : Loop) : Prop :=
  ∀ (t : TaskId) (x : Task), l.tasks[t]? = some x → x.cancelPending = true → x.cancelling = true

namespace Asked
variable (h : l.Asked)
include h

theorem of_tasks_eq (same : l'.tasks = l.tasks) : l'.Asked := fun t x hx => h t x (same ▸ hx)

theorem changeTask {f : Task → Task}
    (hf : ∀ x, (x.cancelPending = true → x.cancelling = true) →
      (f x).cancelPending = true → (f x).cancelling = true) : (l.changeTask t f).Asked := by
  intro u y hy
  rw [getElem?_changeTask] at hy
  split at hy
  · obtain ⟨x, hx, rfl⟩ := Option.map_eq_some_iff.mp hy
    exact hf x (h u x hx)
  · exact h u y hy

theorem setPhase (phase : Phase) : (l.setPhase t phase).Asked := h.changeTask fun _ => id

theorem wake (t : TaskId) : (l.wake t).Asked := h.changeTask fun _ _ => nofun

theorem leavePending : (l.leavePending t).Asked := h.changeTask fun _ _ _ => rfl

theorem markCancelling : (l.markCancelling t).Asked := h.changeTask fun _ _ _ => rfl

theorem passCancellation : (l.passCancellation t).Asked := h.changeTask fun _ _ => nofun

theorem settle (r : RequestId) (e : Settlement) : (l.settle r e).Asked :=
  h.of_tasks_eq (l.tasks_settle r e)

theorem cancelMember (t : TaskId) : (l.cancelMember t).Asked := by
  unfold Loop.cancelMember
  split
  · exact h
  · split
    · split
      · exact h.markCancelling.settle _ _
      · exact h.leavePending
    · exact h.leavePending

theorem cancelMembers (members : List TaskId) : (l.cancelMembers members).Asked := by
  unfold Loop.cancelMembers
  induction members generalizing l with
  | nil => exact h
  | cons t members ih => exact ih (h.cancelMember t)

theorem cancel (t : TaskId) : (l.cancel t).Asked := by
  unfold Loop.cancel
  split
  · split
    · exact ((h.cancelMembers _).setPhase _).markCancelling
    · exact h.leavePending
  · exact h.cancelMember t

theorem spawn (name : Option String) (job : Job) : (l.spawn name job).Asked := by
  intro u y hy
  simp only [Loop.spawn, enqueue, Array.getElem?_push] at hy
  split at hy
  · obtain rfl := Option.some.inj hy
    exact fun pending => by simp at pending
  · exact h u y hy

theorem spawnAll (ds : List Dispatch) : (l.spawnAll ds).Asked := by
  unfold Loop.spawnAll
  induction ds generalizing l with
  | nil => exact h
  | cons d ds ih => exact ih (h.spawn none _)

theorem memberEnded (parent member : TaskId) : (l.memberEnded parent member).Asked := by
  unfold Loop.memberEnded
  split
  · dsimp only
    split
    · exact h.setPhase _
    · exact h.setPhase _
  · exact h

theorem work (w : l.Work t l') : l'.Asked := by
  cases w with
  | wake => exact h.wake t
  | openRequest p => exact h
  | pause next => exact h.setPhase _
  | await own next =>
    unfold Loop.await
    dsimp only
    split
    · exact (h.setPhase _).passCancellation.settle _ _
    · exact h.setPhase _
  | @gather ds some =>
    unfold Loop.gather
    dsimp only
    split
    · exact ((h.spawnAll ds).setPhase _).passCancellation.cancelMembers _
    · exact (h.spawnAll ds).setPhase _
  | finish e =>
    unfold Loop.finish
    dsimp only
    split
    · exact h.changeTask fun _ _ => nofun
    · exact h.changeTask fun _ _ => nofun

end Asked
end Loop

namespace Session
variable {s s' : Session}

def Queues (s s' : Session) : Prop := s.loop.Queues s'.loop

theorem Queues.of_eq (h : s'.loop = s.loop) : s.Queues s' := by
  rw [Queues, h]
  exact .refl _

theorem Stroke.queues (h : Stroke s s') : s.Queues s' := by
  obtain ⟨_, way, _⟩ := h.deeds.silent
  exact way.loop.queues

instance : IsPreorder Session Queues where
  refl s := .refl s.loop
  trans _ _ _ := Loop.Queues.trans

/-- In a turn of a task the queue grows at its end. -/
instance : Habit Queues where
  stroke h := h.queues
  own _ _ := .of_eq rfl
  answered _ _ _ := .of_eq rfl
  invoked _ _ _ := .of_eq rfl
  counts _ _ _ := .of_eq rfl
  calls _ _ := .of_eq rfl
  work h := h.queues
  emit := Act.keepsTo_emit (fun _ _ => Stroke.queues) (fun _ _ => .of_eq rfl) fun _ _ => .of_eq rfl

/-- Whatever stood behind the first in the queue stands there after a tick, one place further on. -/
theorem queued_tick {r : Ready} {rest : List Ready} (hr : s.loop.ready = r :: rest) :
    rest <+: s.tick.loop.ready := by
  unfold tick
  simp only [hr]
  cases r with
  | step t => exact habit_step (R := Queues) t (s.onLoop fun l => { l with ready := rest })
  | memberEnded parent member =>
    exact (s.onLoop fun l => { l with ready := rest }).loop.queues_memberEnded parent member

/-- Cancellations are left only for tasks that have been asked to end, if so before. -/
def KeepsAsked (s s' : Session) : Prop := s.loop.Asked → s'.loop.Asked

theorem KeepsAsked.of_eq (h : s'.loop = s.loop) : s.KeepsAsked s' := fun asked => h ▸ asked

theorem Stroke.asked (h : Stroke s s') : s.KeepsAsked s' := by
  intro asked
  cases h with
  | quiet h => exact h.loop ▸ asked
  | spawn name c => exact asked.spawn name _
  | settle r e => exact asked.settle r e
  | cancel t => exact asked.cancel t
  | _ => exact asked

instance : IsPreorder Session KeepsAsked where
  refl _ := id
  trans _ _ _ h h' := h' ∘ h

instance : Lasting KeepsAsked where
  stroke h := h.asked
  own _ _ := .of_eq rfl
  answered _ _ _ := .of_eq rfl
  invoked _ _ _ := .of_eq rfl
  counts _ _ _ := .of_eq rfl
  calls _ _ := .of_eq rfl
  work h asked := asked.work h
  emit := Act.keepsTo_emit (fun _ _ => Stroke.asked) (fun _ _ => .of_eq rfl) fun _ _ => .of_eq rfl
  pop _ := id
  hear _ parent member asked := asked.memberEnded parent member

theorem asked_run (s : Session) (moves : List Move) : (s.opening.run moves).loop.Asked :=
  lasting_run (R := KeepsAsked) s.opening moves fun _ _ h => by simp [opening] at h

end Session
end LintBroker

import LintBroker.Proofs.Persistence
import LintBroker.Proofs.Queue

/-!
# Nothing goes wrong by itself

As long as nobody is asked to end, a round hears of nothing but values and no task ends with anything
else, unless a task ends so in its own turn.
-/
namespace LintBroker

/-- The phase tells of nothing that went wrong. -/
def Phase.Fine : Phase → Prop
  | .gathering g => g.cancelRequested = false ∧ ∀ r, g.outcome = some r → r = .ok ()
  | .ended e => ∃ b, e = .value b
  | _ => True

theorem Gathering.cancelRequested_afterMember (g : Gathering) (e : Ending) :
    (g.afterMember e).cancelRequested = g.cancelRequested := by
  unfold afterMember
  dsimp only
  split
  · rfl
  · rfl
  · rfl
  · split <;> rfl

/-- Nothing goes wrong by the end of a member with a value. -/
theorem Phase.Fine.afterMember {g : Gathering} (fine : (Phase.gathering g).Fine) (b : Bool) :
    (Phase.gathering (g.afterMember (.value b))).Fine := by
  obtain ⟨unasked, heard⟩ := fine
  refine ⟨?_, fun r hr => ?_⟩
  · rw [Gathering.cancelRequested_afterMember]
    exact unasked
  · rw [Gathering.outcome_afterMember] at hr
    cases ho : g.outcome with
    | some r' =>
      simp only [ho, Option.some.injEq] at hr
      exact hr ▸ heard r' ho
    | none =>
      simp only [ho, unasked] at hr
      split at hr
      · exact (Option.some.inj hr).symm
      · cases hr

namespace Loop
variable {l l' : Loop} {t : TaskId}

def Cancelling (l : Loop) : Prop :=
  ∃ (t : TaskId) (x : Task), l.tasks[t]? = some x ∧ x.cancelling = true

theorem Cancelling.keeps (h : l.Cancelling) (keeps : l.Keeps l') : l'.Cancelling := by
  obtain ⟨t, x, hx, hc⟩ := h
  obtain ⟨y, hy, hxy⟩ := keeps.forth t x hx
  exact ⟨t, y, hy, hxy.cancelling hc⟩

theorem Cancelling.turned {p : Phase} (h : l.Cancelling) (keeps : (l.setPhase t p).Keeps l') :
    l'.Cancelling := by
  refine Cancelling.keeps ?_ keeps
  obtain ⟨u, x, hx, hc⟩ := h
  by_cases hu : t = u
  · exact ⟨u, { x with phase := p }, by simp [setPhase, getElem?_changeTask, hu, hx], hc⟩
  · exact ⟨u, x, by simp [setPhase, getElem?_changeTask, hu, hx], hc⟩

theorem Cancelling.spawnAll (h : l.Cancelling) (ds : List Dispatch) :
    (l.spawnAll ds).Cancelling := by
  obtain ⟨t, x, hx, hc⟩ := h
  exact ⟨t, x, l.forth_spawnAll ds hx, hc⟩

theorem Asked.cancelling (h : l.Asked) (pending : l.isCancelPending t = true) : l.Cancelling := by
  unfold isCancelPending at pending
  cases hx : l.tasks[t]? with
  | none => simp [hx] at pending
  | some x => exact ⟨t, x, hx, h t x hx (by simpa [hx] using pending)⟩

theorem cancelMember_cases (l : Loop) (t : TaskId) :
    l.cancelMember t = l ∨ (l.cancelMember t).Cancelling := by
  cases hx : l.tasks[t]? with
  | none =>
    refine .inl ?_
    simp [cancelMember, hasEnded, hx]
  | some x =>
    have marked : (l.markCancelling t).Cancelling :=
      ⟨t, { x with cancelling := true }, by simp [markCancelling, getElem?_changeTask, hx], rfl⟩
    have left : (l.leavePending t).Cancelling :=
      ⟨t, { x with cancelPending := true, cancelling := true },
        by simp [leavePending, getElem?_changeTask, hx], rfl⟩
    unfold cancelMember
    split
    · exact .inl rfl
    · split
      · split
        · exact .inr (marked.keeps (keeps_settle _ _ _))
        · exact .inr left
      · exact .inr left

/-- To ask a task to end leaves it asked, unless it cannot be asked. -/
theorem cancel_cases (l : Loop) (t : TaskId) : l.cancel t = l ∨ (l.cancel t).Cancelling := by
  unfold cancel
  split
  · rename_i g hg
    obtain ⟨x, hx, _⟩ := Option.map_eq_some_iff.mp hg
    refine .inr ?_
    split
    · obtain ⟨y, hy, _⟩ := (l.keeps_cancelMembers g.members).forth t x hx
      exact ⟨t, { y with phase := .gathering { g with cancelRequested := true }, cancelling := true },
        by simp [markCancelling, setPhase, getElem?_changeTask, hy], rfl⟩
    · exact ⟨t, { x with cancelPending := true, cancelling := true },
        by simp [leavePending, getElem?_changeTask, hx], rfl⟩
  · exact l.cancelMember_cases t

/-- Nothing has gone wrong, unless somebody has been asked to end. -/
def Content (l : Loop) : Prop :=
  l.Cancelling ∨ ∀ (t : TaskId) (x : Task), l.tasks[t]? = some x → x.phase.Fine

namespace Content
variable (h : l.Content)
include h

theorem of_tasks (cancelling : l.Cancelling → l'.Cancelling)
    (tasks : ∀ (t : TaskId) (y : Task), l'.tasks[t]? = some y →
      y.phase.Fine ∨ ∃ x, l.tasks[t]? = some x ∧ x.phase = y.phase) : l'.Content := by
  rcases h with h | fine
  · exact .inl (cancelling h)
  · refine .inr fun t y hy => ?_
    rcases tasks t y hy with here | ⟨x, hx, same⟩
    · exact here
    · exact same ▸ fine t x hx

theorem of_tasks_eq (same : l'.tasks = l.tasks) : l'.Content :=
  h.of_tasks (·.keeps (.of_tasks_eq same)) fun _ y hy => .inr ⟨y, same ▸ hy, rfl⟩

theorem settle (r : RequestId) (e : Settlement) : (l.settle r e).Content :=
  h.of_tasks_eq (l.tasks_settle r e)

theorem cancel (t : TaskId) : (l.cancel t).Content := by
  rcases l.cancel_cases t with same | cancelling
  · rw [same]
    exact h
  · exact .inl cancelling

theorem spawn (name : Option String) (c : EditContext) : (l.spawn name (.lint c)).Content := by
  refine h.of_tasks (·.keeps (l.keeps_spawn name c)) fun t y hy => ?_
  rcases (l.keeps_spawn name c).back hy with ⟨x, hx, _⟩ | ⟨fresh, _⟩
  · have ht := (Array.getElem?_eq_some_iff.mp hx).1
    have same : (l.spawn name (.lint c)).tasks[t]? = l.tasks[t]? := by
      simp [Loop.spawn, Array.getElem?_push, Nat.ne_of_lt ht]
    exact .inr ⟨y, same ▸ hy, rfl⟩
  · exact .inl (by rw [fresh]; trivial)

theorem spawnAll (ds : List Dispatch) : (l.spawnAll ds).Content := by
  refine h.of_tasks (·.spawnAll ds) fun t y hy => ?_
  rcases l.back_spawnAll hy with hx | ⟨_, _, _, _, rfl⟩
  · exact .inr ⟨y, hx, rfl⟩
  · exact .inl trivial

/-- A task comes to a phase in which nothing is wrong. -/
theorem turned {f : Task → Task} (cancelling : ∀ x, (f x).cancelling = x.cancelling)
    (fine : ∀ x, (f x).phase.Fine) : (l.changeTask t f).Content := by
  refine h.of_tasks (fun ⟨u, x, hx, hc⟩ => ?_) fun u y hy => ?_
  · rw [Cancelling]
    by_cases hu : t = u
    · exact ⟨u, f x, by simp [getElem?_changeTask, hu, hx], (cancelling x).trans hc⟩
    · exact ⟨u, x, by simp [getElem?_changeTask, hu, hx], hc⟩
  · rw [getElem?_changeTask] at hy
    split at hy
    · obtain ⟨x, _, rfl⟩ := Option.map_eq_some_iff.mp hy
      exact .inl (fine x)
    · exact .inr ⟨y, hy, rfl⟩

theorem setPhase {p : Phase} (fine : p.Fine) : (l.setPhase t p).Content :=
  h.turned (fun _ => rfl) fun _ => fine

theorem wake (t : TaskId) : (l.wake t).Content := h.turned (fun _ => rfl) fun _ => trivial

theorem pause (t : TaskId) (next : Except Failure Unit → Reply) : (l.pause t next).Content :=
  (h.setPhase (p := .paused next) trivial).of_tasks_eq rfl

theorem passCancellation (t : TaskId) : (l.passCancellation t).Content := by
  refine h.of_tasks (·.keeps (l.keeps_passCancellation t)) fun u y hy => ?_
  rw [Loop.passCancellation, getElem?_changeTask] at hy
  split at hy
  · obtain ⟨x, hx, rfl⟩ := Option.map_eq_some_iff.mp hy
    exact .inr ⟨x, hx, rfl⟩
  · exact .inr ⟨y, hy, rfl⟩

theorem await (t : TaskId) (r : RequestId) (next : Except Failure Value → Reply) :
    (l.await t r next).Content := by
  have waits := h.setPhase (t := t) (p := .awaiting r next) trivial
  unfold Loop.await
  dsimp only
  split
  · exact (waits.passCancellation t).settle _ _
  · exact waits

/-- A round is gathered; if its lint was to be cancelled, somebody has been asked to end. -/
theorem gather (asked : l.Asked) (t : TaskId) (ds : List Dispatch) : (l.gather t ds).Content := by
  cases pending : l.isCancelPending t with
  | true =>
    obtain ⟨g, keeps⟩ := l.keeps_gather t ds
    exact .inl (((asked.cancelling pending).spawnAll ds).turned keeps)
  | false =>
    unfold Loop.gather
    simp only [pending, Bool.false_eq_true, if_false]
    exact (h.spawnAll ds).setPhase ⟨rfl, nofun⟩

/-- A task ends with a value, or somebody has been asked to end. -/
theorem finish (asked : l.Asked) (t : TaskId) (b : Bool) :
    (l.finish t (Session.endingOf (l.isCancelPending t) (.ok b))).Content := by
  cases pending : l.isCancelPending t with
  | true => exact .inl ((asked.cancelling pending).turned (l.keeps_finish t _))
  | false =>
    have ends := h.turned (t := t) (f := fun task =>
      { task with phase := .ended (.value b), cancelPending := false }) (fun _ => rfl)
        fun _ => ⟨b, rfl⟩
    unfold Loop.finish
    dsimp only
    split
    · exact ends.of_tasks_eq rfl
    · exact ends

theorem memberEnded (parent member : TaskId) : (l.memberEnded parent member).Content := by
  rcases h with cancelling | fine
  · exact .inl (cancelling.keeps (l.keeps_memberEnded parent member))
  · have content : l.Content := .inr fine
    unfold Loop.memberEnded
    split
    · rename_i g e hg he
      obtain ⟨x, hx, hp⟩ := Option.map_eq_some_iff.mp hg
      obtain ⟨y, hy, hq⟩ := Option.map_eq_some_iff.mp he
      obtain ⟨unasked, heard⟩ : (Phase.gathering g).Fine := hp ▸ fine parent x hx
      obtain ⟨b, rfl⟩ : (Phase.ended e).Fine := hq ▸ fine member y hy
      have goes : (Phase.gathering (g.afterMember (.value b))).Fine :=
        Phase.Fine.afterMember ⟨unasked, heard⟩ b
      dsimp only
      split
      · exact (content.setPhase goes).of_tasks_eq rfl
      · exact content.setPhase goes
    · exact content

end Content
end Loop

namespace Session
variable {s s' : Session}

def KeepsContent (s s' : Session) : Prop := s.loop.Content → s'.loop.Content

theorem KeepsContent.of_eq (h : s'.loop = s.loop) : s.KeepsContent s' := fun content => h ▸ content

theorem Stroke.content (h : Stroke s s') : s.KeepsContent s' := by
  intro content
  cases h with
  | quiet h => exact h.loop ▸ content
  | spawn name c => exact content.spawn name c
  | settle r e => exact content.settle r e
  | cancel t => exact content.cancel t
  | _ => exact content

instance : IsPreorder Session KeepsContent where
  refl _ := id
  trans _ _ _ h h' := h' ∘ h

/-- Whatever a task does in its turn, until it leaves it, nothing goes wrong by that. -/
instance : Conduct KeepsContent where
  stroke h := h.content
  own _ _ := .of_eq rfl
  answered _ _ _ := .of_eq rfl
  invoked _ _ _ := .of_eq rfl
  counts _ _ _ := .of_eq rfl
  calls _ _ := .of_eq rfl
  opens _ _ _ content := content.of_tasks_eq rfl
  emit := Act.keepsTo_emit (fun _ _ => Stroke.content) (fun _ _ => .of_eq rfl) fun _ _ => .of_eq rfl

/-- Whoever has been asked to end stays so. -/
theorem Path.cancelling (h : s.Path s') (cancelling : s.loop.Cancelling) : s'.loop.Cancelling := by
  obtain ⟨t, x, hx, hc⟩ := cancelling
  obtain ⟨y, hy, _, asked⟩ := h.task hx
  exact ⟨t, y, hy, asked hc⟩

end Session
end LintBroker

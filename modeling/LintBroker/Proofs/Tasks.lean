import LintBroker.Session.Loop

/-!
# What the loop does to tasks

Whatever happens outside a task's own step leaves its job and its phase alone: requests are settled,
cancellations are left for later, and only a lint that waits for its round may hear of its members.
A loop *keeps* its tasks in this sense through every step but the own steps of a task, and those set
one phase and keep the rest.
-/
namespace LintBroker

/-- A task goes on as it was, though the round that it waits for may have proceeded, and though it
may have been asked to end. -/
structure Task.Keeps (x y : Task) : Prop where
  job : y.job = x.job
  phase : y.phase = x.phase ∨ ∃ g g', x.phase = .gathering g ∧ y.phase = .gathering g'
  cancelling : x.cancelling = true → y.cancelling = true

namespace Task.Keeps
variable {x y z : Task}

theorem refl (x : Task) : x.Keeps x := ⟨rfl, .inl rfl, id⟩

theorem trans (h : x.Keeps y) (h' : y.Keeps z) : x.Keeps z := by
  refine ⟨h'.job.trans h.job, ?_, fun hx => h'.cancelling (h.cancelling hx)⟩
  rcases h.phase with hp | ⟨g, g', hx, hy⟩
  · rw [← hp]
    exact h'.phase
  · rcases h'.phase with hp' | ⟨_, g'', _, hz⟩
    · exact .inr ⟨g, g', hx, hp'.trans hy⟩
    · exact .inr ⟨g, g'', hx, hz⟩

theorem phase_eq (h : x.Keeps y) (hx : ∀ g, x.phase ≠ .gathering g) : y.phase = x.phase := by
  rcases h.phase with hp | ⟨g, _, hg, _⟩
  · exact hp
  · exact absurd hg (hx g)

theorem phase_eq' (h : x.Keeps y) (hy : ∀ g, y.phase ≠ .gathering g) : y.phase = x.phase := by
  rcases h.phase with hp | ⟨_, g, _, hg⟩
  · exact hp
  · exact absurd hg (hy g)

end Task.Keeps

namespace Loop

/-- All tasks go on as they were; those that are new are lints that have not started. -/
structure Keeps (l l' : Loop) : Prop where
  forth : ∀ (t : TaskId) (x : Task), l.tasks[t]? = some x →
    ∃ y : Task, l'.tasks[t]? = some y ∧ x.Keeps y
  fresh : ∀ (t : TaskId) (y : Task), l.tasks[t]? = none → l'.tasks[t]? = some y →
    y.phase = .fresh ∧ ∃ c, y.job = .lint c

namespace Keeps
variable {l l' l'' : Loop}

theorem back (h : l.Keeps l') {t : TaskId} {y : Task} (hy : l'.tasks[t]? = some y) :
    (∃ x, l.tasks[t]? = some x ∧ x.Keeps y) ∨ (y.phase = .fresh ∧ ∃ c, y.job = .lint c) := by
  cases hx : l.tasks[t]? with
  | none => exact .inr (h.fresh t y hx hy)
  | some x =>
    obtain ⟨z, hz, hk⟩ := h.forth t x hx
    rw [hy, Option.some.injEq] at hz
    exact .inl ⟨x, rfl, hz ▸ hk⟩

/-- A task that makes a dispatch is not new. -/
theorem back_dispatch (h : l.Keeps l') {t : TaskId} {y : Task} {d : Dispatch}
    (hy : l'.tasks[t]? = some y) (hd : y.job = .dispatch d) :
    ∃ x, l.tasks[t]? = some x ∧ x.Keeps y := by
  rcases h.back hy with hx | ⟨_, c, hc⟩
  · exact hx
  · rw [hd] at hc
    cases hc

theorem refl (l : Loop) : l.Keeps l :=
  ⟨fun _ x hx => ⟨x, hx, .refl x⟩, fun _ _ hn hy => by simp [hn] at hy⟩

theorem trans (h : l.Keeps l') (h' : l'.Keeps l'') : l.Keeps l'' := by
  constructor
  · intro t x hx
    obtain ⟨y, hy, hxy⟩ := h.forth t x hx
    obtain ⟨z, hz, hyz⟩ := h'.forth t y hy
    exact ⟨z, hz, hxy.trans hyz⟩
  · intro t z hn hz
    rcases h'.back hz with ⟨y, hy, hyz⟩ | hz
    · obtain ⟨hp, c, hc⟩ := h.fresh t y hn hy
      refine ⟨?_, c, hyz.job.trans hc⟩
      rw [hyz.phase_eq (by simp [hp]), hp]
    · exact hz

theorem of_tasks_eq (h : l'.tasks = l.tasks) : l.Keeps l' :=
  ⟨fun _ x hx => ⟨x, h ▸ hx, .refl x⟩, fun _ _ hn hy => by simp [h, hn] at hy⟩

end Keeps

variable (l : Loop)

@[simp] theorem tasks_enqueue (r : Ready) : (l.enqueue r).tasks = l.tasks := rfl
@[simp] theorem tasks_openRequest (p : ProviderId) (t : TaskId) :
    (l.openRequest p t).tasks = l.tasks := rfl

theorem getElem?_changeTask (t u : TaskId) (f : Task → Task) :
    (l.changeTask t f).tasks[u]? = if t = u then l.tasks[u]?.map f else l.tasks[u]? := by
  simp [changeTask, Array.getElem?_modify]

theorem changeTask_changeTask (t : TaskId) (f g : Task → Task) :
    (l.changeTask t f).changeTask t g = l.changeTask t fun x => g (f x) := by
  unfold changeTask
  congr 1
  ext u <;> simp [Array.getElem_modify]
  grind

theorem keeps_changeTask {t : TaskId} {f : Task → Task}
    (h : ∀ x, l.tasks[t]? = some x → x.Keeps (f x)) : l.Keeps (l.changeTask t f) := by
  constructor
  · intro u x hx
    rw [getElem?_changeTask, hx]
    by_cases htu : t = u
    · subst htu
      exact ⟨f x, by simp, h x hx⟩
    · exact ⟨x, by simp [htu], .refl x⟩
  · intro u y hn hy
    rw [getElem?_changeTask, hn] at hy
    simp at hy

theorem keeps_leavePending (t : TaskId) : l.Keeps (l.leavePending t) :=
  l.keeps_changeTask fun _ _ => ⟨rfl, .inl rfl, fun _ => rfl⟩

theorem keeps_markCancelling (t : TaskId) : l.Keeps (l.markCancelling t) :=
  l.keeps_changeTask fun _ _ => ⟨rfl, .inl rfl, fun _ => rfl⟩

theorem keeps_passCancellation (t : TaskId) : l.Keeps (l.passCancellation t) :=
  l.keeps_changeTask fun _ _ => ⟨rfl, .inl rfl, id⟩

theorem keeps_settle (r : RequestId) (e : Settlement) : l.Keeps (l.settle r e) := by
  unfold settle
  split
  · split
    · exact .of_tasks_eq rfl
    · exact .refl l
  · exact .refl l

theorem keeps_cancelMember (t : TaskId) : l.Keeps (l.cancelMember t) := by
  unfold cancelMember
  split
  · exact .refl l
  · split
    · split
      · exact (l.keeps_markCancelling t).trans (keeps_settle _ _ _)
      · exact l.keeps_leavePending t
    · exact l.keeps_leavePending t

theorem keeps_cancelMembers (members : List TaskId) : l.Keeps (l.cancelMembers members) := by
  unfold cancelMembers
  induction members generalizing l with
  | nil => exact .refl l
  | cons t members ih => exact (l.keeps_cancelMember t).trans (ih _)

theorem keeps_setPhase_gathering {t : TaskId} {g : Gathering} (g' : Gathering)
    (h : ∀ x, l.tasks[t]? = some x → x.phase = .gathering g) :
    l.Keeps (l.setPhase t (.gathering g')) :=
  l.keeps_changeTask fun x hx => ⟨rfl, .inr ⟨g, g', h x hx, rfl⟩, id⟩

/-- What becomes of a task when one task is moved to a phase and all else is kept. -/
theorem Keeps.forth_turned {l l' : Loop} {t u : TaskId} {p : Phase} {x : Task}
    (h : (l.setPhase t p).Keeps l') (hx : l.tasks[u]? = some x) :
    ∃ y, l'.tasks[u]? = some y ∧ (t ≠ u → x.Keeps y) ∧
      (t = u → Task.Keeps { x with phase := p } y) := by
  have hz : (l.setPhase t p).tasks[u]? = some (if t = u then { x with phase := p } else x) := by
    rw [setPhase, getElem?_changeTask, hx]
    split <;> rfl
  obtain ⟨y, hy, hk⟩ := h.forth u _ hz
  exact ⟨y, hy, fun hn => by rwa [if_neg hn] at hk, fun he => by rwa [if_pos he] at hk⟩

theorem Keeps.back_turned {l l' : Loop} {t u : TaskId} {p : Phase} {y : Task}
    (h : (l.setPhase t p).Keeps l') (hy : l'.tasks[u]? = some y) :
    (∃ x, l.tasks[u]? = some x) ∨ (y.phase = .fresh ∧ ∃ c, y.job = .lint c) := by
  rcases h.back hy with ⟨z, hz, _⟩ | hf
  · rw [setPhase, getElem?_changeTask] at hz
    split at hz
    · obtain ⟨x, hx, _⟩ := Option.map_eq_some_iff.mp hz
      exact .inl ⟨x, hx⟩
    · exact .inl ⟨z, hz⟩
  · exact .inr hf

theorem phase_of_map {t : TaskId} {p : Phase} (h : l.tasks[t]?.map Task.phase = some p) :
    ∀ x, l.tasks[t]? = some x → x.phase = p := by
  intro x hx
  simpa [hx] using h

theorem keeps_cancel (t : TaskId) : l.Keeps (l.cancel t) := by
  unfold cancel
  split
  · rename_i g hg
    split
    · have members := l.keeps_cancelMembers g.members
      obtain ⟨x, hx, hp⟩ := Option.map_eq_some_iff.mp hg
      obtain ⟨y, hy, hxy⟩ := members.forth t x hx
      have gathers : ∃ g', y.phase = .gathering g' := by
        rcases hxy.phase with h | ⟨_, g', _, h⟩
        · exact ⟨g, h.trans hp⟩
        · exact ⟨g', h⟩
      obtain ⟨g', hg'⟩ := gathers
      refine members.trans (.trans ?_ (keeps_markCancelling _ t))
      refine keeps_setPhase_gathering (g := g') _ _ fun z hz => ?_
      rw [hy, Option.some.injEq] at hz
      exact hz ▸ hg'
    · exact l.keeps_leavePending t
  · exact l.keeps_cancelMember t

theorem keeps_memberEnded (parent member : TaskId) : l.Keeps (l.memberEnded parent member) := by
  unfold memberEnded
  split
  · rename_i g e hg _
    have heard := l.keeps_setPhase_gathering (g.afterMember e) (l.phase_of_map hg)
    dsimp only
    split
    · exact heard.trans (.of_tasks_eq rfl)
    · exact heard
  · exact .refl l

theorem keeps_spawn (name : Option String) (c : EditContext) :
    l.Keeps (l.spawn name (.lint c)) := by
  constructor
  · intro t x hx
    have ht : t < l.tasks.size := (Array.getElem?_eq_some_iff.mp hx).1
    exact ⟨x, by simp [spawn, Array.getElem?_push, Nat.ne_of_lt ht, hx], .refl x⟩
  · intro t y hn hy
    rw [spawn, tasks_enqueue, Array.getElem?_push] at hy
    split at hy
    · cases hy
      exact ⟨rfl, c, rfl⟩
    · simp [hn] at hy

theorem keeps_pause (t : TaskId) (next : Except Failure Unit → Reply) :
    (l.setPhase t (.paused next)).Keeps (l.pause t next) := .of_tasks_eq rfl

theorem keeps_await (t : TaskId) (r : RequestId) (next : Except Failure Value → Reply) :
    (l.setPhase t (.awaiting r next)).Keeps (l.await t r next) := by
  unfold await
  dsimp only
  split
  · exact (keeps_passCancellation _ t).trans (keeps_settle _ _ _)
  · exact .refl _

theorem keeps_wake (t : TaskId) : (l.setPhase t .running).Keeps (l.wake t) := by
  have pass := keeps_passCancellation (l.setPhase t .running) t
  rwa [passCancellation, setPhase, changeTask_changeTask] at pass

theorem tasks_spawnAll (ds : List Dispatch) :
    (l.spawnAll ds).tasks =
      l.tasks ++ (ds.map fun d => { name := none, job := .dispatch d : Task }).toArray := by
  unfold spawnAll
  induction ds generalizing l with
  | nil => simp
  | cons d ds ih =>
    rw [List.foldl_cons, ih]
    simp [spawn]

theorem forth_spawnAll {t : TaskId} {x : Task} (ds : List Dispatch) (h : l.tasks[t]? = some x) :
    (l.spawnAll ds).tasks[t]? = some x := by
  rw [tasks_spawnAll, Array.getElem?_append_left (Array.getElem?_eq_some_iff.mp h).1, h]

theorem back_spawnAll {t : TaskId} {y : Task} {ds : List Dispatch}
    (h : (l.spawnAll ds).tasks[t]? = some y) :
    l.tasks[t]? = some y ∨
      ∃ i d, ds[i]? = some d ∧ t = l.tasks.size + i ∧ y = { name := none, job := .dispatch d } := by
  rw [tasks_spawnAll, Array.getElem?_append] at h
  split at h
  · exact .inl h
  · simp only [List.getElem?_toArray, List.getElem?_map, Option.map_eq_some_iff] at h
    obtain ⟨d, hd, rfl⟩ := h
    exact .inr ⟨t - l.tasks.size, d, hd, (Nat.add_sub_cancel' (Nat.le_of_not_lt ‹_›)).symm, rfl⟩

theorem keeps_gather (t : TaskId) (ds : List Dispatch) :
    ∃ g, ((l.spawnAll ds).setPhase t (.gathering g)).Keeps (l.gather t ds) := by
  refine ⟨⟨(List.range ds.length).map fun n => l.tasks.size + n, 0, l.isCancelPending t, none⟩, ?_⟩
  unfold gather
  dsimp only
  split
  · exact (keeps_passCancellation _ t).trans (keeps_cancelMembers _ _)
  · exact .refl _

theorem keeps_finish (t : TaskId) (e : Ending) :
    (l.setPhase t (.ended e)).Keeps (l.finish t e) := by
  have pass := keeps_passCancellation (l.setPhase t (.ended e)) t
  rw [passCancellation, setPhase, changeTask_changeTask] at pass
  unfold finish
  dsimp only
  split
  · exact pass.trans (.of_tasks_eq rfl)
  · exact pass

/-- All tasks but one go on as they were, and those that are new have not started. -/
structure KeepsOthers (l : Loop) (t : TaskId) (l' : Loop) : Prop where
  forth : ∀ (u : TaskId) (x : Task), u ≠ t → l.tasks[u]? = some x →
    ∃ y : Task, l'.tasks[u]? = some y ∧ x.Keeps y
  fresh : ∀ (u : TaskId) (y : Task), u ≠ t → l.tasks[u]? = none → l'.tasks[u]? = some y →
    y.phase = .fresh

namespace KeepsOthers
variable {l l' l'' : Loop} {t : TaskId}

theorem of_keeps (h : l.Keeps l') : l.KeepsOthers t l' :=
  ⟨fun u x _ => h.forth u x, fun u y _ hn hy => (h.fresh u y hn hy).1⟩

theorem of_turned {p : Phase} (h : (l.setPhase t p).Keeps l') : l.KeepsOthers t l' := by
  constructor
  · intro u x hu hx
    obtain ⟨y, hy, kept, _⟩ := h.forth_turned hx
    exact ⟨y, hy, kept (Ne.symm hu)⟩
  · intro u y _ hn hy
    rcases h.back_turned hy with ⟨x, hx⟩ | ⟨hf, _⟩
    · simp [hn] at hx
    · exact hf

theorem trans (h : l.KeepsOthers t l') (h' : l'.KeepsOthers t l'') : l.KeepsOthers t l'' := by
  constructor
  · intro u x hu hx
    obtain ⟨y, hy, hxy⟩ := h.forth u x hu hx
    obtain ⟨z, hz, hyz⟩ := h'.forth u y hu hy
    exact ⟨z, hz, hxy.trans hyz⟩
  · intro u z hu hn hz
    cases hy : l'.tasks[u]? with
    | none => exact h'.fresh u z hu hy hz
    | some y =>
      have hf := h.fresh u y hu hn hy
      obtain ⟨w, hw, hyw⟩ := h'.forth u y hu hy
      rw [hz, Option.some.injEq] at hw
      subst hw
      rw [hyw.phase_eq (by simp [hf]), hf]

end KeepsOthers

theorem keepsOthers_gather (t : TaskId) (ds : List Dispatch) :
    l.KeepsOthers t (l.gather t ds) := by
  obtain ⟨g, hk⟩ := l.keeps_gather t ds
  have spawned : l.KeepsOthers t (l.spawnAll ds) := by
    constructor
    · intro u x _ hx
      exact ⟨x, l.forth_spawnAll ds hx, .refl x⟩
    · intro u y _ hn hy
      rcases l.back_spawnAll hy with hy | ⟨_, _, _, _, rfl⟩
      · simp [hn] at hy
      · rfl
  exact spawned.trans (.of_turned hk)

end Loop
end LintBroker

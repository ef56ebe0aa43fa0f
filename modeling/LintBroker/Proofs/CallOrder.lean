import LintBroker.Proofs.FirstCome
import LintBroker.Proofs.Rounds
import LintBroker.Proofs.Invocations

/-!
# Providers are called in the order in which they began

A lint announces the beginning of its dispatches one by one and makes their tasks in that order at
the end of the same turn; a task calls its provider in its first turn or not at all, before it can
give way for the first time. Since first turns come in the order in which the tasks were made, the
calls are a sublist of the beginnings at every moment, across all providers and all lints.
-/
namespace LintBroker

/-- The dispatch that called its provider, and the provider, if the entry tells of that. -/
def Entry.invocation? : Entry → Option (Dispatch × ProviderId)
  | .invoked d p => some (d, p)
  | _ => none

def invocations (J : List Entry) : List (Dispatch × ProviderId) := J.filterMap Entry.invocation?

def Job.dispatch? : Job → Option Dispatch
  | .lint _ => none
  | .dispatch d => some d

namespace Loop
variable {l l' : Loop} {t k : Nat}

/-- The dispatches that tasks were made for, in the order of the tasks. -/
def dispatches (l : Loop) : List Dispatch := l.tasks.toList.filterMap fun x => x.job.dispatch?

/-- The dispatches that tasks below the bound were made for. -/
def dispatchesBelow (l : Loop) (k : Nat) : List Dispatch :=
  (l.tasks.toList.take k).filterMap fun x => x.job.dispatch?

theorem dispatchesBelow_sublist (l : Loop) (k : Nat) : (l.dispatchesBelow k).Sublist l.dispatches :=
  (List.take_sublist k _).filterMap _

theorem dispatchesBelow_succ {x : Task} (hx : l.tasks[k]? = some x) :
    l.dispatchesBelow (k + 1) = l.dispatchesBelow k ++ x.job.dispatch?.toList := by
  have last : l.tasks.toList[k]? = some x := by simpa using hx
  rw [dispatchesBelow, List.take_add_one, last, List.filterMap_append]
  cases h : x.job.dispatch? <;> simp [dispatchesBelow, h]

theorem dispatchesBelow_congr (bound : k ≤ l.tasks.size) (jobs : ∀ (t : TaskId) (x : Task),
    l.tasks[t]? = some x → ∃ y, l'.tasks[t]? = some y ∧ y.job = x.job) :
    l'.dispatchesBelow k = l.dispatchesBelow k := by
  have same : (l'.tasks.toList.take k).map Task.job = (l.tasks.toList.take k).map Task.job := by
    refine List.ext_getElem? fun i => ?_
    simp only [List.getElem?_map, List.getElem?_take, Array.getElem?_toList]
    split
    · rename_i hi
      obtain ⟨x, hx⟩ : ∃ x, l.tasks[i]? = some x := ⟨_, Array.getElem?_eq_getElem (by omega)⟩
      obtain ⟨y, hy, job⟩ := jobs i x hx
      simp [hx, hy, job]
    · rfl
  have through (l : Loop) : l.dispatchesBelow k =
      ((l.tasks.toList.take k).map Task.job).filterMap Job.dispatch? := by
    rw [dispatchesBelow, List.filterMap_map]
    rfl
  rw [through, through, same]

theorem dispatchesBelow_size (l : Loop) : l.dispatchesBelow l.tasks.size = l.dispatches := by
  rw [dispatchesBelow, ← Array.length_toList, List.take_length, dispatches]

theorem dispatches_of_keeps (h : l.Keeps l') : l'.dispatches = l.dispatches := by
  have forth (t : TaskId) (x : Task) (hx : l.tasks[t]? = some x) :
      ∃ y, l'.tasks[t]? = some y ∧ y.job = x.job := by
    obtain ⟨y, hy, hxy⟩ := h.forth t x hx
    exact ⟨y, hy, hxy.job⟩
  have old := dispatchesBelow_congr (Nat.le_refl l.tasks.size) forth
  have new : (l'.tasks.toList.drop l.tasks.size).filterMap (fun x => x.job.dispatch?) = [] := by
    rw [List.filterMap_eq_nil_iff]
    intro y hy
    obtain ⟨i, hi⟩ := List.mem_iff_getElem?.mp hy
    rw [List.getElem?_drop, Array.getElem?_toList] at hi
    obtain ⟨_, c, hc⟩ := h.fresh _ y (by simp) hi
    rw [hc]
    rfl
  calc l'.dispatches
      = l'.dispatchesBelow l.tasks.size ++
          (l'.tasks.toList.drop l.tasks.size).filterMap (fun x => x.job.dispatch?) := by
        rw [dispatchesBelow, ← List.filterMap_append, List.take_append_drop, Loop.dispatches]
    _ = l.dispatches := by rw [new, List.append_nil, old, dispatchesBelow_size]

theorem dispatches_setPhase (l : Loop) (t : TaskId) (p : Phase) :
    (l.setPhase t p).dispatches = l.dispatches := by
  have size : (l.setPhase t p).tasks.size = l.tasks.size := by simp [setPhase, changeTask]
  rw [← dispatchesBelow_size, size, ← l.dispatchesBelow_size]
  refine dispatchesBelow_congr (Nat.le_refl _) fun u x hx => ?_
  rw [setPhase, getElem?_changeTask, hx]
  split
  · exact ⟨_, rfl, rfl⟩
  · exact ⟨x, rfl, rfl⟩

theorem dispatches_turned {p : Phase} (h : (l.setPhase t p).Keeps l') :
    l'.dispatches = l.dispatches :=
  (dispatches_of_keeps h).trans (l.dispatches_setPhase t p)

theorem dispatches_gather (l : Loop) (t : TaskId) (ds : List Dispatch) :
    (l.gather t ds).dispatches = l.dispatches ++ ds := by
  obtain ⟨g, h⟩ := l.keeps_gather t ds
  rw [dispatches_turned h, dispatches, tasks_spawnAll, Array.toList_append, List.filterMap_append,
    List.filterMap_map]
  congr 1
  exact List.filterMap_some

end Loop

namespace Session
variable {s s' s₀ : Session} {d : Dispatch} {p : ProviderId} {t : TaskId} {k : Nat}

/-! ### Who is called in a turn -/

theorem Change.invocations (h : s.Change s') :
    LintBroker.invocations s'.history = LintBroker.invocations s.history := by
  cases h with
  | @note e plain =>
    have : e.invocation? = none := by cases e <;> first | rfl | cases plain
    simp [LintBroker.invocations, this]
  | reshape | alter | register | remove | dispose =>
    simp [LintBroker.invocations, Entry.invocation?]
  | _ => rfl

def CallsNobody (s s' : Session) : Prop := invocations s'.history = invocations s.history

instance : IsPreorder Session CallsNobody where
  refl _ := rfl
  trans _ _ _ h h' := h'.trans h

theorem Changes.callsNobody (h : s.Changes s') : s.CallsNobody s' := by
  induction h with
  | refl => exact refl s
  | tail _ change ih => exact change.invocations.trans ih

theorem callsNobody_noted {e : Entry} (h : e.invocation? = none) (s : Session) :
    s.CallsNobody (s.noted e) := by
  simp [CallsNobody, invocations, h]

/-- Nothing that a task does calls anyone, but for the call of its own provider. -/
instance : Manner CallsNobody where
  stroke h := h.deeds.changes.callsNobody
  own h s := callsNobody_noted (by rename_i e; cases e <;> first | rfl | cases h) s
  answered _ _ s := callsNobody_noted rfl s
  counts _ _ _ := rfl
  calls _ _ := rfl
  emit handling d n s := by
    have called : CallsNobody (s.noted (.emitted d n)) ((Act.emit handling d n).exec s).2 :=
      (Act.changes_emit handling d n s).callsNobody
    exact called.trans (callsNobody_noted rfl s)

instance (t : TaskId) : Custom t CallsNobody where
  work _ := rfl

/-- Nobody was called but by the dispatch, and by it once. -/
def CallsFor (d : Dispatch) (s s' : Session) : Prop :=
  ∃ calls, invocations s'.history = invocations s.history ++ calls ∧
    (calls.map Prod.fst).Sublist [d]

theorem CallsNobody.callsFor (h : s.CallsNobody s') : CallsFor d s s' :=
  ⟨[], h.trans (List.append_nil _).symm, List.nil_sublist _⟩

theorem CallsFor.after {u : Session} (h : CallsFor d s s') (first : u.CallsNobody s) :
    CallsFor d u s' := by
  obtain ⟨calls, hc, one⟩ := h
  exact ⟨calls, hc.trans (congrArg (· ++ calls) first), one⟩

theorem CallsFor.before {u : Session} (h : CallsFor d s s') (last : s'.CallsNobody u) :
    CallsFor d s u := by
  obtain ⟨calls, hc, one⟩ := h
  exact ⟨calls, last.trans hc, one⟩

theorem callsFor_ask (d : Dispatch) (p : ProviderId) (s : Session) :
    CallsFor d s ((Dispatch.ask d p).exec s).2 := by
  have nobody : CallsFor d s s := CallsNobody.callsFor rfl
  unfold Dispatch.ask
  refine Act.exec_bind_read (Act.exec_attributes p s) nobody fun a _ => ?_
  refine Act.exec_bind_read (Act.exec_take _) nobody fun lint _ => ?_
  cases lint with
  | value v => exact nobody
  | method =>
    rw [Act.exec_bind_ok Act.exec_get]
    cases hp : s.host.providers.get? p with
    | none => simpa [Act.exec_bind] using nobody
    | some x =>
      refine ⟨[(d, p)], ?_, List.Sublist.refl _⟩
      simp [Act.exec_bind, invocations, Entry.invocation?]

theorem callsFor_start (d : Dispatch) (p : ProviderId) (t : TaskId) (s : Session) :
    CallsFor d s ((Dispatch.start d p t).run s).2 := by
  have asked := callsFor_ask d p s
  rw [Dispatch.start, Act.run_bind_exec]
  cases ((Dispatch.ask d p).exec s).1 with
  | error f => exact asked
  | ok reply => exact asked.before (Dispatch.habit_advance p t reply _)

theorem callsFor_startDispatch (d : Dispatch) (t : TaskId) (s : Session) :
    CallsFor d s ((startDispatch d t).run s).2 := by
  have ends (r : Except Failure Bool) (s : Session) : s.CallsNobody ((finish t r).run s).2 :=
    habit_finish t r s
  have same := exec_provider_silent d s
  rw [startDispatch, Act.run_bind_exec]
  cases ((Dispatch.provider d).exec s).1 with
  | error f =>
    rw [same]
    exact (ends _ _).callsFor
  | ok p =>
    rw [same]
    have announced : s.CallsNobody ((Dispatch.announce d p).exec s).2 := Dispatch.habit_announce d p s
    show CallsFor d s (((Dispatch.announce d p).run >>= _ : StateM Session Unit).run s).2
    rw [Act.run_bind_exec]
    cases ((Dispatch.announce d p).exec s).1 with
    | error f => exact (ends _ _).callsFor.after announced
    | ok _ =>
      have started := callsFor_start d p t ((Dispatch.announce d p).exec s).2
      exact (started.before (habit_follow d p t _
        fun _ _ h => Dispatch.own_start d p t (Prod.ext h rfl))).after announced

theorem callsFor_resume {x : Task} (fresh : x.phase = .fresh) (hd : x.job = .dispatch d) (t : TaskId)
    (s : Session) : CallsFor d s ((resume t x).run s).2 := by
  cases asked : x.cancelPending with
  | true =>
    rw [resume_cancelled fresh asked]
    exact (habit_finish (R := CallsNobody) t _ s).callsFor
  | false =>
    rw [resume_dispatch fresh hd asked]
    exact callsFor_startDispatch d t s

/-! ### Turns in order -/

/-- What is first come stays so. -/
def KeepsOrder (k : Nat) (s s' : Session) : Prop := s.loop.FirstCome k → s'.loop.FirstCome k

theorem KeepsOrder.of_eq (h : s'.loop = s.loop) : KeepsOrder k s s' := fun order => h ▸ order

theorem Stroke.keepsOrder (h : Stroke s s') : KeepsOrder k s s' := by
  intro order
  cases h with
  | quiet h => exact h.loop ▸ order
  | spawn name c => exact order.spawn name _
  | settle r e => exact order.settle r e
  | cancel t => exact order.cancel t
  | _ => exact order

instance : IsPreorder Session (KeepsOrder k) where
  refl _ := id
  trans _ _ _ h h' := h' ∘ h

instance : Calling (KeepsOrder k) where
  stroke h := h.keepsOrder
  own _ _ := .of_eq rfl
  answered _ _ _ := .of_eq rfl
  invoked _ _ _ := .of_eq rfl
  counts _ _ _ := .of_eq rfl
  calls _ _ := .of_eq rfl
  emit := Act.keepsTo_emit (fun _ _ => Stroke.keepsOrder) (fun _ _ => .of_eq rfl)
    fun _ _ => .of_eq rfl

theorem custom_keepsOrder (started : t < k) : Custom t (KeepsOrder k) where
  work h order := order.work started h

/-- In a tick nobody is called; or it is the next task's first turn, and its dispatch calls its
provider at most once. -/
theorem firstCome_tick (h : s.loop.FirstCome k) :
    s.tick.loop.FirstCome k ∧ s.CallsNobody s.tick ∨
      ∃ x, s.loop.tasks[k]? = some x ∧ s.tick.loop.FirstCome (k + 1) ∧
        ∃ calls, invocations s.tick.history = invocations s.history ++ calls ∧
          (calls.map Prod.fst).Sublist x.job.dispatch?.toList := by
  unfold tick
  split
  · exact .inl ⟨h, rfl⟩
  · rename_i r rest hr
    let popped := s.onLoop fun l => { l with ready := rest }
    cases r with
    | memberEnded parent member => exact .inl ⟨(h.pop hr (by simp)).memberEnded parent member, rfl⟩
    | step t =>
      by_cases new : k ≤ t
      · obtain ⟨rfl, made, order⟩ := h.popNew hr new
        obtain ⟨x, hx⟩ : ∃ x, popped.loop.tasks[t]? = some x := ⟨_, Array.getElem?_eq_getElem made⟩
        have fresh : x.phase = .fresh := (h.fresh t x hx).mpr (Nat.le_refl t)
        refine .inr ⟨x, hx, ?_, ?_⟩
        · have := custom_keepsOrder (Nat.lt_succ_self t)
          rcases habit_turn (R := KeepsOrder (t + 1)) (s := popped) hx with goes | ⟨_, idles⟩
          · exact goes order
          · simp [Task.Idles, fresh] at idles
        · cases hd : x.job with
          | lint c =>
            refine ⟨[], ?_, List.nil_sublist _⟩
            have goes := habit_turn_of_first (R := CallsNobody) (s := popped) hx fun d _ => by simp [hd]
            rw [List.append_nil]
            rcases goes with goes | ⟨same, _⟩
            · exact goes
            · exact congrArg (fun s => invocations s.history) same
          | dispatch d =>
            have called := callsFor_resume fresh hd t (popped.onLoop fun l => l.wake t)
            show ∃ calls, invocations ((step t).run popped).2.history = _ ∧ _
            rw [run_step_some hx]
            exact called
      · have started : t < k := Nat.lt_of_not_le new
        have := custom_keepsOrder started
        refine .inl ⟨habit_step (R := KeepsOrder k) t popped (h.pop hr ?_), ?_⟩
        · rintro _ ⟨⟩
          exact started
        · show popped.CallsNobody ((step t).run popped).2
          cases hx : popped.loop.tasks[t]? with
          | none =>
            rw [run_step_none hx]
            rfl
          | some x =>
            have old : x.phase ≠ .fresh := fun fresh => new ((h.fresh t x hx).mp fresh)
            rcases habit_turn_of_first (R := CallsNobody) hx fun _ fresh => absurd fresh old with
              goes | ⟨same, _⟩
            · exact goes
            · exact congrArg (fun s => invocations s.history) same

/-! ### Calls and beginnings -/

/-- Tasks were made for dispatches in the order in which these were opened and began, and only those
of tasks that have started have called their providers, in the order of the tasks. -/
structure InTurn (s : Session) (k : Nat) : Prop where
  order : s.loop.FirstCome k
  opened : s.loop.dispatches.Sublist (opened s.history)
  began : s.loop.dispatches.Sublist ((begunIn s.history).map Prod.fst)
  called : ((invocations s.history).map Prod.fst).Sublist (s.loop.dispatchesBelow k)

theorem inTurn_opening (s : Session) : s.opening.InTurn 0 := by
  refine ⟨⟨Nat.le_refl 0, ?_, rfl, ?_⟩, List.nil_sublist _, List.nil_sublist _, List.nil_sublist _⟩
  · simp [opening]
  · simp [opening]

/-- The dispatches that a beat makes tasks for were opened and began in it, in the order of the
tasks. -/
theorem Beat.dispatches {K : List Entry} (h : s.Beat K s') : s'.history = s.history ++ K ∧
    (s'.loop.dispatches = s.loop.dispatches ∨
      s'.loop.dispatches = s.loop.dispatches ++ LintBroker.opened K ∧
        (begunIn K).map Prod.fst = LintBroker.opened K) := by
  cases h with
  | acts way silent => exact ⟨way.history, .inl (Loop.dispatches_of_keeps way.loop.toKeeps)⟩
  | skips hr => exact ⟨by simp, .inl rfl⟩
  | @hears t u rest hr =>
    have heard := Loop.dispatches_of_keeps (Loop.keeps_memberEnded { s.loop with ready := rest } t u)
    exact ⟨by simp, .inl heard⟩
  | @turns t rest x _ _ hr hx before part =>
    obtain ⟨s₁, account, ends⟩ := part
    have woken : (s.woken t).loop.dispatches = s.loop.dispatches := by
      let popped : Loop := { s.loop with ready := s.loop.ready.tail }
      exact Loop.dispatches_turned (l := popped) (popped.keeps_wake t)
    have same : s₁.loop.dispatches = s.loop.dispatches :=
      (Loop.dispatches_of_keeps account.loop.toKeeps).trans woken
    have history : s₁.history = s.history ++ K := account.history
    cases ends with
    | ends e =>
      exact ⟨history, .inl ((Loop.dispatches_turned (s₁.loop.keeps_finish t e)).trans same)⟩
    | pauses _ _ next =>
      exact ⟨history, .inl ((Loop.dispatches_turned (s₁.loop.keeps_pause t next)).trans same)⟩
    | awaits _ _ r next =>
      exact ⟨history, .inl ((Loop.dispatches_turned (s₁.loop.keeps_await t r next)).trans same)⟩
    | @gathers c ds _ _ _ round _ began =>
      subst round
      refine ⟨history, .inr ⟨?_, began⟩⟩
      rw [loop_onLoop, Loop.dispatches_gather, same]

/-- After a move the tasks are in turn as before, and all calls so far are of dispatches that had
begun before the move. -/
theorem InTurn.move (h : s.InTurn k) (path : s₀.opening.Comes s) (m : Move) :
    (∃ k, (s.move m).InTurn k) ∧ ((invocations (s.move m).history).map Prod.fst).Sublist
      ((begunIn s.history).map Prod.fst) := by
  have c := s₀.coherent_opening.path path.path
  obtain ⟨K, beat⟩ := c.beat_move m
  obtain ⟨history, made⟩ := beat.dispatches
  have opened : (s.move m).loop.dispatches.Sublist (LintBroker.opened (s.move m).history) := by
    rw [history, opened_append]
    rcases made with same | ⟨more, _⟩
    · exact same ▸ h.opened.trans (List.sublist_append_left _ _)
    · exact more ▸ h.opened.append (.refl _)
  have began : (s.move m).loop.dispatches.Sublist
      ((begunIn (s.move m).history).map Prod.fst) := by
    rw [history, begunIn_append, List.map_append]
    rcases made with same | ⟨more, began⟩
    · exact same ▸ h.began.trans (List.sublist_append_left _ _)
    · exact more ▸ h.began.append (began ▸ .refl _)
  -- the tasks that were there make the dispatches that they made
  have below {j : Nat} (hj : j ≤ s.loop.tasks.size) :
      (s.move m).loop.dispatchesBelow j = s.loop.dispatchesBelow j :=
    Loop.dispatchesBelow_congr hj fun t x hx => by
      obtain ⟨y, hy, job, _⟩ := Path.task (comes_move c path.idle m).path hx
      exact ⟨y, hy, job⟩
  have ends {j : Nat} (order : (s.move m).loop.FirstCome j) (hj : j ≤ s.loop.tasks.size)
      (called : ((invocations (s.move m).history).map Prod.fst).Sublist (s.loop.dispatchesBelow j)) :
      (∃ k, (s.move m).InTurn k) ∧ ((invocations (s.move m).history).map Prod.fst).Sublist
        ((begunIn s.history).map Prod.fst) :=
    ⟨⟨j, order, opened, began, below hj ▸ called⟩,
      called.trans ((s.loop.dispatchesBelow_sublist j).trans h.began)⟩
  cases m with
  | act a =>
    have nobody : s.CallsNobody (s.move (.act a)) := habit_perform a s
    have order : KeepsOrder k s (s.move (.act a)) := habit_perform a s
    refine ends (order h.order) h.order.bound ?_
    rw [nobody]
    exact h.called
  | tick =>
    rcases firstCome_tick h.order with ⟨order, nobody⟩ | ⟨x, hx, order, calls, hc, one⟩
    · refine ends order h.order.bound ?_
      show ((invocations s.tick.history).map Prod.fst).Sublist _
      rw [nobody]
      exact h.called
    · refine ends order (Array.getElem?_eq_some_iff.mp hx).1 ?_
      show ((invocations s.tick.history).map Prod.fst).Sublist _
      rw [hc, List.map_append, Loop.dispatchesBelow_succ hx]
      exact h.called.append one

/-- At every moment of a run the calls so far are of dispatches that have begun, in the same order. -/
theorem called_in_order (path : s₀.opening.Comes s) (h : s.InTurn k)
    (ordered : ∀ J, J <+: s.history →
      ((invocations J).map Prod.fst).Sublist ((begunIn J).map Prod.fst)) (moves : List Move) :
    (∃ k, (s.run moves).InTurn k) ∧ ∀ J, J <+: (s.run moves).history →
      ((invocations J).map Prod.fst).Sublist ((begunIn J).map Prod.fst) := by
  induction moves generalizing s k with
  | nil => exact ⟨⟨k, h⟩, ordered⟩
  | cons m moves ih =>
    have c := s₀.coherent_opening.path path.path
    have next := comes_move c path.idle m
    obtain ⟨⟨k', h'⟩, all⟩ := h.move path m
    refine ih (next.after path.path) h' fun J hJ => ?_
    obtain ⟨K, hK⟩ := Path.history_prefix next.path
    rcases List.prefix_or_prefix_of_prefix hJ ⟨K, hK.symm⟩ with earlier | later
    · exact ordered J earlier
    · have fewer : ((invocations J).map Prod.fst).Sublist
          ((invocations (s.move m).history).map Prod.fst) := (hJ.sublist.filterMap _).map _
      have more : ((begunIn s.history).map Prod.fst).Sublist ((begunIn J).map Prod.fst) :=
        (later.sublist.filterMap _).map _
      exact (fewer.trans all).trans more

/-- What is promised about the calls of providers. -/
structure CallsInOrder (s : Session) : Prop where
  /-- At every moment the calls so far are of dispatches that have begun, and in the order in which
  they began, each of the provider whose beginning was announced. -/
  ordered : ∀ J, J <+: s.history → (invocations J).Sublist (begunIn J)
  /-- No dispatch begins twice, so that each calls at most once. -/
  distinct : ((begunIn s.history).map fun x => x.1.key).Nodup
  /-- A call is made for the context of the lint that opened the dispatch. -/
  context : ∀ d p, .invoked d p ∈ s.history →
    ∃ x, s.loop.tasks[d.round]? = some x ∧ x.job = .lint d.context
  /-- A provider is called in the order of its registrations and of their generations. -/
  generations : (invocations s.history).Pairwise fun x y => x.2 = y.2 → x.1.key.Before y.1.key

/-- What is known when a beginning is announced. -/
theorem Step.began {v : Value} (h : s.Step s')
    (hJ : s'.history = s.history ++ [.emitted d (.begin p v)]) : s.Stands d.key .opened := by
  cases h with
  | change h =>
    have := h.mark?_of_concat hJ
    simp [Entry.mark?] at this
  | begins _ _ stage =>
    simp only [history_noted, List.append_cancel_left_eq, List.cons.injEq, and_true,
      Entry.emitted.injEq] at hJ
    exact hJ.1 ▸ stage
  | surfaces | closes => simp at hJ
  | _ => simp at hJ

theorem nodup_begunIn (h : s₀.opening.Path s) :
    ((begunIn s.history).map fun x => x.1.key).Nodup := by
  have once : s.history.Pairwise fun e e' => ∀ x y, e.beginning? = some x → e'.beginning? = some y →
      x.1.key ≠ y.1.key := by
    refine pairwise_of_splits ?_
    rintro J₁ e J₂ e' hJ hm ⟨d, p⟩ ⟨d', p'⟩ he he' hk
    obtain ⟨v, rfl⟩ : ∃ v, e = .emitted d (.begin p v) := by
      unfold Entry.beginning? at he
      split at he <;> simp at he
      obtain ⟨rfl, rfl⟩ := he
      exact ⟨_, rfl⟩
    obtain ⟨v', rfl⟩ : ∃ v, e' = .emitted d' (.begin p' v) := by
      unfold Entry.beginning? at he'
      split at he' <;> simp at he'
      obtain ⟨rfl, rfl⟩ := he'
      exact ⟨_, rfl⟩
    obtain ⟨u, w, _, _, step, _, rfl, hJw⟩ := step_of_split h hJ
    have begun : Mark.begun ∈ life d.key u.history := mem_life hm rfl
    have stage : u.Stands d'.key .opened := step.began hJw
    have hk : d.key = d'.key := hk
    rw [hk, stage] at begun
    simp [Stage.marks] at begun
  exact (once.filterMap _ fun _ _ differ x hx y hy => differ x y hx hy).map _ fun _ _ => id

/-- What is known of a call. -/
theorem known_of_invoked (h : s₀.opening.Path s) (hm : .invoked d p ∈ s.history) :
    .dispatched d ∈ s.history ∧ s.providerOf d.record = some p := by
  obtain ⟨J₁, J₂, hJ⟩ := List.append_of_mem hm
  obtain ⟨u, v, _, c, step, path, _, hJv⟩ := step_of_split h hJ
  obtain ⟨t, runs, hp⟩ := step.invoked hJv
  have path : u.Path s := .head step path
  exact ⟨path.mem_history (c.dispatched_of_runs runs), path.providerOf hp⟩

theorem mem_invocations_iff {J : List Entry} : (d, p) ∈ invocations J ↔ .invoked d p ∈ J := by
  simp only [invocations, List.mem_filterMap]
  constructor
  · rintro ⟨e, he, hd⟩
    cases e <;> simp [Entry.invocation?] at hd
    obtain ⟨rfl, rfl⟩ := hd
    exact he
  · exact fun h => ⟨_, h, rfl⟩

theorem mem_begunIn_iff {J : List Entry} :
    (d, p) ∈ begunIn J ↔ ∃ v, .emitted d (.begin p v) ∈ J := by
  simp only [begunIn, List.mem_filterMap]
  constructor
  · rintro ⟨e, he, hd⟩
    unfold Entry.beginning? at hd
    split at hd <;> simp at hd
    obtain ⟨rfl, rfl⟩ := hd
    exact ⟨_, he⟩
  · rintro ⟨v, h⟩
    exact ⟨_, h, rfl⟩

theorem sublist_of_fst {α β : Type} {f : α → β} {xs ys : List (α × β)} (hx : ∀ x ∈ xs, f x.1 = x.2)
    (hy : ∀ y ∈ ys, f y.1 = y.2) (h : (xs.map Prod.fst).Sublist (ys.map Prod.fst)) :
    xs.Sublist ys := by
  have whole {zs : List (α × β)} (hz : ∀ z ∈ zs, f z.1 = z.2) :
      (zs.map Prod.fst).map (fun a => (a, f a)) = zs := by
    rw [List.map_map]
    calc zs.map ((fun a => (a, f a)) ∘ Prod.fst)
        = zs.map id := List.map_congr_left fun z hz' => Prod.ext rfl (hz z hz')
      _ = zs := List.map_id zs
  rw [← whole hx, ← whole hy]
  exact h.map _

/-- In every run, with any number of lints at once, providers are called in the order in which their
dispatches began, each at most once and none before. -/
theorem calls_in_begin_order (s : Session) (moves : List Move) :
    (s.opening.run moves).CallsInOrder := by
  have h := (s.comes_opening moves).path
  have c := s.coherent_run moves
  obtain ⟨⟨k, turn⟩, all⟩ := called_in_order (comes_start s) (inTurn_opening s)
    (fun J hJ => by rw [List.prefix_nil.mp hJ]; exact .refl _) moves
  refine ⟨fun J hJ => ?_, nodup_begunIn h, fun d p hm => ?_, ?_⟩
  · refine sublist_of_fst (f := fun d => ((s.opening.run moves).providerOf d.record).getD default)
      ?_ ?_ (all J hJ)
    · rintro ⟨d, p⟩ hm
      simp [(known_of_invoked h (hJ.subset (mem_invocations_iff.mp hm))).2]
    · rintro ⟨d, p⟩ hm
      obtain ⟨v, hm⟩ := mem_begunIn_iff.mp hm
      simp [c.provider (hJ.subset hm), Notice.provider]
  · obtain ⟨z, hz, job, _⟩ := Path.opener h (known_of_invoked h hm).1
    exact ⟨z, hz, job⟩
  · have opened : ((invocations (s.opening.run moves).history).map Prod.fst).Sublist
        (LintBroker.opened (s.opening.run moves).history) :=
      turn.called.trans ((Loop.dispatchesBelow_sublist _ _).trans turn.opened)
    have earlier : (LintBroker.opened (s.opening.run moves).history).Pairwise fun d d' =>
        (s.opening.run moves).providerOf d.record = (s.opening.run moves).providerOf d'.record →
          d.key.Before d'.key :=
      (opened_pairwise h).filterMap _ fun e e' before d hd d' hd' =>
        before d d' (Entry.eq_of_opened? hd) (Entry.eq_of_opened? hd')
    refine (List.pairwise_map.mp (earlier.sublist opened)).imp_of_mem fun {x y} hx hy before same => ?_
    have hpx := (known_of_invoked h (mem_invocations_iff.mp hx)).2
    have hpy := (known_of_invoked h (mem_invocations_iff.mp hy)).2
    exact before (by rw [hpx, hpy, same])

end Session
end LintBroker

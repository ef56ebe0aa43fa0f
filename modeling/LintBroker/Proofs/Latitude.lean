import LintBroker.Proofs.Transition

/-!
# Loops that are alike

Two runs may differ in how the requests of providers are settled and in how their replies go on. How
far, is their *latitude*. Loops are alike within a latitude if they have the same queue, and tasks and
requests that differ in no more than that. Every operation of the loop keeps them so.
-/
namespace LintBroker

/-- How two runs may differ: in what a request of a provider is settled with, and in how the replies
of a provider go on. -/
structure Latitude where
  settles : ProviderId → Except Failure Value → Except Failure Value → Prop
  replies : ProviderId → Reply → Reply → Prop
  same (p : ProviderId) (r : Except Failure Value) : settles p r r

/-- Requests may be settled in the same ways, whoever made them. -/
def Latitude.Uniform (v : Latitude) : Prop :=
  ∀ (p q : ProviderId) (r r' : Except Failure Value), v.settles p r r' → v.settles q r r'

variable {v : Latitude} {owner : Job → ProviderId} {p : ProviderId}

/-- Requests that differ in how they were settled. -/
structure Request.Alike (v : Latitude) (q q' : Request) : Prop where
  provider : q.provider = q'.provider
  awaitedBy : q.awaitedBy = q'.awaitedBy
  settlement : Option.Rel
    (fun e e' => v.settles q.provider (Session.settled e) (Session.settled e'))
    q.settlement q'.settlement

/-- The same phase, or the provider's replies go on alike from where they stand. A request that is
awaited is the provider's own, if that matters. -/
inductive Phase.Alike (v : Latitude) (p : ProviderId) (requests : Array Request) :
    Phase → Phase → Prop
  | fresh : Alike v p requests .fresh .fresh
  | running : Alike v p requests .running .running
  | paused {next next' : Except Failure Unit → Reply} (go : ∀ r, v.replies p (next r) (next' r)) :
      Alike v p requests (.paused next) (.paused next')
  | awaiting {r : RequestId} {next next' : Except Failure Value → Reply}
      (own : v.Uniform ∨ requests[r]?.map Request.provider = some p)
      (go : ∀ o o', v.settles p o o' → v.replies p (next o) (next' o')) :
      Alike v p requests (.awaiting r next) (.awaiting r next')
  | gathering (g : Gathering) : Alike v p requests (.gathering g) (.gathering g)
  | ended (e : Ending) : Alike v p requests (.ended e) (.ended e)

theorem Latitude.settles_of_own {requests : Array Request} {r : RequestId} {q : Request}
    (own : v.Uniform ∨ requests[r]?.map Request.provider = some p) (hq : requests[r]? = some q)
    {o o' : Except Failure Value} (h : v.settles q.provider o o') : v.settles p o o' := by
  rcases own with uniform | own
  · exact uniform _ _ _ _ h
  · obtain rfl : q.provider = p := by simpa [hq] using own
    exact h

/-- Requests only come to have more settlements, and there come to be more of them. -/
theorem Phase.Alike.mono {requests requests' : Array Request} {x y : Phase}
    (h : x.Alike v p requests y)
    (grow : ∀ (r : RequestId) (p : ProviderId), requests[r]?.map Request.provider = some p →
      requests'[r]?.map Request.provider = some p) : x.Alike v p requests' y := by
  cases h with
  | fresh => exact .fresh
  | running => exact .running
  | paused go => exact .paused go
  | awaiting own go => exact .awaiting (own.imp_right (grow _ _)) go
  | gathering g => exact .gathering g
  | ended e => exact .ended e

/-- Tasks that differ in how the replies of their provider go on. -/
structure Task.Alike (v : Latitude) (owner : Job → ProviderId) (requests : Array Request)
    (x y : Task) : Prop where
  name : x.name = y.name
  job : x.job = y.job
  cancelPending : x.cancelPending = y.cancelPending
  cancelling : x.cancelling = y.cancelling
  phase : x.phase.Alike v (owner x.job) requests y.phase

/-- Loops with the same queue, and with tasks and requests that are alike. -/
structure Loop.Alike (v : Latitude) (owner : Job → ProviderId) (l l' : Loop) : Prop where
  ready : l.ready = l'.ready
  tasks : ∀ t : TaskId, Option.Rel (Task.Alike v owner l.requests) l.tasks[t]? l'.tasks[t]?
  requests : ∀ r : RequestId, Option.Rel (Request.Alike v) l.requests[r]? l'.requests[r]?

namespace Loop.Alike
variable {l l' : Loop} (h : l.Alike v owner l')
include h

theorem size_tasks : l.tasks.size = l'.tasks.size := Array.size_eq_of_rel h.tasks

theorem size_requests : l.requests.size = l'.requests.size := Array.size_eq_of_rel h.requests

theorem task {t : TaskId} {x : Task} (hx : l.tasks[t]? = some x) :
    ∃ y, l'.tasks[t]? = some y ∧ x.Alike v owner l.requests y := by
  have ht := h.tasks t
  rw [hx] at ht
  generalize l'.tasks[t]? = y at ht
  cases ht with
  | some alike => exact ⟨_, rfl, alike⟩

theorem task_none {t : TaskId} (hx : l.tasks[t]? = none) : l'.tasks[t]? = none := by
  have ht := h.tasks t
  rw [hx] at ht
  generalize l'.tasks[t]? = y at ht
  cases ht with
  | none => rfl

/-- What two loops say of a task is the same if it is the same for tasks that are alike. -/
theorem map_task {α : Type} {f : Task → α}
    (hf : ∀ x y, x.Alike v owner l.requests y → f x = f y) (t : TaskId) :
    l.tasks[t]?.map f = l'.tasks[t]?.map f := by
  have ht := h.tasks t
  generalize l.tasks[t]? = x, l'.tasks[t]? = y at ht
  cases ht with
  | none => rfl
  | some alike => simp [hf _ _ alike]

theorem job (t : TaskId) : l.tasks[t]?.map Task.job = l'.tasks[t]?.map Task.job :=
  h.map_task (fun _ _ => Task.Alike.job) t

theorem isCancelPending (t : TaskId) : l.isCancelPending t = l'.isCancelPending t :=
  congrArg (Option.getD · false) (h.map_task (fun _ _ => Task.Alike.cancelPending) t)

theorem cancelling (t : TaskId) :
    l.tasks[t]?.map Task.cancelling = l'.tasks[t]?.map Task.cancelling :=
  h.map_task (fun _ _ => Task.Alike.cancelling) t

theorem phase (t : TaskId) : ∃ p, Option.Rel (Phase.Alike v p l.requests)
    (l.tasks[t]?.map Task.phase) (l'.tasks[t]?.map Task.phase) := by
  have ht := h.tasks t
  generalize l.tasks[t]? = x, l'.tasks[t]? = y at ht
  cases ht with
  | none => exact ⟨"", .none⟩
  | some alike => exact ⟨_, .some alike.phase⟩

theorem hasEnded (t : TaskId) : l.hasEnded t = l'.hasEnded t := by
  have ht := h.tasks t
  unfold Loop.hasEnded
  generalize l.tasks[t]? = x, l'.tasks[t]? = y at ht
  cases ht with
  | none => rfl
  | @some x y alike =>
    have hp := alike.phase
    dsimp only
    generalize x.phase = a, y.phase = b at hp
    cases hp <;> rfl

theorem isPending (r : RequestId) : l.isPending r = l'.isPending r := by
  have hr := h.requests r
  unfold Loop.isPending
  generalize l.requests[r]? = q, l'.requests[r]? = q' at hr
  cases hr with
  | none => rfl
  | @some q q' alike =>
    have he := alike.settlement
    dsimp only
    generalize q.settlement = e, q'.settlement = e' at he
    cases he <;> rfl

theorem requestsOf (p : ProviderId) : l.requestsOf p = l'.requestsOf p := by
  unfold Loop.requestsOf
  rw [h.size_requests]
  refine List.filter_congr fun r _ => ?_
  have hr := h.requests r
  generalize l.requests[r]? = q, l'.requests[r]? = q' at hr
  cases hr with
  | none => rfl
  | some alike => simp only [alike.provider]

theorem named? (name : String) : l.named? name = l'.named? name := by
  unfold Loop.named?
  rw [h.size_tasks]
  congr 1
  refine List.filter_congr fun t _ => ?_
  have ht := h.tasks t
  generalize l.tasks[t]? = x, l'.tasks[t]? = y at ht
  cases ht with
  | none => rfl
  | some alike => simp only [Option.bind_some, alike.name]

theorem namedCount : l.namedCount = l'.namedCount := by
  have names : l.tasks.map Task.name = l'.tasks.map Task.name := by
    refine Array.ext_getElem? fun t => ?_
    simp only [Array.getElem?_map]
    exact h.map_task (fun _ _ => Task.Alike.name) t
  have counted (l : Loop) : l.namedCount =
      (l.tasks.map Task.name).foldl (fun n name => if name.isSome then n + 1 else n) 0 := by
    rw [Array.foldl_map]
    rfl
  rw [counted, counted, names]

/-- What the provider's request was settled with, if it was. -/
theorem settlement {r : RequestId}
    (own : v.Uniform ∨ l.requests[r]?.map Request.provider = some p) :
    Option.Rel (fun e e' => v.settles p (Session.settled e) (Session.settled e'))
      ((l.requests[r]?).bind Request.settlement) ((l'.requests[r]?).bind Request.settlement) := by
  have hr := h.requests r
  cases hq : l.requests[r]? with
  | none =>
    rw [hq] at hr
    generalize l'.requests[r]? = q' at hr
    cases hr
    exact .none
  | some q =>
    rw [hq] at hr
    generalize l'.requests[r]? = q' at hr
    cases hr with
    | @some _ q' alike =>
      have settled := alike.settlement
      simp only [Option.bind_some]
      generalize q.settlement = e, q'.settlement = e' at settled
      cases settled with
      | none => exact .none
      | some pair => exact .some (Latitude.settles_of_own own hq pair)

/-! ### Operations -/

theorem enqueue (r : Ready) : Loop.Alike v owner (l.enqueue r) (l'.enqueue r) :=
  ⟨congrArg (· ++ [r]) h.ready, h.tasks, h.requests⟩

theorem withReady (ready : List Ready) :
    Loop.Alike v owner { l with ready } { l' with ready } := ⟨rfl, h.tasks, h.requests⟩

theorem changeTask (t : TaskId) {f f' : Task → Task}
    (hf : ∀ x y, l.tasks[t]? = some x → x.Alike v owner l.requests y →
      (f x).Alike v owner l.requests (f' y)) :
    Loop.Alike v owner (l.changeTask t f) (l'.changeTask t f') := by
  refine ⟨h.ready, fun u => ?_, h.requests⟩
  rw [Loop.getElem?_changeTask, Loop.getElem?_changeTask]
  have hu := h.tasks u
  split
  · subst u
    cases hx : l.tasks[t]? with
    | none =>
      rw [h.task_none hx]
      exact .none
    | some x =>
      obtain ⟨y, hy, alike⟩ := h.task hx
      rw [hy]
      exact .some (hf x y hx alike)
  · exact hu

/-- A task is moved to phases that are alike. -/
theorem setPhase (t : TaskId) {x y : Phase}
    (hp : ∀ z, l.tasks[t]? = some z → x.Alike v (owner z.job) l.requests y) :
    Loop.Alike v owner (l.setPhase t x) (l'.setPhase t y) :=
  h.changeTask t fun z _ hz alike => { alike with phase := hp z hz }

theorem leavePending (t : TaskId) : Loop.Alike v owner (l.leavePending t) (l'.leavePending t) :=
  h.changeTask t fun _ _ _ alike =>
    { alike with cancelPending := rfl, cancelling := rfl }

theorem markCancelling (t : TaskId) :
    Loop.Alike v owner (l.markCancelling t) (l'.markCancelling t) :=
  h.changeTask t fun _ _ _ alike => { alike with cancelling := rfl }

theorem passCancellation (t : TaskId) :
    Loop.Alike v owner (l.passCancellation t) (l'.passCancellation t) :=
  h.changeTask t fun _ _ _ alike => { alike with cancelPending := rfl }

theorem wake (t : TaskId) : Loop.Alike v owner (l.wake t) (l'.wake t) :=
  h.changeTask t fun _ _ _ alike =>
    { alike with cancelPending := rfl, phase := .running }

/-- A request is settled with a pair of results. -/
theorem settle (r : RequestId) {e e' : Settlement}
    (he : ∀ q, l.requests[r]? = some q →
      v.settles q.provider (Session.settled e) (Session.settled e')) :
    Loop.Alike v owner (l.settle r e) (l'.settle r e') := by
  have hr := h.requests r
  unfold Loop.settle
  cases hq : l.requests[r]? with
  | none =>
    rw [hq] at hr
    generalize l'.requests[r]? = q' at hr
    cases hr
    exact h
  | some q =>
    rw [hq] at hr
    generalize hq' : l'.requests[r]? = x at hr
    cases hr with
    | @some _ q' alike =>
      have hs := alike.settlement
      have pair := he q hq
      dsimp only
      generalize hs₁ : q.settlement = a, hs₂ : q'.settlement = b at hs
      cases hs with
      | some _ => exact h
      | none =>
        dsimp only
        rw [alike.awaitedBy]
        have settled : Loop.Alike v owner
            { l with requests := l.requests.modify r fun q => { q with settlement := some e } }
            { l' with requests := l'.requests.modify r fun q => { q with settlement := some e' } } := by
          refine ⟨h.ready, fun t => ?_, fun i => ?_⟩
          · have grow (i : RequestId) (p : ProviderId)
                (hi : l.requests[i]?.map Request.provider = some p) :
                (l.requests.modify r fun q => { q with settlement := some e })[i]?.map
                  Request.provider = some p := by
              rw [Array.getElem?_modify]
              split
              · rw [Option.map_map]
                exact hi
              · exact hi
            have ht := h.tasks t
            show Option.Rel _ l.tasks[t]? l'.tasks[t]?
            generalize l.tasks[t]? = x, l'.tasks[t]? = y at ht
            cases ht with
            | none => exact .none
            | some alike => exact .some { alike with phase := alike.phase.mono grow }
          · show Option.Rel _ (Array.modify _ _ _)[i]? (Array.modify _ _ _)[i]?
            rw [Array.getElem?_modify, Array.getElem?_modify]
            split
            · subst i
              rw [hq, hq']
              exact .some ⟨alike.provider, alike.awaitedBy, .some pair⟩
            · exact h.requests i
        exact settled.enqueue _

/-- A request is withdrawn. -/
theorem withdraw (r : RequestId) :
    Loop.Alike v owner (l.settle r .cancelled) (l'.settle r .cancelled) :=
  h.settle r fun _ _ => v.same _ _

theorem spawn (name : Option String) (job : Job) :
    Loop.Alike v owner (l.spawn name job) (l'.spawn name job) := by
  unfold Loop.spawn
  rw [← h.size_tasks]
  have made : Loop.Alike v owner { l with tasks := l.tasks.push { name, job } }
      { l' with tasks := l'.tasks.push { name, job } } := by
    refine ⟨h.ready, fun t => ?_, h.requests⟩
    show Option.Rel _ (l.tasks.push _)[t]? (l'.tasks.push _)[t]?
    rw [Array.getElem?_push, Array.getElem?_push, h.size_tasks]
    split
    · exact .some ⟨rfl, rfl, rfl, rfl, .fresh⟩
    · exact h.tasks t
  exact made.enqueue _

theorem openRequest (p : ProviderId) (t : TaskId) :
    Loop.Alike v owner (l.openRequest p t) (l'.openRequest p t) := by
  refine ⟨h.ready, fun u => ?_, fun r => ?_⟩
  · have grow (i : RequestId) (q : ProviderId)
        (hi : l.requests[i]?.map Request.provider = some q) :
        (l.openRequest p t).requests[i]?.map Request.provider = some q := by
      obtain ⟨x, hx, rfl⟩ := Option.map_eq_some_iff.mp hi
      have lt := (Array.getElem?_eq_some_iff.mp hx).1
      show (l.requests.push _)[i]?.map _ = _
      rw [Array.getElem?_push, if_neg (Nat.ne_of_lt lt), hx, Option.map_some]
    have hu := h.tasks u
    show Option.Rel _ l.tasks[u]? l'.tasks[u]?
    generalize l.tasks[u]? = x, l'.tasks[u]? = y at hu
    cases hu with
    | none => exact .none
    | some alike => exact .some { alike with phase := alike.phase.mono grow }
  · show Option.Rel _ (l.requests.push _)[r]? (l'.requests.push _)[r]?
    rw [Array.getElem?_push, Array.getElem?_push, h.size_requests]
    split
    · exact .some ⟨rfl, rfl, .none⟩
    · exact h.requests r

theorem cancelMember (t : TaskId) : Loop.Alike v owner (l.cancelMember t) (l'.cancelMember t) := by
  obtain ⟨p, hp⟩ := h.phase t
  unfold Loop.cancelMember
  rw [h.hasEnded t]
  split
  · exact h
  · generalize l.tasks[t]?.map Task.phase = x, l'.tasks[t]?.map Task.phase = y at hp
    cases hp with
    | none => exact h.leavePending t
    | some hp =>
      cases hp with
      | awaiting own go =>
        dsimp only
        rw [h.isPending]
        split
        · exact (h.markCancelling t).withdraw _
        · exact h.leavePending t
      | _ => exact h.leavePending t

theorem cancelMembers (members : List TaskId) :
    Loop.Alike v owner (l.cancelMembers members) (l'.cancelMembers members) := by
  unfold Loop.cancelMembers
  induction members generalizing l l' with
  | nil => exact h
  | cons t members ih => exact ih (h.cancelMember t)

theorem cancel (t : TaskId) : Loop.Alike v owner (l.cancel t) (l'.cancel t) := by
  obtain ⟨p, hp⟩ := h.phase t
  unfold Loop.cancel
  generalize l.tasks[t]?.map Task.phase = x, l'.tasks[t]?.map Task.phase = y at hp
  cases hp with
  | none => exact h.cancelMember t
  | some hp =>
    cases hp with
    | gathering g =>
      have ended : (g.members.any fun m => !l.hasEnded m) = g.members.any fun m => !l'.hasEnded m := by
        simp only [h.hasEnded]
      dsimp only
      rw [ended]
      split
      · exact ((h.cancelMembers g.members).setPhase t fun _ _ => .gathering _).markCancelling t
      · exact h.leavePending t
    | _ => exact h.cancelMember t

theorem pause (t : TaskId) {next next' : Except Failure Unit → Reply}
    (go : ∀ x, l.tasks[t]? = some x → ∀ r, v.replies (owner x.job) (next r) (next' r)) :
    Loop.Alike v owner (l.pause t next) (l'.pause t next') :=
  (h.setPhase t fun x hx => .paused (go x hx)).enqueue _

theorem await (t : TaskId) (r : RequestId) {next next' : Except Failure Value → Reply}
    (go : ∀ x, l.tasks[t]? = some x →
      (v.Uniform ∨ l.requests[r]?.map Request.provider = some (owner x.job)) ∧
      ∀ o o', v.settles (owner x.job) o o' → v.replies (owner x.job) (next o) (next' o')) :
    Loop.Alike v owner (l.await t r next) (l'.await t r next') := by
  have waits := h.setPhase t (x := .awaiting r next) (y := .awaiting r next')
    fun x hx => .awaiting (go x hx).1 (go x hx).2
  unfold Loop.await
  dsimp only
  rw [waits.isCancelPending]
  split
  · exact (waits.passCancellation t).withdraw r
  · exact waits

theorem spawnAll (ds : List Dispatch) : Loop.Alike v owner (l.spawnAll ds) (l'.spawnAll ds) := by
  unfold Loop.spawnAll
  induction ds generalizing l l' with
  | nil => exact h
  | cons d ds ih => exact ih (h.spawn none (.dispatch d))

theorem gather (t : TaskId) (ds : List Dispatch) :
    Loop.Alike v owner (l.gather t ds) (l'.gather t ds) := by
  unfold Loop.gather
  dsimp only
  rw [h.isCancelPending, h.size_tasks]
  have gathers (g : Gathering) := (h.spawnAll ds).setPhase t fun _ _ => .gathering g
  split
  · exact ((gathers _).passCancellation t).cancelMembers _
  · exact gathers _

theorem finish (t : TaskId) (e : Ending) : Loop.Alike v owner (l.finish t e) (l'.finish t e) := by
  have ends : Loop.Alike v owner
      (l.changeTask t fun x => { x with phase := .ended e, cancelPending := false })
      (l'.changeTask t fun x => { x with phase := .ended e, cancelPending := false }) :=
    h.changeTask t fun _ _ _ alike =>
      { alike with cancelPending := rfl, phase := .ended e }
  unfold Loop.finish
  dsimp only
  rw [ends.job t]
  split
  · exact ends.enqueue _
  · exact ends

theorem memberEnded (parent member : TaskId) :
    Loop.Alike v owner (l.memberEnded parent member) (l'.memberEnded parent member) := by
  obtain ⟨p, hp⟩ := h.phase parent
  obtain ⟨p', hm⟩ := h.phase member
  unfold Loop.memberEnded
  generalize l.tasks[parent]?.map Task.phase = x, l'.tasks[parent]?.map Task.phase = y at hp
  generalize l.tasks[member]?.map Task.phase = z, l'.tasks[member]?.map Task.phase = w at hm
  cases hp with
  | none => exact h
  | some hp =>
    cases hp with
    | gathering g =>
      cases hm with
      | none => exact h
      | some hm =>
        cases hm with
        | ended e =>
          have counts := h.setPhase parent fun _ _ => .gathering (g.afterMember e)
          dsimp only
          split
          · exact counts.enqueue _
          · exact counts
        | _ => exact h
    | _ => exact h

end Loop.Alike
end LintBroker

import LintBroker.Proofs.Queue
import LintBroker.Proofs.Rounds

/-!
# Nobody is forgotten

A task that has not ended and does not run stands in the queue, or it waits for a request of its own
that is open, or for a round of which it has not heard the last. And a task that stands in the queue
has its turn after as many ticks as stand before it.
-/
namespace LintBroker

namespace Loop
variable {l l' l'' : Loop} {t u : TaskId}

/-- What a task that stands at a phase has its next turn from: it stands in the queue, or somebody
will put it there. -/
def Due (l : Loop) (t : TaskId) : Phase → Prop
  | .fresh | .paused _ => .step t ∈ l.ready
  | .awaiting r _ => ∃ q, l.requests[r]? = some q ∧ q.awaitedBy = t ∧
      (q.settlement.isSome = true → .step t ∈ l.ready)
  | .gathering g => (g.outcome.isSome = true → .step t ∈ l.ready) ∧
      (g.outcome = none → g.ended < g.members.length) ∧ g.members ≠ []
  | .running | .ended _ => True

def Remembers (l : Loop) : Prop := ∀ t x, l.tasks[t]? = some x → l.Due t x.phase

def IsSettled (l : Loop) (r : RequestId) : Prop := l.requests[r]?.bind Request.settlement ≠ none

/-- Whoever stands in the queue stays there, requests that have been settled stay so, and one that has
come to be settled has brought whoever waits for it into the queue. -/
structure Serves (l l' : Loop) : Prop where
  queued : ∀ t, .step t ∈ l.ready → .step t ∈ l'.ready
  settled : ∀ r, l.IsSettled r → l'.IsSettled r
  requests : ∀ (r : RequestId) (q : Request), l.requests[r]? = some q →
    ∃ q', l'.requests[r]? = some q' ∧ q'.awaitedBy = q.awaitedBy ∧
      (q.settlement = none → q'.settlement.isSome = true → .step q.awaitedBy ∈ l'.ready)

namespace Serves

theorem of_requests_eq (queued : ∀ t, .step t ∈ l.ready → .step t ∈ l'.ready)
    (same : l'.requests = l.requests) : l.Serves l' :=
  ⟨queued, fun _ => by rw [IsSettled, IsSettled, same]; exact id,
    fun _ q hq => ⟨q, same ▸ hq, rfl, fun none some => by simp [none] at some⟩⟩

theorem refl (l : Loop) : l.Serves l := .of_requests_eq (fun _ => id) rfl

theorem trans (h : l.Serves l') (h' : l'.Serves l'') : l.Serves l'' := by
  refine ⟨fun t ht => h'.queued t (h.queued t ht), fun r hr => h'.settled r (h.settled r hr),
    fun r q hq => ?_⟩
  obtain ⟨q', hq', by', settled⟩ := h.requests r q hq
  obtain ⟨q'', hq'', by'', settled'⟩ := h'.requests r q' hq'
  refine ⟨q'', hq'', by''.trans by', fun none some => ?_⟩
  cases hs : q'.settlement with
  | none => exact by' ▸ settled' hs some
  | some e => exact h'.queued _ (settled none (by simp [hs]))

theorem enqueue (l : Loop) (r : Ready) : l.Serves (l.enqueue r) :=
  .of_requests_eq (fun _ => List.mem_append_left _) rfl

theorem changeTask (l : Loop) (t : TaskId) (f : Task → Task) : l.Serves (l.changeTask t f) :=
  .of_requests_eq (fun _ => id) rfl

theorem settle (l : Loop) (r : RequestId) (e : Settlement) : l.Serves (l.settle r e) := by
  unfold Loop.settle
  split
  · rename_i q hq
    split
    · refine ⟨fun t => List.mem_append_left _, fun r' settled => ?_, fun r' q' hq' => ?_⟩
      · by_cases hr : r = r'
        · subst hr
          simp_all [IsSettled]
        · simpa [IsSettled, Loop.enqueue, Array.getElem?_modify, hr] using settled
      · simp only [Loop.enqueue, Array.getElem?_modify]
        by_cases hr : r = r'
        · subst hr
          obtain rfl := Option.some.inj (hq.symm.trans hq')
          exact ⟨{ q with settlement := some e }, by rw [if_pos rfl, hq, Option.map_some], rfl,
            fun _ _ => List.mem_append_right _ (List.mem_singleton_self _)⟩
        · exact ⟨q', by rw [if_neg hr, hq'], rfl, fun none some => by simp [none] at some⟩
    · exact .refl l
  · exact .refl l

theorem cancelMember (l : Loop) (t : TaskId) : l.Serves (l.cancelMember t) := by
  unfold Loop.cancelMember
  split
  · exact .refl l
  · split
    · split
      · exact (Serves.changeTask l t _).trans (.settle _ _ _)
      · exact .changeTask l t _
    · exact .changeTask l t _

theorem cancelMembers (l : Loop) (members : List TaskId) : l.Serves (l.cancelMembers members) := by
  unfold Loop.cancelMembers
  induction members generalizing l with
  | nil => exact .refl l
  | cons t members ih => exact (Serves.cancelMember l t).trans (ih _)

theorem cancel (l : Loop) (t : TaskId) : l.Serves (l.cancel t) := by
  unfold Loop.cancel
  split
  · split
    · exact (cancelMembers l _).trans ((changeTask _ t _).trans (changeTask _ t _))
    · exact .changeTask l t _
  · exact cancelMember l t

theorem spawn (l : Loop) (name : Option String) (job : Job) : l.Serves (l.spawn name job) :=
  .of_requests_eq (fun _ => List.mem_append_left _) rfl

theorem spawnAll (l : Loop) (ds : List Dispatch) : l.Serves (l.spawnAll ds) := by
  unfold Loop.spawnAll
  induction ds generalizing l with
  | nil => exact .refl l
  | cons d ds ih => exact (spawn l none _).trans (ih _)

theorem memberEnded (l : Loop) (parent member : TaskId) : l.Serves (l.memberEnded parent member) := by
  unfold Loop.memberEnded
  split
  · dsimp only
    split
    · exact (changeTask l parent _).trans (enqueue _ _)
    · exact changeTask l parent _
  · exact .refl l

theorem openRequest (l : Loop) (p : ProviderId) (t : TaskId) : l.Serves (l.openRequest p t) := by
  have kept {r : RequestId} {q : Request} (hq : l.requests[r]? = some q) :
      (l.openRequest p t).requests[r]? = some q := by
    have hr := (Array.getElem?_eq_some_iff.mp hq).1
    simp [Loop.openRequest, Array.getElem?_push, Nat.ne_of_lt hr, hq]
  refine ⟨fun _ => id, fun r settled => ?_, fun r q hq => ⟨q, kept hq, rfl, fun none some => ?_⟩⟩
  · cases hq : l.requests[r]? with
    | none => simp [IsSettled, hq] at settled
    | some q =>
      rw [IsSettled, hq] at settled
      rwa [IsSettled, kept hq]
  · simp [none] at some

end Serves

/-- Whatever a task asks of the loop in its turn. -/
theorem Work.serves (w : l.Work t l') : l.Serves l' := by
  cases w with
  | wake => exact .changeTask l t _
  | openRequest p => exact .openRequest l p t
  | pause next => exact (Serves.changeTask l t _).trans (.enqueue _ _)
  | @await r p own next =>
    have waits : l.Serves (l.setPhase t (.awaiting r next)) := .changeTask l t _
    unfold Loop.await
    dsimp only
    split
    · exact waits.trans ((Serves.changeTask _ t _).trans (.settle _ _ _))
    · exact waits
  | @gather ds some =>
    have spawned := Serves.spawnAll l ds
    unfold Loop.gather
    dsimp only
    split
    · exact spawned.trans ((Serves.changeTask _ t _).trans
        ((Serves.changeTask _ t _).trans (.cancelMembers _ _)))
    · exact spawned.trans (.changeTask _ t _)
  | finish e =>
    unfold Loop.finish
    dsimp only
    split
    · exact (Serves.changeTask l t _).trans (.enqueue _ _)
    · exact .changeTask l t _

theorem Due.serves {p : Phase} (h : l.Due t p) (serves : l.Serves l') : l'.Due t p := by
  cases p with
  | fresh | paused => exact serves.queued t h
  | awaiting r next =>
    obtain ⟨q, hq, own, settled⟩ := h
    obtain ⟨q', hq', own', settled'⟩ := serves.requests r q hq
    refine ⟨q', hq', own'.trans own, fun some => ?_⟩
    cases hs : q.settlement with
    | none => exact own ▸ settled' hs some
    | some e => exact serves.queued t (settled (by simp [hs]))
  | gathering g => exact ⟨fun some => serves.queued t (h.1 some), h.2⟩
  | running | ended => trivial

namespace Remembers
variable (h : l.Remembers)
include h

/-- Every task goes on as it was, or what it comes to is seen to. -/
theorem of_tasks (serves : l.Serves l') (tasks : ∀ t y, l'.tasks[t]? = some y →
    l'.Due t y.phase ∨ ∃ x, l.tasks[t]? = some x ∧ x.phase = y.phase) : l'.Remembers := by
  intro t y hy
  rcases tasks t y hy with due | ⟨x, hx, same⟩
  · exact due
  · exact same ▸ (h t x hx).serves serves

theorem of_tasks_eq (serves : l.Serves l') (same : l'.tasks = l.tasks) : l'.Remembers :=
  h.of_tasks serves fun _ y hy => .inr ⟨y, same ▸ hy, rfl⟩

theorem changeTask {f : Task → Task}
    (hf : ∀ x, l.tasks[t]? = some x → l.Due t (f x).phase ∨ (f x).phase = x.phase) :
    (l.changeTask t f).Remembers := by
  have serves := Serves.changeTask l t f
  refine h.of_tasks serves fun u y hy => ?_
  rw [getElem?_changeTask] at hy
  split at hy
  · subst u
    obtain ⟨x, hx, rfl⟩ := Option.map_eq_some_iff.mp hy
    exact (hf x hx).imp (·.serves serves) fun same => ⟨x, hx, same.symm⟩
  · exact .inr ⟨y, hy, rfl⟩

theorem setPhase {p : Phase} (due : l.Due t p) : (l.setPhase t p).Remembers :=
  h.changeTask fun _ _ => .inl due

theorem flags {f : Task → Task} (phase : ∀ x, (f x).phase = x.phase) :
    (l.changeTask t f).Remembers := h.changeTask fun x _ => .inr (phase x)

theorem leavePending (t : TaskId) : (l.leavePending t).Remembers := h.flags fun _ => rfl

theorem markCancelling (t : TaskId) : (l.markCancelling t).Remembers := h.flags fun _ => rfl

theorem passCancellation (t : TaskId) : (l.passCancellation t).Remembers := h.flags fun _ => rfl

theorem enqueue (r : Ready) : (l.enqueue r).Remembers := h.of_tasks_eq (.enqueue l r) rfl

theorem settle (r : RequestId) (e : Settlement) : (l.settle r e).Remembers :=
  h.of_tasks_eq (.settle l r e) (l.tasks_settle r e)

theorem cancelMember (t : TaskId) : (l.cancelMember t).Remembers := by
  unfold Loop.cancelMember
  split
  · exact h
  · split
    · split
      · exact (h.markCancelling t).settle _ _
      · exact h.leavePending t
    · exact h.leavePending t

theorem cancelMembers (members : List TaskId) : (l.cancelMembers members).Remembers := by
  unfold Loop.cancelMembers
  induction members generalizing l with
  | nil => exact h
  | cons t members ih => exact ih (h.cancelMember t)

theorem cancel (t : TaskId) : (l.cancel t).Remembers := by
  unfold Loop.cancel
  split
  · rename_i g hg
    split
    · obtain ⟨x, hx, hp⟩ := Option.map_eq_some_iff.mp hg
      have due : l.Due t (.gathering { g with cancelRequested := true }) := by
        have := h t x hx
        rwa [hp] at this
      exact ((h.cancelMembers _).setPhase (due.serves (.cancelMembers l _))).markCancelling t
    · exact h.leavePending t
  · exact h.cancelMember t

theorem spawn (name : Option String) (job : Job) : (l.spawn name job).Remembers := by
  refine h.of_tasks (.spawn l name job) fun u y hy => ?_
  simp only [Loop.spawn, tasks_enqueue, Array.getElem?_push] at hy
  split at hy
  · obtain rfl := Option.some.inj hy
    subst u
    exact .inl (List.mem_append_right _ (List.mem_singleton_self _))
  · exact .inr ⟨y, hy, rfl⟩

theorem spawnAll (ds : List Dispatch) : (l.spawnAll ds).Remembers := by
  unfold Loop.spawnAll
  induction ds generalizing l with
  | nil => exact h
  | cons d ds ih => exact ih (h.spawn none _)

/-- A round of which the last has not been heard goes on, or brings its lint into the queue. -/
theorem memberEnded (parent member : TaskId) : (l.memberEnded parent member).Remembers := by
  unfold Loop.memberEnded
  split
  · rename_i g e hg _
    obtain ⟨x, hx, hp⟩ := Option.map_eq_some_iff.mp hg
    obtain ⟨queued, going, some⟩ : l.Due parent (.gathering g) := by
      have := h parent x hx
      rwa [hp] at this
    have goes (none : (g.afterMember e).outcome = none) :
        (g.afterMember e).ended < (g.afterMember e).members.length := by
      obtain ⟨was, b, rfl⟩ := Gathering.outcome_afterMember_none none
      have last : g.ended + 1 ≠ g.members.length := fun last => by
        rw [Gathering.outcome_afterMember, was] at none
        simp [last] at none
      rw [Gathering.ended_afterMember, Gathering.members_afterMember]
      have := going was
      omega
    have still : (g.afterMember e).members ≠ [] := by rwa [Gathering.members_afterMember]
    dsimp only
    split
    · refine ((h.enqueue (.step parent)).setPhase (t := parent) (p := .gathering (g.afterMember e)) ?_)
      exact ⟨fun _ => List.mem_append_right _ (List.mem_singleton_self _), goes, still⟩
    · rename_i unheard
      refine h.setPhase ⟨fun some => queued ?_, goes, still⟩
      cases ho : g.outcome with
      | none => simp [ho, some] at unheard
      | some r => rfl
  · exact h

theorem work (w : l.Work t l') : l'.Remembers := by
  cases w with
  | wake => exact h.changeTask fun _ _ => .inl trivial
  | openRequest p => exact h.of_tasks_eq (.openRequest l p t) rfl
  | pause next =>
    exact (h.enqueue (.step t)).setPhase (List.mem_append_right _ (List.mem_singleton_self _))
  | @await r p own next =>
    have waits : (l.setPhase t (.awaiting r next)).Remembers :=
      h.setPhase ⟨_, own, rfl, fun some => by simp at some⟩
    unfold Loop.await
    dsimp only
    split
    · exact (waits.passCancellation t).settle _ _
    · exact waits
  | @gather ds some =>
    have spawned := h.spawnAll ds
    have gathers (pending : Bool) : ((l.spawnAll ds).setPhase t (.gathering
        { members := (List.range ds.length).map fun n => l.tasks.size + n,
          cancelRequested := pending })).Remembers :=
      spawned.setPhase ⟨fun some => by simp at some,
        fun _ => by simpa using List.length_pos_iff.mpr some, by simpa using some⟩
    unfold Loop.gather
    dsimp only
    split
    · exact ((gathers _).passCancellation t).cancelMembers _
    · exact gathers _
  | finish e =>
    have ends : (l.changeTask t fun task =>
        { task with phase := .ended e, cancelPending := false }).Remembers :=
      h.changeTask fun _ _ => .inl trivial
    unfold Loop.finish
    dsimp only
    split
    · exact ends.enqueue _
    · exact ends

theorem popNews {rest : List Ready} (hr : l.ready = .memberEnded t u :: rest) :
    Remembers { l with ready := rest } := by
  refine h.of_tasks_eq (.of_requests_eq (fun v hv => ?_) rfl) rfl
  rw [hr] at hv
  exact (List.mem_cons.mp hv).resolve_left nofun

/-- A task whose turn has come is woken, and all others stand where they stood. -/
theorem popStep {rest : List Ready} (hr : l.ready = .step t :: rest) :
    (Loop.wake { l with ready := rest } t).Remembers := by
  intro u y hy
  rw [Loop.wake, getElem?_changeTask] at hy
  split at hy
  · obtain ⟨x, _, rfl⟩ := Option.map_eq_some_iff.mp hy
    trivial
  · rename_i other
    have queued (hq : .step u ∈ l.ready) : .step u ∈ rest := by
      rw [hr] at hq
      refine (List.mem_cons.mp hq).resolve_left fun same => other ?_
      exact (Ready.step.inj same).symm
    have due := h u y hy
    cases hp : y.phase with
    | fresh | paused =>
      rw [hp] at due
      exact queued due
    | awaiting r next =>
      rw [hp] at due
      obtain ⟨q, hq, own, settled⟩ := due
      exact ⟨q, hq, own, fun some => queued (settled some)⟩
    | gathering g =>
      rw [hp] at due
      exact ⟨fun some => queued (due.1 some), due.2⟩
    | running | ended => trivial

end Remembers

/-- A task that has nothing to go on with is not forgotten, though its turn has passed. -/
theorem Due.idles {x : Task} (due : l.Due t x.phase) (idles : x.Idles l)
    (lint : ∀ c, x.job = .lint c →
      (∀ next, x.phase ≠ .paused next) ∧ ∀ r next, x.phase ≠ .awaiting r next)
    (rest : List Ready) : Due { l with ready := rest } t x.phase := by
  unfold Task.Idles at idles
  cases hp : x.phase with
  | running | ended => trivial
  | fresh => simp [hp] at idles
  | paused next =>
    cases hj : x.job with
    | lint c => exact absurd hp ((lint c hj).1 next)
    | dispatch d => simp [hp, hj] at idles
  | awaiting r next =>
    cases hj : x.job with
    | lint c => exact absurd hp ((lint c hj).2 r next)
    | dispatch d =>
      rw [hp] at due
      obtain ⟨q, hq, own, _⟩ := due
      simp only [hp, hj, hq, Option.bind_some] at idles
      exact ⟨q, hq, own, fun some => by simp [idles] at some⟩
  | gathering g =>
    rw [hp] at due
    simp only [hp] at idles
    exact ⟨fun some => by simp [idles] at some, due.2⟩

end Loop

namespace Session
variable {s s' s₀ : Session} {t : TaskId}

def KeepsRemembered (s s' : Session) : Prop := s.loop.Remembers → s'.loop.Remembers

theorem KeepsRemembered.of_eq (h : s'.loop = s.loop) : s.KeepsRemembered s' :=
  fun remembers => h ▸ remembers

theorem Stroke.remembered (h : Stroke s s') : s.KeepsRemembered s' := by
  intro remembers
  cases h with
  | quiet h => exact h.loop ▸ remembers
  | spawn name c => exact remembers.spawn name _
  | settle r e => exact remembers.settle r e
  | cancel t => exact remembers.cancel t
  | _ => exact remembers

instance : IsPreorder Session KeepsRemembered where
  refl _ := id
  trans _ _ _ h h' := h' ∘ h

instance : Habit KeepsRemembered where
  stroke h := h.remembered
  own _ _ := .of_eq rfl
  answered _ _ _ := .of_eq rfl
  invoked _ _ _ := .of_eq rfl
  counts _ _ _ := .of_eq rfl
  calls _ _ := .of_eq rfl
  work h remembers := remembers.work h
  emit := Act.keepsTo_emit (fun _ _ => Stroke.remembered) (fun _ _ => .of_eq rfl)
    fun _ _ => .of_eq rfl

/-- A lint neither gives way nor waits for a request. -/
theorem Path.lint_phase (h : s₀.opening.Path s) {x : Task} {c : EditContext}
    (hx : s.loop.tasks[t]? = some x) (hj : x.job = .lint c) :
    (∀ next, x.phase ≠ .paused next) ∧ ∀ r next, x.phase ≠ .awaiting r next := by
  induction h generalizing x with
  | refl => simp [opening] at hx
  | @tail u v path step ih =>
    cases hz : u.loop.tasks[t]? with
    | none =>
      obtain ⟨_, _, _, new⟩ := step.new_tasks
      simp [(new t x hz hx).1]
    | some z =>
      obtain ⟨y, hy, job, _, turn⟩ := step.task hz
      obtain rfl := Option.some.inj (hy.symm.trans hx)
      obtain ⟨paused, awaiting⟩ := ih hz (job.symm.trans hj)
      cases turn with
      | keeps hk =>
        rcases hk.phase with same | ⟨_, _, _, gathers⟩
        · exact ⟨same ▸ paused, same ▸ awaiting⟩
        · simp [gathers]
      | wakes _ _ after => simp [after]
      | waits _ dispatch => simp [job.symm.trans hj] at dispatch
      | gathers _ _ after => simp [after]
      | ends _ _ _ after => simp [after]

theorem remembered_tick (remembers : s.loop.Remembers) (path : s₀.opening.Path s) :
    s.tick.loop.Remembers := by
  unfold tick
  split
  · exact remembers
  · rename_i r rest hr
    cases r with
    | memberEnded parent member => exact (remembers.popNews hr).memberEnded parent member
    | step t =>
      let popped := s.onLoop fun l => { l with ready := rest }
      have woken : (popped.onLoop fun l => l.wake t).loop.Remembers := remembers.popStep hr
      show ((step t).run popped).2.loop.Remembers
      cases hx : popped.loop.tasks[t]? with
      | none =>
        rw [run_step_none hx]
        intro u y hy
        have other : t ≠ u := by
          rintro rfl
          simp [hx] at hy
        have due := woken u y (by
          rw [loop_onLoop, Loop.wake, Loop.getElem?_changeTask, if_neg other]
          exact hy)
        exact due
      | some x =>
        rcases habit_turn (R := KeepsRemembered) hx with goes | ⟨same, idles⟩
        · exact goes woken
        · rw [same]
          intro u y hy
          by_cases hu : t = u
          · subst hu
            obtain rfl := Option.some.inj (hx.symm.trans hy)
            exact Loop.Due.idles (remembers t x hx) idles (fun c => path.lint_phase hx) rest
          · exact woken u y (by
              rw [loop_onLoop, Loop.wake, Loop.getElem?_changeTask, if_neg hu]
              exact hy)

/-- In a run nobody is forgotten. -/
theorem remembers_run (s : Session) (moves : List Move) : (s.opening.run moves).loop.Remembers := by
  have run {u : Session} (path : s.opening.Comes u) (remembers : u.loop.Remembers) (moves : List Move) :
      (u.run moves).loop.Remembers := by
    induction moves generalizing u with
    | nil => exact remembers
    | cons m moves ih =>
      have c := s.coherent_opening.path path.path
      refine ih ((comes_move c path.idle m).after path.path) ?_
      cases m with
      | act a => exact habit_perform (R := KeepsRemembered) a u remembers
      | tick => exact remembered_tick remembers path.path
  exact run s.comes_start (fun _ _ h => by simp [opening] at h) moves

/-- A round that is not decided has not heard of some member. -/
theorem exists_unheard {g : Gathering} (tally : s.loop.Tally t g)
    (undecided : g.ended < g.members.length) :
    ∃ m, s.loop.IsMember t m ∧
      ((∃ e, s.loop.EndedWith m e) → .memberEnded t m ∈ s.loop.ready) := by
  by_contra all
  push Not at all
  have heard (m : TaskId) (hm : m ∈ g.members) :
      (s.loop.hasEnded m && !s.loop.ready.contains (.memberEnded t m)) = true := by
    have own := (tally.mem_iff m).mp hm
    obtain ⟨ended, gone⟩ := all m own
    simp [(Loop.hasEnded_iff own).mpr ended, gone]
  have count := tally.count
  rw [Loop.reported, List.filter_eq_self.mpr heard] at count
  omega

/-! ### The first turn of a task -/

def Move.isTick : Move → Bool
  | .tick => true
  | .act _ => false

def ticks (moves : List Move) : Nat := moves.countP Move.isTick

/-- While somebody else has a turn a task goes on as it was. -/
theorem keeps_tick (c : s.Coherent) (idle : s.Idle) {r : Ready} {rest : List Ready}
    (hr : s.loop.ready = r :: rest) (other : r ≠ .step t) {x : Task}
    (hx : s.loop.tasks[t]? = some x) : ∃ y, s.tick.loop.tasks[t]? = some y ∧ x.Keeps y := by
  have pop : Step s (s.onLoop fun l => { l with ready := rest }) := .pop hr
  simp only [tick, hr]
  cases r with
  | step u =>
    have turn := comes_step (c.step pop) (s := s.onLoop fun l => { l with ready := rest }) idle u
    exact turn.others.forth t x (fun h => other (h ▸ rfl)) hx
  | memberEnded parent member => exact (Loop.keeps_memberEnded _ parent member).forth t x hx

/-- A task that has not started starts after as many ticks as stand before it in the queue. -/
theorem first_turn (c : s.Coherent) (idle : s.Idle) {x : Task} (hx : s.loop.tasks[t]? = some x)
    (fresh : x.phase = .fresh) {before behind : List Ready}
    (hr : s.loop.ready = before ++ .step t :: behind) {moves : List Move}
    (enough : before.length < ticks moves) :
    ∃ (soon later : List Move) (rest : List Ready) (y : Task),
      moves = soon ++ .tick :: later ∧ (s.run soon).loop.ready = .step t :: rest ∧
        (s.run soon).loop.tasks[t]? = some y ∧ x.Keeps y ∧ y.phase = .fresh := by
  induction moves generalizing s x before behind with
  | nil => simp [ticks] at enough
  | cons m moves ih =>
    have next := comes_move c idle m
    -- one move on, the task stands no further back
    have goes {z : Task} (hz : (s.move m).loop.tasks[t]? = some z) (kept : x.Keeps z)
        (before' : List Ready) (queued : before' ++ [.step t] <+: (s.move m).loop.ready)
        (enough : before'.length < ticks moves) :
        ∃ (soon later : List Move) (rest : List Ready) (y : Task),
          m :: moves = soon ++ .tick :: later ∧ (s.run soon).loop.ready = .step t :: rest ∧
            (s.run soon).loop.tasks[t]? = some y ∧ x.Keeps y ∧ y.phase = .fresh := by
      obtain ⟨behind', hr'⟩ := queued
      obtain ⟨soon, later, rest, y, rfl, hr', hy, kept', hp⟩ :=
        ih (c.path next.path) next.idle hz ((kept.phase_eq (by simp [fresh])).trans fresh)
          (by rw [← hr', List.append_assoc]; rfl) enough
      exact ⟨m :: soon, later, rest, y, rfl, hr', hy, kept.trans kept', hp⟩
    cases m with
    | act a =>
      have queues : s.loop.ready <+: (s.move (.act a)).loop.ready := habit_perform (R := Queues) a s
      obtain ⟨z, hz, kept⟩ := (Changes.loop (Act.changes_perform a s)).forth t x hx
      refine goes hz kept before (.trans ⟨behind, ?_⟩ queues) ?_
      · rw [hr, List.append_assoc]
        rfl
      · simpa [ticks, List.countP_cons, Move.isTick] using enough
    | tick =>
      cases before with
      | nil => exact ⟨[], moves, behind, x, rfl, hr, hx, .refl x, fresh⟩
      | cons r before =>
        by_cases other : r = .step t
        · subst r
          exact ⟨[], moves, _, x, rfl, hr, hx, .refl x, fresh⟩
        · obtain ⟨z, hz, kept⟩ := keeps_tick c idle hr other hx
          refine goes hz kept before (.trans ⟨behind, ?_⟩ (queued_tick hr)) ?_
          · rw [List.append_assoc]
            rfl
          · simpa [ticks, List.countP_cons, Move.isTick] using enough

end Session
end LintBroker

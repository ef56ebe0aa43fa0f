import LintBroker.Proofs.Walk

/-!
# Habits

A *conduct* is a preorder of sessions that everything keeps to that a task does until it leaves its
turn. It is enough to know that of the strokes of actions, of what a dispatch writes of itself, of the
counting of requests and responses, and of emissions. A conduct that is kept to as well when a task
gives way, waits or ends is a *habit*, and a habit that the loop keeps to lasts for a whole run.

What is not kept to by the call of a provider is a *manner* only, and a *tenor* if it is not kept to
either when an answer comes. What one task keeps to when it leaves its turn, but not every task, is a
*custom* of that task.
-/
namespace LintBroker

/-- Whether an entry is what a dispatch writes of itself, beside the call of its provider and the
answer that comes. -/
def Entry.isOwn : Entry → Bool
  | .dispatched _ | .entered _ | .accepted .. => true
  | _ => false

/-- What a task asks of the loop in its turn. It waits for a request of its own that is open, and for
a round that is not empty. -/
inductive Loop.Work (l : Loop) (t : TaskId) : Loop → Prop
  | wake : Work l t (l.wake t)
  | openRequest (p : ProviderId) : Work l t (l.openRequest p t)
  | pause (next : Except Failure Unit → Reply) : Work l t (l.pause t next)
  | await {r : RequestId} {p : ProviderId}
      (own : l.requests[r]? = some { provider := p, awaitedBy := t })
      (next : Except Failure Value → Reply) : Work l t (l.await t r next)
  | gather {ds : List Dispatch} (some : ds ≠ []) : Work l t (l.gather t ds)
  | finish (e : Ending) : Work l t (l.finish t e)

open Session Act

/-- A preorder that everything keeps to that a task does until it leaves its turn, but for the call of
its provider, the requests that it opens and the answer that comes to it. -/
class Tenor (R : Session → Session → Prop) : Prop extends IsPreorder Session R where
  stroke {s s' : Session} (h : Stroke s s') : R s s'
  own {e : Entry} (h : e.isOwn = true) (s : Session) : R s (s.noted e)
  counts (s : Session) (id : RecordId) (f : Counters Nat → Counters Nat) :
    R s (s.onRegistry fun r => r.changeRecord id fun x => { x with counters := f x.counters })
  calls (s : Session) (f : Table ProviderId Nat → Table ProviderId Nat) :
    R s (s.onHost fun h => { h with calls := f h.calls })
  emit (handling : Option Failure) (d : Dispatch) (n : Notice) : KeepsTo R (emit handling d n).run

/-- A tenor that answers keep to as well. -/
class Manner (R : Session → Session → Prop) : Prop extends Tenor R where
  answered (d : Dispatch) (r : Except Failure Value) (s : Session) : R s (s.noted (.answered d r))

/-- The call of a provider keeps to a manner. -/
class Calling (R : Session → Session → Prop) : Prop extends Manner R where
  invoked (d : Dispatch) (p : ProviderId) (s : Session) : R s (s.noted (.invoked d p))

/-- The requests that the task opens keep to a manner. -/
class Requesting (t : TaskId) (R : Session → Session → Prop) : Prop extends Manner R where
  opens (s : Session) (p : ProviderId) : R s (s.onLoop fun l => l.openRequest p t)

/-- A manner that lasts through the turns of the task: all that it asks of the loop keeps to it too.
-/
class Custom (t : TaskId) (R : Session → Session → Prop) : Prop extends Requesting t R where
  work {s : Session} {l : Loop} (h : s.loop.Work t l) : R s { s with loop := l }
  opens _ p := work (.openRequest p)

/-- A preorder that everything keeps to that a task does until it leaves its turn. -/
class Conduct (R : Session → Session → Prop) : Prop extends Calling R where
  opens (s : Session) (p : ProviderId) (t : TaskId) : R s (s.onLoop fun l => l.openRequest p t)

/-- A conduct that lasts through a turn: all that a task asks of the loop keeps to it too. -/
class Habit (R : Session → Session → Prop) : Prop extends Conduct R where
  work {s : Session} {t : TaskId} {l : Loop} (h : s.loop.Work t l) : R s { s with loop := l }
  opens _ p _ := work (.openRequest p)

instance (t : TaskId) (R : Session → Session → Prop) [Conduct R] : Requesting t R where
  opens s p := Conduct.opens s p t

instance (t : TaskId) (R : Session → Session → Prop) [Habit R] : Custom t R where
  work h := Habit.work h

section tenor
variable {R : Session → Session → Prop} [Tenor R]

theorem habit_of_quiet {α : Type} {m : Act α} (h : KeepsTo Quiet m.run) : KeepsTo R m.run :=
  h.mono fun _ _ quiet => Tenor.stroke (.quiet quiet)

theorem habit_perform (a : Action) : KeepsTo R (Act.perform a).run :=
  (strokes_perform a).mono fun _ _ => Strokes.keep fun _ _ => Tenor.stroke

theorem habit_own {e : Entry} (h : e.isOwn = true) : KeepsTo R (note e).run := Tenor.own h

namespace Round

theorem habit_openDispatch (round : TaskId) (id : RecordId) (context : EditContext) :
    KeepsTo R (openDispatch round id context).run :=
  keepsTo_bind (fun s => Tenor.counts s id Counters.next) fun _ =>
    keepsTo_bind (Broker.keepsTo_record id) fun _ => keepsTo_bind (habit_own rfl) fun _ =>
      keepsTo_pure _

theorem habit_consider (round : TaskId) (context : EditContext) (disabled : List Value)
    (id : RecordId) : KeepsTo R (consider round context disabled id).run := by
  refine keepsTo_bind (Broker.keepsTo_record id) fun record => ?_
  split
  · exact keepsTo_pure _
  · refine keepsTo_bind (Broker.keepsTo_nameOf _) fun name => ?_
    split
    · exact keepsTo_bind (habit_of_quiet (quiet_trace _)) fun _ => keepsTo_pure _
    · refine keepsTo_bind (habit_of_quiet (Gate.quiet_shouldTrigger _ _)) fun applies => ?_
      split
      · exact keepsTo_pure _
      · have begins (p : ProviderId) : KeepsTo R (beginNotice p context).run :=
          keepsTo_bind (Broker.keepsTo_scopeOf p) fun _ => keepsTo_pure _
        exact keepsTo_bind (habit_openDispatch _ _ _) fun d => keepsTo_bind (begins _) fun n =>
          keepsTo_bind (Tenor.emit _ _ _) fun _ => keepsTo_pure _

theorem habit_considerAll (round : TaskId) (context : EditContext) (disabled : List Value)
    (ids : List RecordId) : KeepsTo R (considerAll round context disabled ids).run := by
  induction ids with
  | nil => exact keepsTo_pure _
  | cons id ids ih =>
    exact keepsTo_bind (habit_consider _ _ _ id) fun _ => keepsTo_bind ih fun _ => keepsTo_pure _

theorem habit_start (round : TaskId) (context : EditContext) :
    KeepsTo R (start round context).run := by
  refine keepsTo_bind keepsTo_get fun s => ?_
  split
  · exact keepsTo_pure _
  · refine keepsTo_bind (habit_of_quiet quiet_ensureSettings) fun _ =>
      keepsTo_bind (habit_of_quiet (Gate.quiet_shouldLint context)) fun linted => ?_
    split
    · exact keepsTo_pure _
    · exact keepsTo_bind (habit_of_quiet quiet_disabledNames) fun _ =>
        keepsTo_bind keepsTo_get fun _ => keepsTo_bind (habit_considerAll _ _ _ _) fun _ =>
          keepsTo_pure _

end Round

namespace Dispatch
variable (d : Dispatch) (p : ProviderId)

theorem habit_announce : KeepsTo R (announce d p).run :=
  keepsTo_bind (Broker.keepsTo_nameOf p) fun _ =>
    keepsTo_bind (habit_of_quiet (quiet_trace _)) fun _ => habit_own rfl

theorem habit_accept : KeepsTo R (accept d).run :=
  keepsTo_bind (Broker.keepsTo_record _) fun _ =>
    keepsTo_bind (fun s => Tenor.counts s d.record (Counters.receive · d.generation)) fun _ =>
      keepsTo_bind (habit_own rfl) fun _ => keepsTo_pure _

/-- From when an answer has come, all that is done until it was dealt with keeps to a tenor. -/
theorem respond_after (cancelling : Bool) (r : Except Failure Value) (s : Session) :
    R (s.noted (.answered d r)) ((respond d p cancelling r).exec s).2 := by
  rw [respond, exec_bind_ok (exec_note _)]
  refine keepsTo_bind (keepsTo_awaited (habit_of_quiet (quiet_contain p _ r))) (fun outcome =>
    keepsTo_bind (habit_accept d) fun news => ?_) _
  split
  · exact keepsTo_bind (Broker.keepsTo_nameOf p) fun _ =>
      keepsTo_bind (habit_of_quiet (quiet_trace _)) fun _ => keepsTo_pure _
  · split
    · exact keepsTo_pure _
    · refine keepsTo_bind (habit_of_quiet (quiet_shouldSurface d p)) fun may => ?_
      split
      · exact keepsTo_bind (keepsTo_bind (Broker.keepsTo_scopeOf p) fun _ => keepsTo_pure _)
          fun _ => keepsTo_pure _
      · exact keepsTo_pure _

theorem deliver_after (cancelling : Bool) (r : Except Failure Value) (s : Session) :
    R (s.noted (.answered d r)) ((deliver d p cancelling r).exec s).2 := by
  have responds := respond_after (R := R) d p cancelling r s
  rw [deliver]
  obtain ⟨n, u, he⟩ | ⟨e, u, he⟩ := exec_cases (respond d p cancelling r) s
  · rw [he] at responds
    rw [exec_bind_ok he]
    refine IsTrans.trans _ _ _ responds ?_
    cases n with
    | none => exact refl u
    | some n => exact Tenor.emit none d n u
  · rw [he] at responds
    rw [exec_bind_error he]
    exact responds

theorem habit_announceEnd (leaving : Option Failure) : KeepsTo R (announceEnd d p leaving).run :=
  keepsTo_bind (keepsTo_during _ (keepsTo_bind (Broker.keepsTo_scopeOf p) fun _ => keepsTo_pure _))
    fun _ => Tenor.emit _ d _

theorem conclude_after (cancelling : Bool) (r : Except Failure Value) (s : Session) :
    R (s.noted (.answered d r)) ((conclude d p cancelling r).exec s).2 := by
  rw [conclude, exec_bind_ok (exec_attempt _)]
  exact IsTrans.trans _ _ _ (deliver_after d p cancelling r s)
    (keepsTo_bind (habit_announceEnd d p _) (fun _ => keepsTo_take _) _)

theorem keepsTo_provider : KeepsTo R (provider d).run :=
  keepsTo_bind (Broker.keepsTo_record _) fun _ => keepsTo_pure _

end Dispatch

end tenor

section custom
variable {R : Session → Session → Prop}

namespace Dispatch
variable (d : Dispatch) (p : ProviderId)

theorem habit_respond [Manner R] (cancelling : Bool) (r : Except Failure Value) :
    KeepsTo R (respond d p cancelling r).run := fun s =>
  IsTrans.trans _ _ _ (Manner.answered d r s) (respond_after d p cancelling r s)

theorem habit_deliver [Manner R] (cancelling : Bool) (r : Except Failure Value) :
    KeepsTo R (deliver d p cancelling r).run := fun s =>
  IsTrans.trans _ _ _ (Manner.answered d r s) (deliver_after d p cancelling r s)

theorem habit_conclude [Manner R] (cancelling : Bool) (r : Except Failure Value) :
    KeepsTo R (conclude d p cancelling r).run := fun s =>
  IsTrans.trans _ _ _ (Manner.answered d r s) (conclude_after d p cancelling r s)

theorem habit_ask [Calling R] : KeepsTo R (ask d p).run := by
  refine keepsTo_bind (keepsTo_attributes p) fun _ => keepsTo_bind (keepsTo_take _) fun lint => ?_
  split
  · exact keepsTo_throw _
  · exact keepsTo_bind keepsTo_get fun _ => keepsTo_bind (keepsTo_expect _ _) fun _ =>
      keepsTo_bind keepsTo_get fun _ => keepsTo_bind (fun s => Tenor.calls s (Table.put · p _))
        fun _ => keepsTo_bind (Calling.invoked d p) fun _ => keepsTo_pure _

theorem habit_advance (t : TaskId) [Requesting t R] (reply : Reply) :
    KeepsTo R (advance p t reply) := by
  induction reply with
  | value v => exact .pure _
  | fail f => exact .pure _
  | act a next ih => exact .bind (habit_perform a) ih
  | pause next => exact .pure _
  | request next => exact fun s => Requesting.opens s p

/-- A reply that comes to wait does so for a request that was made just then. -/
theorem own_advance (t : TaskId) (reply : Reply) {s s' : Session} {r : RequestId}
    {next : Except Failure Value → Reply} (h : (advance p t reply).run s = (.awaiting r next, s')) :
    s'.loop.requests[r]? = some { provider := p, awaitedBy := t } := by
  induction reply generalizing s with
  | value v => cases h
  | fail f => cases h
  | act a next ih => exact ih _ h
  | pause next => cases h
  | request next =>
    obtain ⟨hr, rfl⟩ := Prod.mk.inj h
    obtain ⟨rfl, _⟩ := Progress.awaiting.inj hr
    exact Array.getElem?_push_size

theorem own_start (t : TaskId) {s s' : Session} {r : RequestId}
    {next : Except Failure Value → Reply} (h : (start d p t).run s = (.awaiting r next, s')) :
    s'.loop.requests[r]? = some { provider := p, awaitedBy := t } := by
  unfold start at h
  rw [run_bind_exec] at h
  cases hr : ((ask d p).exec s).1 with
  | ok reply =>
    rw [hr] at h
    exact own_advance p t reply h
  | error f =>
    rw [hr] at h
    cases h

theorem habit_start (t : TaskId) [Calling R] [Requesting t R] : KeepsTo R (start d p t) := by
  refine .bind (habit_ask d p) fun r => ?_
  cases r with
  | ok reply => exact habit_advance p t reply
  | error f => exact .pure _

end Dispatch

namespace Session

theorem habit_finish (t : TaskId) [Custom t R] (r : Except Failure Bool) : KeepsTo R (finish t r) :=
  fun _ => Custom.work (.finish _)

theorem habit_follow {s : Session} (d : Dispatch) (p : ProviderId) (t : TaskId) [Custom t R]
    (g : Progress) (own : ∀ r next, g = .awaiting r next →
      s.loop.requests[r]? = some { provider := p, awaitedBy := t }) :
    R s ((follow d p t g).run s).2 := by
  cases g with
  | answered r =>
    exact KeepsTo.bind (fun s => refl s) (fun _ => .bind (Dispatch.habit_conclude d p _ r) fun _ =>
      habit_finish t _) s
  | paused next => exact Custom.work (.pause next)
  | awaiting r next => exact Custom.work (.await (own r next rfl) next)

theorem habit_advance_follow (d : Dispatch) (p : ProviderId) (t : TaskId) [Custom t R]
    (reply : Reply) : KeepsTo R (do follow d p t (← Dispatch.advance p t reply)) := fun s =>
  IsTrans.trans _ _ _ (Dispatch.habit_advance p t reply s)
    (habit_follow d p t _ fun _ _ h => Dispatch.own_advance p t reply (Prod.ext h rfl))

theorem habit_startDispatch (d : Dispatch) (t : TaskId) [Custom t R] [Calling R] :
    KeepsTo R (startDispatch d t) := by
  refine .bind (Dispatch.keepsTo_provider d) fun r => ?_
  cases r with
  | error f => exact habit_finish t _
  | ok p =>
    refine .bind (Dispatch.habit_announce d p) fun r => ?_
    cases r with
    | error f => exact habit_finish t _
    | ok _ =>
      exact fun s => IsTrans.trans _ _ _ (Dispatch.habit_start d p t s)
        (habit_follow d p t _ fun _ _ h => Dispatch.own_start d p t (Prod.ext h rfl))

theorem habit_resumeDispatch (d : Dispatch) (t : TaskId) [Custom t R] (reply : Reply) :
    KeepsTo R (resumeDispatch d t reply) := by
  refine .bind (Dispatch.keepsTo_provider d) fun r => ?_
  cases r with
  | error f => exact habit_finish t _
  | ok p => exact habit_advance_follow d p t reply

theorem habit_startLint (context : EditContext) (t : TaskId) [Custom t R] :
    KeepsTo R (startLint context t) := by
  refine .bind (Round.habit_start t context) fun r => ?_
  split
  · exact habit_finish t _
  · exact habit_finish t _
  · exact habit_finish t _
  · rename_i ds some
    exact fun _ => Custom.work (.gather some)

/-- A task that was woken goes on, or it has nothing to go on with and is put back as it was. Only in
its first step does a dispatch call its provider. -/
theorem habit_resume (t : TaskId) [Custom t R] (x : Task) (s : Session)
    (first : ∀ d, x.phase = .fresh → x.job = .dispatch d → KeepsTo R (startDispatch d t)) :
    R s ((resume t x).run s).2 ∨ (resume t x).run s = (putBack t x).run s ∧ x.Idles s.loop := by
  by_cases idles : x.Idles s.loop
  · exact .inr ⟨run_resume_idle idles, idles⟩
  · refine .inl ?_
    have turn := resumption s t x
    generalize ((resume t x).run s).2 = s' at turn ⊢
    cases turn with
    | cancelled | decided => exact habit_finish t _ s
    | lint => exact habit_startLint _ t s
    | dispatch fresh job => exact first _ fresh job s
    | paused | settled => exact habit_resumeDispatch _ t _ s
    | idle idle => exact absurd idle idles

/-- A task in its turn goes on from when it was woken, or nothing changes. -/
theorem habit_turn_of_first {t : TaskId} [Custom t R] {x : Task} {s : Session}
    (hx : s.loop.tasks[t]? = some x)
    (first : ∀ d, x.phase = .fresh → x.job = .dispatch d → KeepsTo R (startDispatch d t)) :
    R (s.onLoop fun l => l.wake t) ((step t).run s).2 ∨
      ((step t).run s).2 = s ∧ x.Idles s.loop := by
  rw [run_step_some hx]
  rcases habit_resume (R := R) t x (s.onLoop fun l => l.wake t) first with goes | ⟨back, idles⟩
  · exact .inl goes
  · have same : ((putBack t x).run (s.onLoop fun l => l.wake t)).2 = s := onLoop_wake_back hx
    exact .inr ⟨back ▸ same, idles⟩

theorem habit_turn {t : TaskId} [Custom t R] [Calling R] {x : Task} {s : Session}
    (hx : s.loop.tasks[t]? = some x) :
    R (s.onLoop fun l => l.wake t) ((step t).run s).2 ∨
      ((step t).run s).2 = s ∧ x.Idles s.loop :=
  habit_turn_of_first hx fun d _ _ => habit_startDispatch d t

/-- A turn of a task keeps to each of its customs that the call of a provider keeps to. -/
theorem habit_step (t : TaskId) [Custom t R] [Calling R] : KeepsTo R (step t) := by
  intro s
  cases hx : s.loop.tasks[t]? with
  | none =>
    rw [run_step_none hx]
    exact refl s
  | some x =>
    have woken : R s (s.onLoop fun l => l.wake t) := Custom.work .wake
    rcases habit_turn (R := R) hx with goes | ⟨same, _⟩
    · exact IsTrans.trans _ _ _ woken goes
    · rw [same]
      exact refl s

end Session
end custom

/-! ### Habits that last -/

/-- A habit that the loop keeps to between the turns of tasks. -/
class Lasting (R : Session → Session → Prop) : Prop extends Habit R where
  pop {s : Session} {r : Ready} {rest : List Ready} (h : s.loop.ready = r :: rest) :
    R s (s.onLoop fun l => { l with ready := rest })
  hear (s : Session) (parent member : TaskId) : R s (s.onLoop fun l => l.memberEnded parent member)

namespace Session
variable {R : Session → Session → Prop} [Lasting R]

theorem lasting_tick (s : Session) : R s s.tick := by
  unfold tick
  split
  · exact refl s
  · rename_i r rest hr
    have popped : R s (s.onLoop fun l => { l with ready := rest }) := Lasting.pop hr
    cases r with
    | step t => exact IsTrans.trans _ _ _ popped (habit_step t _)
    | memberEnded parent member => exact IsTrans.trans _ _ _ popped (Lasting.hear _ parent member)

theorem lasting_move (s : Session) (m : Move) : R s (s.move m) := by
  cases m with
  | act a => exact habit_perform a s
  | tick => exact lasting_tick s

/-- A run keeps to every habit that lasts. -/
theorem lasting_run (s : Session) (moves : List Move) : R s (s.run moves) := by
  induction moves generalizing s with
  | nil => exact refl s
  | cons m moves ih => exact IsTrans.trans _ _ _ (lasting_move s m) (ih _)

end Session

/-! ### Emissions -/

namespace Act
variable {R : Session → Session → Prop} [IsPreorder Session R]
variable (stroke : ∀ s s', Stroke s s' → R s s')
include stroke

theorem keepsTo_reportListener (kind : NoticeKind) (l : ListenerId) (f : Failure) :
    KeepsTo R (reportListener kind l f) :=
  .bind ((quiet_reportFault _ _).mono fun _ _ quiet => stroke _ _ (.quiet quiet)) fun _ => .pure _

variable (noted : ∀ (e : Entry) (s : Session), R s (s.noted e))
variable (deliveries : ∀ (s : Session) (f : Table ListenerId Nat → Table ListenerId Nat),
  R s (s.onHost fun h => { h with deliveries := f h.deliveries }))
include noted deliveries

theorem keepsTo_call (handling : Option Failure) (d : Dispatch) (l : ListenerId) (n : Notice) :
    KeepsTo R (call handling d l n) :=
  keepsTo_call_of (noted _) (noted _) (fun k s => deliveries s (Table.put · l k)) fun a =>
    (strokes_perform a).mono fun _ _ => Strokes.keep stroke

/-- An emission keeps to a preorder that calls of listeners keep to, and all that they write. -/
theorem keepsTo_emit (handling : Option Failure) (d : Dispatch) (n : Notice) :
    KeepsTo R (emit handling d n).run :=
  keepsTo_bind (noted _) fun _ => keepsTo_bind keepsTo_get fun _ =>
    keepsTo_deliverAll (keepsTo_call stroke noted deliveries handling d)
      (keepsTo_reportListener stroke n.kind) _ n

end Act
end LintBroker

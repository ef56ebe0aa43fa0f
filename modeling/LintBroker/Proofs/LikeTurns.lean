import LintBroker.Proofs.Likeness

/-!
# Rounds and answers under a likeness

A likeness is *voiced* if emissions are blind to it. Then so is all that a task does in a turn, apart
from what its provider replies: choosing the providers of a round, announcing a dispatch and dealing
with an answer.
-/
namespace LintBroker

/-- A likeness to which emissions are blind. -/
class Voiced (S : Session → Session → Prop) (apart : outParam (ProviderId → Prop)) : Prop
    extends Likeness S apart where
  emit (handling : Option Failure) (d : Dispatch) (n : Notice) : BlindTo S (Act.emit handling d n)

open Act

variable {S : Session → Session → Prop} {apart : ProviderId → Prop} [Voiced S apart]
include apart

namespace Round

theorem blind_beginNotice (p : ProviderId) (context : EditContext) :
    BlindTo S (beginNotice p context) :=
  inStep_bind (Broker.blind_scopeOf p) fun _ => inStep_pure _

theorem blind_updateNotice (p : ProviderId) (context : EditContext) (messages : Value) :
    BlindTo S (updateNotice p context messages) :=
  inStep_bind (Broker.blind_scopeOf p) fun _ => inStep_pure _

theorem blind_finishNotice (p : ProviderId) (context : EditContext) :
    BlindTo S (finishNotice p context) :=
  inStep_bind (Broker.blind_scopeOf p) fun _ => inStep_pure _

theorem blind_disabledNames : BlindTo S disabledNames := by
  refine inStep_bind (blind_setting _) fun _ => ?_
  split
  · exact inStep_take _
  · exact inStep_pure _

theorem blind_openDispatch (round : TaskId) (id : RecordId) (context : EditContext) :
    BlindTo S (openDispatch round id context) :=
  inStep_bind (blind_modifyRegistry (.count id Counters.next)) fun _ =>
    Broker.inStep_record_bind id fun _ _ akin => by
      rw [akin.counters]
      exact inStep_bind (blind_note _) fun _ => inStep_pure _

theorem blind_consider (round : TaskId) (context : EditContext) (disabled : List Value)
    (id : RecordId) : BlindTo S (consider round context disabled id) := by
  refine Broker.inStep_record_bind id fun x x' akin => ?_
  rw [← akin.activated, ← akin.provider]
  split
  · exact inStep_pure _
  · refine inStep_bind (Broker.blind_nameOf _) fun name => ?_
    split
    · exact inStep_bind (blind_trace _) fun _ => inStep_pure _
    · refine inStep_bind (Gate.inStep_shouldTrigger akin _) fun applies => ?_
      split
      · exact inStep_pure _
      · exact inStep_bind (blind_openDispatch _ _ _) fun d =>
          inStep_bind (blind_beginNotice _ _) fun n => inStep_bind (Voiced.emit _ _ _) fun _ =>
            inStep_pure _

theorem blind_considerAll (round : TaskId) (context : EditContext) (disabled : List Value)
    (ids : List RecordId) : BlindTo S (considerAll round context disabled ids) := by
  induction ids with
  | nil => exact inStep_pure _
  | cons id ids ih =>
    exact inStep_bind (blind_consider _ _ _ id) fun _ => inStep_bind ih fun _ => inStep_pure _

theorem blind_start (round : TaskId) (context : EditContext) : BlindTo S (start round context) := by
  refine inStep_get fun s s' h => ?_
  rw [Likeness.disposed h]
  split
  · exact inStep_pure _
  · refine inStep_bind blind_ensureSettings fun _ =>
      inStep_bind (Gate.blind_shouldLint context) fun linted => ?_
    split
    · exact inStep_pure _
    · refine inStep_bind blind_disabledNames fun disabled => inStep_get fun s s' h => ?_
      rw [Likeness.active h]
      exact inStep_bind (blind_considerAll _ _ _ _) fun _ => inStep_pure _

end Round

namespace Dispatch

theorem blind_announce (d : Dispatch) (p : ProviderId) : BlindTo S (announce d p) :=
  inStep_bind (Broker.blind_nameOf p) fun _ => inStep_bind (blind_trace _) fun _ => blind_note _

theorem blind_contain (p : ProviderId) (cancelling : Bool) (r : Except Failure Value) :
    BlindTo S (contain p cancelling r) := by
  cases r with
  | ok v =>
    simp only [contain]
    split
    · exact inStep_bind (Broker.blind_nameOf p) fun _ => inStep_bind (blind_debug _) fun _ =>
        inStep_pure _
    · exact inStep_pure _
  | error f =>
    have report (summary : String → String) : BlindTo S (do
        let name ← during (some f) (Broker.nameOf p)
        reportFault (summary name) f
        return Outcome.fault : Act Outcome) :=
      inStep_bind (inStep_during _ (Broker.blind_nameOf p)) fun _ =>
        inStep_bind (blind_reportFault _ _) fun _ => inStep_pure _
    simp only [contain]
    split
    · split
      · exact inStep_bind (inStep_throw _) fun _ => report _
      · exact report _
    · split
      · exact report _
      · exact inStep_throw _

theorem blind_accept (d : Dispatch) : BlindTo S (accept d) :=
  Broker.inStep_record_bind _ fun _ _ akin => by
    rw [akin.counters]
    exact inStep_bind (blind_modifyRegistry (.count d.record (·.receive d.generation))) fun _ =>
      inStep_bind (blind_note _) fun _ => inStep_pure _

theorem blind_shouldSurface (d : Dispatch) (p : ProviderId) : BlindTo S (shouldSurface d p) := by
  refine Broker.inStep_record_bind _ fun x x' akin => ?_
  rw [← akin.activated]
  split
  · exact inStep_pure _
  · refine inStep_bind (Broker.blind_scopeOf p) fun scope => ?_
    split
    · exact inStep_pure _
    · exact inStep_bind (blind_askSurface _ _) fun _ => inStep_pure _

theorem blind_respond (d : Dispatch) (p : ProviderId) (cancelling : Bool)
    (r : Except Failure Value) : BlindTo S (respond d p cancelling r) := by
  refine inStep_bind (blind_note _) fun _ => inStep_bind (inStep_awaited (blind_contain p _ r))
    fun outcome => inStep_bind (blind_accept d) fun news => ?_
  split
  · exact inStep_bind (Broker.blind_nameOf p) fun _ => inStep_bind (blind_trace _) fun _ =>
      inStep_pure _
  · split
    · exact inStep_pure _
    · refine inStep_bind (blind_shouldSurface d p) fun may => ?_
      split
      · exact inStep_bind (Round.blind_updateNotice p _ _) fun _ => inStep_pure _
      · exact inStep_pure _

theorem blind_deliver (d : Dispatch) (p : ProviderId) (cancelling : Bool)
    (r : Except Failure Value) : BlindTo S (deliver d p cancelling r) := by
  refine inStep_bind (blind_respond d p _ r) fun notice => ?_
  split
  · exact Voiced.emit none d _
  · exact inStep_pure _

theorem blind_announceEnd (d : Dispatch) (p : ProviderId) (leaving : Option Failure) :
    BlindTo S (announceEnd d p leaving) :=
  inStep_bind (inStep_during _ (Round.blind_finishNotice p _)) fun _ => Voiced.emit _ d _

theorem blind_conclude (d : Dispatch) (p : ProviderId) (cancelling : Bool)
    (r : Except Failure Value) : BlindTo S (conclude d p cancelling r) :=
  inStep_bind (inStep_attempt (blind_deliver d p _ r)) fun _ =>
    inStep_bind (blind_announceEnd d p _) fun _ => inStep_take _

end Dispatch
end LintBroker

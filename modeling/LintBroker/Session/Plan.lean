import LintBroker.Session.Basic

/-! # Planned hosts

Providers and listeners written down as plans: lists of actions, with a way to answer. -/
namespace LintBroker

/-- How a provider hands its answer over: at once, as a request of its own, by a computation that is
awaited, or wrapped in something that is not awaited. -/
inductive AnswerMode
  | atOnce
  | request
  | awaited
  | wrapped
deriving DecidableEq, Repr, Inhabited

structure CallPlan where
  first : List Action := []
  mode : AnswerMode := .atOnce
  later : List Action := []
  pauses : Nat := 0
  waits : Bool := false
  failure : Option Failure := none
  value : Value := .list []
  absorbs : Option Value := none

namespace CallPlan

def answer (plan : CallPlan) : Except Failure Value :=
  match plan.failure with
  | some f => .error f
  | none => .ok plan.value

/-- How an awaited computation ends: it may absorb a cancellation. -/
def close (plan : CallPlan) (r : Except Failure Value) : Reply :=
  match r with
  | .ok v => .value v
  | .error f =>
    match f.isCancellation, plan.absorbs with
    | true, some v => .value v
    | _, _ => .fail f.leaving

/-- The computation that is awaited: it gives way, then waits for a request or acts and answers. -/
def awaited (plan : CallPlan) : Reply :=
  Reply.afterPauses plan.pauses fun
    | .error f => plan.close (.error f)
    | .ok () =>
      if plan.waits then .request plan.close
      else Reply.afterActions plan.later fun
        | .error f => plan.close (.error f)
        | .ok () => plan.close plan.answer

def reply (plan : CallPlan) : Reply :=
  Reply.afterActions plan.first fun
    | .error f => .fail f
    | .ok () =>
      match plan.mode with
      | .atOnce => Reply.afterActions plan.later fun
        | .error f => .fail f
        | .ok () => Reply.settle plan.answer
      | .request => .request Reply.settle
      | .awaited => plan.awaited
      | .wrapped => .value (.object "Thing")

/-- The replies of a list of plans, the last of which serves for all later calls. -/
def replies (plans : List CallPlan) (n : Nat) : Reply :=
  match plans[n]?, plans.getLast? with
  | some plan, _ => plan.reply
  | none, some plan => plan.reply
  | none, none => ({} : CallPlan).reply

end CallPlan

/-- What a listener does: append a message, then act, the latter on a limited number of calls if
there is a limit. -/
structure ListenerPlan (α : Type) where
  message : Option Value := none
  actions : List α := []
  times : Option Nat := none

namespace ListenerPlan
variable {α ρ : Type}

def script (plan : ListenerPlan α) (count : Nat) : Script α ρ :=
  let acts : Script α ρ :=
    match plan.times with
    | some limit => if count < limit then .ofActions plan.actions else .done
    | none => .ofActions plan.actions
  match plan.message with
  | none => acts
  | some v => .append v fun
    | .ok () => acts
    | .error f => .fail f

end ListenerPlan
end LintBroker

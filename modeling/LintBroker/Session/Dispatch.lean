import LintBroker.Session.Round

/-! # One dispatch

A dispatch asks its provider once and waits for the answer. A provider that fails is reported and
treated as if it had sent no messages; an answer that is not news is dropped; and whatever happens
after the provider was asked, its end is announced. -/
namespace LintBroker

/-- How far a provider's reply has come: to its answer, or to where it gives way or waits. -/
inductive Progress
  | answered (r : Except Failure Value)
  | paused (next : Except Failure Unit → Reply)
  | awaiting (request : RequestId) (next : Except Failure Value → Reply)

namespace Dispatch

/-- Goes on with a reply until it has to give way or wait. -/
def advance (p : ProviderId) (t : TaskId) : Reply → StateM Session Progress
  | .value v => return .answered (.ok v)
  | .fail f => return .answered (.error f)
  | .act a next => do
    let r ← (Act.perform a).run
    advance p t (next r)
  | .pause next => return .paused next
  | .request next => do
    let request := (← get).loop.requests.size
    let _ ← (Act.modifyLoop fun l => l.openRequest p t).run
    return .awaiting request next

/-- The messages of an answer: the items of a list or a tuple. -/
def messagesOf (v : Value) : List Value := v.sequence?.getD []

/-- What an answer is worth: messages, or nothing because the provider failed. -/
inductive Outcome
  | messages (items : List Value)
  | fault
deriving Inhabited

/-- Asks the provider: its reply starts with whatever goes wrong in asking. -/
def ask (d : Dispatch) (p : ProviderId) : Act Reply := do
  match ← Act.take ((← Act.attributes p).lookUp "lint") with
  | .value v => throw (.ofText .badType ("'" ++ v.typeName ++ "' object is not callable"))
  | .method =>
    let provider ← Act.expect ((← get).host.providers.get? p) p
    let count := ((← get).host.calls.get? p).getD 0
    Act.modifyHost fun h => { h with calls := h.calls.put p (count + 1) }
    Act.note (.invoked d p)
    return provider.reply count

/-- Contains what may be contained. A cancellation is contained too, unless it is the dispatch
itself that is being cancelled. -/
def contain (p : ProviderId) (cancelling : Bool) : Except Failure Value → Act Outcome
  | .ok v => do
    if v.sequence?.isNone then
      let name ← Broker.nameOf p
      Act.debug ("Provider " ++ Text.quoted name ++ " returned " ++ v.typeName ++
        ", not a list of messages")
    return .messages (messagesOf v)
  | .error f => do
    if f.isCancellation then
      if cancelling then throw f
      let name ← Act.during (some f) (Broker.nameOf p)
      Act.reportFault ("Provider " ++ Text.quoted name ++ " cancelled its request") f
      return .fault
    else if f.isOrdinary then
      let name ← Act.during (some f) (Broker.nameOf p)
      Act.reportFault ("Provider " ++ Text.quoted name ++ " crashed") f
      return .fault
    else throw f

/-- Presents the dispatch's response to its registration and tells whether it was news. -/
def accept (d : Dispatch) : Act Bool := do
  let news := (← Broker.record d.record).counters.isNews d.generation
  Act.modifyRegistry fun r =>
    r.changeRecord d.record fun x => { x with counters := x.counters.receive d.generation }
  Act.note (.accepted d news)
  return news

/-- Whether messages may be surfaced: the registration is in force, and the messages are about the
project or their surface still exists. -/
def shouldSurface (d : Dispatch) (p : ProviderId) : Act Bool := do
  if !(← Broker.record d.record).activated then return false
  match ← Broker.scopeOf p with
  | .project => return true
  | .file => return !(← Act.askSurface d.context.surface .destroyed).truthy

/-- Deals with the provider's answer and gives the notice of what is surfaced of it, if anything
is. -/
def respond (d : Dispatch) (p : ProviderId) (cancelling : Bool) (r : Except Failure Value) :
    Act (Option Notice) := do
  Act.note (.answered d r)
  let outcome ← Act.awaited (contain p cancelling r)
  if !(← accept d) then
    let name ← Broker.nameOf p
    Act.trace ("Dropping stale response " ++ toString d.generation ++ " from " ++ Text.quoted name)
    return none
  match outcome with
  | .fault => return none
  | .messages items =>
    if ← shouldSurface d p then return some (← Round.updateNotice p d.context (.list items))
    return none

/-- Deals with the provider's answer and surfaces what is news. -/
def deliver (d : Dispatch) (p : ProviderId) (cancelling : Bool) (r : Except Failure Value) :
    Act Unit := do
  if let some notice ← respond d p cancelling r then Act.emit none d notice

/-- Announces the end of the dispatch, perhaps while a failure is on its way out. -/
def announceEnd (d : Dispatch) (p : ProviderId) (leaving : Option Failure) : Act Unit := do
  let notice ← Act.during leaving (Round.finishNotice p d.context)
  Act.emit leaving d notice

def failure? {α : Type} : Except Failure α → Option Failure
  | .ok _ => none
  | .error f => some f

/-- Deals with the provider's answer and announces the end, whatever came of it. -/
def conclude (d : Dispatch) (p : ProviderId) (cancelling : Bool) (r : Except Failure Value) :
    Act Unit := do
  let result ← Act.attempt (deliver d p cancelling r)
  announceEnd d p (failure? result)
  Act.take result

def provider (d : Dispatch) : Act ProviderId := do
  return (← Broker.record d.record).provider

/-- Writes the first trace line of a dispatch, which then has entered the part whose end is
announced. A failure here ends the dispatch before that. -/
def announce (d : Dispatch) (p : ProviderId) : Act Unit := do
  let name ← Broker.nameOf p
  Act.trace ("Linting with " ++ Text.quoted name ++ ", request " ++ toString d.generation)
  Act.note (.entered d)

def start (d : Dispatch) (p : ProviderId) (t : TaskId) : StateM Session Progress := do
  match ← (ask d p).run with
  | .ok reply => advance p t reply
  | .error f => return .answered (.error f)

end Dispatch
end LintBroker

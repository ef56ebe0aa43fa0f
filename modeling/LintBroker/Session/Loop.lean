import LintBroker.Session.Basic

/-! # Tasks, requests and the queue

The loop's own steps, as functions on its state. Whoever waits for something is put into the queue
when it ends; the queue is first in, first out. -/
namespace LintBroker

/-- How a round stands after one more of its members has ended. The first that fails or is cancelled
decides; if none does, the last one decides. -/
def Gathering.afterMember (g : Gathering) (e : Ending) : Gathering :=
  let g := { g with ended := g.ended + 1 }
  match g.outcome, e with
  | some _, _ => g
  | none, .cancelled => { g with outcome := some (.error .cancellation) }
  | none, .failed f => { g with outcome := some (.error f) }
  | none, .value _ =>
    if g.ended = g.members.length then
      { g with outcome := some (if g.cancelRequested then .error .cancellation else .ok ()) }
    else g

namespace Loop

def enqueue (l : Loop) (r : Ready) : Loop := { l with ready := l.ready ++ [r] }

def changeTask (l : Loop) (t : TaskId) (change : Task → Task) : Loop :=
  { l with tasks := l.tasks.modify t change }

def setPhase (l : Loop) (t : TaskId) (phase : Phase) : Loop :=
  l.changeTask t fun task => { task with phase }

def spawn (l : Loop) (name : Option String) (job : Job) : Loop :=
  { l with tasks := l.tasks.push { name, job } }.enqueue (.step l.tasks.size)

def openRequest (l : Loop) (p : ProviderId) (t : TaskId) : Loop :=
  { l with requests := l.requests.push { provider := p, awaitedBy := t } }

def isPending (l : Loop) (r : RequestId) : Bool :=
  match l.requests[r]? with
  | some request => request.settlement.isNone
  | none => false

/-- Settles a request and queues the step of the task that awaits it. A request is settled once. -/
def settle (l : Loop) (r : RequestId) (s : Settlement) : Loop :=
  match l.requests[r]? with
  | some request =>
    match request.settlement with
    | none =>
      { l with requests := l.requests.modify r fun q => { q with settlement := some s } }.enqueue
        (.step request.awaitedBy)
    | some _ => l
  | none => l

/-- Asks a task that waits for nothing, or for something already over, to end at its next step. -/
def leavePending (l : Loop) (t : TaskId) : Loop :=
  l.changeTask t fun task => { task with cancelPending := true, cancelling := true }

def markCancelling (l : Loop) (t : TaskId) : Loop :=
  l.changeTask t fun task => { task with cancelling := true }

def hasEnded (l : Loop) (t : TaskId) : Bool :=
  match l.tasks[t]? with
  | some task => match task.phase with
    | .ended _ => true
    | _ => false
  | none => true

/-- Asks a task to end that is not itself waiting for other tasks: what it waits for is cancelled
if that is still possible, and otherwise the cancellation is left for its next step. -/
def cancelMember (l : Loop) (t : TaskId) : Loop :=
  if l.hasEnded t then l
  else
    match (l.tasks[t]?.map Task.phase) with
    | some (.awaiting r _) =>
      if l.isPending r then (l.markCancelling t).settle r .cancelled else l.leavePending t
    | _ => l.leavePending t

def cancelMembers (l : Loop) (members : List TaskId) : Loop := members.foldl cancelMember l

/-- Asks a task to end. A lint that waits for its round passes this on to the members of the round
that have not ended; if all have, the cancellation is left for its next step. -/
def cancel (l : Loop) (t : TaskId) : Loop :=
  match (l.tasks[t]?.map Task.phase) with
  | some (.gathering g) =>
    if g.outcome.isNone && g.members.any (fun m => !l.hasEnded m) then
      ((l.cancelMembers g.members).setPhase t
        (.gathering { g with cancelRequested := true })).markCancelling t
    else l.leavePending t
  | _ => l.cancelMember t

/-- Lets a task run: it is no longer fresh and waits for nothing, and a cancellation that had not
reached it has reached it now. -/
def wake (l : Loop) (t : TaskId) : Loop :=
  l.changeTask t fun task => { task with phase := .running, cancelPending := false }

def pause (l : Loop) (t : TaskId) (next : Except Failure Unit → Reply) : Loop :=
  (l.setPhase t (.paused next)).enqueue (.step t)

def isCancelPending (l : Loop) (t : TaskId) : Bool :=
  ((l.tasks[t]?).map Task.cancelPending).getD false

/-- Takes it that the cancellation of a task has reached what it waits for. -/
def passCancellation (l : Loop) (t : TaskId) : Loop :=
  l.changeTask t fun task => { task with cancelPending := false }

/-- Lets a task wait for a request. A cancellation that arrived while it ran reaches the request as
soon as it is awaited. -/
def await (l : Loop) (t : TaskId) (r : RequestId) (next : Except Failure Value → Reply) : Loop :=
  let l := l.setPhase t (.awaiting r next)
  if l.isCancelPending t then (l.passCancellation t).settle r .cancelled else l

def spawnAll (l : Loop) (ds : List Dispatch) : Loop :=
  ds.foldl (fun l d => l.spawn none (.dispatch d)) l

/-- Makes the tasks of a round and lets a lint wait for them. A cancellation that arrived while it
ran goes on to all of them. -/
def gather (l : Loop) (t : TaskId) (ds : List Dispatch) : Loop :=
  let members := (List.range ds.length).map fun n => l.tasks.size + n
  let pending := l.isCancelPending t
  let l := (l.spawnAll ds).setPhase t (.gathering { members, cancelRequested := pending })
  if pending then (l.passCancellation t).cancelMembers members else l

/-- Ends a task. The round that it belongs to hears of it. -/
def finish (l : Loop) (t : TaskId) (e : Ending) : Loop :=
  let l := l.changeTask t fun task => { task with phase := .ended e, cancelPending := false }
  match l.tasks[t]?.map Task.job with
  | some (.dispatch d) => l.enqueue (.memberEnded d.round t)
  | _ => l

/-- Tells a lint task that a member of its round has ended. -/
def memberEnded (l : Loop) (parent member : TaskId) : Loop :=
  match l.tasks[parent]?.map Task.phase, l.tasks[member]?.map Task.phase with
  | some (.gathering g), some (.ended e) =>
    let g' := g.afterMember e
    let l := l.setPhase parent (.gathering g')
    if g.outcome.isNone && g'.outcome.isSome then l.enqueue (.step parent) else l
  | _, _ => l

def requestsOf (l : Loop) (p : ProviderId) : List RequestId :=
  (List.range l.requests.size).filter fun r =>
    match l.requests[r]? with
    | some request => request.provider == p
    | none => false

/-- The task of a name; of several, the last one made. -/
def named? (l : Loop) (name : String) : Option TaskId :=
  ((List.range l.tasks.size).filter fun t =>
    (l.tasks[t]?.bind Task.name) == some name).getLast?

def namedCount (l : Loop) : Nat := l.tasks.foldl (fun n task => if task.name.isSome then n + 1 else n) 0

end Loop
end LintBroker

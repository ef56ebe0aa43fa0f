import LintBroker.Session.Dispatch

/-! # Running a session

A *tick* runs what stands first in the queue. A run of a session is any interleaving of actions of
the host and ticks; draining ticks until nothing is ready. -/
namespace LintBroker
namespace Session

def onLoop (s : Session) (change : Loop → Loop) : Session := { s with loop := change s.loop }

/-- How a computation ends a task: a failure that is a cancellation cancels it, and so does a
cancellation that has not reached it yet, unless it failed. -/
def endingOf (cancelPending : Bool) : Except Failure Bool → Ending
  | .ok b => if cancelPending then .cancelled else .value b
  | .error f => if f.isCancellation then .cancelled else .failed f

def finish (t : TaskId) (r : Except Failure Bool) : StateM Session Unit :=
  modify fun s =>
    s.onLoop fun l => l.finish t (endingOf (l.isCancelPending t) (r.mapError Failure.leaving))

def isCancelling (t : TaskId) : StateM Session Bool := do
  return (((← get).loop.tasks[t]?).map Task.cancelling).getD false

/-- Ends a dispatch, or leaves it where it gives way or waits. -/
def follow (d : Dispatch) (p : ProviderId) (t : TaskId) : Progress → StateM Session Unit
  | .answered r => do
    let result ← (Dispatch.conclude d p (← isCancelling t) r).run
    finish t (result.map fun _ => true)
  | .paused next => modify fun s => s.onLoop fun l => l.pause t next
  | .awaiting r next => modify fun s => s.onLoop fun l => l.await t r next

def startDispatch (d : Dispatch) (t : TaskId) : StateM Session Unit := do
  match ← (Dispatch.provider d).run with
  | .error f => finish t (.error f)
  | .ok p =>
    match ← (Dispatch.announce d p).run with
    | .error f => finish t (.error f)
    | .ok () => follow d p t (← Dispatch.start d p t)

/-- Goes on with a dispatch whose provider gave way or waited. -/
def resumeDispatch (d : Dispatch) (t : TaskId) (reply : Reply) : StateM Session Unit := do
  match ← (Dispatch.provider d).run with
  | .error f => finish t (.error f)
  | .ok p => follow d p t (← Dispatch.advance p t reply)

def startLint (context : EditContext) (t : TaskId) : StateM Session Unit := do
  match ← (Round.start t context).run with
  | .error f => finish t (.error f)
  | .ok none => finish t (.ok false)
  | .ok (some []) => finish t (.ok true)
  | .ok (some ds) => modify fun s => s.onLoop fun l => l.gather t ds

/-- What a task is resumed with: a cancellation that has not reached it yet takes the place of
everything but a cancellation. -/
def arrival {α : Type} (cancelPending : Bool) (r : Except Failure α) : Except Failure α :=
  if cancelPending then
    match r with
    | .error f => if f.isCancellation then .error f else .error .cancellation
    | .ok _ => .error .cancellation
  else r

/-- What the end of a request is to the one who awaited it. -/
def settled : Settlement → Except Failure Value
  | .value v => .ok v
  | .failed f => .error f
  | .cancelled => .error .cancellation

def putBack (t : TaskId) (task : Task) : StateM Session Unit :=
  modify fun s => s.onLoop fun l => l.changeTask t fun _ => task

/-- Goes on with a task that has just been woken, from where it stood. A task that has nothing to go
on with is put back as it was. -/
def resume (t : TaskId) (task : Task) : StateM Session Unit := do
  match task.phase, task.job with
  | .fresh, .lint context =>
    if task.cancelPending then finish t (.error .cancellation) else startLint context t
  | .fresh, .dispatch d =>
    if task.cancelPending then finish t (.error .cancellation) else startDispatch d t
  | .paused next, .dispatch d =>
    resumeDispatch d t (next (arrival task.cancelPending (.ok ())))
  | .awaiting r next, .dispatch d =>
    match ((← get).loop.requests[r]?).bind Request.settlement with
    | some e => resumeDispatch d t (next (arrival task.cancelPending (settled e)))
    | none => putBack t task
  | .gathering g, _ =>
    match g.outcome with
    | some r => finish t ((arrival task.cancelPending r).map fun _ => true)
    | none => putBack t task
  | _, _ => putBack t task

def step (t : TaskId) : StateM Session Unit := do
  match (← get).loop.tasks[t]? with
  | none => return ()
  | some task =>
    modify fun s => s.onLoop fun l => l.wake t
    resume t task

/-- Runs what stands first in the queue. -/
def tick (s : Session) : Session :=
  match s.loop.ready with
  | [] => s
  | r :: rest =>
    let s := s.onLoop fun l => { l with ready := rest }
    match r with
    | .step t => ((step t).run s).2
    | .memberEnded parent member => s.onLoop fun l => l.memberEnded parent member

def perform (a : Action) (s : Session) : Except Failure Result × Session := (Act.perform a).run.run s

inductive Move
  | act (a : Action)
  | tick

def move (s : Session) : Move → Session
  | .act a => (s.perform a).2
  | .tick => s.tick

def run (s : Session) (moves : List Move) : Session := moves.foldl move s

/-- Ticks until nothing is ready, or until the fuel is used up. -/
def drain : Nat → Session → Session
  | 0, s => s
  | fuel + 1, s => if s.loop.ready.isEmpty then s else drain fuel s.tick

/-- Draining is a run of ticks. -/
theorem drain_eq_run (fuel : Nat) (s : Session) :
    ∃ n, drain fuel s = run s (List.replicate n .tick) := by
  induction fuel generalizing s with
  | zero => exact ⟨0, rfl⟩
  | succ fuel ih =>
    unfold drain
    split
    · exact ⟨0, rfl⟩
    · obtain ⟨n, hn⟩ := ih s.tick
      exact ⟨n + 1, by rw [hn]; rfl⟩

end Session
end LintBroker

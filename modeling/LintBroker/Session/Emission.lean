import LintBroker.Session.Perform

/-! # Emitting notices

A notice goes to those who were listening to its kind when the emission started, whatever they do
meanwhile. -/
namespace LintBroker
namespace Act

/-- Performs an action for a script; a failure remembers the one that is being handled. -/
def performIn (handling : Option Failure) (a : Action) : StateM Session (Except Failure Result) :=
  (during handling (perform a)).run

def call (handling : Option Failure) (d : Dispatch) (l : ListenerId) (n : Notice) :
    StateM Session (Notice × Except Failure Unit) := do
  let _ ← (note (.delivered l n)).run
  let _ ← (note (.heard d l n)).run
  match (← get).host.listeners.get? l with
  | none => return (n, .ok ())
  | some listener =>
    let count := ((← get).host.deliveries.get? l).getD 0
    let _ ← (modifyHost fun h => { h with deliveries := h.deliveries.put l (count + 1) }).run
    let (n, r) ← (listener.script count n).run (performIn handling) n
    match r, handling with
    | .error f, some e => return (n, .error (e.during f))
    | r, _ => return (n, r)

def reportListener (kind : NoticeKind) (l : ListenerId) (f : Failure) : StateM Session Unit := do
  let _ ← (reportFault (listenerFault kind l) f).run

/-- Emits a notice for a dispatch, perhaps while a failure is being handled. -/
def emit (handling : Option Failure) (d : Dispatch) (n : Notice) : Act Unit := do
  note (.emitted d n)
  let audience := (← get).registry.bus.audience n.kind
  ExceptT.mk (deliverAll (call handling d) (reportListener n.kind) audience n)

end Act
end LintBroker

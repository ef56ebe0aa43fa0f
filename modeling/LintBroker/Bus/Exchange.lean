import LintBroker.Bus.Script
import LintBroker.Failure.Report
import LintBroker.Table

/-! # A bus in use

An exchange is a bus together with its listeners and the means to end their subscriptions. While
they are called, listeners may subscribe, end subscriptions, dispose the bus and emit notices of
their own, which are delivered before the listener goes on. -/
namespace LintBroker

inductive BusAction
  | subscribe (s : Subscription) (token : String)
  | unsubscribe (token : String)
  | emit (n : Notice)
  | dispose
  | raise (f : Failure)
deriving Inhabited

inductive BusEntry
  | debug (text : String)
  | trace (text : String)
  | delivered (l : ListenerId) (n : Notice)
deriving Inhabited

/-- What listeners do: on their first call, on their second, and so on. -/
abbrev BusListeners := ListenerId → Nat → Notice → Script BusAction Unit

structure Exchange where
  bus : Bus := {}
  subscriptions : Table String Subscription := ∅
  calls : Table ListenerId Nat := ∅
  journal : Array BusEntry := #[]

namespace Exchange

def note (x : Exchange) (e : BusEntry) : Exchange := { x with journal := x.journal.push e }

def reportFault (x : Exchange) (summary : String) (f : Failure) : Exchange :=
  f.report.foldl (fun x line => x.note (.trace line)) (x.note (.debug (f.summaryLine summary)))

/-- Subscribes a listener and keeps the means to end the subscription under a token. -/
def subscribe (x : Exchange) (s : Subscription) (token : String) : Exchange :=
  { x with bus := x.bus.subscribe s, subscriptions := x.subscriptions.put token s }

def unsubscribe (x : Exchange) (token : String) : Exchange :=
  match x.subscriptions.get? token with
  | some s => { x with bus := x.bus.unsubscribe s }
  | none => x

/-- A computation on an exchange that may not come to an end. -/
abbrev Step := StateT Exchange Option

def performWith (emit : Notice → Step (Except Failure Unit)) :
    BusAction → Step (Except Failure Unit)
  | .subscribe s token => do
    modify fun x => x.subscribe s token
    return .ok ()
  | .unsubscribe token => do
    modify fun x => x.unsubscribe token
    return .ok ()
  | .emit n => emit n
  | .dispose => do
    modify fun x => { x with bus := x.bus.dispose }
    return .ok ()
  | .raise f => return .error f

def callWith (listeners : BusListeners) (emit : Notice → Step (Except Failure Unit))
    (l : ListenerId) (n : Notice) : Step (Notice × Except Failure Unit) := do
  modify fun x => x.note (.delivered l n)
  let count := ((← get).calls.get? l).getD 0
  modify fun x => { x with calls := x.calls.put l (count + 1) }
  (listeners l count n).run (performWith emit) n

/-- Emits a notice. It is delivered to those who were listening when the emission started. The fuel
bounds how deep emissions are nested; without any left there is no result. -/
def emit (listeners : BusListeners) : (fuel : Nat) → Notice → Step (Except Failure Unit)
  | 0, _ => failure
  | fuel + 1, n => do
    deliverAll (callWith listeners (emit listeners fuel))
      (fun l f => modify fun x => x.reportFault (listenerFault n.kind l) f)
      ((← get).bus.audience n.kind) n

def perform (listeners : BusListeners) (fuel : Nat) (a : BusAction) (x : Exchange) :
    Option (Except Failure Unit × Exchange) :=
  (performWith (emit listeners fuel) a).run x

end Exchange
end LintBroker

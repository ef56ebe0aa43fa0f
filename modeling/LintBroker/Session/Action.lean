import LintBroker.Bus.Script
import LintBroker.Provider.Basic
import LintBroker.Setting.Store
import LintBroker.Surface

/-! # What hosts, listeners and providers do

An action is one call that a host can make at any time, and that listeners and providers can make
while they are being called. A *reply* is what a provider does from the moment it is asked to lint
until its answer is there: a tree in which what comes next may depend on how the last action, pause
or request went. -/
namespace LintBroker

/-- What a lint is asked for: a context opened earlier, or a surface as it is now. -/
inductive LintTarget
  | opened (context : String)
  | surface (id : SurfaceId) (onChange : Value)
deriving Inhabited

/-- A call into the broker or a change of the host. -/
inductive Action
  | add (p : ProviderId) (legacy : Bool)
  | remove (p : ProviderId)
  | has (p : ProviderId)
  | recordOf (p : ProviderId)
  | recordFields (record : Nat)
  | openContext (name : String) (surface : SurfaceId) (onChange : Value)
  | lint (target : LintTarget) (task : Option String)
  | resolve (p : ProviderId) (n : Nat) (v : Value)
  | fail (p : ProviderId) (n : Nat) (f : Failure)
  | withdraw (p : ProviderId) (n : Nat)
  | cancel (task : String)
  | subscribe (s : Subscription) (token : String)
  | unsubscribe (token : String)
  | dispose
  | setUp
  | setSetting (item : String) (v : Value)
  | unsetSetting (item : String)
  | getSetting (item : String)
  | setVariable (name : String) (v : Option String)
  | changeSurface (surface : SurfaceId) (q : Surface.Question) (v : Value)
  | setAttribute (p : ProviderId) (name : String) (v : Value)
  | deleteAttribute (p : ProviderId) (name : String)
  | ignorePath (path : Value)
  | noticePath (path : Value)
  | raise (f : Failure)
  | pass
  | batch (actions : List Action)

instance : Inhabited Action := ⟨.pass⟩

inductive Result
  | value (v : Value)
  | fields (rows : List (String × Except Failure Value))
  | many (results : List (Except Failure Result))

/-- What a provider does from being asked until its answer. A pause gives way to whatever is ready;
a request is settled from outside. Either may be resumed by a failure. -/
inductive Reply
  | value (v : Value)
  | fail (f : Failure)
  | act (a : Action) (next : Except Failure Result → Reply)
  | pause (next : Except Failure Unit → Reply)
  | request (next : Except Failure Value → Reply)

instance : Inhabited Reply := ⟨.value .none⟩

namespace Reply

/-- Performs actions one after the other until one fails, then goes on. -/
def afterActions (actions : List Action) (next : Except Failure Unit → Reply) : Reply :=
  match actions with
  | [] => next (.ok ())
  | a :: rest => .act a fun
    | .ok _ => afterActions rest next
    | .error f => next (.error f)

/-- Gives way a number of times, then goes on; a failure ends it early. -/
def afterPauses : Nat → (Except Failure Unit → Reply) → Reply
  | 0, next => next (.ok ())
  | n + 1, next => .pause fun
    | .ok () => afterPauses n next
    | .error f => next (.error f)

def settle : Except Failure Value → Reply
  | .ok v => .value v
  | .error f => .fail f

end Reply
end LintBroker

import LintBroker.Registry
import LintBroker.Session.Action

/-! # The state of a session

A session holds the host (surfaces, providers, listeners, ignore rules, settings), the registry, and
the loop: the tasks, the requests they wait for, and the queue of what is ready to run. All that
happens is written into a journal. -/
namespace LintBroker

/-- Tasks are numbered in the order in which they were made. -/
abbrev TaskId := Nat

/-- Requests are numbered in the order in which they were made. -/
abbrev RequestId := Nat

/-- One request to one provider: the lint task it belongs to, the registration and the count of its
requests, and the context. -/
structure Dispatch where
  round : TaskId
  record : RecordId
  generation : Nat
  context : EditContext
deriving Inhabited

inductive Entry
  | debug (text : String)
  | trace (text : String)
  | ignoreAsked (path : Value)
  | matchAsked (scopes : Value) (surface : SurfaceId)
  | surfaceAsked (surface : SurfaceId) (q : Surface.Question)
  | settingAsked (item : String)
  | contextOpened (context : EditContext)
  | registered (record : RecordId) (p : ProviderId)
  | removed (record : RecordId) (p : ProviderId)
  | disposed
  | reshaped (p : ProviderId) (attributes : Attributes)
  | altered (surface : SurfaceId) (q : Surface.Question) (v : Value)
  | subscribed (s : Subscription)
  | unsubscribed (s : Subscription)
  | dispatched (d : Dispatch)
  | entered (d : Dispatch)
  | invoked (d : Dispatch) (p : ProviderId)
  | answered (d : Dispatch) (r : Except Failure Value)
  | accepted (d : Dispatch) (news : Bool)
  | emitted (d : Dispatch) (notice : Notice)
  | delivered (l : ListenerId) (notice : Notice)
  | heard (d : Dispatch) (l : ListenerId) (notice : Notice)
deriving Inhabited

/-- A rule for ignored paths. The answer of a rule with a verdict is that; otherwise a path is
ignored if it is listed. A rule may count as false where a truth value is asked for. -/
structure IgnoreRule where
  listed : List Value := []
  verdict : Option (Except Failure Value) := none
  truthy : Bool := true

structure Matcher where
  verdict : Value → SurfaceId → Except Failure Value
  truthy : Bool := true

/-- A provider of the host's: its attributes, and what it does on its first call to lint, on its
second, and so on. -/
structure Provider where
  attributes : Attributes
  reply : Nat → Reply

/-- A listener of the host's: what it does on its first call, on its second, and so on. -/
structure Listener where
  script : Nat → Notice → Script Action Result

/-- Where the registry reads settings: a store given to it, or the settings of the session. These may
be lacking: to make them writes some lines and fails. -/
inductive SettingSource
  | given (read : String → Except Failure Value)
  | shared
  | lacking (lines : List String) (f : Failure)

structure Host where
  surfaces : Table SurfaceId Surface := ∅
  providers : Table ProviderId Provider := ∅
  listeners : Table ListenerId Listener := ∅
  ignoreRule : Option IgnoreRule := none
  matcher : Option Matcher := none
  environment : Setting.Environment := ∅
  calls : Table ProviderId Nat := ∅
  deliveries : Table ListenerId Nat := ∅
  contexts : Table String EditContext := ∅
  subscriptions : Table String Subscription := ∅

inductive Settlement
  | value (v : Value)
  | failed (f : Failure)
  | cancelled
deriving Inhabited

/-- A request that a provider made; the task that awaits it goes on when it is settled. -/
structure Request where
  provider : ProviderId
  awaitedBy : TaskId
  settlement : Option Settlement := none
deriving Inhabited

/-- A lint task's wait for the dispatches of its round. It ends with the first that fails, or when
all have ended. -/
structure Gathering where
  members : List TaskId
  ended : Nat := 0
  cancelRequested : Bool := false
  outcome : Option (Except Failure Unit) := none
deriving Inhabited

inductive Ending
  | value (b : Bool)
  | failed (f : Failure)
  | cancelled
deriving Inhabited

inductive Phase
  | fresh
  | running
  | paused (next : Except Failure Unit → Reply)
  | awaiting (r : RequestId) (next : Except Failure Value → Reply)
  | gathering (g : Gathering)
  | ended (e : Ending)

instance : Inhabited Phase := ⟨.fresh⟩

/-- What a task does: a lint, or one dispatch of a lint's round. -/
inductive Job
  | lint (context : EditContext)
  | dispatch (d : Dispatch)
deriving Inhabited

/-- A task. Once it has been asked to end it is `cancelling` for good; while `cancelPending` the
cancellation has yet to reach it. -/
structure Task where
  name : Option String
  job : Job
  phase : Phase := .fresh
  cancelPending : Bool := false
  cancelling : Bool := false
deriving Inhabited

/-- What stands in the queue: a task's next step, or the news for a lint task that one of its
dispatches has ended. -/
inductive Ready
  | step (t : TaskId)
  | memberEnded (parent member : TaskId)
deriving DecidableEq, Repr, Inhabited

/-- Tasks, requests, and what is ready to run, first in first out. -/
structure Loop where
  tasks : Array Task := #[]
  requests : Array Request := #[]
  ready : List Ready := []

structure Session where
  host : Host := {}
  source : SettingSource := .shared
  template : Setting.Store
  settings : Option Setting.Store := none
  registry : Registry := {}
  loop : Loop := {}
  journal : Array Entry := #[]

/-- A computation on a session. A failure keeps the changes made before it. -/
abbrev Act := ExceptT Failure (StateM Session)

end LintBroker

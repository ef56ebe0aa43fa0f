import LintBroker.Notice

/-! # The notice bus

For each kind of notice the bus keeps a list of listeners, in order of subscription; a listener may
stand in it more than once. A subscription is ended by removing the first entry of its listener. A
disposed bus keeps taking subscriptions but delivers nothing. -/
namespace LintBroker

/-- Listeners are told apart by identity, which is a name here. -/
abbrev ListenerId := String

/-- A request to be called for one kind of notice. -/
structure Subscription where
  kind : NoticeKind
  listener : ListenerId
deriving DecidableEq, Repr, Inhabited

/-- The listeners of each kind, in order of subscription. -/
structure Bus where
  listeners : NoticeKind → List ListenerId := fun _ => []
  disposed : Bool := false

namespace Bus

def withListeners (b : Bus) (kind : NoticeKind) (ls : List ListenerId) : Bus :=
  { b with listeners := fun k => if k = kind then ls else b.listeners k }

/-- Adds a listener at the end of its kind's list. -/
def subscribe (b : Bus) (s : Subscription) : Bus :=
  b.withListeners s.kind (b.listeners s.kind ++ [s.listener])

/-- Removes the first entry of a subscription's listener, if there is one. -/
def unsubscribe (b : Bus) (s : Subscription) : Bus :=
  b.withListeners s.kind ((b.listeners s.kind).erase s.listener)

/-- Forgets every listener and stops delivery. -/
def dispose (_ : Bus) : Bus := { disposed := true }

/-- The listeners that an emission starting now will call, in order. -/
def audience (b : Bus) (kind : NoticeKind) : List ListenerId :=
  if b.disposed then [] else b.listeners kind

@[simp] theorem listeners_withListeners (b : Bus) (kind k : NoticeKind) (ls : List ListenerId) :
    (b.withListeners kind ls).listeners k = if k = kind then ls else b.listeners k := rfl

@[simp] theorem disposed_subscribe (b : Bus) (s : Subscription) :
    (b.subscribe s).disposed = b.disposed := rfl

@[simp] theorem disposed_unsubscribe (b : Bus) (s : Subscription) :
    (b.unsubscribe s).disposed = b.disposed := rfl

@[simp] theorem audience_dispose (b : Bus) (kind : NoticeKind) : b.dispose.audience kind = [] := rfl

end Bus
end LintBroker

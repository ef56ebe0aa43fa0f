import LintBroker.Service.Kind

/-! # Hubs

A hub builds each service once, when it is first asked for, and shares it from then on. Which class
is built under a name is registered for all hubs together; the arguments are each hub's own. A
service that cannot be built or set up is not kept, so that the next request tries again. -/
namespace LintBroker.Service

/-- One hub: arguments and kept services, by name. -/
structure Hub where
  arguments : Table String Arguments := ∅
  kept : Table String BuiltId := ∅
deriving Inhabited

/-- All hubs of a host, the classes registered for them, the services built, the debug lines, and what
has happened. -/
structure Yard (C : Type := Kind) [Catalogue C] where
  template : Setting.Store
  environment : Setting.Environment := ∅
  kinds : Table String C := Catalogue.defaults
  hubs : Table String Hub := ∅
  built : Array (Built C) := #[]
  journal : Array String := #[]
  past : Array (Event C) := #[]

/-- A computation on a yard. A failure keeps the changes made before it. -/
abbrev Work (α : Type) (C : Type := Kind) [Catalogue C] := ExceptT Failure (StateM (Yard C)) α

namespace Work
variable {C α : Type} [Catalogue C]

def debug (text : String) : Work Unit C := modify fun y => { y with journal := y.journal.push text }

def note (e : Event C) : Work Unit C := modify fun y => { y with past := y.past.push e }

def take (r : Except Failure α) : Work α C := ExceptT.mk (pure r)

def attempt (m : Work α C) : Work (Except Failure α) C := ExceptT.mk (do return .ok (← m.run))

/-- A hub by its name; a hub that has not been used yet is empty. -/
def hub (name : String) : Work Hub C := do
  return ((← get).hubs.get? name).getD {}

def changeHub (name : String) (change : Hub → Hub) : Work Unit C := do
  let h ← hub name
  modify fun y => { y with hubs := y.hubs.put name (change h) }

def register (name : String) (kind : C) : Work Unit C := do
  modify fun y => { y with kinds := y.kinds.put name kind }
  note (.registered name kind)

def reset : Work Unit C := do
  modify fun y => { y with kinds := Catalogue.defaults }
  note .reset

def unknown (name : String) : Failure :=
  Setting.missing ("Not a registered service: " ++ Text.quoted name)

def kindOf (name : String) : Work C C := do
  match (← get).kinds.get? name with
  | some k => return k
  | none => throw (unknown name)

/-- Adds arguments for a service. They count only for services yet to be built. -/
def updateArguments (hubName service : String) (args : Arguments) : Work Unit C := do
  changeHub hubName fun h =>
    { h with arguments := h.arguments.put service (((h.arguments.get? service).getD ∅).merge args) }
  note (.updated hubName service args)

def perform (ask : String → String → Work BuiltId C) : Call C → Work (Option BuiltId) C
  | .register name c => do register name c; return none
  | .reset => do reset; return none
  | .update hubName service args => do updateArguments hubName service args; return none
  | .get hubName service => do return some (← ask hubName service)

def follow (call : Call C → Work (Option BuiltId) C) : Routine C α → Work α C
  | .done a => return a
  | .fail f => throw f
  | .say line next => do debug line; follow call next
  | .call c next => do follow call (next (← attempt (call c)))

/-- Builds a service and sets it up, and only then keeps it. -/
def build (call : Call C → Work (Option BuiltId) C) (hubName name : String) : Work BuiltId C := do
  let kind ← kindOf name
  let args := ((← hub hubName).arguments.get? name).getD ∅
  note (.building hubName name kind args)
  let y ← get
  let made ← follow call (Catalogue.construct y.template y.past.toList hubName kind args)
  debug ("Created " ++ Text.quoted name ++ " service (" ++ Catalogue.label kind ++ ")")
  let b : Built C := { made with kind, args }
  let ready ← follow call (Catalogue.setUp (← get).past.toList hubName b)
  let id := (← get).built.size
  modify fun y => { y with built := y.built.push { ready with kind, args } }
  changeHub hubName fun h => { h with kept := h.kept.put name id }
  return id

/-- A service by its name, built and set up when first asked for. The fuel bounds how deep services
ask for one another. -/
def service (hubName : String) (fuel : Nat) (name : String) : Work BuiltId C :=
  match fuel with
  | 0 => throw (.ofText .runtime "maximum recursion depth exceeded")
  | fuel + 1 => do
    note (.asked hubName name)
    let r ← match (← hub hubName).kept.get? name with
      | some id => pure (.ok id)
      | none => attempt (build (perform fun h n => service h fuel n) hubName name)
    note (.answered hubName name r)
    take r

/-- The settings held by a hub's settings service, for a caller that wants to use a method of it. -/
def settings (hubName method : String) : Work (BuiltId × Setting.Store) C := do
  let id ← service hubName 8 "config"
  match (← get).built[id]? with
  | none => throw (Setting.missing "config")
  | some b =>
    match b.store with
    | some store => return (id, store)
    | none => throw (.noAttribute (Catalogue.label b.kind) method)

def keepSettings (id : BuiltId) (store : Setting.Store) : Work Unit C :=
  modify fun y => { y with built := y.built.modify id fun b => { b with store := some store } }

def getSetting (hubName item : String) : Work Value C := do
  let (id, store) ← settings hubName "get"
  let (r, store) := store.get (← get).environment item
  keepSettings id store
  take r

def setSetting (hubName item : String) (v : Value) : Work Unit C := do
  let (id, store) ← settings hubName "set"
  let store ← take (store.set item v)
  keepSettings id store
  debug ("Config item " ++ Text.quoted item ++ " set to " ++ v.literal)

end Work
end LintBroker.Service

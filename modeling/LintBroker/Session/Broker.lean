import LintBroker.Provider.Contract
import LintBroker.Session.Effect

/-! # Calls on the registry

Providers are added after their contract has been checked, and removed or dropped at any time. A
call that fails leaves the registry as it was. -/
namespace LintBroker
namespace Broker

def notRegistered (p : ProviderId) : Failure :=
  Setting.missing ("provider not registered: <provider " ++ p ++ ">")

def hasProvider (p : ProviderId) : Act Bool := do
  return ((← get).registry.find? p).isSome

def recordOf (p : ProviderId) : Act RecordId := do
  match (← get).registry.find? p with
  | some id => return id
  | none => throw (notRegistered p)

def addProvider (p : ProviderId) (legacy : Bool) : Act Unit := do
  if (← get).registry.disposed then throw .registryDisposed
  if ← hasProvider p then
    let name ← Act.readAttribute p "name"
    throw (.duplicateProvider name.plain)
  let contract ← Act.take (Contract.of (← Act.attributes p) legacy)
  Act.take ((← Act.attributes p).validate contract)
  let id := (← get).registry.records.size
  Act.modifyRegistry fun r => r.insert p contract
  Act.note (.registered id p)
  let name ← Act.readAttribute p "name"
  Act.debug ("Registered provider " ++ name.literal ++ " (version " ++ toString contract.number ++ ")")

def nameOf (p : ProviderId) : Act String := do
  Act.take (← Act.attributes p).name

def scopeOf (p : ProviderId) : Act Scope := do
  Act.take (← Act.attributes p).scope

/-- Takes a provider's registration out of force; a provider without one is passed over. -/
def removeProvider (p : ProviderId) : Act Unit := do
  match (← get).registry.find? p with
  | none => return ()
  | some id =>
    Act.modifyRegistry fun r => r.remove p
    Act.note (.removed id p)
    let name ← nameOf p
    Act.debug ("Removed provider " ++ Text.quoted name)

/-- Takes every registration out of force and releases all listeners. -/
def dispose : Act Unit := do
  Act.modifyRegistry Registry.dispose
  Act.note .disposed
  Act.debug "Linter registry disposed"

/-- Sets the registry up: its settings are made if they are the shared ones. -/
def setUp : Act Unit := do
  Act.debug "Setting up LinterRegistryService"
  Act.ensureSettings

def record (id : RecordId) : Act (Record Nat) := do
  Act.expect (← get).registry.records[id]? (toString id)

/-- What a record says of its provider, each field read on its own. -/
def fieldsOf (a : Attributes) (contract : Contract) : List (String × Except Failure Value) :=
  [("name", a.name.map .str), ("scope", a.scope.map .scope),
    ("lints_on_change", (a.lintsOnChange contract).map .bool)]

def recordFields (id : RecordId) : Act (List (String × Except Failure Value)) := do
  let some r := (← get).registry.records[id]?
    | throw (.ofText .index "list index out of range")
  return fieldsOf (← Act.attributes r.provider) r.contract

end Broker
end LintBroker

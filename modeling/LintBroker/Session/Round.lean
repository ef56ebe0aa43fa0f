import LintBroker.Session.Emission
import LintBroker.Session.Gate

/-! # Choosing the providers of a round

A lint that passes the gate goes through the registrations in order, as they were when it started.
Each that is still in force, not disabled and applies to the surface gets a new generation, and its
beginning is announced at once. -/
namespace LintBroker
namespace Round

/-- A value for the scope of file, and none for the scope of project. -/
def onlyForFile (scope : Scope) (v : Value) : Value :=
  match scope with
  | .file => v
  | .project => .none

def beginNotice (p : ProviderId) (context : EditContext) : Act Notice := do
  return .begin p (onlyForFile (← Broker.scopeOf p) context.filePath)

def updateNotice (p : ProviderId) (context : EditContext) (messages : Value) : Act Notice := do
  return .update p messages (onlyForFile (← Broker.scopeOf p) context.buffer)

def finishNotice (p : ProviderId) (context : EditContext) : Act Notice := do
  return .finish p (onlyForFile (← Broker.scopeOf p) context.filePath)

/-- The names of disabled providers. A setting that counts as false disables none. -/
def disabledNames : Act (List Value) := do
  let v ← Act.setting "disabled_providers"
  if v.truthy then Act.take v.distinctItems else return []

/-- Counts a new request of a registration and gives its dispatch. -/
def openDispatch (round : TaskId) (id : RecordId) (context : EditContext) : Act Dispatch := do
  Act.modifyRegistry fun r => r.changeRecord id fun x => { x with counters := x.counters.next }
  let generation := (← Broker.record id).counters.latest
  let d : Dispatch := { round, record := id, generation, context }
  Act.note (.dispatched d)
  return d

def consider (round : TaskId) (context : EditContext) (disabled : List Value) (id : RecordId) :
    Act (Option Dispatch) := do
  let record ← Broker.record id
  if !record.activated then return none
  let name ← Broker.nameOf record.provider
  if (Value.str name).among disabled then
    Act.trace ("Skipping disabled provider " ++ Text.quoted name)
    return none
  let applies ← Gate.shouldTrigger record context
  if !applies.truthy then return none
  let d ← openDispatch round id context
  let notice ← beginNotice record.provider context
  Act.emit none d notice
  return some d

def considerAll (round : TaskId) (context : EditContext) (disabled : List Value) :
    List RecordId → Act (List Dispatch)
  | [] => return []
  | id :: rest => do
    let chosen ← consider round context disabled id
    let others ← considerAll round context disabled rest
    return chosen.toList ++ others

/-- Starts a lint: none if the edit is not linted, else the dispatches of its round. -/
def start (round : TaskId) (context : EditContext) : Act (Option (List Dispatch)) := do
  if (← get).registry.disposed then return none
  Act.ensureSettings
  if !(← Gate.shouldLint context) then return none
  let disabled ← disabledNames
  return some (← considerAll round context disabled (← get).registry.active.values)

end Round
end LintBroker

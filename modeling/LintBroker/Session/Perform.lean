import LintBroker.Session.Broker
import LintBroker.Session.Loop

/-! # Performing actions

No action calls a listener or a provider: whatever follows from it is left to the loop. -/
namespace LintBroker
namespace Act

def request? (p : ProviderId) (n : Nat) : Act (Option RequestId) := do
  return ((← get).loop.requestsOf p)[n]?

/-- Settles a provider's request from outside and tells what came of it. -/
def settleRequest (p : ProviderId) (n : Nat) (s : Except Failure Settlement) : Act Result := do
  match ← request? p n with
  | none => return .value (.str "no_such_request")
  | some r =>
    if (← get).loop.isPending r then
      let s ← take s
      modifyLoop fun l => l.settle r s
      return .value .none
    else return .value (.str "already_done")

/-- A failure as the end of a request. One that only says that nothing is left cannot be told from
an orderly end, and is refused. -/
def failedSettlement (f : Failure) : Except Failure Settlement :=
  if f.isExhaustion then
    .error (.ofText .badType
      "StopIteration interacts badly with generators and cannot be raised into a Future")
  else .ok (.failed f)

def targetContext : LintTarget → Act EditContext
  | .opened name => do expect ((← get).host.contexts.get? name) name
  | .surface id onChange => openContext id onChange

def startLint (target : LintTarget) (name : Option String) : Act Unit := do
  let context ← targetContext target
  let name := name.getD ("t" ++ toString ((← get).loop.namedCount + 1))
  modifyLoop fun l => l.spawn (some name) (.lint context)

/-- Asks a task to end, and tells whether it could be asked. -/
def cancelTask (name : String) : Act Bool := do
  let t ← expect ((← get).loop.named? name) name
  if (← get).loop.hasEnded t then return false
  modifyLoop fun l => l.cancel t
  return true

def setSetting (item : String) (v : Value) : Act Unit := do
  let store ← sharedSettings
  let store ← take (store.set item v)
  modify fun s => { s with settings := some store }
  debug ("Config item " ++ Text.quoted item ++ " set to " ++ v.literal)

def unsetSetting (item : String) : Act Unit := do
  let store ← sharedSettings
  let store ← take (store.unset item)
  modify fun s => { s with settings := some store }

def changeAttributes (p : ProviderId) (change : Attributes → Except Failure Attributes) :
    Act Unit := do
  let provider ← expect ((← get).host.providers.get? p) p
  let a ← take (change provider.attributes)
  modifyHost fun h => { h with providers := h.providers.put p { provider with attributes := a } }
  note (.reshaped p a)

def subscribe (s : Subscription) (token : String) : Act Unit := do
  modifyRegistry fun r => { r with bus := r.bus.subscribe s }
  modifyHost fun h => { h with subscriptions := h.subscriptions.put token s }
  note (.subscribed s)

def unsubscribe (token : String) : Act Unit := do
  match (← get).host.subscriptions.get? token with
  | some s =>
    modifyRegistry fun r => { r with bus := r.bus.unsubscribe s }
    note (.unsubscribed s)
  | none => return ()

def changeIgnored (change : List Value → List Value) : Act Unit :=
  modifyHost fun h =>
    { h with ignoreRule := h.ignoreRule.map fun r => { r with listed := change r.listed } }

def nothing (m : Act Unit) : Act Result := do
  m
  return .value .none

mutual
def perform : Action → Act Result
  | .add p legacy => nothing (Broker.addProvider p legacy)
  | .remove p => nothing (Broker.removeProvider p)
  | .has p => do return .value (.bool (← Broker.hasProvider p))
  | .recordOf p => do return .value (.int (← Broker.recordOf p))
  | .recordFields n => do return .fields (← Broker.recordFields n)
  | .openContext name surface onChange => do
    let context ← openContext surface onChange
    modifyHost fun h => { h with contexts := h.contexts.put name context }
    return .value (.list [context.filePath, context.buffer, context.onChange])
  | .lint target name => nothing (startLint target name)
  | .resolve p n v => settleRequest p n (.ok (.value v))
  | .fail p n f => settleRequest p n (failedSettlement f)
  | .withdraw p n => settleRequest p n (.ok .cancelled)
  | .cancel name => do return .value (.bool (← cancelTask name))
  | .subscribe s token => nothing (subscribe s token)
  | .unsubscribe token => nothing (unsubscribe token)
  | .dispose => nothing Broker.dispose
  | .setUp => nothing Broker.setUp
  | .setSetting item v => nothing (setSetting item v)
  | .unsetSetting item => nothing (unsetSetting item)
  | .getSetting item => do return .value (← readShared item)
  | .setVariable name v => nothing (modifyHost fun h =>
    { h with environment := match v with
        | some v => h.environment.put name v
        | none => h.environment.erase name })
  | .changeSurface id q v => nothing do
    let surface ← expect ((← get).host.surfaces.get? id) id
    modifyHost fun h => { h with surfaces := h.surfaces.put id (surface.change q v) }
    note (.altered id q v)
  | .setAttribute p name v => nothing (changeAttributes p fun a => .ok (a.set name v))
  | .deleteAttribute p name => nothing (changeAttributes p fun a => a.delete name)
  | .ignorePath path => nothing (changeIgnored fun ps => if path.among ps then ps else ps ++ [path])
  | .noticePath path => nothing (changeIgnored fun ps => ps.filter fun q => !path.same q)
  | .raise f => throw f
  | .pass => return .value .none
  | .batch actions => do return .many (← performAll actions)

/-- Performs actions one after the other, whether or not they fail. -/
def performAll : List Action → Act (List (Except Failure Result))
  | [] => return []
  | a :: rest => do
    let r ← attempt (perform a)
    return r :: (← performAll rest)
end

end Act
end LintBroker

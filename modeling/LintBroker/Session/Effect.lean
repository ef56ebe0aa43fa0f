import LintBroker.Failure.Report
import LintBroker.Session.Basic
import LintBroker.Value.Compare

/-! # Elementary steps

The steps that the rest of a session is built from: writing into the journal, handling failures,
and asking the host. -/
namespace LintBroker
namespace Act

def note (e : Entry) : Act Unit := modify fun s => { s with journal := s.journal.push e }

def debug (text : String) : Act Unit := note (.debug text)

def trace (text : String) : Act Unit := note (.trace text)

def take {α : Type} (r : Except Failure α) : Act α := ExceptT.mk (pure r)

def attempt {α : Type} (m : Act α) : Act (Except Failure α) :=
  ExceptT.mk do return .ok (← m.run)

/-- Runs a computation while an earlier failure is being handled: a failure of its own remembers
the earlier one. -/
def during {α : Type} (earlier : Option Failure) (m : Act α) : Act α := do
  match ← attempt m, earlier with
  | .error f, some e => throw (e.during f)
  | r, _ => take r

def awaited {α : Type} (m : Act α) : Act α := ExceptT.mk do
  return (← m.run).mapError Failure.leaving

def reportFault (summary : String) (f : Failure) : Act Unit := do
  debug (f.summaryLine summary)
  f.report.forM trace

def modifyHost (change : Host → Host) : Act Unit := modify fun s => { s with host := change s.host }

def modifyRegistry (change : Registry → Registry) : Act Unit :=
  modify fun s => { s with registry := change s.registry }

def modifyLoop (change : Loop → Loop) : Act Unit := modify fun s => { s with loop := change s.loop }

/-- What a table of the host holds under a key; failing that, the key is missing. -/
def expect {α : Type} (x : Option α) (key : String) : Act α :=
  match x with
  | some a => pure a
  | none => throw (Setting.missing key)

def askSurface (id : SurfaceId) (q : Surface.Question) : Act Value := do
  let surface ← expect ((← get).host.surfaces.get? id) id
  note (.surfaceAsked id q)
  take (surface.answer q)

def attributes (p : ProviderId) : Act Attributes := do
  return (← expect ((← get).host.providers.get? p) p).attributes

def readAttribute (p : ProviderId) (name : String) : Act Value := do
  take ((← attributes p).read name)

def ruleAnswer (r : IgnoreRule) (path : Value) : Except Failure Value :=
  match r.verdict with
  | some v => v
  | none => .ok (.bool (path.among r.listed))

/-- Asks the ignore rule about a path. Without a rule, and with one that counts as false, no path is
ignored. -/
def askIgnored (path : Value) : Act Value := do
  match (← get).host.ignoreRule with
  | some rule =>
    if rule.truthy then
      note (.ignoreAsked path)
      take (ruleAnswer rule path)
    else return .bool false
  | none => return .bool false

/-- The matcher that is used if the host gives none: a provider applies to every surface if it has
the scope `*`, and otherwise to the surfaces whose grammar is among its scopes. -/
def matchGrammar (scopes : Value) (surface : SurfaceId) : Act Value := do
  if ← take (scopes.contains (.str "*")) then return .bool true
  let grammar ← askSurface surface .grammar
  return .bool (← take (scopes.contains grammar))

/-- Asks the matcher. Without one, and with one that counts as false, grammars decide. -/
def askMatcher (scopes : Value) (surface : SurfaceId) : Act Value := do
  match (← get).host.matcher with
  | some m =>
    if m.truthy then
      note (.matchAsked scopes surface)
      take (m.verdict scopes surface)
    else matchGrammar scopes surface
  | none => matchGrammar scopes surface

/-- The settings of the session, made and set up when they are first needed. -/
def madeSettings : Act Setting.Store := do
  match (← get).settings with
  | some store => return store
  | none =>
    let store := { (← get).template with ready := true }
    debug ("Created 'config' service (" ++ store.className ++ ")")
    debug ("Setting up " ++ store.className)
    modify fun s => { s with settings := some store }
    return store

def sharedSettings : Act Setting.Store := do
  match (← get).source with
  | .lacking lines f =>
    lines.forM debug
    throw f
  | _ => madeSettings

def ensureSettings : Act Unit := do
  match (← get).source with
  | .given _ => return ()
  | _ => discard sharedSettings

def readShared (item : String) : Act Value := do
  let store ← sharedSettings
  let (r, store) := store.get (← get).host.environment item
  modify fun s => { s with settings := some store }
  take r

/-- Reads a setting from where the registry reads them. -/
def setting (item : String) : Act Value := do
  note (.settingAsked item)
  match (← get).source with
  | .given read => take (read item)
  | _ => readShared item

/-- Opens the context of an edit: the path only if the surface is persisted, then the buffer. -/
def openContext (surface : SurfaceId) (onChange : Value) : Act EditContext := do
  let persisted ← askSurface surface .persisted
  let filePath ← if persisted.truthy then askSurface surface .path else pure .none
  let buffer ← askSurface surface .buffer
  let context : EditContext := { surface, onChange, filePath, buffer }
  note (.contextOpened context)
  return context

end Act
end LintBroker

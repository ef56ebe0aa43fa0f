import LintBroker.Setting.Store

/-! # Services

A service is built from keyword arguments and then set up; either may fail. Which class a service is
of and what its building does is left to a catalogue: whatever a class does is a *routine* that may
ask for other services, and it may depend on all that has happened so far. -/
namespace LintBroker.Service

/-- Built services are numbered in the order in which they were built. -/
abbrev BuiltId := Nat

/-- Keyword arguments, in the order in which their keywords first came in. -/
abbrev Arguments := Table String Value

/-- Arguments with later ones added; a later one replaces an earlier one of the same keyword. -/
def Arguments.merge (a b : Arguments) : Arguments := b.rows.foldl (fun t r => t.put r.1 r.2) a

/-- What can be asked of hubs. -/
inductive Call (C : Type)
  | register (name : String) (c : C)
  | reset
  | update (hub name : String) (args : Arguments)
  | get (hub name : String)

/-- What a class does while a service of it is built: it writes debug lines and calls hubs, and what
comes next may depend on how the last call went. -/
inductive Routine (C α : Type)
  | done (a : α)
  | fail (f : Failure)
  | say (line : String) (next : Routine C α)
  | call (c : Call C) (next : Except Failure (Option BuiltId) → Routine C α)

instance (C α : Type) : Inhabited (Routine C α) := ⟨.fail default⟩

def Routine.ofExcept {C α : Type} : Except Failure α → Routine C α
  | .ok a => .done a
  | .error f => .fail f

/-- What a service holds: settings of its own, or the settings service that it uses. -/
structure Content where
  store : Option Setting.Store := none
  settings : Option BuiltId := none
deriving Inhabited

structure Built (C : Type) extends Content where
  kind : C
  args : Arguments
deriving Inhabited

/-- What has happened to the hubs of a host: a class was registered, arguments were given, a service
was asked for, its class was called to build it, and it was answered which one it is. -/
inductive Event (C : Type)
  | registered (name : String) (c : C)
  | reset
  | updated (hub name : String) (args : Arguments)
  | asked (hub name : String)
  | building (hub name : String) (c : C) (args : Arguments)
  | answered (hub name : String) (r : Except Failure BuiltId)

/-- The classes of services: their names, those that are registered unless something else is, and what
they do when a service of a hub is constructed and when it is set up. -/
class Catalogue (C : Type) where
  label : C → String
  defaults : Table String C
  construct (template : Setting.Store) (past : List (Event C)) (hub : String) (c : C)
    (args : Arguments) : Routine C Content
  setUp (past : List (Event C)) (hub : String) (b : Built C) : Routine C Content

/-- Setting up begins with a debug line that names the class. -/
def Routine.settingUp {C α : Type} (label : String) (next : Routine C α) : Routine C α :=
  .say ("Setting up " ++ label) next

/-- Whether arguments name settings. No settings are named by a None. -/
def Arguments.nameSettings (args : Arguments) : Bool :=
  (args.get? "config").any fun v => v.typeName != "NoneType"

/-- Gives a service the settings service of its hub. -/
def Routine.useSettings {C : Type} (hub : String) (x : Content) : Routine C Content :=
  .call (.get hub "config") fun
    | .ok id => .done { x with settings := id }
    | .error f => .fail f

/-- Sets a registry up: it uses the settings of its arguments, or else those of its hub. -/
def Routine.setUpRegistry {C : Type} (label hub : String) (b : Built C) : Routine C Content :=
  settingUp label (if b.args.nameSettings then .done b.toContent else useSettings hub b.toContent)

end LintBroker.Service

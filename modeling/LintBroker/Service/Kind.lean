import LintBroker.Service.Basic
import LintBroker.Value.Compare

/-! # Kinds of service

Besides the settings and the registry there are a bare service and four that serve to try out the
building of services. -/
namespace LintBroker.Service

inductive Kind
  | settings
  | otherSettings
  | registry
  | otherRegistry
  | bare
  | recorder
  | failsToBuild
  | failsToSetUp
  | needsSettings
deriving DecidableEq, Repr, Inhabited

namespace Kind

def label : Kind → String
  | .settings => "ConfigService"
  | .otherSettings => "FakeConfig"
  | .registry => "LinterRegistryService"
  | .otherRegistry => "FakeRegistry"
  | .bare => "AppService"
  | .recorder => "Recorder"
  | .failsToBuild => "Exploding"
  | .failsToSetUp => "BadSetup"
  | .needsSettings => "Needy"

def all : List Kind :=
  [.settings, .otherSettings, .registry, .otherRegistry, .bare, .recorder, .failsToBuild,
    .failsToSetUp, .needsSettings]

def ofLabel? (name : String) : Option Kind := all.find? fun k => k.label = name

def holdsSettings : Kind → Bool
  | .settings | .otherSettings => true
  | _ => false

/-- The kind whose way of building a kind has. -/
def builtAs : Kind → Kind
  | .otherSettings => .settings
  | .otherRegistry => .registry
  | .failsToSetUp | .needsSettings => .bare
  | k => k

/-- The keywords that a kind is built from; none if it takes any. -/
def keywords? : Kind → Option (List String)
  | .settings | .otherSettings => some ["extra_handlers"]
  | .registry | .otherRegistry => some ["vcs", "matcher", "config"]
  | .recorder | .failsToBuild => none
  | .bare | .failsToSetUp | .needsSettings => some []

def defaults : Table String Kind :=
  .ofList [("config", .settings), ("linter_registry", .registry)]

def checkArguments (kind : Kind) (args : Arguments) : Except Failure Unit :=
  match kind.keywords? with
  | none => .ok ()
  | some known =>
    match args.keys.find? fun k => !known.contains k with
    | none => .ok ()
    | some k => .error (.ofText .badType (kind.builtAs.label ++
        ".__init__() got an unexpected keyword argument '" ++ k ++ "'"))

def construct (template : Setting.Store) (kind : Kind) (args : Arguments) : Except Failure Content := do
  kind.checkArguments args
  if kind = .failsToBuild then throw (.ofText .runtime "init failed")
  return {
    store := if kind.holdsSettings then some { template with className := kind.label } else none }

/-- The sources that a settings service adds from its arguments. No value can make a source, so that
only an empty collection is of use. -/
def extraSources (args : Arguments) : Except Failure Unit := do
  match args.get? "extra_handlers" with
  | none => return ()
  | some v =>
    match ← v.items with
    | [] => return ()
    | x :: _ => throw (.ofText .badType ("'" ++ x.typeName ++ "' object is not callable"))

def prepare (args : Arguments) (x : Content) : Except Failure Content := do
  extraSources args
  return { x with store := x.store.map fun s => { s with ready := true } }

instance : Catalogue Kind where
  label := label
  defaults := defaults
  construct template _ _ kind args := .ofExcept (kind.construct template args)
  setUp _ hub b :=
    match b.kind with
    | .settings | .otherSettings => .settingUp b.kind.label (.ofExcept (prepare b.args b.toContent))
    | .registry | .otherRegistry => .setUpRegistry b.kind.label hub b
    | .failsToSetUp => .settingUp b.kind.label (.fail (.ofText .runtime "setup failed"))
    | .needsSettings => .settingUp b.kind.label (.useSettings hub b.toContent)
    | .bare | .recorder | .failsToBuild => .settingUp b.kind.label (.done b.toContent)

end Kind
end LintBroker.Service

import LintBroker.Setting.Kind
import LintBroker.Failure.Basic
import LintBroker.Text.Casing

/-! # About a host application

A host has a name, perhaps a summary, and a version, which is looked up among installed packages and
falls back to a word for a version under development. -/
namespace LintBroker.Service

/-- An installed package: its module, and what its distribution says of it. -/
structure Package where
  moduleName : String
  distribution : String
  version : String
  summary : String
deriving Inhabited

def corePackage : Package where
  moduleName := "linter_core"
  distribution := "linter_core"
  version := "0.1.0"
  summary := "Orchestration core for pluggable lint providers"

def developmentVersion : String := "dev"

/-- Runs of hyphens, underscores and points as one underscore each. -/
def squeezeMarks : List Char → List Char
  | [] => []
  | c :: rest =>
    let isMark := fun c : Char => c = '-' || c = '_' || c = '.'
    if isMark c then
      match rest with
      | d :: _ => if isMark d then squeezeMarks rest else '_' :: squeezeMarks rest
      | [] => ['_']
    else c :: squeezeMarks rest

/-- The name under which a distribution is found: letter case does not count, and runs of marks are
all the same. -/
def distributionName (name : String) : String :=
  Text.lower (String.ofList (squeezeMarks name.toList))

structure HostInfo where
  name : String
  summary : Option String
  version : String
deriving DecidableEq, Repr, Inhabited

/-- Looks a host up. A name has to be the absolute name of a module. -/
def HostInfo.of (name : String) (summary : Option String) : Except Failure HostInfo :=
  if name.isEmpty then .error (.ofText .badValue "Empty module name")
  else if name.startsWith "." then
    .error (.ofText .badType
      ("the 'package' argument is required to perform a relative import for " ++ Text.quoted name))
  else
    let found := distributionName name = corePackage.distribution
    let version :=
      if name = corePackage.moduleName || found then corePackage.version else developmentVersion
    let summary := match summary with
      | some s => some s
      | none => if found then some corePackage.summary else none
    .ok { name, summary, version }

end LintBroker.Service

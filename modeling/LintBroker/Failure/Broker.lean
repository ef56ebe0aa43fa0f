import LintBroker.Text.Phrase

/-! # The broker's own failures

Besides its message each of these says how to resolve it, perhaps with details, and whether it is
worth a report. -/
namespace LintBroker
namespace Failure

/-- What one of the broker's own failures says besides its message. -/
structure Advice where
  details : Option String
  resolution : String
  reportable : Bool
deriving DecidableEq, Repr, Inhabited

def registryDisposed : Failure :=
  ofText .registryDisposed "The linter registry has been disposed."

def duplicateProvider (name : String) : Failure :=
  ofText .duplicateProvider ("Provider " ++ Text.quoted name ++ " is already registered.")

def invalidProvider (name : String) (problems : List String) : Failure :=
  ofText (.invalidProvider problems) ("Invalid provider " ++ Text.quoted name ++ ".")

def requiredAttributes : List String :=
  ["name", "scope", "grammar_scopes", "lints_on_change", "lint"]

/-- What the broker advises on one of its own failures. -/
def advice? (f : Failure) : Option Advice :=
  match f.kind with
  | .duplicateProvider =>
    some { details := none, resolution := "Remove the provider before adding it again.",
           reportable := false }
  | .invalidProvider problems =>
    some { details := some ("\n".intercalate (problems.map fun p => "- " ++ p))
           resolution := "Providers must define " ++
             Text.phrase "and" (requiredAttributes.map Text.quoted) ++ "."
           reportable := false }
  | .registryDisposed =>
    some { details := none, resolution := "Create a new registry service.", reportable := true }
  | _ => none

def isBrokers (f : Failure) : Bool := f.advice?.isSome

/-- Whether two of the broker's failures say the same. -/
def saysSame (f g : Failure) : Bool := f.literal == g.literal && f.advice? == g.advice?

end Failure
end LintBroker

/-! # What messages are about -/
namespace LintBroker

/-- Whether a provider's messages are about one file or about the whole project. -/
inductive Scope
  | file
  | project
deriving DecidableEq, Repr, Inhabited

namespace Scope

def word : Scope → String
  | .file => "file"
  | .project => "project"

def memberName : Scope → String
  | .file => "FILE"
  | .project => "PROJECT"

def ofWord? : String → Option Scope
  | "file" => some .file
  | "project" => some .project
  | _ => none

theorem ofWord?_eq_some_iff {w : String} {s : Scope} : ofWord? w = some s ↔ w = s.word := by
  constructor
  · intro h
    unfold ofWord? at h
    split at h <;> simp_all [word]
    all_goals (subst h; rfl)
  · rintro rfl
    cases s <;> rfl

end Scope
end LintBroker

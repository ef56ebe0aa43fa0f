import LintBroker.Failure.Basic
import LintBroker.Table

/-! # Editing surfaces

A surface is an editor as the host shows it: six questions can be asked of it, and each is answered
with a value or by a failure. An edit context is what a lint keeps of the surface it was asked for. -/
namespace LintBroker

/-- Surfaces are told apart by name. -/
abbrev SurfaceId := String

namespace Surface

inductive Question
  | persisted
  | path
  | pendingPreview
  | buffer
  | destroyed
  | grammar
deriving DecidableEq, Repr, Inhabited

end Surface

/-- The answers of a surface. A question with a failure is answered by that, whatever its value. -/
structure Surface where
  answers : Surface.Question → Value
  failures : Surface.Question → Option Failure := fun _ => none

namespace Surface

def answer (s : Surface) (q : Question) : Except Failure Value :=
  match s.failures q with
  | some f => .error f
  | none => .ok (s.answers q)

def change (s : Surface) (q : Question) (v : Value) : Surface :=
  { s with answers := fun q' => if q' = q then v else s.answers q' }

end Surface

/-- The edit that asked for a lint. The path and the buffer are those of the moment of the edit. -/
structure EditContext where
  surface : SurfaceId
  onChange : Value
  filePath : Value
  buffer : Value
deriving Inhabited

end LintBroker

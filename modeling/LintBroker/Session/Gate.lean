import LintBroker.Session.Effect
import LintBroker.Text.Glob

/-! # Which edits are linted, and by whom

The gate of an edit asks as little as it can: every question is asked only if its answer can still
matter, and the first failure ends the matter. -/
namespace LintBroker
namespace Gate
open Text

/-- The characters of a path or a pattern, and whether it is made of bytes. Anything else is neither
path nor pattern. -/
def pathChars (v : Value) : Except Failure (Bool × List Char) :=
  match v with
  | .bytes b => .ok (true, b.map fun x => Char.ofNat x.toNat)
  | v => match v.text? with
    | some s => .ok (false, s.toList)
    | none => .error (.ofText .badType
        ("expected str, bytes or os.PathLike object, not " ++ v.typeName))

def baseName (path : List Char) : List Char := (path.reverse.takeWhile (· != '/')).reverse

/-- Whether a pattern matches a path, or the last part of it. Bytes and text do not mix. -/
def globMatches (glob path : Value) : Except Failure Bool := do
  let (pathIsBytes, chars) ← pathChars path
  let (globIsBytes, pattern) ← pathChars glob
  match globIsBytes, pathIsBytes with
  | true, false => throw (.ofText .badType "cannot use a bytes pattern on a string-like object")
  | false, true => throw (.ofText .badType "cannot use a string pattern on a bytes-like object")
  | _, _ => return Glob.test pattern chars || Glob.test pattern (baseName chars)

/-- Whether the glob of ignored paths, if there is one, matches a path. -/
def globExcludes (path : Value) : Act Bool := do
  let glob ← Act.setting "ignored_glob"
  if !glob.truthy then return false
  if ← Act.take (globMatches glob path) then
    Act.debug ("Not linting " ++ path.literal ++ ": matches ignored glob " ++ glob.literal)
    return true
  return false

/-- Whether ignore rules are in use and exclude a path. -/
def rulesExclude (path : Value) : Act Bool := do
  let inUse ← Act.setting "ignore_vcs_ignored_paths"
  if !inUse.truthy then return false
  let ignored ← Act.askIgnored path
  if ignored.truthy then
    Act.debug ("Not linting " ++ path.literal ++ ": ignored by version control")
    return true
  return false

/-- Whether a path is ignored, by the glob or by the rules. -/
def isPathIgnored (path : Value) : Act Bool := do
  if ← globExcludes path then return true
  rulesExclude path

def changeAllowed (path : Value) : Act Bool := do
  let inUse ← Act.setting "lint_on_fly"
  if inUse.truthy then return true
  Act.debug ("Not linting " ++ path.literal ++ ": linting on change is disabled")
  return false

/-- Whether a surface is no preview, or previews are linted too. -/
def previewAllowed (context : EditContext) : Act Bool := do
  let pending ← Act.askSurface context.surface .pendingPreview
  if !pending.truthy then return true
  let inUse ← Act.setting "lint_preview_tabs"
  if inUse.truthy then return true
  Act.debug ("Not linting " ++ context.filePath.literal ++ ": linting preview tabs is disabled")
  return false

def shouldLint (context : EditContext) : Act Bool := do
  if !context.filePath.truthy then
    Act.debug "Not linting: editor is not saved to disk"
    return false
  if ← isPathIgnored context.filePath then return false
  if context.onChange.truthy then changeAllowed context.filePath else previewAllowed context

/-- Whether a registered provider takes part in linting an edit: the matcher's answer, unless the
provider does not run while the user types. The matcher is always asked. -/
def shouldTrigger {γ : Type} (record : Record γ) (context : EditContext) : Act Value := do
  let scopes ← Act.readAttribute record.provider "grammar_scopes"
  let found ← Act.askMatcher scopes context.surface
  if context.onChange.truthy then
    if !(← Act.take ((← Act.attributes record.provider).lintsOnChange record.contract)) then
      return .bool false
  return found

end Gate
end LintBroker

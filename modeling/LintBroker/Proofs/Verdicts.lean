import LintBroker.Proofs.Consultations

/-!
# The verdict of the gate

What the gate of an edit consults, and what that comes to, is a function of the answers that it
gets, whatever they are: a path or a glob need not be a text, and any answer may be a failure. The
function is written down here without a session, and the gate is shown to follow it.
-/
namespace LintBroker
open Session Act

/-- Consultations that are made in turn, and what they come to. -/
structure Deliberation (α : Type) where
  asked : List Consultation := []
  result : Except Failure α

namespace Deliberation

def given {α : Type} (r : Except Failure α) : Deliberation α := { result := r }

/-- A failure ends a deliberation. -/
instance : Monad Deliberation where
  pure a := given (.ok a)
  bind d f :=
    match d.result with
    | .ok a => ⟨d.asked ++ (f a).asked, (f a).result⟩
    | .error e => ⟨d.asked, .error e⟩

variable {α β : Type}

theorem bind_ok {d : Deliberation α} {a : α} (h : d.result = .ok a) (f : α → Deliberation β) :
    d >>= f = ⟨d.asked ++ (f a).asked, (f a).result⟩ := by
  simp only [bind, h]

theorem bind_error {d : Deliberation α} {e : Failure} (h : d.result = .error e)
    (f : α → Deliberation β) : d >>= f = ⟨d.asked, .error e⟩ := by
  simp only [bind, h]

theorem of_bind_eq_ok {d : Deliberation α} {f : α → Deliberation β} {b : β}
    (h : (d >>= f).result = .ok b) : ∃ a, d.result = .ok a ∧ (f a).result = .ok b := by
  cases hd : d.result with
  | error e =>
    rw [bind_error hd] at h
    cases h
  | ok a =>
    rw [bind_ok hd] at h
    exact ⟨a, rfl, h⟩

end Deliberation

namespace Answers
variable (A : Answers) (c : EditContext)

def consult (q : Consultation) : Deliberation Value := ⟨[q], A q⟩

/-- Whether there is a glob of ignored paths, and it matches the path. -/
def globExcludes : Deliberation Bool := do
  let glob ← A.consult .glob
  if glob.truthy then .given (Gate.globMatches glob c.filePath) else return false

/-- Whether the rule for ignored paths is in use, and it ignores the path. -/
def rulesExclude : Deliberation Bool := do
  let inUse ← A.consult .rulesInUse
  if inUse.truthy then return (← A.consult .rules).truthy else return false

def ignores : Deliberation Bool := do
  if ← A.globExcludes c then return true else A.rulesExclude

def isTime : Deliberation Bool := do
  if c.onChange.truthy then return (← A.consult .whileTyping).truthy
  else if (← A.consult .preview).truthy then return (← A.consult .previewsInUse).truthy
  else return true

/-- Whether the edit is linted. -/
def deliberate : Deliberation Bool := do
  if !c.filePath.truthy then return false
  else if ← A.ignores c then return false
  else A.isTime c

variable {A c} in
/-- An edit is linted only if the glob of ignored paths could be asked for. -/
theorem glob_of_deliberate (h : (A.deliberate c).result = .ok true) : ∃ v, A .glob = .ok v := by
  unfold deliberate at h
  split at h
  · cases Except.ok.inj h
  · obtain ⟨ignored, hi, _⟩ := Deliberation.of_bind_eq_ok h
    obtain ⟨excluded, he, _⟩ := Deliberation.of_bind_eq_ok hi
    obtain ⟨glob, hg, _⟩ := Deliberation.of_bind_eq_ok he
    exact ⟨glob, hg⟩

end Answers

namespace Act
variable {α β : Type} {s : Session} {c : EditContext}

/-- The computation makes the consultations of a deliberation, and comes to what that comes to. -/
abbrev Follows (m : Act α) (s : Session) (c : EditContext) (d : Deliberation α) : Prop :=
  Consults m s c d.asked d.result

namespace Follows

theorem pure (a : α) (s : Session) (c : EditContext) : Follows (pure a) s c (Pure.pure a) :=
  Consults.pure a s c

/-- A line may be written before a result is given. -/
theorem debug_pure (text : String) (a : α) (s : Session) (c : EditContext) :
    Follows (do Act.debug text; return a) s c (Pure.pure a) := Consults.debug_pure text a s c

/-- Deliberations are followed one after the other: the answers stay what they are. -/
theorem bind {m : Act α} {f : α → Act β} {d : Deliberation α} {g : α → Deliberation β}
    (h : Follows m s c d)
    (go : ∀ a s', s'.atGate c = s.atGate c → Follows (f a) s' c (g a)) :
    Follows (m >>= f) s c (d >>= g) := by
  unfold Follows at h
  cases hd : d.result with
  | error e =>
    rw [hd] at h
    rw [Deliberation.bind_error hd]
    exact h.bind_error
  | ok a =>
    rw [hd] at h
    rw [Deliberation.bind_ok hd]
    exact h.bind (go a _ (h.unmoved.atGate c))

end Follows

theorem follows_setting {item : String} {q : Consultation}
    (answer : s.atGate c q = s.settingOf item) (written : s.writtenOf c q = [.settingAsked item]) :
    Follows (setting item) s c ((s.atGate c).consult q) := consults_setting answer written

end Act

namespace Gate
variable {s : Session} {c : EditContext}

theorem follows_globExcludes (s : Session) (c : EditContext) :
    Follows (globExcludes c.filePath) s c ((s.atGate c).globExcludes c) := by
  refine (follows_setting rfl rfl).bind fun glob s' _ => ?_
  cases glob.truthy with
  | false => exact .pure false s' c
  | true =>
    show Follows (do
      if ← take (globMatches glob c.filePath) then
        Act.debug _
        return true
      else return false) s' c (.given (globMatches glob c.filePath))
    cases hm : globMatches glob c.filePath with
    | error e => exact (Consults.take (.error e) s' c).bind_error
    | ok found =>
      refine (Consults.take (.ok found) s' c).bind ?_
      cases found with
      | true => exact .debug_pure _ true _ c
      | false => exact .pure false _ c

theorem follows_rulesExclude (s : Session) (c : EditContext) :
    Follows (rulesExclude c.filePath) s c (s.atGate c).rulesExclude := by
  refine (follows_setting rfl rfl).bind fun inUse s' same => ?_
  cases inUse.truthy with
  | false => exact .pure false s' c
  | true =>
    rw [← same]
    refine Follows.bind consults_askIgnored fun ignored s'' _ => ?_
    cases ignored.truthy with
    | true => exact .debug_pure _ true s'' c
    | false => exact .pure false s'' c

theorem follows_isPathIgnored (s : Session) (c : EditContext) :
    Follows (isPathIgnored c.filePath) s c ((s.atGate c).ignores c) := by
  refine (follows_globExcludes s c).bind fun excluded s' same => ?_
  cases excluded with
  | true => exact .pure true s' c
  | false => exact same ▸ follows_rulesExclude s' c

theorem follows_changeAllowed (s : Session) (c : EditContext) :
    Follows (changeAllowed c.filePath) s c
      (do return (← (s.atGate c).consult .whileTyping).truthy) := by
  refine (follows_setting rfl rfl).bind fun inUse s' _ => ?_
  cases inUse.truthy with
  | true => exact .pure true s' c
  | false => exact .debug_pure _ false s' c

theorem follows_previewAllowed (s : Session) (c : EditContext) :
    Follows (previewAllowed c) s c (do
      if (← (s.atGate c).consult .preview).truthy then
        return (← (s.atGate c).consult .previewsInUse).truthy
      else return true) := by
  refine Follows.bind consults_askSurface fun pending s' same => ?_
  cases pending.truthy with
  | false => exact .pure true s' c
  | true =>
    rw [← same]
    refine (follows_setting rfl rfl).bind fun inUse s'' _ => ?_
    cases inUse.truthy with
    | true => exact .pure true s'' c
    | false => exact .debug_pure _ false s'' c

/-- The gate decides what is to be decided from the answers it gets, and consults what is to be
consulted. -/
theorem follows_shouldLint (s : Session) (c : EditContext) :
    Follows (shouldLint c) s c ((s.atGate c).deliberate c) := by
  unfold shouldLint Answers.deliberate
  cases c.filePath.truthy with
  | false => exact .debug_pure _ false s c
  | true =>
    refine (follows_isPathIgnored s c).bind fun ignored s' same => ?_
    cases ignored with
    | true => exact .pure false s' c
    | false =>
      rw [← same]
      unfold Answers.isTime
      simp only [Bool.false_eq_true, if_false]
      split
      · exact follows_changeAllowed s' c
      · exact follows_previewAllowed s' c

end Gate
end LintBroker

import LintBroker.Proofs.Configuration

/-!
# What the gate consults

Whether an edit is linted is decided by six consultations, each of which is made only if its answer
can still matter: the glob of ignored paths, whether the rule for them is in use, the rule, and then
whether one lints while the user types, or whether the surface is a preview and previews are linted
too. The first that fails ends the matter. What matters and what is linted is said here of the
answers alone, without the gate.
-/
namespace LintBroker
open Session Act

/-- Whether an entry tells of a question that was asked of a collaborator. -/
def Entry.isQuestion : Entry → Bool
  | .ignoreAsked _ | .matchAsked .. | .surfaceAsked .. | .settingAsked _ => true
  | _ => false

theorem Entry.isQuestion_of_isLine {e : Entry} (h : e.isLine = true) : e.isQuestion = false := by
  cases e <;> first | rfl | cases h

/-- What a gate may consult about an edit. -/
inductive Consultation
  | glob
  | rulesInUse
  | rules
  | whileTyping
  | preview
  | previewsInUse
deriving DecidableEq, Repr

def Consultation.inOrder : List Consultation :=
  [.glob, .rulesInUse, .rules, .whileTyping, .preview, .previewsInUse]

/-- What each consultation about an edit is answered with. -/
abbrev Answers := Consultation → Except Failure Value

namespace Answers
variable (A : Answers) (c : EditContext)

def Affirms (q : Consultation) : Prop := ∃ v, A q = .ok v ∧ v.truthy = true

def Denies (q : Consultation) : Prop := ∃ v, A q = .ok v ∧ v.truthy = false

/-- The glob of ignored paths is empty, or it matches neither the path nor the last part of it. -/
def PassesGlob : Prop :=
  A.Denies .glob ∨ ∃ v glob path, A .glob = .ok v ∧ v.truthy = true ∧
    v.text? = some glob ∧ c.filePath.text? = some path ∧
      Text.Glob.test glob.toList path.toList = false ∧
      Text.Glob.test glob.toList (Gate.baseName path.toList) = false

/-- The rule for ignored paths is not in use, or it does not ignore the path. -/
def PassesRules : Prop := A.Denies .rulesInUse ∨ A.Affirms .rulesInUse ∧ A.Denies .rules

/-- The edit is of a file whose path is not ignored. -/
def Unignored : Prop := c.filePath.truthy = true ∧ A.PassesGlob c ∧ A.PassesRules

/-- The answer can still matter to whether the edit is linted. -/
def Matters : Consultation → Prop
  | .glob => c.filePath.truthy = true
  | .rulesInUse => c.filePath.truthy = true ∧ A.PassesGlob c
  | .rules => (c.filePath.truthy = true ∧ A.PassesGlob c) ∧ A.Affirms .rulesInUse
  | .whileTyping => A.Unignored c ∧ c.onChange.truthy = true
  | .preview => A.Unignored c ∧ c.onChange.truthy = false
  | .previewsInUse => (A.Unignored c ∧ c.onChange.truthy = false) ∧ A.Affirms .preview

/-- Of some consultations those that mattered were made in turn, and no others, and they came to a
result that says whether something holds. The first that failed was the last to be made. -/
structure Settle (order : List Consultation) (b : Bool) (holds : Prop) (asked : List Consultation)
    (r : Except Failure Bool) : Prop where
  sublist : asked.Sublist order
  matters : ∀ q ∈ order, (q ∈ asked ↔ A.Matters c q)
  result : r = .ok b ↔ holds
  failure : ∀ f, r = .error f ↔ ∃ q ∈ asked, A q = .error f
  last : ∀ q ∈ asked, ∀ f, A q = .error f → asked.getLast? = some q

variable {A c} {order : List Consultation} {b : Bool} {holds : Prop}

/-- Nothing is left to consult. -/
theorem Settle.nothing {b' : Bool} (skips : ∀ q ∈ order, ¬ A.Matters c q) (h : b' = b ↔ holds) :
    A.Settle c order b holds [] (.ok b') where
  sublist := List.nil_sublist _
  matters q hq := by simp [skips q hq]
  result := by simpa using h
  failure := by simp
  last := by simp

/-- A consultation fails, and no more are made. -/
theorem Settle.refused {q : Consultation} {f : Failure} (answer : A q = .error f)
    (matters : A.Matters c q) (skips : ∀ q' ∈ order, ¬ A.Matters c q') (h : ¬ holds) :
    A.Settle c (q :: order) b holds [q] (.error f) where
  sublist := by simp
  matters q' hq' := by
    rcases List.mem_cons.mp hq' with rfl | later
    · simpa using matters
    · have other : q' ≠ q := fun same => skips q' later (same ▸ matters)
      simpa [other] using skips q' later
  result := by simpa using h
  failure := by simp [answer]
  last := by simp

/-- A consultation is answered, and others follow. -/
theorem Settle.cons {q : Consultation} {v : Value} {asked : List Consultation}
    {r : Except Failure Bool} (answer : A q = .ok v) (matters : A.Matters c q)
    (h : A.Settle c order b holds asked r) : A.Settle c (q :: order) b holds (q :: asked) r where
  sublist := h.sublist.cons_cons q
  matters q' hq' := by
    rcases List.mem_cons.mp hq' with rfl | hq'
    · simpa using matters
    · have := h.matters q' hq'
      by_cases same : q' = q
      · subst same
        simpa using matters
      · simpa [same] using this
  result := h.result
  failure f := by simp [h.failure, answer]
  last q' hq' f hf := by
    rcases List.mem_cons.mp hq' with rfl | hq'
    · simp [answer] at hf
    · have last := h.last q' hq' f hf
      cases asked with
      | nil => cases hq'
      | cons _ _ => simpa using last

/-- What was consulted settles the matter, and no more consultations are made. -/
theorem Settle.stop {order' asked : List Consultation} {r : Except Failure Bool} (b' : Bool)
    (holds' : Prop) (h : A.Settle c order b holds asked r) (not : ¬ holds)
    (skips : ∀ q ∈ order', ¬ A.Matters c q) :
    A.Settle c (order ++ order') b' (holds ∧ holds') asked (r.map fun _ => !b') where
  sublist := h.sublist.trans (List.sublist_append_left _ _)
  matters q hq := by
    rcases List.mem_append.mp hq with hq | hq
    · exact h.matters q hq
    · refine iff_of_false (fun asked => ?_) (skips q hq)
      exact skips q hq ((h.matters q (h.sublist.subset asked)).mp asked)
  result := by
    refine iff_of_false (fun same => ?_) fun both => not both.1
    cases r with
    | error f => cases same
    | ok _ =>
      have : (!b') = b' := Except.ok.inj same
      simp at this
  failure f := by
    rw [← h.failure]
    cases r <;> simp [Except.map]
  last := h.last

/-- What was consulted leaves the matter open, and more consultations follow. -/
theorem Settle.append {order' asked asked' : List Consultation} {b' : Bool} {holds' : Prop}
    {r : Except Failure Bool} (h : A.Settle c order b holds asked (.ok b))
    (h' : A.Settle c order' b' holds' asked' r) (apart : ∀ q ∈ order, q ∉ order') :
    A.Settle c (order ++ order') b' (holds ∧ holds') (asked ++ asked') r where
  sublist := h.sublist.append h'.sublist
  matters q hq := by
    rw [List.mem_append]
    rcases List.mem_append.mp hq with hq | hq
    · rw [← h.matters q hq]
      exact or_iff_left fun hq' => apart q hq (h'.sublist.subset hq')
    · rw [← h'.matters q hq]
      exact or_iff_right fun hq' => apart q (h.sublist.subset hq') hq
  result := h'.result.trans (iff_and_self.mpr fun _ => h.result.mp rfl)
  failure f := by
    have none : ¬ ∃ q ∈ asked, A q = .error f := fun hq => nomatch (h.failure f).mpr hq
    rw [h'.failure]
    constructor
    · rintro ⟨q, hq, hf⟩
      exact ⟨q, List.mem_append_right _ hq, hf⟩
    · rintro ⟨q, hq, hf⟩
      rcases List.mem_append.mp hq with hq | hq
      · exact absurd ⟨q, hq, hf⟩ none
      · exact ⟨q, hq, hf⟩
  last q hq f hf := by
    rcases List.mem_append.mp hq with hq | hq
    · exact nomatch (h.failure f).mpr ⟨q, hq, hf⟩
    · rw [List.getLast?_append, h'.last q hq f hf]
      rfl

end Answers

namespace Session
variable {s s' s'' : Session} {c : EditContext}

def questions (s : Session) : List Entry := s.history.filter Entry.isQuestion

def ignoredOf (s : Session) (path : Value) : Except Failure Value :=
  match s.host.ignoreRule with
  | some rule => if rule.truthy then ruleAnswer rule path else .ok (.bool false)
  | none => .ok (.bool false)

/-- What each consultation about an edit would be answered with now. -/
def atGate (s : Session) (c : EditContext) : Answers
  | .glob => s.settingOf "ignored_glob"
  | .rulesInUse => s.settingOf "ignore_vcs_ignored_paths"
  | .rules => s.ignoredOf c.filePath
  | .whileTyping => s.settingOf "lint_on_fly"
  | .preview => s.answerOf c.surface .pendingPreview
  | .previewsInUse => s.settingOf "lint_preview_tabs"

/-- What is written of a consultation. A rule or a surface that the host has not given is asked
nothing. -/
def writtenOf (s : Session) (c : EditContext) : Consultation → List Entry
  | .glob => [.settingAsked "ignored_glob"]
  | .rulesInUse => [.settingAsked "ignore_vcs_ignored_paths"]
  | .rules => if s.host.ignoreRule.any IgnoreRule.truthy then [.ignoreAsked c.filePath] else []
  | .whileTyping => [.settingAsked "lint_on_fly"]
  | .preview =>
    if (s.host.surfaces.get? c.surface).isSome then [.surfaceAsked c.surface .pendingPreview] else []
  | .previewsInUse => [.settingAsked "lint_preview_tabs"]

theorem Unmoved.atGate (h : s.Unmoved s') (c : EditContext) : s'.atGate c = s.atGate c := by
  funext q
  cases q with
  | rules => simp only [Session.atGate, ignoredOf, h.quiet.host]
  | preview => exact h.quiet.answerOf c.surface .pendingPreview
  | _ => exact h.settings _

theorem Unmoved.writtenOf (h : s.Unmoved s') (c : EditContext) : s'.writtenOf c = s.writtenOf c := by
  funext q
  cases q <;> simp only [Session.writtenOf, h.quiet.host]

theorem questions_noted (s : Session) (e : Entry) :
    (s.noted e).questions = s.questions ++ [e].filter Entry.isQuestion := by
  rw [questions, history_noted, List.filter_append]
  rfl

def Unasked (s s' : Session) : Prop := s'.questions = s.questions

instance : IsPreorder Session Unasked where
  refl _ := rfl
  trans _ _ _ h h' := h'.trans h

end Session

namespace Act
variable {α β : Type} {s s' : Session} {c : EditContext} {q : Consultation}
  {asked asked' : List Consultation}

/-- The computation makes some consultations, in turn, and comes to a result; it moves nothing. -/
structure Consults (m : Act α) (s : Session) (c : EditContext) (asked : List Consultation)
    (r : Except Failure α) : Prop where
  result : (m.exec s).1 = r
  unmoved : s.Unmoved (m.exec s).2
  questions : (m.exec s).2.questions = s.questions ++ asked.flatMap (s.writtenOf c)

namespace Consults

theorem take (r : Except Failure α) (s : Session) (c : EditContext) : Consults (take r) s c [] r :=
  ⟨rfl, refl s, by simp⟩

theorem pure (a : α) (s : Session) (c : EditContext) : Consults (pure a) s c [] (.ok a) :=
  .take (.ok a) s c

/-- A computation may look at its session first. -/
theorem get {f : Session → Act α} {r : Except Failure α} (h : Consults (f s) s c asked r) :
    Consults (MonadState.get >>= f) s c asked r := ⟨h.result, h.unmoved, h.questions⟩

theorem debug (text : String) (s : Session) (c : EditContext) :
    Consults (debug text) s c [] (.ok ()) :=
  ⟨rfl, .of_reads (.push rfl s) fun _ => rfl, by
    rw [exec_debug, questions_noted]
    simp [Entry.isQuestion]⟩

/-- What comes next makes its consultations from a session that has not moved. -/
theorem bind {m : Act α} {f : α → Act β} {a : α} {r : Except Failure β}
    (h : Consults m s c asked (.ok a))
    (go : Consults (f a) (m.exec s).2 c asked' r) : Consults (m >>= f) s c (asked ++ asked') r := by
  obtain ⟨result, unmoved, questions⟩ := h
  generalize hm : m.exec s = x at result unmoved questions go
  obtain ⟨_, s'⟩ := x
  obtain rfl := result
  refine ⟨?_, ?_, ?_⟩
  · rw [exec_bind_ok hm, go.result]
  · rw [exec_bind_ok hm]
    exact IsTrans.trans _ _ _ unmoved go.unmoved
  · rw [exec_bind_ok hm, go.questions, questions, unmoved.writtenOf, List.flatMap_append,
      List.append_assoc]

/-- What fails makes no further consultations. -/
theorem bind_error {m : Act α} {f : α → Act β} {e : Failure} (h : Consults m s c asked (.error e)) :
    Consults (m >>= f) s c asked (.error e) := by
  obtain ⟨result, unmoved, questions⟩ := h
  generalize hm : m.exec s = x at result unmoved questions
  obtain ⟨_, s'⟩ := x
  obtain rfl := result
  refine ⟨?_, ?_, ?_⟩
  · rw [exec_bind_error hm]
  · rw [exec_bind_error hm]
    exact unmoved
  · rw [exec_bind_error hm]
    exact questions

/-- A line is written before a result is given. -/
theorem debug_pure (text : String) (a : α) (s : Session) (c : EditContext) :
    Consults (do Act.debug text; return a) s c [] (.ok a) :=
  (debug text s c).bind (.pure a _ c)

end Consults

theorem unasked_lines (e : Entry) (h : e.isQuestion = false) : KeepsTo Unasked (note e).run := by
  intro s
  show (s.noted e).questions = s.questions
  rw [questions_noted]
  simp [h]

theorem unasked_settings (f : Session → Option Setting.Store) :
    KeepsTo Unasked (modify fun s => { s with settings := f s } : Act PUnit).run := fun _ => rfl

theorem unasked_readShared (item : String) : KeepsTo Unasked (readShared item).run :=
  keepsTo_readShared
    (fun _ h => unasked_lines _ (Entry.isQuestion_of_isLine h)) unasked_settings item

theorem questions_setting (item : String) (s : Session) :
    ((setting item).exec s).2.questions = s.questions ++ [.settingAsked item] := by
  have asked := questions_noted s (.settingAsked item)
  rw [setting, exec_bind_ok (exec_note _), exec_bind_ok exec_get]
  split
  · exact asked
  · exact (unasked_readShared item (s.noted (.settingAsked item))).trans asked

/-- A consultation that reads a setting. -/
theorem consults_setting {item : String} (answer : s.atGate c q = s.settingOf item)
    (written : s.writtenOf c q = [.settingAsked item]) :
    Consults (setting item) s c [q] (s.atGate c q) := by
  obtain ⟨s', he, unmoved⟩ := exec_setting item s
  have questions := questions_setting item s
  rw [he] at questions
  refine ⟨?_, ?_, ?_⟩
  · rw [he, answer]
  · rw [he]
    exact unmoved
  · rw [he, questions, List.flatMap_singleton, written]

theorem consults_noted {e : Entry} (quiet : e.isQuiet = true) (question : e.isQuestion = true)
    (written : s.writtenOf c q = [e]) (r : Except Failure α) :
    Consults (do note e; take r) s c [q] r := by
  refine ⟨rfl, .of_reads (.push quiet s) fun _ => rfl, ?_⟩
  rw [List.flatMap_singleton, written]
  show (s.noted e).questions = _
  rw [questions_noted, List.filter_cons_of_pos question, List.filter_nil]

theorem consults_askIgnored : Consults (askIgnored c.filePath) s c [.rules] (s.atGate c .rules) := by
  have silent (unasked : s.writtenOf c .rules = []) :
      Consults (pure (Value.bool false)) s c [.rules] (.ok (.bool false)) :=
    ⟨rfl, refl s, by simp [unasked]⟩
  refine .get ?_
  show Consults _ s c [.rules] (s.ignoredOf c.filePath)
  unfold ignoredOf
  cases hr : s.host.ignoreRule with
  | none => exact silent (by simp [writtenOf, hr])
  | some rule =>
    cases truthy : rule.truthy with
    | false =>
      simp only [truthy, Bool.false_eq_true, if_false]
      exact silent (by simp [writtenOf, hr, truthy])
    | true =>
      simp only [truthy, if_true]
      exact consults_noted rfl rfl (by simp [writtenOf, hr, truthy]) _

theorem consults_askSurface :
    Consults (askSurface c.surface .pendingPreview) s c [.preview] (s.atGate c .preview) := by
  refine .get ?_
  show Consults _ s c [.preview] (s.answerOf c.surface .pendingPreview)
  unfold answerOf
  cases hs : s.host.surfaces.get? c.surface with
  | none => exact ⟨rfl, refl s, by simp [writtenOf, hs]; rfl⟩
  | some surface => exact consults_noted rfl rfl (by simp [writtenOf, hs]) _

end Act

/-! ### The parts of the decision -/

namespace Gate
variable {s s' : Session} {c : EditContext} {order order' : List Consultation} {b b' : Bool}
  {holds holds' : Prop}

/-- The computation makes the consultations that matter, and says whether something holds. -/
def Decides (m : Act Bool) (s : Session) (c : EditContext) (order : List Consultation) (b : Bool)
    (holds : Prop) : Prop :=
  ∃ asked r, Consults m s c asked r ∧ (s.atGate c).Settle c order b holds asked r

namespace Decides

/-- Nothing is left to consult. -/
theorem pure {m : Act Bool} (b' : Bool) (h : Consults m s c [] (.ok b'))
    (skips : ∀ q ∈ order, ¬ (s.atGate c).Matters c q) (same : b' = b ↔ holds) :
    Decides m s c order b holds := ⟨_, _, h, .nothing skips same⟩

/-- A consultation comes first. -/
theorem consult {m : Act Value} {f : Value → Act Bool} {q : Consultation}
    (asks : Consults m s c [q] (s.atGate c q)) (matters : (s.atGate c).Matters c q)
    (refused : ∀ e, s.atGate c q = .error e →
      ¬ holds ∧ ∀ q' ∈ order, ¬ (s.atGate c).Matters c q')
    (go : ∀ v s', s.atGate c q = .ok v → s'.atGate c = s.atGate c →
      Decides (f v) s' c order b holds) : Decides (m >>= f) s c (q :: order) b holds := by
  cases answer : s.atGate c q with
  | error e =>
    rw [answer] at asks
    obtain ⟨not, skips⟩ := refused e answer
    exact ⟨_, _, asks.bind_error, .refused answer matters skips not⟩
  | ok v =>
    rw [answer] at asks
    have same := asks.unmoved.atGate c
    obtain ⟨asked, r, consults, settles⟩ := go v _ answer same
    exact ⟨_, _, asks.bind consults, .cons answer matters (same ▸ settles)⟩

theorem skip {m : Act Bool} {q : Consultation} (not : ¬ (s.atGate c).Matters c q)
    (h : Decides m s c order b holds) : Decides m s c (q :: order) b holds := by
  obtain ⟨asked, r, consults, settles⟩ := h
  refine ⟨asked, r, consults, { settles with sublist := settles.sublist.cons q, matters := ?_ }⟩
  intro q' hq'
  rcases List.mem_cons.mp hq' with rfl | later
  · exact iff_of_false (fun hq => not ((settles.matters _ (settles.sublist.subset hq)).mp hq)) not
  · exact settles.matters q' later

end Decides

open Answers

end Gate
end LintBroker

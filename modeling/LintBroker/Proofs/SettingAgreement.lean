import LintBroker.Proofs.CommaLists

/-!
# A text given, and a text in a variable

A text may be given to a setting at run time, where it is fitted to the kind of the setting, or
stand in the host's variable, where the kind reads it. The two go different ways: the words for
truth values are taken as they are by the one, while the other trims them and goes by the case of
every letter there is. Yet what is fitted is also read, and as the same.
-/
namespace LintBroker.Text

/-- An ASCII character above the blank. -/
def IsMark (c : Char) : Prop := 0x21 ≤ c.toNat ∧ c.toNat < 0x80

instance (c : Char) : Decidable (IsMark c) := inferInstanceAs (Decidable (_ ∧ _))

section marks
variable {c : Char} {cs : List Char} {s word : String} {b : Bool}

theorem IsMark.of_toLower (h : IsMark c.toLower) : IsMark c := by
  unfold Char.toLower at h
  split at h
  · next capital =>
    have first : 65 ≤ c.toNat := UInt32.le_iff_toNat_le.mp capital.1
    have last : c.toNat ≤ 90 := UInt32.le_iff_toNat_le.mp capital.2
    exact ⟨by omega, by omega⟩
  · exact h

theorem IsMark.not_isBlank (h : IsMark c) : isBlank c = false := by
  obtain ⟨above, below⟩ := h
  simp [isBlank, isWhiteSpace, Spans.has, whiteSpaceSpans]
  omega

theorem bare_of_marks (h : ∀ c ∈ cs, IsMark c) : Bare isBlank cs where
  first c hc := (h c (List.mem_of_mem_head? hc)).not_isBlank
  last c hc := (h c (List.mem_of_getLast? hc)).not_isBlank

theorem lowerFrom_of_ascii (before : List Char) (h : ∀ c ∈ cs, c.toNat < 0x80) :
    lowerFrom before cs = cs.map Char.toLower := by
  induction cs generalizing before with
  | nil => rfl
  | cons c rest ih =>
    obtain ⟨ascii, others⟩ := List.forall_mem_cons.mp h
    have notSigma : c ≠ 'Σ' := by
      rintro rfl
      exact absurd ascii (by decide)
    rw [lowerFrom, if_neg notSigma, lowerChar, if_pos ascii, ih _ others]
    rfl

theorem lower_strip_of_marks (h : ∀ c ∈ s.toList, IsMark c) :
    lower (strip s) = String.ofList (s.toList.map Char.toLower) := by
  rw [lower, strip, String.toList_ofList, trimChars_of_bare (bare_of_marks h),
    lowerFrom_of_ascii [] fun c hc => (h c hc).2]

theorem mem_words_of_wordSwitch? (h : wordSwitch? word = some b) : word ∈ trueWords ++ falseWords := by
  unfold wordSwitch? at h
  split at h
  · next here => exact List.mem_append_left _ (List.contains_iff_mem.mp here)
  · split at h
    · next here => exact List.mem_append_right _ (List.contains_iff_mem.mp here)
    · cases h

theorem isMark_of_mem_words (there : word ∈ trueWords ++ falseWords) (hc : c ∈ word.toList) :
    IsMark c := by
  have all : (trueWords ++ falseWords).all (fun w => w.toList.all fun c => decide (IsMark c)) =
      true := by decide
  exact of_decide_eq_true (List.all_eq_true.mp (List.all_eq_true.mp all word there) c hc)

/-- The wide reader of truth values reads all that the narrow one does, and as the same. -/
theorem switch_of_narrowSwitch? (h : narrowSwitch? s = some b) : switch s = .ok b := by
  have marks : ∀ c ∈ s.toList, IsMark c := by
    intro c hc
    refine .of_toLower (isMark_of_mem_words (mem_words_of_wordSwitch? h) ?_)
    rw [String.toList_ofList]
    exact List.mem_map_of_mem hc
  rw [narrowSwitch?, ← lower_strip_of_marks marks] at h
  rw [switch, h]

end marks
end LintBroker.Text

namespace LintBroker.Setting
open Text
variable {kind : Kind} {s text : String} {w : Value} {b : Bool}

theorem switch_of_fitSwitch (h : fitSwitch (.str s) = .ok b) : switch s = .ok b := by
  have read : switchOfText s = .ok b := h
  unfold switchOfText at read
  cases narrow : narrowSwitch? s with
  | none =>
    rw [narrow] at read
    cases read
  | some c =>
    rw [narrow] at read
    exact Except.ok.inj read ▸ switch_of_narrowSwitch? narrow

theorem switch_of_fitSwitch_cased {cased : String} (h : fitSwitch (.str s) = .ok b)
    (same : cased.toList.map Char.toLower = s.toList.map Char.toLower) : switch cased = .ok b := by
  refine switch_of_fitSwitch ?_
  show switchOfText cased = .ok b
  rw [← h]
  show switchOfText cased = switchOfText s
  rw [switchOfText, narrowSwitch?, same]
  rfl

theorem strictOfText_of_fits (h : normalize kind (.str s) = .ok w) :
    strictOfText (.str s) s kind = .ok w := by
  induction kind with
  | listOf item =>
    obtain ⟨items, _, listed, _⟩ := normalize_listOf h
    cases listed
  | optional inner ih => exact ih h
  | _ => exact h

theorem ofText_of_fits (h : normalize kind (.str s) = .ok w) : ofText kind (.str s) = .ok w := by
  have strict := strictOfText_of_fits h
  cases kind with
  | listOf item => cases strict
  | text => exact congrArg Except.ok (Except.ok.inj strict)
  | switch =>
    cases fitted : fitSwitch (.str s) with
    | error issues =>
      rw [normalize, fitted] at h
      cases h
    | ok b =>
      rw [normalize, fitted] at h
      show (switch s).map Value.bool = .ok w
      rw [switch_of_fitSwitch fitted]
      exact congrArg Except.ok (Except.ok.inj h)
  | _ => simp only [ofText, Value.text?, strict]

theorem firstFound_append {before after : List (Place × Except Failure Value)}
    (h : firstFound before = .ok none) : firstFound (before ++ after) = firstFound after := by
  induction before with
  | nil => rfl
  | cons layer rest ih =>
    obtain ⟨place, r⟩ := layer
    cases r with
    | ok v => cases h
    | error f =>
      rw [firstFound] at h
      rw [List.cons_append, firstFound]
      split at h
      · next lacks => rw [if_pos lacks, ih h]
      · cases h

namespace Store
variable {st st' : Store} {item : String} {v : Value}

/-- No layer that is searched before the values given at run time has the setting, or fails to tell.
-/
def Unshadowed (st : Store) (env : Environment) (item : String) : Prop :=
  firstFound (st.variableLayers env item ++ st.extraLayers item) = .ok none

/-- A value is given to a declared setting if it fits, and is what the setting reads as unless an
earlier layer has it. -/
theorem get_of_set (ready : st.ready = true) (given : st.set item v = .ok st') :
    ∃ d w, st.schema.get? item = some d ∧ normalize d.kind v = .ok w ∧
      ∀ env, st.Unshadowed env item → (st'.get env item).1 = .ok w := by
  cases declared : st.schema.get? item with
  | none =>
    rw [set, declared_of_none declared] at given
    cases given
  | some d =>
    rw [set_of_declared declared] at given
    cases fitted : normalize d.kind v with
    | error issues =>
      rw [fitted] at given
      cases given
    | ok w =>
      rw [fitted] at given
      obtain rfl := Except.ok.inj given
      refine ⟨d, w, rfl, fitted, fun env alone => ?_⟩
      let after : Store := { st with overrides := st.overrides.put item w }
      have found : firstFound (after.layers env item) = .ok (some (w, .override)) := by
        refine (firstFound_append alone).trans ?_
        simp [after, readTable, firstFound]
      have located : after.locate env item = (convert d.kind (w, .override), after) := by
        have same : after.declared item = .ok d := declared_of_get? (s := after) declared
        have up : after.ready = true := ready
        simp [locate, same, up, found]
      show (after.locate env item).1.map Prod.fst = .ok w
      rw [located]
      exact convert_normalize fitted

end Store

/-- A text that can be given to a setting at run time can stand in the host's variable as well: any
store of the host that reads it there reads what the setting reads as when the text was given, if no
earlier layer has the setting. And every word that can be given for a truth value is one for any
reader of such words, and for the same value, however its letters are cased. -/
theorem given_as_in_variable :
    (∀ (st st' : Store) (item s : String), st.ready = true → st.set item (.str s) = .ok st' →
      ∃ v, (∀ env, st.Unshadowed env item → (st'.get env item).1 = .ok v) ∧
        ∀ (other : Store) (env : Environment), other.host = st.host → other.schema = st.schema →
          other.ready = true → env.get? (upper st.host ++ "_" ++ upper item) = some s →
            (other.get env item).1 = .ok v) ∧
    ∀ (word cased : String) (b : Bool), fitSwitch (.str word) = .ok b →
      cased.toList.map Char.toLower = word.toList.map Char.toLower → switch cased = .ok b := by
  refine ⟨fun st st' item s ready given => ?_, fun word cased b => switch_of_fitSwitch_cased⟩
  obtain ⟨d, w, declared, fitted, got⟩ := Store.get_of_set ready given
  refine ⟨w, got, fun other env host schema up there => ?_⟩
  have present : variableText other.host env item = some s := by
    rw [variableText, host, there, Option.some_or]
  rw [Store.get_of_variable (schema ▸ declared) up present]
  exact ofText_of_fits fitted

/-- A word with capitals that is given to a switch, and stands in the host's variable. -/
theorem samplePorts_given_as_in_variable :
    let env : Environment := .ofList [("H_LINT_ON_FLY", "Off")]
    ∃ st', samplePorts.set "lint_on_fly" (.str "Off") = .ok st' ∧
      (st'.get ∅ "lint_on_fly").1 = .ok (.bool false) ∧
      (samplePorts.get env "lint_on_fly").1 = .ok (.bool false) ∧
      switch "oFF" = .ok false := by
  intro env
  obtain ⟨texts, words⟩ := given_as_in_variable
  have given : samplePorts.set "lint_on_fly" (.str "Off") = .ok
      { samplePorts with overrides := samplePorts.overrides.put "lint_on_fly" (.bool false) } := rfl
  obtain ⟨v, runtime, stored⟩ := texts _ _ _ _ rfl given
  have off : v = .bool false := Except.ok.inj ((runtime ∅ rfl).symm.trans rfl)
  subst off
  exact ⟨_, given, runtime ∅ rfl, stored samplePorts env rfl rfl rfl (by decide +kernel),
    words "off" "oFF" false rfl (by decide)⟩

end LintBroker.Setting

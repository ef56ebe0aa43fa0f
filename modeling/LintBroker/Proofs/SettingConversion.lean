import LintBroker.Proofs.SettingLayers

/-!
# What variables are read as

A value belongs to a kind, or it does not. What a variable says is read by the kind of its setting,
and belongs to it unless the kind is a list: the parts of a list stay texts, whatever its items
should be.
-/
namespace LintBroker.Setting
open Text

/-- The value belongs to the kind. -/
def Kind.Holds : Kind → Value → Prop
  | .text, v => ∃ s, v = .str s
  | .whole, v => ∃ i, v = .int i
  | .real, v => ∃ x, v = .real x
  | .switch, v => ∃ b, v = .bool b
  | .anything, _ => True
  | .list, v => ∃ items, v = .list items
  | .listOf item, v => ∃ items, v = .list items ∧ ∀ x ∈ items, item.Holds x
  | .mapOf item, v => ∃ rows, v = .dict rows ∧ ∀ r ∈ rows, item.Holds r.2
  | .optional inner, v => v = .none ∨ inner.Holds v

theorem holds_of_map {ε α : Type} {kind : Kind} {w : Value} {r : Except ε α} {f : α → Value}
    (h : r.map f = .ok w) (all : ∀ a, kind.Holds (f a)) : kind.Holds w := by
  cases r with
  | error _ => cases h
  | ok a => exact Except.ok.inj h ▸ all a

theorem holds_of_strictOfText {kind : Kind} {s : String} {w : Value}
    (h : strictOfText (.str s) s kind = .ok w) : kind.Holds w := by
  induction kind with
  | text => exact ⟨s, (Except.ok.inj h).symm⟩
  | anything => trivial
  | whole | real | switch => exact holds_of_map h fun a => ⟨a, rfl⟩
  | list | listOf _ | mapOf _ => cases h
  | optional inner ih => exact .inr (ih h)

/-- What a text is read as belongs to the kind, unless that is a list to whose items the parts of the
text do not belong. -/
theorem holds_ofText_iff {kind : Kind} {s : String} {w : Value} (h : ofText kind (.str s) = .ok w) :
    kind.Holds w ↔
      ∀ item, kind = .listOf item → ∀ part ∈ commaItems s, item.Holds (.str part) := by
  unfold ofText at h
  simp only [Value.text?] at h
  by_cases hk : ∃ item, kind = .listOf item
  · obtain ⟨item, rfl⟩ := hk
    obtain rfl := Except.ok.inj h
    simp [Kind.Holds]
  · refine iff_of_true ?_ fun item he => absurd ⟨item, he⟩ hk
    cases kind with
    | listOf item => exact absurd ⟨item, rfl⟩ hk
    | text => exact ⟨_, (Except.ok.inj h).symm⟩
    | switch => exact holds_of_map h fun b => ⟨b, rfl⟩
    | _ =>
      simp only at h
      split at h
      · rename_i strict
        exact Except.ok.inj h ▸ holds_of_strictOfText strict
      · cases h

theorem Store.get_of_variable {s : Store} {env : Environment} {item text : String} {d : Declaration}
    (declared : s.schema.get? item = some d) (ready : s.ready = true)
    (present : variableText s.host env item = some text) :
    (s.get env item).1 = ofText d.kind (.str text) := by
  simp only [Store.get, locate_of_variable declared ready present, map_fst_map]

/-- A setting that is read from a variable belongs to its kind, unless that is a list to whose items
the parts of the variable's text do not belong. -/
theorem get_holds_iff (s : Store) (env : Environment) {item text : String} {d : Declaration}
    {v : Value} (declared : s.schema.get? item = some d)
    (present : variableText s.host env item = some text) (read : (s.get env item).1 = .ok v) :
    d.kind.Holds v ↔
      ∀ part, d.kind = .listOf part → ∀ x ∈ commaItems text, part.Holds (.str x) := by
  cases ready : s.ready with
  | false =>
    simp [Store.get, Store.locate, Store.declared_of_get? declared, ready, Except.map] at read
  | true =>
    rw [Store.get_of_variable declared ready present] at read
    exact holds_ofText_iff read

/-- A store with a list of integers among its settings. -/
def samplePorts : Store where
  host := "h"
  schema := coreSchema.put "ports" ⟨.listOf .whole, .required⟩
  ready := true

/-- The names of disabled providers are texts, as they should be. -/
theorem samplePorts_get_holds_iff :
    let env : Environment := .ofList [("LINTER_DISABLED_PROVIDERS", "p, q")]
    samplePorts.schema.get? "disabled_providers" = some ⟨.listOf .text, .fresh (.list [])⟩ ∧
      variableText samplePorts.host env "disabled_providers" = some "p, q" ∧
      (samplePorts.get env "disabled_providers").1 = .ok (.list [.str "p", .str "q"]) ∧
      ((Kind.listOf .text).Holds (.list [.str "p", .str "q"]) ↔
        ∀ part, Kind.listOf .text = .listOf part →
          ∀ x ∈ commaItems "p, q", part.Holds (.str x)) := by
  intro env
  have declared : samplePorts.schema.get? "disabled_providers" =
      some ⟨.listOf .text, .fresh (.list [])⟩ := by rfl
  have present : variableText samplePorts.host env "disabled_providers" = some "p, q" := by
    decide +kernel
  have items : commaItems "p, q" = ["p", "q"] := by decide +kernel
  have read : (samplePorts.get env "disabled_providers").1 = .ok (.list [.str "p", .str "q"]) := by
    rw [Store.get_of_variable declared rfl present, ofText]
    simp [Value.text?, items]
  exact ⟨declared, present, read, get_holds_iff samplePorts env declared present read⟩

/-- Ports that are read from a variable are texts, though they should be integers. -/
theorem samplePorts_get_texts :
    (samplePorts.get (.ofList [("H_PORTS", "1,2")]) "ports").1 = .ok (.list [.str "1", .str "2"]) ∧
      ¬ (Kind.listOf .whole).Holds (.list [.str "1", .str "2"]) := by
  have declared : samplePorts.schema.get? "ports" = some ⟨.listOf .whole, .required⟩ := by rfl
  have present : variableText samplePorts.host (.ofList [("H_PORTS", "1,2")]) "ports" =
      some "1,2" := by decide +kernel
  have items : commaItems "1,2" = ["1", "2"] := by decide +kernel
  constructor
  · rw [Store.get_of_variable declared rfl present, ofText]
    simp [Value.text?, items]
  · simp [Kind.Holds]

end LintBroker.Setting

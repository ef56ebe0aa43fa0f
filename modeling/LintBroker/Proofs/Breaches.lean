import LintBroker.Proofs.Endings
import LintBroker.Proofs.Roster

/-!
# What a check of the contract finds

A check of a provider whose attributes are values or missing lists every clause of the contract that
is not met, once and in order, and nothing else; a provider is refused with exactly that list. This
rests on one thing that is not the provider's to promise: its scope has to be fit to be looked for
among the words. If it is not, the check fails in another way and lists nothing.
-/
namespace LintBroker

/-- A value that can be looked for in a collection that looks values up by hash. A set can, although
it may change: it is compared by what it holds. -/
def Value.Sought (v : Value) : Prop := v.mutableType? = Option.none ∨ ∃ items, v = .set items

namespace Attributes
variable {a : Attributes} {c : Contract}

/-- Every attribute is a value or missing. -/
def Readable (a : Attributes) : Prop :=
  ∀ name f, a.lookUp name = .error f → f.isMissingAttribute = true

/-- What an attribute is taken for: a missing one counts as none. -/
def given (a : Attributes) (name : String) : Value := valueOrNone (a.lookUp name).toOption

def shownName (a : Attributes) : String :=
  if (a.given "name").truthy then (a.given "name").plain else a.className

theorem read?_of_readable (h : a.Readable) (name : String) :
    a.read? name = .ok (a.lookUp name).toOption := by
  unfold read?
  cases hx : a.lookUp name with
  | ok x => rfl
  | error f => simp [h name f hx, Except.toOption]

theorem given_of_read {name : String} {v : Value} (h : a.read name = .ok v) : a.given name = v := by
  unfold read at h
  unfold given
  cases hx : a.lookUp name with
  | ok x =>
    rw [hx] at h
    exact Except.ok.inj h
  | error f => simp [hx, Except.map] at h

theorem read_of_given {name : String} (h : a.given name ≠ .none) :
    a.read name = .ok (a.given name) := by
  unfold given at h ⊢
  unfold read
  cases hx : a.lookUp name with
  | ok x => rfl
  | error f => simp [hx, Except.toOption, valueOrNone] at h

end Attributes

/-- The clauses of the contract for providers. -/
inductive Clause
  | name
  | scope
  | grammarScopes
  | trigger
  | lint
deriving DecidableEq, Repr, Inhabited

namespace Clause
variable {a : Attributes} {c : Contract}

def all : List Clause := [.name, .scope, .grammarScopes, .trigger, .lint]

/-- What each clause asks of a provider. -/
def Met (a : Attributes) (c : Contract) : Clause → Prop
  | .name => ∃ v s, a.read "name" = .ok v ∧ v.text? = some s ∧ s ≠ ""
  | .scope => ∃ v, a.read "scope" = .ok v ∧
      (v = .str "file" ∨ v = .str "project" ∨ ∃ s, v = .scope s)
  | .grammarScopes => ∃ v items, a.read "grammar_scopes" = .ok v ∧ v.sequence? = some items ∧
      ∀ x ∈ items, x.text?.isSome = true
  | .trigger => ∃ b, a.read c.trigger = .ok (.bool b)
  | .lint => a.lookUp "lint" = .ok .method

/-- The breach that a clause which is not met is reported as. -/
def breach (a : Attributes) (c : Contract) : Clause → Breach
  | .name => .name
  | .scope => .scope (a.given "scope")
  | .grammarScopes => .grammarScopes
  | .trigger => .trigger c.trigger
  | .lint => .lint

open Classical in
noncomputable def broken (a : Attributes) (c : Contract) : List Clause :=
  all.filter fun k => ¬ k.Met a c

/-- What the check of a clause finds is its breach, unless it is met. -/
def Finds (a : Attributes) (c : Contract) (k : Clause) (found : Option Breach) : Prop :=
  found = none ∧ k.Met a c ∨ found = some (k.breach a c) ∧ ¬ k.Met a c

theorem filterMap_of_finds {ks : List Clause} {found : List (Option Breach)}
    (h : List.Forall₂ (Finds a c) ks found) :
    open Classical in
    found.filterMap id = (ks.filter fun k => ¬ k.Met a c).map (breach a c) := by
  classical
  induction h with
  | nil => rfl
  | cons first _ ih =>
    rcases first with ⟨rfl, met⟩ | ⟨rfl, unmet⟩
    · rw [List.filterMap_cons_none rfl, ih, List.filter_cons_of_neg (by simpa using met)]
    · rw [List.filterMap_cons_some (f := id) rfl, ih, List.filter_cons_of_pos (by simpa using unmet)]
      rfl

theorem finds_name (a : Attributes) (c : Contract) :
    name.Finds a c (Attributes.nameBreach (a.given "name")) := by
  have text (v : Value) (hv : a.read "name" = .ok v) : v = a.given "name" :=
    (Attributes.given_of_read hv).symm
  unfold Attributes.nameBreach
  cases ht : (a.given "name").text? with
  | none =>
    refine .inr ⟨rfl, ?_⟩
    rintro ⟨v, s, hv, hs, _⟩
    rw [text v hv, ht] at hs
    cases hs
  | some s =>
    by_cases hs : s = ""
    · subst hs
      refine .inr ⟨rfl, ?_⟩
      rintro ⟨v, s, hv, hs, ne⟩
      rw [text v hv, ht] at hs
      exact ne (Option.some.inj hs).symm
    · have given : a.given "name" ≠ .none := fun he => by simp [he, Value.text?] at ht
      exact .inl ⟨by simp [hs], _, s, Attributes.read_of_given given, ht, hs⟩

theorem finds_grammarScopes (a : Attributes) (c : Contract) :
    grammarScopes.Finds a c (Attributes.grammarBreach (a.given "grammar_scopes")) := by
  have list (v : Value) (hv : a.read "grammar_scopes" = .ok v) : v = a.given "grammar_scopes" :=
    (Attributes.given_of_read hv).symm
  unfold Attributes.grammarBreach
  cases hi : (a.given "grammar_scopes").sequence? with
  | none =>
    refine .inr ⟨rfl, ?_⟩
    rintro ⟨v, items, hv, hs, _⟩
    rw [list v hv, hi] at hs
    cases hs
  | some items =>
    cases texts : items.all fun x => x.text?.isSome with
    | true =>
      have given : a.given "grammar_scopes" ≠ .none := fun he => by simp [he, Value.sequence?] at hi
      exact .inl ⟨by simp [texts], _, items, Attributes.read_of_given given, hi,
        List.all_eq_true.mp texts⟩
    | false =>
      refine .inr ⟨by simp [texts]; rfl, ?_⟩
      rintro ⟨v, items', hv, hs, all⟩
      rw [list v hv, hi, Option.some.injEq] at hs
      subst hs
      rw [List.all_eq_true.mpr all] at texts
      cases texts

theorem finds_trigger (a : Attributes) (c : Contract) :
    trigger.Finds a c
      (if (a.given c.trigger).isBool then none else some (.trigger c.trigger)) := by
  cases hb : (a.given c.trigger).isBool with
  | true =>
    obtain ⟨b, hv⟩ : ∃ b, a.given c.trigger = .bool b := by
      cases hv : a.given c.trigger with
      | bool b => exact ⟨b, rfl⟩
      | _ => simp [hv, Value.isBool] at hb
    have given : a.given c.trigger ≠ .none := by simp [hv]
    exact .inl ⟨rfl, b, hv ▸ Attributes.read_of_given given⟩
  | false =>
    refine .inr ⟨rfl, ?_⟩
    rintro ⟨b, hv⟩
    rw [Attributes.given_of_read hv] at hb
    cases hb

theorem finds_lint (a : Attributes) (c : Contract) :
    lint.Finds a c (match (a.lookUp "lint").toOption with
      | some .method => none
      | _ => some .lint) := by
  unfold Finds Met
  cases a.lookUp "lint" with
  | error f => exact .inr ⟨rfl, nofun⟩
  | ok x =>
    cases x with
    | method => exact .inl ⟨rfl, rfl⟩
    | value v => exact .inr ⟨rfl, nofun⟩

end Clause

namespace Attributes
variable {a : Attributes} {c : Contract}

/-- Looking for a scope among the words finds what is wrong with it. -/
theorem finds_scope (c : Contract) (h : (a.given "scope").Sought) :
    ∃ found, scopeBreach (a.given "scope") = .ok found ∧ Clause.scope.Finds a c found := by
  have same (v : Value) (hv : a.read "scope" = .ok v) : v = a.given "scope" := (given_of_read hv).symm
  have wrong (ht : (a.given "scope").text? = none) : ¬ Clause.scope.Met a c := by
    rintro ⟨v, hv, hw⟩
    rw [same v hv] at hw
    rcases hw with hw | hw | ⟨s, hw⟩ <;> simp [hw, Value.text?] at ht
  unfold scopeBreach
  cases ht : (a.given "scope").text? with
  | none =>
    refine ⟨some (.scope (a.given "scope")), ?_, .inr ⟨rfl, wrong ht⟩⟩
    rcases h with h | ⟨items, hi⟩
    · cases hv : a.given "scope" <;> simp_all
    · simp [hi]
  | some w =>
    refine ⟨_, rfl, ?_⟩
    have given : a.given "scope" ≠ .none := fun he => by simp [he, Value.text?] at ht
    cases hs : Scope.ofWord? w with
    | some s =>
      refine .inl ⟨rfl, _, read_of_given given, ?_⟩
      obtain rfl := Scope.ofWord?_eq_some_iff.mp hs
      cases hv : a.given "scope" with
      | str w =>
        obtain rfl : w = s.word := by simpa [hv, Value.text?] using ht
        cases s with
        | file => exact .inl rfl
        | project => exact .inr (.inl rfl)
      | scope s => exact .inr (.inr ⟨s, rfl⟩)
      | _ => simp [hv, Value.text?] at ht
    | none =>
      refine .inr ⟨rfl, ?_⟩
      rintro ⟨v, hv, hw⟩
      rw [same v hv] at hw
      rcases hw with hw | hw | ⟨s, hw⟩
      · rw [hw, Value.text?, Option.some.injEq] at ht
        simp [← ht, Scope.ofWord?] at hs
      · rw [hw, Value.text?, Option.some.injEq] at ht
        simp [← ht, Scope.ofWord?] at hs
      · rw [hw, Value.text?, Option.some.injEq] at ht
        rw [← ht, Scope.ofWord?_eq_some_iff.mpr rfl] at hs
        cases hs

/-- A scope that cannot be looked for among the words ends the check. -/
theorem scopeBreach_unsought {v : Value} (h : ¬ v.Sought) :
    ∃ t, scopeBreach v = .error (Value.unhashable t) := by
  unfold Value.Sought at h
  push Not at h
  obtain ⟨t, ht⟩ := Option.ne_none_iff_exists'.mp h.1
  refine ⟨t, ?_⟩
  cases v with
  | set items => exact absurd rfl (h.2 items)
  | list | dict | tuple => simp [scopeBreach, Value.text?, ht]
  | _ => simp [Value.mutableType?] at ht

theorem breaches_of_sought (readable : a.Readable) (c : Contract) (h : (a.given "scope").Sought) :
    a.breaches c = .ok ((Clause.broken a c).map (Clause.breach a c)) := by
  obtain ⟨scope, found, finds⟩ := finds_scope c h
  have all := Clause.filterMap_of_finds (.cons (Clause.finds_name a c) (.cons finds
    (.cons (Clause.finds_grammarScopes a c) (.cons (Clause.finds_trigger a c)
      (.cons (Clause.finds_lint a c) .nil)))))
  unfold breaches
  simp only [read?_of_readable readable]
  unfold given at found
  refine Eq.trans ?_ (congrArg Except.ok all)
  simp only [bind, Except.bind, found]
  rfl

theorem breaches_of_unsought (readable : a.Readable) (c : Contract) (h : ¬ (a.given "scope").Sought) :
    ∃ t, a.breaches c = .error (Value.unhashable t) := by
  obtain ⟨t, ht⟩ := scopeBreach_unsought h
  refine ⟨t, ?_⟩
  unfold breaches
  simp only [read?_of_readable readable]
  unfold given at ht
  simp only [bind, Except.bind, ht]

theorem validate_of_breaches (readable : a.Readable) {found : List Breach}
    (h : a.breaches c = .ok found) :
    a.validate c = if found = [] then .ok ()
      else .error (.invalidProvider a.shownName (found.map Breach.message)) := by
  unfold validate
  rw [h, read?_of_readable readable]
  cases found <;> rfl

/-- A check lists exactly the clauses that are not met, once and in order, and a provider is refused
with that list, if there is anything in it. -/
structure ReportsAll (a : Attributes) (c : Contract) : Prop where
  listed : a.breaches c = .ok ((Clause.broken a c).map (Clause.breach a c))
  accepted : Clause.broken a c = [] → a.validate c = .ok ()
  refused : Clause.broken a c ≠ [] → a.validate c = .error (.invalidProvider a.shownName
    ((Clause.broken a c).map fun k => (k.breach a c).message))

theorem reportsAll_of_listed (readable : a.Readable)
    (listed : a.breaches c = .ok ((Clause.broken a c).map (Clause.breach a c))) :
    a.ReportsAll c where
  listed := listed
  accepted none := by rw [validate_of_breaches readable listed, none]; rfl
  refused some := by
    rw [validate_of_breaches readable listed, if_neg (by simpa using some), List.map_map]
    rfl

theorem reportsAll_iff_sought (readable : a.Readable) (c : Contract) :
    a.ReportsAll c ↔ (a.given "scope").Sought := by
  constructor
  · intro reports
    by_contra unsought
    obtain ⟨t, ht⟩ := breaches_of_unsought readable c unsought
    have listed := reports.listed
    rw [ht] at listed
    cases listed
  · exact fun h => reportsAll_of_listed readable (breaches_of_sought readable c h)

end Attributes

theorem Contract.of_readable {a : Attributes} (readable : a.Readable) (legacy : Bool) :
    ∃ c, Contract.of a legacy = .ok c := by
  unfold Contract.of
  cases legacy with
  | true => exact ⟨.legacy, rfl⟩
  | false =>
    simp only [Attributes.read?_of_readable readable]
    cases (a.lookUp Contract.legacy.trigger).toOption with
    | none => exact ⟨.current, rfl⟩
    | some _ =>
      cases (a.lookUp Contract.current.trigger).toOption with
      | none => exact ⟨.legacy, rfl⟩
      | some _ => exact ⟨.current, rfl⟩

theorem Attributes.readable_of_failures {a : Attributes} (h : ∀ name, a.failures.get? name = none) :
    a.Readable := by
  intro name f hf
  unfold lookUp at hf
  rw [h name] at hf
  dsimp only at hf
  split at hf
  · cases hf
  · cases hf
  · split at hf
    · cases hf
    · obtain rfl := Except.error.inj hf
      rfl

namespace Session
variable {s : Session} {p : ProviderId} {legacy : Bool} {a : Attributes} {c : Contract}

/-- Adding the provider registers it, or finds that it breaks its contract and changes nothing. -/
def RegistersOrRefuses (s : Session) (p : ProviderId) (legacy : Bool) : Prop :=
  (∃ s', s.perform (.add p legacy) = (.ok (.value .none), s') ∧
      s'.registry.providers = s.registry.providers ++ [p]) ∨
    ∃ name problems, s.perform (.add p legacy) = (.error (.invalidProvider name problems), s)

theorem perform_add_invalid (usable : s.registry.disposed = false)
    (new : p ∉ s.registry.providers) (ha : s.attributesOf p = .ok a)
    (hc : Contract.of a legacy = .ok c) {f : Failure} (hv : a.validate c = .error f) :
    s.perform (.add p legacy) = (.error f, s) := by
  have attributes : (Act.attributes p).exec s = (.ok a, s) := by rw [Act.exec_attributes, ha]
  have checked : (Act.take (Contract.of a legacy)).exec s = (.ok c, s) := by
    rw [Act.exec_take, hc]
  have refused : (Act.take (a.validate c)).exec s = (.error f, s) := by rw [Act.exec_take, hv]
  have fails : (Broker.addProvider p legacy).exec s = (.error f, s) := by
    rw [Broker.exec_addProvider_new usable new, Act.exec_bind_ok attributes,
      Act.exec_bind_ok checked, Act.exec_bind_ok attributes, Act.exec_bind_error refused]
  show (Act.perform (.add p legacy)).exec s = _
  unfold Act.perform Act.nothing
  rw [Act.exec_bind_error fails]

theorem registersOrRefuses_iff_sought (usable : s.registry.disposed = false)
    (new : p ∉ s.registry.providers) (ha : s.attributesOf p = .ok a) (readable : a.Readable)
    (legacy : Bool) : s.RegistersOrRefuses p legacy ↔ (a.given "scope").Sought := by
  obtain ⟨c, hc⟩ := Contract.of_readable readable legacy
  constructor
  · intro h
    by_contra unsought
    obtain ⟨t, ht⟩ := Attributes.breaches_of_unsought readable c unsought
    have fails : a.validate c = .error (Value.unhashable t) := by
      unfold Attributes.validate
      rw [ht]
      rfl
    have refused := perform_add_invalid usable new ha hc fails
    rcases h with ⟨s', h, _⟩ | ⟨name, problems, h⟩
    · rw [refused] at h
      cases h
    · rw [refused, Prod.mk.injEq, Except.error.injEq] at h
      exact nomatch congrArg Failure.kind h.1
  · intro sought
    have reports := (Attributes.reportsAll_iff_sought readable c).mpr sought
    by_cases broken : Clause.broken a c = []
    · obtain ⟨s', c', he, hp, _⟩ := (s.addsOrFails p legacy).added
        ⟨usable, new, a, c, ha, hc, reports.accepted broken⟩
      exact .inl ⟨s', he, hp⟩
    · exact .inr ⟨_, _, perform_add_invalid usable new ha hc (reports.refused broken)⟩

/-- Checks of a provider whose attributes are values or missing report exactly what is broken, under
either contract, and adding it registers it or refuses it with nothing changed, if and only if its
scope can be looked for among the words. -/
theorem reports_all_iff_sought (usable : s.registry.disposed = false)
    (new : p ∉ s.registry.providers) (ha : s.attributesOf p = .ok a) (readable : a.Readable) :
    (∀ c, a.ReportsAll c ↔ (a.given "scope").Sought) ∧
      ∀ legacy, s.RegistersOrRefuses p legacy ↔ (a.given "scope").Sought :=
  ⟨Attributes.reportsAll_iff_sought readable, registersOrRefuses_iff_sought usable new ha readable⟩

def sampleAttributes (scope : Value) : Attributes where
  own := .ofList [("name", .str "p"), ("scope", scope), ("grammar_scopes", .list [.str "*"]),
    ("lints_on_change", .bool true)]

theorem readable_sampleAttributes (scope : Value) : (sampleAttributes scope).Readable :=
  Attributes.readable_of_failures fun _ => rfl

/-- A session in which the scope of a provider is changed before it is added. -/
def sampleScoped (scope : Value) : Session :=
  (sample []).opening.run [.act (.setAttribute "p" "scope" scope)]

theorem attributesOf_sampleScoped (scope : Value) :
    (sampleScoped scope).attributesOf "p" = .ok (sampleAttributes scope) := rfl

/-- A provider whose scope is a number is reported for that alone. -/
theorem sample_reports_all :
    let s := sampleScoped (.int 3)
    let a := sampleAttributes (.int 3)
    (s.registry.disposed = false ∧ "p" ∉ s.registry.providers ∧ s.attributesOf "p" = .ok a ∧
      a.Readable ∧ (a.given "scope").Sought) ∧
    (∀ c, a.ReportsAll c ↔ (a.given "scope").Sought) ∧
      ∀ legacy, s.RegistersOrRefuses "p" legacy ↔ (a.given "scope").Sought := by
  intro s a
  have readable := readable_sampleAttributes (.int 3)
  exact ⟨⟨rfl, List.not_mem_nil, rfl, readable, .inl rfl⟩,
    reports_all_iff_sought rfl List.not_mem_nil (attributesOf_sampleScoped _) readable⟩

/-- A provider whose scope is a list is not reported for it: the check ends there, and so does adding
the provider. -/
theorem sample_scope_unsought :
    let s := sampleScoped (.list [.str "file"])
    let a := sampleAttributes (.list [.str "file"])
    s.attributesOf "p" = .ok a ∧ a.Readable ∧
      a.breaches .current = .error (Value.unhashable "list") ∧ ¬ a.ReportsAll .current ∧
      ¬ s.RegistersOrRefuses "p" false := by
  intro s a
  have readable := readable_sampleAttributes (.list [.str "file"])
  have unsought : ¬ (a.given "scope").Sought := by
    rintro (h | ⟨items, h⟩) <;> cases h
  exact ⟨rfl, readable, rfl,
    fun h => unsought ((Attributes.reportsAll_iff_sought readable _).mp h),
    fun h => unsought ((registersOrRefuses_iff_sought rfl List.not_mem_nil
      (attributesOf_sampleScoped _) readable false).mp h)⟩

end Session
end LintBroker

import LintBroker.Proofs.Breaches
import LintBroker.Proofs.Readings

/-!
# What is checked is what is read

A provider that keeps a contract can be read: its name, its scope, its grammar scopes and the trigger
field of that contract. So once a provider has been added, and as long as its attributes stay as they
were, everything that the registry reads of it later is there.
-/
namespace LintBroker

theorem Clause.Finds.met {a : Attributes} {c : Contract} {k : Clause} (h : k.Finds a c none) :
    k.Met a c := by
  rcases h with ⟨_, met⟩ | ⟨found, _⟩
  · exact met
  · cases found

namespace Attributes
variable {a : Attributes} {c : Contract}

theorem eq_of_read? {name : String} {x : Option Attribute} (h : a.read? name = .ok x) :
    x = (a.lookUp name).toOption := by
  unfold read? at h
  cases hl : a.lookUp name with
  | ok v =>
    rw [hl] at h
    exact (Except.ok.inj h).symm
  | error f =>
    simp only [hl] at h
    split at h
    · exact (Except.ok.inj h).symm
    · cases h

theorem sought_of_scopeBreach {v : Value} {found : Option Breach} (h : scopeBreach v = .ok found) :
    v.Sought := by
  by_contra unsought
  obtain ⟨t, ht⟩ := scopeBreach_unsought unsought
  rw [ht] at h
  cases h

/-- A provider that passes the check of a contract meets every clause of it. -/
theorem met_of_validate (h : a.validate c = .ok ()) (k : Clause) : k.Met a c := by
  obtain ⟨name, hn, h⟩ := bind_eq_ok (breaches_of_validate h)
  obtain ⟨scope, hs, h⟩ := bind_eq_ok h
  obtain ⟨breach, hb, h⟩ := bind_eq_ok h
  obtain ⟨grammar, hg, h⟩ := bind_eq_ok h
  obtain ⟨trigger, ht, h⟩ := bind_eq_ok h
  obtain ⟨lint, hl, h⟩ := bind_eq_ok h
  obtain rfl := eq_of_read? hn
  obtain rfl := eq_of_read? hs
  obtain rfl := eq_of_read? hg
  obtain rfl := eq_of_read? ht
  obtain rfl := eq_of_read? hl
  obtain ⟨found, hf, finds⟩ := finds_scope c (sought_of_scopeBreach hb)
  obtain rfl := Except.ok.inj (hb.symm.trans hf)
  -- no clause has found a breach
  have none := List.filterMap_eq_nil_iff.mp (Except.ok.inj h)
  simp only [List.mem_cons, List.not_mem_nil, or_false, forall_eq_or_imp, forall_eq, id] at none
  obtain ⟨n₁, n₂, n₃, n₄, n₅⟩ := none
  cases k with
  | name => exact Clause.Finds.met (n₁ ▸ Clause.finds_name a c)
  | scope => exact Clause.Finds.met (n₂ ▸ finds)
  | grammarScopes => exact Clause.Finds.met (n₃ ▸ Clause.finds_grammarScopes a c)
  | trigger => exact Clause.Finds.met (n₄ ▸ Clause.finds_trigger a c)
  | lint => exact Clause.Finds.met (n₅ ▸ Clause.finds_lint a c)

/-- What is read of a provider, if everything can be: its name, its scope, a list of grammar scopes,
and whether it runs while the user types, which is the trigger field of the contract. -/
structure Reads (a : Attributes) (c : Contract) (name : String) (scope : Scope) (scopes : List Value)
    (runs : Bool) : Prop where
  name : a.name = .ok name
  scope : a.scope = .ok scope
  grammarScopes : ∃ v, a.read "grammar_scopes" = .ok v ∧ v.sequence? = some scopes
  trigger : a.read c.trigger = .ok (.bool runs)

theorem Reads.lintsOnChange {name : String} {scope : Scope} {scopes : List Value} {runs : Bool}
    (h : a.Reads c name scope scopes runs) : a.lintsOnChange c = .ok runs := by
  rw [Attributes.lintsOnChange, h.trigger]
  rfl

theorem scope_of_read {v : Value} (hv : a.read "scope" = .ok v) {w : String} (ht : v.text? = some w)
    {s : Scope} (hw : Scope.ofWord? w = some s) : a.scope = .ok s := by
  have found : v.text?.bind Scope.ofWord? = some s := by rw [ht, Option.bind_some, hw]
  simp [Attributes.scope, hv, bind, Except.bind, found, pure, Except.pure]

/-- A provider that keeps a contract can be read. -/
theorem reads_of_validate (h : a.validate c = .ok ()) :
    ∃ name scope scopes runs, a.Reads c name scope scopes runs := by
  obtain ⟨v, _, hv, _⟩ := met_of_validate h .name
  obtain ⟨w, hw, words⟩ := met_of_validate h .scope
  obtain ⟨l, scopes, hl, items, _⟩ := met_of_validate h .grammarScopes
  obtain ⟨runs, trigger⟩ := met_of_validate h .trigger
  obtain ⟨scope, hs⟩ : ∃ scope, a.scope = .ok scope := by
    rcases words with rfl | rfl | ⟨s, rfl⟩
    · exact ⟨.file, scope_of_read hw rfl rfl⟩
    · exact ⟨.project, scope_of_read hw rfl rfl⟩
    · exact ⟨s, scope_of_read hw rfl (Scope.ofWord?_eq_some_iff.mpr rfl)⟩
  refine ⟨v.plain, scope, scopes, runs, ?_, hs, ⟨l, hl, items⟩, trigger⟩
  rw [Attributes.name, hv]
  rfl

end Attributes

theorem Value.contains_sequence {v : Value} {items : List Value} (h : v.sequence? = some items)
    (x : Value) : v.contains x = .ok (x.among items) := by
  cases v with
  | list | tuple =>
    obtain rfl := Option.some.inj h
    rfl
  | _ => cases h

namespace Session
variable {s s' u : Session} {p : ProviderId} {c : Contract}

/-- Grammars decide which providers apply: the host gives no matcher, or one that counts as false. -/
def DecidesByGrammar (s : Session) : Prop := ∀ m, s.host.matcher = some m → m.truthy = false

/-- What the registry reads of the provider of a record, wherever it does: each field of the record is
there, its trigger field as it was checked; whether the provider takes part can be asked for every
surface that has a grammar, and every notice of it can be made. -/
structure Serves (s : Session) (id : RecordId) (p : ProviderId) (c : Contract) (runs : Bool) : Prop
    where
  fields : ∃ name scope, (Broker.nameOf p).exec s = (.ok name, s) ∧
    (Broker.scopeOf p).exec s = (.ok scope, s) ∧ (Broker.recordFields id).exec s =
      (.ok [("name", .ok (.str name)), ("scope", .ok (.scope scope)),
        ("lints_on_change", .ok (.bool runs))], s)
  triggers : ∀ (x : Record Nat) (context : EditContext), s.registry.records[id]? = some x →
    s.DecidesByGrammar → (∃ g, s.answerOf context.surface .grammar = .ok g) →
      ∃ v, ((Gate.shouldTrigger x context).exec s).1 = .ok v
  begins : ∀ context, ∃ n, (Round.beginNotice p context).exec s = (.ok n, s)
  updates : ∀ context messages, ∃ n, (Round.updateNotice p context messages).exec s = (.ok n, s)
  finishes : ∀ context, ∃ n, (Round.finishNotice p context).exec s = (.ok n, s)

theorem exec_matchGrammar_ok {v : Value} {scopes : List Value} (list : v.sequence? = some scopes)
    {id : SurfaceId} (grammar : ∃ g, s.answerOf id .grammar = .ok g) :
    ∃ w, ((Act.matchGrammar v id).exec s).1 = .ok w := by
  unfold Act.matchGrammar
  have every : (Act.take (v.contains (.str "*"))).exec s = (.ok ((Value.str "*").among scopes), s) := by
    rw [Act.exec_take, Value.contains_sequence list]
  rw [Act.exec_bind_ok every]
  split
  · exact ⟨_, rfl⟩
  · obtain ⟨g, hg⟩ := grammar
    have asked := Dispatch.exec_askSurface id .grammar s
    rw [hg] at asked
    rw [Act.exec_bind_ok (Prod.ext asked rfl), Act.exec_bind_ok (by
      rw [Act.exec_take, Value.contains_sequence list])]
    exact ⟨_, rfl⟩

/-- Whether a provider takes part can be asked if it can be read and the matcher answers. -/
theorem exec_shouldTrigger_ok {x : Record Nat} {a : Attributes} {name : String} {scope : Scope}
    {scopes : List Value} {runs : Bool} {context : EditContext}
    (ha : s.attributesOf x.provider = .ok a) (h : a.Reads x.contract name scope scopes runs)
    (asked : ∀ v, v.sequence? = some scopes →
      ∃ w, ((Act.askMatcher v context.surface).exec s).1 = .ok w) :
    ∃ v, ((Gate.shouldTrigger x context).exec s).1 = .ok v := by
  obtain ⟨v, hv, list⟩ := h.grammarScopes
  obtain ⟨w, hw⟩ := asked v list
  have quiet : Quiet s ((Act.askMatcher v context.surface).exec s).2 := Act.quiet_askMatcher _ _ s
  unfold Gate.shouldTrigger
  rw [Act.exec_bind_ok (by rw [Broker.exec_readAttribute, ha]; exact congrArg (·, s) hv),
    Act.exec_bind_ok (Prod.ext hw rfl)]
  split
  · rw [Act.exec_bind_ok (by rw [Act.exec_attributes, quiet.attributesOf, ha]),
      Act.exec_bind_ok (by rw [Act.exec_take, h.lintsOnChange])]
    split
    · exact ⟨_, rfl⟩
    · exact ⟨_, rfl⟩
  · exact ⟨_, rfl⟩

theorem serves_of_reads {a : Attributes} {name : String} {scope : Scope} {scopes : List Value}
    {runs : Bool} {id : RecordId} {x : Record Nat} (ha : s.attributesOf x.provider = .ok a)
    (h : a.Reads x.contract name scope scopes runs) (hx : s.registry.records[id]? = some x) :
    s.Serves id x.provider x.contract runs := by
  have named : s.nameOf x.provider = .ok name := by rw [nameOf, ha]; exact h.name
  have about : s.scopeOf x.provider = .ok scope := by rw [scopeOf, ha]; exact h.scope
  refine ⟨⟨name, scope, ?_, ?_, ?_⟩, fun y context hy grammars grammar => ?_, fun context => ?_,
    fun context messages => ?_, fun context => ?_⟩
  · rw [Broker.exec_nameOf, named]
  · rw [Broker.exec_scopeOf, about]
  · unfold Broker.recordFields
    rw [Act.exec_bind_ok Act.exec_get]
    simp only [hx]
    rw [Act.exec_bind_ok (by rw [Act.exec_attributes, ha])]
    simp [Broker.fieldsOf, h.name, h.scope, h.lintsOnChange, Except.map]
  · obtain rfl := Option.some.inj (hx.symm.trans hy)
    refine exec_shouldTrigger_ok ha h fun v list => ?_
    have asks : (Act.askMatcher v context.surface).exec s =
        (Act.matchGrammar v context.surface).exec s := by
      unfold Act.askMatcher
      rw [Act.exec_bind_ok Act.exec_get]
      cases hm : s.host.matcher with
      | none => rfl
      | some m => simp [grammars m hm]
    rw [asks]
    exact exec_matchGrammar_ok list grammar
  · exact ⟨_, by rw [Round.exec_beginNotice, about]; rfl⟩
  · exact ⟨_, by rw [Dispatch.exec_updateNotice, about]; rfl⟩
  · exact ⟨_, by rw [Dispatch.exec_finishNotice, about]; rfl⟩

/-- Once a provider has been added, and as long as its attributes stay as they were, whatever the
registry reads of it is there. -/
theorem serves_of_added {legacy : Bool} {r : Result} (added : s.perform (.add p legacy) = (.ok r, s'))
    (path : s'.Path u) {J : List Entry} (hJ : u.history = s'.history ++ J)
    (kept : ∀ a, .reshaped p a ∉ J) :
    ∃ a c runs, s.attributesOf p = .ok a ∧ Contract.of a legacy = .ok c ∧
      a.read c.trigger = .ok (.bool runs) ∧ u.Serves s.registry.records.size p c runs := by
  have adds := s.addsOrFails p legacy
  by_cases admits : s.Admits p legacy
  · obtain ⟨usable, new, a, c, ha, hc, valid⟩ := admits
    obtain ⟨name, -, he⟩ := Broker.exec_addProvider usable new ha hc valid
    have made : s.perform (.add p legacy) = (.ok (.value .none),
        ((s.onRegistry fun r => r.insert p c).noted
          (.registered s.registry.records.size p)).noted
            (.debug (Broker.registrationLine name c))) := by
      show (Act.perform (.add p legacy)).exec s = _
      unfold Act.perform Act.nothing
      rw [Act.exec_bind_ok he]
      rfl
    obtain rfl := (Prod.mk.inj (made.symm.trans added)).2
    obtain ⟨name, scope, scopes, runs, reads⟩ := Attributes.reads_of_validate valid
    refine ⟨a, c, runs, ha, hc, reads.trigger, ?_⟩
    have still : u.attributesOf p = .ok a :=
      path.attributesOf hJ (P := fun r => r = .ok a) ha fun b hb => absurd hb (kept b)
    have inserted : (s.registry.insert p c).records[s.registry.records.size]? =
        some { provider := p, contract := c, counters := { lastReceived := 0 } } := by
      simp [Registry.insert]
    obtain ⟨x, hx, becomes⟩ := path.record inserted
    obtain rfl := becomes.provider
    obtain rfl := becomes.contract
    exact serves_of_reads still reads hx
  · obtain ⟨f, refused⟩ := adds.refused admits
    cases (Prod.mk.inj (refused.symm.trans added)).1

end Session
end LintBroker

import LintBroker.Proofs.Abstention
import LintBroker.Proofs.CommaLists

/-!
# Disabled providers

Which providers are disabled is read once, before the first turn of a round. A registration whose
provider has a disabled name at its turn is passed over; any other is decided about as if no provider
were disabled. So whoever lists names in the variable for disabled providers keeps the providers of
these names out of every round, and no others.
-/
namespace LintBroker
open Session Act

namespace Value
variable {name : String} {items : List String}

theorem among_map_str :
    (Value.str name).among (items.map .str) = decide (name ∈ items) := by
  have one (a : String) : (Value.str name).same (.str a) = (a == name) := by simp [same, text?]
  rw [among, List.any_map, ← List.contains_eq_mem, ← List.any_beq']
  exact congrArg items.any (funext one)

/-- A list of texts disables the names that it holds. -/
theorem disables_list : (Value.list (items.map .str)).disables name = decide (name ∈ items) := by
  show ((Value.list (items.map .str)).truthy && (Value.str name).among (items.map .str)) = _
  rw [among_map_str]
  cases items <;> simp [truthy]

theorem exists_distinctItems (items : List String) :
    ∃ names, (Value.list (items.map .str)).distinctItems = .ok names := by
  have fold (found : List String) (seen : List Value) :
      ∃ names, (found.map Value.str).foldlM withDistinct seen = .ok names := by
    induction found generalizing seen with
    | nil => exact ⟨seen, rfl⟩
    | cons a rest ih => exact ih _
  exact fold items []

end Value

namespace Round
variable {s s' s₁ s₂ : Session} {t : TaskId} {c : EditContext} {disabled : List Value}
  {names : List String} {ids : List RecordId} {ds : List Dispatch}

theorem exists_turn_of_mem_considerAll (h : (considerAll t c disabled ids).exec s = (.ok ds, s'))
    {d : Dispatch} (hd : d ∈ ds) : ∃ x ∈ turns t c disabled ids s,
      ((consider t c disabled x.id).exec x.session).1 = .ok (some d) := by
  induction ids generalizing s s' ds with
  | nil =>
    obtain rfl := Except.ok.inj (Prod.mk.inj h).1
    cases hd
  | cons id rest ih =>
    rw [considerAll] at h
    rw [turns]
    rcases exec_cases (consider t c disabled id) s with ⟨chosen, s₁, he⟩ | ⟨e, s₁, he⟩
    · rw [exec_bind_ok he] at h
      rcases exec_cases (considerAll t c disabled rest) s₁ with ⟨others, s₂, hr⟩ | ⟨e, s₂, hr⟩
      · rw [exec_bind_ok hr] at h
        obtain rfl := Except.ok.inj (Prod.mk.inj h).1
        rcases List.mem_append.mp hd with first | later
        · obtain rfl := Option.mem_toList.mp first
          exact ⟨⟨id, s⟩, .head _, congrArg Prod.fst he⟩
        · obtain ⟨x, hx, decided⟩ := ih hr later
          exact ⟨x, .tail _ (by rw [he]; exact hx), decided⟩
      · rw [exec_bind_error hr] at h
        cases (Prod.mk.inj h).1
    · rw [exec_bind_error he] at h
      cases (Prod.mk.inj h).1

/-- A registration whose provider is not disabled, or that is not asked about at all, is decided
about as if no provider were disabled. -/
theorem exec_consider_of_enabled {x : Turn}
    (h : ∀ r name, x.Bears r name → (Value.str name).among disabled = false) :
    (consider t c disabled x.id).exec x.session = (consider t c [] x.id).exec x.session := by
  have record (y : Option (Record Nat)) (hy : x.session.registry.records[x.id]? = y) :
      (Broker.record x.id).exec x.session = (expect y (toString x.id)).exec x.session := by
    rw [Broker.record, exec_bind_ok exec_get, hy]
  cases hr : x.session.registry.records[x.id]? with
  | none =>
    have missing := (record none hr).trans (exec_expect none _)
    rw [consider, exec_bind_error missing, consider, exec_bind_error missing]
  | some r =>
    cases active : r.activated with
    | false => rw [exec_consider_of_inactive hr active, exec_consider_of_inactive hr active]
    | true =>
      cases hn : x.session.nameOf r.provider with
      | ok name =>
        have bears : x.Bears r name := ⟨hr, active, hn⟩
        rw [exec_consider_of_bears bears, exec_consider_of_bears bears, h r name bears]
        rfl
      | error e =>
        have found := (record (some r) hr).trans (exec_expect (some r) _)
        have unread : (Broker.nameOf r.provider).exec x.session = (.error e, x.session) := by
          rw [Broker.exec_nameOf, hn]
        rw [consider, exec_bind_ok found, consider, exec_bind_ok found, active]
        exact (exec_bind_error unread).trans (exec_bind_error unread).symm

/-- A lint keeps out the providers of these names, and no others: a registration in force whose
provider has one of them at its turn is passed over, with a line in the journal and nothing else;
any other is decided about as if no provider were disabled; and so no dispatch is made for one of
these names. -/
structure KeepsOut (s₁ : Session) (t : TaskId) (c : EditContext) (names : List String)
    (disabled : List Value) (result : Except Failure (Option (List Dispatch))) : Prop where
  listed : ∀ x ∈ turnsFrom s₁ t c, ∀ r, ∀ name ∈ names, x.Bears r name →
    (consider t c disabled x.id).exec x.session =
      (.ok none, x.session.noted (.trace ("Skipping disabled provider " ++ Text.quoted name)))
  others : ∀ x ∈ turnsFrom s₁ t c, (∀ r, ∀ name ∈ names, ¬ x.Bears r name) →
    (consider t c disabled x.id).exec x.session = (consider t c [] x.id).exec x.session
  dispatched : ∀ ds, result = .ok (some ds) → ∀ d ∈ ds, ∃ x ∈ turnsFrom s₁ t c,
    (∀ r, ∀ name ∈ names, ¬ x.Bears r name) ∧
      ((consider t c disabled x.id).exec x.session).1 = .ok (some d)

/-- A lint that passes keeps out the names that disable just what it gathered. -/
theorem keepsOut_of_agree (passed : (passes c).exec s = (.ok true, s₁))
    (gathered : disabledNames.exec s₁ = (.ok disabled, s₂))
    (agree : ∀ name, (Value.str name).among disabled = decide (name ∈ names)) (t : TaskId) :
    KeepsOut s₁ t c names disabled ((start t c).exec s).1 := by
  have these : turnsFrom s₁ t c = turns t c disabled s₂.registry.active.values s₂ := by
    rw [turnsFrom, gathered]
  have listed (x : Turn) (r : Record Nat) (name : String) (there : name ∈ names)
      (bears : x.Bears r name) : (consider t c disabled x.id).exec x.session =
        (.ok none, x.session.noted (.trace ("Skipping disabled provider " ++ Text.quoted name))) := by
    rw [exec_consider_of_bears bears, agree, decide_eq_true there, if_pos rfl]
  refine ⟨fun x _ => listed x, fun x _ out => exec_consider_of_enabled fun r name bears => ?_,
    fun ds ended d hd => ?_⟩
  · rw [agree, decide_eq_false fun there => out r name there bears]
  · rw [exec_start_of_passes passed, exec_bind_ok gathered, exec_bind_ok exec_get] at ended
    rcases exec_cases (considerAll t c disabled s₂.registry.active.values) s₂ with
      ⟨ds', s₃, he⟩ | ⟨e, s₃, he⟩
    · rw [exec_bind_ok he] at ended
      obtain rfl := Option.some.inj (Except.ok.inj ended)
      obtain ⟨x, hx, decided⟩ := exists_turn_of_mem_considerAll he hd
      refine ⟨x, these ▸ hx, fun r name there bears => ?_, decided⟩
      rw [listed x r name there bears] at decided
      cases Except.ok.inj decided
    · rw [exec_bind_error he] at ended
      cases ended

theorem ready_of_passes (shared : s.source = .shared) (passed : (passes c).exec s = (.ok true, s₁)) :
    s.store.ready = true ∧ s.Unmoved s₁ := by
  have usable : s.registry.disposed = false := by
    cases gone : s.registry.disposed with
    | false => rfl
    | true =>
      rw [passes, exec_bind_ok exec_get, gone] at passed
      cases Except.ok.inj (Prod.mk.inj passed).1
  obtain ⟨s', he, still⟩ := exec_passes (c := c) usable (by rw [lack, shared])
  obtain ⟨through, rfl⟩ := Prod.mk.inj (he.symm.trans passed)
  obtain ⟨glob, answered⟩ := Answers.glob_of_deliberate through
  have read : s.settingOf "ignored_glob" = .ok glob := answered
  rw [settingOf, shared] at read
  exact ⟨Setting.Store.ready_of_get read, still⟩

/-- A list that is written with commas into a variable is read as it was written, and whatever is
written there reads as a list that is read again when it is written anew. So if names are listed in
the variable for disabled providers, every lint that passes keeps out the providers of these names,
and no others. -/
theorem comma_lists_round_trip :
    (∀ (st : Setting.Store) (item : String) (kind : Setting.Kind) (default : Setting.Default),
      st.schema.get? item = some ⟨.listOf kind, default⟩ → st.ready = true → st.ReadsLists item) ∧
    ∀ (s s₁ : Session) (kind : Setting.Kind) (default : Setting.Default) (names : List String)
      (text : String) (t : TaskId) (c : EditContext), s.source = .shared →
      s.store.schema.get? "disabled_providers" = some ⟨.listOf kind, default⟩ →
      (∀ x ∈ names, Setting.IsItem x) → Setting.Lists text names →
      Setting.variableText s.store.host s.host.environment "disabled_providers" = some text →
      (passes c).exec s = (.ok true, s₁) →
      ∃ disabled s₂, disabledNames.exec s₁ = (.ok disabled, s₂) ∧
        KeepsOut s₁ t c names disabled ((start t c).exec s).1 := by
  refine ⟨fun st item kind default => Setting.Store.readsLists, ?_⟩
  intro s s₁ kind default names text t c shared declared all lists present passed
  obtain ⟨ready, still⟩ := ready_of_passes shared passed
  have read : s₁.settingOf "disabled_providers" = .ok (.list (names.map .str)) := by
    rw [still.settings, settingOf, shared]
    exact (Setting.Store.readsLists declared ready).written _ _ _ all lists present
  obtain ⟨disabled, s₂, gathered, _, _, agree⟩ :=
    exec_disabledNames read fun _ => Value.exists_distinctItems names
  exact ⟨disabled, s₂, gathered, keepsOut_of_agree passed gathered
    (fun name => (agree name).trans Value.disables_list) t⟩

/-- A sample with two registrations that reads the settings of the session. Its variable lists the
first of the two providers, and another name. -/
def sampleListed : Session :=
  let base := sample []
  { base with
    source := .shared
    host := { base.host with environment := .ofList [("LINTER_DISABLED_PROVIDERS", " p ,r")] }
    registry := (base.registry.insert "p" .current).insert "q" .current }

/-- The listed names are read as they were written, and kept out. -/
theorem sampleListed_keeps_out :
    let s := sampleListed
    let c := sampleDispatch.context
    let s₁ := ((passes c).exec s).2
    (s.store.get s.host.environment "disabled_providers").1 = .ok (.list [.str "p", .str "r"]) ∧
      (passes c).exec s = (.ok true, s₁) ∧
      (∃ x ∈ turnsFrom s₁ 0 c, ∃ r, x.Bears r "p") ∧
      ∃ disabled s₂, disabledNames.exec s₁ = (.ok disabled, s₂) ∧
        KeepsOut s₁ 0 c ["p", "r"] disabled ((start 0 c).exec s).1 := by
  intro s c s₁
  have all : ∀ x ∈ ["p", "r"], Setting.IsItem x := by decide
  have blank : ∀ c ∈ [' '], Text.isBlank c = true := List.forall_mem_singleton.mpr (by decide)
  have lists : Setting.Lists " p ,r" ["p", "r"] :=
    ⟨[" p ", "r"], .cons ⟨[' '], [' '], blank, blank, by decide⟩ (.cons (Setting.pads_self "r") .nil),
      by decide⟩
  have declared : s.store.schema.get? "disabled_providers" =
      some ⟨.listOf .text, .fresh (.list [])⟩ := rfl
  have present : Setting.variableText s.store.host s.host.environment "disabled_providers" =
      some " p ,r" := by decide +kernel
  have through : ((passes c).exec s).1 = .ok true := eq_of_isTruth_map (by decide +kernel)
  have passed : (passes c).exec s = (.ok true, s₁) := by rw [← through]
  obtain ⟨read, kept⟩ := comma_lists_round_trip
  obtain ⟨disabled, s₂, gathered, out⟩ := kept s s₁ _ _ _ _ 0 c rfl declared all lists present passed
  have quiet : Quiet s s₂ := by
    have naming : Quiet s₁ (disabledNames.exec s₁).2 := quiet_disabledNames s₁
    rw [gathered] at naming
    exact (unchosen_passes c s).1.trans naming
  have first : ⟨0, s₂⟩ ∈ turnsFrom s₁ 0 c := by
    rw [turnsFrom, gathered]
    dsimp only
    rw [quiet.registry]
    exact .head _
  have bears : Turn.Bears ⟨0, s₂⟩ ⟨"p", .current, true, ⟨0, 0⟩⟩ "p" :=
    ⟨by rw [quiet.registry]; rfl, rfl, (quiet.nameOf "p").trans rfl⟩
  exact ⟨(read s.store _ _ _ declared rfl).written _ _ _ all lists present, passed,
    ⟨⟨0, s₂⟩, first, _, bears⟩, disabled, s₂, gathered, out⟩

end Round
end LintBroker

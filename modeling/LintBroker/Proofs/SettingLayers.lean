import LintBroker.Setting.Desk
import Mathlib.Data.List.Induction

/-!
# Settings as a look-up in layers

A desk answers from four layers and keeps two of them, the values given at run time and a cache of
the defaults. What it answers can be told without either: from the environment, from the calls made
so far and from the declarations. So the state of a desk is no more than its calls, however they are
mixed, and a call that fails is as good as none.
-/
namespace LintBroker.Setting
open Text

/-! ### What each layer contributes -/

/-- The text of the variable that a setting is read from: the host's own, else the common one if every
host has the setting. -/
def variableText (host : String) (env : Environment) (item : String) : Option String :=
  (env.get? (upper host ++ "_" ++ upper item)).or
    (if coreSchema.has item then env.get? ("LINTER_" ++ upper item) else none)

@[simp] theorem isMissingKey_missing (key : String) : (missing key).isMissingKey = true := rfl

namespace Store
variable {s : Store} {env : Environment} {item text : String} {d : Declaration} {v : Value}

theorem declared_of_get? (h : s.schema.get? item = some d) : s.declared item = .ok d := by
  simp [declared, h]

theorem declared_of_none (h : s.schema.get? item = none) :
    s.declared item = .error (unknownSetting item) := by
  simp [declared, h]

theorem firstFound_variableLayers (s : Store) (env : Environment) (item : String)
    (rest : List (Place × Except Failure Value)) :
    firstFound (s.variableLayers env item ++ rest) =
      match variableText s.host env item with
      | some text => .ok (some (.str text, .nowhere))
      | none => firstFound rest := by
  unfold variableLayers variableText readHostVariable readCommonVariable readVariable hostVariable
    commonVariable
  cases env.get? (upper s.host ++ "_" ++ upper item) with
  | some text => simp [firstFound, Except.map]
  | none =>
    cases hc : coreSchema.has item with
    | false => simp [firstFound, Except.map]
    | true => cases env.get? ("LINTER_" ++ upper item) <;> simp [firstFound, Except.map]

/-- A variable that is there is read by the kind of its setting, whatever comes of that. -/
theorem locate_of_variable (hd : s.schema.get? item = some d) (ready : s.ready = true)
    (hv : variableText s.host env item = some text) :
    s.locate env item = ((ofText d.kind (.str text)).map (·, .nowhere), s) := by
  simp [locate, declared_of_get? hd, ready, layers, firstFound_variableLayers, hv, convert,
    Value.text?]

theorem layers_of_noExtras (hv : variableText s.host env item = none) (bare : s.extras = []) :
    firstFound (s.layers env item) =
      .ok ((s.overrides.get? item).map fun v => (v, .override)) := by
  simp only [layers, List.append_assoc, firstFound_variableLayers, hv, extraLayers, bare,
    List.mapIdx_nil, List.nil_append, readTable]
  cases s.overrides.get? item <;> simp [firstFound]

theorem locate_of_override (hd : s.schema.get? item = some d) (ready : s.ready = true)
    (hv : variableText s.host env item = none) (bare : s.extras = [])
    (ho : s.overrides.get? item = some v) :
    s.locate env item = (convert d.kind (v, .override), s) := by
  simp [locate, declared_of_get? hd, ready, layers_of_noExtras hv bare, ho]

theorem locate_of_default (hd : s.schema.get? item = some d) (ready : s.ready = true)
    (hv : variableText s.host env item = none) (bare : s.extras = [])
    (ho : s.overrides.get? item = none) :
    s.locate env item = ((readDefault s.schema s.cache item).1,
      { s with cache := (readDefault s.schema s.cache item).2 }) := by
  simp [locate, declared_of_get? hd, ready, layers_of_noExtras hv bare, ho]

theorem set_of_declared (hd : s.schema.get? item = some d) (v : Value) :
    s.set item v =
      match normalize d.kind v with
      | .ok w => .ok { s with overrides := s.overrides.put item w }
      | .error issues => .error (rejected issues) := by
  rw [set, declared_of_get? hd]
  rfl

end Store

section fitted
variable {item : Kind} {v w : Value}

/-- A value that was fitted to a kind of lists is a list of fitted items. -/
theorem normalize_listOf (h : normalize (.listOf item) v = .ok w) :
    ∃ items ws, listItems v = .ok items ∧
      fitAll (normalize item) (items.mapIdx fun n x => (Value.int n, x)) = .ok ws ∧
        w = .list ws := by
  unfold normalize at h
  cases hi : listItems v with
  | error issues =>
    rw [hi] at h
    cases h
  | ok items =>
    cases hf : fitAll (normalize item) (items.mapIdx fun n x => (Value.int n, x)) with
    | error issues =>
      simp only [hi, hf, bind, Except.bind] at h
      cases h
    | ok ws =>
      simp only [hi, hf, bind, Except.bind] at h
      exact ⟨items, ws, rfl, hf, (Except.ok.inj h).symm⟩

theorem normalize_mapOf (h : normalize (.mapOf item) v = .ok w) :
    ∃ rows ws, v = .dict rows ∧
      fitAll (normalize item) (rows.map fun r => (.str r.1, r.2)) = .ok ws ∧
        w = .dict ((rows.map Prod.fst).zip ws) := by
  unfold normalize at h
  cases v with
  | dict rows =>
    cases hf : fitAll (normalize item) (rows.map fun r => (.str r.1, r.2)) with
    | error issues =>
      simp only [hf, bind, Except.bind] at h
      cases h
    | ok ws =>
      simp only [hf, bind, Except.bind] at h
      exact ⟨rows, ws, rfl, hf, (Except.ok.inj h).symm⟩
  | _ => cases h

end fitted

/-- A value that was fitted to a kind, if it is a string, is read back strictly as itself. -/
theorem strictOfText_normalize {kind : Kind} {v w : Value} {s : String}
    (h : normalize kind v = .ok w) (hs : w.text? = some s) : strictOfText w s kind = .ok w := by
  have none_of {α : Type} {r : Except (List Issue) α} {f : α → Value} (hf : ∀ a, (f a).text? = none)
      (hr : r.map f = .ok w) : w.text? = none := by
    cases r with
    | error _ => cases hr
    | ok a => exact Except.ok.inj hr ▸ hf a
  induction kind generalizing v with
  | text | anything => rfl
  | whole | real | switch | list => simp [none_of (fun _ => rfl) h] at hs
  | listOf item =>
    obtain ⟨_, ws, _, _, rfl⟩ := normalize_listOf h
    cases hs
  | mapOf item =>
    obtain ⟨_, ws, _, _, rfl⟩ := normalize_mapOf h
    cases hs
  | optional inner ih =>
    cases v with
    | none => simp [← Except.ok.inj h, Value.text?] at hs
    | _ => exact ih h

theorem ofText_normalize {kind : Kind} {v w : Value} (h : normalize kind v = .ok w) :
    ofText kind w = .ok w := by
  unfold ofText
  cases hs : w.text? with
  | none => rfl
  | some s =>
    have strict := strictOfText_normalize h hs
    cases kind with
    | text =>
      cases hf : fitText v with
      | error issues => simp [normalize, hf, Except.map] at h
      | ok text =>
        obtain rfl : .str text = w := by simpa [normalize, hf, Except.map] using h
        rfl
    | switch =>
      cases hf : fitSwitch v with
      | error issues => simp [normalize, hf, Except.map] at h
      | ok b =>
        obtain rfl : .bool b = w := by simpa [normalize, hf, Except.map] using h
        cases hs
    | listOf item =>
      obtain ⟨_, ws, _, _, rfl⟩ := normalize_listOf h
      cases hs
    | _ => simp only [strict]

theorem map_fst_map {α β : Type} (r : Except Failure α) (b : β) :
    (r.map (·, b)).map Prod.fst = r := by
  cases r <;> rfl

/-- A fitted value is handed out as it is. -/
theorem convert_normalize {kind : Kind} {v w : Value} {place : Place}
    (h : normalize kind v = .ok w) :
    (Store.convert kind (w, place)).map Prod.fst = .ok w := by
  unfold Store.convert
  cases hs : w.text? with
  | none => rfl
  | some s => simp [ofText_normalize h, Except.map]

/-! ### Calls one after the other -/

/-- A call on a desk. -/
inductive SettingCall
  | get (item : String)
  | set (item : String) (v : Value)
  | unset (item : String)
deriving Inhabited

namespace SettingCall

/-- The call as something done at a desk. -/
def action : SettingCall → DeskAction
  | .get item => .get item
  | .set item v => .set item v
  | .unset item => .unset item

def item : SettingCall → String
  | .get item | .set item _ | .unset item => item

/-- What a call makes of the value given to a setting of some kind. A value that does not fit is not
given. -/
def given (kind : Kind) (item : String) (before : Option Value) : SettingCall → Option Value
  | .set i v =>
    if i = item then
      match normalize kind v with
      | .ok w => some w
      | .error _ => before
    else before
  | .unset i => if i = item then none else before
  | .get _ => before

end SettingCall

/-- The value given last to a setting of some kind and not taken back, as it was fitted to the kind.
-/
def givenLast (kind : Kind) (item : String) (calls : List SettingCall) : Option Value :=
  calls.foldl (SettingCall.given kind item) none

theorem givenLast_concat (kind : Kind) (item : String) (calls : List SettingCall) (c : SettingCall) :
    givenLast kind item (calls ++ [c]) = c.given kind item (givenLast kind item calls) := by
  rw [givenLast, List.foldl_append]
  rfl

theorem normalize_of_givenLast {kind : Kind} {item : String} {calls : List SettingCall} {w : Value}
    (h : givenLast kind item calls = some w) : ∃ v, normalize kind v = .ok w := by
  induction calls using List.reverseRecOn with
  | nil => cases h
  | append_singleton calls c ih =>
    rw [givenLast_concat] at h
    cases c with
    | get i => exact ih h
    | unset i =>
      simp only [SettingCall.given] at h
      split at h
      · cases h
      · exact ih h
    | set i v =>
      simp only [SettingCall.given] at h
      split at h
      · cases hv : normalize kind v with
        | ok u => exact ⟨v, by rw [hv]; simpa [hv] using h⟩
        | error issues => exact ih (by simpa [hv] using h)
      · exact ih h

theorem given_of_ne {c : SettingCall} {kind : Kind} {item : String} (h : c.item ≠ item)
    (before : Option Value) : c.given kind item before = before := by
  cases c with
  | get i => rfl
  | set i v | unset i => exact if_neg h

/-- What a setting is after some calls: its variable read by its kind, else the value given last, else
its default. Of a default that is made it is what was made first. -/
def lookedUp (host : String) (schema : Schema) (env : Environment) (calls : List SettingCall)
    (item : String) : Except Failure Value :=
  match schema.get? item with
  | none => .error (unknownSetting item)
  | some d =>
    match variableText host env item with
    | some text => ofText d.kind (.str text)
    | none =>
      match givenLast d.kind item calls with
      | some v => .ok v
      | none =>
        match d.default with
        | .shared v => .ok v
        | .made factory => .ok (factory 0)
        | .required =>
          .error (missing ("config item " ++ quoted item ++ " has no default value."))

/-- What is kept was made first, and what is not kept was not made. -/
structure MadeDefaults.FirstMade (cache : MadeDefaults) (schema : Schema) : Prop where
  kept : ∀ item v, cache.kept.get? item = some v →
    ∃ x factory, schema.get? item = some x ∧ x.default = .made factory ∧ v = factory 0
  unmade : ∀ item, cache.kept.get? item = none → cache.calls.get? item = none

/-- A default that is made when it is not kept is made for the first time. -/
theorem MadeDefaults.FirstMade.make {cache : MadeDefaults} {schema : Schema} {item : String}
    {x : Declaration} {factory : Nat → Value} (h : cache.FirstMade schema)
    (hx : schema.get? item = some x) (hd : x.default = .made factory)
    (hc : cache.kept.get? item = none) :
    (cache.make item factory).1 = factory 0 ∧ (cache.make item factory).2.FirstMade schema := by
  have first : (cache.calls.get? item).getD 0 = 0 := by rw [h.unmade item hc, Option.getD_none]
  simp only [MadeDefaults.make, first]
  refine ⟨trivial, fun i v hi => ?_, fun i hi => ?_⟩
  · simp only [Table.get?_put] at hi
    split at hi
    · subst i
      exact ⟨x, factory, hx, hd, (Option.some.inj hi).symm⟩
    · exact h.kept i v hi
  · simp only [Table.get?_put] at hi ⊢
    split at hi
    · cases hi
    · rename_i other
      rw [if_neg other]
      exact h.unmade i hi

namespace Desk
variable {d : Desk} {host : String} {schema : Schema} {env : Environment}
  {calls : List SettingCall} {item : String}

/-- A desk that was just set up, with no sources but its own. -/
def opened (host : String) (schema : Schema) (env : Environment) : Desk :=
  (({ store := { host, schema }, environment := env } : Desk).perform .setUp).2.2

/-- What a desk answers to a call. -/
def answer (d : Desk) (c : SettingCall) : Except Failure Value := (d.perform c.action).1

/-- The desk after a call. -/
def after (d : Desk) (c : SettingCall) : Desk := (d.perform c.action).2.2

def called (d : Desk) (calls : List SettingCall) : Desk := calls.foldl after d

theorem called_concat (d : Desk) (calls : List SettingCall) (c : SettingCall) :
    d.called (calls ++ [c]) = (d.called calls).after c := by
  rw [called, List.foldl_append]
  rfl

/-- A desk keeps no more than what its calls gave, and defaults as they were first made. -/
structure Reflects (d : Desk) (host : String) (schema : Schema) (env : Environment)
    (calls : List SettingCall) : Prop where
  ofHost : d.store.host = host
  ofSchema : d.store.schema = schema
  reads : d.environment = env
  ready : d.store.ready = true
  bare : d.store.extras = []
  given : ∀ item x, schema.get? item = some x →
    d.store.overrides.get? item = givenLast x.kind item calls
  cached : d.store.cache.FirstMade schema

theorem reflects_opened (host : String) (schema : Schema) (env : Environment) :
    (opened host schema env).Reflects host schema env [] where
  ofHost := rfl
  ofSchema := rfl
  reads := rfl
  ready := rfl
  bare := rfl
  given _ _ _ := rfl
  cached := ⟨(fun _ _ h => nomatch h), fun _ _ => rfl⟩

theorem answer_get (d : Desk) (item : String) :
    d.answer (.get item) = (d.store.locate d.environment item).1.map Prod.fst := rfl

theorem after_get (d : Desk) (item : String) :
    d.after (.get item) = { d with store := (d.store.locate d.environment item).2 } := rfl

/-- Giving a value to a setting: it is kept as it was fitted, or nothing happens. -/
theorem set_of_declared {x : Declaration} (hx : d.store.schema.get? item = some x) (v : Value) :
    (d.answer (.set item v), d.after (.set item v)) =
      match normalize x.kind v with
      | .ok w => (.ok .none,
          { d with store := { d.store with overrides := d.store.overrides.put item w } })
      | .error issues => (.error (rejected issues), d) := by
  simp only [answer, after, SettingCall.action, perform, Store.set_of_declared hx]
  cases normalize x.kind v <;> rfl

theorem unset_of_declared {x : Declaration} (hx : d.store.schema.get? item = some x) :
    (d.answer (.unset item), d.after (.unset item)) = (.ok .none,
      { d with store := { d.store with overrides := d.store.overrides.erase item } }) := by
  simp only [answer, after, SettingCall.action, perform, Store.unset, Store.declared_of_get? hx]
  rfl

theorem unknown_of_none (c : SettingCall) (hc : d.store.schema.get? c.item = none) :
    (d.answer c, d.after c) = (.error (unknownSetting c.item), d) := by
  have undeclared := Store.declared_of_none hc
  cases c with
  | get item =>
    simp only [SettingCall.item] at undeclared ⊢
    simp only [answer_get, after_get, Store.locate, undeclared]
    rfl
  | set item v =>
    simp only [SettingCall.item] at undeclared ⊢
    simp only [answer, after, SettingCall.action, perform, Store.set, undeclared]
    rfl
  | unset item =>
    simp only [SettingCall.item] at undeclared ⊢
    simp only [answer, after, SettingCall.action, perform, Store.unset, undeclared]
    rfl

section reflects
variable (r : d.Reflects host schema env calls)
include r

/-- A default that was kept is still the default. -/
theorem Reflects.readDefault {x : Declaration} (hx : schema.get? item = some x) :
    (readDefault d.store.schema d.store.cache item).1.map Prod.fst =
        (match x.default with
        | .shared v => .ok v
        | .made factory => .ok (factory 0)
        | .required => .error (missing ("config item " ++ quoted item ++ " has no default value."))) ∧
      (readDefault d.store.schema d.store.cache item).2.FirstMade schema := by
  unfold Setting.readDefault
  cases hc : d.store.cache.kept.get? item with
  | some v =>
    obtain ⟨y, factory, hy, hd, rfl⟩ := r.cached.kept item v hc
    obtain rfl : x = y := Option.some.inj (hx.symm.trans hy)
    exact ⟨by simp only [hd]; rfl, r.cached⟩
  | none =>
    simp only [r.ofSchema, hx]
    cases hd : x.default with
    | required | shared v => exact ⟨rfl, r.cached⟩
    | made factory =>
      obtain ⟨first, kept⟩ := r.cached.make hx hd hc
      exact ⟨congrArg Except.ok first, kept⟩

/-- A setting is what is looked up. -/
theorem Reflects.get (item : String) :
    d.answer (.get item) = lookedUp host schema env calls item ∧
      (d.after (.get item)).Reflects host schema env calls := by
  have same : (d.after (.get item)) = { d with store := (d.store.locate d.environment item).2 } :=
    rfl
  rw [same, answer_get]
  cases hx : schema.get? item with
  | none =>
    have undeclared := Store.declared_of_none (r.ofSchema ▸ hx)
    simp only [Store.locate, undeclared, lookedUp, hx]
    exact ⟨rfl, r⟩
  | some x =>
    have declared : d.store.schema.get? item = some x := r.ofSchema ▸ hx
    simp only [lookedUp, hx]
    cases hv : variableText host env item with
    | some text =>
      have set : variableText d.store.host d.environment item = some text := by
        rw [r.ofHost, r.reads, hv]
      rw [Store.locate_of_variable declared r.ready set]
      exact ⟨map_fst_map _ _, r⟩
    | none =>
      have unset : variableText d.store.host d.environment item = none := by
        rw [r.ofHost, r.reads, hv]
      simp only [← r.given item x hx]
      cases ho : d.store.overrides.get? item with
      | some w =>
        rw [Store.locate_of_override declared r.ready unset r.bare ho]
        obtain ⟨v, hw⟩ := normalize_of_givenLast ((r.given item x hx).symm.trans ho)
        exact ⟨convert_normalize hw, r⟩
      | none =>
        rw [Store.locate_of_default declared r.ready unset r.bare ho]
        obtain ⟨result, cached⟩ := r.readDefault hx
        exact ⟨result, { r with cached }⟩

/-- Every call leaves a desk that keeps no more than what its calls gave. -/
theorem Reflects.after (c : SettingCall) : (d.after c).Reflects host schema env (calls ++ [c]) := by
  have untouched (item : String) (x : Declaration) (hx : schema.get? item = some x)
      (hc : c.given x.kind item (givenLast x.kind item calls) = givenLast x.kind item calls) :
      d.store.overrides.get? item = givenLast x.kind item (calls ++ [c]) := by
    rw [givenLast_concat, hc, r.given item x hx]
  cases hs : schema.get? c.item with
  | none =>
    have idle : d.after c = d := (Prod.mk.inj (unknown_of_none c (r.ofSchema ▸ hs))).2
    rw [idle]
    refine { r with given := fun item x hx => untouched item x hx (given_of_ne ?_ _) }
    rintro rfl
    simp [hs] at hx
  | some y =>
    have declared : d.store.schema.get? c.item = some y := r.ofSchema ▸ hs
    cases c with
    | get i =>
      have next := (r.get i).2
      refine { next with given := fun item x hx => ?_ }
      rw [next.given item x hx, givenLast_concat]
      rfl
    | unset i =>
      have taken : d.after (.unset i) = _ := (Prod.mk.inj (unset_of_declared declared)).2
      rw [taken]
      refine { r with given := fun item x hx => ?_ }
      rw [givenLast_concat]
      by_cases same : i = item
      · subst same
        simp [SettingCall.given, SettingCall.item]
      · simp [SettingCall.given, SettingCall.item, same, r.given item x hx]
    | set i v =>
      have changed : (d.answer (.set i v), d.after (.set i v)) = _ := set_of_declared declared v
      -- the value is kept for this setting alone, and only if it fits
      cases hn : normalize y.kind v with
      | error issues =>
        rw [hn] at changed
        rw [(Prod.mk.inj changed).2]
        refine { r with given := fun item x hx => untouched item x hx ?_ }
        by_cases same : i = item
        · subst same
          obtain rfl : y = x := Option.some.inj (hs.symm.trans hx)
          simp [SettingCall.given, hn]
        · exact given_of_ne (c := .set i v) same _
      | ok w =>
        rw [hn] at changed
        rw [(Prod.mk.inj changed).2]
        refine { r with given := fun item x hx => ?_ }
        rw [givenLast_concat]
        by_cases same : i = item
        · subst same
          obtain rfl : y = x := Option.some.inj (hs.symm.trans hx)
          simp [SettingCall.given, SettingCall.item, hn]
        · simp [SettingCall.given, SettingCall.item, same, r.given item x hx]

end reflects

theorem reflects_called (host : String) (schema : Schema) (env : Environment)
    (calls : List SettingCall) :
    ((opened host schema env).called calls).Reflects host schema env calls := by
  induction calls using List.reverseRecOn with
  | nil => exact reflects_opened host schema env
  | append_singleton calls c ih =>
    rw [called_concat]
    exact ih.after c

theorem lookedUp_concat {c : SettingCall} (h : c.item ≠ item) :
    lookedUp host schema env (calls ++ [c]) item = lookedUp host schema env calls item := by
  unfold lookedUp
  cases schema.get? item with
  | none => rfl
  | some x => simp only [givenLast_concat, given_of_ne h]

/-- What a desk answers to its next call: a setting is looked up, again and again; giving a value
fails if it does not fit, and then nothing happens; calls about other settings make no difference;
and a call about a setting that is not declared does nothing but fail. -/
structure Answers (d : Desk) (host : String) (schema : Schema) (env : Environment)
    (calls : List SettingCall) : Prop where
  get : ∀ item, d.answer (.get item) = lookedUp host schema env calls item
  again : ∀ i item, (d.after (.get i)).answer (.get item) = d.answer (.get item)
  set : ∀ item x v, schema.get? item = some x → d.answer (.set item v) =
    match normalize x.kind v with
    | .ok _ => .ok .none
    | .error issues => .error (rejected issues)
  unset : ∀ item x, schema.get? item = some x → d.answer (.unset item) = .ok .none
  failed : ∀ item v f, d.answer (.set item v) = .error f → d.after (.set item v) = d
  others : ∀ c item, c.item ≠ item → (d.after c).answer (.get item) = d.answer (.get item)
  unknown : ∀ c, schema.get? c.item = none →
    d.answer c = .error (unknownSetting c.item) ∧ d.after c = d

/-- After any calls, a desk that reads no added sources answers by looking settings up in the
environment, among the values given, and in the schema. -/
theorem answers_called (host : String) (schema : Schema) (env : Environment)
    (calls : List SettingCall) :
    ((opened host schema env).called calls).Answers host schema env calls := by
  have r := reflects_called host schema env calls
  generalize (opened host schema env).called calls = d at r
  have unknown (c : SettingCall) (hc : schema.get? c.item = none) :
      d.answer c = .error (unknownSetting c.item) ∧ d.after c = d :=
    Prod.mk.inj (unknown_of_none c (r.ofSchema ▸ hc))
  constructor
  case get => exact fun item => (r.get item).1
  case unknown => exact unknown
  case again =>
    intro i item
    rw [((r.get i).2.get item).1, (r.get item).1]
  case others =>
    intro c item hc
    rw [((r.after c).get item).1, lookedUp_concat hc, (r.get item).1]
  case set =>
    intro item x v hx
    have changed := (Prod.mk.inj (set_of_declared (r.ofSchema ▸ hx) v)).1
    rw [changed]
    cases normalize x.kind v <;> rfl
  case unset =>
    intro item x hx
    exact (Prod.mk.inj (unset_of_declared (r.ofSchema ▸ hx))).1
  case failed =>
    intro item v f hf
    cases hx : schema.get? item with
    | none => exact (unknown (.set item v) hx).2
    | some x =>
      have changed := set_of_declared (d := d) (r.ofSchema ▸ hx) v
      cases hn : normalize x.kind v with
      | error issues =>
        rw [hn] at changed
        exact (Prod.mk.inj changed).2
      | ok w =>
        rw [hn] at changed
        cases hf.symm.trans (Prod.mk.inj changed).1

end Desk
end LintBroker.Setting

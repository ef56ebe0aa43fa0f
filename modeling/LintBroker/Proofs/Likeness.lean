import LintBroker.Proofs.Akin

/-!
# Likenesses

A likeness is a relation of sessions that agree on all that is read of a session by those who ask the
host, choose the providers of a round or perform an action, and that go on to agree when the same is
done to both. Some providers may be set apart: their attributes are akin, and so are the records, but
who registers them or changes what they are is not asked to do the same to both.

A computation is *blind* to a likeness if from sessions that are alike it comes to one result and to
sessions that are alike again. Asking the host, the calls on the registry, the gate and every action
that is not about a provider set apart are blind to every likeness. If emissions are blind too, so is
choosing the providers of a round and dealing with an answer.
-/
namespace LintBroker

/-- Buses that call the same listeners: the same bus, or two that are disposed. -/
def Bus.Alike (b b' : Bus) : Prop := b = b' ∨ b.disposed = true ∧ b'.disposed = true

namespace Bus.Alike
variable {b b' : Bus}

theorem audience (h : b.Alike b') (kind : NoticeKind) : b.audience kind = b'.audience kind := by
  rcases h with rfl | ⟨h, h'⟩
  · rfl
  · rw [Bus.audience, Bus.audience, h, h']
    rfl

theorem subscribe (h : b.Alike b') (x : Subscription) : (b.subscribe x).Alike (b'.subscribe x) :=
  h.imp (congrArg (Bus.subscribe · x)) id

theorem unsubscribe (h : b.Alike b') (x : Subscription) :
    (b.unsubscribe x).Alike (b'.unsubscribe x) :=
  h.imp (congrArg (Bus.unsubscribe · x)) id

end Bus.Alike

/-- Registries that differ at most in what their buses still list after their end. -/
structure Registry.Alike (r r' : Registry) : Prop where
  records : r.records = r'.records
  active : r.active = r'.active
  disposed : r.disposed = r'.disposed
  bus : r.bus.Alike r'.bus

namespace Registry.Alike
variable {r r' : Registry}

theorem refl (r : Registry) : r.Alike r := ⟨rfl, rfl, rfl, .inl rfl⟩

theorem find? (h : r.Alike r') (p : ProviderId) : r.find? p = r'.find? p := by
  rw [Registry.find?, Registry.find?, h.active]

theorem changeRecord (h : r.Alike r') (id : RecordId) (f : Record Nat → Record Nat) :
    (r.changeRecord id f).Alike (r'.changeRecord id f) :=
  { h with records := by rw [Registry.changeRecord, Registry.changeRecord, h.records] }

theorem insert (h : r.Alike r') (p : ProviderId) (c : Contract) :
    (r.insert p c).Alike (r'.insert p c) := by
  refine ⟨?_, ?_, h.disposed, h.bus⟩
  · rw [Registry.insert, Registry.insert, h.records]
  · rw [Registry.insert, Registry.insert, h.records, h.active]

theorem remove (h : r.Alike r') (p : ProviderId) : (r.remove p).Alike (r'.remove p) := by
  unfold Registry.remove
  rw [h.find?]
  split
  · exact { h.changeRecord _ _ with active := by rw [h.active] }
  · exact h

theorem dispose (h : r.Alike r') : r.dispose.Alike r'.dispose := by
  refine ⟨?_, rfl, rfl, .inl rfl⟩
  rw [Registry.dispose, Registry.dispose, h.records, h.active]

theorem withBus (h : r.Alike r') {b b' : Bus} (hb : b.Alike b') :
    Registry.Alike { r with bus := b } { r' with bus := b' } := { h with bus := hb }

/-- Registries to which the same is done stay so. -/
theorem deed (h : r.Alike r') {apart : ProviderId → Prop} {f : Registry → Registry}
    (hf : Deed apart f) : (f r).Alike (f r') := by
  cases hf with
  | insert _ c => exact h.insert _ c
  | remove p => exact h.remove p
  | dispose => exact h.dispose
  | count id f => exact h.changeRecord id _
  | subscribe x => exact h.withBus (h.bus.subscribe x)
  | unsubscribe x => exact h.withBus (h.bus.unsubscribe x)

end Registry.Alike

/-- Loops of which a host is told the same. -/
structure Loop.SameTold (l l' : Loop) : Prop where
  named? : ∀ name, l.named? name = l'.named? name
  namedCount : l.namedCount = l'.namedCount
  hasEnded : ∀ t, l.hasEnded t = l'.hasEnded t
  isPending : ∀ r, l.isPending r = l'.isPending r
  requestsOf : ∀ p, l.requestsOf p = l'.requestsOf p

/-- Related sessions agree on what actions read, and stay related when the same is done to both. -/
class Likeness (S : Session → Session → Prop) (apart : outParam (ProviderId → Prop)) : Prop where
  source {s s' : Session} (h : S s s') : s.source = s'.source
  template {s s' : Session} (h : S s s') : s.template = s'.template
  settings {s s' : Session} (h : S s s') : s.settings = s'.settings
  records {s s' : Session} (h : S s s') (id : RecordId) :
    Option.Rel (Record.Akin S) s.registry.records[id]? s'.registry.records[id]?
  active {s s' : Session} (h : S s s') : s.registry.active = s'.registry.active
  disposed {s s' : Session} (h : S s s') : s.registry.disposed = s'.registry.disposed
  bus {s s' : Session} (h : S s s') : s.registry.bus.Alike s'.registry.bus
  furniture {s s' : Session} (h : S s s') : s.host.furniture = s'.host.furniture
  matcher {s s' : Session} (h : S s s') : s.host.matcher = s'.host.matcher
  attributesOf {s s' : Session} (h : S s s') {p : ProviderId} (hp : ¬ apart p) :
    s.attributesOf p = s'.attributesOf p
  akin {s s' : Session} (h : S s s') (p : ProviderId) :
    Agree Attributes.Akin (s.attributesOf p) (s'.attributesOf p)
  told {s s' : Session} (h : S s s') : s.loop.SameTold s'.loop
  noted {s s' : Session} (h : S s s') (e : Entry) : S (s.noted e) (s'.noted e)
  withSettings {s s' : Session} (h : S s s') (x : Option Setting.Store) :
    S { s with settings := x } { s' with settings := x }
  onRegistry {s s' : Session} (h : S s s') {f : Registry → Registry} (hf : Registry.Deed apart f) :
    S (s.onRegistry f) (s'.onRegistry f)
  refurnish {s s' : Session} (h : S s s') (f : Furniture → Furniture) :
    S (s.onHost (·.refurnish f)) (s'.onHost (·.refurnish f))
  reshape {s s' : Session} (h : S s s') {p : ProviderId} {x x' : Provider} (hp : ¬ apart p)
    (hx : s.host.providers.get? p = some x) (hx' : s'.host.providers.get? p = some x')
    (a : Attributes) :
    S (s.onHost fun h => { h with providers := h.providers.put p { x with attributes := a } })
      (s'.onHost fun h => { h with providers := h.providers.put p { x' with attributes := a } })
  spawn {s s' : Session} (h : S s s') (name : Option String) (job : Job) :
    S (s.onLoop fun l => l.spawn name job) (s'.onLoop fun l => l.spawn name job)
  cancel {s s' : Session} (h : S s s') (t : TaskId) :
    S (s.onLoop fun l => l.cancel t) (s'.onLoop fun l => l.cancel t)
  settle {s s' : Session} (h : S s s') (r : RequestId) (e : Settlement) :
    S (s.onLoop fun l => l.settle r e) (s'.onLoop fun l => l.settle r e)

/-- The computation does not see a difference between related sessions. -/
abbrev BlindTo (S : Session → Session → Prop) {α : Type} (m : Act α) : Prop := InStep S m.run m.run

namespace Likeness
variable {S : Session → Session → Prop} {apart : ProviderId → Prop} [Likeness S apart]
  {s s' : Session} (h : S s s')
include apart h

theorem surfaces : s.host.surfaces = s'.host.surfaces := congrArg Furniture.surfaces (furniture h)

theorem ignoreRule : s.host.ignoreRule = s'.host.ignoreRule :=
  congrArg Furniture.ignoreRule (furniture h)

theorem environment : s.host.environment = s'.host.environment :=
  congrArg Furniture.environment (furniture h)

theorem contexts : s.host.contexts = s'.host.contexts := congrArg Furniture.contexts (furniture h)

theorem subscriptions : s.host.subscriptions = s'.host.subscriptions :=
  congrArg Furniture.subscriptions (furniture h)

theorem find? (p : ProviderId) : s.registry.find? p = s'.registry.find? p := by
  rw [Registry.find?, Registry.find?, active h]

theorem size_records : s.registry.records.size = s'.registry.records.size :=
  Array.size_eq_of_rel (records h)

end Likeness

section likeness
variable {S : Session → Session → Prop} {apart : ProviderId → Prop} [Likeness S apart]
include apart

namespace Act

theorem blind_note (e : Entry) : BlindTo S (note e) := inStep_modify fun _ _ h => Likeness.noted h e

theorem blind_debug (text : String) : BlindTo S (debug text) := blind_note _

theorem blind_trace (text : String) : BlindTo S (trace text) := blind_note _

theorem blind_reportFault (summary : String) (f : Failure) :
    BlindTo S (reportFault summary f) :=
  inStep_bind (blind_debug _) fun _ => inStep_forM blind_trace _

theorem blind_modifyRegistry {f : Registry → Registry} (hf : Registry.Deed apart f) :
    BlindTo S (modifyRegistry f) :=
  inStep_modify fun _ _ h => Likeness.onRegistry h hf

theorem blind_refurnish (f : Furniture → Furniture) : BlindTo S (modifyHost (·.refurnish f)) :=
  inStep_modify fun _ _ h => Likeness.refurnish h f

theorem blind_settings (x : Option Setting.Store) :
    BlindTo S (modify fun s => { s with settings := x } : Act PUnit) :=
  inStep_modify fun _ _ h => Likeness.withSettings h x

theorem blind_askSurface (id : SurfaceId) (q : Surface.Question) :
    BlindTo S (askSurface id q) := by
  refine inStep_get fun s s' h => ?_
  rw [Likeness.surfaces h]
  exact inStep_bind (inStep_expect _ _) fun _ => inStep_bind (blind_note _) fun _ => inStep_take _

theorem blind_attributes {p : ProviderId} (hp : ¬ apart p) : BlindTo S (attributes p) := by
  intro s s' h
  have read (s : Session) : (attributes p).run.run s = (s.attributesOf p, s) := exec_attributes p s
  rw [read, read]
  exact ⟨Likeness.attributesOf h hp, h⟩

/-- The attributes that are read of a provider are akin. -/
theorem inStep_attributes (p : ProviderId) :
    InStep S (attributes p).run (attributes p).run (Agree Attributes.Akin) := by
  intro s s' h
  have read (s : Session) : (attributes p).run.run s = (s.attributesOf p, s) := exec_attributes p s
  rw [read, read]
  exact ⟨Likeness.akin h p, h⟩

theorem blind_ofAttributes {α : Type} (p : ProviderId) {f : Attributes → Except Failure α}
    (hf : ∀ a a', Attributes.Akin a a' → f a = f a') :
    BlindTo S (do take (f (← attributes p))) :=
  inStep_bind_of (inStep_attributes p) (fun a a' akin => hf a a' akin ▸ inStep_take _) fun _ => rfl

theorem blind_readAttribute (p : ProviderId) {name : String} (plain : Attributes.IsPlain name) :
    BlindTo S (readAttribute p name) :=
  blind_ofAttributes p fun _ _ akin => akin.read plain

theorem blind_askIgnored (path : Value) : BlindTo S (askIgnored path) := by
  refine inStep_get fun s s' h => ?_
  rw [Likeness.ignoreRule h]
  split
  · split
    · exact inStep_bind (blind_note _) fun _ => inStep_take _
    · exact inStep_pure _
  · exact inStep_pure _

theorem blind_matchGrammar (scopes : Value) (surface : SurfaceId) :
    BlindTo S (matchGrammar scopes surface) := by
  refine inStep_bind (inStep_take _) fun _ => ?_
  split
  · exact inStep_pure _
  · exact inStep_bind (blind_askSurface _ _) fun _ =>
      inStep_bind (inStep_take _) fun _ => inStep_pure _

theorem blind_askMatcher (scopes : Value) (surface : SurfaceId) :
    BlindTo S (askMatcher scopes surface) := by
  refine inStep_get fun s s' h => ?_
  rw [Likeness.matcher h]
  split
  · split
    · exact inStep_bind (blind_note _) fun _ => inStep_take _
    · exact blind_matchGrammar _ _
  · exact blind_matchGrammar _ _

theorem blind_madeSettings : BlindTo S madeSettings := by
  refine inStep_get fun s s' h => ?_
  rw [Likeness.settings h]
  split
  · exact inStep_pure _
  · refine inStep_get fun s s' h => ?_
    rw [Likeness.template h]
    exact inStep_bind (blind_debug _) fun _ => inStep_bind (blind_debug _) fun _ =>
      inStep_bind (blind_settings _) fun _ => inStep_pure _

theorem blind_sharedSettings : BlindTo S sharedSettings := by
  refine inStep_get fun s s' h => ?_
  rw [Likeness.source h]
  split
  · exact inStep_bind (inStep_forM blind_debug _) fun _ => inStep_throw _
  · exact blind_madeSettings

theorem blind_ensureSettings : BlindTo S ensureSettings := by
  refine inStep_get fun s s' h => ?_
  rw [Likeness.source h]
  split
  · exact inStep_pure _
  · exact inStep_bind blind_sharedSettings fun _ => inStep_pure _

theorem blind_readShared (item : String) : BlindTo S (readShared item) := by
  refine inStep_bind blind_sharedSettings fun _ => inStep_get fun s s' h => ?_
  rw [Likeness.environment h]
  exact inStep_bind (blind_settings _) fun _ => inStep_take _

theorem blind_setting (item : String) : BlindTo S (setting item) := by
  refine inStep_bind (blind_note _) fun _ => inStep_get fun s s' h => ?_
  rw [Likeness.source h]
  split
  · exact inStep_take _
  · exact blind_readShared _

theorem blind_openContext (surface : SurfaceId) (onChange : Value) :
    BlindTo S (openContext surface onChange) := by
  have rest (path : Act Value) (h : BlindTo S path) : BlindTo S (do
      let filePath ← path
      let buffer ← askSurface surface .buffer
      let context : EditContext := { surface, onChange, filePath, buffer }
      note (.contextOpened context)
      return context) :=
    inStep_bind h fun _ => inStep_bind (blind_askSurface _ _) fun _ =>
      inStep_bind (blind_note _) fun _ => inStep_pure _
  refine inStep_bind (blind_askSurface _ _) fun _ => ?_
  split
  · exact rest _ (blind_askSurface _ _)
  · exact rest _ (inStep_pure _)

end Act

namespace Broker
open Act

theorem blind_hasProvider (p : ProviderId) : BlindTo S (hasProvider p) := by
  refine inStep_get fun s s' h => ?_
  rw [Likeness.find? h]
  exact inStep_pure _

theorem blind_recordOf (p : ProviderId) : BlindTo S (recordOf p) := by
  refine inStep_get fun s s' h => ?_
  rw [Likeness.find? h]
  split
  · exact inStep_pure _
  · exact inStep_throw _

theorem blind_nameOf (p : ProviderId) : BlindTo S (nameOf p) :=
  blind_ofAttributes p fun _ _ akin => akin.name

theorem blind_scopeOf (p : ProviderId) : BlindTo S (scopeOf p) :=
  blind_ofAttributes p fun _ _ akin => akin.scope

theorem inStep_record (id : RecordId) :
    InStep S (record id).run (record id).run (Agree (Record.Akin S)) := by
  intro s s' h
  have read (s : Session) :
      (record id).run.run s = (expect s.registry.records[id]? (toString id)).exec s := rfl
  have akin := Likeness.records h id
  rw [read, read]
  generalize s.registry.records[id]? = x, s'.registry.records[id]? = x' at akin
  cases akin with
  | none => exact ⟨.error _, h⟩
  | some akin => exact ⟨.ok akin, h⟩

/-- What akin records have in common may be read. -/
theorem inStep_record_bind {α : Type} (id : RecordId) {k k' : Record Nat → Act α}
    (hk : ∀ x x', Record.Akin S x x' → InStep S (k x).run (k' x').run) :
    InStep S (record id >>= k).run (record id >>= k').run :=
  inStep_bind_of (inStep_record id) hk fun _ => rfl

theorem blind_addProvider {p : ProviderId} (hp : ¬ apart p) (legacy : Bool) :
    BlindTo S (addProvider p legacy) := by
  refine inStep_get fun s s' h => ?_
  rw [Likeness.disposed h]
  split
  · exact inStep_throw _
  · refine inStep_bind (blind_hasProvider p) fun found => ?_
    split
    · exact inStep_bind (blind_readAttribute p (by decide)) fun _ => inStep_throw _
    · refine inStep_bind (blind_attributes hp) fun _ => inStep_bind (inStep_take _) fun contract =>
        inStep_bind (blind_attributes hp) fun _ => inStep_bind (inStep_take _) fun _ =>
          inStep_get fun s s' h => ?_
      rw [Likeness.size_records h]
      have inserts : BlindTo S (modifyRegistry fun r => r.insert p contract) :=
        blind_modifyRegistry (.insert hp contract)
      exact inStep_bind inserts fun _ => inStep_bind (blind_note _) fun _ =>
        inStep_bind (blind_readAttribute p (by decide)) fun _ => blind_debug _

theorem blind_removeProvider (p : ProviderId) : BlindTo S (removeProvider p) := by
  refine inStep_get fun s s' h => ?_
  rw [Likeness.find? h]
  split
  · exact inStep_pure _
  · have removes : BlindTo S (modifyRegistry fun r => r.remove p) := blind_modifyRegistry (.remove p)
    exact inStep_bind removes fun _ => inStep_bind (blind_note _) fun _ =>
      inStep_bind (blind_nameOf p) fun _ => blind_debug _

theorem blind_dispose : BlindTo S dispose :=
  inStep_bind (blind_modifyRegistry .dispose) fun _ =>
    inStep_bind (blind_note _) fun _ => blind_debug _

theorem blind_setUp : BlindTo S setUp :=
  inStep_bind (blind_debug _) fun _ => blind_ensureSettings

/-- What a record says of its provider. -/
def fieldsRead (x : Record Nat) : Act (List (String × Except Failure Value)) := do
  return fieldsOf (← attributes x.provider) x.contract

theorem inStep_fieldsRead {x x' : Record Nat} (akin : Record.Akin S x x') :
    InStep S (fieldsRead x).run (fieldsRead x').run := by
  intro s s' h
  have read (x : Record Nat) (s : Session) : (fieldsRead x).run.run s =
      ((s.attributesOf x.provider).map (fieldsOf · x.contract), s) := by
    change (fieldsRead x).exec s = _
    rw [fieldsRead, exec_bind, exec_attributes]
    cases s.attributesOf x.provider <;> rfl
  have same := akin.runs s s' h
  have attributes := Likeness.akin h x.provider
  rw [read, read, ← akin.provider]
  refine ⟨?_, h⟩
  generalize s.attributesOf x.provider = a, s'.attributesOf x.provider = a' at same attributes
  cases attributes with
  | error f => rfl
  | @ok a a' attributes =>
    have runs : a.lintsOnChange x.contract = a'.lintsOnChange x'.contract := same
    show Except.ok (fieldsOf a x.contract) = Except.ok (fieldsOf a' x'.contract)
    rw [fieldsOf, fieldsOf, attributes.name, attributes.scope, runs]

theorem blind_recordFields (id : RecordId) : BlindTo S (recordFields id) := by
  refine inStep_get fun s s' h => ?_
  have akin := Likeness.records h id
  generalize s.registry.records[id]? = x, s'.registry.records[id]? = x' at akin
  cases akin with
  | none => exact inStep_throw _
  | some akin => exact inStep_fieldsRead akin

end Broker

namespace Gate
open Act

theorem blind_globExcludes (path : Value) : BlindTo S (globExcludes path) := by
  refine inStep_bind (blind_setting _) fun _ => ?_
  split
  · exact inStep_pure _
  · refine inStep_bind (inStep_take _) fun _ => ?_
    split
    · exact inStep_bind (blind_debug _) fun _ => inStep_pure _
    · exact inStep_pure _

theorem blind_rulesExclude (path : Value) : BlindTo S (rulesExclude path) := by
  refine inStep_bind (blind_setting _) fun _ => ?_
  split
  · exact inStep_pure _
  · refine inStep_bind (blind_askIgnored _) fun _ => ?_
    split
    · exact inStep_bind (blind_debug _) fun _ => inStep_pure _
    · exact inStep_pure _

theorem blind_isPathIgnored (path : Value) : BlindTo S (isPathIgnored path) := by
  refine inStep_bind (blind_globExcludes _) fun _ => ?_
  split
  · exact inStep_pure _
  · exact blind_rulesExclude _

theorem blind_changeAllowed (path : Value) : BlindTo S (changeAllowed path) := by
  refine inStep_bind (blind_setting _) fun _ => ?_
  split
  · exact inStep_pure _
  · exact inStep_bind (blind_debug _) fun _ => inStep_pure _

theorem blind_previewAllowed (context : EditContext) : BlindTo S (previewAllowed context) := by
  refine inStep_bind (blind_askSurface _ _) fun _ => ?_
  split
  · exact inStep_pure _
  · refine inStep_bind (blind_setting _) fun _ => ?_
    split
    · exact inStep_pure _
    · exact inStep_bind (blind_debug _) fun _ => inStep_pure _

theorem blind_shouldLint (context : EditContext) : BlindTo S (shouldLint context) := by
  unfold shouldLint
  split
  · exact inStep_bind (blind_debug _) fun _ => inStep_pure _
  · refine inStep_bind (blind_isPathIgnored _) fun _ => ?_
    split
    · exact inStep_pure _
    · split
      · exact blind_changeAllowed _
      · exact blind_previewAllowed _

omit apart [Likeness S apart] in
theorem inStep_lintsOnChange {x x' : Record Nat} (akin : Record.Akin S x x') :
    InStep S (do take ((← attributes x.provider).lintsOnChange x.contract) : Act Bool).run
      (do take ((← attributes x'.provider).lintsOnChange x'.contract) : Act Bool).run := by
  intro s s' h
  have read (x : Record Nat) (s : Session) :
      (do take ((← attributes x.provider).lintsOnChange x.contract) : Act Bool).run.run s =
        ((s.attributesOf x.provider).bind (·.lintsOnChange x.contract), s) := by
    change Act.exec _ s = _
    rw [exec_bind, exec_attributes]
    cases s.attributesOf x.provider <;> rfl
  rw [read, read, ← akin.provider]
  exact ⟨akin.runs s s' h, h⟩

theorem inStep_shouldTrigger {x x' : Record Nat} (akin : Record.Akin S x x') (context : EditContext) :
    InStep S (shouldTrigger x context).run (shouldTrigger x' context).run := by
  unfold shouldTrigger
  rw [← akin.provider]
  refine inStep_bind (blind_readAttribute _ (by decide)) fun _ =>
    inStep_bind (blind_askMatcher _ _) fun found => ?_
  split
  · have runs := inStep_lintsOnChange akin
    rw [← akin.provider] at runs
    simp only [← bind_assoc]
    refine inStep_bind runs fun _ => ?_
    split
    · exact inStep_pure _
    · exact inStep_pure _
  · exact inStep_pure _

end Gate

/-! ### Actions -/

namespace Act
omit apart [Likeness S apart] in
theorem blind_nothing {m : Act Unit} (h : BlindTo S m) : BlindTo S (nothing m) :=
  inStep_bind h fun _ => inStep_pure _

theorem blind_startLint (target : LintTarget) (name : Option String) :
    BlindTo S (startLint target name) := by
  have context : BlindTo S (targetContext target) := by
    cases target with
    | opened name =>
      refine inStep_get fun s s' h => ?_
      rw [Likeness.contexts h]
      exact inStep_expect _ _
    | surface id onChange => exact blind_openContext _ _
  refine inStep_bind context fun _ => inStep_get fun s s' h => ?_
  rw [(Likeness.told h).namedCount]
  exact inStep_modify fun _ _ h => Likeness.spawn h _ _

theorem blind_cancelTask (name : String) : BlindTo S (cancelTask name) := by
  refine inStep_get fun s s' h => ?_
  rw [(Likeness.told h).named?]
  refine inStep_bind (inStep_expect _ _) fun t => inStep_get fun s s' h => ?_
  rw [(Likeness.told h).hasEnded]
  split
  · exact inStep_pure _
  · exact inStep_bind (inStep_modify fun _ _ h => Likeness.cancel h t) fun _ => inStep_pure _

theorem blind_setSetting (item : String) (v : Value) : BlindTo S (setSetting item v) :=
  inStep_bind blind_sharedSettings fun _ => inStep_bind (inStep_take _) fun _ =>
    inStep_bind (blind_settings _) fun _ => blind_debug _

theorem blind_unsetSetting (item : String) : BlindTo S (unsetSetting item) :=
  inStep_bind blind_sharedSettings fun _ => inStep_bind (inStep_take _) fun _ =>
    blind_settings _

omit apart [Likeness S apart] in
/-- What a change of a provider's attributes comes to. -/
theorem exec_changeAttributes {s : Session} {p : ProviderId} {x : Provider}
    (hx : s.host.providers.get? p = some x) (change : Attributes → Except Failure Attributes) :
    (changeAttributes p change).exec s =
      match change x.attributes with
      | .ok a =>
        (.ok (), (s.onHost fun h =>
          { h with providers := h.providers.put p { x with attributes := a } }).noted (.reshaped p a))
      | .error f => (.error f, s) := by
  have found : (expect (s.host.providers.get? p) p).exec s = (.ok x, s) := by rw [hx]; rfl
  rw [changeAttributes, exec_bind_ok exec_get, exec_bind_ok found]
  cases change x.attributes <;> rfl

theorem blind_changeAttributes {p : ProviderId} (hp : ¬ apart p)
    (change : Attributes → Except Failure Attributes) : BlindTo S (changeAttributes p change) := by
  intro s s' h
  change ((changeAttributes p change).exec s).1 = ((changeAttributes p change).exec s').1 ∧
    S ((changeAttributes p change).exec s).2 ((changeAttributes p change).exec s').2
  have same := Likeness.attributesOf h hp
  have missing {s : Session} (hx : s.host.providers.get? p = none) :
      (changeAttributes p change).exec s = (.error (Setting.missing p), s) := by
    rw [changeAttributes, exec_bind_ok exec_get, exec_bind_error (by rw [hx]; rfl)]
  cases hx : s.host.providers.get? p with
  | none =>
    cases hx' : s'.host.providers.get? p with
    | none =>
      rw [missing hx, missing hx']
      exact ⟨rfl, h⟩
    | some x' => simp [Session.attributesOf, hx, hx'] at same
  | some x =>
    cases hx' : s'.host.providers.get? p with
    | none => simp [Session.attributesOf, hx, hx'] at same
    | some x' =>
      obtain same : x.attributes = x'.attributes := by
        simpa [Session.attributesOf, hx, hx'] using same
      rw [exec_changeAttributes hx, exec_changeAttributes hx', same]
      cases change x'.attributes with
      | error f => exact ⟨rfl, h⟩
      | ok a => exact ⟨rfl, Likeness.noted (Likeness.reshape h hp hx hx' a) _⟩

theorem blind_setVariable (name : String) (v : Option String) :
    BlindTo S (perform (.setVariable name v)) := by
  cases v with
  | none =>
    exact blind_nothing (blind_refurnish fun f =>
      { f with environment := f.environment.erase name })
  | some text =>
    exact blind_nothing (blind_refurnish fun f =>
      { f with environment := f.environment.put name text })

theorem blind_changeSurface (id : SurfaceId) (q : Surface.Question) (v : Value) :
    BlindTo S (perform (.changeSurface id q v)) := by
  refine blind_nothing (inStep_get fun s s' h => ?_)
  rw [Likeness.surfaces h]
  refine inStep_bind (inStep_expect _ _) fun surface => inStep_bind ?_ fun _ => blind_note _
  exact blind_refurnish fun f => { f with surfaces := f.surfaces.put id (surface.change q v) }

theorem blind_subscribe (x : Subscription) (token : String) : BlindTo S (subscribe x token) :=
  inStep_bind (blind_modifyRegistry (.subscribe x)) fun _ =>
    inStep_bind (blind_refurnish fun f => { f with subscriptions := f.subscriptions.put token x })
      fun _ => blind_note _

theorem blind_unsubscribe (token : String) : BlindTo S (unsubscribe token) := by
  refine inStep_get fun s s' h => ?_
  rw [Likeness.subscriptions h]
  split
  · next x _ =>
    exact inStep_bind (blind_modifyRegistry (.unsubscribe x))
      fun _ => blind_note _
  · exact inStep_pure _

theorem blind_changeIgnored (change : List Value → List Value) :
    BlindTo S (changeIgnored change) :=
  blind_refurnish fun f =>
    { f with ignoreRule := f.ignoreRule.map fun r => { r with listed := change r.listed } }

theorem blind_settleRequest (p : ProviderId) (n : Nat) (e : Except Failure Settlement) :
    BlindTo S (settleRequest p n e) := by
  have asks : BlindTo S (request? p n) := by
    refine inStep_get fun s s' h => ?_
    rw [(Likeness.told h).requestsOf]
    exact inStep_pure _
  refine inStep_bind asks fun found => ?_
  split
  · exact inStep_pure _
  · refine inStep_get fun s s' h => ?_
    rw [(Likeness.told h).isPending]
    split
    · exact inStep_bind (inStep_take _) fun e =>
        inStep_bind (inStep_modify fun _ _ h => Likeness.settle h _ e) fun _ => inStep_pure _
    · exact inStep_pure _

end Act
end likeness

mutual

/-- The providers that an action registers, or whose attributes it changes. -/
def Action.subjects : Action → List ProviderId
  | .add p _ | .setAttribute p _ _ | .deleteAttribute p _ => [p]
  | .batch actions => Action.subjectsAll actions
  | _ => []

/-- The providers that some of the actions registers, or whose attributes one changes. -/
def Action.subjectsAll : List Action → List ProviderId
  | [] => []
  | a :: rest => a.subjects ++ Action.subjectsAll rest

end

namespace Act
variable {S : Session → Session → Prop} {apart : ProviderId → Prop}

theorem blind_perform_registry [Likeness S apart] : ∀ {a : Action}, a.concern = .registry →
    (∀ p ∈ a.subjects, ¬ apart p) → BlindTo S (perform a)
  | .add p legacy, _, free =>
    blind_nothing (Broker.blind_addProvider (free p (by simp [Action.subjects])) legacy)
  | .remove p, _, _ => blind_nothing (Broker.blind_removeProvider p)
  | .dispose, _, _ => blind_nothing Broker.blind_dispose
  | .has p, _, _ => inStep_bind (Broker.blind_hasProvider p) fun _ => inStep_pure _
  | .recordOf p, _, _ => inStep_bind (Broker.blind_recordOf p) fun _ => inStep_pure _
  | .recordFields n, _, _ => inStep_bind (Broker.blind_recordFields n) fun _ => inStep_pure _

theorem blind_perform_bus [Likeness S apart] : ∀ {a : Action}, a.concern = .bus →
    BlindTo S (perform a)
  | .subscribe x token, _ => blind_nothing (blind_subscribe x token)
  | .unsubscribe token, _ => blind_nothing (blind_unsubscribe token)

theorem blind_perform_tasks [Likeness S apart] : ∀ {a : Action}, a.concern = .tasks →
    BlindTo S (perform a)
  | .lint target name, _ => blind_nothing (blind_startLint target name)
  | .resolve p n _, _ | .fail p n _, _ | .withdraw p n, _ => blind_settleRequest p n _
  | .cancel name, _ => inStep_bind (blind_cancelTask name) fun _ => inStep_pure _

theorem blind_perform_settings [Likeness S apart] : ∀ {a : Action}, a.concern = .settings →
    BlindTo S (perform a)
  | .setUp, _ => blind_nothing Broker.blind_setUp
  | .setSetting item v, _ => blind_nothing (blind_setSetting item v)
  | .unsetSetting item, _ => blind_nothing (blind_unsetSetting item)
  | .getSetting item, _ => inStep_bind (blind_readShared item) fun _ => inStep_pure _

theorem blind_perform_host [Likeness S apart] : ∀ {a : Action}, a.concern = .host →
    (∀ p ∈ a.subjects, ¬ apart p) → BlindTo S (perform a)
  | .openContext name surface onChange, _, _ =>
    inStep_bind (blind_openContext surface onChange) fun context =>
      inStep_bind (blind_refurnish fun f => { f with contexts := f.contexts.put name context })
        fun _ => inStep_pure _
  | .setVariable name v, _, _ => blind_setVariable name v
  | .changeSurface id q v, _, _ => blind_changeSurface id q v
  | .setAttribute p _ _, _, free | .deleteAttribute p _, _, free =>
    blind_nothing (blind_changeAttributes (free p (by simp [Action.subjects])) _)
  | .ignorePath _, _, _ | .noticePath _, _, _ => blind_nothing (blind_changeIgnored _)

mutual

/-- Performing an action that is not about a provider set apart is blind. -/
theorem blind_perform [Likeness S apart] :
    ∀ a : Action, (∀ p ∈ a.subjects, ¬ apart p) → BlindTo S (perform a)
  | .add .., free | .remove _, free | .has _, free | .recordOf _, free | .recordFields _, free
  | .dispose, free => blind_perform_registry rfl free
  | .subscribe .., _ | .unsubscribe _, _ => blind_perform_bus rfl
  | .lint .., _ | .resolve .., _ | .fail .., _ | .withdraw .., _ | .cancel _, _ =>
    blind_perform_tasks rfl
  | .setUp, _ | .setSetting .., _ | .unsetSetting _, _ | .getSetting _, _ =>
    blind_perform_settings rfl
  | .openContext .., free | .setVariable .., free | .changeSurface .., free
  | .setAttribute .., free | .deleteAttribute .., free | .ignorePath _, free
  | .noticePath _, free => blind_perform_host rfl free
  | .raise f, _ => inStep_throw f
  | .pass, _ => inStep_pure _
  | .batch actions, free =>
    inStep_bind (blind_performAll actions fun p hp => free p (by rwa [Action.subjects]))
      fun _ => inStep_pure _

theorem blind_performAll [Likeness S apart] :
    ∀ actions : List Action, (∀ p ∈ Action.subjectsAll actions, ¬ apart p) →
      BlindTo S (performAll actions)
  | [], _ => inStep_pure _
  | a :: rest, free => by
    rw [Action.subjectsAll, List.forall_mem_append] at free
    exact inStep_bind (inStep_attempt (blind_perform a free.1)) fun _ =>
      inStep_bind (blind_performAll rest free.2) fun _ => inStep_pure _

end

end Act
end LintBroker

import LintBroker.Proofs.Stretches

/-!
# Actions come down to strokes

Whatever an action does, and whether or not it fails, it does one stroke after the other, each of
which says what it was made on. Strokes are changes, in a silent stretch, and leave the listeners, the
matcher and the counts of deliveries alone. An emission makes changes too, once its notice is in the
journal: listeners do nothing but perform actions.
-/
namespace LintBroker

theorem Registry.bus_remove (r : Registry) (p : ProviderId) : (r.remove p).bus = r.bus := by
  unfold remove
  split <;> rfl

namespace Session
variable {s s' : Session}

/-- What an action does at one stroke, given what it may do besides. -/
inductive StrokeBeside (Q : Session → Session → Prop) (s : Session) : Session → Prop
  | quiet {s' : Session} (h : Q s s') : StrokeBeside Q s s'
  | refurnish (f : Furniture → Furniture) (movable : Furniture.Movable f) :
      StrokeBeside Q s (s.onHost (·.refurnish f))
  | reshape {p : ProviderId} {x : Provider} (a : Attributes)
      (h : s.host.providers.get? p = some x) :
      StrokeBeside Q s ((s.onHost fun h =>
        { h with providers := h.providers.put p { x with attributes := a } }).noted (.reshaped p a))
  | alter {id : SurfaceId} {x : Surface} (q : Surface.Question) (v : Value)
      (h : s.host.surfaces.get? id = some x) :
      StrokeBeside Q s ((s.onHost fun h =>
        { h with surfaces := h.surfaces.put id (x.change q v) }).noted (.altered id q v))
  | subscribe (x : Subscription) (token : String) :
      StrokeBeside Q s (((s.onRegistry fun r => { r with bus := r.bus.subscribe x }).onHost fun h =>
        { h with subscriptions := h.subscriptions.put token x }).noted (.subscribed x))
  | unsubscribe (x : Subscription) :
      StrokeBeside Q s
        ((s.onRegistry fun r => { r with bus := r.bus.unsubscribe x }).noted (.unsubscribed x))
  | register {p : ProviderId} {a : Attributes} {c : Contract} (usable : s.registry.disposed = false)
      (new : s.registry.find? p = none) (reads : s.attributesOf p = .ok a)
      (chosen : ∃ legacy, Contract.of a legacy = .ok c) (valid : a.validate c = .ok ()) :
      StrokeBeside Q s ((s.onRegistry fun r => r.insert p c).noted
        (.registered s.registry.records.size p))
  | remove {p : ProviderId} {id : RecordId} (h : s.registry.find? p = some id) :
      StrokeBeside Q s ((s.onRegistry fun r => r.remove p).noted (.removed id p))
  | dispose : StrokeBeside Q s ((s.onRegistry Registry.dispose).noted .disposed)
  | spawn (name : Option String) (c : EditContext) :
      StrokeBeside Q s (s.onLoop fun l => l.spawn name (.lint c))
  | settle (r : RequestId) (e : Settlement) : StrokeBeside Q s (s.onLoop fun l => l.settle r e)
  | cancel (t : TaskId) : StrokeBeside Q s (s.onLoop fun l => l.cancel t)

/-- What an action does at one stroke, among quiet ones. -/
abbrev Stroke : Session → Session → Prop := StrokeBeside Quiet

abbrev Strokes : Session → Session → Prop := Relation.ReflTransGen Stroke

instance : IsPreorder Session Strokes where
  refl _ := .refl
  trans _ _ _ := .trans

/-- What an action does comes down to strokes that murmur at most. -/
abbrev Doings : Session → Session → Prop := Relation.ReflTransGen (StrokeBeside Murmur)

instance : IsPreorder Session Doings where
  refl _ := .refl
  trans _ _ _ := .trans

theorem StrokeBeside.mono {Q R : Session → Session → Prop} (h : StrokeBeside Q s s')
    (hQR : ∀ s s', Q s s' → R s s') : StrokeBeside R s s' := by
  cases h with
  | quiet h => exact .quiet (hQR _ _ h)
  | refurnish f movable => exact .refurnish f movable
  | reshape a h => exact .reshape a h
  | alter q v h => exact .alter q v h
  | subscribe x token => exact .subscribe x token
  | unsubscribe x => exact .unsubscribe x
  | register usable new reads chosen valid => exact .register usable new reads chosen valid
  | remove h => exact .remove h
  | dispose => exact .dispose
  | spawn name c => exact .spawn name c
  | settle r e => exact .settle r e
  | cancel t => exact .cancel t

theorem Doings.strokes (h : Doings s s') : Strokes s s' := by
  induction h with
  | refl => exact .refl
  | tail _ stroke ih => exact ih.tail (stroke.mono fun _ _ => And.left)

/-- Strokes keep to every preorder that each stroke keeps to. -/
theorem Strokes.keep {Q R : Session → Session → Prop} [IsPreorder Session R]
    (each : ∀ s s', StrokeBeside Q s s' → R s s')
    (h : Relation.ReflTransGen (StrokeBeside Q) s s') : R s s' := by
  induction h with
  | refl => exact refl s
  | tail _ stroke ih => exact IsTrans.trans _ _ _ ih (each _ _ stroke)

/-- A change that leaves journal and bus alone. -/
theorem Change.deeds (h : s.Change s') (history : s'.history = s.history)
    (bus : s'.registry.bus = s.registry.bus) (loop : s.loop.Advances s'.loop) : Deeds s s' :=
  ⟨.single h, silent_of_nothing history bus loop⟩

theorem Change.deeds_of_entry {e : Entry} (h : s.Change s') (history : s'.history = s.history ++ [e])
    (speaker : e.speaker? = none) (bus : s'.registry.bus = e.onBus s.registry.bus)
    (loop : s'.loop = s.loop) : Deeds s s' :=
  ⟨.single h, silent_of_entry history speaker bus loop⟩

/-- A stroke is a change, or several, in a silent stretch. -/
theorem Stroke.deeds (h : Stroke s s') : Deeds s s' := by
  cases h with
  | quiet h => exact h.deeds
  | refurnish f movable =>
    exact Change.deeds (.host _ (movable.surfaces _) rfl rfl) rfl rfl (.refl _)
  | reshape a h => exact Change.deeds_of_entry (.reshape a h) (history_noted _ _) rfl rfl rfl
  | alter q v h => exact Change.deeds_of_entry (.alter q v h) (history_noted _ _) rfl rfl rfl
  | subscribe x token =>
    exact ⟨.tail (.tail (.single (.bus (s.registry.bus.subscribe x))) (.host
        { s.host with subscriptions := s.host.subscriptions.put token x } rfl rfl rfl)) (.note rfl),
      silent_of_entry (e := .subscribed x) (history_noted _ _) rfl rfl rfl⟩
  | unsubscribe x =>
    exact ⟨.tail (.single (.bus (s.registry.bus.unsubscribe x))) (.note rfl),
      silent_of_entry (e := .unsubscribed x) (history_noted _ _) rfl rfl rfl⟩
  | @register p a c usable new =>
    exact Change.deeds_of_entry (.register c usable new) (history_noted _ _) rfl rfl rfl
  | @remove p id h =>
    exact Change.deeds_of_entry (.remove h) (history_noted _ _) rfl (Registry.bus_remove _ p) rfl
  | dispose => exact Change.deeds_of_entry .dispose (history_noted _ _) rfl rfl rfl
  | spawn name c => exact Change.deeds (.spawn name c) rfl rfl (Loop.advances_spawn _ name c)
  | settle r e => exact Change.deeds (.settle r e) rfl rfl (Loop.advances_settle _ r e)
  | cancel t => exact Change.deeds (.cancel t) rfl rfl (Loop.advances_cancel _ t)

/-- A stroke that murmurs at most is of no task's proceedings. -/
theorem StrokeBeside.aside (h : StrokeBeside Murmur s s') : s.Aside s' := by
  cases h with
  | quiet h => exact h.2
  | reshape a h => exact aside_noted rfl (s.onHost _)
  | alter q v h => exact aside_noted rfl (s.onHost _)
  | subscribe x token => exact aside_noted rfl ((s.onRegistry _).onHost _)
  | unsubscribe x => exact aside_noted rfl (s.onRegistry _)
  | register => exact aside_noted rfl (s.onRegistry _)
  | remove h => exact aside_noted rfl (s.onRegistry _)
  | dispose => exact aside_noted rfl (s.onRegistry _)
  | _ => rfl

/-- A stroke calls no listener and makes none. -/
theorem Stroke.audience (h : Stroke s s') : s'.host.deliveries = s.host.deliveries ∧
    s'.host.listeners = s.host.listeners ∧ s'.host.matcher = s.host.matcher := by
  cases h with
  | quiet h => rw [h.host]; exact ⟨rfl, rfl, rfl⟩
  | _ => exact ⟨rfl, rfl, rfl⟩

end Session

open Session

namespace Act
variable {s : Session}

theorem doings_of_murmur {α : Type} {m : Act α} (h : KeepsTo Murmur m.run) :
    KeepsTo Doings m.run := h.mono fun _ _ murmur => .single (.quiet murmur)

theorem doings_settings (f : Session → Option Setting.Store) :
    KeepsTo Doings (modify fun s => { s with settings := f s } : Act PUnit).run :=
  doings_of_murmur (murmur_settings f)

theorem doings_refurnish (f : Furniture → Furniture) (movable : Furniture.Movable f) :
    KeepsTo Doings (modifyHost (·.refurnish f)).run := fun _ => .single (.refurnish f movable)

theorem doings_modifyLoop {f : Loop → Loop} (h : ∀ s : Session, s.StrokeBeside Murmur (s.onLoop f)) :
    KeepsTo Doings (modifyLoop f).run := fun s => .single (h s)

theorem doings_nothing {m : Act Unit} (h : KeepsTo Doings m.run) :
    KeepsTo Doings (nothing m).run :=
  keepsTo_bind h fun _ => keepsTo_pure _

end Act

namespace Broker
open Act

theorem doings_addProvider (p : ProviderId) (legacy : Bool) :
    KeepsTo Doings (addProvider p legacy).run := by
  intro s
  change Doings s ((addProvider p legacy).exec s).2
  refine exec_bind_read exec_get (refl s) fun _ hs => ?_
  obtain rfl := Except.ok.inj hs
  split
  · exact refl s
  · rename_i usable
    refine exec_bind_read (r := .ok (s.registry.find? p).isSome) rfl (refl s) fun found hf => ?_
    obtain rfl := Except.ok.inj hf
    split
    · exact keepsTo_bind (doings_of_murmur (keepsTo_readAttribute p _)) (fun _ => keepsTo_throw _) s
    · rename_i new
      refine exec_bind_read (exec_attributes p s) (refl s) fun a reads => ?_
      refine exec_bind_read (exec_take _) (refl s) fun contract chosen => ?_
      rw [exec_bind_ok ((exec_attributes p s).trans (by rw [reads]))]
      refine exec_bind_read (exec_take _) (refl s) fun _ valid => ?_
      have made : Session.StrokeBeside Murmur s ((s.onRegistry fun r => r.insert p contract).noted
          (.registered s.registry.records.size p)) :=
        .register (by simpa using usable) (by simpa using new) reads ⟨legacy, chosen⟩ valid
      have told : KeepsTo Doings (do
          let name ← readAttribute p "name"
          debug ("Registered provider " ++ name.literal ++ " (version " ++
            toString contract.number ++ ")") : Act Unit).run :=
        doings_of_murmur (keepsTo_bind (keepsTo_readAttribute p _) fun _ => murmur_lines _ rfl)
      exact .head made (told _)

theorem doings_removeProvider (p : ProviderId) : KeepsTo Doings (removeProvider p).run := by
  intro s
  change Doings s ((removeProvider p).exec s).2
  refine exec_bind_read exec_get (refl s) fun _ hs => ?_
  obtain rfl := Except.ok.inj hs
  split
  · exact refl s
  · rename_i id hp
    have made : Session.StrokeBeside Murmur s
        ((s.onRegistry fun r => r.remove p).noted (.removed id p)) := .remove hp
    have told : KeepsTo Doings (do
        let name ← nameOf p
        debug ("Removed provider " ++ Text.quoted name) : Act Unit).run :=
      doings_of_murmur (keepsTo_bind (keepsTo_nameOf p) fun _ => murmur_lines _ rfl)
    exact .head made (told _)

theorem doings_dispose : KeepsTo Doings dispose.run := fun s =>
  .head (.dispose (s := s)) (doings_of_murmur (murmur_lines _ rfl) _)

end Broker

namespace Act

theorem doings_openContext (name : String) (surface : SurfaceId) (onChange : Value) :
    KeepsTo Doings (perform (.openContext name surface onChange)).run := by
  unfold perform
  exact keepsTo_bind (doings_of_murmur (murmur_openContext _ _)) fun c =>
    keepsTo_bind (doings_refurnish (fun f => { f with contexts := f.contexts.put name c })
      (.of_kept (fun _ => rfl) fun _ => rfl)) fun _ => keepsTo_pure _

theorem doings_settleRequest (p : ProviderId) (n : Nat) (e : Except Failure Settlement) :
    KeepsTo Doings (settleRequest p n e).run := by
  refine keepsTo_bind (keepsTo_bind keepsTo_get fun _ => keepsTo_pure _) fun r => ?_
  split
  · exact keepsTo_pure _
  · refine keepsTo_bind keepsTo_get fun _ => ?_
    split
    · exact keepsTo_bind (keepsTo_take _) fun e =>
        keepsTo_bind (doings_modifyLoop fun _ => .settle _ e) fun _ => keepsTo_pure _
    · exact keepsTo_pure _

theorem doings_startLint (target : LintTarget) (name : Option String) :
    KeepsTo Doings (startLint target name).run := by
  have context : KeepsTo Doings (targetContext target).run := by
    cases target with
    | opened name => exact keepsTo_bind keepsTo_get fun _ => keepsTo_expect _ _
    | surface id onChange => exact doings_of_murmur (murmur_openContext _ _)
  exact keepsTo_bind context fun c => keepsTo_bind keepsTo_get fun _ =>
    doings_modifyLoop fun _ => .spawn _ c

theorem doings_cancelTask (name : String) : KeepsTo Doings (cancelTask name).run := by
  refine keepsTo_bind keepsTo_get fun _ => keepsTo_bind (keepsTo_expect _ _) fun t =>
    keepsTo_bind keepsTo_get fun _ => ?_
  split
  · exact keepsTo_pure _
  · exact keepsTo_bind (doings_modifyLoop fun _ => .cancel t) fun _ => keepsTo_pure _

theorem doings_sharedSettings : KeepsTo Doings sharedSettings.run :=
  doings_of_murmur (keepsTo_sharedSettings murmur_lines murmur_settings)

theorem doings_setSetting (item : String) (v : Value) :
    KeepsTo Doings (setSetting item v).run :=
  keepsTo_bind doings_sharedSettings fun _ => keepsTo_bind (keepsTo_take _) fun _ =>
    keepsTo_bind (doings_settings _) fun _ => doings_of_murmur (murmur_lines _ rfl)

theorem doings_unsetSetting (item : String) : KeepsTo Doings (unsetSetting item).run :=
  keepsTo_bind doings_sharedSettings fun _ => keepsTo_bind (keepsTo_take _) fun _ =>
    doings_settings _

theorem doings_changeAttributes (p : ProviderId)
    (change : Attributes → Except Failure Attributes) :
    KeepsTo Doings (changeAttributes p change).run := by
  intro s
  change Doings s ((changeAttributes p change).exec s).2
  refine exec_bind_read exec_get (refl s) fun _ hs => ?_
  obtain rfl := Except.ok.inj hs
  cases hp : s.host.providers.get? p with
  | none => exact refl s
  | some x =>
    refine exec_bind_read (r := .ok x) rfl (refl s) fun _ hx => ?_
    obtain rfl := Except.ok.inj hx
    refine exec_bind_read (exec_take _) (refl s) fun a _ => ?_
    exact .single (.reshape a hp)

theorem doings_setVariable (name : String) (v : Option String) :
    KeepsTo Doings (perform (.setVariable name v)).run := by
  have changes (f : Setting.Environment → Setting.Environment) :
      KeepsTo Doings (modifyHost (·.refurnish fun x =>
        { x with environment := f x.environment })).run :=
    doings_refurnish _ (.of_kept (fun _ => rfl) fun _ => rfl)
  cases v with
  | none => exact doings_nothing (changes (·.erase name))
  | some text => exact doings_nothing (changes (·.put name text))

theorem doings_changeSurface (id : SurfaceId) (q : Surface.Question) (v : Value) :
    KeepsTo Doings (perform (.changeSurface id q v)).run := by
  unfold perform
  refine doings_nothing fun s => ?_
  refine exec_bind_read (P := Doings s) exec_get (refl s) fun _ hs => ?_
  obtain rfl := Except.ok.inj hs
  cases hx : s.host.surfaces.get? id with
  | none => exact refl s
  | some x => exact .single (.alter q v hx)

theorem doings_subscribe (x : Subscription) (token : String) :
    KeepsTo Doings (subscribe x token).run := fun _ => .single (.subscribe x token)

theorem doings_unsubscribe (token : String) : KeepsTo Doings (unsubscribe token).run := by
  refine keepsTo_bind keepsTo_get fun _ => ?_
  split
  · next x _ => exact fun _ => .single (.unsubscribe x)
  · exact keepsTo_pure _

theorem doings_changeIgnored (change : List Value → List Value) :
    KeepsTo Doings (changeIgnored change).run :=
  doings_refurnish (fun f =>
    { f with ignoreRule := f.ignoreRule.map fun r => { r with listed := change r.listed } })
    ⟨fun _ => rfl, change, fun _ => rfl⟩

/-! ### All actions -/

theorem doings_perform_registry : ∀ {a : Action}, a.concern = .registry →
    KeepsTo Doings (perform a).run
  | .add p legacy, _ => doings_nothing (Broker.doings_addProvider p legacy)
  | .remove p, _ => doings_nothing (Broker.doings_removeProvider p)
  | .dispose, _ => doings_nothing Broker.doings_dispose
  | .has _, _ =>
    keepsTo_bind (keepsTo_bind keepsTo_get fun _ => keepsTo_pure _) fun _ => keepsTo_pure _
  | .recordOf p, _ => by
    have asked : KeepsTo Doings (Broker.recordOf p).run := by
      refine keepsTo_bind keepsTo_get fun s => ?_
      split
      · exact keepsTo_pure _
      · exact keepsTo_throw _
    exact keepsTo_bind asked fun _ => keepsTo_pure _
  | .recordFields n, _ => by
    have asked : KeepsTo Doings (Broker.recordFields n).run := by
      refine keepsTo_bind keepsTo_get fun s => ?_
      split
      · exact doings_of_murmur (keepsTo_bind (keepsTo_attributes _) fun _ => keepsTo_pure _)
      · exact keepsTo_throw _
    exact keepsTo_bind asked fun _ => keepsTo_pure _

theorem doings_perform_bus : ∀ {a : Action}, a.concern = .bus → KeepsTo Doings (perform a).run
  | .subscribe x token, _ => doings_nothing (doings_subscribe x token)
  | .unsubscribe token, _ => doings_nothing (doings_unsubscribe token)

theorem doings_perform_tasks : ∀ {a : Action}, a.concern = .tasks → KeepsTo Doings (perform a).run
  | .lint target name, _ => doings_nothing (doings_startLint target name)
  | .resolve p n _, _ | .fail p n _, _ | .withdraw p n, _ => doings_settleRequest p n _
  | .cancel name, _ => keepsTo_bind (doings_cancelTask name) fun _ => keepsTo_pure _

theorem doings_perform_settings : ∀ {a : Action}, a.concern = .settings →
    KeepsTo Doings (perform a).run
  | .setUp, _ => doings_nothing (doings_of_murmur (keepsTo_bind (murmur_lines _ rfl) fun _ =>
      keepsTo_ensureSettings murmur_lines murmur_settings))
  | .setSetting item v, _ => doings_nothing (doings_setSetting item v)
  | .unsetSetting item, _ => doings_nothing (doings_unsetSetting item)
  | .getSetting item, _ =>
    have asked := keepsTo_readShared murmur_lines murmur_settings item
    keepsTo_bind (doings_of_murmur asked) fun _ => keepsTo_pure _

theorem doings_perform_host : ∀ {a : Action}, a.concern = .host → KeepsTo Doings (perform a).run
  | .openContext name surface onChange, _ => doings_openContext name surface onChange
  | .setVariable name v, _ => doings_setVariable name v
  | .changeSurface id q v, _ => doings_changeSurface id q v
  | .setAttribute p _ _, _ | .deleteAttribute p _, _ => doings_nothing (doings_changeAttributes p _)
  | .ignorePath _, _ | .noticePath _, _ => doings_nothing (doings_changeIgnored _)

mutual

/-- Performing an action comes down to strokes, and to murmurs among them. -/
theorem doings_perform : ∀ a : Action, KeepsTo Doings (perform a).run
  | .add .. | .remove _ | .has _ | .recordOf _ | .recordFields _ | .dispose =>
    doings_perform_registry rfl
  | .subscribe .. | .unsubscribe _ => doings_perform_bus rfl
  | .lint .. | .resolve .. | .fail .. | .withdraw .. | .cancel _ => doings_perform_tasks rfl
  | .setUp | .setSetting .. | .unsetSetting _ | .getSetting _ => doings_perform_settings rfl
  | .openContext .. | .setVariable .. | .changeSurface .. | .setAttribute ..
  | .deleteAttribute .. | .ignorePath _ | .noticePath _ => doings_perform_host rfl
  | .raise f => keepsTo_throw f
  | .pass => keepsTo_pure _
  | .batch actions => keepsTo_bind (doings_performAll actions) fun _ => keepsTo_pure _

theorem doings_performAll : ∀ actions : List Action, KeepsTo Doings (performAll actions).run
  | [] => keepsTo_pure _
  | a :: rest => keepsTo_bind (keepsTo_attempt (doings_perform a)) fun _ =>
      keepsTo_bind (doings_performAll rest) fun _ => keepsTo_pure _

end

theorem strokes_perform (a : Action) : KeepsTo Strokes (perform a).run :=
  (doings_perform a).mono fun _ _ => Doings.strokes

/-- No action is of a task's proceedings. -/
theorem aside_perform (a : Action) : KeepsTo Aside (perform a).run :=
  (doings_perform a).mono fun _ _ => Strokes.keep fun _ _ => StrokeBeside.aside

/-- Performing an action makes changes, in a silent stretch. -/
theorem deeds_perform (a : Action) : KeepsTo Deeds (perform a).run :=
  (strokes_perform a).mono fun _ _ => Strokes.keep fun _ _ => Stroke.deeds

/-- Performing an action makes changes alone. -/
theorem changes_perform (a : Action) : KeepsTo Changes (perform a).run :=
  (deeds_perform a).mono fun _ _ => Deeds.changes

end Act

/-- A script changes what its actions change. -/
theorem Script.keepsTo_run {R : Session → Session → Prop} [IsPreorder Session R] {α ρ : Type}
    {perform : α → StateM Session (Except Failure ρ)} (h : ∀ a, KeepsTo R (perform a)) :
    ∀ (c : Script α ρ) (n : Notice), KeepsTo R (c.run perform n)
  | .done, n => .pure _
  | .fail f, n => .pure _
  | .act a next, n => .bind (h a) fun r => keepsTo_run h (next r) n
  | .append v next, n => by
    unfold Script.run
    split
    · exact keepsTo_run h _ _
    · exact keepsTo_run h _ _

/-- A delivery changes what the calls of listeners and the reports change. -/
theorem keepsTo_deliverAll {R : Session → Session → Prop} [IsPreorder Session R]
    {call : ListenerId → Notice → StateM Session (Notice × Except Failure Unit)}
    {report : ListenerId → Failure → StateM Session Unit} (hc : ∀ l n, KeepsTo R (call l n))
    (hr : ∀ l f, KeepsTo R (report l f)) (audience : List ListenerId) (n : Notice) :
    KeepsTo R (deliverAll call report audience n) := by
  induction audience generalizing n with
  | nil => exact .pure _
  | cons l rest ih =>
    refine .bind (hc l n) fun (n', r) => ?_
    cases r with
    | ok _ => exact ih n'
    | error f =>
      dsimp only
      split
      · exact .bind (hr l f) fun _ => ih n'
      · exact .pure _

namespace Act

/-- The call of a listener keeps to what its entries, the count of its deliveries and all actions
keep to. -/
theorem keepsTo_call_of {R : Session → Session → Prop} [IsPreorder Session R]
    {handling : Option Failure} {d : Dispatch} {l : ListenerId} {n : Notice}
    (delivered : KeepsTo R (note (.delivered l n)).run) (heard : KeepsTo R (note (.heard d l n)).run)
    (counts : ∀ k, KeepsTo R
      (modifyHost fun h => { h with deliveries := h.deliveries.put l k } : Act Unit).run)
    (performs : ∀ a, KeepsTo R (perform a).run) : KeepsTo R (call handling d l n) := by
  refine .bind delivered fun _ => .bind heard fun _ => .bind (fun s => refl s) fun s => ?_
  split
  · exact .pure _
  · refine .bind (fun s => refl s) fun _ => .bind (counts _) fun _ =>
      .bind (Script.keepsTo_run (fun a => keepsTo_during _ (performs a)) _ _) fun (n', r) => ?_
    dsimp only
    split
    · exact .pure _
    · exact .pure _

theorem changes_call (handling : Option Failure) (d : Dispatch) (l : ListenerId) (n : Notice) :
    KeepsTo Changes (call handling d l n) :=
  keepsTo_call_of (fun _ => .single (.note rfl)) (fun _ => .single (.note rfl))
    (fun _ _ => .single (.host _ rfl rfl rfl)) changes_perform

theorem aside_call (handling : Option Failure) (d : Dispatch) (l : ListenerId) (n : Notice) :
    KeepsTo Aside (call handling d l n) :=
  keepsTo_call_of (aside_noted rfl) (aside_noted rfl) (fun _ _ => rfl) aside_perform

/-- A listener is called, and the listeners that are left if its outcome lets them. -/
theorem run_deliverAll_cons {handling : Option Failure} {d : Dispatch} {kind : NoticeKind}
    {l : ListenerId} {rest : List ListenerId} {n n' : Notice} {s s₁ : Session}
    {r : Except Failure Unit} (called : (call handling d l n).run s = ((n', r), s₁)) :
    (deliverAll (call handling d) (reportListener kind) (l :: rest) n).run s =
      match r with
      | .ok () => (deliverAll (call handling d) (reportListener kind) rest n').run s₁
      | .error f =>
        if f.isOrdinary then
          (deliverAll (call handling d) (reportListener kind) rest n').run
            ((reportListener kind l f).run s₁).2
        else (.error f, s₁) := by
  have calls : (call handling d l n).run s = pure ((n', r), s₁) := called
  simp only [deliverAll, StateT.run_bind, calls, pure_bind]
  cases r with
  | ok _ => rfl
  | error f =>
    dsimp only
    split <;> rfl

/-- An emission writes its notice into the journal; all that follows is changes. -/
theorem changes_emit (handling : Option Failure) (d : Dispatch) (n : Notice) (s : Session) :
    Changes (s.noted (.emitted d n)) ((emit handling d n).exec s).2 :=
  keepsTo_deliverAll (changes_call handling d)
    (fun _ _ => .bind ((quiet_reportFault _ _).mono fun _ _ => Quiet.changes) fun _ => .pure _) _ n _

/-- All that an emission adds to the proceedings is its notice, whatever listeners do. -/
theorem proceedings_emit (handling : Option Failure) (d : Dispatch) (n : Notice) (s : Session) :
    ((emit handling d n).exec s).2.proceedings = s.proceedings ++ [.emitted d n] := by
  have lines (e : Entry) (h : e.isLine = true) : KeepsTo Aside (note e).run :=
    aside_noted (Entry.isProceeding_of_isLine h)
  have calls : (s.noted (.emitted d n)).Aside ((emit handling d n).exec s).2 :=
    keepsTo_deliverAll (aside_call handling d)
      (fun _ _ => .bind (keepsTo_reportFault lines _ _) fun _ => .pure _) _ n _
  rw [calls, proceedings_noted]
  rfl

end Act
end LintBroker

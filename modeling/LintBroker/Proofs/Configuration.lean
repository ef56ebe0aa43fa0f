import LintBroker.Proofs.DispatchWalk

/-!
# Settings as lints read them

Whether an edit is linted is decided by settings, by the rule for ignored paths and by the surface.
To read a setting does not change what any setting reads as; so if the settings can be read, and
what they read as can be used, then the edit is decided about.
-/
namespace LintBroker
namespace Setting

theorem readDefault_congr (schema : Schema) {cache cache' : MadeDefaults} {item : String}
    (kept : cache'.kept.get? item = cache.kept.get? item)
    (calls : cache'.calls.get? item = cache.calls.get? item) :
    (readDefault schema cache' item).1 = (readDefault schema cache item).1 := by
  unfold readDefault MadeDefaults.make
  rw [kept, calls]
  cases cache.kept.get? item with
  | some v => rfl
  | none =>
    cases schema.get? item with
    | none => rfl
    | some d =>
      dsimp only
      cases d.default <;> rfl

/-- A default that has been read goes on reading as it did, and so do all others. -/
theorem readDefault_readDefault (schema : Schema) (cache : MadeDefaults) (other item : String) :
    (readDefault schema (readDefault schema cache other).2 item).1 =
      (readDefault schema cache item).1 := by
  have filled : (readDefault schema cache other).2 = cache ∨ ∃ v n,
      (readDefault schema cache other).2 =
          { kept := cache.kept.put other v, calls := cache.calls.put other n } ∧
        (readDefault schema cache other).1 = .ok (v, .cache) := by
    unfold readDefault
    cases cache.kept.get? other with
    | some v => exact .inl rfl
    | none =>
      cases schema.get? other with
      | none => exact .inl rfl
      | some d =>
        dsimp only
        cases d.default with
        | made factory => exact .inr ⟨_, _, rfl, rfl⟩
        | _ => exact .inl rfl
  rcases filled with same | ⟨v, n, put, read⟩
  · rw [same]
  · rw [put]
    by_cases same : other = item
    · subst same
      rw [read, readDefault, Table.get?_put, if_pos rfl]
    · exact readDefault_congr schema (by rw [Table.get?_put, if_neg same])
        (by rw [Table.get?_put, if_neg same])

namespace Store

theorem snd_locate (s : Store) (env : Environment) (item : String) :
    (s.locate env item).2 = s ∨
      (s.locate env item).2 = { s with cache := (readDefault s.schema s.cache item).2 } := by
  unfold locate
  split
  · exact .inl rfl
  · split
    · exact .inl rfl
    · split
      · exact .inl rfl
      · exact .inl rfl
      · exact .inr rfl

theorem locate_withCache (s : Store) (env : Environment) {item : String} {cache : MadeDefaults}
    (h : (readDefault s.schema cache item).1 = (readDefault s.schema s.cache item).1) :
    ({ s with cache }.locate env item).1 = (s.locate env item).1 := by
  have declared : { s with cache }.declared item = s.declared item := rfl
  have layers : { s with cache }.layers env item = s.layers env item := rfl
  unfold locate
  rw [declared, layers]
  cases s.declared item with
  | error f => rfl
  | ok d =>
    dsimp only
    split
    · rfl
    · cases firstFound (s.layers env item) with
      | error f => rfl
      | ok found =>
        cases found with
        | some found => rfl
        | none => exact h

/-- To read a setting does not change what any setting reads as. -/
theorem get_get (s : Store) (env : Environment) (other item : String) :
    ((s.get env other).2.get env item).1 = (s.get env item).1 := by
  show ((s.locate env other).2.locate env item).1.map Prod.fst = (s.locate env item).1.map Prod.fst
  rcases s.snd_locate env other with same | filled
  · rw [same]
  · rw [filled, locate_withCache s env (readDefault_readDefault s.schema s.cache other item)]

end Store
end Setting

namespace Session
variable {s s' : Session}

/-- The shared settings; if they have not been needed yet, as they will be made. -/
def store (s : Session) : Setting.Store := s.settings.getD { s.template with ready := true }

def settingOf (s : Session) (item : String) : Except Failure Value :=
  match s.source with
  | .given read => read item
  | .shared => (s.store.get s.host.environment item).1
  | .lacking _ f => .error f

/-- What was done is quiet, and the settings read as they did. -/
structure Unmoved (s s' : Session) : Prop where
  quiet : Quiet s s'
  settings : ∀ item, s'.settingOf item = s.settingOf item

instance : IsPreorder Session Unmoved where
  refl s := ⟨.refl s, fun _ => rfl⟩
  trans _ _ _ h h' := ⟨h.quiet.trans h'.quiet, fun item => (h'.settings item).trans (h.settings item)⟩

theorem Unmoved.of_reads (quiet : Quiet s s') (reads : ∀ item,
    (s'.store.get s.host.environment item).1 = (s.store.get s.host.environment item).1) :
    s.Unmoved s' := by
  refine ⟨quiet, fun item => ?_⟩
  have same := reads item
  obtain ⟨settings, es, _, rfl⟩ := quiet
  unfold settingOf
  cases hs : s.source with
  | shared => exact same
  | _ => rfl

/-- Why there are no settings to read, if they are lacking. -/
def lack (s : Session) : Option Failure :=
  match s.source with
  | .lacking _ f => some f
  | _ => none

theorem lack_eq_none_of_settingOf {item : String} {v : Value} (h : s.settingOf item = .ok v) :
    s.lack = none := by
  unfold settingOf at h
  unfold lack
  split at h
  · simp [*]
  · simp [*]
  · cases h

end Session

open Session

/-! ### Questions that are answered -/

namespace Act
variable {α β : Type} {s s' : Session} {path : Value}

/-- The computation comes to a value, and leaves the session unmoved. -/
def Yields (m : Act α) (s : Session) : Prop := ∃ a s', m.exec s = (.ok a, s') ∧ s.Unmoved s'

theorem Yields.pure (a : α) (s : Session) : (pure a : Act α).Yields s := ⟨a, s, rfl, refl s⟩

theorem Yields.bind {m : Act α} {f : α → Act β} (h : m.Yields s)
    (go : ∀ a s', m.exec s = (.ok a, s') → s.Unmoved s' → (f a).Yields s') : (m >>= f).Yields s := by
  obtain ⟨a, s', he, still⟩ := h
  obtain ⟨b, s'', hf, still'⟩ := go a s' he still
  exact ⟨b, s'', (exec_bind_ok he).trans hf, IsTrans.trans _ _ _ still still'⟩

theorem Yields.note {e : Entry} (h : e.isQuiet = true) (s : Session) : (note e).Yields s :=
  ⟨(), s.noted e, rfl, .of_reads (.push h s) fun _ => rfl⟩

theorem Yields.take {r : Except Failure α} (h : ∃ a, r = .ok a) (s : Session) :
    (take r).Yields s := by
  obtain ⟨a, rfl⟩ := h
  exact .pure a s

theorem Yields.bind_get {f : Session → Act β} (h : (f s).Yields s) : (get >>= f).Yields s := h

/-- The shared settings are what they will be made as, and stay that. -/
theorem exec_sharedSettings (h : s.lack = none) :
    ∃ s', sharedSettings.exec s = (.ok s.store, s') ∧ s.Unmoved s' ∧ s'.store = s.store := by
  have shared : sharedSettings.exec s = madeSettings.exec s := by
    rw [sharedSettings, exec_bind_ok exec_get]
    cases hs : s.source with
    | lacking lines f => simp [lack, hs] at h
    | _ => rfl
  have made : (madeSettings.exec s).1 = .ok s.store ∧ (madeSettings.exec s).2.store = s.store := by
    unfold madeSettings Session.store
    rw [exec_bind_ok exec_get]
    cases hs : s.settings with
    | some store => exact ⟨rfl, by simp [hs]⟩
    | none => exact ⟨rfl, rfl⟩
  rw [← shared] at made
  exact ⟨_, Prod.ext made.1 rfl, .of_reads (quiet_sharedSettings s) fun _ => by rw [made.2], made.2⟩

/-- Shared settings that are lacking cannot be had, and to ask for them moves nothing. -/
theorem exec_sharedSettings_of_lack {f : Failure} (h : s.lack = some f) :
    ∃ s', sharedSettings.exec s = (.error f, s') ∧ s.Unmoved s' := by
  unfold lack at h
  split at h
  · next lines g source =>
    obtain rfl : g = f := Option.some.inj h
    have still : s.Unmoved (sharedSettings.exec s).2 := by
      have quiet : Quiet s (sharedSettings.exec s).2 := quiet_sharedSettings s
      refine ⟨quiet, fun item => ?_⟩
      obtain ⟨settings, es, _, after⟩ := quiet
      rw [after]
      simp only [settingOf, source]
    refine ⟨_, Prod.ext ?_ rfl, still⟩
    obtain ⟨s', written⟩ : ∃ s', (lines.forM debug).exec s = (.ok (), s') :=
      ⟨_, Prod.ext (exec_forM_lines (fun _ _ => rfl) lines s) rfl⟩
    rw [sharedSettings, exec_bind_ok exec_get, source]
    show ((do lines.forM debug; throw g : Act Setting.Store).exec s).1 = .error g
    rw [exec_bind_ok written]
    rfl
  · cases h

theorem yields_ensureSettings (h : s.lack = none) : ensureSettings.Yields s := by
  refine .bind_get ?_
  split
  · exact .pure _ s
  · obtain ⟨s', he, still, _⟩ := exec_sharedSettings h
    exact .bind ⟨_, s', he, still⟩ fun _ s' _ _ => .pure _ s'

theorem exec_readShared (item : String) (h : s.lack = none) : ∃ s',
    (readShared item).exec s = ((s.store.get s.host.environment item).1, s') ∧ s.Unmoved s' := by
  obtain ⟨s₁, he, still, kept⟩ := exec_sharedSettings h
  let store := (s.store.get s.host.environment item).2
  refine ⟨{ s₁ with settings := some store }, ?_, IsTrans.trans _ _ _ still
    (.of_reads (.withSettings s₁ _) fun other => ?_)⟩
  · have env : s₁.host.environment = s.host.environment := by rw [still.quiet.host]
    rw [readShared, exec_bind_ok he, exec_bind_ok exec_get, env]
    rfl
  · rw [kept, still.quiet.host]
    exact s.store.get_get s.host.environment item other

/-- To read a setting gives what it reads as, and moves nothing. -/
theorem exec_setting (item : String) (s : Session) :
    ∃ s', (setting item).exec s = (s.settingOf item, s') ∧ s.Unmoved s' := by
  have asked : s.Unmoved (s.noted (.settingAsked item)) := .of_reads (.push rfl s) fun _ => rfl
  rw [setting, exec_bind_ok (exec_note _), exec_bind_ok exec_get]
  cases hs : s.source with
  | given read =>
    have source : (s.noted (.settingAsked item)).source = .given read := hs
    refine ⟨_, ?_, asked⟩
    rw [source, settingOf, hs]
    rfl
  | shared =>
    have source : (s.noted (.settingAsked item)).source = .shared := hs
    obtain ⟨s', he, still⟩ := exec_readShared item (s := s.noted (.settingAsked item))
      (by rw [lack, source])
    refine ⟨s', ?_, IsTrans.trans _ _ _ asked still⟩
    rw [source, settingOf, hs]
    exact he
  | lacking lines f =>
    have source : (s.noted (.settingAsked item)).source = .lacking lines f := hs
    obtain ⟨s', he, still⟩ := exec_sharedSettings_of_lack (s := s.noted (.settingAsked item))
      (f := f) (by rw [lack, source])
    refine ⟨s', ?_, IsTrans.trans _ _ _ asked still⟩
    rw [source, settingOf, hs]
    exact exec_bind_error he

theorem Yields.bind_setting {item : String} {v : Value} {f : Value → Act β}
    (h : s.settingOf item = .ok v) (go : ∀ s', s.Unmoved s' → (f v).Yields s') :
    (setting item >>= f).Yields s := by
  obtain ⟨s', he, still⟩ := exec_setting item s
  rw [h] at he
  refine .bind ⟨v, s', he, still⟩ fun w s'' hw still' => ?_
  obtain ⟨hv, rfl⟩ := Prod.mk.inj (he.symm.trans hw)
  obtain rfl := Except.ok.inj hv
  exact go _ still'

theorem yields_askIgnored (rule : ∀ r, s.host.ignoreRule = some r → ∃ v, ruleAnswer r path = .ok v) :
    (askIgnored path).Yields s := by
  refine .bind_get ?_
  split
  · rename_i r hr
    split
    · exact .bind (.note rfl s) fun _ s' _ _ => .take (rule r hr) s'
    · exact .pure _ s
  · exact .pure _ s

theorem yields_askSurface {id : SurfaceId} {q : Surface.Question}
    (h : ∃ v, s.answerOf id q = .ok v) : (askSurface id q).Yields s := by
  obtain ⟨v, hv⟩ := h
  have still : KeepsTo Unmoved (askSurface id q).run :=
    keepsTo_askSurface fun s => .of_reads (.push rfl s) fun _ => rfl
  exact ⟨v, _, Prod.ext ((Dispatch.exec_askSurface id q s).trans hv) rfl, still s⟩

end Act

namespace Session
variable {s s' : Session} {path : Value}

/-- The settings that lints read. -/
def lintSettings : List String :=
  ["ignored_glob", "ignore_vcs_ignored_paths", "lint_on_fly", "lint_preview_tabs",
    "disabled_providers"]

/-- It can be decided whether the path is linted. The settings can be used as they read now: each is
there, the glob of ignored paths can be tested on the path, and the names of disabled providers can be
gathered. And the rule for ignored paths answers. -/
structure Configured (s : Session) (path : Value) : Prop where
  reads : ∀ item ∈ lintSettings, ∃ v, s.settingOf item = .ok v
  glob : ∀ v, s.settingOf "ignored_glob" = .ok v → v.truthy = true →
    ∃ b, Gate.globMatches v path = .ok b
  disabled : ∀ v, s.settingOf "disabled_providers" = .ok v → v.truthy = true →
    ∃ names, v.distinctItems = .ok names
  rule : ∀ r, s.host.ignoreRule = some r → ∃ v, Act.ruleAnswer r path = .ok v

theorem Configured.lack_eq_none (h : s.Configured path) : s.lack = none := by
  obtain ⟨v, hv⟩ := h.reads "ignored_glob" (by simp [lintSettings])
  exact lack_eq_none_of_settingOf hv

theorem Configured.unmoved (h : s.Configured path) (still : s.Unmoved s') : s'.Configured path where
  reads item hi := by rw [still.settings]; exact h.reads item hi
  glob v hv := h.glob v (by rw [← still.settings]; exact hv)
  disabled v hv := h.disabled v (by rw [← still.settings]; exact hv)
  rule r hr := h.rule r (by rw [← still.quiet.host]; exact hr)

end Session

namespace Gate
open Act
variable {s : Session} {path : Value}

theorem yields_globExcludes (h : s.Configured path) : (globExcludes path).Yields s := by
  obtain ⟨v, hv⟩ := h.reads "ignored_glob" (by simp [lintSettings])
  refine .bind_setting hv fun s₁ _ => ?_
  cases truthy : v.truthy with
  | false => exact .pure _ s₁
  | true =>
    refine .bind (.take (h.glob v hv truthy) s₁) fun b s₂ _ _ => ?_
    split
    · exact .bind (.note rfl s₂) fun _ s₃ _ _ => .pure _ s₃
    · exact .pure _ s₂

theorem yields_rulesExclude (h : s.Configured path) : (rulesExclude path).Yields s := by
  obtain ⟨v, hv⟩ := h.reads "ignore_vcs_ignored_paths" (by simp [lintSettings])
  refine .bind_setting hv fun s₁ still => ?_
  split
  · exact .pure _ s₁
  · refine .bind (yields_askIgnored (h.unmoved still).rule) fun ignored s₂ _ _ => ?_
    split
    · exact .bind (.note rfl s₂) fun _ s₃ _ _ => .pure _ s₃
    · exact .pure _ s₂

theorem yields_isPathIgnored (h : s.Configured path) : (isPathIgnored path).Yields s := by
  refine .bind (yields_globExcludes h) fun excluded s₁ _ still => ?_
  split
  · exact .pure _ s₁
  · exact yields_rulesExclude (h.unmoved still)

theorem yields_changeAllowed (h : s.Configured path) : (changeAllowed path).Yields s := by
  obtain ⟨v, hv⟩ := h.reads "lint_on_fly" (by simp [lintSettings])
  refine .bind_setting hv fun s₁ _ => ?_
  split
  · exact .pure _ s₁
  · exact .bind (.note rfl s₁) fun _ s₂ _ _ => .pure _ s₂

theorem yields_previewAllowed {context : EditContext} (h : s.Configured path)
    (surface : ∃ v, s.answerOf context.surface .pendingPreview = .ok v) :
    (previewAllowed context).Yields s := by
  obtain ⟨v, hv⟩ := h.reads "lint_preview_tabs" (by simp [lintSettings])
  refine .bind (yields_askSurface surface) fun pending s₁ _ still => ?_
  split
  · exact .pure _ s₁
  · refine .bind_setting ((still.settings _).trans hv) fun s₂ _ => ?_
    split
    · exact .pure _ s₂
    · exact .bind (.note rfl s₂) fun _ s₃ _ _ => .pure _ s₃

/-- An edit is decided about if its path can be, and its surface answers. -/
theorem yields_shouldLint {context : EditContext} (h : s.Configured context.filePath)
    (surface : ∃ v, s.answerOf context.surface .pendingPreview = .ok v) :
    (shouldLint context).Yields s := by
  unfold shouldLint
  split
  · exact .bind (.note rfl s) fun _ s₁ _ _ => .pure _ s₁
  · refine .bind (yields_isPathIgnored h) fun ignored s₁ _ still => ?_
    split
    · exact .pure _ s₁
    · split
      · exact yields_changeAllowed (h.unmoved still)
      · exact yields_previewAllowed (h.unmoved still) (by rw [still.quiet.answerOf]; exact surface)

end Gate

namespace Round
open Act

theorem yields_disabledNames {s : Session} {path : Value} (h : s.Configured path) :
    disabledNames.Yields s := by
  obtain ⟨v, hv⟩ := h.reads "disabled_providers" (by simp [lintSettings])
  refine .bind_setting hv fun s₁ _ => ?_
  cases truthy : v.truthy with
  | false => exact .pure _ s₁
  | true => exact .take (h.disabled v hv truthy) s₁

end Round
end LintBroker

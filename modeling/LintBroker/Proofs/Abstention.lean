import LintBroker.Proofs.Returns
import LintBroker.Proofs.Selection
import LintBroker.Proofs.Verdicts

/-!
# Lints that come to no round

A lint may end before it turns to the providers: the gate turns the edit away, or a collaborator
that is asked before that fails. What is done until then depends on the settings, the surfaces and
the rule for ignored paths alone, and leaves nothing but settings that were made, and questions and
lines in the journal. Any two sessions that are alike in what is asked go the same way, whatever
their providers, matcher, registrations, listeners and tasks are: so none of these was looked at or
changed.
-/
namespace LintBroker
open Session Act

/-- Whether an entry is a line, or a question that a lint asks before it turns to the providers. -/
def Entry.isPreliminary : Entry → Bool
  | .settingAsked _ => true
  | e => e.isOfGate

namespace Session

/-- The sessions are alike in what a lint asks before it turns to the providers. -/
structure Resembles (s w : Session) : Prop where
  source : w.source = s.source
  template : w.template = s.template
  settings : w.settings = s.settings
  surfaces : w.host.surfaces = s.host.surfaces
  ignoreRule : w.host.ignoreRule = s.host.ignoreRule
  environment : w.host.environment = s.host.environment
  disposed : w.registry.disposed = s.registry.disposed

theorem resembles_self (s : Session) : s.Resembles s := ⟨rfl, rfl, rfl, rfl, rfl, rfl, rfl⟩

/-- The session with settings made and entries written. -/
def marked (s : Session) (settings : Option Setting.Store) (es : Array Entry) : Session :=
  { s with settings, journal := s.journal ++ es }

theorem Resembles.marked {s w : Session} (h : s.Resembles w) (settings : Option Setting.Store)
    (es : Array Entry) : (s.marked settings es).Resembles (w.marked settings es) :=
  ⟨h.source, h.template, rfl, h.surfaces, h.ignoreRule, h.environment, h.disposed⟩

end Session

/-! ### Computations that look at no more -/

namespace Act
variable {α β : Type} {s : Session}

/-- In every session that resembles this one the computation comes to the same result, makes the same
settings and writes the same entries, which are preliminary; and it does no more. -/
def Aloof (m : Act α) (s : Session) (r : Except Failure α) : Prop :=
  ∃ settings es, (∀ e ∈ es, e.isPreliminary = true) ∧
    ∀ w, s.Resembles w → m.exec w = (r, w.marked settings es)

namespace Aloof

theorem result {m : Act α} {r : Except Failure α} (h : Aloof m s r) : (m.exec s).1 = r := by
  obtain ⟨_, _, _, same⟩ := h
  rw [same s s.resembles_self]

theorem take (r : Except Failure α) (s : Session) : Aloof (take r) s r :=
  ⟨s.settings, #[], by simp, fun w h => by simp [marked, ← h.settings]⟩

theorem pure (a : α) (s : Session) : Aloof (pure a) s (.ok a) := take (.ok a) s

theorem throw (f : Failure) (s : Session) : Aloof (throw f : Act α) s (.error f) := take (.error f) s

theorem note {e : Entry} (h : e.isPreliminary = true) (s : Session) : Aloof (note e) s (.ok ()) :=
  ⟨s.settings, #[e], by simpa using h, fun w like => by simp [marked, noted, ← like.settings]⟩

theorem settings (x : Option Setting.Store) (s : Session) :
    Aloof (modify fun s => { s with settings := x } : Act PUnit) s (.ok ()) :=
  ⟨x, #[], by simp, fun w _ => by simp [marked]⟩

end Aloof

/-- Whatever the session is like, the computation is aloof. -/
def StandsOff (m : Act α) : Prop := ∀ s, Aloof m s (m.exec s).1

namespace StandsOff

theorem of_aloof {m : Act α} (h : ∀ s, ∃ r, Aloof m s r) : StandsOff m := by
  intro s
  obtain ⟨r, hr⟩ := h s
  rw [hr.result]
  exact hr

theorem take (r : Except Failure α) : StandsOff (take r) := fun s => .take r s
theorem pure (a : α) : StandsOff (pure a) := fun s => .pure a s
theorem throw (f : Failure) : StandsOff (throw f : Act α) := fun s => .throw f s
theorem note {e : Entry} (h : e.isPreliminary = true) : StandsOff (note e) := fun s => .note h s

theorem settings (x : Option Setting.Store) :
    StandsOff (modify fun s => { s with settings := x } : Act PUnit) := fun s => .settings x s

/-- What comes next finds sessions that still resemble each other. -/
theorem bind {m : Act α} {f : α → Act β} (h : StandsOff m) (hf : ∀ a, StandsOff (f a)) :
    StandsOff (m >>= f) := by
  refine of_aloof fun s => ?_
  obtain ⟨x, es, quiet, same⟩ := h s
  cases hr : (m.exec s).1 with
  | error e => exact ⟨.error e, x, es, quiet, fun w like => exec_bind_error (hr ▸ same w like)⟩
  | ok a =>
    obtain ⟨x', es', quiet', same'⟩ := hf a (s.marked x es)
    refine ⟨((f a).exec (s.marked x es)).1, x', es ++ es', fun e he => ?_, fun w like => ?_⟩
    · exact (Array.mem_append.mp he).elim (quiet e) (quiet' e)
    · rw [exec_bind_ok (hr ▸ same w like), same' _ (like.marked x es)]
      simp [marked, Array.append_assoc]

/-- A computation may look at its session if it sees the same in all that resemble it. -/
theorem get {f : Session → Act β} (alike : ∀ s w, s.Resembles w → f w = f s)
    (hf : ∀ s, StandsOff (f s)) : StandsOff (MonadState.get >>= f) := by
  refine of_aloof fun s => ?_
  obtain ⟨x, es, quiet, same⟩ := hf s s
  refine ⟨((f s).exec s).1, x, es, quiet, fun w like => ?_⟩
  show (f w).exec w = _
  rw [alike s w like]
  exact same w like

theorem forM {write : String → Act PUnit} (h : ∀ x, StandsOff (write x)) (lines : List String) :
    StandsOff (lines.forM write) := by
  induction lines with
  | nil => exact pure _
  | cons x lines ih => exact bind (h x) fun _ => ih

theorem debug (text : String) : StandsOff (debug text) := note rfl

end StandsOff

theorem standsOff_madeSettings : StandsOff madeSettings := by
  refine .get (fun s w like => by simp only [like.settings]) fun s => ?_
  split
  · exact .pure _
  · refine .get (fun s w like => by simp only [like.template]) fun s => ?_
    exact .bind (.debug _) fun _ => .bind (.debug _) fun _ => .bind (.settings _) fun _ => .pure _

theorem standsOff_sharedSettings : StandsOff sharedSettings := by
  refine .get (fun s w like => by simp only [like.source]) fun s => ?_
  split
  · exact .bind (.forM .debug _) fun _ => .throw _
  · exact standsOff_madeSettings

theorem standsOff_ensureSettings : StandsOff ensureSettings := by
  refine .get (fun s w like => by simp only [like.source]) fun s => ?_
  split
  · exact .pure _
  · exact .bind standsOff_sharedSettings fun _ => .pure _

theorem standsOff_setting (item : String) : StandsOff (setting item) := by
  refine .bind (.note rfl) fun _ => .get (fun s w like => by simp only [like.source]) fun s => ?_
  split
  · exact .take _
  · refine .bind standsOff_sharedSettings fun store => ?_
    refine .get (fun s w like => by simp only [like.environment]) fun s => ?_
    exact .bind (.settings _) fun _ => .take _

theorem standsOff_askIgnored (path : Value) : StandsOff (askIgnored path) := by
  refine .get (fun s w like => by simp only [like.ignoreRule]) fun s => ?_
  split
  · split
    · exact .bind (.note rfl) fun _ => .take _
    · exact .pure _
  · exact .pure _

theorem standsOff_askPreview (id : SurfaceId) : StandsOff (askSurface id .pendingPreview) := by
  refine .get (fun s w like => by simp only [like.surfaces]) fun s => ?_
  refine .bind ?_ fun _ => .bind (.note rfl) fun _ => .take _
  unfold expect
  split
  · exact .pure _
  · exact .throw _

end Act

namespace Gate

theorem standsOff_globExcludes (path : Value) : StandsOff (globExcludes path) := by
  refine .bind (standsOff_setting _) fun _ => ?_
  split
  · exact .pure _
  · refine .bind (.take _) fun _ => ?_
    split
    · exact .bind (.debug _) fun _ => .pure _
    · exact .pure _

theorem standsOff_rulesExclude (path : Value) : StandsOff (rulesExclude path) := by
  refine .bind (standsOff_setting _) fun _ => ?_
  split
  · exact .pure _
  · refine .bind (standsOff_askIgnored path) fun _ => ?_
    split
    · exact .bind (.debug _) fun _ => .pure _
    · exact .pure _

theorem standsOff_isPathIgnored (path : Value) : StandsOff (isPathIgnored path) := by
  refine .bind (standsOff_globExcludes path) fun _ => ?_
  split
  · exact .pure _
  · exact standsOff_rulesExclude path

theorem standsOff_changeAllowed (path : Value) : StandsOff (changeAllowed path) := by
  refine .bind (standsOff_setting _) fun _ => ?_
  split
  · exact .pure _
  · exact .bind (.debug _) fun _ => .pure _

theorem standsOff_previewAllowed (c : EditContext) : StandsOff (previewAllowed c) := by
  refine .bind (standsOff_askPreview _) fun _ => ?_
  split
  · exact .pure _
  · refine .bind (standsOff_setting _) fun _ => ?_
    split
    · exact .pure _
    · exact .bind (.debug _) fun _ => .pure _

theorem standsOff_shouldLint (c : EditContext) : StandsOff (shouldLint c) := by
  unfold shouldLint
  split
  · exact .bind (.debug _) fun _ => .pure _
  · refine .bind (standsOff_isPathIgnored _) fun _ => ?_
    split
    · exact .pure _
    · split
      · exact standsOff_changeAllowed _
      · exact standsOff_previewAllowed c

end Gate

/-! ### How a lint fares before it turns to the providers -/

namespace Answers
variable {α β : Type} {A : Answers} {c : EditContext}

/-- A failure of something that was consulted is the failure of the deliberation. -/
def Heeds (A : Answers) (d : Deliberation α) : Prop :=
  ∀ q ∈ d.asked, ∀ f, A q = .error f → d.result = .error f

theorem heeds_given (r : Except Failure α) : A.Heeds (.given r) := by simp [Heeds, Deliberation.given]

theorem heeds_pure (a : α) : A.Heeds (pure a) := heeds_given (.ok a)

theorem heeds_consult (q : Consultation) : A.Heeds (A.consult q) := by
  simp [Heeds, consult]

theorem Heeds.bind {d : Deliberation α} {f : α → Deliberation β} (h : A.Heeds d)
    (hf : ∀ a, A.Heeds (f a)) : A.Heeds (d >>= f) := by
  intro q hq e he
  cases hd : d.result with
  | error e' =>
    rw [Deliberation.bind_error hd] at hq ⊢
    exact congrArg Except.error (Except.error.inj (hd.symm.trans (h q hq e he)))
  | ok a =>
    rw [Deliberation.bind_ok hd] at hq ⊢
    rcases List.mem_append.mp hq with hq | hq
    · cases hd.symm.trans (h q hq e he)
    · exact hf a q hq e he

theorem heeds_globExcludes (A : Answers) (c : EditContext) : A.Heeds (A.globExcludes c) := by
  refine (heeds_consult _).bind fun glob => ?_
  split
  · exact heeds_given _
  · exact heeds_pure _

theorem heeds_ignores (A : Answers) (c : EditContext) : A.Heeds (A.ignores c) := by
  refine (heeds_globExcludes A c).bind fun excluded => ?_
  split
  · exact heeds_pure _
  · refine (heeds_consult _).bind fun inUse => ?_
    split
    · exact (heeds_consult _).bind fun _ => heeds_pure _
    · exact heeds_pure _

theorem heeds_isTime (A : Answers) (c : EditContext) : A.Heeds (A.isTime c) := by
  unfold isTime
  split
  · exact (heeds_consult _).bind fun _ => heeds_pure _
  · refine (heeds_consult _).bind fun pending => ?_
    split
    · exact (heeds_consult _).bind fun _ => heeds_pure _
    · exact heeds_pure _

theorem heeds_deliberate (A : Answers) (c : EditContext) : A.Heeds (A.deliberate c) := by
  unfold deliberate
  split
  · exact heeds_pure _
  · refine (heeds_ignores A c).bind fun ignored => ?_
    split
    · exact heeds_pure _
    · exact heeds_isTime A c

theorem deliberate_of_glob {glob : Value} {f : Failure} (saved : c.filePath.truthy = true)
    (answer : A .glob = .ok glob) (truthy : glob.truthy = true)
    (h : Gate.globMatches glob c.filePath = .error f) : (A.deliberate c).result = .error f := by
  have excludes : (A.globExcludes c).result = .error f := by
    rw [globExcludes, Deliberation.bind_ok (d := A.consult .glob) answer, if_pos truthy]
    exact h
  have ignores : (A.ignores c).result = .error f := by
    rw [Answers.ignores, Deliberation.bind_error excludes]
  unfold deliberate
  rw [saved, Deliberation.bind_error ignores]
  rfl

end Answers

namespace Session
variable {s : Session} {c : EditContext} {f : Failure}

def disabledAs (s : Session) : Except Failure (List Value) := do
  let v ← s.settingOf "disabled_providers"
  if v.truthy then v.distinctItems else return []

/-- A collaborator that is asked before the providers fails a lint: there are no settings to be had;
a setting, the rule for ignored paths or the surface fails when the gate consults it; the glob of
ignored paths cannot be tested on the path; or the names of disabled providers cannot be gathered.
-/
inductive Thwarted (s : Session) (c : EditContext) : Failure → Prop
  | settings {f : Failure} (lack : s.lack = some f) : Thwarted s c f
  | consultation {f : Failure} {q : Consultation} (settings : s.lack = none)
      (asked : q ∈ ((s.atGate c).deliberate c).asked) (fails : s.atGate c q = .error f) :
      Thwarted s c f
  | glob {f : Failure} {glob : Value} (settings : s.lack = none)
      (saved : c.filePath.truthy = true) (answer : s.atGate c .glob = .ok glob)
      (truthy : glob.truthy = true) (fails : Gate.globMatches glob c.filePath = .error f) :
      Thwarted s c f
  | disabled {f : Failure} (settings : s.lack = none)
      (passes : ((s.atGate c).deliberate c).result = .ok true) (fails : s.disabledAs = .error f) :
      Thwarted s c f

/-- How a lint fares before it turns to the providers: it comes to none if the gate turns the edit
away, and else to the names of disabled providers. -/
def admission (s : Session) (c : EditContext) : Except Failure (Option (List Value)) :=
  match s.lack with
  | some f => .error f
  | none => do
    if ← ((s.atGate c).deliberate c).result then return some (← s.disabledAs) else return none

theorem admission_eq_none_iff : s.admission c = .ok none ↔
    s.lack = none ∧ ((s.atGate c).deliberate c).result = .ok false := by
  unfold admission
  cases s.lack with
  | some f => simp
  | none =>
    rcases ((s.atGate c).deliberate c).result with e | passes
    · simp [bind, Except.bind]
    · cases passes with
      | false => simp [bind, Except.bind, pure, Except.pure]
      | true => cases s.disabledAs <;> simp [bind, Except.bind, pure, Except.pure]

theorem Thwarted.admission (h : s.Thwarted c f) : s.admission c = .error f := by
  have refused (settings : s.lack = none)
      (failed : ((s.atGate c).deliberate c).result = .error f) : s.admission c = .error f := by
    rw [Session.admission, settings, failed]
    rfl
  cases h with
  | settings lack => rw [Session.admission, lack]
  | consultation settings asked fails =>
    exact refused settings (Answers.heeds_deliberate _ c _ asked _ fails)
  | glob settings saved answer truthy fails =>
    exact refused settings (Answers.deliberate_of_glob saved answer truthy fails)
  | disabled settings passes fails =>
    rw [Session.admission, settings, passes, fails]
    rfl

end Session

namespace Act
variable {s : Session} {f : Failure}

theorem exec_ensureSettings_of_lack (h : s.lack = some f) :
    ∃ s', ensureSettings.exec s = (.error f, s') := by
  obtain ⟨s', he, _⟩ := exec_sharedSettings_of_lack h
  refine ⟨s', ?_⟩
  rw [ensureSettings, exec_bind_ok exec_get]
  split
  · next source => simp [lack, source] at h
  · exact exec_bind_error he

end Act

namespace Round
variable {s s' : Session} {t : TaskId} {c : EditContext} {f : Failure}

/-- What a lint does before it turns to the providers: it comes to none if the edit is not linted, and
else to the names of disabled providers. -/
def approach (c : EditContext) : Act (Option (List Value)) := do
  if ← passes c then return some (← disabledNames) else return none

theorem standsOff_approach (c : EditContext) : StandsOff (approach c) := by
  have passes : StandsOff (passes c) := by
    refine .get (fun s w like => by simp only [like.disposed]) fun s => ?_
    split
    · exact .pure _
    · exact .bind standsOff_ensureSettings fun _ => Gate.standsOff_shouldLint c
  refine .bind passes fun _ => ?_
  split
  · refine .bind (.bind (standsOff_setting _) fun _ => ?_) fun _ => .pure _
    split
    · exact .take _
    · exact .pure _
  · exact .pure _

/-- The gate comes to what its deliberation comes to, and moves nothing. -/
theorem exec_passes (usable : s.registry.disposed = false) (settings : s.lack = none) :
    ∃ s', (passes c).exec s = (((s.atGate c).deliberate c).result, s') ∧ s.Unmoved s' := by
  obtain ⟨_, s₁, he, still⟩ := yields_ensureSettings settings
  have gate := Gate.follows_shouldLint s₁ c
  rw [still.atGate] at gate
  refine ⟨((Gate.shouldLint c).exec s₁).2, ?_, IsTrans.trans _ _ _ still gate.unmoved⟩
  rw [passes, exec_bind_ok exec_get, usable]
  simp only [Bool.false_eq_true, if_false]
  rw [exec_bind_ok he]
  exact Prod.ext gate.result rfl

theorem exec_disabledNames_eq (s : Session) :
    ∃ s', disabledNames.exec s = (s.disabledAs, s') ∧ s.Unmoved s' := by
  obtain ⟨s', he, still⟩ := exec_setting "disabled_providers" s
  refine ⟨s', ?_, still⟩
  unfold disabledNames disabledAs
  cases hv : s.settingOf "disabled_providers" with
  | error e => exact exec_bind_error (hv ▸ he)
  | ok v =>
    rw [exec_bind_ok (hv ▸ he)]
    show (if v.truthy then take v.distinctItems else pure [] : Act _).exec s' =
      (if v.truthy then v.distinctItems else .ok [], s')
    split <;> rfl

theorem result_approach (usable : s.registry.disposed = false) :
    ((approach c).exec s).1 = s.admission c := by
  unfold approach admission
  cases hs : s.lack with
  | some f =>
    obtain ⟨s', he⟩ := exec_ensureSettings_of_lack hs
    have fails : (passes c).exec s = (.error f, s') := by
      rw [passes, exec_bind_ok exec_get, usable]
      exact exec_bind_error he
    rw [exec_bind_error fails]
  | none =>
    obtain ⟨s₁, he, still⟩ := exec_passes (c := c) usable hs
    rcases hd : ((s.atGate c).deliberate c).result with e | b
    · rw [exec_bind_error (hd ▸ he)]
      rfl
    · rw [exec_bind_ok (hd ▸ he)]
      cases b with
      | false => rfl
      | true =>
        obtain ⟨s₂, hn, _⟩ := exec_disabledNames_eq s₁
        have same : s₁.disabledAs = s.disabledAs := by
          rw [disabledAs, still.settings, disabledAs]
        simp only [if_true]
        rw [same] at hn
        cases hns : s.disabledAs with
        | error e => rw [exec_bind_error (hns ▸ hn)]; rfl
        | ok names => rw [exec_bind_ok (hns ▸ hn)]; rfl

theorem exec_start_of_not_passes (t : TaskId) {r : Except Failure Bool} (not : r ≠ .ok true)
    (h : (passes c).exec s = (r, s')) : (start t c).exec s = (r.map fun _ => none, s') := by
  unfold passes at h
  unfold start
  rw [exec_bind_ok exec_get] at h ⊢
  split at h
  · next gone =>
    obtain ⟨rfl, rfl⟩ := Prod.mk.inj h
    rw [if_pos gone]
    rfl
  · next usable =>
    rw [if_neg usable]
    rcases exec_cases ensureSettings s with ⟨_, s₁, he⟩ | ⟨e, s₁, he⟩
    · rw [exec_bind_ok he] at h ⊢
      cases r with
      | error e =>
        rw [exec_bind_error h]
        rfl
      | ok b =>
        have turned : b = false := by
          cases b with
          | false => rfl
          | true => exact absurd rfl not
        rw [exec_bind_ok h, turned]
        rfl
    · rw [exec_bind_error he] at h ⊢
      obtain ⟨rfl, rfl⟩ := Prod.mk.inj h
      rfl

theorem exec_start (t : TaskId) (c : EditContext) (s : Session) :
    (start t c).exec s = (do
      match ← approach c with
      | some names => return some (← considerAll t c names (← get).registry.active.values)
      | none => return none : Act (Option (List Dispatch))).exec s := by
  rcases exec_cases (passes c) s with ⟨b, s₁, he⟩ | ⟨e, s₁, he⟩
  · cases b with
    | true =>
      rw [exec_start_of_passes he]
      rcases exec_cases disabledNames s₁ with ⟨names, s₂, hn⟩ | ⟨e, s₂, hn⟩
      · have admitted : (approach c).exec s = (.ok (some names), s₂) :=
          (exec_bind_ok he).trans (exec_bind_ok hn)
        rw [exec_bind_ok hn, exec_bind_ok admitted]
      · have admitted : (approach c).exec s = (.error e, s₂) :=
          (exec_bind_ok he).trans (exec_bind_error hn)
        rw [exec_bind_error hn, exec_bind_error admitted]
    | false =>
      have admitted : (approach c).exec s = (.ok none, s₁) := exec_bind_ok he
      rw [exec_start_of_not_passes t (by simp) he, exec_bind_ok admitted]
      rfl
  · have admitted : (approach c).exec s = (.error e, s₁) := exec_bind_error he
    rw [exec_start_of_not_passes t (by simp) he, exec_bind_error admitted]
    rfl

/-- A lint that comes to none before it turns to the providers looks at no more than it did so far. -/
theorem aloof_start (t : TaskId) (h : Aloof (approach c) s (.ok none)) :
    Aloof (start t c) s (.ok none) := by
  obtain ⟨settings, es, quiet, same⟩ := h
  refine ⟨settings, es, quiet, fun w like => ?_⟩
  rw [exec_start, exec_bind_ok (same w like)]
  rfl

theorem aloof_start_of_error (t : TaskId) (h : Aloof (approach c) s (.error f)) :
    Aloof (start t c) s (.error f) := by
  obtain ⟨settings, es, quiet, same⟩ := h
  refine ⟨settings, es, quiet, fun w like => ?_⟩
  rw [exec_start, exec_bind_error (same w like)]

theorem result_start_eq_none_iff (t : TaskId) :
    ((start t c).exec s).1 = .ok none ↔ ((approach c).exec s).1 = .ok none := by
  rw [exec_start]
  rcases exec_cases (approach c) s with ⟨found, s₁, he⟩ | ⟨e, s₁, he⟩
  · rw [exec_bind_ok he, he]
    cases found with
    | none => simp
    | some names =>
      simp only [exec_bind_ok exec_get]
      rcases exec_cases (considerAll t c names s₁.registry.active.values) s₁ with
        ⟨ds, s₂, hc⟩ | ⟨e, s₂, hc⟩
      · simp [exec_map, hc, Except.map]
      · simp [exec_map, hc, Except.map]
  · rw [exec_bind_error he, he]
    simp

end Round

/-! ### The turn of such a lint -/

/-- A task that has ended, after its phase was set and then all tasks were kept, has ended as it was
set to. -/
theorem Loop.Keeps.ended_of_turned {l l' : Loop} {t : TaskId} {p : Phase} {y : Task} {e : Ending}
    (h : (l.setPhase t p).Keeps l') (hy : l'.tasks[t]? = some y) (he : y.phase = .ended e) :
    p = .ended e := by
  rcases h.back hy with ⟨z, hz, kept⟩ | ⟨fresh, _⟩
  · rw [setPhase, getElem?_changeTask, if_pos rfl] at hz
    obtain ⟨x, _, rfl⟩ := Option.map_eq_some_iff.mp hz
    rw [← he, kept.phase_eq' (by simp [he])]
  · rw [he] at fresh
    cases fresh

namespace Session
variable {s : Session} {t : TaskId} {c : EditContext} {r : Except Failure (Option (List Dispatch))}

/-- It is the first turn of a lint that nobody has cancelled. -/
structure StartsLint (s : Session) (t : TaskId) (c : EditContext) : Prop where
  first : ∃ rest, s.loop.ready = .step t :: rest
  task : ∃ x, s.loop.tasks[t]? = some x ∧ x.job = .lint c ∧ x.phase = .fresh ∧
    x.cancelPending = false

/-- In its turn the lint comes to a result, and its task ends with it. Settings may be made and
preliminaries written, as they would be in every session that is alike in what was asked, and
everything else stays. -/
def EndsAloof (s : Session) (t : TaskId) (c : EditContext)
    (r : Except Failure (Option (List Dispatch))) : Prop :=
  ∃ settings es, (∀ e ∈ es, e.isPreliminary = true) ∧
    (∀ w, s.Resembles w → (Round.start t c).exec w = (r, w.marked settings es)) ∧
    s.tick = ((s.woken t).onLoop fun l => l.finish t
      (endingOf false ((r.map Option.isSome).mapError Failure.leaving))).marked settings es

theorem resembles_woken (s : Session) (t : TaskId) : s.Resembles (s.woken t) :=
  ⟨rfl, rfl, rfl, rfl, rfl, rfl, rfl⟩

theorem StartsLint.tick (h : s.StartsLint t c) :
    s.tick = ((startLint c t).run (s.woken t)).2 ∧ ∃ x, (s.woken t).loop.tasks[t]? = some x ∧
      x.cancelPending = false := by
  obtain ⟨rest, hr⟩ := h.first
  obtain ⟨x, hx, hj, fresh, unasked⟩ := h.task
  refine ⟨?_, ?_⟩
  · rw [tick_step hr hx, resume_lint fresh hj unasked]
  · simp [woken, Loop.wake, Loop.getElem?_changeTask, hx]

theorem StartsLint.endsAloof (h : s.StartsLint t c) (aloof : Act.Aloof (Round.start t c) s r)
    (roundless : ∀ ds, r ≠ .ok (some ds)) : s.EndsAloof t c r := by
  obtain ⟨settings, es, quiet, same⟩ := aloof
  obtain ⟨turn, x, hx, unasked⟩ := h.tick
  refine ⟨settings, es, quiet, same, ?_⟩
  have finished (r' : Except Failure Bool) : (finish t r').run ((s.woken t).marked settings es) =
      ((), ((s.woken t).onLoop fun l => l.finish t
        (endingOf false (r'.mapError Failure.leaving))).marked settings es) := by
    show ((), ((s.woken t).marked settings es).onLoop fun l => l.finish t
      (endingOf (l.isCancelPending t) (r'.mapError Failure.leaving))) = _
    have still : ((s.woken t).marked settings es).loop.isCancelPending t = false := by
      show (s.woken t).loop.isCancelPending t = false
      simp [Loop.isCancelPending, hx, unasked]
    rw [onLoop, still]
    rfl
  rw [turn, run_startLint, same _ (s.resembles_woken t)]
  cases r with
  | error f => exact congrArg Prod.snd (finished (.error f))
  | ok found =>
    cases found with
    | none => exact congrArg Prod.snd (finished (.ok false))
    | some ds => exact absurd rfl (roundless ds)

theorem not_returnedFalse_startLint (h : ((Round.start t c).exec s).1 ≠ .ok none) :
    ¬ ((startLint c t).run s).2.ReturnedFalse t := by
  rw [run_startLint]
  generalize (Round.start t c).exec s = outcome at h ⊢
  obtain ⟨r, s₁⟩ := outcome
  have finished (r' : Except Failure Bool) (other : r' ≠ .ok false) :
      ¬ ((finish t r').run s₁).2.ReturnedFalse t := by
    rintro ⟨y, hy, he⟩
    have as_set := (s₁.loop.keeps_finish t _).ended_of_turned hy he
    unfold endingOf at as_set
    rcases r' with f | b
    · simp only [Except.mapError, Phase.ended.injEq] at as_set
      split at as_set <;> cases as_set
    · simp only [Except.mapError, Phase.ended.injEq] at as_set
      split at as_set
      · cases as_set
      · obtain rfl := Ending.value.inj as_set
        exact other rfl
  match r, h with
  | .error f, _ => exact finished (.error f) nofun
  | .ok none, h => exact absurd rfl h
  | .ok (some []), _ => exact finished (.ok true) nofun
  | .ok (some (d :: ds)), _ =>
    rintro ⟨y, hy, he⟩
    obtain ⟨g, kept⟩ := s₁.loop.keeps_gather t (d :: ds)
    cases kept.ended_of_turned hy he

end Session

namespace Round
variable {s : Session} {t : TaskId} {c : EditContext}

theorem result_start_woken (s : Session) (t : TaskId) (c : EditContext) :
    ((start t c).exec (s.woken t)).1 = .ok none ↔ ((start t c).exec s).1 = .ok none := by
  obtain ⟨settings, es, _, same⟩ := standsOff_approach c s
  rw [result_start_eq_none_iff, result_start_eq_none_iff, same _ (s.resembles_woken t)]

/-- A lint comes to no round exactly if the gate turns the edit away. -/
theorem start_eq_none_iff (t : TaskId) (c : EditContext) (usable : s.registry.disposed = false) :
    ((start t c).exec s).1 = .ok none ↔
      s.lack = none ∧ ((Gate.shouldLint c).exec s).1 = .ok false := by
  rw [result_start_eq_none_iff, result_approach usable, admission_eq_none_iff,
    (Gate.follows_shouldLint s c).result]

/-- Whatever comes after its first turn, a lint returns false exactly if the gate turned the edit
away. When it does, or when what is asked before the providers thwarts it, it goes the way that it
goes in every session that is alike in what was asked: no provider and no matcher was looked at,
nothing was dispatched or emitted, and the registry, the host and all other tasks are as they were.
-/
theorem turned_away_aloof (first : s.StartsLint t c) (usable : s.registry.disposed = false) :
    (∀ moves, (s.tick.run moves).ReturnedFalse t ↔
      s.lack = none ∧ ((Gate.shouldLint c).exec s).1 = .ok false) ∧
    (∀ moves, (s.tick.run moves).ReturnedFalse t → s.EndsAloof t c (.ok none)) ∧
    ∀ f, s.Thwarted c f → s.EndsAloof t c (.error f) := by
  have stands := standsOff_approach c s
  have turned (roundless : ((start t c).exec s).1 = .ok none) : s.EndsAloof t c (.ok none) := by
    rw [(result_start_eq_none_iff t).mp roundless] at stands
    exact first.endsAloof (aloof_start t stands) nofun
  have returned : s.tick.ReturnedFalse t ↔ ((start t c).exec s).1 = .ok none := by
    constructor
    · intro returned
      by_contra round
      rw [first.tick.1] at returned
      exact not_returnedFalse_startLint (fun h => round ((result_start_woken s t c).mp h)) returned
    · intro roundless
      obtain ⟨settings, es, _, _, after⟩ := turned roundless
      obtain ⟨_, x, hx, _⟩ := first.tick
      obtain ⟨y, hy, _, kept⟩ := ((s.woken t).loop.keeps_finish t (.value false)).forth_turned hx
      rw [after]
      exact ⟨y, hy, (kept rfl).phase_eq nofun⟩
  have later (moves : List Move) : (s.tick.run moves).ReturnedFalse t ↔ s.tick.ReturnedFalse t := by
    obtain ⟨turn, x, hx, _⟩ := first.tick
    obtain ⟨y, hy, late⟩ := late_startLint c hx
    exact returnedFalse_run_iff (turn ▸ hy) late moves
  refine ⟨fun moves => ?_, fun moves h => turned (returned.mp ((later moves).mp h)), fun f h => ?_⟩
  · rw [later, returned, start_eq_none_iff t c usable]
  · rw [result_approach usable, h.admission] at stands
    exact first.endsAloof (aloof_start_of_error t stands) nofun

/-- A sample with a registration and a lint that is about to start, whose rule for ignored paths is in
use and fails. -/
def sampleRefusal : Session :=
  let base := sample []
  { base with
    source := .given fun item => .ok (.bool (item == "ignore_vcs_ignored_paths"))
    host := { base.host with
      ignoreRule := some { verdict := some (.error (.ofText .runtime "no index")) } }
    registry := base.registry.insert "p" .current
    loop := Loop.spawn {} (some "t1") (.lint sampleDispatch.context) }

/-- The failing rule thwarts the lint, which touches nothing and never returns false. -/
theorem sampleRefusal_aloof :
    let s := sampleRefusal
    let c := sampleDispatch.context
    let f := Failure.ofText .runtime "no index"
    s.StartsLint 0 c ∧ s.registry.disposed = false ∧ s.Thwarted c f ∧
      s.EndsAloof 0 c (.error f) ∧ ∀ moves, ¬ (s.tick.run moves).ReturnedFalse 0 := by
  intro s c f
  have first : s.StartsLint 0 c := ⟨⟨[], rfl⟩, _, rfl, rfl, rfl, rfl⟩
  have thwarted : s.Thwarted c f := .consultation (q := .rules) rfl (by decide +kernel) rfl
  obtain ⟨returned, _, aloof⟩ := turned_away_aloof first rfl
  have fails : ((Gate.shouldLint c).exec s).1 = .error f := by
    rw [(Gate.follows_shouldLint s c).result]
    exact Answers.heeds_deliberate _ c .rules (by decide +kernel) f rfl
  refine ⟨first, rfl, thwarted, aloof f thwarted, fun moves h => ?_⟩
  have passed := ((returned moves).mp h).2
  rw [fails] at passed
  cases passed

end Round
end LintBroker

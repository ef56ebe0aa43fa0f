import LintBroker.Proofs.Computation

/-!
# Quiet computations

Asking the host, reading settings and writing lines changes nothing that other tasks could see: the
host, the registry and the loop stay, and the journal grows by entries that tell of questions and
lines alone. The computations below are quiet whether or not they fail; those that only read an
attribute of a provider change nothing at all.

Some of them are no more than a murmur: they ask nothing that decides about a lint or a dispatch.
-/
namespace LintBroker

/-- Whether an entry tells of a question or a line, and of nothing done. -/
def Entry.isQuiet : Entry → Bool
  | .debug _ | .trace _ | .ignoreAsked _ | .matchAsked .. | .surfaceAsked .. | .settingAsked _
  | .contextOpened _ => true
  | _ => false

/-- Whether an entry is one that tasks alone write: a question whose answer decides about a lint or a
dispatch, or how far a dispatch has come. -/
def Entry.isProceeding : Entry → Bool
  | .ignoreAsked _ | .matchAsked .. | .settingAsked _ | .surfaceAsked _ .pendingPreview
  | .surfaceAsked _ .destroyed | .surfaceAsked _ .grammar | .dispatched _ | .entered _ | .invoked ..
  | .answered .. | .accepted .. | .emitted .. => true
  | _ => false

def Entry.isLine : Entry → Bool
  | .debug _ | .trace _ => true
  | _ => false

theorem Entry.isQuiet_of_isLine {e : Entry} (h : e.isLine = true) : e.isQuiet = true := by
  cases e <;> first | rfl | cases h

/-- Whether an entry is a line, or a question of the gate of an edit. -/
def Entry.isOfGate : Entry → Bool
  | .debug _ | .trace _ | .ignoreAsked _ | .surfaceAsked _ .pendingPreview => true
  | .settingAsked item => item != "disabled_providers"
  | _ => false

theorem Entry.isQuiet_of_isOfGate {e : Entry} (h : e.isOfGate = true) : e.isQuiet = true := by
  cases e <;> first | rfl | cases h

theorem Entry.isOfGate_of_isLine {e : Entry} (h : e.isLine = true) : e.isOfGate = true := by
  cases e <;> first | rfl | cases h

theorem Entry.isProceeding_of_isLine {e : Entry} (h : e.isLine = true) : e.isProceeding = false := by
  cases e <;> first | rfl | cases h

namespace Session

/-- Only settings were made and quiet entries written. -/
def Quiet (s s' : Session) : Prop :=
  ∃ (settings : Option Setting.Store) (entries : Array Entry),
    (∀ e ∈ entries, e.isQuiet = true) ∧
      s' = { s with settings, journal := s.journal ++ entries }

/-- What tasks have asked in order to decide, and how far their dispatches have come, in order. -/
def proceedings (s : Session) : List Entry := s.history.filter Entry.isProceeding

/-- No task has asked in order to decide, and no dispatch has come further. -/
def Aside (s s' : Session) : Prop := s'.proceedings = s.proceedings

instance : IsPreorder Session Aside where
  refl _ := rfl
  trans _ _ _ h h' := h'.trans h

/-- Only settings were made, and entries written that are of no task's proceedings. -/
def Murmur (s s' : Session) : Prop := Quiet s s' ∧ Aside s s'

namespace Quiet
variable {s s' : Session}

theorem refl (s : Session) : Quiet s s := ⟨s.settings, #[], by simp, by simp⟩

theorem trans {s'' : Session} (h : Quiet s s') (h' : Quiet s' s'') : Quiet s s'' := by
  obtain ⟨_, es, he, rfl⟩ := h
  obtain ⟨x, es', he', rfl⟩ := h'
  refine ⟨x, es ++ es', ?_, by simp⟩
  intro e hm
  rcases Array.mem_append.mp hm with hm | hm
  · exact he e hm
  · exact he' e hm

instance : IsPreorder Session Quiet where
  refl := refl
  trans _ _ _ := trans

theorem push {e : Entry} (h : e.isQuiet = true) (s : Session) :
    Quiet s { s with journal := s.journal.push e } :=
  ⟨s.settings, #[e], by simpa using h, by simp⟩

theorem withSettings (s : Session) (x : Option Setting.Store) : Quiet s { s with settings := x } :=
  ⟨x, #[], by simp, by simp⟩

theorem host (h : Quiet s s') : s'.host = s.host := by
  obtain ⟨_, _, _, rfl⟩ := h
  rfl

theorem registry (h : Quiet s s') : s'.registry = s.registry := by
  obtain ⟨_, _, _, rfl⟩ := h
  rfl

theorem loop (h : Quiet s s') : s'.loop = s.loop := by
  obtain ⟨_, _, _, rfl⟩ := h
  rfl

end Quiet

def attributesOf (s : Session) (p : ProviderId) : Except Failure Attributes :=
  match s.host.providers.get? p with
  | some x => .ok x.attributes
  | none => .error (Setting.missing p)

def nameOf (s : Session) (p : ProviderId) : Except Failure String :=
  s.attributesOf p >>= Attributes.name

def scopeOf (s : Session) (p : ProviderId) : Except Failure Scope :=
  s.attributesOf p >>= Attributes.scope

def answerOf (s : Session) (id : SurfaceId) (q : Surface.Question) : Except Failure Value :=
  match s.host.surfaces.get? id with
  | some x => x.answer q
  | none => .error (Setting.missing id)

variable {s s' : Session}

theorem Quiet.attributesOf (h : Quiet s s') (p : ProviderId) :
    s'.attributesOf p = s.attributesOf p := by
  simp [Session.attributesOf, h.host]

theorem Quiet.nameOf (h : Quiet s s') (p : ProviderId) : s'.nameOf p = s.nameOf p := by
  simp [Session.nameOf, h.attributesOf]

theorem Quiet.answerOf (h : Quiet s s') (id : SurfaceId) (q : Surface.Question) :
    s'.answerOf id q = s.answerOf id q := by
  simp [Session.answerOf, h.host]

theorem Quiet.scopeOf (h : Quiet s s') (p : ProviderId) : s'.scopeOf p = s.scopeOf p := by
  simp [Session.scopeOf, h.attributesOf]

end Session

open Session

theorem Act.exec_attributes (p : ProviderId) (s : Session) :
    (Act.attributes p).exec s = (s.attributesOf p, s) := by
  simp only [Act.attributes, Act.exec_bind, Act.exec_get, Act.exec_expect, attributesOf]
  cases s.host.providers.get? p <;> rfl

theorem Broker.exec_nameOf (p : ProviderId) (s : Session) :
    (Broker.nameOf p).exec s = (s.nameOf p, s) := by
  simp only [Broker.nameOf, Act.exec_bind, Act.exec_attributes, Act.exec_take, Session.nameOf]
  cases s.attributesOf p <;> rfl

theorem Broker.exec_scopeOf (p : ProviderId) (s : Session) :
    (Broker.scopeOf p).exec s = (s.scopeOf p, s) := by
  simp only [Broker.scopeOf, Act.exec_bind, Act.exec_attributes, Act.exec_take, Session.scopeOf]
  cases s.attributesOf p <;> rfl

namespace Session
variable {s s' : Session}

theorem proceedings_noted (s : Session) (e : Entry) :
    (s.noted e).proceedings = s.proceedings ++ [e].filter Entry.isProceeding := by
  rw [proceedings, history_noted, List.filter_append]
  rfl

theorem aside_noted {e : Entry} (h : e.isProceeding = false) (s : Session) : s.Aside (s.noted e) := by
  rw [Aside, proceedings_noted, List.filter_cons_of_neg (by simp [h]), List.filter_nil,
    List.append_nil]

instance : IsPreorder Session Murmur where
  refl _ := ⟨refl _, refl _⟩
  trans _ _ _ h h' := ⟨IsTrans.trans _ _ _ h.1 h'.1, IsTrans.trans _ _ _ h.2 h'.2⟩

theorem murmur_noted {e : Entry} (h : e.isQuiet = true) (h' : e.isProceeding = false) (s : Session) :
    s.Murmur (s.noted e) := ⟨.push h s, aside_noted h' s⟩

end Session

/-! ### Computations that only read and write lines -/

section lines
variable {R : Session → Session → Prop} [IsPreorder Session R]

theorem Act.keepsTo_attributes (p : ProviderId) : KeepsTo R (Act.attributes p).run :=
  Act.keepsTo_bind Act.keepsTo_get fun _ => Act.keepsTo_bind (Act.keepsTo_expect _ _) fun _ =>
    Act.keepsTo_pure _

theorem Broker.keepsTo_nameOf (p : ProviderId) : KeepsTo R (Broker.nameOf p).run :=
  Act.keepsTo_bind (Act.keepsTo_attributes p) fun _ => Act.keepsTo_take _

theorem Broker.keepsTo_scopeOf (p : ProviderId) : KeepsTo R (Broker.scopeOf p).run :=
  Act.keepsTo_bind (Act.keepsTo_attributes p) fun _ => Act.keepsTo_take _

theorem Broker.keepsTo_record (id : RecordId) : KeepsTo R (Broker.record id).run :=
  Act.keepsTo_bind Act.keepsTo_get fun _ => Act.keepsTo_expect _ _

theorem Act.keepsTo_askSurface {id : SurfaceId} {q : Surface.Question}
    (asks : KeepsTo R (Act.note (.surfaceAsked id q)).run) : KeepsTo R (Act.askSurface id q).run :=
  Act.keepsTo_bind Act.keepsTo_get fun _ => Act.keepsTo_bind (Act.keepsTo_expect _ _) fun _ =>
    Act.keepsTo_bind asks fun _ => Act.keepsTo_take _

theorem Dispatch.keepsTo_shouldSurface {d : Dispatch}
    (asks : KeepsTo R (Act.note (.surfaceAsked d.context.surface .destroyed)).run) (p : ProviderId) :
    KeepsTo R (Dispatch.shouldSurface d p).run := by
  refine Act.keepsTo_bind (Broker.keepsTo_record _) fun _ => ?_
  split
  · exact Act.keepsTo_pure _
  · refine Act.keepsTo_bind (Broker.keepsTo_scopeOf p) fun scope => ?_
    split
    · exact Act.keepsTo_pure _
    · exact Act.keepsTo_bind (Act.keepsTo_askSurface asks) fun _ => Act.keepsTo_pure _

theorem Act.keepsTo_readAttribute (p : ProviderId) (name : String) :
    KeepsTo R (Act.readAttribute p name).run :=
  Act.keepsTo_bind (Act.keepsTo_attributes p) fun _ => Act.keepsTo_take _

theorem Act.keepsTo_openContext {id : SurfaceId}
    (asks : ∀ q ∈ [Surface.Question.persisted, .path, .buffer],
      KeepsTo R (Act.note (.surfaceAsked id q)).run)
    (opened : ∀ c, KeepsTo R (Act.note (.contextOpened c)).run) (onChange : Value) :
    KeepsTo R (Act.openContext id onChange).run := by
  have rest (filePath : Value) : KeepsTo R (do
      let buffer ← Act.askSurface id .buffer
      let context : EditContext := { surface := id, onChange, filePath, buffer }
      Act.note (.contextOpened context)
      return context : Act EditContext).run :=
    Act.keepsTo_bind (Act.keepsTo_askSurface (asks _ (by simp))) fun _ =>
      Act.keepsTo_bind (opened _) fun _ => Act.keepsTo_pure _
  refine Act.keepsTo_bind (Act.keepsTo_askSurface (asks _ (by simp))) fun _ => ?_
  split
  · exact Act.keepsTo_bind (Act.keepsTo_askSurface (asks _ (by simp))) fun _ => rest _
  · exact Act.keepsTo_bind (Act.keepsTo_pure _) fun _ => rest _

variable (writes : ∀ (e : Entry), e.isLine = true → KeepsTo R (Act.note e).run)
include writes

theorem Act.keepsTo_reportFault (summary : String) (f : Failure) :
    KeepsTo R (Act.reportFault summary f).run :=
  Act.keepsTo_bind (writes _ rfl) fun _ => Act.keepsTo_forM (fun _ => writes _ rfl) _

theorem Dispatch.keepsTo_contain (p : ProviderId) (cancelling : Bool) (r : Except Failure Value) :
    KeepsTo R (Dispatch.contain p cancelling r).run := by
  cases r with
  | ok v =>
    simp only [Dispatch.contain]
    split
    · exact Act.keepsTo_bind (Broker.keepsTo_nameOf p) fun _ =>
        Act.keepsTo_bind (writes _ rfl) fun _ => Act.keepsTo_pure _
    · exact Act.keepsTo_pure _
  | error f =>
    have report (summary : String → String) : KeepsTo R (do
        let name ← Act.during (some f) (Broker.nameOf p)
        Act.reportFault (summary name) f
        return Outcome.fault : Act Outcome).run :=
      Act.keepsTo_bind (Act.keepsTo_during _ (Broker.keepsTo_nameOf p)) fun _ =>
        Act.keepsTo_bind (Act.keepsTo_reportFault writes _ _) fun _ => Act.keepsTo_pure _
    simp only [Dispatch.contain]
    split
    · split
      · exact Act.keepsTo_bind (Act.keepsTo_throw _) fun _ => report _
      · exact report _
    · split
      · exact report _
      · exact Act.keepsTo_throw _

variable (keeps : ∀ f : Session → Option Setting.Store,
  KeepsTo R (modify fun s => { s with settings := f s } : Act PUnit).run)
include keeps

theorem Act.keepsTo_madeSettings : KeepsTo R Act.madeSettings.run := by
  refine Act.keepsTo_bind Act.keepsTo_get fun _ => ?_
  split
  · exact Act.keepsTo_pure _
  · exact Act.keepsTo_bind Act.keepsTo_get fun _ => Act.keepsTo_bind (writes _ rfl) fun _ =>
      Act.keepsTo_bind (writes _ rfl) fun _ => Act.keepsTo_bind (keeps _) fun _ =>
        Act.keepsTo_pure _

theorem Act.keepsTo_sharedSettings : KeepsTo R Act.sharedSettings.run := by
  refine Act.keepsTo_bind Act.keepsTo_get fun _ => ?_
  split
  · exact Act.keepsTo_bind (Act.keepsTo_forM (fun _ => writes _ rfl) _) fun _ =>
      Act.keepsTo_throw _
  · exact Act.keepsTo_madeSettings writes keeps

theorem Act.keepsTo_ensureSettings : KeepsTo R Act.ensureSettings.run := by
  refine Act.keepsTo_bind Act.keepsTo_get fun _ => ?_
  split
  · exact Act.keepsTo_pure _
  · exact Act.keepsTo_bind (Act.keepsTo_sharedSettings writes keeps) fun _ => Act.keepsTo_pure _

theorem Act.keepsTo_readShared (item : String) : KeepsTo R (Act.readShared item).run :=
  Act.keepsTo_bind (Act.keepsTo_sharedSettings writes keeps) fun _ =>
    Act.keepsTo_bind Act.keepsTo_get fun _ => Act.keepsTo_bind (keeps _) fun _ =>
      Act.keepsTo_take _

theorem Act.keepsTo_setting {item : String} (asks : KeepsTo R (Act.note (.settingAsked item)).run) :
    KeepsTo R (Act.setting item).run := by
  refine Act.keepsTo_bind asks fun _ => Act.keepsTo_bind Act.keepsTo_get fun _ => ?_
  split
  · exact Act.keepsTo_take _
  · exact Act.keepsTo_readShared writes keeps _

end lines

/-! ### The gate of an edit -/

namespace Gate
open Act
variable {R : Session → Session → Prop} [IsPreorder Session R]
variable (asks : ∀ (e : Entry), e.isOfGate = true → KeepsTo R (note e).run)
variable (keeps : ∀ f : Session → Option Setting.Store,
  KeepsTo R (modify fun s => { s with settings := f s } : Act PUnit).run)
include asks keeps

theorem keepsTo_setting {item : String} (other : (item != "disabled_providers") = true) :
    KeepsTo R (setting item).run :=
  Act.keepsTo_setting (fun e h => asks e (Entry.isOfGate_of_isLine h)) keeps (asks _ other)

theorem keepsTo_globExcludes (path : Value) : KeepsTo R (globExcludes path).run := by
  refine keepsTo_bind (keepsTo_setting asks keeps (by decide)) fun _ => ?_
  split
  · exact keepsTo_pure _
  · refine keepsTo_bind (keepsTo_take _) fun _ => ?_
    split
    · exact keepsTo_bind (asks _ rfl) fun _ => keepsTo_pure _
    · exact keepsTo_pure _

theorem keepsTo_rulesExclude (path : Value) : KeepsTo R (rulesExclude path).run := by
  have rule : KeepsTo R (askIgnored path).run := by
    refine keepsTo_bind keepsTo_get fun _ => ?_
    split
    · split
      · exact keepsTo_bind (asks _ rfl) fun _ => keepsTo_take _
      · exact keepsTo_pure _
    · exact keepsTo_pure _
  refine keepsTo_bind (keepsTo_setting asks keeps (by decide)) fun _ => ?_
  split
  · exact keepsTo_pure _
  · refine keepsTo_bind rule fun _ => ?_
    split
    · exact keepsTo_bind (asks _ rfl) fun _ => keepsTo_pure _
    · exact keepsTo_pure _

theorem keepsTo_isPathIgnored (path : Value) : KeepsTo R (isPathIgnored path).run := by
  refine keepsTo_bind (keepsTo_globExcludes asks keeps _) fun _ => ?_
  split
  · exact keepsTo_pure _
  · exact keepsTo_rulesExclude asks keeps _

theorem keepsTo_changeAllowed (path : Value) : KeepsTo R (changeAllowed path).run := by
  refine keepsTo_bind (keepsTo_setting asks keeps (by decide)) fun _ => ?_
  split
  · exact keepsTo_pure _
  · exact keepsTo_bind (asks _ rfl) fun _ => keepsTo_pure _

theorem keepsTo_previewAllowed (context : EditContext) :
    KeepsTo R (previewAllowed context).run := by
  refine keepsTo_bind (keepsTo_askSurface (asks _ rfl)) fun _ => ?_
  split
  · exact keepsTo_pure _
  · refine keepsTo_bind (keepsTo_setting asks keeps (by decide)) fun _ => ?_
    split
    · exact keepsTo_pure _
    · exact keepsTo_bind (asks _ rfl) fun _ => keepsTo_pure _

theorem keepsTo_shouldLint (context : EditContext) : KeepsTo R (shouldLint context).run := by
  unfold shouldLint
  split
  · exact keepsTo_bind (asks _ rfl) fun _ => keepsTo_pure _
  · refine keepsTo_bind (keepsTo_isPathIgnored asks keeps _) fun _ => ?_
    split
    · exact keepsTo_pure _
    · split
      · exact keepsTo_changeAllowed asks keeps _
      · exact keepsTo_previewAllowed asks keeps _

end Gate

namespace Act

theorem quiet_note {e : Entry} (h : e.isQuiet = true) : KeepsTo Quiet (note e).run := Quiet.push h

theorem quiet_lines (e : Entry) (h : e.isLine = true) : KeepsTo Quiet (note e).run :=
  quiet_note (Entry.isQuiet_of_isLine h)

theorem quiet_trace (text : String) : KeepsTo Quiet (trace text).run := quiet_note rfl

theorem quiet_reportFault (summary : String) (f : Failure) :
    KeepsTo Quiet (reportFault summary f).run := keepsTo_reportFault quiet_lines summary f

theorem quiet_askSurface (id : SurfaceId) (q : Surface.Question) :
    KeepsTo Quiet (askSurface id q).run := keepsTo_askSurface (quiet_note rfl)

theorem quiet_attributes (p : ProviderId) : KeepsTo Quiet (attributes p).run :=
  keepsTo_attributes p

theorem quiet_readAttribute (p : ProviderId) (name : String) :
    KeepsTo Quiet (readAttribute p name).run := keepsTo_readAttribute p name

theorem quiet_matchGrammar (scopes : Value) (surface : SurfaceId) :
    KeepsTo Quiet (matchGrammar scopes surface).run := by
  refine keepsTo_bind (keepsTo_take _) fun _ => ?_
  split
  · exact keepsTo_pure _
  · exact keepsTo_bind (quiet_askSurface _ _) fun _ =>
      keepsTo_bind (keepsTo_take _) fun _ => keepsTo_pure _

theorem quiet_askMatcher (scopes : Value) (surface : SurfaceId) :
    KeepsTo Quiet (askMatcher scopes surface).run := by
  refine keepsTo_bind keepsTo_get fun _ => ?_
  split
  · split
    · exact keepsTo_bind (quiet_note rfl) fun _ => keepsTo_take _
    · exact quiet_matchGrammar _ _
  · exact quiet_matchGrammar _ _

theorem quiet_settings (f : Session → Option Setting.Store) :
    KeepsTo Quiet (modify fun s => { s with settings := f s } : Act PUnit).run :=
  fun s => Quiet.withSettings s (f s)

theorem quiet_sharedSettings : KeepsTo Quiet sharedSettings.run :=
  keepsTo_sharedSettings quiet_lines quiet_settings

theorem quiet_ensureSettings : KeepsTo Quiet ensureSettings.run :=
  keepsTo_ensureSettings quiet_lines quiet_settings

theorem quiet_setting (item : String) : KeepsTo Quiet (setting item).run :=
  keepsTo_setting quiet_lines quiet_settings (quiet_note rfl)

theorem murmur_lines (e : Entry) (h : e.isLine = true) : KeepsTo Murmur (note e).run :=
  murmur_noted (Entry.isQuiet_of_isLine h) (Entry.isProceeding_of_isLine h)

theorem murmur_settings (f : Session → Option Setting.Store) :
    KeepsTo Murmur (modify fun s => { s with settings := f s } : Act PUnit).run :=
  fun s => ⟨quiet_settings f s, rfl⟩

/-- What is asked to open a context decides about nothing. -/
theorem murmur_openContext (surface : SurfaceId) (onChange : Value) :
    KeepsTo Murmur (openContext surface onChange).run := by
  refine keepsTo_openContext (fun q hq => ?_) (fun _ => murmur_noted rfl rfl) onChange
  refine murmur_noted rfl ?_
  fin_cases hq <;> rfl

end Act

namespace Broker
open Act

theorem quiet_nameOf (p : ProviderId) : KeepsTo Quiet (nameOf p).run := keepsTo_nameOf p

theorem quiet_scopeOf (p : ProviderId) : KeepsTo Quiet (scopeOf p).run := keepsTo_scopeOf p

theorem quiet_record (id : RecordId) : KeepsTo Quiet (record id).run := keepsTo_record id

end Broker

namespace Gate
open Act

theorem quiet_shouldLint (context : EditContext) : KeepsTo Quiet (shouldLint context).run :=
  keepsTo_shouldLint (fun _ h => quiet_note (Entry.isQuiet_of_isOfGate h)) quiet_settings context

theorem quiet_shouldTrigger (record : Record Nat) (context : EditContext) :
    KeepsTo Quiet (shouldTrigger record context).run := by
  refine keepsTo_bind (quiet_readAttribute _ _) fun _ =>
    keepsTo_bind (quiet_askMatcher _ _) fun _ => ?_
  split
  · refine keepsTo_bind (quiet_attributes _) fun _ => keepsTo_bind (keepsTo_take _) fun _ => ?_
    split
    · exact keepsTo_pure _
    · exact keepsTo_pure _
  · exact keepsTo_pure _

end Gate

namespace Round
open Act

theorem quiet_disabledNames : KeepsTo Quiet disabledNames.run := by
  refine keepsTo_bind (quiet_setting _) fun _ => ?_
  split
  · exact keepsTo_take _
  · exact keepsTo_pure _

end Round

namespace Dispatch
open Act

theorem quiet_contain (p : ProviderId) (cancelling : Bool) (r : Except Failure Value) :
    KeepsTo Quiet (contain p cancelling r).run := keepsTo_contain quiet_lines p cancelling r

theorem quiet_shouldSurface (d : Dispatch) (p : ProviderId) :
    KeepsTo Quiet (shouldSurface d p).run := keepsTo_shouldSurface (quiet_note rfl) p

end Dispatch
end LintBroker

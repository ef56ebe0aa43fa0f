import LintBroker.Proofs.Abstention
import LintBroker.Proofs.Habits

/-!
# Whom a lint consults

The collaborators that a host gives are bound once: through all of a run, and within every round,
the settings are read from the same place, the matcher is the same, and the rule for ignored paths
is the same but for what it lists. A rule or a matcher is consulted if it counts as true; one that
counts as false is passed over as if it had not been given, and what stands in for it decides.
-/
namespace LintBroker
open Session Act

namespace Session
variable {s s' s'' : Session}

/-- The collaborators are the same, the rule for ignored paths but for what it lists. -/
structure KeepsCollaborators (s s' : Session) : Prop where
  source : s'.source = s.source
  matcher : s'.host.matcher = s.host.matcher
  rule : ∃ change, s'.host.ignoreRule = s.host.ignoreRule.map (·.relist change)

theorem KeepsCollaborators.of_host (source : s'.source = s.source) (host : s'.host = s.host) :
    s.KeepsCollaborators s' :=
  ⟨source, by rw [host], id, by rw [host]; exact Option.map_id'.symm⟩

instance : IsPreorder Session KeepsCollaborators where
  refl _ := .of_host rfl rfl
  trans _ _ _ h h' := by
    obtain ⟨source, matcher, f, rule⟩ := h
    obtain ⟨source', matcher', g, rule'⟩ := h'
    refine ⟨source'.trans source, matcher'.trans matcher, fun ps => g (f ps), ?_⟩
    rw [rule', rule, Option.map_map]
    rfl

theorem keepsCollaborators_onHost {f : Host → Host} (matcher : (f s.host).matcher = s.host.matcher)
    (rule : (f s.host).ignoreRule = s.host.ignoreRule) : s.KeepsCollaborators (s.onHost f) :=
  ⟨rfl, matcher, id, rule.trans Option.map_id'.symm⟩

theorem Stroke.keepsCollaborators (h : Stroke s s') : s.KeepsCollaborators s' := by
  cases h with
  | quiet h =>
    obtain ⟨_, _, _, rfl⟩ := h
    exact .of_host rfl rfl
  | refurnish f movable =>
    obtain ⟨change, rule⟩ := movable.ignoreRule
    exact ⟨rfl, rfl, change, rule _⟩
  | reshape | alter | subscribe => exact ⟨rfl, rfl, id, Option.map_id'.symm⟩
  | _ => exact .of_host rfl rfl

instance : Lasting KeepsCollaborators where
  stroke := Stroke.keepsCollaborators
  own _ _ := .of_host rfl rfl
  answered _ _ _ := .of_host rfl rfl
  counts _ _ _ := .of_host rfl rfl
  calls _ _ := keepsCollaborators_onHost rfl rfl
  emit := keepsTo_emit (fun _ _ => Stroke.keepsCollaborators) (fun _ _ => .of_host rfl rfl)
    fun _ _ => keepsCollaborators_onHost rfl rfl
  invoked _ _ _ := .of_host rfl rfl
  work _ := .of_host rfl rfl
  pop _ := .of_host rfl rfl
  hear _ _ _ := .of_host rfl rfl

end Session

/-! ### The gate -/

/-- What the rule says of a path that is consulted. If there is none, no path is ignored. -/
def IgnoreRule.saysOf : Option IgnoreRule → Value → Except Failure Value
  | some r, path => ruleAnswer r path
  | none, _ => .ok (.bool false)

/-- The answers of settings, of a rule for ignored paths, and of a surface. -/
def Answers.of (settings : String → Except Failure Value) (rule : Value → Except Failure Value)
    (preview : Except Failure Value) (c : EditContext) : Answers
  | .glob => settings "ignored_glob"
  | .rulesInUse => settings "ignore_vcs_ignored_paths"
  | .rules => rule c.filePath
  | .whileTyping => settings "lint_on_fly"
  | .preview => preview
  | .previewsInUse => settings "lint_preview_tabs"

namespace Session
variable {s : Session}

def ruleConsulted (s : Session) : Option IgnoreRule := s.host.ignoreRule.filter IgnoreRule.truthy

def matcherConsulted (s : Session) : Option Matcher := s.host.matcher.filter Matcher.truthy

theorem KeepsCollaborators.ruleConsulted {s' : Session} (h : s.KeepsCollaborators s') :
    ∃ change, s'.ruleConsulted = s.ruleConsulted.map (·.relist change) := by
  obtain ⟨change, rule⟩ := h.rule
  refine ⟨change, ?_⟩
  rw [Session.ruleConsulted, rule, Session.ruleConsulted]
  cases s.host.ignoreRule with
  | none => rfl
  | some r =>
    show Option.filter IgnoreRule.truthy (some (r.relist change)) = _
    cases hr : r.truthy <;> simp [Option.filter, IgnoreRule.relist, hr]

theorem atGate_of_given {settings : String → Except Failure Value} (h : s.source = .given settings)
    (c : EditContext) : s.atGate c = Answers.of settings (IgnoreRule.saysOf s.ruleConsulted)
      (s.answerOf c.surface .pendingPreview) c := by
  have setting (item : String) : s.settingOf item = settings item := by rw [settingOf, h]
  funext q
  cases q with
  | rules =>
    show s.ignoredOf c.filePath = IgnoreRule.saysOf s.ruleConsulted c.filePath
    unfold ignoredOf Session.ruleConsulted
    cases s.host.ignoreRule with
    | none => rfl
    | some r => cases hr : r.truthy <;> simp [Option.filter, hr, IgnoreRule.saysOf]
  | preview => rfl
  | _ => exact setting _

theorem writtenOf_rules (s : Session) (c : EditContext) :
    s.writtenOf c .rules = s.ruleConsulted.toList.map fun _ => .ignoreAsked c.filePath := by
  show (if s.host.ignoreRule.any IgnoreRule.truthy then _ else _) = _
  unfold Session.ruleConsulted
  cases s.host.ignoreRule with
  | none => rfl
  | some r => cases hr : r.truthy <;> simp [Option.filter, hr]

end Session

/-! ### The matcher -/

namespace Round
variable {s s' : Session} {t : TaskId} {c : EditContext} {names : List Value} {id : RecordId}

/-- A provider is matched by the matcher that is consulted. If there is none, grammars decide. -/
def matching (m : Option Matcher) (scopes : Value) (surface : SurfaceId) : Act Value :=
  match m with
  | some m => do
    note (.matchAsked scopes surface)
    take (m.verdict scopes surface)
  | none => matchGrammar scopes surface

/-- The matcher's answer, unless the provider does not run while the user types. -/
def unlessIdle (c : EditContext) (r : Record Nat) (found : Value) : Act Value := do
  if c.onChange.truthy then
    if !(← take ((← attributes r.provider).lintsOnChange r.contract)) then return .bool false
  return found

/-- What becomes of a registration when its provider has been matched. -/
def afterMatch (t : TaskId) (c : EditContext) (id : RecordId) (r : Record Nat) (found : Value) :
    Act (Option Dispatch) := do
  let applies ← unlessIdle c r found
  if !applies.truthy then return none
  let d ← openDispatch t id c
  let notice ← beginNotice r.provider c
  emit none d notice
  return some d

/-- The registration is asked about at its turn: it is still in force, its provider is not disabled,
and it is for these scopes. -/
structure Turn.AsksAbout (x : Turn) (names : List Value) (r : Record Nat) (scopes : Value) : Prop where
  enabled : ∃ name, x.Bears r name ∧ (Value.str name).among names = false
  scopes : x.session.scopesOf r.provider = .ok scopes

theorem exec_askMatcher_eq (s : Session) (scopes : Value) (surface : SurfaceId) :
    (askMatcher scopes surface).exec s = (matching s.matcherConsulted scopes surface).exec s := by
  rw [askMatcher, exec_bind_ok exec_get]
  unfold matcherConsulted
  cases s.host.matcher with
  | none => rfl
  | some m => cases hm : m.truthy <;> simp [Option.filter, hm, matching]

theorem exec_consider_of_asks {x : Turn} {r : Record Nat} {scopes : Value}
    (asks : x.AsksAbout names r scopes) : (consider t c names x.id).exec x.session =
      (matching x.session.matcherConsulted scopes c.surface >>= afterMatch t c x.id r).exec
        x.session := by
  obtain ⟨name, bears, enabled⟩ := asks.enabled
  have read : (readAttribute r.provider "grammar_scopes").exec x.session =
      (.ok scopes, x.session) := by
    rw [Broker.exec_readAttribute]
    exact congrArg (·, x.session) asks.scopes
  have triggered : (Gate.shouldTrigger r c).exec x.session = (do
      let found ← matching x.session.matcherConsulted scopes c.surface
      unlessIdle c r found).exec x.session := by
    rw [Gate.shouldTrigger, exec_bind_ok read, exec_bind, exec_askMatcher_eq, ← exec_bind]
    rfl
  rw [exec_consider_of_bears bears, enabled, askAbout, exec_bind, triggered, ← exec_bind, bind_assoc]
  rfl

/-- The collaborators are the same at every turn of a round. -/
theorem keepsCollaborators_of_mem_turns {ids : List RecordId} {x : Turn}
    (h : x ∈ turns t c names ids s) : s.KeepsCollaborators x.session := by
  induction ids generalizing s with
  | nil => cases h
  | cons id rest ih =>
    rw [turns] at h
    rcases List.mem_cons.mp h with rfl | later
    · exact refl s
    · have step : s.KeepsCollaborators ((consider t c names id).exec s).2 :=
        habit_consider t c names id s
      exact IsTrans.trans _ _ _ step (ih later)

/-- Whatever has been done in a run, a lint consults the rule for ignored paths and the matcher that
the host gave, but for the paths that the rule lists, if they count as true, and otherwise none. Its
gate decides as the settings that were given, that rule and the surface answer, and asks the rule
about the path if it gets to it; and each provider that is asked about at its turn is matched by
that matcher. -/
theorem consults_those_that_count {s : Session} {settings : String → Except Failure Value}
    (given : s.source = .given settings) (moves : List Move) (t : TaskId) (c : EditContext) :
    let u := (s.run moves).woken t
    ∃ change, let rule := s.ruleConsulted.map (·.relist change)
      Follows (Gate.shouldLint c) u c ((Answers.of settings (IgnoreRule.saysOf rule)
        (u.answerOf c.surface .pendingPreview) c).deliberate c) ∧
      u.writtenOf c .rules = (rule.toList.map fun _ => .ignoreAsked c.filePath) ∧
      ∀ u₁ u₂ names, (passes c).exec u = (.ok true, u₁) →
        disabledNames.exec u₁ = (.ok names, u₂) →
          ∀ x ∈ turns t c names u₂.registry.active.values u₂, ∀ r scopes,
            x.AsksAbout names r scopes → (consider t c names x.id).exec x.session =
              (matching s.matcherConsulted scopes c.surface >>= afterMatch t c x.id r).exec
                x.session := by
  intro u
  have kept : s.KeepsCollaborators u :=
    IsTrans.trans _ _ _ (lasting_run s moves) (.of_host rfl rfl)
  obtain ⟨change, rule⟩ := kept.ruleConsulted
  refine ⟨change, ?_, ?_, ?_⟩
  · rw [← rule, ← atGate_of_given (kept.source.trans given)]
    exact Gate.follows_shouldLint u c
  · rw [← rule]
    exact u.writtenOf_rules c
  · intro u₁ u₂ names passed named x hx r scopes asks
    have passing : u.KeepsCollaborators u₁ := by
      have quiet := (unchosen_passes c u).1
      change Quiet u ((passes c).exec u).2 at quiet
      rw [passed] at quiet
      exact Stroke.keepsCollaborators (.quiet quiet)
    have naming : u₁.KeepsCollaborators u₂ := by
      have quiet := quiet_disabledNames u₁
      change Quiet u₁ (disabledNames.exec u₁).2 at quiet
      rw [named] at quiet
      exact Stroke.keepsCollaborators (.quiet quiet)
    have here : s.KeepsCollaborators x.session :=
      IsTrans.trans _ _ _ kept (IsTrans.trans _ _ _ passing
        (IsTrans.trans _ _ _ naming (keepsCollaborators_of_mem_turns hx)))
    rw [exec_consider_of_asks asks, matcherConsulted, here.matcher]
    rfl

/-- A sample with a registration, whose rule for ignored paths is in use and lists the path of its
surface, and whose matcher matches nothing. Both count as false. -/
def sampleIdle : Session :=
  let base := sample []
  { base with
    source := .given fun item => .ok (.bool (item == "ignore_vcs_ignored_paths"))
    host := { base.host with
      ignoreRule := some { listed := [.str "/a"], truthy := false }
      matcher := some { verdict := fun _ _ => .ok (.bool false), truthy := false } }
    registry := base.registry.insert "p" .current }

/-- The gate of a sample's lint lets the edit through without asking the rule, and the one provider is
matched by its grammars. -/
theorem sampleIdle_consults :
    let c := sampleDispatch.context
    let s := (sampleIdle.run []).woken 0
    sampleIdle.source = .given (fun item => .ok (.bool (item == "ignore_vcs_ignored_paths"))) ∧
      ((Gate.shouldLint c).exec s).1 = .ok true ∧ s.writtenOf c .rules = [] ∧
      ∃ (x : Turn) (r : Record Nat), x.AsksAbout [] r (.list [.str "*"]) ∧
        (consider 0 c [] x.id).exec x.session =
          (matchGrammar (.list [.str "*"]) "s" >>= afterMatch 0 c x.id r).exec x.session := by
  intro c s
  obtain ⟨change, gate, written, matched⟩ := consults_those_that_count
    (s := sampleIdle) rfl [] 0 c
  refine ⟨rfl, gate.result, written, ?_⟩
  let s₁ := ((passes c).exec s).2
  let s₂ := (disabledNames.exec s₁).2
  have asks : Turn.AsksAbout ⟨0, s₂⟩ [] ⟨"p", .current, true, ⟨0, 0⟩⟩
    (.list [.str "*"]) :=
    ⟨⟨"p", ⟨rfl, rfl, rfl⟩, rfl⟩, rfl⟩
  exact ⟨_, _, asks, matched s₁ s₂ [] rfl rfl _ (.head _) _ _ asks⟩

/-- The rule of a sample ignores the path and would turn the edit away, and its matcher matches no
provider. The edit is let through and the provider begins, and neither has been asked. -/
theorem sampleIdle_passes_over :
    let c := sampleDispatch.context
    let s := sampleIdle
    let settings (item : String) : Except Failure Value :=
      .ok (.bool (item == "ignore_vcs_ignored_paths"))
    s.source = .given settings ∧
      ((Answers.of settings (IgnoreRule.saysOf s.host.ignoreRule)
        (s.answerOf c.surface .pendingPreview) c).deliberate c).result = .ok false ∧
      (∀ m ∈ s.host.matcher, ∀ scopes surface, m.verdict scopes surface = .ok (.bool false)) ∧
      ((Gate.shouldLint c).exec s).1 = .ok true ∧
      ((start 0 c).exec s).2.beginnings "p" = [(0, 0, 1)] ∧
      ((start 0 c).exec s).2.history.all (fun
        | .ignoreAsked _ | .matchAsked _ _ => false
        | _ => true) = true := by
  refine ⟨rfl, eq_of_isTruth_map (by decide +kernel), ?_, rfl, by decide +kernel, by decide +kernel⟩
  rintro m ⟨⟩ scopes surface
  rfl

end Round
end LintBroker

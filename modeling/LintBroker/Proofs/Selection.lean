import LintBroker.Proofs.Configuration
import LintBroker.Proofs.Roster
import LintBroker.Proofs.Settling

/-!
# Which providers take part

A round goes through the registrations that were in force when it started, and each has its turn. One
that is still in force then and not disabled is asked about, and if its answers are all for it, its
dispatch is opened and its beginning announced before the next one has its turn. Whoever listens to
that may change the registry, the providers and the settings: what counts for a registration is the
session as it is at its turn, and for the disabled providers what was read before the first turn.
-/
namespace LintBroker
open Session Act

/-- Whether an entry tells how a round chooses: what is disabled, what the matcher is asked, which
dispatches are opened and what is announced. -/
def Entry.isChoice : Entry → Bool
  | .settingAsked item => item == "disabled_providers"
  | .matchAsked .. | .surfaceAsked _ .grammar | .dispatched _ | .emitted .. => true
  | _ => false

theorem Entry.isChoice_of_isOfGate {e : Entry} (h : e.isOfGate = true) : e.isChoice = false := by
  cases e with
  | settingAsked item => simpa [isOfGate, isChoice] using h
  | surfaceAsked id q => cases q <;> first | rfl | cases h
  | _ => first | rfl | cases h

theorem Entry.isProceeding_of_isChoice {e : Entry} (h : e.isChoice = true) :
    e.isProceeding = true := by
  cases e with
  | surfaceAsked id q => cases q <;> first | rfl | cases h
  | _ => first | rfl | cases h

/-! ### Disabled names -/

namespace Value
variable {v : Value} {items names : List Value}

/-- The name is among those that a setting disables. A setting that counts as false disables none. -/
def disables (v : Value) (name : String) : Bool :=
  v.truthy && match v.items with
    | .ok items => (Value.str name).among items
    | .error _ => false

theorem same_str_of_same {a : String} {x y : Value} (hx : (Value.str a).same x = true)
    (hy : x.same y = true) : (Value.str a).same y = true := by
  cases x with
  | str b =>
    obtain rfl : b = a := by simpa [same, text?] using hx
    exact hy
  | scope b =>
    obtain rfl : b.word = a := by simpa [same, text?] using hx
    simpa [same, text?] using hy
  | _ => simp [same, text?] at hx

/-- One more value is found by running through: it is left out if it is there already. -/
def withDistinct (seen : List Value) (x : Value) : Except Failure (List Value) :=
  match x.mutableType? with
  | some t => throw (unhashable t)
  | Option.none => return if x.among seen then seen else seen ++ [x]

/-- To leave out what is there already leaves the same names there. -/
theorem among_distinctItems (hv : v.items = .ok items) (hn : v.distinctItems = .ok names)
    (a : String) : (Value.str a).among names = (Value.str a).among items := by
  have fold (found seen : List Value) (h : found.foldlM withDistinct seen = .ok names) :
      (Value.str a).among names = ((Value.str a).among seen || (Value.str a).among found) := by
    induction found generalizing seen with
    | nil =>
      obtain rfl := Except.ok.inj h
      simp [among]
    | cons x found ih =>
      rw [List.foldlM_cons, withDistinct] at h
      cases hx : x.mutableType? with
      | some t =>
        rw [hx] at h
        cases h
      | none =>
        rw [hx] at h
        rw [ih _ h]
        by_cases again : x.among seen = true
        · rw [if_pos again]
          by_cases hax : (Value.str a).same x = true
          · obtain ⟨y, hy, hxy⟩ := List.any_eq_true.mp again
            have there : (Value.str a).among seen = true :=
              List.any_eq_true.mpr ⟨y, hy, same_str_of_same hax hxy⟩
            rw [there, Bool.true_or, Bool.true_or]
          · simp [among, hax]
        · rw [if_neg again]
          simp [among, Bool.or_assoc]
  have found : items.foldlM withDistinct [] = .ok names := by
    rw [distinctItems, hv] at hn
    exact hn
  simpa [among] using fold items [] found

end Value

/-! ### The order of registrations -/

namespace Table
variable {κ α : Type} [DecidableEq κ]

theorem putRow_of_new {k : κ} (v : α) {rows : List (κ × α)} (new : k ∉ rows.map Prod.fst) :
    putRow k v rows = rows ++ [(k, v)] := by
  induction rows with
  | nil => rfl
  | cons row rows ih =>
    rw [List.map_cons, List.mem_cons, not_or] at new
    rw [putRow, if_neg (Ne.symm new.1), ih new.2, List.cons_append]

theorem values_put_of_new {t : Table κ α} {k : κ} (v : α) (new : k ∉ t.keys) :
    (t.put k v).values = t.values ++ [v] := by
  show (putRow k v t.rows).map Prod.snd = _
  rw [putRow_of_new v new, List.map_append]
  rfl

theorem values_erase_sublist (t : Table κ α) (k : κ) : (t.erase k).values.Sublist t.values :=
  List.filter_sublist.map _

end Table

namespace Registry
variable {r : Registry} {p : ProviderId}

/-- The registrations in force are listed in the order in which they were made. -/
def Rising (r : Registry) : Prop := r.active.values.Pairwise (· < ·)

theorem Rising.insert (h : r.Rising) (orderly : r.Orderly) (new : r.find? p = none) (c : Contract) :
    (r.insert p c).Rising := by
  show (r.active.put p r.records.size).values.Pairwise (· < ·)
  rw [Table.values_put_of_new _ (find?_eq_none_iff.mp new), List.pairwise_append]
  refine ⟨h, List.pairwise_singleton _ _, fun id hi last hl => ?_⟩
  obtain ⟨x, hx⟩ := orderly.made hi
  rw [List.mem_singleton.mp hl]
  exact (Array.getElem?_eq_some_iff.mp hx).1

theorem Rising.remove (h : r.Rising) (p : ProviderId) : (r.remove p).Rising := by
  unfold Registry.remove
  split
  · exact List.Pairwise.sublist (Table.values_erase_sublist _ _) h
  · exact h

end Registry

namespace Session
variable {s s' s'' : Session}

theorem Step.rising (h : s.Step s') (orderly : s.registry.Orderly) (hs : s.registry.Rising) :
    s'.registry.Rising := by
  cases h with
  | change h =>
    cases h with
    | register c _ new => exact hs.insert orderly new c
    | remove hp => exact hs.remove _
    | dispose => exact .nil
    | _ => exact hs
  | _ => exact hs

theorem Path.rising (h : s.Path s') (orderly : s.registry.Orderly) (hs : s.registry.Rising) :
    s'.registry.Rising := by
  induction h with
  | refl => exact hs
  | tail path step ih => exact step.rising (Path.orderly path orderly) ih

/-! ### What a round has chosen so far -/

/-- How rounds have chosen, in order. -/
def choices (s : Session) : List Entry := s.history.filter Entry.isChoice

def requested (s : Session) (id : RecordId) : Nat :=
  (s.registry.records[id]?.map fun x => x.counters.latest).getD 0

/-- How far rounds have come: what they have chosen since, and which registrations they have counted a
request for. No registration has gone. -/
structure Advances (s s' : Session) (entries : List Entry) (ids : List RecordId) : Prop where
  choices : s'.choices = s.choices ++ entries
  requested : ∀ id, s'.requested id = s.requested id + ids.count id
  kept : ∀ {id : RecordId} {x : Record Nat}, s.registry.records[id]? = some x →
    ∃ y, s'.registry.records[id]? = some y

namespace Advances
variable {es es' : List Entry} {ids ids' : List RecordId}

theorem refl (s : Session) : s.Advances s [] [] := ⟨by simp, by simp, fun h => ⟨_, h⟩⟩

theorem trans (h : s.Advances s' es ids) (h' : s'.Advances s'' es' ids') :
    s.Advances s'' (es ++ es') (ids ++ ids') where
  choices := by rw [h'.choices, h.choices, List.append_assoc]
  requested id := by rw [h'.requested, h.requested, List.count_append, Nat.add_assoc]
  kept hx := by
    obtain ⟨y, hy⟩ := h.kept hx
    exact h'.kept hy

theorem of_registry (choices : s'.choices = s.choices ++ es) (same : s'.registry = s.registry) :
    s.Advances s' es [] := by
  refine ⟨choices, fun id => ?_, fun hx => ⟨_, same ▸ hx⟩⟩
  rw [Session.requested, same]
  rfl

end Advances

theorem choices_noted (s : Session) (e : Entry) :
    (s.noted e).choices = s.choices ++ [e].filter Entry.isChoice := by
  rw [choices, history_noted, List.filter_append]
  rfl

theorem choices_eq_of_proceedings (s : Session) :
    s.choices = s.proceedings.filter Entry.isChoice := by
  rw [choices, proceedings, List.filter_filter]
  refine List.filter_congr fun e _ => ?_
  cases h : e.isChoice with
  | false => rfl
  | true => rw [Entry.isProceeding_of_isChoice h]; rfl

theorem advances_noted {e : Entry} (h : e.isChoice = true) (s : Session) :
    s.Advances (s.noted e) [e] [] :=
  .of_registry (by rw [choices_noted, List.filter_cons_of_pos h, List.filter_nil]) rfl

theorem advances_aside {e : Entry} (h : e.isChoice = false) (s : Session) :
    s.Advances (s.noted e) [] [] :=
  .of_registry (by rw [choices_noted, List.filter_cons_of_neg (by simp [h]), List.filter_nil]) rfl

/-- Nothing was chosen, and no request counted. -/
def Unchosen (s s' : Session) : Prop := Quiet s s' ∧ s.Advances s' [] []

instance : IsPreorder Session Unchosen where
  refl s := ⟨.refl s, .refl s⟩
  trans _ _ _ h h' := ⟨h.1.trans h'.1, h.2.trans h'.2⟩

/-- What listeners and actions change counts no request. -/
theorem Changes.advances {es : List Entry} (h : Changes s s') (choices : s'.choices = s.choices ++ es) :
    s.Advances s' es [] := by
  refine ⟨choices, fun id => ?_, fun hx => ?_⟩
  · have counted : s'.requested id = s.requested id := by
      clear choices
      induction h with
      | refl => rfl
      | @tail u v _ change ih =>
        rw [← ih, requested, requested]
        cases hy : v.registry.records[id]? with
        | none =>
          cases hx : u.registry.records[id]? with
          | none => rfl
          | some x =>
            obtain ⟨y, hy', _⟩ := change.record_forth hx
            rw [hy] at hy'
            cases hy'
        | some y =>
          rcases change.record hy with ⟨x, hx, _, same⟩ | ⟨none, zero, _⟩
          · rw [hx, Option.map_some, Option.map_some, same]
          · rw [none, Option.map_some, zero]
            rfl
    rw [counted]
    rfl
  · obtain ⟨y, hy, _⟩ := h.record_forth hx
    exact ⟨y, hy⟩

theorem advances_opened {id : RecordId} {x : Record Nat} (hx : s.registry.records[id]? = some x)
    (d : Dispatch) : s.Advances ((s.onRegistry fun r =>
      r.changeRecord id fun x => { x with counters := x.counters.next }).noted (.dispatched d))
        [.dispatched d] [id] := by
  have counts : s.Advances (s.onRegistry fun r =>
      r.changeRecord id fun x => { x with counters := x.counters.next }) [] [id] := by
    refine ⟨by simp [choices], fun i => ?_, fun {i y} hy => ?_⟩
    · rw [requested, registry_onRegistry, Registry.getElem?_changeRecord]
      by_cases same : id = i
      · subst same
        simp [requested, hx]
      · simp [requested, same]
    · rw [registry_onRegistry, Registry.getElem?_changeRecord, hy]
      split <;> exact ⟨_, rfl⟩
  exact counts.trans (advances_noted rfl _)

end Session

/-! ### What is asked about a registration -/

namespace Session
variable {s s' : Session}

/-- What the matcher answers about scopes: the host's, if it gives one that counts as true, and
otherwise the one by grammars. -/
def matchOf (s : Session) (scopes : Value) (surface : SurfaceId) : Except Failure Value :=
  match s.host.matcher.filter Matcher.truthy with
  | some m => m.verdict scopes surface
  | none => do
    if ← scopes.contains (.str "*") then return .bool true
    return .bool (← scopes.contains (← s.answerOf surface .grammar))

/-- What is asked for that answer: the host's matcher, or the surface unless every surface matches. -/
def matchQuestions (s : Session) (scopes : Value) (surface : SurfaceId) : List Entry :=
  match s.host.matcher.filter Matcher.truthy, scopes.contains (.str "*") with
  | some _, _ => [.matchAsked scopes surface]
  | none, .ok false => [.surfaceAsked surface .grammar]
  | none, _ => []

/-- The scopes of grammars that a provider is for, as they read now. -/
def scopesOf (s : Session) (p : ProviderId) : Except Failure Value :=
  s.attributesOf p >>= fun a => a.read "grammar_scopes"

/-- Whether a provider runs while the user types, as it reads now through a contract. -/
def triggerOf (s : Session) (p : ProviderId) (c : Contract) : Except Failure Bool :=
  s.attributesOf p >>= fun a => a.lintsOnChange c

end Session

namespace Act
variable {s : Session} {scopes v : Value} {surface : SurfaceId}

theorem exec_matchGrammar (host : s.host.matcher.filter Matcher.truthy = none)
    (h : s.matchOf scopes surface = .ok v) :
    ∃ s', (matchGrammar scopes surface).exec s = (.ok v, s') ∧ Quiet s s' ∧
      s.Advances s' (s.matchQuestions scopes surface) [] := by
  unfold matchOf at h
  rw [host] at h
  unfold matchQuestions
  rw [host]
  obtain ⟨any, hany, h⟩ := bind_eq_ok h
  have first : (take (scopes.contains (.str "*"))).exec s = (.ok any, s) := by rw [exec_take, hany]
  cases any with
  | true =>
    obtain rfl := Except.ok.inj h
    refine ⟨s, ?_, .refl s, ?_⟩
    · rw [matchGrammar, exec_bind_ok first]
      rfl
    · rw [hany]
      exact .refl s
  | false =>
    obtain ⟨grammar, hg, h⟩ := bind_eq_ok h
    obtain ⟨found, hf, h⟩ := bind_eq_ok h
    obtain rfl := Except.ok.inj h
    have asked : (askSurface surface .grammar).exec s =
        (.ok grammar, s.noted (.surfaceAsked surface .grammar)) := by
      unfold answerOf at hg
      cases hx : s.host.surfaces.get? surface with
      | none =>
        rw [hx] at hg
        cases hg
      | some x =>
        have answer : x.answer .grammar = .ok grammar := by
          rw [hx] at hg
          exact hg
        have there : (expect (s.host.surfaces.get? surface) surface).exec s = (.ok x, s) := by
          rw [exec_expect, hx]
        rw [askSurface, exec_bind_ok exec_get, exec_bind_ok there, exec_bind_ok (exec_note _),
          exec_take, answer]
    refine ⟨s.noted (.surfaceAsked surface .grammar), ?_, quiet_note rfl s, ?_⟩
    · rw [matchGrammar, exec_bind_ok first]
      simp only [Bool.false_eq_true, if_false]
      rw [exec_bind_ok asked, exec_bind_ok (by rw [exec_take, hf])]
      rfl
    · rw [hany]
      exact advances_noted rfl s

theorem exec_askMatcher (h : s.matchOf scopes surface = .ok v) :
    ∃ s', (askMatcher scopes surface).exec s = (.ok v, s') ∧ Quiet s s' ∧
      s.Advances s' (s.matchQuestions scopes surface) [] := by
  rw [askMatcher, exec_bind_ok exec_get]
  cases hm : s.host.matcher with
  | none => exact exec_matchGrammar (by rw [hm]; rfl) h
  | some m =>
    dsimp only
    cases truthy : m.truthy with
    | false => exact exec_matchGrammar (by simp [hm, truthy]) h
    | true =>
      have host : s.host.matcher.filter Matcher.truthy = some m := by simp [hm, truthy]
      have verdict : m.verdict scopes surface = .ok v := by
        unfold matchOf at h
        rw [host] at h
        exact h
      refine ⟨s.noted (.matchAsked scopes surface), ?_, quiet_note rfl s, ?_⟩
      · rw [if_pos rfl, exec_bind_ok (exec_note _), exec_take, verdict]
      · unfold matchQuestions
        rw [host]
        exact advances_noted rfl s

end Act

namespace Gate
variable {s : Session} {scopes v : Value} {x : Record Nat} {context : EditContext}

/-- A provider takes part if the matcher's answer counts as true and, while the user types, if it runs
then. -/
theorem exec_shouldTrigger (hs : s.scopesOf x.provider = .ok scopes)
    (hv : s.matchOf scopes context.surface = .ok v)
    (trigger : context.onChange.truthy = true → ∃ b, s.triggerOf x.provider x.contract = .ok b) :
    ∃ w s', (shouldTrigger x context).exec s = (.ok w, s') ∧ Quiet s s' ∧
      s.Advances s' (s.matchQuestions scopes context.surface) [] ∧
      (w.truthy = true ↔ v.truthy = true ∧
        (context.onChange.truthy = true → s.triggerOf x.provider x.contract = .ok true)) := by
  obtain ⟨s₁, asked, quiet, chosen⟩ := exec_askMatcher hv
  have read : (readAttribute x.provider "grammar_scopes").exec s = (.ok scopes, s) := by
    rw [Broker.exec_readAttribute]
    exact congrArg (·, s) hs
  unfold shouldTrigger
  rw [exec_bind_ok read, exec_bind_ok asked]
  by_cases typing : context.onChange.truthy = true
  · obtain ⟨runs, hruns⟩ := trigger typing
    obtain ⟨a, ha, hr⟩ := bind_eq_ok hruns
    have attributes : (Act.attributes x.provider).exec s₁ = (.ok a, s₁) := by
      rw [exec_attributes, quiet.attributesOf, ha]
    have taken : (take (a.lintsOnChange x.contract)).exec s₁ = (.ok runs, s₁) := by rw [exec_take, hr]
    rw [if_pos typing, exec_bind_ok attributes, exec_bind_ok taken, hruns]
    cases runs with
    | false => exact ⟨_, s₁, rfl, quiet, chosen, nofun, fun h => nomatch h.2 typing⟩
    | true => exact ⟨v, s₁, rfl, quiet, chosen, by simp⟩
  · rw [if_neg typing]
    exact ⟨v, s₁, rfl, quiet, chosen, by simp [typing]⟩

end Gate

/-! ### Announcing the beginning -/

namespace Act
variable {s s' : Session} {d : Dispatch}

/-- Whoever of the listeners is called in turn with a notice fails in an ordinary way at most. -/
def CallsContained (d : Dispatch) (kind : NoticeKind) : List ListenerId → Notice → Session → Prop
  | [], _, _ => True
  | l :: rest, n, s =>
    let ((n', r), s₁) := (call none d l n).run s
    match r with
    | .ok () => CallsContained d kind rest n' s₁
    | .error f => f.isOrdinary = true ∧
        CallsContained d kind rest n' ((reportListener kind l f).run s₁).2

/-- Whether the calls are contained can be found out by making them. -/
instance (d : Dispatch) (kind : NoticeKind) :
    ∀ audience n s, Decidable (CallsContained d kind audience n s)
  | [], _, _ => .isTrue trivial
  | l :: rest, n, s => by
    unfold CallsContained
    exact match (call none d l n).run s with
      | ((n', .ok ()), s₁) => instDecidableCallsContained d kind rest n' s₁
      | ((n', .error f), s₁) =>
        have := instDecidableCallsContained d kind rest n' ((reportListener kind l f).run s₁).2
        inferInstanceAs (Decidable (f.isOrdinary = true ∧
          CallsContained d kind rest n' ((reportListener kind l f).run s₁).2))

theorem run_deliverAll_of_contained {kind : NoticeKind} {audience : List ListenerId} {n : Notice}
    (h : CallsContained d kind audience n s) :
    ((deliverAll (call none d) (reportListener kind) audience n).run s).1 = .ok () := by
  induction audience generalizing n s with
  | nil => rfl
  | cons l rest ih =>
    unfold CallsContained at h
    generalize hc : (call none d l n).run s = outcome at h
    obtain ⟨⟨n', r⟩, s₁⟩ := outcome
    rw [run_deliverAll_cons hc]
    cases r with
    | ok _ => exact ih h
    | error f =>
      dsimp only
      rw [if_pos h.1]
      exact ih h.2

theorem exec_emit_of_contained {n : Notice} (h : CallsContained d n.kind
      (s.registry.bus.audience n.kind) n (s.noted (.emitted d n))) :
    ∃ s', (emit none d n).exec s = (.ok (), s') ∧ s.Advances s' [.emitted d n] [] := by
  have ok : ((emit none d n).exec s).1 = .ok () := run_deliverAll_of_contained h
  have rest : (s.noted (.emitted d n)).Advances ((emit none d n).exec s).2 [] [] := by
    refine (changes_emit none d n s).advances ?_
    rw [choices_eq_of_proceedings, choices_eq_of_proceedings, proceedings_emit, proceedings_noted,
      List.append_nil]
    rfl
  exact ⟨_, Prod.ext ok rfl, (advances_noted rfl s).trans rest⟩

end Act

/-! ### One turn after the other -/

namespace Round

/-- The turn of a registration: which it is, and the session when its turn comes. -/
structure Turn where
  id : RecordId
  session : Session

namespace Turn
variable (x : Turn) (t : TaskId) (context : EditContext) (disabled : Value)

def record : Record Nat := x.session.registry.records[x.id]?.getD default

def provider : ProviderId := x.record.provider

/-- The matcher's answer for the provider. -/
def verdict : Except Failure Value :=
  x.session.scopesOf x.provider >>= fun scopes => x.session.matchOf scopes context.surface

/-- The registration is still in force, and its provider is not disabled. -/
def Asked : Prop :=
  x.record.activated = true ∧
    ∃ name, x.session.nameOf x.provider = .ok name ∧ disabled.disables name = false

/-- The registration takes part: it is asked about, the matcher is for it, and it runs while the user
types if that is when the edit was made. -/
structure Selected : Prop where
  asked : x.Asked disabled
  fits : ∃ v, x.verdict context = .ok v ∧ v.truthy = true
  runs : context.onChange.truthy = true →
    x.session.triggerOf x.provider x.record.contract = .ok true

def dispatch : Dispatch := ⟨t, x.id, x.record.counters.latest + 1, context⟩

/-- The session once all has been asked and that dispatch is open. -/
def opened : Session :=
  (((Gate.shouldTrigger x.record context).exec x.session).2.onRegistry fun r =>
    r.changeRecord x.id fun y => { y with counters := y.counters.next }).noted
      (.dispatched (x.dispatch t context))

/-- The notice that tells of the beginning. -/
def notice : Notice :=
  .begin x.provider (match x.session.scopeOf x.provider with
    | .ok scope => context.pathIn scope
    | .error _ => .none)

open Classical in
/-- What is asked and done at the turn. -/
noncomputable def choices : List Entry :=
  if x.Asked disabled then
    (match x.session.scopesOf x.provider with
      | .ok scopes => x.session.matchQuestions scopes context.surface
      | .error _ => []) ++
    if x.Selected context disabled then
      [.dispatched (x.dispatch t context), .emitted (x.dispatch t context) (x.notice context)]
    else []
  else []

/-- At the turn, whatever is read or asked can be, and nobody who listens to the beginning fails in
more than an ordinary way. -/
structure Answers : Prop where
  name : x.record.activated = true → ∃ name, x.session.nameOf x.provider = .ok name
  verdict : x.Asked disabled → ∃ v, x.verdict context = .ok v
  trigger : x.Asked disabled → context.onChange.truthy = true →
    ∃ b, x.session.triggerOf x.provider x.record.contract = .ok b
  scope : x.Selected context disabled → ∃ scope, x.session.scopeOf x.provider = .ok scope
  heard : x.Selected context disabled →
    CallsContained (x.dispatch t context) .begin
      ((x.opened t context).registry.bus.audience .begin) (x.notice context)
      ((x.opened t context).noted (.emitted (x.dispatch t context) (x.notice context)))

end Turn

def turns (t : TaskId) (context : EditContext) (names : List Value) :
    List RecordId → Session → List Turn
  | [], _ => []
  | id :: rest, s =>
    ⟨id, s⟩ :: turns t context names rest ((consider t context names id).exec s).2

theorem map_id_turns (t : TaskId) (context : EditContext) (names : List Value)
    (ids : List RecordId) (s : Session) : (turns t context names ids s).map Turn.id = ids := by
  induction ids generalizing s with
  | nil => rfl
  | cons id rest ih => rw [turns, List.map_cons, ih]

/-- What becomes of a registration that is asked about. -/
def askAbout (t : TaskId) (context : EditContext) (id : RecordId) (r : Record Nat) :
    Act (Option Dispatch) := do
  let applies ← Gate.shouldTrigger r context
  if !applies.truthy then return none
  let d ← openDispatch t id context
  let notice ← beginNotice r.provider context
  emit none d notice
  return some d

/-- At its turn the registration is in force, and its provider has a name that can be read. -/
structure Turn.Bears (x : Turn) (r : Record Nat) (name : String) : Prop where
  record : x.session.registry.records[x.id]? = some r
  inForce : r.activated = true
  named : x.session.nameOf r.provider = .ok name

/-- Such a registration is passed over if the name is disabled, and else it is asked about. -/
theorem exec_consider_of_bears {x : Turn} {r : Record Nat} {name : String} (bears : x.Bears r name)
    (t : TaskId) (context : EditContext) (names : List Value) :
    (consider t context names x.id).exec x.session =
      if (Value.str name).among names then
        (.ok none, x.session.noted (.trace ("Skipping disabled provider " ++ Text.quoted name)))
      else (askAbout t context x.id r).exec x.session := by
  have record : (Broker.record x.id).exec x.session = (.ok r, x.session) := by
    rw [Broker.record, exec_bind_ok exec_get, exec_expect, bears.record]
  have named : (Broker.nameOf r.provider).exec x.session = (.ok name, x.session) := by
    rw [Broker.exec_nameOf, bears.named]
  rw [consider, exec_bind_ok record]
  simp only [bears.inForce, Bool.not_true, Bool.false_eq_true, if_false]
  rw [exec_bind_ok named]
  split <;> rfl

/-- A registration out of force is passed over. -/
theorem exec_consider_of_inactive {x : Turn} {r : Record Nat}
    (there : x.session.registry.records[x.id]? = some r) (out : r.activated = false)
    (t : TaskId) (context : EditContext) (names : List Value) :
    (consider t context names x.id).exec x.session = (.ok none, x.session) := by
  have record : (Broker.record x.id).exec x.session = (.ok r, x.session) := by
    rw [Broker.record, exec_bind_ok exec_get, exec_expect, there]
  rw [consider, exec_bind_ok record, out]
  rfl

section
variable {t : TaskId} {context : EditContext} {names : List Value} {disabled : Value} {x : Turn}

theorem exec_begin_of_selected {w : Value} {s₁ : Session}
    (there : x.session.registry.records[x.id]? = some x.record)
    (selected : x.Selected context disabled) (answers : x.Answers t context disabled)
    (he : (Gate.shouldTrigger x.record context).exec x.session = (.ok w, s₁))
    (quiet : Quiet x.session s₁) : ∃ s₂,
      (do
        let d ← openDispatch t x.id context
        let notice ← beginNotice x.provider context
        emit none d notice
        return some d : Act (Option Dispatch)).exec s₁ = (.ok (some (x.dispatch t context)), s₂) ∧
      s₁.Advances s₂
        [.dispatched (x.dispatch t context), .emitted (x.dispatch t context) (x.notice context)]
        [x.id] := by
  obtain ⟨scope, hscope⟩ := answers.scope selected
  have there₁ : s₁.registry.records[x.id]? = some x.record := by rw [quiet.registry, there]
  have opened : x.opened t context = (s₁.onRegistry fun r =>
      r.changeRecord x.id fun y => { y with counters := y.counters.next }).noted
        (.dispatched (x.dispatch t context)) := by
    rw [Turn.opened, he]
  have open_ : (openDispatch t x.id context).exec s₁ =
      (.ok (x.dispatch t context), x.opened t context) := by
    rw [opened]
    exact exec_openDispatch there₁
  have begun : (beginNotice x.provider context).exec (x.opened t context) =
      (.ok (x.notice context), x.opened t context) := by
    have scope₁ : (x.opened t context).scopeOf x.provider = .ok scope := by
      rw [opened]
      exact (quiet.scopeOf _).trans hscope
    rw [exec_beginNotice, scope₁, Turn.notice, hscope]
    rfl
  obtain ⟨s₂, hemit, emits⟩ :=
    exec_emit_of_contained (n := x.notice context) (answers.heard selected)
  refine ⟨s₂, ?_, ?_⟩
  · rw [exec_bind_ok open_, exec_bind_ok begun, exec_bind_ok hemit]
    rfl
  · rw [opened] at emits
    exact (advances_opened there₁ _).trans emits

open Classical in
theorem exec_askAbout (there : x.session.registry.records[x.id]? = some x.record)
    (asked : x.Asked disabled) (answers : x.Answers t context disabled) : ∃ s',
    (askAbout t context x.id x.record).exec x.session =
      (.ok (if x.Selected context disabled then some (x.dispatch t context) else none), s') ∧
    x.session.Advances s' (x.choices t context disabled)
      (if x.Selected context disabled then [x.id] else []) := by
  obtain ⟨v, hv⟩ := answers.verdict asked
  obtain ⟨scopes, hs, hm⟩ := bind_eq_ok hv
  obtain ⟨w, s₁, he, quiet, questions, counts⟩ :=
    Gate.exec_shouldTrigger hs hm (answers.trigger asked)
  rw [askAbout, exec_bind_ok he, Turn.choices, if_pos asked, hs]
  cases fit : w.truthy with
  | false =>
    have out : ¬ x.Selected context disabled := by
      intro selected
      obtain ⟨v', hv', truthy⟩ := selected.fits
      obtain rfl := Except.ok.inj (hv.symm.trans hv')
      rw [counts.mpr ⟨truthy, selected.runs⟩] at fit
      cases fit
    rw [if_neg out, if_neg out, if_neg out, List.append_nil]
    exact ⟨s₁, rfl, questions⟩
  | true =>
    obtain ⟨truthy, runs⟩ := counts.mp fit
    have selected : x.Selected context disabled := ⟨asked, ⟨v, hv, truthy⟩, runs⟩
    obtain ⟨s₂, begun, begins⟩ := exec_begin_of_selected there selected answers he quiet
    rw [if_pos selected, if_pos selected, if_pos selected]
    exact ⟨s₂, begun, questions.trans begins⟩

variable (agree : ∀ name, (Value.str name).among names = disabled.disables name)
include agree

open Classical in
theorem exec_consider (x : Turn) (here : ∃ y, x.session.registry.records[x.id]? = some y)
    (answers : x.Answers t context disabled) : ∃ s',
    (consider t context names x.id).exec x.session =
      (.ok (if x.Selected context disabled then some (x.dispatch t context) else none), s') ∧
    x.session.Advances s' (x.choices t context disabled)
      (if x.Selected context disabled then [x.id] else []) := by
  have there : x.session.registry.records[x.id]? = some x.record := by
    obtain ⟨y, hy⟩ := here
    rw [Turn.record, hy, Option.getD_some]
  have passed (out : ¬ x.Asked disabled) {s' : Session}
      (he : (consider t context names x.id).exec x.session = (.ok none, s'))
      (idle : x.session.Advances s' [] []) : ∃ s',
      (consider t context names x.id).exec x.session =
        (.ok (if x.Selected context disabled then some (x.dispatch t context) else none), s') ∧
      x.session.Advances s' (x.choices t context disabled)
        (if x.Selected context disabled then [x.id] else []) := by
    have unselected : ¬ x.Selected context disabled := fun selected => out selected.asked
    rw [Turn.choices, if_neg out, if_neg unselected, if_neg unselected]
    exact ⟨s', he, idle⟩
  cases active : x.record.activated with
  | false =>
    have out : ¬ x.Asked disabled := fun asked => Bool.false_ne_true (active.symm.trans asked.1)
    exact passed out (exec_consider_of_inactive there active t context names) (.refl _)
  | true =>
    obtain ⟨name, hn⟩ := answers.name active
    have turn := exec_consider_of_bears ⟨there, active, hn⟩ t context names
    rw [agree] at turn
    cases off : disabled.disables name with
    | true =>
      have out : ¬ x.Asked disabled := by
        rintro ⟨_, name', hn', on⟩
        obtain rfl := Except.ok.inj (hn.symm.trans hn')
        rw [off] at on
        cases on
      rw [off, if_pos rfl] at turn
      exact passed out turn (advances_aside rfl _)
    | false =>
      rw [off, if_neg Bool.false_ne_true] at turn
      rw [turn]
      exact exec_askAbout there ⟨active, name, hn, off⟩ answers

open Classical in
theorem exec_considerAll {ids : List RecordId} {s : Session}
    (made : ∀ id ∈ ids, ∃ y, s.registry.records[id]? = some y)
    (answers : ∀ x ∈ turns t context names ids s, x.Answers t context disabled) :
    let chosen := (turns t context names ids s).filter fun x => x.Selected context disabled
    ∃ s', (considerAll t context names ids).exec s = (.ok (chosen.map (·.dispatch t context)), s') ∧
      s.Advances s' ((turns t context names ids s).flatMap (·.choices t context disabled))
        (chosen.map Turn.id) := by
  induction ids generalizing s with
  | nil => exact ⟨s, rfl, .refl s⟩
  | cons id rest ih =>
    obtain ⟨s₁, he, first⟩ := exec_consider agree ⟨id, s⟩ (made id List.mem_cons_self)
      (answers _ List.mem_cons_self)
    have next : ((consider t context names id).exec s).2 = s₁ := congrArg Prod.snd he
    obtain ⟨s₂, hrest, others⟩ := ih (s := s₁)
      (fun i hi => by
        obtain ⟨y, hy⟩ := made i (List.mem_cons_of_mem _ hi)
        exact first.kept hy)
      (fun x hx => answers x (by rw [turns, next]; exact List.mem_cons_of_mem _ hx))
    refine ⟨s₂, ?_, ?_⟩
    · rw [considerAll, exec_bind_ok he, exec_bind_ok hrest, turns, next, List.filter_cons]
      split <;> simp_all
    · rw [turns, next, List.flatMap_cons, List.filter_cons]
      have both := first.trans others
      split <;> simp_all

end

/-! ### The whole round -/

/-- Whether a lint comes to choosing providers: the registry is in use, and the edit passes the
gate. -/
def passes (context : EditContext) : Act Bool := do
  if (← get).registry.disposed then return false
  Act.ensureSettings
  Gate.shouldLint context

/-- A lint that passes reads which providers are disabled, and then gives every registration its
turn. -/
theorem exec_start_of_passes {t : TaskId} {context : EditContext} {s s₁ : Session}
    (h : (passes context).exec s = (.ok true, s₁)) :
    (start t context).exec s = (do
      let names ← disabledNames
      return some (← considerAll t context names (← get).registry.active.values) :
        Act (Option (List Dispatch))).exec s₁ := by
  unfold passes at h
  unfold start
  rw [exec_bind_ok exec_get] at h ⊢
  split at h
  · cases h
  · next usable =>
    rw [if_neg usable]
    rcases exec_cases ensureSettings s with ⟨_, s', he⟩ | ⟨e, s', he⟩
    · rw [exec_bind_ok he] at h ⊢
      rw [exec_bind_ok h]
      rfl
    · rw [exec_bind_error he] at h
      cases h

theorem unchosen_note {e : Entry} (h : e.isOfGate = true) : KeepsTo Unchosen (note e).run :=
  fun s => ⟨quiet_note (Entry.isQuiet_of_isOfGate h) s, advances_aside (Entry.isChoice_of_isOfGate h) s⟩

theorem unchosen_lines (e : Entry) (h : e.isLine = true) : KeepsTo Unchosen (note e).run :=
  unchosen_note (Entry.isOfGate_of_isLine h)

theorem unchosen_settings (f : Session → Option Setting.Store) :
    KeepsTo Unchosen (modify fun s => { s with settings := f s } : Act PUnit).run :=
  fun s => ⟨quiet_settings f s, .of_registry (List.append_nil _).symm rfl⟩

/-- Until a lint passes nothing is chosen. -/
theorem unchosen_passes (context : EditContext) : KeepsTo Unchosen (passes context).run := by
  refine keepsTo_bind keepsTo_get fun _ => ?_
  split
  · exact keepsTo_pure _
  · exact keepsTo_bind (keepsTo_ensureSettings unchosen_lines unchosen_settings) fun _ =>
      Gate.keepsTo_shouldLint (fun _ => unchosen_note) unchosen_settings context

/-- Reads a setting from where settings are read. -/
def readSetting (item : String) : Act Value := do
  match (← get).source with
  | .given read => take (read item)
  | _ => readShared item

theorem unchosen_readSetting (item : String) : KeepsTo Unchosen (readSetting item).run := by
  refine keepsTo_bind keepsTo_get fun _ => ?_
  split
  · exact keepsTo_take _
  · exact keepsTo_readShared unchosen_lines unchosen_settings _

/-- The disabled providers are asked for once. -/
theorem exec_disabledNames {s : Session} {disabled : Value}
    (read : s.settingOf "disabled_providers" = .ok disabled)
    (usable : disabled.truthy = true → ∃ names, disabled.distinctItems = .ok names) :
    ∃ names s', disabledNames.exec s = (.ok names, s') ∧ Quiet s s' ∧
      s.Advances s' [.settingAsked "disabled_providers"] [] ∧
      ∀ name, (Value.str name).among names = disabled.disables name := by
  obtain ⟨s', he, still⟩ := exec_setting "disabled_providers" s
  have asked : s.Advances s' [.settingAsked "disabled_providers"] [] := by
    have after := (unchosen_readSetting "disabled_providers"
      (s.noted (.settingAsked "disabled_providers"))).2
    have last : s' = ((setting "disabled_providers").exec s).2 := by rw [he]
    rw [last]
    exact (advances_noted rfl s).trans after
  rw [read] at he
  unfold disabledNames
  rw [exec_bind_ok he]
  cases truthy : disabled.truthy with
  | false =>
    refine ⟨[], s', rfl, still.quiet, asked, fun name => ?_⟩
    simp [Value.disables, truthy, Value.among]
  | true =>
    obtain ⟨names, hn⟩ := usable truthy
    obtain ⟨items, hi, _⟩ := bind_eq_ok hn
    refine ⟨names, s', ?_, still.quiet, asked, fun name => ?_⟩
    · rw [if_pos rfl, exec_take, hn]
    · rw [Value.among_distinctItems hi hn, Value.disables, truthy, hi]
      rfl

/-- The turns of a lint that passes, from where it reads which providers are disabled. -/
def turnsFrom (s : Session) (t : TaskId) (context : EditContext) : List Turn :=
  match disabledNames.exec s with
  | (.ok names, s') => turns t context names s'.registry.active.values s'
  | (.error _, _) => []

open Classical in
/-- A lint that passes dispatches exactly the registrations that were in force when it started and are
selected at their turn, in the order in which they were made, whatever is done by those who listen to
the beginnings. It asks for the disabled providers once, before the first turn, and the matcher for
each registration that is asked about at its turn, in order. A request is counted for each that is
dispatched, and for no other. -/
theorem start_selects_exactly {s u u₁ : Session} {t : TaskId} {context : EditContext}
    {disabled : Value} (reached : s.opening.Path u)
    (passed : (passes context).exec u = (.ok true, u₁))
    (read : u₁.settingOf "disabled_providers" = .ok disabled)
    (usable : disabled.truthy = true → ∃ names, disabled.distinctItems = .ok names)
    (answers : ∀ x ∈ turnsFrom u₁ t context, x.Answers t context disabled) :
    let turns := turnsFrom u₁ t context
    let selected := turns.filter fun x => x.Selected context disabled
    ∃ v, (start t context).exec u = (.ok (some (selected.map (·.dispatch t context))), v) ∧
      turns.map Turn.id = u.registry.active.values ∧
      (selected.map Turn.id).Pairwise (· < ·) ∧
      v.choices = u.choices ++
        .settingAsked "disabled_providers" :: turns.flatMap (·.choices t context disabled) ∧
      ∀ id, v.requested id = u.requested id + if id ∈ selected.map Turn.id then 1 else 0 := by
  intro turns selected
  have orderly := reached.orderly (Registry.orderly_empty _)
  have rising : u.registry.Rising := reached.rising (Registry.orderly_empty _) .nil
  obtain ⟨quiet, before⟩ : Unchosen u u₁ := by
    have := unchosen_passes context u
    change Unchosen u ((passes context).exec u).2 at this
    rwa [passed] at this
  obtain ⟨names, u₂, hd, quiet', asked, agree⟩ := exec_disabledNames read usable
  have same : u₂.registry = u.registry := quiet'.registry.trans quiet.registry
  have these : turns = Round.turns t context names u₂.registry.active.values u₂ := by
    show turnsFrom u₁ t context = _
    rw [turnsFrom, hd]
  have ids : turns.map Turn.id = u.registry.active.values := by rw [these, map_id_turns, same]
  have made (id : RecordId) (hi : id ∈ u₂.registry.active.values) :
      ∃ y, u₂.registry.records[id]? = some y := by
    rw [same] at hi ⊢
    exact orderly.made hi
  have answered : ∀ x ∈ Round.turns t context names u₂.registry.active.values u₂,
      x.Answers t context disabled := by
    rw [← these]
    exact answers
  obtain ⟨v, he, chosen⟩ := exec_considerAll agree made answered
  rw [← these] at he chosen
  have sorted : (selected.map Turn.id).Pairwise (· < ·) := by
    refine List.Pairwise.sublist ?_ rising
    rw [← ids]
    exact List.filter_sublist.map _
  have all := (before.trans asked).trans chosen
  refine ⟨v, ?_, ids, sorted, all.choices, fun id => ?_⟩
  · rw [exec_start_of_passes passed, exec_bind_ok hd, exec_bind_ok exec_get, exec_bind_ok he]
    rfl
  · have counted := all.requested id
    rw [List.append_nil, List.nil_append] at counted
    rw [counted, List.Nodup.count (sorted.imp Nat.ne_of_lt)]

/-- Whether all that is read at a turn can be read, and nobody who would listen to its beginning fails
in more than an ordinary way. -/
def Turn.answersAll (x : Turn) (t : TaskId) (context : EditContext) : Bool :=
  (x.session.nameOf x.provider).isOk && (x.verdict context).isOk &&
    (x.session.triggerOf x.provider x.record.contract).isOk && (x.session.scopeOf x.provider).isOk &&
      decide (CallsContained (x.dispatch t context) .begin
        ((x.opened t context).registry.bus.audience .begin) (x.notice context)
        ((x.opened t context).noted (.emitted (x.dispatch t context) (x.notice context))))

theorem Turn.answers_of_answersAll {x : Turn} {t : TaskId} {context : EditContext}
    (h : x.answersAll t context = true) (disabled : Value) : x.Answers t context disabled := by
  have value {α : Type} {r : Except Failure α} (h : r.isOk = true) : ∃ a, r = .ok a := by
    cases r with
    | ok a => exact ⟨a, rfl⟩
    | error f => cases h
  simp only [Turn.answersAll, Bool.and_eq_true, decide_eq_true_eq] at h
  obtain ⟨⟨⟨⟨name, verdict⟩, trigger⟩, scope⟩, heard⟩ := h
  exact ⟨fun _ => value name, fun _ => value verdict, fun _ _ => value trigger,
    fun _ => value scope, fun _ => heard⟩

/-- Two providers are registered, and whoever hears that one begins removes the other. -/
def sampleRivals : Session :=
  (sample [.remove "q"]).opening.run [.act (.add "p" false), .act (.add "q" false)]

/-- Whether a result is there and is this truth value. -/
def isTruth (b : Bool) : Except Failure Value → Bool
  | .ok (.bool c) => c == b
  | _ => false

theorem eq_of_isTruth {b : Bool} {r : Except Failure Value} (h : isTruth b r = true) :
    r = .ok (.bool b) := by
  unfold isTruth at h
  split at h
  · rw [eq_of_beq h]
  · cases h

theorem eq_of_isTruth_map {b : Bool} {r : Except Failure Bool}
    (h : isTruth b (r.map .bool) = true) : r = .ok b := by
  have shown := eq_of_isTruth h
  cases r with
  | error f => cases shown
  | ok c => rw [Value.bool.inj (Except.ok.inj shown)]

open Classical in
/-- The provider that is removed at the beginning of the other is not dispatched. -/
theorem sampleRivals_selected :
    let u := sampleRivals
    let u₁ := ((passes sampleDispatch.context).exec u).2
    let disabled : Value := .bool false
    let turns := turnsFrom u₁ 0 sampleDispatch.context
    let selected := turns.filter fun x => x.Selected sampleDispatch.context disabled
    (sample [.remove "q"]).opening.Path u ∧
    (passes sampleDispatch.context).exec u = (.ok true, u₁) ∧
    u₁.settingOf "disabled_providers" = .ok disabled ∧
    (disabled.truthy = true → ∃ names, disabled.distinctItems = .ok names) ∧
    (∀ x ∈ turns, x.Answers 0 sampleDispatch.context disabled) ∧
    ∃ v, (start 0 sampleDispatch.context).exec u =
        (.ok (some (selected.map (·.dispatch 0 sampleDispatch.context))), v) ∧
      turns.map Turn.id = u.registry.active.values ∧
      (selected.map Turn.id).Pairwise (· < ·) ∧
      v.choices = u.choices ++ .settingAsked "disabled_providers" ::
        turns.flatMap (·.choices 0 sampleDispatch.context disabled) ∧
      ∀ id, v.requested id = u.requested id + if id ∈ selected.map Turn.id then 1 else 0 := by
  intro u u₁ disabled turns selected
  have reached : (sample [.remove "q"]).opening.Path u := ((sample _).comes_opening _).path
  have passed : (passes sampleDispatch.context).exec u = (.ok true, u₁) := by
    have truth : isTruth true (((passes sampleDispatch.context).exec u).1.map .bool) = true := by
      decide +kernel
    exact Prod.ext (eq_of_isTruth_map truth) rfl
  have read : u₁.settingOf "disabled_providers" = .ok disabled := by
    exact eq_of_isTruth (by decide +kernel)
  have answers (x : Turn) (hx : x ∈ turns) : x.Answers 0 sampleDispatch.context disabled := by
    have all : turns.all (·.answersAll 0 sampleDispatch.context) = true := by decide +kernel
    exact Turn.answers_of_answersAll (List.all_eq_true.mp all x hx) disabled
  exact ⟨reached, passed, read, nofun, answers,
    start_selects_exactly reached passed read nofun answers⟩

end Round
end LintBroker

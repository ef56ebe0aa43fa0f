import LintBroker.Proofs.Readings
import LintBroker.Proofs.Twins
import LintBroker.Proofs.Walk

/-!
# Twins take the same turns

Twins that make the same moves stay twins. All but the end of a dispatch of the provider whose answers
differ is blind. There the two answers may be dealt with differently, but if both are contained, the
provider can be read and its surface answers, then both are presented to the registration, both leave
the loop alone, and both dispatches end well; only an update may be surfaced of one and not of the
other.
-/
namespace LintBroker
open Session Contrast

variable {c : Contrast} {owner : Job → ProviderId}

/-- The provider can be read, and if its messages are about a file, the surface of the dispatch says
whether it is destroyed. -/
structure Session.Legible (s : Session) (p : ProviderId) (d : Dispatch) : Prop where
  name : ∃ name, s.nameOf p = .ok name
  scope : ∃ scope, s.scopeOf p = .ok scope
  surface : s.scopeOf p = .ok .file → ∃ v, s.answerOf d.context.surface .destroyed = .ok v

/-- What can be read depends on attributes and answers alone. -/
theorem Session.Legible.congr {s s' : Session} {p : ProviderId} {d : Dispatch} (h : s.Legible p d)
    (attributes : s'.attributesOf p = s.attributesOf p)
    (answers : ∀ q, s'.answerOf d.context.surface q = s.answerOf d.context.surface q) :
    s'.Legible p d := by
  obtain ⟨name, scope, surface⟩ := h
  refine ⟨?_, ?_, ?_⟩
  · rwa [Session.nameOf, attributes]
  · rwa [Session.scopeOf, attributes]
  · rwa [Session.scopeOf, attributes, answers]

namespace Act

theorem blind_emit (handling : Option Failure) (d : Dispatch) (n : Notice) :
    c.Blind owner (emit handling d n) := by
  intro s s' h
  have observed' : s'.Observed := h.observed.congr h.host.listeners.symm
  obtain ⟨done, airs⟩ := airs_emit handling d n h.observed
  obtain ⟨done', airs'⟩ := airs_emit handling d n observed'
  exact ⟨done.trans done'.symm, h.airs airs airs' (by rw [h.registry])⟩

end Act

/-- What a task does in a turn, apart from what its provider replies, is blind. -/
instance (c : Contrast) (owner : Job → ProviderId) : Voiced (c.Twins owner) fun _ => False where
  emit := Act.blind_emit

open Act

namespace Dispatch
variable {p : ProviderId} {d : Dispatch} {t : TaskId} {s s' : Session}

/-! ### Asking a provider -/

/-- Replies that have come to alike answers, or stand where they go on alike. -/
inductive ProgressAlike (c : Contrast) (p : ProviderId) (requests : Array Request) :
    Progress → Progress → Prop
  | answered {r r' : Except Failure Value} (h : c.Answers p r r') :
      ProgressAlike c p requests (.answered r) (.answered r')
  | paused {next next' : Except Failure Unit → Reply}
      (go : ∀ r, c.RepliesAlike p (next r) (next' r)) :
      ProgressAlike c p requests (.paused next) (.paused next')
  | awaiting {r : RequestId} {next next' : Except Failure Value → Reply}
      (own : requests[r]?.map Request.provider = some p)
      (go : ∀ o o', c.Settles p o o' → c.RepliesAlike p (next o) (next' o')) :
      ProgressAlike c p requests (.awaiting r next) (.awaiting r next')

/-- Alike replies come equally far. -/
theorem twins_advance {reply reply' : Reply} (alike : c.RepliesAlike p reply reply')
    (h : c.Twins owner s s') :
    let x := (advance p t reply).run s
    let x' := (advance p t reply').run s'
    ProgressAlike c p x.2.loop.requests x.1 x'.1 ∧ c.Twins owner x.2 x'.2 := by
  induction alike generalizing s s' with
  | @settle r r' answers =>
    have settled (r : Except Failure Value) (s : Session) :
        (advance p t (.settle r)).run s = (.answered r, s) := by
      cases r <;> rfl
    rw [settled, settled]
    exact ⟨.answered answers, h⟩
  | @act a b next next' acts go ih =>
    have goes (a : Action) (next : Except Failure Result → Reply) (s : Session) :
        (advance p t (.act a next)).run s =
          (advance p t (next ((Act.perform a).exec s).1)).run ((Act.perform a).exec s).2 :=
      run_bind_exec _ _ s
    obtain ⟨same, twins⟩ : ((Act.perform a).exec s).1 = ((Act.perform b).exec s').1 ∧
        c.Twins owner ((Act.perform a).exec s).2 ((Act.perform b).exec s').2 :=
      inStep_perform a acts s s' h
    rw [goes, goes, ← same]
    exact ih _ twins
  | pause go => exact ⟨.paused go, h⟩
  | @request next next' go =>
    have opens (next : Except Failure Value → Reply) (s : Session) :
        (advance p t (.request next)).run s =
          (.awaiting s.loop.requests.size next, s.onLoop fun l => l.openRequest p t) := rfl
    rw [opens, opens, ← h.loop.size_requests]
    have twins : c.Twins owner (s.onLoop fun l => l.openRequest p t)
        (s'.onLoop fun l => l.openRequest p t) := h.onLoop (h.loop.openRequest p t)
    refine ⟨.awaiting ?_ go, twins⟩
    show (s.loop.requests.push _)[s.loop.requests.size]?.map _ = _
    rw [Array.getElem?_push, if_pos rfl, Option.map_some]

/-- What the host's calls are after one more call of a provider. -/
def asked (s : Session) (d : Dispatch) (p : ProviderId) : Session :=
  (s.onHost fun h => { h with calls := h.calls.put p ((s.host.calls.get? p).getD 0 + 1) }).noted
    (.invoked d p)

/-- A provider that lints replies to the call. -/
theorem exec_ask_method {x : Provider} (hx : s.host.providers.get? p = some x)
    (lints : x.attributes.lookUp "lint" = .ok .method) :
    (ask d p).exec s = (.ok (x.reply ((s.host.calls.get? p).getD 0)), asked s d p) := by
  have attributes : (Act.attributes p).exec s = (.ok x.attributes, s) := by
    rw [exec_attributes, Session.attributesOf, hx]
  have found : (expect (s.host.providers.get? p) p).exec s = (.ok x, s) := by rw [hx]; rfl
  rw [ask, exec_bind_ok attributes, lints, exec_bind_ok (exec_take _)]
  dsimp only
  rw [exec_bind_ok exec_get, exec_bind_ok found]
  rfl

/-- A provider whose attribute holds a value cannot be called. -/
theorem exec_ask_value {a : Attributes} (ha : s.attributesOf p = .ok a) {v : Value}
    (holds : a.lookUp "lint" = .ok (.value v)) : (ask d p).exec s =
      (.error (.ofText .badType ("'" ++ v.typeName ++ "' object is not callable")), s) := by
  rw [ask, exec_bind_ok (by rw [exec_attributes, ha]), holds]
  rfl

/-- A provider whose attribute cannot be read cannot be called. -/
theorem exec_ask_unreadable {a : Attributes} (ha : s.attributesOf p = .ok a) {f : Failure}
    (fails : a.lookUp "lint" = .error f) : (ask d p).exec s = (.error f, s) := by
  rw [ask, exec_bind_ok (by rw [exec_attributes, ha]), fails]
  rfl

theorem exec_ask_error (h : ∀ x, s.host.providers.get? p = some x →
      x.attributes.lookUp "lint" ≠ .ok .method) :
    ∃ f, ∀ s', s.attributesOf p = s'.attributesOf p → (ask d p).exec s' = (.error f, s') := by
  cases hx : s.host.providers.get? p with
  | none =>
    refine ⟨Setting.missing p, fun s' same => ?_⟩
    rw [ask, exec_bind_error]
    rw [exec_attributes, ← same, Session.attributesOf, hx]
  | some x =>
    have reads : s.attributesOf p = .ok x.attributes := by rw [Session.attributesOf, hx]
    cases lints : x.attributes.lookUp "lint" with
    | error f => exact ⟨f, fun s' same => exec_ask_unreadable (same ▸ reads) lints⟩
    | ok reading =>
      cases reading with
      | method => exact absurd lints (h x hx)
      | value v => exact ⟨_, fun s' same => exec_ask_value (same ▸ reads) lints⟩

theorem twins_ask (h : c.Twins owner s s') (d : Dispatch) (p : ProviderId) :
    (∃ f, (ask d p).exec s = (.error f, s) ∧ (ask d p).exec s' = (.error f, s')) ∨
      ∃ reply reply', (ask d p).exec s = (.ok reply, asked s d p) ∧
        (ask d p).exec s' = (.ok reply', asked s' d p) ∧ c.RepliesAlike p reply reply' ∧
          c.Twins owner (asked s d p) (asked s' d p) := by
  by_cases lints : ∃ x, s.host.providers.get? p = some x ∧ x.attributes.lookUp "lint" = .ok .method
  · obtain ⟨x, hx, lints⟩ := lints
    have hp := h.provider p
    rw [hx] at hp
    generalize hy : s'.host.providers.get? p = z at hp
    cases hp with
    | @some _ y alike =>
      have calls : c.Twins owner
          (s.onHost fun x => { x with calls := x.calls.put p ((s.host.calls.get? p).getD 0 + 1) })
          (s'.onHost fun x => { x with calls := x.calls.put p ((s'.host.calls.get? p).getD 0 + 1) }) :=
        { h with host := { h.host with calls := by simp only [Session.host_onHost, h.host.calls] } }
      have twins : c.Twins owner (asked s d p) (asked s' d p) := calls.noted (.invoked d p)
      refine .inr ⟨_, _, exec_ask_method hx lints, exec_ask_method hy (alike.attributes ▸ lints), ?_,
        twins⟩
      rw [h.host.calls]
      exact alike.reply _
  · obtain ⟨f, fails⟩ := exec_ask_error (s := s) (p := p) (d := d) fun x hx hl => lints ⟨x, hx, hl⟩
    exact .inl ⟨f, fails s rfl, fails s' (h.attributesOf p)⟩

/-- Twins begin to ask a provider and come equally far. -/
theorem twins_start (h : c.Twins owner s s') (d : Dispatch) (p : ProviderId) (t : TaskId) :
    let x := (start d p t).run s
    let x' := (start d p t).run s'
    ProgressAlike c p x.2.loop.requests x.1 x'.1 ∧ c.Twins owner x.2 x'.2 := by
  rcases twins_ask h d p with ⟨f, he, he'⟩ | ⟨reply, reply', he, he', alike, twins⟩
  · rw [start, run_bind_exec, run_bind_exec, he, he']
    exact ⟨.answered (.inl rfl), h⟩
  · rw [start, run_bind_exec, run_bind_exec, he, he']
    exact twins_advance alike twins

/-! ### Contained answers -/

section contained
variable {r : Except Failure Value} {x : Record Nat}

/-- A contained answer of a provider with a name is worth what it carries. -/
theorem exec_contain (named : ∃ name, s.nameOf p = .ok name) (contained : Contained r) :
    ((contain p false r).exec s).1 = .ok (outcomeOf r) := by
  rcases contain_cases p false r s with ⟨_, _, ⟨f, unnamed⟩ | ⟨f, rfl, leaves⟩⟩ | ⟨_, done⟩
  · obtain ⟨name, named⟩ := named
    rw [unnamed] at named
    cases named
  · split at leaves
    · cases leaves
    · rcases contained f rfl with hf | hf
      · exact absurd hf ‹_›
      · rw [hf] at leaves
        cases leaves
  · exact done

theorem exec_shouldSurface (legible : s.Legible p d)
    (hx : s.registry.records[d.record]? = some x) :
    ∃ may, ((shouldSurface d p).exec s).1 = .ok may := by
  have found : (Broker.record d.record).exec s = (.ok x, s) := by
    simp [Broker.record, exec_bind, hx]
  obtain ⟨scope, hs⟩ := legible.scope
  have read : (Broker.scopeOf p).exec s = (.ok scope, s) := by rw [Broker.exec_scopeOf, hs]
  rw [shouldSurface, exec_bind_ok found]
  cases x.activated with
  | false => exact ⟨false, rfl⟩
  | true =>
    rw [Bool.not_true, if_neg Bool.false_ne_true, exec_bind_ok read]
    cases scope with
    | project => exact ⟨true, rfl⟩
    | file =>
      obtain ⟨v, hv⟩ := legible.surface hs
      have asked := exec_askSurface d.context.surface .destroyed s
      rw [hv] at asked
      exact ⟨!v.truthy, by rw [bind_pure_comp, exec_map, asked]; rfl⟩

/-- Once an answer was presented, at most an update of the provider comes of it. -/
private theorem presented_contained (news : Bool) (r : Except Failure Value)
    (legible : s.Legible p d) (hx : s.registry.records[d.record]? = some x) :
    let out := (do
      if !news then
        let name ← Broker.nameOf p
        trace ("Dropping stale response " ++ toString d.generation ++ " from " ++ Text.quoted name)
        return none
      match outcomeOf r with
      | .fault => return none
      | .messages items => do
        if ← shouldSurface d p then
          return some (← Round.updateNotice p d.context (.list items))
        return none : Act (Option Notice)).exec s
    s.Still out.2 ∧ ∃ notice, out.1 = .ok notice ∧
      ∀ n, notice = some n → n.kind = .update ∧ n.provider = p := by
  intro out
  cases news with
  | false =>
    obtain ⟨name, hn⟩ := legible.name
    have traced : out = (.ok none, s.noted (.trace ("Dropping stale response " ++
        toString d.generation ++ " from " ++ Text.quoted name))) :=
      exec_bind_ok (by rw [Broker.exec_nameOf, hn])
    rw [traced]
    exact ⟨still_noted rfl s, none, rfl, nofun⟩
  | true =>
    cases r with
    | error f => exact ⟨.refl s, none, rfl, nofun⟩
    | ok v =>
      obtain ⟨may, hm⟩ := exec_shouldSurface legible hx
      let w := ((shouldSurface d p).exec s).2
      have stays : s.Still w := keepsTo_shouldSurface (still_noted rfl) p s
      have decided : (shouldSurface d p).exec s = (.ok may, w) := Prod.ext hm rfl
      have goes : out = _ := exec_bind_ok decided
      cases may with
      | false =>
        rw [goes]
        exact ⟨stays, none, rfl, nofun⟩
      | true =>
        obtain ⟨scope, hs⟩ := legible.scope
        have read : w.scopeOf p = .ok scope := by
          rw [Session.scopeOf, Airs.attributesOf stays, ← hs, Session.scopeOf]
        have shown : out = (.ok (some (.update p (.list (messagesOf v))
            (d.context.bufferIn scope))), w) :=
          goes.trans (exec_bind_ok (by rw [exec_updateNotice, read]; rfl))
        rw [shown]
        refine ⟨stays, _, rfl, fun n hn => ?_⟩
        obtain rfl := Option.some.inj hn
        exact ⟨rfl, rfl⟩

/-- A registration is still there after a response was presented to it. -/
theorem record_accept (hx : s.registry.records[d.record]? = some x) :
    ((accept d).exec s).2.registry.records[d.record]? =
      some { x with counters := x.counters.receive d.generation } := by
  rw [exec_accept hx]
  simp [Registry.changeRecord, Array.getElem?_modify, hx]

theorem respond_contained (legible : s.Legible p d)
    (hx : s.registry.records[d.record]? = some x) (contained : Contained r) :
    ∃ u, s.Airs [.answered d r] u ∧
      ((accept d).exec u).2.Still ((respond d p false r).exec s).2 ∧
        ∃ notice, ((respond d p false r).exec s).1 = .ok notice ∧
          ∀ n, notice = some n → n.kind = .update ∧ n.provider = p := by
  let s₁ := s.noted (.answered d r)
  let u := ((contain p false r).exec s₁).2
  have still : s₁.Still u := keepsTo_contain still_lines p false r s₁
  have airs : s.Airs [.answered d r] u := (airs_noted rfl s).still still
  have worth : (awaited (contain p false r)).exec s₁ = (.ok (outcomeOf r), u) := by
    rw [exec_awaited, exec_contain (s := s₁) legible.name contained]
    rfl
  have hu : u.registry.records[d.record]? = some x := airs.registry ▸ hx
  have accepted := exec_accept hu
  have legible : ((accept d).exec u).2.Legible p d := by
    rw [accepted]
    exact legible.congr (airs.attributesOf p) (airs.answerOf _)
  have rest := presented_contained (x.counters.isNews d.generation) r legible (record_accept hu)
  have presented : (accept d).exec u =
      (.ok (x.counters.isNews d.generation), ((accept d).exec u).2) := by rw [accepted]
  refine ⟨u, airs, ?_⟩
  unfold respond
  rw [exec_bind_ok (exec_note _), exec_bind_ok worth, exec_bind_ok presented]
  exact rest

/-- A contained answer is delivered, and all that two runs have in common of that is that it was
presented. -/
theorem deliver_contained
    (observed : s.Observed) (legible : s.Legible p d)
    (hx : s.registry.records[d.record]? = some x) (contained : Contained r) :
    ∃ u K, s.Airs [.answered d r] u ∧ ((deliver d p false r).exec s).1 = .ok () ∧
      ((accept d).exec u).2.Airs K ((deliver d p false r).exec s).2 ∧
        K.filter (Entry.isCommon p) = [] := by
  obtain ⟨u, airs, still, notice, done, update⟩ := respond_contained legible hx contained
  have hu : u.registry.records[d.record]? = some x := airs.registry ▸ hx
  have responded : (respond d p false r).exec s = (.ok notice, ((respond d p false r).exec s).2) :=
    Prod.ext done rfl
  rw [deliver, exec_bind_ok responded]
  refine ⟨u, ?_⟩
  cases notice with
  | none => exact ⟨[], airs, rfl, still, rfl⟩
  | some n =>
    have listeners : ((respond d p false r).exec s).2.host.listeners = s.host.listeners := by
      rw [Airs.listeners still, exec_accept hu]
      exact airs.listeners
    obtain ⟨ends, said⟩ := airs_emit none d n (observed.congr listeners)
    obtain ⟨kind, provider⟩ := update n rfl
    refine ⟨_, airs, ends, Still.airs still said, ?_⟩
    simp [emissionEntries, callEntries, Entry.isCommon, kind, provider, List.filter_flatMap]

theorem inStep_conclude (h : c.Twins owner s s') {r' : Except Failure Value} {cancelling : Bool}
    (answers : c.Answers p r r')
    (calm : p = c.provider → cancelling = false ∧ s.Legible p d ∧
      ∃ x, s.registry.records[d.record]? = some x) :
    ((conclude d p cancelling r).exec s).1 = ((conclude d p cancelling r').exec s').1 ∧
      c.Twins owner ((conclude d p cancelling r).exec s).2
        ((conclude d p cancelling r').exec s').2 := by
  rcases answers with rfl | ⟨rfl, contained, contained'⟩
  · exact blind_conclude d p cancelling r s s' h
  · obtain ⟨rfl, legible, x, hx⟩ := calm rfl
    have observed' : s'.Observed := h.observed.congr h.host.listeners.symm
    have legible' : s'.Legible c.provider d :=
      legible.congr (h.attributesOf _).symm fun q => (h.answerOf _ q).symm
    obtain ⟨u, K, airs, done, said, own⟩ := deliver_contained h.observed legible hx contained
    obtain ⟨u', K', airs', done', said', own'⟩ :=
      deliver_contained observed' legible' (h.registry ▸ hx) contained'
    have heard : c.Twins owner u u' := h.airs airs airs' rfl
    have presented : c.Twins owner ((accept d).exec u).2 ((accept d).exec u').2 :=
      (blind_accept d u u' heard).2
    have delivered := presented.airs said said' (own.trans own'.symm)
    have ends (r : Except Failure Value) (s : Session)
        (done : ((deliver d c.provider false r).exec s).1 = .ok ()) :
        (conclude d c.provider false r).exec s =
          (announceEnd d c.provider none >>= fun _ => take (.ok ())).exec
            ((deliver d c.provider false r).exec s).2 := by
      rw [conclude, exec_bind_ok (exec_attempt _), done]
      rfl
    rw [ends r s done, ends r' s' done']
    exact inStep_bind (blind_announceEnd d _ none) (fun _ => inStep_take _) _ _ delivered

end contained

end Dispatch

/-! ### Turns -/

namespace Session
variable {s s' : Session} {t : TaskId} {d : Dispatch} {p : ProviderId}

theorem twins_finish (h : c.Twins owner s s') (t : TaskId) (r : Except Failure Bool) :
    c.Twins owner ((finish t r).run s).2 ((finish t r).run s').2 := by
  let ends (l : Loop) := l.finish t (endingOf (l.isCancelPending t) (r.mapError Failure.leaving))
  have alike : c.LoopsAlike owner (ends s.loop) (ends s'.loop) := by
    simp only [ends, h.loop.isCancelPending]
    exact h.loop.finish t _
  have twins : c.Twins owner (s.onLoop ends) (s'.onLoop ends) := h.onLoop alike
  exact twins

/-- What is known of a session in which a dispatch of the provider has come to its answer. -/
def Calm (c : Contrast) (s : Session) (t : TaskId) (p : ProviderId) (d : Dispatch) : Prop :=
  p = c.provider → ¬ s.IsCancelling t ∧ s.Legible p d ∧ ∃ x, s.registry.records[d.record]? = some x

theorem twins_follow (h : c.Twins owner s s')
    (own : ∀ x, s.loop.tasks[t]? = some x → owner x.job = p) (calm : s.Calm c t p d)
    {g g' : Progress} (alike : Dispatch.ProgressAlike c p s.loop.requests g g') :
    c.Twins owner ((follow d p t g).run s).2 ((follow d p t g').run s').2 := by
  cases alike with
  | @answered r r' answers =>
    let cancelling (s : Session) := (s.loop.tasks[t]?.map Task.cancelling).getD false
    have concludes (r : Except Failure Value) (s : Session) :
        ((follow d p t (.answered r)).run s).2 =
          ((finish t (((Dispatch.conclude d p (cancelling s) r).exec s).1.map fun _ => true)).run
            ((Dispatch.conclude d p (cancelling s) r).exec s).2).2 := rfl
    have same : cancelling s' = cancelling s := by simp only [cancelling, h.loop.cancelling]
    have settled (hp : p = c.provider) : cancelling s = false ∧ s.Legible p d ∧
        ∃ x, s.registry.records[d.record]? = some x := by
      obtain ⟨going, legible, known⟩ := calm hp
      refine ⟨?_, legible, known⟩
      cases hx : s.loop.tasks[t]? with
      | none => simp [cancelling, hx]
      | some x =>
        cases hc : x.cancelling with
        | false => simp [cancelling, hx, hc]
        | true => exact absurd ⟨x, hx, hc⟩ going
    obtain ⟨result, twins⟩ := Dispatch.inStep_conclude h answers settled
    rw [concludes, concludes, same, ← result]
    exact twins_finish twins t _
  | @paused next next' go =>
    have pauses : c.LoopsAlike owner (s.loop.pause t next) (s'.loop.pause t next') :=
      h.loop.pause t fun x hx => (own x hx).symm ▸ go
    exact { h with loop := pauses }
  | @awaiting r next next' ours go =>
    have waits : c.LoopsAlike owner (s.loop.await t r next) (s'.loop.await t r next') :=
      h.loop.await t r fun x hx => (own x hx).symm ▸ ⟨.inr ours, go⟩
    exact { h with loop := waits }

end Session
end LintBroker

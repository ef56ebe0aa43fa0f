import LintBroker.Proofs.Contrast
import LintBroker.Proofs.LikeTurns
import LintBroker.Proofs.Observers

/-!
# Twins

Two sessions are *twins* if they differ only in what one provider answers: their hosts and loops are
alike, and all that their journals tell of the others, and all but the answers and updates that they
tell of the provider, is the same. Twins are a likeness, so that asking the host, the gate and every
action are blind to the difference; and twins may settle a request of the provider in ways that its
contrast allows.
-/
namespace LintBroker

/-- Whether an entry tells of something that two runs have in common: of more than a question or a
line, and of no answer, nor of an update of the provider. -/
def Entry.isCommon (p : ProviderId) : Entry → Bool
  | .answered .. => false
  | .emitted _ n | .delivered _ n | .heard _ _ n => n.kind != .update || n.provider != p
  | e => !e.isQuiet

theorem Entry.filter_isCommon (p : ProviderId) (J : List Entry) :
    (J.filter fun e => !e.isQuiet).filter (isCommon p) = J.filter (isCommon p) := by
  rw [List.filter_filter]
  refine List.filter_congr fun e _ => ?_
  cases e <;> simp [isCommon, isQuiet]

namespace Contrast

/-- Sessions that differ only in what one provider answers, with listeners that only observe. -/
structure Twins (c : Contrast) (owner : Job → ProviderId) (s s' : Session) : Prop where
  host : c.HostsAlike s.host s'.host
  source : s.source = s'.source
  template : s.template = s'.template
  settings : s.settings = s'.settings
  registry : s.registry = s'.registry
  loop : c.LoopsAlike owner s.loop s'.loop
  history : s.history.filter (Entry.isCommon c.provider) =
    s'.history.filter (Entry.isCommon c.provider)
  observed : s.Observed

/-- The computation does not see a difference between twins. -/
abbrev Blind (c : Contrast) (owner : Job → ProviderId) {α : Type} (m : Act α) : Prop :=
  InStep (c.Twins owner) m.run m.run

variable {c : Contrast} {owner : Job → ProviderId} {s s' u u' : Session}

namespace Twins
variable (h : c.Twins owner s s')
include h

theorem noted (e : Entry) : c.Twins owner (s.noted e) (s'.noted e) :=
  { h with history := by simp only [Session.history_noted, List.filter_append, h.history] }

theorem onHost {f f' : Host → Host} (alike : c.HostsAlike (f s.host) (f' s'.host))
    (listeners : (f s.host).listeners = s.host.listeners) :
    c.Twins owner (s.onHost f) (s'.onHost f') :=
  { h with host := alike, observed := h.observed.congr listeners }

theorem onRegistry (f : Registry → Registry) : c.Twins owner (s.onRegistry f) (s'.onRegistry f) :=
  { h with registry := congrArg f h.registry }

theorem onLoop {f f' : Loop → Loop} (alike : c.LoopsAlike owner (f s.loop) (f' s'.loop)) :
    c.Twins owner (s.onLoop f) (s'.onLoop f') := { h with loop := alike }

theorem withSettings (x : Option Setting.Store) :
    c.Twins owner { s with settings := x } { s' with settings := x } := { h with settings := rfl }

/-- Each of the twins writes, and what they have in common of that is the same. -/
theorem airs {K K' : List Entry} (a : s.Airs K u) (a' : s'.Airs K' u')
    (same : K.filter (Entry.isCommon c.provider) = K'.filter (Entry.isCommon c.provider)) :
    c.Twins owner u u' := by
  obtain ⟨deliveries, J, rfl, rfl⟩ := a
  obtain ⟨deliveries', J', rfl, rfl⟩ := a'
  rw [Entry.filter_isCommon, Entry.filter_isCommon] at same
  refine { h with host := { h.host with }, history := ?_ }
  have all (s : Session) (J : List Entry) : (s.journal ++ J.toArray).toList = s.history ++ J := by
    simp [Session.history]
  show (s.journal ++ J.toArray).toList.filter _ = (s'.journal ++ J'.toArray).toList.filter _
  rw [all, all, List.filter_append, List.filter_append, h.history, same]

theorem provider (p : ProviderId) :
    Option.Rel (c.ProvidersAlike p) (s.host.providers.get? p) (s'.host.providers.get? p) :=
  h.host.providers p

theorem attributesOf (p : ProviderId) : s.attributesOf p = s'.attributesOf p := by
  have hp := h.provider p
  unfold Session.attributesOf
  generalize s.host.providers.get? p = x, s'.host.providers.get? p = y at hp
  cases hp with
  | none => rfl
  | some alike => exact congrArg Except.ok alike.attributes

theorem nameOf (p : ProviderId) : s.nameOf p = s'.nameOf p := by
  rw [Session.nameOf, Session.nameOf, h.attributesOf]

theorem answerOf (id : SurfaceId) (q : Surface.Question) : s.answerOf id q = s'.answerOf id q := by
  unfold Session.answerOf
  rw [h.host.surfaces]

theorem furniture : s.host.furniture = s'.host.furniture := by
  simp only [Host.furniture, h.host.surfaces, h.host.ignoreRule, h.host.environment,
    h.host.contexts, h.host.subscriptions]

theorem refurnish (f : Furniture → Furniture) :
    c.Twins owner (s.onHost (·.refurnish f)) (s'.onHost (·.refurnish f)) := by
  refine h.onHost ?_ rfl
  unfold Host.refurnish
  rw [h.furniture]
  exact { h.host with
    surfaces := rfl, ignoreRule := rfl, environment := rfl, contexts := rfl, subscriptions := rfl }

theorem reshape {p : ProviderId} {x x' : Provider} (hx : s.host.providers.get? p = some x)
    (hx' : s'.host.providers.get? p = some x') (a : Attributes) :
    c.Twins owner
      (s.onHost fun h => { h with providers := h.providers.put p { x with attributes := a } })
      (s'.onHost fun h => { h with providers := h.providers.put p { x' with attributes := a } }) := by
  refine h.onHost { h.host with providers := fun q => ?_ } rfl
  rw [Table.get?_put, Table.get?_put]
  split
  · subst q
    have hp := h.provider p
    rw [hx, hx'] at hp
    cases hp with
    | some alike => exact .some ⟨rfl, alike.reply⟩
  · exact h.provider q

/-- What is read off the common entries of a history is the same for twins. -/
theorem filterMap_history {α : Type} {f : Entry → Option α}
    (hf : ∀ e, e.isCommon c.provider = false → f e = none) :
    s.history.filterMap f = s'.history.filterMap f := by
  have common (J : List Entry) :
      J.filterMap f = (J.filter (Entry.isCommon c.provider)).filterMap f := by
    rw [List.filterMap_filter]
    refine List.filterMap_congr fun e _ => ?_
    cases he : e.isCommon c.provider with
    | true => rfl
    | false => exact hf e he
  rw [common, h.history, ← common]

theorem mem_history {e : Entry} (he : e.isCommon c.provider = true) :
    e ∈ s.history ↔ e ∈ s'.history := by
  have common (J : List Entry) : e ∈ J ↔ e ∈ J.filter (Entry.isCommon c.provider) := by
    rw [List.mem_filter, and_iff_left he]
  rw [common, h.history, ← common]

end Twins
end Contrast

open Contrast

/-- Twins are alike to whoever asks the host, chooses providers or acts. -/
instance (c : Contrast) (owner : Job → ProviderId) :
    Likeness (c.Twins owner) fun _ => False where
  source h := h.source
  template h := h.template
  settings h := h.settings
  records h id := by
    rw [h.registry]
    exact Record.Akin.rel_refl (fun _ _ h => h.attributesOf) _
  active h := congrArg Registry.active h.registry
  disposed h := congrArg Registry.disposed h.registry
  bus h := .inl (congrArg Registry.bus h.registry)
  furniture h := h.furniture
  matcher h := h.host.matcher
  attributesOf h _ _ := h.attributesOf _
  akin h p := .of_eq Attributes.Akin.refl (h.attributesOf p)
  told h := ⟨h.loop.named?, h.loop.namedCount, h.loop.hasEnded, h.loop.isPending, h.loop.requestsOf⟩
  noted h := h.noted
  withSettings h := h.withSettings
  onRegistry h _ _ := h.onRegistry _
  refurnish h f := h.refurnish f
  reshape h _ _ _ _ hx hx' a := h.reshape hx hx' a
  spawn h name job := h.onLoop (h.loop.spawn name job)
  cancel h t := h.onLoop (h.loop.cancel t)
  settle h r _ := h.onLoop (h.loop.settle r fun _ _ => .inl rfl)

namespace Act
variable {c : Contrast} {owner : Job → ProviderId}

theorem exec_settleRequest (p : ProviderId) (n : Nat) (e : Except Failure Settlement) (s : Session) :
    (settleRequest p n e).exec s =
      match (s.loop.requestsOf p)[n]? with
      | none => (.ok (.value (.str "no_such_request")), s)
      | some r =>
        if s.loop.isPending r then
          match e with
          | .ok e => (.ok (.value .none), s.onLoop fun l => l.settle r e)
          | .error f => (.error f, s)
        else (.ok (.value (.str "already_done")), s) := by
  have asked : (request? p n).exec s = (.ok (s.loop.requestsOf p)[n]?, s) := rfl
  rw [settleRequest, exec_bind_ok asked]
  cases (s.loop.requestsOf p)[n]? with
  | none => rfl
  | some r =>
    dsimp only
    rw [exec_bind_ok exec_get]
    cases s.loop.isPending r with
    | false => rfl
    | true => cases e <;> rfl

/-- A request of a provider's belongs to it. -/
theorem provider_of_requestsOf {l : Loop} {p : ProviderId} {n : Nat} {r : RequestId} {q : Request}
    (h : (l.requestsOf p)[n]? = some r) (hq : l.requests[r]? = some q) : q.provider = p := by
  obtain ⟨_, own⟩ := List.mem_filter.mp (List.mem_of_getElem? h)
  simpa [hq] using own

theorem inStep_settleRequest (p : ProviderId) (n : Nat) {e e' : Except Failure Settlement}
    (he : e = e' ∨ ∃ x x', e = .ok x ∧ e' = .ok x' ∧
      c.Settles p (Session.settled x) (Session.settled x')) :
    InStep (c.Twins owner) (settleRequest p n e).run (settleRequest p n e').run := by
  intro s s' h
  change ((settleRequest p n e).exec s).1 = ((settleRequest p n e').exec s').1 ∧
    c.Twins owner ((settleRequest p n e).exec s).2 ((settleRequest p n e').exec s').2
  rw [exec_settleRequest, exec_settleRequest, ← h.loop.requestsOf p]
  cases hr : (s.loop.requestsOf p)[n]? with
  | none => exact ⟨rfl, h⟩
  | some r =>
    dsimp only
    rw [← h.loop.isPending r]
    split
    · have settles {x x' : Settlement}
          (hx : c.Settles p (Session.settled x) (Session.settled x')) :
          c.Twins owner (s.onLoop fun l => l.settle r x) (s'.onLoop fun l => l.settle r x') :=
        h.onLoop (h.loop.settle r fun q hq => (provider_of_requestsOf hr hq).symm ▸ hx)
      rcases he with rfl | ⟨x, x', rfl, rfl, hx⟩
      · cases e with
        | ok x => exact ⟨rfl, settles (.inl rfl)⟩
        | error f => exact ⟨rfl, h⟩
      · exact ⟨rfl, settles hx⟩
    · exact ⟨rfl, h⟩

theorem perform_settlement {a : Action} {p : ProviderId} {n : Nat} {e : Settlement}
    (h : a.settlement? = some (p, n, e)) : perform a = settleRequest p n (.ok e) := by
  cases a with
  | resolve q m v =>
    obtain ⟨rfl, rfl, rfl⟩ := by simpa [Action.settlement?] using h
    rw [perform]
  | withdraw q m =>
    obtain ⟨rfl, rfl, rfl⟩ := by simpa [Action.settlement?] using h
    rw [perform]
  | fail q m f =>
    simp only [Action.settlement?, Option.ite_none_left_eq_some, Option.some.injEq,
      Prod.mk.injEq] at h
    obtain ⟨hf, rfl, rfl, rfl⟩ := h
    rw [perform, failedSettlement, if_neg hf]
  | _ => cases h

mutual

/-- Twins perform actions that are alike. -/
theorem inStep_perform : ∀ (a : Action) {b : Action}, c.ActsAlike a b →
    InStep (c.Twins owner) (perform a).run (perform b).run
  | a, _, .same _ => blind_perform a fun _ _ => id
  | _, _, .settles ha hb h => by
    rw [perform_settlement ha, perform_settlement hb]
    exact inStep_settleRequest _ _ (.inr ⟨_, _, rfl, rfl, .inr ⟨rfl, h⟩⟩)
  | .batch as, _, .batch h => by
    rw [perform, perform]
    exact inStep_bind (inStep_performAll as h) fun _ => inStep_pure _

theorem inStep_performAll : ∀ (as : List Action) {bs : List Action},
    List.Forall₂ c.ActsAlike as bs →
      InStep (c.Twins owner) (performAll as).run (performAll bs).run
  | [], _, .nil => by
    rw [performAll]
    exact inStep_pure _
  | a :: rest, _, .cons h others => by
    rw [performAll, performAll]
    exact inStep_bind (inStep_attempt (inStep_perform a h)) fun _ =>
      inStep_bind (inStep_performAll rest others) fun _ => inStep_pure _

end

end Act
end LintBroker

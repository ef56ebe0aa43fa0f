import LintBroker.Proofs.Latitude

/-!
# Two runs in contrast

Two runs are compared that differ only in how one provider answers: its requests are settled in other
ways, and its replies come to other answers, but at the same moments. Replies, hosts and loops are
*alike* if they differ in no more than that.
-/
namespace LintBroker

/-- The request that an action settles, and how. A failure that is refused settles nothing. -/
def Action.settlement? : Action → Option (ProviderId × Nat × Settlement)
  | .resolve p n v => some (p, n, .value v)
  | .fail p n f => if f.isExhaustion then none else some (p, n, .failed f)
  | .withdraw p n => some (p, n, .cancelled)
  | _ => none

/-- The provider whose answers differ between two runs, and the pairs of results that one request of
it may be settled with. Any pairs will do. -/
structure Contrast where
  provider : ProviderId
  pairs : Except Failure Value → Except Failure Value → Prop

namespace Contrast
variable (c : Contrast) {p : ProviderId}

/-- What a provider's request is settled with in the two runs. -/
def Settles (p : ProviderId) (r r' : Except Failure Value) : Prop :=
  r = r' ∨ p = c.provider ∧ c.pairs r r'

/-- What a provider answers in the two runs. -/
def Answers (p : ProviderId) (r r' : Except Failure Value) : Prop :=
  r = r' ∨ p = c.provider ∧ Dispatch.Contained r ∧ Dispatch.Contained r'

/-- The same action, but for how requests of the provider are settled. -/
inductive ActsAlike : Action → Action → Prop
  | same (a : Action) : ActsAlike a a
  | settles {a b : Action} {n : Nat} {e e' : Settlement}
      (ha : a.settlement? = some (c.provider, n, e)) (hb : b.settlement? = some (c.provider, n, e'))
      (h : c.pairs (Session.settled e) (Session.settled e')) : ActsAlike a b
  | batch {as bs : List Action} (h : List.Forall₂ ActsAlike as bs) :
      ActsAlike (.batch as) (.batch bs)

/-- Replies that do the same up to their answers, as long as their requests are settled in pairs. -/
inductive RepliesAlike (p : ProviderId) : Reply → Reply → Prop
  | settle {r r' : Except Failure Value} (h : c.Answers p r r') :
      RepliesAlike p (.settle r) (.settle r')
  | act {a b : Action} {next next' : Except Failure Result → Reply} (h : c.ActsAlike a b)
      (go : ∀ r, RepliesAlike p (next r) (next' r)) : RepliesAlike p (.act a next) (.act b next')
  | pause {next next' : Except Failure Unit → Reply} (go : ∀ r, RepliesAlike p (next r) (next' r)) :
      RepliesAlike p (.pause next) (.pause next')
  | request {next next' : Except Failure Value → Reply}
      (go : ∀ r r', c.Settles p r r' → RepliesAlike p (next r) (next' r')) :
      RepliesAlike p (.request next) (.request next')

variable {c} in
/-- Every reply of another provider is like itself. -/
theorem RepliesAlike.refl (hp : p ≠ c.provider) (reply : Reply) : c.RepliesAlike p reply reply := by
  induction reply with
  | value v =>
    have settles : c.RepliesAlike p (.settle (.ok v)) (.settle (.ok v)) := .settle (.inl rfl)
    exact settles
  | fail f =>
    have settles : c.RepliesAlike p (.settle (.error f)) (.settle (.error f)) := .settle (.inl rfl)
    exact settles
  | act a next ih => exact .act (.same a) ih
  | pause next ih => exact .pause ih
  | request next ih =>
    refine .request fun r r' h => ?_
    obtain rfl := h.resolve_right fun h => hp h.1
    exact ih r

/-- The same attributes, and replies that are alike. -/
structure ProvidersAlike (p : ProviderId) (x y : Provider) : Prop where
  attributes : x.attributes = y.attributes
  reply : ∀ n, c.RepliesAlike p (x.reply n) (y.reply n)

/-- Hosts that differ in the replies of providers and in how often listeners were called. -/
structure HostsAlike (h h' : Host) : Prop where
  surfaces : h.surfaces = h'.surfaces
  providers : ∀ p, Option.Rel (c.ProvidersAlike p) (h.providers.get? p) (h'.providers.get? p)
  listeners : h.listeners = h'.listeners
  ignoreRule : h.ignoreRule = h'.ignoreRule
  matcher : h.matcher = h'.matcher
  environment : h.environment = h'.environment
  calls : h.calls = h'.calls
  contexts : h.contexts = h'.contexts
  subscriptions : h.subscriptions = h'.subscriptions

/-- The runs may differ in how the requests of the provider are settled, and in how its replies go
on. -/
def latitude : Latitude := ⟨c.Settles, c.RepliesAlike, fun _ _ => .inl rfl⟩

variable (owner : Job → ProviderId)

/-- Tasks that differ in how the replies of their provider go on. -/
abbrev TasksAlike (requests : Array Request) (x y : Task) : Prop :=
  Task.Alike c.latitude owner requests x y

/-- Loops with the same queue, and with tasks and requests that are alike. -/
abbrev LoopsAlike (l l' : Loop) : Prop := Loop.Alike c.latitude owner l l'

end Contrast
end LintBroker

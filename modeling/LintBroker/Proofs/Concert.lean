import LintBroker.Proofs.LikeTurns
import LintBroker.Proofs.Latitude

/-!
# Likenesses in concert

Two runs may perform different actions, as long as these count as alike. A voiced likeness is
*concerted* if related sessions perform alike actions in step, their providers reply alike, and their
loops are alike. Then related sessions take the same turns: whatever stands first in the queue does the
same in both, and moves that are alike lead from related sessions to related ones.
-/
namespace LintBroker
open Session Act

/-! ### Replies and scripts -/

inductive Reply.Alike (P : Action → Action → Prop) : Reply → Reply → Prop
  | value (v : Value) : Alike P (.value v) (.value v)
  | fail (f : Failure) : Alike P (.fail f) (.fail f)
  | act {a b : Action} {next next' : Except Failure Result → Reply} (h : P a b)
      (go : ∀ r, Alike P (next r) (next' r)) : Alike P (.act a next) (.act b next')
  | pause {next next' : Except Failure Unit → Reply} (go : ∀ r, Alike P (next r) (next' r)) :
      Alike P (.pause next) (.pause next')
  | request {next next' : Except Failure Value → Reply} (go : ∀ r, Alike P (next r) (next' r)) :
      Alike P (.request next) (.request next')

/-- Scripts that do the same, but for actions that are alike. -/
inductive Script.Alike (P : Action → Action → Prop) :
    Script Action Result → Script Action Result → Prop
  | done : Alike P .done .done
  | fail (f : Failure) : Alike P (.fail f) (.fail f)
  | act {a b : Action} {next next' : Except Failure Result → Script Action Result} (h : P a b)
      (go : ∀ r, Alike P (next r) (next' r)) : Alike P (.act a next) (.act b next')
  | append (v : Value) {next next' : Except Failure Unit → Script Action Result}
      (go : ∀ r, Alike P (next r) (next' r)) : Alike P (.append v next) (.append v next')

section alike
variable {P : Action → Action → Prop}

theorem Reply.Alike.refl (hP : ∀ a, P a a) (reply : Reply) : reply.Alike P reply := by
  induction reply with
  | value v => exact .value v
  | fail f => exact .fail f
  | act a next ih => exact .act (hP a) ih
  | pause next ih => exact .pause ih
  | request next ih => exact .request ih

theorem Script.Alike.refl (hP : ∀ a, P a a) (c : Script Action Result) : c.Alike P c := by
  induction c with
  | done => exact .done
  | fail f => exact .fail f
  | act a next ih => exact .act (hP a) ih
  | append v next ih => exact .append v ih

/-- Scripts that are alike perform their actions in step. -/
theorem inStep_script {S : Session → Session → Prop}
    {perform : Action → StateM Session (Except Failure Result)}
    (hP : ∀ a b, P a b → InStep S (perform a) (perform b)) {c c' : Script Action Result}
    (h : c.Alike P c') (n : Notice) : InStep S (c.run perform n) (c'.run perform n) := by
  induction h generalizing n with
  | done => exact .pure _
  | fail f => exact .pure _
  | act h _ ih => exact .bind (hP _ _ h) fun r => ih r n
  | append v _ ih =>
    unfold Script.run
    split
    · exact ih _ _
    · exact ih _ _

end alike

/-- Requests are settled in the same way, and replies differ in actions that are alike. -/
def Latitude.replying (P : Action → Action → Prop) : Latitude :=
  ⟨fun _ => Eq, fun _ => Reply.Alike P, fun _ _ => rfl⟩

theorem Latitude.uniform_replying (P : Action → Action → Prop) : (replying P).Uniform :=
  fun _ _ _ _ h => h

/-- Loops that differ in the actions that replies perform. -/
abbrev Loop.Plays (P : Action → Action → Prop) : Loop → Loop → Prop :=
  Loop.Alike (.replying P) fun _ => ""

section plays
variable {P : Action → Action → Prop}

theorem Phase.Alike.over {p : ProviderId} {requests : Array Request} {x y : Phase}
    (h : x.Alike (.replying P) p requests y) (requests' : Array Request) :
    x.Alike (.replying P) p requests' y := by
  cases h with
  | fresh => exact .fresh
  | running => exact .running
  | paused go => exact .paused go
  | awaiting _ go => exact .awaiting (.inl (Latitude.uniform_replying P)) go
  | gathering g => exact .gathering g
  | ended e => exact .ended e

theorem Phase.Alike.refl (hP : ∀ a, P a a) (p : ProviderId) (requests : Array Request) (x : Phase) :
    x.Alike (.replying P) p requests x := by
  cases x with
  | fresh => exact .fresh
  | running => exact .running
  | paused next => exact .paused fun r => .refl hP (next r)
  | awaiting r next =>
    exact .awaiting (.inl (Latitude.uniform_replying P)) fun o _ h => h ▸ .refl hP (next o)
  | gathering g => exact .gathering g
  | ended e => exact .ended e

theorem Loop.Alike.refl (hP : ∀ a, P a a) (l : Loop) : l.Plays P l where
  ready := rfl
  tasks t := by
    cases l.tasks[t]? with
    | none => exact .none
    | some x => exact .some ⟨rfl, rfl, rfl, rfl, .refl hP _ _ _⟩
  requests r := by
    cases l.requests[r]? with
    | none => exact .none
    | some q =>
      refine .some ⟨rfl, rfl, ?_⟩
      cases q.settlement with
      | none => exact .none
      | some e => exact .some rfl

end plays

/-- Whoever is told of loops that are alike is told the same. -/
theorem Loop.Alike.told {v : Latitude} {owner : Job → ProviderId} {l l' : Loop}
    (h : l.Alike v owner l') : l.SameTold l' :=
  ⟨h.named?, h.namedCount, h.hasEnded, h.isPending, h.requestsOf⟩

/-! ### Turns -/

/-- Related sessions perform alike actions in step, and their providers and loops are alike. -/
class Concerted (S : Session → Session → Prop) (apart : outParam (ProviderId → Prop))
    (P : outParam (Action → Action → Prop)) : Prop extends Voiced S apart where
  perform {a b : Action} (h : P a b) : InStep S (Act.perform a).run (Act.perform b).run
  replies {s s' : Session} (h : S s s') (p : ProviderId) :
    Option.Rel (fun x x' => ∀ n, (x.reply n).Alike P (x'.reply n))
      (s.host.providers.get? p) (s'.host.providers.get? p)
  calls {s s' : Session} (h : S s s') : s.host.calls = s'.host.calls
  count {s s' : Session} (h : S s s') (p : ProviderId) (n : Nat) :
    S (s.onHost fun h => { h with calls := h.calls.put p n })
      (s'.onHost fun h => { h with calls := h.calls.put p n })
  loop {s s' : Session} (h : S s s') : s.loop.Plays P s'.loop
  onLoop {s s' : Session} (h : S s s') {f f' : Loop → Loop}
    (alike : (f s.loop).Plays P (f' s'.loop)) : S (s.onLoop f) (s'.onLoop f')

inductive Progress.Alike (P : Action → Action → Prop) : Progress → Progress → Prop
  | answered (r : Except Failure Value) : Alike P (.answered r) (.answered r)
  | paused {next next' : Except Failure Unit → Reply} (go : ∀ r, (next r).Alike P (next' r)) :
      Alike P (.paused next) (.paused next')
  | awaiting (r : RequestId) {next next' : Except Failure Value → Reply}
      (go : ∀ o, (next o).Alike P (next' o)) : Alike P (.awaiting r next) (.awaiting r next')

variable {S : Session → Session → Prop} {apart : ProviderId → Prop} {P : Action → Action → Prop}
  [Concerted S apart P]
include apart P

namespace Dispatch

theorem inStep_ask (d : Dispatch) (p : ProviderId) :
    InStep S (ask d p).run (ask d p).run (Agree (Reply.Alike P)) := by
  refine inStep_bind_of (inStep_attributes p) (fun a a' akin => ?_) .error
  rw [akin.lookUp (n := "lint") (by decide)]
  refine inStep_bind_to (inStep_take _) (fun lint => ?_) .error
  split
  · exact fun _ _ h => ⟨.error _, h⟩
  · refine inStep_get fun s s' h =>
      inStep_bind_of (inStep_expect_of (Concerted.replies h p) p) (fun x x' alike => ?_) .error
    refine inStep_get fun s s' h => ?_
    rw [Concerted.calls h]
    have counts (n : Nat) :
        BlindTo S (modifyHost fun host => { host with calls := host.calls.put p n }) :=
      inStep_modify fun _ _ h => Concerted.count h p n
    exact inStep_bind_to (counts _) (fun _ => inStep_bind_to (blind_note _)
      (fun _ _ _ h => ⟨.ok (alike _), h⟩) .error) .error

theorem inStep_advance (p : ProviderId) (t : TaskId) {reply reply' : Reply}
    (h : reply.Alike P reply') :
    InStep S (advance p t reply) (advance p t reply') (Progress.Alike P) := by
  induction h with
  | value v => exact fun _ _ h => ⟨.answered _, h⟩
  | fail f => exact fun _ _ h => ⟨.answered _, h⟩
  | act h _ ih => exact .bind (Concerted.perform h) ih
  | pause go => exact fun _ _ h => ⟨.paused go, h⟩
  | request go =>
    refine .get fun s s' h => ?_
    rw [(Concerted.loop h).size_requests]
    have opened (s s' : Session) (h : S s s') : S (s.onLoop fun l => l.openRequest p t)
        (s'.onLoop fun l => l.openRequest p t) :=
      Concerted.onLoop h ((Concerted.loop h).openRequest p t)
    have opens : BlindTo S (modifyLoop fun l => l.openRequest p t) := inStep_modify opened
    exact .bind opens fun _ _ _ h => ⟨.awaiting _ go, h⟩

theorem inStep_start (d : Dispatch) (p : ProviderId) (t : TaskId) :
    InStep S (start d p t) (start d p t) (Progress.Alike P) := by
  refine .bind_of (inStep_ask d p) fun r r' agree => ?_
  cases agree with
  | ok alike => exact inStep_advance p t alike
  | error f => exact fun _ _ h => ⟨.answered _, h⟩

theorem blind_provider (d : Dispatch) : BlindTo S (provider d) :=
  Broker.inStep_record_bind _ fun _ _ akin => akin.provider ▸ inStep_pure _

end Dispatch

namespace Session
variable {s s' : Session}

theorem inStep_finish (t : TaskId) (r : Except Failure Bool) :
    InStep S (finish t r) (finish t r) := by
  refine .modify fun s s' h => Concerted.onLoop h ?_
  rw [(Concerted.loop h).isCancelPending]
  exact (Concerted.loop h).finish t _

theorem inStep_putBack (t : TaskId) {x y : Task} {requests : Array Request}
    (alike : x.Alike (.replying P) (fun _ => "") requests y) :
    InStep S (putBack t x) (putBack t y) :=
  .modify fun _ _ h => Concerted.onLoop h ((Concerted.loop h).changeTask t fun _ _ _ _ =>
    { alike with phase := alike.phase.over _ })

theorem inStep_isCancelling (t : TaskId) : InStep S (isCancelling t) (isCancelling t) := by
  refine .get fun s s' h => ?_
  rw [(Concerted.loop h).cancelling]
  exact .pure _

theorem inStep_follow (d : Dispatch) (p : ProviderId) (t : TaskId) {g g' : Progress}
    (alike : g.Alike P g') : InStep S (follow d p t g) (follow d p t g') := by
  cases alike with
  | answered r =>
    exact .bind (inStep_isCancelling t) fun _ => .bind (Dispatch.blind_conclude d p _ r) fun _ =>
      inStep_finish t _
  | paused go =>
    exact .modify fun _ _ h => Concerted.onLoop h ((Concerted.loop h).pause t fun _ _ => go)
  | awaiting r go =>
    exact .modify fun _ _ h => Concerted.onLoop h ((Concerted.loop h).await t r fun _ _ =>
      ⟨.inl (Latitude.uniform_replying P), fun o _ same => same ▸ go o⟩)

theorem inStep_startDispatch (d : Dispatch) (t : TaskId) :
    InStep S (startDispatch d t) (startDispatch d t) := by
  refine .bind (Dispatch.blind_provider d) fun r => ?_
  cases r with
  | error f => exact inStep_finish t _
  | ok p =>
    refine .bind (Dispatch.blind_announce d p) fun r => ?_
    cases r with
    | error f => exact inStep_finish t _
    | ok _ => exact .bind_of (Dispatch.inStep_start d p t) fun _ _ alike => inStep_follow d p t alike

theorem inStep_resumeDispatch (d : Dispatch) (t : TaskId) {reply reply' : Reply}
    (alike : reply.Alike P reply') :
    InStep S (resumeDispatch d t reply) (resumeDispatch d t reply') := by
  refine .bind (Dispatch.blind_provider d) fun r => ?_
  cases r with
  | error f => exact inStep_finish t _
  | ok p =>
    exact .bind_of (Dispatch.inStep_advance p t alike) fun _ _ alike => inStep_follow d p t alike

theorem inStep_startLint (context : EditContext) (t : TaskId) :
    InStep S (startLint context t) (startLint context t) := by
  refine .bind (Round.blind_start t context) fun r => ?_
  split
  · exact inStep_finish t _
  · exact inStep_finish t _
  · exact inStep_finish t _
  · exact .modify fun _ _ h => Concerted.onLoop h ((Concerted.loop h).gather t _)

theorem inStep_resume (t : TaskId) {x y : Task} {requests : Array Request}
    (alike : x.Alike (.replying P) (fun _ => "") requests y) :
    InStep S (resume t x) (resume t y) := by
  have back := inStep_putBack (S := S) t alike
  obtain ⟨name, job, phase, pending, cancelling⟩ := x
  obtain ⟨name', job', phase', pending', cancelling'⟩ := y
  obtain ⟨rfl, rfl, rfl, rfl, phases⟩ := alike
  dsimp only at phases
  cases phases with
  | running => exact back
  | ended e => exact back
  | gathering g =>
    simp only [resume]
    split
    · exact inStep_finish t _
    · exact back
  | fresh =>
    cases job with
    | lint context =>
      simp only [resume]
      split
      · exact inStep_finish t _
      · exact inStep_startLint context t
    | dispatch d =>
      simp only [resume]
      split
      · exact inStep_finish t _
      · exact inStep_startDispatch d t
  | paused go =>
    cases job with
    | lint context => exact back
    | dispatch d => exact inStep_resumeDispatch d t (go _)
  | @awaiting r next next' own go =>
    cases job with
    | lint context => exact back
    | dispatch d =>
      refine .get fun s s' h => ?_
      have settled := (Concerted.loop h).settlement (p := "") (r := r)
        (.inl (Latitude.uniform_replying P))
      generalize (s.loop.requests[r]?).bind Request.settlement = e,
        (s'.loop.requests[r]?).bind Request.settlement = e' at settled
      cases settled with
      | none => exact back
      | @some e e' same =>
        obtain same : settled e = settled e' := same
        exact inStep_resumeDispatch d t (same ▸ go _ _ rfl)

theorem inStep_step (t : TaskId) : InStep S (step t) (step t) := by
  refine .get fun s s' h => ?_
  have alike := (Concerted.loop h).tasks t
  generalize s.loop.tasks[t]? = x, s'.loop.tasks[t]? = y at alike
  cases alike with
  | none => exact .pure _
  | some alike =>
    exact .bind (.modify fun _ _ h => Concerted.onLoop h ((Concerted.loop h).wake t)) fun _ =>
      inStep_resume t alike

/-! ### Runs -/

omit [Concerted S apart P] in
/-- The same moves, but for actions that are alike. -/
inductive Move.Alike (P : Action → Action → Prop) : Move → Move → Prop
  | act {a b : Action} (h : P a b) : Alike P (.act a) (.act b)
  | tick : Alike P .tick .tick

/-- Whatever stands first in the queue does the same in both. -/
theorem related_tick (h : S s s') : S s.tick s'.tick := by
  unfold tick
  rw [(Concerted.loop h).ready]
  split
  · exact h
  · next r rest _ =>
    have popped : S (s.onLoop fun l => { l with ready := rest })
        (s'.onLoop fun l => { l with ready := rest }) :=
      Concerted.onLoop h ((Concerted.loop h).withReady rest)
    cases r with
    | step t => exact (inStep_step t _ _ popped).2
    | memberEnded parent member =>
      exact Concerted.onLoop popped ((Concerted.loop popped).memberEnded parent member)

/-- Alike moves lead from related sessions to related ones. -/
theorem related_move {m m' : Move} (alike : m.Alike P m') (h : S s s') :
    S (s.move m) (s'.move m') := by
  cases alike with
  | act acts => exact (Concerted.perform acts s s' h).2
  | tick => exact related_tick h

end Session
end LintBroker

import LintBroker.Proofs.Dealing
import LintBroker.Proofs.Habits

/-!
# The responses of providers

When a dispatch calls its provider, and whenever it goes on with what its provider has given way or
waited for, the reply comes to its answer or it does not. So the responses that come in a run can be
told from its moves alone: from what the providers of the host reply, from what becomes of their
requests, and from who is asked to end meanwhile. They are what the dispatches get, in that order.
-/
namespace LintBroker
open Dispatch Act

/-- What a reply comes to before it has to give way or wait, if it comes to an answer. -/
def Reply.response? : Reply → Session → Option (Except Failure Value)
  | .value v, _ => some (.ok v)
  | .fail f, _ => some (.error f)
  | .act a next, s => (next (s.perform a).1).response? (s.perform a).2
  | .pause _, _ => none
  | .request _, _ => none

/-- What a provider gets of the settlement of its request: the value or the failure, a cancellation if
it was withdrawn, and a cancellation whatever it was if the dispatch was asked to end meanwhile. -/
def Settlement.handedOver (asked : Bool) : Settlement → Except Failure Value
  | .value v => if asked then .error .cancellation else .ok v
  | .failed f => if asked && !f.isCancellation then .error .cancellation else .error f
  | .cancelled => .error .cancellation

namespace Session
variable {s s' : Session} {d : Dispatch} {p : ProviderId} {t : TaskId} {x : Task}
  {r : Except Failure Value}

/-- What a provider comes to at once when a dispatch calls it. One that has no method to be called
fails the call. -/
def responseToCall (s : Session) (d : Dispatch) (p : ProviderId) (provider : Provider) :
    Option (Except Failure Value) :=
  match provider.attributes.lookUp "lint" with
  | .ok .method => (provider.reply ((s.host.calls.get? p).getD 0)).response? (asked s d p)
  | .ok (.value v) =>
    some (.error (.ofText .badType ("'" ++ v.typeName ++ "' object is not callable")))
  | .error f => some (.error f)

/-- What a dispatch comes to in its first step. It calls its provider once it has been traced. -/
def firstResponse (s : Session) (d : Dispatch) : Option (Except Failure Value) := do
  let p ← s.providerOf d.record
  let name ← (s.nameOf p).toOption
  let provider ← s.host.providers.get? p
  let traced := s.noted (.trace ("Linting with " ++ Text.quoted name ++ ", request " ++
    toString d.generation))
  (traced.noted (.entered d)).responseToCall d p provider

/-- What the provider of a dispatch comes to when the task goes on from where it stood. -/
def responseTo (s : Session) (d : Dispatch) (x : Task) : Option (Except Failure Value) :=
  match x.phase with
  | .fresh => if x.cancelPending then none else s.firstResponse d
  | .paused next =>
    (next (if x.cancelPending then .error .cancellation else .ok ())).response? s
  | .awaiting q next => do
    let e ← s.loop.requests[q]? >>= Request.settlement
    (next (e.handedOver x.cancelPending)).response? s
  | _ => none

/-- The response that comes in the next tick, if one does. -/
def nextResponse (s : Session) : Option (Dispatch × Except Failure Value) :=
  match s.loop.ready with
  | .step t :: _ => do
    let x ← s.loop.tasks[t]?
    let .dispatch d := x.job | none
    return (d, ← (s.woken t).responseTo d x)
  | _ => none

/-- The responses that come in a run, in order. -/
def responses (s : Session) : List Move → List (Dispatch × Except Failure Value)
  | [] => []
  | .act a :: moves => (s.perform a).2.responses moves
  | .tick :: moves => s.nextResponse.toList ++ s.tick.responses moves

/-! ### What a task does with a response -/

/-- No answer came in between. -/
def Unanswered (s s' : Session) : Prop := answersIn s'.history = answersIn s.history

instance : IsPreorder Session Unanswered where
  refl _ := rfl
  trans _ _ _ h h' := h'.trans h

theorem Unanswered.trans {s'' : Session} (h : s.Unanswered s') (h' : s'.Unanswered s'') :
    s.Unanswered s'' := Eq.trans h' h

theorem Changes.unanswered (h : s.Changes s') : s.Unanswered s' := by
  obtain ⟨es, hJ, plain⟩ := h.history
  have none : answersIn es = [] := List.filterMap_eq_nil_iff.mpr fun e he => by
    have := plain e he
    cases e <;> first | rfl | cases this
  rw [Unanswered, hJ, answersIn_append, none, List.append_nil]

theorem unanswered_noted {e : Entry} (h : e.answered? = none) (s : Session) :
    s.Unanswered (s.noted e) := by
  simp [Unanswered, answersIn, h]

/-- Nothing that a task does answers it. -/
instance : Tenor Unanswered where
  stroke h := h.deeds.changes.unanswered
  own h s := unanswered_noted (by rename_i e; cases e <;> first | rfl | cases h) s
  counts _ _ _ := rfl
  calls _ _ := rfl
  emit handling d n s := by
    have emitted : s.Unanswered (s.noted (.emitted d n)) := unanswered_noted rfl s
    exact emitted.trans (Act.changes_emit handling d n s).unanswered

/-- These answers came in between, and no other. -/
def Answers (s : Session) (given : List (Dispatch × Except Failure Value)) (s' : Session) : Prop :=
  answersIn s'.history = answersIn s.history ++ given

theorem Unanswered.answers (h : s.Unanswered s') : s.Answers [] s' :=
  Eq.trans h (List.append_nil _).symm

theorem Unanswered.before {s₀ : Session} {given : List (Dispatch × Except Failure Value)}
    (h : s₀.Unanswered s) (answers : s.Answers given s') : s₀.Answers given s' := by
  rw [Answers, answers, h]

theorem answers_conclude (d : Dispatch) (p : ProviderId) (cancelling : Bool)
    (r : Except Failure Value) (s : Session) :
    s.Answers [(d, r)] ((conclude d p cancelling r).exec s).2 := by
  have after : Unanswered _ _ := conclude_after d p cancelling r s
  rw [Answers, after, history_noted, answersIn_append]
  rfl

end Session

/-- The answer that a reply has come to. -/
def Progress.answer? : Progress → Option (Except Failure Value)
  | .answered r => some r
  | _ => none

namespace Session
variable {s s' : Session} {d : Dispatch} {p : ProviderId} {t : TaskId} {x : Task}

theorem answers_follow (d : Dispatch) (p : ProviderId) (t : TaskId) (g : Progress) (s : Session) :
    s.Answers (g.answer?.toList.map (d, ·)) ((follow d p t g).run s).2 := by
  cases g with
  | answered r => exact answers_conclude d p _ r s
  | paused next => exact Unanswered.answers rfl
  | awaiting q next => exact Unanswered.answers rfl

theorem advance_response (p : ProviderId) (t : TaskId) (reply : Reply) (s : Session) :
    ((advance p t reply).run s).1.answer? = reply.response? s ∧
      s.Unanswered ((advance p t reply).run s).2 := by
  induction reply generalizing s with
  | value v => exact ⟨rfl, rfl⟩
  | fail f => exact ⟨rfl, rfl⟩
  | act a next ih =>
    obtain ⟨same, unanswered⟩ := ih (s.perform a).1 (s.perform a).2
    have performs : s.Unanswered (s.perform a).2 := habit_perform a s
    exact ⟨same, performs.trans unanswered⟩
  | pause next => exact ⟨rfl, rfl⟩
  | request next => exact ⟨rfl, rfl⟩

theorem answers_advance (d : Dispatch) (p : ProviderId) (t : TaskId) (reply : Reply) (s : Session) :
    s.Answers ((reply.response? s).toList.map (d, ·))
      ((do follow d p t (← advance p t reply) : StateM Session Unit).run s).2 := by
  obtain ⟨same, unanswered⟩ := advance_response p t reply s
  rw [← same]
  exact unanswered.before (answers_follow d p t _ _)

theorem answers_resumeDispatch (he : (Dispatch.provider d).exec s = (.ok p, s)) (reply : Reply) :
    s.Answers ((reply.response? s).toList.map (d, ·)) ((resumeDispatch d t reply).run s).2 := by
  rw [resumeDispatch, run_bind_exec, he]
  exact answers_advance d p t reply s

theorem answers_start {provider : Provider} (hx : s.host.providers.get? p = some provider) :
    s.Answers ((s.responseToCall d p provider).toList.map (d, ·))
      ((do follow d p t (← Dispatch.start d p t) : StateM Session Unit).run s).2 := by
  have reads : s.attributesOf p = .ok provider.attributes := by rw [attributesOf, hx]
  have fails {f : Failure} (asks : (ask d p).exec s = (.error f, s)) : s.Answers [(d, .error f)]
      ((do follow d p t (← Dispatch.start d p t) : StateM Session Unit).run s).2 := by
    have start : (Dispatch.start d p t).run s = (.answered (.error f), s) := by
      rw [Dispatch.start, run_bind_exec, asks]
      rfl
    have follows := answers_follow d p t (.answered (.error f)) s
    rw [StateT.run_bind, start]
    exact follows
  cases lints : provider.attributes.lookUp "lint" with
  | error f =>
    simp only [responseToCall, lints]
    exact fails (exec_ask_unreadable reads lints)
  | ok reading =>
    cases reading with
    | value v =>
      simp only [responseToCall, lints]
      exact fails (exec_ask_value reads lints)
    | method =>
      have start : (Dispatch.start d p t).run s =
          (advance p t (provider.reply ((s.host.calls.get? p).getD 0))).run (asked s d p) := by
        rw [Dispatch.start, run_bind_exec, exec_ask_method hx lints]
      have calls : s.Unanswered (asked s d p) := unanswered_noted rfl _
      simp only [responseToCall, lints]
      rw [StateT.run_bind, start]
      exact calls.before (answers_advance d p t _ _)

theorem answers_startDispatch (hp : s.providerOf d.record = some p) :
    s.Answers ((s.firstResponse d).toList.map (d, ·)) ((startDispatch d t).run s).2 := by
  have he := exec_provider hp
  cases hn : s.nameOf p with
  | error f =>
    rw [run_startDispatch_unnamed he hn]
    simp only [firstResponse, hp, hn, Option.bind_eq_bind, Option.bind_some, Except.toOption,
      Option.bind_none]
    exact Unanswered.answers rfl
  | ok name =>
    obtain ⟨provider, hx⟩ : ∃ provider, s.host.providers.get? p = some provider := by
      cases hx : s.host.providers.get? p with
      | some provider => exact ⟨provider, rfl⟩
      | none =>
        rw [nameOf, attributesOf, hx] at hn
        cases hn
    rw [run_startDispatch he, exec_announce_named hn]
    simp only [firstResponse, hp, hn, hx, Option.bind_eq_bind, Option.bind_some, Except.toOption]
    have traced : s.Unanswered (s.noted (.trace ("Linting with " ++ Text.quoted name ++
      ", request " ++ toString d.generation))) := unanswered_noted rfl s
    exact (traced.trans (unanswered_noted rfl _)).before (answers_start hx)

theorem arrival_settled (asked : Bool) (e : Settlement) :
    arrival asked (settled e) = e.handedOver asked := by
  cases asked with
  | false => cases e <;> rfl
  | true =>
    cases e with
    | value v => rfl
    | cancelled => rfl
    | failed f =>
      simp only [arrival, settled, Settlement.handedOver]
      cases f.isCancellation <;> rfl

theorem answers_resume (hp : s.providerOf d.record = some p) (job : x.job = .dispatch d) :
    s.Answers ((s.responseTo d x).toList.map (d, ·)) ((resume t x).run s).2 := by
  have he := exec_provider hp
  have none (h : s.responseTo d x = none) (same : s.Unanswered ((resume t x).run s).2) :
      s.Answers ((s.responseTo d x).toList.map (d, ·)) ((resume t x).run s).2 := by
    rw [h]
    exact same.answers
  have turn := resumption s t x
  generalize ((resume t x).run s).2 = s' at turn none ⊢
  cases turn with
  | cancelled fresh asked => exact none (by simp [responseTo, fresh, asked]) rfl
  | lint _ lints => rw [job] at lints; cases lints
  | dispatch fresh job' unasked =>
    obtain rfl := Job.dispatch.inj (job.symm.trans job')
    have := answers_startDispatch (t := t) hp
    simpa only [responseTo, fresh, unasked, Bool.false_eq_true, if_false] using this
  | paused phase job' =>
    obtain rfl := Job.dispatch.inj (job.symm.trans job')
    have arrives : (if x.cancelPending then .error .cancellation else .ok ()) =
        arrival x.cancelPending (.ok ()) := rfl
    simp only [responseTo, phase, arrives]
    exact answers_resumeDispatch he _
  | settled phase job' settlement =>
    obtain rfl := Job.dispatch.inj (job.symm.trans job')
    have settled : s.loop.requests[_]? >>= Request.settlement = some _ := settlement
    simp only [responseTo, phase, settled, Option.bind_eq_bind, Option.bind_some]
    rw [arrival_settled]
    exact answers_resumeDispatch he _
  | decided phase => exact none (by simp only [responseTo, phase]) rfl
  | idle idles =>
    refine none ?_ rfl
    cases phase : x.phase with
    | fresh => simp only [Task.Idles, phase] at idles
    | paused next => simp only [Task.Idles, phase, job] at idles
    | awaiting q next =>
      simp only [Task.Idles, phase, job] at idles
      simp only [responseTo, phase, Option.bind_eq_bind, idles, Option.bind_none]
    | running | gathering | ended => simp only [responseTo, phase]

theorem unanswered_resume_lint {c : EditContext} (job : x.job = .lint c) :
    s.Unanswered ((resume t x).run s).2 := by
  have turn := resumption s t x
  generalize ((resume t x).run s).2 = s' at turn ⊢
  cases turn with
  | lint =>
    rename_i context _ _ _
    have chooses : s.Unanswered ((Round.start t context).exec s).2 := Round.habit_start t context s
    rw [run_startLint]
    split <;> exact chooses.trans rfl
  | dispatch _ job' | paused _ job' | settled _ job' =>
    rw [job] at job'
    cases job'
  | cancelled | decided | idle => rfl

/-- In a tick the response comes that is next, if one is. -/
theorem answers_tick (c : s.Coherent) : s.Answers s.nextResponse.toList s.tick := by
  cases ready : s.loop.ready with
  | nil =>
    simp only [nextResponse, tick, ready]
    exact Unanswered.answers rfl
  | cons r rest =>
    cases r with
    | memberEnded parent member =>
      simp only [nextResponse, tick, ready]
      exact Unanswered.answers rfl
    | step t =>
      cases hx : s.loop.tasks[t]? with
      | none =>
        simp only [nextResponse, tick, ready, hx, Option.bind_eq_bind, Option.bind_none]
        rw [run_step_none (s := s.onLoop fun l => { l with ready := rest }) hx]
        exact Unanswered.answers rfl
      | some x =>
        rw [tick_step ready hx]
        cases job : x.job with
        | lint context =>
          simp only [nextResponse, ready, hx, job, Option.bind_eq_bind, Option.bind_some]
          exact (unanswered_resume_lint (s := s.woken t) job).answers
        | dispatch d =>
          obtain ⟨p, hp, _⟩ := c.exec_provider (c.tasked hx job)
          have goes := answers_resume (s := s.woken t) (t := t) hp job
          simp only [nextResponse, ready, hx, job, Option.bind_eq_bind, Option.bind_some]
          cases comes : (s.woken t).responseTo d x with
          | none =>
            rw [comes] at goes
            exact goes
          | some r =>
            rw [comes] at goes
            exact goes

/-- What dispatches get in a run are the responses of their providers, in the order in which these
come. -/
theorem answersIn_run (s : Session) (moves : List Move) :
    answersIn (s.opening.run moves).history = s.opening.responses moves := by
  have goes : ∀ (moves : List Move) (u : Session), u.Coherent → u.Idle →
      u.Answers (u.responses moves) (u.run moves) := by
    intro moves
    induction moves with
    | nil => exact fun u _ _ => Unanswered.answers rfl
    | cons m moves ih =>
      intro u c idle
      have comes := comes_move c idle m
      have rest := ih (u.move m) (c.path comes.path) comes.idle
      cases m with
      | act a =>
        have performs : u.Unanswered (u.perform a).2 := habit_perform a u
        exact performs.before rest
      | tick =>
        have ticks := answers_tick c
        show answersIn _ = _ ++ (_ ++ _)
        rw [← List.append_assoc, ← ticks]
        exact rest
  have whole := goes moves s.opening s.coherent_opening s.idle_opening
  rwa [Answers, show s.opening.history = [] from rfl, answersIn_nil, List.nil_append] at whole

end Session
end LintBroker

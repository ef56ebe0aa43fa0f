import LintBroker.Proofs.Persistence
import LintBroker.Proofs.Queue
import LintBroker.Proofs.TwinTurns

/-!
# Twins make the same moves

A run goes on undisturbed by a provider if no task that asks it has been asked to end, and if after
every turn of such a task the provider can be read and its surface answers. If one of two twins runs
so, moves that are alike lead to twins again: turn by turn, tick by tick, and so for a whole run.
-/
namespace LintBroker
open Session Contrast

namespace Session
open Act
variable {c : Contrast} {last s s' : Session} {t : TaskId} {d : Dispatch} {p : ProviderId}

/-- Whom a task asks, as far as that is known in the end. -/
def ownerOf (last : Session) : Job → ProviderId
  | .lint _ => ""
  | .dispatch d => (last.providerOf d.record).getD ""

/-- No task that asks the provider has been asked to end. -/
def Uncancelled (s : Session) (p : ProviderId) : Prop :=
  ∀ (t : TaskId) (x : Task) (d : Dispatch), s.loop.tasks[t]? = some x → x.job = .dispatch d →
    s.providerOf d.record = some p → x.cancelling = false

theorem Uncancelled.before (h : last.Uncancelled p) (path : s.Path last) : s.Uncancelled p := by
  intro t x d hx hd hp
  obtain ⟨y, hy, hj, hc⟩ := path.task hx
  have going := h t y d hy (hj.trans hd) (path.providerOf hp)
  cases hxc : x.cancelling with
  | false => rfl
  | true => rw [hc hxc] at going; cases going

/-- The next tick is a turn of a task that asks the provider. -/
def TurnOf (s : Session) (p : ProviderId) (d : Dispatch) : Prop :=
  ∃ t rest x, s.loop.ready = .step t :: rest ∧ s.loop.tasks[t]? = some x ∧ x.job = .dispatch d ∧
    s.providerOf d.record = some p

/-! ### Turns -/

theorem readings_follow (d : Dispatch) (p : ProviderId) (t : TaskId) (g : Progress) :
    KeepsTo KeepsReadings (follow d p t g) := by
  have onLoop (f : Session → Loop → Loop) :
      KeepsTo KeepsReadings (modify fun s : Session => s.onLoop (f s)) :=
    fun _ observed => ⟨observed, fun _ => rfl, fun _ _ => rfl⟩
  cases g with
  | answered r =>
    exact .bind (fun s => refl s) fun _ => .bind (Dispatch.readings_conclude d p _ r) fun _ => onLoop _
  | paused next => exact onLoop _
  | awaiting r next => exact onLoop _

/-- Twins whose dispatch has come equally far go on alike. -/
theorem twins_followed (h : c.Twins last.ownerOf s s') (coh : s.Coherent)
    (runs : s.Runs t (.dispatch d)) (stage : s.Stands d.key .entered)
    (hp : s.providerOf d.record = some p) {g g' : Progress}
    (alike : Dispatch.ProgressAlike c p s.loop.requests g g')
    (rest : ((follow d p t g).run s).2.Path last) (going : last.Uncancelled c.provider)
    (legible : p = c.provider → ((follow d p t g).run s).2.Legible p d) :
    c.Twins last.ownerOf ((follow d p t g).run s).2 ((follow d p t g').run s').2 := by
  have path : s.Path last := (comes_follow coh runs stage hp g).path.trans rest
  refine twins_follow h (fun x hx => ?_) (fun own => ⟨?_, ?_, ?_⟩) alike
  · rw [(runs.phase hx).2, ownerOf, path.providerOf hp, Option.getD_some]
  · rintro ⟨x, hx, hc⟩
    have := going.before path t x d hx (runs.phase hx).2 (own ▸ hp)
    rw [hc] at this
    cases this
  · have same : s.SameReadings ((follow d p t g).run s).2 := readings_follow d p t g s h.observed
    exact (legible own).congr (same.attributesOf p).symm fun q => (same.answerOf _ q).symm
  · obtain ⟨x, hx, _⟩ := Option.map_eq_some_iff.mp hp
    exact ⟨x, hx⟩

theorem run_resumeDispatch (hp : s.providerOf d.record = some p) (reply : Reply) :
    (resumeDispatch d t reply).run s = (follow d p t ((Dispatch.advance p t reply).run s).1).run
      ((Dispatch.advance p t reply).run s).2 := by
  rw [resumeDispatch, run_bind_exec, exec_provider hp]
  rfl

theorem twins_resumeDispatch (h : c.Twins last.ownerOf s s') (coh : s.Coherent)
    (runs : s.Runs t (.dispatch d)) (stage : s.Stands d.key .entered)
    (hp : s.providerOf d.record = some p) {reply reply' : Reply}
    (alike : c.RepliesAlike p reply reply') (rest : ((resumeDispatch d t reply).run s).2.Path last)
    (going : last.Uncancelled c.provider)
    (legible : p = c.provider → ((resumeDispatch d t reply).run s).2.Legible p d) :
    c.Twins last.ownerOf ((resumeDispatch d t reply).run s).2
      ((resumeDispatch d t reply').run s').2 := by
  have hp' : s'.providerOf d.record = some p := by rw [providerOf, ← h.registry, ← providerOf, hp]
  rw [run_resumeDispatch hp] at rest legible ⊢
  rw [run_resumeDispatch hp']
  obtain ⟨far, twins⟩ := Dispatch.twins_advance (t := t) alike h
  have way := Dispatch.meanwhile_advance (p := p) reply runs stage
  exact twins_followed twins (coh.path way.path) (runs.keeps way.loop) (way.stands stage (by simp))
    (way.path.providerOf hp) far rest going legible

/-- The first step of a dispatch whose provider has a name. -/
theorem run_startDispatch_named (hp : s.providerOf d.record = some p)
    (announced : ((Dispatch.announce d p).exec s).1 = .ok ()) :
    (startDispatch d t).run s =
      (follow d p t ((Dispatch.start d p t).run ((Dispatch.announce d p).exec s).2).1).run
        ((Dispatch.start d p t).run ((Dispatch.announce d p).exec s).2).2 := by
  rw [run_startDispatch (exec_provider hp), announced]
  rfl

theorem twins_startDispatch (h : c.Twins last.ownerOf s s') (coh : s.Coherent)
    (runs : s.Runs t (.dispatch d)) (stage : s.Stands d.key .begun)
    (hp : s.providerOf d.record = some p) (rest : ((startDispatch d t).run s).2.Path last)
    (going : last.Uncancelled c.provider)
    (legible : p = c.provider → ((startDispatch d t).run s).2.Legible p d) :
    c.Twins last.ownerOf ((startDispatch d t).run s).2 ((startDispatch d t).run s').2 := by
  have hp' : s'.providerOf d.record = some p := by rw [providerOf, ← h.registry, ← providerOf, hp]
  cases hn : s.nameOf p with
  | error f =>
    have hn' : s'.nameOf p = .error f := by rw [← h.nameOf, hn]
    rw [run_startDispatch_unnamed (exec_provider hp) hn,
      run_startDispatch_unnamed (exec_provider hp') hn']
    exact twins_finish h t _
  | ok name =>
    obtain ⟨s₁, announced, path, loop, entered⟩ := Dispatch.exec_announce_ok runs stage hn
    obtain ⟨same, twins⟩ : ((Dispatch.announce d p).exec s).1 = ((Dispatch.announce d p).exec s').1 ∧
        c.Twins last.ownerOf ((Dispatch.announce d p).exec s).2 ((Dispatch.announce d p).exec s').2 :=
      Dispatch.blind_announce d p s s' h
    have first : ((Dispatch.announce d p).exec s).1 = .ok () := by rw [announced]
    rw [run_startDispatch_named hp first] at rest legible ⊢
    rw [run_startDispatch_named hp' (same ▸ first)]
    rw [announced] at rest legible twins ⊢
    obtain ⟨far, twins⟩ := Dispatch.twins_start twins d p t
    have way := Dispatch.meanwhile_start (runs.keeps loop) entered (path.providerOf hp)
    exact twins_followed twins ((coh.path path).path way.path) ((runs.keeps loop).keeps way.loop)
      (way.stands entered (by simp)) (way.path.providerOf (path.providerOf hp)) far rest going legible

theorem twins_startLint (h : c.Twins last.ownerOf s s') (context : EditContext) (t : TaskId) :
    c.Twins last.ownerOf ((startLint context t).run s).2 ((startLint context t).run s').2 := by
  obtain ⟨same, twins⟩ : ((Round.start t context).exec s).1 = ((Round.start t context).exec s').1 ∧
      c.Twins last.ownerOf ((Round.start t context).exec s).2 ((Round.start t context).exec s').2 :=
    Round.blind_start t context s s' h
  rw [run_startLint, run_startLint, ← same]
  cases ((Round.start t context).exec s).1 with
  | error f => exact twins_finish twins t _
  | ok round =>
    cases round with
    | none => exact twins_finish twins t _
    | some ds =>
      cases ds with
      | nil => exact twins_finish twins t _
      | cons d ds => exact { twins with loop := twins.loop.gather t (d :: ds) }

theorem twins_putBack (h : c.Twins last.ownerOf s s') (t : TaskId) {x y : Task}
    (alike : c.TasksAlike last.ownerOf s.loop.requests x y) :
    c.Twins last.ownerOf ((putBack t x).run s).2 ((putBack t y).run s').2 :=
  { h with loop := h.loop.changeTask t fun _ _ _ _ => alike }

/-! ### Ticks -/

theorem twins_wake (h : c.Twins last.ownerOf s s') (t : TaskId) :
    c.Twins last.ownerOf (s.onLoop fun l => l.wake t) (s'.onLoop fun l => l.wake t) :=
  { h with loop := h.loop.wake t }

/-- What a dispatch that waits is resumed with, if it is not being cancelled or not the one whose
answers differ. -/
theorem settles_arrival {pending : Bool} {r r' : Except Failure Value} (settles : c.Settles p r r')
    (going : p = c.provider → pending = false) :
    c.Settles p (arrival pending r) (arrival pending r') := by
  rcases settles with rfl | ⟨own, pair⟩
  · exact .inl rfl
  · rw [going own]
    exact .inr ⟨own, pair⟩

theorem twins_resumeAwaiting (h : c.Twins last.ownerOf s s') (coh : s.Coherent)
    (runs : s.Runs t (.dispatch d)) (stage : s.Stands d.key .entered)
    (hp : s.providerOf d.record = some p) {x y : Task}
    (alike : c.TasksAlike last.ownerOf s.loop.requests x y) (hd : x.job = .dispatch d)
    {r : RequestId} {next next' : Except Failure Value → Reply} (hx : x.phase = .awaiting r next)
    (hy : y.phase = .awaiting r next')
    (own : c.latitude.Uniform ∨ s.loop.requests[r]?.map Request.provider = some p)
    (go : ∀ o o', c.Settles p o o' → c.RepliesAlike p (next o) (next' o'))
    (calm : p = c.provider → x.cancelPending = false)
    (rest : ((resume t x).run s).2.Path last) (going : last.Uncancelled c.provider)
    (legible : p = c.provider → ((resume t x).run s).2.Legible p d) :
    c.Twins last.ownerOf ((resume t x).run s).2 ((resume t y).run s').2 := by
  have hd' : y.job = .dispatch d := alike.job ▸ hd
  have settlements := h.loop.settlement own
  generalize he : (s.loop.requests[r]?).bind Request.settlement = e,
    he' : (s'.loop.requests[r]?).bind Request.settlement = e' at settlements
  cases settlements with
  | none =>
    have idles : x.Idles s.loop := by simpa only [Task.Idles, hx, hd] using he
    have idles' : y.Idles s'.loop := by simpa only [Task.Idles, hy, hd'] using he'
    rw [run_resume_idle idles, run_resume_idle idles']
    exact twins_putBack h t alike
  | some pair =>
    rw [run_resume_settled hx hd he] at rest legible ⊢
    rw [run_resume_settled hy hd' he', ← alike.cancelPending]
    exact twins_resumeDispatch h coh runs stage hp (go _ _ (settles_arrival pair calm)) rest going
      legible

theorem twins_step (h : c.Twins last.ownerOf s s') (coh : s.Coherent) (idle : s.Idle)
    (left : s.loop.Asked) (t : TaskId)
    (rest : ((step t).run s).2.Path last) (going : last.Uncancelled c.provider)
    (legible : ∀ x d, s.loop.tasks[t]? = some x → x.job = .dispatch d →
      s.providerOf d.record = some c.provider → ((step t).run s).2.Legible c.provider d) :
    c.Twins last.ownerOf ((step t).run s).2 ((step t).run s').2 := by
  cases hx : s.loop.tasks[t]? with
  | none =>
    rw [run_step_none hx, run_step_none (h.loop.task_none hx)]
    exact h
  | some x =>
    obtain ⟨y, hy, alike⟩ := h.loop.task hx
    have wakes := twins_wake h t
    have path : s.Path last := (comes_step coh idle t).path.trans rest
    have runs : (s.onLoop fun l => l.wake t).Runs t x.job := runs_wake hx
    have back : c.Twins last.ownerOf ((putBack t x).run (s.onLoop fun l => l.wake t)).2
        ((putBack t y).run (s'.onLoop fun l => l.wake t)).2 := twins_putBack wakes t alike
    have woken (hn : ∀ e, x.phase ≠ .ended e) : (s.onLoop fun l => l.wake t).Coherent :=
      coh.step (.wake idle (not_ended hx hn))
    have asks {d : Dispatch} (hd : x.job = .dispatch d) :
        ∃ p, s.providerOf d.record = some p ∧ last.ownerOf x.job = p := by
      obtain ⟨p, hp, _⟩ := coh.exec_provider (coh.tasked hx hd)
      exact ⟨p, hp, by rw [hd, ownerOf, path.providerOf hp, Option.getD_some]⟩
    rw [run_step_some hx] at rest legible ⊢
    rw [run_step_some hy]
    obtain ⟨name, job, phase, pending, cancelling⟩ := x
    obtain ⟨name', job', phase', pending', cancelling'⟩ := y
    have kept := alike
    obtain ⟨rfl, rfl, rfl, rfl, phases⟩ := alike
    dsimp only at runs asks phases woken
    cases phases with
    | running => exact back
    | ended e => exact back
    | gathering g =>
      cases outcome : g.outcome with
      | none =>
        have idles (l : Loop) : Task.Idles ⟨name, job, .gathering g, pending, cancelling⟩ l := outcome
        rw [run_resume_idle (idles _), run_resume_idle (idles _)]
        exact back
      | some r =>
        rw [resume_decided rfl outcome]
        exact twins_finish wakes t _
    | fresh =>
      cases job with
      | lint context =>
        cases pending with
        | true => exact twins_finish wakes t _
        | false => exact twins_startLint wakes context t
      | dispatch d =>
        obtain ⟨p, hp, _⟩ := asks rfl
        cases pending with
        | true => exact twins_finish wakes t _
        | false =>
          exact twins_startDispatch wakes (woken nofun) runs (coh.begun_of_fresh hx rfl rfl) hp rest
            going fun own => own ▸ legible _ d hx rfl (own ▸ hp)
    | paused go =>
      cases job with
      | lint context => exact back
      | dispatch d =>
        obtain ⟨p, hp, hown⟩ := asks rfl
        exact twins_resumeDispatch wakes (woken nofun) runs (coh.entered_of_paused hx rfl rfl) hp
          (hown ▸ go _) rest going fun own => own ▸ legible _ d hx rfl (own ▸ hp)
    | @awaiting r next next' own go =>
      cases job with
      | lint context => exact back
      | dispatch d =>
        obtain ⟨p, hp, hown⟩ := asks rfl
        rw [hown] at own go
        refine twins_resumeAwaiting wakes (woken nofun) runs (coh.entered_of_awaiting hx rfl rfl) hp
          kept rfl rfl rfl own go (fun own => ?_) rest going
          fun own => own ▸ legible _ d hx rfl (own ▸ hp)
        have free := going.before path t _ d hx rfl (own ▸ hp)
        cases pending with
        | false => rfl
        | true => rw [left t _ hx rfl] at free; cases free

theorem twins_tick (h : c.Twins last.ownerOf s s') (coh : s.Coherent) (idle : s.Idle)
    (left : s.loop.Asked) (rest : s.tick.Path last) (going : last.Uncancelled c.provider)
    (legible : ∀ d, s.TurnOf c.provider d → s.tick.Legible c.provider d) :
    c.Twins last.ownerOf s.tick s'.tick := by
  have ready' : s'.loop.ready = s.loop.ready := h.loop.ready.symm
  have popped (rest : List Ready) : c.Twins last.ownerOf
      (s.onLoop fun l => { l with ready := rest }) (s'.onLoop fun l => { l with ready := rest }) :=
    { h with loop := h.loop.withReady rest }
  cases hr : s.loop.ready with
  | nil =>
    have still {u : Session} (hu : u.loop.ready = []) : u.tick = u := by simp [tick, hu]
    rw [still hr, still (ready'.trans hr)]
    exact h
  | cons r others =>
    cases r with
    | memberEnded parent member =>
      have hears {u : Session} (hu : u.loop.ready = .memberEnded parent member :: others) :
          u.tick = (u.onLoop fun l => { l with ready := others }).onLoop
            fun l => l.memberEnded parent member := by simp [tick, hu]
      rw [hears hr, hears (ready'.trans hr)]
      exact { popped others with loop := (popped others).loop.memberEnded parent member }
    | step t =>
      have steps {u : Session} (hu : u.loop.ready = .step t :: others) :
          u.tick = ((step t).run (u.onLoop fun l => { l with ready := others })).2 := by
        simp [tick, hu]
      rw [steps hr] at rest legible ⊢
      rw [steps (ready'.trans hr)]
      exact twins_step (popped others) (coh.step (.pop hr)) idle left t rest going
        fun x d hx hd hp => legible d ⟨t, others, x, hr, hx, hd, hp⟩

end Session

/-! ### Runs -/

/-- The same moves, but for how requests of the provider are settled. -/
inductive Contrast.MovesAlike (c : Contrast) : Move → Move → Prop
  | act {a b : Action} (h : c.ActsAlike a b) : MovesAlike c (.act a) (.act b)
  | tick : MovesAlike c .tick .tick

namespace Session
variable {c : Contrast} {last s s' : Session} {p : ProviderId} {m : Move} {moves : List Move}

/-- In none of the moves has the provider, or what its dispatches depend on, been in trouble: no task
that asks it is asked to end, and when such a task has its turn, the provider can be read, and its
surface answers, before and after. -/
structure Untroubled (s : Session) (moves : List Move) (p : ProviderId) : Prop where
  uncancelled : (s.run moves).Uncancelled p
  legible : ∀ (before after : List Move) (d : Dispatch), moves = before ++ .tick :: after →
    (s.run before).TurnOf p d → (s.run before).Legible p d ∧ (s.run before).tick.Legible p d

theorem Untroubled.tail (h : s.Untroubled (m :: moves) p) : (s.move m).Untroubled moves p :=
  ⟨h.uncancelled, fun before after d split => h.legible (m :: before) after d (by rw [split]; rfl)⟩

theorem Untroubled.head (h : s.Untroubled (.tick :: moves) p) {d : Dispatch} (turn : s.TurnOf p d) :
    s.Legible p d ∧ s.tick.Legible p d := h.legible [] moves d rfl turn

/-- Twins make a move. -/
theorem twins_move (h : c.Twins last.ownerOf s s') (coh : s.Coherent) (idle : s.Idle)
    (left : s.loop.Asked) {m' : Move} (alike : c.MovesAlike m m') (rest : (s.move m).Path last)
    (untroubled : s.Untroubled (m :: moves) c.provider) (hlast : last = s.run (m :: moves)) :
    c.Twins last.ownerOf (s.move m) (s'.move m') := by
  cases alike with
  | act acts => exact (Act.inStep_perform _ acts s s' h).2
  | tick =>
    exact twins_tick h coh idle left rest (hlast ▸ untroubled.uncancelled)
      fun d turn => (untroubled.head turn).2

end Session
end LintBroker

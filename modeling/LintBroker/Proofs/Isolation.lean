import LintBroker.Proofs.Endings
import LintBroker.Proofs.TwinRuns
import LintBroker.Proofs.UpdateOrder

/-!
# Isolation of providers

Whatever a provider answers, as long as its answers are contained and come at the same moments, all
others go on as if nothing had happened.
-/
namespace LintBroker

def Phase.ending? : Phase → Option Ending
  | .ended e => some e
  | _ => none

/-- A dispatch is answered once. -/
theorem Stage.answered_unique {x : Stage} {r r' : Except Failure Value}
    (h : .answered r ∈ x.marks) (h' : .answered r' ∈ x.marks) : r = r' := by
  cases x with
  | answered _ v => cases v <;> simp_all [Stage.marks, Verdict.marks]
  | closed _ v => cases v <;> simp_all [Stage.marks, Verdict.marks]
  | _ => simp [Stage.marks] at h

namespace Session
open Act
variable {s s' : Session} {t : TaskId} {d : Dispatch} {p : ProviderId}

/-! ### The ends of dispatches -/

/-- Every dispatch of the provider whose task has ended has had its end announced. -/
def Concluded (s : Session) (p : ProviderId) : Prop :=
  ∀ (t : TaskId) (x : Task) (d : Dispatch) (e : Ending), s.loop.tasks[t]? = some x →
    x.job = .dispatch d → s.providerOf d.record = some p → x.phase = .ended e →
      ∃ r v, s.Stands d.key (.closed r v)

/-- The end of a dispatch whose task had ended stays announced. -/
theorem Concluded.stays (h : s.Concluded p) (c : s.Coherent) (path : s.Path s') {z : Task}
    {e : Ending} (hz : s.loop.tasks[t]? = some z) (hd : z.job = .dispatch d)
    (he : z.phase = .ended e) (hp : s'.providerOf d.record = some p) :
    ∃ r v, s'.Stands d.key (.closed r v) := by
  obtain ⟨x, hx, _⟩ := c.generation (c.tasked hz hd)
  have known := providerOf_eq hx
  rw [path.providerOf known, Option.some.injEq] at hp
  obtain ⟨r, v, closed⟩ := h t z d e hz hd (hp ▸ known) he
  exact ⟨r, v, path.stands_of_ended c hz hd he closed⟩

theorem Concluded.keeps (h : s.Concluded p) (c : s.Coherent) (path : s.Path s')
    (hk : s.loop.Keeps s'.loop) : s'.Concluded p := by
  intro t x d e hx hd hp he
  obtain ⟨z, hz, hzx⟩ := hk.back_dispatch hx hd
  exact h.stays c path hz (hzx.job.symm.trans hd) ((hzx.phase_eq' (by simp [he])).symm.trans he) hp

theorem Coherent.not_entered (c : s.Coherent) {x : Task} {e : Ending}
    (hx : s.loop.tasks[t]? = some x) (hd : x.job = .dispatch d) (he : x.phase = .ended e) :
    ¬ s.Stands d.key .entered := by
  intro entered
  obtain ⟨y, hy, fits⟩ := c.fits hx hd
  rw [he, hy.unique entered] at fits
  exact fits.2.2 rfl

theorem closed_follow (c : s.Coherent) (runs : s.Runs t (.dispatch d))
    (stage : s.Stands d.key .entered) (hp : s.providerOf d.record = some p) (g : Progress)
    {scope : Scope} (hs : ((follow d p t g).run s).2.scopeOf p = .ok scope) {x : Task}
    {e : Ending} (hx : ((follow d p t g).run s).2.loop.tasks[t]? = some x)
    (hd : x.job = .dispatch d) (he : x.phase = .ended e) :
    ∃ r v, ((follow d p t g).run s).2.Stands d.key (.closed r v) := by
  have c' := c.path (comes_follow c runs stage hp g).path
  cases g with
  | paused next => exact absurd stage (c'.not_entered hx hd he)
  | awaiting r next => exact absurd stage (c'.not_entered hx hd he)
  | answered r =>
    let cancelling := ((s.loop.tasks[t]?).map Task.cancelling).getD false
    have hc : cancelling = true → s.IsCancelling t := by
      intro h
      obtain ⟨x, hx, _⟩ := runs
      exact ⟨x, hx, by simpa [cancelling, hx] using h⟩
    obtain ⟨path, _, may⟩ := Dispatch.concluded (r := r) runs stage hp hc
    rcases may with begun | closed | ⟨_, _, f, _, unscoped⟩
    · obtain ⟨y, hy, beyond⟩ := path.beyond c stage trivial
      obtain rfl := begun.unique hy
      exact beyond.elim
    · exact closed
    · have same : ((follow d p t (.answered r)).run s).2.scopeOf p = .error f := unscoped
      rw [hs] at same
      cases same

theorem run_step_back {x : Task} (hx : s.loop.tasks[t]? = some x)
    (idles : x.Idles (s.onLoop fun l => l.wake t).loop) : ((step t).run s).2 = s := by
  rw [run_step_some hx, run_resume_idle idles]
  exact onLoop_wake_back hx

/-- If a dispatch has come to its end by its own step, that was announced. -/
theorem closed_step (c : s.Coherent) (idle : s.Idle) (concluded : s.Concluded p) {z : Task}
    (hz : s.loop.tasks[t]? = some z) (hd : z.job = .dispatch d)
    (hp : s.providerOf d.record = some p) (going : z.cancelPending = false) {name : String}
    (hn : s.nameOf p = .ok name) {scope : Scope} (hs : ((step t).run s).2.scopeOf p = .ok scope)
    {x : Task} {e : Ending} (hx : ((step t).run s).2.loop.tasks[t]? = some x)
    (he : x.phase = .ended e) : ∃ r v, ((step t).run s).2.Stands d.key (.closed r v) := by
  let woken := s.onLoop fun l => l.wake t
  have turn := comes_step c idle t
  have hxd : x.job = .dispatch d := by
    obtain ⟨w, hw, hj, _⟩ := turn.path.task hz
    rw [hx, Option.some.injEq] at hw
    rw [hw, hj, hd]
  have wakes (h : ∀ e, z.phase ≠ .ended e) : woken.Coherent := c.step (.wake idle (not_ended hz h))
  have runs : woken.Runs t (.dispatch d) := hd ▸ runs_wake hz
  have hpw : woken.providerOf d.record = some p := hp
  -- a dispatch that goes on with its provider's reply comes to its end by that
  have resumes {u : Session} (c : u.Coherent) (runs : u.Runs t (.dispatch d))
      (stage : u.Stands d.key .entered) (hp : u.providerOf d.record = some p) (reply : Reply)
      (same : ((step t).run s).2 = ((resumeDispatch d t reply).run u).2) :
      ∃ r v, ((step t).run s).2.Stands d.key (.closed r v) := by
    rw [run_resumeDispatch hp] at same
    have way := Dispatch.meanwhile_advance (p := p) reply runs stage
    rw [same] at hs hx ⊢
    exact closed_follow (c.path way.path) (runs.keeps way.loop) (way.stands stage nofun)
      (way.path.providerOf hp) _ hs hx hxd he
  cases hph : z.phase with
  | fresh =>
    have c' := wakes (by simp [hph])
    have stage : woken.Stands d.key .begun := c.begun_of_fresh hz hd hph
    obtain ⟨s₁, announced, path, loop, entered⟩ := Dispatch.exec_announce_ok runs stage hn
    have way := Dispatch.meanwhile_start (runs.keeps loop) entered (path.providerOf hp)
    have same : (step t).run s = (follow d p t ((Dispatch.start d p t).run s₁).1).run
        ((Dispatch.start d p t).run s₁).2 := by
      rw [run_step_some hz, resume_dispatch hph hd going,
        run_startDispatch_named hpw (by rw [announced]), announced]
    rw [same] at hs hx ⊢
    exact closed_follow ((c'.path path).path way.path) ((runs.keeps loop).keeps way.loop)
      (way.stands entered nofun) (way.path.providerOf (path.providerOf hp)) _ hs hx hxd he
  | running => exact absurd hph (idle t z hz)
  | paused next =>
    have stage : woken.Stands d.key .entered := c.entered_of_paused hz hd hph
    refine resumes (wakes (by simp [hph])) runs stage hp (next (arrival z.cancelPending (.ok ()))) ?_
    rw [run_step_some hz, resume_paused hph hd]
  | awaiting r next =>
    have stage : woken.Stands d.key .entered := c.entered_of_awaiting hz hd hph
    cases hr : (woken.loop.requests[r]?).bind Request.settlement with
    | some settlement =>
      refine resumes (wakes (by simp [hph])) runs stage hp
        (next (arrival z.cancelPending (settled settlement))) ?_
      rw [run_step_some hz, run_resume_settled hph hd hr]
    | none =>
      have idles : z.Idles woken.loop := by simpa only [Task.Idles, hph, hd] using hr
      have same := run_step_back hz idles
      rw [same, hz, Option.some.injEq] at hx
      rw [← hx, hph] at he
      cases he
  | gathering g => exact absurd hph (c.not_gathering hz hd g)
  | ended e' =>
    have same := run_step_back hz (by simp only [Task.Idles, hph])
    rw [same]
    exact concluded t z d e' hz hd hp hph

/-- No dispatch of the provider is about to be cancelled. -/
def Going (s : Session) (p : ProviderId) : Prop :=
  ∀ (t : TaskId) (x : Task) (d : Dispatch), s.loop.tasks[t]? = some x → x.job = .dispatch d →
    s.providerOf d.record = some p → x.cancelPending = false

/-- The step of a task ends no dispatch of the provider without announcing that. -/
theorem Concluded.step (h : s.Concluded p) (c : s.Coherent) (idle : s.Idle) (t : TaskId)
    (going : s.Going p)
    (legible : ∀ z d, s.loop.tasks[t]? = some z → z.job = .dispatch d →
      s.providerOf d.record = some p → s.Legible p d ∧ ((step t).run s).2.Legible p d) :
    ((step t).run s).2.Concluded p := by
  have turn := comes_step c idle t
  intro u x d e hx hd hp he
  cases hz : s.loop.tasks[u]? with
  | none =>
    by_cases hu : u = t
    · subst hu
      rw [run_step_none hz] at hx
      exact absurd (hz.symm.trans hx) nofun
    · rw [turn.others.fresh u x hu hz hx] at he
      cases he
  | some z =>
    by_cases hu : u = t
    · subst hu
      obtain ⟨w, hw, hj, _⟩ := turn.path.task hz
      rw [hx, Option.some.injEq] at hw
      have hzd : z.job = .dispatch d := by rw [← hj, ← hw, hd]
      obtain ⟨y, hy, _⟩ := c.generation (c.tasked hz hzd)
      have known : s.providerOf d.record = some p := by
        rw [← hp, turn.path.providerOf (providerOf_eq hy), providerOf_eq hy]
      obtain ⟨⟨⟨name, hn⟩, _, _⟩, ⟨_, ⟨scope, hs⟩, _⟩⟩ := legible z d hz hzd known
      exact closed_step c idle h hz hzd known (going u z d hz hzd known) hn hs hx he
    · obtain ⟨w, hw, kept⟩ := turn.others.forth u z hu hz
      rw [hx, Option.some.injEq] at hw
      subst hw
      exact h.stays c turn.path hz (kept.job.symm.trans hd)
        ((kept.phase_eq' (by simp [he])).symm.trans he) hp

/-- A tick ends no dispatch of the provider without announcing that. -/
theorem Concluded.tick (h : s.Concluded p) (c : s.Coherent) (idle : s.Idle) (going : s.Going p)
    (legible : ∀ d, s.TurnOf p d → s.Legible p d ∧ s.tick.Legible p d) : s.tick.Concluded p := by
  cases hr : s.loop.ready with
  | nil =>
    have still : s.tick = s := by simp [Session.tick, hr]
    rwa [still]
  | cons r others =>
    let popped := s.onLoop fun l => { l with ready := others }
    have c' : popped.Coherent := c.step (.pop hr)
    have before : popped.Concluded p := h
    cases r with
    | memberEnded parent member =>
      have hears : s.tick = popped.onLoop fun l => l.memberEnded parent member := by
        simp [Session.tick, hr, popped]
      rw [hears]
      exact before.keeps c' (.single (.hear parent member)) (Loop.keeps_memberEnded _ parent member)
    | step t =>
      have steps : s.tick = ((Session.step t).run popped).2 := by
        simp [Session.tick, hr, popped]
      rw [steps] at legible ⊢
      refine before.step c' idle t going fun z d hz hd hp => ?_
      obtain ⟨first, final⟩ := legible d ⟨t, others, z, hr, hz, hd, hp⟩
      exact ⟨first.congr rfl fun _ => rfl, final⟩

/-- No task of the provider is about to be cancelled if none has been asked to end. -/
theorem Uncancelled.going (uncancelled : s.Uncancelled p) (left : s.loop.Asked) : s.Going p := by
  intro t x d hx hd hp
  have free := uncancelled t x d hx hd hp
  cases pending : x.cancelPending with
  | false => rfl
  | true =>
    rw [left t x hx pending] at free
    cases free

section run
variable {c : Contrast} {last : Session} {moves moves' : List Move}

/-- Twins whose moves are alike are twins in the end, and every dispatch of the provider that has come
to its end had that announced. -/
theorem twins_run (h : c.Twins last.ownerOf s s') (coh : s.Coherent) (idle : s.Idle)
    (left : s.loop.Asked) (same : List.Forall₂ c.MovesAlike moves moves') (hlast : last = s.run moves)
    (untroubled : s.Untroubled moves c.provider) (concluded : s.Concluded c.provider) :
    c.Twins last.ownerOf (s.run moves) (s'.run moves') ∧ (s.run moves).Concluded c.provider := by
  induction same generalizing s s' with
  | nil => exact ⟨h, concluded⟩
  | @cons m m' moves moves' alike same ih =>
    have comes := comes_move coh idle m
    have coh' := coh.path comes.path
    have rest : (s.move m).Path last := hlast ▸ (comes_run coh' comes.idle moves).path
    have moved := twins_move h coh idle left alike rest untroubled hlast
    have left' : (s.move m).loop.Asked := lasting_move (R := KeepsAsked) _ _ left
    refine ih moved coh' comes.idle left' hlast untroubled.tail ?_
    cases alike with
    | @act a b acts =>
      have changes : Changes s (s.perform a).2 := changes_perform a s
      exact concluded.keeps coh changes.path changes.loop
    | tick =>
      have uncancelled : last.Uncancelled c.provider := hlast ▸ untroubled.uncancelled
      have going := (uncancelled.before (comes.path.trans rest)).going left
      exact concluded.tick coh idle going fun d turn => untroubled.head turn

end run

/-! ### Isolation -/

def resultOf (s : Session) (t : TaskId) : Option Ending :=
  (s.loop.tasks[t]?).bind fun x => x.phase.ending?

/-- In loops that are alike tasks come to the same results. -/
theorem resultOf_alike {v : Latitude} {owner : Job → ProviderId}
    (h : s.loop.Alike v owner s'.loop) (t : TaskId) : s.resultOf t = s'.resultOf t := by
  have ht := h.tasks t
  unfold resultOf
  generalize s.loop.tasks[t]? = x, s'.loop.tasks[t]? = y at ht
  cases ht with
  | none => rfl
  | @some x y alike =>
    have hp := alike.phase
    show x.phase.ending? = y.phase.ending?
    generalize x.phase = a, y.phase = b at hp
    cases hp <;> rfl

/-- The notices of a provider, in order, each with the dispatch that it is of. -/
def noticesFor (s : Session) (p : ProviderId) : List (Dispatch × Notice) :=
  s.history.filterMap fun
    | .emitted d n => if n.provider = p then some (d, n) else none
    | _ => none

def toldOf (s : Session) (l : ListenerId) (p : ProviderId) : List Notice :=
  s.history.filterMap fun
    | .delivered l' n => if l' = l ∧ n.provider = p then some n else none
    | _ => none

/-- Every dispatch of the provider whose task has ended began and finished exactly once. -/
def AllFinish (s : Session) (p : ProviderId) : Prop :=
  ∀ (t : TaskId) (x : Task) (d : Dispatch) (e : Ending), s.loop.tasks[t]? = some x →
    x.job = .dispatch d → s.providerOf d.record = some p → x.phase = .ended e → s.FinishesOnce d p

/-- No update comes of an answer that is a failure. -/
def FaultsSilent (s : Session) : Prop :=
  ∀ (d : Dispatch) (f : Failure), .answered d (.error f) ∈ s.history →
    ∀ n ∈ s.noticesOf d.key, n.kind ≠ .update

/-- What two runs have in common in which a provider may answer differently. All other providers
begin, update and finish in the same order and with the same messages, both in what is emitted and
in what each listener is told; the provider itself begins and finishes in the same order; all
registrations count the same; and every task comes to the same result. In both runs every dispatch
of the provider whose task has ended began and finished exactly once, and no update comes of a
failure. -/
structure Isolated (last last' : Session) (p : ProviderId) : Prop where
  others : ∀ q, q ≠ p → last.noticesFor q = last'.noticesFor q
  told : ∀ l q, q ≠ p → last.toldOf l q = last'.toldOf l q
  own : (last.noticesFor p).filter (fun x => x.2.kind != .update) =
    (last'.noticesFor p).filter (fun x => x.2.kind != .update)
  records : last.registry.records = last'.registry.records
  results : ∀ t, last.resultOf t = last'.resultOf t
  finishes : last.AllFinish p ∧ last'.AllFinish p
  faults : last.FaultsSilent ∧ last'.FaultsSilent

/-- A failure is the whole answer, so nothing is surfaced. -/
theorem faultsSilent (h : s.opening.Path s') : s'.FaultsSilent := by
  intro d f answered n hn hk
  obtain ⟨d', said, hd⟩ := mem_noticesOf_iff.mp hn
  obtain ⟨J₁, J₂, hJ⟩ := List.append_of_mem said
  obtain ⟨u, v, _, _, step, rest, _, hv⟩ := step_of_split h hJ
  obtain ⟨_, value, _, _, _, _, stage⟩ := step.update hv hk
  have path : u.Path s' := .head step rest
  obtain ⟨K, hK⟩ := path.history_prefix
  obtain ⟨y, hy⟩ := (s.coherent_opening.path h).stage d.key
  have failed : .answered (.error f) ∈ y.marks := hy ▸ mem_life answered rfl
  have succeeded : .answered (.ok value) ∈ y.marks := by
    rw [← hy, hK, life_append, ← hd, stage]
    simp [Stage.marks]
  cases Stage.answered_unique failed succeeded

def withReplies (s : Session) (p : ProviderId) (replies : Nat → Reply) : Session :=
  match s.host.providers.get? p with
  | some x => s.onHost fun h => { h with providers := h.providers.put p { x with reply := replies } }
  | none => s

section isolation
variable {c : Contrast} {owner : Job → ProviderId} {replies : Nat → Reply}

theorem hostsAlike_withReplies
    (alike : ∀ x, s.host.providers.get? c.provider = some x →
      ∀ n, c.RepliesAlike c.provider (x.reply n) (replies n)) :
    c.HostsAlike s.host (s.withReplies c.provider replies).host := by
  have others {q : ProviderId} (hq : q ≠ c.provider) :
      Option.Rel (c.ProvidersAlike q) (s.host.providers.get? q) (s.host.providers.get? q) := by
    cases s.host.providers.get? q with
    | none => exact .none
    | some y => exact .some ⟨rfl, fun n => .refl hq _⟩
  unfold withReplies
  split
  · rename_i x hx
    refine ⟨rfl, fun q => ?_, rfl, rfl, rfl, rfl, rfl, rfl, rfl⟩
    rw [host_onHost, Table.get?_put]
    split
    · subst q
      rw [hx]
      exact .some ⟨rfl, alike x hx⟩
    · exact others (Ne.symm ‹_›)
  · rename_i hx
    refine ⟨rfl, fun q => ?_, rfl, rfl, rfl, rfl, rfl, rfl, rfl⟩
    by_cases hq : q = c.provider
    · subst q
      rw [hx]
      exact .none
    · exact others hq

theorem twins_opening (observed : s.Observed)
    (alike : ∀ x, s.host.providers.get? c.provider = some x →
      ∀ n, c.RepliesAlike c.provider (x.reply n) (replies n)) :
    c.Twins owner s.opening (s.withReplies c.provider replies).opening := by
  have rest : s.withReplies c.provider replies =
      { s with host := (s.withReplies c.provider replies).host } := by
    unfold withReplies
    split <;> rfl
  rw [rest]
  exact ⟨hostsAlike_withReplies alike, rfl, rfl, rfl, rfl,
    ⟨rfl, fun _ => .none, fun _ => .none⟩, rfl, observed⟩

/-- An entry that two runs do not have in common tells of no notice but an update of the provider. -/
theorem provider_of_not_common {d : Dispatch} {n : Notice}
    (h : Entry.isCommon p (.emitted d n) = false) : n.kind = .update ∧ n.provider = p := by
  simpa [Entry.isCommon] using h

variable (h : c.Twins owner s s')
include h

theorem noticesFor_twins {q : ProviderId} (hq : q ≠ c.provider) : s.noticesFor q = s'.noticesFor q := by
  refine h.filterMap_history fun e he => ?_
  cases e with
  | emitted d n =>
    obtain ⟨_, own⟩ := provider_of_not_common he
    exact if_neg fun hp => hq (hp.symm.trans own)
  | _ => rfl

theorem toldOf_twins (l : ListenerId) {q : ProviderId} (hq : q ≠ c.provider) :
    s.toldOf l q = s'.toldOf l q := by
  refine h.filterMap_history fun e he => ?_
  cases e with
  | delivered l' n =>
    obtain ⟨_, own⟩ := provider_of_not_common (d := default) he
    exact if_neg fun hp => hq (hp.2.symm.trans own)
  | _ => rfl

theorem ownNotices_twins :
    (s.noticesFor c.provider).filter (fun x => x.2.kind != .update) =
      (s'.noticesFor c.provider).filter (fun x => x.2.kind != .update) := by
  rw [noticesFor, noticesFor, List.filter_filterMap, List.filter_filterMap]
  refine h.filterMap_history fun e he => ?_
  cases e with
  | emitted d n =>
    obtain ⟨update, own⟩ := provider_of_not_common he
    simp [own, update]
  | _ => rfl

theorem finishesOnce_twins (coh' : s'.Coherent) (hp : s'.providerOf d.record = some p)
    (finishes : s.FinishesOnce d p) : s'.FinishesOnce d p := by
  obtain ⟨f, g, updates, notices, _⟩ := finishes
  have last : Notice.finish p g ∈ s.noticesOf d.key := by rw [notices]; simp
  obtain ⟨d', said, hk⟩ := mem_noticesOf_iff.mp last
  have said' : .emitted d' (.finish p g) ∈ s'.history :=
    (h.mem_history (by simp [Entry.isCommon, Notice.kind])).mp said
  obtain ⟨y, hy⟩ := coh'.stage d.key
  have finished : .finished ∈ y.marks := by
    rw [← hy, ← hk]
    exact mem_life said' rfl
  cases y with
  | closed r v => exact coh'.finishesOnce hy hp
  | answered r v => cases v <;> simp [Stage.marks, Verdict.marks] at finished
  | _ => simp [Stage.marks] at finished

theorem allFinish_twins (coh' : s'.Coherent) (all : s.AllFinish p) : s'.AllFinish p := by
  intro t y d e hy hd hp he
  cases hx : s.loop.tasks[t]? with
  | none => exact absurd ((h.loop.task_none hx).symm.trans hy) nofun
  | some x =>
    obtain ⟨_, hy', alike⟩ := h.loop.task hx
    obtain rfl := Option.some.inj (hy.symm.trans hy')
    have hp₀ : s.providerOf d.record = some p := by rw [providerOf, h.registry, ← providerOf, hp]
    have ended : x.phase = .ended e := by
      have phases := alike.phase
      rw [he] at phases
      generalize x.phase = a at phases
      cases phases
      rfl
    exact finishesOnce_twins h coh' hp (all t x d e hx (alike.job.trans hd) hp₀ ended)

end isolation

theorem Concluded.allFinish (h : s.Concluded p) (c : s.Coherent) : s.AllFinish p := by
  intro t x d e hx hd hp he
  obtain ⟨r, v, closed⟩ := h t x d e hx hd hp he
  exact c.finishesOnce closed hp

/-- Two runs are the same but for what the provider answers: its replies and the moves are alike, and
listeners only observe. -/
structure OnlyAnswersDiffer (s : Session) (c : Contrast) (replies : Nat → Reply)
    (moves moves' : List Move) : Prop where
  observed : s.Observed
  replies : ∀ x, s.host.providers.get? c.provider = some x →
    ∀ n, c.RepliesAlike c.provider (x.reply n) (replies n)
  moves : List.Forall₂ c.MovesAlike moves moves'

/-- Other providers are isolated from what one of them answers. Its answers may be any values and any
failures that are contained, and may be settled in other ways, as long as they come at the same
moments; listeners only observe, and the provider is not troubled by anything else. -/
theorem isolated {c : Contrast} {replies : Nat → Reply} {moves moves' : List Move}
    (differ : s.OnlyAnswersDiffer c replies moves moves')
    (untroubled : s.opening.Untroubled moves c.provider) :
    Isolated (s.opening.run moves) ((s.withReplies c.provider replies).opening.run moves')
      c.provider := by
  let other := s.withReplies c.provider replies
  have nothing : s.opening.Concluded c.provider := fun _ _ _ _ hx => by simp [opening] at hx
  obtain ⟨twins, concluded⟩ :=
    twins_run (twins_opening differ.observed differ.replies) s.coherent_opening s.idle_opening
      (s.asked_run []) differ.moves rfl untroubled nothing
  have finishes := concluded.allFinish (s.coherent_run moves)
  exact {
    others := fun _ hq => noticesFor_twins twins hq
    told := fun l _ hq => toldOf_twins twins l hq
    own := ownNotices_twins twins
    records := congrArg Registry.records twins.registry
    results := resultOf_alike twins.loop
    finishes := ⟨finishes, allFinish_twins twins (other.coherent_run moves') finishes⟩
    faults := ⟨faultsSilent (s.comes_opening moves).path,
      faultsSilent (other.comes_opening moves').path⟩ }

/-! ### Answers of a sample -/

/-- Whatever is contained may be answered instead of anything else that is. -/
def anyAnswers (p : ProviderId) : Contrast where
  provider := p
  pairs r r' := Dispatch.Contained r ∧ Dispatch.Contained r'

/-- The sample whose surface answers some questions with failures. -/
def troubledSample (failures : Surface.Question → Option Failure) : Session :=
  { sample [] with host := { (sample []).host with
      surfaces := .ofList ((sample []).host.surfaces.rows.map fun x =>
        (x.1, { x.2 with failures })) } }

/-- Both providers of a sample are asked, something happens, and then the one is answered by the host
and the other in some way. -/
def sampleAnswers (trouble answer : Action) : List Move :=
  .act (.add "p" false) :: .act (.add "q" false) :: sampleLint ++
    .act trouble :: .act (.resolve "q" 0 (.list [.int 1])) :: .act answer ::
      List.replicate 8 .tick

/-- The listener of a sample observes. -/
theorem observed_of_sample (same : s.host.listeners = (sample []).host.listeners) : s.Observed := by
  intro l x hx
  rw [same] at hx
  obtain ⟨row, hrow, rfl⟩ := Option.map_eq_some_iff.mp hx
  have only := List.mem_of_find?_eq_some hrow
  have rows : (sample []).host.listeners.rows = [("c", { script := fun _ _ => .done })] := rfl
  rw [rows, List.mem_singleton] at only
  subst only
  exact Listener.observes_of_idle fun _ _ => .inl rfl

/-- A request that is failed instead of being answered is the only difference. -/
theorem sampleAnswers_differ (failures : Surface.Question → Option Failure) (trouble : Action)
    (v : Value) {f : Failure} (ordinary : f.isOrdinary = true) (refused : f.isExhaustion = false) :
    (troubledSample failures).OnlyAnswersDiffer (anyAnswers "p") (fun _ => .request Reply.settle)
      (sampleAnswers trouble (.resolve "p" 0 v)) (sampleAnswers trouble (.fail "p" 0 f)) where
  observed := observed_of_sample rfl
  replies x hx n := by
    have requests : x.reply n = .request Reply.settle := by
      obtain ⟨row, hrow, rfl⟩ := Option.map_eq_some_iff.mp hx
      have mem := List.mem_of_find?_eq_some hrow
      have same : ∀ y ∈ (sample []).host.providers.rows, y.2.reply n = .request Reply.settle := by
        intro y hy
        change y ∈ [("p", _), ("q", _)] at hy
        rcases List.mem_cons.mp hy with rfl | hy
        · rfl
        · rw [List.mem_singleton.mp hy]
      exact same row mem
    rw [requests]
    exact .request fun r r' settles => .settle settles
  moves := by
    have same (m : Move) : (anyAnswers "p").MovesAlike m m := by
      cases m with
      | act a => exact .act (.same a)
      | tick => exact .tick
    have sames (ms : List Move) : List.Forall₂ (anyAnswers "p").MovesAlike ms ms :=
      List.forall₂_same.mpr fun m _ => same m
    refine .cons (same _) (.cons (same _) (List.rel_append (sames _)
      (.cons (same _) (.cons (same _) (.cons (.act ?_) (sames _))))))
    have fails : (Action.fail "p" 0 f).settlement? = some ("p", 0, .failed f) := by
      simp [Action.settlement?, refused]
    exact .settles rfl fails
      ⟨Dispatch.contained_ok v, Dispatch.contained_error_iff.mpr (.inr ordinary)⟩

/-- A run is untroubled if the provider can be read, and the surfaces of its dispatches answer, when
it starts, and nothing is changed in it. -/
theorem untroubled_of_unchanged {moves : List Move}
    (uncancelled : (s.opening.run moves).Uncancelled p)
    (legible : ∀ (t : TaskId) (x : Task) (d : Dispatch),
      (s.opening.run moves).loop.tasks[t]? = some x → x.job = .dispatch d → s.opening.Legible p d)
    (unchanged : (s.opening.run moves).history.all
      (fun | .reshaped .. | .altered .. => false | _ => true) = true) :
    s.opening.Untroubled moves p := by
  refine ⟨uncancelled, fun before after d split turn => ?_⟩
  subst split
  let u := s.opening.run before
  have c : u.Coherent := s.coherent_run before
  have tick : u.Comes u.tick := comes_tick c (s.comes_opening before).idle
  have rest : u.tick.Path (s.opening.run (before ++ .tick :: after)) := by
    rw [run_append]
    exact (comes_run (c.path tick.path) tick.idle after).path
  obtain ⟨t, _, x, _, hx, hd, _⟩ := turn
  have path : u.Path (s.opening.run (before ++ .tick :: after)) := tick.path.trans rest
  obtain ⟨w, hw, hj, _⟩ := path.task hx
  have first := legible t w d hw (hj.trans hd)
  -- nothing was changed up to a moment of the run either
  have still {v : Session} (hv : s.opening.Path v)
      (rest : v.Path (s.opening.run (before ++ .tick :: after))) : v.Legible p d := by
    have kept (e : Entry) (he : e ∈ v.history) := List.all_eq_true.mp unchanged e (rest.mem_history he)
    refine first.congr ?_ fun q => ?_
    · exact hv.attributesOf (P := (· = s.opening.attributesOf p)) rfl rfl
        fun a ha => absurd (kept _ ha) (by simp)
    · exact hv.answerOf (P := (· = s.opening.answerOf d.context.surface q)) rfl rfl
        fun v hv => absurd (kept _ hv) (by simp)
  have start := (s.comes_opening before).path
  exact ⟨still start path, still (start.trans tick.path) rest⟩

theorem uncancelled_of_all (h : s.loop.tasks.all (fun x => !x.cancelling) = true) :
    s.Uncancelled p := by
  intro t x d hx _ _
  have all := Array.all_eq_true_iff_forall_mem.mp h x (Array.mem_of_getElem? hx)
  simpa using all

def sampleFault : Failure := .ofText .runtime "no answer"

/-- The one provider answers or fails while the other is answered. -/
theorem sample_isolated :
    let c := anyAnswers "p"
    let s := troubledSample fun _ => none
    let replies : Nat → Reply := fun _ => .request Reply.settle
    let moves := sampleAnswers .pass (.resolve "p" 0 (.list [.int 2]))
    let moves' := sampleAnswers .pass (.fail "p" 0 sampleFault)
    s.OnlyAnswersDiffer c replies moves moves' ∧ s.opening.Untroubled moves c.provider ∧
      Isolated (s.opening.run moves) ((s.withReplies c.provider replies).opening.run moves')
        c.provider := by
  intro c s replies moves moves'
  have differ : s.OnlyAnswersDiffer c replies moves moves' :=
    sampleAnswers_differ (fun _ => none) .pass _ rfl rfl
  have untroubled : s.opening.Untroubled moves c.provider := by
    refine untroubled_of_unchanged (uncancelled_of_all (by decide +kernel)) (fun t x d hx hd => ?_)
      (by decide +kernel)
    have surfaces : (s.opening.run moves).loop.tasks.all (fun x => match x.job with
        | .dispatch d => d.context.surface == "s"
        | .lint _ => true) = true := by decide +kernel
    have here := Array.all_eq_true_iff_forall_mem.mp surfaces x (Array.mem_of_getElem? hx)
    rw [hd] at here
    obtain surface : d.context.surface = "s" := by simpa using here
    refine ⟨⟨"p", rfl⟩, ⟨.file, rfl⟩, fun _ => ⟨.bool false, ?_⟩⟩
    rw [surface]
    rfl
  exact ⟨differ, untroubled, isolated differ untroubled⟩

/-- Nothing but the answers of the provider differs and none of its tasks is asked to end, and yet the
runs do not have in common what isolation promises. -/
def AnswersMatter (s : Session) (c : Contrast) (replies : Nat → Reply) (moves moves' : List Move) :
    Prop :=
  s.OnlyAnswersDiffer c replies moves moves' ∧ (s.opening.run moves).Uncancelled c.provider ∧
    ¬ Isolated (s.opening.run moves) ((s.withReplies c.provider replies).opening.run moves') c.provider

theorem not_isolated_of_results (t : TaskId) (b b' : Bool) {last last' : Session}
    (h : (last.resultOf t).map (fun | .value _ => true | _ => false) = some b)
    (h' : (last'.resultOf t).map (fun | .value _ => true | _ => false) = some b') (hb : b ≠ b') :
    ¬ Isolated last last' p := by
  intro isolated
  rw [isolated.results t, h'] at h
  exact hb (Option.some.inj h).symm

theorem not_isolated_of_unfinished (t : TaskId) (id g : Nat) {last last' : Session}
    (ended : (last.loop.tasks[t]?.any fun x => match x.job, x.phase with
      | .dispatch d, .ended _ => d.record == id && d.generation == g
      | _, _ => false) = true)
    (known : last.providerOf id = some p) (one : (last.noticesOf (id, g)).length = 1) :
    ¬ Isolated last last' p := by
  intro isolated
  obtain ⟨x, hx, here⟩ := (Option.any_eq_true _ _).mp ended
  split at here
  · rename_i d e hd he
    obtain ⟨rfl, rfl⟩ : d.record = id ∧ d.generation = g := by simpa using here
    have two := (isolated.finishes.1 t x d e hx hd known he).two_le
    rw [Dispatch.key, one] at two
    omega
  · cases here

/-- Answers matter to others if the provider loses its name or its scope before it answers, or if the
surface cannot say whether it is destroyed. -/
theorem sample_answers_matter :
    let c := anyAnswers "p"
    let replies : Nat → Reply := fun _ => .request Reply.settle
    let gone : Surface.Question → Option Failure := fun
      | .destroyed => some sampleFault
      | _ => none
    let moves (trouble : Action) := sampleAnswers trouble (.resolve "p" 0 (.list [.int 2]))
    let moves' (trouble : Action) := sampleAnswers trouble (.fail "p" 0 sampleFault)
    let unnamed := Action.deleteAttribute "p" "name"
    let unscoped := Action.setAttribute "p" "scope" (.str "galaxy")
    let alone := Action.remove "q"
    (troubledSample fun _ => none).AnswersMatter c replies (moves unnamed) (moves' unnamed) ∧
      (troubledSample fun _ => none).AnswersMatter c replies (moves unscoped) (moves' unscoped) ∧
      (troubledSample gone).AnswersMatter c replies (moves alone) (moves' alone) := by
  intro c replies gone moves moves' unnamed unscoped alone
  refine ⟨⟨sampleAnswers_differ _ _ _ rfl rfl, uncancelled_of_all (by decide +kernel), ?_⟩,
    ⟨sampleAnswers_differ _ _ _ rfl rfl, uncancelled_of_all (by decide +kernel), ?_⟩,
    ⟨sampleAnswers_differ _ _ _ rfl rfl, uncancelled_of_all (by decide +kernel), ?_⟩⟩
  · refine not_isolated_of_results 0 true false ?_ ?_ nofun
    · decide +kernel
    · decide +kernel
  · refine not_isolated_of_unfinished 1 0 1 ?_ ?_ ?_
    · decide +kernel
    · decide +kernel
    · decide +kernel
  · refine not_isolated_of_results 0 false true ?_ ?_ nofun
    · decide +kernel
    · decide +kernel

end Session
end LintBroker

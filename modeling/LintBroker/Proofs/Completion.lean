import LintBroker.Proofs.Content
import LintBroker.Proofs.Isolation
import LintBroker.Proofs.Promises
import LintBroker.Proofs.Schedules

/-!
# Lints come to their ends

If a host keeps its promises and a lint that starts can be decided about, then every turn of a task
ends with a value or leaves the task waiting, and so no lint ends with anything but true or false. And
if ticks keep coming and every request is settled in the end, then every lint ends.
-/
namespace LintBroker
open Session Act

def Task.lint? (x : Task) : Option EditContext :=
  match x.job with
  | .lint c => some c
  | .dispatch _ => none

namespace Session
variable {start last s u : Session} {t : TaskId} {d : Dispatch} {p : ProviderId} {x : Task}

theorem content_finish (content : u.loop.Content) (asked : u.loop.Asked) (t : TaskId) (b : Bool) :
    ((finish t (.ok b)).run u).2.loop.Content := content.finish asked t b

theorem content_follow (o : start.Promises last) (c : u.Coherent)
    (h : Dispatch.Concerns start u t d p) (stage : u.Stands d.key .entered)
    (content : u.loop.Content) (asked : u.loop.Asked) (g : Progress)
    (hp : ((follow d p t g).run u).2.history <+: last.history) :
    ((follow d p t g).run u).2.loop.Content := by
  cases g with
  | paused next => exact content.pause t next
  | awaiting r next => exact content.await t r next
  | answered r =>
    cases hc : ((u.loop.tasks[t]?).map Task.cancelling).getD false with
    | true =>
      obtain ⟨x, hx, _⟩ := h.runs
      have cancelling : u.loop.Cancelling := ⟨t, x, hx, by simpa [hx] using hc⟩
      exact .inl ((comes_follow c h.runs stage h.provider (.answered r)).path.cancelling cancelling)
    | false =>
      have content₁ := Dispatch.habit_conclude (R := KeepsContent) d p false r u content
      have asked₁ := Dispatch.habit_conclude (R := KeepsAsked) d p false r u asked
      have goes : (follow d p t (.answered r)).run u = (finish t
          (((Dispatch.conclude d p false r).exec u).1.map fun _ => true)).run
            ((Dispatch.conclude d p false r).exec u).2 := by
        show (finish t (((Dispatch.conclude d p (((u.loop.tasks[t]?).map Task.cancelling).getD false)
          r).exec u).1.map fun _ => true)).run ((Dispatch.conclude d p
            (((u.loop.tasks[t]?).map Task.cancelling).getD false) r).exec u).2 = _
        rw [hc]
      rw [goes] at hp ⊢
      obtain ⟨_, ok⟩ := Dispatch.fares_conclude o h stage (r := r) hp
      rw [ok]
      exact content_finish content₁ asked₁ t true

theorem content_advance (o : start.Promises last) (c : u.Coherent)
    (h : Dispatch.Concerns start u t d p) (stage : u.Stands d.key .entered)
    (content : u.loop.Content) (asked : u.loop.Asked) (reply : Reply)
    (hp : (do follow d p t (← Dispatch.advance p t reply) : StateM Session Unit).run u |>.2.history <+:
      last.history) :
    ((do follow d p t (← Dispatch.advance p t reply) : StateM Session Unit).run u).2.loop.Content := by
  have way := Dispatch.meanwhile_advance (p := p) reply h.runs stage
  have equips : u.Equips ((Dispatch.advance p t reply).run u).2 := Dispatch.habit_advance p t reply u
  exact content_follow o (c.path way.path) (h.next way.path way.loop equips) (way.stands stage nofun)
    (Dispatch.habit_advance (R := KeepsContent) p t reply u content)
    (Dispatch.habit_advance (R := KeepsAsked) p t reply u asked) _ hp

theorem content_resumeDispatch (o : start.Promises last) (c : u.Coherent)
    (h : Dispatch.Concerns start u t d p) (stage : u.Stands d.key .entered)
    (content : u.loop.Content) (asked : u.loop.Asked) (reply : Reply)
    (hp : ((resumeDispatch d t reply).run u).2.history <+: last.history) :
    ((resumeDispatch d t reply).run u).2.loop.Content := by
  rw [resumeDispatch, run_bind_exec, exec_provider h.provider] at hp ⊢
  exact content_advance o c h stage content asked reply hp

theorem content_startDispatch (o : start.Promises last) (c : u.Coherent)
    (h : Dispatch.Concerns start u t d p) (stage : u.Stands d.key .begun)
    (content : u.loop.Content) (asked : u.loop.Asked)
    (hp : ((startDispatch d t).run u).2.history <+: last.history) :
    ((startDispatch d t).run u).2.loop.Content := by
  obtain ⟨J, hJ⟩ := (comes_startDispatch c h.runs stage).path.history_prefix
  obtain ⟨_, name, _, _, hn, _⟩ := h.reads o (.trans ⟨J, hJ.symm⟩ hp)
  obtain ⟨u₁, ha, path, loop, entered⟩ := Dispatch.exec_announce_ok (p := p) h.runs stage hn
  have equips : u.Equips ((Dispatch.announce d p).exec u).2 := Dispatch.habit_announce d p u
  have content₁ : u.loop.Content → ((Dispatch.announce d p).exec u).2.loop.Content :=
    Dispatch.habit_announce (R := KeepsContent) d p u
  have asked₁ : u.loop.Asked → ((Dispatch.announce d p).exec u).2.loop.Asked :=
    Dispatch.habit_announce (R := KeepsAsked) d p u
  rw [run_startDispatch (exec_provider h.provider)] at hp ⊢
  rw [ha] at hp equips content₁ asked₁ ⊢
  have there := h.next path loop equips
  have way := Dispatch.meanwhile_start there.runs entered there.provider
  have equips' : u₁.Equips ((Dispatch.start d p t).run u₁).2 := Dispatch.habit_start d p t u₁
  exact content_follow o ((c.path path).path way.path) (there.next way.path way.loop equips')
    (way.stands entered nofun) (Dispatch.habit_start (R := KeepsContent) d p t u₁ (content₁ content))
    (Dispatch.habit_start (R := KeepsAsked) d p t u₁ (asked₁ asked)) _ hp

theorem content_startLint (o : start.Promises last) (c : u.Coherent) {context : EditContext}
    (runs : u.Runs t (.lint context)) (h : start.Underway u) (orderly : u.registry.Orderly)
    (configured : u.Configured context.filePath)
    (surface : ∀ q, ∃ v, start.answerOf context.surface q = .ok v) (content : u.loop.Content)
    (asked : u.loop.Asked) (hp : ((startLint context t).run u).2.history <+: last.history) :
    ((startLint context t).run u).2.loop.Content := by
  have fares := Round.fares_start o c runs h orderly configured surface
  have content₁ : ((Round.start t context).exec u).2.loop.Content :=
    Round.habit_start (R := KeepsContent) t context u content
  have asked₁ : ((Round.start t context).exec u).2.loop.Asked :=
    Round.habit_start (R := KeepsAsked) t context u asked
  rw [run_startLint] at hp ⊢
  generalize (Round.start t context).exec u = r at *
  obtain ⟨r, u₁⟩ := r
  cases r with
  | error f =>
    obtain ⟨_, ok⟩ := fares hp
    cases ok
  | ok round =>
    cases round with
    | none => exact content_finish content₁ asked₁ t false
    | some ds =>
      cases ds with
      | nil => exact content_finish content₁ asked₁ t true
      | cons d ds => exact content₁.gather asked₁ t (d :: ds)

/-- Between moves: nothing has gone wrong, and the surfaces of all lints answer. -/
structure InOrder (start s : Session) : Prop where
  idle : s.Idle
  underway : start.Underway s
  asked : s.loop.Asked
  content : s.loop.Content
  surfaces : ∀ {t : TaskId} {x : Task} {c : EditContext}, s.loop.tasks[t]? = some x →
    x.job = .lint c → ∀ q, ∃ v, start.answerOf c.surface q = .ok v

/-- The lint that has its first turn next, if there is one, can be decided about. -/
def StartsConfigured (s : Session) : Prop :=
  ∀ (t : TaskId) (rest : List Ready) (x : Task) (c : EditContext), s.loop.ready = .step t :: rest →
    s.loop.tasks[t]? = some x → x.job = .lint c → x.phase = .fresh → s.Configured c.filePath

theorem InOrder.content_turn (h : start.InOrder s) (o : start.Promises last)
    (configured : s.StartsConfigured) {rest : List Ready} (hr : s.loop.ready = .step t :: rest)
    (hx : s.loop.tasks[t]? = some x) (unasked : x.cancelPending = false)
    (hp : ((resume t x).run (s.woken t)).2.history <+: last.history) :
    ((resume t x).run (s.woken t)).2.loop.Content := by
  have c := start.coherent_opening.path h.underway.path
  have content : (s.woken t).loop.Content := Loop.Content.wake (h.content.of_tasks_eq rfl) t
  have asked : (s.woken t).loop.Asked := Loop.Asked.wake (h.asked.of_tasks_eq rfl) t
  have runs : (s.woken t).Runs t x.job := runs_wake hx
  have woken (before : ∀ e, x.phase ≠ .ended e) : s.Path (s.woken t) :=
    path_woken h.idle hr hx before
  have equips : s.Equips (s.woken t) := .of_loop s _
  have concerns {d : Dispatch} (hj : x.job = .dispatch d) (before : ∀ e, x.phase ≠ .ended e) :
      ∃ p, Dispatch.Concerns start (s.woken t) t d p := by
    obtain ⟨z, hz, hzj, _⟩ := h.underway.path.opener (c.tasked hx hj)
    obtain ⟨p, provider, _⟩ := (c.path (woken before)).exec_provider
      ((c.path (woken before)).dispatched_of_runs (hj ▸ runs))
    exact ⟨p, h.underway.next (woken before) equips, hj ▸ runs, provider, h.surfaces hz hzj⟩
  have turn := resumption (s.woken t) t x
  generalize ((resume t x).run (s.woken t)).2 = s' at turn hp
  cases turn with
  | cancelled _ pending =>
    rw [unasked] at pending
    cases pending
  | @lint context fresh job =>
    have path := woken (by simp [fresh])
    have can := configured t rest x context hr hx job fresh
    have orderly := h.underway.path.orderly (Registry.orderly_empty _)
    exact content_startLint o (c.path path) (job ▸ runs) (h.underway.next path equips)
      (path.orderly orderly) ⟨can.reads, can.glob, can.disabled, can.rule⟩ (h.surfaces hx job)
      content asked hp
  | dispatch fresh job =>
    have before : ∀ e, x.phase ≠ .ended e := by simp [fresh]
    obtain ⟨p, concerns⟩ := concerns job before
    exact content_startDispatch o (c.path (woken before)) concerns (c.begun_of_fresh hx job fresh)
      content asked hp
  | paused phase job =>
    have before : ∀ e, x.phase ≠ .ended e := by simp [phase]
    obtain ⟨p, concerns⟩ := concerns job before
    exact content_resumeDispatch o (c.path (woken before)) concerns
      (c.entered_of_paused hx job phase) content asked _ hp
  | settled phase job =>
    have before : ∀ e, x.phase ≠ .ended e := by simp [phase]
    obtain ⟨p, concerns⟩ := concerns job before
    exact content_resumeDispatch o (c.path (woken before)) concerns
      (c.entered_of_awaiting hx job phase) content asked _ hp
  | @decided g r phase heard =>
    rw [unasked]
    rcases id h.content with cancelling | fine
    · -- somebody has been asked to end, and stays so
      have woken : (s.woken t).loop.Cancelling :=
        (path_woken h.idle hr hx (by simp [phase])).cancelling cancelling
      exact .inl (woken.turned (Loop.keeps_finish _ t _))
    · have went : (Phase.gathering g).Fine := phase ▸ fine t x hx
      obtain rfl := went.2 r heard
      exact content_finish content asked t true
  | idle =>
    rw [putBack_woken hr hx]
    exact h.content.of_tasks_eq rfl

/-- A tick leaves everything in order. -/
theorem InOrder.content_tick (h : start.InOrder s) (o : start.Promises last)
    (configured : s.StartsConfigured) (hp : s.tick.history <+: last.history) :
    s.tick.loop.Content := by
  cases hr : s.loop.ready with
  | nil =>
    have same : s.tick = s := by simp only [tick, hr]
    rw [same]
    exact h.content
  | cons r rest =>
    have popped : (s.onLoop fun l => { l with ready := rest }).loop.Content :=
      h.content.of_tasks_eq rfl
    cases r with
    | memberEnded parent member =>
      have heard : s.tick = (s.onLoop fun l => { l with ready := rest }).onLoop fun l =>
          l.memberEnded parent member := by simp only [tick, hr]
      rw [heard]
      exact popped.memberEnded parent member
    | step t =>
      cases hx : s.loop.tasks[t]? with
      | none =>
        have same : s.tick = s.onLoop fun l => { l with ready := rest } := by
          simp only [tick, hr]
          exact congrArg Prod.snd (run_step_none (s := s.onLoop fun l => { l with ready := rest }) hx)
        rw [same]
        exact popped
      | some x =>
        cases asked : x.cancelPending with
        | true =>
          have c := start.coherent_opening.path h.underway.path
          exact .inl ((comes_tick c h.idle).path.cancelling ⟨t, x, hx, h.asked t x hx asked⟩)
        | false =>
          rw [tick_step hr hx] at hp ⊢
          exact h.content_turn o configured hr hx asked hp

/-- As long as a host keeps its promises, and lints that start can be decided about, nothing goes
wrong in a run. -/
theorem content_run {moves : List Move} (o : start.Promises (start.opening.run moves))
    (configured : ∀ before after, moves = before ++ .tick :: after →
      (start.opening.run before).StartsConfigured) (before after : List Move)
    (split : moves = before ++ after) : (start.opening.run before).loop.Content := by
  induction before using List.reverseRecOn generalizing after with
  | nil => exact .inr fun t x hx => by simp [run, opening] at hx
  | append_singleton before m ih =>
    have comes := start.comes_opening before
    have c := start.coherent_opening.path comes.path
    have next := comes_move c comes.idle m
    have whole : start.opening.run moves =
        ((start.opening.run before).move m).run after := by
      rw [split, run_append, run_append]
      rfl
    have rest := (comes_run (c.path next.path) next.idle after).path
    rw [← whole] at rest
    have inOrder : start.InOrder (start.opening.run before) := by
      refine ⟨comes.idle, ⟨comes.path, lasting_run _ _⟩, start.asked_run before,
        ih (m :: after) (by simp [split]), fun hx hj => ?_⟩
      obtain ⟨y, hy, same, _⟩ := Path.task (next.path.trans rest) hx
      exact o.surfaces _ _ _ hy (same.trans hj)
    obtain ⟨J, hJ⟩ := rest.history_prefix
    have last : start.opening.run (before ++ [m]) = (start.opening.run before).move m := by
      rw [run_append]
      rfl
    rw [last]
    cases m with
    | act a => exact habit_perform (R := KeepsContent) a _ inOrder.content
    | tick =>
      exact inOrder.content_tick o (configured before after (by simp [split])) ⟨J, hJ.symm⟩

theorem configured_after {σ : Schedule} (configured : ∀ n, σ n = .tick → (s.after σ n).StartsConfigured)
    (n : Nat) (before after : List Move) (split : (List.range n).map σ = before ++ .tick :: after) :
    (s.opening.run before).StartsConfigured := by
  obtain ⟨earlier, later, range, rfl, rest⟩ := List.map_eq_append_iff.mp split
  obtain ⟨k, further, rfl, tick, rfl⟩ := List.map_eq_cons_iff.mp rest
  rw [List.range_eq_range'] at range
  obtain ⟨k', _, rfl, beyond⟩ := List.range'_eq_append_iff.mp range
  obtain ⟨rfl, _⟩ := List.range'_eq_cons_iff.mp beyond.symm
  simpa [Session.after, List.range_eq_range'] using configured _ tick

/-- Once a provider has been added, and as long as its attributes stay as they were, whatever the
registry reads of it is there. As long as a host keeps its promises, and lints that start can be
decided about, a lint that has ended tells true or false; and if ticks keep coming and every request
is settled in the end, every lint ends so. -/
theorem added_serve_and_lints_complete :
    (∀ (s s' u : Session) (p : ProviderId) (legacy : Bool) (r : Result) (J : List Entry),
      s.perform (.add p legacy) = (.ok r, s') → s'.Path u → u.history = s'.history ++ J →
        (∀ a, .reshaped p a ∉ J) →
          ∃ a c runs, s.attributesOf p = .ok a ∧ Contract.of a legacy = .ok c ∧
            a.read c.trigger = .ok (.bool runs) ∧ u.Serves s.registry.records.size p c runs) ∧
    (∀ (s : Session) (moves : List Move), s.Promises (s.opening.run moves) →
      (∀ before after, moves = before ++ .tick :: after → (s.opening.run before).StartsConfigured) →
        ∀ (t : TaskId) (x : Task) (e : Ending), (s.opening.run moves).loop.tasks[t]? = some x →
          x.phase = .ended e → ∃ b, e = .value b) ∧
    ∀ (s : Session) (σ : Schedule), s.Fair σ → (∀ n, s.Promises (s.after σ n)) →
      (∀ n, σ n = .tick → (s.after σ n).StartsConfigured) →
        ∀ (n : Nat) (t : TaskId) (x : Task) (c : EditContext),
          (s.after σ n).loop.tasks[t]? = some x → x.job = .lint c →
            ∃ m y b, n ≤ m ∧ (s.after σ m).loop.tasks[t]? = some y ∧ y.phase = .ended (.value b) := by
  have ends (s : Session) (moves : List Move) (o : s.Promises (s.opening.run moves))
      (configured : ∀ before after, moves = before ++ .tick :: after →
        (s.opening.run before).StartsConfigured)
      (t : TaskId) (x : Task) (e : Ending) (hx : (s.opening.run moves).loop.tasks[t]? = some x)
      (he : x.phase = .ended e) : ∃ b, e = .value b := by
    rcases content_run o configured moves [] (List.append_nil _).symm with ⟨u, y, hy, hc⟩ | fine
    · simp [o.unasked u y hy] at hc
    · have well : (Phase.ended e).Fine := he ▸ fine t x hx
      exact well
  refine ⟨fun s s' u p legacy r J added path hJ kept => serves_of_added added path hJ kept, ends,
    fun s σ fair o configured n t x c hx hj => ?_⟩
  obtain ⟨m, hm, y, e, hy, he⟩ := fair.lint_ends hx hj
  obtain ⟨b, rfl⟩ := ends s _ (o m) (configured_after configured m) t y e hy he
  exact ⟨m, y, b, hm, hy, he⟩

theorem configured_of_off {path : Value}
    (off : ∀ item ∈ lintSettings, s.settingOf item = .ok (.bool false))
    (rule : s.host.ignoreRule = none) : s.Configured path where
  reads item hi := ⟨_, off item hi⟩
  glob v hv truthy := by
    obtain rfl := Except.ok.inj (hv.symm.trans (off _ (by simp [lintSettings])))
    cases truthy
  disabled v hv truthy := by
    obtain rfl := Except.ok.inj (hv.symm.trans (off _ (by simp [lintSettings])))
    cases truthy
  rule r hr := by
    rw [rule] at hr
    cases hr

/-- Whether every setting that lints read is off, and there is no rule for ignored paths. -/
def isOff (s : Session) : Bool :=
  s.host.ignoreRule.isNone && lintSettings.all fun item =>
    match s.settingOf item with
    | .ok (.bool false) => true
    | _ => false

theorem startsConfigured_of_isOff (h : s.isOff = true) : s.StartsConfigured := by
  obtain ⟨rule, off⟩ := Bool.and_eq_true_iff.mp h
  refine fun _ _ _ _ _ _ _ _ => configured_of_off (fun item hi => ?_)
    (Option.isNone_iff_eq_none.mp rule)
  have here := List.all_eq_true.mp off item hi
  split at here
  · assumption
  · cases here

/-- Whether no provider was changed in a history, and none failed. -/
def isTame (s : Session) : Bool :=
  s.history.all fun
    | .reshaped _ _ | .answered _ (.error _) => false
    | _ => true

theorem not_reshaped_of_isTame (tame : s.isTame = true) (a : Attributes) :
    .reshaped p a ∉ s.history := fun h => by
  cases List.all_eq_true.mp tame _ h

theorem exists_lint {t : TaskId} (h : (s.loop.tasks[t]?.bind Task.lint?).isSome = true) :
    ∃ x c, s.loop.tasks[t]? = some x ∧ x.job = .lint c := by
  obtain ⟨c, hc⟩ := Option.isSome_iff_exists.mp h
  obtain ⟨x, hx, hl⟩ := Option.bind_eq_some_iff.mp hc
  refine ⟨x, c, hx, ?_⟩
  unfold Task.lint? at hl
  split at hl
  · rename_i c' hj
    exact hj.trans (congrArg Job.lint (Option.some.inj hl))
  · cases hl

/-- Whether all lints are of the surface, and nobody has been asked to end. -/
def lintsOnly (s : Session) (id : SurfaceId) : Bool :=
  s.loop.tasks.all fun x => !x.cancelling && x.lint?.all (·.surface == id)

/-- A host without a matcher whose listeners do nothing keeps its promises in a run in which nothing
is changed and no provider fails. -/
theorem promises_of_tame {id : SurfaceId} (matcher : start.host.matcher = none)
    (listeners : ∀ l x, start.host.listeners.get? l = some x → ∀ count n, x.script count n = .done)
    (surface : ∀ q, ∃ v, start.answerOf id q = .ok v) (tame : last.isTame = true)
    (lints : last.lintsOnly id = true) : start.Promises last where
  kept hJ a ha := not_reshaped_of_isTame tame a
    (hJ ▸ List.mem_append_right _ (List.mem_cons_of_mem _ ha))
  matcher m hm := by simp [matcher] at hm
  listeners u moment handling d l n f hf := by
    rw [run_call, moment.listeners] at hf
    cases hl : start.host.listeners.get? l with
    | none => simp [hl] at hf
    | some x =>
      simp only [hl, listeners l x hl] at hf
      cases hf
  answers d r hr := by
    cases r with
    | ok v => exact Dispatch.contained_ok v
    | error f => cases List.all_eq_true.mp tame _ hr
  surfaces t x c hx hj q := by
    have here := Array.all_eq_true_iff_forall_mem.mp lints x (Array.mem_of_getElem? hx)
    obtain rfl : c.surface = id := by simpa [Task.lint?, hj] using (Bool.and_eq_true_iff.mp here).2
    exact surface q
  unasked t x hx := by
    have here := Array.all_eq_true_iff_forall_mem.mp lints x (Array.mem_of_getElem? hx)
    simpa using (Bool.and_eq_true_iff.mp here).1

def thenTicks (moves : List Move) : Schedule := fun n => moves[n]?.getD .tick

theorem thenTicks_of_le {moves : List Move} {n : Nat} (h : moves.length ≤ n) :
    thenTicks moves n = .tick := by
  rw [thenTicks, List.getElem?_eq_none h]
  rfl

theorem after_thenTicks {moves : List Move} {n : Nat}
    (still : (s.after (thenTicks moves) moves.length).loop.ready = []) (h : moves.length ≤ n) :
    s.after (thenTicks moves) n = s.after (thenTicks moves) moves.length := by
  induction n, h using Nat.le_induction with
  | base => rfl
  | succ n hn ih =>
    rw [after_succ, ih, thenTicks_of_le hn]
    simp only [move, tick, still]

/-- What is so at every move, and when nothing is ready any more, is always so. -/
theorem after_thenTicks_of_all (s : Session) (moves : List Move) (P : Session → Bool)
    (still : (s.after (thenTicks moves) moves.length).loop.ready = [])
    (all : (List.range (moves.length + 1)).all (fun n => P (s.after (thenTicks moves) n)) = true)
    (n : Nat) : P (s.after (thenTicks moves) n) = true := by
  rcases Nat.lt_or_ge n (moves.length + 1) with early | late
  · exact List.all_eq_true.mp all n (List.mem_range.mpr early)
  · rw [after_thenTicks still (Nat.le_of_succ_le late)]
    exact List.all_eq_true.mp all _ (List.mem_range.mpr (Nat.lt_succ_self _))

/-- Ticks keep coming; and if in the end there are as many requests as ever and all are settled, every
request is settled in the end. -/
theorem fair_thenTicks {moves : List Move} {size : Nat}
    (sizes : ∀ n, (s.after (thenTicks moves) n).loop.requests.size ≤ size)
    (settled : ∀ r < size, (s.after (thenTicks moves) moves.length).loop.IsSettled r) :
    s.Fair (thenTicks moves) where
  turns n := ⟨max n moves.length, le_max_left _ _, thenTicks_of_le (le_max_right _ _)⟩
  settles n r hr := ⟨max n moves.length, le_max_left _ _,
    settled_after (le_max_right _ _) (settled r (hr.trans_le (sizes n)))⟩

/-- A provider is added and a lint is made, and the one request of it is settled. -/
def sampleAnswered : List Move :=
  .act (.add "p" false) :: (sampleLint ++
    .act (.resolve "p" 0 (.list [.int 1])) :: List.replicate 4 .tick)

theorem promises_sample (host : start.host = (sample []).host) (tame : last.isTame = true)
    (lints : last.lintsOnly "s" = true) : start.Promises last := by
  refine promises_of_tame (by rw [host]; rfl) (fun l x hx count n => ?_) (fun q => ?_) tame lints
  · rw [host] at hx
    obtain ⟨row, hrow, rfl⟩ := Option.map_eq_some_iff.mp hx
    have only := List.mem_of_find?_eq_some hrow
    have rows : (sample []).host.listeners.rows = [("c", { script := fun _ _ => .done })] := rfl
    rw [rows, List.mem_singleton] at only
    rw [only]
  · have same : start.answerOf "s" q = (sample []).answerOf "s" q := by rw [answerOf, answerOf, host]
    rw [same]
    cases q <;> exact ⟨_, rfl⟩

theorem sampleAnswered_inOrder (n : Nat) :
    let u := (sample []).after (thenTicks sampleAnswered) n
    u.isTame = true ∧ u.lintsOnly "s" = true ∧ u.isOff = true ∧ u.loop.requests.size ≤ 1 := by
  have all := after_thenTicks_of_all (sample []) sampleAnswered
    (fun u => u.isTame && u.lintsOnly "s" && u.isOff && decide (u.loop.requests.size ≤ 1))
    (by decide +kernel) (by decide +kernel) n
  simpa [and_assoc] using all

/-- A provider that is added first can be read when a lint is over for which it was asked, and that
lint ends. -/
theorem sample_lint_completes :
    let s := sample []
    let σ := thenTicks sampleAnswered
    s.Fair σ ∧ (∀ n, s.Promises (s.after σ n)) ∧
      (∀ n, σ n = .tick → (s.after σ n).StartsConfigured) ∧
      (∃ r, s.opening.perform (.add "p" false) = (.ok r, s.after σ 1)) ∧
      (∃ a c runs, s.opening.attributesOf "p" = .ok a ∧ Contract.of a false = .ok c ∧
        a.read c.trigger = .ok (.bool runs) ∧
          (s.after σ 15).Serves s.opening.registry.records.size "p" c runs) ∧
      (∀ (n : Nat) (t : TaskId) (x : Task) (e : Ending), (s.after σ n).loop.tasks[t]? = some x →
        x.phase = .ended e → ∃ b, e = .value b) ∧
      ∃ x c, (s.after σ 2).loop.tasks[0]? = some x ∧ x.job = .lint c ∧
        ∃ m y b, 2 ≤ m ∧ (s.after σ m).loop.tasks[0]? = some y ∧ y.phase = .ended (.value b) := by
  intro s σ
  have promises (n : Nat) : s.Promises (s.after σ n) := by
    obtain ⟨tame, lints, _⟩ := sampleAnswered_inOrder n
    exact promises_sample rfl tame lints
  have configured (n : Nat) (_ : σ n = .tick) : (s.after σ n).StartsConfigured :=
    startsConfigured_of_isOff (sampleAnswered_inOrder n).2.2.1
  have fair : s.Fair σ := by
    refine fair_thenTicks (fun n => (sampleAnswered_inOrder n).2.2.2) fun r hr => ?_
    obtain rfl : r = 0 := by omega
    exact Option.isSome_iff_ne_none.mp (by decide +kernel)
  have accepted : (s.opening.perform (.add "p" false)).1.toBool = true := by decide +kernel
  obtain ⟨r, hr⟩ : ∃ r, (s.opening.perform (.add "p" false)).1 = .ok r := by
    generalize (s.opening.perform (.add "p" false)).1 = e at accepted
    cases e with
    | ok r => exact ⟨r, rfl⟩
    | error f => cases accepted
  have added : s.opening.perform (.add "p" false) = (.ok r, s.after σ 1) := Prod.ext hr rfl
  have path : (s.after σ 1).Path (s.after σ 15) := path_after s σ (by decide)
  obtain ⟨J, hJ⟩ := path.history_prefix
  have kept (a : Attributes) : .reshaped "p" a ∉ J := fun ha =>
    not_reshaped_of_isTame (sampleAnswered_inOrder 15).1 a (hJ ▸ List.mem_append_right _ ha)
  have lint : ((s.after σ 2).loop.tasks[0]?.bind Task.lint?).isSome = true := by decide +kernel
  obtain ⟨x, c, hx, job⟩ := exists_lint lint
  obtain ⟨serves, ended, ends⟩ := added_serve_and_lints_complete
  exact ⟨fair, promises, configured, ⟨r, added⟩, serves s.opening _ _ "p" false r J added path hJ kept,
    fun n => ended s _ (promises n) (configured_after configured n),
    x, c, hx, job, ends s σ fair promises configured 2 0 x c hx job⟩

/-- The sample, with a store that holds a number where the names of disabled providers are sought. -/
def sampleMisconfigured : Session :=
  { sample [] with
    source := .given fun item => .ok (if item = "disabled_providers" then .int 5 else .bool false) }

def hasFailed (s : Session) (t : TaskId) : Bool :=
  match s.resultOf t with
  | some (.failed _) => true
  | _ => false

theorem exists_failed (h : s.hasFailed t = true) : ∃ f, s.resultOf t = some (.failed f) := by
  unfold hasFailed at h
  split at h
  · exact ⟨_, ‹_›⟩
  · cases h

/-- A provider is added and a lint is made. -/
def sampleAsked : List Move := .act (.add "p" false) :: sampleLint

theorem sampleMisconfigured_inOrder (n : Nat) :
    let u := sampleMisconfigured.after (thenTicks sampleAsked) n
    u.isTame = true ∧ u.lintsOnly "s" = true ∧ u.loop.requests.size ≤ 0 := by
  have all := after_thenTicks_of_all sampleMisconfigured sampleAsked
    (fun u => u.isTame && u.lintsOnly "s" && decide (u.loop.requests.size ≤ 0))
    (by decide +kernel) (by decide +kernel) n
  simpa [and_assoc] using all

/-- The lint of the sample does not end as long as its provider does not answer. -/
theorem sampleAsked_unended (n : Nat) :
    let u := (sample []).after (thenTicks sampleAsked) n
    u.isTame = true ∧ u.lintsOnly "s" = true ∧ u.isOff = true ∧ u.resultOf 0 = none := by
  have all := after_thenTicks_of_all (sample []) sampleAsked
    (fun u => u.isTame && u.lintsOnly "s" && u.isOff && (u.resultOf 0).isNone)
    (by decide +kernel) (by decide +kernel) n
  simpa [and_assoc] using all

/-- Two ways in which a lint does not come to true or false: no setting fails to be read, but one
cannot be used, and the lint fails; and a provider never answers, and the lint never ends. -/
theorem sample_lints_incomplete :
    (let s := sampleMisconfigured
      let σ := thenTicks sampleAsked
      s.Fair σ ∧ (∀ n, s.Promises (s.after σ n)) ∧ (∀ item, ∃ v, s.settingOf item = .ok v) ∧
        (∃ x c, (s.after σ 2).loop.tasks[0]? = some x ∧ x.job = .lint c) ∧
          ∃ f, (s.after σ sampleAsked.length).resultOf 0 = some (.failed f)) ∧
    let s := sample []
    let σ := thenTicks sampleAsked
    (∀ n, ∃ m, n ≤ m ∧ σ m = .tick) ∧ (∀ n, s.Promises (s.after σ n)) ∧
      (∀ n, σ n = .tick → (s.after σ n).StartsConfigured) ∧
      (∃ x c, (s.after σ 2).loop.tasks[0]? = some x ∧ x.job = .lint c) ∧
        ∀ n, (s.after σ n).resultOf 0 = none := by
  have ticks (n : Nat) : ∃ m, n ≤ m ∧ thenTicks sampleAsked m = .tick :=
    ⟨max n sampleAsked.length, le_max_left _ _, thenTicks_of_le (le_max_right _ _)⟩
  refine ⟨⟨?_, fun n => ?_, fun item => ⟨_, rfl⟩,
    exists_lint (by decide +kernel), ?_⟩, ticks, fun n => ?_, fun n _ => ?_,
    exists_lint (by decide +kernel), fun n => (sampleAsked_unended n).2.2.2⟩
  · exact fair_thenTicks (fun n => (sampleMisconfigured_inOrder n).2.2) fun r hr => by omega
  · obtain ⟨tame, lints, _⟩ := sampleMisconfigured_inOrder n
    exact promises_sample rfl tame lints
  · exact exists_failed (by decide +kernel)
  · obtain ⟨tame, lints, _⟩ := sampleAsked_unended n
    exact promises_sample rfl tame lints
  · exact startsConfigured_of_isOff (sampleAsked_unended n).2.2.1

end Session
end LintBroker

import LintBroker.Proofs.Reordering

/-!
# Settlements of different providers commute

Two runs go on from the same session, and nothing happens in either but that dispatches in flight are
settled, in any order that is the same for each provider. Then all registrations are the same in the
end, every provider has updated and finished in the same order and with the same messages, and every
lint that nothing stands in the way of tells of success in both.
-/
namespace LintBroker
open Session

/-! ### What others leave alone -/

namespace Loop
variable {l l' l'' : Loop} {t u : TaskId}

/-- The task stays as it is, or it has been asked to end. -/
def Spares (t : TaskId) (l l' : Loop) : Prop := ∀ x, l.tasks[t]? = some x →
  ∃ y, l'.tasks[t]? = some y ∧ (y = x ∨ y.cancelling = true)

namespace Spares

theorem of_tasks_eq (same : l'.tasks = l.tasks) : l.Spares t l' := fun x hx => ⟨x, same ▸ hx, .inl rfl⟩

theorem trans (h : l.Spares t l') (h' : l'.Spares t l'') : l.Spares t l'' := by
  intro x hx
  obtain ⟨y, hy, same⟩ := h x hx
  obtain ⟨z, hz, same'⟩ := h' y hy
  rcases same' with rfl | asked
  · exact ⟨z, hz, same⟩
  · exact ⟨z, hz, .inr asked⟩

theorem changeTask_of_ne (l : Loop) (other : u ≠ t) (f : Task → Task) : l.Spares t (l.changeTask u f) :=
  fun x hx => ⟨x, by rw [getElem?_changeTask, if_neg other, hx], .inl rfl⟩

theorem changeTask_of_asks (l : Loop) (u : TaskId) {f : Task → Task}
    (asks : ∀ x, (f x).cancelling = true) : l.Spares t (l.changeTask u f) := by
  intro x hx
  by_cases own : u = t
  · exact ⟨f x, by rw [getElem?_changeTask, if_pos own, hx, Option.map_some], .inr (asks x)⟩
  · exact changeTask_of_ne l own f x hx

theorem enqueue (l : Loop) (r : Ready) : l.Spares t (l.enqueue r) := .of_tasks_eq rfl

theorem settle (l : Loop) (r : RequestId) (e : Settlement) : l.Spares t (l.settle r e) :=
  .of_tasks_eq (l.tasks_settle r e)

theorem cancelMember (l : Loop) (u : TaskId) : l.Spares t (l.cancelMember u) := by
  unfold Loop.cancelMember
  split
  · exact .of_tasks_eq rfl
  · split
    · split
      · exact (changeTask_of_asks l u fun _ => rfl).trans (.settle _ _ _)
      · exact changeTask_of_asks l u fun _ => rfl
    · exact changeTask_of_asks l u fun _ => rfl

theorem cancelMembers (l : Loop) (members : List TaskId) : l.Spares t (l.cancelMembers members) := by
  unfold Loop.cancelMembers
  induction members generalizing l with
  | nil => exact .of_tasks_eq rfl
  | cons u members ih => exact (cancelMember l u).trans (ih _)

theorem cancel (l : Loop) (u : TaskId) : l.Spares t (l.cancel u) := by
  unfold Loop.cancel
  split
  · rename_i g _
    split
    · refine (cancelMembers l g.members).trans ?_
      by_cases own : u = t
      · -- what the round is to know of it is written down together with the asking
        intro x hx
        refine ⟨{ x with phase := .gathering { g with cancelRequested := true }, cancelling := true },
          ?_, .inr rfl⟩
        simp [markCancelling, setPhase, getElem?_changeTask, own, hx]
      · exact (changeTask_of_ne _ own _).trans (changeTask_of_ne _ own _)
    · exact changeTask_of_asks l u fun _ => rfl
  · exact cancelMember l u

theorem spawn (l : Loop) (name : Option String) (job : Job) : l.Spares t (l.spawn name job) := by
  intro x hx
  have ht := (Array.getElem?_eq_some_iff.mp hx).1
  exact ⟨x, by simp [Loop.spawn, Array.getElem?_push, Nat.ne_of_lt ht, hx], .inl rfl⟩

theorem memberEnded_of_ne (l : Loop) (other : u ≠ t) (member : TaskId) :
    l.Spares t (l.memberEnded u member) := by
  unfold Loop.memberEnded
  split
  · dsimp only
    split
    · exact (changeTask_of_ne l other _).trans (.enqueue _ _)
    · exact changeTask_of_ne l other _
  · exact .of_tasks_eq rfl

/-- What a task asks of the loop leaves other tasks alone. -/
theorem work (other : u ≠ t) (w : l.Work u l') : l.Spares t l' := by
  cases w with
  | wake => exact changeTask_of_ne l other _
  | openRequest p => exact .of_tasks_eq rfl
  | pause next => exact (changeTask_of_ne l other _).trans (.enqueue _ _)
  | @await r p own next =>
    unfold Loop.await
    dsimp only
    split
    · exact (changeTask_of_ne l other _).trans ((changeTask_of_ne _ other _).trans (.settle _ _ _))
    · exact changeTask_of_ne l other _
  | @gather ds some =>
    have spawned : l.Spares t (l.spawnAll ds) := fun x hx => ⟨x, l.forth_spawnAll ds hx, .inl rfl⟩
    unfold Loop.gather
    dsimp only
    split
    · exact spawned.trans ((changeTask_of_ne _ other _).trans
        ((changeTask_of_ne _ other _).trans (cancelMembers _ _)))
    · exact spawned.trans (changeTask_of_ne _ other _)
  | finish e =>
    unfold Loop.finish
    dsimp only
    split
    · exact (changeTask_of_ne l other _).trans (.enqueue _ _)
    · exact changeTask_of_ne l other _

end Spares
end Loop

namespace Session
variable {s last u v : Session} {t m : TaskId} {d : Dispatch} {x : Task}

/-- The task stays as it is, or it has been asked to end. -/
def Spares (t : TaskId) (s s' : Session) : Prop := s.loop.Spares t s'.loop

theorem Spares.of_eq (h : u.loop = s.loop) : s.Spares t u := .of_tasks_eq (congrArg Loop.tasks h)

theorem Stroke.spares (h : Stroke s u) : s.Spares t u := by
  cases h with
  | quiet h => exact .of_eq h.loop
  | spawn name c => exact .spawn s.loop name _
  | settle r e => exact .settle s.loop r e
  | cancel t => exact .cancel s.loop t
  | _ => exact .of_eq rfl

instance (t : TaskId) : IsPreorder Session (Spares t) where
  refl _ := .of_eq rfl
  trans _ _ _ := Loop.Spares.trans

instance (t : TaskId) : Calling (Spares t) where
  stroke h := h.spares
  own _ _ := .of_eq rfl
  answered _ _ _ := .of_eq rfl
  counts _ _ _ := .of_eq rfl
  calls _ _ := .of_eq rfl
  invoked _ _ _ := .of_eq rfl
  emit := Act.keepsTo_emit (fun _ _ => Stroke.spares) (fun _ _ => .of_eq rfl) fun _ _ => .of_eq rfl

theorem custom_spares (other : m ≠ t) : Custom m (Spares t) where
  work w := .work other w

/-! ### Lints that nothing stands in the way of -/

/-- The task waits for its round, of which nothing has gone wrong, or it has told of success. -/
def OnCourse (s : Session) (t : TaskId) : Prop := ∃ x, s.loop.tasks[t]? = some x ∧
  ((∃ g, x.phase = .gathering g ∧ (Phase.gathering g).Fine) ∨ x.phase = .ended (.value true))

def AllValues (s : Session) (t : TaskId) : Prop :=
  ∀ m e, s.loop.IsMember t m → s.loop.EndedWith m e → ∃ b, e = .value b

namespace OnCourse
variable (h : u.OnCourse t)
include h

theorem spared (spares : u.Spares t v) (unasked : ¬ v.IsCancelling t) : v.OnCourse t := by
  obtain ⟨x, hx, course⟩ := h
  obtain ⟨y, hy, rfl | asked⟩ := spares x hx
  · exact ⟨y, hy, course⟩
  · exact absurd ⟨y, hy, asked⟩ unasked

/-- A lint that hears of a value stays on its course. -/
theorem hear (tallied : u.loop.Tallied) (values : u.AllValues t) {rest : List Ready}
    (hr : u.loop.ready = .memberEnded t m :: rest) : u.tick.OnCourse t := by
  obtain ⟨member, e, y, hy, he⟩ := tallied.news t m (hr ▸ List.mem_cons_self)
  obtain ⟨b, rfl⟩ := values m e member ⟨y, hy, he⟩
  obtain ⟨x, hx, course⟩ := h
  have hears : u.tick = (u.onLoop fun l => { l with ready := rest }).onLoop fun l =>
      l.memberEnded t m := by simp only [tick, hr]
  rw [hears]
  rcases course with ⟨g, hg, fine⟩ | done
  · refine ⟨{ x with phase := .gathering (g.afterMember (.value b)) }, ?_,
      .inl ⟨_, rfl, fine.afterMember b⟩⟩
    simp only [loop_onLoop, Loop.memberEnded, hx, hy, hg, he, Option.map_some]
    split <;> simp [Loop.setPhase, Loop.getElem?_changeTask, hx]
  · refine ⟨x, ?_, .inr done⟩
    simp [Loop.memberEnded, hx, done]

/-- In its own turn a lint that is on its course tells of success, if its round has been decided. -/
theorem turn (asked : u.loop.Asked) (unasked : ¬ u.IsCancelling t) {rest : List Ready}
    (hr : u.loop.ready = .step t :: rest) : u.tick.OnCourse t := by
  obtain ⟨x, hx, course⟩ := h
  have going : x.cancelPending = false := by
    rw [Bool.eq_false_iff]
    exact fun pending => unasked ⟨x, hx, asked t x hx pending⟩
  have back := putBack_woken hr hx
  rw [tick_step hr hx]
  rcases course with ⟨g, hg, fine⟩ | done
  · cases outcome : g.outcome with
    | none =>
      have idles : x.Idles (u.woken t).loop := by simpa only [Task.Idles, hg] using outcome
      rw [run_resume_idle idles, back]
      exact ⟨x, hx, .inl ⟨g, hg, fine⟩⟩
    | some r =>
      obtain rfl := fine.2 r outcome
      have ends : resume t x = finish t (.ok true) := by
        rw [resume_decided hg outcome, going]
        rfl
      have runs : (u.woken t).Runs t x.job := runs_wake hx
      have reached : (u.woken t).loop.isCancelPending t = false := by
        simp [woken, Loop.isCancelPending, Loop.wake, Loop.getElem?_changeTask, hx]
      obtain ⟨y, hy, _, phase⟩ :=
        runs.turned ((u.woken t).loop.keeps_finish t (.value true)) (by simp)
      rw [ends]
      refine ⟨y, ?_, .inr phase⟩
      show ((u.woken t).loop.finish t (endingOf ((u.woken t).loop.isCancelPending t) _)).tasks[t]? = _
      rw [reached]
      exact hy
  · have idles : x.Idles (u.woken t).loop := by simp only [Task.Idles, done]
    rw [run_resume_idle idles, back]
    exact ⟨x, hx, .inr done⟩

/-- A move leaves a lint on its course, as long as it is not asked to end and only values are heard
of. -/
theorem move (rounds : u.Rounds) (asked : u.loop.Asked) (values : u.AllValues t) (step : Move)
    (before : ¬ u.IsCancelling t) (after : ¬ (u.move step).IsCancelling t) :
    (u.move step).OnCourse t := by
  cases step with
  | act a => exact h.spared (habit_perform (R := Spares t) a u) after
  | tick =>
    change ¬ u.tick.IsCancelling t at after
    show u.tick.OnCourse t
    cases hr : u.loop.ready with
    | nil =>
      have same : u.tick = u := by simp only [tick, hr]
      rw [same]
      exact h
    | cons first rest =>
      let popped := u.onLoop fun l => { l with ready := rest }
      have pops : u.Spares t popped := .of_tasks_eq rfl
      cases first with
      | memberEnded parent m =>
        have hears : u.tick = popped.onLoop fun l => l.memberEnded parent m := by
          simp only [tick, hr]
          rfl
        by_cases own : parent = t
        · subst own
          exact h.hear rounds.tallied values hr
        · rw [hears] at after ⊢
          exact h.spared (pops.trans (.memberEnded_of_ne popped.loop own m)) after
      | step w =>
        by_cases own : w = t
        · subst own
          exact h.turn asked before hr
        · have := custom_spares own
          have turns : u.tick = ((step w).run popped).2 := by
            simp only [tick, hr]
            rfl
          rw [turns] at after ⊢
          exact h.spared (pops.trans (habit_step (R := Spares t) w popped)) after

end OnCourse

theorem IsCancelling.path (h : u.IsCancelling t) (path : u.Path v) : v.IsCancelling t := by
  obtain ⟨x, hx, asked⟩ := h
  obtain ⟨y, hy, _, keeps⟩ := path.task hx
  exact ⟨y, hy, keeps asked⟩

theorem AllValues.before (h : v.AllValues t) (path : u.Path v) : u.AllValues t := by
  rintro m e ⟨x, d, hx, hd, hr⟩ ⟨x', hx', he⟩
  obtain rfl := Option.some.inj (hx.symm.trans hx')
  obtain ⟨y, hy, hj, hye⟩ := path.ended hx he
  exact h m e ⟨y, d, hy, hj.trans hd, hr⟩ ⟨y, hy, hye⟩

/-- A lint stays on its course through a run, as long as it is not asked to end and only values are
heard of. -/
theorem onCourse_run {s₀ : Session} {before : List Move} (moves : List Move)
    (h : (s₀.opening.run before).OnCourse t)
    (unasked : ¬ ((s₀.opening.run before).run moves).IsCancelling t)
    (values : ((s₀.opening.run before).run moves).AllValues t) :
    ((s₀.opening.run before).run moves).OnCourse t := by
  induction moves generalizing before with
  | nil => exact h
  | cons m moves ih =>
    let u := s₀.opening.run before
    have next : u.move m = s₀.opening.run (before ++ [m]) := by
      rw [run_append]
      rfl
    have comes := comes_move (s₀.coherent_run before) (s₀.comes_opening before).idle m
    have rest : (u.move m).Path (u.run (m :: moves)) :=
      (comes_run ((s₀.coherent_run before).path comes.path) comes.idle moves).path
    have moved : (u.move m).OnCourse t := h.move (rounds_run s₀ before) (s₀.asked_run before)
      (values.before (comes.path.trans rest)) m
      (fun asked => unasked (asked.path (comes.path.trans rest)))
      fun asked => unasked (asked.path rest)
    have goes : u.run (m :: moves) = (s₀.opening.run (before ++ [m])).run moves := by
      rw [← next]
      rfl
    rw [next] at moved
    change ¬ (u.run (m :: moves)).IsCancelling t at unasked
    change (u.run (m :: moves)).AllValues t at values
    show (u.run (m :: moves)).OnCourse t
    rw [goes] at unasked values ⊢
    exact ih moved unasked values

/-- When nothing stands in the queue any more, a lint that is on its course has told of success, if
all tasks of its round have ended. -/
theorem OnCourse.drained {s₀ : Session} {moves : List Move} (h : (s₀.opening.run moves).OnCourse t)
    (drained : (s₀.opening.run moves).loop.ready = [])
    (ended : ∀ m, (s₀.opening.run moves).loop.IsMember t m → (s₀.opening.run moves).HasEnded m) :
    (s₀.opening.run moves).resultOf t = some (.value true) := by
  obtain ⟨x, hx, ⟨g, hg, _⟩ | done⟩ := h
  · have due : (s₀.opening.run moves).loop.Due t x.phase := remembers_run s₀ moves t x hx
    have decided : g.outcome ≠ none :=
      decided_of_heard hx hg fun m own => ⟨ended m own, by rw [drained]; exact List.not_mem_nil⟩
    rw [hg] at due
    have queued := due.1 (Option.isSome_iff_ne_none.mpr decided)
    rw [drained] at queued
    cases queued
  · rw [resultOf, hx, Option.bind_some, done]
    rfl

/-! ### Orders of answers -/

/-- A lint waits for its round, it has not been asked to end, and nothing has gone wrong so far. -/
structure Hopeful (s : Session) (t : TaskId) : Prop where
  waits : ∃ x g, s.loop.tasks[t]? = some x ∧ x.phase = .gathering g ∧ (Phase.gathering g).Fine
  unasked : ¬ s.IsCancelling t
  values : s.AllValues t

/-- All dispatches of the round that are still in flight at the one moment have been answered by the
other, and these answers are honoured. -/
def AllHonoured (s last : Session) (t : TaskId) : Prop :=
  ∀ (m : TaskId) (x : Task) (d : Dispatch), s.loop.tasks[m]? = some x → x.job = .dispatch d →
    d.round = t → (∀ e, x.phase ≠ .ended e) →
      ∃ r, .answered d r ∈ last.since s ∧ s.Honoured d r

/-- Two stretches of a session differ in nothing that matters but in the order of answers, which is
the same for each provider. Listeners only observe. -/
structure OnlyOrderDiffers (s last last' : Session) : Prop where
  observed : s.Observed
  steady : s.Steady last ∧ s.Steady last'
  answers : ∀ p, s.answersOf p (answersIn (last.since s)) = s.answersOf p (answersIn (last'.since s))

/-- What two stretches have in common that differ in the order of answers alone: all registrations
are the same, every provider has begun, updated and finished in the same order and with the same
messages, and every lint that was hopeful has told of success in both, once nothing stands in the
queue any more, if all its dispatches in flight were answered and these answers are honoured. -/
structure Concurs (s last last' : Session) : Prop where
  records : last.registry.records = last'.registry.records
  notices : ∀ p, last.noticesFor p = last'.noticesFor p
  lints : ∀ t, s.Hopeful t → s.AllHonoured last t →
    (last.loop.ready = [] → last.resultOf t = some (.value true)) ∧
      (last'.loop.ready = [] → last'.resultOf t = some (.value true))

theorem noticesFor_eq (s : Session) (p : ProviderId) :
    s.noticesFor p = noticesAbout p (emittedIn s.history) := by
  rw [noticesFor, noticesAbout, emittedIn, List.filter_filterMap]
  refine List.filterMap_congr fun e _ => ?_
  cases e with
  | emitted d n =>
    by_cases own : n.provider = p <;> simp [Entry.emitted?, Option.filter, own]
  | _ => rfl

theorem history_since (path : s.Path last) : last.history = s.history ++ last.since s := by
  obtain ⟨K, hK⟩ := path.history_prefix
  rw [since, hK, List.drop_left]

section run
variable {s₀ : Session} {before moves : List Move}

/-- What comes of a steady stretch is what was to come of its answers. -/
theorem dealt_run (observed : (s₀.opening.run before).Observed)
    (steady : (s₀.opening.run before).Steady ((s₀.opening.run before).run moves)) :
    let s := s₀.opening.run before
    let last := s.run moves
    s.dealAll s.registry.records (answersIn (last.since s)) =
        (last.registry.records, emittedIn (last.since s)) ∧
      ∀ d r, .answered d r ∈ last.since s → s.Honoured d r → last.EndedWell d := by
  intro s last
  have c : s.Coherent := s₀.coherent_run before
  have idle : s.Idle := (s₀.comes_opening before).idle
  have amid : Amid s last s :=
    ⟨c, .refl, (comes_run c idle moves).path, Equips.of_loop s s.loop, s₀.asked_run before⟩
  obtain ⟨path, K, hK, dealt, well⟩ := follows_run steady observed amid idle moves rfl
  obtain rfl : last.since s = K := by rw [since, hK, List.drop_left]
  exact ⟨dealt, fun d r hr => well d r (mem_answersIn_iff.mpr hr)⟩

/-- A lint that was hopeful tells of success in a steady stretch. -/
theorem Hopeful.succeeds (h : (s₀.opening.run before).Hopeful t)
    (observed : (s₀.opening.run before).Observed)
    (steady : (s₀.opening.run before).Steady ((s₀.opening.run before).run moves))
    (answered : (s₀.opening.run before).AllHonoured ((s₀.opening.run before).run moves) t)
    (drained : ((s₀.opening.run before).run moves).loop.ready = []) :
    ((s₀.opening.run before).run moves).resultOf t = some (.value true) := by
  let s := s₀.opening.run before
  let last := s.run moves
  have c : s.Coherent := s₀.coherent_run before
  have path : s.Path last := (comes_run c (s₀.comes_opening before).idle moves).path
  have c' : last.Coherent := c.path path
  obtain ⟨_, well⟩ := dealt_run observed steady
  obtain ⟨⟨x, g, hx, hg, fine⟩, unasked, values⟩ := h
  have tally := (rounds_run s₀ before).tallied.tally t x g hx hg
  have due : s.loop.Due t x.phase := remembers_run s₀ before t x hx
  rw [hg] at due
  obtain ⟨m₀, hm₀⟩ := List.exists_mem_of_ne_nil _ due.2.2
  have one : s.loop.IsMember t m₀ := (tally.mem_iff m₀).mp hm₀
  -- every task of the round ends with a value, before the stretch or in it
  have all (m : TaskId) (own : last.loop.IsMember t m) : ∃ b, last.loop.EndedWith m (.value b) := by
    obtain ⟨y, d, hy, hd, hr⟩ := path.members_back one own
    obtain ⟨z, hz, hj, _⟩ := path.task hy
    by_cases done : ∃ e, y.phase = .ended e
    · obtain ⟨e, he⟩ := done
      obtain ⟨b, rfl⟩ := values m e ⟨y, d, hy, hd, hr⟩ ⟨y, hy, he⟩
      obtain ⟨w, hw, _, hwe⟩ := path.ended hy he
      exact ⟨b, w, hw, hwe⟩
    · obtain ⟨r, said, honoured⟩ := answered m y d hy hd hr fun e he => done ⟨e, he⟩
      obtain ⟨m', w, hw, hwd, hwe⟩ := well d r said honoured
      obtain rfl := c'.single hw hz hwd (hj.trans hd) rfl
      exact ⟨true, w, hw, hwe⟩
  have onCourse : last.OnCourse t := by
    refine onCourse_run moves ⟨x, hx, .inl ⟨g, hg, fine⟩⟩ (fun asked => ?_) ?_
    · exact unasked (steady.unasked t asked)
    · rintro m e own ⟨y, hy, he⟩
      obtain ⟨b, z, hz, hze⟩ := all m own
      obtain rfl := Option.some.inj (hy.symm.trans hz)
      exact ⟨b, Phase.ended.inj (he.symm.trans hze)⟩
  have goes : last = s₀.opening.run (before ++ moves) := (run_append _ _ _).symm
  change last.resultOf t = _
  change last.loop.ready = [] at drained
  rw [goes] at onCourse drained ⊢
  refine onCourse.drained drained fun m own => ?_
  rw [← goes] at own ⊢
  obtain ⟨b, y, hy, he⟩ := all m own
  exact ⟨y, _, hy, he⟩

end run

/-- Settlements of different providers commute. -/
theorem settlements_commute {s₀ : Session} {before moves moves' : List Move}
    (differ : OnlyOrderDiffers (s₀.opening.run before) ((s₀.opening.run before).run moves)
      ((s₀.opening.run before).run moves')) :
    Concurs (s₀.opening.run before) ((s₀.opening.run before).run moves)
      ((s₀.opening.run before).run moves') := by
  let s := s₀.opening.run before
  obtain ⟨observed, ⟨steady, steady'⟩, same⟩ := differ
  have path (moves : List Move) : s.Path (s.run moves) :=
    (comes_run (s₀.coherent_run before) (s₀.comes_opening before).idle moves).path
  obtain ⟨dealt, -⟩ := dealt_run observed steady
  obtain ⟨dealt', -⟩ := dealt_run observed steady'
  obtain ⟨records, notices⟩ := dealAll_comm same
  rw [dealt, dealt'] at records notices
  refine ⟨records, fun p => ?_, fun t hopeful answered =>
    ⟨hopeful.succeeds observed steady answered, hopeful.succeeds observed steady' ?_⟩⟩
  · rw [noticesFor_eq, noticesFor_eq, history_since (path moves), history_since (path moves'),
      emittedIn_append, emittedIn_append]
    simp only [noticesAbout, List.filter_append] at notices ⊢
    exact congrArg _ (notices p)
  · -- an honoured answer is of a provider, and so it has been given in the other stretch too
    intro m x d hx hd hr going
    obtain ⟨r, said, honoured⟩ := answered m x d hx hd hr going
    obtain ⟨p, known, _⟩ := honoured.legible
    have own : (d, r) ∈ s.answersOf p (answersIn ((s.run moves).since s)) :=
      List.mem_filter.mpr ⟨mem_answersIn_iff.mpr said, decide_eq_true known⟩
    rw [same p] at own
    exact ⟨r, mem_answersIn_iff.mp (List.mem_filter.mp own).1, honoured⟩

/-! ### Answers of a sample -/

def hasAsked (s : Session) (t : TaskId) : Bool := s.loop.tasks[t]?.any Task.cancelling

theorem hasAsked_iff : s.hasAsked t = true ↔ s.IsCancelling t := Option.any_eq_true _ _

/-- Whether nothing but answers matters from the one moment to the other. -/
def isSteady (s last : Session) : Bool :=
  ((last.since s).all fun
    | .registered .. | .removed .. | .disposed | .dispatched _ | .reshaped .. | .altered .. => false
    | _ => true) &&
  (List.range last.loop.tasks.size).all fun t => !last.hasAsked t || s.hasAsked t

theorem steady_of_isSteady (h : s.isSteady last = true) : s.Steady last := by
  obtain ⟨calm, unasked⟩ := Bool.and_eq_true_iff.mp h
  have not {e : Entry} (he : e ∈ last.since s) := List.all_eq_true.mp calm e he
  refine ⟨fun _ _ he => ?_, fun _ _ he => ?_, fun he => ?_, fun _ he => ?_, fun _ _ he => ?_,
    fun _ _ he => ?_, fun t asked => ?_⟩
  · cases not he
  · cases not he
  · cases not he
  · cases not he
  · cases not he
  · cases not he
  · obtain ⟨x, hx, _⟩ := id asked
    have ht := List.mem_range.mpr (Array.getElem?_eq_some_iff.mp hx).1
    have either := List.all_eq_true.mp unasked t ht
    rw [hasAsked_iff.mpr asked] at either
    exact hasAsked_iff.mp either

/-! ### Orders of answers of a sample -/

/-- What tells an answer of a sample apart: its dispatch, and the number that it is a list of. -/
def numbered (a : Dispatch × Except Failure Value) : DispatchKey × Option Int :=
  (a.1.key, match a.2 with
    | .ok (.list [.int n]) => some n
    | _ => none)

theorem answer_of_numbered {a : Dispatch × Except Failure Value} {n : Int}
    (h : (numbered a).2 = some n) : a.2 = .ok (.list [.int n]) := by
  unfold numbered at h
  dsimp only at h
  split at h
  · rename_i same
    rw [same, Option.some.inj h]
  · cases h

/-- Answers that are numbers are told apart by what they are of dispatches that keys tell apart. -/
theorem eq_of_map_numbered {A A' : AnswersGiven} (numbers : ∀ a ∈ A, (numbered a).2.isSome)
    (apart : ∀ a ∈ A, ∀ a' ∈ A', a.1.key = a'.1.key → a.1 = a'.1)
    (same : A.map numbered = A'.map numbered) : A = A' := by
  induction A generalizing A' with
  | nil => exact (List.map_eq_nil_iff.mp same.symm).symm
  | cons a A ih =>
    obtain ⟨a', B, rfl, here, rest⟩ := List.map_eq_cons_iff.mp same.symm
    obtain ⟨n, hn⟩ := Option.isSome_iff_exists.mp (numbers a List.mem_cons_self)
    have dispatch : a.1 = a'.1 :=
      apart a List.mem_cons_self a' List.mem_cons_self (congrArg Prod.fst here).symm
    have answer : a.2 = a'.2 := by
      rw [answer_of_numbered hn, answer_of_numbered (here ▸ hn)]
    rw [Prod.ext dispatch answer, ih (fun a ha => numbers a (List.mem_cons_of_mem _ ha))
      (fun a ha a' ha' => apart a (List.mem_cons_of_mem _ ha) a' (List.mem_cons_of_mem _ ha'))
      rest.symm]

/-- Whether two stretches differ in the order of numbered answers alone. -/
def isReordered (s last last' : Session) : Bool :=
  let A := answersIn (last.since s)
  let A' := answersIn (last'.since s)
  s.isSteady last && s.isSteady last' && A.all (fun a => (numbered a).2.isSome) &&
    s.registry.records.all fun x =>
      (s.answersOf x.provider A).map numbered == (s.answersOf x.provider A').map numbered

/-- What is answered in a steady stretch has been dispatched before it. -/
theorem Steady.dispatched_before {a : Dispatch × Except Failure Value} (steady : s.Steady last)
    (c : last.Coherent) (path : s.Path last) (h : a ∈ answersIn (last.since s)) :
    .dispatched a.1 ∈ s.history := by
  have told : .answered a.1 a.2 ∈ last.history := List.mem_of_mem_drop (mem_answersIn_iff.mp h)
  have known := c.known told (m := .answered a.2) rfl
  rw [history_since path] at known
  exact (List.mem_append.mp known).resolve_right (steady.dispatched a.1)

theorem onlyOrderDiffers_of_isReordered {s₀ : Session} {before moves moves' : List Move}
    (same : s₀.host.listeners = (sample []).host.listeners)
    (h : (s₀.opening.run before).isReordered ((s₀.opening.run before).run moves)
      ((s₀.opening.run before).run moves') = true) :
    OnlyOrderDiffers (s₀.opening.run before) ((s₀.opening.run before).run moves)
      ((s₀.opening.run before).run moves') := by
  let s := s₀.opening.run before
  have c : s.Coherent := s₀.coherent_run before
  have path (moves : List Move) : s.Path (s.run moves) :=
    (comes_run c (s₀.comes_opening before).idle moves).path
  have equips : s₀.opening.Equips s := lasting_run _ _
  simp only [isReordered, Bool.and_eq_true, List.all_eq_true] at h
  obtain ⟨⟨⟨steady, steady'⟩, numbers⟩, ordered⟩ := h
  have steady := steady_of_isSteady steady
  have steady' := steady_of_isSteady steady'
  refine ⟨observed_of_sample (equips.listeners.trans same), ⟨steady, steady'⟩, fun p => ?_⟩
  by_cases known : ∃ (id : RecordId) (x : Record Nat), s.registry.records[id]? = some x ∧ x.provider = p
  · obtain ⟨id, x, hx, rfl⟩ := known
    obtain ⟨hid, rfl⟩ := Array.getElem?_eq_some_iff.mp hx
    refine eq_of_map_numbered (fun a ha => numbers a (List.mem_filter.mp ha).1)
      (fun a ha a' ha' key => ?_) (eq_of_beq (Array.all_eq_true.mp ordered id hid))
    exact c.unique
      (steady.dispatched_before (c.path (path moves)) (path moves) (List.mem_filter.mp ha).1)
      (steady'.dispatched_before (c.path (path moves')) (path moves') (List.mem_filter.mp ha').1) key
  · have foreign (A : AnswersGiven) : s.answersOf p A = [] := by
      refine List.filter_eq_nil_iff.mpr fun a _ own => known ?_
      obtain ⟨x, hx, own⟩ := Option.map_eq_some_iff.mp (of_decide_eq_true own)
      exact ⟨a.1.record, x, hx, own⟩
    rw [foreign, foreign]

/-- Whether a lint waits for its round, has not been asked to end, and nothing has ended so far. -/
def isHopeful (s : Session) (t : TaskId) : Bool :=
  (match s.loop.tasks[t]?.map Task.phase with
    | some (.gathering g) => !g.cancelRequested && g.outcome.isNone
    | _ => false) &&
  !s.hasAsked t && (List.range s.loop.tasks.size).all fun m => !s.loop.hasEnded m

theorem hopeful_of_isHopeful (h : s.isHopeful t = true) : s.Hopeful t := by
  simp only [isHopeful, Bool.and_eq_true, Bool.not_eq_true', List.all_eq_true] at h
  obtain ⟨⟨waits, unasked⟩, going⟩ := h
  refine ⟨?_, fun asked => ?_, fun m e _ ended => ?_⟩
  · split at waits
    · rename_i g hg
      obtain ⟨x, hx, phase⟩ := Option.map_eq_some_iff.mp hg
      simp only [Bool.and_eq_true, Bool.not_eq_true', Option.isNone_iff_eq_none] at waits
      refine ⟨x, g, hx, phase, waits.1, fun r hr => ?_⟩
      rw [waits.2] at hr
      cases hr
    · cases waits
  · rw [hasAsked_iff.mpr asked] at unasked
    cases unasked
  · obtain ⟨x, hx, he⟩ := ended
    have unended := going m (List.mem_range.mpr (Array.getElem?_eq_some_iff.mp hx).1)
    simp [Loop.hasEnded, hx, he] at unended

/-- Whether an answer is no failure, and all can be read that matters for it. -/
def isHonoured (s : Session) (a : Dispatch × Except Failure Value) : Bool :=
  match s.providerOf a.1.record with
  | some p => (s.nameOf p).isOk && (s.scopeOf p).isOk &&
      (s.answerOf a.1.context.surface .destroyed).isOk && a.2.isOk && !s.asks a.1
  | none => false

theorem honoured_of_isHonoured {a : Dispatch × Except Failure Value} (h : s.isHonoured a = true) :
    s.Honoured a.1 a.2 := by
  have value {α : Type} {r : Except Failure α} (h : r.isOk = true) : ∃ a, r = .ok a := by
    cases r with
    | ok a => exact ⟨a, rfl⟩
    | error f => cases h
  unfold isHonoured at h
  split at h
  · rename_i p hp
    simp only [Bool.and_eq_true, Bool.not_eq_true'] at h
    obtain ⟨⟨⟨⟨name, scope⟩, surface⟩, answer⟩, unasked⟩ := h
    obtain ⟨v, hv⟩ := value answer
    exact ⟨⟨p, hp, value name, value scope, fun _ => value surface⟩,
      hv ▸ Dispatch.contained_ok v, unasked⟩
  · cases h

/-- Whether all dispatches that have tasks at the one moment are answered by the other, and these
answers are honoured. -/
def honoursAll (s last : Session) : Bool :=
  s.loop.tasks.all fun x => match x.job with
    | .lint _ => true
    | .dispatch d =>
      (answersIn (last.since s)).any fun a => decide (a.1.key = d.key) && s.isHonoured a

theorem allHonoured_of_honoursAll (c : s.Coherent) (path : s.Path last) (steady : s.Steady last)
    (h : s.honoursAll last = true) (t : TaskId) : s.AllHonoured last t := by
  intro m x d hx hd _ _
  obtain ⟨hm, rfl⟩ := Array.getElem?_eq_some_iff.mp hx
  have answered := Array.all_eq_true.mp h m hm
  simp only [hd, List.any_eq_true, Bool.and_eq_true, decide_eq_true_eq] at answered
  obtain ⟨a, ha, key, honoured⟩ := answered
  obtain rfl : a.1 = d :=
    c.unique (steady.dispatched_before (c.path path) path ha) (c.tasked hx hd) key
  exact ⟨a.2, mem_answersIn_iff.mp ha, honoured_of_isHonoured honoured⟩

/-- Two lints of a sample, both of which have asked both providers. -/
def sampleTwice : List Move :=
  .act (.add "p" false) :: .act (.add "q" false) :: sampleLint ++ sampleLint

/-- Requests of a sample are answered, each by a number, and there are ticks enough for all tasks to
end. -/
def sampleNumbers (answers : List (ProviderId × Nat × Int)) : List Move :=
  (answers.map fun a => .act (.resolve a.1 a.2.1 (.list [.int a.2.2]))) ++ List.replicate 10 .tick

/-- Two lints are in flight, and the one provider is asked anew before it has answered. Whichever of
the providers is the first, both lints tell of success. -/
theorem sampleTwice_commutes :
    let s := (sample []).opening.run sampleTwice
    let last := s.run (sampleNumbers [("p", 1, 2), ("p", 0, 1), ("q", 0, 3), ("q", 1, 4)])
    let last' := s.run (sampleNumbers [("q", 0, 3), ("p", 1, 2), ("q", 1, 4), ("p", 0, 1)])
    OnlyOrderDiffers s last last' ∧
      (answersIn (last.since s)).map numbered ≠ (answersIn (last'.since s)).map numbered ∧
      last.registry.records = last'.registry.records ∧
      (∀ p, last.noticesFor p = last'.noticesFor p) ∧
      ∀ t ∈ [0, 3], s.Hopeful t ∧ s.AllHonoured last t ∧
        last.resultOf t = some (.value true) ∧ last'.resultOf t = some (.value true) := by
  intro s last last'
  have c : s.Coherent := (sample []).coherent_run sampleTwice
  have path : s.Path last := (comes_run c ((sample []).comes_opening sampleTwice).idle _).path
  have differ : OnlyOrderDiffers s last last' :=
    onlyOrderDiffers_of_isReordered rfl (by decide +kernel)
  have drained : (last.loop.ready.isEmpty && last'.loop.ready.isEmpty) = true := by decide +kernel
  obtain ⟨empty, empty'⟩ := Bool.and_eq_true_iff.mp drained
  have concurs : Concurs s last last' := settlements_commute differ
  obtain ⟨records, notices, lints⟩ := concurs
  refine ⟨differ, by decide +kernel, records, notices, fun t ht => ?_⟩
  have all : ([0, 3].all fun t => s.isHopeful t) = true := by decide +kernel
  have hopeful := hopeful_of_isHopeful (List.all_eq_true.mp all t ht)
  have honoured := allHonoured_of_honoursAll c path differ.steady.1 (by decide +kernel) t
  obtain ⟨succeeds, succeeds'⟩ := lints t hopeful honoured
  exact ⟨hopeful, honoured, succeeds (List.isEmpty_iff.mp empty),
    succeeds' (List.isEmpty_iff.mp empty')⟩

/-! ### Lints that fall short -/

/-- A lint, a dispatch of which is in flight, does not tell of success, although all dispatches are
settled, nothing else that matters happens, and nothing stands in the queue any more. -/
structure FallsShort (s last : Session) (t : TaskId) : Prop where
  steady : OnlyOrderDiffers s last last
  inFlight : ∃ (m : TaskId) (x : Task) (d : Dispatch), s.loop.tasks[m]? = some x ∧
    x.job = .dispatch d ∧ d.round = t ∧ ∀ e, x.phase ≠ .ended e
  settled : ∀ (m : TaskId) (x : Task) (d : Dispatch), s.loop.tasks[m]? = some x →
    x.job = .dispatch d → last.HasEnded m
  drained : last.loop.ready = []
  result : last.resultOf t ≠ some (.value true)

def isInFlight (t : TaskId) (x : Task) : Bool :=
  match x.job, x.phase with
  | .lint _, _ | .dispatch _, .ended _ => false
  | .dispatch d, _ => d.round == t

theorem inFlight_iff : isInFlight t x = true ↔
    ∃ d, x.job = .dispatch d ∧ d.round = t ∧ ∀ e, x.phase ≠ .ended e := by
  unfold isInFlight
  split <;> simp_all

def hasSucceeded (s : Session) (t : TaskId) : Bool :=
  match s.resultOf t with
  | some (.value b) => b
  | _ => false

/-- All that is to be seen of a lint that falls short. -/
def showsFalling (s last : Session) (t : TaskId) : Bool :=
  s.isSteady last && s.loop.tasks.any (isInFlight t) &&
    (List.range last.loop.tasks.size).all last.loop.hasEnded && last.loop.ready.isEmpty &&
      !last.hasSucceeded t

theorem fallsShort_of_shows {s₀ : Session} {before moves : List Move}
    (same : s₀.host.listeners = (sample []).host.listeners)
    (shows : (s₀.opening.run before).showsFalling ((s₀.opening.run before).run moves) t = true) :
    (s₀.opening.run before).FallsShort ((s₀.opening.run before).run moves) t := by
  let s := s₀.opening.run before
  have path : s.Path (s.run moves) :=
    (comes_run (s₀.coherent_run before) (s₀.comes_opening before).idle moves).path
  have equips : s₀.opening.Equips s := lasting_run _ _
  simp only [showsFalling, Bool.and_eq_true, Array.any_eq_true, List.isEmpty_iff,
    Bool.not_eq_true'] at shows
  obtain ⟨⟨⟨⟨steady, m, hm, going⟩, ended⟩, drained⟩, failed⟩ := shows
  obtain ⟨d, job, round, unended⟩ := inFlight_iff.mp going
  refine ⟨⟨observed_of_sample (equips.listeners.trans same), ?_, fun _ => rfl⟩,
    ⟨m, _, d, Array.getElem?_eq_getElem hm, job, round, unended⟩, fun m x d hx _ => ?_, drained, ?_⟩
  · exact ⟨steady_of_isSteady steady, steady_of_isSteady steady⟩
  · obtain ⟨y, hy, _⟩ := path.task hx
    exact hasEnded_of_all ended (Array.getElem?_eq_some_iff.mp hy).1
  · intro success
    rw [hasSucceeded, success] at failed
    cases failed

/-- What a host does to stop everything. -/
def sampleAbort : Failure := .ofText .hostAbort "stop"

/-- Both providers of a sample have been asked, and then something happened. -/
def sampleTroubled (failures : Surface.Question → Option Failure) (trouble : List Move) : Session :=
  (troubledSample failures).opening.run
    (.act (.add "p" false) :: .act (.add "q" false) :: sampleLint ++ trouble)

/-- The one provider is answered in some way, and then the other. -/
def sampleSettled (answer : Action) : List Move :=
  .act answer :: .act (.resolve "q" 0 (.list [.int 1])) :: List.replicate 8 .tick

/-- Dispatches that are settled do not make their lint tell of success if the name or the scope of a
provider cannot be read, if the surface cannot say whether it is destroyed, if a provider fails in a
way that is not contained, if the lint had been asked to end, or if another of its dispatches had
failed. -/
theorem sample_falls_short :
    let gone : Surface.Question → Option Failure := fun
      | .destroyed => some sampleFault
      | _ => none
    let troubled := sampleTroubled fun _ => none
    let answer := Action.resolve "p" 0 (.list [.int 2])
    let abort := Action.fail "p" 0 sampleAbort
    let falls (s : Session) (moves : List Move) := s.FallsShort (s.run moves) 0
    falls (troubled [.act (.deleteAttribute "p" "name")]) (sampleSettled (.fail "p" 0 sampleFault)) ∧
      falls (troubled [.act (.setAttribute "p" "scope" (.str "galaxy"))]) (sampleSettled answer) ∧
      falls (sampleTroubled gone []) (sampleSettled answer) ∧
      falls (troubled []) (sampleSettled abort) ∧
      falls (troubled [.act (.cancel "t1")]) (sampleSettled .pass) ∧
      falls (troubled (.act abort :: List.replicate 8 .tick)) (sampleSettled .pass) := by
  intro gone troubled answer abort falls
  refine ⟨fallsShort_of_shows rfl ?_, fallsShort_of_shows rfl ?_, fallsShort_of_shows rfl ?_,
    fallsShort_of_shows rfl ?_, fallsShort_of_shows rfl ?_, fallsShort_of_shows rfl ?_⟩ <;>
  decide +kernel

end Session
end LintBroker

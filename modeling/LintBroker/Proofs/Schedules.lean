import LintBroker.Proofs.Launches
import LintBroker.Proofs.Remainders

/-!
# Schedules

A *schedule* says what happens, one move after the other, without end. If ticks keep coming, then
whatever stands in the queue comes first some time; and if moreover every request is settled in the
end, then every task ends. A dispatch comes nearer to its end with every turn that it has something
to go on with, and a lint hears of the ends of all of its dispatches.
-/
namespace LintBroker

namespace Loop
variable {l l' : Loop} {t m : TaskId}

theorem Advances.news (h : l.Advances l') (hn : .memberEnded t m ∈ l'.ready) :
    .memberEnded t m ∈ l.ready := by
  obtain ⟨ts, hts⟩ := h.ready
  simpa [hts] using hn

/-- To hear of a member's end makes no news. -/
theorem news_memberEnded {parent member : TaskId}
    (hn : .memberEnded t m ∈ (l.memberEnded parent member).ready) : .memberEnded t m ∈ l.ready := by
  unfold memberEnded at hn
  split at hn
  · dsimp only at hn
    split at hn
    · exact (List.mem_append.mp hn).resolve_right (by simp)
    · exact hn
  · exact hn

end Loop

namespace Session
variable {s s' : Session} {t m : TaskId} {x : Task}

/-- Requests that have been settled stay so. -/
def KeepsSettled (s s' : Session) : Prop := ∀ r, s.loop.IsSettled r → s'.loop.IsSettled r

theorem KeepsSettled.of_eq (h : s'.loop = s.loop) : s.KeepsSettled s' := fun _ settled => h ▸ settled

theorem Stroke.keepsSettled (h : Stroke s s') : s.KeepsSettled s' := by
  intro r settled
  cases h with
  | quiet h => exact h.loop ▸ settled
  | settle r' e => exact (Loop.Serves.settle _ r' e).settled r settled
  | cancel t => exact (Loop.Serves.cancel _ t).settled r settled
  | _ => exact settled

instance : IsPreorder Session KeepsSettled where
  refl _ _ := id
  trans _ _ _ h h' r := h' r ∘ h r

instance : Lasting KeepsSettled where
  stroke h := h.keepsSettled
  own _ _ := .of_eq rfl
  answered _ _ _ := .of_eq rfl
  invoked _ _ _ := .of_eq rfl
  counts _ _ _ := .of_eq rfl
  calls _ _ := .of_eq rfl
  work h := h.serves.settled
  emit := Act.keepsTo_emit (fun _ _ => Stroke.keepsSettled) (fun _ _ => .of_eq rfl)
    fun _ _ => .of_eq rfl
  pop _ _ := id
  hear _ parent member := (Loop.Serves.memberEnded _ parent member).settled

/-! ### What has been heard -/

/-- News of a member's end comes from its own turn. -/
theorem Step.news (h : s.Step s') (hn : .memberEnded t m ∈ s'.loop.ready) :
    .memberEnded t m ∈ s.loop.ready ∨ ∃ job, s.Runs m job := by
  cases h with
  | change h =>
    cases h with
    | spawn name c => exact .inl ((s.loop.advances_spawn name c).news hn)
    | settle r e => exact .inl ((s.loop.advances_settle r e).news hn)
    | cancel t => exact .inl ((s.loop.advances_cancel t).news hn)
    | _ => exact .inl hn
  | pop hr => exact .inl (hr ▸ List.mem_cons_of_mem _ hn)
  | hear parent member => exact .inl (Loop.news_memberEnded hn)
  | @gathers u c ds =>
    refine .inl ?_
    obtain ⟨ts, hts⟩ := s.loop.ready_spawnAll ds
    have spawned (hn : .memberEnded t m ∈ (s.loop.spawnAll ds).ready) :
        .memberEnded t m ∈ s.loop.ready := by simpa [hts] using hn
    rw [loop_onLoop] at hn
    unfold Loop.gather at hn
    dsimp only at hn
    split at hn
    · have before := Loop.Advances.news (Loop.advances_cancelMembers _ _) hn
      exact spawned before
    · exact spawned hn
  | @pauses u d next => exact .inl ((s.loop.advances_pause u next).news hn)
  | @awaits u d r next => exact .inl ((s.loop.advances_await u r next).news hn)
  | @ends u job e runs =>
    rw [loop_onLoop] at hn
    unfold Loop.finish at hn
    dsimp only at hn
    split at hn
    · rcases List.mem_append.mp hn with old | new
      · exact .inl old
      · obtain ⟨_, rfl⟩ := Ready.memberEnded.inj (List.mem_singleton.mp new)
        exact .inr ⟨job, runs⟩
    · exact .inl hn
  | _ => exact .inl hn

/-- A lint that has heard of a member's end does not hear of it again. -/
theorem Path.unheard (h : s.Path s') (ended : s.HasEnded m) (heard : .memberEnded t m ∉ s.loop.ready) :
    .memberEnded t m ∉ s'.loop.ready := by
  induction h with
  | refl => exact heard
  | @tail u v path step ih =>
    intro hn
    rcases step.news hn with queued | ⟨job, y, hy, running, _⟩
    · exact ih queued
    · obtain ⟨z, e, hz, he⟩ := Path.hasEnded path ended
      obtain rfl := Option.some.inj (hy.symm.trans hz)
      rw [running] at he
      cases he

/-- A round that has members gets no more of them. -/
theorem Path.members_back (h : s.Path s') {m₀ : TaskId} (some : s.loop.IsMember t m₀)
    (hm : s'.loop.IsMember t m) : s.loop.IsMember t m := by
  induction h generalizing m with
  | refl => exact hm
  | @tail u v path step ih =>
    obtain ⟨y, d, hy, hd, round⟩ := hm
    rcases step.dispatch_task hy hd with ⟨x, hx, hj, _⟩ | ⟨_, _, _, barren, _⟩
    · exact ih ⟨x, d, hx, hj, round⟩
    · obtain ⟨x₀, d₀, hx₀, hd₀, round₀⟩ := some
      obtain ⟨y₀, hy₀, hj₀, _⟩ := Path.task path hx₀
      exact absurd (round₀.trans round.symm) (barren m₀ y₀ d₀ hy₀ (hj₀.trans hd₀))

/-! ### Runs without end -/

/-- What happens, one move after the other, without end. -/
abbrev Schedule := Nat → Move

def after (s : Session) (σ : Schedule) (n : Nat) : Session := s.opening.run ((List.range n).map σ)

/-- Ticks keep coming, and every request is settled in the end. -/
structure Fair (s : Session) (σ : Schedule) : Prop where
  turns : ∀ n, ∃ m, n ≤ m ∧ σ m = .tick
  settles : ∀ n (r : RequestId), r < (s.after σ n).loop.requests.size →
    ∃ m, n ≤ m ∧ (s.after σ m).loop.IsSettled r

section schedule
variable {σ : Schedule} {n k : Nat}

theorem after_succ (s : Session) (σ : Schedule) (n : Nat) :
    s.after σ (n + 1) = (s.after σ n).move (σ n) := by
  rw [after, List.range_succ, List.map_append, run_append]
  rfl

theorem comes_after (s : Session) (σ : Schedule) (n : Nat) : s.opening.Comes (s.after σ n) :=
  s.comes_opening _

theorem coherent_after (s : Session) (σ : Schedule) (n : Nat) : (s.after σ n).Coherent :=
  s.coherent_run _

theorem path_after (s : Session) (σ : Schedule) (h : n ≤ k) : (s.after σ n).Path (s.after σ k) := by
  induction k, h using Nat.le_induction with
  | base => exact .refl
  | succ k _ ih =>
    rw [after_succ]
    exact ih.trans (comes_move (s.coherent_after σ k) (s.comes_after σ k).idle (σ k)).path

theorem settled_after (h : n ≤ k) {r : RequestId} (settled : (s.after σ n).loop.IsSettled r) :
    (s.after σ k).loop.IsSettled r := by
  induction k, h using Nat.le_induction with
  | base => exact settled
  | succ k _ ih =>
    rw [after_succ]
    exact lasting_move (R := KeepsSettled) _ _ r ih

/-- As time goes by a task goes on as it was, or it has come nearer to its end. -/
theorem keeps_or_nearer_after (h : n ≤ k) (hx : (s.after σ n).loop.tasks[t]? = some x) :
    (∃ y, (s.after σ k).loop.tasks[t]? = some y ∧ x.Keeps y) ∨
      ∃ m y, n ≤ m ∧ (s.after σ m).loop.tasks[t]? = some y ∧ y.phase.Nearer x.phase := by
  induction k, h using Nat.le_induction with
  | base => exact .inl ⟨x, hx, .refl x⟩
  | succ k hk ih =>
    rcases ih with ⟨y, hy, kept⟩ | nearer
    · obtain ⟨z, hz, kept' | nearer⟩ :=
        keeps_or_nearer (s.comes_after σ k).path (s.comes_after σ k).idle (σ k) hy
      · exact .inl ⟨z, by rw [after_succ]; exact hz, kept.trans kept'⟩
      · exact .inr ⟨k + 1, z, Nat.le_succ_of_le hk, by rw [after_succ]; exact hz, nearer.of_keeps kept⟩
    · exact .inr nearer

namespace Fair
variable (fair : s.Fair σ)
include fair

theorem next_tick (n : Nat) : ∃ m, n ≤ m ∧ σ m = .tick ∧
    (s.after σ n).loop.ready <+: (s.after σ m).loop.ready := by
  obtain ⟨k, hk, tick⟩ := fair.turns n
  obtain ⟨d, rfl⟩ := Nat.exists_eq_add_of_le hk
  clear hk
  induction d generalizing n with
  | zero => exact ⟨n, le_rfl, tick, List.prefix_refl _⟩
  | succ d ih =>
    cases hm : σ n with
    | tick => exact ⟨n, le_rfl, hm, List.prefix_refl _⟩
    | act a =>
      obtain ⟨m, hnm, tick, grows⟩ := ih (n + 1) (by rwa [Nat.add_right_comm])
      have grown : (s.after σ n).loop.ready <+: (s.after σ (n + 1)).loop.ready := by
        rw [after_succ, hm]
        exact habit_perform (R := Queues) a (s.after σ n)
      exact ⟨m, Nat.le_of_succ_le hnm, tick, grown.trans grows⟩

/-- Whatever stands in the queue comes first some time. -/
theorem comes_first {r : Ready} (hr : r ∈ (s.after σ n).loop.ready) :
    ∃ m rest, n ≤ m ∧ σ m = .tick ∧ (s.after σ m).loop.ready = r :: rest := by
  obtain ⟨before, behind, split⟩ := List.append_of_mem hr
  clear hr
  induction before generalizing n behind with
  | nil =>
    obtain ⟨m, hm, tick, rest, grows⟩ := fair.next_tick n
    exact ⟨m, behind ++ rest, hm, tick, by rw [← grows, split]; rfl⟩
  | cons r' before ih =>
    obtain ⟨k, hk, tick, rest, grows⟩ := fair.next_tick n
    have first : (s.after σ k).loop.ready = r' :: (before ++ r :: (behind ++ rest)) := by
      rw [← grows, split]
      simp
    obtain ⟨more, further⟩ := queued_tick first
    have next : (s.after σ (k + 1)).loop.ready = before ++ r :: (behind ++ rest ++ more) := by
      rw [after_succ, tick]
      show (s.after σ k).tick.loop.ready = _
      rw [← further]
      simp
    obtain ⟨m, rest, hm, there⟩ := ih _ next
    exact ⟨m, rest, by omega, there⟩

/-- A task that stands in the queue comes nearer to its end, if it has something to go on with as long
as it goes on as it was. -/
theorem nearer_of_ready (hx : (s.after σ n).loop.tasks[t]? = some x)
    (queued : .step t ∈ (s.after σ n).loop.ready)
    (goes : ∀ m y, n ≤ m → (s.after σ m).loop.tasks[t]? = some y → x.Keeps y →
      ¬ y.Idles (s.after σ m).loop) :
    ∃ m y, n ≤ m ∧ (s.after σ m).loop.tasks[t]? = some y ∧ y.phase.Nearer x.phase := by
  obtain ⟨k, rest, hk, tick, first⟩ := fair.comes_first queued
  rcases keeps_or_nearer_after hk hx with ⟨y, hy, kept⟩ | nearer
  · rcases nearer_turn (s.comes_after σ k).path (s.comes_after σ k).idle first hy with
      ⟨z, hz, nearer⟩ | ⟨_, idles⟩
    · exact ⟨k + 1, z, Nat.le_succ_of_le hk, by rw [after_succ, tick]; exact hz, nearer.of_keeps kept⟩
    · exact absurd idles (goes k y hk hy kept)
  · exact nearer

/-! ### Every task ends -/

/-- The task of a dispatch ends. -/
theorem dispatch_ends {d : Dispatch} (hx : (s.after σ n).loop.tasks[t]? = some x)
    (hj : x.job = .dispatch d) : ∃ m, n ≤ m ∧ (s.after σ m).HasEnded t := by
  generalize hp : x.phase = p
  induction p using Phase.wellFounded_nearer.induction generalizing n x with
  | _ p ih =>
    have onward (h : ∃ m y, n ≤ m ∧ (s.after σ m).loop.tasks[t]? = some y ∧
        y.phase.Nearer x.phase) : ∃ m, n ≤ m ∧ (s.after σ m).HasEnded t := by
      obtain ⟨m, y, hm, hy, nearer⟩ := h
      obtain ⟨y', hy', same, _⟩ := Path.task (path_after s σ hm) hx
      obtain rfl := Option.some.inj (hy.symm.trans hy')
      obtain ⟨k, hk, ended⟩ := ih _ (hp ▸ nearer) hy (same.trans hj) rfl
      exact ⟨k, hm.trans hk, ended⟩
    have due : (s.after σ n).loop.Due t x.phase := remembers_run s _ t x hx
    cases phase : x.phase with
    | fresh =>
      rw [phase] at due
      refine onward (fair.nearer_of_ready hx due fun m y _ _ kept => ?_)
      have same := kept.phase_eq (by simp [phase])
      simp [Task.Idles, same, phase]
    | running => exact absurd phase ((s.comes_after σ n).idle t x hx)
    | paused next =>
      rw [phase] at due
      refine onward (fair.nearer_of_ready hx due fun m y _ _ kept => ?_)
      have same := kept.phase_eq (by simp [phase])
      simp [Task.Idles, same, phase, kept.job, hj]
    | awaiting r next =>
      rw [phase] at due
      obtain ⟨q, hq, _⟩ := due
      obtain ⟨k, hk, settled⟩ := fair.settles n r (Array.getElem?_eq_some_iff.mp hq).1
      rcases keeps_or_nearer_after hk hx with ⟨y, hy, kept⟩ | nearer
      · -- the request has been settled, and so the task that still waits for it is in the queue
        have awaits := (kept.phase_eq (by simp [phase])).trans phase
        have due : (s.after σ k).loop.Due t y.phase := remembers_run s _ t y hy
        rw [awaits] at due
        obtain ⟨q, hq, _, queued⟩ := due
        have some : q.settlement.isSome = true := by
          rw [Option.isSome_iff_ne_none]
          simpa [Loop.IsSettled, hq] using settled
        obtain ⟨m, z, hm, hz, nearer⟩ := fair.nearer_of_ready hy (queued some)
          fun m z hm _ kept' idles => by
            have same := (kept'.phase_eq (by simp [awaits])).trans awaits
            have job := kept'.job.trans (kept.job.trans hj)
            simp only [Task.Idles, same, job] at idles
            exact settled_after hm settled idles
        exact onward ⟨m, z, hk.trans hm, hz, nearer.of_keeps kept⟩
      · exact onward nearer
    | gathering g => exact absurd phase ((s.coherent_after σ n).not_gathering hx hj g)
    | ended e => exact ⟨n, le_rfl, x, e, hx, phase⟩

end Fair

theorem heard_tick (tallied : s.loop.Tallied) {rest : List Ready}
    (hr : s.loop.ready = .memberEnded t m :: rest) : .memberEnded t m ∉ s.tick.loop.ready := by
  have once := tallied.once t m
  rw [hr, List.count_cons_self] at once
  have gone : .memberEnded t m ∉ rest := List.count_eq_zero.mp (by omega)
  intro hn
  simp only [tick, hr] at hn
  exact gone (Loop.news_memberEnded hn)

/-- A round all of whose members have ended, and of all of whose ends its lint has heard, is
decided. -/
theorem decided_of_heard {moves : List Move} {g : Gathering}
    (hx : (s.opening.run moves).loop.tasks[t]? = some x) (phase : x.phase = .gathering g)
    (all : ∀ m, (s.opening.run moves).loop.IsMember t m →
      (s.opening.run moves).HasEnded m ∧ .memberEnded t m ∉ (s.opening.run moves).loop.ready) :
    g.outcome ≠ none := by
  intro undecided
  have due : (s.opening.run moves).loop.Due t x.phase := remembers_run s moves t x hx
  rw [phase] at due
  have rounds : (s.opening.run moves).Rounds := rounds_run s moves
  obtain ⟨m, own, news⟩ := exists_unheard (rounds.tallied.tally t x g hx phase) (due.2.1 undecided)
  obtain ⟨⟨y, e, hy, he⟩, heard⟩ := all m own
  exact heard (news ⟨e, y, hy, he⟩)

namespace Fair
variable (fair : s.Fair σ)
include fair

/-- A lint hears of the end of a member of its round. -/
theorem hears (own : (s.after σ n).loop.IsMember t m) :
    ∀ᶠ k in Filter.atTop, (s.after σ k).HasEnded m ∧
      .memberEnded t m ∉ (s.after σ k).loop.ready := by
  obtain ⟨y, d, hy, hd, _⟩ := own
  obtain ⟨k, _, ended⟩ := fair.dispatch_ends hy hd
  -- it has ended, and its news, if it stands in the queue, comes first
  obtain ⟨k', hk', heard⟩ : ∃ k', k ≤ k' ∧ .memberEnded t m ∉ (s.after σ k').loop.ready := by
    by_cases news : .memberEnded t m ∈ (s.after σ k).loop.ready
    · obtain ⟨k', rest, hk', tick, first⟩ := fair.comes_first news
      have rounds : (s.after σ k').Rounds := rounds_run s _
      refine ⟨k' + 1, Nat.le_succ_of_le hk', ?_⟩
      rw [after_succ, tick]
      exact heard_tick rounds.tallied first
    · exact ⟨k, le_rfl, news⟩
  have over_ := Path.hasEnded (path_after s σ hk') ended
  exact Filter.eventually_atTop.mpr ⟨k', fun j hj =>
    ⟨Path.hasEnded (path_after s σ hj) over_, Path.unheard (path_after s σ hj) over_ heard⟩⟩

/-- A lint that waits for its round ends. -/
theorem round_ends {g : Gathering} (hx : (s.after σ n).loop.tasks[t]? = some x)
    (phase : x.phase = .gathering g) : ∃ m, n ≤ m ∧ (s.after σ m).HasEnded t := by
  have rounds : (s.after σ n).Rounds := rounds_run s _
  have tally := rounds.tallied.tally t x g hx phase
  have due : (s.after σ n).loop.Due t x.phase := remembers_run s _ t x hx
  rw [phase] at due
  obtain ⟨m₀, hm₀⟩ := List.exists_mem_of_ne_nil _ due.2.2
  have one := (tally.mem_iff m₀).mp hm₀
  -- from some time on all members have ended, and their ends have been heard of
  have all := (Filter.eventually_all_finset g.members.toFinset).mpr fun m hm =>
    fair.hears ((tally.mem_iff m).mp (List.mem_toFinset.mp hm))
  obtain ⟨k, all⟩ := (all.and (Filter.eventually_ge_atTop n)).exists_forall_of_atTop
  have hk := (all k le_rfl).2
  have decided {j : Nat} {z : Task} {g' : Gathering} (hj : k ≤ j)
      (hz : (s.after σ j).loop.tasks[t]? = some z) (hg : z.phase = .gathering g') :
      g'.outcome ≠ none := decided_of_heard hz hg fun m own => (all j hj).1 m (List.mem_toFinset.mpr
    ((tally.mem_iff m).mpr (Path.members_back (path_after s σ (hk.trans hj)) one own)))
  have ends {m : Nat} {y : Task} {g' : Gathering} (hm : n ≤ m)
      (hy : (s.after σ m).loop.tasks[t]? = some y) (nearer : y.phase.Nearer (.gathering g')) :
      ∃ m, n ≤ m ∧ (s.after σ m).HasEnded t := by
    obtain ⟨e, he⟩ := nearer.of_gathering
    exact ⟨m, hm, y, e, hy, he⟩
  rcases keeps_or_nearer_after hk hx with ⟨y, hy, kept⟩ | ⟨m, y, hm, hy, nearer⟩
  · obtain ⟨g', hg'⟩ := kept.gathering phase
    have due : (s.after σ k).loop.Due t y.phase := remembers_run s _ t y hy
    rw [hg'] at due
    have queued := due.1 (Option.isSome_iff_ne_none.mpr (decided le_rfl hy hg'))
    obtain ⟨m, z, hm, hz, nearer⟩ := fair.nearer_of_ready hy queued fun j z hj hz kept' idles => by
      obtain ⟨g'', hg''⟩ := kept'.gathering hg'
      simp only [Task.Idles, hg''] at idles
      exact decided hj hz hg'' idles
    exact ends (hk.trans hm) hz (hg' ▸ nearer)
  · exact ends hm hy (phase ▸ nearer)

/-- A lint ends. -/
theorem lint_ends {c : EditContext} (hx : (s.after σ n).loop.tasks[t]? = some x)
    (hj : x.job = .lint c) : ∃ m, n ≤ m ∧ (s.after σ m).HasEnded t := by
  have started {m : Nat} {y : Task} (hm : n ≤ m) (hy : (s.after σ m).loop.tasks[t]? = some y)
      (begun : y.phase ≠ .fresh) : ∃ m, n ≤ m ∧ (s.after σ m).HasEnded t := by
    obtain ⟨y', hy', same, _⟩ := Path.task (path_after s σ hm) hx
    obtain rfl := Option.some.inj (hy.symm.trans hy')
    rcases Path.lint_started (s.comes_after σ m).path (s.comes_after σ m).idle hy (same.trans hj)
      begun with ⟨g, hg⟩ | ⟨e, he⟩
    · obtain ⟨k, hk, ended⟩ := fair.round_ends hy hg
      exact ⟨k, hm.trans hk, ended⟩
    · exact ⟨m, hm, y, e, hy, he⟩
  by_cases fresh : x.phase = .fresh
  · have due : (s.after σ n).loop.Due t x.phase := remembers_run s _ t x hx
    rw [fresh] at due
    obtain ⟨m, y, hm, hy, nearer⟩ := fair.nearer_of_ready hx due fun m y _ _ kept => by
      have same := (kept.phase_eq (by simp [fresh])).trans fresh
      simp [Task.Idles, same]
    exact started hm hy nearer.ne_fresh
  · exact started le_rfl hx fresh

end Fair
end schedule

end Session
end LintBroker

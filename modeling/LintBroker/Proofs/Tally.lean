import LintBroker.Proofs.Stretches

/-!
# The tally of a round

A lint that waits for its round counts the members whose end it has heard of. The news of an end is
written into the queue once, when the member ends, so the count is the number of members that have
ended and whose news is no longer queued. So long as none of these has failed or was cancelled the
round goes on, and if it ends well all of its members have ended with a value.
-/
namespace LintBroker

namespace Gathering
variable (g : Gathering) (e : Ending)

theorem members_afterMember : (g.afterMember e).members = g.members := by
  unfold afterMember
  dsimp only
  split
  · rfl
  · rfl
  · rfl
  · split <;> rfl

theorem ended_afterMember : (g.afterMember e).ended = g.ended + 1 := by
  unfold afterMember
  dsimp only
  split
  · rfl
  · rfl
  · rfl
  · split <;> rfl

theorem outcome_afterMember : (g.afterMember e).outcome =
    match g.outcome, e with
    | some r, _ => some r
    | none, .cancelled => some (.error .cancellation)
    | none, .failed f => some (.error f)
    | none, .value _ =>
      if g.ended + 1 = g.members.length then
        some (if g.cancelRequested then .error .cancellation else .ok ())
      else none := by
  obtain ⟨members, ended, cancelRequested, outcome⟩ := g
  cases outcome with
  | some r => rfl
  | none =>
    cases e with
    | value b =>
      show (if ended + 1 = members.length then _ else _ : Gathering).outcome = _
      split <;> rfl
    | failed f => rfl
    | cancelled => rfl

variable {g e}

/-- A round that goes on after a member's end went on before, and the member had a value. -/
theorem outcome_afterMember_none (h : (g.afterMember e).outcome = none) :
    g.outcome = none ∧ ∃ b, e = .value b := by
  rw [outcome_afterMember] at h
  cases ho : g.outcome with
  | some r => simp [ho] at h
  | none =>
    cases e with
    | value b => exact ⟨rfl, b, rfl⟩
    | failed f => simp [ho] at h
    | cancelled => simp [ho] at h

theorem outcome_afterMember_ok (h : (g.afterMember e).outcome = some (.ok ())) :
    g.outcome = some (.ok ()) ∨
      g.outcome = none ∧ (∃ b, e = .value b) ∧ g.ended + 1 = g.members.length := by
  rw [outcome_afterMember] at h
  cases ho : g.outcome with
  | some r => exact .inl (by simpa [ho] using h)
  | none =>
    cases e with
    | value b =>
      refine .inr ⟨rfl, ⟨b, rfl⟩, ?_⟩
      by_contra hn
      simp [ho, hn] at h
    | failed f => simp [ho] at h
    | cancelled => simp [ho] at h

end Gathering

theorem length_filter_succ {α : Type} {xs : List α} {p q : α → Bool} {a : α} (distinct : xs.Nodup)
    (ha : a ∈ xs) (hp : p a = false) (hq : q a = true) (same : ∀ b ∈ xs, b ≠ a → q b = p b) :
    (xs.filter q).length = (xs.filter p).length + 1 := by
  induction xs with
  | nil => cases ha
  | cons b xs ih =>
    obtain ⟨hb, distinct⟩ := List.nodup_cons.mp distinct
    by_cases hba : b = a
    · subst hba
      have rest : xs.filter q = xs.filter p := List.filter_congr fun c hc =>
        same c (List.mem_cons_of_mem _ hc) fun h => hb (h ▸ hc)
      simp [hp, hq, rest]
    · have ha : a ∈ xs := (List.mem_cons.mp ha).resolve_left (Ne.symm hba)
      have rest := ih distinct ha fun c hc => same c (List.mem_cons_of_mem _ hc)
      have first := same b List.mem_cons_self hba
      cases hpb : p b <;> simp [hpb, first, rest]

namespace Loop
variable {l l' : Loop} {t u m : TaskId} {x : Task} {g : Gathering}

def IsMember (l : Loop) (t m : TaskId) : Prop :=
  ∃ x d, l.tasks[m]? = some x ∧ x.job = .dispatch d ∧ d.round = t

def EndedWith (l : Loop) (m : TaskId) (e : Ending) : Prop :=
  ∃ x, l.tasks[m]? = some x ∧ x.phase = .ended e

/-- The members that have ended and whose news is no longer queued. -/
def reported (l : Loop) (t : TaskId) (members : List TaskId) : List TaskId :=
  members.filter fun m => l.hasEnded m && !l.ready.contains (.memberEnded t m)

/-- What a lint that waits for its round has counted is right. -/
structure Tally (l : Loop) (t : TaskId) (g : Gathering) : Prop where
  distinct : g.members.Nodup
  mem_iff : ∀ m, m ∈ g.members ↔ l.IsMember t m
  count : g.ended = (l.reported t g.members).length
  undecided : g.outcome = none → ∀ m ∈ l.reported t g.members, ∃ b, l.EndedWith m (.value b)
  success : g.outcome = some (.ok ()) → ∀ m ∈ g.members, ∃ b, l.EndedWith m (.value b)

/-- All counts are right, and the news of an end is queued once, after it. -/
structure Tallied (l : Loop) : Prop where
  once : ∀ t m, l.ready.count (.memberEnded t m) ≤ 1
  news : ∀ t m, .memberEnded t m ∈ l.ready → l.IsMember t m ∧ ∃ e, l.EndedWith m e
  tally : ∀ t x g, l.tasks[t]? = some x → x.phase = .gathering g → l.Tally t g

theorem tallied_empty : ({} : Loop).Tallied where
  once _ _ := by simp
  news _ _ h := by simp at h
  tally _ _ _ h := by simp at h

theorem hasEnded_iff (hm : l.IsMember t m) : l.hasEnded m = true ↔ ∃ e, l.EndedWith m e := by
  obtain ⟨x, _, hx, _⟩ := hm
  constructor
  · intro h
    simp only [hasEnded, hx] at h
    cases hp : x.phase with
    | ended e => exact ⟨e, x, hx, hp⟩
    | _ => simp [hp] at h
  · rintro ⟨e, y, hy, he⟩
    simp [hasEnded, hy, he]

/-- What a count goes by is the same for two loops: the members, and which of them have been
reported. -/
structure Agree (l l' : Loop) (t : TaskId) : Prop where
  member : ∀ m, l'.IsMember t m ↔ l.IsMember t m
  ended : ∀ m e, l.IsMember t m → l.EndedWith m e → l'.EndedWith m e
  reported : ∀ m, l.IsMember t m → ((∃ e, l'.EndedWith m e) ∧ .memberEnded t m ∉ l'.ready ↔
    (∃ e, l.EndedWith m e) ∧ .memberEnded t m ∉ l.ready)

/-- A right count is right in every loop that is the same as far as the count goes. -/
theorem Tally.agree (h : l.Tally t g) (a : l.Agree l' t) : l'.Tally t g := by
  have same : l'.reported t g.members = l.reported t g.members := by
    refine List.filter_congr fun m hm => ?_
    have own := (h.mem_iff m).mp hm
    rw [Bool.eq_iff_iff]
    simpa [hasEnded_iff own, hasEnded_iff ((a.member m).mpr own)] using a.reported m own
  refine ⟨h.distinct, fun m => (h.mem_iff m).trans (a.member m).symm, same ▸ h.count, ?_, ?_⟩
  · intro hg m hm
    obtain ⟨b, hb⟩ := h.undecided hg m (same ▸ hm)
    exact ⟨b, a.ended m _ ((h.mem_iff m).mp (List.mem_filter.mp hm).1) hb⟩
  · intro hg m hm
    obtain ⟨b, hb⟩ := h.success hg m hm
    exact ⟨b, a.ended m _ ((h.mem_iff m).mp hm) hb⟩

theorem Tally.same {g' : Gathering} (h : l.Tally t g) (same : g.Same g') : l.Tally t g' := by
  obtain ⟨distinct, mem_iff, count, undecided, success⟩ := h
  exact ⟨same.members ▸ distinct, same.members ▸ mem_iff, by rw [same.ended, same.members, count],
    by rwa [same.outcome, same.members], by rwa [same.outcome, same.members]⟩

theorem Keeps.isMember_iff (h : l.Keeps l') : l'.IsMember t m ↔ l.IsMember t m := by
  constructor
  · rintro ⟨y, d, hy, hd, hr⟩
    obtain ⟨x, hx, hxy⟩ := h.back_dispatch hy hd
    exact ⟨x, d, hx, hxy.job.symm.trans hd, hr⟩
  · rintro ⟨x, d, hx, hd, hr⟩
    obtain ⟨y, hy, hxy⟩ := h.forth m x hx
    exact ⟨y, d, hy, hxy.job.trans hd, hr⟩

theorem Keeps.endedWith (h : l.Keeps l') {e : Ending} (he : l.EndedWith m e) : l'.EndedWith m e := by
  obtain ⟨x, hx, hp⟩ := he
  obtain ⟨y, hy, hxy⟩ := h.forth m x hx
  exact ⟨y, hy, (hxy.phase_eq (by simp [hp])).trans hp⟩

theorem Keeps.endedWith_back (h : l.Keeps l') {e : Ending} (he : l'.EndedWith m e) :
    l.EndedWith m e := by
  obtain ⟨y, hy, hp⟩ := he
  rcases h.back hy with ⟨x, hx, hxy⟩ | ⟨hf, _⟩
  · exact ⟨x, hx, (hxy.phase_eq' (by simp [hp])).symm.trans hp⟩
  · simp [hp] at hf

/-- Members that ended in the same way, and the same news in the queue. -/
theorem Agree.of_ended (member : ∀ m, l'.IsMember t m ↔ l.IsMember t m)
    (ended : ∀ m e, l.IsMember t m → (l'.EndedWith m e ↔ l.EndedWith m e))
    (queued : ∀ m, .memberEnded t m ∈ l'.ready ↔ .memberEnded t m ∈ l.ready) : l.Agree l' t :=
  ⟨member, fun m e hm => (ended m e hm).mpr, fun m hm => by rw [exists_congr (ended m · hm), queued m]⟩

theorem Keeps.agree (h : l.Keeps l') (queued : ∀ m, .memberEnded t m ∈ l'.ready ↔
    .memberEnded t m ∈ l.ready) : l.Agree l' t :=
  .of_ended (fun _ => h.isMember_iff) (fun _ _ _ => ⟨h.endedWith_back, h.endedWith⟩) queued

theorem count_append_steps (ready : List Ready) (ts : List TaskId) (t m : TaskId) :
    (ready ++ ts.map Ready.step).count (.memberEnded t m) = ready.count (.memberEnded t m) := by
  have none : (ts.map Ready.step).count (.memberEnded t m) = 0 :=
    List.count_eq_zero_of_not_mem (by simp)
  rw [List.count_append, none, Nat.add_zero]

/-- Counts stay right while tasks go on as they were. -/
theorem Tallied.advances (h : l.Tallied) (a : l.Advances l') : l'.Tallied := by
  obtain ⟨ts, hts⟩ := a.ready
  have queued (t m : TaskId) : .memberEnded t m ∈ l'.ready ↔ .memberEnded t m ∈ l.ready := by
    simp [hts]
  constructor
  · intro t m
    rw [hts, count_append_steps]
    exact h.once t m
  · intro t m hm
    obtain ⟨member, e, he⟩ := h.news t m ((queued t m).mp hm)
    exact ⟨a.isMember_iff.mpr member, e, a.endedWith he⟩
  · intro t y g' hy hg'
    obtain ⟨x, g, hx, hg, _, same⟩ := a.rounds_back hy hg'
    exact ((h.tally t x g hx hg).agree (a.agree (queued t))).same same

/-- The step of a task that is taken from the queue is no news. -/
theorem Tallied.popStep (h : l.Tallied) {rest : List Ready} (hr : l.ready = .step u :: rest) :
    Tallied { l with ready := rest } := by
  have queued (t m : TaskId) : .memberEnded t m ∈ rest ↔ .memberEnded t m ∈ l.ready := by simp [hr]
  constructor
  · intro t m
    have := h.once t m
    rwa [hr, List.count_cons_of_ne (by simp)] at this
  · intro t m hm
    exact h.news t m ((queued t m).mp hm)
  · intro t x g hx hg
    exact (h.tally t x g hx hg).agree (Keeps.agree (.of_tasks_eq rfl) (queued t))

theorem endedWith_setPhase_other {p : Phase} {m : TaskId} {e : Ending} (other : m ≠ u) :
    (l.setPhase u p).EndedWith m e ↔ l.EndedWith m e := by
  unfold EndedWith
  rw [setPhase, getElem?_changeTask, if_neg other.symm]

section turn
variable {p : Phase} (hx : l.tasks[u]? = some x) (hne : ∀ e, x.phase ≠ .ended e)
include hx

theorem endedWith_setPhase_self (e : Ending) : (l.setPhase u (.ended e)).EndedWith u e :=
  ⟨{ x with phase := .ended e }, by simp [setPhase, getElem?_changeTask, hx], rfl⟩

theorem isMember_setPhase_iff : (l.setPhase u p).IsMember t m ↔ l.IsMember t m := by
  unfold IsMember
  rw [setPhase, getElem?_changeTask]
  by_cases hu : u = m
  · subst hu
    simp [hx]
  · simp [hu]

include hne

theorem not_endedWith (e : Ending) : ¬ l.EndedWith u e := by
  rintro ⟨y, hy, he⟩
  rw [hx, Option.some.injEq] at hy
  exact hne e (hy ▸ he)

theorem endedWith_setPhase_of_ne {e : Ending} (he : p ≠ .ended e) :
    (l.setPhase u p).EndedWith m e ↔ l.EndedWith m e := by
  by_cases hu : m = u
  · subst hu
    simp [EndedWith, Loop.setPhase, getElem?_changeTask, hx, hne, he]
  · exact endedWith_setPhase_other hu

/-- A task is moved to a phase in which no news comes of it, and if it gathers, its count is right. -/
theorem Tallied.setPhase (h : l.Tallied) (hg : ∀ g, p = .gathering g → l.Tally u g)
    (he : (∀ e, p ≠ .ended e) ∨ ∃ c, x.job = .lint c) : (l.setPhase u p).Tallied := by
  have member (t m : TaskId) : (l.setPhase u p).IsMember t m ↔ l.IsMember t m :=
    isMember_setPhase_iff hx
  have ended (t m : TaskId) (e : Ending) (hm : l.IsMember t m) :
      (l.setPhase u p).EndedWith m e ↔ l.EndedWith m e := by
    rcases he with he | ⟨c, hc⟩
    · exact endedWith_setPhase_of_ne hx hne (he e)
    · refine endedWith_setPhase_other ?_
      rintro rfl
      obtain ⟨y, d, hy, hd, _⟩ := hm
      rw [hx, Option.some.injEq] at hy
      simp [← hy, hc] at hd
  constructor
  · exact h.once
  · intro t m hm
    obtain ⟨own, e, he⟩ := h.news t m hm
    exact ⟨(member t m).mpr own, e, (ended t m e own).mpr he⟩
  · intro t y g hy hyg
    refine Tally.agree (l := l) ?_ (.of_ended (member t) (ended t) fun _ => .rfl)
    rw [Loop.setPhase, getElem?_changeTask] at hy
    split at hy
    · subst t
      obtain ⟨z, _, rfl⟩ := Option.map_eq_some_iff.mp hy
      exact hg g hyg
    · exact h.tally t y g hy hyg

theorem Tallied.endDispatch (h : l.Tallied) {d : Dispatch} (hd : x.job = .dispatch d) (e : Ending) :
    ((l.setPhase u (.ended e)).enqueue (.memberEnded d.round u)).Tallied := by
  let l' := (l.setPhase u (.ended e)).enqueue (.memberEnded d.round u)
  have member (t m : TaskId) : l'.IsMember t m ↔ l.IsMember t m := isMember_setPhase_iff hx
  have own : l.IsMember d.round u := ⟨x, d, hx, hd, rfl⟩
  have going (e' : Ending) : ¬ l.EndedWith u e' := not_endedWith hx hne e'
  have ends : l'.EndedWith u e := endedWith_setPhase_self hx e
  have other {m : TaskId} (hu : m ≠ u) (e' : Ending) : l'.EndedWith m e' ↔ l.EndedWith m e' :=
    endedWith_setPhase_other hu
  have ended {m : TaskId} {e' : Ending} (he : l.EndedWith m e') : l'.EndedWith m e' := by
    by_cases hu : m = u
    · exact absurd (hu ▸ he) (going e')
    · exact (other hu e').mpr he
  constructor
  · intro t m
    show (l.ready ++ [Ready.memberEnded d.round u]).count (.memberEnded t m) ≤ 1
    by_cases hm : d.round = t ∧ u = m
    · obtain ⟨rfl, rfl⟩ := hm
      have unsaid : .memberEnded d.round u ∉ l.ready := fun hq => by
        obtain ⟨_, e', he'⟩ := h.news _ _ hq
        exact going e' he'
      simp [List.count_append, List.count_eq_zero_of_not_mem unsaid]
    · simpa [List.count_append, List.count_singleton, hm] using h.once t m
  · intro t m hm
    rcases List.mem_append.mp hm with hm | hm
    · obtain ⟨hm, e', he'⟩ := h.news t m hm
      exact ⟨(member t m).mpr hm, e', ended he'⟩
    · obtain ⟨rfl, rfl⟩ := by simpa using hm
      exact ⟨(member _ _).mpr own, e, ends⟩
  · intro t y g hy hyg
    have hg : l.Tally t g := by
      rw [tasks_enqueue, Loop.setPhase, getElem?_changeTask] at hy
      split at hy
      · obtain ⟨z, _, rfl⟩ := Option.map_eq_some_iff.mp hy
        cases hyg
      · exact h.tally t y g hy hyg
    refine hg.agree ⟨member t, fun m e' _ => ended, fun m hm => ?_⟩
    by_cases hu : m = u
    · -- its news is queued as it ends, so it was not reported before and is not now
      subst hu
      obtain ⟨y, d', hy, hd', hr⟩ := hm
      rw [hx, Option.some.injEq] at hy
      subst hy
      obtain rfl := Job.dispatch.inj (hd.symm.trans hd')
      constructor
      · rintro ⟨_, hq⟩
        exact absurd (List.mem_append_right _ (by simp [hr])) hq
      · rintro ⟨⟨e', he'⟩, _⟩
        exact absurd he' (going e')
    · rw [exists_congr (other hu)]
      have queued : Ready.memberEnded t m ∈ l'.ready ↔ .memberEnded t m ∈ l.ready := by
        show Ready.memberEnded t m ∈ l.ready ++ [.memberEnded d.round u] ↔ _
        simp [hu]
      rw [queued]

end turn

section hear
variable {rest : List Ready} (hr : l.ready = .memberEnded t u :: rest)
include hr

/-- With the news of a member's end gone from the queue, that member is reported too. -/
theorem Tally.hear (h : l.Tally t g) {e : Ending} (unsaid : .memberEnded t u ∉ rest)
    (own : l.IsMember t u) (he : l.EndedWith u e) :
    Tally { l with ready := rest } t (g.afterMember e) := by
  let l₀ : Loop := { l with ready := rest }
  have hu : u ∈ g.members := (h.mem_iff u).mpr own
  have other {m : TaskId} (hm : m ≠ u) : .memberEnded t m ∈ rest ↔ .memberEnded t m ∈ l.ready := by
    simp [hr, hm]
  have now : u ∈ l₀.reported t g.members :=
    List.mem_filter.mpr ⟨hu, by simpa [l₀] using ⟨(hasEnded_iff own).mpr ⟨e, he⟩, unsaid⟩⟩
  have before {m : TaskId} (hm : m ∈ l₀.reported t g.members) (hmu : m ≠ u) :
      m ∈ l.reported t g.members := by
    have ended : l₀.hasEnded m = l.hasEnded m := rfl
    simpa [reported, ended, l₀, other hmu] using hm
  have count : (l₀.reported t g.members).length = g.ended + 1 := by
    rw [h.count]
    refine length_filter_succ h.distinct hu ?_ (List.mem_filter.mp now).2 fun m _ hm => ?_
    · simp [hr]
    · rw [Bool.eq_iff_iff]
      simp [l₀, hasEnded, other hm]
  rw [← g.members_afterMember e] at count
  refine ⟨?_, ?_, (g.ended_afterMember e).trans count.symm, ?_, ?_⟩
  · rw [g.members_afterMember]
    exact h.distinct
  · rw [g.members_afterMember]
    exact h.mem_iff
  · intro hg m hm
    rw [g.members_afterMember] at hm
    obtain ⟨open_, b, rfl⟩ := Gathering.outcome_afterMember_none hg
    by_cases hmu : m = u
    · exact ⟨b, hmu ▸ he⟩
    · exact h.undecided open_ m (before hm hmu)
  · intro hg m hm
    rw [g.members_afterMember] at hm count
    rcases Gathering.outcome_afterMember_ok hg with went | ⟨open_, ⟨b, rfl⟩, last⟩
    · exact h.success went m hm
    · have all := List.length_filter_eq_length_iff.mp (count.trans last) m hm
      by_cases hmu : m = u
      · exact ⟨b, hmu ▸ he⟩
      · exact h.undecided open_ m (before (List.mem_filter.mpr ⟨hm, all⟩) hmu)

/-- A lint hears of the end of a member: it counts it, and its news is no longer queued. -/
theorem Tallied.hear (h : l.Tallied) : (Loop.memberEnded { l with ready := rest } t u).Tallied := by
  let l₀ : Loop := { l with ready := rest }
  have unsaid : .memberEnded t u ∉ rest := by
    have once := h.once t u
    rw [hr, List.count_cons_self] at once
    exact List.count_eq_zero.mp (by omega)
  have later {t' m : TaskId} (hm : .memberEnded t' m ∈ rest) : .memberEnded t' m ∈ l.ready :=
    hr ▸ List.mem_cons_of_mem _ hm
  have once (t' m : TaskId) : rest.count (.memberEnded t' m) ≤ 1 :=
    Nat.le_trans (by rw [hr]; exact List.count_le_count_cons ..) (h.once t' m)
  have elsewhere {t' : TaskId} {y : Task} {g : Gathering} (ht : t' ≠ t)
      (hy : l.tasks[t']? = some y) (hg : y.phase = .gathering g) : l₀.Tally t' g :=
    (h.tally t' y g hy hg).agree (Keeps.agree (.of_tasks_eq rfl) fun m => by simp [l₀, hr, ht])
  obtain ⟨own, e, he⟩ := h.news t u (hr ▸ List.mem_cons_self)
  have ended : l₀.tasks[u]?.map Task.phase = some (.ended e) := by
    obtain ⟨y, hy, hye⟩ := he
    show l.tasks[u]?.map _ = _
    rw [hy, Option.map_some, hye]
  unfold Loop.memberEnded
  rw [ended]
  split
  · rename_i g e' hg he'
    obtain rfl := Phase.ended.inj (Option.some.inj he')
    obtain ⟨x, hx, hxg⟩ := Option.map_eq_some_iff.mp hg
    have hne (e : Ending) : x.phase ≠ .ended e := by simp [hxg]
    have counted : (l₀.setPhase t (.gathering (g.afterMember e))).Tallied := by
      have member (t' m : TaskId) :
          (l₀.setPhase t (.gathering (g.afterMember e))).IsMember t' m ↔ l₀.IsMember t' m :=
        isMember_setPhase_iff (l := l₀) hx
      have same (m : TaskId) (e' : Ending) :
          (l₀.setPhase t (.gathering (g.afterMember e))).EndedWith m e' ↔ l₀.EndedWith m e' :=
        endedWith_setPhase_of_ne (l := l₀) hx hne nofun
      constructor
      · exact once
      · intro t' m hm
        obtain ⟨own, e', he'⟩ := h.news t' m (later hm)
        exact ⟨(member t' m).mpr own, e', (same m e').mpr he'⟩
      · intro t' y g' hy hg'
        rw [Loop.setPhase, getElem?_changeTask] at hy
        have agree := Agree.of_ended (member t') (fun m e' _ => same m e') fun _ => .rfl
        split at hy
        · subst t'
          obtain ⟨z, _, rfl⟩ := Option.map_eq_some_iff.mp hy
          obtain rfl := Phase.gathering.inj hg'
          exact ((h.tally t x g hx hxg).hear hr unsaid own he).agree agree
        · exact (elsewhere (Ne.symm ‹_›) hy hg').agree agree
    dsimp only
    split
    · exact counted.advances (.of_tasks_eq rfl [t] rfl)
    · exact counted
  · rename_i hn
    refine ⟨once, fun t' m hm => h.news t' m (later hm), fun t' y g hy hg => ?_⟩
    refine elsewhere ?_ hy hg
    rintro rfl
    exact hn g e (by show l.tasks[t']?.map _ = _; rw [hy, Option.map_some, hg]) rfl

end hear

theorem ready_spawnAll (ds : List Dispatch) :
    ∃ ts : List TaskId, (l.spawnAll ds).ready = l.ready ++ ts.map Ready.step := by
  unfold spawnAll
  induction ds generalizing l with
  | nil => exact ⟨[], by simp⟩
  | cons d ds ih =>
    obtain ⟨ts, hts⟩ := ih (l := l.spawn none (.dispatch d))
    exact ⟨l.tasks.size :: ts, by rw [List.foldl_cons, hts]; simp [spawn, enqueue]⟩

section gather
variable {ds : List Dispatch} (round : ∀ d ∈ ds, d.round = t)
include round

theorem isMember_spawnAll_iff : (l.spawnAll ds).IsMember u m ↔
    l.IsMember u m ∨ u = t ∧ ∃ i < ds.length, m = l.tasks.size + i := by
  constructor
  · rintro ⟨y, d, hy, hd, rfl⟩
    rcases l.back_spawnAll hy with hy | ⟨i, d', hi, hm, rfl⟩
    · exact .inl ⟨y, d, hy, hd, rfl⟩
    · obtain rfl := Job.dispatch.inj hd
      exact .inr ⟨round d' (List.mem_of_getElem? hi), i, (List.getElem?_eq_some_iff.mp hi).1, hm⟩
  · rintro (⟨y, d, hy, hd, hr⟩ | ⟨rfl, i, hi, rfl⟩)
    · exact ⟨y, d, l.forth_spawnAll ds hy, hd, hr⟩
    · refine ⟨{ name := none, job := .dispatch ds[i] }, ds[i], ?_, rfl, round _ (List.getElem_mem hi)⟩
      rw [tasks_spawnAll, Array.getElem?_append_right (Nat.le_add_right ..)]
      simp [hi]

omit round in
theorem endedWith_spawnAll_iff {e : Ending} :
    (l.spawnAll ds).EndedWith m e ↔ l.EndedWith m e := by
  constructor
  · rintro ⟨y, hy, he⟩
    rcases l.back_spawnAll hy with hy | ⟨_, _, _, _, rfl⟩
    · exact ⟨y, hy, he⟩
    · cases he
  · rintro ⟨y, hy, he⟩
    exact ⟨y, l.forth_spawnAll ds hy, he⟩

variable (hx : l.tasks[t]? = some x) (running : x.phase = .running)
include hx running

theorem Tallied.spawnAll (h : l.Tallied) : (l.spawnAll ds).Tallied := by
  obtain ⟨ts, hts⟩ := l.ready_spawnAll ds
  have queued (t' m : TaskId) :
      .memberEnded t' m ∈ (l.spawnAll ds).ready ↔ .memberEnded t' m ∈ l.ready := by simp [hts]
  constructor
  · intro t' m
    rw [hts, count_append_steps]
    exact h.once t' m
  · intro t' m hm
    obtain ⟨own, e, he⟩ := h.news t' m ((queued t' m).mp hm)
    exact ⟨(isMember_spawnAll_iff round).mpr (.inl own), e, endedWith_spawnAll_iff.mpr he⟩
  · intro t' y g hy hg
    rcases l.back_spawnAll hy with hy | ⟨_, _, _, _, rfl⟩
    · have other : t' ≠ t := by
        rintro rfl
        rw [hx, Option.some.injEq] at hy
        simp [← hy, running] at hg
      refine (h.tally t' y g hy hg).agree (.of_ended (fun m => ?_)
        (fun _ _ _ => endedWith_spawnAll_iff) (queued t'))
      simp [isMember_spawnAll_iff round, other]
    · cases hg

/-- A round is gathered: its members are there, and none has ended. -/
theorem Tallied.gather (h : l.Tallied)
    (barren : ∀ m, ¬ l.IsMember t m) : (l.gather t ds).Tallied := by
  let members := (List.range ds.length).map fun n => l.tasks.size + n
  let g : Gathering := { members, cancelRequested := l.isCancelPending t }
  have mem_iff (m : TaskId) : m ∈ members ↔ (l.spawnAll ds).IsMember t m := by
    rw [isMember_spawnAll_iff round]
    simp [members, barren, eq_comm]
  have unreported : (l.spawnAll ds).reported t members = [] := by
    refine List.filter_eq_nil_iff.mpr fun m hm => ?_
    have going : (l.spawnAll ds).hasEnded m = false := by
      rw [Bool.eq_false_iff]
      intro he
      obtain ⟨e, y, hy, _⟩ := (hasEnded_iff ((mem_iff m).mp hm)).mp he |>.imp fun e he =>
        endedWith_spawnAll_iff.mp he
      obtain ⟨i, _, rfl⟩ := List.mem_map.mp hm
      have := (Array.getElem?_eq_some_iff.mp hy).1
      omega
    simp [going]
  have tally : (l.spawnAll ds).Tally t g := by
    refine ⟨?_, mem_iff, ?_, ?_, nofun⟩
    · exact List.nodup_range.map fun _ _ h => Nat.add_left_cancel h
    · exact (congrArg List.length unreported).symm
    · intro _ m hm
      rw [unreported] at hm
      cases hm
  have gathers : ((l.spawnAll ds).setPhase t (.gathering g)).Tallied := by
    refine (h.spawnAll round hx running).setPhase (l.forth_spawnAll ds hx) (by simp [running]) ?_
      (.inl nofun)
    intro g' hg
    exact Phase.gathering.inj hg ▸ tally
  unfold Loop.gather
  dsimp only
  split
  · exact gathers.advances ((advances_passCancellation _ t).trans (advances_cancelMembers _ _))
  · exact gathers

end gather

theorem Tallied.wake (h : l.Tallied) (hx : l.tasks[t]? = some x) (hne : ∀ e, x.phase ≠ .ended e) :
    (l.wake t).Tallied :=
  (h.setPhase hx hne (fun _ hg => by cases hg) (.inl fun _ he => by cases he)).advances
    (l.advances_wake t)

theorem Tallied.pause (h : l.Tallied) (hx : l.tasks[t]? = some x) (running : x.phase = .running)
    (next : Except Failure Unit → Reply) : (l.pause t next).Tallied :=
  (h.setPhase hx (by simp [running]) (fun _ hg => by cases hg) (.inl fun _ he => by cases he)).advances
    (l.advances_pause t next)

theorem Tallied.await (h : l.Tallied) (hx : l.tasks[t]? = some x) (running : x.phase = .running)
    (r : RequestId) (next : Except Failure Value → Reply) : (l.await t r next).Tallied :=
  (h.setPhase hx (by simp [running]) (fun _ hg => by cases hg) (.inl fun _ he => by cases he)).advances
    (l.advances_await t r next)

/-- A task that runs ends; if it makes a dispatch, that is news for its round. -/
theorem Tallied.finish (h : l.Tallied) (hx : l.tasks[t]? = some x) (running : x.phase = .running)
    (e : Ending) : (l.finish t e).Tallied := by
  have hne (e : Ending) : x.phase ≠ .ended e := by simp [running]
  have ended : l.changeTask t (fun task => { task with phase := .ended e, cancelPending := false }) =
      (l.setPhase t (.ended e)).passCancellation t := by
    rw [passCancellation, Loop.setPhase, changeTask_changeTask]
  unfold Loop.finish
  rw [ended]
  have job : (((l.setPhase t (.ended e)).passCancellation t).tasks[t]?.map Task.job) = some x.job := by
    rw [passCancellation, Loop.setPhase, changeTask_changeTask, getElem?_changeTask, hx]
    simp
  simp only [job]
  cases hj : x.job with
  | lint c =>
    have counts : (l.setPhase t (.ended e)).Tallied := by
      refine h.setPhase hx hne ?_ (.inr ⟨c, hj⟩)
      intro g hg
      simp at hg
    exact counts.advances (advances_passCancellation _ t)
  | dispatch d => exact (h.endDispatch hx hne hj e).advances (advances_passCancellation _ t)

end Loop
end LintBroker

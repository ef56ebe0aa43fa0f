import LintBroker.Proofs.Readings

/-!
# What stays along a path

A task keeps its job, and once it has ended it stays so. A dispatch that has entered never goes back,
and one whose task has ended goes no further. A lint that has ended without a task for any dispatch
never gets one.
-/
namespace LintBroker
namespace Session
variable {s s' : Session} {t : TaskId} {k : DispatchKey} {x : Stage}

theorem Path.task (h : s.Path s') {z : Task} (hz : s.loop.tasks[t]? = some z) :
    ∃ w, s'.loop.tasks[t]? = some w ∧ w.job = z.job ∧
      (z.cancelling = true → w.cancelling = true) := by
  induction h with
  | refl => exact ⟨z, hz, rfl, id⟩
  | tail _ step ih =>
    obtain ⟨w, hw, hj, hc⟩ := ih
    obtain ⟨v, hv, hj', hc', _⟩ := step.task hw
    exact ⟨v, hv, hj'.trans hj, fun hz => hc' (hc hz)⟩

theorem Step.ended (h : s.Step s') {z : Task} {e : Ending} (hz : s.loop.tasks[t]? = some z)
    (he : z.phase = .ended e) : ∃ w, s'.loop.tasks[t]? = some w ∧ w.phase = .ended e := by
  obtain ⟨w, hw, _, _, turn⟩ := h.task hz
  refine ⟨w, hw, ?_⟩
  cases turn with
  | keeps hk => rw [hk.phase_eq (by simp [he]), he]
  | wakes _ before => exact absurd he (before e)
  | waits before | gathers before | ends before =>
    rw [he] at before
    cases before

theorem Path.hasEnded (h : s.Path s') (he : s.HasEnded t) : s'.HasEnded t := by
  induction h with
  | refl => exact he
  | tail _ step ih =>
    obtain ⟨z, e, hz, he⟩ := ih
    obtain ⟨w, hw, hwe⟩ := step.ended hz he
    exact ⟨w, e, hw, hwe⟩

/-- A dispatch that has gone beyond its beginning never goes back. -/
theorem Step.beyond (h : s.Step s') (c : s.Coherent) (hx : s.Stands k x) (hb : x.Beyond) :
    ∃ y, s'.Stands k y ∧ y.Beyond := by
  rcases h.history c with hu | ⟨e, d, m, z, y, hJ, hm, hz, hy, _⟩
  · exact ⟨x, (hu.life_eq k).trans hx, hb⟩
  · by_cases hk : d.key = k
    · subst hk
      obtain rfl := hz.unique hx
      refine ⟨y, by rw [Stands, hJ, life_concat_self hm, hx, hy], ?_⟩
      cases z <;> cases y <;> simp_all [Stage.marks, Stage.Beyond]
    · exact ⟨x, by rw [Stands, hJ, life_concat_other hm hk, hx], hb⟩

theorem Path.beyond (h : s.Path s') (c : s.Coherent) (hx : s.Stands k x) (hb : x.Beyond) :
    ∃ y, s'.Stands k y ∧ y.Beyond := by
  induction h with
  | refl => exact ⟨x, hx, hb⟩
  | tail path step ih =>
    obtain ⟨y, hy, hyb⟩ := ih
    exact step.beyond (c.path path) hy hyb

/-- A dispatch whose task has ended goes no further. -/
theorem Path.stands_of_ended (h : s.Path s') (c : s.Coherent) {z : Task} {d : Dispatch} {e : Ending}
    (hz : s.loop.tasks[t]? = some z) (hd : z.job = .dispatch d) (he : z.phase = .ended e)
    (hx : s.Stands d.key x) : s'.Stands d.key x := by
  have all : s'.Stands d.key x ∧ ∃ w, s'.loop.tasks[t]? = some w ∧ w.job = .dispatch d ∧
      w.phase = .ended e := by
    induction h with
    | refl => exact ⟨hx, z, hz, hd, he⟩
    | tail path step ih =>
      obtain ⟨hx, w, hw, hwd, hwe⟩ := ih
      obtain ⟨y, hy, fits⟩ := (c.path path).fits hw hwd
      obtain rfl := hy.unique hx
      obtain ⟨v, hv, hve⟩ := step.ended hw hwe
      obtain ⟨v', hv', hvj, _⟩ := step.task hw
      rw [hv, Option.some.injEq] at hv'
      subst hv'
      refine ⟨?_, v, hv, hvj.trans hwd, hve⟩
      rcases (c.path path).stands_step step hw hwd hy fits with hs | ⟨runs, _⟩
      · exact hs
      · have := (runs.phase hw).1
        rw [hwe] at this
        cases this
  exact all.1

/-- A lint that has ended without a task for any dispatch never gets one. -/
theorem Path.barren_of_ended (h : s.Path s') (he : s.HasEnded t) (hb : s.Barren t) :
    s'.Barren t := by
  induction h with
  | refl => exact hb
  | @tail v w path step ih =>
    intro u y d hy hd hr
    rcases step.dispatch_task hy hd with ⟨z, hz, hzd, _⟩ | ⟨_, _, runs, _⟩
    · exact ih u z d hz hzd hr
    · obtain ⟨z, e, hz, hze⟩ := Path.hasEnded path he
      have := (runs.phase (hr ▸ hz)).1
      rw [hze] at this
      cases this

end Session
end LintBroker

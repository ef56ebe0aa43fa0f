import LintBroker.Proofs.Faults
import LintBroker.Proofs.Silence
import LintBroker.Proofs.UpdateOrder
import LintBroker.Proofs.Waiting

/-!
# Disposal is final

Once the registry has been disposed, at whatever moment of whatever turn, it stays so: nobody is
registered, every record is out of force, and no provider can be added. No emission that starts then
calls anyone, no answer is surfaced, and a lint ends with false in its first turn, without a question
to anyone. To dispose the registry again or to end a subscription makes no difference to anybody.
-/
namespace LintBroker

/-- The registry has been disposed: nobody is registered, and every record is out of force. -/
structure Registry.Over (r : Registry) : Prop where
  disposed : r.disposed = true
  providers : r.providers = []
  records : ∀ (id : RecordId) (x : Record Nat), r.records[id]? = some x → x.activated = false

namespace Registry.Over
variable {r : Registry} (h : r.Over)
include h

theorem find?_eq_none (p : ProviderId) : r.find? p = none :=
  r.find?_eq_none_iff.mpr (h.providers ▸ List.not_mem_nil)

theorem active : r.active = ∅ := by
  have rows : r.active.rows = [] := List.map_eq_nil_iff.mp h.providers
  cases hr : r.active with
  | mk rows' =>
    rw [hr] at rows
    obtain rfl : rows' = [] := rows
    rfl

/-- Disposing again changes at most the bus. -/
theorem dispose : r.dispose = { r with bus := r.bus.dispose } := by
  simp [Registry.dispose, h.active, h.disposed, Table.values, EmptyCollection.emptyCollection]

theorem changeRecord {id : RecordId} {f : Record Nat → Record Nat}
    (hf : ∀ x, (f x).activated = x.activated) : (r.changeRecord id f).Over := by
  refine ⟨h.disposed, h.providers, fun i y hy => ?_⟩
  rw [getElem?_changeRecord] at hy
  split at hy
  · obtain ⟨x, hx, rfl⟩ := Option.map_eq_some_iff.mp hy
    exact (hf x).trans (h.records i x hx)
  · exact h.records i y hy

end Registry.Over

theorem Registry.Sound.over_dispose {r : Registry} (h : r.Sound) : r.dispose.Over := by
  refine ⟨rfl, rfl, fun id x hx => ?_⟩
  cases ha : x.activated with
  | false => rfl
  | true =>
    have found := h.dispose.inForce hx ha
    cases found

namespace Session
variable {s s' u : Session} {t : TaskId}

/-! ### The registry -/

theorem Change.over (h : s.Change s') (closed : s.registry.Over) : s'.registry.Over := by
  cases h with
  | register c usable => exact absurd usable (by simp [closed.disposed])
  | remove hp => exact absurd hp (by simp [closed.find?_eq_none])
  | bus b => exact ⟨closed.disposed, closed.providers, closed.records⟩
  | dispose =>
    show s.registry.dispose.Over
    rw [closed.dispose]
    exact ⟨closed.disposed, closed.providers, closed.records⟩
  | _ => exact closed

theorem Step.over (h : s.Step s') (closed : s.registry.Over) : s'.registry.Over := by
  cases h with
  | change h => exact h.over closed
  | opens => exact closed.changeRecord fun _ => rfl
  | accepts => exact closed.changeRecord fun _ => rfl
  | _ => exact closed

theorem Path.over (h : s.Path s') (closed : s.registry.Over) : s'.registry.Over := by
  induction h with
  | refl => exact closed
  | tail _ step ih => exact step.over ih

/-- The step that writes of a disposal disposes the registry. -/
theorem Step.disposed (h : s.Step s') (hJ : s'.history = s.history ++ [.disposed]) :
    s' = (s.onRegistry Registry.dispose).noted .disposed := by
  have other {e : Entry} (he : s.history ++ [e] = s.history ++ [.disposed]) : e = .disposed := by
    simpa using he
  have nothing (he : s.history = s.history ++ [.disposed]) : False := by simp at he
  cases h with
  | change h =>
    cases h with
    | dispose => rfl
    | @note e plain =>
      obtain rfl := other ((history_noted s e).symm.trans hJ)
      cases plain
    | reshape | alter | register | remove =>
      exact nomatch other ((history_noted _ _).symm.trans hJ)
    | _ => exact (nothing hJ).elim
  | opens | begins | enters | invokes | answers | accepts | surfaces | closes =>
    exact nomatch other ((history_noted _ _).symm.trans hJ)
  | _ => exact (nothing hJ).elim

/-- Since it was disposed the registry is over. -/
theorem over_of_disposed (h : s.opening.Path u) (disposed : .disposed ∈ u.history) :
    u.registry.Over := by
  obtain ⟨J₁, J₂, hJ⟩ := List.append_of_mem disposed
  obtain ⟨v, w, hv, step, rest, hJv, hJw⟩ := h.split hJ (Nat.zero_le _)
  have done := step.disposed (hJv ▸ hJw)
  have sound := (s.coherent_opening.path hv).sound
  refine Path.over rest ?_
  rw [done]
  exact sound.over_dispose

theorem perform_add_over (closed : s.registry.Over) (p : ProviderId) (legacy : Bool) :
    s.perform (.add p legacy) = (.error .registryDisposed, s) := by
  have fails : (Broker.addProvider p legacy).exec s = (.error .registryDisposed, s) := by
    unfold Broker.addProvider
    rw [Act.exec_bind_ok Act.exec_get]
    simp [closed.disposed]
  show (Act.perform (.add p legacy)).exec s = _
  unfold Act.perform Act.nothing
  rw [Act.exec_bind_error fails]

/-- Once the registry is over no dispatch is opened and no answer is surfaced. -/
theorem nothing_of_over (h : s.Path s') (closed : s.registry.Over) {J : List Entry}
    (hJ : s'.history = s.history ++ J) (d : Dispatch) :
    .dispatched d ∉ J ∧ ∀ n, n.kind = .update → .emitted d n ∉ J := by
  refine ⟨fun hm => ?_, fun n hn hm => ?_⟩
  · obtain ⟨u, v, hu, step, _, hJv⟩ := h.later hJ hm
    obtain ⟨x, hx, ha, _⟩ := step.opened hJv
    rw [(Path.over hu closed).records _ x hx] at ha
    cases ha
  · obtain ⟨u, v, hu, step, _, hJv⟩ := h.later hJ hm
    obtain ⟨x, _, hx, ha, _⟩ := step.update hJv hn
    rw [(Path.over hu closed).records _ x hx] at ha
    cases ha

/-! ### Lints -/

/-- In its first turn a lint that finds the registry disposed ends with false, or as cancelled if it
was cancelled before. Nothing else changes, whatever the host is like: nobody was asked. -/
theorem tick_lint_over (gone : s.registry.disposed = true) {rest : List Ready} {x : Task}
    {c : EditContext} (hr : s.loop.ready = .step t :: rest) (hx : s.loop.tasks[t]? = some x)
    (hj : x.job = .lint c) (fresh : x.phase = .fresh) :
    s.tick = (s.woken t).onLoop fun l =>
      l.finish t (if x.cancelPending then .cancelled else .value false) := by
  rw [tick_step hr hx]
  cases asked : x.cancelPending with
  | true =>
    rw [resume_cancelled fresh asked]
    rfl
  | false =>
    rw [resume_lint fresh hj asked]
    have start : (Round.start t c).exec (s.woken t) = (.ok none, s.woken t) := by
      have gone' : (s.woken t).registry.disposed = true := gone
      unfold Round.start
      rw [Act.exec_bind_ok Act.exec_get]
      simp [gone']
    have unasked : (s.woken t).loop.isCancelPending t = false := by
      simp [woken, Loop.isCancelPending, Loop.wake, Loop.getElem?_changeTask, hx]
    rw [run_startLint, start]
    show (s.woken t).onLoop (fun l => l.finish t (endingOf (l.isCancelPending t) (.ok false))) = _
    rw [onLoop, onLoop, unasked]
    rfl

/-- A lint that has not started when the registry is disposed ends with false, unless it is cancelled,
after as many ticks as stand before it in the queue. -/
theorem lint_over_ends (start : Session) (moves : List Move)
    (gone : (start.opening.run moves).registry.Over) {x : Task} {c : EditContext}
    (hx : (start.opening.run moves).loop.tasks[t]? = some x) (hj : x.job = .lint c)
    (fresh : x.phase = .fresh) {more : List Move}
    (enough : (start.opening.run moves).loop.ready.length ≤ ticks more) :
    ∃ y, ((start.opening.run moves).run more).loop.tasks[t]? = some y ∧
      (y.phase = .ended (.value false) ∨ y.phase = .ended .cancelled ∧ y.cancelling = true) := by
  have comes := start.comes_opening moves
  have c₀ := start.coherent_opening.path comes.path
  have due := start.remembers_run moves t x hx
  rw [fresh] at due
  obtain ⟨before, behind, hr⟩ := List.append_of_mem due
  have stands : before.length < ticks more := by
    have := congrArg List.length hr
    simp only [List.length_append, List.length_cons] at this
    omega
  obtain ⟨soon, later, rest, y, rfl, hr', hy, kept, hp⟩ :=
    first_turn c₀ comes.idle hx fresh hr stands
  have asked := start.asked_run (moves ++ soon)
  have there := comes_run c₀ comes.idle soon
  have c₁ := c₀.path there.path
  have next := comes_tick c₁ there.idle
  have after := comes_run (c₁.path next.path) next.idle later
  have job : y.job = .lint c := kept.job.trans hj
  have turn := tick_lint_over (Path.over there.path gone).disposed hr' hy job hp
  rw [show start.opening.run (moves ++ soon) = (start.opening.run moves).run soon from
    List.foldl_append] at asked
  generalize start.opening.run moves = last at *
  have whole : last.run (soon ++ .tick :: later) = ((last.run soon).tick).run later :=
    List.foldl_append
  rw [whole]
  -- the task ends in this turn, and how it ended stays
  let e : Ending := if y.cancelPending then .cancelled else .value false
  have ended : ∃ z, (last.run soon).tick.loop.tasks[t]? = some z ∧ z.phase = .ended e ∧
      (y.cancelling = true → z.cancelling = true) := by
    obtain ⟨z, hz, _, hk⟩ := (Loop.keeps_finish ((last.run soon).woken t).loop t e).forth_turned
      (u := t) (x := { y with phase := .running, cancelPending := false })
      (by simp [woken, Loop.wake, Loop.getElem?_changeTask, hy])
    refine ⟨z, ?_, (hk rfl).phase_eq (by simp), (hk rfl).cancelling⟩
    rw [turn]
    exact hz
  obtain ⟨z, hz, hze, cancelling⟩ := ended
  obtain ⟨w, hw, _, hwe⟩ := Path.ended after.path hz hze
  obtain ⟨w', hw', _, asks⟩ := Path.task after.path hz
  obtain rfl := Option.some.inj (hw.symm.trans hw')
  refine ⟨w, hw, ?_⟩
  cases hc : y.cancelPending with
  | true => exact .inr ⟨by simp [hwe, e, hc], asks (cancelling (asked t y hy hc))⟩
  | false => exact .inl (by simp [hwe, e, hc])

end Session

/-! ### Doing it again -/

/-- What ends listening: the registry is disposed, or a subscription is ended. -/
def Action.EndsListening : Action → Prop
  | .dispose | .unsubscribe _ => True
  | _ => False

namespace Session
variable {s u last : Session}

theorem mirrors_self (s : Session) : s.Mirrors s where
  host := ⟨rfl, rfl, fun l => by
    cases s.host.listeners.get? l with
    | none => exact .none
    | some x => exact .some (.inl rfl), rfl, rfl, rfl⟩
  source := rfl
  template := rfl
  settings := rfl
  registry := .refl _
  loop := .refl (fun _ => rfl) _
  history := rfl

theorem mirrors_noted {f : Registry → Registry} (alike : s.registry.Alike (f s.registry)) {e : Entry}
    (uneventful : e.isEvent = false) : s.Mirrors ((s.onRegistry f).noted e) :=
  { mirrors_self s with
    registry := alike
    history := by simp [uneventful] }

/-- Once the registry is over and its bus disposed, to dispose it again or to end a subscription
makes no difference, from wherever it is done. -/
theorem mirrors_endListening (closed : s.registry.Over) (silent : s.registry.bus.disposed = true)
    {a : Action} (ends : a.EndsListening) :
    (s.perform a).1 = .ok (.value .none) ∧ s.Mirrors (s.perform a).2 := by
  cases a with
  | dispose =>
    have alike : s.registry.Alike s.registry.dispose := by
      rw [closed.dispose]
      exact ⟨rfl, rfl, rfl, .inr ⟨silent, rfl⟩⟩
    exact ⟨rfl, (mirrors_noted alike rfl).lines (refl s) (lines_noted rfl _)⟩
  | unsubscribe token =>
    cases hx : s.host.subscriptions.get? token with
    | none =>
      have same : s.perform (.unsubscribe token) = (.ok (.value .none), s) := by
        show (Act.perform (.unsubscribe token)).exec s = _
        simp [Act.perform, Act.nothing, Act.unsubscribe, Act.exec_bind, hx]
      rw [same]
      exact ⟨rfl, mirrors_self s⟩
    | some x =>
      have made : s.perform (.unsubscribe token) = (.ok (.value .none), (s.onRegistry fun r =>
          { r with bus := r.bus.unsubscribe x }).noted (.unsubscribed x)) := by
        show (Act.perform (.unsubscribe token)).exec s = _
        simp [Act.perform, Act.nothing, Act.unsubscribe, Act.exec_bind, hx, Except.map]
      rw [made]
      exact ⟨rfl, mirrors_noted (f := fun r => { r with bus := r.bus.unsubscribe x })
        ⟨rfl, rfl, rfl, .inr ⟨silent, silent⟩⟩ rfl⟩
  | _ => exact ends.elim

/-! ### What is final -/

/-- The registry has been disposed: it is over, it refuses every provider and stays as it is, and a
lint that has its first turn ends in it without asking anybody. -/
structure Closed (u : Session) : Prop where
  registry : u.registry.Over
  refuses : ∀ p legacy, u.perform (.add p legacy) = (.error .registryDisposed, u)
  declines : ∀ {t : TaskId} {rest : List Ready} {x : Task} {c : EditContext},
    u.loop.ready = .step t :: rest → u.loop.tasks[t]? = some x → x.job = .lint c →
      x.phase = .fresh → u.tick = (u.woken t).onLoop fun l =>
        l.finish t (if x.cancelPending then .cancelled else .value false)

/-- What disposal makes of a run for good, with what the journal holds since. -/
structure Final (start last : Session) (since : List Entry) : Prop where
  /-- The registry is closed at every moment since, whatever is being done. -/
  closed : ∀ u, start.opening.Path u → .disposed ∈ u.history → u.Closed
  /-- Every lint that has not started ends with false, unless it is cancelled. -/
  lints : ∀ {t : TaskId} {x : Task} {c : EditContext} {more : List Move},
    last.loop.tasks[t]? = some x → x.job = .lint c → x.phase = .fresh →
      last.loop.ready.length ≤ ticks more →
        ∃ y, (last.run more).loop.tasks[t]? = some y ∧
          (y.phase = .ended (.value false) ∨ y.phase = .ended .cancelled ∧ y.cancelling = true)
  /-- No emission that started since has called anyone. -/
  hushed : Hushed since
  /-- Nothing was dispatched, and no answer was surfaced. -/
  unsurfaced : ∀ d, .dispatched d ∉ since ∧ ∀ n, n.kind = .update → .emitted d n ∉ since
  /-- To dispose the registry again or to end a subscription makes no difference to what follows. -/
  again : ∀ a : Action, a.EndsListening → (last.perform a).1 = .ok (.value .none) ∧
    ∀ more, (last.run more).Unshaken ((last.perform a).2.run more)

/-- Disposal is final, whenever in a run the registry is disposed. -/
theorem final_of_disposed (s : Session) (moves : List Move) {J₁ J₂ : List Entry}
    (hJ : (s.opening.run moves).history = J₁ ++ .disposed :: J₂) :
    s.Final (s.opening.run moves) J₂ := by
  have path := (s.comes_opening moves).path
  have mem : .disposed ∈ (s.opening.run moves).history :=
    hJ ▸ List.mem_append_right _ List.mem_cons_self
  have gone := over_of_disposed path mem
  refine ⟨fun u hu disposed => ?_, fun hx hj fresh enough => ?_, hushed_of_disposed s moves hJ,
    fun d => ?_, fun a ends => ?_⟩
  · have there := over_of_disposed hu disposed
    exact ⟨there, perform_add_over there, fun hr hx hj => tick_lint_over there.disposed hr hx hj⟩
  · exact lint_over_ends s moves gone hx hj fresh enough
  · obtain ⟨v, w, hv, step, rest, hJv, hJw⟩ := path.split hJ (Nat.zero_le _)
    refine nothing_of_over rest (over_of_disposed (hv.tail step) ?_) ?_ d
    · simp [hJw]
    · rw [hJ, hJw, List.append_assoc]
      rfl
  · obtain ⟨K, history, bus, _⟩ := lasting_run (R := FallsSilent) s.opening moves
    have silent : (s.opening.run moves).registry.bus.disposed = true := by
      rw [bus]
      refine Bus.disposed_replay (.inr ?_)
      rw [history] at mem
      exact mem
    obtain ⟨result, mirrors⟩ := mirrors_endListening gone silent ends
    exact ⟨result, fun more => (mirrors.run more).unshaken⟩

/-- The registry of a sample is disposed while a provider has yet to answer a lint; then it answers,
and another lint is asked for. -/
theorem sample_final :
    let moves := .act (.add "p" false) :: sampleLint ++
      [.act .dispose, .act (.resolve "p" 0 (.list [.int 2])), .act (.subscribe ⟨.update, "c"⟩ "k")] ++
        sampleLint
    let last := (sample []).opening.run moves
    ∃ J₁ J₂, last.history = J₁ ++ .disposed :: J₂ ∧ (sample []).Final last J₂ := by
  intro moves last
  have disposed : (last.history.any fun | .disposed => true | _ => false) = true := by
    decide +kernel
  obtain ⟨e, he, hd⟩ := List.any_eq_true.mp disposed
  obtain rfl : e = .disposed := by cases e <;> first | rfl | cases hd
  obtain ⟨J₁, J₂, hJ⟩ := List.append_of_mem he
  exact ⟨J₁, J₂, hJ, final_of_disposed _ moves hJ⟩

end Session
end LintBroker

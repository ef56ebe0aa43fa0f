import LintBroker.Proofs.RoundWalk

/-!
# The way of a dispatch

Each step of a dispatch's task is a path. The provider is asked and its reply goes on while the
dispatch stays at its stage; when an answer is there it is presented to the registration, perhaps
surfaced, and the end is announced. Whatever fails on the way, the stage that is reached says how far
the answer came, and the session says why it came no further.
-/
namespace LintBroker
open Session Act

namespace Dispatch
variable {s s' : Session} {d : Dispatch} {p : ProviderId} {t : TaskId}
  {r : Except Failure Value}

/-- A reply goes on by actions and requests; the dispatch stays where it is. -/
theorem meanwhile_advance : ∀ (reply : Reply) {s : Session}, s.Runs t (.dispatch d) →
    s.Stands d.key .entered → s.Meanwhile ((advance p t reply).run s).2
  | .value v, s, _, _ => .refl s
  | .fail f, s, _, _ => .refl s
  | .pause next, s, _, _ => .refl s
  | .request next, s, runs, stage =>
    ⟨.single (.requests p runs stage), .of_tasks_eq rfl, fun h _ => h⟩
  | .act a next, s, runs, stage => by
    have act := Changes.meanwhile (changes_perform a s)
    exact act.trans (meanwhile_advance (next _) (runs.keeps act.loop) (act.stands stage nofun))

theorem meanwhile_ask (runs : s.Runs t (.dispatch d)) (stage : s.Stands d.key .entered)
    (hp : s.providerOf d.record = some p) : s.Meanwhile ((ask d p).exec s).2 := by
  unfold ask
  refine exec_bind_read (exec_attributes p s) (.refl s) fun a _ => ?_
  refine exec_bind_read (exec_take _) (.refl s) fun x _ => ?_
  cases x with
  | value v => exact .refl s
  | method =>
    refine exec_bind_read exec_get (.refl s) fun _ hs => ?_
    obtain rfl := Except.ok.inj hs
    cases hx : s.host.providers.get? p with
    | none => exact .refl s
    | some x =>
      refine exec_bind_read (r := .ok x) rfl (.refl s) fun _ _ => ?_
      refine exec_bind_read exec_get (.refl s) fun _ hs => ?_
      obtain rfl := Except.ok.inj hs
      have invokes := Step.invokes
        (s.host.calls.put p ((s.host.calls.get? p).getD 0 + 1)) runs stage hp
      exact ⟨.single invokes, .of_tasks_eq rfl, fun h _ => h.noted_of_none rfl⟩

theorem meanwhile_start (runs : s.Runs t (.dispatch d)) (stage : s.Stands d.key .entered)
    (hp : s.providerOf d.record = some p) : s.Meanwhile ((start d p t).run s).2 := by
  have asked := meanwhile_ask runs stage hp
  rw [start, run_bind_exec]
  obtain ⟨reply, s', ha⟩ | ⟨f, s', ha⟩ := exec_cases (ask d p) s
  · rw [ha] at asked ⊢
    exact asked.trans (meanwhile_advance reply (runs.keeps asked.loop)
      (asked.stands stage nofun))
  · rw [ha] at asked ⊢
    exact asked

/-- What a contained answer is worth. -/
def outcomeOf : Except Failure Value → Outcome
  | .ok v => .messages (messagesOf v)
  | .error _ => .fault

/-- A fault is reported by the name of its provider, if that has one. -/
private theorem reported (p : ProviderId) (f : Failure) (s : Session) (summary : String → String) :
    let report : Act Outcome := do
      let name ← during (some f) (Broker.nameOf p)
      reportFault (summary name) f
      return .fault
    (report.exec s).1 = .ok .fault ∨
      ∃ e, (report.exec s).1 = .error e ∧ ∃ f, s.nameOf p = .error f := by
  intro report
  cases hn : s.nameOf p with
  | error e =>
    obtain ⟨e', he⟩ := exec_during_error (some f)
      (show (Broker.nameOf p).exec s = (.error e, s) by rw [Broker.exec_nameOf, hn])
    exact .inr ⟨e', by rw [exec_bind_error he], e, rfl⟩
  | ok name =>
    have he := exec_during_ok (some f)
      (show (Broker.nameOf p).exec s = (.ok name, s) by rw [Broker.exec_nameOf, hn])
    refine .inl ?_
    rw [exec_bind_ok he, exec_bind_ok (Prod.ext (exec_reportFault _ _) rfl)]
    rfl

/-- An answer is contained, and then its messages are those that it carries; or it leaves, because it
may not be contained or because its provider has no name to report it by. -/
theorem contain_cases (p : ProviderId) (cancelling : Bool) (r : Except Failure Value)
    (s : Session) :
    (∃ e, ((contain p cancelling r).exec s).1 = .error e ∧
      ((∃ f, s.nameOf p = .error f) ∨ ∃ f, r = .error f ∧
        if f.isCancellation = true then cancelling = true else f.isOrdinary = false)) ∨
    Contained r ∧ ((contain p cancelling r).exec s).1 = .ok (outcomeOf r) := by
  cases r with
  | ok v =>
    have contained := contained_ok v
    simp only [contain]
    split
    · cases hn : s.nameOf p with
      | error f =>
        exact .inl ⟨f, by simp [exec_bind, Broker.exec_nameOf, hn], .inl ⟨f, rfl⟩⟩
      | ok name =>
        exact .inr ⟨contained, by simp [exec_bind, Broker.exec_nameOf, hn, Except.map, outcomeOf]⟩
    · exact .inr ⟨contained, rfl⟩
  | error f =>
    simp only [contain]
    by_cases hc : f.isCancellation = true
    · have contained : Contained (.error f) := contained_error_iff.mpr (.inl hc)
      simp only [hc, if_true]
      cases cancelling with
      | true => exact .inl ⟨f, rfl, .inr ⟨f, rfl, by simp [hc]⟩⟩
      | false =>
        rcases reported p f s _ with h | ⟨e, h, hn⟩
        · exact .inr ⟨contained, h⟩
        · exact .inl ⟨e, h, .inl hn⟩
    · simp only [hc]
      by_cases ho : f.isOrdinary = true
      · have contained : Contained (.error f) := contained_error_iff.mpr (.inr ho)
        simp only [ho, if_true]
        rcases reported p f s _ with h | ⟨e, h, hn⟩
        · exact .inr ⟨contained, h⟩
        · exact .inl ⟨e, h, .inl hn⟩
      · simp only [ho]
        exact .inl ⟨f, rfl, .inr ⟨f, rfl, by simpa [hc] using ho⟩⟩

theorem exec_askSurface (id : SurfaceId) (q : Surface.Question) (s : Session) :
    ((askSurface id q).exec s).1 = s.answerOf id q := by
  simp only [askSurface, exec_bind, exec_get, exec_expect, Session.answerOf]
  cases s.host.surfaces.get? id <;> simp

/-- Messages are surfaced exactly if they may be. -/
theorem shouldSurface_iff {x : Record Nat} (hx : s.registry.records[d.record]? = some x) :
    ((shouldSurface d p).exec s).1 = .ok true ↔ s.Surfaces d p := by
  have hr : (Broker.record d.record).exec s = (.ok x, s) := by
    simp [Broker.record, exec_bind, hx]
  unfold shouldSurface Session.Surfaces Session.InForce
  rw [exec_bind_ok hr]
  by_cases ha : x.activated = true
  · simp only [ha, Bool.not_true, Bool.false_eq_true, if_false, hx, Option.some.injEq,
      exists_eq_left', true_and]
    cases hs : s.scopeOf p with
    | error f =>
      rw [exec_bind_error (by rw [Broker.exec_scopeOf, hs])]
      simp
    | ok scope =>
      rw [exec_bind_ok (by rw [Broker.exec_scopeOf, hs])]
      cases scope with
      | project => simp
      | file =>
        have asked := exec_askSurface d.context.surface .destroyed s
        simp only [bind_pure_comp, exec_map, asked, Except.ok.injEq, reduceCtorEq, false_or,
          true_and]
        cases s.answerOf d.context.surface .destroyed <;> simp [Except.map]
  · simp [ha, hx]

theorem exec_accept {x : Record Nat} (hx : s.registry.records[d.record]? = some x) :
    (accept d).exec s = (.ok (x.counters.isNews d.generation),
      (s.onRegistry fun r => r.changeRecord d.record fun x =>
        { x with counters := x.counters.receive d.generation }).noted
          (.accepted d (x.counters.isNews d.generation))) := by
  have hr : (Broker.record d.record).exec s = (.ok x, s) := by
    simp [Broker.record, exec_bind, hx]
  rw [accept, exec_bind_ok hr]
  rfl

theorem lastReceived_of_isNews {c : Counters Nat} {g : Nat} (h : c.isNews g = true) :
    (c.receive g).lastReceived = g := by
  rw [Counters.receive, if_pos h]

/-- How far a dispatch's response came: it stands at a verdict, and either there is a notice to
surface, or something says why there is none. -/
structure Responded (s : Session) (t : TaskId) (d : Dispatch) (p : ProviderId)
    (r : Except Failure Value) (x : Except Failure (Option Notice) × Session) : Prop where
  path : Path s x.2
  loop : s.loop.Keeps x.2.loop
  silent : (∀ n, x.1 ≠ .ok (some n)) → ∃ v, x.2.Stands d.key (.answered r v) ∧ x.2.Leaves t d p r v
  notice : ∀ n, x.1 = .ok (some n) → ∃ v scope y, r = .ok v ∧
    n = .update p (.list (messagesOf v)) (d.context.bufferIn scope) ∧
    x.2.Stands d.key (.answered r .news) ∧ x.2.Surfaces d p ∧ x.2.scopeOf p = .ok scope ∧
    x.2.registry.records[d.record]? = some y ∧ y.counters.lastReceived = d.generation

theorem Responded.of_leaves {v : Verdict} {x : Except Failure (Option Notice)}
    (path : Path s s') (loop : s.loop.Keeps s'.loop) (stage : s'.Stands d.key (.answered r v))
    (leaves : s'.Leaves t d p r v) (hx : ∀ n, x ≠ .ok (some n)) : Responded s t d p r (x, s') :=
  ⟨path, loop, fun _ => ⟨v, stage, leaves⟩, fun n hn => absurd hn (hx n)⟩

theorem Responded.after {x : Except Failure (Option Notice) × Session}
    (h : Responded s' t d p r x) (path : Path s s') (loop : s.loop.Keeps s'.loop) :
    Responded s t d p r x :=
  ⟨path.trans h.path, loop.trans h.loop, h.silent, h.notice⟩

theorem exec_updateNotice (p : ProviderId) (c : EditContext) (messages : Value) (s : Session) :
    (Round.updateNotice p c messages).exec s =
      ((s.scopeOf p).map fun scope => .update p messages (c.bufferIn scope), s) := by
  rw [Round.updateNotice, exec_bind, Broker.exec_scopeOf]
  rcases s.scopeOf p with f | (_ | _) <;> rfl

theorem exec_finishNotice (p : ProviderId) (c : EditContext) (s : Session) :
    (Round.finishNotice p c).exec s =
      ((s.scopeOf p).map fun scope => .finish p (c.pathIn scope), s) := by
  rw [Round.finishNotice, exec_bind, Broker.exec_scopeOf]
  rcases s.scopeOf p with f | (_ | _) <;> rfl

theorem surfaces_of_quiet (q : Quiet s s') : s'.Surfaces d p ↔ s.Surfaces d p := by
  simp only [Session.Surfaces, Session.InForce, q.registry, q.scopeOf, q.answerOf]

private theorem responded_news {x : Record Nat} (hx : s.registry.records[d.record]? = some x)
    (newest : x.counters.lastReceived = d.generation) (stage : s.Stands d.key (.answered r .news)) :
    Responded s t d p r ((match outcomeOf r with
      | .fault => return none
      | .messages items => do
        if ← shouldSurface d p then
          return some (← Round.updateNotice p d.context (.list items))
        return none : Act (Option Notice)).exec s) := by
  cases r with
  | error f => exact .of_leaves .refl (.refl _) stage nofun nofun
  | ok v =>
    have surfaces := shouldSurface_iff (p := p) hx
    have leaves {s₁ : Session} (q : Quiet s s₁) (h : ¬ s.Surfaces d p) :
        s₁.Leaves t d p (.ok v) .news := fun _ _ hs => h ((surfaces_of_quiet q).mp hs)
    refine exec_bind_elim (fun e s₁ he => ?_) fun may s₁ he => ?_
    · have q := (quiet_of_exec (quiet_shouldSurface d p) he).changes
      rw [he] at surfaces
      exact .of_leaves q.path q.loop (q.stands stage)
        (leaves (quiet_of_exec (quiet_shouldSurface d p) he) (by simp [← surfaces])) nofun
    · have quiet := quiet_of_exec (quiet_shouldSurface d p) he
      have q := quiet.changes
      rw [he] at surfaces
      cases may with
      | false =>
        exact .of_leaves q.path q.loop (q.stands stage) (leaves quiet (by simp [← surfaces])) nofun
      | true =>
        have hs : s₁.Surfaces d p := (surfaces_of_quiet quiet).mpr (surfaces.mp rfl)
        obtain ⟨scope, hscope⟩ : ∃ scope, s₁.scopeOf p = .ok scope := by
          rcases hs.2 with h | ⟨h, _⟩
          · exact ⟨_, h⟩
          · exact ⟨_, h⟩
        simp only [if_true]
        rw [exec_bind_ok (by rw [exec_updateNotice, hscope]; rfl)]
        refine ⟨q.path, q.loop, fun h => absurd rfl (h _), fun n hn => ?_⟩
        refine ⟨v, scope, x, rfl, ?_, q.stands stage, hs, hscope, quiet.registry ▸ hx, newest⟩
        exact (Option.some.inj (Except.ok.inj hn)).symm

private theorem responded_presented {x : Record Nat} {news : Bool}
    (hx : s.registry.records[d.record]? = some x)
    (newest : news = true → x.counters.lastReceived = d.generation)
    (stage : s.Stands d.key (.answered r (if news then .news else .stale))) :
    Responded s t d p r ((do
      if !news then
        let name ← Broker.nameOf p
        trace ("Dropping stale response " ++ toString d.generation ++ " from " ++ Text.quoted name)
        return none
      match outcomeOf r with
      | .fault => return none
      | .messages items => do
        if ← shouldSurface d p then
          return some (← Round.updateNotice p d.context (.list items))
        return none : Act (Option Notice)).exec s) := by
  cases news with
  | false =>
    refine exec_bind_elim (fun e s₁ he => ?_) fun name s₁ he => ?_
    · have q := (quiet_of_exec (Broker.quiet_nameOf p) he).changes
      exact .of_leaves q.path q.loop (q.stands stage) trivial nofun
    · have q : Changes s _ := (quiet_of_exec (Broker.quiet_nameOf p) he).changes.trans
        (quiet_trace ("Dropping stale response " ++ toString d.generation ++ " from " ++
          Text.quoted name) s₁).changes
      exact .of_leaves q.path q.loop (q.stands stage) trivial nofun
  | true => exact responded_news hx (newest rfl) stage

theorem responded {x : Record Nat} {cancelling : Bool} (runs : s.Runs t (.dispatch d))
    (stage : s.Stands d.key .entered) (hx : s.registry.records[d.record]? = some x)
    (hc : cancelling = true → s.IsCancelling t) :
    Responded s t d p r ((respond d p cancelling r).exec s) := by
  let s₁ := s.noted (.answered d r)
  have answers : Path s s₁ := .single (.answers r runs stage)
  have unheard : s₁.Stands d.key (.answered r .unheard) := stage.noted rfl rfl
  unfold respond
  rw [exec_bind_ok (exec_note (.answered d r))]
  have cases := contain_cases p cancelling r s₁
  have quiet := keepsTo_awaited (quiet_contain p cancelling r)
  refine exec_bind_elim (fun e s₂ he => ?_) fun outcome s₂ he => ?_
  · have q := quiet_of_exec quiet he
    rw [exec_awaited, Prod.mk.injEq] at he
    refine .of_leaves (answers.trans q.changes.path) q.changes.loop (q.changes.stands unheard) ?_
      nofun
    rcases cases with ⟨_, _, ⟨f, hf⟩ | ⟨f, hf, hcases⟩⟩ | ⟨_, hok⟩
    · exact .inl ⟨f, by rw [q.nameOf, hf]⟩
    · refine .inr ⟨f, hf, ?_⟩
      split at hcases
      · obtain ⟨z, hz, hzc⟩ := hc hcases
        rw [if_pos ‹_›]
        exact ⟨z, by rw [q.loop]; exact hz, hzc⟩
      · rwa [if_neg ‹_›]
    · rw [hok] at he
      cases he.1
  · have q := quiet_of_exec quiet he
    rw [exec_awaited, Prod.mk.injEq] at he
    rcases cases with ⟨_, herr, _⟩ | ⟨contained, hok⟩
    · rw [herr] at he
      cases he.1
    · rw [hok] at he
      obtain rfl := Except.ok.inj he.1
      have hx₂ : s₂.registry.records[d.record]? = some x := q.registry ▸ hx
      rw [exec_bind_ok (exec_accept hx₂)]
      let s₃ := (s₂.onRegistry fun reg => reg.changeRecord d.record fun x =>
        { x with counters := x.counters.receive d.generation }).noted
          (.accepted d (x.counters.isNews d.generation))
      have accepts : Step s₂ s₃ := .accepts (runs.keeps q.changes.loop)
        (q.changes.stands unheard) contained hx₂
      have path : Path s s₃ := (answers.trans q.changes.path).tail accepts
      have loop : s.loop.Keeps s₃.loop := q.changes.loop.trans (.of_tasks_eq rfl)
      have heard : s₃.Stands d.key
          (.answered r (if x.counters.isNews d.generation then .news else .stale)) := by
        refine Stands.noted (q.changes.stands unheard) rfl ?_
        cases x.counters.isNews d.generation <;> rfl
      have hx₃ : s₃.registry.records[d.record]? =
          some { x with counters := x.counters.receive d.generation } := by
        simp [s₃, Registry.getElem?_changeRecord, hx₂]
      exact (responded_presented hx₃ lastReceived_of_isNews heard).after path loop

/-- An answer was dealt with: the dispatch stands at a verdict, and something says why no more came
of it. -/
structure Delivered (s s' : Session) (t : TaskId) (d : Dispatch) (p : ProviderId)
    (r : Except Failure Value) : Prop where
  path : Path s s'
  loop : s.loop.Keeps s'.loop
  verdict : ∃ v, s'.Stands d.key (.answered r v) ∧ s'.Leaves t d p r v

theorem delivered {cancelling : Bool} (runs : s.Runs t (.dispatch d))
    (stage : s.Stands d.key .entered) (hp : s.providerOf d.record = some p)
    (hc : cancelling = true → s.IsCancelling t) :
    Delivered s ((deliver d p cancelling r).exec s).2 t d p r := by
  obtain ⟨x, hx, _⟩ := Option.map_eq_some_iff.mp hp
  have done : Responded s t d p r ((respond d p cancelling r).exec s) :=
    responded runs stage hx hc
  unfold deliver
  obtain ⟨surfaced, s₁, he⟩ | ⟨e, s₁, he⟩ := exec_cases (respond d p cancelling r) s
  · rw [exec_bind_ok he]
    rw [he] at done
    cases surfaced with
    | none => exact ⟨done.path, done.loop, done.silent (by simp)⟩
    | some n =>
      obtain ⟨v, scope, y, rfl, rfl, stage, may, hscope, hy, newest⟩ := done.notice n rfl
      have surfaces := Step.surfaces (runs.keeps done.loop) stage (done.path.providerOf hp) may hy
        newest hscope
      have calls := changes_emit none d (.update p (.list (messagesOf v))
        (d.context.bufferIn scope)) s₁
      have surfaced := stage.noted (y := .answered (.ok v) .surfaced) (e := .emitted d
        (.update p (.list (messagesOf v)) (d.context.bufferIn scope))) rfl rfl
      exact ⟨(done.path.tail surfaces).trans calls.path, done.loop.trans calls.loop, .surfaced,
        calls.stands surfaced, trivial⟩
  · rw [exec_bind_error he]
    rw [he] at done
    exact ⟨done.path, done.loop, done.silent (by simp)⟩

/-- After the end was announced, or could not be, the task may end. -/
theorem announced {v : Verdict} (runs : s.Runs t (.dispatch d))
    (stage : s.Stands d.key (.answered r v)) (hp : s.providerOf d.record = some p)
    (leaves : s.Leaves t d p r v) (leaving : Option Failure) :
    Path s ((announceEnd d p leaving).exec s).2 ∧
      s.loop.Keeps ((announceEnd d p leaving).exec s).2.loop ∧
        ((announceEnd d p leaving).exec s).2.MayEnd d p := by
  unfold announceEnd
  cases hs : s.scopeOf p with
  | error f =>
    obtain ⟨e, he⟩ := exec_during_error leaving
      (show (Round.finishNotice p d.context).exec s = (.error f, s) by
        rw [exec_finishNotice, hs]; rfl)
    rw [exec_bind_error he]
    exact ⟨.refl, .refl _, .inr (.inr ⟨r, v, f, stage, hs⟩)⟩
  | ok scope =>
    have he := exec_during_ok leaving
      (show (Round.finishNotice p d.context).exec s =
          (.ok (.finish p (d.context.pathIn scope)), s) by
        rw [exec_finishNotice, hs]; rfl)
    rw [exec_bind_ok he]
    have closes := Step.closes runs stage hp leaves hs
    have calls := changes_emit leaving d
      (.finish p (d.context.pathIn scope)) s
    have closed := stage.noted (y := .closed r v) (e := .emitted d
      (.finish p (d.context.pathIn scope))) rfl rfl
    exact ⟨.head closes calls.path, calls.loop, .inr (.inl ⟨r, v, calls.stands closed⟩)⟩

/-- Once an answer is there, its dispatch's task comes to where it may end. -/
theorem concluded {cancelling : Bool} (runs : s.Runs t (.dispatch d))
    (stage : s.Stands d.key .entered) (hp : s.providerOf d.record = some p)
    (hc : cancelling = true → s.IsCancelling t) :
    Path s ((conclude d p cancelling r).exec s).2 ∧
      s.loop.Keeps ((conclude d p cancelling r).exec s).2.loop ∧
        ((conclude d p cancelling r).exec s).2.MayEnd d p := by
  obtain ⟨path, loop, v, stage, leaves⟩ : Delivered s ((deliver d p cancelling r).exec s).2 t d p r :=
    delivered runs stage hp hc
  have last := announced (runs.keeps loop) stage (path.providerOf hp) leaves
    (failure? ((deliver d p cancelling r).exec s).1)
  unfold conclude
  rw [exec_bind_ok (exec_attempt _)]
  obtain ⟨_, s₁, he⟩ | ⟨_, s₁, he⟩ := exec_cases
    (announceEnd d p (failure? ((deliver d p cancelling r).exec s).1))
    ((deliver d p cancelling r).exec s).2
  · rw [exec_bind_ok he]
    rw [he] at last
    exact ⟨path.trans last.1, loop.trans last.2.1, last.2.2⟩
  · rw [exec_bind_error he]
    rw [he] at last
    exact ⟨path.trans last.1, loop.trans last.2.1, last.2.2⟩

/-- A dispatch whose provider has no name to trace stays where it was. -/
theorem exec_announce_error {f : Failure} (hn : s.nameOf p = .error f) :
    (announce d p).exec s = (.error f, s) := by
  rw [announce, exec_bind_error (by rw [Broker.exec_nameOf, hn])]

/-- A dispatch whose provider has a name is traced and enters. -/
theorem exec_announce_named {name : String} (hn : s.nameOf p = .ok name) :
    (announce d p).exec s = (.ok (), (s.noted (.trace ("Linting with " ++ Text.quoted name ++
      ", request " ++ toString d.generation))).noted (.entered d)) := by
  rw [announce, exec_bind_ok (by rw [Broker.exec_nameOf, hn])]
  rfl

/-- A dispatch whose provider has a name enters. -/
theorem exec_announce_ok {name : String} (runs : s.Runs t (.dispatch d))
    (stage : s.Stands d.key .begun) (hn : s.nameOf p = .ok name) :
    ∃ s', (announce d p).exec s = (.ok (), s') ∧ Path s s' ∧ s.loop.Keeps s'.loop ∧
      s'.Stands d.key .entered :=
  ⟨_, exec_announce_named hn, .tail (.single (.change (.note rfl)))
      (.enters (runs.keeps (.of_tasks_eq rfl)) (stage.noted_of_none rfl)),
    .of_tasks_eq rfl, (stage.noted_of_none rfl).noted rfl rfl⟩

end Dispatch
end LintBroker

import LintBroker.Proofs.Hearing
import LintBroker.Proofs.Settlements

/-!
# The accounts of a registration

A registration counts the requests that were made through it and remembers the newest response that it
accepted. Both agree with the journal after every run. For each request that was counted a beginning
was announced, and for no other; the newest response was given by a dispatch of that registration; and
no generation is accepted, surfaced or finished twice.

A dispatch is opened and announced in one go, the first step of its lint. So that none is left
opened but unannounced between moves is not a matter of small steps: it is followed through the round.
Only a provider without a scope can come in between.
-/
namespace LintBroker
namespace Session
open Act
variable {s s' s'' : Session} {t : TaskId} {k : DispatchKey}

/-! ### No dispatch is left unannounced -/

/-- At some moment in between, the provider of the registration had no scope. -/
def LosesScope (s s' : Session) (id : RecordId) : Prop :=
  ∃ u p f, s.Path u ∧ u.Path s' ∧ u.providerOf id = some p ∧ u.scopeOf p = .error f

theorem LosesScope.mono {r r' : Session} {id : RecordId} (h : s.LosesScope s' id)
    (before : r.Path s) (after : s'.Path r') : r.LosesScope r' id := by
  obtain ⟨u, p, f, hs, hs', hp, hf⟩ := h
  exact ⟨u, p, f, before.trans hs, hs'.trans after, hp, hf⟩

/-- What leaves no dispatch opened but unannounced that was not so before, unless its provider had no
scope to announce it with. -/
structure Announces (s s' : Session) : Prop where
  path : s.Path s'
  waiting : ∀ k, s'.Stands k .opened → s.Stands k .opened ∨ s.LosesScope s' k.1

theorem Announces.refl (s : Session) : s.Announces s := ⟨.refl, fun _ => .inl⟩

theorem Announces.trans (h : s.Announces s') (h' : s'.Announces s'') : s.Announces s'' := by
  refine ⟨h.path.trans h'.path, fun k hk => ?_⟩
  rcases h'.waiting k hk with hk | lost
  · exact (h.waiting k hk).imp id fun lost => lost.mono .refl h'.path
  · exact .inr (lost.mono h.path .refl)

theorem Path.announces_of_not_opened {K : List Entry} (h : s.Path s')
    (hK : s'.history = s.history ++ K) (c : s.Coherent) (none : ∀ d, .dispatched d ∈ K →
      .dispatched d ∈ s.history) : s.Announces s' := by
  refine ⟨h, fun k hk => .inl ?_⟩
  obtain ⟨x, hx⟩ := c.stage k
  have marks : x.marks ++ life k K = [.opened] := by
    rw [← hx, ← life_append, ← hK]
    exact hk
  cases x with
  | opened => exact hx
  | unopened =>
    obtain ⟨e, he, d, hd, rfl⟩ : ∃ e ∈ K, ∃ d, e.mark? = some (d, .opened) ∧ d.key = k :=
      mem_life_iff.mp (by simp_all [Stage.marks])
    have opens : e = .dispatched d := by
      cases e with
      | dispatched d' => simp_all [Entry.mark?]
      | emitted d' n => cases n <;> simp [Entry.mark?, Notice.mark] at hd
      | _ => simp [Entry.mark?] at hd
    have := mem_life (none d (opens ▸ he)) rfl
    rw [hx] at this
    cases this
  | _ => simp [Stage.marks] at marks

theorem Path.announces_of_history (h : s.Path s') (hJ : s'.history = s.history) :
    s.Announces s' :=
  ⟨h, fun k hk => .inl (by rwa [Stands, hJ] at hk)⟩

theorem Changes.announces (h : s.Changes s') : s.Announces s' :=
  ⟨h.path, fun k hk => .inl ((h.history.life_eq k).symm.trans hk)⟩

end Session

namespace Round
open Session Act
variable {s s' : Session} {t : TaskId} {context : EditContext}

theorem announces_open (c : s.Coherent) (runs : s.Runs t (.lint context)) {id : RecordId}
    {x : Record Nat} (hx : s.registry.records[id]? = some x) (ha : x.activated = true) :
    s.Announces ((do
      let d ← openDispatch t id context
      let notice ← beginNotice x.provider context
      Act.emit none d notice
      return some d : Act (Option Dispatch)).exec s).2 := by
  rw [exec_bind_ok (exec_openDispatch hx)]
  let d : Dispatch := ⟨t, id, x.counters.latest + 1, context⟩
  let s₁ := (s.onRegistry fun r =>
    r.changeRecord id fun x => { x with counters := x.counters.next }).noted (.dispatched d)
  change s.Announces (Act.exec _ s₁).2
  have opens : s.Step s₁ := .opens runs hx ha
  have stage : s₁.Stands d.key .opened := (c.unopened hx).noted rfl rfl
  have other {k : DispatchKey} (hk : d.key ≠ k) : life k s₁.history = life k s.history := by
    rw [history_noted]
    exact life_concat_other rfl hk
  have hp : s₁.providerOf d.record = some x.provider := by
    simp [s₁, d, providerOf, Registry.getElem?_changeRecord, hx]
  rw [exec_bind, exec_beginNotice]
  cases hs : s₁.scopeOf x.provider with
  | error f =>
    refine ⟨.single opens, fun k hk => ?_⟩
    by_cases same : d.key = k
    · exact .inr ⟨s₁, x.provider, f, .single opens, .refl, same ▸ hp, hs⟩
    · exact .inl ((other same).symm.trans hk)
  | ok scope =>
    let n : Notice := .begin x.provider (context.pathIn scope)
    let s₂ := s₁.noted (.emitted d n)
    have begins : s₁.Step s₂ :=
      .begins (runs.keeps (.of_tasks_eq rfl)) (by simp [s₁]) stage hp hs
    have begun : s₂.Stands d.key .begun := stage.noted rfl rfl
    have announced : s.Announces s₂ := by
      refine ⟨.tail (.single opens) begins, fun k hk => ?_⟩
      by_cases same : d.key = k
      · cases (same ▸ begun).unique hk
      · have unsaid : life k s₂.history = life k s₁.history := by
          rw [history_noted]
          exact life_concat_other rfl same
        exact .inl ((other same).symm.trans (unsaid.symm.trans hk))
    refine announced.trans ?_
    have calls : s₂.Changes ((emit none d n).exec s₁).2 := changes_emit none d n s₁
    change s₂.Announces ((emit none d n >>= fun _ => pure (some d)).exec s₁).2
    rw [bind_pure_comp, exec_map]
    exact calls.announces

theorem announces_bind {α β : Type} {m : Act α} {f : α → Act β} (hm : KeepsTo Quiet m.run)
    (go : ∀ a s', Quiet s s' → s'.Announces ((f a).exec s').2) :
    s.Announces ((m >>= f).exec s).2 := by
  refine exec_bind_elim (P := fun r => s.Announces r.2) (fun e s' he => ?_) fun a s' he => ?_
  · exact (quiet_of_exec hm he).changes.announces
  · exact (quiet_of_exec hm he).changes.announces.trans (go a s' (quiet_of_exec hm he))

theorem announces_consider (c : s.Coherent) (runs : s.Runs t (.lint context))
    (disabled : List Value) (id : RecordId) :
    s.Announces ((consider t context disabled id).exec s).2 := by
  unfold consider
  cases hx : s.registry.records[id]? with
  | none =>
    have : (Broker.record id).exec s = (.error (Setting.missing (toString id)), s) := by
      simp [Broker.record, exec_bind, hx]
    rw [exec_bind_error this]
    exact .refl s
  | some x =>
    have : (Broker.record id).exec s = (.ok x, s) := by
      simp [Broker.record, exec_bind, hx]
    rw [exec_bind_ok this]
    by_cases ha : x.activated = true
    · simp only [ha, Bool.not_true, Bool.false_eq_true, if_false]
      refine announces_bind (Broker.quiet_nameOf _) fun name s₁ q₁ => ?_
      split
      · exact announces_bind (quiet_trace _) fun _ s₂ _ => .refl s₂
      · refine announces_bind (Gate.quiet_shouldTrigger _ _) fun applies s₂ q₂ => ?_
        split
        · exact .refl s₂
        · have q := q₁.trans q₂
          exact announces_open (c.path q.changes.path) (runs.keeps q.changes.loop)
            (q.registry ▸ hx) ha
    · simp only [ha]
      exact .refl s

theorem announces_considerAll (c : s.Coherent) (runs : s.Runs t (.lint context))
    (disabled : List Value) (ids : List RecordId) :
    s.Announces ((considerAll t context disabled ids).exec s).2 := by
  induction ids generalizing s with
  | nil => exact .refl s
  | cons id rest ih =>
    have one := announces_consider c runs disabled id
    have way := (considered c runs disabled id).meanwhile
    refine exec_bind_elim (P := fun r => s.Announces r.2) (fun e s₁ he => ?_) fun chosen s₁ he => ?_
    · rwa [he] at one
    · rw [he] at one way
      have others := ih (c.path way.path) (runs.keeps way.loop)
      rw [bind_pure_comp, exec_map]
      exact one.trans others

theorem announces_start (c : s.Coherent) (runs : s.Runs t (.lint context)) :
    s.Announces ((start t context).exec s).2 := by
  unfold start
  refine announces_bind keepsTo_get fun _ s₀ q₀ => ?_
  split
  · exact .refl s₀
  · refine announces_bind quiet_ensureSettings fun _ s₁ q₁ => ?_
    refine announces_bind (Gate.quiet_shouldLint _) fun eligible s₂ q₂ => ?_
    split
    · exact .refl s₂
    · refine announces_bind quiet_disabledNames fun disabled s₃ q₃ => ?_
      refine announces_bind keepsTo_get fun now s₄ q₄ => ?_
      have q := (q₀.trans q₁).trans ((q₂.trans q₃).trans q₄)
      rw [bind_pure_comp, exec_map]
      exact announces_considerAll (c.path q.changes.path) (runs.keeps q.changes.loop) disabled
        now.registry.active.values

end Round

namespace Session
variable {s s' : Session} {t : TaskId} {x : Task} {context : EditContext}

theorem announces_startLint (c : s.Coherent) (runs : s.Runs t (.lint context))
    (barren : s.Barren t) : s.Announces ((startLint context t).run s).2 := by
  have ⟨way, chosen⟩ := Round.started c runs
  have announced := Round.announces_start c runs
  rw [run_startLint]
  rcases he : (Round.start t context).exec s with ⟨r, s₁⟩
  rw [he] at way chosen announced
  have c₁ := c.path way.path
  have runs₁ := runs.keeps way.loop
  have ends (r : Except Failure Bool) : s.Announces ((finish t r).run s₁).2 :=
    announced.trans ((comes_finish c₁ runs₁ (by simp) r).path.announces_of_history rfl)
  cases r with
  | error f => exact ends _
  | ok round =>
    cases round with
    | none => exact ends _
    | some ds =>
      cases ds with
      | nil => exact ends _
      | cons d ds =>
        obtain ⟨distinct, hds⟩ := chosen _ rfl
        have gathers : s₁.Path (s₁.onLoop fun l => l.gather t (d :: ds)) :=
          .single (.gathers runs₁ (barren.keeps way.loop) distinct hds)
        exact announced.trans (gathers.announces_of_history rfl)

theorem history_resume_lint (hj : x.job = .lint context)
    (h : x.phase ≠ .fresh ∨ x.cancelPending = true) (s : Session) :
    ((resume t x).run s).2.history = s.history := by
  have turn := resumption s t x
  generalize ((resume t x).run s).2 = s' at turn
  cases turn with
  | cancelled | decided | idle => rfl
  | lint fresh _ unasked =>
    have asked : x.cancelPending = true := h.resolve_left fun other => other fresh
    rw [unasked] at asked
    cases asked
  | dispatch _ job | paused _ job | settled _ job => cases hj.symm.trans job

theorem Coherent.announces_lint (c : s.Coherent) (idle : s.Idle) {rest : List Ready}
    (hr : s.loop.ready = .step t :: rest) (hx : s.loop.tasks[t]? = some x)
    (before : ∀ e, x.phase ≠ .ended e) (hj : x.job = .lint context) : s.Announces s.tick := by
  have tick := tick_step hr hx
  by_cases starts : x.phase = .fresh ∧ x.cancelPending = false
  · obtain ⟨hp, hc⟩ := starts
    let popped := s.onLoop fun l => { l with ready := l.ready.tail }
    have woken : s.Path (s.woken t) := path_woken idle hr hx before
    have runs : (s.woken t).Runs t (.lint context) := hj ▸ runs_wake (s := popped) hx
    have barren : (s.woken t).Barren t := Barren.wake (s := popped) (c.barren_of_fresh hx hp)
    rw [tick, resume_lint hp hj hc]
    exact (woken.announces_of_history rfl).trans
      (announces_startLint (c.path woken) runs barren)
  · refine (comes_tick c idle).path.announces_of_history ?_
    rw [tick, history_resume_lint hj]
    · rfl
    · by_cases hp : x.phase = .fresh
      · exact .inr (by simpa [hp] using starts)
      · exact .inl hp

theorem Coherent.announces_tick (c : s.Coherent) (idle : s.Idle) : s.Announces s.tick := by
  have path : s.Path s.tick := (comes_tick c idle).path
  obtain ⟨K, beat⟩ := c.beat_tick
  have hJ := beat.history
  have lint := @Coherent.announces_lint s
  generalize s.tick = s' at path beat hJ lint ⊢
  cases beat with
  | acts way silent =>
    refine path.announces_of_not_opened hJ c fun d hd => ?_
    cases silent _ hd
  | skips | hears => exact path.announces_of_not_opened hJ c nofun
  | @turns t rest x _ _ hr hx before part =>
    cases hj : x.job with
    | lint context => exact lint c idle hr hx before hj
    | dispatch d =>
      -- a dispatch speaks for itself alone, and it was opened before it got its task
      refine path.announces_of_not_opened hJ c fun d' hd => ?_
      obtain ⟨s₁, account, _⟩ := part
      have own := account.spoken _ hd d' rfl
      rw [hj] at own
      obtain rfl : d' = d := own
      exact c.tasked hx hj

theorem Coherent.announces_move (c : s.Coherent) (idle : s.Idle) (m : Move) :
    s.Announces (s.move m) := by
  cases m with
  | act a => exact (Act.changes_perform a s : s.Changes (s.perform a).2).announces
  | tick => exact c.announces_tick idle

theorem Coherent.announces_run (c : s.Coherent) (idle : s.Idle) (moves : List Move) :
    s.Announces (s.run moves) := by
  induction moves generalizing s with
  | nil => exact .refl s
  | cons m moves ih =>
    have next := comes_move c idle m
    exact (c.announces_move idle m).trans (ih (c.path next.path) next.idle)

end Session

/-! ### What the journal counts -/

namespace Mark

def begun? : Mark → Option Unit
  | .begun => some ()
  | _ => none

def kind? : Mark → Option NoticeKind
  | .begun => some .begin
  | .updated _ => some .update
  | .finished => some .finish
  | _ => none

end Mark

@[simp] theorem Notice.kind?_mark (n : Notice) : n.mark.kind? = some n.kind := by cases n <;> rfl

theorem count_saidOf {β : Type} (id : RecordId) (say : Mark → Option β) (J : List Entry) (g : Nat) :
    ((saidOf id say J).map Prod.fst).count g = ((life (id, g) J).filterMap say).length := by
  induction J using List.reverseRecOn with
  | nil => rfl
  | append_singleton J e ih =>
    cases he : e.mark? with
    | none =>
      have plain : Unmarked J (J ++ [e]) := .concat he
      rw [saidOf_of_unmarked plain, plain.life_eq, ih]
    | some x =>
      obtain ⟨d, m⟩ := x
      by_cases hk : d.key = (id, g)
      · obtain ⟨rfl, rfl⟩ := Prod.mk.inj hk
        rw [saidOf_concat he, if_pos rfl, ← hk, life_concat_self he, hk]
        cases hb : say m <;> simp [hb, ih]
      · rw [life_concat_other he hk, saidOf_concat he, List.map_append, List.count_append, ih]
        by_cases hd : d.record = id
        · have : d.generation ≠ g := fun hg => hk (by rw [Dispatch.key, hd, hg])
          cases hb : say m <;> simp [hd, this]
        · simp [hd]

/-- The generations of a registration whose beginning was announced, in the order of the notices. -/
def begins (id : RecordId) (J : List Entry) : List Nat :=
  (saidOf id Mark.begun? J).map Prod.fst

theorem mem_begins_iff {id : RecordId} {J : List Entry} {g : Nat} :
    g ∈ begins id J ↔ .begun ∈ life (id, g) J := by
  simp only [begins, List.mem_map, Prod.exists, exists_and_right, exists_eq_right, mem_saidOf_iff]
  constructor
  · rintro ⟨_, m, hm, hb⟩
    cases m with
    | begun => exact hm
    | _ => cases hb
  · exact fun hm => ⟨(), _, hm, rfl⟩

/-- The ways in which the notices of one generation may follow each other: none comes before the
beginning or after the end, and none comes twice. -/
def noticeOrders : List (List NoticeKind) :=
  [[], [.begin], [.begin, .update], [.begin, .finish], [.begin, .update, .finish]]

namespace Session
variable {s s' : Session} {id : RecordId} {x : Record Nat} {g : Nat}

/-- The accounts of a registration agree with the journal: a beginning was announced once for each
generation that was counted, and for no other; the newest response that is remembered, if there is
one, was given by a dispatch of the registration and accepted; no generation was accepted twice; and
the notices of each came in order, none twice. -/
structure Accounted (s : Session) (id : RecordId) (counters : Counters Nat) : Prop where
  within : counters.lastReceived ≤ counters.latest
  begun : (begins id s.history).Perm (List.range' 1 counters.latest)
  settled : counters.lastReceived = 0 ∨ ∃ d r, d.key = (id, counters.lastReceived) ∧
    .answered d r ∈ s.history ∧ .accepted d true ∈ s.history
  accepted : (acceptedOf id s.history).Nodup
  notices : ∀ g, (s.noticesOf (id, g)).map Notice.kind ∈ noticeOrders

/-- The provider has a scope at the start, and its attributes change only to those that give it
one. -/
structure AlwaysScoped (s last : Session) (p : ProviderId) : Prop where
  start : ∃ scope, s.scopeOf p = .ok scope
  reshaped : ∀ a, .reshaped p a ∈ last.history → ∃ scope, a.scope = .ok scope

theorem Coherent.nodup_saidOf {β : Type} (c : s.Coherent) (id : RecordId) {say : Mark → Option β}
    (once : ∀ x : Stage, (x.marks.filterMap say).length ≤ 1) :
    ((saidOf id say s.history).map Prod.fst).Nodup := by
  rw [List.nodup_iff_count_le_one]
  intro g
  obtain ⟨x, hx⟩ := c.stage (id, g)
  rw [count_saidOf, hx]
  exact once x

theorem Coherent.nodup_begins (c : s.Coherent) (id : RecordId) : (begins id s.history).Nodup :=
  c.nodup_saidOf id fun x => by
    cases x with
    | answered r v | closed r v =>
      cases v <;> simp [Stage.marks, Verdict.marks, Mark.begun?, List.filterMap_cons]
    | _ => simp [Stage.marks, Mark.begun?, List.filterMap_cons]

theorem Coherent.nodup_presented (c : s.Coherent) (id : RecordId) :
    ((presented id s.history).map Prod.fst).Nodup :=
  c.nodup_saidOf id fun x => by
    cases x with
    | answered r v | closed r v =>
      cases v <;> simp [Stage.marks, Verdict.marks, Mark.news?, List.filterMap_cons]
    | _ => simp [Stage.marks, Mark.news?, List.filterMap_cons]

theorem Coherent.nodup_acceptedOf (c : s.Coherent) (id : RecordId) :
    (acceptedOf id s.history).Nodup :=
  (c.nodup_presented id).sublist (List.filter_sublist.map Prod.fst)

theorem map_kind_noticesOf (s : Session) (k : DispatchKey) :
    (s.noticesOf k).map Notice.kind = (life k s.history).filterMap Mark.kind? := by
  rw [noticesOf, life, List.map_filterMap, List.filterMap_filterMap]
  congr 1
  funext e
  cases e with
  | emitted d n => by_cases hk : d.key = k <;> simp [Entry.markOf, Entry.mark?, hk]
  | dispatched d | entered d | answered d r | accepted d news =>
    by_cases hk : d.key = k <;> simp [Entry.markOf, Entry.mark?, hk, Mark.kind?]
  | _ => rfl

theorem Coherent.notices_in_order (c : s.Coherent) (k : DispatchKey) :
    (s.noticesOf k).map Notice.kind ∈ noticeOrders := by
  obtain ⟨x, hx⟩ := c.stage k
  rw [map_kind_noticesOf, hx]
  cases x with
  | answered r v | closed r v =>
    cases v <;> simp [Stage.marks, Verdict.marks, Mark.kind?, List.filterMap_cons, noticeOrders]
  | _ => simp [Stage.marks, Mark.kind?, List.filterMap_cons, noticeOrders]

theorem Tallied.newest_accepted (h : s.Tallied id) (c : s.Coherent)
    (hx : s.registry.records[id]? = some x) (nonzero : x.counters.lastReceived ≠ 0) :
    (x.counters.lastReceived, true) ∈ presented id s.history := by
  obtain ⟨news, hm⟩ := (h.newest x hx).resolve_left nonzero
  obtain ⟨before, after, split⟩ := List.append_of_mem hm
  have distinct := c.nodup_presented id
  rw [split, List.map_append, List.map_cons, List.nodup_middle, List.nodup_cons, List.mem_append,
    List.mem_map, List.mem_map] at distinct
  have less (y : Nat × Bool) (hy : y ∈ before ∨ y ∈ after) : y.1 < x.counters.lastReceived := by
    have heard : (y.1, y.2) ∈ presented id s.history := by
      rw [split]
      simpa using hy.imp_right .inr
    refine Nat.lt_of_le_of_ne (c.le_lastReceived hx heard) fun he => ?_
    exact distinct.1 (hy.imp (fun hy => ⟨y, hy, he⟩) fun hy => ⟨y, hy, he⟩)
  have last : (leftMaxima Prod.fst (presented id s.history)).getLast? =
      some (x.counters.lastReceived, news) := by
    rw [split]
    exact getLast?_leftMaxima (fun y hy => less y (.inl hy)) fun y hy => less y (.inr hy)
  rw [← h.maxima] at last
  obtain ⟨hmem, rfl⟩ := List.mem_filter.mp (List.mem_of_getLast? last)
  exact hmem

theorem Coherent.answered_of_accepted (c : s.Coherent) {d : Dispatch} {news : Bool}
    (h : .accepted d news ∈ s.history) : ∃ r, .answered d r ∈ s.history := by
  obtain ⟨x, hx⟩ := c.stage d.key
  have accepted := mem_life h (m := .accepted news) rfl
  rw [hx] at accepted
  obtain ⟨r, hr⟩ : ∃ r, Mark.answered r ∈ x.marks := by
    cases x with
    | answered r v | closed r v => exact ⟨r, by simp [Stage.marks]⟩
    | _ => simp [Stage.marks] at accepted
  obtain ⟨e, he, d', hd, hk⟩ := mem_life_iff.mp (hx ▸ hr)
  obtain rfl := c.unique (c.known he hd) (c.known h rfl) hk
  cases e with
  | answered d₀ r₀ =>
    obtain ⟨rfl, _⟩ := Prod.mk.inj (Option.some.inj hd)
    exact ⟨r₀, he⟩
  | emitted d₀ n => cases n <;> simp [Entry.mark?, Notice.mark] at hd
  | _ => simp [Entry.mark?] at hd

theorem AlwaysScoped.not_losesScope {last : Session} {p : ProviderId} (h : s.AlwaysScoped last p)
    (hp : last.providerOf id = some p) : ¬ s.opening.LosesScope last id := by
  rintro ⟨u, q, f, before, after, hq, hf⟩
  obtain rfl : q = p := Option.some.inj ((after.providerOf hq).symm.trans hp)
  obtain ⟨scope, hs⟩ := before.attributesOf (p := q) (J := u.history)
    (P := fun r => ∃ scope, (r >>= Attributes.scope) = .ok scope) (by simp [opening, history]) h.start
    fun a ha => h.reshaped a (after.mem_history ha)
  rw [scopeOf, hs] at hf
  cases hf

/-- The newest response that a registration remembers, if there is one, was an answer and was
accepted. -/
theorem Tallied.newest_answered (h : s.Tallied id) (c : s.Coherent)
    (hx : s.registry.records[id]? = some x) :
    x.counters.lastReceived = 0 ∨ ∃ d r, d.key = (id, x.counters.lastReceived) ∧
      .answered d r ∈ s.history ∧ .accepted d true ∈ s.history := by
  by_cases none : x.counters.lastReceived = 0
  · exact .inl none
  · obtain ⟨d, hk, hd⟩ := accepted_of_life (mem_presented_iff.mp (h.newest_accepted c hx none))
    obtain ⟨r, hr⟩ := c.answered_of_accepted hd
    exact .inr ⟨d, r, hk, hr, hd⟩

theorem Coherent.generation_le_latest (c : s.Coherent) (hx : s.registry.records[id]? = some x)
    {d : Dispatch} (hd : .dispatched d ∈ s.history) (hk : d.key = (id, g)) :
    g ≤ x.counters.latest := by
  obtain ⟨y, hy, _, counted⟩ := c.generation hd
  obtain ⟨rfl, rfl⟩ := Prod.mk.inj hk
  obtain rfl := Option.some.inj (hx.symm.trans hy)
  exact counted

theorem Coherent.mem_begins_iff_opened (c : s.Coherent) (announced : ¬ s.Stands (id, g) .opened) :
    g ∈ begins id s.history ↔ g ∈ generations id s.history := by
  rw [mem_begins_iff]
  constructor
  · intro hb
    obtain ⟨d, hd, hk⟩ := c.opened_of_life (List.ne_nil_of_mem hb)
    exact mem_generations_iff.mpr ⟨d, hd, hk⟩
  · intro hg
    obtain ⟨d, hd, hk⟩ := mem_generations_iff.mp hg
    obtain ⟨y, hy⟩ := c.stage (id, g)
    have opened := mem_life hd (m := .opened) rfl
    rw [hk, hy] at opened
    rw [hy]
    cases y with
    | unopened => cases opened
    | opened => exact absurd hy announced
    | _ => simp [Stage.marks]

/-- A beginning was announced once for each generation that was counted, if none waits for it. -/
theorem Coherent.begins_perm (c : s.Coherent) (hx : s.registry.records[id]? = some x)
    (announced : ∀ g, ¬ s.Stands (id, g) .opened) :
    (begins id s.history).Perm (List.range' 1 x.counters.latest) := by
  have distinct : (generations id s.history).Nodup := by
    rw [c.counted hx]
    exact List.nodup_range'
  rw [← c.counted hx, List.perm_ext_iff_of_nodup (c.nodup_begins id) distinct]
  exact fun g => c.mem_begins_iff_opened (announced g)

/-- After every run the accounts of every registration agree with the journal, if its provider always
has a scope. -/
theorem accounted (s : Session) (moves : List Move) {id : RecordId} {x : Record Nat}
    (known : (s.opening.run moves).registry.records[id]? = some x)
    (always : s.AlwaysScoped (s.opening.run moves) x.provider) :
    (s.opening.run moves).Accounted id x.counters := by
  have path := (s.comes_opening moves).path
  have c := s.coherent_run moves
  have announces := s.coherent_opening.announces_run s.idle_opening moves
  have tallied := tallied path id
  generalize s.opening.run moves = last at *
  have settled := tallied.newest_answered c known
  constructor
  case settled => exact settled
  case accepted => exact c.nodup_acceptedOf id
  case notices => exact fun g => c.notices_in_order (id, g)
  case within =>
    rcases settled with none | ⟨d, _, hk, _, hd⟩
    · omega
    · exact c.generation_le_latest known (c.known hd rfl) hk
  case begun =>
    refine c.begins_perm known fun g waits => ?_
    -- between moves none is left at this stage
    rcases announces.waiting _ waits with early | lost
    · cases early.unique (y := .unopened) rfl
    · exact always.not_losesScope (providerOf_eq known) lost

theorem alwaysScoped_of_all {last : Session} {p : ProviderId} {scope : Scope}
    (start : s.scopeOf p = .ok scope)
    (unchanged : last.history.all (fun | .reshaped q _ => q != p | _ => true) = true) :
    s.AlwaysScoped last p := by
  refine ⟨⟨scope, start⟩, fun a ha => ?_⟩
  have := List.all_eq_true.mp unchanged _ ha
  simp at this

/-- Two lints of a provider whose second answer comes first, so that the first is stale; then the
provider is removed. -/
def sampleRace : List Move :=
  .act (.add "p" false) :: sampleLint ++ sampleLint ++
    .act (.resolve "p" 1 (.list [.int 1])) :: List.replicate 4 .tick ++
      .act (.resolve "p" 0 (.list [.int 2])) :: List.replicate 4 .tick ++ [.act (.remove "p")]

theorem sample_accounted :
    ∃ x, ((sample []).opening.run sampleRace).registry.records[0]? = some x ∧
      (sample []).AlwaysScoped ((sample []).opening.run sampleRace) x.provider ∧
      (x.activated, x.counters.latest, x.counters.lastReceived) = (false, 2, 2) ∧
      presented 0 ((sample []).opening.run sampleRace).history = [(2, true), (1, false)] ∧
      ((sample []).opening.run sampleRace).Accounted 0 x.counters := by
  have record : ((sample []).opening.run sampleRace).registry.records[0]?.map (fun x =>
      (x.provider, x.activated, x.counters.latest, x.counters.lastReceived)) =
        some ("p", false, 2, 2) := by decide +kernel
  obtain ⟨x, hx, hp⟩ := Option.map_eq_some_iff.mp record
  obtain ⟨named, counted⟩ := Prod.mk.inj hp
  have scope : (sample []).scopeOf "p" = .ok .file := by rfl
  have always : (sample []).AlwaysScoped ((sample []).opening.run sampleRace) x.provider :=
    named ▸ alwaysScoped_of_all scope (by decide +kernel)
  exact ⟨x, hx, always, counted, by decide +kernel, accounted (sample []) sampleRace hx always⟩

end Session
end LintBroker

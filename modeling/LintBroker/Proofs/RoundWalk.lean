import LintBroker.Proofs.Actions
import LintBroker.Proofs.Coherence

/-!
# The way of a round

The first step of a lint is a path. Each registration that is chosen gets a dispatch that was never
opened before, and its beginning is announced; what is done meanwhile leaves dispatches that were
opened at their stages. So when all have been considered, the dispatches of the round have begun, and
no two of them are the same.
-/
namespace LintBroker
namespace Session
variable {s s' s'' : Session}

/-- What happens while a task runs: dispatches that were opened stay at their stages. -/
structure Meanwhile (s s' : Session) : Prop where
  path : Path s s'
  loop : s.loop.Keeps s'.loop
  stands : ∀ {k : DispatchKey} {x : Stage}, s.Stands k x → x ≠ .unopened → s'.Stands k x

theorem Meanwhile.refl (s : Session) : s.Meanwhile s := ⟨.refl, .refl _, fun h _ => h⟩

theorem Meanwhile.trans (h : s.Meanwhile s') (h' : s'.Meanwhile s'') : s.Meanwhile s'' :=
  ⟨h.path.trans h'.path, h.loop.trans h'.loop, fun hk hx => h'.stands (h.stands hk hx) hx⟩

theorem Changes.history (h : s.Changes s') : Unmarked s.history s'.history := by
  induction h with
  | refl => exact .refl _
  | tail _ h ih =>
    obtain ⟨es, hJ, hes⟩ := ih
    obtain ⟨es', hJ', hes'⟩ := h.history
    refine ⟨es ++ es', by rw [hJ', hJ, List.append_assoc], fun e he => ?_⟩
    rcases List.mem_append.mp he with he | he
    · exact hes e he
    · exact hes' e he

theorem Changes.loop (h : s.Changes s') : s.loop.Keeps s'.loop := by
  induction h with
  | refl => exact .refl _
  | tail _ h ih => exact ih.trans h.loop

theorem Changes.stands (h : s.Changes s') {k : DispatchKey} {x : Stage} (hx : s.Stands k x) :
    s'.Stands k x := (h.history.life_eq k).trans hx

theorem Changes.meanwhile (h : s.Changes s') : s.Meanwhile s' :=
  ⟨h.path, h.loop, fun hx _ => h.stands hx⟩

theorem Runs.keeps {t : TaskId} {job : Job} (h : s.Runs t job) (hk : s.loop.Keeps s'.loop) :
    s'.Runs t job := by
  obtain ⟨x, hx, hp, hj⟩ := h
  obtain ⟨y, hy, hxy⟩ := hk.forth t x hx
  exact ⟨y, hy, (hxy.phase_eq (by simp [hp])).trans hp, hxy.job.trans hj⟩

theorem Barren.keeps {t : TaskId} (h : s.Barren t) (hk : s.loop.Keeps s'.loop) : s'.Barren t := by
  intro u y d hy hd
  obtain ⟨x, hx, hxy⟩ := hk.back_dispatch hy hd
  exact h u x d hx (hxy.job.symm.trans hd)

theorem Path.dispatched (h : s.Path s') (c : s.Coherent) {d : Dispatch}
    (hd : .dispatched d ∈ s.history) : .dispatched d ∈ s'.history := by
  induction h with
  | refl => exact hd
  | tail hp h ih => exact h.dispatched (c.path hp) ih

end Session

namespace Act
open Session
variable {α : Type} {s s' : Session} {m : Act α}

theorem quiet_of_exec {r : Except Failure α} (h : KeepsTo Quiet m.run) (he : m.exec s = (r, s')) :
    Quiet s s' := by
  have := h s
  change Quiet s (m.exec s).2 at this
  rwa [he] at this

end Act

namespace Round
open Session Act
variable {s s' : Session} {t : TaskId} {context : EditContext}

theorem exec_openDispatch {id : RecordId} {x : Record Nat}
    (hx : s.registry.records[id]? = some x) :
    (openDispatch t id context).exec s =
      (.ok ⟨t, id, x.counters.latest + 1, context⟩,
        (s.onRegistry fun r =>
          r.changeRecord id fun x => { x with counters := x.counters.next }).noted
            (.dispatched ⟨t, id, x.counters.latest + 1, context⟩)) := by
  have hy : (s.onRegistry fun r => r.changeRecord id fun x =>
      { x with counters := x.counters.next }).registry.records[id]? =
        some { x with counters := x.counters.next } := by
    simp [Registry.getElem?_changeRecord, hx]
  simp only [openDispatch, Broker.record, exec_bind, exec_modifyRegistry, exec_get, hy]
  rfl

theorem exec_beginNotice (p : ProviderId) (c : EditContext) (s : Session) :
    (beginNotice p c).exec s =
      ((s.scopeOf p).map fun scope => .begin p (c.pathIn scope), s) := by
  rw [beginNotice, exec_bind, Broker.exec_scopeOf]
  rcases s.scopeOf p with f | (_ | _) <;> rfl

/-- What a dispatch of a round is once it was chosen. -/
structure Chosen (s s' : Session) (t : TaskId) (d : Dispatch) : Prop where
  round : d.round = t
  known : .dispatched d ∈ s'.history
  before : s.Stands d.key .unopened
  after : s'.Stands d.key .begun

/-- What considering one registration comes to. -/
structure Considered (s : Session) (t : TaskId) (r : Except Failure (Option Dispatch) × Session) :
    Prop where
  meanwhile : s.Meanwhile r.2
  chosen : ∀ d, r.1 = .ok (some d) → Chosen s r.2 t d

theorem Considered.of_none {r : Except Failure (Option Dispatch)} (h : s.Meanwhile s')
    (hr : ∀ d, r ≠ .ok (some d)) : Considered s t (r, s') :=
  ⟨h, fun d hd => absurd hd (hr d)⟩

theorem considered_open (c : s.Coherent) (runs : s.Runs t (.lint context)) {id : RecordId}
    {x : Record Nat} (hx : s.registry.records[id]? = some x) (ha : x.activated = true) :
    Considered s t ((do
      let d ← openDispatch t id context
      let notice ← beginNotice x.provider context
      Act.emit none d notice
      return some d : Act (Option Dispatch)).exec s) := by
  rw [exec_bind_ok (exec_openDispatch hx)]
  let d : Dispatch := ⟨t, id, x.counters.latest + 1, context⟩
  let s₁ := (s.onRegistry fun r =>
    r.changeRecord id fun x => { x with counters := x.counters.next }).noted (.dispatched d)
  change Considered s t (Act.exec _ s₁)
  have unopened : s.Stands d.key .unopened := c.unopened hx
  have opened : s₁.Stands d.key .opened := Stands.noted (x := .unopened) unopened rfl rfl
  have other {e : Entry} {m : Mark} {s₂ : Session} (he : e.mark? = some (d, m))
      {k : DispatchKey} {y : Stage} (hk : s.Stands k y) (hy : y ≠ .unopened)
      (h₂ : s₂.Stands k y) : (s₂.noted e).Stands k y := by
    refine h₂.noted_of_ne he ?_
    rintro rfl
    exact hy (hk.unique unopened)
  have first : s.Meanwhile s₁ := by
    refine ⟨.single (.opens runs hx ha), .of_tasks_eq rfl, fun hk hy => ?_⟩
    exact other rfl hk hy hk
  have known : .dispatched d ∈ s₁.history := by simp [s₁]
  have hp : s₁.providerOf d.record = some x.provider := by
    simp [s₁, d, providerOf, Registry.getElem?_changeRecord, hx]
  refine exec_bind_elim (fun e s' he => ?_) fun notice s' he => ?_
  · rw [exec_beginNotice, Prod.mk.injEq] at he
    obtain ⟨-, rfl⟩ := he
    exact .of_none first (by simp)
  · rw [exec_beginNotice, Prod.mk.injEq] at he
    obtain ⟨hn, rfl⟩ := he
    cases hs : s₁.scopeOf x.provider with
    | error f => simp [hs, Except.map] at hn
    | ok scope =>
      rw [hs] at hn
      obtain rfl := Except.ok.inj hn
      let n : Notice := .begin x.provider (context.pathIn scope)
      have begins : Step s₁ (s₁.noted (.emitted d n)) :=
        .begins (runs.keeps first.loop) known opened hp hs
      have begun : (s₁.noted (.emitted d n)).Stands d.key .begun := opened.noted rfl rfl
      have calls := changes_emit none d n s₁
      have all : s.Meanwhile ((emit none d n).exec s₁).2 := by
        refine ⟨(first.path.tail begins).trans calls.path, ?_, fun hk hy => ?_⟩
        · exact first.loop.trans (.trans (.of_tasks_eq rfl) calls.loop)
        · exact calls.stands (other rfl hk hy (first.stands hk hy))
      refine exec_bind_elim (fun e s' he => ?_) fun _ s' he => ?_
      · rw [he] at all
        exact .of_none all (by simp)
      · rw [he] at all calls
        refine ⟨all, fun d' hd => ?_⟩
        obtain rfl := Option.some.inj (Except.ok.inj hd)
        have still : .dispatched d ∈ (s₁.noted (.emitted d n)).history := by
          rw [history_noted]
          exact List.mem_append_left _ known
        exact ⟨rfl, (calls.history.mem_iff (by simp [Entry.mark?])).mpr still, unopened,
          calls.stands begun⟩

/-- Questions that are asked first change nothing of this. -/
theorem considered_bind {α : Type} {m : Act α} {f : α → Act (Option Dispatch)}
    (hm : KeepsTo Quiet m.run)
    (go : ∀ a s', Quiet s s' → Considered s' t ((f a).exec s')) :
    Considered s t ((m >>= f).exec s) := by
  refine exec_bind_elim (fun e s' he => ?_) fun a s' he => ?_
  · exact .of_none (quiet_of_exec hm he).changes.meanwhile (by simp)
  · have q := (quiet_of_exec hm he).changes
    obtain ⟨meanwhile, chosen⟩ := go a s' (quiet_of_exec hm he)
    refine ⟨q.meanwhile.trans meanwhile, fun d hd => ?_⟩
    obtain ⟨round, known, before, after⟩ := chosen d hd
    exact ⟨round, known, (q.history.life_eq _).symm.trans before, after⟩

theorem considered (c : s.Coherent) (runs : s.Runs t (.lint context)) (disabled : List Value)
    (id : RecordId) :
    Considered s t ((consider t context disabled id).exec s) := by
  unfold consider
  cases hx : s.registry.records[id]? with
  | none =>
    have : (Broker.record id).exec s = (.error (Setting.missing (toString id)), s) := by
      simp [Broker.record, exec_bind, hx]
    rw [exec_bind_error this]
    exact .of_none (.refl s) (by simp)
  | some x =>
    have : (Broker.record id).exec s = (.ok x, s) := by
      simp [Broker.record, exec_bind, hx]
    rw [exec_bind_ok this]
    by_cases ha : x.activated = true
    · simp only [ha, Bool.not_true, Bool.false_eq_true, if_false]
      refine considered_bind (Broker.quiet_nameOf _) fun name s₁ q₁ => ?_
      split
      · refine considered_bind (quiet_trace _) fun _ s₂ _ => ?_
        exact .of_none (.refl s₂) (by simp)
      · refine considered_bind (Gate.quiet_shouldTrigger _ _) fun applies s₂ q₂ => ?_
        split
        · exact .of_none (.refl s₂) (by simp)
        · have q := q₁.trans q₂
          exact considered_open (c.path q.changes.path) (runs.keeps q.changes.loop)
            (q.registry ▸ hx) ha
    · simp only [ha]
      exact .of_none (.refl s) (by simp)

/-- What considering several registrations comes to. -/
structure ConsideredAll (s : Session) (t : TaskId) (r : Except Failure (List Dispatch) × Session) :
    Prop where
  meanwhile : s.Meanwhile r.2
  chosen : ∀ ds, r.1 = .ok ds → (ds.map Dispatch.key).Nodup ∧ ∀ d ∈ ds, Chosen s r.2 t d

theorem consideredAll (c : s.Coherent) (runs : s.Runs t (.lint context)) (disabled : List Value)
    (ids : List RecordId) :
    ConsideredAll s t ((considerAll t context disabled ids).exec s) := by
  induction ids generalizing s with
  | nil => exact ⟨.refl s, fun ds hds => by obtain rfl := Except.ok.inj hds; simp⟩
  | cons id rest ih =>
    have one := considered c runs disabled id
    refine exec_bind_elim (fun e s₁ he => ?_) fun chosen s₁ he => ?_
    · rw [he] at one
      exact ⟨one.meanwhile, nofun⟩
    · rw [he] at one
      have others := ih (c.path one.meanwhile.path) (runs.keeps one.meanwhile.loop)
      refine exec_bind_elim (fun e s₂ he => ?_) fun ds s₂ he => ?_
      · rw [he] at others
        exact ⟨one.meanwhile.trans others.meanwhile, nofun⟩
      · rw [he] at others
        refine ⟨one.meanwhile.trans others.meanwhile, fun all hall => ?_⟩
        obtain rfl := Except.ok.inj hall
        obtain ⟨distinct, hds⟩ := others.chosen ds rfl
        have later (d : Dispatch) (hd : d ∈ ds) : Chosen s s₂ t d := by
          obtain ⟨round, known, before, after⟩ := hds d hd
          refine ⟨round, known, ?_, after⟩
          obtain ⟨x, hx⟩ := c.stage d.key
          by_cases hu : x = .unopened
          · exact hu ▸ hx
          · exact absurd ((one.meanwhile.stands hx hu).unique before) hu
        cases chosen with
        | none => exact ⟨distinct, later⟩
        | some d =>
          obtain ⟨round, known, before, after⟩ := one.chosen d rfl
          have first : Chosen s s₂ t d :=
            ⟨round, others.meanwhile.path.dispatched (c.path one.meanwhile.path) known, before,
              others.meanwhile.stands after nofun⟩
          refine ⟨?_, ?_⟩
          · simp only [Option.toList_some, List.singleton_append, List.map_cons, List.nodup_cons,
              List.mem_map, not_exists, not_and]
            refine ⟨fun d' hd' hk => ?_, distinct⟩
            have := (hk ▸ (hds d' hd').before).unique after
            cases this
          · intro d' hd'
            rcases List.mem_cons.mp hd' with rfl | hd'
            · exact first
            · exact later d' hd'

/-- The first step of a lint, up to where its round is gathered. -/
structure Started (s : Session) (t : TaskId)
    (r : Except Failure (Option (List Dispatch)) × Session) : Prop where
  meanwhile : s.Meanwhile r.2
  chosen : ∀ ds, r.1 = .ok (some ds) → (ds.map Dispatch.key).Nodup ∧
    ∀ d ∈ ds, d.round = t ∧ .dispatched d ∈ r.2.history ∧ r.2.Stands d.key .begun

theorem started_bind {α : Type} {m : Act α} {f : α → Act (Option (List Dispatch))}
    (hm : KeepsTo Quiet m.run) (go : ∀ a s', Quiet s s' → Started s' t ((f a).exec s')) :
    Started s t ((m >>= f).exec s) := by
  refine exec_bind_elim (fun e s' he => ?_) fun a s' he => ?_
  · exact ⟨(quiet_of_exec hm he).changes.meanwhile, nofun⟩
  · obtain ⟨meanwhile, chosen⟩ := go a s' (quiet_of_exec hm he)
    exact ⟨(quiet_of_exec hm he).changes.meanwhile.trans meanwhile, chosen⟩

theorem started (c : s.Coherent) (runs : s.Runs t (.lint context)) :
    Started s t ((start t context).exec s) := by
  unfold start
  refine started_bind keepsTo_get fun _ s₀ q₀ => ?_
  split
  · exact ⟨.refl s₀, nofun⟩
  · refine started_bind quiet_ensureSettings fun _ s₁ q₁ => ?_
    refine started_bind (Gate.quiet_shouldLint _) fun eligible s₂ q₂ => ?_
    split
    · exact ⟨.refl s₂, nofun⟩
    · refine started_bind quiet_disabledNames fun disabled s₃ q₃ => ?_
      refine started_bind keepsTo_get fun now s₄ q₄ => ?_
      have q := (q₀.trans q₁).trans ((q₂.trans q₃).trans q₄)
      have all := consideredAll (c.path q.changes.path) (runs.keeps q.changes.loop)
        disabled now.registry.active.values
      refine exec_bind_elim (fun e s' he => ?_) fun ds s' he => ?_
      · rw [he] at all
        exact ⟨all.meanwhile, nofun⟩
      · rw [he] at all
        refine ⟨all.meanwhile, fun ds' hds => ?_⟩
        obtain rfl := Option.some.inj (Except.ok.inj hds)
        obtain ⟨distinct, chosen⟩ := all.chosen ds rfl
        exact ⟨distinct, fun d hd =>
          ⟨(chosen d hd).round, (chosen d hd).known, (chosen d hd).after⟩⟩

end Round
end LintBroker

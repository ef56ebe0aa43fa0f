import LintBroker.Proofs.Launches

/-!
# How begun dispatches end

A dispatch whose beginning was announced has its end announced exactly once if it was launched, and
never if it was not. So a cancellation that reaches a task before its first step leaves a provider
begun and unfinished, and so does a lint that fails while it chooses providers: those that had begun
never get a task at all.
-/
namespace LintBroker

namespace Mark

def isNotice : Mark → Bool
  | .begun | .updated _ | .finished => true
  | _ => false

end Mark

namespace Session
variable {s s' : Session} {d : Dispatch} {k : DispatchKey} {p : ProviderId} {t : TaskId}

def noticesOf (s : Session) (k : DispatchKey) : List Notice :=
  s.history.filterMap fun
    | .emitted d n => if d.key = k then some n else none
    | _ => none

/-- The dispatch began, then perhaps something was surfaced of it, and it finished once, all for the
same provider. -/
def FinishesOnce (s : Session) (d : Dispatch) (p : ProviderId) : Prop :=
  ∃ f g updates, s.noticesOf d.key = .begin p f :: updates ++ [.finish p g] ∧
    ∀ n ∈ updates, n.kind = .update

/-- All tasks that a lint made have ended. -/
def RoundOver (s : Session) (t : TaskId) : Prop :=
  ∀ (u : TaskId) (x : Task) (d : Dispatch), s.loop.tasks[u]? = some x → x.job = .dispatch d →
    d.round = t → s.HasEnded u

theorem mem_noticesOf_iff {n : Notice} :
    n ∈ s.noticesOf k ↔ ∃ d, .emitted d n ∈ s.history ∧ d.key = k := by
  simp only [noticesOf, List.mem_filterMap]
  constructor
  · rintro ⟨e, he, hn⟩
    split at hn
    · split at hn
      · exact ⟨_, Option.some.inj hn ▸ he, ‹_›⟩
      · cases hn
    · cases hn
  · rintro ⟨d, hd, rfl⟩
    exact ⟨_, hd, by simp⟩

/-- The notices of a dispatch are what its life tells of them. -/
theorem map_mark_noticesOf (s : Session) (k : DispatchKey) :
    (s.noticesOf k).map Notice.mark = (life k s.history).filter Mark.isNotice := by
  rw [noticesOf, life, List.map_filterMap, List.filter_filterMap]
  congr 1
  funext e
  cases e with
  | emitted d n =>
    by_cases hk : d.key = k
    · cases n <;> simp [Entry.markOf, Entry.mark?, Notice.mark, hk] <;> rfl
    · simp [Entry.markOf, Entry.mark?, hk]
  | dispatched d | entered d | answered d | accepted d =>
    by_cases hk : d.key = k
    · simp [Entry.markOf, Entry.mark?, hk]
      rfl
    · simp [Entry.markOf, Entry.mark?, hk]
  | _ => rfl

theorem Coherent.provider_of_notice (c : s.Coherent) (hp : s.providerOf d.record = some p)
    {n : Notice} (hn : n ∈ s.noticesOf d.key) : n.provider = p := by
  obtain ⟨d', hd', hk⟩ := mem_noticesOf_iff.mp hn
  have hr : d'.record = d.record := congrArg Prod.fst hk
  exact Option.some.inj ((c.provider hd').symm.trans (hr ▸ hp))

theorem Stands.notices_begun (h : s.Stands d.key .begun) {f : Value}
    (begun : .emitted d (.begin p f) ∈ s.history) : s.noticesOf d.key = [.begin p f] := by
  have marks := s.map_mark_noticesOf d.key
  have hm : Notice.begin p f ∈ s.noticesOf d.key := mem_noticesOf_iff.mpr ⟨d, begun, rfl⟩
  rw [h] at marks
  have length := congrArg List.length marks
  rw [List.length_map] at length
  obtain ⟨n, hn⟩ := List.length_eq_one_iff.mp length
  rw [hn] at hm ⊢
  rw [List.mem_singleton.mp hm]

/-- A dispatch whose end was announced has finished once. -/
theorem Coherent.finishesOnce (c : s.Coherent) {r : Except Failure Value} {v : Verdict}
    (h : s.Stands d.key (.closed r v)) (hp : s.providerOf d.record = some p) :
    s.FinishesOnce d p := by
  have marks := s.map_mark_noticesOf d.key
  have named (n : Notice) (hn : n ∈ s.noticesOf d.key) : n.provider = p :=
    c.provider_of_notice hp hn
  rw [h] at marks
  unfold FinishesOnce
  have ofBegun {n : Notice} (h : n.mark = .begun) : ∃ q f, n = .begin q f := by
    cases n <;> first | exact ⟨_, _, rfl⟩ | cases h
  have ofFinished {n : Notice} (h : n.mark = .finished) : ∃ q f, n = .finish q f := by
    cases n <;> first | exact ⟨_, _, rfl⟩ | cases h
  have ofUpdated {n : Notice} {m : Value} (h : n.mark = .updated m) : n.kind = .update := by
    cases n <;> first | rfl | cases h
  have parts : ∃ n updates n', s.noticesOf d.key = n :: updates ++ [n'] ∧ n.mark = .begun ∧
      n'.mark = .finished ∧ ∀ u ∈ updates, u.kind = .update := by
    cases v with
    | unheard | stale | news =>
      simp only [Stage.marks, Verdict.marks, List.cons_append, List.nil_append, List.append_nil,
        List.filter, Mark.isNotice, List.map_eq_cons_iff, List.map_eq_nil_iff] at marks
      obtain ⟨n, _, hn, hb, n', _, rfl, hf, rfl⟩ := marks
      exact ⟨n, [], n', hn, hb, hf, by simp⟩
    | surfaced =>
      simp only [Stage.marks, Verdict.marks, List.cons_append, List.nil_append, List.filter,
        Mark.isNotice, List.map_eq_cons_iff, List.map_eq_nil_iff] at marks
      obtain ⟨n, _, hn, hb, u, _, rfl, hu, n', _, rfl, hf, rfl⟩ := marks
      exact ⟨n, [u], n', hn, hb, hf, by simpa using ofUpdated hu⟩
  obtain ⟨n, updates, n', hn, hb, hf, hu⟩ := parts
  obtain ⟨q, f, rfl⟩ := ofBegun hb
  obtain ⟨q', g, rfl⟩ := ofFinished hf
  have hq : q = p := named (.begin q f) (by simp [hn])
  have hq' : q' = p := named (.finish q' g) (by simp [hn])
  subst hq
  subst hq'
  exact ⟨f, g, updates, hn, hu⟩

theorem Coherent.stands_of_begun (c : s.Coherent) {f : Value}
    (begun : .emitted d (.begin p f) ∈ s.history) :
    s.Stands d.key .begun ∨ ∃ y, s.Stands d.key y ∧ y.Beyond := by
  obtain ⟨y, hy⟩ := c.stage d.key
  have hm := mem_life begun (m := .begun) rfl
  rw [hy] at hm
  cases y with
  | unopened | opened => simp [Stage.marks] at hm
  | begun => exact .inl hy
  | entered | answered r v | closed r v => exact .inr ⟨_, hy, trivial⟩

/-- A dispatch that stands where it has begun was announced. -/
theorem Coherent.begun_of_stage (c : s.Coherent) {x : Stage} (hx : s.Stands d.key x)
    (hm : .begun ∈ x.marks) (known : .dispatched d ∈ s.history)
    (hp : s.providerOf d.record = some p) : ∃ f, .emitted d (.begin p f) ∈ s.history := by
  obtain ⟨e, he, d', hd, hk⟩ := mem_life_iff.mp (hx ▸ hm)
  obtain rfl := c.unique (c.known he hd) known hk
  obtain ⟨q, f, rfl⟩ : ∃ q f, e = .emitted d' (.begin q f) := by
    cases e with
    | emitted d n =>
      cases n <;> simp [Entry.mark?, Notice.mark] at hd
      exact ⟨_, _, by rw [hd]⟩
    | _ => simp [Entry.mark?] at hd
  obtain rfl : q = p := Option.some.inj ((c.provider he).symm.trans hp)
  exact ⟨f, he⟩

/-- If the provider's scope stays valid, a dispatch whose task has ended stands at its beginning or
its end was announced. -/
theorem Path.ended_cases (h : s.opening.Path s')
    (valid : ∀ u f, s.opening.Path u → u.Path s' → .emitted d (.begin p f) ∈ u.history →
      ∃ scope, u.scopeOf p = .ok scope) {z : Task}
    {e : Ending} (hz : s'.loop.tasks[t]? = some z) (hd : z.job = .dispatch d)
    (he : z.phase = .ended e) (hp : s'.providerOf d.record = some p) :
    s'.Stands d.key .begun ∨ ∃ r v, s'.Stands d.key (.closed r v) := by
  induction h generalizing z e with
  | refl => simp [opening] at hz
  | @tail u v path step ih =>
    have c := s.coherent_opening.path path
    have earlier {x : Stage} (hx : u.Stands d.key x) (hJ : v.history = u.history) :
        v.Stands d.key x := by rw [Stands, hJ, hx]
    rcases step.dispatch_task hz hd with ⟨w, hw, hwd, turn⟩ | ⟨_, hf, _⟩
    · have hpu : u.providerOf d.record = some p := by
        obtain ⟨x, hx, _⟩ := c.generation (c.tasked hw hwd)
        have := Path.providerOf (.single step) (providerOf_eq hx)
        rw [providerOf_eq hx, ← this, hp]
      cases turn with
      | keeps hk =>
        have hwe : w.phase = .ended e := (hk.phase_eq' (by simp [he])).symm.trans he
        rcases ih (fun u' f h h' => valid u' f h (h'.tail step)) hw hwd hwe hpu with hx | ⟨r, y, hx⟩
        · exact .inl (Path.stands_of_ended (.single step) c hw hwd hwe hx)
        · exact .inr ⟨r, y, Path.stands_of_ended (.single step) c hw hwd hwe hx⟩
      | wakes _ _ after =>
        rw [he] at after
        cases after
      | waits _ _ _ _ after => rcases after with ⟨_, h⟩ | ⟨_, _, h⟩ <;> simp [he] at h
      | gathers _ job => simp [hwd] at job
      | ends _ hJ may =>
        obtain ⟨q, hq, stage | ⟨r, y, stage⟩ | ⟨r, y, f, stage, hs⟩⟩ := may d hwd
        · exact .inl (earlier stage hJ)
        · exact .inr ⟨r, y, earlier stage hJ⟩
        · obtain rfl := Option.some.inj (hq.symm.trans hpu)
          obtain ⟨begun, hb⟩ := c.begun_of_stage stage (by simp [Stage.marks]) (c.tasked hw hwd) hq
          obtain ⟨scope, hscope⟩ := valid u begun path (.single step) hb
          rw [hs] at hscope
          cases hscope
    · rw [he] at hf
      cases hf

/-- When all tasks of a lint have ended, a provider that had begun has finished exactly once if its
dispatch was launched, and otherwise never. -/
theorem finishes_iff_launched (s : Session) (moves : List Move) {f : Value}
    (begun : .emitted d (.begin p f) ∈ (s.opening.run moves).history)
    (allEnded : (s.opening.run moves).RoundOver d.round)
    (valid : (s.opening.run moves).ScopeStaysValid d p) :
    ((s.opening.run moves).FinishesOnce d p ↔ s.opening.Launched moves d) ∧
      (¬ s.opening.Launched moves d → (s.opening.run moves).noticesOf d.key = [.begin p f]) := by
  have path := (s.comes_opening moves).path
  have c := s.coherent_run moves
  have known := c.known begun (m := .begun) rfl
  rw [← beyond_iff_launched s moves known]
  have rest : ¬ (∃ y, (s.opening.run moves).Stands d.key y ∧ y.Beyond) →
      (s.opening.run moves).noticesOf d.key = [.begin p f] := by
    intro hn
    rcases c.stands_of_begun begun with h | h
    · exact h.notices_begun begun
    · exact absurd h hn
  refine ⟨⟨?_, ?_⟩, rest⟩
  · rintro ⟨_, _, updates, hnotices, _⟩
    by_contra hn
    have length := congrArg List.length ((rest hn).symm.trans hnotices)
    simp at length
  · rintro ⟨y, hy, hb⟩
    obtain ⟨t, z, d', hz, hd, hk⟩ := c.carried hy hb
    obtain rfl := c.unique (c.tasked hz hd) known hk
    obtain ⟨w, e, hw, he⟩ := allEnded t z d' hz hd rfl
    rw [hz, Option.some.injEq] at hw
    subst hw
    have scopes (u : Session) (f : Value) (h : s.opening.Path u)
        (h' : u.Path (s.opening.run moves)) (begun : .emitted d' (.begin p f) ∈ u.history) :
        ∃ scope, u.scopeOf p = .ok scope := valid.scopeOf h h' begun
    rcases path.ended_cases scopes hz hd he (c.provider begun) with h | ⟨r, v, h⟩
    · obtain rfl := h.unique hy
      exact hb.elim
    · exact c.finishesOnce h (c.provider begun)

theorem FinishesOnce.two_le (h : s.FinishesOnce d p) : 2 ≤ (s.noticesOf d.key).length := by
  obtain ⟨f, g, updates, hn, _⟩ := h
  rw [hn, List.length_append, List.length_cons, List.length_singleton]
  omega

/-- A host with one surface and the providers `p` and `q`, both for every file and both leaving their
answers to requests, and with a listener that does the same whenever a provider begins. -/
def sample (onBegin : List Action) : Session where
  template := { host := "h", schema := Setting.coreSchema }
  source := .given fun _ => .ok (.bool false)
  registry := { bus := ({} : Bus).subscribe ⟨.begin, "c"⟩ }
  host := {
    surfaces := .ofList [("s", { answers := fun
      | .path => .str "/a"
      | .persisted => .bool true
      | .grammar => .str "g"
      | _ => .bool false })]
    providers := .ofList (["p", "q"].map fun name => (name, {
      attributes := { own := .ofList [("name", .str name), ("scope", .str "file"),
        ("grammar_scopes", .list [.str "*"]), ("lints_on_change", .bool true)] }
      reply := fun _ => .request Reply.settle }))
    listeners := .ofList [("c", { script := fun _ _ => .ofActions onBegin })] }

/-- A lint of the surface of a sample, and ticks enough for it to come to where it waits or ends. -/
def sampleLint : List Move :=
  .act (.lint (.surface "s" (.bool false)) none) :: List.replicate 8 .tick

/-- Whether a provider began in a history, of which lint, registration and generation. -/
def beginnings (s : Session) (p : ProviderId) : List (TaskId × RecordId × Nat) :=
  s.history.filterMap fun
    | .emitted d (.begin q _) => if q = p then some (d.round, d.record, d.generation) else none
    | _ => none

theorem mem_beginnings_iff {x : TaskId × RecordId × Nat} : x ∈ s.beginnings p ↔
    ∃ d f, .emitted d (.begin p f) ∈ s.history ∧ (d.round, d.record, d.generation) = x := by
  simp only [beginnings, List.mem_filterMap]
  constructor
  · rintro ⟨e, he, hx⟩
    split at hx
    · split at hx
      · exact ⟨_, _, ‹_ = p› ▸ he, Option.some.inj hx⟩
      · cases hx
    · cases hx
  · rintro ⟨d, f, hd, rfl⟩
    exact ⟨_, hd, by simp⟩

theorem hasEnded_of_all (h : (List.range s.loop.tasks.size).all s.loop.hasEnded = true)
    (ht : t < s.loop.tasks.size) : s.HasEnded t := by
  have he := List.all_eq_true.mp h t (List.mem_range.mpr ht)
  rw [Loop.hasEnded, Array.getElem?_eq_getElem ht] at he
  cases hp : s.loop.tasks[t].phase with
  | ended e => exact ⟨_, e, Array.getElem?_eq_getElem ht, hp⟩
  | _ => simp [hp] at he

theorem roundOver_of_all (h : (List.range s.loop.tasks.size).all s.loop.hasEnded = true)
    (t : TaskId) : s.RoundOver t :=
  fun _ _ _ hx _ _ => hasEnded_of_all h (Array.getElem?_eq_some_iff.mp hx).1

theorem scopeStaysValid_of_all
    (h : s.history.all (fun | .reshaped q _ => q != p | _ => true) = true) (d : Dispatch) :
    s.ScopeStaysValid d p := by
  intro J₁ J₂ f a hJ ha
  have := List.all_eq_true.mp h (.reshaped p a) (by simp [hJ, ha])
  simp at this

/-- A dispatch that is answered while nobody cancels it. -/
theorem sample_finishes :
    let moves := .act (.add "p" false) :: sampleLint ++
      .act (.resolve "p" 0 (.list [.int 1])) :: List.replicate 4 .tick
    let last := (sample []).opening.run moves
    ∃ d f, .emitted d (.begin "p" f) ∈ last.history ∧ last.RoundOver d.round ∧
      last.ScopeStaysValid d "p" ∧
      (last.FinishesOnce d "p" ↔ (sample []).opening.Launched moves d) ∧
      (¬ (sample []).opening.Launched moves d → last.noticesOf d.key = [.begin "p" f]) := by
  intro moves last
  obtain ⟨d, f, begun, _⟩ := mem_beginnings_iff.mp
    (show (0, 0, 1) ∈ last.beginnings "p" by decide +kernel)
  have allEnded : last.RoundOver d.round := roundOver_of_all (by decide +kernel) d.round
  have valid : last.ScopeStaysValid d "p" := scopeStaysValid_of_all (by decide +kernel) d
  exact ⟨d, f, begun, allEnded, valid, finishes_iff_launched (sample []) moves begun allEnded valid⟩

/-- A lint that is cancelled by a listener that hears of the beginning: its task has ended, and so has
that of the dispatch, but the provider has not finished. -/
theorem sample_cancelled_unfinished :
    let last := (sample [.cancel "t1"]).opening.run (.act (.add "p" false) :: sampleLint)
    ∃ d f, .emitted d (.begin "p" f) ∈ last.history ∧ last.IsCancelling d.round ∧
      last.HasEnded d.round ∧ last.RoundOver d.round ∧
      last.ScopeStaysValid d "p" ∧ ¬ last.FinishesOnce d "p" := by
  intro last
  obtain ⟨d, f, begun, hd⟩ := mem_beginnings_iff.mp
    (show (0, 0, 1) ∈ last.beginnings "p" by decide +kernel)
  obtain ⟨hr, hid, hg⟩ : d.round = 0 ∧ d.record = 0 ∧ d.generation = 1 := by simpa using hd
  have cancelling : last.loop.tasks[0]?.map Task.cancelling = some true := by decide +kernel
  have ended : (List.range last.loop.tasks.size).all last.loop.hasEnded = true := by decide +kernel
  have one : (last.noticesOf (0, 1)).length = 1 := by decide +kernel
  obtain ⟨x, hx, hc⟩ := Option.map_eq_some_iff.mp cancelling
  have lintEnded : last.HasEnded 0 := hasEnded_of_all ended (Array.getElem?_eq_some_iff.mp hx).1
  refine ⟨d, f, begun, ⟨x, hr ▸ hx, hc⟩, hr ▸ lintEnded, roundOver_of_all ended _,
    scopeStaysValid_of_all (by decide +kernel) d, fun h => ?_⟩
  have two := h.two_le
  rw [Dispatch.key, hid, hg, one] at two
  omega

/-- The next tick is the first step of the lint, and choosing the providers of its round fails: in
deciding whether the edit is linted, or at one of the registrations, when others may have begun. -/
structure FailsToChoose (s : Session) (t : TaskId) (f : Failure) : Prop where
  turn : ∃ rest z c, s.loop.ready = .step t :: rest ∧ s.loop.tasks[t]? = some z ∧
    z.job = .lint c ∧ z.phase = .fresh ∧ z.cancelPending = false ∧
      ((Round.start t c).exec (s.woken t)).1 = .error f

theorem Barren.turned {u : TaskId} {ph : Phase} (h : s.Barren t)
    (hk : (s.loop.setPhase u ph).Keeps s'.loop) : s'.Barren t := by
  intro v y d hy hd
  obtain ⟨x, hx, hxy⟩ := hk.back_dispatch hy hd
  rw [Loop.setPhase, Loop.getElem?_changeTask] at hx
  split at hx
  · obtain ⟨w, hw, rfl⟩ := Option.map_eq_some_iff.mp hx
    exact h v w d hw (hxy.job.symm.trans hd)
  · exact h v x d hx (hxy.job.symm.trans hd)

/-- A lint that fails to choose its providers has ended at once, and no dispatch of it gets a task. -/
theorem FailsToChoose.barren {f : Failure} (h : s.FailsToChoose t f) (c : s.Coherent)
    (idle : s.Idle) : s.tick.HasEnded t ∧ s.tick.Barren t := by
  obtain ⟨rest, z, context, hr, hz, hj, hf, hc, he⟩ := h.turn
  have first : Path s (s.woken t) := path_woken idle hr hz (by simp [hf])
  have runs : (s.woken t).Runs t (.lint context) := hj ▸ runs_wake hz
  have started := Round.started (c.path first) runs
  let s₁ := ((Round.start t context).exec (s.woken t)).2
  have unfolded : s.tick = ((finish t (.error f)).run s₁).2 := by
    rw [tick_step hr hz, resume_lint hf hj hc, run_startLint, he]
  obtain ⟨x, hx, _⟩ := runs.keeps started.meanwhile.loop
  have hk := s₁.loop.keeps_finish t (endingOf (s₁.loop.isCancelPending t)
    ((Except.error f : Except Failure Bool).mapError Failure.leaving))
  have fresh : (s.woken t).Barren t := (c.barren_of_fresh hz hf).wake
  rw [unfolded]
  refine ⟨?_, (fresh.keeps started.meanwhile.loop).turned hk⟩
  obtain ⟨y, hy, _, kept⟩ := hk.forth_turned hx
  exact ⟨y, _, hy, (kept rfl).phase_eq (by simp)⟩

/-- After a lint has failed to choose its providers, none of those that had begun ever finishes: every
one of them finishes once only if there are none. -/
theorem unfinished_after_failed_choice (s : Session) (before after : List Move) {f : Failure}
    (fails : (s.opening.run before).FailsToChoose t f) :
    let last := s.opening.run (before ++ .tick :: after)
    (∀ d p g, d.round = t → .emitted d (.begin p g) ∈ last.history →
      last.noticesOf d.key = [.begin p g]) ∧
    ((∀ d p g, d.round = t → .emitted d (.begin p g) ∈ last.history → last.FinishesOnce d p) ↔
      ∀ d p g, d.round = t → .emitted d (.begin p g) ∉ last.history) := by
  intro last
  have c := s.coherent_run before
  have idle := (s.comes_opening before).idle
  obtain ⟨ended, barren⟩ := fails.barren c idle
  have tick : (s.opening.run before).Comes (s.opening.run before).tick := comes_tick c idle
  have rest := (comes_run (c.path tick.path) tick.idle after).path
  have c' : last.Coherent := s.coherent_run _
  have barren' : last.Barren t := by
    change (s.opening.run (before ++ .tick :: after)).Barren t
    rw [run_append]
    exact rest.barren_of_ended ended barren
  have unfinished (d : Dispatch) (p : ProviderId) (g : Value) (hd : d.round = t)
      (begun : .emitted d (.begin p g) ∈ last.history) : last.noticesOf d.key = [.begin p g] := by
    rcases c'.stands_of_begun begun with h | ⟨y, hy, hb⟩
    · exact h.notices_begun begun
    · obtain ⟨u, z, d', hz, hzd, hk⟩ := c'.carried hy hb
      obtain rfl := c'.unique (c'.tasked hz hzd) (c'.known begun (m := .begun) rfl) hk
      exact absurd hd (barren' u z d' hz hzd)
  refine ⟨unfinished, ?_, fun none d p g hd begun => absurd begun (none d p g hd)⟩
  intro all d p g hd begun
  obtain ⟨_, _, updates, hnotices, _⟩ := all d p g hd begun
  have length := congrArg List.length ((unfinished d p g hd begun).symm.trans hnotices)
  simp at length

/-- The second of two providers has lost its name when the first has begun. -/
theorem sample_unfinished_after_failed_choice :
    let before : List Move := [.act (.add "p" false), .act (.add "q" false),
      .act (.deleteAttribute "q" "name"), .act (.lint (.surface "s" (.bool false)) none)]
    let last := (sample []).opening.run (before ++ .tick :: List.replicate 8 .tick)
    ∃ f, ((sample []).opening.run before).FailsToChoose 0 f ∧
    (∀ d p g, d.round = 0 → .emitted d (.begin p g) ∈ last.history →
      last.noticesOf d.key = [.begin p g]) ∧
    ((∀ d p g, d.round = 0 → .emitted d (.begin p g) ∈ last.history → last.FinishesOnce d p) ↔
      ∀ d p g, d.round = 0 → .emitted d (.begin p g) ∉ last.history) := by
  intro before last
  let u := (sample []).opening.run before
  have ready : u.loop.ready = [.step 0] := by decide +kernel
  have chooses : (u.loop.tasks[0]?.any fun z => match z.job, z.phase with
      | .lint c, .fresh => !z.cancelPending && ((Round.start 0 c).exec (u.woken 0)).1.toOption.isNone
      | _, _ => false) = true := by decide +kernel
  obtain ⟨z, hz, hc⟩ := (Option.any_eq_true _ _).mp chooses
  split at hc
  · rename_i context hj hp
    rw [Bool.and_eq_true, Bool.not_eq_true'] at hc
    obtain ⟨pending, failed⟩ := hc
    cases he : ((Round.start 0 context).exec (u.woken 0)).1 with
    | ok chosen => simp [he, Except.toOption] at failed
    | error f =>
      have fails : u.FailsToChoose 0 f := ⟨[], z, context, ready, hz, hj, hp, pending, he⟩
      exact ⟨f, fails, unfinished_after_failed_choice (sample []) before _ fails⟩
  · cases hc

/-- All tasks of that lint have ended, and the first provider has not finished. -/
theorem sample_begun_before_failed_choice :
    let last := (sample []).opening.run (.act (.add "p" false) :: .act (.add "q" false) ::
      .act (.deleteAttribute "q" "name") :: sampleLint)
    ∃ d f, .emitted d (.begin "p" f) ∈ last.history ∧ last.HasEnded d.round ∧
      last.RoundOver d.round ∧ ¬ last.FinishesOnce d "p" := by
  intro last
  obtain ⟨d, f, begun, hd⟩ := mem_beginnings_iff.mp
    (show (0, 0, 1) ∈ last.beginnings "p" by decide +kernel)
  obtain ⟨hr, hid, hg⟩ : d.round = 0 ∧ d.record = 0 ∧ d.generation = 1 := by simpa using hd
  have ended : (List.range last.loop.tasks.size).all last.loop.hasEnded = true := by decide +kernel
  have one : (last.noticesOf (0, 1)).length = 1 := by decide +kernel
  have lintEnded : last.HasEnded 0 := hasEnded_of_all ended (by decide +kernel)
  refine ⟨d, f, begun, hr ▸ lintEnded, roundOver_of_all ended _, fun h => ?_⟩
  have two := h.two_le
  rw [Dispatch.key, hid, hg, one] at two
  omega

end Session
end LintBroker

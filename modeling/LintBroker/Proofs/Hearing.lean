import LintBroker.Proofs.Endings
import LintBroker.Proofs.Rounds

/-!
# What a listener hears of a round

A listener that listens once to each kind of notice before a lint starts, and that nobody subscribes
or releases afterwards, hears of a lint that tells of success exactly this: of every provider that
the lint dispatched a beginning, then at most one update, then an end. It hears of no other provider,
and it hears nothing more once the lint has returned.
-/
namespace LintBroker

/-- Whether what is written leaves the bus and the attributes of the providers as they are. -/
def Entry.isElsewhere : Entry → Bool
  | .subscribed _ | .unsubscribed _ | .disposed | .reshaped .. => false
  | _ => true

namespace Session
variable {s s' s₀ : Session} {t : TaskId} {x : Task} {d : Dispatch} {K : List Entry}
  {l : ListenerId} {p : ProviderId}

/-- What the listener heard of the provider in the round of a lint, in order. -/
def heardOf (s : Session) (l : ListenerId) (t : TaskId) (p : ProviderId) : List Notice :=
  s.history.filterMap fun
    | .heard d l' n => if (l' = l ∧ d.round = t) ∧ n.provider = p then some n else none
    | _ => none

/-- What has been written since an earlier moment. -/
def since (s start : Session) : List Entry := s.history.drop start.history.length

def HasDispatched (s : Session) (t : TaskId) (p : ProviderId) : Prop :=
  ∃ d, .dispatched d ∈ s.history ∧ d.round = t ∧ s.providerOf d.record = some p

/-- No task of the round, its lint among them, has failed or was cancelled. -/
def Whole (s : Session) (t : TaskId) : Prop :=
  ∀ (u : TaskId) (x : Task) (e : Ending), s.loop.tasks[u]? = some x →
    (u = t ∨ ∃ d, x.job = .dispatch d ∧ d.round = t) → x.phase = .ended e → ∃ b, e = .value b

theorem Whole.back (h : s'.Whole t) (path : s.Path s') : s.Whole t := by
  intro u x e hx own he
  obtain ⟨y, hy, hj, hye⟩ := path.ended hx he
  refine h u y e hy (own.imp_right fun ⟨d, hd, hr⟩ => ⟨d, hj.trans hd, hr⟩) hye

/-- A lint that told of success has a round of which no task has failed or was cancelled. -/
theorem Rounds.whole (h : s.Rounds) (c : s.Coherent) {b : EditContext}
    (hx : s.loop.tasks[t]? = some x) (hj : x.job = .lint b) (he : x.phase = .ended (.value true)) :
    s.Whole t := by
  rintro u y e hy (rfl | ⟨d, hd, rfl⟩) hye
  · obtain rfl := Option.some.inj (hx.symm.trans hy)
    exact ⟨true, Phase.ended.inj (hye.symm.trans he)⟩
  · obtain ⟨m, z, b', hz, hzd, hze⟩ :=
      ((h.settled d.round).success x b hx hj he).2 d (c.tasked hy hd) rfl
    obtain rfl := c.single hy hz hd hzd rfl
    obtain rfl := Option.some.inj (hy.symm.trans hz)
    exact ⟨b', Phase.ended.inj (hye.symm.trans hze)⟩

/-! ### What one beat adds -/

theorem Beat.history (beat : s.Beat K s') : s'.history = s.history ++ K := by
  cases beat with
  | acts way => exact way.history
  | skips => simp
  | hears => simp
  | turns _ _ _ part => exact history_turn part

theorem Beat.bus (beat : s.Beat K s') : s'.registry.bus = s.registry.bus.replay K := by
  cases beat with
  | acts way => exact way.bus
  | skips => rfl
  | hears => rfl
  | turns _ _ _ part =>
    obtain ⟨s₁, account, ends⟩ := part
    cases ends <;> exact account.bus

/-- Nothing is said for a round, or what is said is heeded, or a task of the round has failed or was
cancelled. -/
theorem Beat.heeded (beat : s.Beat K s') (path : s.Path s') (whole : s'.Whole t) :
    s.Heeded K ∨ ∀ e ∈ K, ∀ d, e.speaker? = some d → d.round ≠ t := by
  cases beat with
  | acts _ silent => exact .inl (heeded_of_silent silent)
  | skips => exact .inl (heeded_of_silent (by simp))
  | hears => exact .inl (heeded_of_silent (by simp))
  | @turns u rest x K s' hr hx before part =>
    obtain ⟨s₁, account, ends⟩ := part
    cases ends with
    | pauses _ silent => exact .inl (heeded_of_silent silent)
    | awaits _ silent => exact .inl (heeded_of_silent silent)
    | gathers _ _ heeded => exact .inl heeded
    | ends e well =>
      by_cases hv : ∃ b, e = .value b
      · obtain ⟨b, rfl⟩ := hv
        exact .inl (well b rfl).heeded
      · refine .inr fun e' he' d hd hr => hv ?_
        have speaks := account.spoken e' he' d hd
        obtain ⟨y, hy, hj, hp⟩ := (runs_turn hx account.loop.toKeeps).turned
          (s₁.loop.keeps_finish u e) fun _ => nofun
        refine whole u y e hy ?_ hp
        rw [hj]
        cases hxj : x.job with
        | lint c =>
          rw [hxj] at speaks
          exact .inl (speaks.symm.trans hr)
        | dispatch d' =>
          rw [hxj] at speaks
          obtain rfl : d = d' := speaks
          exact .inr ⟨d, rfl, hr⟩

/-- Nothing is said for a round that is over. -/
theorem Beat.mute (beat : s.Beat K s') (ended : s.HasEnded t) (done : s.RoundOver t) :
    ∀ e ∈ K, ∀ d, e.speaker? = some d → d.round ≠ t := by
  cases beat with
  | acts _ silent =>
    intro e he d hd
    simp [silent e he] at hd
  | skips => simp
  | hears => simp
  | @turns u rest x K s' hr hx before part =>
    rintro e he d hd rfl
    obtain ⟨s₁, account, ends⟩ := part
    have speaks := account.spoken e he d hd
    have going : ¬ s.HasEnded u := not_ended hx before
    cases hj : x.job with
    | lint c =>
      rw [hj] at speaks
      obtain rfl : d.round = u := speaks
      exact going ended
    | dispatch d' =>
      rw [hj] at speaks
      obtain rfl : d = d' := speaks
      exact going (done u x d hx hj rfl)

theorem Path.roundOver (h : s.Path s') (ended : s.HasEnded t) (done : s.RoundOver t) :
    s'.RoundOver t := by
  induction h with
  | refl => exact done
  | @tail v w path step ih =>
    intro u y d hy hd hr
    rcases step.dispatch_task hy hd with ⟨z, hz, hzd, _⟩ | ⟨_, _, runs, _⟩
    · exact Path.hasEnded (.single step) (ih u z d hz hzd hr)
    · obtain ⟨z, e, hz, hze⟩ := Path.hasEnded path ended
      have := (runs.phase (hr ▸ hz)).1
      rw [hze] at this
      cases this

/-- Whoever is spoken for belongs to a lint that has started. -/
theorem speaker_started (s : Session) (moves : List Move) :
    ∀ e ∈ (s.opening.run moves).history, ∀ d, e.speaker? = some d →
      ∃ z, (s.opening.run moves).loop.tasks[d.round]? = some z ∧ z.phase ≠ .fresh := by
  refine Comes.beats (P := fun s => ∀ e ∈ s.history, ∀ d, e.speaker? = some d →
      ∃ z, s.loop.tasks[d.round]? = some z ∧ z.phase ≠ .fresh)
    s.comes_start (by simp [opening, history]) ?_ moves
  intro u v K path₀ path beat ih e he d hd
  rw [beat.history] at he
  have forth {z : Task} {t : TaskId} (hz : u.loop.tasks[t]? = some z) (hp : z.phase ≠ .fresh) :
      ∃ z, v.loop.tasks[t]? = some z ∧ z.phase ≠ .fresh :=
    (path.started hz hp).imp fun _ h => ⟨h.1, h.2.2⟩
  rcases List.mem_append.mp he with he | he
  · obtain ⟨z, hz, hp⟩ := ih e he d hd
    exact forth hz hp
  · cases beat with
    | acts _ silent => simp [silent e he] at hd
    | skips => cases he
    | hears => cases he
    | @turns t rest x K v hr hx before part =>
      obtain ⟨s₁, account, _⟩ := id part
      have speaks := account.spoken e he d hd
      cases hj : x.job with
      | lint c =>
        rw [hj] at speaks
        obtain rfl : d.round = t := speaks
        exact started_turn hx part
      | dispatch d' =>
        rw [hj] at speaks
        obtain rfl : d = d' := speaks
        obtain ⟨z, _, hz, _, hp⟩ := (s.coherent_opening.path path₀).round hx hj
        exact forth hz hp

/-! ### What was said and heard for one round -/

def ofRound (t : TaskId) (xs : List (Dispatch × Notice)) : List (Dispatch × Notice) :=
  xs.filter fun x => x.1.round = t

theorem ofRound_append (t : TaskId) (xs ys : List (Dispatch × Notice)) :
    ofRound t (xs ++ ys) = ofRound t xs ++ ofRound t ys := List.filter_append ..

section mute
variable (mute : ∀ e ∈ K, ∀ d, e.speaker? = some d → d.round ≠ t)
include mute

theorem ofRound_said_of_mute : ofRound t (said K) = [] := by
  refine List.filter_eq_nil_iff.mpr fun ⟨d, n⟩ h => ?_
  obtain ⟨e, he, hd⟩ := List.mem_filterMap.mp h
  cases e with
  | emitted d' n' =>
    obtain ⟨rfl, _⟩ := Prod.mk.inj (Option.some.inj hd)
    simpa using mute _ he d' rfl
  | _ => cases hd

theorem ofRound_told_of_mute (l : ListenerId) : ofRound t (told l K) = [] := by
  refine List.filter_eq_nil_iff.mpr fun ⟨d, n⟩ h => ?_
  obtain ⟨e, he, hd⟩ := List.mem_filterMap.mp h
  cases e with
  | heard d' l' n' =>
    simp only [Entry.told?, Option.ite_none_right_eq_some, Option.some.injEq, Prod.mk.injEq] at hd
    obtain ⟨_, rfl, _⟩ := hd
    simpa using mute _ he d' rfl
  | _ => cases hd

end mute

theorem map_bare_heardOf (s : Session) (l : ListenerId) (t : TaskId) (p : ProviderId) :
    (s.heardOf l t p).map Notice.bare =
      ((ofRound t (told l s.history)).filter fun x => x.2.provider = p).map Prod.snd := by
  rw [heardOf, ofRound, told, List.map_filterMap, List.filter_filterMap, List.filter_filterMap,
    List.map_filterMap]
  congr 1
  funext e
  cases e with
  | heard d l' n =>
    by_cases hl : l' = l <;> by_cases hr : d.round = t <;> by_cases hp : n.provider = p <;>
      simp [Entry.told?, hl, hr, hp]
  | _ => rfl

theorem map_bare_noticesOf (only : ∀ d' n, .emitted d' n ∈ s.history →
      (d'.key = d.key ↔ d'.round = t ∧ n.provider = p)) :
    (s.noticesOf d.key).map Notice.bare =
      ((ofRound t (said s.history)).filter fun x => x.2.provider = p).map Prod.snd := by
  rw [noticesOf, ofRound, said, List.map_filterMap, List.filter_filterMap, List.filter_filterMap,
    List.map_filterMap]
  refine List.filterMap_congr fun e he => ?_
  cases e with
  | emitted d' n =>
    have same := only d' n he
    by_cases hr : d'.round = t <;> by_cases hp : n.provider = p <;>
      simp [Entry.said?, same, hr, hp]
  | _ => rfl

/-- As long as no task of the round fails or is cancelled, the listener has heard what was said for
the round. -/
theorem ofRound_told (start : Session) (from_ : s₀.opening.Comes start)
    (attended : start.registry.bus.Attended l) (moves : List Move) :
    ∃ J, (start.run moves).history = start.history ++ J ∧
      (start.run moves).registry.bus = start.registry.bus.replay J ∧
      ((start.run moves).Whole t → (∀ e ∈ J, ¬ e.Concerns l) →
        ofRound t (told l J) = ofRound t (said J)) := by
  refine Comes.beats (P := fun s => ∃ J, s.history = start.history ++ J ∧
    s.registry.bus = start.registry.bus.replay J ∧ (s.Whole t → (∀ e ∈ J, ¬ e.Concerns l) →
      ofRound t (told l J) = ofRound t (said J))) from_ ⟨[], by simp, rfl, fun _ _ => rfl⟩ ?_ moves
  rintro u v K path₀ path beat ⟨J, hJ, bus, heard⟩
  refine ⟨J ++ K, by rw [beat.history, hJ, List.append_assoc], ?_, fun whole quiet => ?_⟩
  · rw [beat.bus, bus, Bus.replay, Bus.replay, Bus.replay, List.foldl_append]
  · have before : ∀ e ∈ J, ¬ e.Concerns l := fun e he => quiet e (List.mem_append_left _ he)
    have now : ∀ e ∈ K, ¬ e.Concerns l := fun e he => quiet e (List.mem_append_right _ he)
    have still : u.registry.bus.Attended l := bus ▸ attended.replay before
    have one : ofRound t (told l K) = ofRound t (said K) := by
      rcases beat.heeded path whole with heeded | mute
      · rw [heeded l still now]
      · rw [ofRound_told_of_mute mute, ofRound_said_of_mute mute]
    rw [told_append, said_append, ofRound_append, ofRound_append, one,
      heard (whole.back path) before]

theorem round_ne_of_unstarted (s : Session) (moves : List Move)
    (unstarted : ∀ z, (s.opening.run moves).loop.tasks[t]? = some z → z.phase = .fresh) :
    ∀ e ∈ (s.opening.run moves).history, ∀ d, e.speaker? = some d → d.round ≠ t := by
  rintro e he d hd rfl
  obtain ⟨z, hz, started⟩ := s.speaker_started moves e he d hd
  exact started (unstarted z hz)

/-- In a round that has come to its dispatches, all that is said of a provider is said for its one. -/
theorem Formed.key_eq_iff (h : s.Formed t) (c : s.Coherent) (known : .dispatched d ∈ s.history)
    (hr : d.round = t) (hp : s.providerOf d.record = some p) {d' : Dispatch} {n : Notice}
    (hn : .emitted d' n ∈ s.history) : d'.key = d.key ↔ d'.round = t ∧ n.provider = p := by
  have known' : .dispatched d' ∈ s.history := c.known hn rfl
  constructor
  · intro same
    obtain rfl := c.unique known' known same
    exact ⟨hr, Option.some.inj ((c.provider hn).symm.trans hp)⟩
  · rintro ⟨hr', rfl⟩
    rw [h.apart d' d known' known hr' hr ((c.provider hn).trans hp.symm)]

/-- If what was said for a round is what was heard of it, nothing was heard of a provider that has no
dispatch in it. -/
theorem heardOf_eq_nil (c : s.Coherent)
    (all : ofRound t (told l s.history) = ofRound t (said s.history))
    (not : ¬ s.HasDispatched t p) : s.heardOf l t p = [] := by
  rw [← List.map_eq_nil_iff (f := Notice.bare), map_bare_heardOf, all, List.map_eq_nil_iff]
  refine List.filter_eq_nil_iff.mpr fun ⟨d, n⟩ hn own => not ?_
  obtain ⟨hn, hr⟩ := List.mem_filter.mp hn
  obtain ⟨e, he, hs⟩ := List.mem_filterMap.mp hn
  cases e with
  | emitted d' n' =>
    obtain ⟨rfl, rfl⟩ := Prod.mk.inj (Option.some.inj hs)
    refine ⟨d', c.known he rfl, by simpa using hr, (c.provider he).trans ?_⟩
    simpa using own
  | _ => cases hs

/-- Once a lint has returned and the tasks of its round have ended, nothing is heard of the round. -/
theorem heardOf_stays (from_ : s₀.opening.Comes s) (ended : s.HasEnded t) (done : s.RoundOver t)
    (moves : List Move) : (s.run moves).heardOf l t p = s.heardOf l t p := by
  refine (Comes.beats (P := fun v => s.Path v ∧ v.heardOf l t p = s.heardOf l t p) from_
    ⟨.refl, rfl⟩ ?_ moves).2
  rintro u v K path₀ path beat ⟨way, ih⟩
  refine ⟨way.trans path, ?_⟩
  have mute := beat.mute (way.hasEnded ended) (Path.roundOver way ended done)
  rw [← ih, heardOf, beat.history, List.filterMap_append]
  refine List.append_right_eq_self.mpr (List.filterMap_eq_nil_iff.mpr fun e he => ?_)
  cases e with
  | heard d l' n => simp [mute _ he d rfl]
  | _ => rfl

/-! ### What the notices carry -/

def Carries (scope : Scope) (c : EditContext) : Notice → Prop
  | .begin _ f | .finish _ f => f = c.pathIn scope
  | .update _ _ b => b = c.bufferIn scope

/-- What is emitted carries what it should for the scope that its provider has at that moment. -/
theorem Step.carries (h : s.Step s') {n : Notice} (hJ : s'.history = s.history ++ [.emitted d n]) :
    ∃ scope, s.scopeOf n.provider = .ok scope ∧ Carries scope d.context n := by
  cases h with
  | change h =>
    have := h.mark?_of_concat hJ
    simp [Entry.mark?] at this
  | begins _ _ _ _ hs | surfaces _ _ _ _ _ _ hs | closes _ _ _ _ hs =>
    simp only [history_noted, List.append_cancel_left_eq, List.cons.injEq, and_true,
      Entry.emitted.injEq] at hJ
    obtain ⟨rfl, rfl⟩ := hJ
    exact ⟨_, hs, rfl⟩
  | _ => simp at hJ

/-- The provider has this scope, and it keeps it from one moment to another. -/
structure ScopeStays (start last : Session) (p : ProviderId) (scope : Scope) : Prop where
  now : start.scopeOf p = .ok scope
  later : ∀ a, .reshaped p a ∈ last.since start → a.scope = .ok scope

theorem since_eq {start last : Session} {J : List Entry} (hJ : last.history = start.history ++ J) :
    last.since start = J := by
  rw [since, hJ, List.drop_left]

/-- What is emitted while a provider keeps its scope carries what it should. -/
theorem Path.carries {start last : Session} (h : start.Path last) {scope : Scope} {n : Notice}
    (stays : start.ScopeStays last n.provider scope) (hn : .emitted d n ∈ last.since start) :
    Carries scope d.context n := by
  obtain ⟨J, hJ⟩ := h.history_prefix
  rw [since_eq hJ] at hn
  obtain ⟨u, v, hu, step, rest, hv⟩ := h.later hJ hn
  obtain ⟨scope', hs, carries⟩ := step.carries hv
  obtain ⟨J₁, hJ₁⟩ := hu.history_prefix
  have same : (u.attributesOf n.provider >>= Attributes.scope) = .ok scope := by
    refine hu.attributesOf (P := fun r => (r >>= Attributes.scope) = .ok scope) hJ₁ stays.now
      fun a ha => stays.later a ?_
    obtain ⟨J₂, hJ₂⟩ := Path.history_prefix (.head step rest)
    have all : J = J₁ ++ J₂ := by
      rw [hJ, hJ₁, List.append_assoc] at hJ₂
      exact List.append_cancel_left hJ₂
    rw [since_eq hJ, all]
    exact List.mem_append_left _ ha
  obtain rfl : scope' = scope := Except.ok.inj (hs.symm.trans same)
  exact carries

theorem Stands.length_noticesOf_le {k : DispatchKey} {r : Except Failure Value} {v : Verdict}
    (h : s.Stands k (.closed r v)) : (s.noticesOf k).length ≤ 3 := by
  have marks := congrArg List.length (s.map_mark_noticesOf k)
  rw [List.length_map, h] at marks
  rw [marks]
  cases v <;> simp [Stage.marks, Verdict.marks, Mark.isNotice, List.filter_cons]

/-- A dispatch whose task has ended with a value has announced its end. -/
theorem Rounds.closed (h : s.Rounds) (c : s.Coherent) {b : Bool} (hx : s.loop.tasks[t]? = some x)
    (hd : x.job = .dispatch d) (he : x.phase = .ended (.value b)) :
    ∃ r v, s.Stands d.key (.closed r v) := by
  obtain ⟨n, hn, finish⟩ := (h.settled t).closing x d b hx hd he
  obtain ⟨y, hy⟩ := c.stage d.key
  have marked : Mark.finished ∈ life d.key s.history := finish ▸ mem_life hn rfl
  rw [hy] at marked
  cases y with
  | closed r v => exact ⟨r, v, hy⟩
  | answered r v => cases v <;> simp [Stage.marks, Verdict.marks] at marked
  | _ => simp [Stage.marks] at marked

/-- The listener heard of a beginning, then of one update at most, then of an end, all of them of the
provider and carrying what they should. -/
def HearsInOrder (s : Session) (l : ListenerId) (t : TaskId) (p : ProviderId) (scope : Scope)
    (c : EditContext) : Prop :=
  ∃ updates, s.heardOf l t p =
      .begin p (c.pathIn scope) :: updates ++ [.finish p (c.pathIn scope)] ∧
    updates.length ≤ 1 ∧ ∀ n ∈ updates, ∃ messages, n = .update p messages (c.bufferIn scope)

/-- What was said of a dispatch and heard without its messages was heard in order. -/
theorem FinishesOnce.hearsInOrder (h : s.FinishesOnce d p) {scope : Scope} {c : EditContext}
    (few : (s.noticesOf d.key).length ≤ 3)
    (carries : ∀ n ∈ s.noticesOf d.key, n.provider = p ∧ Carries scope c n)
    (heard : (s.heardOf l t p).map Notice.bare = (s.noticesOf d.key).map Notice.bare) :
    s.HearsInOrder l t p scope c := by
  obtain ⟨f, g, updates, hn, hu⟩ := h
  obtain rfl := (carries (.begin p f) (by simp [hn])).2
  obtain rfl := (carries (.finish p g) (by simp [hn])).2
  have short : updates.length ≤ 1 := by
    rw [hn, List.length_append, List.length_cons, List.length_singleton] at few
    omega
  rw [hn, List.map_append, List.map_cons, List.cons_append, List.map_eq_cons_iff] at heard
  obtain ⟨n₁, rest, heard, h₁, hrest⟩ := heard
  obtain ⟨us, last, rfl, hus, hlast⟩ := List.map_eq_append_iff.mp hrest
  obtain ⟨n₂, rfl, h₂⟩ := List.map_eq_singleton_iff.mp hlast
  refine ⟨us, ?_, ?_, fun n hmem => ?_⟩
  · rw [heard, Notice.eq_of_bare_begin h₁, Notice.eq_of_bare_finish h₂, List.cons_append]
  · rw [← List.length_map (f := Notice.bare), hus, List.length_map]
    exact short
  · obtain ⟨u, hu', same⟩ := List.mem_map.mp (hus ▸ List.mem_map_of_mem (f := Notice.bare) hmem)
    obtain ⟨provider, carry⟩ := carries u (by simp [hn, hu'])
    cases u with
    | update q messages b =>
      obtain rfl : q = p := provider
      obtain rfl := carry
      exact Notice.eq_of_bare_update same.symm
    | _ => cases hu _ hu'

/-- A listener that listens once to each kind of notice before a lint starts, and that nobody
subscribes or releases afterwards, hears of a lint that tells of success what was said of each
provider that was dispatched, in order; nothing of any other; and nothing once the lint has
returned. -/
theorem heard_of_success (s : Session) (before after more : List Move) {l : ListenerId} {t : TaskId}
    {x : Task} {c : EditContext} (scopeOf : ProviderId → Scope) :
    let start := s.opening.run before
    let last := start.run after
    start.registry.bus.Attended l →
    (∀ z, start.loop.tasks[t]? = some z → z.phase = .fresh) →
    (∀ e ∈ last.since start, ¬ e.Concerns l) →
    last.loop.tasks[t]? = some x → x.job = .lint c → x.phase = .ended (.value true) →
    (∀ p, last.HasDispatched t p → start.ScopeStays last p (scopeOf p)) →
    (∀ p, last.HasDispatched t p → last.HearsInOrder l t p (scopeOf p) c) ∧
    (∀ p, ¬ last.HasDispatched t p → last.heardOf l t p = []) ∧
    ∀ p, (last.run more).heardOf l t p = last.heardOf l t p := by
  intro start last attended unstarted undisturbed hx job returned scopes
  have from_ := s.comes_opening before
  have way : start.Comes last := comes_run (s.coherent_run before) from_.idle after
  have whole_run : s.opening.Path last := from_.path.trans way.path
  have c' : last.Coherent := s.coherent_opening.path whole_run
  have rounds : last.Rounds := by
    have := s.rounds_run (before ++ after)
    rwa [run_append] at this
  have whole := rounds.whole c' hx job returned
  obtain ⟨formed, well⟩ := (rounds.settled t).success x c hx job returned
  have early := round_ne_of_unstarted s before unstarted
  obtain ⟨J, hJ, _, heard⟩ := ofRound_told (t := t) start from_ attended after
  have since : last.since start = J := since_eq hJ
  have all : ofRound t (told l last.history) = ofRound t (said last.history) := by
    rw [hJ, told_append, said_append, ofRound_append, ofRound_append, ofRound_told_of_mute early,
      ofRound_said_of_mute early, heard whole (since ▸ undisturbed)]
  refine ⟨fun p hp => ?_, fun p => heardOf_eq_nil c' all, fun p => ?_⟩
  · have stays := scopes p hp
    obtain ⟨d, known, rfl, hp⟩ := hp
    obtain ⟨m, y, b, hy, hyd, hye⟩ := well d known rfl
    obtain ⟨r, v, closed⟩ := rounds.closed c' hy hyd hye
    refine (c'.finishesOnce closed hp).hearsInOrder closed.length_noticesOf_le (fun n hn => ?_) ?_
    · obtain ⟨d', hd', same⟩ := mem_noticesOf_iff.mp hn
      obtain ⟨round, rfl⟩ := (formed.key_eq_iff c' known rfl hp hd').mp same
      have late : .emitted d' n ∈ last.since start := by
        rw [hJ] at hd'
        rw [since]
        exact (List.mem_append.mp hd').resolve_left fun hd => early _ hd d' rfl round
      have context : d'.context = c :=
        Path.context_eq whole_run (c'.known hd' rfl) (round ▸ hx) job
      exact ⟨rfl, context ▸ way.path.carries stays late⟩
    · rw [map_bare_heardOf, all]
      exact (map_bare_noticesOf fun d' n hn => formed.key_eq_iff c' known rfl hp hn).symm
  · refine heardOf_stays ⟨whole_run, way.idle⟩ ⟨x, _, hx, returned⟩ (fun u y d hy hd hr => ?_) more
    obtain ⟨m, z, b, hz, hzd, hze⟩ := well d (c'.tasked hy hd) hr
    obtain rfl := c'.single hy hz hd hzd rfl
    exact ⟨z, _, hz, hze⟩

def toldOfSuccess (x : Task) : Bool :=
  match x.job, x.phase with
  | .lint _, .ended (.value true) => true
  | _, _ => false

theorem exists_of_toldOfSuccess (h : (s.loop.tasks[t]?.map toldOfSuccess) = some true) :
    ∃ x c, s.loop.tasks[t]? = some x ∧ x.job = .lint c ∧ x.phase = .ended (.value true) := by
  obtain ⟨x, hx, ht⟩ := Option.map_eq_some_iff.mp h
  unfold toldOfSuccess at ht
  split at ht
  · exact ⟨x, _, hx, ‹_›, ‹_›⟩
  · cases ht

/-- A listener of all kinds, and a provider that answers once while a second lint overlaps. -/
theorem sample_heard :
    let before : List Move := [.act (.subscribe ⟨.update, "c"⟩ "u"),
      .act (.subscribe ⟨.finish, "c"⟩ "f"), .act (.add "p" false)]
    let after : List Move := sampleLint ++ sampleLint ++
      [.act (.resolve "p" 0 (.list [.int 1])), .act (.resolve "p" 1 (.list []))] ++
        List.replicate 8 .tick
    let start := (sample []).opening.run before
    let last := start.run after
    ∃ x c, start.registry.bus.Attended "c" ∧
      (∀ z, start.loop.tasks[0]? = some z → z.phase = .fresh) ∧
      (∀ e ∈ last.since start, ¬ e.Concerns "c") ∧
      last.loop.tasks[0]? = some x ∧ x.job = .lint c ∧ x.phase = .ended (.value true) ∧
      (∀ p, last.HasDispatched 0 p → start.ScopeStays last p .file) ∧ last.HasDispatched 0 "p" ∧
      (∀ p, last.HasDispatched 0 p → last.HearsInOrder "c" 0 p .file c) ∧
      (∀ p, ¬ last.HasDispatched 0 p → last.heardOf "c" 0 p = []) ∧
      ∀ p, (last.run [.act .dispose]).heardOf "c" 0 p = last.heardOf "c" 0 p := by
  intro before after start last
  obtain ⟨x, c, hx, job, returned⟩ :=
    exists_of_toldOfSuccess (s := last) (t := 0) (by decide +kernel)
  have attended : start.registry.bus.Attended "c" := by
    refine ⟨by decide +kernel, fun kind => ?_⟩
    cases kind <;> decide +kernel
  have unstarted (z : Task) (hz : start.loop.tasks[0]? = some z) : z.phase = .fresh := by
    have none : start.loop.tasks.size = 0 := by decide +kernel
    simp [Array.getElem?_eq_none (Nat.le_of_eq none)] at hz
  have plain : (last.since start).all Entry.isElsewhere = true := by decide +kernel
  have all := List.all_eq_true.mp plain
  have undisturbed (e : Entry) (he : e ∈ last.since start) : ¬ e.Concerns "c" := by
    intro hc
    have := all e he
    cases e <;> simp_all [Entry.Concerns, Entry.isElsewhere]
  have provider : last.registry.records.toList.map Record.provider = ["p"] := by decide +kernel
  have only {id : RecordId} {p : ProviderId} (hp : last.providerOf id = some p) : p = "p" := by
    obtain ⟨r, hr, rfl⟩ := Option.map_eq_some_iff.mp hp
    have hm : r.provider ∈ last.registry.records.toList.map Record.provider :=
      List.mem_map_of_mem (Array.mem_toList_iff.mpr (Array.mem_of_getElem? hr))
    simpa [provider] using hm
  have scopes (p : ProviderId) (hp : last.HasDispatched 0 p) : start.ScopeStays last p .file := by
    obtain ⟨d, _, _, hd⟩ := hp
    obtain rfl := only hd
    refine ⟨?_, fun a ha => by simpa [Entry.isElsewhere] using all _ ha⟩
    have file : (start.scopeOf "p").toOption = some .file := by decide +kernel
    cases hs : start.scopeOf "p" with
    | ok scope =>
      rw [hs] at file
      exact congrArg Except.ok (Option.some.inj file)
    | error f =>
      rw [hs] at file
      cases file
  have dispatched : last.HasDispatched 0 "p" := by
    obtain ⟨d, f, begun, hd⟩ := mem_beginnings_iff.mp
      (show (0, 0, 1) ∈ last.beginnings "p" by decide +kernel)
    have c' : last.Coherent := (comes_run ((sample []).coherent_run before)
      ((sample []).comes_opening before).idle after).path |> ((sample []).coherent_run before).path
    exact ⟨d, c'.known begun rfl, (Prod.mk.inj hd).1, c'.provider begun⟩
  have main := heard_of_success (x := x) (c := c) (l := "c") (t := 0) (sample []) before after
    [.act .dispose] fun _ => .file
  -- the moments are given their names here: telling them to be the same would run them again
  have first : (sample []).opening.run before = start := rfl
  have second : start.run after = last := rfl
  dsimp only at main
  rw [first, second] at main
  exact ⟨x, c, attended, unstarted, undisturbed, hx, job, returned, scopes, dispatched,
    main attended unstarted undisturbed hx job returned scopes⟩

end Session
end LintBroker

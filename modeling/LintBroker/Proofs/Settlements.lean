import LintBroker.Proofs.Moments

/-!
# Answers in order

What the journal says of the dispatches of one registration: which answers came and in what order,
which of them were presented to the registration and with what success, and what was surfaced.
However they come, the answers that are accepted are the strict left-to-right maxima of those
presented, and the registration remembers the greatest.
-/
namespace LintBroker

section leftMaxima
variable {α : Type} {key : α → Nat} {xs ys : List α} {x : α}

/-- The items whose key is greater than the keys of all items before them, in order. -/
def leftMaxima (key : α → Nat) (xs : List α) : List α :=
  (xs.zipIdx.filter fun y => (xs.take y.2).all fun z => key z < key y.1).map Prod.fst

@[simp] theorem leftMaxima_nil : leftMaxima key [] = [] := rfl

theorem leftMaxima_concat (key : α → Nat) (xs : List α) (x : α) :
    leftMaxima key (xs ++ [x]) =
      leftMaxima key xs ++ if ∀ y ∈ xs, key y < key x then [x] else [] := by
  have before : (xs.zipIdx.filter fun y => ((xs ++ [x]).take y.2).all fun z => key z < key y.1) =
      xs.zipIdx.filter fun y => (xs.take y.2).all fun z => key z < key y.1 := by
    refine List.filter_congr fun y hy => ?_
    have hlt : y.2 < xs.length := by simpa using List.snd_lt_of_mem_zipIdx hy
    rw [List.take_append_of_le_length (Nat.le_of_lt hlt)]
  have last : ((xs ++ [x]).take xs.length).all (fun z => key z < key x) = true ↔
      ∀ y ∈ xs, key y < key x := by simp
  rw [leftMaxima, List.zipIdx_append, List.filter_append, before, List.map_append]
  congr 1
  simp only [List.zipIdx_cons, List.zipIdx_nil, Nat.zero_add, List.filter_cons, List.filter_nil]
  by_cases h : ∀ y ∈ xs, key y < key x
  · rw [if_pos (last.mpr h), if_pos h]
    rfl
  · rw [if_neg fun all => h (last.mp all), if_neg h]
    rfl

theorem leftMaxima_sublist (key : α → Nat) (xs : List α) : (leftMaxima key xs).Sublist xs := by
  have := (List.filter_sublist (l := xs.zipIdx)
    (p := fun y => (xs.take y.2).all fun z => key z < key y.1)).map Prod.fst
  rwa [List.zipIdx_map_fst] at this

theorem map_leftMaxima {β : Type} (f : α → β) (g : β → Nat) (xs : List α) :
    (leftMaxima (fun x => g (f x)) xs).map f = leftMaxima g (xs.map f) := by
  induction xs using List.reverseRecOn with
  | nil => rfl
  | append_singleton xs x ih =>
    rw [leftMaxima_concat, List.map_append, ih, List.map_append, List.map_singleton,
      leftMaxima_concat]
    congr 1
    have all_iff : (∀ y ∈ xs.map f, g y < g (f x)) ↔ ∀ y ∈ xs, g (f y) < g (f x) :=
      List.forall_mem_map
    by_cases h : ∀ y ∈ xs, g (f y) < g (f x)
    · rw [if_pos h, if_pos (all_iff.mpr h)]
      rfl
    · rw [if_neg h, if_neg fun all => h (all_iff.mp all)]
      rfl

/-- An item that is greater than all others is the last of the maxima. -/
theorem getLast?_leftMaxima (hx : ∀ y ∈ xs, key y < key x) (hy : ∀ y ∈ ys, key y < key x) :
    (leftMaxima key (xs ++ x :: ys)).getLast? = some x := by
  induction ys using List.reverseRecOn with
  | nil =>
    rw [leftMaxima_concat, if_pos hx]
    simp
  | append_singleton ys y ih =>
    have hlt : key y < key x := hy y (by simp)
    have not_all : ¬ ∀ z ∈ xs ++ x :: ys, key z < key y := fun h =>
      Nat.lt_asymm hlt (h x (by simp))
    have split : xs ++ x :: (ys ++ [y]) = (xs ++ x :: ys) ++ [y] := by simp
    rw [split, leftMaxima_concat, if_neg not_all, List.append_nil]
    exact ih fun z hz => hy z (by simp [hz])

end leftMaxima

namespace Mark

/-- The answer that was given, if it is one that a provider may give. -/
def answer? : Mark → Option (Except Failure Value)
  | .answered r => if Dispatch.Contained r then some r else none
  | _ => none

def news? : Mark → Option Bool
  | .accepted news => some news
  | _ => none

def messages? : Mark → Option Value
  | .updated messages => some messages
  | _ => none

end Mark

/-- What a history says of the dispatches of a registration, each with its generation. -/
def saidOf {β : Type} (id : RecordId) (say : Mark → Option β) (J : List Entry) : List (Nat × β) :=
  J.filterMap fun e => match e.mark? with
    | some (d, m) => if d.record = id then (say m).map fun b => (d.generation, b) else none
    | none => none

section saidOf
variable {β : Type} {id : RecordId} {say : Mark → Option β} {J J' : List Entry} {e : Entry}
  {d : Dispatch} {m : Mark} {g : Nat} {b : β}

theorem mem_saidOf_iff : (g, b) ∈ saidOf id say J ↔ ∃ m ∈ life (id, g) J, say m = some b := by
  simp only [saidOf, List.mem_filterMap, mem_life_iff]
  constructor
  · rintro ⟨e, he, hb⟩
    cases hm : e.mark? with
    | none => simp [hm] at hb
    | some x =>
      obtain ⟨d, m⟩ := x
      by_cases hd : d.record = id
      · simp only [hm, if_pos hd, Option.map_eq_some_iff, Prod.mk.injEq] at hb
        obtain ⟨b', hb', rfl, rfl⟩ := hb
        exact ⟨m, ⟨e, he, d, hm, by rw [Dispatch.key, hd]⟩, hb'⟩
      · simp [hm, hd] at hb
  · rintro ⟨m, ⟨e, he, d, hm, hk⟩, hb⟩
    obtain ⟨rfl, rfl⟩ := Prod.mk.inj hk
    exact ⟨e, he, by simp [hm, hb]⟩

theorem saidOf_concat (h : e.mark? = some (d, m)) :
    saidOf id say (J ++ [e]) = saidOf id say J ++
      if d.record = id then ((say m).map fun b => (d.generation, b)).toList else [] := by
  rw [saidOf, List.filterMap_append]
  congr 1
  by_cases hd : d.record = id
  · cases hb : say m <;> simp [h, hd, hb]
  · simp [h, hd]

theorem saidOf_concat_self (h : e.mark? = some (d, m)) (hb : say m = some b) :
    saidOf d.record say (J ++ [e]) = saidOf d.record say J ++ [(d.generation, b)] := by
  rw [saidOf_concat h, if_pos rfl, hb]
  rfl

/-- Nothing is said by a mark that tells nothing, or of a dispatch of another registration. -/
theorem saidOf_concat_other (h : e.mark? = some (d, m)) (hb : say m = none ∨ d.record ≠ id) :
    saidOf id say (J ++ [e]) = saidOf id say J := by
  rw [saidOf_concat h]
  rcases hb with hb | hd
  · simp [hb]
  · simp [hd]

theorem saidOf_of_unmarked (h : Unmarked J J') : saidOf id say J' = saidOf id say J := by
  obtain ⟨es, rfl, hes⟩ := h
  have : saidOf id say es = [] := by
    rw [saidOf, List.filterMap_eq_nil_iff]
    intro e he
    simp [hes e he]
  rw [saidOf, List.filterMap_append]
  change saidOf id say J ++ saidOf id say es = _
  rw [this, List.append_nil]

end saidOf

/-- The answers that providers gave to the dispatches of a registration, in the order in which they
came. -/
abbrev answers (id : RecordId) (J : List Entry) : List (Nat × Except Failure Value) :=
  saidOf id Mark.answer? J

/-- The generations whose answers were presented to a registration, in order, and whether they were
news. -/
abbrev presented (id : RecordId) (J : List Entry) : List (Nat × Bool) := saidOf id Mark.news? J

theorem mem_presented_iff {id : RecordId} {J : List Entry} {g : Nat} {news : Bool} :
    (g, news) ∈ presented id J ↔ .accepted news ∈ life (id, g) J := by
  rw [mem_saidOf_iff]
  constructor
  · rintro ⟨m, hm, hn⟩
    cases m with
    | accepted news' => rwa [Option.some.inj hn] at hm
    | _ => cases hn
  · intro hm
    exact ⟨_, hm, rfl⟩

/-- The messages that were surfaced for a registration, in order. -/
abbrev surfaced (id : RecordId) (J : List Entry) : List (Nat × Value) := saidOf id Mark.messages? J

def acceptedOf (id : RecordId) (J : List Entry) : List Nat :=
  ((presented id J).filter Prod.snd).map Prod.fst

namespace Session
variable {s s' : Session} {id : RecordId}

/-- A registration remembers the greatest generation that was presented to it, and accepted those
that were greater than all before. -/
structure Tallied (s : Session) (id : RecordId) : Prop where
  newest : ∀ x, s.registry.records[id]? = some x → x.counters.lastReceived = 0 ∨
    ∃ news, (x.counters.lastReceived, news) ∈ presented id s.history
  maxima : (presented id s.history).filter Prod.snd = leftMaxima Prod.fst (presented id s.history)

theorem Coherent.le_lastReceived (c : s.Coherent) {x : Record Nat}
    (hx : s.registry.records[id]? = some x) {g : Nat} {news : Bool}
    (hg : (g, news) ∈ presented id s.history) : g ≤ x.counters.lastReceived := by
  obtain ⟨d, hk, hd⟩ := accepted_of_life (mem_presented_iff.mp hg)
  obtain ⟨rfl, rfl⟩ := Prod.mk.inj hk
  obtain ⟨y, hy, hle⟩ := c.received hd
  rw [hx, Option.some.injEq] at hy
  exact hy ▸ hle

/-- A generation is news exactly if it is greater than all that were presented before. -/
theorem Tallied.isNews_iff (h : s.Tallied id) (c : s.Coherent) {x : Record Nat}
    (hx : s.registry.records[id]? = some x) {g : Nat} (hg : 1 ≤ g) :
    x.counters.isNews g = true ↔ ∀ y ∈ presented id s.history, y.1 < g := by
  have news : x.counters.isNews g = true ↔ x.counters.lastReceived < g := by
    simp [Counters.isNews]
  rw [news]
  constructor
  · intro hlt y hy
    exact Nat.lt_of_le_of_lt (c.le_lastReceived hx hy) hlt
  · intro all
    rcases h.newest x hx with h0 | ⟨news, hn⟩
    · omega
    · exact all _ hn

section step
variable (h : s.Tallied id)
include h

theorem Tallied.same (hJ : presented id s'.history = presented id s.history)
    (hr : ∀ y, s'.registry.records[id]? = some y → y.counters.lastReceived = 0 ∨
      ∃ x, s.registry.records[id]? = some x ∧
        x.counters.lastReceived = y.counters.lastReceived) : s'.Tallied id := by
  refine ⟨fun y hy => ?_, by rw [hJ, h.maxima]⟩
  rcases hr y hy with h0 | ⟨x, hx, he⟩
  · exact .inl h0
  · rw [hJ, ← he]
    exact h.newest x hx

/-- A generation that is presented becomes the greatest, or the greatest stays. -/
theorem Tallied.accepts (c : s.Coherent) {d : Dispatch} (hd : d.record = id) {x : Record Nat}
    (hx : s.registry.records[id]? = some x) (hg : 1 ≤ d.generation)
    (hs : presented id s'.history =
      presented id s.history ++ [(d.generation, x.counters.isNews d.generation)])
    (hr : s'.registry.records[id]? = some { x with counters := x.counters.receive d.generation }) :
    s'.Tallied id := by
  subst hd
  have news := h.isNews_iff c hx hg
  constructor
  · intro y hy
    rw [hr, Option.some.injEq] at hy
    subst hy
    rw [Counters.lastReceived_receive, hs]
    rcases Nat.le_total x.counters.lastReceived d.generation with hle | hle
    · rw [Nat.max_eq_right hle]
      exact .inr ⟨_, List.mem_append_right _ (List.mem_singleton_self _)⟩
    · rw [Nat.max_eq_left hle]
      rcases h.newest x hx with zero | ⟨news, hn⟩
      · exact .inl zero
      · exact .inr ⟨news, List.mem_append_left _ hn⟩
  · rw [hs, List.filter_append, h.maxima, leftMaxima_concat]
    congr 1
    by_cases hn : x.counters.isNews d.generation = true
    · rw [if_pos (news.mp hn)]
      simp [hn]
    · rw [if_neg fun all => hn (news.mpr all)]
      simp [hn]

theorem Tallied.step (c : s.Coherent) (step : s.Step s') : s'.Tallied id := by
  have kept (hr : s'.registry = s.registry) (y : Record Nat)
      (hy : s'.registry.records[id]? = some y) : y.counters.lastReceived = 0 ∨
        ∃ x, s.registry.records[id]? = some x ∧
          x.counters.lastReceived = y.counters.lastReceived :=
    .inr ⟨y, hr ▸ hy, rfl⟩
  cases step with
  | change change =>
    refine h.same (saidOf_of_unmarked change.history) fun y hy => ?_
    rcases change.record hy with ⟨x, hx, _, hc⟩ | ⟨_, hc, _⟩
    · exact .inr ⟨x, hx, by rw [hc]⟩
    · exact .inl (by rw [hc])
  | @opens t context i x runs hx _ =>
    refine h.same ?_ fun y hy => ?_
    · rw [history_noted]
      exact saidOf_concat_other rfl (.inl rfl)
    · rw [registry_noted, registry_onRegistry, Registry.getElem?_changeRecord] at hy
      split at hy
      · obtain ⟨z, hz, rfl⟩ := Option.map_eq_some_iff.mp hy
        exact .inr ⟨z, hz, rfl⟩
      · exact .inr ⟨y, hy, rfl⟩
  | @accepts t d r x runs stage contained hx =>
    by_cases hd : d.record = id
    · obtain ⟨_, _, hg, _⟩ := c.generation (c.dispatched_of_runs runs)
      subst hd
      refine h.accepts c rfl hx hg ?_ ?_
      · rw [history_noted]
        exact saidOf_concat_self rfl rfl
      · simp [Registry.getElem?_changeRecord, hx]
    · refine h.same ?_ fun y hy => ?_
      · rw [history_noted]
        exact saidOf_concat_other rfl (.inr hd)
      · rw [registry_noted, registry_onRegistry, Registry.getElem?_changeRecord, if_neg hd] at hy
        exact .inr ⟨y, hy, rfl⟩
  | begins | enters | answers | surfaces | closes =>
    refine h.same ?_ (kept rfl)
    rw [history_noted]
    exact saidOf_concat_other rfl (.inl rfl)
  | invokes =>
    refine h.same ?_ (kept rfl)
    rw [history_noted]
    exact saidOf_of_unmarked (.concat rfl)
  | _ => exact h.same rfl (kept rfl)

end step

theorem tallied (h : s.opening.Path s') (id : RecordId) : s'.Tallied id := by
  induction h with
  | refl => exact ⟨fun x hx => by simp [opening] at hx, rfl⟩
  | tail path step ih => exact ih.step (s.coherent_opening.path path) step

end Session
end LintBroker

import LintBroker.Bus.Exchange
import Mathlib.Data.List.Induction

/-!
# Subscriptions told apart

Beside the bus stands a ledger, which numbers the subscriptions and lets a handle end the very one
that it was given for. The bus keeps listeners alone: a handle ends the first subscription of its
listener that is left, which may be another one. Whoever makes the calls, host or listeners, the two
have the same listeners called at every moment exactly if each handle is used where this cannot be
told.
-/
namespace LintBroker

/-- A call that changes a bus. The handle of a subscription is kept under a token. -/
inductive BusCall
  | subscribe (s : Subscription) (token : String)
  | unsubscribe (token : String)
  | dispose
deriving DecidableEq, Repr, Inhabited

/-- Subscriptions numbered in the order in which they were made: the live ones, and the one that
each handle was given for. -/
structure Ledger where
  live : List (Nat × Subscription) := []
  handles : Table String (Nat × Subscription) := ∅
  made : Nat := 0
  disposed : Bool := false

namespace Ledger
variable {g : Ledger} {token : String} {k : Nat} {s : Subscription}

/-- Adds a subscription, and keeps its handle under a token. -/
def subscribe (g : Ledger) (s : Subscription) (token : String) : Ledger :=
  { g with
    live := g.live ++ [(g.made, s)]
    handles := g.handles.put token (g.made, s)
    made := g.made + 1 }

/-- Ends the subscription that the handle was given for, if it is live, and no other. -/
def unsubscribe (g : Ledger) (token : String) : Ledger :=
  match g.handles.get? token with
  | some (k, _) => { g with live := g.live.filter fun e => e.1 ≠ k }
  | none => g

/-- Ends every subscription for good. -/
def dispose (g : Ledger) : Ledger := { g with live := [], disposed := true }

def called (g : Ledger) : BusCall → Ledger
  | .subscribe s token => g.subscribe s token
  | .unsubscribe token => g.unsubscribe token
  | .dispose => g.dispose

/-- The ledger after some calls. -/
def after (calls : List BusCall) : Ledger := calls.foldl called {}

/-- The numbers and listeners of the live subscriptions of one kind, in order. -/
def standing (g : Ledger) (kind : NoticeKind) : List (Nat × ListenerId) :=
  g.live.filterMap fun e => if e.2.kind = kind then some (e.1, e.2.listener) else none

/-- The listeners of the live subscriptions of one kind, once for each, in order. -/
def audience (g : Ledger) (kind : NoticeKind) : List ListenerId :=
  if g.disposed then [] else (g.standing kind).map Prod.snd

/-- Using the handle ends its own subscription and no other, as far as listeners can tell. If that
subscription is live, nothing but subscriptions of the same listener stands between the first of
these and it; if it is over, its listener has no live subscription of the kind. -/
def Apt (g : Ledger) (token : String) : Prop :=
  g.disposed = true ∨ ∀ k s, g.handles.get? token = some (k, s) →
    ((k, s.listener) ∈ g.standing s.kind → ∀ i j l, (i, s.listener) ∈ g.standing s.kind →
      (j, l) ∈ g.standing s.kind → i < j → j < k → l = s.listener) ∧
    ((k, s.listener) ∉ g.standing s.kind → ∀ i, (i, s.listener) ∉ g.standing s.kind)

/-- Numbers rise along the live subscriptions, and a handle's number is that of its subscription. -/
structure Sound (g : Ledger) : Prop where
  rising : g.live.Pairwise fun a b => a.1 < b.1
  known : ∀ e ∈ g.live, e.1 < g.made
  held : ∀ token k s, g.handles.get? token = some (k, s) →
    k < g.made ∧ ∀ t, (k, t) ∈ g.live → t = s

@[simp] theorem after_nil : after [] = {} := rfl

@[simp] theorem after_concat (calls : List BusCall) (c : BusCall) :
    after (calls ++ [c]) = (after calls).called c := by
  simp [after]

theorem unsubscribe_some (h : g.handles.get? token = some (k, s)) :
    g.unsubscribe token = { g with live := g.live.filter fun e => e.1 ≠ k } := by
  simp [unsubscribe, h]

theorem unsubscribe_none (h : g.handles.get? token = none) : g.unsubscribe token = g := by
  simp [unsubscribe, h]

@[simp] theorem mem_standing {kind : NoticeKind} {l : ListenerId} :
    (k, l) ∈ g.standing kind ↔ (k, ⟨kind, l⟩) ∈ g.live := by
  unfold standing
  rw [List.mem_filterMap]
  constructor
  · rintro ⟨⟨i, t⟩, ht, h⟩
    split at h
    · next hk =>
      obtain ⟨rfl, rfl⟩ := Prod.mk.inj (Option.some.inj h)
      exact hk ▸ ht
    · cases h
  · exact fun h => ⟨_, h, if_pos rfl⟩

theorem standing_subscribe (g : Ledger) (s : Subscription) (token : String) (kind : NoticeKind) :
    (g.subscribe s token).standing kind =
      g.standing kind ++ if s.kind = kind then [(g.made, s.listener)] else [] := by
  unfold standing subscribe
  rw [List.filterMap_append]
  by_cases h : s.kind = kind <;> simp [h]

theorem standing_unsubscribe (h : g.handles.get? token = some (k, s)) (kind : NoticeKind) :
    (g.unsubscribe token).standing kind = (g.standing kind).filter fun e => e.1 ≠ k := by
  rw [unsubscribe_some h]
  unfold standing
  induction g.live with
  | nil => rfl
  | cons e rest ih =>
    by_cases hk : e.1 = k <;> by_cases hs : e.2.kind = kind <;> simp_all

@[simp] theorem handles_unsubscribe (g : Ledger) (token : String) :
    (g.unsubscribe token).handles = g.handles := by
  unfold unsubscribe
  split <;> rfl

@[simp] theorem disposed_unsubscribe (g : Ledger) (token : String) :
    (g.unsubscribe token).disposed = g.disposed := by
  unfold unsubscribe
  split <;> rfl

theorem sound_empty : ({} : Ledger).Sound where
  rising := .nil
  known := by simp
  held := by simp

theorem Sound.subscribe (h : g.Sound) (s : Subscription) (token : String) :
    (g.subscribe s token).Sound where
  rising := by
    refine List.pairwise_append.mpr ⟨h.rising, List.pairwise_singleton _ _, ?_⟩
    intro a ha b hb
    rw [List.mem_singleton.mp hb]
    exact h.known a ha
  known := by
    intro e he
    show e.1 < g.made + 1
    rcases List.mem_append.mp he with he | he
    · have := h.known e he
      omega
    · rw [List.mem_singleton.mp he]
      omega
  held := by
    intro token' k t hk
    show k < g.made + 1 ∧ ∀ t', (k, t') ∈ g.live ++ [(g.made, s)] → t' = t
    have hk' : (g.handles.put token (g.made, s)).get? token' = some (k, t) := hk
    rw [Table.get?_put] at hk'
    split at hk'
    · obtain ⟨rfl, rfl⟩ := Prod.mk.inj (Option.some.inj hk')
      refine ⟨Nat.lt_succ_self _, fun t' ht => ?_⟩
      rcases List.mem_append.mp ht with ht | ht
      · exact absurd (h.known _ ht) (Nat.lt_irrefl _)
      · exact (Prod.mk.inj (List.mem_singleton.mp ht)).2
    · obtain ⟨hlt, hu⟩ := h.held token' k t hk'
      refine ⟨Nat.lt_succ_of_lt hlt, fun t' ht => ?_⟩
      rcases List.mem_append.mp ht with ht | ht
      · exact hu t' ht
      · exact absurd hlt (by simp [(Prod.mk.inj (List.mem_singleton.mp ht)).1])

theorem Sound.of_sublist {live : List (Nat × Subscription)} {disposed : Bool} (h : g.Sound)
    (sub : live.Sublist g.live) : Sound { g with live, disposed } where
  rising := h.rising.sublist sub
  known e he := h.known e (sub.mem he)
  held token k s hk := ⟨(h.held token k s hk).1, fun t ht => (h.held token k s hk).2 t (sub.mem ht)⟩

theorem Sound.called (h : g.Sound) (c : BusCall) : (g.called c).Sound := by
  cases c with
  | subscribe s token => exact h.subscribe s token
  | unsubscribe token =>
    show (g.unsubscribe token).Sound
    unfold Ledger.unsubscribe
    split
    · exact h.of_sublist (List.filter_sublist)
    · exact h
  | dispose => exact h.of_sublist (List.nil_sublist _)

theorem sound_after (calls : List BusCall) : (after calls).Sound := by
  induction calls using List.reverseRecOn with
  | nil => exact sound_empty
  | append_singleton calls c ih =>
    rw [after_concat]
    exact ih.called c

end Ledger

/-! ### Erasing the first entry or the numbered one -/

section erasing
variable {α : Type} {a b : α} {i k : Nat} {rows : List (Nat × α)}

theorem filter_number_eq_self (h : ∀ e ∈ rows, e.1 ≠ k) : rows.filter (fun e => e.1 ≠ k) = rows := by
  rw [List.filter_eq_self]
  intro e he
  simpa using h e he

theorem map_eq_cons_filter_iff (rising : rows.Pairwise fun e f => e.1 < f.1) (hk : (k, a) ∈ rows) :
    rows.map Prod.snd = a :: (rows.filter fun e => e.1 ≠ k).map Prod.snd ↔
      ∀ e ∈ rows, e.1 < k → e.2 = a := by
  induction rows with
  | nil => cases hk
  | cons e rest ih =>
    obtain ⟨above, rising⟩ := List.pairwise_cons.mp rising
    by_cases he : e.1 = k
    · have own : e = (k, a) := by
        rcases List.mem_cons.mp hk with hk | hk
        · exact hk.symm
        · exact absurd (above _ hk) (by simp [he])
      subst own
      have rest_same := filter_number_eq_self fun f hf => Nat.ne_of_gt (above f hf)
      simp only [List.map_cons, List.filter_cons, ne_eq, not_true_eq_false, decide_false, rest_same]
      simp only [Bool.false_eq_true, if_false, List.mem_cons, forall_eq_or_imp, true_iff]
      exact ⟨fun _ => trivial, fun f hf hlt => absurd hlt (Nat.lt_asymm (above f hf))⟩
    · have hk' : (k, a) ∈ rest := (List.mem_cons.mp hk).resolve_left fun h => he (by rw [← h])
      have hlt : e.1 < k := above _ hk'
      simp only [List.map_cons, List.filter_cons, ne_eq, he, not_false_eq_true, decide_true, if_true,
        List.cons.injEq, List.mem_cons, forall_eq_or_imp, hlt, true_imp_iff]
      constructor
      · rintro ⟨hea, h⟩
        exact ⟨hea, (ih rising hk').mp (hea ▸ h)⟩
      · rintro ⟨hea, h⟩
        exact ⟨hea, hea ▸ (ih rising hk').mpr h⟩

/-- The numbered entry cannot be told from the first one of its value: nothing else stands between the
two, or neither is there. -/
def Indistinct (rows : List (Nat × α)) (k : Nat) (a : α) : Prop :=
  ((k, a) ∈ rows → ∀ i j b, (i, a) ∈ rows → (j, b) ∈ rows → i < j → j < k → b = a) ∧
  ((k, a) ∉ rows → ∀ i, (i, a) ∉ rows)

/-- The numbered entry may be the first one of all. -/
theorem indistinct_head (above : ∀ e ∈ rows, k < e.1) : Indistinct ((k, a) :: rows) k a := by
  refine ⟨fun _ i j b hi _ hij hjk => ?_, fun gone => absurd List.mem_cons_self gone⟩
  rcases List.mem_cons.mp hi with hi | hi
  · obtain ⟨rfl, -⟩ := Prod.mk.inj hi
    omega
  · have : k < i := above _ hi
    omega

/-- If the first one of all is another one of its value, all that comes before the numbered entry
has to have the value. -/
theorem indistinct_cons_iff (above : ∀ e ∈ rows, i < e.1) (hk : (k, a) ∈ rows) :
    Indistinct ((i, a) :: rows) k a ↔ ∀ e ∈ rows, e.1 < k → e.2 = a := by
  have there : (k, a) ∈ (i, a) :: rows := List.mem_cons_of_mem _ hk
  constructor
  · rintro ⟨h, -⟩ f hf hlt
    exact h there i f.1 f.2 List.mem_cons_self (List.mem_cons_of_mem _ hf) (above f hf) hlt
  · intro h
    refine ⟨fun _ i' j c _ hj _ hjk => ?_, fun gone => absurd there gone⟩
    rcases List.mem_cons.mp hj with hj | hj
    · exact (Prod.mk.inj hj).2
    · exact h (j, c) hj hjk

theorem indistinct_cons_of_ne (above : ∀ e ∈ rows, i < e.1) (hb : b ≠ a) :
    Indistinct ((i, b) :: rows) k a ↔ Indistinct rows k a := by
  have heads : ∀ j, (j, a) ∈ (i, b) :: rows ↔ (j, a) ∈ rows := by
    intro j
    simp [Ne.symm hb]
  simp only [Indistinct, heads]
  refine and_congr_left fun _ => forall_congr' fun _ => ?_
  refine forall₃_congr fun i' j c => forall_congr' fun hi' => ?_
  constructor
  · exact fun h hj => h (List.mem_cons_of_mem _ hj)
  · intro h hj hij
    rcases List.mem_cons.mp hj with hj | hj
    · obtain ⟨rfl, -⟩ := Prod.mk.inj hj
      have : j < i' := above _ hi'
      omega
    · exact h hj hij

/-- The first entry of a value and the numbered entry leave the same when they are erased exactly if
the two cannot be told apart. -/
theorem erase_eq_filter_iff [DecidableEq α] (rising : rows.Pairwise fun e f => e.1 < f.1)
    (own : ∀ b, (k, b) ∈ rows → b = a) :
    (rows.map Prod.snd).erase a = (rows.filter fun e => e.1 ≠ k).map Prod.snd ↔
      Indistinct rows k a := by
  induction rows with
  | nil => simp [Indistinct]
  | cons e rest ih =>
    obtain ⟨i, b⟩ := e
    obtain ⟨above, rising⟩ := List.pairwise_cons.mp rising
    have own' : ∀ b, (k, b) ∈ rest → b = a := fun b h => own b (List.mem_cons_of_mem _ h)
    rw [List.map_cons]
    by_cases hb : b = a
    · subst hb
      rw [List.erase_cons_head]
      by_cases hi : i = k
      · subst hi
        refine iff_of_true ?_ (indistinct_head above)
        rw [List.filter_cons_of_neg (by simp),
          filter_number_eq_self fun f hf => Nat.ne_of_gt (above f hf)]
      · rw [List.filter_cons_of_pos (by simpa using hi), List.map_cons]
        by_cases hk : (k, b) ∈ rest
        · rw [map_eq_cons_filter_iff rising hk, indistinct_cons_iff above hk]
        · have absent : ∀ f ∈ rest, f.1 ≠ k := by
            rintro ⟨j, c⟩ hf rfl
            exact hk (own' c hf ▸ hf)
          have gone : (k, b) ∉ (i, b) :: rest := by
            simpa [Ne.symm hi] using hk
          refine iff_of_false (fun h => ?_) fun h => h.2 gone i List.mem_cons_self
          rw [filter_number_eq_self absent] at h
          exact List.cons_ne_self _ _ h.symm
    · have hi : i ≠ k := by
        rintro rfl
        exact hb (own b List.mem_cons_self)
      rw [List.erase_cons_tail (by simpa using hb), List.filter_cons_of_pos (by simpa using hi),
        List.map_cons, List.cons.injEq, and_iff_right rfl, ih rising own',
        indistinct_cons_of_ne above hb]

end erasing

namespace Ledger
variable {g : Ledger}

theorem Sound.rising_standing (h : g.Sound) (kind : NoticeKind) :
    (g.standing kind).Pairwise fun a b => a.1 < b.1 := by
  refine h.rising.filterMap _ ?_
  intro a b hab a' ha b' hb
  split at ha
  · split at hb
    · cases ha
      cases hb
      exact hab
    · cases hb
  · cases ha

end Ledger

namespace Exchange
variable {x : Exchange} {g : Ledger} {token : String}

def called (x : Exchange) : BusCall → Exchange
  | .subscribe s token => x.subscribe s token
  | .unsubscribe token => x.unsubscribe token
  | .dispose => { x with bus := x.bus.dispose }

/-- The exchange after some calls. -/
def after (calls : List BusCall) : Exchange := calls.foldl called {}

/-- Calls these listeners one after the other, each once, whatever they do; only a failure that may
not be contained keeps the rest from being called. -/
def callEach (listeners : BusListeners) (fuel : Nat) (ls : List ListenerId) (n : Notice) :
    Step (Except Failure Unit) :=
  deliverAll (callWith listeners (emit listeners fuel))
    (fun l f => modify fun x => x.reportFault (listenerFault n.kind l) f) ls n

@[simp] theorem after_concat (calls : List BusCall) (c : BusCall) :
    after (calls ++ [c]) = (after calls).called c := by
  simp [after]

/-- The exchange keeps the handles of the ledger, and is disposed when it is. -/
structure Tracks (x : Exchange) (g : Ledger) : Prop where
  disposed : x.bus.disposed = g.disposed
  handles : ∀ token, x.subscriptions.get? token = (g.handles.get? token).map Prod.snd

/-- The two would have the same listeners called. -/
def Matches (x : Exchange) (g : Ledger) : Prop := ∀ kind, x.bus.audience kind = g.audience kind

theorem Tracks.called (h : x.Tracks g) (c : BusCall) : (x.called c).Tracks (g.called c) := by
  cases c with
  | subscribe s token =>
    refine ⟨h.disposed, fun token' => ?_⟩
    show (x.subscriptions.put token s).get? token' =
      ((g.handles.put token (g.made, s)).get? token').map Prod.snd
    rw [Table.get?_put, Table.get?_put]
    split
    · rfl
    · exact h.handles token'
  | unsubscribe token =>
    have handles := h.handles token
    constructor
    · show (x.unsubscribe token).bus.disposed = (g.unsubscribe token).disposed
      rw [Ledger.disposed_unsubscribe, ← h.disposed]
      unfold unsubscribe
      split <;> rfl
    · intro token'
      show (x.unsubscribe token).subscriptions.get? token' =
        ((g.unsubscribe token).handles.get? token').map Prod.snd
      rw [Ledger.handles_unsubscribe, ← h.handles]
      unfold unsubscribe
      split <;> rfl
  | dispose => exact ⟨rfl, h.handles⟩

theorem tracks_after (calls : List BusCall) : (after calls).Tracks (Ledger.after calls) := by
  induction calls using List.reverseRecOn with
  | nil => exact ⟨rfl, fun _ => rfl⟩
  | append_singleton calls c ih =>
    rw [after_concat, Ledger.after_concat]
    exact ih.called c

/-- Nothing is called through a disposed bus. -/
theorem Tracks.matches_of_disposed (h : x.Tracks g) (hd : g.disposed = true) : x.Matches g := by
  intro kind
  simp [Bus.audience, Ledger.audience, h.disposed, hd]

theorem Tracks.matches_iff (h : x.Tracks g) (hd : g.disposed = false) :
    x.Matches g ↔ ∀ kind, x.bus.listeners kind = (g.standing kind).map Prod.snd := by
  simp [Matches, Bus.audience, Ledger.audience, h.disposed, hd]

theorem Matches.subscribe (h : x.Matches g) (tracks : x.Tracks g) (s : Subscription)
    (token : String) : (x.subscribe s token).Matches (g.subscribe s token) := by
  have tracks' : (x.subscribe s token).Tracks (g.subscribe s token) :=
    tracks.called (.subscribe s token)
  cases hd : g.disposed with
  | true => exact tracks'.matches_of_disposed hd
  | false =>
    rw [tracks.matches_iff hd] at h
    rw [tracks'.matches_iff hd]
    intro kind
    rw [Ledger.standing_subscribe, List.map_append, ← h kind]
    show (if kind = s.kind then x.bus.listeners s.kind ++ [s.listener] else x.bus.listeners kind) = _
    by_cases hk : kind = s.kind
    · subst hk
      simp
    · simp [hk, Ne.symm hk]

/-- A handle keeps the two together exactly if it is used aptly. -/
theorem Matches.unsubscribe_iff (h : x.Matches g) (tracks : x.Tracks g) (sound : g.Sound)
    (token : String) : (x.unsubscribe token).Matches (g.unsubscribe token) ↔ g.Apt token := by
  have tracks' : (x.unsubscribe token).Tracks (g.unsubscribe token) :=
    tracks.called (.unsubscribe token)
  have handles := tracks.handles token
  cases hd : g.disposed with
  | true =>
    have hd' : (g.unsubscribe token).disposed = true := by rw [Ledger.disposed_unsubscribe, hd]
    exact iff_of_true (tracks'.matches_of_disposed hd') (.inl hd)
  | false =>
    have hd' : (g.unsubscribe token).disposed = false := by rw [Ledger.disposed_unsubscribe, hd]
    cases hh : g.handles.get? token with
    | none =>
      rw [hh] at handles
      have same : x.unsubscribe token = x := by simp [unsubscribe, handles]
      rw [same, Ledger.unsubscribe_none hh]
      exact iff_of_true h (.inr fun k s hk => by rw [hh] at hk; cases hk)
    | some e =>
      obtain ⟨k, s⟩ := e
      rw [hh] at handles
      have own : ∀ kind l, (k, l) ∈ g.standing kind → kind = s.kind ∧ l = s.listener := by
        intro kind l hl
        have := (sound.held token k s hh).2 _ (Ledger.mem_standing.mp hl)
        exact ⟨congrArg Subscription.kind this, congrArg Subscription.listener this⟩
      have taken : (x.unsubscribe token).bus = x.bus.unsubscribe s := by simp [unsubscribe, handles]
      rw [tracks.matches_iff hd] at h
      rw [tracks'.matches_iff hd', taken]
      have apt : g.Apt token ↔ (x.bus.listeners s.kind).erase s.listener =
          ((g.standing s.kind).filter fun e => e.1 ≠ k).map Prod.snd := by
        rw [h s.kind, erase_eq_filter_iff (sound.rising_standing s.kind) fun l hl => (own _ l hl).2]
        simp [Ledger.Apt, Indistinct, hd, hh]
      rw [apt]
      constructor
      · intro all
        have := all s.kind
        rw [Ledger.standing_unsubscribe hh] at this
        simpa [Bus.unsubscribe] using this
      · intro same kind
        rw [Ledger.standing_unsubscribe hh]
        by_cases hk : kind = s.kind
        · subst hk
          simpa [Bus.unsubscribe] using same
        · -- no subscription of another kind has the handle's number
          have kept : (g.standing kind).filter (fun e => e.1 ≠ k) = g.standing kind :=
            filter_number_eq_self fun e he hek => hk (own kind e.2 (hek ▸ he)).1
          rw [kept, ← h kind]
          simp [Bus.unsubscribe, hk]

/-! ### Emissions -/

/-- Listeners that do nothing but listen. -/
def watchers : BusListeners := fun _ _ _ => .done

theorem journal_callEach_watchers (fuel : Nat) (ls : List ListenerId) (n : Notice) (x : Exchange) :
    ∃ x', (callEach watchers fuel ls n).run x = some (.ok (), x') ∧
      x'.journal.toList = x.journal.toList ++ ls.map fun l => .delivered l n := by
  induction ls generalizing x with
  | nil => exact ⟨x, rfl, by simp⟩
  | cons l rest ih =>
    let x₁ := x.note (.delivered l n)
    let x₂ := { x₁ with calls := x₁.calls.put l ((x₁.calls.get? l).getD 0 + 1) }
    obtain ⟨x', run, journal⟩ := ih x₂
    refine ⟨x', run, ?_⟩
    rw [journal]
    simp [x₂, x₁, note]

/-- Every emission of a notice of this kind calls these listeners, one after the other and each
once, whatever they do meanwhile. -/
def Calls (b : Bus) (kind : NoticeKind) (ls : List ListenerId) : Prop :=
  ∀ (listeners : BusListeners) (fuel : Nat) (n : Notice) (x : Exchange), x.bus = b →
    n.kind = kind → (emit listeners (fuel + 1) n).run x = (callEach listeners fuel ls n).run x

theorem calls_iff {b : Bus} {kind : NoticeKind} {ls : List ListenerId} :
    Calls b kind ls ↔ b.audience kind = ls := by
  constructor
  · intro h
    obtain ⟨n, rfl⟩ : ∃ n : Notice, n.kind = kind := by
      cases kind
      · exact ⟨.begin "" .none, rfl⟩
      · exact ⟨.update "" .none .none, rfl⟩
      · exact ⟨.finish "" .none, rfl⟩
    have h' : (callEach watchers 0 (b.audience n.kind) n).run { bus := b } =
        (callEach watchers 0 ls n).run { bus := b } := h watchers 0 n { bus := b } rfl rfl
    obtain ⟨x', run, journal⟩ := journal_callEach_watchers 0 (b.audience n.kind) n { bus := b }
    obtain ⟨x'', run', journal'⟩ := journal_callEach_watchers 0 ls n { bus := b }
    rw [run, run'] at h'
    obtain rfl : x' = x'' := (Prod.mk.inj (Option.some.inj h')).2
    have heard := List.append_cancel_left (journal.symm.trans journal')
    exact (List.map_inj_right fun l l' hl => (BusEntry.delivered.inj hl).1).mp heard
  · rintro rfl listeners fuel n x rfl rfl
    rfl

end Exchange

/-- At every moment an emission calls exactly the listeners of the subscriptions still live, once for
each, in the order in which these were made. -/
def Independent (calls : List BusCall) : Prop :=
  ∀ before, before <+: calls → ∀ kind,
    Exchange.Calls (Exchange.after before).bus kind ((Ledger.after before).audience kind)

/-- Every handle is used where it ends its own subscription and no other, as far as listeners can
tell. -/
def AllApt (calls : List BusCall) : Prop :=
  ∀ before token, before ++ [.unsubscribe token] <+: calls → (Ledger.after before).Apt token

theorem independent_iff_matches {calls : List BusCall} :
    Independent calls ↔
      ∀ before, before <+: calls → (Exchange.after before).Matches (Ledger.after before) := by
  simp [Independent, Exchange.calls_iff, Exchange.Matches]

theorem independent_concat {calls : List BusCall} {c : BusCall} :
    Independent (calls ++ [c]) ↔ Independent calls ∧
      ((Exchange.after calls).called c).Matches ((Ledger.after calls).called c) := by
  simp only [independent_iff_matches, List.prefix_concat_iff, or_imp, forall_and, forall_eq,
    Exchange.after_concat, Ledger.after_concat, and_comm]

theorem allApt_concat {calls : List BusCall} {c : BusCall} :
    AllApt (calls ++ [c]) ↔
      AllApt calls ∧ ∀ token, c = .unsubscribe token → (Ledger.after calls).Apt token := by
  constructor
  · intro h
    refine ⟨fun before token hp => h before token (hp.trans (List.prefix_append _ _)), ?_⟩
    rintro token rfl
    exact h calls token (List.prefix_refl _)
  · rintro ⟨h, last⟩ before token hp
    rcases List.prefix_concat_iff.mp hp with same | hp
    · obtain ⟨rfl, hc⟩ := List.append_inj' same rfl
      exact last token (List.cons.inj hc).1.symm
    · exact h before token hp

/-- A bus keeps its subscriptions apart, at every moment of a sequence of calls, exactly if all the
handles are used aptly: emissions then call the listeners of the live subscriptions, once for each,
in order, and a handle that is used where the first subscription of its listener is another one
makes the bus call others, or in another order. -/
theorem independent_iff_allApt (calls : List BusCall) : Independent calls ↔ AllApt calls := by
  induction calls using List.reverseRecOn with
  | nil =>
    refine iff_of_true ?_ ?_
    · rw [independent_iff_matches]
      intro before hp kind
      rw [List.prefix_nil.mp hp]
      rfl
    · intro before token hp
      simp at hp
  | append_singleton calls c ih =>
    rw [independent_concat, allApt_concat, ← ih]
    refine and_congr_right fun independent => ?_
    have now := independent_iff_matches.mp independent calls (List.prefix_refl _)
    have tracks := Exchange.tracks_after calls
    cases c with
    | subscribe s token => exact iff_of_true (now.subscribe tracks s token) (by simp)
    | unsubscribe token =>
      have exact_use := now.unsubscribe_iff tracks (Ledger.sound_after calls) token
      simpa [Exchange.called, Ledger.called] using exact_use
    | dispose =>
      exact iff_of_true ((tracks.called .dispose).matches_of_disposed rfl) (by simp)

/-- A handle used twice ends a second subscription of the same listener. -/
theorem repeated_handle_not_independent :
    ¬ Independent [.subscribe ⟨.begin, "l"⟩ "first", .subscribe ⟨.begin, "l"⟩ "second",
      .unsubscribe "first", .unsubscribe "first"] := by
  intro h
  have calls := h _ (List.prefix_refl _) .begin
  have audience := Exchange.calls_iff.mp calls
  exact absurd audience (by decide)

/-- The second handle of a listener moves what is left of it behind the other listeners. -/
example : ¬ (Ledger.after [.subscribe ⟨.begin, "l"⟩ "first", .subscribe ⟨.begin, "m"⟩ "between",
    .subscribe ⟨.begin, "l"⟩ "second"]).Apt "second" := by
  rintro (h | h)
  · cases h
  · exact absurd ((h 2 ⟨.begin, "l"⟩ rfl).1 (by decide) 0 1 "m" (by decide) (by decide)) (by decide)

end LintBroker

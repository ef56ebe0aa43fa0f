import LintBroker.Record.Given
import Mathlib.Data.List.Induction
import Mathlib.Data.List.Infix
import Mathlib.Order.Bounds.Basic

/-!
# A record as a running maximum

A record can be asked, in any order, for the number of a new request, whether a response with any
integer for its number is accepted, and to go out of force. Its two counters tell no more than its
calls: how many requests there were, and the greatest number that was presented. So what is accepted
is what exceeds zero and all that was presented before; and as long as only numbers of requests that
were made are presented, the newest response is not ahead of the requests.

This is not so of binary64 numbers: an undefined one is accepted whatever came before, and then
whatever comes is accepted.
-/
namespace LintBroker

/-! ### Values that are integers -/

namespace Value
variable {v : Value} {i : Int}

def whole? (v : Value) : Option Int :=
  match v.number? with
  | some (.whole i) => some i
  | _ => Option.none

theorem whole?_eq_some_iff : v.whole? = some i ↔ v.number? = some (.whole i) := by
  unfold whole?
  cases v.number? with
  | none => simp
  | some n => cases n <;> simp

theorem number?_eq_none (exact : ∀ x, v ≠ .real x) (h : v.whole? = Option.none) :
    v.number? = Option.none := by
  cases v with
  | real x => exact absurd rfl (exact x)
  | bool b => cases h
  | int i => cases h
  | _ => rfl

end Value

/-- A value that is an integer, kept with it. -/
structure Given.Is (x : Given) (i : Int) : Prop where
  value : x.value.whole? = some i
  number : x.number = .whole i

theorem Given.is_zero : Given.zero.Is 0 := ⟨rfl, rfl⟩

namespace Counters
variable {c : Counters Given} {v : Value} {g i : Int}

theorem isNews_whole (newest : c.lastReceived.Is i) : c.isNews ⟨v, .whole g⟩ = decide (i < g) := by
  have order : (⟨v, .whole g⟩ : Given) ≤ c.lastReceived ↔ g ≤ i := by
    show Number.whole g ≤ c.lastReceived.number ↔ g ≤ i
    rw [newest.number, Number.whole_le_whole]
  rw [isNews, ← decide_not]
  exact decide_eq_decide.mpr ((not_congr order).trans Int.not_le)

theorem present_whole (newest : c.lastReceived.Is i) (hg : v.whole? = some g) :
    c.present v = .ok (decide (i < g),
      if i < g then { c with lastReceived := ⟨v, .whole g⟩ } else c) := by
  rw [present, Value.whole?_eq_some_iff.mp hg]
  simp only [receive, isNews_whole newest, decide_eq_true_eq]

end Counters

/-! ### What calls tell -/

namespace RecordCall

def isNext : RecordCall → Bool
  | .next => true
  | _ => false

def presented? : RecordCall → Option Int
  | .accept v => v.whole?
  | _ => none

/-- The integer that a call presents, if it is answered that it is accepted. -/
def accepted? : RecordCall × Except Failure Value → Option Int
  | (c, .ok (.bool true)) => c.presented?
  | _ => none

theorem accepted?_eq_none {c : RecordCall} {answer : Except Failure Value}
    (nothing : c.presented? = none) : accepted? (c, answer) = none := by
  unfold accepted?
  split
  · next same => exact (Prod.mk.inj same).1 ▸ nothing
  · rfl

/-- How many calls ask for the number of a new request. -/
def requests (calls : List RecordCall) : Nat := calls.countP isNext

def numbers (calls : List RecordCall) : List Int := calls.filterMap presented?

theorem requests_concat (calls : List RecordCall) (c : RecordCall) :
    requests (calls ++ [c]) = requests calls + if c.isNext then 1 else 0 := by
  rw [requests, List.countP_append, List.countP_singleton, requests]

theorem numbers_concat (calls : List RecordCall) (c : RecordCall) :
    numbers (calls ++ [c]) = numbers calls ++ c.presented?.toList := by
  rw [numbers, List.filterMap_append, numbers]
  cases h : c.presented? <;> simp [h]

end RecordCall

namespace Record
open RecordCall
variable {r : Record Given} {calls : List RecordCall} {c : RecordCall} {v : Value} {g i : Int}

def called (r : Record Given) (calls : List RecordCall) : Record Given :=
  calls.foldl (fun r c => (r.perform c).2) r

/-- Calls with their answers. -/
def answered (r : Record Given) : List RecordCall → List (RecordCall × Except Failure Value)
  | [] => []
  | c :: calls => (c, (r.perform c).1) :: (r.perform c).2.answered calls

/-- The answers to those calls that ask for the number of a new request. -/
def issued (r : Record Given) (calls : List RecordCall) : List (Except Failure Value) :=
  ((r.answered calls).filter fun x => x.1.isNext).map Prod.snd

def accepted (r : Record Given) (calls : List RecordCall) : List Int :=
  (r.answered calls).filterMap accepted?

theorem called_concat (r : Record Given) (calls : List RecordCall) (c : RecordCall) :
    r.called (calls ++ [c]) = ((r.called calls).perform c).2 := by
  simp only [called, List.foldl_append, List.foldl_cons, List.foldl_nil]

theorem answered_concat (r : Record Given) (calls : List RecordCall) (c : RecordCall) :
    r.answered (calls ++ [c]) = r.answered calls ++ [(c, ((r.called calls).perform c).1)] := by
  induction calls generalizing r with
  | nil => rfl
  | cons first rest ih =>
    rw [List.cons_append, answered, ih, answered, List.cons_append]
    rfl

theorem issued_concat (r : Record Given) (calls : List RecordCall) (c : RecordCall) :
    r.issued (calls ++ [c]) =
      r.issued calls ++ if c.isNext then [((r.called calls).perform c).1] else [] := by
  rw [issued, answered_concat, List.filter_append, List.map_append]
  cases h : c.isNext <;> simp [issued, h]

theorem accepted_concat (r : Record Given) (calls : List RecordCall) (c : RecordCall) :
    r.accepted (calls ++ [c]) =
      r.accepted calls ++ (accepted? (c, ((r.called calls).perform c).1)).toList := by
  rw [accepted, answered_concat, List.filterMap_append]
  cases h : accepted? (c, ((r.called calls).perform c).1) <;> simp [accepted, h]

theorem accepted_concat_of_nothing (nothing : c.presented? = none) :
    r.accepted (calls ++ [c]) = r.accepted calls := by
  rw [accepted_concat, accepted?_eq_none nothing, Option.toList_none, List.append_nil]

theorem perform_accept (newest : r.counters.lastReceived.Is i) (hg : v.whole? = some g) :
    r.perform (.accept v) = (.ok (.bool (decide (i < g))),
      if i < g then { r with counters := { r.counters with lastReceived := ⟨v, .whole g⟩ } }
      else r) := by
  rw [perform, Counters.present_whole newest hg]
  by_cases later : i < g <;> simp [later]

/-- What calls have come to: as many requests as were asked for, numbered one by one; the greatest of
zero and all integers that were presented; and of these, in increasing order, what was accepted. -/
structure Tallies (r : Record Given) (calls : List RecordCall) : Prop where
  counted : (r.called calls).counters.latest = requests calls
  numbered : r.issued calls = (List.range' 1 (requests calls)).map fun n => .ok (.int n)
  newest : ∃ i, (r.called calls).counters.lastReceived.Is i ∧
    IsGreatest (insert 0 {g | g ∈ numbers calls}) i
  increasing : (r.accepted calls).Pairwise (· < ·)
  accepted_subset : r.accepted calls ⊆ numbers calls

theorem tallies_fresh (p : ProviderId) (contract : Contract) : (fresh p contract).Tallies [] where
  counted := rfl
  numbered := rfl
  newest := ⟨0, Given.is_zero, by simp [numbers]⟩
  increasing := .nil
  accepted_subset := List.nil_subset _

namespace Tallies
variable (h : r.Tallies calls)
include h

/-- A new request is counted, and its number is the new count. -/
theorem next : r.Tallies (calls ++ [.next]) := by
  have requested : requests (calls ++ [.next]) = requests calls + 1 := requests_concat calls .next
  have nothing : numbers (calls ++ [.next]) = numbers calls := by
    rw [numbers_concat]
    exact List.append_nil _
  have answer : ((r.called calls).perform .next).1 = .ok (.int (requests calls + 1 : Nat)) := by
    rw [← h.counted]
    rfl
  constructor
  case counted =>
    rw [called_concat, requested, ← h.counted]
    rfl
  case numbered =>
    rw [issued_concat, answer, requested, h.numbered, List.range'_concat]
    simp [isNext, Nat.add_comm]
  case newest =>
    rw [called_concat, nothing]
    exact h.newest
  case increasing =>
    rw [accepted_concat_of_nothing rfl]
    exact h.increasing
  case accepted_subset =>
    rw [accepted_concat_of_nothing rfl, nothing]
    exact h.accepted_subset

/-- A call that asks for no number and presents none leaves all as it is, if the counters stay. -/
theorem idle (noNext : c.isNext = false) (nothing : c.presented? = none)
    (same : ((r.called calls).perform c).2.counters = (r.called calls).counters) :
    r.Tallies (calls ++ [c]) := by
  have requested : requests (calls ++ [c]) = requests calls := by
    rw [requests_concat, noNext]
    rfl
  have unpresented : numbers (calls ++ [c]) = numbers calls := by
    rw [numbers_concat, nothing, Option.toList_none, List.append_nil]
  constructor
  case counted => rw [called_concat, same, requested, h.counted]
  case numbered =>
    rw [issued_concat, noNext, requested, ← h.numbered, if_neg Bool.false_ne_true, List.append_nil]
  case newest =>
    rw [called_concat, same, unpresented]
    exact h.newest
  case increasing =>
    rw [accepted_concat_of_nothing nothing]
    exact h.increasing
  case accepted_subset =>
    rw [accepted_concat_of_nothing nothing, unpresented]
    exact h.accepted_subset

/-- An integer is remembered and accepted if it is greater than all before. -/
theorem accept (hg : v.whole? = some g) : r.Tallies (calls ++ [.accept v]) := by
  obtain ⟨i, newest, greatest⟩ := h.newest
  have performed := perform_accept newest hg
  have presents : presented? (.accept v) = some g := hg
  have offered : numbers (calls ++ [.accept v]) = numbers calls ++ [g] := by
    rw [numbers_concat, presents, Option.toList_some]
  have requested : requests (calls ++ [.accept v]) = requests calls :=
    requests_concat calls (.accept v)
  have taken : r.accepted (calls ++ [.accept v]) = r.accepted calls ++ if i < g then [g] else [] := by
    rw [accepted_concat, performed]
    by_cases later : i < g <;> simp [later, accepted?, presents]
  constructor
  case counted =>
    rw [called_concat, performed, requested, ← h.counted]
    split <;> rfl
  case numbered =>
    rw [issued_concat, requested, ← h.numbered]
    exact List.append_nil _
  case newest =>
    have whole : insert 0 {x | x ∈ numbers (calls ++ [.accept v])} =
        insert g (insert 0 {x | x ∈ numbers calls}) := by
      ext x
      simp [offered, or_comm, or_left_comm]
    rw [called_concat, performed, whole]
    refine ⟨max g i, ?_, greatest.insert g⟩
    by_cases later : i < g
    · rw [if_pos later, max_eq_left later.le]
      exact ⟨hg, rfl⟩
    · rw [if_neg later, max_eq_right (not_lt.mp later)]
      exact newest
  case increasing =>
    have below : ∀ x ∈ r.accepted calls, x ≤ i := fun x hx =>
      greatest.2 (.inr (h.accepted_subset hx))
    rw [taken, List.pairwise_append]
    refine ⟨h.increasing, ?_, fun x hx y hy => ?_⟩
    · split <;> simp
    · split at hy
      · next later =>
        obtain rfl := List.mem_singleton.mp hy
        exact (below x hx).trans_lt later
      · cases hy
  case accepted_subset =>
    rw [taken, offered]
    refine List.append_subset.mpr ⟨List.subset_append_of_subset_left _ h.accepted_subset, ?_⟩
    split
    · exact List.subset_append_right _ _
    · exact List.nil_subset _

/-- Every call but the presentation of a binary64 number keeps the tally. -/
theorem concat (exact : ∀ x, c ≠ .accept (.real x)) : r.Tallies (calls ++ [c]) := by
  cases c with
  | next => exact h.next
  | deactivate => exact h.idle rfl rfl rfl
  | accept v =>
    cases hg : v.whole? with
    | some g => exact h.accept hg
    | none =>
      have refused : v.number? = Option.none :=
        Value.number?_eq_none (fun x hx => exact x (hx ▸ rfl)) hg
      refine h.idle rfl hg ?_
      rw [perform, Counters.present, refused]

/-- The next integer is accepted exactly if it exceeds zero and all that was presented before. -/
theorem verdict (hg : v.whole? = some g) : ((r.called calls).perform (.accept v)).1 =
    .ok (.bool (decide (0 < g ∧ ∀ x ∈ numbers calls, x < g))) := by
  obtain ⟨i, newest, greatest⟩ := h.newest
  have exceeds : i < g ↔ 0 < g ∧ ∀ x ∈ numbers calls, x < g := by
    rw [greatest.lt_iff]
    simp
  rw [perform_accept newest hg, decide_eq_decide.mpr exceeds]

end Tallies

theorem tallies_called (p : ProviderId) (contract : Contract)
    (exact : ∀ x, .accept (.real x) ∉ calls) : (fresh p contract).Tallies calls := by
  induction calls using List.reverseRecOn with
  | nil => exact tallies_fresh p contract
  | append_singleton calls c ih =>
    refine (ih fun x hx => exact x (List.mem_append_left _ hx)).concat fun x hx => ?_
    exact exact x (List.mem_append_right _ (hx ▸ List.mem_singleton_self _))

/-- Whenever an integer is presented, it had been the number of a new request before. -/
def PresentsIssued (r : Record Given) (calls : List RecordCall) : Prop :=
  ∀ (k : Nat) (v : Value), calls[k]? = some (.accept v) →
    ∃ n, v.whole? = some n ∧ .ok (.int n) ∈ r.issued (calls.take k)

theorem exists_of_mem_numbers (h : g ∈ numbers calls) :
    ∃ (k : Nat) (v : Value), calls[k]? = some (.accept v) ∧ v.whole? = some g := by
  obtain ⟨c, hc, offers⟩ := List.mem_filterMap.mp h
  obtain ⟨k, hk⟩ := List.mem_iff_getElem?.mp hc
  cases c with
  | accept v => exact ⟨k, v, hk, offers⟩
  | next => cases offers
  | deactivate => cases offers

theorem Tallies.le_requests (h : r.Tallies calls) (hg : .ok (.int g) ∈ r.issued calls) :
    g ≤ requests calls := by
  rw [h.numbered] at hg
  obtain ⟨n, hn, same⟩ := List.mem_map.mp hg
  obtain rfl : (n : Int) = g := Value.int.inj (Except.ok.inj same)
  have := List.mem_range'_1.mp hn
  omega

/-- If only issued numbers are presented, the newest response is not ahead of the requests. -/
theorem lastReceived_le_latest (tallies : ∀ k, r.Tallies (calls.take k))
    (issued : r.PresentsIssued calls) (n : Nat) :
    ∃ i : Int, (r.called (calls.take n)).counters.lastReceived.Is i ∧
      i ≤ (r.called (calls.take n)).counters.latest := by
  obtain ⟨i, newest, greatest⟩ := (tallies n).newest
  refine ⟨i, newest, ?_⟩
  rw [(tallies n).counted]
  rcases greatest.1 with rfl | offered
  · exact Int.natCast_nonneg _
  · obtain ⟨k, v, hk, hv⟩ := exists_of_mem_numbers offered
    rw [List.getElem?_take] at hk
    split at hk
    · next earlier =>
      obtain ⟨j, hj, before⟩ := issued k v hk
      obtain rfl : j = i := Option.some.inj (hj.symm.trans hv)
      have fewer : requests (calls.take k) ≤ requests (calls.take n) :=
        (List.take_sublist_take_left (Nat.le_of_lt earlier)).countP_le
      exact ((tallies k).le_requests before).trans (Int.ofNat_le.mpr fewer)
    · cases hk

/-- A record runs a maximum: besides what its calls have come to, it tells of every integer whether
it exceeds zero and all that was presented before; going out of force leaves its counters as they
are; and the newest response was never ahead of the requests, if only issued numbers were presented.
-/
structure RunsMaximum (r : Record Given) (calls : List RecordCall) : Prop
    extends r.Tallies calls where
  verdict : ∀ v g, v.whole? = some g → ((r.called calls).perform (.accept v)).1 =
    .ok (.bool (decide (0 < g ∧ ∀ x ∈ numbers calls, x < g)))
  deactivated : ((r.called calls).perform .deactivate).2.counters = (r.called calls).counters
  behind : r.PresentsIssued calls → ∀ k, ∃ i : Int,
    (r.called (calls.take k)).counters.lastReceived.Is i ∧
      i ≤ (r.called (calls.take k)).counters.latest

/-- Whatever a new record is asked, it counts its requests and remembers the greatest integer
presented, if no binary64 number is presented. -/
theorem fresh_runs_maximum (p : ProviderId) (contract : Contract) (calls : List RecordCall)
    (exact : ∀ x, .accept (.real x) ∉ calls) : (fresh p contract).RunsMaximum calls where
  toTallies := tallies_called p contract exact
  verdict _ _ hg := (tallies_called p contract exact).verdict hg
  deactivated := rfl
  behind := lastReceived_le_latest fun _ =>
    tallies_called p contract fun x hx => exact x (List.mem_of_mem_take hx)

/-- Presents numbers never issued, one of them twice, a negative one, a truth value, and a text. -/
def sampleCalls : List RecordCall :=
  [.next, .accept (.int 5), .next, .accept (.int 2), .accept (.bool true), .accept (.int (-3)),
    .accept (.str "7"), .deactivate, .accept (.int 7), .accept (.int 7)]

/-- Presents the two numbers that were issued, the later one first. -/
def sampleIssued : List RecordCall := [.next, .next, .accept (.int 2), .accept (.int 1)]

/-- Of the integers presented the first and the first 7 are accepted. And where only issued numbers
are presented, the newest response is never ahead. -/
theorem sampleCalls_runs_maximum :
    ((∀ x, .accept (.real x) ∉ sampleCalls) ∧ (fresh "p" .current).RunsMaximum sampleCalls ∧
      (fresh "p" .current).accepted sampleCalls = [5, 7]) ∧
    (fresh "p" .current).PresentsIssued sampleIssued ∧
      ∀ k, ∃ i : Int,
        ((fresh "p" .current).called (sampleIssued.take k)).counters.lastReceived.Is i ∧
          i ≤ ((fresh "p" .current).called (sampleIssued.take k)).counters.latest := by
  have exact : ∀ x, .accept (.real x) ∉ sampleCalls := by simp [sampleCalls]
  have exact' : ∀ x, .accept (.real x) ∉ sampleIssued := by simp [sampleIssued]
  have issued : (fresh "p" .current).PresentsIssued sampleIssued := by
    intro k v hk
    match k with
    | 0 | 1 => cases hk
    | 2 =>
      cases hk
      exact ⟨2, rfl, .tail _ (.head _)⟩
    | 3 =>
      cases hk
      exact ⟨1, rfl, .head _⟩
    | k + 4 => cases hk
  exact ⟨⟨exact, fresh_runs_maximum "p" .current sampleCalls exact, rfl⟩, issued,
    (fresh_runs_maximum "p" .current sampleIssued exact').behind issued⟩

end Record
end LintBroker

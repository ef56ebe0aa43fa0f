import LintBroker.Text.Phrase
import Mathlib.Data.List.Forall2
import Mathlib.Data.List.Perm.Basic

/-!
# The wording of phrases

A phrase holds every shown item once and in order, each followed by what its place and the number of
items tell. If the shown items are sorted, by their code points, then the order in which the items
were given makes no difference.
-/
namespace LintBroker

/-! ### Showing items -/

namespace Template
variable {template : String} {items items' : List Value} {shown : List String}

def bareTemplate : String := "\x7b\x7d"

theorem format_bareTemplate (v : Value) : format bareTemplate v = .ok v.plain := by
  have read : bareTemplate.toList = ['\x7b', '\x7d'] := by decide
  rw [format, read]
  show Except.ok (String.ofList (v.plain.toList ++ [])) = _
  rw [List.append_nil, String.ofList_toList]

theorem format_literalTemplate (v : Value) : format Text.literalTemplate v = .ok v.literal := by
  have read : Text.literalTemplate.toList = ['\x7b', '!', 'r', '\x7d'] := by decide
  rw [format, read]
  show Except.ok (String.ofList (v.literal.toList ++ [])) = _
  rw [List.append_nil, String.ofList_toList]

/-- What a template shows of items, one by one. -/
def Shows (template : String) : List Value → List String → Prop :=
  List.Forall₂ fun x s => format template x = .ok s

theorem exists_shows (all : ∀ x ∈ items, ∃ s, format template x = .ok s) :
    ∃ shown, Shows template items shown := by
  induction items with
  | nil => exact ⟨[], .nil⟩
  | cons x rest ih =>
    obtain ⟨⟨s, hs⟩, others⟩ := List.forall_mem_cons.mp all
    obtain ⟨shown, h⟩ := ih others
    exact ⟨s :: shown, .cons hs h⟩

theorem Shows.mapM (h : Shows template items shown) :
    items.mapM (format template) = .ok shown := by
  induction h with
  | nil => rfl
  | cons first _ ih =>
    rw [List.mapM_cons, first, ih]
    rfl

theorem Shows.perm (h : Shows template items shown) (perm : items'.Perm items) :
    ∃ shown', Shows template items' shown' ∧ shown'.Perm shown :=
  List.perm_comp_forall₂ perm h

theorem shows_texts (shown : List String) : Shows bareTemplate (shown.map .str) shown :=
  List.forall₂_map_left_iff.mpr (List.forall₂_same.mpr fun s _ => format_bareTemplate (.str s))

theorem shows_literals (items : List Value) :
    Shows Text.literalTemplate items (items.map Value.literal) :=
  List.forall₂_map_right_iff.mpr (List.forall₂_same.mpr fun v _ => format_literalTemplate v)

end Template

namespace Text
open Template
variable {template conjunction : String} {items items' : List Value} {shown shown' : List String}

theorem humanizeList_of_shows (h : Shows template items shown) (conjunction : String) (sort : Bool) :
    humanizeList items conjunction template sort =
      .ok (phrase conjunction (if sort then sortTexts shown else shown)) := by
  rw [humanizeList, h.mapM]
  rfl

/-! ### Sorting -/

/-- The code points of a text come before those of another: the first that differ decide, and a text
that ends comes first. -/
def Before (s t : String) : Prop :=
  List.Lex (· < ·) (s.toList.map Char.toNat) (t.toList.map Char.toNat)

theorem lex_map_toNat {cs ds : List Char} :
    List.Lex (· < ·) (cs.map Char.toNat) (ds.map Char.toNat) ↔ cs < ds := by
  show _ ↔ List.Lex (· < ·) cs ds
  induction cs generalizing ds with
  | nil => cases ds <;> simp [List.not_lex_nil]
  | cons c cs ih =>
    cases ds with
    | nil => simp [List.not_lex_nil]
    | cons d ds =>
      rw [List.map_cons, List.map_cons, List.cons_lex_cons_iff, List.cons_lex_cons_iff, ih,
        Char.toNat_inj]
      exact Iff.rfl

theorem before_iff {s t : String} : Before s t ↔ s < t := lex_map_toNat

theorem sortTexts_perm (shown : List String) : (sortTexts shown).Perm shown :=
  List.mergeSort_perm shown _

theorem pairwise_sortTexts (shown : List String) : (sortTexts shown).Pairwise (· ≤ ·) := by
  have sorted : (sortTexts shown).Pairwise fun a b => decide (a ≤ b) = true := by
    apply List.pairwise_mergeSort
    · intro a b c first second
      exact decide_eq_true (String.le_trans (of_decide_eq_true first) (of_decide_eq_true second))
    · intro a b
      simpa using String.le_total a b
  exact sorted.imp of_decide_eq_true

/-- There is one order in which texts are sorted. -/
theorem sortTexts_eq (h : shown'.Perm shown) (sorted : shown'.Pairwise (· ≤ ·)) :
    sortTexts shown = shown' :=
  List.Perm.eq_of_pairwise (fun _ _ _ _ => String.le_antisymm) (pairwise_sortTexts shown) sorted
    ((sortTexts_perm shown).trans h.symm)

theorem sortTexts_eq_of_perm (h : shown'.Perm shown) : sortTexts shown' = sortTexts shown :=
  sortTexts_eq ((sortTexts_perm shown).trans h.symm) (pairwise_sortTexts shown)

/-! ### Wording -/

/-- What follows an item by its place among so many: nothing after the last, the conjunction before
it, and commas if there are more than two. -/
def closer (conjunction : String) (count place : Nat) : String :=
  if place + 1 = count then ""
  else
    (if 2 < count then ", " else " ") ++ if place + 2 = count then conjunction ++ " " else ""

theorem phrase_pair (conjunction a b : String) :
    phrase conjunction [a, b] = a ++ " " ++ conjunction ++ " " ++ b := by
  simp [phrase]

/-- A comma between any two, and one after the last, is a comma after each. -/
theorem intercalate_comma {front : List String} (some : front ≠ []) :
    ", ".intercalate front ++ ", " = String.join (front.map (· ++ ", ")) := by
  induction front with
  | nil => exact absurd rfl some
  | cons first rest ih =>
    cases rest with
    | nil => simp [String.join_cons]
    | cons second rest =>
      rw [String.intercalate_cons_cons, List.map_cons, String.join_cons, String.append_assoc,
        ih (List.cons_ne_nil _ _)]

theorem phrase_of_two_lt {items : List String} (long : 2 < items.length) (conjunction : String) :
    phrase conjunction items =
      ", ".intercalate items.dropLast ++ ", " ++ conjunction ++ " " ++ items.getLastD "" := by
  match items, long with
  | a :: b :: c :: rest, long =>
    have comma : "," ++ " " = ", " := by decide
    rw [phrase, if_pos long, @String.append_assoc _ "," " ", comma]
    all_goals nofun

/-- From three items on each but the last is followed by a comma, and the conjunction comes before the
last. -/
theorem phrase_concat {front : List String} (two : 2 ≤ front.length) (conjunction last : String) :
    phrase conjunction (front ++ [last]) =
      String.join (front.map (· ++ ", ")) ++ conjunction ++ " " ++ last := by
  have some : front ≠ [] := by
    rintro rfl
    cases two
  have long : 2 < (front ++ [last]).length := by simpa using Nat.lt_succ_of_le two
  rw [phrase_of_two_lt long, List.dropLast_concat, List.getLastD_concat, ← intercalate_comma some]

theorem closer_of_lt {count place : Nat} (early : place + 2 < count) :
    closer conjunction count place = ", " := by
  have many : 2 < count := by omega
  rw [closer, if_neg (by omega), if_pos many, if_neg (by omega), String.append_empty]

theorem closer_last (place : Nat) : closer conjunction (place + 1) place = "" := if_pos rfl

theorem closer_next {place : Nat} (some : 0 < place) :
    closer conjunction (place + 2) place = ", " ++ (conjunction ++ " ") := by
  rw [closer, if_neg (by omega), if_pos (by omega), if_pos rfl]

/-- A phrase is its items, each with what follows it by its place. -/
theorem phrase_eq_join (conjunction : String) (shown : List String) : phrase conjunction shown =
    String.join (shown.mapIdx fun i s => s ++ closer conjunction shown.length i) := by
  rcases List.eq_nil_or_concat shown with rfl | ⟨front, last, rfl⟩
  · rfl
  rcases List.eq_nil_or_concat front with rfl | ⟨init, next, rfl⟩
  · simp [phrase, closer, String.join_cons]
  by_cases two : init = []
  · subst two
    show phrase conjunction [next, last] = _
    rw [phrase_pair]
    simp [closer, String.join_cons, String.append_assoc]
  · have some : 0 < init.length := List.length_pos_of_ne_nil two
    have commas : (init.mapIdx fun i s => s ++ closer conjunction (init.length + 2) i) =
        init.map (· ++ ", ") := by
      refine List.ext_getElem (by simp) fun i hi _ => ?_
      have early : i + 2 < init.length + 2 := by simpa using hi
      rw [List.getElem_mapIdx, List.getElem_map, closer_of_lt early]
    have three : 2 ≤ (init ++ [next]).length := by simpa using Nat.succ_le_of_lt some
    have count : ((init.concat next).concat last).length = init.length + 2 := by simp
    rw [count, List.concat_eq_append, List.concat_eq_append, phrase_concat three,
      List.mapIdx_concat, List.mapIdx_concat, commas, closer_next some, List.length_append,
      List.length_singleton, closer_last (init.length + 1)]
    simp [String.join_append, String.join_cons, String.append_assoc]

/-- How items are put into words: nothing for none, one as it is shown, two with the conjunction
between them, and of more each but the last with a comma and the last after the conjunction. So each
is there once and in order. If they are sorted it is the phrase of what is shown in the order of
code points, however the items are ordered. -/
structure Worded (conjunction template : String) (items : List Value) (shown : List String) :
    Prop where
  none : shown = [] → humanizeList items conjunction template false = .ok ""
  one : ∀ a, shown = [a] → humanizeList items conjunction template false = .ok a
  two : ∀ a b, shown = [a, b] → humanizeList items conjunction template false =
    .ok (a ++ " " ++ conjunction ++ " " ++ b)
  more : ∀ front last, 2 ≤ front.length → shown = front ++ [last] →
    humanizeList items conjunction template false =
      .ok (String.join (front.map (· ++ ", ")) ++ conjunction ++ " " ++ last)
  inOrder : humanizeList items conjunction template false =
    .ok (String.join (shown.mapIdx fun i s => s ++ closer conjunction shown.length i))
  sorted : ∃ (ordered : List String) (text : String), ordered.Perm shown ∧
    ordered.Pairwise (fun s t => ¬ Before t s) ∧
    humanizeList (ordered.map .str) conjunction bareTemplate false = .ok text ∧
    ∀ items' : List Value, items'.Perm items →
      humanizeList items' conjunction template true = .ok text

theorem worded_of_shows (h : Shows template items shown) (conjunction : String) :
    Worded conjunction template items shown := by
  have unsorted : humanizeList items conjunction template false = .ok (phrase conjunction shown) :=
    humanizeList_of_shows h conjunction false
  constructor
  case none =>
    rintro rfl
    exact unsorted
  case one =>
    rintro a rfl
    exact unsorted
  case two =>
    rintro a b rfl
    rw [unsorted, phrase_pair]
  case more =>
    rintro front last two rfl
    rw [unsorted, phrase_concat two]
  case inOrder => rw [unsorted, phrase_eq_join]
  case sorted =>
    refine ⟨sortTexts shown, phrase conjunction (sortTexts shown), sortTexts_perm shown, ?_,
      humanizeList_of_shows (shows_texts _) conjunction false, fun items' perm => ?_⟩
    · exact (pairwise_sortTexts shown).imp fun le before =>
        String.not_lt.mpr le (before_iff.mp before)
    · obtain ⟨shown', h', perm'⟩ := h.perm perm
      rw [humanizeList_of_shows h', if_pos rfl, sortTexts_eq_of_perm perm']

/-- Items that a template can show are put into words, whatever the conjunction. -/
theorem items_put_into_words (items : List Value) (conjunction template : String)
    (all : ∀ x ∈ items, ∃ s, Template.format template x = .ok s) :
    ∃ shown, Shows template items shown ∧ Worded conjunction template items shown := by
  obtain ⟨shown, h⟩ := exists_shows all
  exact ⟨shown, h, worded_of_shows h conjunction⟩

/-- Four items, one of them twice, that are not in order. -/
def sampleItems : List Value := [.str "c", .int 3, .str "a", .str "c"]

theorem sampleItems_put_into_words :
    (∀ x ∈ sampleItems, ∃ s, Template.format literalTemplate x = .ok s) ∧
      (∃ shown, Shows literalTemplate sampleItems shown ∧
        Worded "and" literalTemplate sampleItems shown) ∧
      humanizeList sampleItems "and" literalTemplate true = .ok "'a', 'c', 'c', and 3" := by
  have all : ∀ x ∈ sampleItems, ∃ s, Template.format literalTemplate x = .ok s := fun x _ =>
    ⟨_, format_literalTemplate x⟩
  refine ⟨all, items_put_into_words sampleItems "and" literalTemplate all, ?_⟩
  have ordered : sortTexts (sampleItems.map Value.literal) = ["'a'", "'c'", "'c'", "3"] :=
    sortTexts_eq (by decide +kernel) (by decide +kernel)
  rw [humanizeList_of_shows (shows_literals sampleItems), if_pos rfl, ordered]
  rfl

end Text

end LintBroker

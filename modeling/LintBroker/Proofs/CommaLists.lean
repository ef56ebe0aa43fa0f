import LintBroker.Proofs.SettingConversion
import Mathlib.Data.List.DropRight
import Mathlib.Data.List.Forall2

/-!
# Lists written with commas

A list of texts is written with commas between its items, and with any blanks around these. Texts that
are not empty, hold no comma and have no blank at either end are read back as they were written; and
whatever is written, only such texts are read from it.
-/
namespace LintBroker

/-! ### Trimming -/

namespace Text
variable {drop : Char → Bool} {cs before after : List Char}

/-- There is nothing to trim at either end. -/
structure Bare (drop : Char → Bool) (cs : List Char) : Prop where
  first : ∀ c ∈ cs.head?, drop c = false
  last : ∀ c ∈ cs.getLast?, drop c = false

theorem trimChars_eq (drop : Char → Bool) (cs : List Char) :
    trimChars drop cs = (cs.dropWhile drop).rdropWhile drop := rfl

theorem trimChars_sublist (drop : Char → Bool) (cs : List Char) : (trimChars drop cs).Sublist cs :=
  (List.rdropWhile_prefix drop _).sublist.trans (List.dropWhile_sublist drop)

theorem bare_trimChars (drop : Char → Bool) (cs : List Char) : Bare drop (trimChars drop cs) where
  first c hc := by
    obtain ⟨rest, whole⟩ := List.rdropWhile_prefix drop (cs.dropWhile drop)
    have head : (cs.dropWhile drop).head? = some c := by
      rw [← whole, List.head?_append, ← trimChars_eq, hc]
      rfl
    have kept := List.head?_dropWhile_not drop cs
    rw [head] at kept
    exact kept
  last c hc := by
    have ne : trimChars drop cs ≠ [] := by
      intro none
      rw [none] at hc
      cases hc
    rw [List.getLast?_eq_some_getLast ne] at hc
    obtain rfl := Option.some.inj hc
    exact Bool.eq_false_iff.mpr (List.rdropWhile_last_not drop (cs.dropWhile drop) ne)

theorem trimChars_padded (bare : Bare drop cs) (front : ∀ c ∈ before, drop c = true)
    (back : ∀ c ∈ after, drop c = true) : trimChars drop (before ++ (cs ++ after)) = cs := by
  rw [trimChars_eq, List.dropWhile_append_of_pos front]
  cases cs with
  | nil =>
    rw [List.nil_append, List.dropWhile_eq_nil_iff.mpr back]
    rfl
  | cons c rest =>
    have kept : ¬ drop c = true := by simp [bare.first c rfl]
    have ends : (c :: rest).rdropWhile drop = c :: rest :=
      List.rdropWhile_eq_self_iff.mpr fun ne => by
        simp [bare.last _ (List.getLast?_eq_some_getLast ne)]
    rw [List.cons_append, List.dropWhile_cons_of_neg kept, ← List.cons_append, List.rdropWhile,
      List.reverse_append, List.dropWhile_append_of_pos (by simpa using back)]
    exact ends

theorem trimChars_of_bare (bare : Bare drop cs) : trimChars drop cs = cs := by
  simpa using @trimChars_padded drop cs [] [] bare nofun nofun

end Text

/-! ### Splitting and joining -/

namespace Setting
open Text
variable {sep : Char} {cs part : List Char} {parts : List (List Char)} {items : List String}
  {text x : String}

theorem splitAt_eq_splitOn (sep : Char) (cs : List Char) : splitAt sep cs = cs.splitOn sep := by
  induction cs with
  | nil => rfl
  | cons c rest ih =>
    rw [splitAt, List.splitOn_cons_eq_if_modifyHead, ih]
    by_cases here : c = sep
    · simp [here]
    · obtain ⟨part, parts, split⟩ := List.exists_cons_of_ne_nil (List.splitOn_ne_nil sep rest)
      simp [here, split]

theorem not_mem_of_mem_splitAt (h : part ∈ splitAt sep cs) : sep ∉ part := by
  induction cs generalizing part with
  | nil =>
    obtain rfl := List.mem_singleton.mp h
    exact List.not_mem_nil
  | cons c rest ih =>
    rw [splitAt] at h
    split at h
    · rcases List.mem_cons.mp h with rfl | later
      · exact List.not_mem_nil
      · exact ih later
    · next apart =>
      split at h
      · next first others split =>
        rw [split] at ih
        rcases List.mem_cons.mp h with rfl | later
        · exact List.not_mem_cons_of_ne_of_not_mem (Ne.symm apart) (ih (.head _))
        · exact ih (.tail _ later)
      · obtain rfl := List.mem_singleton.mp h
        simpa using Ne.symm apart

/-- A text that can be an item of a list written with commas: it is not empty, holds no comma, and
has no blank at either end. -/
structure IsItem (x : String) : Prop where
  nonempty : x ≠ ""
  noComma : ',' ∉ x.toList
  bare : Bare isBlank x.toList

/-- Whether a text can be an item is found by looking at it. -/
instance (x : String) : Decidable (IsItem x) :=
  decidable_of_iff (x ≠ "" ∧ ',' ∉ x.toList ∧ x.toList.head?.all (!isBlank ·) = true ∧
      x.toList.getLast?.all (!isBlank ·) = true) <| by
    simp only [Option.all_eq_true, Bool.not_eq_true']
    exact ⟨fun ⟨nonempty, noComma, first, last⟩ => ⟨nonempty, noComma, first, last⟩,
      fun ⟨nonempty, noComma, first, last⟩ => ⟨nonempty, noComma, first, last⟩⟩

/-- The part is the item with blanks around it. -/
def Pads (x part : String) : Prop :=
  ∃ before after : List Char, (∀ c ∈ before, isBlank c = true) ∧ (∀ c ∈ after, isBlank c = true) ∧
    part.toList = before ++ (x.toList ++ after)

theorem pads_self (x : String) : Pads x x := ⟨[], [], nofun, nofun, by simp⟩

/-- The text is the list written with commas, and with any blanks around these. -/
def Lists (text : String) (items : List String) : Prop :=
  ∃ parts, List.Forall₂ Pads items parts ∧ text = ",".intercalate parts

theorem lists_intercalate (items : List String) : Lists (",".intercalate items) items :=
  ⟨items, List.forall₂_same.mpr fun x _ => pads_self x, rfl⟩

theorem Pads.trimChars (pads : Pads x text) (hx : IsItem x) :
    Text.trimChars isBlank text.toList = x.toList := by
  obtain ⟨before, after, front, back, whole⟩ := pads
  rw [whole, trimChars_padded hx.bare front back]

theorem Pads.noComma (pads : Pads x text) (hx : IsItem x) : ',' ∉ text.toList := by
  obtain ⟨before, after, front, back, whole⟩ := pads
  have comma : isBlank ',' ≠ true := by decide
  rw [whole, List.mem_append, List.mem_append]
  rintro (h | h | h)
  · exact comma (front _ h)
  · exact hx.noComma h
  · exact comma (back _ h)

theorem splitAt_intercalate {parts : List String} (some : parts ≠ [])
    (apart : ∀ p ∈ parts, ',' ∉ p.toList) :
    splitAt ',' (",".intercalate parts).toList = parts.map String.toList := by
  have comma : ",".toList = [','] := by decide
  rw [splitAt_eq_splitOn, String.toList_intercalate, comma]
  exact List.splitOn_intercalate ',' (by simpa using apart) (by simpa using some)

/-- Items are read as they were written. -/
theorem commaItems_of_lists (all : ∀ x ∈ items, IsItem x) (h : Lists text items) :
    commaItems text = items := by
  obtain ⟨parts, pads, rfl⟩ := h
  by_cases none : items = []
  · subst none
    obtain rfl := List.forall₂_nil_left_iff.mp pads
    rfl
  · have some : parts ≠ [] := by
      rintro rfl
      exact none (List.forall₂_nil_right_iff.mp pads)
    have apart : (∀ p ∈ parts, ',' ∉ p.toList) ∧
        parts.map (fun p => Text.trimChars isBlank p.toList) = items.map String.toList := by
      clear none some
      induction pads with
      | nil => exact ⟨nofun, rfl⟩
      | @cons x part items parts pad _ ih =>
        obtain ⟨hx, rest⟩ := List.forall_mem_cons.mp all
        obtain ⟨apart, trimmed⟩ := ih rest
        exact ⟨List.forall_mem_cons.mpr ⟨pad.noComma hx, apart⟩, by
          rw [List.map_cons, List.map_cons, pad.trimChars hx, trimmed]⟩
    have kept : (items.map String.toList).filter (fun part => !part.isEmpty) =
        items.map String.toList := by
      refine List.filter_eq_self.mpr fun part hp => ?_
      obtain ⟨x, hx, rfl⟩ := List.mem_map.mp hp
      simpa using (all x hx).nonempty
    rw [commaItems, splitAt_intercalate some apart.1, List.map_map]
    show List.map String.ofList ((parts.map fun p => Text.trimChars isBlank p.toList).filter _) = _
    rw [apart.2, kept, List.map_map]
    simp [Function.comp_def]

theorem isItem_of_mem_commaItems (h : x ∈ commaItems text) : IsItem x := by
  obtain ⟨part, kept, rfl⟩ := List.mem_map.mp h
  obtain ⟨trimmed, some⟩ := List.mem_filter.mp kept
  obtain ⟨whole, split, rfl⟩ := List.mem_map.mp trimmed
  refine ⟨?_, ?_, ?_⟩
  · intro none
    have empty := congrArg String.toList none
    rw [String.toList_ofList] at empty
    simp [empty] at some
  · rw [String.toList_ofList]
    exact fun comma =>
      not_mem_of_mem_splitAt split ((trimChars_sublist isBlank whole).subset comma)
  · rw [String.toList_ofList]
    exact bare_trimChars isBlank whole

namespace Store
variable {st : Store} {env : Environment} {item : String} {kind : Kind} {default : Default}

theorem get_of_listVariable (declared : st.schema.get? item = some ⟨.listOf kind, default⟩)
    (ready : st.ready = true) (present : variableText st.host env item = some text) :
    (st.get env item).1 = .ok (.list ((commaItems text).map .str)) :=
  get_of_variable declared ready present

/-- To read a list from a variable gives the items that are written there; and whatever is written
there, it gives items, and gives the same again when these are written with commas. -/
structure ReadsLists (st : Store) (item : String) : Prop where
  written : ∀ env text items, (∀ x ∈ items, IsItem x) → Lists text items →
    variableText st.host env item = some text → (st.get env item).1 = .ok (.list (items.map .str))
  rewritten : ∀ env text, variableText st.host env item = some text → ∃ items,
    (∀ x ∈ items, IsItem x) ∧ (st.get env item).1 = .ok (.list (items.map .str)) ∧
      ∀ env', variableText st.host env' item = some (",".intercalate items) →
        (st.get env' item).1 = .ok (.list (items.map .str))

theorem readsLists (declared : st.schema.get? item = some ⟨.listOf kind, default⟩)
    (ready : st.ready = true) : st.ReadsLists item where
  written env text items all lists present := by
    rw [get_of_listVariable declared ready present, commaItems_of_lists all lists]
  rewritten env text present := by
    have all : ∀ x ∈ commaItems text, IsItem x := fun x hx => isItem_of_mem_commaItems hx
    refine ⟨commaItems text, all, get_of_listVariable declared ready present,
      fun env' present' => ?_⟩
    rw [get_of_listVariable declared ready present',
      commaItems_of_lists all (lists_intercalate _)]

theorem ready_of_get {v : Value} (h : (st.get env item).1 = .ok v) : st.ready = true := by
  cases ready : st.ready with
  | true => rfl
  | false => cases hd : st.declared item <;> simp [get, locate, hd, ready, Except.map] at h

end Store
end Setting
end LintBroker

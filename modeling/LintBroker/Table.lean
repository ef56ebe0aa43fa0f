/-! # Tables in order of insertion

A table maps keys to values and remembers the order in which its keys first came in. Writing an
existing key keeps its place; erasing it and writing it again moves it to the end. -/
namespace LintBroker

/-- Rows in order of insertion. -/
structure Table (κ α : Type) where
  rows : List (κ × α) := []

namespace Table
variable {κ α : Type} [DecidableEq κ]

instance : EmptyCollection (Table κ α) := ⟨⟨[]⟩⟩
instance : Inhabited (Table κ α) := ⟨⟨[]⟩⟩

def get? (t : Table κ α) (k : κ) : Option α := (t.rows.find? fun r => r.1 = k).map Prod.snd

def has (t : Table κ α) (k : κ) : Bool := (t.get? k).isSome

/-- Writes into the first row of a key, or into a new last row. -/
def putRow (k : κ) (v : α) : List (κ × α) → List (κ × α)
  | [] => [(k, v)]
  | r :: rest => if r.1 = k then (k, v) :: rest else r :: putRow k v rest

def put (t : Table κ α) (k : κ) (v : α) : Table κ α := ⟨putRow k v t.rows⟩

def erase (t : Table κ α) (k : κ) : Table κ α := ⟨t.rows.filter fun r => r.1 ≠ k⟩

def keys (t : Table κ α) : List κ := t.rows.map Prod.fst

def values (t : Table κ α) : List α := t.rows.map Prod.snd

def ofList (rows : List (κ × α)) : Table κ α := rows.foldl (fun t r => t.put r.1 r.2) ∅

@[simp] theorem get?_empty (k : κ) : (∅ : Table κ α).get? k = none := rfl

theorem find?_putRow (k k' : κ) (v : α) (rows : List (κ × α)) :
    ((putRow k v rows).find? fun r => r.1 = k').map Prod.snd =
      if k = k' then some v else (rows.find? fun r => r.1 = k').map Prod.snd := by
  induction rows with
  | nil => by_cases h : k = k' <;> simp [putRow, h]
  | cons r rest ih =>
    unfold putRow
    by_cases hr : r.1 = k
    · by_cases h : k = k' <;> simp [hr, h]
    · by_cases h' : r.1 = k'
      · have : k ≠ k' := fun e => hr (h'.trans e.symm)
        simp [h', this, Ne.symm this]
      · simp [hr, h', ih]

/-- Writing a key changes that key alone. -/
@[simp] theorem get?_put (t : Table κ α) (k k' : κ) (v : α) :
    (t.put k v).get? k' = if k = k' then some v else t.get? k' :=
  find?_putRow k k' v t.rows

@[simp] theorem get?_erase (t : Table κ α) (k k' : κ) :
    (t.erase k).get? k' = if k = k' then none else t.get? k' := by
  unfold get? erase
  rw [List.find?_filter]
  by_cases h : k = k'
  · subst h
    simp
  · rw [if_neg h]
    congr 2
    funext r
    by_cases hr : r.1 = k' <;> simp [hr, Ne.symm h]

theorem keys_putRow (k : κ) (v : α) (rows : List (κ × α)) :
    (putRow k v rows).map Prod.fst =
      if k ∈ rows.map Prod.fst then rows.map Prod.fst else rows.map Prod.fst ++ [k] := by
  induction rows with
  | nil => simp [putRow]
  | cons r rest ih =>
    unfold putRow
    by_cases hr : r.1 = k
    · simp [hr]
    · rw [if_neg hr, List.map_cons, ih, List.map_cons]
      by_cases h : k ∈ rest.map Prod.fst <;> simp [h, Ne.symm hr]

/-- Writing keeps the order of the keys; a new key comes last. -/
theorem keys_put (t : Table κ α) (k : κ) (v : α) :
    (t.put k v).keys = if k ∈ t.keys then t.keys else t.keys ++ [k] :=
  keys_putRow k v t.rows

@[simp] theorem keys_erase (t : Table κ α) (k : κ) :
    (t.erase k).keys = t.keys.filter fun k' => k' ≠ k := by
  simp [keys, erase, List.filter_map, Function.comp_def]

theorem isSome_get?_iff (t : Table κ α) (k : κ) : (t.get? k).isSome = true ↔ k ∈ t.keys := by
  simp [get?, keys]

end Table
end LintBroker

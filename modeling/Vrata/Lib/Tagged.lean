import Mathlib.Data.List.Count

/-!
# Lists of lists with positions

`tag` puts the lists of a list one after the other and gives each entry the position of its list. How often
an entry is there with a position is how often it is in the list at that position.
-/

namespace Tagged

variable {α : Type}

def tagFrom (n : ℕ) : List (List α) → List (ℕ × α)
  | [] => []
  | xs :: xss => xs.map (Prod.mk n) ++ tagFrom (n + 1) xss

def tag (xss : List (List α)) : List (ℕ × α) := tagFrom 0 xss

theorem tagFrom_append (n : ℕ) (xss yss : List (List α)) :
    tagFrom n (xss ++ yss) = tagFrom n xss ++ tagFrom (n + xss.length) yss := by
  induction xss generalizing n with
  | nil => rfl
  | cons xs xss ih =>
    rw [List.cons_append, tagFrom, ih, tagFrom, List.append_assoc, List.length_cons]
    congr 3
    omega

theorem tag_concat (xss : List (List α)) (xs : List α) :
    tag (xss ++ [xs]) = tag xss ++ xs.map (Prod.mk xss.length) := by
  rw [tag, tagFrom_append, tagFrom, tagFrom, List.append_nil, Nat.zero_add, tag]

variable [BEq α] [LawfulBEq α]

theorem count_map_mk (n k : ℕ) (xs : List α) (a : α) :
    (xs.map (Prod.mk n)).count (k, a) = if k = n then xs.count a else 0 := by
  split
  · rename_i h
    subst h
    exact List.count_map_of_injective xs (Prod.mk k) (fun _ _ h => (Prod.mk.inj h).2) a
  · rename_i h
    refine List.count_eq_zero_of_not_mem fun hmem => h ?_
    obtain ⟨x, -, hx⟩ := List.mem_map.mp hmem
    exact (Prod.mk.inj hx).1.symm

theorem count_tagFrom (n k : ℕ) (xss : List (List α)) (a : α) :
    (tagFrom n xss).count (n + k, a) = (xss[k]?.getD []).count a ∧
      ∀ m < n, (tagFrom n xss).count (m, a) = 0 := by
  induction xss generalizing n k with
  | nil => exact ⟨rfl, fun _ _ => rfl⟩
  | cons xs xss ih =>
    simp only [tagFrom, List.count_append, count_map_mk]
    refine ⟨?_, fun m hm => ?_⟩
    · cases k with
      | zero =>
        rw [Nat.add_zero, if_pos rfl, (ih (n + 1) 0).2 n (Nat.lt_succ_self n)]
        rfl
      | succ k =>
        have hne : n + (k + 1) ≠ n := by omega
        have hindex : n + (k + 1) = n + 1 + k := by omega
        rw [if_neg hne, Nat.zero_add, hindex, (ih (n + 1) k).1]
        rfl
    · rw [if_neg (Nat.ne_of_lt hm), Nat.zero_add, (ih (n + 1) 0).2 m (by omega)]

theorem count_tag (k : ℕ) (xss : List (List α)) (a : α) :
    (tag xss).count (k, a) = (xss[k]?.getD []).count a := by
  have h := (count_tagFrom 0 k xss a).1
  rwa [Nat.zero_add] at h

end Tagged

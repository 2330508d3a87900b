import Mathlib.Data.List.Rotate
import Mathlib.Data.Prod.Lex
import Mathlib.Tactic.Order

/-!
# Hash rings

A ring is a list of nodes in the order of their hashes. A key belongs to the first node at or after it,
and after the last node the ring starts again. `rank` orders hashes as they are met going on from a key,
so that the node of a key is one of least rank, and it does not matter how the list was put together.

`owner_eq_or_new` is what makes rings stable: a node of the larger of two rings that the smaller one
has too owns the same keys there, or more.
-/

namespace HashRing

variable {α β κ : Type} [LinearOrder κ] {hash : α → κ} {ring ring' : List α} {key : κ} {e e' : α}

/-- The order in which hashes are met going on from the key. -/
def rank (key h : κ) : Bool ×ₗ κ := toLex (decide (h < key), h)

theorem rank_le_iff {a b : κ} : rank key a ≤ rank key b ↔ (a < key → b < key) ∧
    ((a < key ↔ b < key) → a ≤ b) := by
  rw [rank, rank, Prod.Lex.toLex_le_toLex]
  by_cases ha : a < key <;> by_cases hb : b < key <;> simp [ha, hb]

theorem rank_injective (key : κ) : Function.Injective (rank key) := fun _ _ h => congrArg (·.2) h

/-- The nodes in the order in which they are met from the key on. -/
def clockwise (hash : α → κ) (ring : List α) (key : κ) : List α :=
  ring.filter (key ≤ hash ·) ++ ring.filter (hash · < key)

theorem mem_clockwise : e ∈ clockwise hash ring key ↔ e ∈ ring := by
  simp only [clockwise, List.mem_append, List.mem_filter, decide_eq_true_eq]
  rw [← and_or_left, and_iff_left (le_or_gt key (hash e))]

section Sorted

variable (hsorted : ring.Pairwise fun a b => hash a ≤ hash b)

include hsorted

theorem pairwise_clockwise (key : κ) :
    (clockwise hash ring key).Pairwise fun a b => rank key (hash a) ≤ rank key (hash b) := by
  have hsub (p : α → Bool) : (ring.filter p).Pairwise fun a b => hash a ≤ hash b :=
    hsorted.sublist List.filter_sublist
  refine List.pairwise_append.mpr ⟨(hsub _).imp_of_mem ?_, (hsub _).imp_of_mem ?_, ?_⟩ <;>
    simp only [List.mem_filter, decide_eq_true_eq, rank_le_iff] <;> grind

/-- The first node from the key on that has the property is one of least rank. -/
theorem rank_le_of_find? {p : α → Bool} (h : (clockwise hash ring key).find? p = some e)
    (he' : e' ∈ ring) (hp : p e' = true) : rank key (hash e) ≤ rank key (hash e') := by
  obtain ⟨-, l, l', heq, hnot⟩ := List.find?_eq_some_iff_append.mp h
  have hpair := pairwise_clockwise hsorted key
  have hmem : e' ∈ clockwise hash ring key := mem_clockwise.mpr he'
  rw [heq] at hpair hmem
  rcases List.mem_append.mp hmem with hl | hl
  · have hfalse := hnot e' hl
    rw [hp] at hfalse
    cases hfalse
  · rcases List.mem_cons.mp hl with rfl | hl
    · exact le_rfl
    · exact List.rel_of_pairwise_cons (List.pairwise_append.mp hpair).2.1 hl

/-- The list is turned to the first hash that is not below the key. -/
theorem clockwise_eq_rotate (key : κ) :
    clockwise hash ring key = ring.rotate (ring.findIdx (key ≤ hash ·)) := by
  have hdrop : ring.drop (ring.findIdx (key ≤ hash ·)) = ring.filter (key ≤ hash ·) ∧
      ring.take (ring.findIdx (key ≤ hash ·)) = ring.filter (hash · < key) := by
    -- The nodes below the key stand at the beginning of the list.
    induction ring with
    | nil => simp
    | cons a ring ih =>
      obtain ⟨hle, hrest⟩ := List.pairwise_cons.mp hsorted
      by_cases ha : key ≤ hash a
      · have hall : ∀ b ∈ a :: ring, key ≤ hash b := by
          simpa [ha] using fun b hb => ha.trans (hle b hb)
        rw [List.findIdx_cons, decide_eq_true ha, cond_true, List.drop_zero, List.take_zero,
          List.filter_eq_self.mpr (by simpa using hall),
          List.filter_eq_nil_iff.mpr (by simpa using hall)]
        exact ⟨rfl, rfl⟩
      · obtain ⟨hd, ht⟩ := ih hrest
        have hlt := not_le.mp ha
        rw [List.findIdx_cons, decide_eq_false ha, cond_false, List.drop_succ_cons, List.take_succ_cons,
          hd, ht, List.filter_cons_of_neg (by simpa using ha),
          List.filter_cons_of_pos (by simpa using hlt)]
        exact ⟨rfl, rfl⟩
  rw [List.rotate_eq_drop_append_take List.findIdx_le_length, hdrop.1, hdrop.2, clockwise]

end Sorted

/-- The owner of the first node from the key on. -/
def owner (hash : α → κ) (own : α → β) (ring : List α) (key : κ) : Option β :=
  (clockwise hash ring key).head?.map own

section Owner

variable {own : α → β} {x : β} (hsorted : ring.Pairwise fun a b => hash a ≤ hash b)

theorem owner_eq_none : owner hash own ring key = none ↔ ring = [] := by
  rw [owner, Option.map_eq_none_iff, List.head?_eq_none_iff, List.eq_nil_iff_forall_not_mem,
    List.eq_nil_iff_forall_not_mem]
  exact forall_congr' fun e => not_congr mem_clockwise

include hsorted in
/-- An owner has a node that is met first. -/
theorem exists_node (h : owner hash own ring key = some x) :
    ∃ e ∈ ring, own e = x ∧ ∀ e' ∈ ring, rank key (hash e) ≤ rank key (hash e') := by
  obtain ⟨e, he, rfl⟩ := Option.map_eq_some_iff.mp h
  have hfind : (clockwise hash ring key).find? (fun _ => true) = some e := by
    rwa [← List.head?_filter, List.filter_true]
  exact ⟨e, mem_clockwise.mp (List.mem_of_mem_head? he), rfl, fun e' he' =>
    rank_le_of_find? hsorted hfind he' rfl⟩

include hsorted in
/-- Where nodes with one hash have one owner, whoever has a node that is met first is the owner. -/
theorem owner_eq_some (honce : ∀ e ∈ ring, ∀ e' ∈ ring, hash e = hash e' → own e = own e')
    (he : e ∈ ring) (hfirst : ∀ e' ∈ ring, rank key (hash e) ≤ rank key (hash e')) :
    owner hash own ring key = some (own e) := by
  have hsome : owner hash own ring key ≠ none := mt owner_eq_none.mp (List.ne_nil_of_mem he)
  obtain ⟨x, hx⟩ := Option.ne_none_iff_exists'.mp hsome
  obtain ⟨e', he', rfl, hfirst'⟩ := exists_node hsorted hx
  rw [hx, honce e' he' e he (rank_injective key (le_antisymm (hfirst' e he) (hfirst e' he')))]

/-- In the larger of two rings a key has a node that only the larger one has, or its owner is the
same. -/
theorem owner_eq_or_new (hsorted : ring.Pairwise fun a b => hash a ≤ hash b)
    (hsorted' : ring'.Pairwise fun a b => hash a ≤ hash b) (hsub : ∀ e ∈ ring, e ∈ ring')
    (honce : ∀ e ∈ ring', ∀ e' ∈ ring', hash e = hash e' → own e = own e') (key : κ) :
    (∃ e ∈ ring', e ∉ ring ∧ owner hash own ring' key = some (own e)) ∨
      owner hash own ring key = owner hash own ring' key := by
  cases hx : owner hash own ring' key with
  | none =>
    obtain rfl := owner_eq_none.mp hx
    obtain rfl : ring = [] := List.eq_nil_iff_forall_not_mem.mpr fun e he => nomatch hsub e he
    exact Or.inr rfl
  | some x =>
    obtain ⟨e, he, rfl, hfirst⟩ := exists_node hsorted' hx
    by_cases hmem : e ∈ ring
    · refine Or.inr (owner_eq_some hsorted (fun a ha b hb => honce a (hsub a ha) b (hsub b hb)) hmem ?_)
      exact fun e' he' => hfirst e' (hsub e' he')
    · exact Or.inl ⟨e, he, hmem, rfl⟩

end Owner

end HashRing

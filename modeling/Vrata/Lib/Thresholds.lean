import Mathlib.Algebra.BigOperators.Group.List.Basic
import Mathlib.Algebra.Order.BigOperators.Group.List
import Mathlib.Algebra.Order.Ring.Nat
import Mathlib.Data.Nat.Count
import Mathlib.Order.Interval.Finset.Nat

/-!
# Selection by thresholds

A common way to choose among weighted positions is to compare a residue `r` with a sequence of
thresholds `c 0, c 1, …` and take the first position whose threshold is above `r`. When the
thresholds are the partial sums of the weights, every position is chosen by as many residues as its
weight says. The sequence need not be monotone here, because partial sums computed in machine
arithmetic are not.
-/

namespace Thresholds

variable {c : ℕ → ℕ} {T i : ℕ}

/-- The residue `r` picks position `i`: its threshold is the first one above `r`. -/
def Picks (c : ℕ → ℕ) (r i : ℕ) : Prop := r < c i ∧ ∀ l < i, c l ≤ r

instance (c : ℕ → ℕ) (i : ℕ) : DecidablePred (Picks c · i) := fun r =>
  inferInstanceAs (Decidable (r < c i ∧ ∀ l < i, c l ≤ r))

theorem Picks.unique {r j : ℕ} (hi : Picks c r i) (hj : Picks c r j) : i = j := by
  rcases Nat.lt_trichotomy i j with h | h | h
  · exact absurd hi.1 (Nat.not_lt.mpr (hj.2 i h))
  · exact h
  · exact absurd hj.1 (Nat.not_lt.mpr (hi.2 j h))

/-- A residue below some threshold picks a position. -/
theorem exists_picks {r n : ℕ} (h : r < c n) : ∃ j ≤ n, Picks c r j := by
  have hex : ∃ j, r < c j := ⟨n, h⟩
  refine ⟨Nat.find hex, Nat.find_min' hex h, Nat.find_spec hex, fun l hl => ?_⟩
  exact Nat.not_lt.mp (Nat.find_min hex hl)

/-- The number of residues below `T` that pick position `i`. -/
def share (c : ℕ → ℕ) (T i : ℕ) : ℕ := Nat.count (Picks c · i) T

theorem share_zero : share c T 0 = min (c 0) T := by
  have hset : (Finset.range T).filter (Picks c · 0) = Finset.range (min (c 0) T) := by
    ext r
    simp only [Picks, Finset.mem_filter, Finset.mem_range, Nat.not_lt_zero, false_imp_iff,
      implies_true, and_true, lt_min_iff]
    exact and_comm
  rw [share, Nat.count_eq_card_filter_range, hset, Finset.card_range]

/-- A position behind a threshold that no residue reaches is never picked. -/
theorem share_eq_zero {l : ℕ} (hl : l < i) (hT : T ≤ c l) : share c T i = 0 := by
  rw [share, Nat.count_eq_card_filter_range, Finset.card_eq_zero, Finset.filter_eq_empty_iff]
  intro r hr hpick
  have := hpick.2 l hl
  have := Finset.mem_range.mp hr
  omega

theorem share_pos {r : ℕ} (hr : r < T) (h : Picks c r i) : 0 < share c T i := by
  rw [share, Nat.count_eq_card_filter_range, Finset.card_pos]
  exact ⟨r, Finset.mem_filter.mpr ⟨Finset.mem_range.mpr hr, h⟩⟩

theorem sum_take_le_sum_take (ws : List ℕ) {m n : ℕ} (h : m ≤ n) :
    (ws.take m).sum ≤ (ws.take n).sum :=
  (List.take_prefix_take_left h).sublist.sum_le_sum fun _ _ => Nat.zero_le _

/-- Where the thresholds up to `i` are partial sums, position `i` gets its weight. -/
theorem share_of_sums {ws : List ℕ} (hi : i < ws.length)
    (hc : ∀ l ≤ i, c l = (ws.take (l + 1)).sum) (hT : c i ≤ T) : share c T i = ws[i] := by
  have hset : (Finset.range T).filter (Picks c · i) = Finset.Ico (ws.take i).sum (c i) := by
    ext r
    rw [Finset.mem_filter, Finset.mem_range, Finset.mem_Ico]
    constructor
    · rintro ⟨_, hlt, hbefore⟩
      refine ⟨?_, hlt⟩
      rcases Nat.eq_zero_or_pos i with rfl | hpos
      · simp
      · have := hbefore (i - 1) (by omega)
        rwa [hc (i - 1) (by omega), Nat.sub_add_cancel hpos] at this
    · rintro ⟨hge, hlt⟩
      refine ⟨by omega, hlt, fun l hl => ?_⟩
      rw [hc l (by omega)]
      exact (sum_take_le_sum_take ws hl).trans hge
  rw [share, Nat.count_eq_card_filter_range, hset, Nat.card_Ico, hc i le_rfl,
    List.sum_take_succ ws i hi, Nat.add_sub_cancel_left]

end Thresholds

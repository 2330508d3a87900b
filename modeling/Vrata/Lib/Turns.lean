import Mathlib.Data.Int.CardIntervalMod

/-!
# Taking turns

Among `n` parties that take turns, the one whose turn it is at time `i` has the number `i % n`. Over any
span of time, two parties have the same number of turns up to one.
-/

namespace Turns

variable {n j j' : ℕ}

theorem count_eq (hj : j < n) (k : ℕ) :
    Nat.count (fun i => i % n = j) k = k / n + if j < k % n then 1 else 0 := by
  have hcard := Nat.count_modEq_card k (Nat.zero_lt_of_lt hj) j
  simpa only [Nat.ModEq, Nat.mod_eq_of_lt hj] using hcard

theorem count_le (hj : j < n) (hj' : j' < n) (m k : ℕ) :
    Nat.count (fun i => (m + i) % n = j) k ≤ Nat.count (fun i => (m + i) % n = j') k + 1 := by
  have hsplit := Nat.count_add (fun i => i % n = j) m k
  have hsplit' := Nat.count_add (fun i => i % n = j') m k
  rw [count_eq hj, count_eq hj] at hsplit
  rw [count_eq hj', count_eq hj'] at hsplit'
  split_ifs at hsplit hsplit' <;> omega

end Turns

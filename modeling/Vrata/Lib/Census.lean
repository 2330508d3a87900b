import Mathlib.Data.Finset.Card
import Mathlib.Logic.Function.Basic

/-!
# Counting processes by place

`Count p f n` says that exactly `n` of the processes stand at a place with the property `p`, where
`f` says where each of them stands. There may be infinitely many processes. A process that moves
leaves the count as it is, raises it or lowers it by one, according to the places it leaves and
enters; so a counter that is kept in step with the moves is the number of processes it stands for.
-/

namespace Census

variable {ι β : Type} {p : β → Bool} {f : ι → β} {n : ℤ} {t : ι} {b : β}

/-- Exactly `n` processes stand at a place with the property. -/
def Count (p : β → Bool) (f : ι → β) (n : ℤ) : Prop :=
  ∃ s : Finset ι, (∀ t, t ∈ s ↔ p (f t) = true) ∧ (s.card : ℤ) = n

theorem count_zero (h : ∀ t, p (f t) = false) : Count p f 0 :=
  ⟨∅, fun t => by simp [h t], rfl⟩

theorem Count.card_le (h : Count p f n) (ts : Finset ι) (hts : ∀ t ∈ ts, p (f t) = true) :
    (ts.card : ℤ) ≤ n := by
  obtain ⟨s, hs, rfl⟩ := h
  exact Int.ofNat_le.mpr (Finset.card_le_card fun t ht => (hs t).mpr (hts t ht))

theorem Count.pos (h : Count p f n) (ht : p (f t) = true) : 0 < n := by
  obtain ⟨s, hs, rfl⟩ := h
  exact Int.natCast_pos.mpr (Finset.card_pos.mpr ⟨t, (hs t).mpr ht⟩)

theorem Count.unique {m : ℤ} (hn : Count p f n) (hm : Count p f m) : n = m := by
  obtain ⟨s, hs, rfl⟩ := hn
  obtain ⟨s', hs', rfl⟩ := hm
  have hss : s = s' := Finset.ext fun t => (hs t).trans (hs' t).symm
  rw [hss]

variable [DecidableEq ι]

theorem Count.stay (h : Count p f n) (hb : p b = p (f t)) : Count p (Function.update f t b) n := by
  obtain ⟨s, hs, rfl⟩ := h
  refine ⟨s, fun u => ?_, rfl⟩
  by_cases hu : u = t
  · subst hu
    rw [Function.update_self, hb, hs]
  · rw [Function.update_of_ne hu, hs]

theorem Count.enter (h : Count p f n) (ht : p (f t) = false) (hb : p b = true) :
    Count p (Function.update f t b) (n + 1) := by
  obtain ⟨s, hs, rfl⟩ := h
  have hnot : t ∉ s := by simp [hs, ht]
  refine ⟨insert t s, fun u => ?_, by rw [Finset.card_insert_of_notMem hnot]; rfl⟩
  rw [Finset.mem_insert, hs]
  by_cases hu : u = t
  · subst hu
    simp [hb]
  · simp [hu]

theorem Count.leave (h : Count p f n) (ht : p (f t) = true) (hb : p b = false) :
    Count p (Function.update f t b) (n - 1) := by
  obtain ⟨s, hs, rfl⟩ := h
  have hmem : t ∈ s := (hs t).mpr ht
  have hpos : 0 < s.card := Finset.card_pos.mpr ⟨t, hmem⟩
  refine ⟨s.erase t, fun u => ?_, by rw [Finset.card_erase_of_mem hmem]; omega⟩
  rw [Finset.mem_erase, hs]
  by_cases hu : u = t
  · subst hu
    simp [hb]
  · simp [hu]

end Census

import Mathlib.Data.List.Perm.Basic

/-!
# The first match of a list whose blocks may come in any order

A table is scanned from the front and the first entry with a property wins. Its entries come in
blocks: the order inside a block is fixed, the order of the blocks is not. The entries that can win
are then the first matches of the blocks, each of them for some order.

`Topmost` says that no match is preferred to an entry. `always_topmost_iff` characterises the tables,
made of two runs of blocks, whose winner is topmost in every order.
-/

namespace FirstMatch

variable {α β γ : Type} {p : α → Bool}

/-- Among the entries of `l` with the property, none is preferred to `a`. -/
def Topmost (p : α → Bool) (preferred : α → α → Prop) (l : List α) (a : α) : Prop :=
  ∀ a' ∈ l, p a' = true → ¬preferred a' a

theorem Topmost.congr {preferred : α → α → Prop} {l l' : List α} {a : α}
    (h : Topmost p preferred l a) (hmem : ∀ x, x ∈ l' ↔ x ∈ l) : Topmost p preferred l' a :=
  fun x hx => h x ((hmem x).mp hx)

/-- The first match of a run of blocks is the first match of one of them. -/
theorem exists_block_of_find {bs : List β} {f : β → List α} {a : α}
    (h : (bs.flatMap f).find? p = some a) : ∃ b ∈ bs, (f b).find? p = some a := by
  induction bs with
  | nil => cases h
  | cons b bs ih =>
    rw [List.flatMap_cons, List.find?_append] at h
    cases hb : (f b).find? p with
    | some a' =>
      rw [hb, Option.some_or] at h
      exact ⟨b, List.mem_cons_self, hb.trans h⟩
    | none =>
      rw [hb, Option.none_or] at h
      obtain ⟨b', hb', hfind⟩ := ih h
      exact ⟨b', List.mem_cons_of_mem b hb', hfind⟩

/-- The first match of any block is the first match for some order of the blocks. -/
theorem exists_perm_of_find {bs : List β} {f : β → List α} {b : β} {a : α} (hb : b ∈ bs)
    (h : (f b).find? p = some a) : ∃ bs' : List β, bs'.Perm bs ∧
      (bs'.flatMap f).find? p = some a := by
  obtain ⟨before, after, rfl⟩ := List.append_of_mem hb
  refine ⟨b :: (before ++ after), List.perm_middle.symm, ?_⟩
  rw [List.flatMap_cons, List.find?_append, h, Option.some_or]

theorem find_flatMap_eq_none {bs : List β} {f : β → List α} :
    (bs.flatMap f).find? p = none ↔ ∀ b ∈ bs, (f b).find? p = none := by
  simp only [List.find?_eq_none, List.mem_flatMap]
  constructor
  · exact fun h b hb a ha => h a ⟨b, hb, ha⟩
  · rintro h a ⟨b, hb, ha⟩
    exact h b hb a ha

theorem mem_flatMap_perm {bs bs' : List β} {f : β → List α} (h : bs'.Perm bs) (a : α) :
    a ∈ bs'.flatMap f ↔ a ∈ bs.flatMap f := by
  simp only [List.mem_flatMap, h.mem_iff]

/-- In every order of the blocks the first match is topmost, if and only if the first match of every
block of the first run is topmost, and without any the first matches of the second run are topmost
in it. -/
theorem always_topmost_iff (p : α → Bool) (preferred : α → α → Prop) (bs : List β) (cs : List γ)
    (f : β → List α) (g : γ → List α) :
    (∀ (bs' : List β) (cs' : List γ), bs'.Perm bs → cs'.Perm cs → ∀ a,
      (bs'.flatMap f ++ cs'.flatMap g).find? p = some a →
        Topmost p preferred (bs'.flatMap f ++ cs'.flatMap g) a) ↔
      (∀ b ∈ bs, ∀ a, (f b).find? p = some a →
        Topmost p preferred (bs.flatMap f ++ cs.flatMap g) a) ∧
      ((∀ b ∈ bs, (f b).find? p = none) → ∀ c ∈ cs, ∀ a, (g c).find? p = some a →
        Topmost p preferred (cs.flatMap g) a) := by
  have hmem : ∀ {bs' : List β} {cs' : List γ}, bs'.Perm bs → cs'.Perm cs → ∀ x,
      x ∈ bs'.flatMap f ++ cs'.flatMap g ↔ x ∈ bs.flatMap f ++ cs.flatMap g := by
    intro bs' cs' hbs hcs x
    rw [List.mem_append, List.mem_append, mem_flatMap_perm hbs, mem_flatMap_perm hcs]
  constructor
  · intro h
    constructor
    · -- put the block first
      intro b hb a ha
      obtain ⟨bs', hbs, hfind⟩ := exists_perm_of_find hb ha
      refine (h bs' cs hbs (.refl _) a ?_).congr fun x => (hmem hbs (.refl _) x).symm
      rw [List.find?_append, hfind, Option.some_or]
    · intro hnone c hc a ha
      obtain ⟨cs', hcs, hfind⟩ := exists_perm_of_find hc ha
      have hfirst := h bs cs' (.refl _) hcs a
      rw [List.find?_append, find_flatMap_eq_none.mpr hnone, Option.none_or] at hfirst
      intro x hx
      exact hfirst hfind x (List.mem_append_right _ ((mem_flatMap_perm hcs x).mpr hx))
  · rintro ⟨hfirst, hsecond⟩ bs' cs' hbs hcs a hfind
    rw [List.find?_append] at hfind
    cases hrun : (bs'.flatMap f).find? p with
    | some a' =>
      rw [hrun, Option.some_or] at hfind
      obtain ⟨b, hb, hbfind⟩ := exists_block_of_find (hrun.trans hfind)
      exact (hfirst b (hbs.mem_iff.mp hb) a hbfind).congr (hmem hbs hcs)
    | none =>
      rw [hrun, Option.none_or] at hfind
      have hnone : ∀ b ∈ bs, (f b).find? p = none := fun b hb =>
        find_flatMap_eq_none.mp hrun b (hbs.mem_iff.mpr hb)
      obtain ⟨c, hc, hcfind⟩ := exists_block_of_find hfind
      have htop := hsecond hnone c (hcs.mem_iff.mp hc) a hcfind
      intro x hx hpx
      rcases List.mem_append.mp hx with hx | hx
      · -- no entry of the first run has the property
        rw [List.find?_eq_none] at hrun
        exact absurd hpx (hrun x hx)
      · exact htop x ((mem_flatMap_perm hcs x).mp hx) hpx

end FirstMatch

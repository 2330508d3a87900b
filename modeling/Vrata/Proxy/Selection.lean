import Mathlib.Algebra.BigOperators.Fin
import Mathlib.Data.Set.Card
import Vrata.Proxy.Balancer

/-!
# Traffic by weight

Reference: `SelectDestination` of `server/internal/proxy/endpoint.go`, `filterHealthyPools` of
`handler.go`, and `validateRouteAction` of `api/handlers/routes.go`.

The API accepts the weights of several destinations if their sum is 100. The sum is taken in 32 bits, so
that it may be 100 after it has wrapped around, and the total of the destinations that are healthy is
taken in 32 bits again. `proportional_iff` says that the traffic is split by weight exactly as long as
the weights of the healthy destinations sum to less than `2 ^ 32`.
-/

namespace Vrata.Proxy

open Server

def weightSum (dests : List DestinationRef) : ℕ := (dests.map fun d => d.weight.toNat).sum

/-- The residues modulo the sum of the weights for which a destination is chosen. -/
def chosenBy (rnd : Random) (dests : List DestinationRef) (i : ℕ) : Set ℕ :=
  {r | ∃ draw : UInt32, draw.toNat % weightSum dests = r ∧
    selectPosition dests rnd.intn draw = .ok (some i)}

/-- Every draw gives a destination, and unless all weights are zero, each destination is given by as many
residues as its weight says. -/
def Proportional (rnd : Random) (dests : List DestinationRef) : Prop :=
  (∀ draw, ∃ i < dests.length, selectPosition dests rnd.intn draw = .ok (some i)) ∧
    ((∃ d ∈ dests, d.weight ≠ 0) →
      ∀ i (h : i < dests.length), (chosenBy rnd dests i).ncard = dests[i].weight.toNat)

section Totals

variable {rnd : Random} {dests : List DestinationRef} {i : ℕ}

theorem weightSum_pos (h : ∃ d ∈ dests, d.weight ≠ 0) : 0 < weightSum dests := by
  obtain ⟨d, hd, hne⟩ := h
  have hweight : d.weight.toNat ≠ 0 := fun hzero => hne (UInt32.toNat_inj.mp hzero)
  have hle : d.weight.toNat ≤ weightSum dests :=
    List.single_le_sum (fun _ _ => Nat.zero_le _) _ (List.mem_map_of_mem hd)
  omega

/-- A residue is that of the draw of the same number. -/
theorem toNat_mod_weightSum {r : ℕ} (hr : r < weightSum dests) (hlt : weightSum dests < 2 ^ 32) :
    (UInt32.ofNat r).toNat % weightSum dests = r := by
  rw [UInt32.toNat_ofNat', Nat.mod_eq_of_lt (hr.trans hlt), Nat.mod_eq_of_lt hr]

section Many

variable (hmany : 1 < dests.length) (hpos : ∃ d ∈ dests, d.weight ≠ 0)

include hmany hpos

theorem selectPosition_of_many (draw : UInt32) : selectPosition dests rnd.intn draw =
    if totalWeight dests = 0 then .error .divideByZero
    else .ok (some (positionFor dests (draw % totalWeight dests))) := by
  have hall : ¬(dests.all fun d => d.weight = 0) = true := by
    obtain ⟨d, hd, hne⟩ := hpos
    exact fun h => hne (of_decide_eq_true (List.all_eq_true.mp h d hd))
  rw [selectPosition, if_neg (by omega), if_neg (by omega), if_neg hall]

variable (hlt : weightSum dests < 2 ^ 32)

include hlt

/-- The residue of the draw is compared with the thresholds. -/
theorem selectPosition_iff_picks (draw : UInt32) (i : ℕ) :
    selectPosition dests rnd.intn draw = .ok (some i) ↔
      Thresholds.Picks (threshold dests) (draw.toNat % weightSum dests) i := by
  have htotal : (totalWeight dests).toNat = weightSum dests := by
    rw [toNat_totalWeight, ← weightSum, Nat.mod_eq_of_lt hlt]
  have hsum := weightSum_pos hpos
  have hzero : totalWeight dests ≠ 0 := by
    intro h
    rw [h] at htotal
    exact hsum.ne htotal
  have hr := Nat.mod_lt draw.toNat (htotal ▸ hsum)
  rw [selectPosition_of_many hmany hpos, if_neg hzero, Except.ok.injEq, Option.some.injEq, ← htotal,
    ← positionFor_eq_iff hr, ← UInt32.toNat_mod, UInt32.ofNat_toNat]

theorem chosenBy_eq_filter (i : ℕ) : chosenBy rnd dests i =
    (Finset.range (weightSum dests)).filter (Thresholds.Picks (threshold dests) · i) := by
  ext r
  simp only [chosenBy, Set.mem_ofPred_eq, Finset.coe_filter, Finset.mem_range,
    selectPosition_iff_picks hmany hpos hlt]
  constructor
  · rintro ⟨draw, rfl, hpick⟩
    exact ⟨Nat.mod_lt _ (weightSum_pos hpos), hpick⟩
  · rintro ⟨hr, hpick⟩
    have hmod := toNat_mod_weightSum hr hlt
    exact ⟨.ofNat r, hmod, hmod.symm ▸ hpick⟩

end Many

/-- No partial sum wraps around, so that the thresholds are the partial sums. -/
theorem threshold_eq_sum (hlt : weightSum dests < 2 ^ 32) (l : ℕ) :
    threshold dests l = ((dests.map fun d => d.weight.toNat).take (l + 1)).sum := by
  rw [threshold, List.map_take, Nat.mod_eq_of_lt]
  exact ((List.take_sublist _ _).sum_le_sum fun _ _ => Nat.zero_le _).trans_lt hlt

theorem proportional_of_lt (rnd : Random) (hne : dests ≠ []) (hlt : weightSum dests < 2 ^ 32) :
    Proportional rnd dests := by
  have hlen := List.length_pos_iff.mpr hne
  by_cases hone : dests.length = 1
  · -- A single destination is chosen without a draw, so that all residues are its own.
    obtain ⟨d, rfl⟩ := List.length_eq_one_iff.mp hone
    refine ⟨fun draw => ⟨0, hlen, rfl⟩, fun hpos i hi => ?_⟩
    obtain rfl : i = 0 := by simpa using hi
    have hchosen : chosenBy rnd [d] 0 = Finset.range (weightSum [d]) := by
      ext r
      simp only [chosenBy, Set.mem_ofPred_eq, Finset.coe_range, Set.mem_Iio]
      constructor
      · rintro ⟨draw, rfl, -⟩
        exact Nat.mod_lt _ (weightSum_pos hpos)
      · exact fun hr => ⟨.ofNat r, toNat_mod_weightSum hr hlt, rfl⟩
    rw [hchosen, Set.ncard_coe_finset, Finset.card_range]
    simp [weightSum]
  have hmany : 1 < dests.length := by omega
  by_cases hpos : ∃ d ∈ dests, d.weight ≠ 0
  · refine ⟨fun draw => ?_, fun _ i hi => ?_⟩
    · have hr : draw.toNat % weightSum dests < threshold dests (dests.length - 1) := by
        rw [threshold_last hne, toNat_totalWeight, ← weightSum, Nat.mod_eq_of_lt hlt]
        exact Nat.mod_lt _ (weightSum_pos hpos)
      obtain ⟨j, hj, hpick⟩ := Thresholds.exists_picks hr
      exact ⟨j, by omega, (selectPosition_iff_picks hmany hpos hlt draw j).mpr hpick⟩
    · rw [chosenBy_eq_filter hmany hpos hlt, Set.ncard_coe_finset, ← Nat.count_eq_card_filter_range]
      have hshare : Thresholds.share (threshold dests) (weightSum dests) i = _ :=
        Thresholds.share_of_sums (by simpa using hi) (fun l _ => threshold_eq_sum hlt l)
          (by
            rw [threshold_eq_sum hlt]
            exact (List.take_sublist _ _).sum_le_sum fun _ _ => Nat.zero_le _)
      simpa [Thresholds.share] using hshare
  · -- Without weights the position itself is drawn.
    refine ⟨fun draw => ⟨_, rnd.intn_lt _ hlen, ?_⟩, fun h => absurd h hpos⟩
    push Not at hpos
    rw [selectPosition, if_neg (by omega), if_neg hone, if_pos (by simpa using hpos)]

/-- Where the sum of the weights is not below `2 ^ 32`, every draw is a residue of its own, so there are
`2 ^ 32` of them, and they are not the sum of the weights. -/
theorem lt_of_proportional (h : Proportional rnd dests) : weightSum dests < 2 ^ 32 := by
  by_contra hge
  have hpos : ∃ d ∈ dests, d.weight ≠ 0 := by
    by_contra hzero
    push Not at hzero
    have hsum : weightSum dests = 0 :=
      List.sum_eq_zero (by simpa using fun d hd => congrArg UInt32.toNat (hzero d hd))
    omega
  obtain ⟨hsafe, hshare⟩ := h
  choose position hlt hselect using hsafe
  have hchosen (i : Fin dests.length) : chosenBy rnd dests i =
      (Finset.range (2 ^ 32)).filter fun r => position (.ofNat r) = i := by
    ext r
    simp only [chosenBy, Set.mem_ofPred_eq, Finset.coe_filter, Finset.mem_range, hselect,
      Except.ok.injEq, Option.some.injEq]
    constructor
    · rintro ⟨draw, rfl, hi⟩
      have hdraw := draw.toNat_lt
      rw [Nat.mod_eq_of_lt (by omega), UInt32.ofNat_toNat]
      exact ⟨hdraw, hi⟩
    · rintro ⟨hr, hi⟩
      refine ⟨.ofNat r, ?_, hi⟩
      rw [UInt32.toNat_ofNat', Nat.mod_eq_of_lt hr, Nat.mod_eq_of_lt (by omega)]
  -- Each draw is counted for the destination that it gives.
  have hcount : (Finset.range (2 ^ 32)).card = weightSum dests := by
    rw [Finset.card_eq_sum_card_fiberwise (t := Finset.univ)
        (f := fun r => (⟨position (.ofNat r), hlt _⟩ : Fin dests.length)) (fun _ _ => Finset.mem_univ _),
      weightSum, ← Fin.sum_univ_fun_getElem]
    refine Finset.sum_congr rfl fun i _ => ?_
    rw [← hshare hpos i i.isLt, hchosen, Set.ncard_coe_finset]
    simp only [Fin.ext_iff]
  rw [Finset.card_range] at hcount
  -- With a sum of exactly `2 ^ 32` the total is zero, and the draw is divided by it.
  have htotal : totalWeight dests = 0 := by
    rw [← UInt32.toNat_inj, toNat_totalWeight, ← weightSum, ← hcount]
    rfl
  have hmany : 1 < dests.length := by
    match dests with
    | [] => exact absurd hcount (by decide)
    | [d] =>
      have hweight := d.weight.toNat_lt
      simp only [weightSum, List.map_cons, List.map_nil, List.sum_cons, List.sum_nil] at hcount
      omega
    | _ :: _ :: ds => exact Nat.one_lt_succ_succ ds.length
  have hpanic := hselect 0
  rw [selectPosition_of_many hmany hpos, if_pos htotal] at hpanic
  cases hpanic

end Totals

/-! ## Positions that can be chosen -/

/-- No weight is zero unless all are, and their sum does not wrap around. -/
def Unmixed (dests : List DestinationRef) : Prop :=
  (∀ d ∈ dests, d.weight = 0) ∨ (∀ d ∈ dests, d.weight ≠ 0) ∧ weightSum dests < 2 ^ 32

section Positions

variable {dests : List DestinationRef}

theorem exists_selectPosition (h : Unmixed dests) {i : ℕ} (hi : i < dests.length) :
    ∃ (rnd : Random) (draw : UInt32), selectPosition dests rnd.intn draw = .ok (some i) := by
  rcases h with hzero | ⟨hpos, hlt⟩
  · -- Where all weights are zero, the position itself is drawn.
    let rnd : Random := ⟨fun n => if i < n then i else 0, fun n hn => by split <;> assumption⟩
    refine ⟨rnd, 0, ?_⟩
    have hall : (dests.all fun d => d.weight = 0) = true := by simpa using hzero
    rw [selectPosition, if_neg (by omega)]
    by_cases hone : dests.length = 1
    · rw [if_pos hone, show i = 0 by omega]
    · rw [if_neg hone, if_pos hall]
      simp [rnd, hi]
  · -- Otherwise a position is given by as many residues as its weight says, which are not none.
    let rnd : Random := ⟨fun _ => 0, fun _ h => h⟩
    have hd : dests[i] ∈ dests := List.getElem_mem hi
    have hshare := (proportional_of_lt rnd (List.ne_nil_of_mem hd) hlt).2 ⟨_, hd, hpos _ hd⟩ i hi
    have hne : (chosenBy rnd dests i).ncard ≠ 0 := by
      rw [hshare]
      exact fun h => hpos _ hd (UInt32.toNat_inj.mp h)
    obtain ⟨r, draw, -, hselect⟩ := Set.nonempty_of_ncard_ne_zero hne
    exact ⟨rnd, draw, hselect⟩

/-- Thresholds that are all picked grow from each position to the next, so that no weight is zero and no
partial sum wraps around. -/
theorem weights_of_picks (h : ∀ i < dests.length, ∃ r, Thresholds.Picks (threshold dests) r i) :
    (∀ d ∈ dests, d.weight ≠ 0) ∧ weightSum dests < 2 ^ 32 := by
  have hsums : ∀ l ≤ dests.length, (∀ d ∈ dests.take l, d.weight ≠ 0) ∧
      ((dests.map fun d => d.weight.toNat).take l).sum < 2 ^ 32 := by
    intro l hl
    induction l with
    | zero => simp
    | succ l ih =>
      obtain ⟨hne, hlt⟩ := ih (by omega)
      obtain ⟨r, hr, hbefore⟩ := h l hl
      -- The sum before the position is the threshold before it, which the residue has passed.
      have hle : ((dests.map fun d => d.weight.toNat).take l).sum ≤ r := by
        cases l with
        | zero => exact Nat.zero_le r
        | succ l =>
          have hpassed := hbefore l l.lt_succ_self
          rwa [threshold, List.map_take, Nat.mod_eq_of_lt hlt] at hpassed
      have hsum : ((dests.map fun d => d.weight.toNat).take (l + 1)).sum =
          ((dests.map fun d => d.weight.toNat).take l).sum + dests[l].weight.toNat := by
        rw [List.take_succ_eq_append_getElem (by simpa using hl), List.sum_append]
        simp
      have hweight := dests[l].weight.toNat_lt
      rw [threshold, List.map_take, hsum] at hr
      refine ⟨fun d hd => ?_, by omega⟩
      rw [List.take_succ_eq_append_getElem hl, List.mem_append, List.mem_singleton] at hd
      rcases hd with hd | rfl
      · exact hne d hd
      · intro hzero
        rw [hzero, UInt32.toNat_zero] at hr
        omega
  obtain ⟨hne, hlt⟩ := hsums dests.length le_rfl
  rw [List.take_length] at hne
  rw [List.take_of_length_le (by simp)] at hlt
  exact ⟨hne, hlt⟩

theorem unmixed_of_selectPosition (h : ∀ i < dests.length, ∃ (rnd : Random) (draw : UInt32),
    selectPosition dests rnd.intn draw = .ok (some i)) : Unmixed dests := by
  by_cases hzero : ∀ d ∈ dests, d.weight = 0
  · exact Or.inl hzero
  refine Or.inr ?_
  push Not at hzero
  by_cases hmany : 1 < dests.length
  · refine weights_of_picks fun i hi => ?_
    obtain ⟨rnd, draw, hselect⟩ := h i hi
    rw [selectPosition_of_many hmany hzero] at hselect
    split at hselect
    · cases hselect
    · rename_i htotal
      have hr : (draw % totalWeight dests).toNat < (totalWeight dests).toNat :=
        UInt32.lt_iff_toNat_lt.mp (UInt32.mod_lt _ (UInt32.pos_iff_ne_zero.mpr htotal))
      refine ⟨_, (positionFor_eq_iff hr).mp ?_⟩
      rw [UInt32.ofNat_toNat]
      exact Option.some.inj (Except.ok.inj hselect)
  · obtain ⟨d, hd, hne⟩ := hzero
    obtain ⟨d', rfl⟩ := List.length_eq_one_iff.mp
      (Nat.le_antisymm (Nat.not_lt.mp hmany) (List.length_pos_of_mem hd))
    obtain rfl := List.mem_singleton.mp hd
    have hweight := d.weight.toNat_lt
    simpa [weightSum, hne] using hweight

end Positions

/-! ## Results -/

/-- The traffic is split by weight among the healthy destinations exactly if their weights sum to less
than `2 ^ 32`. -/
theorem proportional_iff {Pool : Type} (rnd : Random) (dests : List DestinationRef)
    (pools : String → Option Pool) (healthy : Pool → Bool)
    (hne : filterHealthyPools dests pools healthy ≠ []) :
    Proportional rnd (filterHealthyPools dests pools healthy) ↔
      weightSum (filterHealthyPools dests pools healthy) < 2 ^ 32 :=
  ⟨lt_of_proportional, proportional_of_lt rnd hne⟩

theorem proportional_canary : Proportional ⟨fun _ => 0, fun _ h => h⟩
    (filterHealthyPools [⟨"stable", 90⟩, ⟨"canary", 10⟩] some fun _ => true) :=
  (proportional_iff _ _ _ _ (by decide)).mpr (by decide)

/-- The weights sum to 100 in 32 bits. -/
def wrappedDestinations : List DestinationRef := [⟨"a", 2147483648⟩, ⟨"b", 2147483648⟩, ⟨"c", 100⟩]

/-- The API accepts the route, and while the last destination is down, every request panics. -/
theorem wrapped_weights_panic :
    validateRouteAction ⟨"r", "r", {}, some ⟨wrappedDestinations, none⟩, none, none, []⟩ = .ok () ∧
      ¬Proportional ⟨fun _ => 0, fun _ h => h⟩
        (filterHealthyPools wrappedDestinations some fun pool => pool ≠ "c") := by
  refine ⟨by decide, fun h => ?_⟩
  obtain ⟨i, -, hselect⟩ := h.1 0
  have hpanic : selectPosition (filterHealthyPools wrappedDestinations some fun pool => pool ≠ "c")
      (fun _ => 0) 0 = .error .divideByZero := rfl
  rw [hpanic] at hselect
  cases hselect

end Vrata.Proxy

import Mathlib.Algebra.Order.Field.Rat
import Mathlib.Data.List.TakeWhile
import Mathlib.Tactic.FieldSimp
import Vrata.Controller.Input
import Vrata.Proxy.Endpoint

/-!
# Do traffic weights survive the trip from the Gateway API to the proxy?

A backend of weight `w` should get the share `w / Σ w` of the traffic of its rule. On the way the
weight is converted (absent means one), mapped (zero becomes one), sent, and finally compared with
residues modulo the total, in 32 bits.

`sharesMatch_iff` says for which weights the shares come out right. The mapping of zero to one is
what breaks them: a backend drained with weight zero keeps receiving requests. The remaining
conditions are about totals that wrap around, which takes thousands of backends.
-/

namespace Vrata.Pipeline

open Controller Server Proxy

/-- The weight of a backend under the Gateway API: one unless given. -/
def gatewayWeight (br : HTTPBackendRef) : ℕ := (br.weight.map fun w => w.val.toNat).getD 1

/-- The destinations of a rule as they reach the proxy, once the reconciler has replaced names by
IDs. -/
def proxyDestinations («namespace» base : String) (ri : ℕ) (rule : HTTPRouteRule)
    (ids : String → String) : List DestinationRef :=
  (decodeForward ⟨(ruleSlices base ri (rule.toInput «namespace»)).destRefs, none⟩).destinations.map
    fun d => { d with destinationID := ids d.destinationID }

/-- Every backend is chosen by the share of residues that its weight asks for, and a backend of
weight zero by none. -/
def SharesMatch (weights : List ℕ) (dests : List DestinationRef) : Prop :=
  ∃ picks, outcomes dests = .ok picks ∧
    ∀ i (h : i < weights.length),
      (picks.count i : ℚ) / picks.length = (weights[i] : ℚ) / weights.sum ∧
        (weights[i] = 0 → i ∉ picks)

/-- The mapper's treatment of zero. -/
def atLeastOne (w : ℕ) : ℕ := if w = 0 then 1 else w

/-- The total that the proxy computes from the mapped weights. -/
def proxyTotal (weights : List ℕ) : ℕ := (weights.map atLeastOne).sum % 2 ^ 32

/-- There is only one backend; or zero weights come last and the proxy's total is the sum of the
weights, or is wrapped around to something that the only backend with a weight covers alone. -/
def WeightsKept (weights : List ℕ) : Prop :=
  weights.length = 1 ∨
    weights.Pairwise (fun a b => a = 0 → b = 0) ∧ 0 < proxyTotal weights ∧
      (proxyTotal weights = weights.sum ∨
        weights.headD 0 = weights.sum ∧ proxyTotal weights ≤ weights.sum)

/-! ## The weights that reach the proxy -/

theorem gatewayWeight_le (br : HTTPBackendRef) : gatewayWeight br ≤ 1000000 := by
  unfold gatewayWeight
  cases br.weight with
  | none => simp
  | some w => exact UInt32.le_iff_toNat_le.mp w.property

theorem toNat_mappedWeight (ns : String) (br : HTTPBackendRef) :
    (br.toInput ns).mappedWeight.toNat = atLeastOne (gatewayWeight br) := by
  have hweight : (br.toInput ns).weight.toNat = gatewayWeight br := by
    simp only [HTTPBackendRef.toInput, gatewayWeight]
    cases br.weight <;> rfl
  have hzero : (br.toInput ns).weight = 0 ↔ gatewayWeight br = 0 := by
    rw [← hweight, ← UInt32.toNat_inj]
    rfl
  unfold BackendRefInput.mappedWeight atLeastOne
  by_cases h : gatewayWeight br = 0
  · rw [if_pos (hzero.mpr h), if_pos h]
    rfl
  · rw [if_neg (mt hzero.mp h), if_neg h, hweight]

theorem weights_proxyDestinations (ns base : String) (ri : ℕ) (rule : HTTPRouteRule)
    (ids : String → String) :
    (proxyDestinations ns base ri rule ids).map (fun d => d.weight.toNat) =
      (rule.backendRefs.map gatewayWeight).map atLeastOne := by
  simp only [proxyDestinations, decodeForward, ruleSlices, HTTPRouteRule.toInput, List.map_map]
  exact List.map_congr_left fun br _ => toNat_mappedWeight ns br

/-! ## Positive weights first -/

theorem map_atLeastOne_of_ne_zero {ws : List ℕ} (h : ∀ w ∈ ws, w ≠ 0) : ws.map atLeastOne = ws := by
  conv_rhs => rw [← List.map_id ws]
  exact List.map_congr_left fun w hw => if_neg (h w hw)

/-- Zero weights come last exactly when the list is a list of positive weights followed by one of
zeros. -/
theorem pairwise_zero_iff {weights : List ℕ} :
    weights.Pairwise (fun a b => a = 0 → b = 0) ↔
      ∃ pos zeros, weights = pos ++ zeros ∧ (∀ w ∈ pos, w ≠ 0) ∧ ∀ w ∈ zeros, w = 0 := by
  constructor
  · intro h
    induction weights with
    | nil => exact ⟨[], [], by simp⟩
    | cons w ws ih =>
      obtain ⟨hhead, htail⟩ := List.pairwise_cons.mp h
      by_cases hw : w = 0
      · exact ⟨[], w :: ws, rfl, by simp, by simpa [hw] using fun b hb => hhead b hb hw⟩
      · obtain ⟨pos, zeros, rfl, hpos, hzeros⟩ := ih htail
        exact ⟨w :: pos, zeros, rfl, by simpa [hw] using hpos, hzeros⟩
  · rintro ⟨pos, zeros, rfl, hpos, hzeros⟩
    rw [List.pairwise_append]
    refine ⟨List.Pairwise.imp_of_mem ?_ (List.pairwise_of_forall (R := fun _ _ => True) (by simp)),
      List.Pairwise.imp_of_mem ?_ (List.pairwise_of_forall (R := fun _ _ => True) (by simp)), ?_⟩
    · intro a b ha _ _ hzero
      exact absurd hzero (hpos a ha)
    · intro a b _ hb _ _
      exact hzeros b hb
    · intro a ha b hb _
      exact hzeros b hb

/-! ## Counting the residues of a position

From here on `dests` is any list of destinations with the mapped weights. -/

section Shares

variable {weights : List ℕ} {dests : List DestinationRef}
  (hdests : dests.map (fun d => d.weight.toNat) = weights.map atLeastOne)

include hdests

theorem length_eq_of_weights : dests.length = weights.length := by
  simpa using congrArg List.length hdests

theorem threshold_eq (i : ℕ) :
    threshold dests i = ((weights.map atLeastOne).take (i + 1)).sum % 2 ^ 32 := by
  rw [threshold, List.map_take, hdests]

theorem toNat_totalWeight_eq : (totalWeight dests).toNat = proxyTotal weights := by
  rw [toNat_totalWeight, hdests, proxyTotal]

/-- The number of residues that choose a position. -/
theorem count_positions (i : ℕ) :
    ((List.range (proxyTotal weights)).map fun r => positionFor dests (.ofNat r)).count i =
      Thresholds.share (threshold dests) (proxyTotal weights) i := by
  rw [Thresholds.share, Nat.count, List.count, List.countP_map, ← toNat_totalWeight_eq hdests]
  refine List.countP_congr fun r hr => ?_
  simpa using positionFor_eq_iff (List.mem_range.mp hr)

/-- With several destinations the outcomes are the positions of the residues, unless the total has
wrapped around to zero. -/
theorem outcomes_eq (hmany : 1 < weights.length) :
    outcomes dests = if proxyTotal weights = 0 then .error .divideByZero
      else .ok ((List.range (proxyTotal weights)).map fun r => positionFor dests (.ofNat r)) := by
  have hlen := length_eq_of_weights hdests
  have hone : ∀ d ∈ dests, d.weight ≠ 0 := by
    intro d hd hzero
    have hmem : d.weight.toNat ∈ weights.map atLeastOne := hdests ▸ List.mem_map_of_mem hd
    obtain ⟨w, _, hw⟩ := List.mem_map.mp hmem
    rw [hzero] at hw
    unfold atLeastOne at hw
    split at hw
    · cases hw
    · exact absurd hw ‹_›
  have hall : ¬(dests.all fun d => d.weight = 0) = true := by
    obtain ⟨d, hd⟩ := List.exists_mem_of_length_pos (by omega : 0 < dests.length)
    intro h
    exact hone d hd (by simpa using List.all_eq_true.mp h d hd)
  have htotal : totalWeight dests = 0 ↔ proxyTotal weights = 0 := by
    rw [← toNat_totalWeight_eq hdests, ← UInt32.toNat_inj]
    rfl
  rw [outcomes, if_neg (by omega), if_neg (by omega), if_neg hall]
  by_cases h : proxyTotal weights = 0
  · rw [if_pos (htotal.mpr h), if_pos h]
  · rw [if_neg (mt htotal.mp h), if_neg h, toNat_totalWeight_eq hdests]

/-- The property in terms of the numbers of residues. -/
theorem sharesMatch_iff_share (hmany : 1 < weights.length) (hsum : 0 < weights.sum) :
    SharesMatch weights dests ↔ 0 < proxyTotal weights ∧ ∀ i (h : i < weights.length),
      Thresholds.share (threshold dests) (proxyTotal weights) i * weights.sum =
        weights[i] * proxyTotal weights := by
  have hsumQ : (weights.sum : ℚ) ≠ 0 := by exact_mod_cast hsum.ne'
  rw [SharesMatch, outcomes_eq hdests hmany]
  constructor
  · rintro ⟨picks, hpicks, hshare⟩
    split at hpicks
    · cases hpicks
    · rename_i hT
      obtain rfl := Except.ok.inj hpicks
      refine ⟨Nat.pos_of_ne_zero hT, fun i h => ?_⟩
      have hTQ : (proxyTotal weights : ℚ) ≠ 0 := by exact_mod_cast hT
      have := (hshare i h).1
      rw [count_positions hdests, List.length_map, List.length_range, div_eq_div_iff hTQ hsumQ]
        at this
      exact_mod_cast this
  · rintro ⟨hT, hshare⟩
    rw [if_neg hT.ne']
    refine ⟨_, rfl, fun i h => ?_⟩
    have hTQ : (proxyTotal weights : ℚ) ≠ 0 := by exact_mod_cast hT.ne'
    constructor
    · rw [count_positions hdests, List.length_map, List.length_range, div_eq_div_iff hTQ hsumQ]
      exact_mod_cast hshare i h
    · intro hzero
      have := hshare i h
      rw [hzero, Nat.zero_mul, ← count_positions hdests] at this
      exact List.count_eq_zero.mp ((Nat.mul_eq_zero.mp this).resolve_right hsum.ne')

/-- Along the positive weights the thresholds are their partial sums. -/
theorem threshold_of_pos {pos rest : List ℕ} (hsplit : weights = pos ++ rest)
    (hpos : ∀ w ∈ pos, w ≠ 0) (hbound : pos.sum < 2 ^ 32) {l : ℕ} (hl : l < pos.length) :
    threshold dests l = (pos.take (l + 1)).sum := by
  have hle : (pos.take (l + 1)).sum ≤ pos.sum := by
    simpa using Thresholds.sum_take_le_sum_take pos (show l + 1 ≤ pos.length from hl)
  rw [threshold_eq hdests, hsplit, List.map_append, map_atLeastOne_of_ne_zero hpos,
    List.take_append_of_le_length (show l + 1 ≤ pos.length from hl), Nat.mod_eq_of_lt (by omega)]

/-- The threshold of the first zero weight is one above the sum of the weights before it. -/
theorem threshold_of_zero {pos rest : List ℕ} (hsplit : weights = pos ++ 0 :: rest)
    (hpos : ∀ w ∈ pos, w ≠ 0) : threshold dests pos.length = (pos.sum + 1) % 2 ^ 32 := by
  rw [threshold_eq hdests, hsplit, List.map_append, map_atLeastOne_of_ne_zero hpos,
    List.take_length_add_append]
  simp [atLeastOne]

/-! ## When the shares are right -/

theorem share_zero_eq (hne : weights ≠ []) (hsmall : ∀ w ∈ weights, w ≤ 1000000) :
    Thresholds.share (threshold dests) (proxyTotal weights) 0 =
      min (atLeastOne (weights.headD 0)) (proxyTotal weights) := by
  obtain ⟨w, ws, rfl⟩ := List.exists_cons_of_ne_nil hne
  have hw : atLeastOne w ≤ 1000000 := by
    have := hsmall w List.mem_cons_self
    unfold atLeastOne
    split <;> omega
  rw [Thresholds.share_zero, threshold_eq hdests]
  simp only [Nat.zero_add, List.map_cons, List.take_succ_cons, List.take_zero, List.sum_cons,
    List.sum_nil, Nat.add_zero, List.headD_cons]
  rw [Nat.mod_eq_of_lt (by omega)]

/-- If the total is the sum of the weights and each position has its share, zeros come last. -/
theorem zeros_last_of_share (hsum : 0 < weights.sum) (htotal : proxyTotal weights = weights.sum)
    (hshare : ∀ i (h : i < weights.length),
      Thresholds.share (threshold dests) (proxyTotal weights) i * weights.sum =
        weights[i] * proxyTotal weights) :
    weights.Pairwise fun a b => a = 0 → b = 0 := by
  have h32 : proxyTotal weights < 2 ^ 32 := Nat.mod_lt _ (by decide)
  let pos := weights.takeWhile (· ≠ 0)
  have hpos : ∀ w ∈ pos, w ≠ 0 := fun w hw => by simpa using List.mem_takeWhile_imp hw
  have hsplit : weights = pos ++ weights.dropWhile (· ≠ 0) := List.takeWhile_append_dropWhile.symm
  refine pairwise_zero_iff.mpr ⟨pos, _, hsplit, hpos, ?_⟩
  cases hrest : weights.dropWhile (· ≠ 0) with
  | nil => simp
  | cons z rest =>
    obtain rfl : z = 0 := by
      have := List.head?_dropWhile_not (· ≠ 0) weights
      rw [hrest] at this
      simpa using this
    rw [hrest] at hsplit
    have hi : pos.length < weights.length := by simp [hsplit]
    have hzero : weights[pos.length] = 0 := by
      have : weights[pos.length]? = some 0 := by rw [hsplit]; simp
      exact (List.getElem?_eq_some_iff.mp this).2
    -- otherwise the residue just behind the positive weights would pick this position
    by_contra hnot
    have hrestsum : rest.sum ≠ 0 := fun h =>
      hnot (by simpa using List.sum_eq_zero_iff.mp h)
    have hsums : weights.sum = pos.sum + rest.sum := by rw [hsplit]; simp
    have hpick : Thresholds.Picks (threshold dests) pos.sum pos.length := by
      constructor
      · rw [threshold_of_zero hdests hsplit hpos, Nat.mod_eq_of_lt (by omega)]
        exact Nat.lt_succ_self _
      · intro l hl
        rw [threshold_of_pos hdests hsplit hpos (by omega) hl]
        simpa using Thresholds.sum_take_le_sum_take pos (show l + 1 ≤ pos.length from hl)
    have hposshare := Thresholds.share_pos (show pos.sum < proxyTotal weights by omega) hpick
    have := hshare pos.length hi
    rw [hzero, Nat.zero_mul] at this
    rcases Nat.mul_eq_zero.mp this with h | h <;> omega

/-- Positive weights first and a total that did not wrap around. -/
theorem share_of_zeros_last (hsum : 0 < weights.sum) (htotal : proxyTotal weights = weights.sum)
    (hlast : weights.Pairwise fun a b => a = 0 → b = 0) (i : ℕ) (h : i < weights.length) :
    Thresholds.share (threshold dests) (proxyTotal weights) i = weights[i] := by
  have h32 : proxyTotal weights < 2 ^ 32 := Nat.mod_lt _ (by decide)
  obtain ⟨pos, zeros, hsplit, hpos, hzeros⟩ := pairwise_zero_iff.mp hlast
  have hsums : weights.sum = pos.sum := by
    rw [hsplit, List.sum_append, List.sum_eq_zero_iff.mpr hzeros, Nat.add_zero]
  have hthreshold : ∀ l < pos.length, threshold dests l = (pos.take (l + 1)).sum := fun l hl =>
    threshold_of_pos hdests hsplit hpos (by omega) hl
  by_cases hi : i < pos.length
  · have hle : (pos.take (i + 1)).sum ≤ pos.sum := by
      simpa using Thresholds.sum_take_le_sum_take pos (show i + 1 ≤ pos.length from hi)
    rw [Thresholds.share_of_sums hi (fun l hl => hthreshold l (by omega))
      (by rw [hthreshold i hi]; omega)]
    simp [hsplit, List.getElem_append_left hi]
  · have hne : 0 < pos.length := by
      rw [List.length_pos_iff]
      rintro rfl
      simp at hsums
      omega
    have hzero : weights[i] = 0 := by
      have hmem : weights[i] ∈ zeros := by
        simp only [hsplit, List.getElem_append_right (Nat.not_lt.mp hi)]
        exact List.getElem_mem _
      exact hzeros _ hmem
    rw [hzero]
    refine Thresholds.share_eq_zero (l := pos.length - 1) (by omega) ?_
    rw [hthreshold _ (by omega), Nat.sub_add_cancel hne, List.take_length]
    omega

/-- The first backend has all the weight and covers the total. -/
theorem share_of_head (hhead : weights.headD 0 = weights.sum) (hsum : 0 < weights.sum)
    (hsmall : ∀ w ∈ weights, w ≤ 1000000) (hle : proxyTotal weights ≤ weights.sum) (i : ℕ)
    (h : i < weights.length) :
    Thresholds.share (threshold dests) (proxyTotal weights) i * weights.sum =
      weights[i] * proxyTotal weights := by
  have hne : weights ≠ [] := by rintro rfl; simp at hsum
  have hfirst : Thresholds.share (threshold dests) (proxyTotal weights) 0 = proxyTotal weights := by
    rw [share_zero_eq hdests hne hsmall, hhead, atLeastOne, if_neg hsum.ne', min_eq_right hle]
  obtain ⟨w, ws, rfl⟩ := List.exists_cons_of_ne_nil hne
  rw [List.headD_cons, List.sum_cons] at hhead
  have hws : ∀ v ∈ ws, v = 0 := List.sum_eq_zero_iff.mp (by omega)
  cases i with
  | zero =>
    rw [hfirst, List.getElem_cons_zero, List.sum_cons, ← hhead, Nat.mul_comm]
  | succ i =>
    have hthreshold : threshold dests 0 = w := by
      have hw := hsmall w List.mem_cons_self
      have hw0 : w ≠ 0 := by rintro rfl; rw [List.sum_cons] at hsum; omega
      rw [threshold_eq hdests]
      simp only [Nat.zero_add, List.map_cons, List.take_succ_cons, List.take_zero, List.sum_cons,
        List.sum_nil, Nat.add_zero, atLeastOne, if_neg hw0]
      exact Nat.mod_eq_of_lt (by omega)
    rw [Thresholds.share_eq_zero (l := 0) (by omega) (by rw [List.sum_cons] at hle; omega),
      List.getElem_cons_succ, hws _ (List.getElem_mem _), Nat.zero_mul, Nat.zero_mul]

theorem sharesMatch_iff_of_weights (hsum : 0 < weights.sum)
    (hsmall : ∀ w ∈ weights, w ≤ 1000000) : SharesMatch weights dests ↔ WeightsKept weights := by
  have hne : weights ≠ [] := by rintro rfl; simp at hsum
  have hlen := length_eq_of_weights hdests
  by_cases hone : weights.length = 1
  · obtain ⟨w, rfl⟩ := List.length_eq_one_iff.mp hone
    have hw : (w : ℚ) ≠ 0 := by
      have : w ≠ 0 := by simpa using hsum.ne'
      exact_mod_cast this
    have hout : outcomes dests = .ok [0] := by
      rw [outcomes, if_neg (by simp [hlen]), if_pos (by simp [hlen])]
    refine iff_of_true ⟨[0], hout, fun i h => ?_⟩ (Or.inl hone)
    obtain rfl : i = 0 := by simpa using h
    simp only [List.getElem_cons_zero, List.sum_singleton]
    refine ⟨by simp [hw], fun h => absurd (by exact_mod_cast h) hw⟩
  · have hmany : 1 < weights.length := by
      have := List.length_pos_iff.mpr hne
      omega
    rw [sharesMatch_iff_share hdests hmany hsum, WeightsKept, or_iff_right hone]
    constructor
    · rintro ⟨hT, hshare⟩
      have hfirst := hshare 0 (by omega)
      rw [share_zero_eq hdests hne hsmall] at hfirst
      obtain ⟨w, ws, rfl⟩ := List.exists_cons_of_ne_nil hne
      rw [List.headD_cons, List.getElem_cons_zero] at hfirst
      have hw : w ≠ 0 := by
        rintro rfl
        have : 0 < min (atLeastOne 0) (proxyTotal (0 :: ws)) := by simp [atLeastOne, hT]
        rw [Nat.zero_mul] at hfirst
        rcases Nat.mul_eq_zero.mp hfirst with h | h <;> omega
      rw [atLeastOne, if_neg hw] at hfirst
      rcases Nat.le_total w (proxyTotal (w :: ws)) with hle | hle
      · rw [min_eq_left hle] at hfirst
        have htotal := (Nat.eq_of_mul_eq_mul_left (Nat.pos_of_ne_zero hw) hfirst).symm
        exact ⟨zeros_last_of_share hdests hsum htotal hshare, hT, Or.inl htotal⟩
      · rw [min_eq_right hle, Nat.mul_comm w] at hfirst
        have hhead := (Nat.eq_of_mul_eq_mul_left hT hfirst).symm
        refine ⟨?_, hT, Or.inr ⟨hhead, by omega⟩⟩
        rw [List.sum_cons] at hhead
        have hws : ∀ v ∈ ws, v = 0 := List.sum_eq_zero_iff.mp (by omega)
        exact pairwise_zero_iff.mpr ⟨[w], ws, rfl, by simpa using hw, hws⟩
    · rintro ⟨hlast, hT, htotal | ⟨hhead, hle⟩⟩
      · refine ⟨hT, fun i h => ?_⟩
        rw [share_of_zeros_last hdests hsum htotal hlast i h, htotal]
      · exact ⟨hT, share_of_head hdests hhead hsum hsmall hle⟩

end Shares

/-- The traffic of a rule is split as its weights say if and only if the weights are kept. -/
theorem sharesMatch_iff (ns base : String) (ri : ℕ) (rule : HTTPRouteRule) (ids : String → String)
    (h : ∃ br ∈ rule.backendRefs, gatewayWeight br ≠ 0) :
    SharesMatch (rule.backendRefs.map gatewayWeight) (proxyDestinations ns base ri rule ids) ↔
      WeightsKept (rule.backendRefs.map gatewayWeight) := by
  refine sharesMatch_iff_of_weights (weights_proxyDestinations ns base ri rule ids) ?_ ?_
  · obtain ⟨br, hbr, hne⟩ := h
    have := List.single_le_sum (fun _ _ => Nat.zero_le _) _ (List.mem_map_of_mem (f := gatewayWeight) hbr)
    omega
  · intro w hw
    obtain ⟨br, _, rfl⟩ := List.mem_map.mp hw
    exact gatewayWeight_le br

/-- A rule that sends a quarter of the traffic to a canary. -/
def canaryRule : HTTPRouteRule where
  backendRefs := [{ name := "stable", weight := some ⟨3, by decide⟩ }, { name := "canary" }]

theorem sharesMatch_canaryRule :
    (∃ br ∈ canaryRule.backendRefs, gatewayWeight br ≠ 0) ∧
      SharesMatch [3, 1] (proxyDestinations "default" "k8s:default/web" 0 canaryRule id) := by
  have h : ∃ br ∈ canaryRule.backendRefs, gatewayWeight br ≠ 0 := by decide
  refine ⟨h, (sharesMatch_iff "default" "k8s:default/web" 0 canaryRule id h).mpr (Or.inr ?_)⟩
  decide

/-- A rule with a drained backend. What is sent are the weights 1 and 99, whose sum is accepted. -/
def drainedRule : HTTPRouteRule where
  backendRefs := [{ name := "old", weight := some ⟨0, by decide⟩ },
    { name := "new", weight := some ⟨99, by decide⟩ }]

/-- The drained backend is chosen by one residue in a hundred. -/
theorem not_sharesMatch_drainedRule :
    outcomes (proxyDestinations "default" "k8s:default/web" 0 drainedRule id) =
        .ok (0 :: List.replicate 99 1) ∧
      ¬SharesMatch (drainedRule.backendRefs.map gatewayWeight)
        (proxyDestinations "default" "k8s:default/web" 0 drainedRule id) := by
  have hout : outcomes (proxyDestinations "default" "k8s:default/web" 0 drainedRule id) =
      .ok (0 :: List.replicate 99 1) := by decide +kernel
  refine ⟨hout, ?_⟩
  rintro ⟨picks, hpicks, hshare⟩
  rw [hout] at hpicks
  obtain rfl := Except.ok.inj hpicks
  exact (hshare 0 (by decide)).2 (by decide) (by decide)

end Vrata.Pipeline

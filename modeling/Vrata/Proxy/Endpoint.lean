import Mathlib.Algebra.Group.Nat.Defs
import Vrata.Lib.Thresholds
import Vrata.Server.Model

/-!
# Choosing a destination

Reference: `server/internal/proxy/endpoint.go` (`SelectDestination`) and `handler.go`
(`pickDestinationPool`, `filterHealthyPools`).

The choice is split in two: `selectPosition` says which entry of the list is chosen and
`selectDestination` looks its pool up. All arithmetic is in 32 bits, and reducing modulo a total
that has wrapped around to zero is a run-time panic. Of `pickDestinationPool` the branch without
`destinationBalancing` is modelled, which the controller never sets.
-/

namespace Vrata.Proxy

open Server

inductive Panic where
  | divideByZero
deriving DecidableEq, Repr

/-- The loop over the cumulative weights, from position `i` on. -/
def walk (r : UInt32) : (cumulative : UInt32) → List DestinationRef → (i : ℕ) → Option ℕ
  | _, [], _ => none
  | cumulative, d :: ds, i =>
    let cumulative := cumulative + d.weight
    if r < cumulative then some i else walk r cumulative ds (i + 1)

/-- The position chosen for a residue. -/
def positionFor (dests : List DestinationRef) (r : UInt32) : ℕ :=
  (walk r 0 dests 0).getD (dests.length - 1)

/-- The position chosen with the random numbers `intn` and `draw`. -/
def selectPosition (dests : List DestinationRef) (intn : ℕ → ℕ) (draw : UInt32) :
    Except Panic (Option ℕ) :=
  if dests.length = 0 then .ok none
  else if dests.length = 1 then .ok (some 0)
  else if dests.all fun d => d.weight = 0 then .ok (some (intn dests.length))
  else if totalWeight dests = 0 then .error .divideByZero
  else .ok (some (positionFor dests (draw % totalWeight dests)))

def selectDestination {Pool : Type} (dests : List DestinationRef) (pools : String → Option Pool)
    (intn : ℕ → ℕ) (draw : UInt32) : Except Panic (Option Pool) := do
  let position ← selectPosition dests intn draw
  return (position.bind fun i => dests[i]?).bind fun d => pools d.destinationID

/-- The destinations whose pool exists and has a healthy endpoint. -/
def filterHealthyPools {Pool : Type} (dests : List DestinationRef) (pools : String → Option Pool)
    (healthy : Pool → Bool) : List DestinationRef :=
  dests.filter fun d => (pools d.destinationID).any healthy

def pickDestinationPool {Pool : Type} (fwd : ForwardAction) (pools : String → Option Pool)
    (healthy : Pool → Bool) (intn : ℕ → ℕ) (draw : UInt32) : Except Panic (Option Pool) :=
  match fwd.destinations with
  | [] => .ok none
  | [d] => .ok (pools d.destinationID)
  | dests =>
    match filterHealthyPools dests pools healthy with
    | [] => .ok none
    | hs => selectDestination hs pools intn draw

/-! ## All outcomes at once -/

/-- The positions chosen as the random number runs through its values: the residues modulo the
total weight, or the positions themselves when all weights are zero. -/
def outcomes (dests : List DestinationRef) : Except Panic (List ℕ) :=
  if dests.length = 0 then .ok []
  else if dests.length = 1 then .ok [0]
  else if dests.all fun d => d.weight = 0 then .ok (List.range dests.length)
  else if totalWeight dests = 0 then .error .divideByZero
  else .ok ((List.range (totalWeight dests).toNat).map fun r => positionFor dests (.ofNat r))

/-! ## Totals -/

theorem foldl_add_toNat (ds : List DestinationRef) (acc : UInt32) :
    (ds.foldl (fun total d => total + d.weight) acc).toNat =
      (acc.toNat + (ds.map fun d => d.weight.toNat).sum) % 2 ^ 32 := by
  induction ds generalizing acc with
  | nil => simp [Nat.mod_eq_of_lt acc.toNat_lt]
  | cons d ds ih =>
    rw [List.foldl_cons, ih, UInt32.toNat_add, List.map_cons, List.sum_cons, Nat.mod_add_mod,
      Nat.add_assoc]

/-- The total is the sum of the weights, reduced to 32 bits. -/
theorem toNat_totalWeight (ds : List DestinationRef) :
    (totalWeight ds).toNat = (ds.map fun d => d.weight.toNat).sum % 2 ^ 32 := by
  rw [totalWeight, foldl_add_toNat]
  simp

/-- The cumulative weight after position `i`, in 32 bits. -/
def threshold (dests : List DestinationRef) (i : ℕ) : ℕ :=
  ((dests.take (i + 1)).map fun d => d.weight.toNat).sum % 2 ^ 32

/-- The loop stops at the first threshold above the residue. -/
theorem walk_eq_some_iff {r acc : UInt32} {ds : List DestinationRef} {i k : ℕ} :
    walk r acc ds i = some k ↔ ∃ j < ds.length, k = i + j ∧
      r.toNat < (acc.toNat + ((ds.take (j + 1)).map fun d => d.weight.toNat).sum) % 2 ^ 32 ∧
      ∀ l < j,
        (acc.toNat + ((ds.take (l + 1)).map fun d => d.weight.toNat).sum) % 2 ^ 32 ≤ r.toNat := by
  induction ds generalizing acc i with
  | nil => simp [walk]
  | cons d ds ih =>
    have hstep : ∀ l, (acc.toNat + (((d :: ds).take (l + 1 + 1)).map fun d => d.weight.toNat).sum) =
        acc.toNat + d.weight.toNat + ((ds.take (l + 1)).map fun d => d.weight.toNat).sum := by
      intro l
      rw [List.take_succ_cons, List.map_cons, List.sum_cons, Nat.add_assoc]
    have hacc : ∀ n, ((acc + d.weight).toNat + n) % 2 ^ 32 =
        (acc.toNat + d.weight.toNat + n) % 2 ^ 32 := by
      intro n
      rw [UInt32.toNat_add, Nat.mod_add_mod]
    have hhead : r < acc + d.weight ↔
        r.toNat < (acc.toNat + (((d :: ds).take 1).map fun d => d.weight.toNat).sum) % 2 ^ 32 := by
      rw [UInt32.lt_iff_toNat_lt, UInt32.toNat_add]
      simp
    rw [walk]
    by_cases hr : r < acc + d.weight
    · rw [if_pos hr, Option.some.injEq]
      constructor
      · rintro rfl
        exact ⟨0, by simp, rfl, hhead.mp hr, by simp⟩
      · rintro ⟨j, _, rfl, _, hbefore⟩
        rcases Nat.eq_zero_or_pos j with rfl | hj
        · rfl
        · exact absurd (hhead.mp hr) (Nat.not_lt.mpr (hbefore 0 hj))
    · rw [if_neg hr, ih]
      constructor
      · rintro ⟨j, hj, rfl, hlt, hbefore⟩
        refine ⟨j + 1, by simpa using hj, by omega, ?_, ?_⟩
        · rw [hstep, ← hacc]
          exact hlt
        · intro l hl
          rcases Nat.eq_zero_or_pos l with rfl | hlpos
          · exact Nat.not_lt.mp fun h => hr (hhead.mpr h)
          · obtain ⟨l, rfl⟩ := Nat.exists_eq_add_of_lt hlpos
            rw [Nat.zero_add, hstep, ← hacc]
            exact hbefore l (by omega)
      · rintro ⟨j, hj, rfl, hlt, hbefore⟩
        rcases Nat.eq_zero_or_pos j with rfl | hjpos
        · exact absurd (hhead.mpr hlt) hr
        · obtain ⟨j, rfl⟩ := Nat.exists_eq_add_of_lt hjpos
          rw [Nat.zero_add] at *
          refine ⟨j, by simpa using hj, by omega, ?_, ?_⟩
          · rw [hacc, ← hstep]
            exact hlt
          · intro l hl
            rw [hacc, ← hstep]
            exact hbefore (l + 1) (by omega)

/-! ## Residues -/

section Residues

variable {dests : List DestinationRef} {r i : ℕ}

theorem threshold_last (hne : dests ≠ []) :
    threshold dests (dests.length - 1) = (totalWeight dests).toNat := by
  rw [threshold, Nat.sub_add_cancel (List.length_pos_iff.mpr hne), List.take_length, toNat_totalWeight]

/-- A residue chooses the position it picks among the thresholds. -/
theorem positionFor_eq_iff (hr : r < (totalWeight dests).toNat) :
    positionFor dests (.ofNat r) = i ↔ Thresholds.Picks (threshold dests) r i := by
  have hne : dests ≠ [] := by
    rintro rfl
    exact absurd hr (Nat.not_lt_zero r)
  have hpos := List.length_pos_iff.mpr hne
  have hr32 : (UInt32.ofNat r).toNat = r := by
    rw [UInt32.toNat_ofNat', Nat.mod_eq_of_lt]
    exact hr.trans (UInt32.toNat_lt _)
  obtain ⟨j, hj, hpick⟩ := Thresholds.exists_picks (threshold_last hne ▸ hr)
  have hwalk : walk (.ofNat r) 0 dests 0 = some j := by
    refine walk_eq_some_iff.mpr ⟨j, by omega, by omega, ?_, ?_⟩
    · simpa [hr32, threshold] using hpick.1
    · intro l hl
      simpa [hr32, threshold] using hpick.2 l hl
  rw [positionFor, hwalk, Option.getD_some]
  exact ⟨fun h => h ▸ hpick, fun h => hpick.unique h⟩

end Residues

end Vrata.Proxy

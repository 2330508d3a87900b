import Mathlib.Data.List.Rotate
import Vrata.Lib.Turns
import Vrata.Proxy.Pool

/-!
# Round robin

Reference: `RoundRobinBalancer` of `server/internal/proxy/balancer.go`, and `Pick` of `pool.go`.

Requests pick at the same time. What a pick does before it raises the counter reads only the health of
the endpoints, and what it does afterwards concerns no other one, so that a pick has two steps: up to
the counter, and its return. A run is any order of these steps. `picks` has the picks in the order in
which they raised the counter.

`fair_of_run` says that as long as the counter does not wrap around, the healthy endpoints take turns,
whatever the order in which the picks return. An endpoint that is listed twice has two turns.
-/

namespace Vrata.Proxy.RoundRobin

open Server

/-- A pick that is on its way has its place among those that have raised the counter. -/
inductive Phase where
  | idle
  | underway (place : ℕ) (ep : Option Endpoint)

/-- A pick that has not returned has no result. -/
structure State (ι : Type) where
  balancer : BalancerState
  phase : ι → Phase
  picks : List (Option (Option Endpoint))

def start {ι : Type} (balancer : BalancerState) : State ι := ⟨balancer, fun _ => .idle, []⟩

section Run

variable {H : Hashing} {ι : Type} [DecidableEq ι] (pool : DestinationPool H)

/-- The next step of a caller. -/
def step (s : State ι) : ι × Random × ClientRequest → State ι
  | (t, rnd, r) =>
    match s.phase t with
    | .idle =>
      match pool.pick rnd s.balancer r with
      | .ok (ep, balancer) =>
        ⟨balancer, Function.update s.phase t (.underway s.picks.length ep), s.picks ++ [none]⟩
      | .error _ => s
    | .underway place ep =>
      { s with phase := Function.update s.phase t .idle, picks := s.picks.set place (some ep) }

def run (s : State ι) (schedule : List (ι × Random × ClientRequest)) : State ι :=
  schedule.foldl (step pool) s

end Run

/-! ## Turns -/

section Turns

variable {H : Hashing} {ι : Type} [DecidableEq ι] {pool : DestinationPool H} {c : UInt64} {s : State ι}

/-- The endpoint whose turn it is when the counter has been raised to a number. -/
def turn (pool : DestinationPool H) (n : ℕ) : Option Endpoint :=
  pool.healthyEndpoints[n % pool.healthyEndpoints.length]?

theorem pick_roundRobin (hb : pool.balancer = some .roundRobin)
    (htwo : 2 ≤ pool.healthyEndpoints.length) (rnd : Random) (st : BalancerState) (r : ClientRequest) :
    pool.pick rnd st r =
      .ok (turn pool (st.counter + 1).toNat, { st with counter := st.counter + 1 }) := by
  have hrefs : endpointRefs pool.healthyEndpoints ≠ [] := by
    rw [endpointRefs, ne_eq, List.map_eq_nil_iff]
    rintro hnil
    rw [hnil] at htwo
    cases htwo
  rw [DestinationPool.pick_of_balancer hb htwo, Balancer.pick, if_neg hrefs]
  generalize (st.counter + 1) = counter
  have hlt := Nat.mod_lt counter.toNat (by omega : 0 < pool.healthyEndpoints.length)
  have hfound : lookup pool.healthyEndpoints _ = _ :=
    DestinationPool.lookup_healthy.mpr ⟨List.getElem_mem hlt, rfl⟩
  simp [endpointRefs, turn, hlt, hfound]

/-- Every pick that has returned or is on its way has the endpoint whose turn it was, and the counter
is where the last one left it. -/
structure Turns (pool : DestinationPool H) (c : UInt64) (s : State ι) : Prop where
  counter : s.balancer.counter = c + .ofNat s.picks.length
  underway : ∀ t place ep, s.phase t = .underway place ep → ep = turn pool (c + .ofNat (place + 1)).toNat
  returned : ∀ place ep, s.picks[place]? = some (some ep) → ep = turn pool (c + .ofNat (place + 1)).toNat

theorem Turns.step (hb : pool.balancer = some .roundRobin) (htwo : 2 ≤ pool.healthyEndpoints.length)
    (h : Turns pool c s) (a : ι × Random × ClientRequest) : Turns pool c (step pool s a) := by
  obtain ⟨t, rnd, r⟩ := a
  unfold RoundRobin.step
  cases hphase : s.phase t with
  | idle =>
    -- The pick takes the next place, and the number that the counter has been raised to.
    simp only [hphase, pick_roundRobin hb htwo]
    have hnext : s.balancer.counter + 1 = c + .ofNat (s.picks.length + 1) := by
      rw [h.counter, UInt64.ofNat_add, UInt64.add_assoc]
      rfl
    refine ⟨by rw [hnext, List.length_append, List.length_singleton], fun t' place ep ht' => ?_,
      fun place ep hplace => ?_⟩
    · dsimp only at ht'
      by_cases heq : t' = t
      · rw [heq, Function.update_self] at ht'
        cases ht'
        rw [hnext]
      · rw [Function.update_of_ne heq] at ht'
        exact h.underway t' place ep ht'
    · dsimp only at hplace
      rw [List.getElem?_append] at hplace
      split at hplace
      · exact h.returned place ep hplace
      · simp [List.getElem?_singleton] at hplace
  | underway place ep =>
    -- The result is written where the pick has its place.
    simp only [hphase]
    refine ⟨by rw [h.counter, List.length_set], fun t' place' ep' ht' => ?_, fun place' ep' hplace => ?_⟩
    · dsimp only at ht'
      by_cases heq : t' = t
      · rw [heq, Function.update_self] at ht'
        cases ht'
      · rw [Function.update_of_ne heq] at ht'
        exact h.underway t' place' ep' ht'
    · dsimp only at hplace
      by_cases heq : place = place'
      · subst heq
        rw [List.getElem?_set] at hplace
        have hep : ep = ep' := by grind
        exact hep ▸ h.underway t place ep hphase
      · rw [List.getElem?_set_ne heq] at hplace
        exact h.returned place' ep' hplace

theorem turns_run (hb : pool.balancer = some .roundRobin) (htwo : 2 ≤ pool.healthyEndpoints.length)
    (balancer : BalancerState) (schedule : List (ι × Random × ClientRequest)) :
    Turns pool balancer.counter (run pool (start balancer) schedule) := by
  have hstart : Turns pool balancer.counter (start balancer : State ι) :=
    ⟨by simp [start], nofun, nofun⟩
  unfold run
  generalize (start balancer : State ι) = s at hstart
  induction schedule generalizing s with
  | nil => exact hstart
  | cons a schedule ih => exact ih _ (hstart.step hb htwo a)

end Turns

/-! ## Fairness -/

section Fairness

variable {H : Hashing} {pool : DestinationPool H}

/-- Results from a number of the counter on. -/
def turnsFrom (pool : DestinationPool H) (m k : ℕ) : List (Option Endpoint) :=
  (List.range k).map fun i => turn pool (m + i)

/-- A whole round starts somewhere among the healthy endpoints. -/
theorem perm_turnsFrom (htwo : 2 ≤ pool.healthyEndpoints.length) (m : ℕ) :
    (turnsFrom pool m pool.healthyEndpoints.length).Perm (pool.healthyEndpoints.map some) := by
  have hrotate : turnsFrom pool m pool.healthyEndpoints.length =
      (pool.healthyEndpoints.rotate m).map some := by
    refine List.ext_getElem (by simp [turnsFrom]) fun i hi _ => ?_
    have hlt := Nat.mod_lt (m + i) (by omega : 0 < pool.healthyEndpoints.length)
    simp [turnsFrom, turn, List.getElem_rotate, Nat.add_comm i m, hlt]
  rw [hrotate]
  exact (List.rotate_perm _ m).map some

theorem count_turnsFrom (hdistinct : (pool.healthyEndpoints.map Endpoint.id).Nodup) {j : ℕ}
    (hj : j < pool.healthyEndpoints.length) (m k : ℕ) :
    (turnsFrom pool m k).count (some pool.healthyEndpoints[j]) =
      Nat.count (fun i => (m + i) % pool.healthyEndpoints.length = j) k := by
  have hturn (n : ℕ) : turn pool n = some pool.healthyEndpoints[j] ↔
      n % pool.healthyEndpoints.length = j := by
    have hlt := Nat.mod_lt n (Nat.zero_lt_of_lt hj)
    rw [turn, List.getElem?_eq_getElem hlt, Option.some.injEq, hdistinct.of_map.getElem_inj_iff]
  induction k with
  | zero => rfl
  | succ k ih =>
    rw [Nat.count_succ, ← ih]
    simp only [turnsFrom, List.range_succ, List.map_append, List.count_append, List.map_singleton,
      List.count_singleton, beq_iff_eq, hturn]

end Fairness

/-- As long as the counter does not wrap around and the healthy endpoints have IDs of their own, consecutive
picks as many as there are healthy endpoints return each of these once, and two endpoints are picked equally
often up to one among any consecutive picks. -/
theorem fair_of_run {H : Hashing} {ι : Type} [DecidableEq ι] (pool : DestinationPool H)
    (eb : EndpointBalancing) (hbalancing : pool.balancing = some eb) (hrr : eb.algorithm = .roundRobin)
    (hdistinct : (pool.healthyEndpoints.map Endpoint.id).Nodup)
    (htwo : 2 ≤ pool.healthyEndpoints.length) (balancer : BalancerState)
    (schedule : List (ι × Random × ClientRequest))
    (hwrap : balancer.counter.toNat + (run pool (start balancer) schedule).picks.length < 2 ^ 64)
    (results : List (Option Endpoint))
    (hresults : results.map some <:+: (run pool (start balancer) schedule).picks) :
    (results.length = pool.healthyEndpoints.length → results.Perm (pool.healthyEndpoints.map some)) ∧
      ∀ ep ∈ pool.healthyEndpoints, ∀ ep' ∈ pool.healthyEndpoints,
        results.count (some ep) ≤ results.count (some ep') + 1 := by
  have hb : pool.balancer = some .roundRobin := by
    have hbuilt := pool.built
    rw [hbalancing, buildBalancer, hrr] at hbuilt
    exact (Except.ok.inj hbuilt).symm
  have hturns := turns_run hb htwo balancer schedule
  generalize run pool (start balancer) schedule = s at hwrap hresults hturns
  obtain ⟨before, after, hpicks⟩ := hresults
  -- The number of the counter at the first of the results.
  let m := balancer.counter.toNat + before.length + 1
  have hfrom : results = turnsFrom pool m results.length := by
    refine List.ext_getElem (by simp [turnsFrom]) fun i hi _ => ?_
    have hplace : s.picks[before.length + i]? = some (some results[i]) := by
      rw [← hpicks, List.append_assoc, List.getElem?_append_right (by omega), Nat.add_sub_cancel_left,
        List.getElem?_append_left (by simpa using hi), List.getElem?_map, List.getElem?_eq_getElem hi]
      rfl
    have hlen : before.length + i < s.picks.length := (List.getElem?_eq_some_iff.mp hplace).1
    have hcounter : (balancer.counter + .ofNat (before.length + i + 1)).toNat = m + i := by
      rw [UInt64.toNat_add, UInt64.toNat_ofNat', Nat.add_mod_mod, Nat.mod_eq_of_lt (by omega)]
      omega
    rw [hturns.returned _ _ hplace, hcounter]
    simp [turnsFrom]
  refine ⟨fun hlen => ?_, fun ep hep ep' hep' => ?_⟩
  · rw [hfrom, hlen]
    exact perm_turnsFrom htwo m
  · obtain ⟨j, hj, rfl⟩ := List.getElem_of_mem hep
    obtain ⟨j', hj', rfl⟩ := List.getElem_of_mem hep'
    rw [hfrom, count_turnsFrom hdistinct hj, count_turnsFrom hdistinct hj']
    exact Turns.count_le hj hj' m _

/-- Healthy endpoints that take turns. -/
def takingTurns (endpoints : List Endpoint) : DestinationPool checksums where
  endpoints := endpoints
  balancing := some ⟨.roundRobin, 0, 0, 0⟩
  sessionStore := false
  balancer := some .roundRobin
  built := rfl

/-- Of two callers, the one that raises the counter first returns last. -/
def overtaking : List (Bool × Random × ClientRequest) :=
  [true, false, false, true].map (·, ⟨fun _ => 0, fun _ h => h⟩, ⟨"192.0.2.1", "", none⟩)

theorem fair_overtaking :
    [some ⟨"10.0.0.2", 80, true⟩, some ⟨"10.0.0.1", 80, true⟩].Perm
      ((takingTurns (DestinationPool.pair true true)).healthyEndpoints.map some) :=
  (fair_of_run (takingTurns (DestinationPool.pair true true)) ⟨.roundRobin, 0, 0, 0⟩ rfl rfl
    (by decide +kernel) (by decide +kernel) ⟨0, fun _ => 0⟩ overtaking (by decide +kernel)
    [some ⟨"10.0.0.2", 80, true⟩, some ⟨"10.0.0.1", 80, true⟩] (by decide +kernel)).1 (by decide +kernel)

/-- An endpoint that is listed twice is returned twice by three picks. -/
theorem unfair_doubled :
    (run (takingTurns (⟨"10.0.0.1", 80, true⟩ :: DestinationPool.pair true true)) (start ⟨0, fun _ => 0⟩)
        ((List.replicate 6 ()).map (·, ⟨fun _ => 0, fun _ h => h⟩, ⟨"192.0.2.1", "", none⟩))).picks =
      [some (some ⟨"10.0.0.1", 80, true⟩), some (some ⟨"10.0.0.2", 80, true⟩),
        some (some ⟨"10.0.0.1", 80, true⟩)] := by
  decide +kernel

end Vrata.Proxy.RoundRobin

import Mathlib.Data.UInt
import Vrata.Lib.Text
import Vrata.Proxy.Health

/-!
# When the health checker changes its mind

Reference: `server/internal/proxy/health.go`, and
`docs/website/content/docs/concepts/destinations/health-checks.md`.

`HealthChecker` is the checker with one installed table, without outlier detection: its counters, which
all destinations share, and the flag of every endpoint. A probe is counted and the flag is set anew.

The counters are not reset when the flag changes, and they wrap around. Neither matters: a counter is
compared only while the flag has the other value, and then it is the length of the current run
(`Settled`). `hysteresis` is the rule of the documentation.
-/

namespace Vrata.Proxy

/-- The ID of an endpoint is its address, `host:port`. -/
@[ext] structure EndpointID where
  id : String
  slash_not_mem : '/' ∉ id.toList

instance : DecidableEq EndpointID := fun a b => decidable_of_iff (a.id = b.id) EndpointID.ext_iff.symm

/-- The result of probing an endpoint of a destination. -/
structure Probe where
  destID : String
  ep : EndpointID
  passed : Bool
deriving DecidableEq

structure HealthChecker where
  /-- A counter that is not in the map counts from zero. -/
  counters : String → HealthCounter
  healthy : String → EndpointID → Bool

namespace HealthChecker

/-- The key of a counter. -/
def key (destID : String) (ep : EndpointID) : String := destID ++ "/" ++ ep.id

/-- The checker after the first `Update`; the endpoints of a new pool are healthy. -/
def new : HealthChecker := ⟨fun _ => {}, fun _ _ => true⟩

/-- The part of `checkAll` about one endpoint that is due. -/
def check (options : String → HealthCheckOptions) (s : HealthChecker) (p : Probe) : HealthChecker :=
  let c := (s.counters (key p.destID p.ep)).count p.passed
  { counters := Function.update s.counters (key p.destID p.ep) c
    healthy := Function.update s.healthy p.destID (Function.update (s.healthy p.destID) p.ep
      (c.flag (options p.destID) p.passed (s.healthy p.destID p.ep))) }

def run (options : String → HealthCheckOptions) (probes : List Probe) : HealthChecker :=
  probes.foldl (check options) new

/-- The results of probing one endpoint, newest first. -/
def results (destID : String) (ep : EndpointID) (probes : List Probe) : List Bool :=
  ((probes.filter fun p => p.destID = destID ∧ p.ep = ep).map Probe.passed).reverse

/-- How often the last result has come in a row. -/
def inARow (passed : Bool) (results : List Bool) : ℕ := (results.takeWhile (· = passed)).length

theorem key_inj {d d' : String} {ep ep' : EndpointID} : key d ep = key d' ep' ↔ d = d' ∧ ep = ep' := by
  refine ⟨fun h => ?_, by rintro ⟨rfl, rfl⟩; rfl⟩
  obtain ⟨hd, hid⟩ := Text.append_singleton_inj_right ep.slash_not_mem ep'.slash_not_mem h
  cases ep
  cases ep'
  cases hid
  exact ⟨hd, rfl⟩

/-! ## One endpoint -/

section Endpoint

variable (cfg : HealthCheckOptions)

/-- The counter and the flag of an endpoint, from the results of probing it. -/
def ofResults : List Bool → HealthCounter × Bool
  | [] => ({}, true)
  | passed :: results =>
    let c := (ofResults results).1.count passed
    (c, c.flag cfg passed (ofResults results).2)

/-- The counters are the lengths of runs, and neither run is long enough to change the flag. -/
structure Settled (results : List Bool) (c : HealthCounter) (healthy : Bool) : Prop where
  successes : c.successes = UInt32.ofNat (inARow true results)
  failures : c.failures = UInt32.ofNat (inARow false results)
  of_healthy : healthy = true → inARow false results < cfg.unhealthyAfter.toNat
  of_unhealthy : healthy = false → inARow true results < cfg.healthyAfter.toNat

theorem unhealthyAfter_pos : 0 < cfg.unhealthyAfter.toNat := by
  unfold HealthCheckOptions.unhealthyAfter
  split
  · next h => exact UInt32.lt_iff_toNat_lt.mp h
  · decide

theorem healthyAfter_pos : 0 < cfg.healthyAfter.toNat := by
  unfold HealthCheckOptions.healthyAfter
  split
  · next h => exact UInt32.lt_iff_toNat_lt.mp h
  · decide

theorem inARow_cons_self (passed : Bool) (results : List Bool) :
    inARow passed (passed :: results) = inARow passed results + 1 := by
  simp [inARow]

theorem inARow_cons_ne {passed other : Bool} (h : passed ≠ other) (results : List Bool) :
    inARow other (passed :: results) = 0 := by
  simp [inARow, h]

/-- A counter below the threshold reaches it exactly when the run does. -/
theorem le_ofNat_succ {threshold : UInt32} {n : ℕ} (h : n < threshold.toNat) :
    threshold ≤ UInt32.ofNat n + 1 ↔ n + 1 = threshold.toNat := by
  have hbound := threshold.toNat_lt
  have hsucc : (UInt32.ofNat n + 1).toNat = n + 1 := by
    rw [← UInt32.ofNat_one, ← UInt32.ofNat_add, UInt32.toNat_ofNat']
    omega
  rw [UInt32.le_iff_toNat_le, hsucc]
  omega

variable {cfg} {results : List Bool} {c : HealthCounter} {healthy : Bool}

/-- A probe changes the flag exactly when it completes a run. -/
theorem Settled.flag_iff (h : Settled cfg results c healthy) (passed : Bool) :
    (healthy = true → ((c.count passed).flag cfg passed healthy = false ↔
        inARow false (passed :: results) = cfg.unhealthyAfter.toNat)) ∧
      (healthy = false → ((c.count passed).flag cfg passed healthy = true ↔
        inARow true (passed :: results) = cfg.healthyAfter.toNat)) := by
  have hunhealthy := (unhealthyAfter_pos cfg).ne
  have hhealthy := (healthyAfter_pos cfg).ne
  cases passed with
  | true =>
    refine ⟨fun hflag => ?_, fun hflag => ?_⟩
    · simp [HealthCounter.flag, hflag, inARow_cons_ne (show true ≠ false by decide), hunhealthy]
    · simp [HealthCounter.flag, HealthCounter.count, hflag, inARow_cons_self, h.successes,
        le_ofNat_succ (h.of_unhealthy hflag)]
  | false =>
    refine ⟨fun hflag => ?_, fun hflag => ?_⟩
    · simp [HealthCounter.flag, HealthCounter.count, hflag, inARow_cons_self, h.failures,
        le_ofNat_succ (h.of_healthy hflag)]
    · simp [HealthCounter.flag, hflag, inARow_cons_ne (show false ≠ true by decide), hhealthy]

theorem Settled.count (h : Settled cfg results c healthy) (passed : Bool) :
    Settled cfg (passed :: results) (c.count passed) ((c.count passed).flag cfg passed healthy) := by
  have hflag := h.flag_iff passed
  have hsucc : ∀ n, UInt32.ofNat n + 1 = UInt32.ofNat (n + 1) := fun n => by
    rw [UInt32.ofNat_add, UInt32.ofNat_one]
  cases passed with
  | true =>
    have hzero := inARow_cons_ne (show true ≠ false by decide) results
    refine ⟨?_, ?_, ?_, fun hafter => ?_⟩
    · rw [inARow_cons_self, ← hsucc, ← h.successes]
      rfl
    · simp [HealthCounter.count, hzero]
    · simp [hzero, unhealthyAfter_pos]
    · -- An endpoint that is still unhealthy was so before, and its run is not complete.
      have hbefore : healthy = false := by
        cases healthy with
        | false => rfl
        | true => simp [HealthCounter.flag] at hafter
      have hlt := h.of_unhealthy hbefore
      have hne := (hflag.2 hbefore).not.mp (by simp [hafter])
      rw [inARow_cons_self] at hne ⊢
      omega
  | false =>
    have hzero := inARow_cons_ne (show false ≠ true by decide) results
    refine ⟨?_, ?_, fun hafter => ?_, ?_⟩
    · simp [HealthCounter.count, hzero]
    · rw [inARow_cons_self, ← hsucc, ← h.failures]
      rfl
    · have hbefore : healthy = true := by
        cases healthy with
        | true => rfl
        | false => simp [HealthCounter.flag] at hafter
      have hlt := h.of_healthy hbefore
      have hne := (hflag.1 hbefore).not.mp (by simp [hafter])
      rw [inARow_cons_self] at hne ⊢
      omega
    · simp [hzero, healthyAfter_pos]

variable (cfg) in
theorem settled_ofResults (results : List Bool) :
    Settled cfg results (ofResults cfg results).1 (ofResults cfg results).2 := by
  induction results with
  | nil => exact ⟨rfl, rfl, fun _ => unhealthyAfter_pos cfg, by simp [ofResults]⟩
  | cons passed results ih => exact ih.count passed

end Endpoint

/-! ## All endpoints -/

variable (options : String → HealthCheckOptions)

theorem results_append (d : String) (ep : EndpointID) (probes : List Probe) (p : Probe) :
    results d ep (probes ++ [p])
      = if p.destID = d ∧ p.ep = ep then p.passed :: results d ep probes else results d ep probes := by
  unfold results
  split
  · next h => simp [List.filter_append, h.1, h.2]
  · next h => simp [List.filter_append, h]

/-- An endpoint is in the state that its own results leave it in. -/
theorem run_eq (probes : List Probe) (d : String) (ep : EndpointID) :
    (run options probes).counters (key d ep) = (ofResults (options d) (results d ep probes)).1 ∧
      (run options probes).healthy d ep = (ofResults (options d) (results d ep probes)).2 := by
  induction probes using List.reverseRecOn with
  | nil => exact ⟨rfl, rfl⟩
  | append_singleton probes p ih =>
    have hrun : run options (probes ++ [p]) = check options (run options probes) p := by simp [run]
    rw [hrun, results_append]
    by_cases hown : p.destID = d ∧ p.ep = ep
    · obtain ⟨rfl, rfl⟩ := hown
      simp [check, ih.1, ih.2, ofResults]
    · have hkey : key d ep ≠ key p.destID p.ep := fun h => hown ((key_inj.mp h).imp Eq.symm Eq.symm)
      rw [if_neg hown, ← ih.1, ← ih.2]
      refine ⟨by simp [check, hkey], ?_⟩
      by_cases hd : p.destID = d
      · have hep : ep ≠ p.ep := fun h => hown ⟨hd, h.symm⟩
        simp [check, hd, hep]
      · simp [check, Ne.symm hd]

/-- An endpoint changes exactly when a probe of its own completes a run of the length that its
destination asks for, and its state depends on its own probes only. -/
theorem hysteresis (probes : List Probe) (p : Probe) :
    ((run options probes).healthy p.destID p.ep = true →
        ((run options (probes ++ [p])).healthy p.destID p.ep = false ↔
          inARow false (results p.destID p.ep (probes ++ [p])) = (options p.destID).unhealthyAfter.toNat)) ∧
      ((run options probes).healthy p.destID p.ep = false →
        ((run options (probes ++ [p])).healthy p.destID p.ep = true ↔
          inARow true (results p.destID p.ep (probes ++ [p])) = (options p.destID).healthyAfter.toNat)) ∧
      (∀ d ep, ¬ (p.destID = d ∧ p.ep = ep) →
        (run options (probes ++ [p])).healthy d ep = (run options probes).healthy d ep) ∧
      ∀ d ep probes', results d ep probes' = results d ep probes →
        (run options probes').healthy d ep = (run options probes).healthy d ep := by
  have hsettled := settled_ofResults (options p.destID) (results p.destID p.ep probes)
  have hflag := hsettled.flag_iff p.passed
  have hown : results p.destID p.ep (probes ++ [p]) = p.passed :: results p.destID p.ep probes := by
    simp [results_append]
  simp only [(run_eq options _ _ _).2]
  refine ⟨?_, ?_, ?_, ?_⟩
  · rw [hown]
    exact hflag.1
  · rw [hown]
    exact hflag.2
  · intro d ep hother
    rw [results_append, if_neg hother]
  · intro d ep probes' hsame
    rw [hsame]

end HealthChecker

end Vrata.Proxy

import Vrata.Proxy.Outlier

/-!
# Health checks and outlier detection together

Reference: `server/internal/proxy/health.go` and `outlier.go`.

An endpoint has one flag that says whether it is healthy, and only healthy endpoints are picked. The
health checker and the outlier detector both write it: the checker when enough probes in a row have
passed or failed, the detector when it ejects an endpoint and when it takes it back. Neither looks at
what the other has found. `Guarded` is a destination with both; its actions are whole calls of
`RecordResponse` and `checkEjections`, and the result of one probe.

The checker has no record of its own of what it last found, so `verdict` keeps it: it changes when a
threshold is reached. `outOfRotation_iff` says in which runs endpoints that are ejected or were last
found unhealthy stay out.
-/

namespace Vrata.Proxy

open Runs

/-- The options are times in nanoseconds, as `time.ParseDuration` reads them, and numbers of probes.
The timeout of a probe is part of its result. -/
structure HealthCheckOptions where
  interval : Option ℤ := none
  unhealthyThreshold : UInt32 := 0
  healthyThreshold : UInt32 := 0
deriving DecidableEq, Repr

namespace HealthCheckOptions

def unhealthyAfter (cfg : HealthCheckOptions) : UInt32 :=
  if 0 < cfg.unhealthyThreshold then cfg.unhealthyThreshold else 3

def healthyAfter (cfg : HealthCheckOptions) : UInt32 :=
  if 0 < cfg.healthyThreshold then cfg.healthyThreshold else 2

end HealthCheckOptions

structure HealthCounter where
  successes : UInt32 := 0
  failures : UInt32 := 0
deriving DecidableEq, Repr

namespace HealthCounter

/-- A probe is counted. -/
def count (c : HealthCounter) (passed : Bool) : HealthCounter :=
  if passed then ⟨c.successes + 1, 0⟩ else ⟨0, c.failures + 1⟩

/-- The flag after a probe that has been counted. -/
def flag (cfg : HealthCheckOptions) (c : HealthCounter) (passed wasHealthy : Bool) : Bool :=
  if passed then
    if !wasHealthy && cfg.healthyAfter ≤ c.successes then true else wasHealthy
  else if wasHealthy && cfg.unhealthyAfter ≤ c.failures then false
  else wasHealthy

/-- What the checker has last found, after a probe that has been counted. -/
def verdict (cfg : HealthCheckOptions) (c : HealthCounter) (passed last : Bool) : Bool :=
  if passed then if cfg.healthyAfter ≤ c.successes then true else last
  else if cfg.unhealthyAfter ≤ c.failures then false
  else last

end HealthCounter

/-! ## A destination with both -/

/-- The endpoints of a destination, by ID. -/
structure Guarded where
  healthy : String → Bool
  tracker : String → Tracker
  counter : String → HealthCounter
  /-- What the health checker has last found. -/
  verdict : String → Bool
  now : ℤ

namespace Guarded

/-- A destination that has just been built. -/
def new (cfg : OutlierDetectionOptions) (now : ℤ) : Guarded where
  healthy _ := true
  tracker _ := { cfg := cfg }
  counter _ := {}
  verdict _ := true
  now := now

inductive Action where
  | tick (d : ℕ)
  | respond (ep : String) (status : ℕ)
  | check
  | probe (ep : String) (passed : Bool)
deriving DecidableEq, Repr

def step (cfg : HealthCheckOptions) (s : Guarded) : Action → Guarded
  | .tick d => { s with now := s.now + d }
  | .respond ep status =>
    { s with
      tracker := Function.update s.tracker ep ((s.tracker ep).record s.now status)
      healthy := Function.update s.healthy ep
        (if (s.tracker ep).ejects status then false else s.healthy ep) }
  | .check =>
    { s with
      tracker := fun ep => (s.tracker ep).check s.now
      healthy := fun ep => if (s.tracker ep).expired s.now then true else s.healthy ep }
  | .probe ep passed =>
    let c := (s.counter ep).count passed
    { s with
      counter := Function.update s.counter ep c
      healthy := Function.update s.healthy ep (c.flag cfg passed (s.healthy ep))
      verdict := Function.update s.verdict ep (c.verdict cfg passed (s.verdict ep)) }

/-- An endpoint that is ejected, or was last found unhealthy, is not picked. -/
def OutOfRotation (s : Guarded) : Prop :=
  ∀ ep, (s.tracker ep).ejected = true ∨ s.verdict ep = false → s.healthy ep = false

/-- Probes do not bring back an endpoint that is ejected, and no ejection ends while the checker
finds the endpoint unhealthy. -/
def Coordinated (cfg : HealthCheckOptions) (s : Guarded) : Action → Prop
  | .probe ep true => s.healthy ep = false →
    cfg.healthyAfter ≤ (s.counter ep).successes + 1 → (s.tracker ep).ejected = false
  | .check => ∀ ep, (s.tracker ep).expired s.now = true → s.verdict ep = true
  | _ => True

section Step

variable {cfg : HealthCheckOptions} {s : Guarded}

/-- Only one endpoint changes. -/
theorem outOfRotation_iff_at (s' : Guarded) (ep : String) (h : s.OutOfRotation)
    (hflag : ∀ ep', ep' ≠ ep → s'.healthy ep' = s.healthy ep')
    (htracker : ∀ ep', ep' ≠ ep → s'.tracker ep' = s.tracker ep')
    (hverdict : ∀ ep', ep' ≠ ep → s'.verdict ep' = s.verdict ep') :
    s'.OutOfRotation ↔
      ((s'.tracker ep).ejected = true ∨ s'.verdict ep = false → s'.healthy ep = false) := by
  refine ⟨fun h' => h' ep, fun h' ep' => ?_⟩
  by_cases hep : ep' = ep
  · subst hep
    exact h'
  · rw [hflag ep' hep, htracker ep' hep, hverdict ep' hep]
    exact h ep'

theorem outOfRotation_respond (h : s.OutOfRotation) (ep : String) (status : ℕ) :
    (s.step cfg (.respond ep status)).OutOfRotation := by
  refine (outOfRotation_iff_at (s.step cfg (.respond ep status)) ep h
    (fun _ hep => Function.update_of_ne hep _ _) (fun _ hep => Function.update_of_ne hep _ _)
    fun _ _ => rfl).mpr ?_
  simp only [step, Function.update_self, Tracker.ejected_record, Bool.or_eq_true]
  intro hout
  split
  · rfl
  · rename_i hkeep
    exact h ep (hout.imp_left fun hej => hej.resolve_right hkeep)

theorem outOfRotation_check (h : s.OutOfRotation) :
    (s.step cfg .check).OutOfRotation ↔ s.Coordinated cfg .check := by
  refine forall_congr' fun ep => ?_
  simp only [step, Tracker.ejected_check, Bool.and_eq_true, Bool.not_eq_true']
  cases hexpired : (s.tracker ep).expired s.now with
  | true => simp
  | false =>
    simp only [and_true, Bool.false_eq_true, if_false, false_implies, iff_true]
    exact h ep

theorem outOfRotation_probe (h : s.OutOfRotation) (ep : String) (passed : Bool) :
    (s.step cfg (.probe ep passed)).OutOfRotation ↔ s.Coordinated cfg (.probe ep passed) := by
  refine (outOfRotation_iff_at (s.step cfg (.probe ep passed)) ep h
    (fun _ hep => Function.update_of_ne hep _ _) (fun _ _ => rfl)
    fun _ hep => Function.update_of_ne hep _ _).trans ?_
  simp only [step, Function.update_self]
  have hep := h ep
  cases passed with
  | true =>
    simp only [HealthCounter.count, HealthCounter.flag, HealthCounter.verdict, Coordinated, if_true]
    cases hflag : s.healthy ep with
    | true =>
      -- a healthy endpoint is neither ejected nor found unhealthy, and stays so
      rw [hflag] at hep
      simp only [Bool.true_eq_false, imp_false, not_or, Bool.not_eq_true, Bool.not_eq_false] at hep
      simp [hep.1, hep.2]
    | false =>
      by_cases henough : cfg.healthyAfter ≤ (s.counter ep).successes + 1
      · simp [henough]
      · simp [henough]
  | false =>
    simp only [HealthCounter.count, HealthCounter.flag, HealthCounter.verdict, Coordinated,
      Bool.false_eq_true, if_false, iff_true]
    cases hflag : s.healthy ep with
    | true =>
      rw [hflag] at hep
      simp only [Bool.true_eq_false, imp_false, not_or, Bool.not_eq_true, Bool.not_eq_false] at hep
      by_cases henough : cfg.unhealthyAfter ≤ (s.counter ep).failures + 1
      · simp [henough]
      · simp [henough, hep.1, hep.2]
    | false => simp

/-- A step keeps these endpoints out exactly if it is coordinated. -/
theorem outOfRotation_step (h : s.OutOfRotation) (a : Action) :
    (s.step cfg a).OutOfRotation ↔ s.Coordinated cfg a := by
  cases a with
  | tick d => exact iff_of_true h trivial
  | respond ep status => exact iff_of_true (outOfRotation_respond h ep status) trivial
  | check => exact outOfRotation_check h
  | probe ep passed => exact outOfRotation_probe h ep passed

end Step

/-- Endpoints that are ejected or were last found unhealthy are out of rotation in every state of a
run if and only if every step of it is coordinated. -/
theorem outOfRotation_iff (cfg : HealthCheckOptions) (outlier : OutlierDetectionOptions) (now : ℤ)
    (run : List Action) :
    Always (step cfg) OutOfRotation (new outlier now) run ↔
      Along (step cfg) (Coordinated cfg) (new outlier now) run :=
  always_iff_along (fun _ a h => outOfRotation_step h a) fun ep hout => by
    rcases hout with hout | hout <;> cases hout

/-- Two probes bring back an endpoint that has just been ejected; and the end of an ejection brings
back an endpoint whose probes fail. -/
theorem back_in_rotation :
    ¬Always (step {}) OutOfRotation (new { consecutive5xx := 1 } 0)
      [.respond "10.0.0.1:80" 500, .probe "10.0.0.1:80" true, .probe "10.0.0.1:80" true] ∧
    ¬Always (step {}) OutOfRotation (new { consecutive5xx := 1 } 0)
      [.respond "10.0.0.1:80" 500, .probe "10.0.0.1:80" false, .probe "10.0.0.1:80" false,
        .probe "10.0.0.1:80" false, .tick 30000000001, .check] := by
  constructor
  · intro h
    have hlast := h _ (List.prefix_refl _) "10.0.0.1:80"
    revert hlast
    decide +kernel
  · intro h
    have hlast := h _ (List.prefix_refl _) "10.0.0.1:80"
    revert hlast
    decide +kernel

end Guarded

end Vrata.Proxy

import Mathlib.Logic.Function.Basic
import Vrata.Lib.Runs
import Vrata.Proxy.Retry

/-!
# Outlier detection

Reference: `server/internal/proxy/outlier.go`, `OutlierDetectionOptions` of
`server/internal/model/destination.go`, and
`docs/website/content/docs/concepts/destinations/outlier-detection.md`.

A tracker counts the failed responses of an endpoint in a row. When there are enough of them it
ejects the endpoint, for a time that grows with the number of ejections, and a periodic check takes it
back. `Update` keeps the trackers of the endpoints that stay.

The detector files a tracker under the destination and the endpoint, joined by a slash; endpoint IDs
are addresses without one, so the model files it under the pair. The `interval` of the options is not
read by any code and left out. The option `maxEjectionPercent` is not read either, but the
documentation calls it a safety valve: no more than this part of the endpoints of a destination is
ejected at a time. `valve_iff` says for which runs that is so.
-/

namespace Vrata.Proxy

open Runs

structure OutlierDetectionOptions where
  consecutive5xx : UInt32 := 0
  consecutiveGatewayErrors : UInt32 := 0
  /-- In nanoseconds, as `time.ParseDuration` reads it. -/
  baseEjectionTime : Option ℤ := none
  maxEjectionPercent : UInt32 := 0
deriving DecidableEq, Repr

namespace OutlierDetectionOptions

variable (cfg : OutlierDetectionOptions)

def threshold5xx : ℕ := if 0 < cfg.consecutive5xx then cfg.consecutive5xx.toNat else 5

/-- Zero means that gateway errors are not looked at. -/
def thresholdGw : ℕ := cfg.consecutiveGatewayErrors.toNat

def baseTime : ℤ := cfg.baseEjectionTime.getD 30000000000

end OutlierDetectionOptions

/-! ## Trackers -/

structure Tracker where
  consecutive5xx : ℕ := 0
  consecutiveGateway : ℕ := 0
  ejected : Bool := false
  /-- The zero time is zero; it is not read before an ejection sets it. -/
  ejectedAt : ℤ := 0
  ejectionCount : ℕ := 0
  cfg : OutlierDetectionOptions := {}
deriving DecidableEq, Repr

namespace Tracker

/-- A response is counted. -/
def count (t : Tracker) (status : ℕ) : Tracker :=
  if 500 ≤ status then
    { t with
      consecutive5xx := t.consecutive5xx + 1
      consecutiveGateway :=
        if status = 502 ∨ status = 503 ∨ status = 504 then t.consecutiveGateway + 1
        else t.consecutiveGateway }
  else { t with consecutive5xx := 0, consecutiveGateway := 0 }

def shouldEject (t : Tracker) : Bool :=
  t.cfg.threshold5xx ≤ t.consecutive5xx ||
    0 < t.cfg.thresholdGw && t.cfg.thresholdGw ≤ t.consecutiveGateway

/-- The response makes `RecordResponse` eject the endpoint. -/
def ejects (t : Tracker) (status : ℕ) : Bool := (t.count status).shouldEject && !t.ejected

/-- `RecordResponse`, for the tracker. -/
def record (t : Tracker) (now : ℤ) (status : ℕ) : Tracker :=
  if t.ejects status then
    { t.count status with ejected := true, ejectedAt := now, ejectionCount := t.ejectionCount + 1 }
  else t.count status

def ejectionDuration (t : Tracker) : ℤ := wrap64 (t.cfg.baseTime * t.ejectionCount)

/-- The check finds that the ejection is over. -/
def expired (t : Tracker) (now : ℤ) : Bool := t.ejected && t.ejectionDuration < now - t.ejectedAt

/-- `checkEjections`, for the tracker. -/
def check (t : Tracker) (now : ℤ) : Tracker :=
  if t.expired now then { t with ejected := false, consecutive5xx := 0, consecutiveGateway := 0 }
  else t

@[simp] theorem ejected_count (t : Tracker) (status : ℕ) : (t.count status).ejected = t.ejected := by
  unfold count
  split <;> rfl

theorem ejected_record (t : Tracker) (now : ℤ) (status : ℕ) :
    (t.record now status).ejected = (t.ejected || t.ejects status) := by
  unfold record
  split
  · rename_i h
    simp [h]
  · rename_i h
    simp [h]

theorem ejected_check (t : Tracker) (now : ℤ) :
    (t.check now).ejected = (t.ejected && !t.expired now) := by
  unfold check
  split
  · rename_i h
    simp [h]
  · rename_i h
    simp [h]

end Tracker

/-! ## The detector -/

/-- What `Update` reads of a pool. -/
structure TrackedPool where
  options : Option OutlierDetectionOptions
  endpoints : List String

/-- The trackers by destination and endpoint, and the pools of the last `Update` by destination. -/
structure OutlierDetector where
  trackers : String → String → Option Tracker
  pools : String → Option TrackedPool
  now : ℤ

namespace OutlierDetector

def new (now : ℤ) : OutlierDetector := ⟨fun _ _ => none, fun _ => none, now⟩

/-- The tracker of an endpoint after an `Update`, given the one it had. -/
def carry (pool : Option TrackedPool) (ep : String) (old : Option Tracker) : Option Tracker :=
  match pool with
  | none => none
  | some pool =>
    match pool.options with
    | none => none
    | some cfg => if ep ∈ pool.endpoints then some (old.getD { cfg := cfg }) else none

def update (od : OutlierDetector) (pools : String → Option TrackedPool) : OutlierDetector :=
  { od with pools := pools, trackers := fun d ep => carry (pools d) ep (od.trackers d ep) }

def recordResponse (od : OutlierDetector) (destID epID : String) (status : ℕ) : OutlierDetector :=
  { od with
    trackers := Function.update od.trackers destID (Function.update (od.trackers destID) epID
      ((od.trackers destID epID).map fun t => t.record od.now status)) }

def checkEjections (od : OutlierDetector) : OutlierDetector :=
  { od with trackers := fun d ep => (od.trackers d ep).map fun t => t.check od.now }

inductive Action where
  | tick (d : ℕ)
  | respond (destID epID : String) (status : ℕ)
  | check
  | update (pools : String → Option TrackedPool)

def step (od : OutlierDetector) : Action → OutlierDetector
  | .tick d => { od with now := od.now + d }
  | .respond destID epID status => od.recordResponse destID epID status
  | .check => od.checkEjections
  | .update pools => od.update pools

/-- The endpoint is ejected. -/
def isEjected (od : OutlierDetector) (d ep : String) : Bool :=
  (od.trackers d ep).any Tracker.ejected

/-! ## The safety valve -/

/-- The percentage the documentation promises. -/
def maxPercent (cfg : OutlierDetectionOptions) : ℕ :=
  if cfg.maxEjectionPercent = 0 then 10 else cfg.maxEjectionPercent.toNat

/-- In every destination with outlier detection, the endpoints that are marked are within the
percentage. -/
def WithinPercent (pools : String → Option TrackedPool) (marked : String → String → Bool) : Prop :=
  ∀ d pool cfg, pools d = some pool → pool.options = some cfg →
    100 * pool.endpoints.countP (marked d) ≤ maxPercent cfg * pool.endpoints.length

def Valve (od : OutlierDetector) : Prop := WithinPercent od.pools od.isEjected

/-- A response that ejects an endpoint comes while there is room for one more, and the endpoints that
stay after an update leave enough that are not ejected. -/
def Roomy (od : OutlierDetector) : Action → Prop
  | .respond d ep status => (od.trackers d ep).any (·.ejects status) = true →
    WithinPercent od.pools fun d' ep' => (d' = d && ep' = ep) || od.isEjected d' ep'
  | .update pools => WithinPercent pools od.isEjected
  | _ => True

variable {od : OutlierDetector}

theorem withinPercent_congr {pools : String → Option TrackedPool}
    {marked marked' : String → String → Bool}
    (h : ∀ d pool cfg, pools d = some pool → pool.options = some cfg →
      ∀ ep ∈ pool.endpoints, marked d ep = marked' d ep) :
    WithinPercent pools marked ↔ WithinPercent pools marked' := by
  refine forall_congr' fun d => forall_congr' fun pool => forall_congr' fun cfg =>
    forall_congr' fun hpool => forall_congr' fun hcfg => ?_
  have hcount : pool.endpoints.countP (marked d) = pool.endpoints.countP (marked' d) :=
    List.countP_congr fun ep hep => by rw [h d pool cfg hpool hcfg ep hep]
  rw [hcount]

/-- Fewer marked endpoints are still within the percentage. -/
theorem WithinPercent.mono {pools : String → Option TrackedPool}
    {marked marked' : String → String → Bool} (h : WithinPercent pools marked)
    (hle : ∀ d ep, marked' d ep = true → marked d ep = true) : WithinPercent pools marked' := by
  intro d pool cfg hpool hcfg
  have hcount : pool.endpoints.countP (marked' d) ≤ pool.endpoints.countP (marked d) :=
    List.countP_mono_left fun ep _ => hle d ep
  have hbound := h d pool cfg hpool hcfg
  omega

theorem isEjected_recordResponse (destID epID : String) (status : ℕ) (d ep : String) :
    (od.recordResponse destID epID status).isEjected d ep =
      ((d = destID && ep = epID) && (od.trackers destID epID).any (·.ejects status) ||
        od.isEjected d ep) := by
  unfold isEjected recordResponse
  by_cases hd : d = destID
  · subst hd
    by_cases hep : ep = epID
    · subst hep
      cases od.trackers d ep with
      | none => simp
      | some t => simp [Tracker.ejected_record, Bool.or_comm]
    · simp [hep]
  · simp [hd]

theorem isEjected_checkEjections {d ep : String} (h : od.checkEjections.isEjected d ep = true) :
    od.isEjected d ep = true := by
  unfold isEjected checkEjections at h
  unfold isEjected
  cases ht : od.trackers d ep with
  | none => simp [ht] at h
  | some t =>
    simp only [ht, Option.map_some, Option.any_some, Tracker.ejected_check, Bool.and_eq_true] at h
    exact h.1

theorem isEjected_update {pools : String → Option TrackedPool} {d ep : String} {pool : TrackedPool}
    {cfg : OutlierDetectionOptions} (hpool : pools d = some pool) (hcfg : pool.options = some cfg)
    (hep : ep ∈ pool.endpoints) : (od.update pools).isEjected d ep = od.isEjected d ep := by
  simp only [isEjected, update, carry, hpool, hcfg, if_pos hep, Option.any_some]
  cases od.trackers d ep <;> rfl

/-- A step keeps the valve exactly if it has room. -/
theorem valve_step (h : od.Valve) (a : Action) : (od.step a).Valve ↔ od.Roomy a := by
  cases a with
  | tick d => exact iff_of_true h trivial
  | check => exact iff_of_true (h.mono fun d ep => isEjected_checkEjections) trivial
  | update pools =>
    exact withinPercent_congr fun d pool cfg hpool hcfg ep hep => isEjected_update hpool hcfg hep
  | respond d ep status =>
    have hstep : (od.step (.respond d ep status)).Valve ↔ WithinPercent od.pools fun d' ep' =>
        (d' = d && ep' = ep) && (od.trackers d ep).any (·.ejects status) || od.isEjected d' ep' :=
      withinPercent_congr fun d' _ _ _ _ ep' _ => isEjected_recordResponse d ep status d' ep'
    rw [hstep]
    cases hejects : (od.trackers d ep).any (·.ejects status) with
    | true => simp [Roomy, hejects]
    | false =>
      simp only [Bool.and_false, Bool.false_or, Roomy, hejects]
      exact iff_of_true h nofun

/-- The valve holds at every moment of a run if and only if every ejection has room for it and every
update leaves enough endpoints. -/
theorem valve_iff (now : ℤ) (run : List Action) :
    Always step Valve (new now) run ↔ Along step Roomy (new now) run :=
  always_iff_along (fun _ a h => valve_step h a) (by
    intro d pool cfg hpool
    cases hpool)

/-- A destination with two endpoints, of which one may not be ejected. -/
def twoEndpoints : String → Option TrackedPool :=
  Function.update (fun _ => none) "api"
    (some ⟨some { consecutive5xx := 1 }, ["10.0.0.1:80", "10.0.0.2:80"]⟩)

/-- One failed response of each endpoint, and both are ejected. -/
theorem valve_exceeded :
    ¬Always step Valve (new 0) [.update twoEndpoints, .respond "api" "10.0.0.1:80" 500,
      .respond "api" "10.0.0.2:80" 500] := by
  intro h
  have hlast := h _ (List.prefix_refl _) "api" _ _ rfl rfl
  revert hlast
  decide +kernel

end OutlierDetector

end Vrata.Proxy

import Vrata.Proxy.Outlier

/-!
# When an endpoint is ejected, and for how long

Reference: `server/internal/proxy/outlier.go`, and
`docs/website/content/docs/concepts/destinations/outlier-detection.md`.

The documentation states the rule in terms of the responses of an endpoint: so many 5xx in a row, or so
many gateway errors in a row, eject it, and the k-th ejection lasts k times the base time. A tracker
keeps counters instead, and the options it was made with.

`Watched` runs the detector beside a record of the responses and ejections of every endpoint, and
`ruleKept_iff` says in terms of that record which runs are by the rule of the options in force. They
are not the same: a 500 does not end a run of gateway errors, an update does not reach the options of a
tracker that exists, and the product of the base time with the number of ejections wraps around.
-/

namespace Vrata.Proxy

open Runs

def isGatewayError (status : ℕ) : Bool := status = 502 ∨ status = 503 ∨ status = 504

/-! Responses are recorded newest first. -/

/-- The last response ends a run that is long enough. -/
def Triggers (cfg : OutlierDetectionOptions) (heard : List ℕ) : Prop :=
  cfg.threshold5xx ≤ (heard.takeWhile fun status => 500 ≤ status && status ≤ 599).length ∨
    0 < cfg.thresholdGw ∧ cfg.thresholdGw ≤ (heard.takeWhile isGatewayError).length

/-- The responses that a tracker has counted since the last one below 500. -/
def counted (heard : List ℕ) : List ℕ := heard.takeWhile fun status => 500 ≤ status

/-- What a tracker goes by: the gateway errors need not follow each other. -/
def Counts (cfg : OutlierDetectionOptions) (heard : List ℕ) : Prop :=
  cfg.threshold5xx ≤ (counted heard).length ∨
    0 < cfg.thresholdGw ∧ cfg.thresholdGw ≤ (counted heard).countP isGatewayError

/-- The tracker agrees with the record. -/
structure Tracker.Records (t : Tracker) (heard : List ℕ) (ejections : List ℤ) : Prop where
  consecutive5xx : t.consecutive5xx = (counted heard).length
  consecutiveGateway : t.consecutiveGateway = (counted heard).countP isGatewayError
  ejectionCount : t.ejectionCount = ejections.length
  ejectedAt : t.ejected = true → ejections.head? = some t.ejectedAt

namespace Tracker

variable {t : Tracker} {heard : List ℕ} {ejections : List ℤ}

theorem records_new (cfg : OutlierDetectionOptions) : ({ cfg := cfg } : Tracker).Records [] [] :=
  ⟨rfl, rfl, rfl, by simp⟩

theorem Records.count (h : t.Records heard ejections) (status : ℕ) :
    (t.count status).Records (status :: heard) ejections := by
  unfold Tracker.count
  split
  · next hfailed =>
    have hcounted : counted (status :: heard) = status :: counted heard := by simp [counted, hfailed]
    refine ⟨?_, ?_, h.ejectionCount, h.ejectedAt⟩
    · simp [hcounted, h.consecutive5xx]
    · rw [hcounted, List.countP_cons, ← h.consecutiveGateway]
      simp only [isGatewayError, decide_eq_true_eq]
      split <;> rfl
  · next hok =>
    have hcounted : counted (status :: heard) = [] := by simp [counted, hok]
    exact ⟨by simp [hcounted], by simp [hcounted], h.ejectionCount, h.ejectedAt⟩

theorem cfg_count (t : Tracker) (status : ℕ) : (t.count status).cfg = t.cfg := by
  unfold Tracker.count
  split <;> rfl

/-- What makes a tracker eject its endpoint. -/
theorem Records.ejects_iff (h : t.Records heard ejections) (status : ℕ) :
    t.ejects status = true ↔ t.ejected = false ∧ Counts t.cfg (status :: heard) := by
  have hcount := h.count status
  simp [ejects, shouldEject, cfg_count, hcount.consecutive5xx, hcount.consecutiveGateway, Counts, and_comm]

theorem Records.record (h : t.Records heard ejections) (now : ℤ) (status : ℕ) :
    (t.record now status).Records (status :: heard)
      (if t.ejects status then now :: ejections else ejections) := by
  have hcount := h.count status
  unfold Tracker.record
  split
  · exact ⟨hcount.consecutive5xx, hcount.consecutiveGateway, by simp [h.ejectionCount], fun _ => rfl⟩
  · exact hcount

theorem Records.check (h : t.Records heard ejections) (now : ℤ) :
    (t.check now).Records (if t.expired now then [] else heard) ejections := by
  unfold Tracker.check
  split
  · exact ⟨rfl, rfl, h.ejectionCount, by simp⟩
  · exact h

end Tracker

/-! ## Runs -/

/-- The detector, and for each endpoint the responses since it was taken up or restored, and when it
was ejected since it was taken up. Newest first. -/
structure Watched where
  od : OutlierDetector
  heard : String → String → List ℕ
  ejections : String → String → List ℤ

namespace Watched

open OutlierDetector

def new (now : ℤ) : Watched := ⟨.new now, fun _ _ => [], fun _ _ => []⟩

def step (s : Watched) (a : Action) : Watched where
  od := s.od.step a
  heard d ep :=
    match a with
    | .respond d' ep' status => if d = d' ∧ ep = ep' then status :: s.heard d ep else s.heard d ep
    | .check => if (s.od.trackers d ep).any (·.expired s.od.now) then [] else s.heard d ep
    | .update _ => if (s.od.trackers d ep).isNone then [] else s.heard d ep
    | .tick _ => s.heard d ep
  ejections d ep :=
    match a with
    | .respond d' ep' status =>
      if d = d' ∧ ep = ep' ∧ (s.od.trackers d ep).any (·.ejects status) then
        s.od.now :: s.ejections d ep
      else s.ejections d ep
    | .update _ => if (s.od.trackers d ep).isNone then [] else s.ejections d ep
    | _ => s.ejections d ep

/-- The options of a destination that are in force. -/
def options (s : Watched) (d : String) : Option OutlierDetectionOptions :=
  (s.od.pools d).bind TrackedPool.options

/-- A response ejects an endpoint only if the rule says so, and a check takes it back exactly when its
last ejection, the k-th, is more than k times the base time ago. -/
def RuleKept (s : Watched) : Action → Prop
  | .respond d ep status =>
    s.od.isEjected d ep = false → (s.step (.respond d ep status)).od.isEjected d ep = true →
      ∃ cfg ∈ s.options d, Triggers cfg (status :: s.heard d ep)
  | .check => ∀ d ep, s.od.isEjected d ep = true →
    ((s.step .check).od.isEjected d ep = false ↔ ∃ cfg ∈ s.options d, ∃ at' ∈ (s.ejections d ep).head?,
      (s.ejections d ep).length * cfg.baseTime < s.od.now - at')
  | _ => True

/-- What the options a tracker was made with say about the record is what the options in force say. -/
def OptionsAgree (s : Watched) : Action → Prop
  | .respond d ep status => ∀ t ∈ s.od.trackers d ep, t.ejected = false →
    Counts t.cfg (status :: s.heard d ep) → ∃ cfg ∈ s.options d, Triggers cfg (status :: s.heard d ep)
  | .check => ∀ d ep, ∀ t ∈ s.od.trackers d ep, t.ejected = true →
    ∀ at' ∈ (s.ejections d ep).head?,
      (wrap64 (t.cfg.baseTime * (s.ejections d ep).length) < s.od.now - at' ↔
        ∃ cfg ∈ s.options d, (s.ejections d ep).length * cfg.baseTime < s.od.now - at')
  | _ => True

/-- Every tracker agrees with the record. -/
def Consistent (s : Watched) : Prop :=
  ∀ d ep, ∀ t ∈ s.od.trackers d ep, t.Records (s.heard d ep) (s.ejections d ep)

theorem carry_eq_some {pool : Option TrackedPool} {ep : String} {old : Option Tracker} {t : Tracker}
    (h : carry pool ep old = some t) : ∃ cfg, old.getD { cfg := cfg } = t := by
  unfold carry at h
  split at h
  · cases h
  · split at h
    · cases h
    · split at h
      · exact ⟨_, Option.some.inj h⟩
      · cases h

theorem consistent_step (s : Watched) (a : Action) (h : s.Consistent) : (s.step a).Consistent := by
  intro d ep t ht
  cases a with
  | tick n => exact h d ep t ht
  | respond d' ep' status =>
    by_cases hsame : d = d' ∧ ep = ep'
    · obtain ⟨rfl, rfl⟩ := hsame
      obtain ⟨old, hold, rfl⟩ : ∃ old, s.od.trackers d ep = some old ∧ old.record s.od.now status = t := by
        simpa [step, OutlierDetector.step, recordResponse] using ht
      simpa [step, hold] using (h d ep old hold).record s.od.now status
    · have hold : s.od.trackers d ep = some t := by
        by_cases hd : d = d'
        · subst hd
          have hep : ep ≠ ep' := fun hep => hsame ⟨rfl, hep⟩
          simpa [step, OutlierDetector.step, recordResponse, hep] using ht
        · simpa [step, OutlierDetector.step, recordResponse, hd] using ht
      have hkept : (s.step (.respond d' ep' status)).heard d ep = s.heard d ep ∧
          (s.step (.respond d' ep' status)).ejections d ep = s.ejections d ep := by
        constructor
        · exact if_neg hsame
        · exact if_neg fun hall => hsame ⟨hall.1, hall.2.1⟩
      rw [hkept.1, hkept.2]
      exact h d ep t hold
  | check =>
    obtain ⟨old, hold, rfl⟩ : ∃ old, s.od.trackers d ep = some old ∧ old.check s.od.now = t := by
      simpa [step, OutlierDetector.step, checkEjections] using ht
    simpa [step, hold] using (h d ep old hold).check s.od.now
  | update pools =>
    obtain ⟨cfg, rfl⟩ := carry_eq_some (show carry (pools d) ep (s.od.trackers d ep) = some t from ht)
    cases hold : s.od.trackers d ep with
    | none => simpa [step, hold] using Tracker.records_new cfg
    | some old => simpa [step, hold] using h d ep old hold

/-- An ejection is made by the rule exactly if the options agree about it. -/
theorem ruleKept_respond (s : Watched) (h : s.Consistent) (d ep : String) (status : ℕ) :
    s.RuleKept (.respond d ep status) ↔ s.OptionsAgree (.respond d ep status) := by
  have hafter : (s.step (.respond d ep status)).od.isEjected d ep
      = ((s.od.trackers d ep).any (·.ejects status) || s.od.isEjected d ep) := by
    simpa [step, OutlierDetector.step] using @isEjected_recordResponse s.od d ep status d ep
  simp only [RuleKept, OptionsAgree, hafter]
  cases ht : s.od.trackers d ep with
  | none => simp [isEjected, ht]
  | some t =>
    have hejects := (h d ep t ht).ejects_iff status
    cases hejected : t.ejected with
    | true => simp [isEjected, ht, hejected]
    | false => simp [isEjected, ht, hejected, hejects]

/-- And it is lifted by the rule exactly if the options agree about how long it lasts. -/
theorem ruleKept_check (s : Watched) (h : s.Consistent) : s.RuleKept .check ↔ s.OptionsAgree .check := by
  simp only [RuleKept, OptionsAgree]
  refine forall₂_congr fun d ep => ?_
  cases ht : s.od.trackers d ep with
  | none => simp [isEjected, ht]
  | some t =>
    have hrecords := h d ep t ht
    have hbefore : s.od.isEjected d ep = t.ejected := by simp [isEjected, ht]
    have hafter : (s.step .check).od.isEjected d ep = (t.ejected && !t.expired s.od.now) := by
      simp [step, OutlierDetector.step, checkEjections, isEjected, ht, Tracker.ejected_check]
    rw [hbefore, hafter]
    cases hejected : t.ejected with
    | false => simp [hejected]
    | true =>
      have hduration : t.ejectionDuration
          = wrap64 (t.cfg.baseTime * (s.ejections d ep).length) := by
        rw [← hrecords.ejectionCount]
        rfl
      simp [hejected, Tracker.expired, hduration, hrecords.ejectedAt hejected]

/-- The runs that are by the rule of the options in force. -/
theorem ruleKept_iff (now : ℤ) (run : List Action) :
    Along step RuleKept (new now) run ↔ Along step OptionsAgree (new now) run := by
  have hstart : (new now).Consistent := by
    intro d ep t ht
    cases ht
  have hagree : ∀ (s : Watched) (a : Action), s.Consistent → (s.RuleKept a ↔ s.OptionsAgree a) := by
    intro s a h
    cases a with
    | respond d ep status => exact ruleKept_respond s h d ep status
    | check => exact ruleKept_check s h
    | tick n => exact Iff.rfl
    | update pools => exact Iff.rfl
  constructor
  · intro hkept
    exact hkept.along (fun s a h _ => consistent_step s a h) (fun s a h => (hagree s a h).mp) hstart
  · intro hoptions
    exact hoptions.along (fun s a h _ => consistent_step s a h) (fun s a h => (hagree s a h).mpr) hstart

/-- One endpoint, with options. -/
def onePool (cfg : OutlierDetectionOptions) : String → Option TrackedPool :=
  fun _ => some ⟨some cfg, ["a"]⟩

/-- A single 500 ejects an endpoint, after an update that asks for five in a row. -/
theorem not_ruleKept_onePool :
    ¬ Along step RuleKept (new 0)
      [.update (onePool { consecutive5xx := 1 }), .update (onePool {}), .respond "d" "a" 500] := by
  intro hkept
  obtain ⟨cfg, hcfg, htriggers⟩ := hkept [.update (onePool { consecutive5xx := 1 }), .update (onePool {})]
    (.respond "d" "a" 500) (List.prefix_refl _) (by decide) (by decide)
  obtain rfl : ({} : OutlierDetectionOptions) = cfg := by simpa [options, step, OutlierDetector.step,
    OutlierDetector.update, onePool] using hcfg
  rcases htriggers with h | h
  · exact absurd h (by decide)
  · exact absurd h.1 (by decide)

end Watched

end Vrata.Proxy

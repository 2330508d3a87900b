import Mathlib.Data.Fintype.Basic
import Vrata.Proxy.Circuit

/-!
# The circuit breaker is never stuck

Reference: `server/internal/proxy/circuit.go` and `forwardHandler` of `handler.go`.

When nobody is out and the open time is over, the next call of `Allow` should return true: `Recovers`.
A circuit that is half-open with nothing left to take never leaves this state by itself, since only
the outcome of a request changes it and no request is let through. There are two ways to get there.
The probe is aborted while its response is copied, and no outcome is recorded; or the circuit was
opened after a success had already set the number of failures back to zero, so that a probe that fails
does not open it again.

In the runs that are `Steady` neither happens, and `recovers_of_steady` says that the breaker recovers
in every state of them. The invariant is that in the half-open state there is something to take, or
somebody is under way who will put something there or change the state.
-/

namespace Vrata.Proxy

open Runs

namespace Phase

/-- `Allow` has returned true, and the request is not over. -/
def inFlight : Phase → Bool
  | .admitted _ | .counted _ | .serving _ | .succeeded _ | .closing _ | .failed _ | .opening _
  | .stamping _ | .completing | .completed => true
  | _ => false

/-- `Allow` has returned true, and the outcome is not recorded. -/
def isAwaited : Phase → Bool
  | .admitted _ | .counted _ | .serving _ | .succeeded _ | .failed _ => true
  | _ => false

def isServing : Phase → Bool
  | .serving _ => true
  | _ => false

/-- Neither the budget nor the state depends on what the request does next, apart from `Allow`. -/
def isInert : Phase → Bool
  | .idle | .checking | .swapping | .taking | .countingConnections | .countingRequests
  | .stamping _ | .completing | .completed => true
  | _ => false

theorem of_isAwaited {p : Phase} (h : p.isAwaited = true) :
    p ≠ .granting ∧ p.isClosing = false ∧ p.isOpening = false := by
  cases p <;> simp [isAwaited, isClosing, isOpening] at h ⊢

theorem of_not_inFlight {p : Phase} (h : p.inFlight = false) :
    p.isClosing = false ∧ p.isOpening = false ∧ p.isAwaited = false := by
  cases p <;> simp [inFlight, isAwaited, isClosing, isOpening] at h ⊢

theorem of_isInert {p : Phase} (h : p.isInert = true) :
    p ≠ .granting ∧ p.isClosing = false ∧ p.isOpening = false ∧ p.isAwaited = false := by
  cases p <;> simp [isInert, isAwaited, isClosing, isOpening] at h ⊢

end Phase

namespace Circuit

variable {ι : Type}

/-! ## Recovery and the condition -/

section Statement

variable [DecidableEq ι]

/-- What `Allow` returns to a request while no other request moves, if it needs no more than the given
number of operations. -/
def answer (cfg : BreakerConfig) (t : ι) : ℕ → Circuit ι → Option Bool
  | 0, _ => none
  | n + 1, s =>
    match (s.act cfg t .success).phase t with
    | .idle => some false
    | .admitted _ => some true
    | _ => answer cfg t n (s.act cfg t .success)

/-- Nobody is out, the open time is over, and the limits are not reached. -/
structure Ready (cfg : BreakerConfig) (s : Circuit ι) : Prop where
  nobody : ∀ t, (s.phase t).inFlight = false
  elapsed : cfg.openDuration < s.sinceFailure
  connections : s.activeConnections < cfg.maxConnections
  requests : s.activeRequests < cfg.maxRequests

/-- The next `Allow` returns true. When a request is about to put something into the budget, it is the
next one to get through; otherwise it is any request that asks. -/
def Recovers (cfg : BreakerConfig) (s : Circuit ι) : Prop :=
  s.Ready cfg → ∀ t, s.phase t = .granting ∨ s.phase t = .idle ∧ (∀ t', s.phase t' ≠ .granting) →
    s.answer cfg t 5 = some true

instance [Fintype ι] (cfg : BreakerConfig) (s : Circuit ι) : Decidable (s.Ready cfg) :=
  decidable_of_iff ((∀ t, (s.phase t).inFlight = false) ∧ cfg.openDuration < s.sinceFailure ∧
      s.activeConnections < cfg.maxConnections ∧ s.activeRequests < cfg.maxRequests)
    ⟨fun ⟨hn, he, hc, hr⟩ => ⟨hn, he, hc, hr⟩, fun ⟨hn, he, hc, hr⟩ => ⟨hn, he, hc, hr⟩⟩

instance [Fintype ι] (cfg : BreakerConfig) (s : Circuit ι) : Decidable (s.Recovers cfg) :=
  inferInstanceAs (Decidable (_ → ∀ _ : ι, _ → _))

/-- The probe of a half-open period is not aborted, and when the circuit is opened, the failures that
open it have not been forgotten. -/
def Steady (cfg : BreakerConfig) (s : Circuit ι) : Action ι → Prop
  | .tick _ => True
  | .act t e =>
    ((s.phase t).isServing = true → s.state = .halfOpen → s.probe = some t → e ≠ .abort) ∧
    ((s.phase t).isOpening = true → cfg.failureThreshold ≤ s.consecutiveFailures)

instance (cfg : BreakerConfig) (s : Circuit ι) : (a : Action ι) → Decidable (s.Steady cfg a)
  | .tick _ => isTrue trivial
  | .act _ _ => inferInstanceAs (Decidable (_ ∧ _))

end Statement

/-! ## The invariant -/

/-- The request will put something into the budget or change the state. -/
def Carries (s : Circuit ι) (t : ι) : Prop :=
  s.phase t = .granting ∨ (s.phase t).isClosing = true ∨ (s.phase t).isOpening = true ∨
    s.probe = some t ∧ (s.phase t).isAwaited = true

structure Lively (cfg : BreakerConfig) (s : Circuit ι) : Prop where
  /-- The next failure opens the circuit again, unless it is about to be closed. -/
  failures : s.state ≠ .closed →
    cfg.failureThreshold ≤ s.consecutiveFailures ∨ ∃ t, (s.phase t).isClosing = true
  budget : s.state = .halfOpen → 0 ≤ wrap32 (s.halfOpenAllowed - 1) ∨ ∃ t, s.Carries t

theorem lively_new (cfg : BreakerConfig) (now : ℤ) : Lively cfg (new now : Circuit ι) where
  failures hs := absurd rfl hs
  budget hs := nomatch hs

section Step

variable {cfg : BreakerConfig} {s s' : Circuit ι} {t t' : ι} {p : Phase}

theorem carries_iff_of_isAwaited (h : (s.phase t).isAwaited = true) :
    s.Carries t ↔ s.probe = some t := by
  obtain ⟨hg, hc, ho⟩ := Phase.of_isAwaited h
  simp [Carries, hg, hc, ho, h]

/-- When nobody is out and nobody is about to fill the budget, there is something in it. -/
theorem Lively.left (h : Lively cfg s) (hs : s.state = .halfOpen)
    (hnobody : ∀ t, (s.phase t).inFlight = false) (hnone : ∀ t, s.phase t ≠ .granting) :
    0 ≤ wrap32 (s.halfOpenAllowed - 1) := by
  refine (h.budget hs).resolve_right ?_
  rintro ⟨t, ht⟩
  obtain ⟨hc, ho, ha⟩ := Phase.of_not_inFlight (hnobody t)
  simp [Carries, hnone t, hc, ho, ha] at ht

variable [DecidableEq ι]

/-- Requests other than the one that moves go on carrying. -/
theorem Carries.other (h : s.Carries t') (hne : t' ≠ t)
    (hphase : s'.phase = Function.update s.phase t p)
    (hprobe : s.probe = some t' → s'.probe = some t') : s'.Carries t' := by
  unfold Carries
  rw [hphase, Function.update_of_ne hne]
  rcases h with h | h | h | ⟨hp, h⟩
  · exact Or.inl h
  · exact Or.inr (Or.inl h)
  · exact Or.inr (Or.inr (Or.inl h))
  · exact Or.inr (Or.inr (Or.inr ⟨hprobe hp, h⟩))

/-- Steps that leave the state alone and are not about closing the circuit. -/
theorem Lively.quiet (h : Lively cfg s) (hstate : s'.state = s.state)
    (hfail : s.consecutiveFailures ≤ s'.consecutiveFailures)
    (hallowed : 0 ≤ wrap32 (s.halfOpenAllowed - 1) → 0 ≤ wrap32 (s'.halfOpenAllowed - 1))
    (hphase : s'.phase = Function.update s.phase t p)
    (hprobe : ∀ t' ≠ t, s.probe = some t' → s'.probe = some t')
    (hclosing : (s.phase t).isClosing = false)
    (hcarry : s.state = .halfOpen → s.Carries t → ∃ t', s'.Carries t') : Lively cfg s' := by
  refine ⟨fun hs => ?_, fun hs => ?_⟩
  · rw [hstate] at hs
    rcases h.failures hs with hle | hex
    · exact Or.inl (Int.le_trans hle hfail)
    · rw [hphase]
      exact Or.inr (exists_update (P := (·.isClosing = true)) (by simp [hclosing]) hex)
  · rw [hstate] at hs
    rcases h.budget hs with hleft | ⟨t', ht'⟩
    · exact Or.inl (hallowed hleft)
    · right
      by_cases hne : t' = t
      · subst hne
        exact hcarry hs ht'
      · exact ⟨t', ht'.other hne hphase (hprobe t' hne)⟩

/-- Steps of requests that carry nothing. -/
theorem Lively.inert (h : Lively cfg s) (hstate : s'.state = s.state)
    (hfail : s'.consecutiveFailures = s.consecutiveFailures)
    (hallowed : 0 ≤ wrap32 (s.halfOpenAllowed - 1) → 0 ≤ wrap32 (s'.halfOpenAllowed - 1))
    (hphase : s'.phase = Function.update s.phase t p)
    (hprobe : ∀ t' ≠ t, s.probe = some t' → s'.probe = some t')
    (hinert : (s.phase t).isInert = true) : Lively cfg s' := by
  obtain ⟨hg, hc, ho, ha⟩ := Phase.of_isInert hinert
  refine h.quiet hstate (Int.le_of_eq hfail.symm) hallowed hphase hprobe hc fun _ ht => ?_
  simp [Carries, hg, hc, ho, ha] at ht

/-- Steps of requests whose outcome is still awaited after them. -/
theorem Lively.awaited (h : Lively cfg s) (hstate : s'.state = s.state)
    (hfail : s'.consecutiveFailures = s.consecutiveFailures)
    (hallowed : s'.halfOpenAllowed = s.halfOpenAllowed)
    (hphase : s'.phase = Function.update s.phase t p) (hprobe : s'.probe = s.probe)
    (hfrom : (s.phase t).isAwaited = true) (hto : p.isAwaited = true) : Lively cfg s' := by
  refine h.quiet hstate (Int.le_of_eq hfail.symm) (by rw [hallowed]; exact id) hphase
    (fun _ _ => by rw [hprobe]; exact id) (Phase.of_isAwaited hfrom).2.1 fun _ ht => ⟨t, ?_⟩
  refine Or.inr (Or.inr (Or.inr ⟨hprobe.trans ((carries_iff_of_isAwaited hfrom).mp ht), ?_⟩))
  rwa [hphase, Function.update_self]

theorem probe_recorded (t' : ι) (hne : t' ≠ t) (h : s.probe = some t') :
    s.recorded t = some t' := by
  unfold recorded
  rw [if_neg]
  · exact h
  · rw [h, Option.some_inj]
    exact hne

/-- The conclusion of `Lively.failures` after a step of a request that was not closing. -/
theorem Lively.failures_goto (h : Lively cfg s) (hs : s.state ≠ .closed)
    (hclosing : (s.phase t).isClosing = false) :
    cfg.failureThreshold ≤ s.consecutiveFailures ∨
      ∃ t', ((s.goto t p).phase t').isClosing = true :=
  (h.failures hs).imp_right
    (exists_update (P := (·.isClosing = true)) (by rw [hclosing]; exact Bool.false_ne_true))

/-- An outcome that leaves the number of failures below the threshold. If the request is the probe of
a half-open period, then somebody else is about to close the circuit. -/
theorem Lively.below (h : Lively cfg s) {b : Bool} (ht : s.phase t = .failed b)
    (hbelow : ¬cfg.failureThreshold ≤ s.consecutiveFailures + 1) :
    Lively cfg { s.goto t .completing with
      consecutiveFailures := s.consecutiveFailures + 1
      probe := s.recorded t } := by
  refine h.quiet rfl ?_ id rfl (fun _ => probe_recorded _) (by rw [ht]; rfl) fun hs _ => ?_
  · show s.consecutiveFailures ≤ s.consecutiveFailures + 1
    omega
  · rcases h.failures (by rw [hs]; decide) with hle | ⟨t', ht'⟩
    · omega
    · refine ⟨t', Carries.other (Or.inr (Or.inl ht')) ?_ rfl (probe_recorded _ ?_)⟩ <;>
        · rintro rfl
          rw [ht] at ht'
          cases ht'

theorem Lively.act (h : Lively cfg s) {e : Ending} (hsteady : s.Steady cfg (.act t e)) :
    Lively cfg (s.act cfg t e) := by
  obtain ⟨habort, hopen⟩ := hsteady
  unfold Circuit.act
  cases ht : s.phase t with
  | idle => cases s.state <;> exact h.inert rfl rfl id rfl (fun _ _ => id) (by rw [ht]; rfl)
  | checking =>
    dsimp only
    split <;> exact h.inert rfl rfl id rfl (fun _ _ => id) (by rw [ht]; rfl)
  | swapping =>
    dsimp only
    split
    · rename_i hs
      refine ⟨fun _ => ?_, fun _ => Or.inr ⟨t, Or.inl (Function.update_self ..)⟩⟩
      exact h.failures_goto (by rw [hs]; decide) (by rw [ht]; rfl)
    · exact h.inert rfl rfl id rfl (fun _ _ => id) (by rw [ht]; rfl)
  | granting =>
    exact ⟨fun hs => h.failures_goto hs (by rw [ht]; rfl),
      fun _ => Or.inl (show 0 ≤ wrap32 (1 - 1) by decide)⟩
  | taking =>
    dsimp only
    split
    · refine ⟨fun hs => h.failures_goto hs (by rw [ht]; rfl), fun hs => Or.inr ⟨t, ?_⟩⟩
      refine Or.inr (Or.inr (Or.inr ⟨if_pos hs, ?_⟩))
      show (Function.update s.phase t _ t).isAwaited = true
      rw [Function.update_self]
      rfl
    · rename_i hneg
      exact h.inert rfl rfl (fun hpos => absurd hpos hneg) rfl (fun _ _ => id) (by rw [ht]; rfl)
  | countingConnections | countingRequests =>
    dsimp only
    split <;> exact h.inert rfl rfl id rfl (fun _ _ => id) (by rw [ht]; rfl)
  | admitted p | counted p => exact h.awaited rfl rfl rfl rfl rfl (by rw [ht]; rfl) rfl
  | serving p =>
    cases e with
    | success | failure => exact h.awaited rfl rfl rfl rfl rfl (by rw [ht]; rfl) rfl
    | abort =>
      refine h.quiet rfl (Int.le_refl _) id rfl (fun _ _ => id) (by rw [ht]; rfl) fun hs hc => ?_
      rw [carries_iff_of_isAwaited (by rw [ht]; rfl)] at hc
      exact absurd rfl (habort (by rw [ht]; rfl) hs hc)
  | succeeded p =>
    have hclosing : ((s.goto t (.closing p)).phase t).isClosing = true := by
      rw [phase_goto, Function.update_self]
      rfl
    exact ⟨fun _ => Or.inr ⟨t, hclosing⟩, fun _ => Or.inr ⟨t, Or.inr (Or.inl hclosing)⟩⟩
  | closing p => exact ⟨fun hs => absurd rfl hs, nofun⟩
  | failed p =>
    dsimp only
    split
    · refine h.quiet rfl ?_ id rfl (fun _ _ => id) (by rw [ht]; rfl) fun _ _ => ⟨t, ?_⟩
      · show s.consecutiveFailures ≤ s.consecutiveFailures + 1
        omega
      · refine Or.inr (Or.inr (Or.inl ?_))
        show (Function.update s.phase t _ t).isOpening = true
        rw [Function.update_self]
        rfl
    · exact h.below ht ‹_›
  | opening p => exact ⟨fun _ => Or.inl (hopen (by rw [ht]; rfl)), nofun⟩
  | stamping p => exact h.inert rfl rfl id rfl (fun _ => probe_recorded _) (by rw [ht]; rfl)
  | completing => exact h.inert rfl rfl id rfl (fun _ _ => id) (by rw [ht]; rfl)
  | completed => exact h.inert rfl rfl id rfl (fun _ _ => id) (by rw [ht]; rfl)

theorem Lively.step (h : Lively cfg s) {a : Action ι} (hsteady : s.Steady cfg a) :
    Lively cfg (s.step cfg a) := by
  cases a with
  | tick d => exact ⟨h.failures, h.budget⟩
  | act t e => exact h.act hsteady

/-! ## The next call of `Allow` -/

/-- Taking from a budget that has something left. -/
theorem answer_taking (ht : s.phase t = .taking) (hleft : 0 ≤ wrap32 (s.halfOpenAllowed - 1))
    (n : ℕ) : s.answer cfg t (n + 1) = some true := by
  simp [answer, Circuit.act, ht, hleft]

/-- An operation after which the request is still asking. -/
theorem answer_of_act (hact : s.act cfg t .success = s') (hp : s'.phase t = p) (hidle : p ≠ .idle)
    (hadmitted : ∀ b, p ≠ .admitted b) (n : ℕ) : s.answer cfg t (n + 1) = s'.answer cfg t n := by
  rw [answer, hact, hp]
  split
  · exact absurd rfl hidle
  · exact absurd rfl (hadmitted _)
  · rfl

theorem answer_granting (ht : s.phase t = .granting) (n : ℕ) :
    s.answer cfg t (n + 2) = some true := by
  have hact : s.act cfg t .success = { s.goto t .taking with halfOpenAllowed := 1 } := by
    simp [Circuit.act, ht]
  have hleft : 0 ≤ wrap32 (1 - 1) := by decide
  have hp : ({ s.goto t .taking with halfOpenAllowed := 1 } : Circuit ι).phase t = .taking :=
    Function.update_self ..
  rw [answer_of_act hact hp (by simp) (by simp), answer_taking hp hleft]

/-- When the open time is over, a request makes the circuit half-open and takes what it puts there. -/
theorem answer_opened (ht : s.phase t = .idle) (hs : s.state = .opened)
    (helapsed : cfg.openDuration < s.sinceFailure) : s.answer cfg t 5 = some true := by
  have hcheck : s.act cfg t .success = s.goto t .checking := by
    simp [Circuit.act, ht, hs]
  have hchecking : (s.goto t .checking).phase t = .checking := Function.update_self ..
  have hswap : (s.goto t .checking).act cfg t .success = (s.goto t .checking).goto t .swapping := by
    have helapsed' : cfg.openDuration < (s.goto t .checking).sinceFailure := helapsed
    simp [Circuit.act, hchecking, helapsed']
  have hswapping : ((s.goto t .checking).goto t .swapping).phase t = .swapping := Function.update_self ..
  have hgrant : ((s.goto t .checking).goto t .swapping).act cfg t .success =
      { ((s.goto t .checking).goto t .swapping).goto t .granting with
        state := .halfOpen
        probe := none } := by
    have hs' : ((s.goto t .checking).goto t .swapping).state = .opened := hs
    simp [Circuit.act, hswapping, hs']
  rw [answer_of_act hcheck hchecking (by simp) (by simp), answer_of_act hswap hswapping (by simp) (by simp),
    answer_of_act hgrant (Function.update_self ..) (by simp) (by simp)]
  exact answer_granting (Function.update_self ..) 0

theorem Lively.recovers (h : Lively cfg s) : s.Recovers cfg := by
  rintro ⟨hnobody, helapsed, hconn, hreq⟩ t (ht | ⟨ht, hnone⟩)
  · exact answer_granting ht 3
  · cases hs : s.state with
    | closed =>
      simp [answer, Circuit.act, ht, hs, goto, Int.not_le.mpr hconn, Int.not_le.mpr hreq]
    | opened => exact answer_opened ht hs helapsed
    | halfOpen =>
      have htake : s.act cfg t .success = s.goto t .taking := by simp [Circuit.act, ht, hs]
      have ht' : (s.goto t .taking).phase t = .taking := Function.update_self ..
      rw [answer_of_act htake ht' (by simp) (by simp)]
      exact answer_taking ht' (h.left hs hnobody hnone) 3

end Step

/-! ## Runs -/

/-- In every state of a run in which no probe is aborted and no success comes between the last failure
and the opening of the circuit, the breaker is not stuck. -/
theorem recovers_of_steady [DecidableEq ι] (cfg : BreakerConfig) (now : ℤ) (run : List (Action ι))
    (h : Along (Circuit.step cfg) (Steady cfg) (new now) run) :
    Always (Circuit.step cfg) (Recovers cfg) (new now) run :=
  (h.always (fun _ _ hl hsteady => hl.step hsteady) (lively_new cfg now)).mono
    fun _ hl => hl.recovers

/-- The circuit opens, the probe fails, and the circuit opens again. -/
theorem recovers_after_failed_probe :
    Always (Circuit.step (newCircuitBreaker 0 0 1 none)) (Recovers (newCircuitBreaker 0 0 1 none))
      (new 0 : Circuit (Fin 2))
      (acts 0 .failure 11 ++ [.tick 30000000001] ++ acts 1 .failure 13 ++ [.tick 30000000001]) :=
  recovers_of_steady _ _ _ (by decide +kernel)

/-- A probe that is aborted leaves the circuit half-open with nothing to take. So does a probe that
fails, if a success had been recorded while the circuit was being opened. -/
theorem breaker_stuck :
    ¬Always (Circuit.step (newCircuitBreaker 0 0 1 none)) (Recovers (newCircuitBreaker 0 0 1 none))
      (new 0 : Circuit (Fin 2))
      (acts 0 .failure 11 ++ [.tick 30000000001] ++ acts 1 .abort 10 ++ [.tick 30000000001]) ∧
    ¬Always (Circuit.step (newCircuitBreaker 0 0 2 none)) (Recovers (newCircuitBreaker 0 0 2 none))
      (new 0 : Circuit (Fin 2))
      (acts 0 .failure 9 ++ acts 0 .failure 7 ++ acts 1 .success 10 ++ acts 0 .failure 4 ++
        [.tick 30000000001] ++ acts 0 .failure 11 ++ [.tick 30000000001]) :=
  ⟨fun h => absurd (h _ List.prefix_rfl) (by decide +kernel),
    fun h => absurd (h _ List.prefix_rfl) (by decide +kernel)⟩

end Circuit

end Vrata.Proxy

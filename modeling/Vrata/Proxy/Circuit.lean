import Mathlib.Logic.Function.Basic
import Vrata.Lib.Runs

/-!
# The circuit breaker

Reference: `server/internal/proxy/circuit.go`, with `forwardHandler` and `recordEndpointResult` of
`handler.go`.

The fields of a breaker are separate atomic variables; only the time of the last failure is read and
written under a lock. Requests run concurrently, so the model takes one atomic operation or one lock
section at a time: `Phase` is where a request is between two of them, and `act` is the next operation
of a request. A request goes through `Allow`, is counted, is served, and records how it went; a handler
that panics while it copies the response (`http.ErrAbortHandler`) is only taken off the counts again,
by the deferred `OnComplete`.

Requests are numbered by `ι`; a number is free again when its request is over. The last two fields of
`Circuit` are not part of the program. They keep when the circuit was opened last and which request
was let through in the half-open period, until its outcome is recorded.

The 64-bit counters are integers. The 32-bit budget of the half-open state is not: requests that are
turned away go on counting it down, and it wraps around.
-/

namespace Vrata.Proxy

inductive CircuitState where
  | closed | opened | halfOpen
deriving DecidableEq, Repr

/-- The fields of a breaker that do not change. Durations are in nanoseconds. -/
structure BreakerConfig where
  maxConnections : ℤ
  maxRequests : ℤ
  failureThreshold : ℤ
  openDuration : ℤ
deriving DecidableEq, Repr

/-- `NewCircuitBreaker`. The duration is given as `time.ParseDuration` reads it. -/
def newCircuitBreaker (maxConn maxReq failThreshold : UInt32) (openDur : Option ℤ) :
    BreakerConfig where
  maxConnections := if maxConn = 0 then 1024 else maxConn.toNat
  maxRequests := if maxReq = 0 then 1024 else maxReq.toNat
  failureThreshold := if failThreshold = 0 then 5 else failThreshold.toNat
  openDuration := openDur.getD 30000000000

/-- Where a request is. An admitted request knows whether it is the probe of a half-open period. -/
inductive Phase where
  /-- There is no request, or it has been turned away. -/
  | idle
  /-- `Allow` has read that the circuit is open. -/
  | checking
  /-- `Allow` has found that the open time is over. -/
  | swapping
  /-- `Allow` has made the circuit half-open. -/
  | granting
  /-- `Allow` is about to take from the budget. -/
  | taking
  /-- `Allow` has read that the circuit is closed. -/
  | countingConnections
  | countingRequests
  /-- `Allow` has returned true. -/
  | admitted (probe : Bool)
  | counted (probe : Bool)
  | serving (probe : Bool)
  /-- `RecordSuccess` has been called. -/
  | succeeded (probe : Bool)
  | closing (probe : Bool)
  /-- `RecordFailure` has been called. -/
  | failed (probe : Bool)
  | opening (probe : Bool)
  | stamping (probe : Bool)
  /-- The deferred `OnComplete`. -/
  | completing
  | completed
deriving DecidableEq, Repr

/-! ## Kinds of phases -/

namespace Phase

/-- In the middle of `Allow`. -/
def inAllow : Phase → Bool
  | .checking | .swapping | .granting | .taking | .countingConnections | .countingRequests => true
  | _ => false

/-- `Allow` has read that the circuit is closed. -/
def isCounting : Phase → Bool
  | .countingConnections | .countingRequests => true
  | _ => false

def isClosing : Phase → Bool
  | .closing _ => true
  | _ => false

def isOpening : Phase → Bool
  | .opening _ => true
  | _ => false

/-- The circuit has been opened, and the time has not been noted yet. -/
def isStamping : Phase → Bool
  | .stamping _ => true
  | _ => false

theorem inAllow_of_isCounting {p : Phase} (h : p.isCounting = true) : p.inAllow = true := by
  cases p <;> first | rfl | cases h

end Phase

/-- How a request ends. -/
inductive Ending where
  | success | failure | abort
deriving DecidableEq, Repr

structure Circuit (ι : Type) where
  state : CircuitState
  consecutiveFailures : ℤ
  halfOpenAllowed : ℤ
  /-- The zero time is `none`. -/
  lastFailure : Option ℤ
  activeRequests : ℤ
  activeConnections : ℤ
  now : ℤ
  phase : ι → Phase
  /-- When the circuit was opened last. -/
  openedAt : Option ℤ
  /-- The request that took the budget of this half-open period, until its outcome is recorded. -/
  probe : Option ι

/-- The value of a 32-bit signed integer. -/
def wrap32 (n : ℤ) : ℤ := (n + 2147483648) % 4294967296 - 2147483648

namespace Circuit

variable {ι : Type} [DecidableEq ι]

/-- A breaker that has just been made. -/
def new (now : ℤ) : Circuit ι where
  state := .closed
  consecutiveFailures := 0
  halfOpenAllowed := 0
  lastFailure := none
  activeRequests := 0
  activeConnections := 0
  now := now
  phase _ := .idle
  openedAt := none
  probe := none

/-- `time.Since(lastFailure)`; for the zero time this is the longest duration there is. -/
def sinceFailure (s : Circuit ι) : ℤ :=
  match s.lastFailure with
  | none => 9223372036854775807
  | some t => s.now - t

def goto (s : Circuit ι) (t : ι) (p : Phase) : Circuit ι :=
  { s with phase := Function.update s.phase t p }

/-- The outcome of the probe has been recorded. -/
def recorded (s : Circuit ι) (t : ι) : Option ι := if s.probe = some t then none else s.probe

/-- The next atomic operation of a request. -/
def act (cfg : BreakerConfig) (s : Circuit ι) (t : ι) (e : Ending) : Circuit ι :=
  match s.phase t with
  -- Allow
  | .idle =>
    match s.state with
    | .opened => s.goto t .checking
    | .halfOpen => s.goto t .taking
    | .closed => s.goto t .countingConnections
  | .checking =>
    if cfg.openDuration < s.sinceFailure then s.goto t .swapping else s.goto t .idle
  | .swapping =>
    if s.state = .opened then { s.goto t .granting with state := .halfOpen, probe := none }
    else s.goto t .taking
  | .granting => { s.goto t .taking with halfOpenAllowed := 1 }
  | .taking =>
    let left := wrap32 (s.halfOpenAllowed - 1)
    if 0 ≤ left then
      { s.goto t (.admitted (s.state = .halfOpen)) with
        halfOpenAllowed := left
        probe := if s.state = .halfOpen then some t else s.probe }
    else { s.goto t .idle with halfOpenAllowed := left }
  | .countingConnections =>
    if cfg.maxConnections ≤ s.activeConnections then s.goto t .idle
    else s.goto t .countingRequests
  | .countingRequests =>
    if cfg.maxRequests ≤ s.activeRequests then s.goto t .idle else s.goto t (.admitted false)
  -- OnRequest, and serving the request
  | .admitted p => { s.goto t (.counted p) with activeRequests := s.activeRequests + 1 }
  | .counted p => { s.goto t (.serving p) with activeConnections := s.activeConnections + 1 }
  | .serving p =>
    match e with
    | .success => s.goto t (.succeeded p)
    | .failure => s.goto t (.failed p)
    | .abort => s.goto t .completing
  -- RecordSuccess
  | .succeeded p => { s.goto t (.closing p) with consecutiveFailures := 0 }
  | .closing _ => { s.goto t .completing with state := .closed, probe := s.recorded t }
  -- RecordFailure
  | .failed p =>
    let failures := s.consecutiveFailures + 1
    if cfg.failureThreshold ≤ failures then
      { s.goto t (.opening p) with consecutiveFailures := failures }
    else { s.goto t .completing with consecutiveFailures := failures, probe := s.recorded t }
  | .opening p =>
    { s.goto t (.stamping p) with
      state := .opened
      openedAt := if s.state = .opened then s.openedAt else some s.now }
  | .stamping _ =>
    { s.goto t .completing with lastFailure := some s.now, probe := s.recorded t }
  -- OnComplete
  | .completing => { s.goto t .completed with activeRequests := s.activeRequests - 1 }
  | .completed => { s.goto t .idle with activeConnections := s.activeConnections - 1 }

/-- Time passes, or a request takes its next operation. -/
inductive Action (ι : Type) where
  | tick (d : ℕ)
  | act (t : ι) (e : Ending)
deriving DecidableEq, Repr

def step (cfg : BreakerConfig) (s : Circuit ι) : Action ι → Circuit ι
  | .tick d => { s with now := s.now + d }
  | .act t e => s.act cfg t e

@[simp] theorem phase_goto (s : Circuit ι) (t : ι) (p : Phase) :
    (s.goto t p).phase = Function.update s.phase t p := rfl

/-! ## Small facts -/

/-- A request after a step, one case for the request that has taken it and one for the others. -/
theorem phase_update {s : Circuit ι} {t t' : ι} {p : Phase} {P : Phase → Prop}
    (h : P (Function.update s.phase t p t')) : P p ∨ t' ≠ t ∧ P (s.phase t') := by
  by_cases ht : t' = t
  · subst ht
    rw [Function.update_self] at h
    exact Or.inl h
  · rw [Function.update_of_ne ht] at h
    exact Or.inr ⟨ht, h⟩

/-- A request that is elsewhere is where it was. -/
theorem exists_update {s : Circuit ι} {t : ι} {p : Phase} {P : Phase → Prop}
    (ht : ¬P (s.phase t)) (h : ∃ t', P (s.phase t')) : ∃ t', P (Function.update s.phase t p t') := by
  obtain ⟨t', ht'⟩ := h
  refine ⟨t', ?_⟩
  rwa [Function.update_of_ne]
  rintro rfl
  exact ht ht'

theorem recorded_cases (s : Circuit ι) (t : ι) : s.recorded t = none ∨ s.recorded t = s.probe := by
  unfold recorded
  split
  · exact Or.inl rfl
  · exact Or.inr rfl

/-- A request takes some operations in a row. -/
def acts (t : ι) (e : Ending) (n : ℕ) : List (Action ι) := List.replicate n (.act t e)

end Circuit

end Vrata.Proxy

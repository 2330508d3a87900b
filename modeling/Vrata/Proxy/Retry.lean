import Mathlib.Algebra.Group.Int.Defs
import Mathlib.Data.Rat.Defs
import Vrata.Lib.Runs

/-!
# The retry transport

Reference: `server/internal/proxy/retry.go`, and the choice of the retry policy in `forwardHandler`
of `handler.go`.

An attempt is made again if it ends in a transport error or in a status the policy names, as long as
there are attempts left. In between the transport sleeps for a time that doubles with every attempt, up
to a maximum, half of it at random. The doubling is done in 64 bits and wraps around, and the random
half is asked for with `rand.Int63n`, which panics unless its argument is positive.

Durations are in nanoseconds, as `time.ParseDuration` reads them; one that is absent or cannot be read
is `none`. What an attempt comes to is an input of the model, so `perAttemptTimeout` is left out: it
only makes some attempts fail, and cuts the bodies of responses short (`Vrata.Proxy.Retry.Timeouts`).
-/

namespace Vrata.Proxy

/-- `RetryCondition`. An unknown one matches nothing, as the one for connection failures does. -/
inductive RetryCondition where
  | serverError | connectionFailure | gatewayError | retriableCodes | unknown
deriving DecidableEq, Repr

structure RouteRetry where
  attempts : UInt32
  on : List RetryCondition := []
  retriableCodes : List UInt32 := []
  backoffBase : Option ℤ := none
  backoffMax : Option ℤ := none
deriving DecidableEq, Repr

/-- The policy in force: the one of the route, or else the default of its group. A policy without
attempts is none. -/
def effectiveRetry (route groupDefault : Option RouteRetry) : Option RouteRetry :=
  match route with
  | some r => if r.attempts = 0 then none else some r
  | none =>
    match groupDefault with
    | some r => if r.attempts = 0 then none else some r
    | none => none

def shouldRetry (status : ℕ) (retry : RouteRetry) : Bool :=
  if retry.on = [] then 500 ≤ status
  else retry.on.any fun
    | .serverError => 500 ≤ status
    | .gatewayError => status = 502 || status = 503 || status = 504
    | .retriableCodes => retry.retriableCodes.any fun code => UInt32.ofNat status = code
    | .connectionFailure | .unknown => false

/-- Whether another attempt follows the given one, which has ended with a status or, for `none`, in a
transport error. -/
def RouteRetry.again (retry : RouteRetry) (attempt : ℕ) (status : Option ℕ) : Bool :=
  attempt < retry.attempts.toNat &&
    match status with
    | none => true
    | some status => shouldRetry status retry

theorem RouteRetry.lt_of_again {retry : RouteRetry} {attempt : ℕ} {status : Option ℕ}
    (h : retry.again attempt status = true) : attempt < retry.attempts.toNat := by
  simp only [again, Bool.and_eq_true, decide_eq_true_eq] at h
  exact h.1

/-- The value of a 64-bit signed integer. -/
def wrap64 (n : ℤ) : ℤ :=
  (n + 9223372036854775808) % 18446744073709551616 - 9223372036854775808

/-- The number without its fraction. -/
def truncate (q : ℚ) : ℤ := if 0 ≤ q then q.floor else -(-q).floor

/-- The number as an `int64`; one that does not fit is the smallest, as on amd64. -/
def toInt64 (q : ℚ) : ℤ :=
  if -9223372036854775808 ≤ truncate q ∧ truncate q < 9223372036854775808 then truncate q
  else -9223372036854775808

/-- The time to sleep after an attempt, before the random half is chosen. -/
def RouteRetry.backoff (retry : RouteRetry) (attempt : ℕ) : ℤ :=
  let base := retry.backoffBase.getD 100000000
  let max := retry.backoffMax.getD 1000000000
  let backoff := wrap64 (base * 2 ^ attempt)
  if max < backoff then max else backoff

/-- `calcBackoff`, with the answer of `rand.Int63n`; it panics if half of the time is not positive. -/
def RouteRetry.calcBackoff (retry : RouteRetry) (int63n : ℤ → ℤ) (attempt : ℕ) : Option ℤ :=
  let half := (retry.backoff attempt).tdiv 2
  if half ≤ 0 then none else some (half + int63n half)

theorem tdiv_two_nonpos_iff (n : ℤ) : n.tdiv 2 ≤ 0 ↔ n < 2 := by
  by_cases hn : 0 ≤ n
  · rw [Int.tdiv_eq_ediv_of_nonneg hn]
    omega
  · have hneg : (-n).tdiv 2 = -n / 2 := Int.tdiv_eq_ediv_of_nonneg (by omega)
    rw [Int.neg_tdiv] at hneg
    omega

/-- There is no panic exactly if there are two nanoseconds to sleep. -/
theorem RouteRetry.calcBackoff_isSome_iff {retry : RouteRetry} (int63n : ℤ → ℤ) {attempt : ℕ} :
    (retry.calcBackoff int63n attempt).isSome = true ↔ 2 ≤ retry.backoff attempt := by
  have hhalf := tdiv_two_nonpos_iff (retry.backoff attempt)
  unfold calcBackoff
  dsimp only
  split
  · rename_i hle
    simp only [Option.isSome_none, Bool.false_eq_true, false_iff]
    omega
  · rename_i hle
    simp only [Option.isSome_some, true_iff]
    omega

/-- Where `rand.Int63n` answers as it should, every sleep lies between zero and the maximum exactly if
there are two nanoseconds to sleep each time. -/
theorem RouteRetry.calcBackoff_bounded_iff (retry : RouteRetry) (int63n : ℤ → ℤ)
    (hrand : ∀ n > 0, 0 ≤ int63n n ∧ int63n n < n) :
    (∀ attempt < retry.attempts.toNat, ∃ d, retry.calcBackoff int63n attempt = some d ∧ 0 ≤ d ∧
        d ≤ retry.backoffMax.getD 1000000000) ↔
      ∀ attempt < retry.attempts.toNat, 2 ≤ retry.backoff attempt := by
  refine forall₂_congr fun attempt _ => ?_
  rw [← calcBackoff_isSome_iff int63n, Option.isSome_iff_exists]
  refine ⟨fun ⟨d, hd, _⟩ => ⟨d, hd⟩, fun ⟨d, hd⟩ => ⟨d, hd, ?_⟩⟩
  have hmax : retry.backoff attempt ≤ retry.backoffMax.getD 1000000000 := by
    unfold backoff
    dsimp only
    split <;> omega
  unfold calcBackoff at hd
  dsimp only at hd
  split at hd
  · cases hd
  · rename_i hhalf
    obtain rfl := Option.some.inj hd
    obtain ⟨hnonneg, hlt⟩ := hrand _ (Int.not_le.mp hhalf)
    have hpos : 0 ≤ retry.backoff attempt := by
      have htwo := (tdiv_two_nonpos_iff (retry.backoff attempt)).not.mp hhalf
      omega
    have hdiv := Int.tdiv_eq_ediv_of_nonneg (b := 2) hpos
    omega

theorem calcBackoff_bounded_defaults : ∃ d,
    (⟨3, [], [], none, none⟩ : RouteRetry).calcBackoff (fun _ => 0) 2 = some d ∧ 0 ≤ d ∧
      d ≤ 1000000000 :=
  (RouteRetry.calcBackoff_bounded_iff ⟨3, [], [], none, none⟩ (fun _ => 0) (by simp)).mpr (by decide) 2
    (by decide)

/-- With the default durations, the sleep after the 38th attempt is a negative number. -/
theorem calcBackoff_panics :
    (⟨38, [], [], none, none⟩ : RouteRetry).calcBackoff (fun _ => 0) 37 = none := by
  rfl

end Vrata.Proxy

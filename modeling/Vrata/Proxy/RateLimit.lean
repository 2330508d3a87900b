import Mathlib.Data.Rat.Floor
import Mathlib.Tactic.Linarith
import Mathlib.Tactic.Positivity
import Vrata.Proxy.Retry

/-!
# The rate limiter

Reference: `server/internal/proxy/middlewares/ratelimit.go`.

Every client has a bucket of tokens that fills up with time. A request takes a token, and is turned
away if there is not a whole one. Clients that have not been seen for long are forgotten.

The numbers that are floating-point in the program are rationals here, and nothing is rounded. Times
are in nanoseconds.
-/

namespace Vrata.Proxy

/-- The limiter without its buckets. -/
structure RateLimit where
  rps : ℚ
  burst : ℤ
  rps_pos : 0 < rps

theorem toInt64_of_nonneg {x : ℚ} (h : 0 ≤ x) :
    toInt64 x = if ⌊x⌋ < 9223372036854775808 then ⌊x⌋ else -9223372036854775808 := by
  have hfloor : truncate x = ⌊x⌋ := if_pos h
  have hnonneg := Int.floor_nonneg.mpr h
  simp only [toInt64, hfloor]
  split_ifs <;> omega

/-- `newTokenBucketLimiter`. -/
def newTokenBucketLimiter (rps : ℚ) (burst : ℤ) : RateLimit where
  rps := if rps ≤ 0 then 10 else rps
  burst := if burst ≤ 0 then toInt64 (if rps ≤ 0 then 10 else rps) else burst
  rps_pos := by
    split
    · norm_num
    · linarith

structure Bucket where
  tokens : ℚ
  lastTime : ℤ
deriving DecidableEq, Repr

namespace RateLimit

variable (l : RateLimit)

/-- The tokens in the bucket of a client; the bucket is made if there is none. -/
def level (b : Option Bucket) (now : ℤ) : ℚ :=
  let b := b.getD ⟨l.burst, now⟩
  let elapsed : ℚ := (now - b.lastTime) / 1000000000
  let tokens := b.tokens + elapsed * l.rps
  if l.burst < tokens then l.burst else tokens

/-- `Allow`, for the bucket of the client. -/
def allow (b : Option Bucket) (now : ℤ) : Bool × Bucket :=
  let tokens := l.level b now
  if tokens < 1 then (false, ⟨tokens, now⟩) else (true, ⟨tokens - 1, now⟩)

/-- The tokens that a bucket can hold. The burst is negative if it is a rate that does not fit. -/
def capacity : ℤ := max 0 l.burst

/-- The time in which an empty bucket fills up. -/
def refill : ℚ := 1000000000 * (l.burst : ℚ) / l.rps

def evictAfter : ℤ := wrap64 (toInt64 l.refill * 2)

/-- `evictStale`, for one bucket. -/
def evictStale (b : Option Bucket) (now : ℤ) : Option Bucket :=
  b.filter fun b => now - b.lastTime ≤ l.evictAfter

theorem level_none (now : ℤ) : l.level none now = l.burst := by simp [level]

variable {l}

/-- A full bucket stays full. -/
theorem level_eq_burst_mono {b : Option Bucket} {now now' : ℤ} (h : l.level b now = l.burst)
    (hle : now ≤ now') : l.level b now' = l.burst := by
  cases b with
  | none => exact l.level_none now'
  | some b =>
    have hgain : (0 : ℚ) ≤ (now' - now) / 1000000000 * l.rps := by
      have hlt : (now : ℚ) ≤ now' := Int.cast_le.mpr hle
      have hrps := l.rps_pos
      have hdiff : (0 : ℚ) ≤ now' - now := by linarith
      positivity
    have hsplit : ((now' : ℚ) - b.lastTime) / 1000000000 * l.rps =
        (now - b.lastTime) / 1000000000 * l.rps + (now' - now) / 1000000000 * l.rps := by ring
    simp only [level, Option.getD_some] at h ⊢
    split
    · rfl
    · rename_i hlow
      split at h <;> linarith

end RateLimit

end Vrata.Proxy

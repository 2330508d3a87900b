import Vrata.Proxy.Retry.Policy

/-!
# A timeout for each attempt

Reference: `newRetryTransport` and `RoundTrip` of `server/internal/proxy/retry.go`.

With a timeout for each attempt, every attempt has a context of its own, and `cancel` is called as soon as
the inner transport has returned. The body of the response is only read after `RoundTrip` has returned it,
and belongs to the context that was cancelled: `net/http` gives out what it has buffered by then, and ends the
reading with an error where the rest would follow.

The context of the request itself is not cancelled.
-/

namespace Vrata.Proxy

/-- A retry policy with the timeout of an attempt in nanoseconds, if it can be read. -/
structure TimedRetry extends RouteRetry where
  perAttemptTimeout : Option ℤ := none

/-- The timeout in force: without attempts there is no retry transport. -/
def TimedRetry.timeout (retry : TimedRetry) : ℤ :=
  if retry.attempts = 0 then 0 else retry.perAttemptTimeout.getD 0

/-- The body that an upstream sends: what has come in when the inner transport returns, and what is still to
come, or `none` if the end has come in too. -/
structure SentBody where
  buffered : List UInt8
  late : Option (List UInt8)
deriving DecidableEq, Repr

def SentBody.bytes (body : SentBody) : List UInt8 := body.buffered ++ body.late.getD []

/-- The body of a response, and whether the context it belongs to is cancelled. -/
structure ResponseBody extends SentBody where
  cancelled : Bool
deriving DecidableEq, Repr

/-- What a reader gets, and whether it comes to the end. -/
def ResponseBody.read (body : ResponseBody) : List UInt8 × Bool :=
  match body.late with
  | none => (body.buffered, true)
  | some rest => if body.cancelled then (body.buffered, false) else (body.buffered ++ rest, true)

/-- How an attempt, or `RoundTrip` as a whole, ends. -/
inductive TimedEnd where
  | response (status : FinalStatus) (body : ResponseBody)
  | error (err : TransportError)
  | panicked
deriving DecidableEq

/-- What the upstream does in an attempt: when, and with which outcome. -/
structure TimedAttempt where
  after : ℤ
  outcome : Except TransportError (FinalStatus × SentBody)

/-- What happens to a request, as in `Exchange`. -/
structure TimedExchange where
  attempts : ℕ → TimedAttempt
  bodyError : Option TransportError := none
  int63n : ℤ → ℤ := fun _ => 0

/-- The inner transport, with a context that is done after so many nanoseconds if this is positive. -/
def TimedAttempt.inner (a : TimedAttempt) (timeout : ℤ) : TimedEnd :=
  if 0 < timeout ∧ timeout ≤ a.after then .error { deadlineExceeded := true }
  else match a.outcome with
    | .error err => .error err
    | .ok (status, sent) => .response status ⟨sent, false⟩

/-- `cancel` of the context that the body belongs to. -/
def TimedEnd.cancel : TimedEnd → TimedEnd
  | .response status body => .response status { body with cancelled := true }
  | result => result

def TimedEnd.status : TimedEnd → Option ℕ
  | .response status _ => some status
  | _ => none

/-- An attempt of `RoundTrip`. -/
def TimedRetry.attempt (retry : TimedRetry) (a : TimedAttempt) : TimedEnd :=
  -- `cancel()` follows the call of the inner transport at once
  if 0 < retry.timeout then (a.inner retry.timeout).cancel else a.inner 0

/-- The loop of `RoundTrip` from an attempt on. -/
def TimedRetry.tripFrom (retry : TimedRetry) (x : TimedExchange) : (left attempt : ℕ) → TimedEnd
  | 0, attempt => retry.attempt (x.attempts attempt)
  | left + 1, attempt =>
    if retry.again attempt (retry.attempt (x.attempts attempt)).status then
      match retry.calcBackoff x.int63n attempt with
      | none => .panicked
      | some _ => tripFrom retry x left (attempt + 1)
    else retry.attempt (x.attempts attempt)

/-- `RoundTrip` of the transport that `newRetryTransport` makes. -/
def TimedRetry.trip (retry : TimedRetry) (x : TimedExchange) : TimedEnd :=
  if retry.attempts = 0 then retry.attempt (x.attempts 0)
  else match x.bodyError with
    | some err => .error err
    | none => retry.tripFrom x retry.attempts.toNat 0

section Trip

variable {retry : TimedRetry} {x : TimedExchange}

/-- The end of an attempt: an error, or a response whose context is cancelled if there is a timeout. -/
theorem attempt_cases (retry : TimedRetry) (a : TimedAttempt) :
    (∃ err, retry.attempt a = .error err) ∨ ∃ status sent, a.outcome = .ok (status, sent) ∧
      retry.attempt a = .response status ⟨sent, 0 < retry.timeout⟩ := by
  unfold TimedRetry.attempt TimedAttempt.inner
  cases houtcome : a.outcome with
  | error err => split_ifs <;> simp [TimedEnd.cancel]
  | ok p =>
    obtain ⟨status, sent⟩ := p
    split_ifs with hpos hlate hlate <;> simp [TimedEnd.cancel, hpos]

theorem exists_of_tripFrom {status : FinalStatus} {body : ResponseBody} {left attempt : ℕ}
    (h : retry.tripFrom x left attempt = .response status body) :
    ∃ k, retry.attempt (x.attempts k) = .response status body := by
  induction left generalizing attempt with
  | zero => exact ⟨attempt, h⟩
  | succ left ih =>
    rw [TimedRetry.tripFrom] at h
    split at h
    · split at h
      · cases h
      · exact ih h
    · exact ⟨attempt, h⟩

/-- The response that is returned is the one of an attempt. -/
theorem exists_of_trip {status : FinalStatus} {body : ResponseBody}
    (h : retry.trip x = .response status body) :
    ∃ k, retry.attempt (x.attempts k) = .response status body := by
  rw [TimedRetry.trip] at h
  split at h
  · exact ⟨0, h⟩
  · split at h
    · cases h
    · exact exists_of_tripFrom h

end Trip

/-- With a timeout for each attempt, the response that is returned is the one of an attempt. Its body can be
read as the upstream sends it exactly if it has come in to its end when the attempt returns, or there is no
attempt that could be repeated. -/
theorem read_iff (retry : TimedRetry) (x : TimedExchange) {status : FinalStatus} {body : ResponseBody}
    (htimeout : 0 < retry.perAttemptTimeout.getD 0) (h : retry.trip x = .response status body) :
    (∃ k, (x.attempts k).outcome = .ok (status, body.toSentBody)) ∧
      (body.read = (body.bytes, true) ↔ body.late = none ∨ retry.attempts = 0) := by
  obtain ⟨k, hk⟩ := exists_of_trip h
  rcases attempt_cases retry (x.attempts k) with ⟨err, herr⟩ | ⟨status', sent, houtcome, hresponse⟩
  · rw [herr] at hk
    cases hk
  · rw [hresponse] at hk
    obtain ⟨rfl, rfl⟩ := TimedEnd.response.inj hk
    refine ⟨⟨k, houtcome⟩, ?_⟩
    rw [ResponseBody.read, SentBody.bytes, TimedRetry.timeout]
    by_cases hattempts : retry.attempts = 0
    · cases sent.late <;> simp [hattempts]
    · rw [if_neg hattempts, decide_eq_true htimeout]
      cases sent.late <;> simp [hattempts]

/-- A timeout of a second for each attempt. -/
def oneSecond : TimedRetry := ⟨⟨1, [], [], none, none⟩, some 1000000000⟩

/-- An upstream that answers at once, with a body that is there or one that follows. -/
def promptly (sent : SentBody) : TimedExchange :=
  { attempts _ := { after := 0, outcome := .ok (⟨200, ok_final⟩, sent) } }

/-- A body that has come in whole can be read. -/
theorem read_buffered :
    (∃ k, ((promptly ⟨[104, 105], none⟩).attempts k).outcome = .ok (⟨200, ok_final⟩, ⟨[104, 105], none⟩)) ∧
      (ResponseBody.read ⟨⟨[104, 105], none⟩, true⟩ = ([104, 105], true) ↔
        (none : Option (List UInt8)) = none ∨ oneSecond.attempts = 0) :=
  read_iff oneSecond (promptly ⟨[104, 105], none⟩) (by decide) rfl

/-- A response that came in time is returned, and its body, which follows the headers, cannot be read. -/
theorem unreadable_body : ∃ status body,
    oneSecond.trip (promptly ⟨[], some [104, 105]⟩) = .response status body ∧ body.bytes = [104, 105] ∧
      body.read = ([], false) :=
  ⟨_, _, rfl, rfl, rfl⟩

end Vrata.Proxy

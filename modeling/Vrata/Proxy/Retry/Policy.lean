import Vrata.Proxy.Exchange.Results

/-!
# The retry policy

Reference: `RoundTrip` and `shouldRetry` of `server/internal/proxy/retry.go`, and
`docs/website/content/docs/concepts/routes/retry.md`.

A policy names the outcomes after which a request is sent again. `RoundTrip` asks it about statuses only:
a transport error is retried whether connection failures are named or not, and the condition for server
errors takes statuses from 600 on for server errors. `complies_iff` says that everything else is as
documented, unless the transport panics on its way to sleep.
-/

namespace Vrata.Proxy

/-! ## The calls -/

/-- What every attempt has in common; the body is `none` if there is none. -/
structure OutgoingRequest where
  method : String
  url : String
  body : Option (List UInt8)
deriving DecidableEq, Repr

/-- A call of the inner transport, with its `X-Request-Attempt-Count`. -/
structure InnerCall extends OutgoingRequest where
  attemptCount : ℕ
deriving DecidableEq, Repr

/-- The calls made by the loop of `RoundTrip` from an attempt on. The body has been read before the
loop and is put back for every call. -/
def callsFrom (retry : RouteRetry) (x : Exchange) (req : OutgoingRequest) :
    (left attempt : ℕ) → List InnerCall
  | 0, attempt => [⟨req, attempt + 1⟩]
  | left + 1, attempt =>
    if retry.again attempt (x.attempts attempt).answer.status then
      match retry.calcBackoff x.int63n attempt with
      | none => [⟨req, attempt + 1⟩]
      | some _ => ⟨req, attempt + 1⟩ :: callsFrom retry x req left (attempt + 1)
    else [⟨req, attempt + 1⟩]

/-- The calls of `RoundTrip`. A body that cannot be read ends it beforehand. -/
def innerCalls (retry : RouteRetry) (x : Exchange) (req : OutgoingRequest) : List InnerCall :=
  match x.bodyError with
  | some _ => []
  | none => callsFrom retry x req retry.attempts.toNat 0

/-! ## The policy as documented -/

namespace RouteRetry

/-- The conditions, with the defaults. -/
def conditions (retry : RouteRetry) : List RetryCondition :=
  if retry.on = [] then [.serverError, .connectionFailure] else retry.on

/-- When a condition triggers. -/
def triggers (retry : RouteRetry) (a : Answer) : RetryCondition → Bool
  | .serverError => a.status.any fun status => 500 ≤ status && status < 600
  | .connectionFailure => a.status.isNone
  | .gatewayError => a.status.any fun status => status = 502 || status = 503 || status = 504
  | .retriableCodes => a.status.any fun status => retry.retriableCodes.any fun code => .ofNat status = code
  | .unknown => false

/-- The policy names the outcome. -/
def names (retry : RouteRetry) (a : Answer) : Bool := retry.conditions.any (retry.triggers a)

/-- An outcome that the loop and the policy do not take for something else: a transport error where
connection failures are named, or a status that is not taken for a server error without being one. -/
def Fits (retry : RouteRetry) (a : Answer) : Prop :=
  match a.status with
  | none => .connectionFailure ∈ retry.conditions
  | some status => 600 ≤ status → .serverError ∈ retry.conditions →
    .retriableCodes ∈ retry.conditions ∧ .ofNat status ∈ retry.retriableCodes

end RouteRetry

/-- The calls are at most one more than the retries, all with the same request, one follows another
exactly as the policy says, and the last outcome is returned. -/
structure Complies (retry : RouteRetry) (x : Exchange) (req : OutgoingRequest) : Prop where
  count : (innerCalls retry x req).length ≤ retry.attempts.toNat + 1
  same : ∀ call ∈ innerCalls retry x req, call.toOutgoingRequest = req
  further : ∀ k < (innerCalls retry x req).length, k + 1 < (innerCalls retry x req).length ↔
    k < retry.attempts.toNat ∧ retry.names (x.attempts k).answer = true
  last : (roundTrip (some retry) x).2 =
    .answer (x.attempts ((innerCalls retry x req).length - 1)).answer

section Policy

variable {retry : RouteRetry} {x : Exchange} {req : OutgoingRequest} {a : Answer} {k : ℕ}

theorem exists_condition {l : List RetryCondition} {P : RetryCondition → Prop} : (∃ c ∈ l, P c) ↔
    (.serverError ∈ l ∧ P .serverError) ∨ (.connectionFailure ∈ l ∧ P .connectionFailure) ∨
      (.gatewayError ∈ l ∧ P .gatewayError) ∨ (.retriableCodes ∈ l ∧ P .retriableCodes) ∨
      (.unknown ∈ l ∧ P .unknown) := by
  constructor
  · rintro ⟨c, hc, hp⟩
    cases c <;> simp [hc, hp]
  · rintro (h | h | h | h | h) <;> exact ⟨_, h⟩

/-- The loop takes any status from 500 on for a server error. -/
theorem shouldRetry_iff {status : ℕ} : shouldRetry status retry = true ↔
    (.serverError ∈ retry.conditions ∧ 500 ≤ status) ∨
    (.gatewayError ∈ retry.conditions ∧ (status = 502 ∨ status = 503 ∨ status = 504)) ∨
    (.retriableCodes ∈ retry.conditions ∧ .ofNat status ∈ retry.retriableCodes) := by
  unfold shouldRetry RouteRetry.conditions
  split
  · simp
  · rw [List.any_eq_true, exists_condition]
    simp [or_assoc]

theorem names_iff : retry.names a = true ↔
    (a.status = none ∧ .connectionFailure ∈ retry.conditions) ∨ ∃ status, a.status = some status ∧
      ((.serverError ∈ retry.conditions ∧ 500 ≤ status ∧ status < 600) ∨
        (.gatewayError ∈ retry.conditions ∧ (status = 502 ∨ status = 503 ∨ status = 504)) ∨
        (.retriableCodes ∈ retry.conditions ∧ .ofNat status ∈ retry.retriableCodes)) := by
  rw [RouteRetry.names, List.any_eq_true, exists_condition]
  cases hstatus : a.status with
  | none => simp [RouteRetry.triggers, hstatus]
  | some status => simp [RouteRetry.triggers, hstatus, or_assoc]

/-- The loop retries the outcomes that the policy names and those that do not fit. -/
theorem again_iff : retry.again k a.status = true ↔
    k < retry.attempts.toNat ∧ (retry.names a = true ∨ ¬retry.Fits a) := by
  unfold RouteRetry.again RouteRetry.Fits
  rw [Bool.and_eq_true, decide_eq_true_eq, names_iff]
  refine and_congr_right fun _ => ?_
  cases a.status with
  | none => simpa using Classical.em _
  | some status =>
    simp only [shouldRetry_iff]
    grind

theorem fits_of_names (h : retry.names a = true) : retry.Fits a := by
  rw [names_iff] at h
  unfold RouteRetry.Fits
  cases hstatus : a.status <;> grind

/-- The attempt is followed by another one. -/
def Followed (retry : RouteRetry) (x : Exchange) (k : ℕ) : Prop :=
  retry.again k (x.attempts k).answer.status = true ∧ 2 ≤ retry.backoff k

/-- The calls go as far as the last attempt that is made. -/
theorem callsFrom_eq {m left attempt : ℕ} (hleft : left + attempt = retry.attempts.toNat)
    (hle : attempt ≤ m) (hmade : ∀ j, attempt ≤ j → j < m → Followed retry x j)
    (hlast : ¬Followed retry x m) : callsFrom retry x req left attempt =
      (List.range' attempt (m + 1 - attempt)).map fun j => ⟨req, j + 1⟩ := by
  induction left generalizing attempt with
  | zero =>
    -- No attempts are left, so this is the last one.
    rcases Nat.eq_or_lt_of_le hle with rfl | hlt
    · simp [callsFrom]
    · have hmore := (again_iff.mp (hmade attempt le_rfl hlt).1).1
      omega
  | succ left ih =>
    have hsome : (retry.calcBackoff x.int63n attempt).isSome = true ↔ 2 ≤ retry.backoff attempt :=
      RouteRetry.calcBackoff_isSome_iff _
    rw [callsFrom]
    rcases Nat.eq_or_lt_of_le hle with rfl | hlt
    · rw [Nat.add_sub_cancel_left]
      split
      · rename_i hagain
        rw [Option.not_isSome_iff_eq_none.mp fun h => hlast ⟨hagain, hsome.mp h⟩]
        rfl
      · rfl
    · obtain ⟨hagain, hsleeps⟩ := hmade attempt le_rfl hlt
      obtain ⟨d, hd⟩ := Option.isSome_iff_exists.mp (hsome.mpr hsleeps)
      have hrest := ih (by omega) hlt fun j hj => hmade j (by omega)
      have hlen : m + 1 - attempt = m + 1 - (attempt + 1) + 1 := by omega
      rw [if_pos hagain, hd, hlen, List.range'_succ, List.map_cons]
      exact congrArg (_ :: ·) hrest

/-- The calls and the end of `RoundTrip`. -/
theorem exists_last (retry : RouteRetry) (req : OutgoingRequest) (hbody : x.bodyError = none) :
    ∃ n, innerCalls retry x req = (List.range' 0 (n + 1)).map (fun j => ⟨req, j + 1⟩) ∧
      (∀ j < n, Followed retry x j) ∧ ¬Followed retry x n ∧
      ((roundTrip (some retry) x).2 = .answer (x.attempts n).answer ↔
        ¬retry.again n (x.attempts n).answer.status = true) := by
  have hsent : x.Sent (some retry) := Or.inr hbody
  obtain ⟨n, ⟨hmade, hlast⟩, hend⟩ := Exchange.exists_lastMade hsent
  simp only [Exchange.Again, Exchange.Sleeps, Option.some.injEq, exists_eq_left', forall_eq'] at *
  refine ⟨n, ?_, hmade, hlast, ?_⟩
  · rw [innerCalls, hbody]
    exact callsFrom_eq (Nat.add_zero _) (Nat.zero_le n) (fun j _ => hmade j) hlast
  · rcases hend with ⟨hno, heq⟩ | ⟨hagain, heq⟩
    · simp [heq, hno]
    · simp [heq, hagain]

end Policy

/-- A request whose body can be read is retried as the policy says exactly if every outcome that comes up
before the last attempt fits, and there is time to sleep after those that are retried. -/
theorem complies_iff (retry : RouteRetry) (x : Exchange) (req : OutgoingRequest)
    (hbody : x.bodyError = none) : Complies retry x req ↔
      ∀ k < retry.attempts.toNat, (∀ j < k, retry.names (x.attempts j).answer = true) →
        retry.Fits (x.attempts k).answer ∧
          (retry.names (x.attempts k).answer = true → 2 ≤ retry.backoff k) := by
  obtain ⟨n, hcalls, hmade, hlast, hend⟩ := exists_last retry req hbody
  have hlen : (innerCalls retry x req).length = n + 1 := by simp [hcalls]
  constructor
  · intro h k hk hnamed
    have hfurther := hlen ▸ h.further
    have hreturned := h.last
    rw [hlen, Nat.add_sub_cancel, hend] at hreturned
    -- If the last call had been before `k`, its outcome would have been named and another would follow.
    have hkn : k ≤ n := by
      by_contra hlt
      have hmore := (hfurther n (by omega)).mpr ⟨by omega, hnamed n (by omega)⟩
      omega
    rcases Nat.eq_or_lt_of_le hkn with rfl | hlt
    · -- the last attempt is not retried, and would be if it were named or did not fit
      rw [again_iff, not_and, not_or, not_not] at hreturned
      obtain ⟨hnot, hfits⟩ := hreturned hk
      exact ⟨hfits, fun hnamed => absurd hnamed hnot⟩
    · have hnamed' := ((hfurther k (by omega)).mp (by omega)).2
      exact ⟨fits_of_names hnamed', fun _ => (hmade k hlt).2⟩
  · intro h
    -- A retried outcome is named or does not fit, and it fits as long as all before it were named.
    have hnamed : ∀ k < n, retry.names (x.attempts k).answer = true := by
      intro k
      induction k using Nat.strong_induction_on with
      | _ k ih =>
        intro hk
        obtain ⟨hlt, hagain⟩ := again_iff.mp (hmade k hk).1
        have hfits := (h k hlt fun j hj => ih j hj (by omega)).1
        exact hagain.resolve_right (not_not.mpr hfits)
    have hstop : ¬retry.again n (x.attempts n).answer.status = true := by
      intro hagain
      obtain ⟨hlt, hnames⟩ := again_iff.mp hagain
      obtain ⟨hfits, hsleeps⟩ := h n hlt hnamed
      exact hlast ⟨hagain, hsleeps (hnames.resolve_right (not_not.mpr hfits))⟩
    have hbound : n ≤ retry.attempts.toNat := by
      cases n with
      | zero => exact Nat.zero_le _
      | succ n => exact (again_iff.mp (hmade n (by omega)).1).1
    refine ⟨by omega, ?_, fun k hk => ?_, ?_⟩
    · simp [hcalls]
    · rcases Nat.eq_or_lt_of_le (Nat.le_of_lt_succ (hlen ▸ hk)) with rfl | hlt
      · refine iff_of_false (by omega) fun hmore => hstop ?_
        exact again_iff.mpr ⟨hmore.1, Or.inl hmore.2⟩
      · exact iff_of_true (by omega) ⟨(again_iff.mp (hmade k hlt).1).1, hnamed k hlt⟩
    · rw [hlen, Nat.add_sub_cancel, hend]
      exact hstop

/-- The status 200 ends an exchange. -/
theorem ok_final : 200 < 1000 ∧ (200 < 100 ∨ 200 = 101 ∨ 200 ≤ 200) := by decide

/-- An upstream that cannot be reached, and then answers. -/
def recovering : Exchange where
  attempts k := if k = 0 then ⟨[], .error {}⟩ else ⟨[], .response ⟨200, ok_final⟩ true⟩

theorem complies_recovering : Complies ⟨2, [], [], none, none⟩ recovering ⟨"GET", "/", none⟩ := by
  refine (complies_iff _ recovering _ rfl).mpr fun k hk _ => ?_
  match k, hk with
  | 0, _ => exact ⟨List.mem_cons_of_mem _ List.mem_cons_self, fun _ => by decide⟩
  | 1, _ => exact ⟨fun h => absurd h (by decide), fun _ => by decide⟩

/-- A policy for statuses 502, 503 and 504 only also retries transport errors. -/
theorem gatewayError_retries_errors :
    ¬Complies ⟨2, [.gatewayError], [], none, none⟩ recovering ⟨"POST", "/", some [1]⟩ := by
  intro h
  exact absurd ((h.further 0 (by decide +kernel)).mp (by decide +kernel)).2 (by decide +kernel)

end Vrata.Proxy

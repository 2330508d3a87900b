import Vrata.Proxy.Exchange

/-!
# What a forwarded request leaves behind

Reference: `server/internal/proxy/handler.go` and `errors.go`.

For every exchange there is a last attempt that is made (`LastMade`), and `roundTrip` ends as this
attempt does, unless the transport panics after it. From there on the handler is followed through its
branches.

An exchange should be recorded once with the breaker and once with the outlier detector, as a failure
exactly if there was no final response or its status is 5xx; `accounted_iff` says when it is. An
exchange that ends in a transport error should be reported to the client with the type of the error;
`reported_iff_reportable` says when it is. In both, informational responses and timeouts get in the
way: the hook on `WriteHeader` takes an informational response for the answer, and with a timeout
everything that leaves no header is a timeout for the client and a success for the breaker.
-/

namespace Vrata.Proxy

namespace Exchange

variable (retry : Option RouteRetry) (x : Exchange)

/-! ## The attempts that are made -/

/-- Another attempt should follow. -/
def Again (k : ℕ) : Prop :=
  ∃ r, retry = some r ∧ r.again k (x.attempts k).answer.status = true

/-- There is time to sleep after the attempt. -/
def Sleeps (retry : Option RouteRetry) (k : ℕ) : Prop := ∀ r, retry = some r → 2 ≤ r.backoff k

/-- The last attempt that is made. -/
def LastMade (k : ℕ) : Prop :=
  (∀ j < k, x.Again retry j ∧ Sleeps retry j) ∧ ¬(x.Again retry k ∧ Sleeps retry k)

/-- The request goes out: its body has been read if it has to be. -/
def Sent : Prop := retry = none ∨ x.bodyError = none

/-- The informational responses of `n` attempts from `a` on. -/
def interims (a n : ℕ) : List InterimStatus :=
  (List.range' a n).flatMap fun j => (x.attempts j).interim

variable {retry x}

theorem LastMade.unique {k k' : ℕ} (h : x.LastMade retry k) (h' : x.LastMade retry k') : k = k' := by
  rcases Nat.lt_trichotomy k k' with hlt | rfl | hlt
  · exact absurd (h'.1 k hlt) h.2
  · rfl
  · exact absurd (h.1 k' hlt) h'.2

theorem interims_eq_nil_iff {k : ℕ} :
    x.interims 0 (k + 1) = [] ↔ ∀ j ≤ k, (x.attempts j).interim = [] := by
  simp only [interims, List.flatMap_eq_nil_iff, List.mem_range'_1]
  refine forall_congr' fun j => ?_
  constructor
  · exact fun h hj => h ⟨Nat.zero_le j, by omega⟩
  · exact fun h hj => h (by omega)

/-- The loop comes to a last attempt. -/
theorem attemptFrom_spec {r : RouteRetry} (left a : ℕ) (hleft : left + a = r.attempts.toNat) :
    ∃ n, (∀ j, a ≤ j → j < a + n → x.Again (some r) j ∧ Sleeps (some r) j) ∧
      (¬x.Again (some r) (a + n) ∧
          attemptFrom r x left a =
            (x.interims a (n + 1), .answer (x.attempts (a + n)).answer) ∨
        (x.Again (some r) (a + n) ∧ ¬Sleeps (some r) (a + n)) ∧
          attemptFrom r x left a = (x.interims a (n + 1), .panicked)) := by
  have hagain : ∀ k, x.Again (some r) k ↔ r.again k (x.attempts k).answer.status = true := by
    intro k
    simp [Again]
  have hsleeps : ∀ k, Sleeps (some r) k ↔ 2 ≤ r.backoff k := by
    intro k
    simp [Sleeps]
  have hfirst : ∀ b, x.interims b (0 + 1) = (x.attempts b).interim := by
    intro b
    simp [interims]
  induction left generalizing a with
  | zero =>
    refine ⟨0, fun j h1 h2 => absurd h2 (by omega), Or.inl ⟨fun hagain' => ?_, ?_⟩⟩
    · have hlt := RouteRetry.lt_of_again ((hagain _).mp hagain')
      omega
    · rw [hfirst]
      rfl
  | succ left ih =>
    rw [attemptFrom]
    dsimp only
    split
    · rename_i hyes
      split
      · rename_i hpanic
        have hshort : ¬2 ≤ r.backoff a := by
          rw [← RouteRetry.calcBackoff_isSome_iff x.int63n, hpanic]
          decide
        refine ⟨0, fun j h1 h2 => absurd h2 (by omega), Or.inr ⟨⟨(hagain a).mpr hyes, ?_⟩, ?_⟩⟩
        · rwa [Nat.add_zero, hsleeps]
        · rw [hfirst]
      · rename_i hsome
        have hslept : 2 ≤ r.backoff a := by
          rw [← RouteRetry.calcBackoff_isSome_iff x.int63n, hsome]
          rfl
        obtain ⟨n, hmade, hend⟩ := ih (a + 1) (by omega)
        have hindex : a + 1 + n = a + (n + 1) := by omega
        have hmore : x.interims a (n + 1 + 1) =
            (x.attempts a).interim ++ x.interims (a + 1) (n + 1) := by
          simp [interims, List.range'_succ]
        refine ⟨n + 1, fun j h1 h2 => ?_, ?_⟩
        · rcases Nat.eq_or_lt_of_le h1 with rfl | hlt
          · exact ⟨(hagain a).mpr hyes, (hsleeps a).mpr hslept⟩
          · exact hmade j hlt (by omega)
        · rw [hindex] at hend
          rcases hend with ⟨hno, heq⟩ | ⟨hpanic, heq⟩
          · exact Or.inl ⟨hno, by rw [heq, hmore]⟩
          · exact Or.inr ⟨hpanic, by rw [heq, hmore]⟩
    · rename_i hno
      refine ⟨0, fun j h1 h2 => absurd h2 (by omega), Or.inl ⟨?_, ?_⟩⟩
      · rwa [Nat.add_zero, hagain]
      · rw [hfirst]
        rfl

theorem not_again_none (k : ℕ) : ¬x.Again none k := by
  rintro ⟨r, hr, _⟩
  cases hr

/-- Without a policy there is one attempt. -/
theorem lastMade_none : x.LastMade none 0 :=
  ⟨fun j hj => absurd hj (Nat.not_lt_zero j), fun h => not_again_none 0 h.1⟩

/-- A request that goes out has a last attempt, and `RoundTrip` ends as this attempt does unless it
panics. -/
theorem exists_lastMade (hsent : x.Sent retry) : ∃ k, x.LastMade retry k ∧
    (¬x.Again retry k ∧
        roundTrip retry x = (x.interims 0 (k + 1), .answer (x.attempts k).answer) ∨
      x.Again retry k ∧ roundTrip retry x = (x.interims 0 (k + 1), .panicked)) := by
  cases retry with
  | none =>
    refine ⟨0, lastMade_none, Or.inl ⟨not_again_none 0, ?_⟩⟩
    simp [roundTrip, interims]
  | some r =>
    have hbody : x.bodyError = none := hsent.resolve_left nofun
    obtain ⟨n, hmade, hend⟩ := attemptFrom_spec (x := x) r.attempts.toNat 0 (Nat.add_zero _)
    rw [Nat.zero_add] at hend
    refine ⟨n, ⟨fun j hj => hmade j (Nat.zero_le j) (by omega), ?_⟩, ?_⟩
    · rcases hend with ⟨hno, _⟩ | ⟨⟨_, hpanic⟩, _⟩
      · exact fun h => hno h.1
      · exact fun h => hpanic h.2
    · simp only [roundTrip, hbody]
      exact hend.imp id fun h => ⟨h.1.1, h.2⟩

/-- A request whose body cannot be read is not sent. -/
theorem roundTrip_of_not_sent (h : ¬x.Sent retry) : ∃ err, x.bodyError = some err ∧
    roundTrip retry x = ([], .answer (.error err)) := by
  rw [Sent, not_or] at h
  obtain ⟨r, rfl⟩ := Option.ne_none_iff_exists'.mp h.1
  obtain ⟨err, herr⟩ := Option.ne_none_iff_exists'.mp h.2
  exact ⟨err, herr, by simp only [roundTrip, herr]⟩

end Exchange

/-! ## Informational responses -/

/-- Informational responses leave a small status behind, and a header that counts as written. -/
theorem foldl_relay (codes : List InterimStatus) : ∃ status < 200,
    codes.foldl relay {} = { capturedStatus := status, headerWritten := !codes.isEmpty } := by
  suffices hall : ∀ s : Served, s.capturedStatus < 200 → ∃ status < 200, codes.foldl relay s =
      { s with capturedStatus := status, headerWritten := s.headerWritten || !codes.isEmpty } by
    simpa using hall {} (by decide)
  induction codes with
  | nil => exact fun s hs => ⟨s.capturedStatus, hs, by simp⟩
  | cons code codes ih =>
    intro s _
    obtain ⟨status, hlt, heq⟩ := ih (relay s code) code.property.2.1
    exact ⟨status, hlt, by rw [List.foldl_cons, heq]; simp [relay]⟩

/-- What the reverse proxy leaves after an error. -/
def Served.failed (status : ℕ) (written : Bool) (err : TransportError) : Served where
  capturedStatus := status
  headerWritten := written
  transportErr := some err

section Handler

variable {cfg : ForwardConfig} {x : Exchange} {codes : List InterimStatus} {err : TransportError}

/-- The reverse proxy after a transport error. -/
theorem serveHTTP_of_error {retry : Option RouteRetry}
    (h : roundTrip retry x = (codes, .answer (.error err))) : ∃ status < 200,
      serveHTTP retry x = some (.failed status (!codes.isEmpty) err) := by
  obtain ⟨status, hlt, hrelay⟩ := foldl_relay codes
  exact ⟨status, hlt, by simp only [serveHTTP, h, hrelay, Served.failed]⟩

/-- The handler after the reverse proxy has met an error. -/
theorem forwardHandler_of_error {status : ℕ} {written : Bool}
    (h : serveHTTP cfg.retry x = some (.failed status written err)) :
    forwardHandler cfg x =
      if written then recordEndpointResult cfg .empty status
      else if 0 < cfg.requestTimeout then
        recordEndpointResult cfg
          (.proxyError 504 (errorBody cfg.detail cfg.timestamp (timeoutError cfg))) status
      else
        recordEndpointResult cfg (.proxyError (classifiedError cfg err).status
          (errorBody cfg.detail cfg.timestamp (classifiedError cfg err)))
          (classifiedError cfg err).status := by
  simp only [forwardHandler, h, Served.failed]
  cases written <;> by_cases htimeout : 0 < cfg.requestTimeout <;>
    simp [htimeout, Served.reply, Served.replyError, timeoutError]

theorem forwardHandler_of_panic (h : serveHTTP cfg.retry x = none) :
    forwardHandler cfg x = { reply := .aborted } := by
  simp only [forwardHandler, h]

/-- The handler after the reverse proxy has returned without an error. -/
theorem forwardHandler_of_served {served : Served} (h : serveHTTP cfg.retry x = some served)
    (herr : served.transportErr = none) : ∃ reply,
      forwardHandler cfg x = recordEndpointResult cfg reply served.capturedStatus := by
  simp only [forwardHandler, h, herr]
  split
  · exact ⟨_, rfl⟩
  · exact ⟨_, rfl⟩

end Handler

/-! ## Outcomes -/

/-- One outcome is recorded with the breaker, if there is one, and the same with the outlier
detector. -/
def Result.Records (cfg : ForwardConfig) (r : Result) (v : Verdict) : Prop :=
  r.breaker = (if cfg.breaker then [v] else []) ∧ r.outlier.map Verdict.ofStatus = [v]

theorem records_recordEndpointResult {cfg : ForwardConfig} {reply : Reply} {status : ℕ}
    {v : Verdict} : (recordEndpointResult cfg reply status).Records cfg v ↔
      cfg.onResponse = true ∧ Verdict.ofStatus status = v := by
  unfold Result.Records recordEndpointResult
  cases cfg.breaker <;> cases cfg.onResponse <;> simp

theorem not_records_aborted {cfg : ForwardConfig} {v : Verdict} :
    ¬Result.Records cfg { reply := .aborted } v := by
  rintro ⟨_, h⟩
  cases h

namespace Exchange

/-- The final response of an exchange has this status. The response 101 is final if the connection is
taken over. -/
def FinalResponse (retry : Option RouteRetry) (x : Exchange) (status : ℕ) : Prop :=
  x.Sent retry ∧ ∃ k, x.LastMade retry k ∧
    ∃ s intact, (x.attempts k).answer = .response s intact ∧ s.val = status ∧
      (status = 101 → x.upgradeError = none)

/-- There is a final response, and its status is not 5xx. -/
def Succeeded (retry : Option RouteRetry) (x : Exchange) : Prop :=
  ∃ status, x.FinalResponse retry status ∧ ¬(500 ≤ status ∧ status < 600)

variable {retry : Option RouteRetry} {x : Exchange} {k : ℕ}

theorem not_succeeded_of_error {err : TransportError} (hlast : x.LastMade retry k)
    (hanswer : (x.attempts k).answer = .error err) : ¬x.Succeeded retry := by
  rintro ⟨status, ⟨_, k', hlast', s, intact, heq, _⟩, _⟩
  obtain rfl := hlast'.unique hlast
  cases hanswer.symm.trans heq

theorem not_succeeded_of_not_sent (h : ¬x.Sent retry) : ¬x.Succeeded retry := by
  rintro ⟨status, ⟨hsent, _⟩, _⟩
  exact h hsent

/-- Whether an exchange succeeds is up to its last attempt. -/
theorem succeeded_iff (hsent : x.Sent retry) (hlast : x.LastMade retry k) :
    x.Succeeded retry ↔ ∃ s intact, (x.attempts k).answer = .response s intact ∧
      (s.val = 101 → x.upgradeError = none) ∧ ¬(500 ≤ s.val ∧ s.val < 600) := by
  constructor
  · rintro ⟨status, ⟨_, k', hlast', s, intact, hanswer, rfl, hup⟩, hok⟩
    obtain rfl := hlast'.unique hlast
    exact ⟨s, intact, hanswer, hup, hok⟩
  · rintro ⟨s, intact, hanswer, hup, hok⟩
    exact ⟨s, ⟨hsent, k, hlast, s, intact, hanswer, rfl, hup⟩, hok⟩

end Exchange

/-- The outcome of an exchange is recorded, as a failure if and only if it has not succeeded. -/
def Accounted (cfg : ForwardConfig) (x : Exchange) : Prop :=
  ∃ v, (forwardHandler cfg x).Records cfg v ∧ (v = .failure ↔ ¬x.Succeeded cfg.retry)

/-- There is no timeout, and no informational response up to the attempt. -/
def Bare (cfg : ForwardConfig) (x : Exchange) (k : ℕ) : Prop :=
  cfg.requestTimeout ≤ 0 ∧ ∀ j ≤ k, (x.attempts j).interim = []

/-- The exchanges that are recorded as they should be. -/
def Accountable (cfg : ForwardConfig) (x : Exchange) : Prop :=
  cfg.onResponse = true ∧ (¬x.Sent cfg.retry → cfg.requestTimeout ≤ 0) ∧
    ∀ k, x.Sent cfg.retry → x.LastMade cfg.retry k → ¬x.Again cfg.retry k ∧
      match (x.attempts k).answer with
      | .error _ => Bare cfg x k
      | .response status intact =>
        if status.val = 101 then x.upgradeError = none ∨ Bare cfg x k
        else 100 ≤ status.val ∧ status.val < 600 ∧ intact = true

section Outcomes

variable {cfg : ForwardConfig} {x : Exchange}

theorem accounted_of_panic (h : serveHTTP cfg.retry x = none) : ¬Accounted cfg x := by
  rintro ⟨v, hrecords, _⟩
  rw [forwardHandler_of_panic h] at hrecords
  exact not_records_aborted hrecords

/-- After an error, a failure is recorded only if there is no timeout and nothing has been
written. -/
theorem accounted_of_error {err : TransportError} {status : ℕ} {written : Bool}
    (h : serveHTTP cfg.retry x = some (.failed status written err)) (hstatus : status < 200)
    (hfail : ¬x.Succeeded cfg.retry) :
    Accounted cfg x ↔
      cfg.onResponse = true ∧ cfg.requestTimeout ≤ 0 ∧ written = false := by
  have hsmall : Verdict.ofStatus status = .success := by
    rw [Verdict.ofStatus, if_neg (by omega)]
  have hlarge : Verdict.ofStatus (classifiedError cfg err).status = .failure :=
    if_pos (statusForErrorType_ge _)
  have hiff : Accounted cfg x ↔ (forwardHandler cfg x).Records cfg .failure := by
    constructor
    · rintro ⟨v, hv, hfailure⟩
      rwa [hfailure.mpr hfail] at hv
    · exact fun hv => ⟨.failure, hv, by simp [hfail]⟩
  rw [hiff, forwardHandler_of_error h]
  cases written
  · by_cases htimeout : 0 < cfg.requestTimeout
    · simp only [htimeout, Bool.false_eq_true, if_false, if_true, records_recordEndpointResult,
        hsmall]
      simp [htimeout]
    · simp only [htimeout, Bool.false_eq_true, if_false, records_recordEndpointResult, hlarge]
      simp [Int.not_lt.mp htimeout]
  · simp only [if_true, records_recordEndpointResult, hsmall]
    simp

theorem accounted_of_served {served : Served} (h : serveHTTP cfg.retry x = some served)
    (herr : served.transportErr = none) : Accounted cfg x ↔
      cfg.onResponse = true ∧ (500 ≤ served.capturedStatus ↔ ¬x.Succeeded cfg.retry) := by
  obtain ⟨reply, heq⟩ := forwardHandler_of_served h herr
  have hfailure : Verdict.ofStatus served.capturedStatus = .failure ↔
      500 ≤ served.capturedStatus := by
    unfold Verdict.ofStatus
    split <;> simp_all
  unfold Accounted
  simp only [heq, records_recordEndpointResult]
  constructor
  · rintro ⟨v, ⟨hon, rfl⟩, hv⟩
    exact ⟨hon, hfailure.symm.trans hv⟩
  · rintro ⟨hon, hv⟩
    exact ⟨_, ⟨hon, rfl⟩, hfailure.trans hv⟩

/-- After a final response that is passed on, or after the connection has been taken over. -/
theorem accounted_of_response {codes : List InterimStatus} {status : FinalStatus} {intact : Bool}
    {k : ℕ} (htrip : roundTrip cfg.retry x = (codes, .answer (.response status intact)))
    (hsent : x.Sent cfg.retry) (hlast : x.LastMade cfg.retry k)
    (hanswer : (x.attempts k).answer = .response status intact)
    (hup : status.val = 101 → x.upgradeError = none) :
    Accounted cfg x ↔ cfg.onResponse = true ∧
      (status.val = 101 ∨ 100 ≤ status.val ∧ status.val < 600 ∧ intact = true) := by
  have hsucceeded : x.Succeeded cfg.retry ↔ ¬(500 ≤ status.val ∧ status.val < 600) := by
    rw [x.succeeded_iff hsent hlast]
    constructor
    · rintro ⟨s, intact', heq, _, hok⟩
      obtain ⟨rfl, rfl⟩ := Answer.response.inj (hanswer.symm.trans heq)
      exact hok
    · exact fun hok => ⟨status, intact, hanswer, hup, hok⟩
  obtain ⟨small, hsmall, hrelay⟩ := foldl_relay codes
  by_cases hswitch : status.val = 101
  · have hserved : serveHTTP cfg.retry x = some
        { capturedStatus := small, headerWritten := !codes.isEmpty, hijacked := true } := by
      simp only [serveHTTP, htrip, hrelay, hswitch, if_true, hup hswitch]
    rw [accounted_of_served hserved rfl, hsucceeded]
    dsimp only
    have hiff : 500 ≤ small ↔ ¬¬(500 ≤ status.val ∧ status.val < 600) := by omega
    simp only [hiff, hswitch, true_or]
  · simp only [hswitch, false_or]
    by_cases hlow : status.val < 100
    · have hpanic : serveHTTP cfg.retry x = none := by
        simp only [serveHTTP, htrip, hswitch, hlow, if_true, if_false]
      refine iff_of_false (accounted_of_panic hpanic) ?_
      rintro ⟨_, hge, _⟩
      omega
    · cases intact with
      | false =>
        have hpanic : serveHTTP cfg.retry x = none := by
          simp [serveHTTP, htrip, hswitch, hlow]
        refine iff_of_false (accounted_of_panic hpanic) ?_
        rintro ⟨_, _, _, hintact⟩
        cases hintact
      | true =>
        have hserved : serveHTTP cfg.retry x = some
            { capturedStatus := status, headerWritten := true, sent := some status.val } := by
          simp only [serveHTTP, htrip, hrelay, hswitch, hlow, if_false, if_true]
        rw [accounted_of_served hserved rfl, hsucceeded]
        dsimp only
        refine and_congr_right fun _ => ?_
        constructor
        · intro h
          refine ⟨by omega, ?_, rfl⟩
          by_contra hge
          omega
        · rintro ⟨_, hlt, _⟩
          omega

end Outcomes

/-- The outcome of a request is recorded as it should be if and only if the outlier detector has been
hooked in, the transport does not panic, a final response is below 600 and reaches the client, and an
exchange without one has no timeout and no informational response. -/
theorem accounted_iff (cfg : ForwardConfig) (x : Exchange) :
    Accounted cfg x ↔ Accountable cfg x := by
  by_cases hsent : x.Sent cfg.retry
  · obtain ⟨k, hlast, htrip⟩ := x.exists_lastMade hsent
    -- There is one last attempt, so the condition is about this one.
    have hcond : Accountable cfg x ↔ cfg.onResponse = true ∧ ¬x.Again cfg.retry k ∧
        match (x.attempts k).answer with
        | .error _ => Bare cfg x k
        | .response status intact =>
          if status.val = 101 then x.upgradeError = none ∨ Bare cfg x k
          else 100 ≤ status.val ∧ status.val < 600 ∧ intact = true := by
      refine and_congr_right fun _ => ⟨fun h => h.2 k hsent hlast, fun h => ⟨absurd hsent, ?_⟩⟩
      intro k' _ hlast'
      obtain rfl := hlast.unique hlast'
      exact h
    rw [hcond]
    rcases htrip with ⟨hno, htrip⟩ | ⟨hyes, htrip⟩
    · have hbare : ∀ {status err}, serveHTTP cfg.retry x =
          some (.failed status (!(x.interims 0 (k + 1)).isEmpty) err) → status < 200 →
          ¬x.Succeeded cfg.retry → (Accounted cfg x ↔ cfg.onResponse = true ∧ Bare cfg x k) := by
        intro status err hserved hlt hfail
        rw [accounted_of_error hserved hlt hfail, Bare, ← Exchange.interims_eq_nil_iff]
        simp [List.isEmpty_iff]
      simp only [hno, not_false_eq_true, true_and]
      cases hanswer : (x.attempts k).answer with
      | error err =>
        rw [hanswer] at htrip
        obtain ⟨status, hlt, hserved⟩ := serveHTTP_of_error htrip
        exact hbare hserved hlt (Exchange.not_succeeded_of_error hlast hanswer)
      | response status intact =>
        rw [hanswer] at htrip
        dsimp only
        by_cases hup : status.val = 101 → x.upgradeError = none
        · rw [accounted_of_response htrip hsent hlast hanswer hup]
          by_cases hswitch : status.val = 101
          · simp [hswitch, hup hswitch]
          · simp [hswitch]
        · -- the connection cannot be taken over, which is an error like any other
          obtain ⟨hswitch, hfailed⟩ := Classical.not_imp.mp hup
          obtain ⟨err, herr⟩ := Option.ne_none_iff_exists'.mp hfailed
          obtain ⟨small, hsmall, hrelay⟩ := foldl_relay (x.interims 0 (k + 1))
          have hserved : serveHTTP cfg.retry x =
              some (.failed small (!(x.interims 0 (k + 1)).isEmpty) err) := by
            simp only [serveHTTP, htrip, hrelay, hswitch, if_true, herr, Served.failed]
          rw [hbare hserved hsmall]
          · simp [hswitch, herr]
          · rw [x.succeeded_iff hsent hlast, hanswer]
            rintro ⟨s, intact', heq, hnone, _⟩
            obtain ⟨rfl, rfl⟩ := Answer.response.inj heq
            exact hfailed (hnone hswitch)
    · have hpanic : serveHTTP cfg.retry x = none := by simp only [serveHTTP, htrip]
      exact iff_of_false (accounted_of_panic hpanic) fun h => h.2.1 hyes
  · obtain ⟨err, _, htrip⟩ := Exchange.roundTrip_of_not_sent hsent
    obtain ⟨status, hlt, hserved⟩ := serveHTTP_of_error htrip
    rw [accounted_of_error hserved hlt (Exchange.not_succeeded_of_not_sent hsent)]
    simp [Accountable, hsent]

/-! ## Exchanges that go wrong -/

def refused : TransportError := { message := "connection refused" }

/-- An upstream that refuses the connection. -/
def refusing : Exchange := { attempts := fun _ => { answer := .error refused } }

/-- An upstream that sends an informational response and breaks off. -/
def hinting : Exchange where
  attempts _ := { interim := [⟨103, by decide⟩], answer := .error refused }

/-- An upstream that breaks off in the middle of a body. -/
def cutShort : Exchange := { attempts := fun _ => { answer := .response ⟨200, by decide⟩ false } }

/-- A route with a timeout of a second. -/
def hurried : ForwardConfig := { routeTimeout := some 1000000000 }

/-- With a timeout, a refused connection is a success for the breaker. So it is without one after an
informational response. When the body of a response is cut short, nothing is recorded. -/
theorem outcomes_lost :
    ¬Accounted hurried refusing ∧ ¬Accounted {} hinting ∧ ¬Accounted {} cutShort := by
  refine ⟨fun h => ?_, fun h => ?_, accounted_of_panic rfl⟩
  · have hfail : ¬refusing.Succeeded hurried.retry :=
      Exchange.not_succeeded_of_error Exchange.lastMade_none rfl
    exact absurd ((accounted_of_error rfl (by decide) hfail).mp h).2.1 (by decide)
  · have hfail : ¬hinting.Succeeded (ForwardConfig.retry {}) :=
      Exchange.not_succeeded_of_error Exchange.lastMade_none rfl
    exact absurd ((accounted_of_error rfl (by decide) hfail).mp h).2.2 (by decide)

/-! ## What the client is told -/

namespace Exchange

/-- The exchange ends in a transport error before a final response. -/
def EndsIn (retry : Option RouteRetry) (x : Exchange) (err : TransportError) : Prop :=
  ¬x.Sent retry ∧ x.bodyError = some err ∨
    x.Sent retry ∧ ∃ k, x.LastMade retry k ∧ (x.attempts k).answer = .error err

end Exchange

/-- The client gets the structured error for the type of the error, with a status that is 5xx. -/
def Reports (reply : Reply) (err : TransportError) : Prop :=
  ∃ status body, reply = .proxyError status body ∧ status = statusForErrorType (classifyError err) ∧
    500 ≤ status ∧ status < 600 ∧ body.error = classifyError err ∧ body.status = status

def Reported (cfg : ForwardConfig) (x : Exchange) : Prop :=
  ∀ err, x.EndsIn cfg.retry err → Reports (forwardHandler cfg x).reply err

/-- There is no timeout or the error is one, the transport does not panic, and there are no
informational responses. -/
def Reportable (cfg : ForwardConfig) (x : Exchange) : Prop :=
  ∀ err, x.EndsIn cfg.retry err → (cfg.requestTimeout ≤ 0 ∨ classifyError err = .timeout) ∧
    ∀ k, x.Sent cfg.retry → x.LastMade cfg.retry k → ¬x.Again cfg.retry k ∧
      ∀ j ≤ k, (x.attempts j).interim = []

theorem statusForErrorType_lt (type : ProxyErrorType) : statusForErrorType type < 600 := by
  cases type <;> decide

theorem errorBody_error (detail : ProxyErrorDetail) (timestamp : String) (pe : ProxyError) :
    (errorBody detail timestamp pe).error = pe.type := by
  cases detail <;> rfl

theorem errorBody_status (detail : ProxyErrorDetail) (timestamp : String) (pe : ProxyError) :
    (errorBody detail timestamp pe).status = pe.status := by
  cases detail <;> rfl

/-- The reply to an error is the structured one if nothing has been written, of the right type
without a timeout and of the type timeout with one. -/
theorem reports_of_error {cfg : ForwardConfig} {x : Exchange} {err : TransportError} {status : ℕ}
    {written : Bool} (h : serveHTTP cfg.retry x = some (.failed status written err)) :
    Reports (forwardHandler cfg x).reply err ↔
      (cfg.requestTimeout ≤ 0 ∨ classifyError err = .timeout) ∧ written = false := by
  have hright : ∀ pe : ProxyError, pe.type = classifyError err →
      pe.status = statusForErrorType (classifyError err) →
      Reports (.proxyError pe.status (errorBody cfg.detail cfg.timestamp pe)) err := by
    intro pe htype hstatus
    refine ⟨_, _, rfl, hstatus, ?_, ?_, ?_, errorBody_status _ _ _⟩
    · exact hstatus ▸ statusForErrorType_ge _
    · exact hstatus ▸ statusForErrorType_lt _
    · rw [errorBody_error, htype]
  rw [forwardHandler_of_error h]
  cases written with
  | true =>
    refine iff_of_false ?_ (by simp)
    rintro ⟨_, _, heq, _⟩
    cases heq
  | false =>
    simp only [Bool.false_eq_true, if_false, and_true]
    split
    · rename_i htimeout
      simp only [Int.not_le.mpr htimeout, false_or]
      constructor
      · rintro ⟨_, body, heq, _, _, _, htype, _⟩
        obtain ⟨rfl, rfl⟩ := Reply.proxyError.inj heq
        rw [errorBody_error] at htype
        exact htype.symm
      · intro htype
        exact hright (timeoutError cfg) htype.symm (by rw [htype]; rfl)
    · rename_i htimeout
      exact iff_of_true (hright (classifiedError cfg err) rfl rfl)
        (Or.inl (Int.not_lt.mp htimeout))

/-- Failures of the upstream are reported to the client if and only if there is no timeout, or the
failure is one; the transport does not panic between two attempts; and no informational response has
come first. -/
theorem reported_iff_reportable (cfg : ForwardConfig) (x : Exchange) :
    Reported cfg x ↔ Reportable cfg x := by
  refine forall_congr' fun err => forall_congr' fun hends => ?_
  rcases hends with ⟨hsent, hbody⟩ | ⟨hsent, k, hlast, hanswer⟩
  · obtain ⟨err', herr', htrip⟩ := Exchange.roundTrip_of_not_sent hsent
    obtain rfl := Option.some.inj (hbody.symm.trans herr')
    obtain ⟨status, _, hserved⟩ := serveHTTP_of_error htrip
    rw [reports_of_error hserved]
    simp [hsent]
  · have hcond : (∀ k, x.Sent cfg.retry → x.LastMade cfg.retry k → ¬x.Again cfg.retry k ∧
        ∀ j ≤ k, (x.attempts j).interim = []) ↔
        ¬x.Again cfg.retry k ∧ ∀ j ≤ k, (x.attempts j).interim = [] := by
      refine ⟨fun h => h k hsent hlast, fun h k' _ hlast' => ?_⟩
      obtain rfl := hlast.unique hlast'
      exact h
    rw [hcond]
    obtain ⟨k', hlast', htrip⟩ := x.exists_lastMade hsent
    obtain rfl := hlast.unique hlast'
    rcases htrip with ⟨hno, htrip⟩ | ⟨hyes, htrip⟩
    · rw [hanswer] at htrip
      obtain ⟨status, _, hserved⟩ := serveHTTP_of_error htrip
      rw [reports_of_error hserved, ← Exchange.interims_eq_nil_iff]
      simp [hno, List.isEmpty_iff]
    · have hpanic : serveHTTP cfg.retry x = none := by simp only [serveHTTP, htrip]
      rw [forwardHandler_of_panic hpanic]
      refine iff_of_false ?_ fun h => h.2.1 hyes
      rintro ⟨_, _, heq, _⟩
      cases heq

/-- A refused connection is reported as a timeout if a timeout is set; and after an informational
response it is not reported at all, but answered with status 200 and no body. -/
theorem failures_not_reported :
    ¬Reported hurried refusing ∧ ¬Reported {} hinting ∧
      (forwardHandler {} hinting).reply = .empty := by
  refine ⟨fun h => ?_, fun h => ?_, rfl⟩
  · have hreports := h refused (Or.inr ⟨Or.inl rfl, 0, Exchange.lastMade_none, rfl⟩)
    exact absurd ((reports_of_error rfl).mp hreports).1 (by decide)
  · have hreports := h refused (Or.inr ⟨Or.inl rfl, 0, Exchange.lastMade_none, rfl⟩)
    exact absurd ((reports_of_error rfl).mp hreports).2 (by decide)

end Vrata.Proxy

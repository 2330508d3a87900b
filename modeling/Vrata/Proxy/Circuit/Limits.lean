import Mathlib.Data.Fintype.Powerset
import Vrata.Lib.Census
import Vrata.Proxy.Circuit
import Vrata.Proxy.Retry

/-!
# The limits of the circuit breaker

Reference: `server/internal/proxy/circuit.go`, `retry.go`, and `forwardHandler` of `handler.go`.

The breaker is asked to keep the requests that are in flight within `maxRequests` and
`maxConnections`, and the retries within `maxRetries`. `Traffic` adds to the breaker where the requests
are in `RoundTrip` of the retry transport.

`Allow` reads the two counts and `OnRequest` raises them later, so that a second request may read them
in between; a request that is let through a half-open circuit does not read them at all; and nothing
reads `maxRetries`. `Spaced` asks for what is missing: nobody reads the counts while another request is
about to raise them, a half-open circuit has room for its probe, and there are not more requests that
may be retried than there may be retries. `withinLimits_of_spaced` says that the limits are kept then.
The counters are the numbers of requests they stand for in all runs (`Counted`).
-/

namespace Vrata.Proxy

open Runs Census

namespace Phase

/-- Let through, and not taken off the counts yet. -/
def isUnderWay : Phase → Bool
  | .admitted _ | .counted _ | .serving _ | .succeeded _ | .closing _ | .failed _ | .opening _
  | .stamping _ | .completing => true
  | _ => false

/-- Counted by `activeRequests`. -/
def isRequest : Phase → Bool
  | .counted _ | .serving _ | .succeeded _ | .closing _ | .failed _ | .opening _ | .stamping _
  | .completing => true
  | _ => false

/-- Counted by `activeConnections`. -/
def isConnection : Phase → Bool
  | .serving _ | .succeeded _ | .closing _ | .failed _ | .opening _ | .stamping _ | .completing
  | .completed => true
  | _ => false

/-- A count has been read that the request has yet to raise. -/
def isPending : Phase → Bool
  | .countingRequests | .admitted _ | .counted _ => true
  | _ => false

def isAdmitted : Phase → Bool
  | .admitted _ => true
  | _ => false

theorem isRequest_of_isUnderWay {p : Phase} (h : p.isUnderWay = true) :
    p.isRequest = true ∨ p.isAdmitted = true := by
  cases p <;> first | exact Or.inl rfl | exact Or.inr rfl | cases h

theorem isConnection_of_isUnderWay {p : Phase} (h : p.isUnderWay = true) :
    p.isConnection = true ∨ p.isPending = true := by
  cases p <;> first | exact Or.inl rfl | exact Or.inr rfl | cases h

theorem isPending_of_isAdmitted {p : Phase} (h : p.isAdmitted = true) : p.isPending = true := by
  cases p <;> first | rfl | cases h

end Phase

/-! ## Traffic -/

/-- Where a request is in `RoundTrip` of the retry transport. -/
inductive Trip where
  | out
  | attempting (attempt : ℕ)
  | sleeping (attempt : ℕ)
deriving DecidableEq, Repr

/-- The upstream is working on a retry. -/
def Trip.isRetry : Trip → Bool
  | .attempting (_ + 1) => true
  | _ => false

/-- An attempt has failed. -/
def Trip.hasFailed : Trip → Bool
  | .attempting (_ + 1) | .sleeping _ => true
  | _ => false

theorem Trip.hasFailed_of_isRetry {trip : Trip} (h : trip.isRetry = true) :
    trip.hasFailed = true ∧ trip ≠ .out := by
  cases trip with
  | attempting attempt =>
    cases attempt with
    | zero => cases h
    | succ attempt => exact ⟨rfl, nofun⟩
  | out | sleeping => cases h

/-- `NewCircuitBreaker` keeps this limit, and nothing reads it. -/
def maxRetries (maxRetry : UInt32) : ℕ := if maxRetry = 0 then 3 else maxRetry.toNat

/-- The breaker of a destination and the requests that it lets through. -/
structure Traffic (ι : Type) where
  circuit : Circuit ι
  trip : ι → Trip

namespace Traffic

variable {ι : Type}

def new (now : ℤ) : Traffic ι := ⟨Circuit.new now, fun _ => .out⟩

/-- Time passes, a request takes its next operation, an attempt ends with a status or in a transport
error, or the time between two attempts is over. -/
inductive Action (ι : Type) where
  | tick (d : ℕ)
  | act (t : ι) (e : Ending)
  | answer (t : ι) (status : Option ℕ)
  | wake (t : ι)
deriving DecidableEq, Repr

/-- Where a request is after an attempt. When there is no time to sleep the transport panics. -/
def afterAttempt (retry : Option RouteRetry) (attempt : ℕ) (status : Option ℕ) : Trip :=
  match retry with
  | none => .out
  | some retry =>
    if retry.again attempt status = true ∧ 2 ≤ retry.backoff attempt then .sleeping attempt else .out

variable [DecidableEq ι]

def setTrip (s : Traffic ι) (t : ι) (trip : Trip) : Traffic ι :=
  { s with trip := Function.update s.trip t trip }

/-- The next step; `retry` is the policy each request is under. A request is served from the first
attempt on, and it is over when `RoundTrip` has returned. -/
def step (cfg : BreakerConfig) (retry : ι → Option RouteRetry) (s : Traffic ι) :
    Action ι → Traffic ι
  | .tick d => { s with circuit := s.circuit.step cfg (.tick d) }
  | .act t e =>
    match s.circuit.phase t with
    | .counted _ => { s.setTrip t (.attempting 0) with circuit := s.circuit.act cfg t e }
    | .serving _ => if s.trip t = .out then { s with circuit := s.circuit.act cfg t e } else s
    | _ => { s with circuit := s.circuit.act cfg t e }
  | .answer t status =>
    match s.trip t with
    | .attempting attempt => s.setTrip t (afterAttempt (retry t) attempt status)
    | _ => s
  | .wake t =>
    match s.trip t with
    | .sleeping attempt => s.setTrip t (.attempting (attempt + 1))
    | _ => s

/-! ## The limits and the condition -/

/-- As long as the circuit is not open, no more requests are in flight than the limits allow, and
there are never more retries than their limit allows. -/
def WithinLimits (cfg : BreakerConfig) (maxRetries : ℕ) (s : Traffic ι) : Prop :=
  (s.circuit.state ≠ .opened → ∀ ts : Finset ι,
    (∀ t ∈ ts, (s.circuit.phase t).isUnderWay = true) →
      (ts.card : ℤ) ≤ min cfg.maxRequests cfg.maxConnections) ∧
  ∀ ts : Finset ι, (∀ t ∈ ts, (s.trip t).isRetry = true) → ts.card ≤ maxRetries

/-- Requests that may be retried, and are under way. -/
def MayRetry (retry : ι → Option RouteRetry) (s : Traffic ι) (t : ι) : Prop :=
  retry t ≠ none ∧ s.trip t ≠ .out

/-- Steps that leave room. -/
def Spaced (cfg : BreakerConfig) (maxRetries : ℕ) (retry : ι → Option RouteRetry) (s : Traffic ι) :
    Action ι → Prop
  | .act t _ =>
    (s.circuit.phase t = .countingConnections → ∀ t', (s.circuit.phase t').isPending = false) ∧
    (s.circuit.phase t = .taking → 0 ≤ wrap32 (s.circuit.halfOpenAllowed - 1) →
      (∀ t', (s.circuit.phase t').isPending = false) ∧
        s.circuit.activeConnections < cfg.maxConnections ∧
        s.circuit.activeRequests < cfg.maxRequests) ∧
    (∀ b, s.circuit.phase t = .counted b → retry t ≠ none →
      ∀ ts : Finset ι, (∀ t' ∈ ts, MayRetry retry s t') → ts.card < maxRetries)
  | _ => True

end Traffic

/-! ## What an operation does to the counts -/

namespace Circuit

variable {ι : Type} {cfg : BreakerConfig} {s s' : Circuit ι} {t : ι} {e : Ending} {p : Phase}
  {requests connections : ℤ}

/-- The request goes to phase `p`, and the counts are then `requests` and `connections`. -/
inductive Move (cfg : BreakerConfig) (s : Circuit ι) (t : ι) : Phase → ℤ → ℤ → Prop where
  /-- The counts are neither read nor changed, or the request is turned away. -/
  | turn {p : Phase} (hp : p.isPending = false) (hr : p.isRequest = (s.phase t).isRequest)
      (hc : p.isConnection = (s.phase t).isConnection) :
      Move cfg s t p s.activeRequests s.activeConnections
  | read (ht : s.phase t = .countingConnections) (hlt : s.activeConnections < cfg.maxConnections) :
      Move cfg s t .countingRequests s.activeRequests s.activeConnections
  | pass (b : Bool) (ht : s.phase t = .countingRequests)
      (hlt : s.activeRequests < cfg.maxRequests) :
      Move cfg s t (.admitted b) s.activeRequests s.activeConnections
  | take (b : Bool) (ht : s.phase t = .taking) (hleft : 0 ≤ wrap32 (s.halfOpenAllowed - 1)) :
      Move cfg s t (.admitted b) s.activeRequests s.activeConnections
  | request (b : Bool) (ht : s.phase t = .admitted b) :
      Move cfg s t (.counted b) (s.activeRequests + 1) s.activeConnections
  | connect (b : Bool) (ht : s.phase t = .counted b) :
      Move cfg s t (.serving b) s.activeRequests (s.activeConnections + 1)
  | release (ht : s.phase t = .completing) :
      Move cfg s t .completed (s.activeRequests - 1) s.activeConnections
  | disconnect (ht : s.phase t = .completed) :
      Move cfg s t .idle s.activeRequests (s.activeConnections - 1)

/-- Every operation of a request is a move. -/
theorem exists_move [DecidableEq ι] (cfg : BreakerConfig) (s : Circuit ι) (t : ι) (e : Ending) :
    ∃ p, (s.act cfg t e).phase = Function.update s.phase t p ∧
      Move cfg s t p (s.act cfg t e).activeRequests (s.act cfg t e).activeConnections := by
  have hturn : ∀ {p}, p.isPending = false → p.isRequest = (s.phase t).isRequest →
      p.isConnection = (s.phase t).isConnection →
        Move cfg s t p s.activeRequests s.activeConnections := Move.turn
  unfold act
  cases ht : s.phase t with
  | idle => cases s.state <;> exact ⟨_, rfl, hturn rfl (by rw [ht]; rfl) (by rw [ht]; rfl)⟩
  | countingConnections =>
    dsimp only
    split
    · exact ⟨_, rfl, hturn rfl (by rw [ht]; rfl) (by rw [ht]; rfl)⟩
    · rename_i hlt
      exact ⟨_, rfl, .read ht (by omega)⟩
  | countingRequests =>
    dsimp only
    split
    · exact ⟨_, rfl, hturn rfl (by rw [ht]; rfl) (by rw [ht]; rfl)⟩
    · rename_i hlt
      exact ⟨_, rfl, .pass false ht (by omega)⟩
  | taking =>
    dsimp only
    split
    · rename_i hleft
      exact ⟨_, rfl, .take _ ht hleft⟩
    · exact ⟨_, rfl, hturn rfl (by rw [ht]; rfl) (by rw [ht]; rfl)⟩
  | admitted b => exact ⟨_, rfl, .request b ht⟩
  | counted b => exact ⟨_, rfl, .connect b ht⟩
  | serving b => cases e <;> exact ⟨_, rfl, hturn rfl (by rw [ht]; rfl) (by rw [ht]; rfl)⟩
  | completing => exact ⟨_, rfl, .release ht⟩
  | completed => exact ⟨_, rfl, .disconnect ht⟩
  | checking | swapping | failed =>
    dsimp only
    split <;> exact ⟨_, rfl, hturn rfl (by rw [ht]; rfl) (by rw [ht]; rfl)⟩
  | granting | succeeded | closing | opening | stamping =>
    exact ⟨_, rfl, hturn rfl (by rw [ht]; rfl) (by rw [ht]; rfl)⟩

/-! ## The counters are what they stand for -/

structure Counted (s : Circuit ι) : Prop where
  requests : Count Phase.isRequest s.phase s.activeRequests
  connections : Count Phase.isConnection s.phase s.activeConnections

theorem counted_new (now : ℤ) : Counted (new now : Circuit ι) :=
  ⟨count_zero fun _ => rfl, count_zero fun _ => rfl⟩

section Step

variable [DecidableEq ι]

theorem Counted.move (h : Counted s) (hphase : s'.phase = Function.update s.phase t p)
    (hmove : Move cfg s t p s'.activeRequests s'.activeConnections) : Counted s' := by
  obtain ⟨hr, hc⟩ := h
  refine ⟨?_, ?_⟩ <;> rw [hphase]
  · generalize s'.activeRequests = r, s'.activeConnections = c at hmove
    cases hmove with
    | turn _ hreq _ => exact hr.stay hreq
    | read ht | pass _ ht | take _ ht | connect _ ht | disconnect ht =>
      exact hr.stay (by rw [ht]; rfl)
    | request b ht => exact hr.enter (by rw [ht]; rfl) rfl
    | release ht => exact hr.leave (by rw [ht]; rfl) rfl
  · generalize s'.activeRequests = r, s'.activeConnections = c at hmove
    cases hmove with
    | turn _ _ hcon => exact hc.stay hcon
    | read ht | pass _ ht | take _ ht | request _ ht | release ht =>
      exact hc.stay (by rw [ht]; rfl)
    | connect b ht => exact hc.enter (by rw [ht]; rfl) rfl
    | disconnect ht => exact hc.leave (by rw [ht]; rfl) rfl

end Step

/-! ## There is room -/

/-- At most one request is about to raise the counts, and there is room for it. -/
structure Roomy (cfg : BreakerConfig) (s : Circuit ι) : Prop where
  once : ∀ t t', (s.phase t).isPending = true → (s.phase t').isPending = true → t = t'
  connection : ∀ t, (s.phase t).isPending = true → s.activeConnections < cfg.maxConnections
  request : ∀ t, (s.phase t).isAdmitted = true → s.activeRequests < cfg.maxRequests
  connections_le : s.activeConnections ≤ cfg.maxConnections
  requests_le : s.activeRequests ≤ cfg.maxRequests

theorem roomy_new (hc : 0 ≤ cfg.maxConnections) (hr : 0 ≤ cfg.maxRequests) (now : ℤ) :
    Roomy cfg (new now : Circuit ι) where
  once _ _ h := by cases h
  connection _ h := by cases h
  request _ h := by cases h
  connections_le := hc
  requests_le := hr

section Step

variable [DecidableEq ι]

/-- A step after which nobody is pending who was not before, with counts that have not gone up. -/
theorem Roomy.quiet (h : Roomy cfg s) (hphase : s'.phase = Function.update s.phase t p)
    (hpend : p.isPending = true → (s.phase t).isPending = true)
    (hadm : p.isAdmitted = true → s'.activeRequests < cfg.maxRequests)
    (hr : s'.activeRequests ≤ s.activeRequests)
    (hc : s'.activeConnections ≤ s.activeConnections) : Roomy cfg s' := by
  have hback : ∀ u, (s'.phase u).isPending = true → (s.phase u).isPending = true := by
    intro u hu
    rw [hphase] at hu
    by_cases hut : u = t
    · subst hut
      rw [Function.update_self] at hu
      exact hpend hu
    · rwa [Function.update_of_ne hut] at hu
  refine ⟨fun u u' hu hu' => h.once u u' (hback u hu) (hback u' hu'), fun u hu => ?_, fun u hu => ?_,
    hc.trans h.connections_le, hr.trans h.requests_le⟩
  · exact hc.trans_lt (h.connection u (hback u hu))
  · rw [hphase] at hu
    rcases phase_update (P := (·.isAdmitted = true)) hu with hp | ⟨_, hp⟩
    · exact hadm hp
    · exact hr.trans_lt (h.request u hp)

/-- A step that makes a request pending, while nobody is and there is room. -/
theorem Roomy.alone (h : Roomy cfg s) (hphase : s'.phase = Function.update s.phase t p)
    (hnone : ∀ u, (s.phase u).isPending = false)
    (hlt : s'.activeConnections < cfg.maxConnections)
    (hadm : p.isAdmitted = true → s'.activeRequests < cfg.maxRequests)
    (hr : s'.activeRequests = s.activeRequests) : Roomy cfg s' := by
  have honly : ∀ u, (s'.phase u).isPending = true → u = t := by
    intro u hu
    rw [hphase] at hu
    by_contra hut
    rw [Function.update_of_ne hut, hnone u] at hu
    cases hu
  refine ⟨fun u u' hu hu' => (honly u hu).trans (honly u' hu').symm, fun _ _ => hlt, fun u hu => ?_,
    hlt.le, hr ▸ h.requests_le⟩
  obtain rfl := honly u (Phase.isPending_of_isAdmitted hu)
  rw [hphase, Function.update_self] at hu
  exact hadm hu

/-- The pending request raises a count and there is nobody else. -/
theorem Roomy.raise (h : Roomy cfg s) (hphase : s'.phase = Function.update s.phase t p)
    (ht : (s.phase t).isPending = true) (hadm : p.isAdmitted = false)
    (hpend : p.isPending = true → s'.activeConnections < cfg.maxConnections)
    (hc : s'.activeConnections ≤ cfg.maxConnections) (hr : s'.activeRequests ≤ cfg.maxRequests) :
    Roomy cfg s' := by
  have honly : ∀ u, (s'.phase u).isPending = true → u = t := by
    intro u hu
    rw [hphase] at hu
    by_contra hut
    rw [Function.update_of_ne hut] at hu
    exact hut (h.once u t hu ht)
  refine ⟨fun u u' hu hu' => (honly u hu).trans (honly u' hu').symm, fun u hu => ?_, fun u hu => ?_,
    hc, hr⟩
  · obtain rfl := honly u hu
    rw [hphase, Function.update_self] at hu
    exact hpend hu
  · obtain rfl := honly u (Phase.isPending_of_isAdmitted hu)
    rw [hphase, Function.update_self, hadm] at hu
    cases hu

theorem Roomy.move (h : Roomy cfg s) (hphase : s'.phase = Function.update s.phase t p)
    (hmove : Move cfg s t p s'.activeRequests s'.activeConnections)
    (hread : s.phase t = .countingConnections → ∀ t', (s.phase t').isPending = false)
    (htake : s.phase t = .taking → 0 ≤ wrap32 (s.halfOpenAllowed - 1) →
      (∀ t', (s.phase t').isPending = false) ∧ s.activeConnections < cfg.maxConnections ∧
        s.activeRequests < cfg.maxRequests) : Roomy cfg s' := by
  generalize hr : s'.activeRequests = r, hc : s'.activeConnections = c at hmove
  cases hmove with
  | turn hp =>
    refine h.quiet hphase (fun hp' => ?_) (fun hp' => ?_) hr.le hc.le
    · rw [hp] at hp'
      cases hp'
    · rw [Phase.isPending_of_isAdmitted hp'] at hp
      cases hp
  | read ht hlt => exact h.alone hphase (hread ht) (hc ▸ hlt) nofun hr
  | pass b ht hlt =>
    exact h.quiet hphase (fun _ => by rw [ht]; rfl) (fun _ => hr ▸ hlt) hr.le hc.le
  | take b ht hleft =>
    obtain ⟨hnone, hcon, hreq⟩ := htake ht hleft
    exact h.alone hphase hnone (hc ▸ hcon) (fun _ => hr ▸ hreq) hr
  | request b ht =>
    have hpending : (s.phase t).isPending = true := by rw [ht]; rfl
    have hcon := h.connection t hpending
    have hreq := h.request t (by rw [ht]; rfl)
    exact h.raise hphase hpending rfl (fun _ => by omega) (by omega) (by omega)
  | connect b ht =>
    have hpending : (s.phase t).isPending = true := by rw [ht]; rfl
    have hcon := h.connection t hpending
    have hreq := h.requests_le
    exact h.raise hphase hpending rfl nofun (by omega) (by omega)
  | release ht | disconnect ht => exact h.quiet hphase nofun nofun (by omega) (by omega)

/-- The requests in flight are those that are counted and at most one more, for which there is
room. -/
theorem Roomy.card_le (h : Roomy cfg s) (hcounted : Counted s) {ts : Finset ι}
    (hts : ∀ t ∈ ts, (s.phase t).isUnderWay = true) :
    (ts.card : ℤ) ≤ min cfg.maxRequests cfg.maxConnections := by
  have hbound : ∀ {q : Phase → Bool} {n limit : ℤ}, Count q s.phase n → n ≤ limit →
      (∀ t ∈ ts, q (s.phase t) = true ∨ (s.phase t).isPending = true ∧ n < limit) →
        (ts.card : ℤ) ≤ limit := by
    intro q n limit hcount hle hcase
    by_cases hex : ∃ t ∈ ts, ¬q (s.phase t) = true
    · obtain ⟨t, ht, hnot⟩ := hex
      obtain ⟨hpend, hlt⟩ := (hcase t ht).resolve_left hnot
      have hrest := hcount.card_le (ts.erase t) fun u hu => by
        obtain ⟨hne, hu⟩ := Finset.mem_erase.mp hu
        exact (hcase u hu).resolve_right fun hp => hne (h.once u t hp.1 hpend)
      rw [Finset.card_erase_of_mem ht] at hrest
      omega
    · push Not at hex
      exact (hcount.card_le ts hex).trans hle
  refine le_min (hbound hcounted.requests h.requests_le fun t ht => ?_)
    (hbound hcounted.connections h.connections_le fun t ht => ?_)
  · exact (Phase.isRequest_of_isUnderWay (hts t ht)).imp_right fun hadm =>
      ⟨Phase.isPending_of_isAdmitted hadm, h.request t hadm⟩
  · exact (Phase.isConnection_of_isUnderWay (hts t ht)).imp_right fun hpend =>
      ⟨hpend, h.connection t hpend⟩

end Step

end Circuit

/-! ## The limits are kept -/

namespace Traffic

variable {ι : Type} {cfg : BreakerConfig} {maxRetries : ℕ} {retry : ι → Option RouteRetry}
  {s : Traffic ι}

structure Inv (cfg : BreakerConfig) (maxRetries : ℕ) (retry : ι → Option RouteRetry)
    (s : Traffic ι) : Prop where
  counted : s.circuit.Counted
  roomy : s.circuit.Roomy cfg
  policy : ∀ t, (s.trip t).hasFailed = true → retry t ≠ none
  few : ∀ ts : Finset ι, (∀ t ∈ ts, MayRetry retry s t) → ts.card ≤ maxRetries

theorem inv_new (hc : 0 ≤ cfg.maxConnections) (hr : 0 ≤ cfg.maxRequests) (now : ℤ) :
    Inv cfg maxRetries retry (new now : Traffic ι) where
  counted := Circuit.counted_new now
  roomy := Circuit.roomy_new hc hr now
  policy _ h := by cases h
  few ts hts := by
    have hempty : ts = ∅ := Finset.eq_empty_of_forall_notMem fun t ht => (hts t ht).2 rfl
    rw [hempty]
    exact Nat.zero_le _

theorem Inv.withinLimits [DecidableEq ι] (h : Inv cfg maxRetries retry s) :
    WithinLimits cfg maxRetries s := by
  refine ⟨fun _ ts hts => h.roomy.card_le h.counted hts, fun ts hts => h.few ts fun t ht => ?_⟩
  obtain ⟨hfailed, hout⟩ := Trip.hasFailed_of_isRetry (hts t ht)
  exact ⟨h.policy t hfailed, hout⟩

theorem Inv.circuit (h : Inv cfg maxRetries retry s) {c : Circuit ι} (hcounted : c.Counted)
    (hroomy : c.Roomy cfg) : Inv cfg maxRetries retry { s with circuit := c } :=
  ⟨hcounted, hroomy, h.policy, h.few⟩

section Step

variable [DecidableEq ι] {t : ι} {trip : Trip}

/-- A request that is on its way goes on. -/
theorem Inv.setTrip (h : Inv cfg maxRetries retry s) (hout : trip ≠ .out → s.trip t ≠ .out)
    (hpolicy : trip.hasFailed = true → retry t ≠ none) :
    Inv cfg maxRetries retry (s.setTrip t trip) := by
  refine ⟨h.counted, h.roomy, fun u hu => ?_, fun ts hts => h.few ts fun u hu => ⟨(hts u hu).1, ?_⟩⟩
  · by_cases hut : u = t
    · subst hut
      simp only [Traffic.setTrip, Function.update_self] at hu
      exact hpolicy hu
    · simp only [Traffic.setTrip, Function.update_of_ne hut] at hu
      exact h.policy u hu
  · have hnow := (hts u hu).2
    by_cases hut : u = t
    · subst hut
      simp only [Traffic.setTrip, Function.update_self] at hnow
      exact hout hnow
    · simpa only [Traffic.setTrip, Function.update_of_ne hut] using hnow

/-- A request starts, while there are few others that may be retried. -/
theorem Inv.start (h : Inv cfg maxRetries retry s)
    (hfew : retry t ≠ none → ∀ ts : Finset ι, (∀ u ∈ ts, MayRetry retry s u) →
      ts.card < maxRetries) :
    Inv cfg maxRetries retry (s.setTrip t (.attempting 0)) := by
  refine ⟨h.counted, h.roomy, fun u hu => ?_, fun ts hts => ?_⟩
  · by_cases hut : u = t
    · subst hut
      simp only [Traffic.setTrip, Function.update_self] at hu
      cases hu
    · simp only [Traffic.setTrip, Function.update_of_ne hut] at hu
      exact h.policy u hu
  · have hothers : ∀ u ∈ ts, u ≠ t → MayRetry retry s u := by
      intro u hu hut
      obtain ⟨hsome, hout⟩ := hts u hu
      simp only [Traffic.setTrip, Function.update_of_ne hut] at hout
      exact ⟨hsome, hout⟩
    by_cases ht : t ∈ ts
    · have hlt := hfew (hts t ht).1 (ts.erase t) fun u hu =>
        hothers u (Finset.mem_of_mem_erase hu) (Finset.ne_of_mem_erase hu)
      rw [Finset.card_erase_of_mem ht] at hlt
      omega
    · exact h.few ts fun u hu => hothers u hu fun hut => ht (hut ▸ hu)

theorem Inv.act (h : Inv cfg maxRetries retry s) {e : Ending}
    (hspaced : Spaced cfg maxRetries retry s (.act t e)) :
    Inv cfg maxRetries retry (s.step cfg retry (.act t e)) := by
  obtain ⟨hread, htake, hfew⟩ := hspaced
  obtain ⟨p, hphase, hmove⟩ := Circuit.exists_move cfg s.circuit t e
  have hcounted := h.counted.move hphase hmove
  have hroomy := h.roomy.move hphase hmove hread htake
  unfold Traffic.step
  dsimp only
  split
  · rename_i b ht
    exact (h.start (hfew b ht)).circuit hcounted hroomy
  · split
    · exact h.circuit hcounted hroomy
    · exact h
  · exact h.circuit hcounted hroomy

theorem Inv.answer (h : Inv cfg maxRetries retry s) (status : Option ℕ) :
    Inv cfg maxRetries retry (s.step cfg retry (.answer t status)) := by
  unfold Traffic.step
  dsimp only
  split
  · rename_i attempt ht
    refine h.setTrip (fun _ => by rw [ht]; nofun) fun hfailed hnone => ?_
    rw [hnone] at hfailed
    cases hfailed
  · exact h

theorem Inv.wake (h : Inv cfg maxRetries retry s) :
    Inv cfg maxRetries retry (s.step cfg retry (.wake t)) := by
  unfold Traffic.step
  dsimp only
  split
  · rename_i attempt ht
    exact h.setTrip (fun _ => by rw [ht]; nofun) fun _ => h.policy t (by rw [ht]; rfl)
  · exact h

theorem Inv.step (h : Inv cfg maxRetries retry s) {a : Action ι}
    (hspaced : Spaced cfg maxRetries retry s a) :
    Inv cfg maxRetries retry (s.step cfg retry a) := by
  cases a with
  | tick d =>
    exact h.circuit ⟨h.counted.requests, h.counted.connections⟩
      ⟨h.roomy.once, h.roomy.connection, h.roomy.request, h.roomy.connections_le,
        h.roomy.requests_le⟩
  | act t e => exact h.act hspaced
  | answer t status => exact h.answer status
  | wake t => exact h.wake

end Step

end Traffic

theorem newCircuitBreaker_nonneg (maxConn maxReq failThreshold : UInt32) (openDur : Option ℤ) :
    0 ≤ (newCircuitBreaker maxConn maxReq failThreshold openDur).maxConnections ∧
      0 ≤ (newCircuitBreaker maxConn maxReq failThreshold openDur).maxRequests := by
  unfold newCircuitBreaker
  dsimp only
  constructor <;> split <;> omega

namespace Traffic

variable {ι : Type} [DecidableEq ι]

/-- In every run of spaced steps, the limits are kept in every state. -/
theorem withinLimits_of_spaced (maxConn maxReq maxRetry failThreshold : UInt32)
    (openDur : Option ℤ) (retry : ι → Option RouteRetry) (now : ℤ) (run : List (Action ι))
    (h : Along (step (newCircuitBreaker maxConn maxReq failThreshold openDur) retry)
      (Spaced (newCircuitBreaker maxConn maxReq failThreshold openDur) (maxRetries maxRetry) retry)
      (new now) run) :
    Always (step (newCircuitBreaker maxConn maxReq failThreshold openDur) retry)
      (WithinLimits (newCircuitBreaker maxConn maxReq failThreshold openDur) (maxRetries maxRetry))
      (new now) run :=
  have ⟨hc, hr⟩ := newCircuitBreaker_nonneg maxConn maxReq failThreshold openDur
  (h.always (fun _ _ hi ha => hi.step ha) (inv_new hc hr now)).mono fun _ hi => hi.withinLimits

section Instances

variable [Fintype ι]

instance (cfg : BreakerConfig) (n : ℕ) (s : Traffic ι) : Decidable (WithinLimits cfg n s) :=
  inferInstanceAs (Decidable (_ ∧ _))

instance (retry : ι → Option RouteRetry) (s : Traffic ι) (t : ι) :
    Decidable (MayRetry retry s t) := inferInstanceAs (Decidable (_ ∧ _))

instance (cfg : BreakerConfig) (n : ℕ) (retry : ι → Option RouteRetry) (s : Traffic ι) :
    (a : Action ι) → Decidable (Spaced cfg n retry s a)
  | .act _ _ => inferInstanceAs (Decidable (_ ∧ _ ∧ _))
  | .tick _ | .answer _ _ | .wake _ => isTrue trivial

end Instances

/-- A request takes some operations in a row. -/
def acts (t : ι) (e : Ending) (n : ℕ) : List (Action ι) := List.replicate n (.act t e)

/-- With limits of one, a request is served and retried once, and another one is turned away. -/
theorem withinLimits_one_by_one :
    Always (step (newCircuitBreaker 1 1 0 none) fun _ => some { attempts := 1 })
      (WithinLimits (newCircuitBreaker 1 1 0 none) (maxRetries 1)) (new 0 : Traffic (Fin 2))
      (acts 0 .success 5 ++ [.answer 0 (some 503), .wake 0] ++ acts 1 .success 2 ++
        [.answer 0 (some 200)] ++ acts 0 .success 5) :=
  withinLimits_of_spaced 1 1 1 0 none _ 0 _ (by decide +kernel)

def after (cfg : BreakerConfig) (retry : ι → Option RouteRetry) (s : Traffic ι)
    (run : List (Action ι)) : Traffic ι :=
  run.foldl (step cfg retry) s

/-- Three requests read the counts before any of them raises them. -/
def raced : Traffic (Fin 3) :=
  after (newCircuitBreaker 1 1 1 none) (fun _ => none) (new 0)
    (acts 0 .success 3 ++ acts 1 .failure 3 ++ acts 2 .success 3 ++ acts 0 .success 2 ++
      acts 1 .failure 2 ++ acts 2 .success 2)

/-- One of them fails and opens the circuit; when the time is over, a probe is let through. -/
def probed : Traffic (Fin 3) :=
  after (newCircuitBreaker 1 1 1 none) (fun _ => none) raced
    ([.answer 1 none] ++ acts 1 .failure 6 ++ [.tick 30000000001] ++ acts 1 .success 7)

/-- Two requests fail and are retried. -/
def retried : Traffic (Fin 2) :=
  after (newCircuitBreaker 0 0 0 none) (fun _ => some { attempts := 1 }) (new 0)
    (acts 0 .success 5 ++ acts 1 .success 5 ++
      [.answer 0 none, .answer 1 none, .wake 0, .wake 1])

/-- The limits are exceeded in the closed and in the half-open state, and so is the limit of the
retries. -/
theorem limits_exceeded :
    (raced.circuit.state = .closed ∧
      ¬WithinLimits (newCircuitBreaker 1 1 1 none) (maxRetries 0) raced) ∧
    (probed.circuit.state = .halfOpen ∧
      ¬WithinLimits (newCircuitBreaker 1 1 1 none) (maxRetries 0) probed) ∧
    ¬WithinLimits (newCircuitBreaker 0 0 0 none) (maxRetries 1) retried := by
  decide +kernel

end Traffic

end Vrata.Proxy

import Vrata.Lib.Census
import Vrata.Lib.Runs
import Vrata.Proxy.Pool

/-!
# Least request

Reference: `server/internal/proxy/balancer.go` (`LeastRequestBalancer`), `pool.go` (`Pick`), and
`forwardHandler` of `handler.go`.

The balancer counts the requests of every endpoint: `Pick` counts one up and `Done` counts it down.
The two are called on different ways through the handler. `Pick` does not ask the balancer when a
single endpoint is healthy, and such a request is counted down all the same; a request that the circuit
breaker turns away after `Pick` has been counted up and is never counted down.

A run is any sequence of requests taking their next steps and of changes to the health of the
endpoints; the answers of the breaker are part of the run. `accurate_iff` says that the counts are
right throughout exactly the runs in which no request arrives while a single endpoint is healthy and
none is turned away after it has been given an endpoint, and that `Pick` then chooses as it should.
-/

namespace Vrata.Proxy

open Server Runs Census

/-! ## The smallest count -/

section Fewest

variable {inflight : String → Int64} {dests : List DestinationRef}

theorem foldl_fewest (inflight : String → Int64) (dests : List DestinationRef)
    (acc : String × Int64) :
    let r := dests.foldl (fun acc d =>
      if inflight d.destinationID < acc.2 then (d.destinationID, inflight d.destinationID)
      else acc) acc
    r.2 ≤ acc.2 ∧ (∀ d ∈ dests, r.2 ≤ inflight d.destinationID) ∧
      (r = acc ∨ r.2 = inflight r.1 ∧ r.2 < acc.2) := by
  induction dests generalizing acc with
  | nil => exact ⟨Int64.le_refl _, nofun, Or.inl rfl⟩
  | cons d dests ih =>
    rw [List.foldl_cons]
    split
    · rename_i hlt
      obtain ⟨hle, hall, hcase⟩ := ih (d.destinationID, inflight d.destinationID)
      refine ⟨Int64.le_trans hle (Int64.le_of_lt hlt), ?_, Or.inr ?_⟩
      · intro e he
        rcases List.mem_cons.mp he with rfl | he
        · exact hle
        · exact hall e he
      · rcases hcase with heq | ⟨heq, hless⟩
        · rw [heq]
          exact ⟨rfl, hlt⟩
        · exact ⟨heq, Int64.lt_trans hless hlt⟩
    · rename_i hge
      obtain ⟨hle, hall, hcase⟩ := ih acc
      refine ⟨hle, ?_, hcase⟩
      intro e he
      rcases List.mem_cons.mp he with rfl | he
      · exact Int64.le_trans hle (Int64.not_lt.mp hge)
      · exact hall e he

/-- A destination that is chosen has the smallest count, and it is not the largest number. -/
theorem fewest_spec (h : fewest inflight dests "" Int64.maxValue ≠ "") :
    inflight (fewest inflight dests "" Int64.maxValue) < Int64.maxValue ∧
      ∀ d ∈ dests, inflight (fewest inflight dests "" Int64.maxValue) ≤
        inflight d.destinationID := by
  obtain ⟨_, hall, hcase⟩ := foldl_fewest inflight dests ("", Int64.maxValue)
  rcases hcase with heq | ⟨heq, hlt⟩
  · exact absurd (congrArg Prod.fst heq) h
  · rw [heq] at hall hlt
    exact ⟨hlt, hall⟩

theorem toInt_add_one {n : Int64} (h : n < Int64.maxValue) : (n + 1).toInt = n.toInt + 1 := by
  have hlt := Int64.lt_iff_toInt_lt.mp h
  have hmax : Int64.maxValue.toInt = 9223372036854775807 := by decide
  have hmin : Int64.minValue.toInt = -9223372036854775808 := by decide
  have hone : (1 : Int64).toInt = 1 := by decide
  have hge := n.minValue_le_toInt
  rw [Int64.toInt_add, hone, Int.bmod_eq_of_le] <;> omega

theorem toInt_sub_one {n : Int64} (h : 0 < n.toInt) : (n - 1).toInt = n.toInt - 1 := by
  have hmax : Int64.maxValue.toInt = 9223372036854775807 := by decide
  have hone : (1 : Int64).toInt = 1 := by decide
  have hle := n.toInt_le
  rw [Int64.toInt_sub, hone, Int.bmod_eq_of_le] <;> omega

end Fewest

/-! ## Changes of health -/

def Endpoint.withHealth (health : String → Bool) (ep : Endpoint) : Endpoint :=
  { ep with healthy := health ep.id }

/-- The pool with other health flags; its balancer has been built from the same endpoints. -/
def DestinationPool.withHealth {H : Hashing} (pool : DestinationPool H) (health : String → Bool) :
    DestinationPool H where
  endpoints := pool.endpoints.map (Endpoint.withHealth health)
  balancing := pool.balancing
  sessionStore := pool.sessionStore
  balancer := pool.balancer
  built := by
    have hrefs : endpointRefs (pool.endpoints.map (Endpoint.withHealth health)) =
        endpointRefs pool.endpoints := by
      rw [endpointRefs, List.map_map]
      rfl
    rw [hrefs]
    exact pool.built

/-! ## What `Pick` does -/

namespace DestinationPool

variable {H : Hashing} {pool : DestinationPool H} {st : BalancerState}

/-- An endpoint with the smallest count. -/
def Least (pool : DestinationPool H) (st : BalancerState) (ep : Endpoint) : Prop :=
  ep ∈ pool.healthyEndpoints ∧
    ∀ ep' ∈ pool.healthyEndpoints, st.inflight ep.id ≤ st.inflight ep'.id

/-- Among several, an endpoint with the smallest count is chosen and counted up, unless all counts
have reached the largest number. -/
theorem pick_leastRequest (st : BalancerState) (hb : pool.balancer = some .leastRequest)
    (htwo : 2 ≤ pool.healthyEndpoints.length) (rnd : Random) (r : ClientRequest) :
    (∀ ep ∈ pool.healthyEndpoints, st.inflight ep.id = Int64.maxValue) ∧
        pool.pick rnd st r = .ok (none, st) ∨
      ∃ ep, pool.Least st ep ∧ st.inflight ep.id < Int64.maxValue ∧
        pool.pick rnd st r = .ok (some ep, { st with
          inflight := Function.update st.inflight ep.id (st.inflight ep.id + 1) }) := by
  rw [pick_of_balancer hb htwo, Balancer.pick]
  split
  · rename_i hbest
    refine Or.inl ⟨fun ep hep => ?_, rfl⟩
    have hempty := empty_notMem_endpointRefs pool.healthyEndpoints
    by_contra hne
    refine hempty (hbest ▸ (fewest_mem_iff hempty).mpr ⟨⟨ep.id, 1⟩, ?_, ?_⟩)
    · exact List.mem_map.mpr ⟨ep, hep, rfl⟩
    · exact Int64.lt_of_le_of_ne (Int64.le_maxValue _) hne
  · rename_i hbest
    obtain ⟨hlt, hmin⟩ := fewest_spec hbest
    have hmem := (fewest_eq_or_mem st.inflight (endpointRefs pool.healthyEndpoints) ""
      Int64.maxValue).resolve_left hbest
    obtain ⟨d, hd, hid⟩ := List.mem_map.mp hmem
    obtain ⟨ep, hep, rfl⟩ := List.mem_map.mp hd
    replace hid : ep.id = fewest st.inflight (endpointRefs pool.healthyEndpoints) ""
      Int64.maxValue := hid
    rw [← hid] at hlt hmin ⊢
    refine Or.inr ⟨ep, ⟨hep, fun ep' hep' => ?_⟩, hlt, ?_⟩
    · exact hmin ⟨ep'.id, 1⟩ (List.mem_map.mpr ⟨ep', hep', rfl⟩)
    · rw [lookup_healthy.mpr ⟨hep, rfl⟩]

end DestinationPool

/-! ## Requests -/

/-- Where a request is: `Pick` has given it an endpoint, or it is being served there and will call
`Done`. -/
inductive Place where
  | idle
  | chosen (id : String)
  | serving (id : String)
deriving DecidableEq, Repr

/-- In progress on the endpoint. -/
def Place.isOn (id : String) : Place → Bool
  | .idle => false
  | .chosen id' | .serving id' => id' = id

/-- A pool with least request and its requests. -/
structure Balanced (H : Hashing) (ι : Type) where
  pool : DestinationPool H
  leastRequest : pool.balancer = some .leastRequest
  st : BalancerState
  place : ι → Place

namespace Balanced

variable {H : Hashing} {ι : Type}

/-- A pool that has just been made. -/
def new (pool : DestinationPool H) (h : pool.balancer = some .leastRequest) : Balanced H ι where
  pool := pool
  leastRequest := h
  st := ⟨0, fun _ => 0⟩
  place _ := .idle

/-- The health of endpoints changes, a request is given an endpoint, the breaker lets it through or
turns it away, or it is over. -/
inductive Action (ι : Type) where
  | health (health : String → Bool)
  | pick (t : ι) (rnd : Random) (r : ClientRequest)
  | allow (t : ι) (answer : Bool)
  | done (t : ι)

/-- `Done`. -/
def done (inflight : String → Int64) (id : String) : String → Int64 :=
  Function.update inflight id (if inflight id - 1 < 0 then 0 else inflight id - 1)

variable [DecidableEq ι]

def goto (s : Balanced H ι) (t : ι) (place : Place) : Balanced H ι :=
  { s with place := Function.update s.place t place }

def step (s : Balanced H ι) : Action ι → Balanced H ι
  | .health health => { s with pool := s.pool.withHealth health }
  | .pick t rnd r =>
    match s.place t with
    | .idle =>
      match s.pool.pick rnd s.st r with
      | .ok (some ep, st) => { s.goto t (.chosen ep.id) with st := st }
      | .ok (none, st) => { s with st := st }
      | .error _ => s
    | _ => s
  | .allow t answer =>
    match s.place t with
    | .chosen id => if answer then s.goto t (.serving id) else s.goto t .idle
    | _ => s
  | .done t =>
    match s.place t with
    | .serving id =>
      { s.goto t .idle with st := { s.st with inflight := done s.st.inflight id } }
    | _ => s

end Balanced

/-! ## The property and the condition -/

namespace Balanced

variable {H : Hashing} {ι : Type}

/-- The count of every endpoint is the number of requests in progress there. -/
def Accurate (s : Balanced H ι) : Prop :=
  ∀ id, Count (Place.isOn id) s.place (s.st.inflight id).toInt

/-- A request that arrives is given a healthy endpoint with the fewest requests in progress, unless
every healthy endpoint has as many as can be counted. -/
def PicksLeast (s : Balanced H ι) : Action ι → Prop
  | .pick t rnd r => s.place t = .idle →
    (∃ ep ∈ s.pool.healthyEndpoints, ∃ n < Int64.maxValue.toInt,
      Count (Place.isOn ep.id) s.place n) →
    ∃ ep st, s.pool.pick rnd s.st r = .ok (some ep, st) ∧ ep ∈ s.pool.healthyEndpoints ∧
      ∀ ep' ∈ s.pool.healthyEndpoints, ∀ n n', Count (Place.isOn ep.id) s.place n →
        Count (Place.isOn ep'.id) s.place n' → n ≤ n'
  | _ => True

/-- No request arrives while a single endpoint is healthy, and none that has been given an endpoint
is turned away. -/
def Straight (s : Balanced H ι) : Action ι → Prop
  | .pick t _ _ => s.place t = .idle → s.pool.healthyEndpoints.length ≠ 1
  | .allow t answer => ∀ id, s.place t = .chosen id → answer = true
  | _ => True

/-! ## Steps -/

variable {s : Balanced H ι} {t : ι} {id id' : String}

theorem accurate_new {pool : DestinationPool H} (h : pool.balancer = some .leastRequest) :
    Accurate (new pool h : Balanced H ι) :=
  fun _ => count_zero fun _ => rfl

variable [DecidableEq ι]

/-- The requests on an endpoint after a request has been given one. -/
theorem count_arrive (id : String) {n : ℤ} (h : Count (Place.isOn id') s.place n)
    (ht : s.place t = .idle) :
    Count (Place.isOn id') (s.goto t (.chosen id)).place (if id' = id then n + 1 else n) := by
  split
  · rename_i heq
    exact h.enter (by rw [ht]; rfl) (by simp [Place.isOn, heq])
  · rename_i hne
    exact h.stay (by simp [ht, Place.isOn, Ne.symm hne])

/-- The requests on an endpoint after a request has gone. -/
theorem count_leave {n : ℤ} (h : Count (Place.isOn id') s.place n)
    (ht : s.place t = .chosen id ∨ s.place t = .serving id) :
    Count (Place.isOn id') (s.goto t .idle).place (if id' = id then n - 1 else n) := by
  have hon : (s.place t).isOn id' = decide (id = id') := by
    rcases ht with ht | ht <;> rw [ht] <;> rfl
  split
  · rename_i heq
    exact h.leave (by rw [hon]; simp [heq]) rfl
  · rename_i hne
    exact h.stay (by rw [hon]; simp [Place.isOn, Ne.symm hne])

theorem accurate_pick (h : Accurate s) {rnd : Random} {r : ClientRequest} (ht : s.place t = .idle) :
    Accurate (s.step (.pick t rnd r)) ↔ s.pool.healthyEndpoints.length ≠ 1 := by
  simp only [step, ht]
  match hlen : s.pool.healthyEndpoints with
  | [] =>
    have hpick : s.pool.pick rnd s.st r = .ok (none, s.st) :=
      DestinationPool.select_of_none hlen .pick
    rw [hpick]
    exact iff_of_true h (by decide)
  | [ep] =>
    rw [DestinationPool.pick_of_one hlen]
    refine iff_of_false (fun hacc => ?_) (by simp)
    have hone := count_arrive ep.id (h ep.id) ht
    rw [if_pos rfl] at hone
    have heq := hone.unique (hacc ep.id)
    simp only at heq
    omega
  | _ :: _ :: _ =>
    have htwo : 2 ≤ s.pool.healthyEndpoints.length := by simp [hlen]
    refine iff_of_true ?_ (by simp)
    rcases DestinationPool.pick_leastRequest s.st s.leastRequest htwo rnd r with
      ⟨_, hpick⟩ | ⟨ep, _, hlt, hpick⟩
    · rw [hpick]
      exact h
    · rw [hpick]
      intro id
      have hcount := count_arrive ep.id (h id) ht
      by_cases hid : id = ep.id
      · subst hid
        simpa [toInt_add_one hlt] using hcount
      · simpa [hid] using hcount

theorem accurate_allow (h : Accurate s) {answer : Bool} (ht : s.place t = .chosen id) :
    Accurate (s.step (.allow t answer)) ↔ answer = true := by
  simp only [step, ht]
  cases answer with
  | true =>
    refine iff_of_true (fun id' => ?_) rfl
    exact (h id').stay (by rw [ht]; rfl)
  | false =>
    refine iff_of_false (fun hacc => ?_) (by decide)
    have hone := count_leave (h id) (Or.inl ht)
    rw [if_pos rfl] at hone
    have heq := hone.unique (hacc id)
    simp only [Bool.false_eq_true, if_false, goto] at heq
    omega

theorem accurate_done (h : Accurate s) (ht : s.place t = .serving id) :
    Accurate (s.step (.done t)) := by
  simp only [step, ht]
  intro id'
  have hcount := count_leave (h id') (Or.inr ht)
  have hpos : 0 < (s.st.inflight id).toInt := (h id).pos (t := t) (by simp [ht, Place.isOn])
  have hnonneg : ¬s.st.inflight id - 1 < 0 := by
    rw [Int64.lt_iff_toInt_lt, toInt_sub_one hpos]
    have hzero : (0 : Int64).toInt = 0 := by decide
    omega
  by_cases hid : id' = id
  · subst hid
    simpa [done, hnonneg, toInt_sub_one hpos] using hcount
  · simpa [done, hid] using hcount

/-- A step keeps the counts right exactly if it is straight. -/
theorem accurate_step (h : Accurate s) (a : Action ι) : Accurate (s.step a) ↔ s.Straight a := by
  cases a with
  | health health => exact iff_of_true h trivial
  | pick t rnd r =>
    cases ht : s.place t with
    | idle =>
      rw [accurate_pick h ht]
      exact ⟨fun hne _ => hne, fun hne => hne ht⟩
    | chosen | serving =>
      simp only [step, ht, Straight]
      exact iff_of_true h nofun
  | allow t answer =>
    cases ht : s.place t with
    | chosen id =>
      rw [accurate_allow h ht]
      exact ⟨fun hyes _ _ => hyes, fun hyes => hyes id ht⟩
    | idle | serving =>
      simp only [step, ht, Straight]
      exact iff_of_true h nofun
  | done t =>
    refine iff_of_true ?_ trivial
    cases ht : s.place t with
    | serving id => exact accurate_done h ht
    | idle | chosen =>
      simp only [step, ht]
      exact h

omit [DecidableEq ι] in
/-- While the counts are right, `Pick` chooses as it should. -/
theorem picksLeast_of_straight (h : Accurate s) {a : Action ι} (hs : s.Straight a) :
    s.PicksLeast a := by
  cases a with
  | pick t rnd r =>
    rintro ht ⟨ep₀, hep₀, n₀, hlt₀, hcount₀⟩
    have htwo : 2 ≤ s.pool.healthyEndpoints.length := by
      have hpos : 0 < s.pool.healthyEndpoints.length := List.length_pos_of_mem hep₀
      have hne := hs ht
      omega
    rcases DestinationPool.pick_leastRequest s.st s.leastRequest htwo rnd r with
      ⟨hfull, _⟩ | ⟨ep, ⟨hep, hmin⟩, _, hpick⟩
    · have heq := hcount₀.unique (h ep₀.id)
      rw [hfull ep₀ hep₀] at heq
      omega
    · refine ⟨ep, _, hpick, hep, fun ep' hep' n n' hn hn' => ?_⟩
      rw [hn.unique (h ep.id), hn'.unique (h ep'.id)]
      exact Int64.le_iff_toInt_le.mp (hmin ep' hep')
  | health | allow | done => trivial

/-- The counts are right in every state of a run if and only if no request arrives while a single
endpoint is healthy and none is turned away after it has been given an endpoint. In such a run every
request is given a healthy endpoint with the fewest requests in progress. -/
theorem accurate_iff (pool : DestinationPool H) (h : pool.balancer = some .leastRequest)
    (run : List (Action ι)) :
    (Always step Accurate (new pool h) run ↔ Along step Straight (new pool h) run) ∧
      (Along step Straight (new pool h) run → Along step PicksLeast (new pool h) run) := by
  refine ⟨always_iff_along (fun _ a hs => accurate_step hs a) (accurate_new h), fun hrun => ?_⟩
  exact hrun.along (fun _ a hs ha => (accurate_step hs a).mpr ha)
    (fun _ _ hs ha => picksLeast_of_straight hs ha) (accurate_new h)

end Balanced

/-! ## Two endpoints -/

/-- Hash functions that are all constant. -/
def constantHashing : Hashing where
  crc32 _ := 0
  md5 _ := (0, 0)
  sort l := l.mergeSort fun a b => a.hash ≤ b.hash
  sort_perm l := List.mergeSort_perm l _
  sort_sorted l := by
    have hsorted : (l.mergeSort fun a b => a.hash ≤ b.hash).Pairwise fun a b => a.hash ≤ b.hash :=
      (List.pairwise_mergeSort (fun a b c => by simpa using UInt32.le_trans)
        (fun a b => by simpa using UInt32.le_total _ _) l).imp fun h => of_decide_eq_true h
    exact hsorted

def firstChoice : Random where
  intn _ := 0
  intn_lt _ h := h

/-- A least request pool of the two endpoints. -/
def leastPair (first second : Bool) : DestinationPool constantHashing where
  endpoints := DestinationPool.pair first second
  balancing := some { algorithm := .leastRequest }
  sessionStore := false
  balancer := some .leastRequest
  built := rfl

namespace Balanced

instance {H : Hashing} {ι : Type} (s : Balanced H ι) : (a : Action ι) → Decidable (s.Straight a)
  | .pick _ _ _ => inferInstanceAs (Decidable (_ → _))
  | .allow t answer =>
    match ht : s.place t with
    | .chosen id =>
      decidable_of_iff (answer = true) ⟨fun hyes _ _ => hyes, fun hyes => hyes id ht⟩
    | .idle | .serving _ => isTrue fun _ heq => nomatch ht.symm.trans heq
  | .health _ | .done _ => isTrue trivial

def client : ClientRequest := ⟨"192.0.2.1", "", none⟩

/-- Two requests at the same time, with both endpoints healthy. -/
theorem accurate_two_requests :
    Always step Accurate (new (leastPair true true) rfl : Balanced constantHashing (Fin 2))
      [.pick 0 firstChoice client, .allow 0 true, .pick 1 firstChoice client, .allow 1 true,
        .done 0, .done 1] :=
  (accurate_iff (leastPair true true) rfl _).1.mpr (by decide +kernel)

/-- The pool with the given health, before the first request. -/
def idlePair (first second : Bool) : Balanced constantHashing (Fin 1) :=
  new (leastPair first second) rfl

/-- A request that arrives while one endpoint is healthy is not counted, and one that is turned away
stays counted. -/
theorem counts_drift :
    ¬Always step Accurate (idlePair false true) [.pick 0 firstChoice client] ∧
    ¬Always step Accurate (idlePair true true)
      [.pick 0 firstChoice client, .allow 0 false] := by
  have hnew : ∀ first second, Accurate (idlePair first second) := fun _ _ => accurate_new rfl
  constructor
  · intro h
    have hlast : Accurate (step (idlePair false true) (.pick 0 firstChoice client)) :=
      h _ (List.prefix_refl _)
    exact absurd ((accurate_pick (hnew false true) rfl).mp hlast) (by decide)
  · intro h
    have hfirst : Accurate (step (idlePair true true) (.pick 0 firstChoice client)) :=
      (accurate_pick (hnew true true) rfl).mpr (by decide)
    have hchosen : (step (idlePair true true) (.pick 0 firstChoice client)).place 0 =
        .chosen "10.0.0.1:80" := by decide +kernel
    have hlast : Accurate (step (step (idlePair true true) (.pick 0 firstChoice client))
        (.allow 0 false)) := h _ (List.prefix_refl _)
    exact absurd ((accurate_allow hfirst hchosen).mp hlast) (by decide)

end Balanced

end Vrata.Proxy

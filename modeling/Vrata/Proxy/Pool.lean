import Vrata.Proxy.Balancer

/-!
# Choosing an endpoint

Reference: `server/internal/proxy/pool.go`, and `buildBalancer` of `endpoint.go` with the end of
`BuildTable` in `table.go`.

A pool is built once, with the tables of its balancer made from all its endpoints; the health of the
endpoints changes afterwards. `Pick` and `PickByHash` hand the healthy endpoints to the balancer. Ring
hash and maglev look the hash up in the old table, and what stands there may belong to an endpoint
that is not healthy any more: the lookup then gives nothing, and nothing else is tried.

`chooses_iff` says when an endpoint is chosen.
-/

namespace Vrata.Proxy

open Server

/-! ## Pools -/

/-- `EndpointLBPolicy`. A policy that is absent or unknown is `unset`. -/
inductive EndpointLBPolicy where
  | roundRobin | leastRequest | ringHash | maglev | random | sticky | unset
deriving DecidableEq, Repr

/-- `EndpointBalancing`; sizes that are absent are zero. -/
structure EndpointBalancing where
  algorithm : EndpointLBPolicy
  ringSizeMin : UInt64 := 0
  ringSizeMax : UInt64 := 0
  tableSize : UInt64 := 0

/-- The conversion of a size to `int`. -/
def sizeOr (size : UInt64) (default : ℤ) : ℤ := if 0 < size then size.toInt64.toInt else default

def endpointRefs (eps : List Endpoint) : List DestinationRef :=
  eps.map fun ep => ⟨ep.id, 1⟩

theorem empty_notMem_endpointRefs (eps : List Endpoint) :
    "" ∉ (endpointRefs eps).map DestinationRef.destinationID := by
  intro hmem
  obtain ⟨d, hd, hid⟩ := List.mem_map.mp hmem
  obtain ⟨ep, _, rfl⟩ := List.mem_map.mp hd
  exact ep.id_ne_empty hid

/-- `buildBalancer`, followed by the `Build` of the balancers that have one. -/
def buildBalancer (H : Hashing) (eb : Option EndpointBalancing) (refs : List DestinationRef) :
    Except BuildFailure (Option Balancer) :=
  match eb with
  | none => .ok none
  | some eb =>
    match eb.algorithm with
    | .ringHash =>
      let size := newRingSize (sizeOr eb.ringSizeMin 1024) (sizeOr eb.ringSizeMax 8388608)
      .ok (some (.ringHash (buildRing H size refs)))
    | .maglev => do
      let table ← maglevTable H (newMaglevSize (sizeOr eb.tableSize 65537)) refs
      return some (.maglev table (refs.map DestinationRef.destinationID))
    | .leastRequest => .ok (some .leastRequest)
    | .random => .ok (some .random)
    | .roundRobin => .ok (some .roundRobin)
    | .sticky | .unset => .ok none

/-- A pool whose balancer has been built from its endpoints, healthy or not. -/
structure DestinationPool (H : Hashing) where
  endpoints : List Endpoint
  balancing : Option EndpointBalancing
  sessionStore : Bool
  balancer : Option Balancer
  built : buildBalancer H balancing (endpointRefs endpoints) = .ok balancer

/-- What a choice reads of a request: the address of the client, its cookie, and what the session
store answers for the cookie (`none` for an error). -/
structure ClientRequest where
  remoteHost : String
  cookie : String
  session : Option String

namespace DestinationPool

variable {H : Hashing} (pool : DestinationPool H)

def healthyEndpoints : List Endpoint := pool.endpoints.filter Endpoint.healthy

def isStickyEndpoint : Bool :=
  pool.balancing.any (fun eb => eb.algorithm = .sticky) && pool.sessionStore

/-- The client's endpoint if it has one that is healthy, or a random one. -/
def pickStickyEndpoint (rnd : Random) (r : ClientRequest) (healthy : List Endpoint) :
    Option Endpoint :=
  let pinned :=
    if r.cookie = "" then none
    else
      match r.session with
      | some epID => if epID = "" then none else lookup healthy epID
      | none => none
  match pinned with
  | some ep => some ep
  | none => healthy[rnd.intn healthy.length]?

def hashRequest (H : Hashing) (r : ClientRequest) : UInt32 := H.crc32 r.remoteHost

def pick (rnd : Random) (st : BalancerState) (r : ClientRequest) :
    Except Panic (Option Endpoint × BalancerState) :=
  match pool.endpoints with
  | [] => .ok (none, st)
  | [ep] => .ok (if ep.healthy then some ep else none, st)
  | _ =>
    match pool.healthyEndpoints with
    | [] => .ok (none, st)
    | [ep] => .ok (some ep, st)
    | healthy =>
      if pool.isStickyEndpoint then .ok (pickStickyEndpoint rnd r healthy, st)
      else
        match pool.balancer with
        | some b => b.pick rnd st (endpointRefs healthy) healthy (hashRequest H r)
        | none => .ok (healthy[rnd.intn healthy.length]?, st)

def pickByHash (rnd : Random) (st : BalancerState) (h : UInt32) (r : ClientRequest) :
    Except Panic (Option Endpoint × BalancerState) :=
  match pool.endpoints with
  | [] => .ok (none, st)
  | [ep] => .ok (if ep.healthy then some ep else none, st)
  | _ =>
    match pool.healthyEndpoints with
    | [] => .ok (none, st)
    | healthy =>
      match pool.balancer with
      | some (.ringHash ring) =>
        ((Balancer.ringHash ring).pickByHash rnd healthy h).map fun ep => (ep, st)
      | some (.maglev table ids) =>
        ((Balancer.maglev table ids).pickByHash rnd healthy h).map fun ep => (ep, st)
      | _ => pool.pick rnd st r

/-! ## The property and the condition -/

/-- The two ways of choosing. -/
inductive Selector where
  | pick
  | byHash (h : UInt32)
deriving DecidableEq, Repr

/-- The hash that tables are asked for. -/
def Selector.hash (H : Hashing) (r : ClientRequest) : Selector → UInt32
  | .pick => hashRequest H r
  | .byHash h => h

def select (rnd : Random) (st : BalancerState) (r : ClientRequest) :
    Selector → Except Panic (Option Endpoint × BalancerState)
  | .pick => pool.pick rnd st r
  | .byHash h => pool.pickByHash rnd st h r

/-- A healthy endpoint of the pool is chosen if there is one, and nothing otherwise. -/
def Chooses (result : Except Panic (Option Endpoint × BalancerState)) : Prop :=
  if ∃ ep ∈ pool.endpoints, ep.healthy = true then
    ∃ ep ∈ pool.endpoints, ep.healthy = true ∧ ∃ st, result = .ok (some ep, st)
  else ∃ st, result = .ok (none, st)

/-- What the balancer has for the hash is a healthy endpoint. For least request, the count of some
healthy endpoint is not at its maximum. -/
def Reaches (st : BalancerState) (h : UInt32) : Prop :=
  match pool.balancer with
  | some (.ringHash ring) => ∃ ep ∈ pool.healthyEndpoints, ringSlot ring h = some ep.id
  | some (.maglev table ids) =>
    ∃ ep ∈ pool.healthyEndpoints, maglevSlot table ids h = .ok (some ep.id)
  | some .leastRequest => ∃ ep ∈ pool.healthyEndpoints, st.inflight ep.id < Int64.maxValue
  | _ => True

/-- The hash is looked up even if a single endpoint is healthy. -/
def LooksUp : Selector → Prop
  | .pick => False
  | .byHash _ => match pool.balancer with
    | some (.ringHash _) | some (.maglev _ _) => True
    | _ => False

/-- When a choice is as it should be. -/
def Served (st : BalancerState) (r : ClientRequest) (sel : Selector) : Prop :=
  pool.healthyEndpoints = [] ∨ pool.endpoints.length = 1 ∨
    pool.healthyEndpoints.length = 1 ∧ ¬pool.LooksUp sel ∨ pool.Reaches st (sel.hash H r)

/-! ## What the balancers choose -/

/-- One of the endpoints is chosen. -/
def Found (eps : List Endpoint) (result : Except Panic (Option Endpoint × BalancerState)) : Prop :=
  ∃ ep ∈ eps, ∃ st, result = .ok (some ep, st)

section Balancers

variable {pool : DestinationPool H} {rnd : Random} {st : BalancerState} {h : UInt32}

/-- Healthy endpoints with one ID are one, so that it does not matter which of them the map has kept. -/
theorem lookup_healthy {id : String} {ep : Endpoint} :
    lookup pool.healthyEndpoints id = some ep ↔ ep ∈ pool.healthyEndpoints ∧ ep.id = id := by
  have hfound {ep : Endpoint} (h : lookup pool.healthyEndpoints id = some ep) :
      ep ∈ pool.healthyEndpoints ∧ ep.id = id :=
    ⟨List.mem_reverse.mp (List.mem_of_find?_eq_some h), by simpa using List.find?_some h⟩
  refine ⟨hfound, fun ⟨hep, hid⟩ => ?_⟩
  cases hlookup : lookup pool.healthyEndpoints id with
  | none => exact absurd (decide_eq_true hid) (List.find?_eq_none.mp hlookup ep (List.mem_reverse.mpr hep))
  | some ep' =>
    obtain ⟨hep', hid'⟩ := hfound hlookup
    rw [Endpoint.eq_of_id (hid'.trans hid.symm)
      ((List.mem_filter.mp hep').2.trans (List.mem_filter.mp hep).2.symm)]

theorem found_lookup {id : String} :
    Found pool.healthyEndpoints (.ok (lookup pool.healthyEndpoints id, st)) ↔
      ∃ ep ∈ pool.healthyEndpoints, ep.id = id := by
  constructor
  · rintro ⟨ep, hep, st', heq⟩
    have hsome : lookup pool.healthyEndpoints id = some ep := (Prod.mk.inj (Except.ok.inj heq)).1
    exact ⟨ep, hep, (lookup_healthy.mp hsome).2⟩
  · rintro ⟨ep, hep, hid⟩
    exact ⟨ep, hep, st, by rw [lookup_healthy.mpr ⟨hep, hid⟩]⟩

theorem found_getElem {i : ℕ} (hi : i < pool.healthyEndpoints.length) :
    Found pool.healthyEndpoints (.ok (pool.healthyEndpoints[i]?, st)) :=
  ⟨_, List.getElem_mem hi, st, by rw [List.getElem?_eq_getElem hi]⟩

/-- Looking up the ID of the `i`-th healthy endpoint. -/
theorem found_ref {i : ℕ} (hi : i < pool.healthyEndpoints.length) :
    Found pool.healthyEndpoints (.ok ((endpointRefs pool.healthyEndpoints)[i]?.bind fun d =>
      lookup pool.healthyEndpoints d.destinationID, st)) := by
  have hlen : i < (endpointRefs pool.healthyEndpoints).length := by simpa [endpointRefs] using hi
  rw [List.getElem?_eq_getElem hlen, Option.bind_some]
  refine found_lookup.mpr ⟨_, List.getElem_mem hi, ?_⟩
  simp [endpointRefs]

theorem built_ringHash {ring : List RingEntry} (hb : pool.balancer = some (.ringHash ring)) :
    ∃ size, ring = buildRing H size (endpointRefs pool.endpoints) := by
  have hbuilt := pool.built
  rw [hb] at hbuilt
  unfold buildBalancer at hbuilt
  split at hbuilt
  · cases hbuilt
  · split at hbuilt
    · exact ⟨_, (by simpa using hbuilt : _ = ring).symm⟩
    · cases htable : maglevTable H (newMaglevSize (sizeOr _ 65537)) (endpointRefs pool.endpoints) with
      | error e | ok table => rw [htable] at hbuilt; cases hbuilt
    all_goals cases hbuilt

theorem built_maglev {table : List (Option ℕ)} {ids : List String}
    (hb : pool.balancer = some (.maglev table ids)) :
    (∃ size, maglevTable H size (endpointRefs pool.endpoints) = .ok table) ∧
      ids = (endpointRefs pool.endpoints).map DestinationRef.destinationID := by
  have hbuilt := pool.built
  rw [hb] at hbuilt
  unfold buildBalancer at hbuilt
  split at hbuilt
  · cases hbuilt
  · split at hbuilt
    · cases hbuilt
    · cases htable : maglevTable H (newMaglevSize (sizeOr _ 65537)) (endpointRefs pool.endpoints) with
      | error e => rw [htable] at hbuilt; cases hbuilt
      | ok table' =>
        rw [htable] at hbuilt
        cases hbuilt
        exact ⟨⟨_, htable⟩, rfl⟩
    all_goals cases hbuilt

theorem found_error {e : Panic} : ¬Found pool.healthyEndpoints (.error e) := by
  rintro ⟨ep, _, st, heq⟩
  cases heq

theorem found_ringHash {ring : List RingEntry} (hb : pool.balancer = some (.ringHash ring))
    (hne : pool.endpoints ≠ []) :
    Found pool.healthyEndpoints (((Balancer.ringHash ring).pickByHash rnd pool.healthyEndpoints
      h).map fun ep => (ep, st)) ↔ pool.Reaches st h := by
  obtain ⟨size, rfl⟩ := built_ringHash hb
  have hrefs : endpointRefs pool.endpoints ≠ [] := by simpa [endpointRefs] using hne
  obtain ⟨d, _, hslot⟩ : ∃ d ∈ endpointRefs pool.endpoints,
      ringSlot (buildRing H size _) h = some d.destinationID := exists_ringSlot hrefs h
  simp only [Balancer.pickByHash, Reaches, hb, hslot, Except.map]
  rw [found_lookup]
  refine exists_congr fun ep => and_congr_right fun _ => ?_
  rw [Option.some.injEq, eq_comm]

theorem found_maglev {table : List (Option ℕ)} {ids : List String}
    (hb : pool.balancer = some (.maglev table ids)) (hne : pool.endpoints ≠ []) :
    Found pool.healthyEndpoints (((Balancer.maglev table ids).pickByHash rnd pool.healthyEndpoints
      h).map fun ep => (ep, st)) ↔ pool.Reaches st h := by
  obtain ⟨⟨size, hbuilt⟩, rfl⟩ := built_maglev hb
  have hrefs : endpointRefs pool.endpoints ≠ [] := by simpa [endpointRefs] using hne
  simp only [Balancer.pickByHash, Reaches, hb]
  by_cases hsize : size.toUInt32 = 0
  · -- the length of the table does not fit, and the division fails
    obtain ⟨hlen, hlt, _⟩ := maglevTable_full hrefs hbuilt
    have hpanic : maglevSlot table ((endpointRefs pool.endpoints).map
        DestinationRef.destinationID) h = .error .divideByZero := by
      have htable : table ≠ [] := by
        rintro rfl
        rw [List.length_nil] at hlen
        omega
      rw [maglevSlot, if_neg (by simp [htable, hrefs]), hlen, if_pos hsize]
    rw [hpanic]
    refine iff_of_false found_error ?_
    rintro ⟨ep, _, heq⟩
    cases heq
  · obtain ⟨d, _, hslot⟩ := exists_maglevSlot hrefs hbuilt hsize h
    rw [hslot]
    refine found_lookup.trans (exists_congr fun ep => and_congr_right fun _ => ?_)
    rw [Except.ok.injEq, Option.some.injEq, eq_comm]

/-- A balancer chooses a healthy endpoint if and only if it reaches one. -/
theorem found_pick {b : Balancer} (hb : pool.balancer = some b)
    (hne : pool.healthyEndpoints ≠ []) :
    Found pool.healthyEndpoints
      (b.pick rnd st (endpointRefs pool.healthyEndpoints) pool.healthyEndpoints h) ↔
        pool.Reaches st h := by
  have hpos : 0 < pool.healthyEndpoints.length := List.length_pos_iff.mpr hne
  have hlen : (endpointRefs pool.healthyEndpoints).length = pool.healthyEndpoints.length :=
    List.length_map _
  have hrefs : endpointRefs pool.healthyEndpoints ≠ [] := by simpa [endpointRefs] using hne
  have hendpoints : pool.endpoints ≠ [] := by
    intro hnil
    exact hne (by rw [healthyEndpoints, hnil, List.filter_nil])
  cases b with
  | ringHash ring => exact found_ringHash hb hendpoints
  | maglev table ids => exact found_maglev hb hendpoints
  | random =>
    simp only [Balancer.pick, if_neg hrefs, Reaches, hb, iff_true]
    exact found_ref (hlen ▸ rnd.intn_lt _ (hlen ▸ hpos))
  | roundRobin =>
    simp only [Balancer.pick, if_neg hrefs, Reaches, hb, iff_true]
    exact found_ref (hlen ▸ Nat.mod_lt _ (hlen ▸ hpos))
  | leastRequest =>
    have hempty := empty_notMem_endpointRefs pool.healthyEndpoints
    have hfew : fewest st.inflight (endpointRefs pool.healthyEndpoints) "" Int64.maxValue ∈ _ ↔
        ∃ d ∈ endpointRefs pool.healthyEndpoints,
          st.inflight d.destinationID < Int64.maxValue := fewest_mem_iff hempty
    have hreach : pool.Reaches st h ↔ ∃ d ∈ endpointRefs pool.healthyEndpoints,
        st.inflight d.destinationID < Int64.maxValue := by
      simp [Reaches, hb, endpointRefs]
    rw [hreach, ← hfew, Balancer.pick]
    rcases fewest_eq_or_mem st.inflight (endpointRefs pool.healthyEndpoints) "" Int64.maxValue
      with hbest | hbest
    · rw [if_pos hbest, hbest]
      refine iff_of_false ?_ hempty
      rintro ⟨ep, _, st', heq⟩
      cases heq
    · refine iff_of_true ?_ hbest
      have hne' : fewest st.inflight (endpointRefs pool.healthyEndpoints) "" Int64.maxValue ≠ "" :=
        fun heq => hempty (heq ▸ hbest)
      rw [if_neg hne']
      obtain ⟨d, hd, hid⟩ := List.mem_map.mp hbest
      obtain ⟨ep, hep, rfl⟩ := List.mem_map.mp hd
      exact found_lookup.mpr ⟨ep, hep, hid⟩

theorem found_pickStickyEndpoint (r : ClientRequest) (hne : pool.healthyEndpoints ≠ []) :
    Found pool.healthyEndpoints (.ok (pickStickyEndpoint rnd r pool.healthyEndpoints, st)) := by
  have hrandom := rnd.intn_lt _ (List.length_pos_iff.mpr hne)
  unfold pickStickyEndpoint
  dsimp only
  split
  · rename_i ep hpinned
    split at hpinned
    · cases hpinned
    · split at hpinned
      · split at hpinned
        · cases hpinned
        · exact ⟨ep, (lookup_healthy.mp hpinned).1, st, rfl⟩
      · cases hpinned
  · exact found_getElem hrandom

end Balancers

/-! ## The choice -/

section Choice

variable {pool : DestinationPool H} {rnd : Random} {st : BalancerState} {r : ClientRequest}

theorem chooses_iff_found {result : Except Panic (Option Endpoint × BalancerState)}
    (hne : pool.healthyEndpoints ≠ []) :
    pool.Chooses result ↔ Found pool.healthyEndpoints result := by
  obtain ⟨ep, hep⟩ := List.exists_mem_of_ne_nil _ hne
  rw [Chooses, if_pos ⟨ep, List.mem_filter.mp hep⟩]
  refine exists_congr fun ep => ?_
  rw [healthyEndpoints, List.mem_filter, and_assoc]

theorem balancer_of_sticky (h : pool.isStickyEndpoint = true) : pool.balancer = none := by
  have hbuilt := pool.built
  cases heb : pool.balancing with
  | none => simp [isStickyEndpoint, heb] at h
  | some eb =>
    have hsticky : eb.algorithm = .sticky := by
      simp only [isStickyEndpoint, heb, Option.any_some, Bool.and_eq_true, decide_eq_true_eq] at h
      exact h.1
    rw [heb, buildBalancer, hsticky] at hbuilt
    exact (Except.ok.inj hbuilt).symm

/-- A sticky pool has no balancer, so every healthy endpoint will do. -/
theorem reaches_of_sticky (h : pool.isStickyEndpoint = true) (hash : UInt32) :
    pool.Reaches st hash := by
  rw [Reaches, balancer_of_sticky h]
  trivial

theorem length_healthyEndpoints_le : pool.healthyEndpoints.length ≤ pool.endpoints.length :=
  List.length_filter_le _ _

/-- With two healthy endpoints, none of the short cuts is taken. -/
theorem pick_of_many (htwo : 2 ≤ pool.healthyEndpoints.length) (rnd : Random) (st : BalancerState)
    (r : ClientRequest) : pool.pick rnd st r =
      if pool.isStickyEndpoint then .ok (pickStickyEndpoint rnd r pool.healthyEndpoints, st)
      else
        match pool.balancer with
        | some b =>
          b.pick rnd st (endpointRefs pool.healthyEndpoints) pool.healthyEndpoints (hashRequest H r)
        | none => .ok (pool.healthyEndpoints[rnd.intn pool.healthyEndpoints.length]?, st) := by
  have hle : pool.healthyEndpoints.length ≤ pool.endpoints.length := length_healthyEndpoints_le
  unfold pick
  split
  · rename_i hnil
    rw [hnil, List.length_nil] at hle
    omega
  · rename_i ep hone
    rw [hone, List.length_singleton] at hle
    omega
  · split
    · rename_i hnil
      rw [hnil] at htwo
      cases htwo
    · rename_i ep hone
      rw [hone, List.length_singleton] at htwo
      omega
    · rfl

/-- An explicit balancer is not sticky, so that it is asked. -/
theorem pick_of_balancer {b : Balancer} (hb : pool.balancer = some b)
    (htwo : 2 ≤ pool.healthyEndpoints.length) (rnd : Random) (st : BalancerState) (r : ClientRequest) :
    pool.pick rnd st r =
      b.pick rnd st (endpointRefs pool.healthyEndpoints) pool.healthyEndpoints (hashRequest H r) := by
  have hsticky : ¬pool.isStickyEndpoint = true := fun h => nomatch hb.symm.trans (balancer_of_sticky h)
  rw [pick_of_many htwo, if_neg hsticky, hb]

/-- A single healthy endpoint is chosen, and the balancer is not asked. -/
theorem pick_of_one {ep : Endpoint} (hone : pool.healthyEndpoints = [ep]) (rnd : Random)
    (st : BalancerState) (r : ClientRequest) : pool.pick rnd st r = .ok (some ep, st) := by
  have hmem : ep ∈ pool.endpoints ∧ ep.healthy = true :=
    List.mem_filter.mp (hone ▸ List.mem_singleton_self ep : ep ∈ pool.healthyEndpoints)
  unfold pick
  split
  · rename_i hnil
    rw [hnil] at hmem
    cases hmem.1
  · rename_i ep' hsingle
    rw [hsingle] at hmem
    obtain rfl : ep = ep' := List.mem_singleton.mp hmem.1
    rw [if_pos hmem.2]
  · rw [hone]

/-- The choice is then up to the balancer. -/
theorem found_pick_of_many (htwo : 2 ≤ pool.healthyEndpoints.length) :
    Found pool.healthyEndpoints (pool.pick rnd st r) ↔ pool.Reaches st (hashRequest H r) := by
  have hne : pool.healthyEndpoints ≠ [] := List.length_pos_iff.mp (by omega)
  rw [pick_of_many htwo]
  split
  · rename_i hsticky
    exact iff_of_true (found_pickStickyEndpoint r hne) (reaches_of_sticky hsticky _)
  · split
    · rename_i b hb
      exact found_pick hb hne
    · rename_i hnone
      refine iff_of_true (found_getElem (rnd.intn_lt _ (by omega))) ?_
      rw [Reaches, hnone]
      trivial

/-- With one healthy endpoint, `Pick` chooses it. -/
theorem found_pick_of_one (hone : pool.healthyEndpoints.length = 1) :
    Found pool.healthyEndpoints (pool.pick rnd st r) := by
  obtain ⟨ep, hep⟩ := List.length_eq_one_iff.mp hone
  exact ⟨ep, by simp [hep], st, pick_of_one hep rnd st r⟩

/-- The only endpoint is chosen if it is healthy. -/
theorem found_of_single (hlen : pool.endpoints.length = 1) (hne : pool.healthyEndpoints ≠ [])
    (sel : Selector) : Found pool.healthyEndpoints (pool.select rnd st r sel) := by
  obtain ⟨ep, hep⟩ := List.length_eq_one_iff.mp hlen
  have hhealthy : pool.healthyEndpoints = [ep] ∧ ep.healthy = true := by
    unfold healthyEndpoints at hne ⊢
    rw [hep] at hne ⊢
    cases hh : ep.healthy with
    | true => simp [hh]
    | false => simp [hh] at hne
  refine ⟨ep, by simp [hhealthy.1], st, ?_⟩
  cases sel with
  | pick => simp [select, pick, hep, hhealthy.2]
  | byHash h => simp [select, pickByHash, hep, hhealthy.2]

/-- `PickByHash` looks the hash up, or leaves the choice to `Pick`. -/
theorem found_pickByHash {h : UInt32} (hlen : 2 ≤ pool.endpoints.length)
    (hne : pool.healthyEndpoints ≠ []) :
    Found pool.healthyEndpoints (pool.pickByHash rnd st h r) ↔
      pool.healthyEndpoints.length = 1 ∧ ¬pool.LooksUp (.byHash h) ∨ pool.Reaches st h := by
  have hendpoints : pool.endpoints ≠ [] := List.length_pos_iff.mp (by omega)
  unfold pickByHash
  split
  · rename_i hnil
    exact absurd hnil hendpoints
  · rename_i ep hone
    rw [hone, List.length_singleton] at hlen
    omega
  · split
    · rename_i hnil
      exact absurd hnil hne
    · split
      · rename_i ring hb
        rw [found_ringHash hb hendpoints]
        simp [LooksUp, hb]
      · rename_i table ids hb
        rw [found_maglev hb hendpoints]
        simp [LooksUp, hb]
      · -- the other balancers do not see the hash
        rename_i hring hmaglev
        have hlooks : ¬pool.LooksUp (.byHash h) ∧ (pool.Reaches st (hashRequest H r) ↔
            pool.Reaches st h) := by
          unfold LooksUp Reaches
          rcases hb : pool.balancer with _ | _ | _ | _ | ring | ⟨table, ids⟩
          case some.ringHash => exact absurd hb (hring ring)
          case some.maglev => exact absurd hb (hmaglev table ids)
          all_goals exact ⟨id, Iff.rfl⟩
        have hpos : 0 < pool.healthyEndpoints.length := List.length_pos_iff.mpr hne
        by_cases hone : pool.healthyEndpoints.length = 1
        · exact iff_of_true (found_pick_of_one hone) (Or.inl ⟨hone, hlooks.1⟩)
        · simp only [hone, false_and, false_or]
          exact (found_pick_of_many (by omega)).trans hlooks.2

/-- Nothing is chosen without healthy endpoints. -/
theorem select_of_none (hnone : pool.healthyEndpoints = []) (sel : Selector) :
    pool.select rnd st r sel = .ok (none, st) := by
  have hsick : ∀ ep ∈ pool.endpoints, ep.healthy = false := by
    intro ep hep
    simpa using List.filter_eq_nil_iff.mp hnone ep hep
  have hpick : pool.pick rnd st r = .ok (none, st) := by
    unfold pick
    split
    · rfl
    · rename_i ep hone
      rw [hsick ep (by simp [hone])]
      rfl
    · rw [hnone]
  cases sel with
  | pick => exact hpick
  | byHash h =>
    show pool.pickByHash rnd st h r = .ok (none, st)
    unfold pickByHash
    split
    · rfl
    · rename_i ep hone
      rw [hsick ep (by simp [hone])]
      rfl
    · rw [hnone]

end Choice

/-- `Pick` and `PickByHash` choose as they should, whatever the random numbers, if and only if the
pool has no healthy endpoint, has one endpoint only, takes the shortcut for a single healthy endpoint,
or has a balancer that reaches a healthy endpoint. -/
theorem chooses_iff (rnd : Random) (st : BalancerState) (r : ClientRequest) (sel : Selector) :
    pool.Chooses (pool.select rnd st r sel) ↔ pool.Served st r sel := by
  by_cases hnone : pool.healthyEndpoints = []
  · refine iff_of_true ?_ (Or.inl hnone)
    rw [select_of_none hnone, Chooses, if_neg]
    · exact ⟨st, rfl⟩
    · rintro ⟨ep, hep, hh⟩
      have hmem : ep ∈ pool.healthyEndpoints := List.mem_filter.mpr ⟨hep, hh⟩
      rw [hnone] at hmem
      cases hmem
  rw [chooses_iff_found hnone]
  have hpos : 0 < pool.healthyEndpoints.length := List.length_pos_iff.mpr hnone
  have hle : pool.healthyEndpoints.length ≤ pool.endpoints.length := length_healthyEndpoints_le
  by_cases hsingle : pool.endpoints.length = 1
  · exact iff_of_true (found_of_single hsingle hnone sel) (Or.inr (Or.inl hsingle))
  simp only [Served, hnone, hsingle, false_or]
  cases sel with
  | byHash h => exact found_pickByHash (by omega) hnone
  | pick =>
    by_cases hone : pool.healthyEndpoints.length = 1
    · exact iff_of_true (found_pick_of_one hone) (Or.inl ⟨hone, id⟩)
    · simp only [hone, false_and, false_or]
      exact found_pick_of_many (by omega)

/-! ## A slot whose endpoint has gone -/

/-- Two endpoints with the given health. -/
def pair (first second : Bool) : List Endpoint :=
  [⟨"10.0.0.1", 80, first⟩, ⟨"10.0.0.2", 80, second⟩]

/-- A ring hash pool of the two endpoints. -/
def ringPair (H : Hashing) (first second : Bool) : DestinationPool H where
  endpoints := pair first second
  balancing := some { algorithm := .ringHash }
  sessionStore := false
  balancer := some (.ringHash (buildRing H 1024 [⟨"10.0.0.1:80", 1⟩, ⟨"10.0.0.2:80", 1⟩]))
  built := by
    have hrefs : endpointRefs (pair first second) =
        [⟨"10.0.0.1:80", 1⟩, ⟨"10.0.0.2:80", 1⟩] := by
      cases first <;> cases second <;> decide
    rw [hrefs]
    rfl

/-- Whatever the hash functions, one of the two endpoints has the first slot of the ring. If this one
is not healthy and the other one is, a request with the hash 0 gets no endpoint. -/
theorem healthy_endpoint_not_chosen : ¬∃ (H : Hashing) (rnd : Random) (st : BalancerState)
    (r : ClientRequest), ∀ first second, (ringPair H first second).Chooses
      ((ringPair H first second).select rnd st r (.byHash 0)) := by
  rintro ⟨H, rnd, st, r, hall⟩
  obtain ⟨d, hd, hslot⟩ : ∃ d ∈ ([⟨"10.0.0.1:80", 1⟩, ⟨"10.0.0.2:80", 1⟩] : List DestinationRef),
      ringSlot (buildRing H 1024 [⟨"10.0.0.1:80", 1⟩, ⟨"10.0.0.2:80", 1⟩]) 0 =
        some d.destinationID := exists_ringSlot (by simp) 0
  have hrefute : ∀ first second ep, (ringPair H first second).healthyEndpoints = [ep] →
      ep.id ≠ d.destinationID → ¬(ringPair H first second).Chooses
        ((ringPair H first second).select rnd st r (.byHash 0)) := by
    intro first second ep hhealthy hne
    have hnone : (ringPair H first second).healthyEndpoints ≠ [] := by simp [hhealthy]
    rw [chooses_iff_found hnone]
    have htwo : 2 ≤ (ringPair H first second).endpoints.length := Nat.le_refl 2
    refine mt (found_pickByHash (r := r) htwo hnone).mp ?_
    rintro (⟨_, hlooks⟩ | ⟨ep', hep', hfound⟩)
    · exact hlooks trivial
    · obtain rfl : ep' = ep := List.mem_singleton.mp (hhealthy ▸ hep')
      exact hne (Option.some.inj (hfound.symm.trans hslot))
  have hid : d.destinationID = "10.0.0.1:80" ∨ d.destinationID = "10.0.0.2:80" := by
    simp only [List.mem_cons, List.not_mem_nil, or_false] at hd
    rcases hd with rfl | rfl
    · exact Or.inl rfl
    · exact Or.inr rfl
  rcases hid with hid | hid
  · exact hrefute false true ⟨"10.0.0.2", 80, true⟩ rfl (by rw [hid]; decide) (hall false true)
  · exact hrefute true false ⟨"10.0.0.1", 80, true⟩ rfl (by rw [hid]; decide) (hall true false)

end DestinationPool

end Vrata.Proxy

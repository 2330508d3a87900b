import Vrata.Lib.Runs
import Vrata.Proxy.Pool.LeastRequest
import Vrata.Proxy.Sticky

/-!
# Clients that stay with their endpoint

Reference: `Pick` and `pickStickyEndpoint` of `server/internal/proxy/pool.go`.

A client makes requests to one destination with sticky balancing and carries back the cookies it is
given, while endpoints are added and removed and their health changes. What the session store has for
the client is what served it last, with one exception: if a single endpoint is healthy, `Pick` returns it
before it comes to the store.

`undisrupted_of_meets` says that a client stays with its endpoint as long as that is healthy, in every
run in which an endpoint that is the only healthy one is the one the store has for the client.
-/

namespace Vrata.Proxy

open Runs Expiring

/-- What is fixed about a destination with sticky balancing. -/
structure StickyDestination where
  id : String
  cookie : Option DestinationPinCookie := none
  id_ne_empty : id ≠ ""

namespace StickyDestination

variable (dest : StickyDestination)

def backend {H : Hashing} (pool : DestinationPool H) : Backend H where
  id := dest.id
  pool := pool
  cookie := dest.cookie
  id_ne_empty := dest.id_ne_empty

def pinConfig : PinConfig := Proxy.pinConfig "_vrata_endpoint_pin" dest.cookie

def key (sid : String) : String × String := (sid ++ ":" ++ dest.id, "ep")

end StickyDestination

/-- A client of the destination. -/
structure Guest (H : Hashing) where
  now : ℤ
  pool : DestinationPool H
  sessions : SessionStore
  jar : Jar
  /-- When the client was given its session. -/
  since : Option ℤ := none
  /-- The endpoint that served the client last. -/
  served : Option String := none
  sticky : pool.isStickyEndpoint = true

/-- A request, with the cookies that are set in its response besides the one for the endpoint. -/
structure Arrival where
  visit : Visit
  rnd : Random
  bytes : RandomBytes
  balancers : BalancerState
  before : List SetCookie := []
  after : List SetCookie := []

namespace Guest

variable {H : Hashing}

inductive Action (H : Hashing) where
  | tick (d : ℕ)
  /-- Endpoints are added or removed, or their health changes. -/
  | setPool (pool : DestinationPool H) (sticky : pool.isStickyEndpoint = true)
  /-- Something is stored for another session. -/
  | other (k : String × String) (e : Entry String)
  | request (x : Arrival)

section Steps

variable (dest : StickyDestination) (s : Guest H)

/-- The key of the client in the session store. -/
def ownKey : Option (String × String) := (s.jar dest.pinConfig.name).map fun e => dest.key e.value

/-- What becomes of the client when an endpoint has been picked for it. -/
def finish (x : Arrival) (r : Pinned Endpoint) : Guest H :=
  { s with
    sessions := r.sessions
    jar := s.jar.receiveAll s.now (x.before ++ r.cookies ++ x.after)
    since := if r.cookies = [] then s.since else some s.now
    served := (r.choice.map Endpoint.id).or s.served }

/-- Sessions are drawn at random, and nobody else stores something for that of the client. -/
def step : Action H → Guest H
  | .tick d => { s with now := s.now + d }
  | .setPool pool sticky => { s with pool := pool, sticky := sticky }
  | .other k e => if s.ownKey dest = some k then s else { s with sessions := write s.sessions k e }
  | .request x =>
    match (dest.backend s.pool).pick x.rnd x.balancers x.visit x.bytes s.now s.jar s.sessions with
    | .error _ => { s with served := none }
    | .ok r => s.finish x r

/-- The endpoint is healthy. -/
def Up (id : String) : Prop := ∃ ep ∈ s.pool.endpoints, ep.id = id ∧ ep.healthy = true

/-- The client is served by the same endpoint as before unless that is removed or not healthy. -/
def Undisrupted (a : Action H) : Prop :=
  ∀ id, s.served = some id → s.Up id → (s.step dest a).served = some id

/-- The client makes its requests within the time to live of its cookie. -/
def InTime : Action H → Prop
  | .request _ => ∀ t, s.since = some t → dest.pinConfig.Within t s.now
  | _ => True

/-- The endpoint that the store has for the client. -/
def Stored (id : String) : Prop :=
  s.jar.cookie dest.pinConfig.name s.now ≠ "" ∧
    s.sessions.get (dest.key (s.jar.cookie dest.pinConfig.name s.now)) s.now = id

/-- The cookie can be set, nothing else sets a cookie of its name, and an endpoint that is the only
healthy one is the one the store has for the client. -/
def Meets : Action H → Prop
  | .request x =>
    isToken dest.pinConfig.name = true ∧
      (∀ c ∈ x.before ++ x.after, c.name ≠ dest.pinConfig.name) ∧
      ∀ ep, s.pool.healthyEndpoints = [ep] → s.Stored dest ep.id
  | _ => True

/-- What holds throughout a run. -/
def Inv : Prop :=
  Settled dest.pinConfig (dest.key) s.now s.jar s.sessions s.since s.served

end Steps

variable {dest : StickyDestination} {s : Guest H}

theorem mem_healthyEndpoints {pool : DestinationPool H} {ep : Endpoint} :
    ep ∈ pool.healthyEndpoints ↔ ep ∈ pool.endpoints ∧ ep.healthy = true := by
  rw [DestinationPool.healthyEndpoints, List.mem_filter]

/-- An endpoint that is healthy is found. -/
theorem lookup_ne_none {id : String} (hup : s.Up id) : lookup s.pool.healthyEndpoints id ≠ none := by
  obtain ⟨ep, hep, hid, hhealthy⟩ := hup
  rw [DestinationPool.lookup_healthy.mpr ⟨mem_healthyEndpoints.mpr ⟨hep, hhealthy⟩, hid⟩]
  exact Option.some_ne_none ep

section Request

variable {x : Arrival}

/-- A request that goes through the store. -/
theorem stick_cases {b : RandomBytes} {r : Pinned Endpoint} {ep : Endpoint} (hinv : s.Inv dest)
    (htime : s.InTime dest (.request x)) (hmeets : s.Meets dest (.request x))
    (hr : (dest.backend s.pool).pickStickyEndpoint x.rnd s.pool.healthyEndpoints b s.now
      (s.jar.cookie dest.pinConfig.name s.now) s.sessions = .ok r) (hep : r.choice = some ep) :
    (s.finish x r).Inv dest ∧
      ∀ id, s.served = some id → s.Up id → (s.finish x r).served = some id := by
  obtain ⟨hname, hothers, -⟩ := hmeets
  obtain ⟨hnext, hsame⟩ := Settled.stick hinv htime hname Endpoint.id_ne_empty
    (fun hv => (DestinationPool.lookup_healthy.mp hv).2) hr hep
  have hserved : (s.finish x r).served = some ep.id := by
    rw [finish, hep]
    rfl
  refine ⟨?_, fun id hid hup => ?_⟩
  · rw [Inv, hserved]
    exact hnext.frame (le_refl _) (Jar.receiveAll_among hothers) fun _ _ _ => rfl
  · rcases hsame id hid with heq | hnone
    · rw [hserved, heq]
    · exact absurd hnone (lookup_ne_none hup)

theorem inv_finish_unpinned {ep : Option Endpoint}
    (hinv : Settled dest.pinConfig dest.key s.now s.jar s.sessions s.since
      ((ep.map Endpoint.id).or s.served)) (hmeets : s.Meets dest (.request x)) :
    (s.finish x ⟨ep, [], s.sessions⟩).Inv dest := by
  obtain ⟨-, hothers, -⟩ := hmeets
  exact hinv.frame (le_refl _) (Jar.receiveAll_among hothers) fun _ _ _ => rfl

theorem request_inv (hinv : s.Inv dest) (htime : s.InTime dest (.request x))
    (hmeets : s.Meets dest (.request x)) :
    (s.step dest (.request x)).Inv dest ∧ s.Undisrupted dest (.request x) := by
  rw [Undisrupted, step]
  rcases pick_cases (dest.backend s.pool) x.rnd x.balancers x.visit x.bytes s.now s.jar s.sessions
    s.sticky with ⟨hnil, hpick⟩ | ⟨ep, hone, hpick⟩ | ⟨hne, hpick⟩
  · rw [hpick]
    exact ⟨inv_finish_unpinned hinv hmeets, fun id hid _ => hid⟩
  · obtain ⟨hcookie, hget⟩ := hmeets.2.2 ep hone
    obtain ⟨hnext, hlast⟩ := hinv.stored htime hcookie hget
    rw [hpick]
    refine ⟨inv_finish_unpinned hnext hmeets, fun id hid _ => ?_⟩
    exact congrArg some (hlast id hid).symm
  · have hpos : 0 < s.pool.healthyEndpoints.length := List.length_pos_iff.mpr hne
    obtain ⟨r, ep, hr, hep⟩ := exists_stick
      (congrArg Except.ok (List.getElem?_eq_getElem (x.rnd.intn_lt _ hpos)))
      (s.jar.cookie dest.pinConfig.name s.now)
    rw [hpick.trans hr]
    exact stick_cases hinv htime hmeets hr hep

end Request

theorem step_inv {a : Action H} (hinv : s.Inv dest) (htime : s.InTime dest a) (hmeets : s.Meets dest a) :
    (s.step dest a).Inv dest ∧ s.Undisrupted dest a := by
  cases a with
  | tick d =>
    refine ⟨hinv.frame ?_ rfl fun _ _ _ => rfl, fun id hid _ => hid⟩
    show s.now ≤ s.now + d
    omega
  | setPool pool sticky => exact ⟨hinv, fun id hid _ => hid⟩
  | other k e =>
    rw [Undisrupted, step]
    split
    · exact ⟨hinv, fun id hid _ => hid⟩
    · rename_i hown
      refine ⟨hinv.frame (le_refl _) rfl fun b y hcookie => write_of_ne e fun heq => hown ?_,
        fun id hid _ => hid⟩
      rw [ownKey, hcookie, Option.map_some, heq]
  | request x => exact request_inv hinv htime hmeets

/-- In every run within the time to live of the cookie in which the condition is met, a client stays with
its endpoint as long as that is healthy. -/
theorem undisrupted_of_meets {s : Guest H} (hjar : s.jar dest.pinConfig.name = none)
    (hsince : s.since = none) (hserved : s.served = none) {as : List (Action H)}
    (hrun : Along (step dest) (fun s a => s.InTime dest a ∧ s.Meets dest a) s as) :
    Along (step dest) (fun s a => s.Undisrupted dest a) s as := by
  have hinv : s.Inv dest := ⟨fun _ => ⟨hjar, hserved⟩, fun t ht => by simp [hsince] at ht⟩
  refine hrun.along (I := fun s => s.Inv dest) (fun s a hs ha => ?_) (fun s a hs ha => ?_) hinv
  · exact (step_inv hs ha.1 ha.2).1
  · exact (step_inv hs ha.1 ha.2).2

end Guest

/-! ## Two endpoints -/

/-- A sticky pool of the two endpoints. -/
def stickyPair (first second : Bool) : DestinationPool constantHashing where
  endpoints := DestinationPool.pair first second
  balancing := some { algorithm := .sticky }
  sessionStore := true
  balancer := none
  built := rfl

def lastChoice : Random where
  intn n := n - 1
  intn_lt _ h := Nat.sub_lt h Nat.one_pos

def stickyBackend : StickyDestination where
  id := "backend"
  id_ne_empty := by decide

/-- A client that has not been there before. -/
def newGuest (first second : Bool) : Guest constantHashing where
  now := 0
  pool := stickyPair first second
  sessions _ := none
  jar _ := none
  sticky := rfl

def arrival (rnd : Random) : Arrival where
  visit := ⟨"192.0.2.1", fun _ => ""⟩
  rnd := rnd
  bytes := Vector.replicate 16 0
  balancers := ⟨0, fun _ => 0⟩

/-- A second request, a minute later, that would choose the other endpoint. -/
def twoVisits : List (Guest.Action constantHashing) :=
  [.request (arrival firstChoice), .tick 60000000000, .request (arrival lastChoice)]

theorem healthyEndpoints_stickyPair (ep : Endpoint) :
    (stickyPair true true).healthyEndpoints ≠ [ep] := by
  intro h
  have hlen : 2 = 1 := congrArg List.length h
  omega

theorem undisrupted_twoVisits :
    Along (Guest.step stickyBackend) (fun s a => s.Undisrupted stickyBackend a) (newGuest true true)
        twoVisits ∧
      (twoVisits.foldl (Guest.step stickyBackend) (newGuest true true)).served = some "10.0.0.1:80" := by
  refine ⟨Guest.undisrupted_of_meets rfl rfl rfl ?_, by decide⟩
  rw [twoVisits, along_cons, along_cons, along_cons]
  refine ⟨⟨nofun, by decide, nofun, fun ep h => absurd h (healthyEndpoints_stickyPair ep)⟩,
    ⟨trivial, trivial⟩,
    ⟨fun t ht => ?_, by decide, nofun, fun ep h => absurd h (healthyEndpoints_stickyPair ep)⟩, along_nil⟩
  obtain rfl : 0 = t := Option.some.inj ht
  exact .inr (by decide)

/-- The other endpoint comes back between two requests. -/
def loneVisit : List (Guest.Action constantHashing) :=
  [.request (arrival firstChoice), .setPool (stickyPair true true) rfl, .request (arrival lastChoice)]

/-- The client was served by the first endpoint when the second one was not healthy, and the store knows
nothing of it. -/
theorem not_undisrupted_loneVisit :
    Along (Guest.step stickyBackend) (fun s a => s.InTime stickyBackend a) (newGuest true false)
        loneVisit ∧
      ¬Along (Guest.step stickyBackend) (fun s a => s.Undisrupted stickyBackend a) (newGuest true false)
        loneVisit := by
  constructor
  · rw [loneVisit, along_cons, along_cons, along_cons]
    exact ⟨nofun, trivial, nofun, along_nil⟩
  · intro h
    have hlast := h (loneVisit.take 2) (.request (arrival lastChoice)) List.prefix_rfl "10.0.0.1:80"
      (by decide) ⟨⟨"10.0.0.1", 80, true⟩, List.mem_cons_self, by decide, rfl⟩
    exact absurd hlast (by decide)

end Vrata.Proxy

import Vrata.Proxy.Cookies
import Vrata.Proxy.Pool

/-!
# Sticky sessions

Reference: `pickDestinationPool` and `pickStickyPool` of `server/internal/proxy/handler.go`, `Pick` and
`pickStickyEndpoint` of `pool.go`, and `hashRequestWithPolicy` of `balancer.go`.

Routes and destinations keep clients where they are in the same way, `stick`: a client without a session
is given one in a cookie, one with a session is sent where the session store says, and if that cannot be
used any more, the choice is made anew and stored. They differ in the cookie, the key, what can be used
and how a new choice is made.

`Holds` says that a client has a session and that the store has an entry for it which is there as long as
the cookie. `Holds.stick` and `Holds.new` are the two steps of every argument about clients that stay
where they are.

The session store keeps what is set until it expires. Times to live are whole seconds, and a duration is
cut down to them.
-/

namespace Vrata.Proxy

open Server Expiring

/-! ## Sessions -/

/-- `SessionStore`, for a store that answers with what was set. -/
abbrev SessionStore := Map (String × String) String

namespace SessionStore

/-- `Get`; the empty text if there is nothing. -/
def get (s : SessionStore) (k : String × String) (now : ℤ) : String := (read s k now).getD ""

def set (s : SessionStore) (k : String × String) (value : String) (ttlSeconds now : ℤ) : SessionStore :=
  write s k ⟨value, expiry now ttlSeconds⟩

end SessionStore

abbrev RandomBytes := Vector UInt8 16

def generateSessionID (b : RandomBytes) : String :=
  String.ofList (b.toList.flatMap fun x => [(x.toNat / 16).digitChar, (x.toNat % 16).digitChar])

theorem generateSessionID_ne_empty (b : RandomBytes) : generateSessionID b ≠ "" := by
  intro h
  have hlen := congrArg (fun s => s.toList.length) h
  simp [generateSessionID, List.length_flatMap] at hlen

theorem digitChar_ne_colon : ∀ n < 16, ':' ≠ Nat.digitChar n := by decide

theorem colon_not_mem_generateSessionID (b : RandomBytes) : ':' ∉ (generateSessionID b).toList := by
  rw [generateSessionID, String.toList_ofList, List.mem_flatMap]
  rintro ⟨x, -, hx⟩
  have hlt := x.toNat_lt
  rcases List.mem_pair.mp hx with h | h
  · exact digitChar_ne_colon _ (by omega) h
  · exact digitChar_ne_colon _ (by omega) h

/-- `DestinationPinCookie`. The time to live is in nanoseconds, as `time.ParseDuration` reads it. -/
structure DestinationPinCookie where
  name : String := ""
  ttl : Option ℤ := none
deriving DecidableEq, Repr

/-- The name and the time to live of a cookie with the defaults filled in. -/
structure PinConfig where
  name : String
  ttlSeconds : ℤ
deriving DecidableEq, Repr

def pinConfig (defaultName : String) (cookie : Option DestinationPinCookie) : PinConfig where
  name :=
    match cookie with
    | none => defaultName
    | some c => if c.name ≠ "" then c.name else defaultName
  ttlSeconds := ((cookie.bind DestinationPinCookie.ttl).getD 3600000000000).tdiv 1000000000

/-! ## Staying where one is -/

/-- A choice, the cookies that are set with it, and what the session store holds afterwards. -/
structure Pinned (β : Type) where
  choice : Option β
  cookies : List SetCookie
  sessions : SessionStore

section Stick

variable {β : Type} (cfg : PinConfig) (key : String → String × String) (id : β → String)
  (valid : String → Option β) (choose : Except Panic (Option β)) (b : RandomBytes) (now : ℤ)

/-- A new choice, stored under the session. -/
def chooseAnew (sid : String) (cookies : List SetCookie) (sessions : SessionStore) :
    Except Panic (Pinned β) :=
  choose.map fun
    | none => ⟨none, cookies, sessions⟩
    | some x => ⟨some x, cookies, sessions.set (key sid) (id x) cfg.ttlSeconds now⟩

/-- The common part of `pickStickyPool` and `pickStickyEndpoint`, for a client that sends `cookie`. -/
def stick (cookie : String) (sessions : SessionStore) : Except Panic (Pinned β) :=
  if cookie = "" then
    let sid := generateSessionID b
    chooseAnew cfg key id choose now sid (setCookie ⟨cfg.name, sid, cfg.ttlSeconds⟩) sessions
  else
    let value := sessions.get (key cookie) now
    match if value = "" then none else valid value with
    | some x => .ok ⟨some x, [], sessions⟩
    | none => chooseAnew cfg key id choose now cookie [] sessions

end Stick

/-! ## Destinations -/

/-- `HashPolicy`, by the case of the `switch` it falls under. -/
inductive HashPolicy where
  | header (name : String)
  | cookie (cookie : DestinationPinCookie)
  | sourceIP
deriving DecidableEq, Repr

def HashPolicy.cookieName : HashPolicy → Option String
  | .cookie c => some c.name
  | .header _ | .sourceIP => none

/-- A destination of the table with its pool. The API gives an ID to a destination without one. -/
structure Backend (H : Hashing) where
  id : String
  pool : DestinationPool H
  /-- The cookie of the sticky balancing. -/
  cookie : Option DestinationPinCookie := none
  hashPolicies : List HashPolicy := []
  id_ne_empty : id ≠ ""

/-- The destinations of a table by their IDs. -/
structure Backends (H : Hashing) where
  get : String → Option (Backend H)
  id_eq : ∀ {id : String} {d : Backend H}, get id = some d → d.id = id

/-- What the choice of an endpoint reads of a request, besides the cookies. -/
structure Visit where
  remoteHost : String
  header : String → String

namespace Backend

variable {H : Hashing} (d : Backend H)

/-- One of the endpoints is healthy. -/
def alive : Bool := d.pool.endpoints.any Endpoint.healthy

def pinConfig : PinConfig := Proxy.pinConfig "_vrata_endpoint_pin" d.cookie

/-- The key under which the endpoint of a session is stored. -/
def key (sid : String) : String × String := (sid ++ ":" ++ d.id, "ep")

def pickStickyEndpoint (rnd : Random) (healthy : List Endpoint) (b : RandomBytes) (now : ℤ)
    (cookie : String) (sessions : SessionStore) : Except Panic (Pinned Endpoint) :=
  stick d.pinConfig d.key Endpoint.id (lookup healthy) (.ok healthy[rnd.intn healthy.length]?) b now
    cookie sessions

/-- The request as the balancers see it. -/
def clientRequest (v : Visit) (now : ℤ) (cookie : String) (sessions : SessionStore) : ClientRequest where
  remoteHost := v.remoteHost
  cookie := cookie
  session := some (sessions.get (d.key cookie) now)

/-- `Pick`, with the cookies it sets and the endpoint it stores. -/
def pick (rnd : Random) (st : BalancerState) (v : Visit) (b : RandomBytes) (now : ℤ) (jar : Jar)
    (sessions : SessionStore) : Except Panic (Pinned Endpoint) :=
  let cookie := jar.cookie d.pinConfig.name now
  let unpinned := (d.pool.pick rnd st (d.clientRequest v now cookie sessions)).map fun r =>
    (⟨r.1, [], sessions⟩ : Pinned Endpoint)
  match d.pool.endpoints with
  | [] | [_] => unpinned
  | _ =>
    match d.pool.healthyEndpoints with
    | [] | [_] => unpinned
    | healthy =>
      if d.pool.isStickyEndpoint then d.pickStickyEndpoint rnd healthy b now cookie sessions
      else unpinned

/-- The cookies that `hashRequestWithPolicy` sets. The first policy that has something to hash ends the
loop, and one for a cookie always has. -/
def hashCookies (v : Visit) (b : RandomBytes) (now : ℤ) (jar : Jar) : List HashPolicy → List SetCookie
  | [] => []
  | .header name :: policies =>
    if name ≠ "" ∧ v.header name ≠ "" then [] else hashCookies v b now jar policies
  | .cookie c :: policies =>
    if c.name = "" then hashCookies v b now jar policies
    else if (read jar c.name now).isSome then []
    else setCookie ⟨c.name, generateSessionID b, (Proxy.pinConfig "" (some c)).ttlSeconds⟩
  | .sourceIP :: _ => []

/-- The cookies and the entries that come with the choice of an endpoint in `forwardHandler`. -/
def endpointPins (rnd : Random) (st : BalancerState) (v : Visit) (b : RandomBytes) (now : ℤ) (jar : Jar)
    (sessions : SessionStore) : Except Panic (List SetCookie × SessionStore) :=
  if d.hashPolicies ≠ [] then .ok (hashCookies v b now jar d.hashPolicies, sessions)
  else (d.pick rnd st v b now jar sessions).map fun r => (r.cookies, r.sessions)

/-- The names of the cookies that the choice of an endpoint may set, and the one for pinning also where
endpoints are not pinned. -/
def cookieNames : List String := d.pinConfig.name :: d.hashPolicies.filterMap HashPolicy.cookieName

end Backend

/-! ## The choice of an endpoint -/

section Pick

variable {H : Hashing} {d : Backend H} {rnd : Random} {st : BalancerState} {v : Visit} {b : RandomBytes}
  {now : ℤ} {jar : Jar} {sessions : SessionStore}

/-- Only where there is a choice do sessions matter. -/
theorem pick_eq (d : Backend H) (rnd : Random) (st : BalancerState) (v : Visit) (b : RandomBytes)
    (now : ℤ) (jar : Jar) (sessions : SessionStore) : d.pick rnd st v b now jar sessions =
      if 2 ≤ d.pool.healthyEndpoints.length ∧ d.pool.isStickyEndpoint = true then
        d.pickStickyEndpoint rnd d.pool.healthyEndpoints b now (jar.cookie d.pinConfig.name now) sessions
      else (d.pool.pick rnd st (d.clientRequest v now (jar.cookie d.pinConfig.name now) sessions)).map
        fun r => ⟨r.1, [], sessions⟩ := by
  have hle : d.pool.healthyEndpoints.length ≤ d.pool.endpoints.length := d.pool.length_healthyEndpoints_le
  unfold Backend.pick
  simp only
  split
  · rename_i hnil
    rw [hnil, List.length_nil] at hle
    rw [if_neg (by omega)]
  · rename_i ep hone
    rw [hone, List.length_singleton] at hle
    rw [if_neg (by omega)]
  · split
    · rename_i hnil
      rw [hnil, if_neg (by simp)]
    · rename_i ep hone
      rw [hone, if_neg (by simp)]
    · rename_i hnone hone
      have htwo : 2 ≤ d.pool.healthyEndpoints.length := by
        match h : d.pool.healthyEndpoints with
        | [] => exact absurd h hnone
        | [ep] => exact absurd h (hone ep)
        | _ :: _ :: eps => simp
      simp only [htwo, true_and]

/-- The ways in which a sticky destination picks an endpoint. One that is the only healthy one is not
looked up in the store, nor stored. -/
theorem pick_cases (d : Backend H) (rnd : Random) (st : BalancerState) (v : Visit) (b : RandomBytes)
    (now : ℤ) (jar : Jar) (sessions : SessionStore) (hsticky : d.pool.isStickyEndpoint = true) :
    d.pool.healthyEndpoints = [] ∧ d.pick rnd st v b now jar sessions = .ok ⟨none, [], sessions⟩ ∨
    (∃ ep, d.pool.healthyEndpoints = [ep] ∧
      d.pick rnd st v b now jar sessions = .ok ⟨some ep, [], sessions⟩) ∨
    d.pool.healthyEndpoints ≠ [] ∧ d.pick rnd st v b now jar sessions =
      d.pickStickyEndpoint rnd d.pool.healthyEndpoints b now (jar.cookie d.pinConfig.name now)
        sessions := by
  rw [pick_eq]
  match h : d.pool.healthyEndpoints with
  | [] =>
    have hpick (r : ClientRequest) : d.pool.pick rnd st r = .ok (none, st) :=
      DestinationPool.select_of_none h .pick
    exact .inl ⟨rfl, by rw [if_neg (by simp), hpick]; rfl⟩
  | [ep] => exact .inr (.inl ⟨ep, rfl, by rw [if_neg (by simp), DestinationPool.pick_of_one h]; rfl⟩)
  | ep :: ep' :: eps =>
    exact .inr (.inr ⟨by simp, by rw [if_pos ⟨by simp, hsticky⟩]⟩)

end Pick

/-- A route with sticky balancing among its destinations. -/
structure StickyRoute where
  id : String
  cookie : Option DestinationPinCookie := none

namespace StickyRoute

variable {H : Hashing} (route : StickyRoute)

def pinConfig : PinConfig := Proxy.pinConfig "_vrata_destination_pin" route.cookie

/-- The key under which the destination of a session is stored. -/
def key (sid : String) : String × String := (sid, route.id)

/-- The destinations a stored choice may be. -/
def validSet (healthy : List DestinationRef) (pools : Backends H) (destID : String) : Option (Backend H) :=
  if destID ∈ healthy.map DestinationRef.destinationID then pools.get destID else none

def pickStickyPool (healthy : List DestinationRef) (pools : Backends H) (rnd : Random) (draw : UInt32)
    (b : RandomBytes) (now : ℤ) (cookie : String) (sessions : SessionStore) :
    Except Panic (Pinned (Backend H)) :=
  stick route.pinConfig route.key Backend.id (validSet healthy pools)
    (selectDestination healthy pools.get rnd.intn draw) b now cookie sessions

/-- `pickDestinationPool`, for sticky balancing with a session store. -/
def pickDestinationPool (destinations : List DestinationRef) (pools : Backends H) (rnd : Random)
    (draw : UInt32) (b : RandomBytes) (now : ℤ) (cookie : String) (sessions : SessionStore) :
    Except Panic (Pinned (Backend H)) :=
  match destinations with
  | [] => .ok ⟨none, [], sessions⟩
  | [ref] => .ok ⟨pools.get ref.destinationID, [], sessions⟩
  | refs =>
    match filterHealthyPools refs pools.get Backend.alive with
    | [] => .ok ⟨none, [], sessions⟩
    | healthy => route.pickStickyPool healthy pools rnd draw b now cookie sessions

theorem pickDestinationPool_cases {destinations : List DestinationRef} (hmany : 2 ≤ destinations.length)
    (pools : Backends H) (rnd : Random) (draw : UInt32) (b : RandomBytes) (now : ℤ) (cookie : String)
    (sessions : SessionStore) :
    filterHealthyPools destinations pools.get Backend.alive = [] ∧
      route.pickDestinationPool destinations pools rnd draw b now cookie sessions =
        .ok ⟨none, [], sessions⟩ ∨
    filterHealthyPools destinations pools.get Backend.alive ≠ [] ∧
      route.pickDestinationPool destinations pools rnd draw b now cookie sessions =
        route.pickStickyPool (filterHealthyPools destinations pools.get Backend.alive) pools rnd draw b now
          cookie sessions := by
  unfold pickDestinationPool
  split
  · simp at hmany
  · simp at hmany
  · split
    · exact .inl ⟨‹_›, rfl⟩
    · exact .inr ⟨‹_›, rfl⟩

end StickyRoute

/-! ## A client that has been given a session -/

/-- A time within the time to live of what was given at another time. -/
def PinConfig.Within (cfg : PinConfig) (t now : ℤ) : Prop :=
  cfg.ttlSeconds = 0 ∨ now < t + cfg.ttlSeconds * 1000000000

theorem PinConfig.Within.live {cfg : PinConfig} {t now : ℤ} (h : cfg.Within t now) (sid : String) :
    Entry.live (⟨sid, expiry t cfg.ttlSeconds⟩ : Entry String) now = true := by
  rw [Entry.live, expiry]
  split
  · rename_i hpos
    rcases h with h | h
    · omega
    · exact decide_eq_true h
  · rfl

/-- The client was given its session at a time `t`, and the store has an entry for it, made at that time
or later. -/
def Holds (cfg : PinConfig) (key : String → String × String) (jar : Jar) (sessions : SessionStore)
    (t : ℤ) (value : String) : Prop :=
  ∃ b t', jar cfg.name = some ⟨generateSessionID b, expiry t cfg.ttlSeconds⟩ ∧ t ≤ t' ∧
    sessions (key (generateSessionID b)) = some ⟨value, expiry t' cfg.ttlSeconds⟩

section Stick

variable {β : Type} {cfg : PinConfig} {key : String → String × String} {id : β → String}
  {valid : String → Option β} {choose : Except Panic (Option β)} {b : RandomBytes} {t now : ℤ}
  {jar jar' : Jar}
  {sessions sessions' : SessionStore} {value : String} {r : Pinned β}

/-- Other cookies and other entries do not matter. -/
theorem Holds.frame (h : Holds cfg key jar sessions t value) (hjar : jar' cfg.name = jar cfg.name)
    (hsessions : ∀ b x, jar cfg.name = some ⟨generateSessionID b, x⟩ →
      sessions' (key (generateSessionID b)) = sessions (key (generateSessionID b))) :
    Holds cfg key jar' sessions' t value := by
  obtain ⟨b, t', hcookie, hle, hentry⟩ := h
  refine ⟨b, t', hjar.trans hcookie, hle, ?_⟩
  rw [hsessions b _ hcookie, hentry]

theorem chooseAnew_cases {sid : String} {cookies : List SetCookie}
    (h : chooseAnew cfg key id choose now sid cookies sessions = .ok r) :
    choose = .ok none ∧ r = ⟨none, cookies, sessions⟩ ∨
      ∃ x, choose = .ok (some x) ∧
        r = ⟨some x, cookies, sessions.set (key sid) (id x) cfg.ttlSeconds now⟩ := by
  unfold chooseAnew at h
  cases choose with
  | error e => cases h
  | ok o =>
    cases o with
    | none => exact .inl ⟨rfl, (Except.ok.inj h).symm⟩
    | some x => exact .inr ⟨x, rfl, (Except.ok.inj h).symm⟩

/-- A new choice is made, which may find nothing, or the stored one can be used. The only cookie that is set
is the one of the configuration. -/
theorem stick_cases {cookie : String} (h : stick cfg key id valid choose b now cookie sessions = .ok r) :
    ∃ cookies : List SetCookie, (∀ c ∈ cookies, c.name = cfg.name) ∧
      (choose = .ok none ∧ r = ⟨none, cookies, sessions⟩ ∨
        (∃ sid x, choose = .ok (some x) ∧
          r = ⟨some x, cookies, sessions.set (key sid) (id x) cfg.ttlSeconds now⟩) ∨
        ∃ value x, valid value = some x ∧ r = ⟨some x, cookies, sessions⟩) := by
  unfold stick at h
  split at h
  · refine ⟨_, fun c hc => ?_, (chooseAnew_cases h).imp_right fun hx => .inl ⟨_, hx⟩⟩
    rw [setCookie] at hc
    split at hc
    · rw [List.mem_singleton.mp hc]
    · cases hc
  · refine ⟨[], by simp, ?_⟩
    simp only at h
    split at h
    · rename_i x hx
      split at hx
      · cases hx
      · exact .inr (.inr ⟨_, x, hx, (Except.ok.inj h).symm⟩)
    · exact (chooseAnew_cases h).imp_right fun hx => .inl ⟨_, hx⟩

/-- What is chosen can be used, or is a new choice. -/
theorem choice_of_stick {cookie : String}
    (h : stick cfg key id valid choose b now cookie sessions = .ok r) {x : β} (hx : r.choice = some x) :
    (∃ value, valid value = some x) ∨ choose = .ok (some x) := by
  obtain ⟨_, -, ⟨-, rfl⟩ | ⟨_, y, hy, rfl⟩ | ⟨value, y, hy, rfl⟩⟩ := stick_cases h
  · cases hx
  · rw [hy, ← hx]
    exact .inr rfl
  · exact .inl ⟨value, hy.trans hx⟩

/-- What is stored is stored under the key of a session. -/
theorem sessions_of_stick {cookie : String}
    (h : stick cfg key id valid choose b now cookie sessions = .ok r) {k : String × String}
    (hk : ∀ sid, k ≠ key sid) : r.sessions k = sessions k := by
  obtain ⟨_, -, ⟨-, rfl⟩ | ⟨sid, x, -, rfl⟩ | ⟨_, x, -, rfl⟩⟩ := stick_cases h
  · rfl
  · exact write_of_ne _ (hk sid)
  · rfl

theorem name_of_stick {cookie : String}
    (h : stick cfg key id valid choose b now cookie sessions = .ok r) :
    ∀ c ∈ r.cookies, c.name = cfg.name := by
  obtain ⟨_, hname, ⟨-, rfl⟩ | ⟨_, x, -, rfl⟩ | ⟨_, x, -, rfl⟩⟩ := stick_cases h <;> exact hname

/-- If every new choice finds something, something is chosen. -/
theorem choice_ne_none {cookie : String} (hchoose : choose ≠ .ok none)
    (h : stick cfg key id valid choose b now cookie sessions = .ok r) : r.choice ≠ none := by
  obtain ⟨_, -, ⟨hnone, -⟩ | ⟨_, x, -, rfl⟩ | ⟨_, x, -, rfl⟩⟩ := stick_cases h
  · exact absurd hnone hchoose
  · exact Option.some_ne_none x
  · exact Option.some_ne_none x

/-- If a new choice can be made, a choice is made. -/
theorem exists_stick {x : β} (hchoose : choose = .ok (some x)) (cookie : String) :
    ∃ r y, stick cfg key id valid choose b now cookie sessions = .ok r ∧ r.choice = some y := by
  subst hchoose
  unfold stick chooseAnew
  split
  · exact ⟨_, x, rfl, rfl⟩
  · simp only
    split
    · rename_i y _
      exact ⟨_, y, rfl, rfl⟩
    · exact ⟨_, x, rfl, rfl⟩

/-- A client without a session is given one. -/
theorem cookies_of_stick_new (hname : isToken cfg.name = true)
    (h : stick cfg key id valid choose b now "" sessions = .ok r) :
    r.cookies = [⟨cfg.name, generateSessionID b, cfg.ttlSeconds⟩] := by
  rw [stick, if_pos rfl] at h
  rcases chooseAnew_cases h with ⟨-, rfl⟩ | ⟨x, -, rfl⟩
  · exact if_pos hname
  · exact if_pos hname

/-- A client with a session keeps it. -/
theorem cookies_of_stick_old {cookie : String} (hcookie : cookie ≠ "")
    (h : stick cfg key id valid choose b now cookie sessions = .ok r) : r.cookies = [] := by
  rw [stick, if_neg hcookie] at h
  simp only at h
  split at h
  · obtain rfl := Except.ok.inj h
    rfl
  · rcases chooseAnew_cases h with ⟨-, rfl⟩ | ⟨x, -, rfl⟩
    · rfl
    · rfl

/-- The store has an entry for a session that was just given. -/
theorem Holds.new (hname : isToken cfg.name = true) (httl : 0 ≤ cfg.ttlSeconds)
    (h : stick cfg key id valid choose b now "" sessions = .ok r) {x : β} (hx : r.choice = some x) :
    Holds cfg key (jar.receiveAll now r.cookies) r.sessions now (id x) := by
  rw [cookies_of_stick_new hname h]
  rw [stick, if_pos rfl] at h
  rcases chooseAnew_cases h with ⟨-, rfl⟩ | ⟨y, -, rfl⟩
  · cases hx
  · obtain rfl : y = x := Option.some.inj hx
    refine ⟨b, now, ?_, le_refl now, write_self _ _ _⟩
    rw [Jar.receiveAll, List.foldl_cons, List.foldl_nil, Jar.receive, Function.update_self,
      if_neg (Int.not_lt.mpr httl)]

/-- Within its time to live, the client sends its session, and the store answers with the entry. -/
theorem Holds.sent (h : Holds cfg key jar sessions t value) (hwithin : cfg.Within t now) :
    ∃ b t', jar cfg.name = some ⟨generateSessionID b, expiry t cfg.ttlSeconds⟩ ∧
      jar.cookie cfg.name now = generateSessionID b ∧ t ≤ t' ∧
      sessions (key (generateSessionID b)) = some ⟨value, expiry t' cfg.ttlSeconds⟩ ∧
      sessions.get (key (generateSessionID b)) now = value := by
  obtain ⟨b, t', hcookie, ht', hentry⟩ := h
  have hlive : Entry.live (⟨value, expiry t' cfg.ttlSeconds⟩ : Entry String) now = true :=
    live_mono rfl rfl ht' (hwithin.live (generateSessionID b))
  refine ⟨b, t', hcookie, ?_, ht', hentry, ?_⟩
  · rw [Jar.cookie, read_of_live hcookie (hwithin.live _), Option.getD_some]
  · rw [SessionStore.get, read_of_live hentry hlive, Option.getD_some]

/-- A client with a session gets what the store has for it, if that can be used, and otherwise the store
gets what it is given. -/
theorem Holds.stick (hholds : Holds cfg key jar sessions t value) (hwithin : cfg.Within t now)
    (hle : t ≤ now) (hne : value ≠ "") (hvalid : ∀ {v x}, valid v = some x → id x = v)
    (h : Proxy.stick cfg key id valid choose b now (jar.cookie cfg.name now) sessions = .ok r) {x : β}
    (hx : r.choice = some x) :
    r.cookies = [] ∧ Holds cfg key jar r.sessions t (id x) ∧ (id x = value ∨ valid value = none) := by
  obtain ⟨b', t', hcookie, hsent, ht', hentry, hget⟩ := hholds.sent hwithin
  rw [hsent, Proxy.stick, if_neg (generateSessionID_ne_empty b')] at h
  simp only [hget, if_neg hne] at h
  cases hv : valid value with
  | some y =>
    rw [hv] at h
    obtain rfl := Except.ok.inj h
    obtain rfl : y = x := Option.some.inj hx
    exact ⟨rfl, ⟨b', t', hcookie, ht', hentry.trans (by rw [hvalid hv])⟩, .inl (hvalid hv)⟩
  | none =>
    rw [hv] at h
    rcases chooseAnew_cases h with ⟨-, rfl⟩ | ⟨y, -, rfl⟩
    · cases hx
    · obtain rfl : y = x := Option.some.inj hx
      exact ⟨rfl, ⟨b', now, hcookie, hle, write_self _ _ _⟩, .inr rfl⟩

/-- A client has no session and was not served yet, or it was given a session at some time, and the
store has an entry for it: what it was served by, if its last request was served. -/
structure Settled (cfg : PinConfig) (key : String → String × String) (now : ℤ) (jar : Jar)
    (sessions : SessionStore) (since : Option ℤ) (served : Option String) : Prop where
  fresh : since = none → jar cfg.name = none ∧ served = none
  held : ∀ t, since = some t → t ≤ now ∧
    (0 ≤ cfg.ttlSeconds → ∃ value, value ≠ "" ∧ Holds cfg key jar sessions t value ∧
      ∀ x, served = some x → x = value)

namespace Settled

variable {since : Option ℤ} {served : Option String}

/-- A time to live that is negative has always passed. -/
theorem ttl_nonneg (h : Settled cfg key now jar sessions since served) (ht : since = some t)
    (hwithin : cfg.Within t now) : 0 ≤ cfg.ttlSeconds := by
  have hle := (h.held t ht).1
  rcases hwithin with hzero | hlt
  · omega
  · omega

theorem frame (h : Settled cfg key now jar sessions since served) {now' : ℤ} (hnow : now ≤ now')
    (hjar : jar' cfg.name = jar cfg.name)
    (hsessions : ∀ b x, jar cfg.name = some ⟨generateSessionID b, x⟩ →
      sessions' (key (generateSessionID b)) = sessions (key (generateSessionID b))) :
    Settled cfg key now' jar' sessions' since served where
  fresh hnone := hjar ▸ h.fresh hnone
  held t ht := by
    obtain ⟨hle, hheld⟩ := h.held t ht
    refine ⟨hle.trans hnow, fun httl => ?_⟩
    obtain ⟨value, hne, hholds, hserved⟩ := hheld httl
    exact ⟨value, hne, hholds.frame hjar hsessions, hserved⟩

/-- A client may be served by what the store has for it. -/
theorem stored (hs : Settled cfg key now jar sessions since served)
    (hwithin : ∀ t, since = some t → cfg.Within t now) (hcookie : jar.cookie cfg.name now ≠ "")
    (hget : sessions.get (key (jar.cookie cfg.name now)) now = value) :
    Settled cfg key now jar sessions since (some value) ∧ ∀ y, served = some y → y = value := by
  cases since with
  | none => exact absurd (Jar.cookie_of_none (hs.fresh rfl).1 now) hcookie
  | some t =>
    obtain ⟨hle, hheld⟩ := hs.held t rfl
    obtain ⟨stored, hne, hholds, hserved⟩ := hheld (hs.ttl_nonneg rfl (hwithin t rfl))
    obtain ⟨b, t', -, hsent, -, -, hstored⟩ := hholds.sent (hwithin t rfl)
    obtain rfl : stored = value := by rw [← hstored, ← hsent, hget]
    refine ⟨⟨nofun, fun t₁ ht₁ => ?_⟩, hserved⟩
    obtain rfl := Option.some.inj ht₁
    exact ⟨hle, fun _ => ⟨stored, hne, hholds, fun y hy => (Option.some.inj hy).symm⟩⟩

/-- One request of a client that carries back its cookies. It is served by the same again unless that
cannot be used any more. -/
theorem stick (hs : Settled cfg key now jar sessions since served)
    (hwithin : ∀ t, since = some t → cfg.Within t now) (hname : isToken cfg.name = true)
    (hne : ∀ x, id x ≠ "") (hvalid : ∀ {v x}, valid v = some x → id x = v)
    (h : Proxy.stick cfg key id valid choose b now (jar.cookie cfg.name now) sessions = .ok r) {x : β}
    (hx : r.choice = some x) :
    Settled cfg key now (jar.receiveAll now r.cookies) r.sessions
        (if r.cookies = [] then since else some now) (some (id x)) ∧
      ∀ y, served = some y → id x = y ∨ valid y = none := by
  cases since with
  | none =>
    obtain ⟨hjar, hserved⟩ := hs.fresh rfl
    rw [Jar.cookie_of_none hjar] at h
    have hcookies : r.cookies ≠ [] := by
      rw [cookies_of_stick_new hname h]
      exact List.cons_ne_nil _ _
    rw [if_neg hcookies]
    refine ⟨⟨nofun, fun t ht => ?_⟩, by simp [hserved]⟩
    obtain rfl := Option.some.inj ht
    exact ⟨le_refl _, fun httl => ⟨id x, hne x, Holds.new hname httl h hx, fun y hy =>
      (Option.some.inj hy).symm⟩⟩
  | some t =>
    obtain ⟨hle, hheld⟩ := hs.held t rfl
    obtain ⟨value, hvalue, hholds, hserved⟩ := hheld (hs.ttl_nonneg rfl (hwithin t rfl))
    obtain ⟨hcookies, hnext, hsame⟩ := hholds.stick (hwithin t rfl) hle hvalue hvalid h hx
    rw [hcookies, if_pos rfl]
    refine ⟨⟨nofun, fun t' ht' => ?_⟩, fun y hy => hserved y hy ▸ hsame⟩
    obtain rfl := Option.some.inj ht'
    exact ⟨hle, fun _ => ⟨id x, hne x, hnext, fun y hy => (Option.some.inj hy).symm⟩⟩

/-- A choice of which the client does not learn. -/
theorem stick_lost (hs : Settled cfg key now jar sessions since served)
    (hwithin : ∀ t, since = some t → cfg.Within t now) (hname : isToken cfg.name = true)
    (hne : ∀ x, id x ≠ "") (hvalid : ∀ {v x}, valid v = some x → id x = v)
    (h : Proxy.stick cfg key id valid choose b now (jar.cookie cfg.name now) sessions = .ok r) {x : β}
    (hx : r.choice = some x) : Settled cfg key now jar r.sessions since none := by
  cases since with
  | none => exact ⟨fun _ => ⟨(hs.fresh rfl).1, rfl⟩, nofun⟩
  | some t =>
    have hsent : jar.cookie cfg.name now ≠ "" := by
      obtain ⟨-, hheld⟩ := hs.held t rfl
      obtain ⟨value, -, hholds, -⟩ := hheld (hs.ttl_nonneg rfl (hwithin t rfl))
      obtain ⟨b', t', -, hcookie, -⟩ := hholds.sent (hwithin t rfl)
      rw [hcookie]
      exact generateSessionID_ne_empty b'
    obtain ⟨⟨-, hheld⟩, -⟩ := hs.stick hwithin hname hne hvalid h hx
    rw [cookies_of_stick_old hsent h] at hheld
    refine ⟨nofun, fun t' ht' => ⟨(hheld t' ht').1, fun httl => ?_⟩⟩
    obtain ⟨value, hvalue, hholds, -⟩ := (hheld t' ht').2 httl
    exact ⟨value, hvalue, hholds, nofun⟩

end Settled

end Stick

end Vrata.Proxy

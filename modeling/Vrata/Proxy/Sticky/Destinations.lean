import Vrata.Proxy.Sticky.Endpoints

/-!
# Clients that stay with their destination

Reference: `forwardHandler`, `pickDestinationPool` and `pickStickyPool` of
`server/internal/proxy/handler.go`.

A client makes requests on one route with sticky balancing and carries back the cookies it is given, while
the weights of the destinations change, destinations are added and removed, and their health changes. What
the session store has for the client is the destination that served it last.

The response carries the cookies of the destination, of the endpoint that is chosen next, and of the
upstream. All that have the same name stand for one cookie, of which the client keeps the last one, and a
cookie whose name is not a token is not set at all. `undisrupted_of_reaches` says that a client stays with its
destination, as long as that is on the route and has a healthy endpoint, in every run in which the cookie of
the route reaches the client.
-/

namespace Vrata.Proxy

open Server Runs Expiring

/-! ## What the choice of an endpoint adds -/

section EndpointPins

variable {H : Hashing} {d : Backend H} {rnd : Random} {st : BalancerState} {v : Visit} {b : RandomBytes}
  {now : ℤ} {jar : Jar} {sessions : SessionStore}

/-- An endpoint that is not looked up in the store comes without cookies and without entries. -/
theorem unpinned_or_sticky {r : Pinned Endpoint} (h : d.pick rnd st v b now jar sessions = .ok r) :
    (r.cookies = [] ∧ r.sessions = sessions) ∨
      ∃ healthy, d.pickStickyEndpoint rnd healthy b now (jar.cookie d.pinConfig.name now) sessions =
        .ok r := by
  have hunpinned : ∀ {o : Except Panic (Option Endpoint × BalancerState)},
      (o.map fun r => (⟨r.1, [], sessions⟩ : Pinned Endpoint)) = .ok r →
      r.cookies = [] ∧ r.sessions = sessions := by
    rintro (e | o) ho
    · cases ho
    · obtain rfl := Except.ok.inj ho
      exact ⟨rfl, rfl⟩
  unfold Backend.pick at h
  simp only at h
  split at h
  · exact .inl (hunpinned h)
  · exact .inl (hunpinned h)
  · split at h
    · exact .inl (hunpinned h)
    · exact .inl (hunpinned h)
    · split at h
      · exact .inr ⟨_, h⟩
      · exact .inl (hunpinned h)

theorem name_of_hashCookies {policies : List HashPolicy} {c : SetCookie}
    (hc : c ∈ Backend.hashCookies v b now jar policies) :
    c.name ∈ policies.filterMap HashPolicy.cookieName := by
  induction policies with
  | nil => cases hc
  | cons policy policies ih =>
    cases policy with
    | header name =>
      rw [Backend.hashCookies] at hc
      split at hc
      · cases hc
      · exact ih hc
    | cookie pin =>
      rw [Backend.hashCookies] at hc
      split at hc
      · exact List.mem_cons_of_mem _ (ih hc)
      · split at hc
        · cases hc
        · rw [setCookie] at hc
          split at hc
          · rw [List.mem_singleton.mp hc]
            exact List.mem_cons_self
          · cases hc
    | sourceIP => cases hc

/-- The cookies have the names that the destination is configured with, and what is stored is stored under
keys with a colon. -/
theorem endpointPins_spec {cookies : List SetCookie} {sessions' : SessionStore}
    (h : d.endpointPins rnd st v b now jar sessions = .ok (cookies, sessions')) :
    (∀ c ∈ cookies, c.name ∈ d.cookieNames) ∧
      ∀ k : String × String, ':' ∉ k.1.toList → sessions' k = sessions k := by
  unfold Backend.endpointPins at h
  split at h
  · obtain ⟨rfl, rfl⟩ := Prod.mk.inj (Except.ok.inj h)
    exact ⟨fun c hc => List.mem_cons_of_mem _ (name_of_hashCookies hc), fun _ _ => rfl⟩
  · cases hpick : d.pick rnd st v b now jar sessions with
    | error e =>
      rw [hpick] at h
      cases h
    | ok r =>
      rw [hpick] at h
      obtain ⟨rfl, rfl⟩ := Prod.mk.inj (Except.ok.inj h)
      rcases unpinned_or_sticky hpick with ⟨hcookies, hsessions⟩ | ⟨healthy, hsticky⟩
      · rw [hcookies, hsessions]
        exact ⟨nofun, fun _ _ => rfl⟩
      · refine ⟨fun c hc => ?_, fun k hk => sessions_of_stick hsticky fun sid hkey => hk ?_⟩
        · rw [name_of_stick hsticky c hc]
          exact List.mem_cons_self
        · rw [hkey, Backend.key]
          simp

end EndpointPins

/-- The position that is chosen is one of the list. -/
theorem selectPosition_lt {refs : List DestinationRef} (hne : refs ≠ []) (rnd : Random) (draw : UInt32) :
    selectPosition refs rnd.intn draw = .error .divideByZero ∨
      ∃ i < refs.length, selectPosition refs rnd.intn draw = .ok (some i) := by
  have hpos : 0 < refs.length := List.length_pos_iff.mpr hne
  rw [selectPosition, if_neg hpos.ne']
  split_ifs
  · exact .inr ⟨0, hpos, rfl⟩
  · exact .inr ⟨_, rnd.intn_lt _ hpos, rfl⟩
  · exact .inl rfl
  · refine .inr ⟨_, ?_, rfl⟩
    rw [positionFor]
    cases hwalk : walk (draw % totalWeight refs) 0 refs 0 with
    | none =>
      rw [Option.getD_none]
      omega
    | some k =>
      obtain ⟨j, hj, rfl, -⟩ := walk_eq_some_iff.mp hwalk
      rw [Option.getD_some]
      omega

/-- A choice among destinations that are there finds one, or panics. -/
theorem selectDestination_ne_none {Pool : Type} {refs : List DestinationRef} {pools : String → Option Pool}
    (hne : refs ≠ []) (hpools : ∀ ref ∈ refs, pools ref.destinationID ≠ none) (rnd : Random)
    (draw : UInt32) : selectDestination refs pools rnd.intn draw ≠ .ok none := by
  rcases selectPosition_lt hne rnd draw with herror | ⟨i, hi, hposition⟩
  · rw [selectDestination, herror]
    exact nofun
  · rw [selectDestination, hposition]
    intro h
    have hnone := Except.ok.inj h
    rw [Option.bind_some, List.getElem?_eq_getElem hi] at hnone
    exact hpools _ (List.getElem_mem hi) hnone

theorem mem_of_selectDestination {Pool : Type} {refs : List DestinationRef} {pools : String → Option Pool}
    {intn : ℕ → ℕ} {draw : UInt32} {pool : Pool}
    (h : selectDestination refs pools intn draw = .ok (some pool)) :
    ∃ ref ∈ refs, pools ref.destinationID = some pool := by
  rw [selectDestination] at h
  cases hposition : selectPosition refs intn draw with
  | error e =>
    rw [hposition] at h
    cases h
  | ok position =>
    rw [hposition] at h
    obtain ⟨ref, href, hpool⟩ := Option.bind_eq_some_iff.mp (Except.ok.inj h)
    obtain ⟨i, -, hi⟩ := Option.bind_eq_some_iff.mp href
    exact ⟨ref, List.mem_of_getElem? hi, hpool⟩

/-! ## Runs -/

/-- A client of the route. -/
structure Visitor (H : Hashing) where
  now : ℤ
  destinations : List DestinationRef
  pools : Backends H
  sessions : SessionStore
  jar : Jar
  /-- When the client was given its session. -/
  since : Option ℤ := none
  /-- The destination that served the client last. -/
  served : Option String := none

/-- A request, with the random choices that are made for it and the cookies of the upstream. -/
structure Passage where
  visit : Visit
  rnd : Random
  draw : UInt32
  bytes : RandomBytes
  endpointBytes : RandomBytes
  balancers : BalancerState
  upstream : List SetCookie := []

namespace Visitor

variable {H : Hashing}

inductive Action (H : Hashing) where
  | tick (d : ℕ)
  /-- Destinations are added to the route or removed, or their weights change. -/
  | setDestinations (refs : List DestinationRef)
  /-- Destinations change, or the health of their endpoints. -/
  | setPools (pools : Backends H)
  /-- Something is stored for another session. -/
  | other (k : String × String) (e : Entry String)
  | request (x : Passage)

section Steps

variable (route : StickyRoute) (s : Visitor H)

/-- The key of the client in the session store. -/
def ownKey : Option (String × String) := (s.jar route.pinConfig.name).map fun e => route.key e.value

/-- `forwardHandler` up to the choice of the endpoint, and the cookies of the response. A handler that
panics sends none. -/
def forward (x : Passage) : Visitor H :=
  match route.pickDestinationPool s.destinations s.pools x.rnd x.draw x.bytes s.now
      (s.jar.cookie route.pinConfig.name s.now) s.sessions with
  | .error _ => s
  | .ok r =>
    let since := if r.cookies = [] then s.since else some s.now
    match r.choice with
    | none =>
      { s with sessions := r.sessions, jar := s.jar.receiveAll s.now r.cookies, since := since }
    | some d =>
      match d.endpointPins x.rnd x.balancers x.visit x.endpointBytes s.now s.jar r.sessions with
      | .error _ => { s with sessions := r.sessions, served := none }
      | .ok (cookies, sessions) =>
        { s with
          sessions := sessions
          jar := s.jar.receiveAll s.now (r.cookies ++ (cookies ++ x.upstream))
          since := since
          served := some d.id }

/-- Sessions are drawn at random, and nobody else stores something for that of the client. -/
def step : Action H → Visitor H
  | .tick d => { s with now := s.now + d }
  | .setDestinations refs => { s with destinations := refs }
  | .setPools pools => { s with pools := pools }
  | .other k e => if s.ownKey route = some k then s else { s with sessions := write s.sessions k e }
  | .request x => s.forward route x

/-- The destination is on the route and has a healthy endpoint. -/
def Up (id : String) : Prop :=
  id ∈ s.destinations.map DestinationRef.destinationID ∧ (s.pools.get id).any Backend.alive = true

/-- The client is served by the same destination as before unless that is removed from the route or has
no healthy endpoint. -/
def Undisrupted (a : Action H) : Prop :=
  ∀ id id', s.served = some id → s.Up id → (s.step route a).served = some id' → id' = id

/-- The route has several destinations, and the client makes its requests within the time to live of its
cookie. -/
def InTime : Action H → Prop
  | .request _ => 2 ≤ s.destinations.length ∧ ∀ t, s.since = some t → route.pinConfig.Within t s.now
  | _ => True

/-- The cookie of the route can be set, and neither the destinations nor the upstream set one of its
name. -/
def Meets : Action H → Prop
  | .request x =>
    isToken route.pinConfig.name = true ∧
      (∀ ref ∈ s.destinations, ∀ d, s.pools.get ref.destinationID = some d →
        route.pinConfig.name ∉ d.cookieNames) ∧
      ∀ c ∈ x.upstream, c.name ≠ route.pinConfig.name
  | _ => True

/-- What holds throughout a run. -/
def Inv : Prop :=
  Settled route.pinConfig route.key s.now s.jar s.sessions s.since s.served

end Steps

variable {route : StickyRoute} {s : Visitor H}

theorem mem_healthy {ref : DestinationRef} :
    ref ∈ filterHealthyPools s.destinations s.pools.get Backend.alive ↔
      ref ∈ s.destinations ∧ (s.pools.get ref.destinationID).any Backend.alive = true := by
  rw [filterHealthyPools, List.mem_filter]

theorem get_ne_none : ∀ ref ∈ filterHealthyPools s.destinations s.pools.get Backend.alive,
    s.pools.get ref.destinationID ≠ none := by
  intro ref href hnone
  have halive := (mem_healthy.mp href).2
  rw [hnone] at halive
  cases halive

theorem id_of_validSet {healthy : List DestinationRef} {pools : Backends H} {id : String} {d : Backend H}
    (h : StickyRoute.validSet healthy pools id = some d) : d.id = id := by
  rw [StickyRoute.validSet] at h
  split at h
  · exact pools.id_eq h
  · cases h

/-- A destination that is up can be used. -/
theorem validSet_ne_none {id : String} (hup : s.Up id) :
    StickyRoute.validSet (filterHealthyPools s.destinations s.pools.get Backend.alive) s.pools id ≠
      none := by
  obtain ⟨hmem, halive⟩ := hup
  obtain ⟨ref, href, rfl⟩ := List.mem_map.mp hmem
  have hhealthy := mem_healthy.mpr ⟨href, halive⟩
  rw [StickyRoute.validSet, if_pos (List.mem_map_of_mem hhealthy)]
  exact get_ne_none ref hhealthy

section Request

variable {x : Passage} {r : Pinned (Backend H)} {d : Backend H}

/-- What is chosen is a destination of the route. -/
theorem exists_ref {cookie : String}
    (hr : route.pickStickyPool (filterHealthyPools s.destinations s.pools.get Backend.alive) s.pools x.rnd
      x.draw x.bytes s.now cookie s.sessions = .ok r) (hd : r.choice = some d) :
    ∃ ref ∈ s.destinations, s.pools.get ref.destinationID = some d := by
  rcases choice_of_stick hr hd with ⟨value, hvalid⟩ | hchoose
  · rw [StickyRoute.validSet] at hvalid
    split at hvalid
    · rename_i hmem
      obtain ⟨ref, href, rfl⟩ := List.mem_map.mp hmem
      exact ⟨ref, (mem_healthy.mp href).1, hvalid⟩
    · cases hvalid
  · obtain ⟨ref, href, hpool⟩ := mem_of_selectDestination hchoose
    exact ⟨ref, (mem_healthy.mp href).1, hpool⟩

/-- The client keeps its session and what is stored for it whatever the endpoint and the upstream add. -/
theorem settled_endpoint {cookies : List SetCookie} {sessions : SessionStore} {served : Option String}
    (hs : Settled route.pinConfig route.key s.now (s.jar.receiveAll s.now r.cookies) r.sessions
      (if r.cookies = [] then s.since else some s.now) served)
    (hpins : d.endpointPins x.rnd x.balancers x.visit x.endpointBytes s.now s.jar r.sessions =
      .ok (cookies, sessions)) (hd : route.pinConfig.name ∉ d.cookieNames)
    (hupstream : ∀ c ∈ x.upstream, c.name ≠ route.pinConfig.name) :
    Settled route.pinConfig route.key s.now
      (s.jar.receiveAll s.now (r.cookies ++ (cookies ++ x.upstream))) sessions
      (if r.cookies = [] then s.since else some s.now) served := by
  obtain ⟨hnames, hsessions⟩ := endpointPins_spec hpins
  refine hs.frame (le_refl _) ?_ fun b _ _ => hsessions _ (colon_not_mem_generateSessionID b)
  rw [Jar.receiveAll_append]
  refine Jar.receiveAll_of_ne fun c hc => ?_
  rcases List.mem_append.mp hc with hc | hc
  · exact fun heq => hd (heq ▸ hnames c hc)
  · exact hupstream c hc

theorem request_inv (hinv : s.Inv route) (htime : s.InTime route (.request x))
    (hmeets : s.Meets route (.request x)) :
    (s.forward route x).Inv route ∧
      ∀ id id', s.served = some id → s.Up id → (s.forward route x).served = some id' → id' = id := by
  have hsame : ∀ id id', s.served = some id → s.Up id → s.served = some id' → id' = id :=
    fun id id' hid _ hid' => Option.some.inj (hid'.symm.trans hid)
  obtain ⟨hname, hnames, hupstream⟩ := hmeets
  rw [forward]
  rcases route.pickDestinationPool_cases htime.1 s.pools x.rnd x.draw x.bytes s.now
    (s.jar.cookie route.pinConfig.name s.now) s.sessions with ⟨-, hpick⟩ | ⟨hne, hpick⟩
  · rw [hpick]
    exact ⟨hinv, hsame⟩
  · rw [hpick]
    cases hr : route.pickStickyPool (filterHealthyPools s.destinations s.pools.get Backend.alive) s.pools
      x.rnd x.draw x.bytes s.now (s.jar.cookie route.pinConfig.name s.now) s.sessions with
    | error e => exact ⟨hinv, hsame⟩
    | ok r =>
      obtain ⟨d, hd⟩ := Option.ne_none_iff_exists'.mp
        (choice_ne_none (selectDestination_ne_none hne get_ne_none x.rnd x.draw) hr)
      simp only [hd]
      split
      · exact ⟨Settled.stick_lost hinv htime.2 hname Backend.id_ne_empty id_of_validSet hr hd, nofun⟩
      · rename_i cookies sessions hpins
        obtain ⟨hnext, hstay⟩ :=
          Settled.stick hinv htime.2 hname Backend.id_ne_empty id_of_validSet hr hd
        obtain ⟨ref, href, hget⟩ := exists_ref hr hd
        refine ⟨settled_endpoint hnext hpins (hnames ref href d hget) hupstream,
          fun id id' hid hup hid' => ?_⟩
        obtain rfl := Option.some.inj hid'
        exact (hstay id hid).resolve_right (validSet_ne_none hup)

end Request

theorem step_inv {a : Action H} (hinv : s.Inv route) (htime : s.InTime route a)
    (hmeets : s.Meets route a) : (s.step route a).Inv route ∧ s.Undisrupted route a := by
  have hsame : ∀ id id', s.served = some id → s.Up id → s.served = some id' → id' = id :=
    fun id id' hid _ hid' => Option.some.inj (hid'.symm.trans hid)
  cases a with
  | tick d =>
    refine ⟨hinv.frame ?_ rfl fun _ _ _ => rfl, hsame⟩
    show s.now ≤ s.now + d
    omega
  | setDestinations refs | setPools pools => exact ⟨hinv, hsame⟩
  | other k e =>
    rw [Undisrupted, step]
    split
    · exact ⟨hinv, hsame⟩
    · rename_i hown
      refine ⟨hinv.frame (le_refl _) rfl fun b y hcookie => write_of_ne e fun heq => hown ?_, hsame⟩
      rw [ownKey, hcookie, Option.map_some, heq]
  | request x => exact request_inv hinv htime hmeets

/-- In every run within the time to live of the cookie in which the condition is met, a client stays with
its destination as long as that is on the route and has a healthy endpoint. -/
theorem undisrupted_of_reaches {s : Visitor H} (hjar : s.jar route.pinConfig.name = none)
    (hsince : s.since = none) (hserved : s.served = none) {as : List (Action H)}
    (hrun : Along (step route) (fun s a => s.InTime route a ∧ s.Meets route a) s as) :
    Along (step route) (fun s a => s.Undisrupted route a) s as := by
  have hinv : s.Inv route := ⟨fun _ => ⟨hjar, hserved⟩, fun t ht => by simp [hsince] at ht⟩
  refine hrun.along (I := fun s => s.Inv route) (fun s a hs ha => ?_) (fun s a hs ha => ?_) hinv
  · exact (step_inv hs ha.1 ha.2).1
  · exact (step_inv hs ha.1 ha.2).2

end Visitor

/-! ## Two destinations -/

/-- A destination with sticky endpoints, whose cookie is the given one. -/
def stickyNamed (cookie : Option DestinationPinCookie) (id : String) (h : id ≠ "") :
    Backend constantHashing where
  id := id
  pool := stickyPair true true
  cookie := cookie
  id_ne_empty := h

/-- Two destinations. -/
def twoNamed (cookie : Option DestinationPinCookie) (id : String) : Option (Backend constantHashing) :=
  if h : id ≠ "" then
    if id = "blue" ∨ id = "green" then some (stickyNamed cookie id h) else none
  else none

theorem twoNamed_eq {cookie : Option DestinationPinCookie} {id : String} {d : Backend constantHashing}
    (h : twoNamed cookie id = some d) : d.id = id ∧ d.cookie = cookie ∧ d.hashPolicies = [] := by
  unfold twoNamed at h
  split at h
  · split at h
    · obtain rfl := Option.some.inj h
      exact ⟨rfl, rfl, rfl⟩
    · cases h
  · cases h

def twoBackends (cookie : Option DestinationPinCookie) : Backends constantHashing where
  get := twoNamed cookie
  id_eq h := (twoNamed_eq h).1

def colours : List DestinationRef := [⟨"blue", 50⟩, ⟨"green", 50⟩]

/-- A client that has not been there before. -/
def newVisitor (cookie : Option DestinationPinCookie) : Visitor constantHashing where
  now := 0
  destinations := colours
  pools := twoBackends cookie
  sessions _ := none
  jar _ := none

def passage (draw : UInt32) : Passage where
  visit := ⟨"192.0.2.1", fun _ => ""⟩
  rnd := firstChoice
  draw := draw
  bytes := Vector.replicate 16 0
  endpointBytes := Vector.replicate 16 1
  balancers := ⟨0, fun _ => 0⟩

/-- A second request, a minute later, for which the weights would choose the other destination. -/
def twoPassages : List (Visitor.Action constantHashing) :=
  [.request (passage 0), .tick 60000000000, .request (passage 50)]

def sessionCookie : DestinationPinCookie := ⟨"session", none⟩

def colourRoute : StickyRoute := ⟨"route", some sessionCookie⟩

theorem undisrupted_twoPassages :
    Along (Visitor.step colourRoute) (fun s a => s.Undisrupted colourRoute a) (newVisitor none)
        twoPassages ∧
      (twoPassages.foldl (Visitor.step colourRoute) (newVisitor none)).served = some "blue" := by
  have hnames : ∀ ref ∈ colours, ∀ d, (twoBackends none).get ref.destinationID = some d →
      colourRoute.pinConfig.name ∉ d.cookieNames := by
    intro ref _ d hd
    obtain ⟨-, hcookie, hpolicies⟩ := twoNamed_eq hd
    rw [Backend.cookieNames, Backend.pinConfig, hcookie, hpolicies]
    decide
  refine ⟨Visitor.undisrupted_of_reaches rfl rfl rfl ?_, by decide +kernel⟩
  rw [twoPassages, along_cons, along_cons, along_cons]
  refine ⟨⟨⟨by decide, nofun⟩, by decide, hnames, nofun⟩, ⟨trivial, trivial⟩,
    ⟨⟨by decide, fun t ht => ?_⟩, by decide, hnames, nofun⟩, along_nil⟩
  obtain rfl : 0 = t := Option.some.inj ht
  exact .inr (by decide)

/-- The endpoints have a cookie of the same name, and the client keeps only that. -/
theorem not_undisrupted_oneName :
    Along (Visitor.step colourRoute) (fun s a => s.InTime colourRoute a)
        (newVisitor (some sessionCookie)) twoPassages ∧
      ¬Along (Visitor.step colourRoute) (fun s a => s.Undisrupted colourRoute a)
        (newVisitor (some sessionCookie)) twoPassages := by
  constructor
  · rw [twoPassages, along_cons, along_cons, along_cons]
    refine ⟨⟨by decide, nofun⟩, trivial, ⟨by decide, fun t ht => ?_⟩, along_nil⟩
    obtain rfl : 0 = t := Option.some.inj ht
    exact .inr (by decide)
  · intro h
    have hlast := h (twoPassages.take 2) (.request (passage 50)) List.prefix_rfl "blue" "green"
      (by decide +kernel) ⟨by decide, by decide⟩ (by decide +kernel)
    exact absurd hlast (by decide)

end Vrata.Proxy

import Vrata.Proxy.Chain
import Vrata.Proxy.Listener

/-!
# Requests with and without metrics

Reference: `startListener` of `server/internal/proxy/listener.go`, `ServeHTTP` of `router.go`,
`wrapWithMetrics` and `recordEndpointResult` of `handler.go`, and `metrics.go`.

Metrics put a multiplexer in front of the router, which serves the metrics under their path, and have the
router, the middlewares and the forwarding handler record what they did. The multiplexer redirects requests
whose path is not clean. Recording does not touch the response, but the first observation of a histogram
panics if its buckets are not in order, and what was not sent by then is lost. `metrics_transparent_iff`
says for which requests neither happens, whatever the routing table is.
-/

namespace Vrata.Proxy

open Server

/-! ## Requests and replies -/

/-- A request with the parts of its target, the size of its headers, and the detail of errors that was put
into its context. -/
structure WebRequest extends Inbound where
  requestURI : String
  urlHost : String
  escapedPath : String
  rawQuery : String
  headerSize : ℕ
  detail : String
  path_eq : Mux.decode escapedPath.toList = some path.toList
  star : path = "*" → requestURI = "*"

namespace WebRequest

/-- What the multiplexer reads. -/
def incoming (r : WebRequest) : Mux.Incoming where
  method := r.method
  host := r.host
  urlHost := r.urlHost
  requestURI := r.requestURI
  escapedPath := r.escapedPath
  path := r.path
  rawQuery := r.rawQuery

/-- `OPTIONS *` is answered by the server itself. -/
def generalOptions (r : WebRequest) : Bool := r.requestURI = "*" && r.method = "OPTIONS"

end WebRequest

/-- What the client gets. Responses of routes are of some type. -/
inductive WebReply (ρ : Type) where
  | written (response : ρ)
  | proxyError (status : ℕ) (type detail : String)
  | moved (path rawQuery : String)
  | badRequest
  | notFound
  | options
  /-- The page with the metrics. -/
  | metrics
  /-- The connection is closed before all of the response was sent. -/
  | aborted
  /-- There is no server. -/
  | unreachable
deriving DecidableEq

/-- What a handler does: what the client gets, whether all of it is sent before the handler returns, and
the requests that are sent upstream. -/
structure Act (ρ υ : Type) where
  reply : WebReply ρ
  server : String := ""
  flushed : Bool := false
  upstream : List υ := []

/-- What others see of it. -/
def Act.observed {ρ υ : Type} (a : Act ρ υ) : WebReply ρ × String × List υ := (a.reply, a.server, a.upstream)

abbrev Handler (ρ υ : Type) := WebRequest → Act ρ υ

/-! ## Recording -/

/-- The histograms of a collector. -/
inductive Family where
  | route
  | destination
  | endpoint
  | middleware
deriving DecidableEq, Repr

namespace CollectorConfig

def collects (c : CollectorConfig) : Family → Bool
  | .route => c.route
  | .destination => c.destination
  | .endpoint => c.endpoint
  | .middleware => c.middleware

/-- `newHistogram` panics if the buckets are not in increasing order. -/
def panics (c : CollectorConfig) (f : Family) : Bool :=
  c.collects f && !decide (c.durationBuckets.Pairwise (· < ·))

end CollectorConfig

section Handlers

variable {ρ υ : Type} (collectors : List CollectorConfig)

/-- The duration is observed. After a panic only what was sent is left. -/
def record (f : Family) (a : Act ρ υ) : Act ρ υ :=
  if collectors.any fun c => c.panics f then
    { a with reply := if a.flushed then a.reply else .aborted }
  else a

def wrapWithMetrics (m : Handler ρ υ → Handler ρ υ) (next : Handler ρ υ) : Handler ρ υ :=
  fun r => record collectors .middleware (m next r)

/-- The innermost handler of a route. Forwarding says whether an endpoint was tried. -/
inductive RouteAction (ρ υ : Type) where
  | direct (handler : Handler ρ υ)
  | forward (handler : WebRequest → Act ρ υ × Bool)

/-- The result of an endpoint is recorded by `recordEndpointResult`. -/
def RouteAction.handler : RouteAction ρ υ → Handler ρ υ
  | .direct handler => handler
  | .forward handler => fun r =>
    if (handler r).2 then record collectors .endpoint (record collectors .destination (handler r).1)
    else (handler r).1

structure RouteEntry (ρ υ : Type) where
  compiled : CompiledRoute
  middlewares : List (Handler ρ υ → Handler ρ υ)
  action : RouteAction ρ υ

/-- `buildRouteHandler`. -/
def RouteEntry.handler (e : RouteEntry ρ υ) : Handler ρ υ :=
  e.middlewares.foldr (wrapWithMetrics collectors) (e.action.handler collectors)

/-- `ServeHTTP` of the router. -/
def routerHandler (table : List (RouteEntry ρ υ)) : Handler ρ υ := fun r =>
  match table.find? fun e => e.compiled.accepts r.request with
  | none => { reply := .proxyError 404 "no_route" r.detail }
  | some e => record collectors .route (e.handler collectors r)

end Handlers

/-! ## The handler of a listener -/

section Listeners

variable {ρ υ : Type} (cfg : ServerConfig)

/-- The headers of the request exceed the limit of the listener. -/
def tooLarge (maxRequestHeadersKB : UInt32) (r : WebRequest) : Bool :=
  0 < maxRequestHeadersKB && maxRequestHeadersKB.toNat * 1024 < r.headerSize

/-- The wrapper for the name of the server and the limit. -/
def limited (next : Handler ρ υ) : Handler ρ υ := fun r =>
  if tooLarge cfg.maxRequestHeadersKB r then
    { reply := .proxyError 431 "request_headers_too_large" r.detail, server := cfg.serverName }
  else { next r with server := cfg.serverName }

def withDetail (next : Handler ρ υ) : Handler ρ υ := fun r => next { r with detail := cfg.detail }

/-- The multiplexer of a listener with metrics. -/
def multiplexed (p : Mux.Pattern) (next : Handler ρ υ) : Handler ρ υ := fun r =>
  match Mux.dispatch p r.incoming with
  | .special => { reply := .metrics }
  | .rest => next r
  | .moved path rawQuery => { reply := .moved path rawQuery }
  | .badRequest => { reply := .badRequest }
  | .notFound => { reply := .notFound }

/-- The handler that a server is started with, unless the path of the metrics cannot be registered. -/
def listenerHandler (router : Handler ρ υ) : Option (Handler ρ υ) :=
  let handler := withDetail cfg (limited cfg router)
  match cfg.metrics with
  | none => some handler
  | some m => (Mux.register isTokenChar m.path).map fun p => multiplexed p handler

/-- A request to a listener, where other listeners may have collectors too. -/
def served (others : List CollectorConfig) (table : List (RouteEntry ρ υ)) : Handler ρ υ := fun r =>
  match listenerHandler cfg (routerHandler (cfg.metrics.toList ++ others) table) with
  | none => { reply := .unreachable }
  | some handler => if r.generalOptions then { reply := .options } else handler r

end Listeners

/-! ## Collectors that do not panic -/

section Sound

variable {ρ υ : Type} {c : CollectorConfig} {others : List CollectorConfig}

/-- The buckets are in order, or no histogram has them. -/
def CollectorConfig.Sound (c : CollectorConfig) : Prop :=
  c.durationBuckets.Pairwise (· < ·) ∨ ∀ f, c.collects f = false

theorem panics_of_sound (h : c.Sound) (f : Family) : c.panics f = false := by
  rw [CollectorConfig.panics]
  rcases h with hbuckets | hcollects
  · rw [decide_eq_true hbuckets, Bool.not_true, Bool.and_false]
  · rw [hcollects f, Bool.false_and]

theorem exists_panics_of_not_sound (h : ¬c.Sound) : ∃ f, c.panics f = true := by
  obtain ⟨hbuckets, hcollects⟩ := not_or.mp h
  obtain ⟨f, hf⟩ := not_forall.mp hcollects
  exact ⟨f, by simp [CollectorConfig.panics, hbuckets, eq_true_of_ne_false hf]⟩

theorem record_of_sound (h : c.Sound) (f : Family) (a : Act ρ υ) :
    record (c :: others) f a = record others f a := by
  simp only [record, List.any_cons, panics_of_sound h f, Bool.false_or]

theorem wrapWithMetrics_of_sound (h : c.Sound) :
    wrapWithMetrics (ρ := ρ) (υ := υ) (c :: others) = wrapWithMetrics others := by
  funext m next r
  exact record_of_sound h .middleware (m next r)

theorem actionHandler_of_sound (h : c.Sound) (action : RouteAction ρ υ) :
    action.handler (c :: others) = action.handler others := by
  cases action with
  | direct handler => rfl
  | forward handler =>
    funext r
    simp only [RouteAction.handler, record_of_sound h]

/-- A router whose additional collector does not panic does what it does without it. -/
theorem routerHandler_of_sound (h : c.Sound) (table : List (RouteEntry ρ υ)) :
    routerHandler (c :: others) table = routerHandler others table := by
  funext r
  simp only [routerHandler, RouteEntry.handler, wrapWithMetrics_of_sound h, actionHandler_of_sound h,
    record_of_sound h]

/-- What is not sent before a panic is lost. -/
theorem reply_record (collectors : List CollectorConfig) (f : Family) {a : Act ρ υ}
    (hflushed : a.flushed = false) :
    (record collectors f a).flushed = false ∧
      (record collectors f a).reply =
        if collectors.any (fun c => c.panics f) then .aborted else a.reply := by
  unfold record
  split
  · exact ⟨hflushed, by rw [hflushed]; rfl⟩
  · exact ⟨hflushed, rfl⟩

end Sound

/-! ## Every request -/

section Transparent

variable {ρ υ : Type}

/-- A route for all paths, behind a middleware that does nothing, whose endpoints answer nothing. -/
def probeEntry : RouteEntry ρ υ where
  compiled := {
    model := { id := "probe", name := "probe", «match» := { pathPrefix := "/" } }
    group := none
    path := { pathPrefix := "/" }
    methods := none
    headers := []
    queryParams := []
    grpcOnly := false
    hostnames := []
    celProgram := none }
  middlewares := [fun next => next]
  action := .forward fun _ => ({ reply := .notFound }, true)

theorem accepts_probeEntry {r : WebRequest} (h : Text.hasPrefix r.path "/" = true) :
    (probeEntry : RouteEntry ρ υ).compiled.accepts r.request = true := by
  have hpath : ({ pathPrefix := "/" } : PathMatcher).accepts r.request.path = true := h
  simp [CompiledRoute.accepts, hpath, probeEntry, hostAccepted]

theorem routerHandler_probeEntry (collectors : List CollectorConfig) {r : WebRequest}
    (h : Text.hasPrefix r.path "/" = true) :
    routerHandler collectors [(probeEntry : RouteEntry ρ υ)] r =
      record collectors .route (record collectors .middleware (record collectors .endpoint
        (record collectors .destination { reply := .notFound }))) := by
  have hfind : [(probeEntry : RouteEntry ρ υ)].find? (fun e => e.compiled.accepts r.request) =
      some probeEntry := List.find?_cons_of_pos (accepts_probeEntry h)
  simp only [routerHandler, hfind]
  rfl

/-- The request is recorded in all families, so that a panic in any of them shows. -/
theorem reply_probeEntry {collectors : List CollectorConfig} {f : Family}
    (hf : (collectors.any fun c => c.panics f) = true) {r : WebRequest}
    (h : Text.hasPrefix r.path "/" = true) :
    (routerHandler collectors [(probeEntry : RouteEntry ρ υ)] r).reply = .aborted := by
  let reached : Act ρ υ := { reply := .notFound }
  obtain ⟨hflushed, hdestination⟩ := reply_record collectors .destination (a := reached) rfl
  obtain ⟨hflushed, hendpoint⟩ := reply_record collectors .endpoint hflushed
  obtain ⟨hflushed, hmiddleware⟩ := reply_record collectors .middleware hflushed
  obtain ⟨-, hroute⟩ := reply_record collectors .route hflushed
  rw [routerHandler_probeEntry collectors h, hroute, hmiddleware, hendpoint, hdestination]
  cases f with
  | route => rw [if_pos hf]
  | middleware => rw [if_pos hf, ite_self]
  | endpoint => rw [if_pos hf, ite_self, ite_self]
  | destination => rw [if_pos hf, ite_self, ite_self, ite_self]

/-- The target of a request that is not empty is rooted. -/
theorem hasPrefix_path {r : WebRequest} (hstar : r.requestURI ≠ "*") (hpath : r.escapedPath.toList ≠ []) :
    Text.hasPrefix r.path "/" = true := by
  rcases r.path_form with hempty | hstar' | hrooted
  · have hdecode := r.path_eq
    rw [hempty] at hdecode
    exact absurd (Mux.eq_nil_of_decode hdecode) hpath
  · exact absurd (r.star hstar') hstar
  · exact hrooted

variable {l : Listener} {m : ListenerMetrics} {tls : Option TLSConfig} {r : WebRequest}
  {others : List CollectorConfig} {table : List (RouteEntry ρ υ)}

/-- Without metrics, what the router does is seen with the name of the server and under the limit. -/
theorem served_without (r : WebRequest) :
    served (serverConfig { l with metrics := none } tls) others table r =
      if r.generalOptions then { reply := .options }
      else withDetail (serverConfig l tls) (limited (serverConfig l tls) (routerHandler others table)) r := by
  rfl

theorem metrics_serverConfig (hm : l.metrics = some m) :
    (serverConfig l tls).metrics = some (newMetricsCollector m) :=
  congrArg (Option.map newMetricsCollector) hm

theorem served_with (hm : l.metrics = some m) {p : Mux.Pattern}
    (hp : Mux.register isTokenChar m.resolvedPath = some p) (r : WebRequest) :
    served (serverConfig l tls) others table r =
      if r.generalOptions then { reply := .options }
      else multiplexed p (withDetail (serverConfig l tls) (limited (serverConfig l tls)
        (routerHandler (newMetricsCollector m :: others) table))) r := by
  have hpath : Mux.register isTokenChar (newMetricsCollector m).path = some p := hp
  simp only [served, listenerHandler, metrics_serverConfig hm, hpath, Option.map_some, Option.toList_some]
  rfl

theorem served_with_none (hm : l.metrics = some m) (hp : Mux.register isTokenChar m.resolvedPath = none)
    (r : WebRequest) : served (serverConfig l tls) others table r = { reply := .unreachable } := by
  have hpath : Mux.register isTokenChar (newMetricsCollector m).path = none := hp
  simp only [served, listenerHandler, metrics_serverConfig hm, hpath, Option.map_none]

/-- Without a route there is an error. -/
theorem exists_reply_nil (cfg : ServerConfig) (collectors : List CollectorConfig) (r : WebRequest) :
    ∃ status type detail, (withDetail cfg (limited cfg
      (routerHandler collectors ([] : List (RouteEntry ρ υ)))) r).reply = .proxyError status type detail := by
  simp only [withDetail, limited]
  split
  · exact ⟨_, _, _, rfl⟩
  · exact ⟨_, _, _, rfl⟩

/-- The routing table without routes shows what the multiplexer takes away from the router. -/
theorem clear_of_transparent {p : Mux.Pattern} {cfg : ServerConfig} {collectors : List CollectorConfig}
    (h : (multiplexed p (withDetail cfg (limited cfg
        (routerHandler collectors ([] : List (RouteEntry ρ υ))))) r).reply =
      (withDetail cfg (limited cfg (routerHandler others ([] : List (RouteEntry ρ υ)))) r).reply) :
    Mux.Clear p r.incoming := by
  obtain ⟨status, type, detail, herror⟩ := exists_reply_nil (ρ := ρ) (υ := υ) cfg others r
  rw [herror, multiplexed] at h
  rw [← Mux.dispatch_eq_rest_iff]
  cases hdispatch : Mux.dispatch p r.incoming with
  | rest => rfl
  | special | moved path rawQuery | badRequest =>
    rw [hdispatch] at h
    cases h
  | notFound =>
    rw [hdispatch] at h
    cases h

theorem multiplexed_of_clear {p : Mux.Pattern} (h : Mux.Clear p r.incoming) (next : Handler ρ υ) :
    multiplexed p next r = next r := by
  rw [multiplexed, Mux.dispatch_eq_rest_iff.mpr h]

/-- A request with too large headers does not get to the router. -/
theorem limited_of_tooLarge {cfg : ServerConfig} (h : tooLarge cfg.maxRequestHeadersKB r = true)
    (next next' : Handler ρ υ) : limited cfg next r = limited cfg next' r := by
  rw [limited, limited, if_pos h, if_pos h]

theorem reply_limited {cfg : ServerConfig} (h : ¬tooLarge cfg.maxRequestHeadersKB r = true)
    (next : Handler ρ υ) : (limited cfg next r).reply = (next r).reply := by
  rw [limited, if_neg h]

/-- A collector that panics shows at a route that is recorded in all families. -/
theorem sound_of_transparent (cfg : ServerConfig) {c : CollectorConfig}
    (hlarge : ¬tooLarge cfg.maxRequestHeadersKB r = true) (hrooted : Text.hasPrefix r.path "/" = true)
    (h : (limited cfg (routerHandler [c] [(probeEntry : RouteEntry ρ υ)]) r).reply =
      (limited cfg (routerHandler [] [(probeEntry : RouteEntry ρ υ)]) r).reply) : c.Sound := by
  by_contra hsound
  obtain ⟨f, hf⟩ := exists_panics_of_not_sound hsound
  have hany : ([c].any fun c => c.panics f) = true := List.any_eq_true.mpr ⟨c, List.mem_singleton_self c, hf⟩
  rw [reply_limited hlarge, reply_limited hlarge, reply_probeEntry hany hrooted,
    routerHandler_probeEntry [] hrooted] at h
  cases h

/-- Metrics make no difference for a request, whatever the routing table is and whatever other listeners
collect, exactly if their path can be registered, and the request is answered by the server itself, or
does not concern the pattern and either has too large headers or meets a collector that does not panic. -/
theorem metrics_transparent_iff (hm : l.metrics = some m) :
    (∀ (others : List CollectorConfig) (table : List (RouteEntry ρ υ)),
      (served (serverConfig l tls) others table r).observed =
        (served (serverConfig { l with metrics := none } tls) others table r).observed) ↔
      ∃ p, Mux.register isTokenChar m.resolvedPath = some p ∧
        (r.generalOptions = true ∨ Mux.Clear p r.incoming ∧
          (tooLarge l.maxRequestHeadersKB r = true ∨ (newMetricsCollector m).Sound)) := by
  constructor
  · intro h
    cases hp : Mux.register isTokenChar m.resolvedPath with
    | none =>
      have hreply := congrArg Prod.fst (h [] [])
      rw [served_with_none hm hp, served_without] at hreply
      split at hreply
      · cases hreply
      · obtain ⟨status, type, detail, herror⟩ := exists_reply_nil (ρ := ρ) (υ := υ) (serverConfig l tls) [] r
        cases hreply.trans herror
    | some p =>
      refine ⟨p, rfl, or_iff_not_imp_left.mpr fun hoptions => ?_⟩
      simp only [served_with hm hp, served_without, if_neg hoptions] at h
      have hclear := clear_of_transparent (congrArg Prod.fst (h [] []))
      refine ⟨hclear, or_iff_not_imp_left.mpr fun hlarge => ?_⟩
      have hreply := congrArg Prod.fst (h [] [probeEntry])
      rw [multiplexed_of_clear hclear] at hreply
      exact sound_of_transparent (r := { r with detail := (serverConfig l tls).detail }) (serverConfig l tls)
        hlarge (hasPrefix_path hclear.1 hclear.2.1) hreply
  · rintro ⟨p, hp, hr⟩ others table
    rw [served_with hm hp, served_without]
    split
    · rfl
    · rename_i hoptions
      obtain ⟨hclear, hsound⟩ := hr.resolve_left hoptions
      rw [multiplexed_of_clear hclear]
      rcases hsound with hlarge | hsound
      · exact congrArg Act.observed (limited_of_tooLarge hlarge _ _)
      · rw [routerHandler_of_sound hsound]

end Transparent

/-! ## A listener with metrics -/

def meteredListener : Listener where
  id := "web"
  port := 8080
  metrics := some {}

theorem ne_star_of_rooted {path : String} (h : Text.hasPrefix path "/" = true) : path ≠ "*" := by
  rintro rfl
  exact absurd h (by decide)

/-- A request to a path without escapes. -/
def pathRequest (path : String) (hrooted : Text.hasPrefix path "/" = true)
    (hplain : Mux.decode path.toList = some path.toList) : WebRequest where
  toInbound := plainRequest path hrooted
  requestURI := path
  urlHost := ""
  escapedPath := path
  rawQuery := ""
  headerSize := 40
  detail := ""
  path_eq := hplain
  star h := absurd h (ne_star_of_rooted hrooted)

def metricsPattern : Mux.Pattern where
  method := []
  host := []
  segments := [.literal "metrics".toList]

/-- A route for all paths with a response of its own. -/
def greetingEntry : RouteEntry String String :=
  { probeEntry with action := .direct fun _ => { reply := .written "hello" } }

theorem transparent_meteredListener :
    (served (serverConfig meteredListener none) [] [greetingEntry]
        (pathRequest "/a/b" (by decide) (by decide))).observed =
      (served (serverConfig { meteredListener with metrics := none } none) [] [greetingEntry]
        (pathRequest "/a/b" (by decide) (by decide))).observed := by
  have hregister : Mux.register isTokenChar ({} : ListenerMetrics).resolvedPath = some metricsPattern := by
    decide
  have hrest : Mux.dispatch metricsPattern (pathRequest "/a/b" (by decide) (by decide)).incoming = .rest := by
    decide
  have hsound : (newMetricsCollector {}).Sound := .inl (by decide +kernel)
  exact (metrics_transparent_iff rfl).mpr
    ⟨metricsPattern, hregister, .inr ⟨Mux.dispatch_eq_rest_iff.mp hrest, .inr hsound⟩⟩ [] [greetingEntry]

/-- A request with a repeated slash is redirected where the route had answered it. -/
theorem not_transparent_meteredListener :
    (pathRequest "/a//b" (by decide) (by decide)).path ≠ ({} : ListenerMetrics).resolvedPath ∧
      (served (serverConfig meteredListener none) [] [greetingEntry]
        (pathRequest "/a//b" (by decide) (by decide))).reply = .moved "/a/b" "" ∧
      (served (serverConfig { meteredListener with metrics := none } none) [] [greetingEntry]
        (pathRequest "/a//b" (by decide) (by decide))).reply = .written "hello" := by
  refine ⟨by decide, by decide, by decide⟩

end Vrata.Proxy

import Vrata.Controller.Entities
import Vrata.Lib.Distinct

/-!
# From an HTTPRoute to Vrata entities

Reference: `clients/controller/internal/mapper/mapper.go`.

`mapHTTPRoute` names everything it produces after the HTTPRoute: the group is `k8s:ns/name`, the
route of match `j` of rule `i` is `k8s:ns/name/rule-i/match-j`, the header middleware of rule `i`
is `k8s:ns/name/rule-i/headers`.

The routes of one rule do not own their lists of destinations and middlewares. The source builds
`destRefs` and `middlewareIDs` once for the rule and stores the same two slices in every route of
it, and the reconciler later overwrites them in place. The model keeps that sharing: `RuleSlices`
are the two slices of a rule, a `MappedRoute` only says which rule it belongs to, and
`MappedRoute.load` reads the route through the slices as they are at that moment.
-/

namespace Vrata.Controller

inductive PathMatchType where
  | exact
  | pathPrefix
  | regularExpression
deriving DecidableEq, Repr

inductive HeaderMatchType where
  | exact
  | regularExpression
deriving DecidableEq, Repr

/-- The methods the Gateway API admits in a match. -/
inductive HTTPMethod where
  | get | head | post | put | delete | connect | options | trace | patch
deriving DecidableEq, Repr

def HTTPMethod.name : HTTPMethod → String
  | .get => "GET"
  | .head => "HEAD"
  | .post => "POST"
  | .put => "PUT"
  | .delete => "DELETE"
  | .connect => "CONNECT"
  | .options => "OPTIONS"
  | .trace => "TRACE"
  | .patch => "PATCH"

inductive FilterType where
  | requestRedirect
  | urlRewrite
  | requestHeaderModifier
  | responseHeaderModifier
  | requestMirror
  | cors
  | externalAuth
  | extensionRef
deriving DecidableEq, Repr

/-- An empty type (`none`) is the zero value of the source's string field. -/
structure HeaderMatchInput where
  name : String
  value : String
  type : Option HeaderMatchType
deriving DecidableEq, Repr

/-- `none` in `pathType` and `method` is the empty string of the source. -/
structure MatchInput where
  pathType : Option PathMatchType
  pathValue : String
  method : Option HTTPMethod
  headers : List HeaderMatchInput
deriving DecidableEq, Repr

structure BackendRefInput where
  serviceName : String
  serviceNamespace : String
  port : UInt32
  weight : UInt32
deriving DecidableEq, Repr

structure HeaderValue where
  name : String
  value : String
deriving DecidableEq, Repr

structure FilterInput where
  type : FilterType
  redirectScheme : String := ""
  redirectHost : String := ""
  redirectPort : UInt32 := 0
  redirectPath : String := ""
  redirectCode : UInt32 := 0
  redirectStripQuery : Bool := false
  rewritePathPrefix : String := ""
  rewriteHostname : String := ""
  headersToAdd : List HeaderValue := []
  headersToRemove : List String := []
deriving DecidableEq, Repr

structure RuleInput where
  «matches» : List MatchInput
  backendRefs : List BackendRefInput
  filters : List FilterInput
deriving DecidableEq, Repr

structure HTTPRouteInput where
  name : String
  «namespace» : String
  hostnames : List String
  rules : List RuleInput
deriving DecidableEq, Repr

/-- Service coordinates, by which destinations are shared between HTTPRoutes. -/
structure DestinationKey where
  name : String
  «namespace» : String
  port : UInt32
deriving DecidableEq, Repr

def DestinationKey.destinationName (dk : DestinationKey) : String :=
  "k8s:" ++ dk.namespace ++ "/" ++ dk.name ++ ":" ++ toString dk.port.toNat

def DestinationKey.fqdn (dk : DestinationKey) : String :=
  dk.name ++ "." ++ dk.namespace ++ ".svc.cluster.local"

/-- The slices that all routes of one rule share. -/
structure RuleSlices where
  destRefs : List DestRef
  middlewareIDs : List String
deriving DecidableEq, Repr

/-- A route whose destinations and middlewares are those of `rule`. `forward` is the `rewrite` entry
of the forward action, when there is such an action. -/
structure MappedRoute where
  name : String
  «match» : MatchMap
  redirect : Option RedirectMap
  forward : Option (Option RewriteMap)
  rule : ℕ
deriving DecidableEq, Repr

structure MappedEntities where
  group : RouteGroup
  routes : List MappedRoute
  slices : List RuleSlices
  destinations : List DestinationKey
  middlewares : List Middleware
deriving DecidableEq, Repr

/-- The slices of a rule; an index out of range reads as nil slices. -/
def sliceOf (slices : List RuleSlices) (rule : ℕ) : RuleSlices := slices.getD rule ⟨[], []⟩

/-- The route with the given contents of its slices. -/
def MappedRoute.withSlices (r : MappedRoute) (s : RuleSlices) : Route where
  name := r.name
  «match» := r.match
  forward := r.forward.map fun rewrite => ⟨s.destRefs, rewrite⟩
  redirect := r.redirect
  middlewareIDs := s.middlewareIDs

/-- The route as it reads through the shared slices. -/
def MappedRoute.load (r : MappedRoute) (slices : List RuleSlices) : Route :=
  r.withSlices (sliceOf slices r.rule)

/-! ## Matches and filters -/

def mapMatch (m : MatchInput) : MatchMap where
  path := if m.pathType = some .exact then some m.pathValue else none
  pathRegex := if m.pathType = some .regularExpression then some m.pathValue else none
  pathPrefix :=
    if m.pathType = some .exact ∨ m.pathType = some .regularExpression then none
    else some m.pathValue
  methods := m.method.map fun method => [method.name]
  headers :=
    if m.headers = [] then none
    else some (m.headers.map fun h => ⟨h.name, h.value, h.type = some .regularExpression⟩)

/-- The value of a string key that is only set when it is not empty. -/
def nonEmpty (s : String) : Option String := if s = "" then none else some s

@[simp] theorem nonEmpty_eq_none {s : String} : nonEmpty s = none ↔ s = "" := by
  simp [nonEmpty]

def mapRedirectFilter (f : FilterInput) : RedirectMap where
  scheme := nonEmpty f.redirectScheme
  host := nonEmpty f.redirectHost
  path := nonEmpty f.redirectPath
  code := if 0 < f.redirectCode then some f.redirectCode else none
  stripQuery := if f.redirectStripQuery then some true else none

def mapRewriteFilter (f : FilterInput) : RewriteMap where
  path := nonEmpty f.rewritePathPrefix
  host := nonEmpty f.rewriteHostname

def mapHeaderModifierFilter (name : String) (f : FilterInput) : Middleware where
  name := name
  type := "headers"
  headers :=
    { requestHeadersToAdd :=
        if f.headersToAdd = [] then none
        else some (f.headersToAdd.map fun h => ⟨h.name, h.value⟩)
      requestHeadersToRemove :=
        if f.headersToRemove = [] then none else some f.headersToRemove }

/-- The first filter of a type. -/
def findFilter (filters : List FilterInput) (type : FilterType) : Option FilterInput :=
  filters.find? fun f => f.type = type

/-! ## Rules -/

/-- The match of a rule that lists none. -/
def defaultMatch : MatchInput := ⟨some .pathPrefix, "/", none, []⟩

/-- The matches of a rule, with the default for an empty list. -/
def RuleInput.effectiveMatches (rule : RuleInput) : List MatchInput :=
  if rule.«matches» = [] then [defaultMatch] else rule.«matches»

def BackendRefInput.key (br : BackendRefInput) : DestinationKey :=
  ⟨br.serviceName, br.serviceNamespace, br.port⟩

/-- The weight sent to Vrata: zero is read as unset. -/
def BackendRefInput.mappedWeight (br : BackendRefInput) : UInt32 :=
  if br.weight = 0 then 1 else br.weight

def ruleName (base : String) (ri : ℕ) : String := base ++ "/rule-" ++ toString ri

def headersName (base : String) (ri : ℕ) : String := ruleName base ri ++ "/headers"

def routeName (base : String) (ri mi : ℕ) : String :=
  ruleName base ri ++ "/match-" ++ toString mi

/-- `destRefs` and `middlewareIDs` of a rule. -/
def ruleSlices (base : String) (ri : ℕ) (rule : RuleInput) : RuleSlices where
  destRefs := rule.backendRefs.map fun br => ⟨br.key.destinationName, br.mappedWeight⟩
  middlewareIDs :=
    match findFilter rule.filters .requestHeaderModifier with
    | none => []
    | some _ => [headersName base ri]

def ruleMiddlewares (base : String) (ri : ℕ) (rule : RuleInput) : List Middleware :=
  match findFilter rule.filters .requestHeaderModifier with
  | none => []
  | some f => [mapHeaderModifierFilter (headersName base ri) f]

/-- The forward action of a rule's routes: a redirect filter takes its place, and without
backends there is none. -/
def ruleForward (rule : RuleInput) : Option (Option RewriteMap) :=
  match findFilter rule.filters .requestRedirect with
  | some _ => none
  | none =>
    if rule.backendRefs = [] then none
    else some ((findFilter rule.filters .urlRewrite).map mapRewriteFilter)

def ruleRoute (base : String) (ri : ℕ) (rule : RuleInput) (mi : ℕ) (m : MatchInput) :
    MappedRoute where
  name := routeName base ri mi
  «match» := mapMatch m
  redirect := (findFilter rule.filters .requestRedirect).map mapRedirectFilter
  forward := ruleForward rule
  rule := ri

/-- One route for each match of the rule. -/
def ruleRoutes (base : String) (ri : ℕ) (rule : RuleInput) : List MappedRoute :=
  rule.effectiveMatches.zipIdx.map fun (m, mi) => ruleRoute base ri rule mi m

/-! ## The whole HTTPRoute -/

/-- Keep the first key of every destination name. -/
def deduplicateDests (dests : List DestinationKey) : List DestinationKey :=
  distinctOn DestinationKey.destinationName dests []

def groupName («namespace» name : String) : String := "k8s:" ++ «namespace» ++ "/" ++ name

def HTTPRouteInput.groupName (x : HTTPRouteInput) : String :=
  Controller.groupName x.namespace x.name

def mapHTTPRoute (x : HTTPRouteInput) : MappedEntities :=
  let base := x.groupName
  let routes := x.rules.zipIdx.flatMap fun (rule, ri) => ruleRoutes base ri rule
  { group := { name := base, routeIDs := routes.map MappedRoute.name, hostnames := x.hostnames }
    routes := routes
    slices := x.rules.zipIdx.map fun (rule, ri) => ruleSlices base ri rule
    destinations :=
      deduplicateDests (x.rules.flatMap fun rule => rule.backendRefs.map BackendRefInput.key)
    middlewares := x.rules.zipIdx.flatMap fun (rule, ri) => ruleMiddlewares base ri rule }

/-! ## Reading a mapping back -/

theorem effectiveMatches_ne_nil (rule : RuleInput) : rule.effectiveMatches ≠ [] := by
  unfold RuleInput.effectiveMatches
  split
  · simp
  · assumption

/-- The routes of a mapping are those of its rules. -/
theorem mem_routes_mapHTTPRoute {x : HTTPRouteInput} {r : MappedRoute} :
    r ∈ (mapHTTPRoute x).routes ↔
      ∃ rule ri, (rule, ri) ∈ x.rules.zipIdx ∧ r ∈ ruleRoutes x.groupName ri rule := by
  simp only [mapHTTPRoute, List.mem_flatMap, Prod.exists]

theorem mem_ruleRoutes {base : String} {ri : ℕ} {rule : RuleInput} {r : MappedRoute} :
    r ∈ ruleRoutes base ri rule ↔
      ∃ m mi, (m, mi) ∈ rule.effectiveMatches.zipIdx ∧ r = ruleRoute base ri rule mi m := by
  simp only [ruleRoutes, List.mem_map, Prod.exists, eq_comm]

/-- A rule reads its own slices. -/
theorem sliceOf_mapHTTPRoute {x : HTTPRouteInput} {rule : RuleInput} {ri : ℕ}
    (h : (rule, ri) ∈ x.rules.zipIdx) :
    sliceOf (mapHTTPRoute x).slices ri = ruleSlices x.groupName ri rule := by
  have hget : x.rules[ri]? = some rule := List.mk_mem_zipIdx_iff_getElem?.mp h
  simp [sliceOf, mapHTTPRoute, List.getD_eq_getElem?_getD, List.getElem?_zipIdx, hget]

end Vrata.Controller

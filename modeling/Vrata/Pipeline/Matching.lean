import Vrata.Controller.Input
import Vrata.Pipeline.Compiled

/-!
# Does the proxy match what the HTTPRoute matches?

`routeMatches` is the meaning of an HTTPRoute under the Gateway API: some rule has a match all of
whose matchers hold, and the host is among the hostnames. It is stated for any reading of hostnames
and query parameters, because the translation has its own: the proxy compares hostnames literally,
and query parameters do not exist in the mapper's input. `proxyMatches_iff_routeMatches` shows that
with this reading the translation is faithful to the Gateway API, for every request that a path
prefix does not treat differently when it is read as plain text instead of segment by segment.

The meaning of regular expressions is left to the implementation by the Gateway API: a path
expression is anchored at the start of the path, a header expression anywhere. An empty header
counts as absent.
-/

namespace Vrata.Pipeline

open Controller Server Proxy

/-! ## The meaning of an HTTPRoute -/

/-- A path prefix without its trailing slash. -/
def trimSlash (v : String) : String :=
  if Text.hasSuffix v "/" then String.ofList v.toList.dropLast else v

/-- `PathPrefix`: the segments of the value are the first segments of the path. -/
def segmentPrefix (v path : String) : Prop :=
  path = trimSlash v ∨ Text.hasPrefix path (trimSlash v ++ "/") = true

/-- The path type of a match, with the default of the API. -/
def pathTypeOf (m : HTTPRouteMatch) : PathMatchType :=
  (m.path.bind HTTPPathMatch.type).getD .pathPrefix

/-- The path value of a match, with the default of the API. -/
def pathValueOf (m : HTTPRouteMatch) : String :=
  (m.path.bind HTTPPathMatch.value).getD "/"

def pathHolds (eng : Engine) (m : HTTPRouteMatch) (path : String) : Prop :=
  match pathTypeOf m with
  | .exact => path = pathValueOf m
  | .pathPrefix => segmentPrefix (pathValueOf m) path
  | .regularExpression =>
    ∃ re, eng.regex ("^" ++ pathValueOf m) = some re ∧ re path = true

/-- A header or query parameter has the value, or matches the expression. -/
def valueHolds (eng : Engine) (type : Option HeaderMatchType) (value val : String) : Prop :=
  if type = some .regularExpression then
    val ≠ "" ∧ ∃ re, eng.regex value = some re ∧ re val = true
  else val = value

/-- All matchers of a match hold. -/
def matchHolds (query : HTTPRouteMatch → Proxy.Request → Prop) (eng : Engine) (m : HTTPRouteMatch)
    (req : Proxy.Request) : Prop :=
  pathHolds eng m req.path ∧
    (∀ method, m.method = some method → req.method = method.name) ∧
    (∀ h ∈ m.headers, valueHolds eng h.type h.value (req.get h.name)) ∧ query m req

/-- A rule without matches matches every path. -/
def matchesOf (rule : HTTPRouteRule) : List HTTPRouteMatch :=
  if rule.«matches» = [] then [{}] else rule.«matches»

/-- The HTTPRoute matches the request, given the meaning of hostnames and of query parameters. -/
def routeMatches (host : String → String → Prop) (query : HTTPRouteMatch → Proxy.Request → Prop)
    (eng : Engine) (spec : HTTPRouteSpec) (req : Proxy.Request) : Prop :=
  (spec.hostnames = [] ∨ ∃ h ∈ spec.hostnames, host h req.hostname) ∧
    ∃ rule ∈ spec.rules, ∃ m ∈ matchesOf rule, matchHolds query eng m req

/-- The hostname is the host, or is `*`. -/
def literalHost (pattern host : String) : Prop := pattern = "*" ∨ pattern = host

/-- A hostname `*.example.com` stands for all hosts with that suffix. -/
def gatewayHost (pattern host : String) : Prop :=
  literalHost pattern host ∨
    Text.hasPrefix pattern "*." = true ∧
      Text.hasSuffix host (String.ofList pattern.toList.tail) = true

/-- All query parameter matchers hold. -/
def gatewayQuery (eng : Engine) (m : HTTPRouteMatch) (req : Proxy.Request) : Prop :=
  ∀ q ∈ m.queryParams, valueHolds eng q.type q.value (req.query q.name)

/-- Query parameter matchers are ignored. -/
def anyQuery (_ : HTTPRouteMatch) (_ : Proxy.Request) : Prop := True

/-! ## The compiled routes -/

/-- The routes compiled from the entities that an HTTPRoute is mapped to. -/
def compiledRoutes (eng : Engine) (x : HTTPRouteInput) : List CompiledRoute :=
  (mapHTTPRoute x).routes.filterMap fun r =>
    compileRoute eng (decodeRoute (r.load (mapHTTPRoute x).slices))
      (some (decodeGroup (mapHTTPRoute x).group))

/-- Does the proxy have a route that accepts the request? -/
def proxyMatches (eng : Engine) («namespace» name : String) (spec : HTTPRouteSpec)
    (req : Proxy.Request) : Prop :=
  ∃ cr ∈ compiledRoutes eng (httpRouteSpecToInput «namespace» name spec), cr.accepts req = true

/-- The values of the path prefixes of an HTTPRoute. -/
def prefixValues (spec : HTTPRouteSpec) : List String :=
  (spec.rules.flatMap matchesOf).filterMap fun m =>
    if pathTypeOf m = .pathPrefix then some (pathValueOf m) else none

/-- The prefix that the proxy compares with. -/
def plainPrefix (v : String) : String := if v = "" then "/" else v

/-- No prefix of the HTTPRoute tells the plain text of this path from its segments. -/
def PrefixesAgree (spec : HTTPRouteSpec) (req : Proxy.Request) : Prop :=
  ∀ v ∈ prefixValues spec,
    Text.hasPrefix req.path (plainPrefix v) = true ↔ segmentPrefix v req.path

/-- Exact paths and path expressions have a value and it is not empty. -/
def PathsGiven (spec : HTTPRouteSpec) : Prop :=
  ∀ rule ∈ spec.rules, ∀ m ∈ rule.«matches», pathTypeOf m ≠ .pathPrefix →
    (m.path.bind HTTPPathMatch.value).getD "" ≠ ""

/-! ## Faithfulness -/

theorem hostAccepted_iff {hostnames : List String} {host : String} :
    hostAccepted hostnames host = true ↔
      hostnames = [] ∨ ∃ h ∈ hostnames, literalHost h host := by
  simp [hostAccepted, literalHost]

/-- The proxy matches a request if and only if the hostnames and some match of some rule accept
it. -/
theorem exists_compiledRoutes_iff {eng : Engine} {x : HTTPRouteInput} {req : Proxy.Request} :
    (∃ cr ∈ compiledRoutes eng x, cr.accepts req = true) ↔
      hostAccepted x.hostnames req.hostname = true ∧
        ∃ rule ∈ x.rules, ∃ m ∈ rule.effectiveMatches, PathAccepted eng m req.path ∧
          MethodAccepted m req.method ∧ ∀ h ∈ m.headers, HeaderAccepted eng h (req.get h.name) := by
  constructor
  · rintro ⟨cr, hcr, hacc⟩
    obtain ⟨r, hr, hcompile⟩ := List.mem_filterMap.mp hcr
    obtain ⟨rule, ri, hrule, hr⟩ := mem_routes_mapHTTPRoute.mp hr
    obtain ⟨m, mi, hm, rfl⟩ := mem_ruleRoutes.mp hr
    have haccepts : MatchAccepts eng x ri rule mi m req := ⟨cr, hcompile, hacc⟩
    obtain ⟨hhost, hmatch⟩ := matchAccepts_iff.mp haccepts
    exact ⟨hhost, rule, (List.mem_iff_getElem?.mpr ⟨ri, List.mk_mem_zipIdx_iff_getElem?.mp hrule⟩),
      m, (List.mem_iff_getElem?.mpr ⟨mi, List.mk_mem_zipIdx_iff_getElem?.mp hm⟩), hmatch⟩
  · rintro ⟨hhost, rule, hrule, m, hm, hmatch⟩
    obtain ⟨ri, hri⟩ := List.mem_iff_getElem?.mp hrule
    obtain ⟨mi, hmi⟩ := List.mem_iff_getElem?.mp hm
    have haccepts : MatchAccepts eng x ri rule mi m req := matchAccepts_iff.mpr ⟨hhost, hmatch⟩
    obtain ⟨cr, hcompile, hacc⟩ := haccepts
    refine ⟨cr, List.mem_filterMap.mpr ⟨ruleRoute x.groupName ri rule mi m, ?_, hcompile⟩, hacc⟩
    exact mem_routes_mapHTTPRoute.mpr ⟨rule, ri, List.mk_mem_zipIdx_iff_getElem?.mpr hri,
      mem_ruleRoutes.mpr ⟨m, mi, List.mk_mem_zipIdx_iff_getElem?.mpr hmi, rfl⟩⟩

theorem headerAccepted_iff {eng : Engine} (h : HTTPHeaderMatch) {val : String} :
    HeaderAccepted eng ⟨h.name, h.value, h.type⟩ val ↔ valueHolds eng h.type h.value val := by
  have hne := h.value_ne
  unfold HeaderAccepted valueHolds
  by_cases ht : h.type = some .regularExpression
  · simp [ht, hne]
  · simp only [hne, ht, false_or, if_false]
    exact ⟨fun hv => hv.2, fun hv => ⟨hv ▸ hne, hv⟩⟩

theorem pathAccepted_iff {eng : Engine} {m : HTTPRouteMatch} {path : String}
    (hgiven : pathTypeOf m ≠ .pathPrefix → (m.path.bind HTTPPathMatch.value).getD "" ≠ "")
    (hagree : pathTypeOf m = .pathPrefix →
      (Text.hasPrefix path (plainPrefix (pathValueOf m)) = true ↔
        segmentPrefix (pathValueOf m) path)) :
    PathAccepted eng m.toInput path ↔ pathHolds eng m path := by
  -- a value that is absent reads as `/` on one side and as empty on the other
  have hvalue : ∀ v, m.path.bind HTTPPathMatch.value = some v →
      m.toInput.pathValue = v ∧ pathValueOf m = v := by
    intro v hv
    simp [HTTPRouteMatch.toInput, pathValueOf, hv]
  have htype : ∀ t, m.path.bind HTTPPathMatch.type = t →
      m.toInput.pathType = t ∧ pathTypeOf m = t.getD .pathPrefix := by
    rintro t rfl
    exact ⟨rfl, rfl⟩
  have hplain : pathTypeOf m = .pathPrefix →
      (PathAccepted eng m.toInput path ↔
        Text.hasPrefix path (plainPrefix (pathValueOf m)) = true) := by
    intro hp
    unfold PathAccepted plainPrefix
    cases hv : m.path.bind HTTPPathMatch.value with
    | none => simp [HTTPRouteMatch.toInput, pathValueOf, hv]
    | some v =>
      rw [(hvalue v hv).1, (hvalue v hv).2]
      by_cases hempty : v = ""
      · simp [hempty]
      · rw [if_neg hempty, if_neg hempty]
        cases ht : m.path.bind HTTPPathMatch.type with
        | none => simp [HTTPRouteMatch.toInput, ht]
        | some t =>
          obtain rfl : t = .pathPrefix := by simpa [pathTypeOf, ht] using hp
          simp [HTTPRouteMatch.toInput, ht]
  by_cases hp : pathTypeOf m = .pathPrefix
  · rw [hplain hp, hagree hp, pathHolds, hp]
  · have hne := hgiven hp
    cases hv : m.path.bind HTTPPathMatch.value with
    | none => simp [hv] at hne
    | some v =>
      have hv0 : v ≠ "" := by simpa [hv] using hne
      cases ht : m.path.bind HTTPPathMatch.type with
      | none => simp [pathTypeOf, ht] at hp
      | some t =>
        unfold PathAccepted pathHolds
        rw [(hvalue v hv).1, (hvalue v hv).2, (htype _ ht).1, (htype _ ht).2, if_neg hv0]
        cases t with
        | exact => rfl
        | pathPrefix => simp [pathTypeOf, ht] at hp
        | regularExpression => rfl

theorem matchAccepted_iff {eng : Engine} {m : HTTPRouteMatch} {req : Proxy.Request}
    (hpath : PathAccepted eng m.toInput req.path ↔ pathHolds eng m req.path) :
    (PathAccepted eng m.toInput req.path ∧ MethodAccepted m.toInput req.method ∧
        ∀ h ∈ m.toInput.headers, HeaderAccepted eng h (req.get h.name)) ↔
      matchHolds anyQuery eng m req := by
  have hheaders : (∀ h ∈ m.toInput.headers, HeaderAccepted eng h (req.get h.name)) ↔
      ∀ h ∈ m.headers, valueHolds eng h.type h.value (req.get h.name) := by
    simp only [HTTPRouteMatch.toInput, List.forall_mem_map, headerAccepted_iff]
  rw [hheaders, hpath]
  simp only [matchHolds, anyQuery, and_true]
  rfl

theorem mem_prefixValues {spec : HTTPRouteSpec} {rule : HTTPRouteRule} {m : HTTPRouteMatch}
    (hrule : rule ∈ spec.rules) (hm : m ∈ matchesOf rule) (ht : pathTypeOf m = .pathPrefix) :
    pathValueOf m ∈ prefixValues spec :=
  List.mem_filterMap.mpr ⟨m, List.mem_flatMap.mpr ⟨rule, hrule, hm⟩, if_pos ht⟩

/-- With hostnames read literally and query parameters ignored, the proxy matches exactly what the
HTTPRoute matches, for every request on which plain prefixes and segments agree. -/
theorem proxyMatches_iff_routeMatches (eng : Engine) (ns name : String) (spec : HTTPRouteSpec)
    (req : Proxy.Request) (hgiven : PathsGiven spec) (hagree : PrefixesAgree spec req) :
    proxyMatches eng ns name spec req ↔ routeMatches literalHost anyQuery eng spec req := by
  rw [proxyMatches, exists_compiledRoutes_iff, hostAccepted_iff, routeMatches]
  refine and_congr Iff.rfl ?_
  simp only [httpRouteSpecToInput, List.mem_map, exists_exists_and_eq_and]
  refine exists_congr fun rule => and_congr_right fun hrule => ?_
  have hpath : ∀ m ∈ matchesOf rule,
      (PathAccepted eng m.toInput req.path ↔ pathHolds eng m req.path) := by
    intro m hm
    refine pathAccepted_iff ?_ fun ht => hagree _ (mem_prefixValues hrule hm ht)
    intro ht
    unfold matchesOf at hm
    split at hm
    · obtain rfl := List.mem_singleton.mp hm
      exact absurd rfl ht
    · exact hgiven rule hrule m hm ht
  by_cases hnil : rule.«matches» = []
  · -- the two defaults differ in their fields but accept the same paths
    have hdefault : PathAccepted eng defaultMatch req.path ↔
        PathAccepted eng ({} : HTTPRouteMatch).toInput req.path := by
      simp [PathAccepted, defaultMatch, HTTPRouteMatch.toInput]
    have hmem : matchesOf rule = [{}] := if_pos hnil
    rw [hmem]
    simp only [HTTPRouteRule.toInput, RuleInput.effectiveMatches, hnil, List.map_nil, if_true,
      List.mem_singleton, exists_eq_left]
    rw [← matchAccepted_iff (hpath {} (by simp [hmem])), hdefault]
    rfl
  · have hmem : matchesOf rule = rule.«matches» := if_neg hnil
    rw [hmem] at hpath ⊢
    simp only [HTTPRouteRule.toInput, RuleInput.effectiveMatches, List.map_eq_nil_iff, hnil,
      if_false, List.mem_map, exists_exists_and_eq_and]
    exact exists_congr fun m => and_congr_right fun hm => matchAccepted_iff (hpath m hm)

/-! ## Two requests -/

def getRequest (host path : String) (h : path = "" ∨ path = "*" ∨ Text.hasPrefix path "/" = true) :
    Proxy.Request :=
  ⟨"GET", host, path, fun _ => "", fun _ => "", h⟩

/-- A hostname and a path prefix. -/
def apiSpec : HTTPRouteSpec where
  hostnames := ["example.com"]
  rules := [{ «matches» := [{ path := some ⟨some .pathPrefix, some "/api"⟩ }] }]

/-- A wildcard hostname, and a required query parameter. -/
def wildcardSpec : HTTPRouteSpec where
  hostnames := ["*.example.com"]
  rules := [{}]

def querySpec : HTTPRouteSpec where
  rules := [{ «matches» := [{ queryParams := [⟨none, "v", "2", by decide⟩] }] }]

theorem proxyMatches_apiSpec :
    PathsGiven apiSpec ∧
      PrefixesAgree apiSpec (getRequest "example.com:8080" "/api/users" (by decide)) ∧
      proxyMatches noEngine "default" "web" apiSpec
        (getRequest "example.com:8080" "/api/users" (by decide)) := by
  have hgiven : PathsGiven apiSpec := by
    intro rule hrule m hm
    obtain rfl := List.mem_singleton.mp hrule
    obtain rfl := List.mem_singleton.mp hm
    decide
  have hagree :
      PrefixesAgree apiSpec (getRequest "example.com:8080" "/api/users" (by decide)) := by
    unfold PrefixesAgree segmentPrefix
    decide
  refine ⟨hgiven, hagree, (proxyMatches_iff_routeMatches _ _ _ _ _ hgiven hagree).mpr ?_⟩
  refine ⟨Or.inr ⟨"example.com", by decide, Or.inr (by decide)⟩, _, List.mem_singleton_self _, _,
    List.mem_singleton_self _, Or.inr (by decide), ?_, ?_, trivial⟩
  · intro method h
    cases h
  · intro h hmem
    cases hmem

/-- A wildcard hostname matches no host, and a query parameter does not restrict the match. -/
theorem wildcard_and_query_not_faithful :
    (routeMatches gatewayHost (gatewayQuery noEngine) noEngine wildcardSpec
        (getRequest "a.example.com" "/" (by decide)) ∧
      ¬proxyMatches noEngine "default" "web" wildcardSpec
        (getRequest "a.example.com" "/" (by decide))) ∧
    (¬routeMatches gatewayHost (gatewayQuery noEngine) noEngine querySpec
        (getRequest "example.com" "/" (by decide)) ∧
      proxyMatches noEngine "default" "web" querySpec
        (getRequest "example.com" "/" (by decide))) := by
  refine ⟨⟨?_, by unfold proxyMatches; decide⟩, ?_, by unfold proxyMatches; decide⟩
  · refine ⟨Or.inr ⟨"*.example.com", by decide, Or.inr (by decide)⟩, _,
      List.mem_singleton_self _, _, List.mem_singleton_self _, Or.inr (by decide), ?_, ?_, ?_⟩
    · intro method h
      cases h
    · intro h hmem
      cases hmem
    · intro q hmem
      cases hmem
  · rintro ⟨_, rule, hrule, m, hm, _, _, _, hquery⟩
    obtain rfl := List.mem_singleton.mp hrule
    obtain rfl := List.mem_singleton.mp hm
    have : ("" : String) = "2" := hquery _ (List.mem_singleton_self _)
    exact absurd this (by decide)

end Vrata.Pipeline

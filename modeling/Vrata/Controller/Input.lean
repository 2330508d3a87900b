import Vrata.Controller.Mapper

/-!
# From the Gateway API to the mapper's input

Reference: `clients/controller/cmd/controller/main.go` (`httpRouteSpecToInput`,
`gatewayHTTPRouteToInput`, `superHTTPRouteToInput`), and the types of `sigs.k8s.io/gateway-api`
that it reads.

A SuperHTTPRoute has the spec of an HTTPRoute without the limits on list lengths and without the
cross-field validation, so nothing but the type of each single field is assumed here: lists are
arbitrary, and the field of a filter that goes with its type may be missing.
-/

namespace Vrata.Controller

/-- The type of a backend's weight: the API admits 0 to 1,000,000. -/
abbrev Weight := { w : UInt32 // w ≤ 1000000 }

structure HTTPPathMatch where
  type : Option PathMatchType := none
  value : Option String := none
deriving DecidableEq, Repr

/-- The API admits no empty value. -/
structure HTTPHeaderMatch where
  type : Option HeaderMatchType := none
  name : String
  value : String
  value_ne : value ≠ ""
deriving DecidableEq, Repr

/-- The API admits no empty value. -/
structure HTTPQueryParamMatch where
  type : Option HeaderMatchType := none
  name : String
  value : String
  value_ne : value ≠ ""
deriving DecidableEq, Repr

structure HTTPRouteMatch where
  path : Option HTTPPathMatch := none
  headers : List HTTPHeaderMatch := []
  queryParams : List HTTPQueryParamMatch := []
  method : Option HTTPMethod := none
deriving DecidableEq, Repr

structure HTTPBackendRef where
  name : String
  «namespace» : Option String := none
  port : Option UInt16 := none
  weight : Option Weight := none
deriving DecidableEq

/-- `path.replaceFullPath` stands for the only modifier of a redirect's path that is read. -/
structure HTTPRequestRedirectFilter where
  scheme : Option String := none
  hostname : Option String := none
  replaceFullPath : Option String := none
  statusCode : Option UInt32 := none
deriving DecidableEq, Repr

/-- `path.replacePrefixMatch` stands for the only modifier of a rewrite's path that is read. -/
structure HTTPURLRewriteFilter where
  hostname : Option String := none
  replacePrefixMatch : Option String := none
deriving DecidableEq, Repr

structure HTTPHeaderFilter where
  set : List HeaderValue := []
  add : List HeaderValue := []
  remove : List String := []
deriving DecidableEq, Repr

structure HTTPRouteFilter where
  type : FilterType
  requestRedirect : Option HTTPRequestRedirectFilter := none
  urlRewrite : Option HTTPURLRewriteFilter := none
  requestHeaderModifier : Option HTTPHeaderFilter := none
deriving DecidableEq, Repr

structure HTTPRouteRule where
  «matches» : List HTTPRouteMatch := []
  filters : List HTTPRouteFilter := []
  backendRefs : List HTTPBackendRef := []
deriving DecidableEq

structure HTTPRouteSpec where
  hostnames : List String := []
  rules : List HTTPRouteRule := []
deriving DecidableEq

/-! ## The conversion -/

/-- Query parameters have no counterpart in the mapper's input. -/
def HTTPRouteMatch.toInput (m : HTTPRouteMatch) : MatchInput where
  pathType := m.path.bind HTTPPathMatch.type
  pathValue := (m.path.bind HTTPPathMatch.value).getD ""
  method := m.method
  headers := m.headers.map fun h => ⟨h.name, h.value, h.type⟩

def HTTPBackendRef.toInput («namespace» : String) (br : HTTPBackendRef) : BackendRefInput where
  serviceName := br.name
  serviceNamespace := br.namespace.getD «namespace»
  port := (br.port.map UInt16.toUInt32).getD 0
  weight := (br.weight.map Subtype.val).getD 1

def HTTPRouteFilter.toInput (f : HTTPRouteFilter) : FilterInput :=
  match f.type with
  | .requestRedirect =>
    match f.requestRedirect with
    | none => { type := f.type }
    | some r =>
      { type := f.type
        redirectScheme := r.scheme.getD ""
        redirectHost := r.hostname.getD ""
        redirectCode := r.statusCode.getD 0
        redirectPath := r.replaceFullPath.getD "" }
  | .urlRewrite =>
    match f.urlRewrite with
    | none => { type := f.type }
    | some r =>
      { type := f.type
        rewritePathPrefix := r.replacePrefixMatch.getD ""
        rewriteHostname := r.hostname.getD "" }
  | .requestHeaderModifier =>
    match f.requestHeaderModifier with
    | none => { type := f.type }
    | some h => { type := f.type, headersToAdd := h.add ++ h.set, headersToRemove := h.remove }
  | _ => { type := f.type }

def HTTPRouteRule.toInput («namespace» : String) (rule : HTTPRouteRule) : RuleInput where
  «matches» := rule.«matches».map HTTPRouteMatch.toInput
  backendRefs := rule.backendRefs.map (HTTPBackendRef.toInput «namespace»)
  filters := rule.filters.map HTTPRouteFilter.toInput

def httpRouteSpecToInput («namespace» name : String) (spec : HTTPRouteSpec) : HTTPRouteInput where
  name := name
  «namespace» := «namespace»
  hostnames := spec.hostnames
  rules := spec.rules.map (HTTPRouteRule.toInput «namespace»)

end Vrata.Controller

import Vrata.Controller.Entities

/-!
# The server's domain model

Reference: `server/internal/model/route.go`, `group.go`, `destination.go` and `middleware.go`.

The control plane and the proxy share these types. The controller's entities reach them as JSON:
`decodeRoute` and `decodeGroup` are the composition of the controller's marshalling and the
server's unmarshalling. Two details of that trip matter. A key that is absent decodes to the zero
value of the field, and an object without keys is not sent at all (`omitempty`), so that an empty
redirect arrives as no redirect.

Of the forward action only what the controller sets is modelled: destinations and rewrite.
-/

namespace Vrata.Server

structure DestinationRef where
  destinationID : String
  weight : UInt32
deriving DecidableEq, Repr

structure RouteRewrite where
  path : String
  host : String
deriving DecidableEq, Repr

structure ForwardAction where
  destinations : List DestinationRef
  rewrite : Option RouteRewrite
deriving DecidableEq, Repr

structure RouteRedirect where
  scheme : String
  host : String
  path : String
  stripQuery : Bool
  code : UInt32
deriving DecidableEq, Repr

structure RouteDirectResponse where
  status : UInt32
  body : String
deriving DecidableEq, Repr

structure HeaderMatcher where
  name : String
  value : String
  regex : Bool
deriving DecidableEq, Repr

structure QueryParamMatcher where
  name : String
  value : String
  regex : Bool
deriving DecidableEq, Repr

structure MatchRule where
  path : String := ""
  pathPrefix : String := ""
  pathRegex : String := ""
  methods : List String := []
  hostnames : List String := []
  headers : List HeaderMatcher := []
  queryParams : List QueryParamMatcher := []
  grpc : Bool := false
  cel : String := ""
deriving DecidableEq, Repr

structure Route where
  id : String
  name : String
  «match» : MatchRule
  forward : Option ForwardAction := none
  redirect : Option RouteRedirect := none
  directResponse : Option RouteDirectResponse := none
  middlewareIDs : List String := []
deriving DecidableEq, Repr

structure RouteGroup where
  id : String
  name : String
  routeIDs : List String
  pathPrefix : String := ""
  pathRegex : String := ""
  hostnames : List String := []
  headers : List HeaderMatcher := []
deriving DecidableEq, Repr

structure HeaderValue where
  key : String
  value : String
  append : Bool
deriving DecidableEq, Repr

structure HeadersConfig where
  requestHeadersToAdd : List HeaderValue := []
  requestHeadersToRemove : List String := []
  responseHeadersToAdd : List HeaderValue := []
  responseHeadersToRemove : List String := []
deriving DecidableEq, Repr

/-! ## Decoding what the controller sends -/

open Controller (MatchMap ForwardMap RedirectMap HeadersMap)

def decodeMatch (m : MatchMap) : MatchRule where
  path := m.path.getD ""
  pathPrefix := m.pathPrefix.getD ""
  pathRegex := m.pathRegex.getD ""
  methods := m.methods.getD []
  headers := (m.headers.getD []).map fun h => ⟨h.name, h.value, h.regex⟩

def decodeForward (f : ForwardMap) : ForwardAction where
  destinations := f.destinations.map fun d => ⟨d.destinationId, d.weight⟩
  rewrite := f.rewrite.map fun r => ⟨r.path.getD "", r.host.getD ""⟩

/-- Nothing is sent for a redirect without keys. -/
def decodeRedirect (r : RedirectMap) : Option RouteRedirect :=
  if r = {} then none
  else some
    { scheme := r.scheme.getD ""
      host := r.host.getD ""
      path := r.path.getD ""
      stripQuery := r.stripQuery.getD false
      code := r.code.getD 0 }

def decodeRoute (r : Controller.Route) : Route where
  id := r.id
  name := r.name
  «match» := decodeMatch r.match
  forward := r.forward.map decodeForward
  redirect := r.redirect.bind decodeRedirect
  middlewareIDs := r.middlewareIDs

def decodeGroup (g : Controller.RouteGroup) : RouteGroup where
  id := g.id
  name := g.name
  routeIDs := g.routeIDs
  hostnames := g.hostnames

/-- The configuration of a middleware; nothing is sent for one without keys. The controller never
sends `append`. -/
def decodeHeaders (h : HeadersMap) : Option HeadersConfig :=
  if h = {} then none
  else some
    { requestHeadersToAdd :=
        (h.requestHeadersToAdd.getD []).map fun e => ⟨e.key, e.value, false⟩
      requestHeadersToRemove := h.requestHeadersToRemove.getD [] }

/-! ## Validation

Reference: `server/internal/api/handlers/routes.go`. -/

/-- The format and the arguments of an error. -/
structure Invalid where
  format : String
  args : List String := []
deriving DecidableEq, Repr

def require (c : Bool) (format : String) (args : List String) : Except Invalid Unit :=
  if c then .ok () else .error { format, args }

inductive ModelError where
  | conflictingAction
  | invalidWeight
deriving DecidableEq, Repr

/-- The number of action fields that are set. -/
def Route.actions (r : Route) : ℕ :=
  r.forward.isSome.toNat + r.redirect.isSome.toNat + r.directResponse.isSome.toNat

/-- The sum of the weights as the loops of the source compute it, in 32 bits. -/
def totalWeight (dests : List DestinationRef) : UInt32 :=
  dests.foldl (fun total d => total + d.weight) 0

def validateRouteAction (r : Route) : Except ModelError Unit :=
  if r.actions ≠ 1 then .error .conflictingAction
  else
    match r.forward with
    | none => .ok ()
    | some f =>
      if 1 < f.destinations.length ∧ totalWeight f.destinations ≠ 100 then .error .invalidWeight
      else .ok ()

end Vrata.Server

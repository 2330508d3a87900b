import Vrata.Lib.Text

/-!
# The entities the controller writes to Vrata

Reference: `clients/controller/internal/vrata/client.go`.

A free-form JSON object (`map[string]any`) is a record with one optional field for each key the
controller ever sets, so that a key that is absent stays different from a key with an empty value.
Listener TLS, direct responses and middleware overrides are never set by the controller.
-/

namespace Vrata.Controller

/-- One entry of `match.headers`. The key `regex` is only ever set to `true`. -/
structure HeaderMap where
  name : String
  value : String
  regex : Bool
deriving DecidableEq, Repr

/-- `Route.Match`. -/
structure MatchMap where
  path : Option String := none
  pathRegex : Option String := none
  pathPrefix : Option String := none
  methods : Option (List String) := none
  headers : Option (List HeaderMap) := none
deriving DecidableEq, Repr

/-- One entry of `forward.destinations`: a destination and its share of the traffic. Until the
reference is resolved `destinationId` holds the destination's name. -/
structure DestRef where
  destinationId : String
  weight : UInt32
deriving DecidableEq, Repr

/-- `forward.rewrite`. -/
structure RewriteMap where
  path : Option String := none
  host : Option String := none
deriving DecidableEq, Repr

/-- `Route.Forward`. -/
structure ForwardMap where
  destinations : List DestRef
  rewrite : Option RewriteMap
deriving DecidableEq, Repr

/-- `Route.Redirect`. -/
structure RedirectMap where
  scheme : Option String := none
  host : Option String := none
  path : Option String := none
  code : Option UInt32 := none
  stripQuery : Option Bool := none
deriving DecidableEq, Repr

/-- One entry of `headers.requestHeadersToAdd`. -/
structure HeaderEntry where
  key : String
  value : String
deriving DecidableEq, Repr

/-- `Middleware.Headers`. -/
structure HeadersMap where
  requestHeadersToAdd : Option (List HeaderEntry) := none
  requestHeadersToRemove : Option (List String) := none
deriving DecidableEq, Repr

structure Route where
  id : String := ""
  name : String
  «match» : MatchMap
  forward : Option ForwardMap := none
  redirect : Option RedirectMap := none
  middlewareIDs : List String := []
deriving DecidableEq, Repr

structure RouteGroup where
  id : String := ""
  name : String
  routeIDs : List String
  hostnames : List String
deriving DecidableEq, Repr

structure Destination where
  id : String := ""
  name : String
  host : String
  port : UInt32
deriving DecidableEq, Repr

structure Middleware where
  id : String := ""
  name : String
  type : String
  headers : HeadersMap
deriving DecidableEq, Repr

structure Listener where
  id : String := ""
  name : String
  address : String
  port : UInt32
deriving DecidableEq, Repr

/-- The destinations a route forwards to: names before resolution, IDs once stored
(`extractDestinationNames`). -/
def Route.destinationIDs (r : Route) : List String :=
  match r.forward with
  | none => []
  | some f => f.destinations.map DestRef.destinationId

/-- Does the name carry the controller's ownership prefix? -/
def isOwned (name : String) : Bool := Text.hasPrefix name "k8s:"

end Vrata.Controller

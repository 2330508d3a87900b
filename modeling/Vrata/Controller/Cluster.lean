import Vrata.Controller.Input
import Vrata.Controller.Workqueue

/-!
# Kubernetes as the controller sees it

Reference: `clients/controller/cmd/controller/main.go`, `clients/controller/internal/config/config.go`
and `clients/controller/internal/refgrant/checker.go`.

A `Tick` is what one sync cycle meets: the objects that exist at the time, which of the calls to the
informer cache and to the API server succeed, and what the clock says. A call to the cache that
succeeds returns what exists, restricted to the namespaces the controller is configured to watch.
-/

namespace Vrata.Controller

/-! ## Configuration -/

inductive DuplicateMode where
  | off
  | warn
  | reject
deriving DecidableEq, Repr

inductive BatchIncompletePolicy where
  | apply
  | reject
deriving DecidableEq, Repr

/-- `WatchConfig`; `none` is a key that is not set. -/
structure WatchConfig where
  namespaces : List String := []
  httpRoutes : Option Bool := none
  superHTTPRoutes : Option Bool := none
  gateways : Option Bool := none
deriving DecidableEq, Repr

/-- The part of `Config` that the sync loop reads. The idle timeout is parsed, in nanoseconds. -/
structure Config where
  watch : WatchConfig := {}
  batchIdleTimeout : ℤ := 10000000000
  batchIncompletePolicy : BatchIncompletePolicy := .apply
  duplicates : Option DuplicateMode := none
deriving DecidableEq, Repr

namespace Config

def watchHTTPRoutes (cfg : Config) : Bool := cfg.watch.httpRoutes.getD true

def watchSuperHTTPRoutes (cfg : Config) : Bool := cfg.watch.superHTTPRoutes.getD false

def watchGateways (cfg : Config) : Bool := cfg.watch.gateways.getD true

def duplicatesMode (cfg : Config) : DuplicateMode := cfg.duplicates.getD .warn

/-- Does the informer cache hold the objects of the namespace? -/
def watches (cfg : Config) («namespace» : String) : Bool :=
  cfg.watch.namespaces = [] || cfg.watch.namespaces.contains «namespace»

end Config

/-! ## Objects -/

/-- An HTTPRoute or a SuperHTTPRoute. Kubernetes admits no slash in names and namespaces. -/
structure RouteObject where
  «namespace» : String
  name : String
  annotations : Annotations := {}
  spec : HTTPRouteSpec
  slash_not_mem_namespace : '/' ∉ «namespace».toList
  slash_not_mem_name : '/' ∉ name.toList
deriving DecidableEq

theorem slash_not_mem_default : '/' ∉ "default".toList := Text.slash_not_mem_of_all rfl

theorem slash_not_mem_web : '/' ∉ "web".toList := Text.slash_not_mem_of_all rfl

theorem slash_not_mem_shop : '/' ∉ "shop".toList := Text.slash_not_mem_of_all rfl

/-- A route with these rules. -/
def webObject (rules : List HTTPRouteRule) : RouteObject where
  «namespace» := "default"
  name := "web"
  spec := { rules }
  slash_not_mem_namespace := slash_not_mem_default
  slash_not_mem_name := slash_not_mem_web

def RouteObject.ref (o : RouteObject) (super : Bool) : RouteRef := ⟨o.namespace, o.name, super⟩

/-- `gatewayHTTPRouteToInput` and `superHTTPRouteToInput`. -/
def RouteObject.toInput (o : RouteObject) : HTTPRouteInput :=
  httpRouteSpecToInput o.namespace o.name o.spec

/-- A listener of a Gateway. The ports of the API are 1 to 65535. -/
structure GatewayListener where
  name : String
  port : UInt16
deriving DecidableEq, Repr

structure Gateway where
  «namespace» : String
  name : String
  listeners : List GatewayListener
deriving DecidableEq, Repr

structure ReferenceGrantFrom where
  group : String
  kind : String
  «namespace» : String
deriving DecidableEq, Repr

structure ReferenceGrantTo where
  group : String
  kind : String
  /-- Set if the grant is for one object. Nothing reads it. -/
  name : Option String := none
deriving DecidableEq, Repr

structure ReferenceGrant where
  «namespace» : String
  «from» : List ReferenceGrantFrom
  «to» : List ReferenceGrantTo
deriving DecidableEq, Repr

structure Cluster where
  httpRoutes : List RouteObject := []
  superHTTPRoutes : List RouteObject := []
  gateways : List Gateway := []
  referenceGrants : List ReferenceGrant := []
deriving DecidableEq

/-- The route objects, of both kinds. -/
def Cluster.routes (c : Cluster) : List RouteObject := c.httpRoutes ++ c.superHTTPRoutes

/-- Some HTTPRoute or SuperHTTPRoute has the namespace and name. -/
def Cluster.Has (c : Cluster) («namespace» name : String) : Prop :=
  ∃ o ∈ c.routes, o.namespace = «namespace» ∧ o.name = name

instance (c : Cluster) («namespace» name : String) : Decidable (c.Has «namespace» name) :=
  inferInstanceAs (Decidable (∃ o ∈ c.routes, _ ∧ _))

/-- The object that a reference names. -/
def Cluster.find (c : Cluster) (ref : RouteRef) : Option RouteObject :=
  (if ref.super then c.superHTTPRoutes else c.httpRoutes).find? fun o =>
    o.namespace = ref.namespace ∧ o.name = ref.name

theorem Cluster.has_of_find {c : Cluster} {ref : RouteRef} {o : RouteObject}
    (h : c.find ref = some o) :
    o ∈ c.routes ∧ o.namespace = ref.namespace ∧ o.name = ref.name := by
  have hmem := List.mem_of_find?_eq_some h
  have hname := List.find?_some h
  refine ⟨?_, by simpa using hname⟩
  split at hmem
  · exact List.mem_append_right _ hmem
  · exact List.mem_append_left _ hmem

/-! ## One cycle's view -/

/-- What a sync cycle meets. The clock is read when the objects are observed and again when the head
of the queue is examined. -/
structure Tick where
  cluster : Cluster
  now : ℤ := 0
  later : ℤ := 0
  listsHTTPRoutes : Bool := true
  listsSuperHTTPRoutes : Bool := true
  listsGateways : Bool := true
  gets : RouteRef → Bool := fun _ => true
  listsGrants : String → Bool := fun _ => true

namespace Tick

/-- The HTTPRoutes the cycle lists; nothing if the kind is not watched or the listing fails. -/
def httpRoutes (t : Tick) (cfg : Config) : List RouteObject :=
  if cfg.watchHTTPRoutes && t.listsHTTPRoutes then
    t.cluster.httpRoutes.filter fun o => cfg.watches o.namespace
  else []

/-- The SuperHTTPRoutes the cycle lists. -/
def superHTTPRoutes (t : Tick) (cfg : Config) : List RouteObject :=
  if cfg.watchSuperHTTPRoutes && t.listsSuperHTTPRoutes then
    t.cluster.superHTTPRoutes.filter fun o => cfg.watches o.namespace
  else []

/-- The Gateways in the cache, if they can be listed. -/
def listGateways (t : Tick) (cfg : Config) : Option (List Gateway) :=
  if t.listsGateways then some (t.cluster.gateways.filter fun g => cfg.watches g.namespace)
  else none

/-- Fetch one object from the cache. -/
def get (t : Tick) (cfg : Config) (ref : RouteRef) : Option RouteObject :=
  if t.gets ref && cfg.watches ref.namespace then t.cluster.find ref else none

end Tick

/-! ## Reference grants -/

/-- Does the grant allow references from the namespace to Services? -/
def matchesGrant (grant : ReferenceGrant) (sourceNamespace : String) : Bool :=
  (grant.from.any fun f =>
    f.group = "gateway.networking.k8s.io" ∧ f.kind = "HTTPRoute" ∧ f.namespace = sourceNamespace) &&
  grant.«to».any fun t => t.group = "" ∧ t.kind = "Service"

/-- `AllowedBackendRef`; a listing that fails allows nothing. -/
def Tick.allowedBackendRef (t : Tick) (sourceNamespace targetNamespace : String) : Bool :=
  if sourceNamespace = targetNamespace then true
  else t.listsGrants targetNamespace &&
    (t.cluster.referenceGrants.filter fun g => g.namespace = targetNamespace).any fun g =>
      matchesGrant g sourceNamespace

/-- Does a backend in another namespace lack a grant? -/
def Tick.denied (t : Tick) (input : HTTPRouteInput) : Bool :=
  input.rules.any fun rule => rule.backendRefs.any fun br =>
    br.serviceNamespace ≠ input.namespace &&
      !t.allowedBackendRef input.namespace br.serviceNamespace

end Vrata.Controller

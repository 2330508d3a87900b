import Vrata.Lib.Net
import Vrata.Proxy.Headers
import Vrata.Server.Middleware

/-!
# The middlewares of a route

Reference: `buildRouteHandler`, `collectMiddlewareIDs` and `resolveOverride` of
`server/internal/proxy/handler.go`, and `BuildTable` of `table.go`.

A request goes through the middlewares of the group and then through those of the route. One that is listed
twice is there once, one that does not exist is left out, and so is one that is disabled. Every route that
is compiled gets middlewares of its own, also where several routes refer to the same ones.
-/

namespace Vrata.Proxy

open Server

/-- The IDs that are not there yet. -/
def addIDs (seen ids : List String) : List String :=
  ids.foldl (fun seen id => if id ∈ seen then seen else seen ++ [id]) seen

def collectMiddlewareIDs (route : AttachedRoute) (group : Option AttachedGroup) : List String :=
  addIDs (addIDs [] ((group.map AttachedGroup.middlewareIDs).getD [])) route.middlewareIDs

/-- The override of the route wins over that of the group. -/
def resolveOverride (mwID : String) (route : AttachedRoute) (group : Option AttachedGroup) :
    Option MiddlewareOverride :=
  (route.middlewareOverrides mwID).or (group.bind fun g => g.middlewareOverrides mwID)

/-- A middleware in the chain of a route. -/
structure Link where
  middleware : Middleware
  override : Option MiddlewareOverride
deriving DecidableEq, Repr

/-- The middlewares by their IDs: later ones overwrite earlier ones in the map. -/
def middlewareByID (middlewares : List Middleware) (id : String) : Option Middleware :=
  middlewares.reverse.find? fun mw => mw.id = id

/-- The link of a middleware that is listed. Those of unknown types are left out. -/
def link (middlewares : List Middleware) (route : AttachedRoute) (group : Option AttachedGroup)
    (mwID : String) : Option Link := do
  let mw ← middlewareByID middlewares mwID
  let override := resolveOverride mwID route group
  if override.any MiddlewareOverride.disabled then none
  else if mw.type = .unknown then none
  else some ⟨mw, override⟩

/-- The middlewares that a request of the route goes through, in this order. -/
def chain (middlewares : List Middleware) (route : AttachedRoute) (group : Option AttachedGroup) :
    List Link :=
  (collectMiddlewareIDs route group).filterMap (link middlewares route group)

theorem nodup_addIDs {seen : List String} (h : seen.Nodup) (ids : List String) :
    (addIDs seen ids).Nodup := by
  induction ids generalizing seen with
  | nil => exact h
  | cons id ids ih =>
    rw [addIDs, List.foldl_cons]
    refine ih ?_
    split
    · exact h
    · rename_i hid
      exact List.nodup_append.mpr ⟨h, List.pairwise_singleton _ id, fun a ha b hb hab =>
        hid (List.mem_singleton.mp hb ▸ hab ▸ ha)⟩

theorem id_of_middlewareByID {middlewares : List Middleware} {mwID : String} {mw : Middleware}
    (h : middlewareByID middlewares mwID = some mw) : mw.id = mwID := by
  rw [middlewareByID] at h
  have hid := List.find?_some h
  exact of_decide_eq_true hid

theorem middlewareByID_of_link {middlewares : List Middleware} {route : AttachedRoute}
    {group : Option AttachedGroup} {mwID : String} {l : Link}
    (h : link middlewares route group mwID = some l) :
    middlewareByID middlewares mwID = some l.middleware := by
  obtain ⟨mw, hmw, hlink⟩ := Option.bind_eq_some_iff.mp h
  simp only at hlink
  split at hlink
  · cases hlink
  · split at hlink
    · cases hlink
    · obtain rfl := Option.some.inj hlink
      exact hmw

theorem id_of_link {middlewares : List Middleware} {route : AttachedRoute} {group : Option AttachedGroup}
    {mwID : String} {l : Link} (h : link middlewares route group mwID = some l) : l.middleware.id = mwID :=
  id_of_middlewareByID (middlewareByID_of_link h)

/-! ## Requests -/

/-- A request as the middlewares see it. -/
structure Inbound where
  method : String
  host : String
  path : String
  query : String → String
  header : Header
  remoteAddr : String
  path_form : path = "" ∨ path = "*" ∨ Text.hasPrefix path "/" = true

namespace Inbound

/-- `Header.Get`. -/
def get (r : Inbound) (name : String) : String := (r.header (canonicalKey name)).headD ""

/-- What routes and CEL expressions see of a request. -/
def request (r : Inbound) : Request where
  method := r.method
  host := r.host
  path := r.path
  header key := (r.header key).headD ""
  query := r.query
  path_form := r.path_form

/-- `clientIP`. The header is trusted if the request comes from one of the networks. -/
def clientIP (r : Inbound) (trusted : List Net.Network) : String :=
  let directIP := ((Net.splitHostPort r.remoteAddr).map Prod.fst).getD ""
  let xff := r.get "X-Forwarded-For"
  if trusted ≠ [] ∧ xff ≠ "" ∧ (Net.parseIP directIP).any (fun ip => trusted.any fun n => n.contains ip) then
    Text.trimSpace (Text.before ',' xff)
  else directIP

end Inbound

/-- A request from one client. -/
def plainRequest (path : String) (h : Text.hasPrefix path "/" = true) : Inbound where
  method := "GET"
  host := "example.com"
  path := path
  query _ := ""
  header _ := []
  remoteAddr := "192.0.2.1:40000"
  path_form := .inr (.inr h)

theorem hasPrefix_root : Text.hasPrefix "/" "/" = true := by decide

/-- `parseTrustedProxies`. -/
def parseTrustedProxies (cidrs : List String) : List Net.Network := cidrs.filterMap Net.parseCIDR

/-- The expressions of a list that compile. -/
def programs (eng : Engine) (exprs : List String) : List (Request → Bool) := exprs.filterMap eng.cel

/-- `wrapWithConditions`: expressions that do not compile are left out, and a middleware whose conditions
are all left out is applied. -/
def applies (eng : Engine) (override : Option MiddlewareOverride) (r : Request) : Bool :=
  match override with
  | none => true
  | some ov =>
    let skip := programs eng ov.skipWhen
    let only := programs eng ov.onlyWhen
    !(skip.any fun prg => prg r) && (only.isEmpty || only.any fun prg => prg r)

/-! ## The table -/

/-- A compiled route with what its handler is built from. -/
structure Entry where
  compiled : CompiledRoute
  route : AttachedRoute
  group : Option AttachedGroup

/-- The route with an ID, as in `routeByID`. -/
def attachedByID (routes : List AttachedRoute) (id : String) : Option AttachedRoute :=
  routes.reverse.find? fun r => r.id = id

/-- The routes of the groups, each with its group. -/
def grouped (routes : List AttachedRoute) (groups : List AttachedGroup) :
    List (AttachedRoute × AttachedGroup) :=
  groups.flatMap fun g => (g.routeIDs.filterMap (attachedByID routes)).map fun r => (r, g)

def compileEntry (eng : Engine) (route : AttachedRoute) (group : Option AttachedGroup) : Option Entry :=
  (compileRoute eng route.toRoute (group.map AttachedGroup.toRouteGroup)).map fun cr =>
    ⟨cr, route, group⟩

/-- `BuildTable`: the routes of the groups, then those that are in no group. -/
def entries (eng : Engine) (routes : List AttachedRoute) (groups : List AttachedGroup) : List Entry :=
  let inGroups := grouped routes groups
  let standalone := routes.filter fun r => r.id ∉ inGroups.map fun (r, _) => r.id
  inGroups.filterMap (fun (r, g) => compileEntry eng r (some g)) ++
    standalone.filterMap fun r => compileEntry eng r none

end Vrata.Proxy

import Vrata.Lib.Distinct
import Vrata.Lib.FirstMatch
import Vrata.Proxy.Router

/-!
# Route priority

Reference: `server/internal/proxy/table.go` (`BuildTable`), `router.go` (`ServeHTTP`), and the section
on route priority of `docs/website/content/docs/concepts/routes/matching.md`.

The documentation ranks the routes that match a request: exact paths first, then prefixes from the
longest to the shortest, then regular expressions, and within the same kind of path the route with
more matchers. `ServeHTTP` takes the first matching route of the table, and `BuildTable` puts routes
into the table as they come: the groups in listing order, each with its routes in the order of
`routeIds`, then the routes of no group in listing order. Nothing sorts them.

`prioritised_iff` says for which configurations this does not matter.
-/

namespace Vrata.Proxy

open Server FirstMatch

/-! ## The documented order -/

/-- The kinds of path a compiled route can have, from the lowest to the highest. -/
inductive PathKind where
  | regex | pathPrefix | exact
deriving DecidableEq, Repr

def PathKind.rank : PathKind → ℕ
  | .regex => 0
  | .pathPrefix => 1
  | .exact => 2

/-- What the path of a request is compared with. -/
def PathMatcher.kind (p : PathMatcher) : PathKind :=
  if p.regex.isSome then .regex else if p.exact ≠ "" then .exact else .pathPrefix

/-- The length of the prefix, for routes that have one. -/
def PathMatcher.prefixLength (p : PathMatcher) : ℕ :=
  match p.kind with
  | .pathPrefix => p.pathPrefix.length
  | _ => 0

/-- How many matchers a request has to pass besides the path. -/
def CompiledRoute.matcherCount (cr : CompiledRoute) : ℕ :=
  (if cr.hostnames = [] then 0 else 1) + (if cr.methods.isSome then 1 else 0) +
    (if cr.grpcOnly then 1 else 0) + cr.headers.length + cr.queryParams.length +
    (if cr.celProgram.isSome then 1 else 0)

/-- The first route has priority over the second. -/
def CompiledRoute.Outranks (cr cr' : CompiledRoute) : Prop :=
  cr'.path.kind.rank < cr.path.kind.rank ∨
    cr'.path.kind = cr.path.kind ∧ (cr'.path.prefixLength < cr.path.prefixLength ∨
      cr'.path.prefixLength = cr.path.prefixLength ∧ cr'.matcherCount < cr.matcherCount)

/-! ## The property and the condition -/

/-- The routes and groups of a configuration. A store lists every ID once. -/
structure Listing where
  routes : List Route
  groups : List RouteGroup
  distinct : (routes.map Route.id).Nodup

/-- In whatever order routes and groups are listed, the request goes to a matching route that no
matching route has priority over, and is turned away only when no route matches. -/
def Listing.Prioritised (eng : Engine) (s : Listing) (req : Request) : Prop :=
  ∀ routes groups, routes.Perm s.routes → groups.Perm s.groups →
    (∀ cr, dispatch (buildTable eng routes groups) req = some cr →
      cr ∈ buildTable eng routes groups ∧ cr.accepts req = true ∧
        ∀ cr' ∈ buildTable eng routes groups, cr'.accepts req = true → ¬cr'.Outranks cr) ∧
    (dispatch (buildTable eng routes groups) req = none →
      ∀ cr ∈ buildTable eng routes groups, cr.accepts req = false)

/-- The compiled routes of one group. -/
def Listing.block (eng : Engine) (s : Listing) (g : RouteGroup) : List CompiledRoute :=
  (g.routeIDs.filterMap (routeByID s.routes)).filterMap fun r => compileRoute eng r (some g)

/-- The compiled form of a route that no group names. -/
def Listing.alone (eng : Engine) (s : Listing) (r : Route) : Option CompiledRoute :=
  if ∃ g ∈ s.groups, r.id ∈ g.routeIDs then none else compileRoute eng r none

/-- No matching route has priority over the first matching route of a group; and if no group has one,
the matching routes outside groups all have the same priority. -/
structure Listing.InOrder (eng : Engine) (s : Listing) (req : Request) : Prop where
  grouped : ∀ g ∈ s.groups, ∀ cr, dispatch (s.block eng g) req = some cr →
    ∀ cr' ∈ buildTable eng s.routes s.groups, cr'.accepts req = true → ¬cr'.Outranks cr
  standalone : (∀ g ∈ s.groups, dispatch (s.block eng g) req = none) →
    ∀ r ∈ s.routes, ∀ cr, s.alone eng r = some cr → cr.accepts req = true →
    ∀ r' ∈ s.routes, ∀ cr', s.alone eng r' = some cr' → cr'.accepts req = true → ¬cr'.Outranks cr

/-! ## The table in any order -/

section Table

variable {eng : Engine} {s : Listing} {routes : List Route} {groups : List RouteGroup}

theorem routeByID_eq_some_iff (h : (routes.map Route.id).Nodup) {i : String} {r : Route} :
    routeByID routes i = some r ↔ r ∈ routes ∧ r.id = i :=
  find?_reverse_key_iff h

/-- Looking a route up does not depend on the order of the routes. -/
theorem routeByID_perm (hperm : routes.Perm s.routes) : routeByID routes = routeByID s.routes := by
  have hnodup : (routes.map Route.id).Nodup := (hperm.map Route.id).nodup_iff.mpr s.distinct
  funext i
  refine Option.ext fun r => ?_
  rw [routeByID_eq_some_iff hnodup, routeByID_eq_some_iff s.distinct, hperm.mem_iff]

/-- The IDs that groups name, among the IDs of routes. -/
theorem mem_grouped_iff (hgroups : groups.Perm s.groups) {r : Route} (hr : r ∈ s.routes) :
    r.id ∈ (groups.flatMap fun g =>
      (g.routeIDs.filterMap (routeByID s.routes)).map fun r => (r, g)).map (fun p => p.1.id) ↔
      ∃ g ∈ s.groups, r.id ∈ g.routeIDs := by
  simp only [List.mem_map, List.mem_flatMap, List.mem_filterMap, Prod.exists, Prod.mk.injEq]
  constructor
  · rintro ⟨r', g, ⟨g', hg', r'', ⟨i, hi, hfind⟩, rfl, rfl⟩, hid⟩
    obtain ⟨_, rfl⟩ := (routeByID_eq_some_iff s.distinct).mp hfind
    exact ⟨g', hgroups.mem_iff.mp hg', hid ▸ hi⟩
  · rintro ⟨g, hg, hi⟩
    exact ⟨r, g, ⟨g, hgroups.mem_iff.mpr hg, r, ⟨r.id, hi,
      (routeByID_eq_some_iff s.distinct).mpr ⟨hr, rfl⟩⟩, rfl, rfl⟩, rfl⟩

/-- The table consists of one block for each group and at most one entry for each route. -/
theorem buildTable_eq (hroutes : routes.Perm s.routes) (hgroups : groups.Perm s.groups) :
    buildTable eng routes groups =
      groups.flatMap (s.block eng) ++ routes.flatMap fun r => (s.alone eng r).toList := by
  unfold buildTable
  rw [routeByID_perm hroutes]
  dsimp only
  congr 1
  · rw [List.filterMap_flatMap]
    refine List.flatMap_congr fun g _ => ?_
    rw [List.filterMap_map]
    rfl
  · rw [List.filterMap_filter, List.filterMap_eq_flatMap_toList]
    refine List.flatMap_congr fun r hr => ?_
    have hiff := mem_grouped_iff hgroups (hroutes.mem_iff.mp hr)
    by_cases hgrouped : ∃ g ∈ s.groups, r.id ∈ g.routeIDs
    · rw [Listing.alone, if_pos hgrouped]
      simp [hiff.mpr hgrouped]
    · rw [Listing.alone, if_neg hgrouped]
      have hnot := mt hiff.mp hgrouped
      simp [hnot]

end Table

/-- A route for everything, and one for a single path. -/
def catchAllFirst : Listing where
  routes := [{ id := "1", name := "all", «match» := { pathPrefix := "/" } },
    { id := "2", name := "one", «match» := { path := "/a" } }]
  groups := []
  distinct := by decide

def getA : Request where
  method := "GET"
  host := "example.com"
  path := "/a"
  header _ := ""
  query _ := ""
  path_form := by decide

end Vrata.Proxy

import Vrata.Controller.Client
import Vrata.Controller.Mapper

/-!
# The reconciler

Reference: `clients/controller/internal/reconciler/reconciler.go`.

`applyHTTPRoute` brings the entities of one HTTPRoute in Vrata to what the mapper produced,
`deleteHTTPRoute` removes them, `init` rebuilds the reference counts from what Vrata holds. Each
loop of the source is a fold over the list the source iterates, with the variables the loop updates
as the accumulator; a failing call leaves everything done before it in place. The numbers returned
count the changes made.
-/

namespace Vrata.Controller

/-! ## Reference counts -/

/-- `RefCount.Increment`. -/
def increment (counts : String → ℕ) (destName : String) : String → ℕ :=
  Function.update counts destName (counts destName + 1)

/-- `RefCount.Decrement`: an entry that would reach zero or less is removed. -/
def decrement (counts : String → ℕ) (destName : String) : String → ℕ :=
  Function.update counts destName (counts destName - 1)

theorem foldl_increment (names : List String) (counts : String → ℕ) (dn : String) :
    names.foldl increment counts dn = counts dn + names.count dn := by
  induction names generalizing counts with
  | nil => simp
  | cons n names ih =>
    rw [List.foldl_cons, ih, increment, List.count_cons]
    by_cases h : n = dn
    · simp [h, Nat.add_comm, Nat.add_left_comm]
    · simp [h, Function.update_of_ne (Ne.symm h)]

theorem foldl_decrement (names : List String) (counts : String → ℕ) (dn : String) :
    names.foldl decrement counts dn = counts dn - names.count dn := by
  induction names generalizing counts with
  | nil => simp
  | cons n names ih =>
    rw [List.foldl_cons, ih, decrement, List.count_cons]
    by_cases h : n = dn
    · simp only [h, Function.update_self, beq_self_eq_true, if_true]
      omega
    · simp [h, Function.update_of_ne (Ne.symm h)]

namespace Reconciler

/-- Note that a route uses the given destinations. -/
def record (rc : Reconciler) (routeName : String) (destNames : List String) : Reconciler where
  refCount := destNames.foldl increment rc.refCount
  routeDestMap := Function.update rc.routeDestMap routeName destNames

/-- Give back the references noted for a route and drop its entry. -/
def forget (rc : Reconciler) (routeName : String) : Reconciler where
  refCount := (rc.routeDestMap routeName).foldl decrement rc.refCount
  routeDestMap := Function.update rc.routeDestMap routeName []

theorem refCount_record (rc : Reconciler) (n : String) (destNames : List String) (dn : String) :
    (rc.record n destNames).refCount dn = rc.refCount dn + destNames.count dn :=
  foldl_increment _ _ _

theorem routeDestMap_record (rc : Reconciler) (n : String) (destNames : List String)
    (m : String) :
    (rc.record n destNames).routeDestMap m = if m = n then destNames else rc.routeDestMap m := by
  simp [record, Function.update_apply]

theorem refCount_forget (rc : Reconciler) (n dn : String) :
    (rc.forget n).refCount dn = rc.refCount dn - (rc.routeDestMap n).count dn :=
  foldl_decrement _ _ _

theorem routeDestMap_forget (rc : Reconciler) (n m : String) :
    (rc.forget n).routeDestMap m = if m = n then [] else rc.routeDestMap m := by
  simp [forget, Function.update_apply]

end Reconciler

/-- The ID of the last entity of the given name: later rows overwrite earlier ones in the map. -/
def byName (k : Resource) (rows : List k.Row) (name : String) : Option String :=
  (rows.reverse.find? fun x => k.name x = name).map k.id

/-- The name of the destination with the given ID. -/
def idToName (dests : List Destination) (id : String) : Option String :=
  (dests.reverse.find? fun d => d.id = id).map Destination.name

/-- The counts and entries that `Init` computes from a listing. -/
def rebuild (routes : List Route) (dests : List Destination) : Reconciler :=
  routes.foldl (fun rc route =>
    if isOwned route.name then
      rc.record route.name (route.destinationIDs.filterMap (idToName dests))
    else rc) .new

section Programs

variable (b : Backend)

def init : Sync Unit := do
  let routes ← during "init: listing routes" "" (listRoutes b)
  let dests ← during "init: listing destinations" "" (listDestinations b)
  modify fun w => { w with reconciler := rebuild routes dests }

/-! ## Looking entities up -/

/-- The ID of the first entity of the given name. -/
def findByName (k : Resource) (name : String) : Sync (Option String) := do
  let rows ← call b (.list k)
  return (rows.find? fun x => k.name x = name).map k.id

/-- The IDs of the given names, or the first name without an entity. -/
def resolveNames (k : Resource) (what : String) (rows : List k.Row) (names : List String) :
    Except Err (String → Option String) :=
  match names.find? fun n => (byName k rows n).isNone with
  | some n => .error (.missing what n)
  | none => .ok fun n => if n ∈ names then byName k rows n else none

/-- Continue with a value, or stop with an error. -/
def liftExcept {α : Type} : Except Err α → Sync α
  | .ok a => pure a
  | .error e => throw e

def resolveDestinationIDs (dks : List DestinationKey) : Sync (String → Option String) := do
  let dests ← listDestinations b
  liftExcept (resolveNames .destinations "destination" dests (dks.map DestinationKey.destinationName))

def resolveMiddlewareIDs (mws : List Middleware) : Sync (String → Option String) := do
  if mws = [] then return fun _ => none
  let all ← listMiddlewares b
  liftExcept (resolveNames .middlewares "middleware" all (mws.map Middleware.name))

/-- Overwrite the names in a rule's slices with IDs. A name without an ID is left, which is also
what happens to an ID that an earlier route of the rule has put there. -/
def resolveSlices (forward : Bool) (destIDs mwIDs : String → Option String) (s : RuleSlices) :
    RuleSlices where
  destRefs :=
    if forward then
      s.destRefs.map fun d =>
        { d with destinationId := (destIDs d.destinationId).getD d.destinationId }
    else s.destRefs
  middlewareIDs := s.middlewareIDs.map fun n => (mwIDs n).getD n

/-- Resolve a route: the slices of its rule are overwritten in place. -/
def resolveRouteRefs (route : MappedRoute) (slices : List RuleSlices)
    (destIDs mwIDs : String → Option String) : List RuleSlices :=
  slices.modify route.rule (resolveSlices route.forward.isSome destIDs mwIDs)

def destinationNamesForRoute (dks : List DestinationKey) : List String :=
  dks.map DestinationKey.destinationName

/-- The names without repetitions, in order of first occurrence. -/
def unique (ss : List String) : List String := distinctOn id ss []

theorem nodup_unique (ss : List String) : (unique ss).Nodup := by
  simpa [unique] using nodup_map_distinctOn id ss []

theorem mem_unique {ss : List String} {n : String} : n ∈ unique ss ↔ n ∈ ss := by
  have h : n ∈ (distinctOn id ss []).map id ↔ n ∈ ss.map id ∧ n ∉ [] := mem_map_distinctOn
  simpa [unique] using h

/-! ## Creating and updating -/

/-- Create an entity unless there is one of its name. -/
def ensure (k : Resource) (checking creating : String) (changes : ℕ) (x : k.Row) : Sync ℕ := do
  match ← during checking (k.name x) (findByName b k (k.name x)) with
  | some _ => return changes
  | none =>
    let _ ← during creating (k.name x) (call b (.create k x))
    return changes + 1

def DestinationKey.destination (dk : DestinationKey) : Destination :=
  { name := dk.destinationName, host := dk.fqdn, port := dk.port }

def ensureDestination (changes : ℕ) (dk : DestinationKey) : Sync ℕ :=
  ensure b .destinations "checking destination" "creating destination" changes dk.destination

/-- An existing middleware is left as it is. -/
def ensureMiddleware (changes : ℕ) (mw : Middleware) : Sync ℕ :=
  ensure b .middlewares "checking middleware" "creating middleware" changes mw

/-- Create an entity, or update the first one of its name. The result is its ID and whether it was
created. -/
def upsert (k : Resource) (checking creating updating : String) (x : k.Row) :
    Sync (String × Bool) := do
  match ← during checking (k.name x) (findByName b k (k.name x)) with
  | none =>
    let created ← during creating (k.name x) (call b (.create k x))
    return (k.id created, true)
  | some id =>
    during updating (k.name x) (call b (.update k id (k.withID id x)))
    return (id, false)

/-- The variables of the loop over the mapped routes. -/
structure RouteLoop where
  slices : List RuleSlices
  routeVrataIDs : List String
  changes : ℕ

/-- Create or update one route. Only a created route is recorded, with the destinations of the
whole HTTPRoute. -/
def applyRoute (destNames : List String) (destIDs mwIDs : String → Option String)
    (st : RouteLoop) (route : MappedRoute) : Sync RouteLoop := do
  let slices := resolveRouteRefs route st.slices destIDs mwIDs
  let resolved := route.load slices
  let (id, created) ←
    upsert b .routes "checking route" "creating route" "updating route" resolved
  if created then
    modify fun w => { w with reconciler := w.reconciler.record route.name destNames }
  return ⟨slices, st.routeVrataIDs ++ [id], st.changes + 1⟩

def applyGroup (group : RouteGroup) : Sync (String × Bool) :=
  upsert b .groups "checking group" "creating group" "updating group" group

/-! ## Removing -/

/-- The variables of the loops that remove routes. -/
structure DropLoop where
  changes : ℕ
  destsToCheck : List String

/-- The names that garbage collection below `below` removes. -/
def isStale (below : String) (keep : String → Bool) (name : String) : Bool :=
  isOwned name && Text.hasPrefix name below && !keep name

/-- Delete a listed entity if its name is selected. -/
def dropIf (k : Resource) (doing : String) (selected : String → Bool) (changes : ℕ) (x : k.Row) :
    Sync ℕ := do
  if selected (k.name x) then
    during doing (k.name x) (call b (.delete k (k.id x)))
    return changes + 1
  else return changes

/-- Delete a listed route if it is stale, and give back its references. -/
def dropRoute (doing below : String) (keep : String → Bool) (st : DropLoop) (route : Route) :
    Sync DropLoop := do
  if isStale below keep route.name then
    let destNames := (← get).reconciler.routeDestMap route.name
    during doing route.name (deleteRoute b route.id)
    modify fun w => { w with reconciler := w.reconciler.forget route.name }
    return ⟨st.changes + 1, st.destsToCheck ++ destNames⟩
  else return st

def dropMiddleware (doing below : String) (keep : String → Bool) (changes : ℕ) (mw : Middleware) :
    Sync ℕ :=
  dropIf b .middlewares doing (isStale below keep) changes mw

/-- Delete the first destination of the given name unless the name is still counted. -/
def collectDestination (doing : String) (dests : List Destination) (changes : ℕ) (dn : String) :
    Sync ℕ := do
  if 0 < (← get).reconciler.refCount dn then return changes
  match dests.find? fun d => d.name = dn with
  | none => return changes
  | some d =>
    during doing dn (deleteDestination b d.id)
    return changes + 1

/-! ## The operations -/

def applyHTTPRoute (mapped : MappedEntities) : Sync ℕ := do
  let changes ← mapped.destinations.foldlM (ensureDestination b) 0
  let changes ← mapped.middlewares.foldlM (ensureMiddleware b) changes
  let destIDs ← during "resolving destination IDs" "" (resolveDestinationIDs b mapped.destinations)
  let mwIDs ← during "resolving middleware IDs" "" (resolveMiddlewareIDs b mapped.middlewares)
  let destNames := destinationNamesForRoute mapped.destinations
  let loop ← mapped.routes.foldlM (applyRoute b destNames destIDs mwIDs)
    ⟨mapped.slices, [], changes⟩
  let _ ← applyGroup b { mapped.group with routeIDs := loop.routeVrataIDs }
  let below := mapped.group.name ++ "/"
  let allRoutes ← during "listing routes for intra-group GC" "" (listRoutes b)
  let desiredRouteNames := fun n => (mapped.routes.map MappedRoute.name).contains n
  let drop ← allRoutes.foldlM (dropRoute b "deleting stale route" below desiredRouteNames)
    ⟨loop.changes + 1, []⟩
  let desiredMWNames := fun n => (mapped.middlewares.map Middleware.name).contains n
  let allMWs ← during "listing middlewares for intra-group GC" "" (listMiddlewares b)
  let changes ← allMWs.foldlM (dropMiddleware b "deleting stale middleware" below desiredMWNames)
    drop.changes
  if drop.destsToCheck = [] then return changes
  let allDests ← during "listing destinations for intra-group GC" "" (listDestinations b)
  (unique drop.destsToCheck).foldlM
    (collectDestination b "deleting unreferenced destination" allDests) changes

/-- Delete a listed group if it has the given name. -/
def dropGroup (name : String) (changes : ℕ) (g : RouteGroup) : Sync ℕ :=
  dropIf b .groups "deleting group" (fun n => n = name) changes g

def deleteHTTPRoute («namespace» name : String) : Sync ℕ := do
  let base := groupName «namespace» name
  let groups ← during "listing groups" "" (listGroups b)
  let changes ← groups.foldlM (dropGroup b base) 0
  let routes ← during "listing routes" "" (listRoutes b)
  let drop ← routes.foldlM (dropRoute b "deleting route" (base ++ "/") fun _ => false)
    ⟨changes, []⟩
  let middlewares ← during "listing middlewares" "" (listMiddlewares b)
  let changes ← middlewares.foldlM
    (dropMiddleware b "deleting middleware" (base ++ "/") fun _ => false) drop.changes
  let dests ← during "listing destinations" "" (listDestinations b)
  (unique drop.destsToCheck).foldlM (collectDestination b "deleting destination" dests) changes

/-- The names of the owned entities of a resource. -/
def ownedNames (k : Resource) : Sync (List String) := do
  let rows ← call b (.list k)
  return (rows.map k.name).filter isOwned

def ownedGroupNames : Sync (List String) := during "listing groups" "" (ownedNames b .groups)

def ownedListenerNames : Sync (List String) :=
  during "listing listeners" "" (ownedNames b .listeners)

def deleteListenerByName (name : String) : Sync ℕ := do
  let listeners ← during "listing listeners" "" (listListeners b)
  match listeners.find? fun l => l.name = name with
  | none => return 0
  | some l =>
    during "deleting listener" name (deleteListener b l.id)
    return 1

end Programs

end Vrata.Controller

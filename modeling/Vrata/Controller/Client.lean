import Vrata.Lib.Effect
import Vrata.Lib.Table
import Vrata.Controller.Entities

/-!
# The Vrata API as the controller sees it

Reference: `clients/controller/internal/vrata/client.go`, and for the answers the handlers under
`server/internal/api/handlers`.

Vrata keeps one table of entities for each resource, keyed by ID. A request names a resource and an
operation on it; `serve` is what the control plane does with it. The controller never sees
`serve` directly: every request goes over the network, and `call` lets each of them end in one of
three ways, chosen by the `plan` of the run. The answer arrives (`ok`), the request fails without
having been served (`failed`), or it is served and the answer does not arrive (`lost`), which the
controller cannot tell from a failure. A request the control plane itself refuses, such as a route
that does not pass validation, is one that `failed`.

Every request is recorded in `trace` together with the tables it found, so that statements about
what holds at all times are statements about the trace.
-/

namespace Vrata.Controller

/-! ## Resources and their tables -/

inductive Resource where
  | routes | groups | destinations | middlewares | listeners
deriving DecidableEq, Repr

/-- The entity type of a resource. -/
abbrev Resource.Row : Resource → Type
  | .routes => Route
  | .groups => RouteGroup
  | .destinations => Destination
  | .middlewares => Middleware
  | .listeners => Listener

def Resource.id : (k : Resource) → k.Row → String
  | .routes => Route.id
  | .groups => RouteGroup.id
  | .destinations => Destination.id
  | .middlewares => Middleware.id
  | .listeners => Listener.id

def Resource.name : (k : Resource) → k.Row → String
  | .routes => Route.name
  | .groups => RouteGroup.name
  | .destinations => Destination.name
  | .middlewares => Middleware.name
  | .listeners => Listener.name

def Resource.withID : (k : Resource) → String → k.Row → k.Row
  | .routes, i, x => { x with id := i }
  | .groups, i, x => { x with id := i }
  | .destinations, i, x => { x with id := i }
  | .middlewares, i, x => { x with id := i }
  | .listeners, i, x => { x with id := i }

@[simp] theorem Resource.id_withID (k : Resource) (i : String) (x : k.Row) :
    k.id (k.withID i x) = i := by
  cases k <;> rfl

@[simp] theorem Resource.name_withID (k : Resource) (i : String) (x : k.Row) :
    k.name (k.withID i x) = k.name x := by
  cases k <;> rfl

@[simp] theorem Resource.name_destinations (x : Destination) :
    Resource.destinations.name x = x.name := rfl

@[simp] theorem Resource.name_middlewares (x : Middleware) :
    Resource.middlewares.name x = x.name := rfl

@[simp] theorem Resource.id_destinations (x : Destination) :
    Resource.destinations.id x = x.id := rfl

@[simp] theorem Resource.id_middlewares (x : Middleware) :
    Resource.middlewares.id x = x.id := rfl

/-- The control plane's tables, and every ID that has been in use. -/
structure ControlPlane where
  table : (k : Resource) → Table k.id
  issued : List String
  issued_of_mem : ∀ k, ∀ x ∈ (table k).rows, k.id x ∈ issued

namespace ControlPlane

/-- The entities of a resource in listing order. -/
def rows (v : ControlPlane) (k : Resource) : List k.Row := (v.table k).rows

/-- A control plane without entities. -/
def empty : ControlPlane := ⟨fun _ => Table.empty, [], by simp⟩

/-- Create or replace the entity with the ID of `x`. -/
def save (v : ControlPlane) (k : Resource) (x : k.Row) : ControlPlane where
  table := Function.update v.table k ((v.table k).save x)
  issued := k.id x :: v.issued
  issued_of_mem := by
    intro k' y hy
    by_cases hk : k' = k
    · subst hk
      rw [Function.update_self, Table.mem_save] at hy
      rcases hy with rfl | ⟨hy, _⟩
      · exact List.mem_cons_self
      · exact List.mem_cons_of_mem _ (v.issued_of_mem _ _ hy)
    · rw [Function.update_of_ne hk] at hy
      exact List.mem_cons_of_mem _ (v.issued_of_mem _ _ hy)

/-- Delete the entity with the given ID. -/
def erase (v : ControlPlane) (k : Resource) (i : String) : ControlPlane where
  table := Function.update v.table k ((v.table k).erase i)
  issued := v.issued
  issued_of_mem := by
    intro k' y hy
    by_cases hk : k' = k
    · subst hk
      rw [Function.update_self, Table.mem_erase] at hy
      exact v.issued_of_mem _ _ hy.1
    · rw [Function.update_of_ne hk] at hy
      exact v.issued_of_mem _ _ hy

theorem eq_of_id_eq (v : ControlPlane) {k : Resource} {x y : k.Row} (hx : x ∈ v.rows k)
    (hy : y ∈ v.rows k) (h : k.id x = k.id y) : x = y :=
  (v.table k).eq_of_key_eq hx hy h

theorem rows_save_of_ne (v : ControlPlane) {k k' : Resource} (h : k' ≠ k) (x : k.Row) :
    (v.save k x).rows k' = v.rows k' := by
  simp only [rows, save, Function.update_of_ne h]

theorem rows_erase_of_ne (v : ControlPlane) {k k' : Resource} (h : k' ≠ k) (i : String) :
    (v.erase k i).rows k' = v.rows k' := by
  simp only [rows, erase, Function.update_of_ne h]

@[simp] theorem mem_rows_save {v : ControlPlane} {k : Resource} {x y : k.Row} :
    y ∈ (v.save k x).rows k ↔ y = x ∨ y ∈ v.rows k ∧ k.id y ≠ k.id x := by
  simp only [rows, save, Function.update_self, Table.mem_save]

@[simp] theorem mem_rows_erase {v : ControlPlane} {k : Resource} {i : String} {y : k.Row} :
    y ∈ (v.erase k i).rows k ↔ y ∈ v.rows k ∧ k.id y ≠ i := by
  simp only [rows, erase, Function.update_self, Table.mem_erase]

theorem rows_erase (v : ControlPlane) (k : Resource) (i : String) :
    (v.erase k i).rows k = (v.rows k).filter fun x => k.id x ≠ i := by
  simp only [rows, erase, Function.update_self, Table.rows_erase]

/-- Saving under an ID that was never in use appends. -/
theorem rows_save_of_fresh {v : ControlPlane} {k : Resource} {x : k.Row} (h : k.id x ∉ v.issued) :
    (v.save k x).rows k = v.rows k ++ [x] := by
  simp only [rows, save, Function.update_self]
  refine Table.rows_save_of_not_mem fun hmem => h ?_
  obtain ⟨y, hy, hid⟩ := List.mem_map.mp hmem
  exact hid ▸ v.issued_of_mem _ _ hy

end ControlPlane

/-! ## Requests -/

inductive Request where
  | list (k : Resource)
  | create (k : Resource) (x : k.Row)
  | update (k : Resource) (i : String) (x : k.Row)
  | delete (k : Resource) (i : String)

/-- What a request answers with. -/
abbrev Request.Reply : Request → Type
  | .list k => List k.Row
  | .create k _ => k.Row
  | .update _ _ _ => Unit
  | .delete _ _ => Unit

/-- What the control plane leaves open: the IDs it hands out (`uuid.NewString`), which differ from
all IDs in use and are written with hexadecimal digits and dashes, and the order in which it lists
the entities of a table. The stores behind it list by ID. -/
structure Backend where
  next : List String → String
  fresh : ∀ used, next used ∉ used
  hex : ∀ used, ∀ c ∈ (next used).toList, c.isDigit ∨ c ∈ ['a', 'b', 'c', 'd', 'e', 'f', '-']
  listing : (k : Resource) → List k.Row → List k.Row
  listing_perm : ∀ k rows, (listing k rows).Perm rows

private theorem length_le_foldr_max (l : List String) :
    ∀ s ∈ l, s.toList.length ≤ (l.map fun s => s.toList.length).foldr max 0 := by
  induction l with
  | nil => simp
  | cons t l ih =>
    intro s hs
    rw [List.map_cons, List.foldr_cons]
    rcases List.mem_cons.mp hs with rfl | hs
    · exact Nat.le_max_left _ _
    · exact Nat.le_trans (ih s hs) (Nat.le_max_right _ _)

/-- A backend with IDs of growing length that lists in order of creation. -/
def Backend.plain : Backend where
  next used :=
    String.ofList (List.replicate ((used.map fun s => s.toList.length).foldr max 0 + 1) 'a')
  fresh := by
    intro used hmem
    have hle := length_le_foldr_max used _ hmem
    rw [String.toList_ofList, List.length_replicate] at hle
    omega
  hex := by
    intro used c hc
    rw [String.toList_ofList] at hc
    rw [List.eq_of_mem_replicate hc]
    decide
  listing _ rows := rows
  listing_perm _ _ := List.Perm.refl _

/-- The reasons for which a call or a reconcile stops. -/
inductive Err where
  | unreachable
  | notFound (id : String)
  | missing (what name : String)
  | context (doing subject : String) (cause : Err)
deriving DecidableEq, Repr

/-- The control plane's side of a request. -/
def serve (b : Backend) : (q : Request) → ControlPlane → Except Err (q.Reply × ControlPlane)
  | .list k, v => .ok (b.listing k (v.rows k), v)
  | .create k x, v =>
    let x := if k.id x = "" then k.withID (b.next v.issued) x else x
    .ok (x, v.save k x)
  | .update k i x, v =>
    if i ∈ (v.rows k).map k.id then .ok ((), v.save k (k.withID i x)) else .error (.notFound i)
  | .delete k i, v =>
    if i ∈ (v.rows k).map k.id then .ok ((), v.erase k i) else .error (.notFound i)

/-- What a served request does to the tables. -/
inductive Served (v : ControlPlane) : Request → ControlPlane → Prop where
  | list (k : Resource) : Served v (.list k) v
  | create (k : Resource) (x y : k.Row) (h : k.name y = k.name x) : Served v (.create k x) (v.save k y)
  | update (k : Resource) (i : String) (x : k.Row) :
      Served v (.update k i x) (v.save k (k.withID i x))
  | delete (k : Resource) (i : String) : Served v (.delete k i) (v.erase k i)

theorem served {b : Backend} {q : Request} {a : q.Reply} {v v' : ControlPlane}
    (h : serve b q v = .ok (a, v')) : Served v q v' := by
  cases q with
  | list k =>
    cases h
    exact .list k
  | create k x =>
    cases h
    exact .create k x _ (by split <;> simp)
  | update k i x =>
    simp only [serve] at h
    split at h <;> cases h
    exact .update k i x
  | delete k i =>
    simp only [serve] at h
    split at h <;> cases h
    exact .delete k i

/-! ## Calls -/

inductive Outcome where
  | ok
  | failed
  | lost
deriving DecidableEq, Repr

/-- One request of a run, how it went, and the tables it found. -/
structure Call where
  request : Request
  outcome : Outcome
  found : ControlPlane

/-- The reference counts and the destinations recorded for each route name: the fields of
`Reconciler`. A name without an entry reads as zero, or as no destinations. -/
structure Reconciler where
  refCount : String → ℕ
  routeDestMap : String → List String

/-- `NewReconciler`. -/
def Reconciler.new : Reconciler := ⟨fun _ => 0, fun _ => []⟩

/-- Vrata, the reconciler's memory, how the next calls will go, and the calls made so far, newest
first. -/
structure World where
  vrata : ControlPlane
  reconciler : Reconciler
  plan : List Outcome
  trace : List Call

/-- A new controller and an empty Vrata; all calls go well. -/
def World.start : World := ⟨.empty, .new, [], []⟩

/-- Programs of the controller. -/
abbrev Sync := EStateM Err World

/-- Send a request. When the plan is exhausted calls succeed. -/
def call (b : Backend) (q : Request) : Sync q.Reply := fun w =>
  let outcome := w.plan.headD .ok
  let w' := { w with plan := w.plan.tail, trace := ⟨q, outcome, w.vrata⟩ :: w.trace }
  match outcome, serve b q w.vrata with
  | .failed, _ => .error .unreachable w'
  | _, .error e => .error e w'
  | .ok, .ok (a, v) => .ok a { w' with vrata := v }
  | .lost, .ok (_, v) => .error .unreachable { w' with vrata := v }

/-- Add `fmt.Errorf` context to the error of a program. -/
def during {α : Type} (doing subject : String) (p : Sync α) : Sync α := fun w =>
  match p w with
  | .ok a w' => .ok a w'
  | .error e w' => .error (.context doing subject e) w'

section Client

variable (b : Backend)

def listRoutes : Sync (List Route) := call b (.list .routes)
def createRoute (r : Route) : Sync Route := call b (.create .routes r)
def updateRoute (id : String) (r : Route) : Sync Unit := call b (.update .routes id r)
def deleteRoute (id : String) : Sync Unit := call b (.delete .routes id)

def listGroups : Sync (List RouteGroup) := call b (.list .groups)
def createGroup (g : RouteGroup) : Sync RouteGroup := call b (.create .groups g)
def updateGroup (id : String) (g : RouteGroup) : Sync Unit := call b (.update .groups id g)
def deleteGroup (id : String) : Sync Unit := call b (.delete .groups id)

def listDestinations : Sync (List Destination) := call b (.list .destinations)
def createDestination (d : Destination) : Sync Destination := call b (.create .destinations d)
def deleteDestination (id : String) : Sync Unit := call b (.delete .destinations id)

def listMiddlewares : Sync (List Middleware) := call b (.list .middlewares)
def createMiddleware (m : Middleware) : Sync Middleware := call b (.create .middlewares m)
def deleteMiddleware (id : String) : Sync Unit := call b (.delete .middlewares id)

def listListeners : Sync (List Listener) := call b (.list .listeners)
def createListener (l : Listener) : Sync Listener := call b (.create .listeners l)
def deleteListener (id : String) : Sync Unit := call b (.delete .listeners id)

end Client

end Vrata.Controller

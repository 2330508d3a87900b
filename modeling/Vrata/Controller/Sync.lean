import Vrata.Controller.Cluster
import Vrata.Controller.Dedup
import Vrata.Controller.Reconciler.Trails

/-!
# The sync loop

Reference: `clients/controller/cmd/controller/main.go`, and `MapGateway` of
`clients/controller/internal/mapper/mapper.go`.

`Loop.cycle` is `syncCycle`: the detector is reset, the listed objects are put into the queue, the
head of the queue is reconciled, listeners are synchronised, and groups that no listed object asks
for are collected. Nothing stops a cycle: every call that fails is logged and the cycle goes on with
the next thing to do.

The `log` of a loop is not part of the program. It keeps what the reconciler was asked to do, with
the world it was asked in, and which HTTPRoutes were turned away, newest first. Metrics and status
conditions are left out, as nothing in a cycle reads them; the signals to the snapshot batcher are
in `Vrata.Controller.Sync.Snapshots`.
-/

namespace Vrata.Controller

/-- Something that happened in a cycle. -/
inductive Event where
  | denied (input : HTTPRouteInput)
  | rejected (input : HTTPRouteInput) (overlaps : List Overlap)
  | performed (op : Op) (before : World) (result : Except Err ℕ)

/-- The state that a cycle leaves to the next one. -/
structure Loop where
  world : World
  queue : SyncQueue
  detector : Detector
  log : List Event

/-- A program run to its end, whether it succeeds or not. -/
def World.attempt {α : Type} (w : World) (p : Sync α) : Except Err α × World :=
  match p w with
  | .ok a w' => (.ok a, w')
  | .error e w' => (.error e, w')

namespace Loop

/-- The loop of a controller that has just been started: after `Init`, whose failure is logged. -/
def start (b : Backend) (w : World) : Loop := ⟨w.after b .init, .new, .empty, []⟩

/-- Ask the reconciler for an operation. -/
def perform (b : Backend) (s : Loop) (op : Op) : Except Err ℕ × Loop :=
  let (result, w) := s.world.attempt (op.program b)
  (result, { s with world := w, log := .performed op s.world result :: s.log })

/-! ## Reconciling one route -/

/-- `detector.Check`; there is no detector when duplicates are not looked for. -/
def check (cfg : Config) (s : Loop) (input : HTTPRouteInput) : List Overlap × Loop :=
  if cfg.duplicatesMode = .off then ([], s)
  else
    let (ols, d) := s.detector.check input.checked
    (ols, { s with detector := d })

inductive SyncErr where
  | getting (ref : RouteRef)
  | applying (ref : RouteRef) (cause : Err)
deriving DecidableEq, Repr

/-- The results of `reconcileSingleRoute`. -/
structure Reconciled where
  changes : ℕ
  groupName : String
  error : Option SyncErr
deriving DecidableEq, Repr

/-- The part of `reconcileSingleRoute` that follows the check of reference grants. -/
def reconcileInput (b : Backend) (cfg : Config) (s : Loop) (ref : RouteRef)
    (input : HTTPRouteInput) : Reconciled × Loop :=
  let (ols, s) := s.check cfg input
  if ols ≠ [] ∧ cfg.duplicatesMode = .reject then
    (⟨0, groupName ref.namespace ref.name, none⟩, { s with log := .rejected input ols :: s.log })
  else
    match s.perform b (.apply input) with
    | (.error e, s) => (⟨0, groupName ref.namespace ref.name, some (.applying ref e)⟩, s)
    | (.ok changes, s) => (⟨changes, groupName ref.namespace ref.name, none⟩, s)

/-- Fetch one route and apply it. Reference grants are asked for by HTTPRoutes only. -/
def reconcileSingleRoute (b : Backend) (cfg : Config) (t : Tick) (s : Loop) (ref : RouteRef) :
    Reconciled × Loop :=
  match t.get cfg ref with
  | none => (⟨0, groupName ref.namespace ref.name, some (.getting ref)⟩, s)
  | some o =>
    if !ref.super && t.denied o.toInput then
      (⟨0, groupName ref.namespace ref.name, none⟩, { s with log := .denied o.toInput :: s.log })
    else s.reconcileInput b cfg ref o.toInput

/-! ## The queue -/

/-- Put the listed objects of one kind into the queue. -/
def observeAll (s : Loop) (super : Bool) (now : ℤ) (objects : List RouteObject) : Loop :=
  { s with queue := objects.foldl (fun q o => q.observe (o.ref super) o.annotations now) s.queue }

/-- Phase 1: populate the queue. -/
def populate (cfg : Config) (t : Tick) (s : Loop) : Loop :=
  (s.observeAll false t.now (t.httpRoutes cfg)).observeAll true t.now (t.superHTTPRoutes cfg)

def pop (s : Loop) : Loop := { s with queue := s.queue.pop }

/-- Reconcile one member of a batch; its group is kept whatever happens. -/
def reconcileMember (b : Backend) (cfg : Config) (t : Tick) (acc : List String × Loop)
    (ref : RouteRef) : List String × Loop :=
  let (r, s) := acc.2.reconcileSingleRoute b cfg t ref
  (if r.groupName ≠ "" then r.groupName :: acc.1 else acc.1, s)

/-- Phase 2: process the head of the queue. The result is the set of groups to keep, extended, and
whether a batch is still accumulating. -/
def processHead (b : Backend) (cfg : Config) (t : Tick) (s : Loop) (desired : List String) :
    List String × Bool × Loop :=
  match s.queue.queue.head with
  | none => (desired, false, s)
  | some (.single ref) =>
    let (r, s) := s.reconcileSingleRoute b cfg t ref
    (if 0 < r.changes ∧ r.groupName ≠ "" then r.groupName :: desired else desired, false, s.pop)
  | some (.batch p) =>
    match s.queue.queue.groups[p]? with
    | none => (desired, false, s)
    | some bg =>
      if !bg.isReady t.later cfg.batchIdleTimeout then (desired, true, s)
      else if bg.isIncomplete && cfg.batchIncompletePolicy = .reject then (desired, false, s.pop)
      else
        let (desired, s) := bg.members.foldl (reconcileMember b cfg t) (desired, s)
        (desired, false, s.pop)

end Loop

/-! ## Gateways -/

/-- `gatewayToInput` followed by `MapGateway`. -/
def mapGateway (g : Gateway) : List Listener :=
  g.listeners.map fun l =>
    { name := "k8s:" ++ g.namespace ++ "/" ++ g.name ++ "/" ++ l.name
      address := "0.0.0.0"
      port := l.port.toUInt32 }

/-- Create a listener unless there is one of its name. -/
def syncListener (b : Backend) (w : World) (l : Listener) : World :=
  match w.attempt (findByName b .listeners l.name) with
  | (.error _, w) => w
  | (.ok (some _), w) => w
  | (.ok none, w) => (w.attempt (createListener b l)).2

/-- Delete an owned listener that no Gateway asks for. -/
def collectListener (b : Backend) (desiredNames : List String) (w : World) (name : String) :
    World :=
  if desiredNames.contains name then w else (w.attempt (deleteListenerByName b name)).2

/-- Phase 3: synchronise the listeners. -/
def syncAllGateways (b : Backend) (cfg : Config) (t : Tick) (w : World) : World :=
  match t.listGateways cfg with
  | none => w
  | some gateways =>
    let listeners := gateways.flatMap mapGateway
    let w := listeners.foldl (syncListener b) w
    match w.attempt (ownedListenerNames b) with
    | (.error _, w) => w
    | (.ok names, w) => names.foldl (collectListener b (listeners.map Listener.name)) w

/-! ## Garbage collection -/

/-- The namespace and name in a group name. -/
def parseGroupName (groupName : String) : Option (String × String) :=
  if Text.hasPrefix groupName "k8s:" then Text.cut '/' (String.ofList (groupName.toList.drop 4))
  else none

namespace Loop

/-- Delete the entities of a group that is not desired. -/
def collectGroup (b : Backend) (desired : List String) (s : Loop) (group : String) : Loop :=
  if desired.contains group then s
  else
    match parseGroupName group with
    | none => s
    | some (ns, name) => (s.perform b (.delete ns name)).2

/-- Phase 4: collect the groups that are not desired. -/
def gcOrphanedGroups (b : Backend) (desired : List String) (s : Loop) : Loop :=
  match s.world.attempt (ownedGroupNames b) with
  | (.error _, w) => { s with world := w }
  | (.ok groups, w) => groups.foldl (collectGroup b desired) { s with world := w }

/-! ## The cycle -/

/-- The groups of the listed objects. -/
def listedGroups (cfg : Config) (t : Tick) : List String :=
  (t.httpRoutes cfg ++ t.superHTTPRoutes cfg).map fun o => groupName o.namespace o.name

/-- What is done before garbage collection: the groups to keep, whether a batch is accumulating, and
the state. -/
def beforeGC (b : Backend) (cfg : Config) (t : Tick) (s : Loop) : List String × Bool × Loop :=
  let s := { s with detector := s.detector.reset }
  let (desired, blocking, s) := (s.populate cfg t).processHead b cfg t (listedGroups cfg t)
  (desired, blocking,
    if cfg.watchGateways then { s with world := syncAllGateways b cfg t s.world } else s)

/-- `syncCycle`. -/
def cycle (b : Backend) (cfg : Config) (s : Loop) (t : Tick) : Loop :=
  let (desired, blocking, s) := s.beforeGC b cfg t
  if blocking then s else s.gcOrphanedGroups b desired

/-- A run of sync cycles. -/
def run (b : Backend) (cfg : Config) (s : Loop) (ticks : List Tick) : Loop :=
  ticks.foldl (cycle b cfg) s

end Loop

end Vrata.Controller

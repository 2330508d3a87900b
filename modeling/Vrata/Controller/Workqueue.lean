import Mathlib.Algebra.Group.Nat.Defs
import Mathlib.Data.Int.Notation
import Mathlib.Data.List.Basic
import Mathlib.Data.List.Nodup
import Mathlib.Logic.Function.Basic

/-!
# The work queue

Reference: `clients/controller/internal/workqueue/workqueue.go`.

The queue holds single routes and batch groups in order of first observation. A batch group is
reached both from its item and from the map `byKey`, so groups live in `groups` and are referred to
by their index there; popping an item drops the references, not the group.

The set `knownSingles` that keeps a single route from being enqueued twice belongs to the caller.
`SyncQueue` pairs it with the queue the way the sync loop does: one map for the whole life of the
controller, written by `Observe` and by nothing else.
-/

namespace Vrata.Controller

structure RouteRef where
  «namespace» : String
  name : String
  super : Bool := false
deriving DecidableEq, Repr

/-- The annotations that the queue reads: `vrata.io/batch` and `vrata.io/batch-size`. -/
structure Annotations where
  batch : Option String := none
  batchSize : Option String := none
deriving DecidableEq, Repr

/-- Instants and durations are nanoseconds. -/
structure BatchGroup where
  name : String
  expectedSize : ℤ := 0
  members : List RouteRef := []
  lastSeen : ℤ
  firstSeen : ℤ
  ready : Bool := false
deriving DecidableEq, Repr

namespace BatchGroup

def isReady (bg : BatchGroup) (now idleTimeout : ℤ) : Bool :=
  bg.ready || (bg.expectedSize > 0 && bg.members.length ≥ bg.expectedSize) ||
    now - bg.lastSeen ≥ idleTimeout

def markReady (bg : BatchGroup) : BatchGroup := { bg with ready := true }

def isIncomplete (bg : BatchGroup) : Bool :=
  bg.expectedSize > 0 && bg.members.length < bg.expectedSize

end BatchGroup

/-- An item is a single route or a batch group, the latter by reference. -/
inductive Item where
  | single (ref : RouteRef)
  | batch (group : ℕ)
deriving DecidableEq, Repr

structure Queue where
  items : List Item
  byKey : String → Option ℕ
  groups : List BatchGroup

/-- The number read so far, as a 64-bit integer, after one more character. -/
def parseDigit (n : ℤ) (c : Char) : ℤ := Int.bmod (n * 10 + (c.toNat - '0'.toNat : ℕ)) (2 ^ 64)

/-- A decimal number, or zero when some character is not a digit. -/
def parseSize (s : String) : ℤ :=
  if s.toList.all fun c => '0' ≤ c ∧ c ≤ '9' then s.toList.foldl parseDigit 0 else 0

namespace Queue

def new : Queue := ⟨[], fun _ => none, []⟩

/-- A group that has just been seen for the first time. -/
def newGroup (batchName : String) (annotations : Annotations) (now : ℤ) : BatchGroup where
  name := batchName
  expectedSize := (annotations.batchSize.map parseSize).getD 0
  lastSeen := now
  firstSeen := now

/-- The group of a batch, created and enqueued if there is none. -/
def groupFor (q : Queue) (batchName : String) (annotations : Annotations) (now : ℤ) : ℕ × Queue :=
  match q.byKey batchName with
  | some p => (p, q)
  | none =>
    let p := q.groups.length
    (p, { items := q.items ++ [.batch p]
          byKey := Function.update q.byKey batchName (some p)
          groups := q.groups ++ [newGroup batchName annotations now] })

/-- Take note of a member: the first non-zero size wins, and a member already listed under the same
namespace and name is not listed again. -/
def addMember (ref : RouteRef) (annotations : Annotations) (now : ℤ) (bg : BatchGroup) :
    BatchGroup :=
  let bg :=
    match annotations.batchSize with
    | none => bg
    | some s => if bg.expectedSize = 0 then { bg with expectedSize := parseSize s } else bg
  if bg.members.any fun m => m.namespace = ref.namespace ∧ m.name = ref.name then bg
  else { bg with members := bg.members ++ [ref], lastSeen := now }

/-- The branch of `Observe` for a route with a batch annotation. -/
def observeMember (q : Queue) (ref : RouteRef) (batchName : String) (annotations : Annotations)
    (now : ℤ) : Queue :=
  let (p, q) := q.groupFor batchName annotations now
  { q with groups := q.groups.modify p (addMember ref annotations now) }

def head (q : Queue) : Option Item := q.items.head?

/-- The batch name that an item occupies in `byKey`. -/
def batchNameOf (q : Queue) : Item → Option String
  | .single _ => none
  | .batch p => (q.groups[p]?).map BatchGroup.name

/-- The queue without its first item. -/
def pop (q : Queue) : Queue :=
  match q.items with
  | [] => q
  | item :: rest =>
    { q with
      items := rest
      byKey := match q.batchNameOf item with
        | none => q.byKey
        | some name => Function.update q.byKey name none }

def len (q : Queue) : ℕ := q.items.length

def hasBatch (q : Queue) (name : String) : Bool := (q.byKey name).isSome

end Queue

/-- The key of a single item. It leaves out whether the route is a SuperHTTPRoute. -/
def RouteRef.key (ref : RouteRef) : String := ref.namespace ++ "/" ++ ref.name

/-- The queue and the map that the sync loop passes to every `Observe`. -/
structure SyncQueue where
  queue : Queue
  knownSingles : String → Bool

namespace SyncQueue

def new : SyncQueue := ⟨.new, fun _ => false⟩

def observe (s : SyncQueue) (ref : RouteRef) (annotations : Annotations) (now : ℤ) : SyncQueue :=
  match annotations.batch with
  | none =>
    if s.knownSingles ref.key then s
    else
      { queue := { s.queue with items := s.queue.items ++ [.single ref] }
        knownSingles := Function.update s.knownSingles ref.key true }
  | some batchName => { s with queue := s.queue.observeMember ref batchName annotations now }

def pop (s : SyncQueue) : SyncQueue := { s with queue := s.queue.pop }

/-- The single routes in the queue, head first. -/
def singles (s : SyncQueue) : List RouteRef :=
  s.queue.items.filterMap fun
    | .single ref => some ref
    | .batch _ => none

theorem mem_singles {s : SyncQueue} {ref : RouteRef} :
    ref ∈ s.singles ↔ Item.single ref ∈ s.queue.items := by
  simp only [singles, List.mem_filterMap]
  constructor
  · rintro ⟨item, hitem, h⟩
    cases item with
    | single r =>
      cases h
      exact hitem
    | batch p => cases h
  · intro h
    exact ⟨_, h, rfl⟩

end SyncQueue

end Vrata.Controller

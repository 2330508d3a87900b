import Vrata.Controller.Batcher
import Vrata.Controller.Sync

/-!
# Snapshots and batches

Reference: `clients/controller/cmd/controller/main.go` and
`clients/controller/internal/batcher/batcher.go`.

The reconcile loop signals every change to the batcher, and flushes it after a batch, after the first
cycle and on shutdown. `loopMoves` lists what a run of the loop does in that respect, in program order;
it is computed with the functions of a sync cycle. The debounce timer and its callback run next to the
loop: a `Turn` says who does something next, and so a list of turns is an interleaving.

A batch is to end up in one snapshot: none is to be created while it accumulates at the head of the
queue or while its members are reconciled. The batcher knows nothing of batches, and creates one
whenever changes reach the limit or the timer runs out. `batchAtomic_iff` says in which runs this does
no harm.
-/

namespace Vrata.Controller

open Runs

/-! ## What the loop does -/

/-- A step of the reconcile loop, as far as snapshots are concerned. -/
inductive Move where
  /-- The queue has changed, or its head is examined: is the head a batch that is still accumulating? -/
  | head (accumulating : Bool)
  /-- The first member of a batch is about to be reconciled. -/
  | started
  /-- All members of the batch have been reconciled. -/
  | finished
  | signal
  | flush
deriving DecidableEq, Repr

/-- One signal for each change. -/
def signals (changes : ℕ) : List Move := List.replicate changes .signal

/-- The changes counted along a loop. -/
def changesAlong {σ α : Type} (f : σ → α → σ) (changes : σ → α → ℕ) : σ → List α → ℕ
  | _, [] => 0
  | s, a :: as => changes s a + changesAlong f changes (f s a) as

/-- The changes a program reports; none if it fails. -/
def reported (r : Except Err ℕ) : ℕ := r.toOption.getD 0

/-- The head of the queue is a batch that is not ready. -/
def SyncQueue.accumulates (q : SyncQueue) (now idleTimeout : ℤ) : Bool :=
  match q.queue.head with
  | some (.batch p) => (q.queue.groups[p]?).any fun bg => !bg.isReady now idleTimeout
  | _ => false

/-- The moves while listed objects are put into the queue. -/
def observeMoves (idleTimeout : ℤ) (super : Bool) (now : ℤ) : SyncQueue → List RouteObject → List Move
  | _, [] => []
  | q, o :: objects =>
    let q := q.observe (o.ref super) o.annotations now
    .head (q.accumulates now idleTimeout) :: observeMoves idleTimeout super now q objects

namespace Loop

variable (b : Backend) (cfg : Config) (t : Tick)

/-- The moves of phase 1. -/
def populateMoves (s : Loop) : List Move :=
  observeMoves cfg.batchIdleTimeout false t.now s.queue (t.httpRoutes cfg) ++
    observeMoves cfg.batchIdleTimeout true t.now (s.observeAll false t.now (t.httpRoutes cfg)).queue
      (t.superHTTPRoutes cfg)

/-- The moves for the members of a batch. -/
def memberMoves : Loop → List RouteRef → List Move
  | _, [] => []
  | s, ref :: refs =>
    let (r, s) := s.reconcileSingleRoute b cfg t ref
    signals r.changes ++ memberMoves s refs

/-- The moves of phase 2, up to the last change of the queue. -/
def headMoves (s : Loop) : List Move :=
  match s.queue.queue.head with
  | none => []
  | some (.single ref) => signals (s.reconcileSingleRoute b cfg t ref).1.changes
  | some (.batch p) =>
    match s.queue.queue.groups[p]? with
    | none => []
    | some bg =>
      if !bg.isReady t.later cfg.batchIdleTimeout then []
      else if bg.isIncomplete && cfg.batchIncompletePolicy = .reject then []
      else .started :: memberMoves b cfg t s bg.members ++ [.finished, .flush]

/-- Creating a listener is a change. -/
def syncListenerChanges (w : World) (l : Listener) : ℕ :=
  match w.attempt (findByName b .listeners l.name) with
  | (.ok none, w) => reported ((w.attempt (createListener b l)).1.map fun _ => 1)
  | _ => 0

def collectListenerChanges (desiredNames : List String) (w : World) (name : String) : ℕ :=
  if desiredNames.contains name then 0
  else reported (w.attempt (deleteListenerByName b name)).1

/-- The changes of phase 3. -/
def gatewayChanges (w : World) : ℕ :=
  match t.listGateways cfg with
  | none => 0
  | some gateways =>
    let listeners := gateways.flatMap mapGateway
    let created := changesAlong (syncListener b) (syncListenerChanges b) w listeners
    match (listeners.foldl (syncListener b) w).attempt (ownedListenerNames b) with
    | (.error _, _) => created
    | (.ok names, w) =>
      created + changesAlong (collectListener b (listeners.map Listener.name))
        (collectListenerChanges b (listeners.map Listener.name)) w names

def collectGroupChanges (desired : List String) (s : Loop) (group : String) : ℕ :=
  if desired.contains group then 0
  else
    match parseGroupName group with
    | none => 0
    | some (ns, name) => reported (s.perform b (.delete ns name)).1

/-- The changes of phase 4. -/
def gcChanges (desired : List String) (s : Loop) : ℕ :=
  match s.world.attempt (ownedGroupNames b) with
  | (.error _, _) => 0
  | (.ok groups, w) =>
    changesAlong (collectGroup b desired) (collectGroupChanges b desired) { s with world := w } groups

/-- The moves of a sync cycle. -/
def cycleMoves (s : Loop) : List Move :=
  let populated := ({ s with detector := s.detector.reset } : Loop).populate cfg t
  let head := (populated.processHead b cfg t (listedGroups cfg t)).2.2
  let (desired, blocking, s') := s.beforeGC b cfg t
  populateMoves cfg t s ++ .head (populated.queue.accumulates t.later cfg.batchIdleTimeout) ::
    headMoves b cfg t populated ++ .head (head.queue.accumulates t.later cfg.batchIdleTimeout) ::
    (if cfg.watchGateways then signals (gatewayChanges b cfg t head.world) else []) ++
    (if blocking then [] else signals (gcChanges b desired s'))

end Loop

/-- The moves of consecutive cycles. -/
def cyclesMoves (b : Backend) (cfg : Config) : Loop → List Tick → List Move
  | _, [] => []
  | s, t :: ticks => s.cycleMoves b cfg t ++ cyclesMoves b cfg (s.cycle b cfg t) ticks

/-- The moves of `reconcileLoop`, which flushes after its first cycle, and of a shutdown. -/
def loopMoves (b : Backend) (cfg : Config) (s : Loop) (first : Tick) (ticks : List Tick)
    (shutdown : Bool) : List Move :=
  s.cycleMoves b cfg first ++ .flush :: cyclesMoves b cfg (s.cycle b cfg first) ticks ++
    if shutdown then [.flush] else []

/-! ## The loop and the batcher -/

/-- Where the loop is with a batch. -/
inductive Phase where
  | free
  | accumulating
  | reconciling
deriving DecidableEq, Repr

def Phase.after (p : Phase) : Move → Phase
  | .head blocked => if blocked then .accumulating else .free
  | .started => .reconciling
  | .finished => .free
  | .signal => p
  | .flush => p

/-- The snapshots that have been created. -/
def Batcher.created (b : Batcher) : List Attempt :=
  b.attempts.filter fun a => a.calls.create ≠ .failed

/-- The moves still to come, the batcher, and the phase. -/
structure Sys where
  moves : List Move
  batcher : Batcher
  phase : Phase
deriving DecidableEq, Repr

/-- Who does something next, and how the calls for a snapshot go if it comes to one. -/
inductive Turn where
  | loop (c : SnapshotCalls)
  | expire
  | callback (c : SnapshotCalls)
deriving DecidableEq, Repr

namespace Sys

def start (maxBatch : ℤ) (moves : List Move) : Sys := ⟨moves, .new maxBatch, .free⟩

/-- What a move means to the batcher. -/
def act (b : Batcher) (c : SnapshotCalls) : Move → Batcher
  | .signal => b.signal c
  | .flush => b.flush c
  | _ => b

def step (s : Sys) : Turn → Sys
  | .loop c =>
    match s.moves with
    | [] => s
    | m :: ms => ⟨ms, act s.batcher c m, s.phase.after m⟩
  | .expire => { s with batcher := s.batcher.expire }
  | .callback c => { s with batcher := s.batcher.callback c }

/-- The turn creates a snapshot. -/
def Creates (s : Sys) (u : Turn) : Prop := (s.step u).batcher.created ≠ s.batcher.created

instance (s : Sys) (u : Turn) : Decidable (s.Creates u) := inferInstanceAs (Decidable (_ ≠ _))

/-- No snapshot is created while a batch accumulates at the head or is reconciled. -/
def BatchAtomic (s : Sys) (us : List Turn) : Prop :=
  Along step (fun s u => s.phase ≠ .free → ¬s.Creates u) s us

/-- The turn does not bring the batcher to create a snapshot: a signal stays below the limit, a flush
and a callback find nothing pending, or else Vrata does not create it. -/
def Harmless (s : Sys) : Turn → Prop
  | .loop c =>
    match s.moves with
    | .signal :: _ => (s.batcher.pending + 1 : ℤ) < s.batcher.maxBatch ∨ c.create = .failed
    | .flush :: _ => s.batcher.pending = 0 ∨ c.create = .failed
    | _ => True
  | .expire => True
  | .callback c => s.batcher.running = 0 ∨ s.batcher.pending = 0 ∨ c.create = .failed

end Sys

/-! ## When a snapshot is created -/

namespace Batcher

/-- An attempt creates a snapshot unless the request fails. -/
theorem created_flushLocked (b : Batcher) (c : SnapshotCalls) :
    (b.flushLocked c).created = b.created ↔ c.create = .failed := by
  have hattempts : (b.flushLocked c).attempts = ⟨b.pending, c⟩ :: b.attempts := by
    unfold flushLocked
    simp only
    split
    · rfl
    · split <;> rfl
  rw [created, created, hattempts]
  by_cases hc : c.create = .failed
  · rw [List.filter_cons_of_neg (by simp [hc])]
    simp [hc]
  · rw [List.filter_cons_of_pos (by simp [hc])]
    simp [hc]

theorem created_signal (b : Batcher) (c : SnapshotCalls) :
    (b.signal c).created = b.created ↔
      (b.pending + 1 : ℤ) < b.maxBatch ∨ c.create = .failed := by
  unfold signal
  simp only
  split
  · rename_i hmax
    push_cast at hmax
    have hrec := created_flushLocked
      { b with pending := b.pending + 1, counter := b.counter + 1 } c
    simp only [Int.not_lt.mpr hmax, false_or]
    exact hrec
  · rename_i hmax
    push_cast at hmax
    simp [Int.not_le.mp hmax, created]

theorem created_flush (b : Batcher) (c : SnapshotCalls) :
    (b.flush c).created = b.created ↔ b.pending = 0 ∨ c.create = .failed := by
  unfold flush
  split
  · rename_i hpos
    rw [created_flushLocked]
    simp [Nat.ne_of_gt hpos]
  · rename_i hzero
    have hp : b.pending = 0 := by omega
    simp [hp]

theorem created_callback (b : Batcher) (c : SnapshotCalls) :
    (b.callback c).created = b.created ↔
      b.running = 0 ∨ b.pending = 0 ∨ c.create = .failed := by
  unfold callback
  split
  · rename_i hzero
    simp [hzero]
  · rename_i hpos
    simp only [hpos, false_or]
    exact created_flush { b with running := b.running - 1 } c

theorem created_expire (b : Batcher) : b.expire.created = b.created := by
  unfold expire
  split <;> rfl

end Batcher

/-- The turns that create a snapshot. -/
theorem Sys.creates_iff (s : Sys) (u : Turn) : s.Creates u ↔ ¬s.Harmless u := by
  refine not_congr ?_
  cases u with
  | loop c =>
    unfold Harmless step
    rcases s.moves with _ | ⟨m, ms⟩
    · simp
    · cases m with
      | signal => exact s.batcher.created_signal c
      | flush => exact s.batcher.created_flush c
      | _ => simp [act]
  | expire => exact iff_of_true s.batcher.created_expire trivial
  | callback c => exact s.batcher.created_callback c

/-- Batches are atomic in exactly the runs in which every turn taken while a batch accumulates or is
reconciled is harmless. -/
theorem batchAtomic_iff (b : Backend) (cfg : Config) (s : Loop) (first : Tick) (ticks : List Tick)
    (shutdown : Bool) (maxBatch : ℤ) (us : List Turn) :
    (Sys.start maxBatch (loopMoves b cfg s first ticks shutdown)).BatchAtomic us ↔
      Along Sys.step (fun s u => s.phase ≠ .free → s.Harmless u)
        (Sys.start maxBatch (loopMoves b cfg s first ticks shutdown)) us := by
  unfold Sys.BatchAtomic Along
  simp only [Sys.creates_iff, not_not]

/-! ## A batch in two snapshots -/

/-- A member of the batch `release` of two. -/
def releaseObject (name : String) (h : '/' ∉ name.toList) : RouteObject where
  «namespace» := "default"
  name
  annotations := { batch := some "release", batchSize := some "2" }
  spec := {}
  slash_not_mem_namespace := slash_not_mem_default
  slash_not_mem_name := h

/-- Both members exist. -/
def releaseTick : Tick where
  cluster :=
    { httpRoutes :=
        [releaseObject "web" slash_not_mem_web, releaseObject "shop" slash_not_mem_shop] }

/-- With a limit of one change, the first member gets a snapshot of its own while the second is still
to be reconciled. -/
theorem first_member_snapshot :
    let s := ((List.replicate 4 (Turn.loop ⟨.ok, .ok⟩)).foldl Sys.step
      (Sys.start 1 (loopMoves .plain {} (Loop.start .plain .start) releaseTick [] false)))
    s.phase = .reconciling ∧ s.moves = [.signal, .signal, .finished, .flush, .head false, .flush] ∧
      s.Creates (.loop ⟨.ok, .ok⟩) := by
  decide +kernel

end Vrata.Controller

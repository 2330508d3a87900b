import Vrata.Controller.Client
import Vrata.Lib.Runs

/-!
# The snapshot batcher

Reference: `clients/controller/internal/batcher/batcher.go`.

`Signal`, `Flush` and the callback of the debounce timer hold the mutex from beginning to end, so each
of them is one action. A timer that expires starts its callback in a goroutine of its own, which may
have to wait for the mutex; stopping the timer then comes too late. The state therefore keeps, next to
the fields of `Batcher`, how many callbacks have been started and have not had the mutex yet.

A snapshot that cannot be created or activated leaves the changes pending. The timer has been given up
by then, and nothing arms it again before the next signal: `attended_iff` says in which runs the
pending changes are never left alone in this way.
-/

namespace Vrata.Controller

open Runs

/-- How the two calls for a snapshot go. -/
structure SnapshotCalls where
  create : Outcome
  activate : Outcome
deriving DecidableEq, Repr

/-- The field `timer`. A timer that has expired or has been stopped stays in the field until it is
replaced. -/
inductive Timer where
  | none
  | armed
  | expired
deriving DecidableEq, Repr

/-- A call of `CreateSnapshot`: the changes that were pending, and how the calls went. -/
structure Attempt where
  changes : ℕ
  calls : SnapshotCalls
deriving DecidableEq, Repr

structure Batcher where
  maxBatch : ℤ
  pending : ℕ
  counter : ℕ
  timer : Timer
  /-- Callbacks that wait for the mutex. -/
  running : ℕ
  /-- The snapshots that were attempted, newest first. -/
  attempts : List Attempt
deriving DecidableEq, Repr

namespace Batcher

/-- `New`; how long the debounce timer runs makes no difference here. -/
def new (maxBatch : ℤ) : Batcher := ⟨maxBatch, 0, 0, .none, 0, []⟩

/-- Create and activate a snapshot. -/
def flushLocked (b : Batcher) (c : SnapshotCalls) : Batcher :=
  let b := { b with timer := .none, attempts := ⟨b.pending, c⟩ :: b.attempts }
  if c.create ≠ .ok then b
  else if c.activate ≠ .ok then b
  else { b with pending := 0 }

/-- Record a change. -/
def signal (b : Batcher) (c : SnapshotCalls) : Batcher :=
  let b := { b with pending := b.pending + 1, counter := b.counter + 1 }
  if b.maxBatch ≤ b.pending then b.flushLocked c else { b with timer := .armed }

/-- Force a snapshot if there are pending changes. -/
def flush (b : Batcher) (c : SnapshotCalls) : Batcher :=
  if 0 < b.pending then b.flushLocked c else b

/-- The debounce timer expires. -/
def expire (b : Batcher) : Batcher :=
  if b.timer = .armed then { b with timer := .expired, running := b.running + 1 } else b

/-- A callback gets the mutex. -/
def callback (b : Batcher) (c : SnapshotCalls) : Batcher :=
  if b.running = 0 then b else { b with running := b.running - 1 }.flush c

inductive Action where
  | signal (c : SnapshotCalls)
  | flush (c : SnapshotCalls)
  | expire
  | callback (c : SnapshotCalls)
deriving DecidableEq, Repr

def step (b : Batcher) : Action → Batcher
  | .signal c => b.signal c
  | .flush c => b.flush c
  | .expire => b.expire
  | .callback c => b.callback c

/-! ## Changes that are left alone -/

/-- If changes are pending, the timer is armed or a callback is under way. -/
def Attended (b : Batcher) : Prop := 0 < b.pending → b.timer = .armed ∨ 0 < b.running

instance (b : Batcher) : Decidable b.Attended := inferInstanceAs (Decidable (_ → _))

/-- The snapshot is created and activated. -/
def SnapshotCalls.Succeed (c : SnapshotCalls) : Prop := c.create = .ok ∧ c.activate = .ok

/-- A snapshot that is attempted succeeds, or a further callback is under way. -/
def Covered (b : Batcher) : Action → Prop
  | .signal c => (b.pending + 1 : ℤ) < b.maxBatch ∨ SnapshotCalls.Succeed c ∨ 0 < b.running
  | .flush c => b.pending = 0 ∨ SnapshotCalls.Succeed c ∨ 0 < b.running
  | .expire => True
  | .callback c => b.running = 0 ∨ b.pending = 0 ∨ SnapshotCalls.Succeed c ∨ 1 < b.running

/-- What an attempt does to the pending changes. -/
theorem pending_flushLocked (b : Batcher) (c : SnapshotCalls) :
    (b.flushLocked c).pending = 0 ∧ SnapshotCalls.Succeed c ∨
      (b.flushLocked c).pending = b.pending ∧ ¬SnapshotCalls.Succeed c := by
  unfold flushLocked SnapshotCalls.Succeed
  by_cases hc : c.create = .ok <;> by_cases ha : c.activate = .ok <;> simp [hc, ha]

@[simp] theorem timer_flushLocked (b : Batcher) (c : SnapshotCalls) :
    (b.flushLocked c).timer = .none := by
  unfold flushLocked
  simp only
  split
  · rfl
  · split <;> rfl

@[simp] theorem running_flushLocked (b : Batcher) (c : SnapshotCalls) :
    (b.flushLocked c).running = b.running := by
  unfold flushLocked
  simp only
  split
  · rfl
  · split <;> rfl

/-- After an attempt nothing but a callback can look after changes that are still pending. -/
theorem attended_flushLocked (b : Batcher) (c : SnapshotCalls) (h : 0 < b.pending) :
    (b.flushLocked c).Attended ↔ SnapshotCalls.Succeed c ∨ 0 < b.running := by
  unfold Attended
  rw [timer_flushLocked, running_flushLocked]
  rcases pending_flushLocked b c with ⟨hp, hc⟩ | ⟨hp, hc⟩
  · simp [hp, hc]
  · simp [hp, hc, h]

theorem attended_flush (b : Batcher) (c : SnapshotCalls) :
    (b.flush c).Attended ↔ b.pending = 0 ∨ SnapshotCalls.Succeed c ∨ 0 < b.running := by
  unfold flush
  split
  · rename_i hpos
    rw [attended_flushLocked b c hpos]
    simp [Nat.ne_of_gt hpos]
  · rename_i hzero
    have hp : b.pending = 0 := by omega
    simp [Attended, hp]

/-- A step leaves changes alone exactly if a snapshot fails with no callback under way. -/
theorem attended_step (b : Batcher) (a : Action) (h : b.Attended) :
    (b.step a).Attended ↔ b.Covered a := by
  cases a with
  | signal c =>
    show (b.signal c).Attended ↔ _
    unfold signal
    simp only
    split
    · rename_i hmax
      rw [attended_flushLocked _ _ (Nat.succ_pos _)]
      simp only [Covered]
      push_cast at hmax
      simp [Int.not_lt.mpr hmax]
    · rename_i hmax
      push_cast at hmax
      simp [Attended, Covered, Int.not_le.mp hmax]
  | flush c => exact b.attended_flush c
  | expire =>
    show b.expire.Attended ↔ True
    unfold expire
    split
    · simp [Attended]
    · simpa using h
  | callback c =>
    show (b.callback c).Attended ↔ _
    unfold callback
    split
    · rename_i hzero
      simpa [Covered, hzero] using h
    · rename_i hpos
      rw [attended_flush]
      simp only [Covered, hpos, false_or]
      have hrunning : 0 < b.running - 1 ↔ 1 < b.running := by omega
      rw [hrunning]

/-- Pending changes are never left alone in exactly the runs in which every failing snapshot finds
a further callback under way. -/
theorem attended_iff (maxBatch : ℤ) (as : List Action) :
    Always step Attended (new maxBatch) as ↔ Along step Covered (new maxBatch) as :=
  always_iff_along attended_step (by simp [Attended, new])

/-- A change that reaches the limit while Vrata refuses the snapshot is left alone. -/
theorem not_attended_refused : ¬((new 1).step (.signal ⟨.failed, .ok⟩)).Attended := by
  decide

end Batcher

end Vrata.Controller

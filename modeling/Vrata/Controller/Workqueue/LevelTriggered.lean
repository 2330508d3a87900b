import Mathlib.Data.List.Induction
import Vrata.Controller.Workqueue

/-!
# Is the work queue level-triggered?

The queue is meant to be level-triggered: every cycle observes every route, and an observed route
is either pending already or becomes pending. This needs `knownSingles` to be the set of keys of the
pending single routes. `Observe` adds a key when it enqueues; nothing removes it when the item is
popped, and the key does not tell an HTTPRoute from a SuperHTTPRoute.

`LevelTriggered` states the intended behaviour of a sequence of operations and
`levelTriggered_iff` says for which sequences the code has it: those that never pop a single route
and never observe a route while another one with its key is pending.
-/

namespace Vrata.Controller

/-- What the sync loop does with its queue. -/
inductive QueueOp where
  | observe (ref : RouteRef) (annotations : Annotations) (now : ℤ)
  | pop
deriving DecidableEq, Repr

namespace SyncQueue

def step (s : SyncQueue) : QueueOp → SyncQueue
  | .observe ref annotations now => s.observe ref annotations now
  | .pop => s.pop

def run (s : SyncQueue) (ops : List QueueOp) : SyncQueue := ops.foldl step s

@[simp] theorem run_nil (s : SyncQueue) : s.run [] = s := rfl

@[simp] theorem run_cons (s : SyncQueue) (op : QueueOp) (ops : List QueueOp) :
    s.run (op :: ops) = (s.step op).run ops := rfl

theorem run_append (s : SyncQueue) (ops ops' : List QueueOp) :
    s.run (ops ++ ops') = (s.run ops).run ops' :=
  List.foldl_append

/-- The items that a sequence of operations pops, in order. -/
def popped (s : SyncQueue) : List QueueOp → List Item
  | [] => []
  | .observe ref annotations now :: ops => (s.observe ref annotations now).popped ops
  | .pop :: ops => s.queue.head.toList ++ s.pop.popped ops

/-! ## What one operation does to the pending single routes -/

theorem observe_known {s : SyncQueue} {ref : RouteRef} {a : Annotations} (now : ℤ)
    (ha : a.batch = none) (hk : s.knownSingles ref.key = true) : s.observe ref a now = s := by
  simp [observe, ha, hk]

theorem observe_new {s : SyncQueue} {ref : RouteRef} {a : Annotations} (now : ℤ)
    (ha : a.batch = none) (hk : s.knownSingles ref.key = false) :
    (s.observe ref a now).singles = s.singles ++ [ref] ∧
      (s.observe ref a now).knownSingles = Function.update s.knownSingles ref.key true := by
  simp [observe, ha, hk, singles]

/-- Observing appends at the tail. -/
theorem items_observe (s : SyncQueue) (ref : RouteRef) (a : Annotations) (now : ℤ) :
    ∃ extra, (s.observe ref a now).queue.items = s.queue.items ++ extra := by
  cases ha : a.batch with
  | none =>
    by_cases hk : s.knownSingles ref.key = true
    · exact ⟨[], by simp [observe, ha, hk]⟩
    · exact ⟨[.single ref], by simp [observe, ha, hk]⟩
  | some batchName =>
    simp only [observe, ha, Queue.observeMember, Queue.groupFor]
    cases s.queue.byKey batchName with
    | none => exact ⟨[.batch s.queue.groups.length], rfl⟩
    | some p => exact ⟨[], (List.append_nil _).symm⟩

theorem observe_batch {s : SyncQueue} {ref : RouteRef} {a : Annotations} {name : String} (now : ℤ)
    (ha : a.batch = some name) : (s.observe ref a now).singles = s.singles ∧
      (s.observe ref a now).knownSingles = s.knownSingles := by
  simp only [observe, ha, Queue.observeMember, Queue.groupFor, singles]
  cases s.queue.byKey name <;> simp

@[simp] theorem knownSingles_pop (s : SyncQueue) : s.pop.knownSingles = s.knownSingles := rfl

theorem items_pop (s : SyncQueue) : s.pop.queue.items = s.queue.items.tail := by
  unfold pop Queue.pop
  split <;> simp_all

theorem singles_pop_of_single {s : SyncQueue} {ref : RouteRef}
    (h : s.queue.head = some (.single ref)) : s.singles = ref :: s.pop.singles := by
  obtain ⟨rest, hrest⟩ := List.head?_eq_some_iff.mp h
  simp [singles, items_pop, hrest]

theorem singles_pop_of_not_single {s : SyncQueue}
    (h : ∀ ref, s.queue.head ≠ some (.single ref)) : s.pop.singles = s.singles := by
  simp only [singles, items_pop]
  cases hi : s.queue.items with
  | nil => rfl
  | cons item rest =>
    cases item with
    | single ref => exact absurd (by simp [Queue.head, hi]) (h ref)
    | batch p => simp

/-! ## Runs -/

/-- Pending single routes have pairwise different keys, and their keys are known. -/
structure KeysKnown (s : SyncQueue) : Prop where
  nodup : (s.singles.map RouteRef.key).Nodup
  known : ∀ ref ∈ s.singles, s.knownSingles ref.key = true

theorem KeysKnown.new : KeysKnown new := ⟨List.nodup_nil, by simp [singles, SyncQueue.new, Queue.new]⟩

theorem KeysKnown.step {s : SyncQueue} (h : KeysKnown s) (op : QueueOp) : KeysKnown (s.step op) := by
  cases op with
  | observe ref a now =>
    cases ha : a.batch with
    | some name =>
      constructor
      · rw [SyncQueue.step, (observe_batch now ha).1]
        exact h.nodup
      · rw [SyncQueue.step, (observe_batch now ha).1, (observe_batch now ha).2]
        exact h.known
    | none =>
      cases hk : s.knownSingles ref.key with
      | true => rwa [SyncQueue.step, observe_known now ha hk]
      | false =>
        rw [SyncQueue.step]
        constructor
        · rw [(observe_new now ha hk).1, List.map_append]
          refine h.nodup.append (List.nodup_singleton _) ?_
          -- a pending route with this key would make the key known
          simp only [List.disjoint_singleton, List.map_cons, List.map_nil, List.mem_map, not_exists,
            not_and]
          intro r hr hkey
          have := h.known r hr
          rw [hkey, hk] at this
          cases this
        · intro r hr
          rw [(observe_new now ha hk).1, List.mem_append, List.mem_singleton] at hr
          rw [(observe_new now ha hk).2]
          by_cases hkey : r.key = ref.key
          · rw [hkey, Function.update_self]
          · rw [Function.update_of_ne hkey]
            exact h.known r (hr.resolve_right fun e => hkey (congrArg RouteRef.key e))
  | pop =>
    rw [SyncQueue.step]
    by_cases hs : ∃ ref, s.queue.head = some (.single ref)
    · obtain ⟨ref, href⟩ := hs
      have hpop := singles_pop_of_single href
      constructor
      · have := h.nodup
        rw [hpop, List.map_cons] at this
        exact this.of_cons
      · intro r hr
        exact h.known r (hpop ▸ List.mem_cons_of_mem _ hr)
    · have hpop := singles_pop_of_not_single (not_exists.mp hs)
      exact ⟨by rw [hpop]; exact h.nodup, by rw [hpop]; exact h.known⟩

theorem KeysKnown.run {s : SyncQueue} (h : KeysKnown s) (ops : List QueueOp) :
    KeysKnown (s.run ops) := by
  induction ops generalizing s with
  | nil => exact h
  | cons op ops ih => exact ih (h.step op)

/-- First in, first out: an item with `n` items before it is among the first `n + 1` popped. -/
theorem mem_popped {s : SyncQueue} {before after : List Item} {item : Item} {ops : List QueueOp}
    (hitems : s.queue.items = before ++ item :: after)
    (hpops : before.length < ops.count .pop) : item ∈ s.popped ops := by
  induction ops generalizing s before after with
  | nil => simp at hpops
  | cons op ops ih =>
    cases op with
    | observe ref a now =>
      obtain ⟨extra, hextra⟩ := items_observe s ref a now
      rw [popped]
      have hitems' : (s.step (.observe ref a now)).queue.items =
          before ++ item :: (after ++ extra) := by
        rw [SyncQueue.step, hextra, hitems, List.append_assoc, List.cons_append]
      exact ih hitems' (by simpa using hpops)
    | pop =>
      rw [popped, List.mem_append]
      cases before with
      | nil =>
        left
        simp [Queue.head, hitems]
      | cons b before =>
        right
        have hitems' : (s.step .pop).queue.items = before ++ item :: after := by
          rw [SyncQueue.step, items_pop, hitems, List.cons_append, List.tail_cons]
        refine ih hitems' ?_
        simp only [List.count_cons_self, List.length_cons] at hpops
        omega

/-! ## The level-triggered property -/

/-- `knownSingles` is the set of keys of the pending single routes. -/
def Exact (s : SyncQueue) : Prop :=
  ∀ key, s.knownSingles key = true ↔ ∃ ref ∈ s.singles, ref.key = key

/-- Throughout the sequence `knownSingles` is exact, an observed route without batch annotation is
pending afterwards, and it is popped again once the rest of the sequence pops often enough. -/
structure LevelTriggered (ops : List QueueOp) : Prop where
  exact : ∀ done rest, ops = done ++ rest → Exact (new.run done)
  pending : ∀ done ref a now rest, ops = done ++ .observe ref a now :: rest → a.batch = none →
    Item.single ref ∈ (new.run (done ++ [.observe ref a now])).queue.items
  reconciled : ∀ done ref a now rest, ops = done ++ .observe ref a now :: rest → a.batch = none →
    (new.run (done ++ [.observe ref a now])).queue.len ≤ rest.count .pop →
    Item.single ref ∈ (new.run (done ++ [.observe ref a now])).popped rest

/-- No single route is popped, and no route is observed while a different one with its key is
pending. -/
structure Undisturbed (ops : List QueueOp) : Prop where
  pop : ∀ done rest, ops = done ++ .pop :: rest →
    ∀ ref, (new.run done).queue.head ≠ some (.single ref)
  observe : ∀ done ref a now rest, ops = done ++ .observe ref a now :: rest → a.batch = none →
    ∀ other ∈ (new.run done).singles, other.key = ref.key → other = ref

theorem Exact.new : Exact new := by
  intro key
  simp [singles, SyncQueue.new, Queue.new]

theorem Exact.observe {s : SyncQueue} (h : Exact s) (ref : RouteRef) (a : Annotations) (now : ℤ) :
    Exact (s.observe ref a now) := by
  cases ha : a.batch with
  | some name =>
    intro key
    rw [(observe_batch now ha).1, (observe_batch now ha).2]
    exact h key
  | none =>
    cases hk : s.knownSingles ref.key with
    | true => rwa [observe_known now ha hk]
    | false =>
      intro key
      rw [(observe_new now ha hk).1, (observe_new now ha hk).2]
      by_cases hkey : key = ref.key
      · simp [hkey]
      · rw [Function.update_of_ne hkey, h key]
        simp [Ne.symm hkey]

/-- Popping a single route leaves its key known although no pending route has it. -/
theorem not_exact_pop_single {s : SyncQueue} (h : KeysKnown s) {ref : RouteRef}
    (href : s.queue.head = some (.single ref)) : ¬Exact s.pop := by
  intro hexact
  have hpop := singles_pop_of_single href
  have hknown : s.pop.knownSingles ref.key = true := h.known ref (hpop ▸ List.mem_cons_self)
  obtain ⟨other, hother, hkey⟩ := (hexact ref.key).mp hknown
  have hnodup := h.nodup
  rw [hpop, List.map_cons, List.nodup_cons] at hnodup
  exact hnodup.1 (hkey ▸ List.mem_map_of_mem hother)

theorem Undisturbed.exact {ops : List QueueOp} (h : Undisturbed ops) {done rest : List QueueOp}
    (hops : ops = done ++ rest) : Exact (SyncQueue.new.run done) := by
  induction done using List.reverseRecOn generalizing rest with
  | nil => exact Exact.new
  | append_singleton done op ih =>
    have hsplit : ops = done ++ op :: rest := by rw [hops, List.append_assoc, List.singleton_append]
    have hexact := ih hsplit
    rw [run_append, run_cons, run_nil]
    cases op with
    | observe ref a now => exact hexact.observe ref a now
    | pop =>
      intro key
      rw [step, knownSingles_pop, singles_pop_of_not_single (h.pop done rest hsplit)]
      exact hexact key

theorem Undisturbed.pending {ops : List QueueOp} (h : Undisturbed ops) {done rest : List QueueOp}
    {ref : RouteRef} {a : Annotations} {now : ℤ} (hops : ops = done ++ .observe ref a now :: rest)
    (ha : a.batch = none) :
    Item.single ref ∈ (SyncQueue.new.run (done ++ [.observe ref a now])).queue.items := by
  rw [run_append, run_cons, run_nil, step, ← mem_singles]
  cases hk : (SyncQueue.new.run done).knownSingles ref.key with
  | true =>
    rw [observe_known now ha hk]
    obtain ⟨other, hother, hkey⟩ := (h.exact hops ref.key).mp hk
    exact h.observe done ref a now rest hops ha other hother hkey ▸ hother
  | false =>
    rw [(observe_new now ha hk).1]
    exact List.mem_append_right _ List.mem_cons_self

/-- A pending item is popped when as many items are popped as there are in the queue. -/
theorem mem_popped_of_mem {s : SyncQueue} {item : Item} {ops : List QueueOp}
    (h : item ∈ s.queue.items) (hpops : s.queue.len ≤ ops.count .pop) : item ∈ s.popped ops := by
  obtain ⟨before, after, hitems⟩ := List.append_of_mem h
  refine mem_popped hitems (Nat.lt_of_lt_of_le ?_ hpops)
  rw [Queue.len, hitems, List.length_append, List.length_cons]
  omega

/-- The queue is level-triggered on exactly the undisturbed sequences. -/
theorem levelTriggered_iff (ops : List QueueOp) : LevelTriggered ops ↔ Undisturbed ops := by
  constructor
  · intro h
    constructor
    · intro done rest hops ref href
      refine not_exact_pop_single (KeysKnown.new.run done) href ?_
      have := h.exact (done ++ [.pop]) rest (by rw [hops, List.append_assoc, List.singleton_append])
      rwa [run_append, run_cons, run_nil] at this
    · intro done ref a now rest hops ha other hother hkey
      have hinv := KeysKnown.new.run done
      have hpending := h.pending done ref a now rest hops ha
      rw [run_append, run_cons, run_nil, step,
        observe_known now ha (hkey ▸ hinv.known other hother), ← mem_singles] at hpending
      exact List.inj_on_of_nodup_map hinv.nodup hother hpending hkey
  · intro h
    refine ⟨fun done rest hops => h.exact hops,
      fun done ref a now rest hops ha => h.pending hops ha, ?_⟩
    intro done ref a now rest hops ha hpops
    exact mem_popped_of_mem (h.pending hops ha) hpops

/-- Two cycles: the route is enqueued and popped, and seen again without becoming pending. -/
theorem not_levelTriggered_observe_pop_observe :
    ¬LevelTriggered [.observe ⟨"default", "web", false⟩ ⟨none, none⟩ 0, .pop,
      .observe ⟨"default", "web", false⟩ ⟨none, none⟩ 2000000000] := by
  intro h
  have := h.pending [.observe ⟨"default", "web", false⟩ ⟨none, none⟩ 0, .pop]
    ⟨"default", "web", false⟩ ⟨none, none⟩ 2000000000 [] rfl rfl
  revert this
  decide

end SyncQueue

end Vrata.Controller

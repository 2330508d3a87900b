import Vrata.Controller.Sync
import Vrata.Controller.Workqueue.LevelTriggered
import Vrata.Controller.Workqueue.Representation

/-!
# The idle window of a waiting batch

Reference: `clients/controller/internal/workqueue/workqueue.go`, the sync cycle in
`clients/controller/cmd/controller/main.go`, and "Concurrent batches" in
`.agents/CONTROLLER_DECISIONS.md`.

A batch behind another one "does not start accumulating its own idle timeout" until it is its turn.
`IsReady` compares the timeout with `lastSeen`, which is written when a member arrives, wherever in the
queue the group is. `WatchedQueue` keeps beside the queue when a group got its last new member and when
it became the head; `idleWindowKept_iff` says for which histories the rule holds.
-/

namespace Vrata.Controller

/-- An observation, or the removal of the head, at some instant. -/
inductive TimedOp where
  | observe (now : ℤ) (ref : RouteRef) (annotations : Annotations)
  | pop (now : ℤ)
deriving DecidableEq, Repr

namespace TimedOp

def time : TimedOp → ℤ
  | .observe now _ _ => now
  | .pop now => now

def op : TimedOp → QueueOp
  | .observe now ref annotations => .observe ref annotations now
  | .pop _ => .pop

end TimedOp

/-- All members have arrived: their number is known and reached. -/
def BatchGroup.Filled (bg : BatchGroup) : Prop :=
  0 < bg.expectedSize ∧ bg.expectedSize ≤ bg.members.length

/-- The members of a group so far. -/
def Queue.membersOf (q : Queue) (p : ℕ) : List RouteRef := ((q.groups[p]?).map BatchGroup.members).getD []

/-- The queue, and for each group when its last new member was observed and when it became the head. -/
structure WatchedQueue where
  queue : SyncQueue
  lastNew : ℕ → ℤ
  headSince : ℕ → Option ℤ

namespace WatchedQueue

def new : WatchedQueue := ⟨.new, fun _ => 0, fun _ => none⟩

def step (w : WatchedQueue) (o : TimedOp) : WatchedQueue where
  queue := w.queue.step o.op
  lastNew p :=
    if (w.queue.queue.membersOf p).length < ((w.queue.step o.op).queue.membersOf p).length then o.time
    else w.lastNew p
  headSince p :=
    if (w.queue.step o.op).queue.head = some (.batch p) ∧ w.queue.queue.head ≠ some (.batch p) then
      some o.time
    else w.headSince p

def run (ops : List TimedOp) : WatchedQueue := ops.foldl step new

theorem queue_run (ops : List TimedOp) : (run ops).queue = SyncQueue.new.run (ops.map TimedOp.op) := by
  have hfold : ∀ (ops : List TimedOp) (w : WatchedQueue),
      (ops.foldl step w).queue = w.queue.run (ops.map TimedOp.op) := by
    intro ops
    induction ops with
    | nil => exact fun _ => rfl
    | cons o ops ih => exact fun w => ih (w.step o)
  exact hfold ops new

/-- A group in the queue whose members have not all arrived is ready at `now` only if the timeout has
elapsed since its last new member was observed and since it became the head. -/
def IdleWindowKept (w : WatchedQueue) (now idleTimeout : ℤ) : Prop :=
  ∀ p bg, .batch p ∈ w.queue.queue.items → w.queue.queue.groups[p]? = some bg → ¬ bg.Filled →
    bg.isReady now idleTimeout = true →
    idleTimeout ≤ now - w.lastNew p ∧ ∃ since, w.headSince p = some since ∧ idleTimeout ≤ now - since

/-- No group is marked ready, and `lastSeen` is when the last new member was observed. -/
def Tracks (w : WatchedQueue) : Prop :=
  ∀ p bg, w.queue.queue.groups[p]? = some bg → bg.ready = false ∧ bg.lastSeen = w.lastNew p

end WatchedQueue

namespace Queue

theorem membersOf_of_get {q : Queue} {p : ℕ} {bg : BatchGroup} (h : q.groups[p]? = some bg) :
    q.membersOf p = bg.members := by
  simp [membersOf, h]

end Queue

/-- What an operation does to a group. -/
inductive GroupStep (now : ℤ) (bg' : BatchGroup) : Option BatchGroup → Prop where
  | kept (bg : BatchGroup) (ready : bg'.ready = bg.ready) (members : bg'.members = bg.members)
      (lastSeen : bg'.lastSeen = bg.lastSeen) : GroupStep now bg' (some bg)
  | grown (bg : BatchGroup) (ready : bg'.ready = bg.ready)
      (members : bg.members.length < bg'.members.length) (lastSeen : bg'.lastSeen = now) :
      GroupStep now bg' (some bg)
  | created (ready : bg'.ready = false) (members : 0 < bg'.members.length)
      (lastSeen : bg'.lastSeen = now) : GroupStep now bg' none

theorem GroupStep.refl (now : ℤ) (bg : BatchGroup) : GroupStep now bg (some bg) := .kept bg rfl rfl rfl

theorem GroupStep.addMember (ref : RouteRef) (a : Annotations) (now : ℤ) (bg : BatchGroup) :
    GroupStep now (Queue.addMember ref a now bg) (some bg) := by
  obtain ⟨-, hready, hmembers, hseen, -⟩ := Queue.addMember_spec ref a now bg
  by_cases hlisted : ref.pair ∈ bg.members.map RouteRef.pair
  · exact .kept bg hready (by simp [hmembers, hlisted]) (by rw [hseen, if_pos hlisted])
  · exact .grown bg hready (by simp [hmembers, hlisted]) (by rw [hseen, if_neg hlisted])

/-- A new group gets its first member. -/
theorem GroupStep.newGroup (ref : RouteRef) (a : Annotations) (now : ℤ) (name : String) :
    GroupStep now (Queue.addMember ref a now (Queue.newGroup name a now)) none := by
  obtain ⟨-, hready, hmembers, hseen, -⟩ := Queue.addMember_spec ref a now (Queue.newGroup name a now)
  refine .created hready ?_ (hseen.trans (if_neg List.not_mem_nil))
  rw [hmembers]
  simp [Queue.newGroup]

theorem groups_pop (s : SyncQueue) : s.pop.queue.groups = s.queue.groups := by
  unfold SyncQueue.pop Queue.pop
  simp only
  split <;> rfl

theorem groupStep_step {s : SyncQueue} {o : TimedOp} {p : ℕ} {bg' : BatchGroup}
    (h : (s.step o.op).queue.groups[p]? = some bg') : GroupStep o.time bg' s.queue.groups[p]? := by
  cases o with
  | pop now =>
    have hpop : s.queue.groups[p]? = some bg' := by
      rw [← groups_pop]
      exact h
    rw [hpop]
    exact .refl now bg'
  | observe now ref a =>
    have hchange := s.queue.change_observe ref a now (s.knownSingles ref.key)
    rw [← s.queue_observe] at hchange
    simp only [TimedOp.op, TimedOp.time, SyncQueue.step] at h ⊢
    generalize (s.observe ref a now).queue = q', s.knownSingles ref.key = known at hchange h
    cases hchange with
    | known => exact h ▸ .refl now bg'
    | single => exact h ▸ .refl now bg'
    | join _ _ _ _ name p' batch key =>
      rw [List.getElem?_modify] at h
      cases hget : s.queue.groups[p]? with
      | none => simp [hget] at h
      | some bg =>
        simp only [hget, Option.map_eq_map, Option.map_some, Option.some.injEq] at h
        subst h
        split
        · exact .addMember ref a now bg
        · exact .refl now bg
    | create _ _ _ _ name batch key =>
      rcases lt_or_ge p s.queue.groups.length with hp | hp
      · rw [List.getElem?_append_left hp] at h
        exact h ▸ .refl now bg'
      · rw [List.getElem?_append_right hp] at h
        obtain rfl := List.mem_singleton.mp (List.mem_of_getElem? h)
        rw [List.getElem?_eq_none hp]
        exact .newGroup ref a now name

namespace WatchedQueue

theorem Tracks.step {w : WatchedQueue} (h : w.Tracks) (o : TimedOp) : (w.step o).Tracks := by
  intro p bg' hget
  have hafter : (w.queue.step o.op).queue.membersOf p = bg'.members := Queue.membersOf_of_get hget
  have hlast : (w.step o).lastNew p =
      if (w.queue.queue.membersOf p).length < bg'.members.length then o.time else w.lastNew p := by
    rw [← hafter]
    rfl
  have hstep := groupStep_step hget
  rw [hlast]
  generalize hbefore : w.queue.queue.groups[p]? = before at hstep
  cases hstep with
  | kept bg ready members lastSeen =>
    obtain ⟨hready, hseen⟩ := h p bg hbefore
    rw [Queue.membersOf_of_get hbefore, members, if_neg (lt_irrefl _)]
    exact ⟨ready.trans hready, lastSeen.trans hseen⟩
  | grown bg ready members lastSeen =>
    rw [Queue.membersOf_of_get hbefore, if_pos members]
    exact ⟨ready.trans (h p bg hbefore).1, lastSeen⟩
  | created ready members lastSeen =>
    have hnone : w.queue.queue.membersOf p = [] := by simp [Queue.membersOf, hbefore]
    rw [hnone, List.length_nil, if_pos members]
    exact ⟨ready, lastSeen⟩

theorem tracks_run (ops : List TimedOp) : (run ops).Tracks := by
  induction ops using List.reverseRecOn with
  | nil =>
    intro p bg hget
    simp [run, new, SyncQueue.new, Queue.new] at hget
  | append_singleton ops o ih =>
    rw [run, List.foldl_concat]
    exact ih.step o

/-- The rule holds at all instants if and only if every group that is not filled was the head by the time
it got its last new member. -/
theorem idleWindowKept_iff (ops : List TimedOp) (idleTimeout : ℤ) :
    (∀ now, (run ops).IdleWindowKept now idleTimeout) ↔
      ∀ p bg, .batch p ∈ (run ops).queue.queue.items → (run ops).queue.queue.groups[p]? = some bg →
        ¬ bg.Filled → ∃ since, (run ops).headSince p = some since ∧ since ≤ (run ops).lastNew p := by
  have hready : ∀ p bg now, (run ops).queue.queue.groups[p]? = some bg → ¬ bg.Filled →
      (bg.isReady now idleTimeout = true ↔ idleTimeout ≤ now - (run ops).lastNew p) := by
    intro p bg now hget hfilled
    obtain ⟨hready, hseen⟩ := tracks_run ops p bg hget
    unfold BatchGroup.Filled at hfilled
    simp [BatchGroup.isReady, hready, hseen, hfilled]
  constructor
  · intro h p bg hitem hget hfilled
    -- The timeout after its last new member the group is ready.
    have hr := (hready p bg ((run ops).lastNew p + idleTimeout) hget hfilled).mpr (by omega)
    obtain ⟨-, since, hsince, hidle⟩ := h _ p bg hitem hget hfilled hr
    exact ⟨since, hsince, by omega⟩
  · intro h now p bg hitem hget hfilled hr
    obtain ⟨since, hsince, hle⟩ := h p bg hitem hget hfilled
    have hidle := (hready p bg now hget hfilled).mp hr
    exact ⟨hidle, since, hsince, by omega⟩

/-- Two batches of one member, seen at the start. The first is taken after ten seconds; the second is
ready at once. -/
theorem not_idleWindowKept_secondBatch :
    ¬ (run [.observe 0 ⟨"shop", "a", false⟩ ⟨some "release-v2.3", none⟩,
      .observe 0 ⟨"shop", "b", false⟩ ⟨some "release-v2.4", none⟩,
      .pop 10000000000]).IdleWindowKept 10000000000 10000000000 := by
  intro h
  obtain ⟨-, since, hsince, hidle⟩ := h 1 ⟨"release-v2.4", 0, [⟨"shop", "b", false⟩], 0, 0, false⟩
    (by decide) (by decide) (fun hfilled => absurd hfilled.1 (by decide)) (by decide)
  obtain rfl : 10000000000 = since := Option.some.inj (Eq.trans (by decide) hsince)
  exact absurd hidle (by decide)

end WatchedQueue

/-! ## Sync cycles -/

/-- What a cycle observes. -/
def Tick.observations (t : Tick) (cfg : Config) : List TimedOp :=
  (t.httpRoutes cfg).map (fun o => .observe t.now (o.ref false) o.annotations) ++
    (t.superHTTPRoutes cfg).map (fun o => .observe t.now (o.ref true) o.annotations)

/-- The calls of a sequence of operations, each with what `knownSingles` says by then. -/
def SyncQueue.calls (s : SyncQueue) : List QueueOp → List QueueCall
  | [] => []
  | .observe ref a now :: ops =>
    .observe ref a now (s.knownSingles ref.key) :: (s.observe ref a now).calls ops
  | .pop :: ops => .pop :: s.pop.calls ops

theorem SyncQueue.queue_run (s : SyncQueue) (ops : List QueueOp) :
    (s.run ops).queue = s.queue.run (s.calls ops) := by
  induction ops generalizing s with
  | nil => rfl
  | cons op ops ih =>
    cases op with
    | observe ref a now => exact (ih _).trans (congrArg (Queue.run · _) (s.queue_observe ref a now))
    | pop => exact ih s.pop

namespace Loop

variable {b : Backend} {cfg : Config} {t : Tick}

theorem queue_reconcileInput (s : Loop) (ref : RouteRef) (x : HTTPRouteInput) :
    (s.reconcileInput b cfg ref x).2.queue = s.queue := by
  have hcheck : (s.check cfg x).2.queue = s.queue := by
    unfold check
    split <;> rfl
  unfold reconcileInput
  rcases hp : s.check cfg x with ⟨ols, s'⟩
  rw [hp] at hcheck
  simp only
  split
  · exact hcheck
  · rcases hq : s'.perform b (.apply x) with ⟨r, s''⟩
    have hperform : (s'.perform b (.apply x)).2.queue = s'.queue := rfl
    rw [hq] at hperform
    cases r <;> exact hperform.trans hcheck

theorem queue_reconcileSingleRoute (s : Loop) (ref : RouteRef) :
    (s.reconcileSingleRoute b cfg t ref).2.queue = s.queue := by
  unfold reconcileSingleRoute
  split
  · rfl
  · split
    · rfl
    · exact queue_reconcileInput ..

theorem queue_reconcileMembers (members : List RouteRef) (desired : List String) (s : Loop) :
    (members.foldl (reconcileMember b cfg t) (desired, s)).2.queue = s.queue := by
  induction members generalizing desired s with
  | nil => rfl
  | cons ref members ih => exact (ih _ _).trans (queue_reconcileSingleRoute s ref)

theorem queue_processHead (s : Loop) (desired : List String) :
    (s.processHead b cfg t desired).2.2.queue = s.queue ∨
      (s.processHead b cfg t desired).2.2.queue = s.queue.pop := by
  unfold processHead
  rcases s.queue.queue.head with _ | ref | p
  · exact .inl rfl
  · exact .inr (congrArg SyncQueue.pop (queue_reconcileSingleRoute s ref))
  · simp only
    cases s.queue.queue.groups[p]? with
    | none => exact .inl rfl
    | some bg =>
      simp only
      split
      · exact .inl rfl
      · split
        · exact .inr rfl
        · exact .inr (congrArg SyncQueue.pop (queue_reconcileMembers bg.members desired s))

theorem queue_gcOrphanedGroups (s : Loop) (desired : List String) :
    (s.gcOrphanedGroups b desired).queue = s.queue := by
  have hcollect : ∀ (groups : List String) (s : Loop),
      (groups.foldl (collectGroup b desired) s).queue = s.queue := by
    intro groups
    induction groups with
    | nil => exact fun _ => rfl
    | cons g groups ih =>
      intro s
      refine (ih _).trans ?_
      unfold collectGroup
      split
      · rfl
      · split <;> rfl
  unfold gcOrphanedGroups
  split
  · rfl
  · exact hcollect ..

theorem queue_populate (s : Loop) :
    (s.populate cfg t).queue = s.queue.run ((t.observations cfg).map TimedOp.op) := by
  simp only [populate, observeAll, Tick.observations, List.map_append, List.map_map, SyncQueue.run,
    List.foldl_append, List.foldl_map]
  rfl

/-- What a cycle does with the queue: it observes the listed routes, and then pops the head or leaves it. -/
def ops (cfg : Config) (c : Tick × Bool) : List TimedOp :=
  c.1.observations cfg ++ if c.2 then [.pop c.1.later] else []

theorem queue_cycle (b : Backend) (cfg : Config) (s : Loop) (t : Tick) :
    ∃ pops, (s.cycle b cfg t).queue = s.queue.run ((ops cfg (t, pops)).map TimedOp.op) := by
  have hbefore : (s.cycle b cfg t).queue = (s.beforeGC b cfg t).2.2.queue := by
    unfold cycle
    simp only
    split
    · rfl
    · exact queue_gcOrphanedGroups ..
  have hhead : (s.beforeGC b cfg t).2.2.queue =
      ((({ s with detector := s.detector.reset } : Loop).populate cfg t).processHead b cfg t
        (listedGroups cfg t)).2.2.queue := by
    unfold beforeGC
    simp only
    split <;> rfl
  rw [hbefore, hhead]
  rcases queue_processHead (b := b) (({ s with detector := s.detector.reset } : Loop).populate cfg t)
    (listedGroups cfg t) with h | h
  · refine ⟨false, h.trans ?_⟩
    rw [queue_populate, ops, if_neg Bool.false_ne_true, List.append_nil]
  · refine ⟨true, h.trans ?_⟩
    rw [queue_populate, ops, if_pos rfl, List.map_append, SyncQueue.run_append]
    rfl

/-- The queue of a controller has such a history. -/
theorem exists_queue_run (b : Backend) (cfg : Config) (w : World) (ticks : List Tick) :
    ∃ cycles : List (Tick × Bool), cycles.map Prod.fst = ticks ∧
      ((start b w).run b cfg ticks).queue = (WatchedQueue.run (cycles.flatMap (ops cfg))).queue := by
  induction ticks using List.reverseRecOn with
  | nil => exact ⟨[], rfl, rfl⟩
  | append_singleton ticks t ih =>
    obtain ⟨cycles, rfl, hcycles⟩ := ih
    obtain ⟨pops, hpops⟩ := queue_cycle b cfg ((start b w).run b cfg (cycles.map Prod.fst)) t
    refine ⟨cycles ++ [(t, pops)], List.map_append, ?_⟩
    rw [WatchedQueue.queue_run] at hcycles ⊢
    rw [List.flatMap_append, List.flatMap_singleton, List.map_append, SyncQueue.run_append, ← hcycles,
      ← hpops, run, List.foldl_concat]
    rfl

/-- After every run of cycles the queue is what its calls say. -/
theorem represents_run (b : Backend) (cfg : Config) (w : World) (ticks : List Tick) :
    ∃ cycles : List (Tick × Bool), cycles.map Prod.fst = ticks ∧
      Represents (SyncQueue.new.calls ((cycles.flatMap (ops cfg)).map TimedOp.op))
        ((start b w).run b cfg ticks).queue.queue := by
  obtain ⟨cycles, hticks, hqueue⟩ := exists_queue_run b cfg w ticks
  refine ⟨cycles, hticks, ?_⟩
  rw [hqueue, WatchedQueue.queue_run, SyncQueue.queue_run]
  exact ⟨Queue.keyed_run _, recorded_run _, Queue.items_run Queue.keyed_new _⟩

end Loop

end Vrata.Controller

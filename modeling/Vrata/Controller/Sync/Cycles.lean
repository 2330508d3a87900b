import Vrata.Controller.Reconciler.Invariants
import Vrata.Controller.Sync

/-!
# What a sync cycle does to Vrata

Between the operations of the reconciler a cycle only lists and looks after listeners (`Aside`).
`Evolves` is the closure of all that can happen in a cycle; `evolves_beforeGC` and
`evolves_gcOrphanedGroups` say which operations the two halves of a cycle ask for, so that an
invariant of the world and the log has to be checked against four kinds of changes only. `run_preserve`
carries an invariant of the world along a whole run.
-/

namespace Vrata.Controller

open Effect

/-! ## Requests that do not concern routes -/

/-- The request lists, or concerns listeners. -/
def Request.Aside : Request → Prop
  | .list _ => True
  | .create k _ => k = .listeners
  | .update k _ _ => k = .listeners
  | .delete k _ => k = .listeners

/-- From `w` to `w'` only listeners have changed. -/
structure Aside (w w' : World) : Prop where
  rows : ∀ k, k ≠ .listeners → w'.vrata.rows k = w.vrata.rows k
  books : w'.reconciler = w.reconciler
  issued : ∀ i ∈ w.vrata.issued, i ∈ w'.vrata.issued
  calls : ∃ calls, w'.trace = calls ++ w.trace ∧ ∀ c ∈ calls, c.request.Aside
  fine : w.Fine → w'.Fine

namespace Aside

theorem refl (w : World) : Aside w w :=
  ⟨fun _ _ => rfl, rfl, fun _ h => h, ⟨[], rfl, by simp⟩, fun h => h⟩

theorem trans {w w' w'' : World} (h : Aside w w') (h' : Aside w' w'') : Aside w w'' where
  rows k hk := (h'.rows k hk).trans (h.rows k hk)
  books := h'.books.trans h.books
  issued i hi := h'.issued i (h.issued i hi)
  calls := by
    obtain ⟨calls, htrace, hall⟩ := h.calls
    obtain ⟨calls', htrace', hall'⟩ := h'.calls
    refine ⟨calls' ++ calls, by rw [htrace', htrace, List.append_assoc], fun c hc => ?_⟩
    rcases List.mem_append.mp hc with hc | hc
    · exact hall' c hc
    · exact hall c hc
  fine hf := h'.fine (h.fine hf)

/-- A request that does not concern routes, with the tables it leaves. -/
theorem sent {w : World} {q : Request} {v : ControlPlane} (hq : q.Aside)
    (hrows : ∀ k, k ≠ .listeners → v.rows k = w.vrata.rows k)
    (hissued : ∀ i ∈ w.vrata.issued, i ∈ v.issued) : Aside w (w.sent q v) where
  rows := hrows
  books := rfl
  issued := hissued
  calls := ⟨[⟨q, w.outcome, w.vrata⟩], rfl, by simpa using hq⟩
  fine hf o ho := hf o (List.mem_of_mem_tail ho)

end Aside

section Requests

variable {b : Backend} {w₀ : World}

/-- What serving such a request leaves alone. -/
theorem serve_aside {q : Request} (hq : q.Aside) {v v' : ControlPlane} (h : Served v q v') :
    (∀ k, k ≠ .listeners → v'.rows k = v.rows k) ∧ ∀ i ∈ v.issued, i ∈ v'.issued := by
  cases h with
  | list k => exact ⟨fun _ _ => rfl, fun _ h => h⟩
  | create k x y =>
    obtain rfl : k = .listeners := hq
    exact ⟨fun _ hk => v.rows_save_of_ne hk _, fun _ h => List.mem_cons_of_mem _ h⟩
  | update k i x =>
    obtain rfl : k = .listeners := hq
    exact ⟨fun _ hk => v.rows_save_of_ne hk _, fun _ h => List.mem_cons_of_mem _ h⟩
  | delete k i =>
    obtain rfl : k = .listeners := hq
    exact ⟨fun _ hk => v.rows_erase_of_ne hk _, fun _ h => h⟩

theorem spec_aside {q : Request} (hq : q.Aside) : Keeps (Aside w₀) (call b q) := by
  refine keeps_call (fun w hw => hw.trans (.sent hq (fun _ _ => rfl) fun _ h => h)) ?_
  intro w v hw hserved
  obtain ⟨hrows, hissued⟩ := serve_aside hq hserved
  exact hw.trans (.sent hq hrows hissued)

theorem spec_aside_findByName (n : String) : Keeps (Aside w₀) (findByName b .listeners n) :=
  Keeps.bind (spec_aside trivial) fun _ => Keeps.pure _

theorem spec_aside_ownedNames (k : Resource) : Keeps (Aside w₀) (ownedNames b k) :=
  Keeps.bind (spec_aside trivial) fun _ => Keeps.pure _

theorem spec_aside_deleteListenerByName (n : String) :
    Keeps (Aside w₀) (deleteListenerByName b n) := by
  refine Keeps.bind (spec_during (spec_aside trivial)) fun listeners => ?_
  cases listeners.find? fun l => l.name = n with
  | none => exact Keeps.pure _
  | some l => exact Keeps.bind (spec_during (spec_aside rfl)) fun _ => Keeps.pure _

/-- Running a program to its end. -/
theorem attempt_cases {α : Type} {w : World} {p : Sync α} {Q : α → World → Prop}
    {E : World → Prop} (h : Spec (· = w) p Q E) :
    (∃ a w', w.attempt p = (.ok a, w') ∧ Q a w') ∨
      ∃ e w', w.attempt p = (.error e, w') ∧ E w' := by
  unfold World.attempt
  cases hp : p w with
  | ok a w' => exact Or.inl ⟨a, w', rfl, h.ok rfl hp⟩
  | error e w' => exact Or.inr ⟨e, w', rfl, h.error rfl hp⟩

theorem attempt_aside {α : Type} {w : World} {p : Sync α}
    (h : Keeps (Aside w) p) : Aside w (w.attempt p).2 := by
  rcases attempt_cases (h.start (.refl w)) with ⟨a, w', ha, hw'⟩ | ⟨e, w', he, hw'⟩
  · rwa [ha]
  · rwa [he]

theorem aside_syncListener (w : World) (l : Listener) : Aside w (syncListener b w l) := by
  have hfind : Aside w (w.attempt (findByName b .listeners l.name)).2 :=
    attempt_aside (spec_aside_findByName l.name)
  unfold syncListener
  rcases hp : w.attempt (findByName b .listeners l.name) with ⟨r, w'⟩
  rw [hp] at hfind
  rcases r with e | _ | i
  · exact hfind
  · exact hfind.trans (attempt_aside (spec_aside rfl))
  · exact hfind

theorem aside_collectListener (names : List String) (w : World) (n : String) :
    Aside w (collectListener b names w n) := by
  unfold collectListener
  split
  · exact .refl w
  · exact attempt_aside (spec_aside_deleteListenerByName n)

theorem aside_foldl {α : Type} {f : World → α → World} (hf : ∀ w a, Aside w (f w a)) (as : List α)
    (w : World) : Aside w (as.foldl f w) := by
  induction as generalizing w with
  | nil => exact .refl w
  | cons a as ih => exact (hf w a).trans (ih _)

theorem aside_syncAllGateways (cfg : Config) (t : Tick) (w : World) :
    Aside w (syncAllGateways b cfg t w) := by
  unfold syncAllGateways
  cases t.listGateways cfg with
  | none => exact .refl w
  | some gateways =>
    have hsync := aside_foldl (aside_syncListener (b := b)) (gateways.flatMap mapGateway) w
    have howned : Aside w (((gateways.flatMap mapGateway).foldl (syncListener b) w).attempt
        (ownedListenerNames b)).2 :=
      hsync.trans (attempt_aside (spec_during (spec_aside_ownedNames .listeners)))
    simp only
    rcases hp : ((gateways.flatMap mapGateway).foldl (syncListener b) w).attempt
      (ownedListenerNames b) with ⟨r, w'⟩
    rw [hp] at howned
    cases r with
    | error e => exact howned
    | ok names => exact howned.trans (aside_foldl (aside_collectListener _) _ _)

end Requests

/-! ## What happens in a cycle -/

theorem Loop.world_perform {b : Backend} (s : Loop) (op : Op) :
    (s.perform b op).2.world = s.world.after b op := by
  unfold perform World.attempt World.after
  cases op.program b s.world <;> rfl

/-- One thing that happens in a cycle, where the reconciler is only asked for operations in `P`. -/
inductive Evolve (b : Backend) (P : Op → Prop) : Loop → Loop → Prop where
  | performed (s : Loop) (op : Op) (h : P op) : Evolve b P s (s.perform b op).2
  | aside (s : Loop) (w : World) (h : Aside s.world w) : Evolve b P s { s with world := w }
  | noted (s : Loop) (e : Event) (h : ∀ op w r, e ≠ .performed op w r) :
      Evolve b P s { s with log := e :: s.log }
  | other (s : Loop) (q : SyncQueue) (d : Detector) :
      Evolve b P s { s with queue := q, detector := d }

abbrev Evolves (b : Backend) (P : Op → Prop) : Loop → Loop → Prop :=
  Relation.ReflTransGen (Evolve b P)

/-- What everything that happens preserves is an invariant. -/
theorem Evolves.preserve {b : Backend} {P : Op → Prop} {I : Loop → Prop}
    (hstep : ∀ s s', I s → Evolve b P s s' → I s') {s s' : Loop} (h : Evolves b P s s')
    (hs : I s) : I s' := by
  induction h with
  | refl => exact hs
  | tail _ hlast ih => exact hstep _ _ ih hlast

/-- The operations that reconciling routes can ask for. -/
def Tick.Applies (t : Tick) (op : Op) : Prop := ∃ o ∈ t.cluster.routes, op = .apply o.toInput

/-- The operations that garbage collection can ask for. -/
def Collects (v : ControlPlane) (desired : List String) (op : Op) : Prop :=
  ∃ g ∈ v.rows .groups, isOwned g.name = true ∧ g.name ∉ desired ∧
    ∃ ns name, parseGroupName g.name = some (ns, name) ∧ op = .delete ns name

namespace Loop

variable {b : Backend} {cfg : Config} {t : Tick} {s : Loop}

theorem evolves_check {P : Op → Prop} (s : Loop) (x : HTTPRouteInput) :
    Evolves b P s (s.check cfg x).2 := by
  unfold check
  split
  · exact .refl
  · exact .single (.other s s.queue _)

theorem evolves_reconcileInput {P : Op → Prop} (s : Loop) (ref : RouteRef) {x : HTTPRouteInput}
    (hx : P (.apply x)) : Evolves b P s (s.reconcileInput b cfg ref x).2 := by
  have hcheck : Evolves b P s (s.check cfg x).2 := evolves_check s x
  unfold reconcileInput
  rcases hp : s.check cfg x with ⟨ols, s'⟩
  rw [hp] at hcheck
  simp only
  split
  · exact hcheck.tail (.noted s' _ (by simp))
  · have hperform := hcheck.tail (.performed s' _ hx)
    rcases hq : s'.perform b (.apply x) with ⟨r, s''⟩
    rw [hq] at hperform
    cases r <;> exact hperform

theorem evolves_reconcileSingleRoute (s : Loop) (ref : RouteRef) :
    Evolves b t.Applies s (s.reconcileSingleRoute b cfg t ref).2 := by
  unfold reconcileSingleRoute
  cases hget : t.get cfg ref with
  | none => exact .refl
  | some o =>
    simp only
    split
    · exact .single (.noted s _ (by simp))
    · refine evolves_reconcileInput s ref ⟨o, ?_, rfl⟩
      unfold Tick.get at hget
      split at hget
      · exact (Cluster.has_of_find hget).1
      · cases hget

theorem evolves_reconcileMembers (members : List RouteRef) (desired : List String) (s : Loop) :
    Evolves b t.Applies s (members.foldl (reconcileMember b cfg t) (desired, s)).2 := by
  induction members generalizing desired s with
  | nil => exact .refl
  | cons ref members ih => exact (evolves_reconcileSingleRoute s ref).trans (ih _ _)

theorem evolves_pop {P : Op → Prop} (s : Loop) : Evolves b P s s.pop :=
  .single (.other s _ s.detector)

theorem evolves_processHead (s : Loop) (desired : List String) :
    Evolves b t.Applies s (s.processHead b cfg t desired).2.2 := by
  unfold processHead
  rcases s.queue.queue.head with _ | ref | p
  · exact .refl
  · exact (evolves_reconcileSingleRoute s ref).trans (evolves_pop _)
  · simp only
    cases s.queue.queue.groups[p]? with
    | none => exact .refl
    | some bg =>
      simp only
      split
      · exact .refl
      · split
        · exact evolves_pop s
        · exact (evolves_reconcileMembers bg.members desired s).trans (evolves_pop _)

/-- Before garbage collection, existing routes are applied. -/
theorem evolves_beforeGC (s : Loop) : Evolves b t.Applies s (s.beforeGC b cfg t).2.2 := by
  have hstart : Evolves b t.Applies s
      (({ s with detector := s.detector.reset } : Loop).populate cfg t) :=
    .single (.other s _ _)
  have hhead : Evolves b t.Applies s
      ((({ s with detector := s.detector.reset } : Loop).populate cfg t).processHead b cfg t
        (listedGroups cfg t)).2.2 := hstart.trans (evolves_processHead _ _)
  unfold beforeGC
  simp only
  split
  · exact hhead.tail (.aside _ _ (aside_syncAllGateways cfg t _))
  · exact hhead

theorem evolves_collectGroups {P : Op → Prop} {desired groups : List String} (s : Loop)
    (hP : ∀ g ∈ groups, g ∉ desired → ∀ ns name, parseGroupName g = some (ns, name) →
      P (.delete ns name)) : Evolves b P s (groups.foldl (collectGroup b desired) s) := by
  induction groups generalizing s with
  | nil => exact .refl
  | cons g groups ih =>
    have hone : Evolves b P s (s.collectGroup b desired g) := by
      unfold collectGroup
      split
      · exact .refl
      · rename_i hdesired
        cases hparse : parseGroupName g with
        | none => exact .refl
        | some p =>
          refine .single (.performed s _ (hP g List.mem_cons_self ?_ p.1 p.2 hparse))
          simpa using hdesired
    exact hone.trans (ih _ fun g' hg' => hP g' (List.mem_cons_of_mem _ hg'))

/-- The names garbage collection starts from. -/
theorem attempt_ownedGroupNames (b : Backend) (w : World) :
    (∃ w', w.attempt (ownedGroupNames b) =
        (.ok (((b.listing .groups (w.vrata.rows .groups)).map RouteGroup.name).filter isOwned), w') ∧
      Aside w w') ∨
    ∃ e w', w.attempt (ownedGroupNames b) = (.error e, w') ∧ Aside w w' ∧ ¬w.Fine := by
  have hsent : Aside w (w.sent (.list .groups) w.vrata) :=
    .sent trivial (fun _ _ => rfl) fun _ h => h
  have hlist : Spec (· = w) (call b (.list .groups))
      (fun rows w' => rows = b.listing .groups (w.vrata.rows .groups) ∧ Aside w w')
      (fun w' => Aside w w' ∧ ¬w.Fine) := by
    refine spec_call rfl (fun _ => ⟨rfl, hsent⟩) (fun h => ⟨hsent, fun hf => ?_⟩)
      (fun h => ⟨hsent, fun hf => ?_⟩) <;>
    · rw [hf.outcome] at h
      cases h
  have hnames : Spec (· = w) (ownedGroupNames b)
      (fun names w' => names = ((b.listing .groups (w.vrata.rows .groups)).map
        RouteGroup.name).filter isOwned ∧ Aside w w')
      (fun w' => Aside w w' ∧ ¬w.Fine) := by
    refine spec_during (Spec.bind hlist ?_)
    rintro _ w' ⟨rfl, haside⟩
    exact Spec.pure ⟨rfl, haside⟩
  rcases attempt_cases hnames with ⟨names, w', hp, rfl, haside⟩ | ⟨e, w', hp, haside, hfine⟩
  · exact Or.inl ⟨w', hp, haside⟩
  · exact Or.inr ⟨e, w', hp, haside, hfine⟩

theorem evolves_gcOrphanedGroups (s : Loop) (desired : List String) :
    Evolves b (Collects s.world.vrata desired) s (s.gcOrphanedGroups b desired) := by
  unfold gcOrphanedGroups
  rcases attempt_ownedGroupNames b s.world with ⟨w', hp, haside⟩ | ⟨e, w', hp, haside, -⟩
  · rw [hp]
    refine .trans (.single (.aside s w' haside)) (evolves_collectGroups _ ?_)
    intro g hg hdesired ns name hparse
    obtain ⟨hg, howned⟩ := List.mem_filter.mp hg
    obtain ⟨row, hrow, rfl⟩ := List.mem_map.mp hg
    exact ⟨row, mem_listing.mp hrow, howned, hdesired, ns, name, hparse, rfl⟩
  · rw [hp]
    exact .single (.aside s w' haside)

end Loop

/-! ## Whole runs -/

section Runs

variable {b : Backend} {cfg : Config}

/-- What operations keep, also when they stop early, and what does not concern listeners is kept
throughout. -/
theorem Loop.run_preserve {I : World → Prop} (hsteps : ∀ op w w', I w → Steps b op w w' → I w')
    (haside : ∀ w w', I w → Aside w w' → I w') {w : World} (hw : I w) (ticks : List Tick) :
    I ((start b w).run b cfg ticks).world := by
  have hafter (op : Op) (w : World) (hw : I w) : I (w.after b op) := hsteps op w _ hw (steps_after b w op)
  have hevolves {P : Op → Prop} {s s' : Loop} (h : Evolves b P s s') (hs : I s.world) : I s'.world := by
    refine h.preserve (I := fun s => I s.world) (fun s s' hs hone => ?_) hs
    cases hone with
    | performed op _ =>
      rw [world_perform]
      exact hafter op s.world hs
    | aside w hw => exact haside _ _ hs hw
    | noted | other => exact hs
  induction ticks using List.reverseRecOn with
  | nil => exact hafter .init w hw
  | append_singleton ticks t ih =>
    rw [run, List.foldl_concat, cycle]
    simp only
    split
    · exact hevolves (evolves_beforeGC _) ih
    · exact hevolves (evolves_gcOrphanedGroups _ _) (hevolves (evolves_beforeGC _) ih)

/-- Nothing is created under a name that is in use, even if the reply to an earlier request was lost. -/
theorem Loop.atMostOne_run {k : Resource} (hk : k ≠ .listeners) {n : String} {w : World}
    (h : AtMostOne k n w.vrata) (ticks : List Tick) :
    AtMostOne k n ((start b w).run b cfg ticks).world.vrata := by
  refine run_preserve (I := fun w => AtMostOne k n w.vrata) (fun _ _ _ => .steps) ?_ h ticks
  intro w w' hw haside
  rwa [AtMostOne, haside.rows k hk]

/-- The names of the routes and groups that an operation writes. -/
theorem owned_of_writes {op : Op} {v : ControlPlane} {k : Resource} (hk : k = .routes ∨ k = .groups)
    {x : k.Row} (h : op.Writes b v k x) : isOwned (k.name x) = true := by
  cases op with
  | init | delete => cases k <;> exact h.elim
  | apply y =>
    rcases hk with rfl | rfl
    · obtain ⟨-, mr, n, hpos, rfl⟩ := h
      exact isOwned_below (below_of_mem_routes hpos.mem)
    · obtain ⟨ids, rfl⟩ := h
      exact isOwned_groupName _ _

/-- A controller neither changes nor deletes the routes, groups and middlewares that are not its own. -/
theorem Loop.foreign_stays_run {k : Resource} (hk : k ≠ .destinations) (hl : k ≠ .listeners) {w : World}
    {y : k.Row} (hy : y ∈ w.vrata.rows k) (hforeign : isOwned (k.name y) = false) (ticks : List Tick) :
    y ∈ ((start b w).run b cfg ticks).world.vrata.rows k := by
  have hne {n : String} (hn : isOwned n = true) : k.name y ≠ n := fun h => by simp [h, hn] at hforeign
  refine run_preserve (I := fun w' => y ∈ w'.vrata.rows k) (fun op w w' hw hsteps => ?_) ?_ hy ticks
  · refine hsteps.row_stays hk (fun hk v x hx => hne (owned_of_writes hk hx)) hw ?_
    exact Bool.eq_false_iff.mpr fun hsel => hne (owned_of_selects hsel) rfl
  · exact fun w w' hw haside => by rwa [haside.rows k hl]

/-- A Vrata with one group, which is not owned. -/
def shopWorld : World := { World.start with vrata := ControlPlane.empty.save .groups ⟨"a", "shop", [], []⟩ }

/-- A route that takes everything is reconciled in the first cycle, and its group is collected in the second,
which does not find it any more. -/
def comingAndGoing : List Tick := [{ cluster := { httpRoutes := [webObject [{}]] } }, { cluster := {} }]

/-- The group is still there then, -/
theorem Loop.foreign_stays_shop : ⟨"a", "shop", [], []⟩ ∈
    ((start .plain shopWorld).run .plain {} comingAndGoing).world.vrata.rows .groups :=
  foreign_stays_run (by decide) (by decide) (.head _) (by decide) _

/-- and there once. -/
theorem Loop.atMostOne_shop :
    AtMostOne .groups "shop" ((start .plain shopWorld).run .plain {} comingAndGoing).world.vrata :=
  atMostOne_run (by decide)
    (fun g hg g' hg' _ _ => (List.mem_singleton.mp hg).trans (List.mem_singleton.mp hg').symm) _

end Runs

end Vrata.Controller

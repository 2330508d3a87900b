import Vrata.Controller.Sync.Cycles
import Vrata.Controller.Workqueue.LevelTriggered

/-!
# Garbage collection and existing routes

Reference: `clients/controller/cmd/controller/main.go` (`syncCycle`, `gcOrphanedGroups`).

Garbage collection deletes the groups that are not desired, and the desired groups are those of the
objects a cycle has listed, together with what the head of the queue adds. `GCSafe` says that no
entity of an existing HTTPRoute or SuperHTTPRoute is deleted, in whatever state the cycle starts and
whichever requests to Vrata fail. A listing that fails, or a kind or namespace that is not watched,
contributes nothing to the desired groups and does not keep garbage collection from running, so that
this is the case exactly when every existing route is among those listed (`gcSafe_iff`).
-/

namespace Vrata.Controller

/-! ## The property and the condition -/

/-- The owned groups are named after a namespace and a name. -/
def WellNamed (v : ControlPlane) : Prop :=
  ∀ g ∈ v.rows .groups, isOwned g.name = true →
    ∃ ns name, '/' ∉ ns.toList ∧ '/' ∉ name.toList ∧ g.name = groupName ns name

/-- An entity of this name belongs to the HTTPRoute. -/
def EntityOf (ns name : String) : Resource → String → Prop
  | .groups, n => n = groupName ns name
  | .routes, n => Text.hasPrefix n (groupName ns name ++ "/") = true
  | .middlewares, n => Text.hasPrefix n (groupName ns name ++ "/") = true
  | _, _ => False

/-- Whatever the state and whichever requests fail, garbage collection leaves the entities of existing
routes in place. -/
def GCSafe (cfg : Config) (t : Tick) : Prop :=
  ∀ (b : Backend) (s : Loop), WellNamed s.world.vrata → ∀ ns name, t.cluster.Has ns name →
    ∀ k, ∀ y ∈ (s.beforeGC b cfg t).2.2.world.vrata.rows k, EntityOf ns name k (k.name y) →
      y ∈ (s.cycle b cfg t).world.vrata.rows k

/-- Every existing route, or one of its namespace and name, is among those listed. -/
def Tick.Covers (t : Tick) (cfg : Config) : Prop :=
  ∀ o ∈ t.cluster.routes, ∃ o' ∈ t.httpRoutes cfg ++ t.superHTTPRoutes cfg,
    o'.namespace = o.namespace ∧ o'.name = o.name

/-! ## Group names -/

/-- A group name is parsed to what it was made from. -/
theorem parseGroupName_groupName {ns name : String} (h : '/' ∉ ns.toList) :
    parseGroupName (groupName ns name) = some (ns, name) := by
  have howned : Text.hasPrefix (groupName ns name) "k8s:" = true := isOwned_groupName ns name
  have hdrop : String.ofList ((groupName ns name).toList.drop 4) =
      ns ++ String.singleton '/' ++ name := by
    rw [toList_groupName, List.drop_left' (by decide), String.ofList_toList]
  rw [parseGroupName, if_pos howned, hdrop, Text.cut_append h]

/-- A name that belongs to one HTTPRoute is not selected when another is deleted. -/
theorem selects_delete_of_entityOf {ns ns' name name' n : String} {k : Resource}
    (hns : '/' ∉ ns.toList) (hns' : '/' ∉ ns'.toList) (hname : '/' ∉ name.toList)
    (hname' : '/' ∉ name'.toList) (hent : EntityOf ns name k n)
    (hne : ¬(ns = ns' ∧ name = name')) : (Op.delete ns' name').selects k n = false := by
  rw [Bool.eq_false_iff]
  intro hsel
  apply hne
  cases k with
  | groups =>
    obtain rfl : n = groupName ns name := hent
    exact groupName_injective hns hns' (by simpa [Op.selects] using hsel)
  | routes | middlewares =>
    simp only [Op.selects, isStale, Bool.and_eq_true] at hsel
    exact below_unique hns hns' hname hname' hent hsel.1.2
  | destinations => exact hent.elim
  | listeners => exact hent.elim

/-! ## Names stay well formed -/

section WellNamed

variable {b : Backend}

theorem WellNamed.congr {v v' : ControlPlane} (h : WellNamed v)
    (hrows : v'.rows .groups = v.rows .groups) : WellNamed v' := by
  unfold WellNamed
  rw [hrows]
  exact h

/-- Applying a route with a slash-free name writes a well-named group. -/
theorem WellNamed.steps {x : HTTPRouteInput} {w w' : World} (hns : '/' ∉ x.namespace.toList)
    (hname : '/' ∉ x.name.toList) (h : WellNamed w.vrata) (hsteps : Steps b (.apply x) w w') :
    WellNamed w'.vrata := by
  have hwritten : ∀ g : RouteGroup, ∀ v, (Op.apply x).Writes b v .groups g →
      g.name = groupName x.namespace x.name := by
    rintro _ _ ⟨ids, rfl⟩
    rfl
  refine hsteps.preserve (I := fun w => WellNamed w.vrata) ?_ h
  intro w₁ w₂ ih hstep
  cases hstep.rows .groups with
  | same hrows => exact ih.congr hrows
  | created g hg hnew hv =>
    intro y hy howned
    rw [hv] at hy
    rcases mem_save_newRow.mp hy with hy | rfl
    · exact ih y hy howned
    · exact ⟨_, _, hns, hname, hwritten g _ hg⟩
  | updated g z hk hg hz hzname hv =>
    intro y hy howned
    rw [hv] at hy
    rcases ControlPlane.mem_rows_save.mp hy with rfl | ⟨hy, _⟩
    · exact ⟨_, _, hns, hname, hwritten g _ hg⟩
    · exact ih y hy howned
  | removed z hz hsel hv =>
    intro y hy howned
    rw [hv] at hy
    exact ih y (ControlPlane.mem_rows_erase.mp hy).1 howned

theorem WellNamed.beforeGC {cfg : Config} {t : Tick} {s : Loop} (h : WellNamed s.world.vrata) :
    WellNamed (s.beforeGC b cfg t).2.2.world.vrata := by
  refine (Loop.evolves_beforeGC s).preserve (I := fun s => WellNamed s.world.vrata) ?_ h
  intro s₁ s₂ ih hstep
  cases hstep with
  | performed op hop =>
    obtain ⟨o, _, rfl⟩ := hop
    rw [Loop.world_perform]
    exact ih.steps o.slash_not_mem_namespace o.slash_not_mem_name (steps_after b _ _)
  | aside w hw => exact ih.congr (hw.rows .groups (by simp))
  | noted e he => exact ih
  | other q d => exact ih

end WellNamed

/-! ## The condition suffices -/

section Sufficient

variable {b : Backend} {cfg : Config} {t : Tick}

/-- Reconciling only adds to the groups to keep. -/
theorem Loop.mem_desired_of_listed {s : Loop} {g : String} (h : g ∈ listedGroups cfg t) :
    g ∈ (s.beforeGC b cfg t).1 := by
  have hmembers : ∀ (members : List RouteRef) (acc : List String × Loop), g ∈ acc.1 →
      g ∈ (members.foldl (reconcileMember b cfg t) acc).1 := by
    intro members
    induction members with
    | nil => exact fun _ h => h
    | cons ref members ih =>
      intro acc hacc
      refine ih _ ?_
      simp only [reconcileMember]
      split
      · exact List.mem_cons_of_mem _ hacc
      · exact hacc
  have hhead : ∀ s : Loop, g ∈ (s.processHead b cfg t (listedGroups cfg t)).1 := by
    intro s
    unfold processHead
    rcases s.queue.queue.head with _ | ref | p
    · exact h
    · simp only
      split
      · exact List.mem_cons_of_mem _ h
      · exact h
    · simp only
      cases s.queue.queue.groups[p]? with
      | none => exact h
      | some bg =>
        simp only
        split
        · exact h
        · split
          · exact h
          · exact hmembers bg.members (listedGroups cfg t, s) h
  exact hhead _

theorem Tick.Covers.gcSafe (hcovers : t.Covers cfg) : GCSafe cfg t := by
  intro b s hwell ns name hhas k y hy hent
  obtain ⟨o, ho, rfl, rfl⟩ := hhas
  unfold Loop.cycle
  rcases hbefore : s.beforeGC b cfg t with ⟨desired, blocking, s₁⟩
  have hwell₁ : WellNamed s₁.world.vrata := by
    have : WellNamed (s.beforeGC b cfg t).2.2.world.vrata := hwell.beforeGC
    rwa [hbefore] at this
  rw [hbefore] at hy
  simp only
  split
  · exact hy
  -- the group of the existing route is desired, so that no other one selects its entities
  have hdesired : groupName o.namespace o.name ∈ desired := by
    obtain ⟨o', ho', hns, hname⟩ := hcovers o ho
    have hlisted : groupName o.namespace o.name ∈ Loop.listedGroups cfg t :=
      List.mem_map.mpr ⟨o', ho', by rw [hns, hname]⟩
    have : groupName o.namespace o.name ∈ (s.beforeGC b cfg t).1 :=
      Loop.mem_desired_of_listed hlisted
    rwa [hbefore] at this
  have hk : k ≠ .destinations ∧ k ≠ .listeners := by
    constructor <;> rintro rfl <;> exact hent.elim
  refine (Loop.evolves_gcOrphanedGroups s₁ desired).preserve
    (I := fun s => y ∈ s.world.vrata.rows k) ?_ hy
  intro s₂ s₃ hmem hstep
  cases hstep with
  | performed op hop =>
    obtain ⟨g, hg, howned, hnot, ns', name', hparse, rfl⟩ := hop
    obtain ⟨ns, name, hns, hname, hgname⟩ := hwell₁ g hg howned
    rw [hgname, parseGroupName_groupName hns] at hparse
    obtain ⟨rfl, rfl⟩ : ns = ns' ∧ name = name' := by simpa using hparse
    rw [Loop.world_perform]
    refine (steps_after b s₂.world (.delete ns name)).row_stays hk.1 ?_ hmem ?_
    · rintro _ v x hx
      cases k <;> exact hx.elim
    · refine selects_delete_of_entityOf o.slash_not_mem_namespace hns o.slash_not_mem_name hname
        hent ?_
      rintro ⟨rfl, rfl⟩
      exact hnot (hgname ▸ hdesired)
  | aside w hw => rwa [hw.rows k hk.2]
  | noted e he => exact hmem
  | other q d => exact hmem

end Sufficient

/-! ## The condition is necessary -/

/-- A group with nothing in it. -/
def bareGroup (n : String) : RouteGroup := { id := "g", name := n, routeIDs := [], hostnames := [] }

/-- A controller that has yet to process a reference to nothing, and a Vrata with one group. -/
def Loop.holding (n : String) : Loop where
  world := ⟨ControlPlane.empty.save .groups (bareGroup n), .new, [], []⟩
  queue := ⟨⟨[.single ⟨"/", "/", false⟩], fun _ => none, []⟩, fun _ => false⟩
  detector := .empty
  log := []

section Necessary

variable {b : Backend} {cfg : Config} {t : Tick} {n : String}

theorem rows_holding : (Loop.holding n).world.vrata.rows .groups = [bareGroup n] := by
  show (ControlPlane.empty.save .groups (bareGroup n)).rows .groups = _
  rw [ControlPlane.rows_save_of_fresh (by simp [ControlPlane.empty])]
  rfl

/-- Populating the queue does not change its head. -/
theorem Loop.head_populate {s : Loop} {item : Item} {rest : List Item}
    (h : s.queue.queue.items = item :: rest) :
    (s.populate cfg t).queue.queue.head = some item := by
  have hall : ∀ (super : Bool) (objects : List RouteObject) (s : Loop),
      (∃ rest, s.queue.queue.items = item :: rest) →
      ∃ rest, (s.observeAll super t.now objects).queue.queue.items = item :: rest := by
    intro super objects
    induction objects with
    | nil => exact fun _ h => h
    | cons o objects ih =>
      rintro s ⟨rest, hrest⟩
      obtain ⟨extra, hextra⟩ := s.queue.items_observe (o.ref super) o.annotations t.now
      refine ih { s with queue := s.queue.observe (o.ref super) o.annotations t.now }
        ⟨rest ++ extra, ?_⟩
      rw [hextra, hrest, List.cons_append]
  obtain ⟨rest', hrest'⟩ := hall true (t.superHTTPRoutes cfg) _
    (hall false (t.httpRoutes cfg) s ⟨rest, h⟩)
  rw [Queue.head, populate, hrest']
  rfl

/-- There is no object with a slash in its name. -/
theorem Tick.get_slash : t.get cfg ⟨"/", "/", false⟩ = none := by
  unfold Tick.get Cluster.find
  split
  · rw [List.find?_eq_none]
    intro o _ hname
    have hslash := o.slash_not_mem_name
    simp only [decide_eq_true_eq] at hname
    rw [hname.2] at hslash
    exact hslash (by decide)
  · rfl

/-- Before garbage collection nothing happens to that group, and no other group is desired than those
listed. -/
theorem Loop.beforeGC_holding : ∃ s, (Loop.holding n).beforeGC b cfg t = (listedGroups cfg t, false, s) ∧
    Aside (Loop.holding n).world s.world := by
  have hhead : ((({ holding n with detector := (holding n).detector.reset } : Loop).populate
      cfg t).processHead b cfg t (listedGroups cfg t)) = (listedGroups cfg t, false,
        (({ holding n with detector := (holding n).detector.reset } : Loop).populate cfg t).pop) := by
    unfold processHead
    rw [head_populate rfl]
    simp only [reconcileSingleRoute, Tick.get_slash]
    rfl
  unfold beforeGC
  simp only [hhead]
  refine ⟨_, rfl, ?_⟩
  split
  · exact aside_syncAllGateways cfg t _
  · exact .refl _

/-- A group that is not desired is gone after garbage collection without failures. -/
theorem Loop.not_mem_gcOrphanedGroups {s : Loop} {ns name : String} {desired : List String}
    {g : RouteGroup} (hrows : s.world.vrata.rows .groups = [g]) (hg : g.name = groupName ns name)
    (hns : '/' ∉ ns.toList) (hdesired : groupName ns name ∉ desired) (hfine : s.world.Fine) :
    g ∉ (s.gcOrphanedGroups b desired).world.vrata.rows .groups := by
  have howned : isOwned g.name = true := hg ▸ isOwned_groupName ns name
  have hlisting : b.listing .groups [g] = [g] := (b.listing_perm .groups [g]).eq_singleton
  unfold gcOrphanedGroups
  rcases attempt_ownedGroupNames b s.world with ⟨w', hp, haside⟩ | ⟨_, _, _, _, hnot⟩
  · rw [hrows, hlisting, List.map_singleton, List.filter_cons_of_pos howned, List.filter_nil] at hp
    have hcollect : ({ s with world := w' } : Loop).collectGroup b desired g.name =
        (({ s with world := w' } : Loop).perform b (.delete ns name)).2 := by
      rw [collectGroup, if_neg (by simpa [hg] using hdesired), hg, parseGroupName_groupName hns]
    rw [hp]
    simp only [List.foldl_cons, List.foldl_nil]
    rw [hcollect, world_perform]
    obtain ⟨_, ⟨trail⟩⟩ := delete_ok b ns name (haside.fine hfine)
    intro hmem
    exact ((trail.mem_groups g).mp hmem).2 hg
  · exact absurd hfine hnot

theorem GCSafe.covers (h : GCSafe cfg t) : t.Covers cfg := by
  by_contra hnot
  simp only [Tick.Covers, not_forall, not_exists, not_and] at hnot
  obtain ⟨o, ho, hnot⟩ := hnot
  have hunlisted : groupName o.namespace o.name ∉ Loop.listedGroups cfg t := by
    intro hmem
    obtain ⟨o', ho', heq⟩ := List.mem_map.mp hmem
    obtain ⟨hns, hname⟩ := groupName_injective o'.slash_not_mem_namespace
      o.slash_not_mem_namespace heq
    exact hnot o' ho' hns hname
  have hwell : WellNamed (Loop.holding (groupName o.namespace o.name)).world.vrata := by
    intro g hg _
    rw [rows_holding, List.mem_singleton] at hg
    exact ⟨_, _, o.slash_not_mem_namespace, o.slash_not_mem_name, hg ▸ rfl⟩
  obtain ⟨s, hbefore, haside⟩ : ∃ s, (Loop.holding (groupName o.namespace o.name)).beforeGC .plain
      cfg t = (Loop.listedGroups cfg t, false, s) ∧ Aside _ s.world := Loop.beforeGC_holding
  have hrows : s.world.vrata.rows .groups = [bareGroup (groupName o.namespace o.name)] :=
    (haside.rows .groups (by simp)).trans rows_holding
  have hstays := h .plain _ hwell o.namespace o.name ⟨o, ho, rfl, rfl⟩ .groups
    (bareGroup (groupName o.namespace o.name)) (by rw [hbefore, hrows]; exact List.mem_cons_self) rfl
  unfold Loop.cycle at hstays
  rw [hbefore] at hstays
  exact Loop.not_mem_gcOrphanedGroups hrows rfl o.slash_not_mem_namespace hunlisted
    (haside.fine (by simp [World.Fine, Loop.holding])) hstays

end Necessary

/-- Garbage collection spares existing routes in exactly the cycles that list all of them. -/
theorem gcSafe_iff (cfg : Config) (t : Tick) : GCSafe cfg t ↔ t.Covers cfg :=
  ⟨GCSafe.covers, Tick.Covers.gcSafe⟩

/-! ## A listing that fails -/

/-- An HTTPRoute without rules is applied in a first cycle; in the second its kind cannot be listed, and
its group is deleted although it still exists. -/
theorem live_group_deleted :
    let s := (Loop.start .plain .start).run .plain {} [{ cluster := { httpRoutes := [webObject []] } }]
    let t : Tick := { cluster := { httpRoutes := [webObject []] }, listsHTTPRoutes := false }
    t.cluster.Has "default" "web" ∧
      (((s.beforeGC .plain {} t).2.2.world.vrata.rows .groups).map RouteGroup.name =
        [groupName "default" "web"]) ∧
      (s.cycle .plain {} t).world.vrata.rows .groups = [] := by
  decide +kernel

end Vrata.Controller

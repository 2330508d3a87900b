import Mathlib.Algebra.Order.BigOperators.Group.Finset
import Vrata.Controller.Reconciler.Trails
import Vrata.Controller.Reconciler.Written

/-!
# Destinations are deleted only when nothing refers to them

Reference: `clients/controller/internal/reconciler/reconciler.go`.

`RefSafe` says of a run that every request to delete a destination found no owned route referring
to it, and that at all times every reference of an owned route led to a stored destination. The
reconciler means to keep it with its books: `routeDestMap` names the destinations of every owned
route, and `refCount` counts the routes of every destination. `Accounted` is that relation.

Only the creation of a route is booked, under the destinations of the whole HTTPRoute. A route that
is updated to other backends keeps its old entry, and a created route whose reply is lost has none,
so that the counts may miss references. `refSafe_of_bookedRun` shows that these are the only ways in
which the books go wrong, once they have been set up by `Init`.
-/

namespace Vrata.Controller

/-! ## Safety of references -/

/-- Every reference of an owned route leads to a stored destination. -/
def Resolved (v : ControlPlane) : Prop :=
  ∀ r ∈ v.rows .routes, isOwned r.name = true → ∀ i ∈ r.destinationIDs,
    ∃ d ∈ v.rows .destinations, d.id = i

/-- If the call deletes a destination, no owned route refers to it. -/
def Call.Spares (c : Call) : Prop :=
  ∀ i, c.request = .delete .destinations i → c.outcome ≠ .failed →
    ∀ r ∈ c.found.rows .routes, isOwned r.name = true → i ∉ r.destinationIDs

/-- Throughout the run no destination in use was deleted and all references were resolved. -/
structure RefSafe (w : World) : Prop where
  spares : ∀ c ∈ w.trace, c.Spares
  always : ∀ c ∈ w.trace, Resolved c.found
  resolved : Resolved w.vrata

/-! ## The books -/

/-- The names of the owned routes. -/
def ownedRoutes (v : ControlPlane) : Finset String :=
  (((v.rows .routes).map Route.name).filter isOwned).toFinset

theorem mem_ownedRoutes {v : ControlPlane} {n : String} :
    n ∈ ownedRoutes v ↔ isOwned n = true ∧ ∃ r ∈ v.rows .routes, r.name = n := by
  simp only [ownedRoutes, List.mem_toFinset, List.mem_filter, List.mem_map]
  exact and_comm

theorem ownedRoutes_congr {v v' : ControlPlane} (h : v'.rows .routes = v.rows .routes) :
    ownedRoutes v' = ownedRoutes v := by
  rw [ownedRoutes, ownedRoutes, h]

/-- Owned routes have different names, the entry of a route names all destinations it refers to, and
the counts cover all entries. -/
structure Accounted (v : ControlPlane) (rc : Reconciler) : Prop where
  distinct : ∀ r ∈ v.rows .routes, ∀ r' ∈ v.rows .routes, isOwned r.name = true →
    r.name = r'.name → r = r'
  covered : ∀ r ∈ v.rows .routes, isOwned r.name = true → ∀ i ∈ r.destinationIDs,
    ∃ d ∈ v.rows .destinations, d.id = i ∧ d.name ∈ rc.routeDestMap r.name
  counted : ∀ dn, ∑ n ∈ ownedRoutes v, (rc.routeDestMap n).count dn ≤ rc.refCount dn

namespace Accounted

variable {b : Backend} {v v' : ControlPlane} {rc : Reconciler}

theorem resolved (h : Accounted v rc) : Resolved v := by
  intro r hr howned i hi
  obtain ⟨d, hd, hid, _⟩ := h.covered r hr howned i hi
  exact ⟨d, hd, hid⟩

/-- A destination that an owned route refers to is counted. -/
theorem refCount_pos (h : Accounted v rc) {r : Route} (hr : r ∈ v.rows .routes)
    (howned : isOwned r.name = true) {d : Destination} (hd : d ∈ v.rows .destinations)
    (hi : d.id ∈ r.destinationIDs) : 0 < rc.refCount d.name := by
  obtain ⟨d', hd', hid, hname⟩ := h.covered r hr howned _ hi
  obtain rfl : d' = d := v.eq_of_id_eq (k := .destinations) hd' hd hid
  have hmem : r.name ∈ ownedRoutes v := mem_ownedRoutes.mpr ⟨howned, r, hr, rfl⟩
  calc 0 < (rc.routeDestMap r.name).count d'.name := List.count_pos_iff.mpr hname
    _ ≤ ∑ n ∈ ownedRoutes v, (rc.routeDestMap n).count d'.name :=
      Finset.single_le_sum (f := fun n => (rc.routeDestMap n).count d'.name)
        (fun _ _ => Nat.zero_le _) hmem
    _ ≤ rc.refCount d'.name := h.counted _

/-- Only routes matter, as long as no destination in use goes. -/
theorem congr (h : Accounted v rc) (hroutes : v'.rows .routes = v.rows .routes)
    (hdests : ∀ d ∈ v.rows .destinations, 0 < rc.refCount d.name →
      d ∈ v'.rows .destinations) : Accounted v' rc where
  distinct := hroutes ▸ h.distinct
  covered := by
    intro r hr howned i hi
    rw [hroutes] at hr
    obtain ⟨d, hd, rfl, hname⟩ := h.covered r hr howned i hi
    exact ⟨d, hdests d hd (h.refCount_pos hr howned hd hi), rfl, hname⟩
  counted := by
    rw [ownedRoutes_congr hroutes]
    exact h.counted

/-- A created route is accounted for once it is recorded. -/
theorem save_new (h : Accounted v rc) {r : Route} {destNames : List String}
    (hnew : ∀ y ∈ v.rows .routes, y.name ≠ r.name) (howned : isOwned r.name = true)
    (hrefs : ∀ i ∈ r.destinationIDs, ∃ d ∈ v.rows .destinations, d.id = i ∧ d.name ∈ destNames) :
    Accounted (v.save .routes (newRow b v .routes r)) (rc.record r.name destNames) := by
  have hdests : (v.save .routes (newRow b v .routes r)).rows .destinations =
      v.rows .destinations := v.rows_save_of_ne (by simp) _
  have hmem : ∀ y : Route, y ∈ (v.save .routes (newRow b v .routes r)).rows .routes ↔
      y ∈ v.rows .routes ∨ y = newRow b v .routes r := fun _ => mem_save_newRow
  have hname : (newRow b v .routes r).name = r.name := rfl
  have hnames : ownedRoutes (v.save .routes (newRow b v .routes r)) =
      insert r.name (ownedRoutes v) := by
    ext n
    rw [mem_ownedRoutes, Finset.mem_insert, mem_ownedRoutes]
    constructor
    · rintro ⟨hn, y, hy, rfl⟩
      rcases (hmem y).mp hy with hy | rfl
      · exact Or.inr ⟨hn, y, hy, rfl⟩
      · exact Or.inl rfl
    · rintro (rfl | ⟨hn, y, hy, rfl⟩)
      · exact ⟨howned, _, (hmem _).mpr (Or.inr rfl), rfl⟩
      · exact ⟨hn, y, (hmem y).mpr (Or.inl hy), rfl⟩
  have hfresh : r.name ∉ ownedRoutes v := by
    rw [mem_ownedRoutes]
    rintro ⟨_, y, hy, hy_name⟩
    exact hnew y hy hy_name
  constructor
  · intro y hy y' hy' hy_owned hyy
    rcases (hmem y).mp hy with hy | rfl <;> rcases (hmem y').mp hy' with hy' | rfl
    · exact h.distinct y hy y' hy' hy_owned hyy
    · exact absurd hyy (hnew y hy)
    · exact absurd hyy.symm (hnew y' hy')
    · rfl
  · intro y hy hy_owned i hi
    rw [hdests, Reconciler.routeDestMap_record]
    rcases (hmem y).mp hy with hy | rfl
    · rw [if_neg (hnew y hy)]
      exact h.covered y hy hy_owned i hi
    · rw [if_pos hname]
      exact hrefs i hi
  · intro dn
    rw [hnames, Finset.sum_insert hfresh, Reconciler.refCount_record,
      Reconciler.routeDestMap_record, if_pos rfl, Nat.add_comm]
    refine Nat.add_le_add_right (le_trans (le_of_eq ?_) (h.counted dn)) _
    refine Finset.sum_congr rfl fun n hn => ?_
    have hne : n ≠ r.name := fun hnr => hfresh (hnr ▸ hn)
    rw [Reconciler.routeDestMap_record, if_neg hne]

/-- A route may be overwritten if its entry names the destinations it refers to from now on. -/
theorem save_old (h : Accounted v rc) {r y : Route} (hy : y ∈ v.rows .routes)
    (hname : y.name = r.name)
    (hrefs : ∀ i ∈ r.destinationIDs, ∃ d ∈ v.rows .destinations,
      d.id = i ∧ d.name ∈ rc.routeDestMap r.name) :
    Accounted (v.save .routes (Resource.routes.withID y.id r)) rc := by
  have hdests : (v.save .routes (Resource.routes.withID y.id r)).rows .destinations =
      v.rows .destinations := v.rows_save_of_ne (by simp) _
  have hmem : ∀ z : Route, z ∈ (v.save .routes (Resource.routes.withID y.id r)).rows .routes ↔
      z = { r with id := y.id } ∨ z ∈ v.rows .routes ∧ z.id ≠ y.id :=
    fun _ => ControlPlane.mem_rows_save
  have hnames : ownedRoutes (v.save .routes (Resource.routes.withID y.id r)) = ownedRoutes v := by
    ext n
    rw [mem_ownedRoutes, mem_ownedRoutes]
    refine and_congr_right fun _ => ⟨?_, ?_⟩
    · rintro ⟨z, hz, rfl⟩
      rcases (hmem z).mp hz with rfl | ⟨hz, _⟩
      · exact ⟨y, hy, hname⟩
      · exact ⟨z, hz, rfl⟩
    · rintro ⟨z, hz, rfl⟩
      by_cases hid : z.id = y.id
      · obtain rfl : z = y := v.eq_of_id_eq (k := .routes) hz hy hid
        exact ⟨_, (hmem _).mpr (Or.inl rfl), hname.symm⟩
      · exact ⟨z, (hmem z).mpr (Or.inr ⟨hz, hid⟩), rfl⟩
  constructor
  · intro z hz z' hz' hz_owned hzz
    rcases (hmem z).mp hz with rfl | ⟨hz, hid⟩ <;> rcases (hmem z').mp hz' with rfl | ⟨hz', hid'⟩
    · rfl
    · -- the overwritten row had this name
      have hyz : y = z' := h.distinct y hy z' hz' (by rwa [hname]) (hname.trans hzz)
      exact absurd (congrArg Route.id hyz).symm hid'
    · have hyz : z = y := h.distinct z hz y hy hz_owned (hzz.trans hname.symm)
      exact absurd (congrArg Route.id hyz) hid
    · exact h.distinct z hz z' hz' hz_owned hzz
  · intro z hz hz_owned i hi
    rw [hdests]
    rcases (hmem z).mp hz with rfl | ⟨hz, _⟩
    · exact hrefs i hi
    · exact h.covered z hz hz_owned i hi
  · rw [hnames]
    exact h.counted

/-- A deleted route may be forgotten. -/
theorem erase_route (h : Accounted v rc) {y : Route} (hy : y ∈ v.rows .routes)
    (howned : isOwned y.name = true) :
    Accounted (v.erase .routes y.id) (rc.forget y.name) := by
  have hdests : (v.erase .routes y.id).rows .destinations = v.rows .destinations :=
    v.rows_erase_of_ne (by simp) _
  have hmem : ∀ z : Route, z ∈ (v.erase .routes y.id).rows .routes ↔
      z ∈ v.rows .routes ∧ z.id ≠ y.id := fun _ => ControlPlane.mem_rows_erase
  have hother : ∀ z ∈ v.rows .routes, z.id ≠ y.id → z.name ≠ y.name := fun z hz hid heq =>
    hid (congrArg Route.id (h.distinct y hy z hz howned heq.symm).symm)
  have hnames : ownedRoutes (v.erase .routes y.id) = (ownedRoutes v).erase y.name := by
    ext n
    rw [mem_ownedRoutes, Finset.mem_erase, mem_ownedRoutes]
    constructor
    · rintro ⟨hn, z, hz, rfl⟩
      obtain ⟨hz, hid⟩ := (hmem z).mp hz
      exact ⟨hother z hz hid, hn, z, hz, rfl⟩
    · rintro ⟨hne, hn, z, hz, rfl⟩
      refine ⟨hn, z, (hmem z).mpr ⟨hz, fun hid => hne ?_⟩, rfl⟩
      rw [v.eq_of_id_eq (k := .routes) hz hy hid]
  constructor
  · intro z hz z' hz' hz_owned hzz
    exact h.distinct z ((hmem z).mp hz).1 z' ((hmem z').mp hz').1 hz_owned hzz
  · intro z hz hz_owned i hi
    obtain ⟨hz, hid⟩ := (hmem z).mp hz
    rw [hdests, Reconciler.routeDestMap_forget, if_neg (hother z hz hid)]
    exact h.covered z hz hz_owned i hi
  · intro dn
    have hsum := Finset.add_sum_erase (ownedRoutes v) (fun n => (rc.routeDestMap n).count dn)
      (mem_ownedRoutes.mpr ⟨howned, y, hy, rfl⟩)
    have hle := h.counted dn
    have hsame : ∑ n ∈ (ownedRoutes v).erase y.name, ((rc.forget y.name).routeDestMap n).count dn =
        ∑ n ∈ (ownedRoutes v).erase y.name, (rc.routeDestMap n).count dn := by
      refine Finset.sum_congr rfl fun n hn => ?_
      rw [Reconciler.routeDestMap_forget, if_neg (Finset.ne_of_mem_erase hn)]
    rw [hnames, hsame, Reconciler.refCount_forget]
    omega

/-- A deleted route may also stay in the books. -/
theorem erase_route_booked (h : Accounted v rc) (i : String) :
    Accounted (v.erase .routes i) rc := by
  have hdests : (v.erase .routes i).rows .destinations = v.rows .destinations :=
    v.rows_erase_of_ne (by simp) _
  have hsub : ∀ z : Route, z ∈ (v.erase .routes i).rows .routes → z ∈ v.rows .routes :=
    fun z hz => (ControlPlane.mem_rows_erase.mp hz).1
  constructor
  · intro z hz z' hz'
    exact h.distinct z (hsub z hz) z' (hsub z' hz')
  · intro z hz
    rw [hdests]
    exact h.covered z (hsub z hz)
  · intro dn
    refine le_trans (Finset.sum_le_sum_of_subset ?_) (h.counted dn)
    intro n hn
    obtain ⟨howned, z, hz, hname⟩ := mem_ownedRoutes.mp hn
    exact mem_ownedRoutes.mpr ⟨howned, z, hsub z hz, hname⟩

end Accounted

/-! ## Rebuilding the books -/

/-- The names of the destinations that a route refers to. -/
def referenced (dests : List Destination) (r : Route) : List String :=
  r.destinationIDs.filterMap (idToName dests)

/-- The entries and counts that `Init` computes, for routes with different names. -/
theorem rebuild_spec (dests : List Destination) {routes : List Route} (hnodup : routes.Nodup)
    (hdistinct : ∀ r ∈ routes, ∀ r' ∈ routes, isOwned r.name = true → r.name = r'.name → r = r') :
    (∀ r ∈ routes, isOwned r.name = true →
      (rebuild routes dests).routeDestMap r.name = referenced dests r) ∧
    ∀ dn, ∑ n ∈ ((routes.map Route.name).filter isOwned).toFinset,
      ((rebuild routes dests).routeDestMap n).count dn = (rebuild routes dests).refCount dn := by
  induction routes using List.reverseRecOn with
  | nil => simp [rebuild, Reconciler.new]
  | append_singleton done r ih =>
    rw [List.nodup_append] at hnodup
    obtain ⟨ih_entry, ih_sum⟩ := ih hnodup.1 fun y hy y' hy' =>
      hdistinct y (List.mem_append_left _ hy) y' (List.mem_append_left _ hy')
    have hstep : rebuild (done ++ [r]) dests =
        if isOwned r.name then (rebuild done dests).record r.name (referenced dests r)
        else rebuild done dests := by
      simp [rebuild, referenced]
    rw [hstep, List.map_append, List.filter_append, List.map_singleton, List.filter_singleton]
    by_cases howned : isOwned r.name = true
    · have hfresh : ∀ y ∈ done, y.name ≠ r.name := fun y hy hname =>
        hnodup.2.2 y hy r (List.mem_singleton_self r)
          (hdistinct r (by simp) y (by simp [hy]) howned hname.symm).symm
      have hnot : r.name ∉ ((done.map Route.name).filter isOwned).toFinset := by
        simp only [List.mem_toFinset, List.mem_filter, List.mem_map, not_and]
        rintro ⟨y, hy, hname⟩
        exact absurd hname (hfresh y hy)
      simp only [howned, if_true, cond_true]
      constructor
      · intro y hy hy_owned
        rw [Reconciler.routeDestMap_record]
        rcases List.mem_append.mp hy with hy | hy
        · rw [if_neg (hfresh y hy)]
          exact ih_entry y hy hy_owned
        · rw [List.mem_singleton.mp hy, if_pos rfl]
      · intro dn
        have hsame : ∑ n ∈ ((done.map Route.name).filter isOwned).toFinset,
            (((rebuild done dests).record r.name (referenced dests r)).routeDestMap n).count dn =
            ∑ n ∈ ((done.map Route.name).filter isOwned).toFinset,
              ((rebuild done dests).routeDestMap n).count dn := by
          refine Finset.sum_congr rfl fun n hn => ?_
          have hne : n ≠ r.name := fun heq => hnot (heq ▸ hn)
          rw [Reconciler.routeDestMap_record, if_neg hne]
        rw [List.toFinset_append, List.toFinset_cons, List.toFinset_nil, insert_empty_eq,
          Finset.union_comm, ← Finset.insert_eq, Finset.sum_insert hnot, hsame, ih_sum,
          Reconciler.routeDestMap_record, if_pos rfl, Reconciler.refCount_record, Nat.add_comm]
    · simp only [howned, Bool.false_eq_true, if_false, cond_false, List.append_nil]
      refine ⟨fun y hy hy_owned => ?_, ih_sum⟩
      rcases List.mem_append.mp hy with hy | hy
      · exact ih_entry y hy hy_owned
      · exact absurd (List.mem_singleton.mp hy ▸ hy_owned) howned

theorem idToName_listing {b : Backend} {v : ControlPlane} {d : Destination}
    (hd : d ∈ v.rows .destinations) :
    idToName (b.listing .destinations (v.rows .destinations)) d.id = some d.name := by
  rw [idToName]
  cases hfind : (b.listing .destinations (v.rows .destinations)).reverse.find?
      (fun d' => d'.id = d.id) with
  | none =>
    rw [List.find?_eq_none] at hfind
    have hmem : d ∈ (b.listing .destinations (v.rows .destinations)).reverse :=
      List.mem_reverse.mpr (mem_listing.mpr hd)
    simpa using hfind d hmem
  | some d' =>
    have hid : d'.id = d.id := by simpa using List.find?_some hfind
    have hd' := mem_listing.mp (List.mem_reverse.mp (List.mem_of_find?_eq_some hfind))
    rw [v.eq_of_id_eq (k := .destinations) hd' hd hid]
    rfl

/-- After `Init` everything is accounted for. -/
theorem accounted_rebuild {b : Backend} {v : ControlPlane}
    (hdistinct : ∀ r ∈ v.rows .routes, ∀ r' ∈ v.rows .routes, isOwned r.name = true →
      r.name = r'.name → r = r') (hresolved : Resolved v) :
    Accounted v (rebuild (b.listing .routes (v.rows .routes))
      (b.listing .destinations (v.rows .destinations))) := by
  have hmem : ∀ r : Route, r ∈ b.listing .routes (v.rows .routes) ↔ r ∈ v.rows .routes :=
    fun _ => mem_listing
  obtain ⟨hentry, hsum⟩ := rebuild_spec (b.listing .destinations (v.rows .destinations))
    (nodup_listing (b := b) v .routes) fun r hr r' hr' =>
      hdistinct r ((hmem r).mp hr) r' ((hmem r').mp hr')
  refine ⟨hdistinct, ?_, ?_⟩
  · intro r hr howned i hi
    obtain ⟨d, hd, rfl⟩ := hresolved r hr howned i hi
    refine ⟨d, hd, rfl, ?_⟩
    rw [hentry r ((hmem r).mpr hr) howned]
    exact List.mem_filterMap.mpr ⟨d.id, hi, idToName_listing hd⟩
  · intro dn
    have hnames : ownedRoutes v =
        (((b.listing .routes (v.rows .routes)).map Route.name).filter isOwned).toFinset := by
      ext n
      simp [ownedRoutes, hmem]
    rw [hnames, hsum]

/-! ## What an operation must find -/

/-- Before an HTTPRoute is applied, every route of it that is stored already is booked for the
backends it is going to have, and no destination has one of the mapped names as its ID. -/
structure HTTPRouteInput.Booked (x : HTTPRouteInput) (v : ControlPlane) (rc : Reconciler) :
    Prop where
  backends : ∀ mr ∈ (mapHTTPRoute x).routes, ∀ r ∈ v.rows .routes, r.name = mr.name →
    ∀ n ∈ x.backendNames mr, n ∈ rc.routeDestMap mr.name
  ids : ∀ d ∈ v.rows .destinations, d.id ∉ x.destNames

/-- The condition on an operation: an HTTPRoute that is applied is booked. -/
def Op.Booked : Op → ControlPlane → Reconciler → Prop
  | .apply x, v, rc => x.Booked v rc
  | _, _, _ => True

/-- Some reply to the creation of a route was lost. -/
def World.LostRoute (w : World) : Prop :=
  ∃ c ∈ w.trace, (∃ r, c.request = .create .routes r) ∧ c.outcome = .lost

/-- What holds between the steps of an operation. -/
structure Kept (op : Op) (w : World) : Prop where
  accounted : Accounted w.vrata w.reconciler
  safe : RefSafe w
  booked : op.Booked w.vrata w.reconciler

section Step

variable {b : Backend} {op : Op} {w : World}

/-- A request extends the trace by one call. -/
theorem RefSafe.sent (h : RefSafe w) {q : Request} {v : ControlPlane} (rc : Reconciler)
    (hspares : (⟨q, w.outcome, w.vrata⟩ : Call).Spares) (hv : Resolved v) :
    RefSafe { w.sent q v with reconciler := rc } where
  spares := by
    intro c hc
    rcases List.mem_cons.mp hc with rfl | hc
    · exact hspares
    · exact h.spares c hc
  always := by
    intro c hc
    rcases List.mem_cons.mp hc with rfl | hc
    · exact h.resolved
    · exact h.always c hc
  resolved := hv

/-- The references of a written route lead to destinations of the mapping. -/
theorem writtenRoute_refs {x : HTTPRouteInput} {v : ControlPlane} (hready : x.Ready v)
    {mr : MappedRoute} {n : ℕ} (hpos : x.Position mr n) :
    ∀ i ∈ (x.writtenRoute b v mr n).destinationIDs,
      ∃ d ∈ v.rows .destinations, d.id = i ∧ d.name ∈ x.destNames := by
  intro i hi
  rw [destinationIDs_writtenRoute] at hi
  obtain ⟨name, hname, rfl⟩ := List.mem_map.mp hi
  have hmem := mem_destNames_of_mem_backendNames hpos.mem hname
  obtain ⟨d, hd, hd_name, hid⟩ := iterate_resolveName_stored (b := b) (k := .destinations)
    hready.dests hmem n
  exact ⟨d, hd, hid.symm, hd_name⟩

/-- They lead to the route's own backends if no ID is a mapped name. -/
theorem writtenRoute_refs_own {x : HTTPRouteInput} {v : ControlPlane} (hready : x.Ready v)
    (hids : ∀ d ∈ v.rows .destinations, d.id ∉ x.destNames) {mr : MappedRoute} {n : ℕ}
    (hpos : x.Position mr n) :
    ∀ i ∈ (x.writtenRoute b v mr n).destinationIDs,
      ∃ d ∈ v.rows .destinations, d.id = i ∧ d.name ∈ x.backendNames mr := by
  intro i hi
  rw [destinationIDs_writtenRoute] at hi
  obtain ⟨name, hname, rfl⟩ := List.mem_map.mp hi
  have hmem := mem_destNames_of_mem_backendNames hpos.mem hname
  obtain ⟨d, hd, hd_name, hres⟩ := resolution_eq_some (b := b) (k := .destinations)
    hready.dests hmem
  rw [Resource.name_destinations] at hd_name
  refine ⟨d, hd, ?_, hd_name ▸ hname⟩
  rw [iterate_resolveName_once (k := .destinations) hready.dests hmem
    (fun y hy _ => Or.inr (hids y hy)), resolveName, hres]
  rfl

theorem isOwned_of_position {x : HTTPRouteInput} {mr : MappedRoute} {n : ℕ}
    (hpos : x.Position mr n) : isOwned mr.name = true :=
  isOwned_below (below_of_mem_routes hpos.mem)

/-- A request that leaves the routes and the counted destinations alone, and adds no destination with an owned
ID, keeps the books. -/
theorem Kept.sent {q : Request} {v : ControlPlane} (h : Kept op w)
    (hspares : (⟨q, w.outcome, w.vrata⟩ : Call).Spares)
    (hroutes : v.rows .routes = w.vrata.rows .routes)
    (hcounted : ∀ d ∈ w.vrata.rows .destinations, 0 < w.reconciler.refCount d.name →
      d ∈ v.rows .destinations)
    (hdests : ∀ d ∈ v.rows .destinations, d ∈ w.vrata.rows .destinations ∨ isOwned d.id = false) :
    Kept op (w.sent q v) := by
  have haccounted := h.accounted.congr hroutes hcounted
  refine ⟨haccounted, h.safe.sent w.reconciler hspares haccounted.resolved, ?_⟩
  cases op with
  | init | delete ns name => trivial
  | apply y =>
    have hbooked : y.Booked w.vrata w.reconciler := h.booked
    refine ⟨fun mr hmr r hr => hbooked.backends mr hmr r (hroutes ▸ hr), fun d hd hmem => ?_⟩
    rcases hdests d hd with hd | hd
    · exact hbooked.ids d hd hmem
    · rw [isOwned_of_mem_destNames hmem] at hd
      cases hd

/-- Creating anything but a route keeps the books. -/
theorem Kept.created_other {k : Resource} {x : k.Row} (h : Kept op w) (hk : k ≠ .routes) :
    Kept op { w.sent (.create k x) (w.vrata.save k (newRow b w.vrata k x)) with
      reconciler := op.noteCreated w.outcome k x w.reconciler } := by
  have hroutes := w.vrata.rows_save_of_ne (Ne.symm hk) (newRow b w.vrata k x)
  rw [noteCreated_of_ne hk]
  by_cases hd : k = .destinations
  · subst hd
    refine h.sent (fun i hi => by cases hi) hroutes (fun d hd _ => mem_save_newRow.mpr (.inl hd)) ?_
    intro d hd
    rcases mem_save_newRow.mp hd with hd | rfl
    · exact .inl hd
    · exact .inr (not_isOwned_next b _)
  · have hdests := w.vrata.rows_save_of_ne (Ne.symm hd) (newRow b w.vrata k x)
    exact h.sent (fun i hi => by cases hi) hroutes (fun d hd _ => hdests ▸ hd) fun d hd => .inl (hdests ▸ hd)

/-- Creating a route keeps the books if the reply arrives. -/
theorem Kept.created_route {y : HTTPRouteInput} {r : Route} (h : Kept (.apply y) w)
    (hr : (Op.apply y).Writes b w.vrata .routes r)
    (hnew : ∀ z ∈ w.vrata.rows .routes, z.name ≠ r.name) :
    Kept (.apply y) { w.sent (.create .routes r)
        (w.vrata.save .routes (newRow b w.vrata .routes r)) with
      reconciler := w.reconciler.record r.name y.destNames } := by
  obtain ⟨hready, mr, n, hpos, rfl⟩ := hr
  have hbooked : y.Booked w.vrata w.reconciler := h.booked
  have haccounted := h.accounted.save_new (b := b) hnew (isOwned_of_position hpos)
    (writtenRoute_refs hready hpos)
  refine ⟨haccounted, h.safe.sent _ (fun i hi => by cases hi) haccounted.resolved, ?_, ?_⟩
  · intro mr' hmr' z hz hname m hm
    rw [Reconciler.routeDestMap_record]
    split
    · exact mem_destNames_of_mem_backendNames hmr' hm
    · rename_i hne
      rcases mem_save_newRow.mp hz with hz | rfl
      · exact hbooked.backends mr' hmr' z hz hname m hm
      · exact absurd hname.symm hne
  · intro d hd
    rw [World.vrata_sent, w.vrata.rows_save_of_ne (by simp)] at hd
    exact hbooked.ids d hd

/-- Overwriting a group keeps the books. -/
theorem Kept.updated_group {g z : RouteGroup} (h : Kept op w) :
    Kept op (w.sent (.update .groups z.id (Resource.groups.withID z.id g))
      (w.vrata.save .groups (Resource.groups.withID z.id g))) := by
  have hother : ∀ k, k ≠ .groups →
      (w.vrata.save .groups (Resource.groups.withID z.id g)).rows k = w.vrata.rows k :=
    fun _ hk => w.vrata.rows_save_of_ne hk _
  have hdests := hother .destinations (by simp)
  exact h.sent (fun i hi => by cases hi) (hother .routes (by simp)) (fun d hd _ => hdests ▸ hd)
    fun d hd => .inl (hdests ▸ hd)

/-- Overwriting a route keeps the books, because the route is booked. -/
theorem Kept.updated_route {y : HTTPRouteInput} {r z : Route} (h : Kept (.apply y) w)
    (hr : (Op.apply y).Writes b w.vrata .routes r) (hz : z ∈ w.vrata.rows .routes)
    (hname : z.name = r.name) :
    Kept (.apply y) (w.sent (.update .routes z.id (Resource.routes.withID z.id r))
      (w.vrata.save .routes (Resource.routes.withID z.id r))) := by
  obtain ⟨hready, mr, n, hpos, rfl⟩ := hr
  have hbooked : y.Booked w.vrata w.reconciler := h.booked
  have haccounted := h.accounted.save_old hz hname fun i hi => by
    obtain ⟨d, hd, hid, hmem⟩ := writtenRoute_refs_own hready hbooked.ids hpos i hi
    exact ⟨d, hd, hid, hbooked.backends mr hpos.mem z hz hname _ hmem⟩
  refine ⟨haccounted, h.safe.sent w.reconciler (fun i hi => by cases hi) haccounted.resolved,
    ?_, ?_⟩
  · intro mr' hmr' u hu hu_name
    rcases ControlPlane.mem_rows_save.mp hu with rfl | ⟨hu, _⟩
    · exact hbooked.backends mr' hmr' z hz (hname.trans hu_name)
    · exact hbooked.backends mr' hmr' u hu hu_name
  · intro d hd
    rw [World.vrata_sent, w.vrata.rows_save_of_ne (by simp)] at hd
    exact hbooked.ids d hd

/-- Deleting a destination that is not counted keeps the books. -/
theorem Kept.removed_destination {d : Destination} (h : Kept op w)
    (hd : d ∈ w.vrata.rows .destinations) (hzero : w.reconciler.refCount d.name = 0) :
    Kept op (w.sent (.delete .destinations d.id) (w.vrata.erase .destinations d.id)) := by
  have hdests : ∀ d' : Destination, d' ∈ (w.vrata.erase .destinations d.id).rows .destinations ↔
      d' ∈ w.vrata.rows .destinations ∧ d'.id ≠ d.id := fun _ => ControlPlane.mem_rows_erase
  refine h.sent ?_ (w.vrata.rows_erase_of_ne (by simp) _) ?_ fun d' hd' => .inl ((hdests d').mp hd').1
  · intro i hi _ r hr howned hmem
    obtain rfl : d.id = i := by simpa using hi
    have := h.accounted.refCount_pos hr howned hd hmem
    omega
  · intro d' hd' hpos
    refine (hdests d').mpr ⟨hd', fun hid => ?_⟩
    rw [w.vrata.eq_of_id_eq (k := .destinations) hd' hd hid] at hpos
    omega

/-- Deleting a selected route keeps the books, whether it is forgotten or not. -/
theorem Kept.removed_route {r : Route} (h : Kept op w) (hr : r ∈ w.vrata.rows .routes)
    (hsel : op.selects .routes r.name = true) :
    Kept op { w.sent (.delete .routes r.id) (w.vrata.erase .routes r.id) with
      reconciler := noteRemoved w.outcome .routes r w.reconciler } := by
  have hdests : (w.vrata.erase .routes r.id).rows .destinations = w.vrata.rows .destinations :=
    w.vrata.rows_erase_of_ne (by simp) _
  have haccounted : Accounted (w.vrata.erase .routes r.id)
      (noteRemoved w.outcome .routes r w.reconciler) := by
    cases w.outcome with
    | ok => exact h.accounted.erase_route hr (owned_of_selects hsel)
    | failed | lost => exact h.accounted.erase_route_booked r.id
  refine ⟨haccounted, h.safe.sent _ (fun i hi => ?_) haccounted.resolved, ?_⟩
  · simp at hi
  · cases op with
    | init | delete ns name => trivial
    | apply y =>
      have hbooked : y.Booked w.vrata w.reconciler := h.booked
      refine ⟨fun mr hmr z hz hname n hn => ?_, fun d hd => hbooked.ids d (hdests ▸ hd)⟩
      have hbackends := hbooked.backends mr hmr z (ControlPlane.mem_rows_erase.mp hz).1 hname n hn
      have hne : mr.name ≠ r.name := fun heq =>
        not_mem_routeNames_of_selects hsel (heq ▸ List.mem_map_of_mem hmr)
      cases w.outcome with
      | ok =>
        show n ∈ (w.reconciler.forget r.name).routeDestMap mr.name
        rw [Reconciler.routeDestMap_forget, if_neg hne]
        exact hbackends
      | failed => exact hbackends
      | lost => exact hbackends

/-- Deleting a group or a middleware keeps the books. -/
theorem Kept.removed_other {k : Resource} {y : k.Row} (h : Kept op w) (hk : k ≠ .routes)
    (hk' : k ≠ .destinations) :
    Kept op { w.sent (.delete k (k.id y)) (w.vrata.erase k (k.id y)) with
      reconciler := noteRemoved w.outcome k y w.reconciler } := by
  have hdests := w.vrata.rows_erase_of_ne (Ne.symm hk') (k.id y)
  rw [noteRemoved_of_ne hk]
  refine h.sent (fun i hi => ?_) (w.vrata.rows_erase_of_ne (Ne.symm hk) (k.id y))
    (fun d hd _ => hdests ▸ hd) fun d hd => .inl (hdests ▸ hd)
  simp only [Request.delete.injEq] at hi
  exact absurd hi.1 hk'

/-- One step keeps the books, unless the reply to the creation of a route is lost. -/
theorem Kept.step {w' : World} (h : Kept op w) (hstep : Step b op w w') (hlost : ¬w'.LostRoute) :
    Kept op w' := by
  cases hstep with
  | silent q hq =>
    refine ⟨h.accounted, h.safe.sent w.reconciler (fun i hi ho => ?_) h.accounted.resolved,
      h.booked⟩
    rcases hq with hq | ⟨k, rfl⟩
    · exact absurd hq ho
    · cases hi
  | rebuilt hop =>
    subst hop
    exact ⟨accounted_rebuild h.accounted.distinct h.accounted.resolved,
      ⟨h.safe.spares, h.safe.always, h.safe.resolved⟩, trivial⟩
  | created k x hx hnew ho =>
    by_cases hk : k = .routes
    · subst hk
      cases op with
      | init | delete ns name => exact hx.elim
      | apply y =>
        cases hout : w.outcome with
        | ok => exact h.created_route hx hnew
        | failed => exact absurd hout ho
        | lost => exact absurd ⟨_, List.mem_cons_self, ⟨x, rfl⟩, hout⟩ hlost
    · exact h.created_other hk
  | updated k x y hk hx hy hname ho =>
    rcases hk with rfl | rfl
    · cases op with
      | init | delete ns name => exact hx.elim
      | apply z => exact h.updated_route hx hy hname
    · exact h.updated_group
  | removed k y hy hsel ho =>
    cases k with
    | routes => exact h.removed_route hy hsel
    | destinations =>
      rw [noteRemoved_of_ne (by simp)]
      exact h.removed_destination hy hsel
    | groups | middlewares => exact h.removed_other (by simp) (by simp)
    | listeners => exact h.removed_other (by simp) (by simp)

/-- Requests are never taken off the trace. -/
theorem World.LostRoute.step {w' : World} (h : w.LostRoute) (hstep : Step b op w w') :
    w'.LostRoute := by
  obtain ⟨c, hc, hlost⟩ := h
  refine ⟨c, ?_, hlost⟩
  cases hstep with
  | rebuilt hop => exact hc
  | silent q hq | created k x hx hnew ho => exact List.mem_cons_of_mem _ hc
  | updated k x y hk hx hy hname ho => exact List.mem_cons_of_mem _ hc
  | removed k y hy hsel ho => exact List.mem_cons_of_mem _ hc

theorem Kept.steps {w' : World} (h : Kept op w) (hsteps : Steps b op w w')
    (hlost : ¬w'.LostRoute) : Kept op w' := by
  have hor : w'.LostRoute ∨ Kept op w' := by
    refine Steps.preserve (I := fun w => w.LostRoute ∨ Kept op w) ?_ hsteps (Or.inr h)
    rintro w₁ w₂ (hl | hk) hstep
    · exact Or.inl (hl.step hstep)
    · by_cases hl : w₂.LostRoute
      · exact Or.inl hl
      · exact Or.inr (hk.step hstep hl)
  exact hor.resolve_left hlost

end Step

/-! ## Runs -/

/-- A run of a new reconciler in which the books stay right: they are set up by a first `Init` that
succeeds, or there is nothing to book at the start; every HTTPRoute is booked when it is applied; and
no reply to the creation of a route is lost. -/
structure BookedRun (b : Backend) (w : World) (ops : List Op) : Prop where
  trace : w.trace = []
  books : w.reconciler = .new
  distinct : ∀ r ∈ w.vrata.rows .routes, ∀ r' ∈ w.vrata.rows .routes, isOwned r.name = true →
    r.name = r'.name → r = r'
  resolved : Resolved w.vrata
  setUp : (∀ r ∈ w.vrata.rows .routes, isOwned r.name = false) ∨
    ∃ rest, ops = .init :: rest ∧ w.outcome = .ok ∧ w.plan.tail.headD .ok = .ok
  booked : ∀ done op rest, ops = done ++ op :: rest →
    op.Booked (w.run b done).vrata (w.run b done).reconciler
  replies : ¬(w.run b ops).LostRoute

/-- `Init` when both listings succeed. -/
theorem after_init {b : Backend} {w : World} (h₁ : w.outcome = .ok)
    (h₂ : w.plan.tail.headD .ok = .ok) :
    w.after b .init =
      { vrata := w.vrata
        reconciler := rebuild (b.listing .routes (w.vrata.rows .routes))
          (b.listing .destinations (w.vrata.rows .destinations))
        plan := w.plan.tail.tail
        trace := ⟨.list .destinations, .ok, w.vrata⟩ :: ⟨.list .routes, .ok, w.vrata⟩ ::
          w.trace } := by
  have h₁' : w.plan.headD .ok = .ok := h₁
  simp only [World.after, Op.program, init, bind, EStateM.bind, during, listRoutes,
    listDestinations, call, serve, h₁', h₂]
  rfl

theorem World.LostRoute.mono {b : Backend} {w : World} (done rest : List Op)
    (h : (w.run b done).LostRoute) : (w.run b (done ++ rest)).LostRoute := by
  induction rest using List.reverseRecOn with
  | nil => simpa using h
  | append_singleton rest op ih =>
    rw [← List.append_assoc, World.run_append]
    exact Steps.preserve (fun _ _ h hstep => h.step hstep) (steps_after b _ op) ih

/-- In a run whose books stay right, no destination in use is ever deleted and every reference of
an owned route leads to a stored destination at all times. -/
theorem refSafe_of_bookedRun (b : Backend) (w : World) (ops : List Op) (h : BookedRun b w ops) :
    RefSafe (w.run b ops) := by
  have hstart : RefSafe w := ⟨by simp [h.trace], by simp [h.trace], h.resolved⟩
  -- the books are right from some operation on, and before it nothing has happened
  suffices hpre : ∀ done rest, ops = done ++ rest →
      RefSafe (w.run b done) ∧
        (Accounted (w.run b done).vrata (w.run b done).reconciler ∨ done = []) from
    (hpre ops [] (by simp)).1
  intro done
  induction done using List.reverseRecOn with
  | nil => exact fun _ _ => ⟨hstart, Or.inr rfl⟩
  | append_singleton done op ih =>
    intro rest hops
    obtain ⟨hsafe, hbooks⟩ := ih (op :: rest) (by simpa using hops)
    have hlost : ¬(w.run b (done ++ [op])).LostRoute := fun hl =>
      h.replies (hops ▸ hl.mono (done ++ [op]) rest)
    rw [World.run_append] at hlost ⊢
    have hkeep : Accounted (w.run b done).vrata (w.run b done).reconciler →
        RefSafe ((w.run b done).after b op) ∧ (Accounted ((w.run b done).after b op).vrata
          ((w.run b done).after b op).reconciler ∨ done ++ [op] = []) := by
      intro haccounted
      have hkept : Kept op (w.run b done) :=
        ⟨haccounted, hsafe, h.booked done op rest (by simpa using hops)⟩
      have hafter := hkept.steps (steps_after b _ op) hlost
      exact ⟨hafter.safe, Or.inl hafter.accounted⟩
    rcases hbooks with haccounted | rfl
    · exact hkeep haccounted
    · rcases h.setUp with hnone | ⟨rest', hinit, hok₁, hok₂⟩
      · refine hkeep ⟨h.distinct, fun r hr howned => ?_, fun dn => ?_⟩
        · rw [hnone r hr] at howned
          cases howned
        · have hempty : ownedRoutes w.vrata = ∅ := by
            rw [Finset.eq_empty_iff_forall_notMem]
            intro n hn
            obtain ⟨howned, r, hr, rfl⟩ := mem_ownedRoutes.mp hn
            rw [hnone r hr] at howned
            cases howned
          show ∑ n ∈ ownedRoutes w.vrata, _ ≤ _
          rw [hempty]
          exact Nat.zero_le _
      · obtain rfl : op = .init := by
          rw [hops] at hinit
          exact (List.cons.inj hinit).1
        show RefSafe (w.after b .init) ∧ _
        rw [show w.run b [] = w from rfl, after_init hok₁ hok₂]
        have haccounted := accounted_rebuild (b := b) h.distinct h.resolved
        refine ⟨⟨?_, ?_, h.resolved⟩, Or.inl haccounted⟩
        · intro c hc i hi
          simp only [h.trace, List.mem_cons, List.not_mem_nil, or_false] at hc
          rcases hc with rfl | rfl <;> cases hi
        · intro c hc
          simp only [h.trace, List.mem_cons, List.not_mem_nil, or_false] at hc
          rcases hc with rfl | rfl <;> exact h.resolved

/-! ## Two runs -/

/-- An HTTPRoute with one rule and one backend. -/
def oneBackend (name service : String) : HTTPRouteInput where
  name := name
  «namespace» := "default"
  hostnames := []
  rules := [⟨[], [⟨service, "default", 80, 1⟩], []⟩]

/-- Applying an HTTPRoute again with the same backend. -/
theorem refSafe_reapplied :
    RefSafe (World.start.run .plain
      [.init, .apply (oneBackend "web" "a"), .apply (oneBackend "web" "a")]) := by
  refine refSafe_of_bookedRun _ _ _ ⟨rfl, rfl, by decide, ?_, Or.inl (by decide), ?_, ?_⟩
  · unfold Resolved
    decide
  · intro done op rest h
    rcases done with _ | ⟨_, _ | ⟨_, _ | ⟨_, _⟩⟩⟩
    · obtain ⟨rfl, rfl⟩ := List.cons.inj h
      trivial
    · obtain ⟨rfl, rfl, rfl⟩ : _ ∧ _ ∧ _ := by simpa using h
      exact ⟨by decide +kernel, by decide +kernel⟩
    · obtain ⟨rfl, rfl, rfl, rfl⟩ : _ ∧ _ ∧ _ ∧ _ := by simpa using h
      exact ⟨by decide +kernel, by decide +kernel⟩
    · simp at h
  · rintro ⟨c, hc, _, hlost⟩
    have hok : ∀ c ∈ (World.start.run .plain
        [.init, .apply (oneBackend "web" "a"), .apply (oneBackend "web" "a")]).trace,
        c.outcome = .ok := by decide +kernel
    rw [hok c hc] at hlost
    cases hlost

/-- A route that is repointed to another backend loses it when a second user of that backend goes
away. -/
theorem not_refSafe_repointed :
    ¬RefSafe (World.start.run .plain
      [.init, .apply (oneBackend "web" "a"), .apply (oneBackend "web" "b"),
        .apply (oneBackend "shop" "b"), .delete "default" "shop"]) := by
  intro h
  have hresolved := h.resolved
  revert hresolved
  unfold Resolved
  decide +kernel

end Vrata.Controller

import Mathlib.Algebra.BigOperators.Group.Finset.Basic
import Mathlib.Data.List.Forall2
import Vrata.Controller.Mapper.Names
import Vrata.Controller.Reconciler.Steps

/-!
# What the operations of the reconciler achieve

Reference: `clients/controller/internal/reconciler/reconciler.go`.

Every loop of `ApplyHTTPRoute` and `DeleteHTTPRoute` is described by a relation between the worlds
before and after it (`Ensured`, `RoutesApplied`, `Upserted`, `RoutesDropped`, `Dropped`,
`Collected`). An operation that returns without error has gone through its loops one after the
other, which is an `ApplyTrail` or a `DeleteTrail`; one that returns early has halted after a
request that did not end well. In both cases all it did is a sequence of steps.
-/

namespace Vrata.Controller

open Effect

/-! ## The loops -/

/-- Entities of the names of `xs` exist in the table of `k`; nothing was removed. -/
structure Ensured (k : Resource) (w w' : World) (xs : List k.Row) : Prop where
  books : w'.reconciler = w.reconciler
  others : ∀ k', k' ≠ k → w'.vrata.rows k' = w.vrata.rows k'
  kept : ∀ y ∈ w.vrata.rows k, y ∈ w'.vrata.rows k
  named : ∀ x ∈ xs, ∃ y ∈ w'.vrata.rows k, k.name y = k.name x

/-- The entity `x` is stored under the ID `i`, which is new or the ID of an entity of that name. -/
structure Upserted (b : Backend) (k : Resource) (x : k.Row) (i : String) (w w' : World) : Prop where
  stored : w'.vrata = w.vrata.save k (k.withID i x)
  id_of : (∀ y ∈ w.vrata.rows k, k.name y ≠ k.name x) ∧ i = b.next w.vrata.issued ∨
    ∃ y ∈ w.vrata.rows k, k.name y = k.name x ∧ k.id y = i

/-- The names of the stored routes. -/
def World.routeNames (w : World) : List String := (w.vrata.rows .routes).map Route.name

/-- The mapped routes `done` have been created or updated. -/
structure RoutesApplied (b : Backend) (x : HTTPRouteInput) (w w' : World)
    (done : List MappedRoute) (st : RouteLoop) : Prop where
  others : ∀ k, k ≠ .routes → w'.vrata.rows k = w.vrata.rows k
  slices : ∀ r ∈ (mapHTTPRoute x).routes, sliceOf st.slices r.rule =
    x.slicesAfter b w.vrata r (done.countP fun r' => r'.rule = r.rule)
  stored : List.Forall₂ (fun r i => ∃ n, x.Position r n ∧
    Resource.routes.withID i (x.writtenRoute b w.vrata r n) ∈ w'.vrata.rows .routes)
    done st.routeVrataIDs
  rest : ∀ y : Route, y.name ∉ done.map MappedRoute.name →
    (y ∈ w'.vrata.rows .routes ↔ y ∈ w.vrata.rows .routes)
  counts : ∀ dn, w'.reconciler.refCount dn = w.reconciler.refCount dn +
    x.destNames.count dn * done.countP fun r => r.name ∉ w.routeNames
  recorded : ∀ n, w'.reconciler.routeDestMap n =
    if n ∈ done.map MappedRoute.name ∧ n ∉ w.routeNames then x.destNames
    else w.reconciler.routeDestMap n

/-- The routes of `done` with a selected name have been deleted and forgotten. -/
structure RoutesDropped (sel : String → Bool) (w w' : World) (done : List Route) (st : DropLoop) :
    Prop where
  others : ∀ k, k ≠ .routes → w'.vrata.rows k = w.vrata.rows k
  routes : ∀ y : Route, y ∈ w'.vrata.rows .routes ↔
    y ∈ w.vrata.rows .routes ∧ ¬(y ∈ done ∧ sel y.name = true)
  counts : ∀ dn, w'.reconciler.refCount dn =
    w.reconciler.refCount dn - st.destsToCheck.count dn
  recorded : ∀ n, w'.reconciler.routeDestMap n =
    if n ∈ (done.map Route.name).filter sel then [] else w.reconciler.routeDestMap n
  checked : ∀ dn, st.destsToCheck.count dn =
    ∑ n ∈ ((done.map Route.name).filter sel).toFinset,
      (w.reconciler.routeDestMap n).count dn

/-- The entities of `k` with a selected name have been deleted. -/
structure Dropped (k : Resource) (sel : String → Bool) (w w' : World) (done : List k.Row) :
    Prop where
  books : w'.reconciler = w.reconciler
  others : ∀ k', k' ≠ k → w'.vrata.rows k' = w.vrata.rows k'
  rows : ∀ y : k.Row, y ∈ w'.vrata.rows k ↔
    y ∈ w.vrata.rows k ∧ ¬(y ∈ done ∧ sel (k.name y) = true)

/-- For every name of `done` that is not counted, its first listed destination has been deleted. -/
structure Collected (b : Backend) (w w' : World) (done : List String) : Prop where
  books : w'.reconciler = w.reconciler
  others : ∀ k, k ≠ .destinations → w'.vrata.rows k = w.vrata.rows k
  dests : ∀ d : Destination, d ∈ w'.vrata.rows .destinations ↔
    d ∈ w.vrata.rows .destinations ∧ ¬(d.name ∈ done ∧ w.reconciler.refCount d.name = 0 ∧
      (b.listing .destinations (w.vrata.rows .destinations)).find? (fun d' => d'.name = d.name) =
        some d)

/-! ## Creating what is missing -/

section Loops

variable {b : Backend} {op : Op} {w₀ w₁ : World}

theorem noteCreated_of_ne {k : Resource} (hk : k ≠ .routes) (op : Op) (o : Outcome) (x : k.Row)
    (rc : Reconciler) : op.noteCreated o k x rc = rc := by
  cases k with
  | routes => exact absurd rfl hk
  | _ => cases op <;> cases o <;> rfl

theorem noteRemoved_of_ne {k : Resource} (hk : k ≠ .routes) (o : Outcome) (y : k.Row)
    (rc : Reconciler) : noteRemoved o k y rc = rc := by
  cases k with
  | routes => exact absurd rfl hk
  | _ => cases o <;> rfl

theorem id_newRow (v : ControlPlane) (k : Resource) (x : k.Row) :
    k.id (newRow b v k x) = b.next v.issued := k.id_withID _ _

theorem fresh_newRow (v : ControlPlane) (k : Resource) (x : k.Row) :
    k.id (newRow b v k x) ∉ v.issued := by
  rw [id_newRow]
  exact b.fresh _

/-- A created entity is added to its table. -/
theorem mem_save_newRow {v : ControlPlane} {k : Resource} {x y : k.Row} :
    y ∈ (v.save k (newRow b v k x)).rows k ↔ y ∈ v.rows k ∨ y = newRow b v k x := by
  rw [ControlPlane.rows_save_of_fresh (fresh_newRow v k x), List.mem_append, List.mem_singleton]

theorem spec_ensure {k : Resource} {checking creating : String} {n : ℕ} {x : k.Row}
    (hk : k ≠ .routes) (hid : k.id x = "") (hx : ∀ v, op.Writes b v k x)
    (hs : Steps b op w₀ w₁) :
    Spec (· = w₁) (ensure b k checking creating n x)
      (fun _ w => Steps b op w₀ w ∧ Ensured k w₁ w [x]) (Halted b op w₀) := by
  refine Spec.bind (spec_during (spec_findByName k _ hs)) ?_
  rintro found w ⟨hw, ⟨hv, hrc⟩, hfound⟩
  rw [← hv] at hfound
  cases found with
  | some i =>
    obtain ⟨y, hy, hname, _⟩ := find_listing_some hfound.symm
    refine Spec.pure ⟨hw, hrc, fun _ _ => by rw [hv], fun _ h => hv ▸ h, fun z hz => ?_⟩
    obtain rfl := List.mem_singleton.mp hz
    exact ⟨y, hy, hname⟩
  | none =>
    have hnew := find_listing_none hfound.symm
    refine Spec.bind (spec_during (spec_create hid (hx _) hnew hw)) ?_
    rintro _ w' ⟨rfl, hv', hrc', hw'⟩
    rw [noteCreated_of_ne hk] at hw'
    refine Spec.pure ⟨hw', hrc'.trans hrc, fun k' hk' => ?_, fun y hy => ?_, fun z hz => ?_⟩
    · rw [hv', ControlPlane.rows_save_of_ne _ hk', hv]
    · rw [hv']
      exact mem_save_newRow.mpr (Or.inl (hv ▸ hy))
    · obtain rfl := List.mem_singleton.mp hz
      rw [hv']
      exact ⟨_, mem_save_newRow.mpr (Or.inr rfl), k.name_withID _ _⟩

theorem Ensured.append {k : Resource} {w w' w'' : World} {xs ys : List k.Row}
    (h : Ensured k w w' xs) (h' : Ensured k w' w'' ys) : Ensured k w w'' (xs ++ ys) where
  books := h'.books.trans h.books
  others k' hk := (h'.others k' hk).trans (h.others k' hk)
  kept y hy := h'.kept y (h.kept y hy)
  named x hx := by
    rcases List.mem_append.mp hx with hx | hx
    · obtain ⟨y, hy, hname⟩ := h.named x hx
      exact ⟨y, h'.kept y hy, hname⟩
    · exact h'.named x hx

theorem spec_ensureAll {k : Resource} {checking creating : String} (n : ℕ) {xs : List k.Row}
    (hk : k ≠ .routes) (hid : ∀ x ∈ xs, k.id x = "") (hx : ∀ x ∈ xs, ∀ v, op.Writes b v k x)
    (hs : Steps b op w₀ w₁) :
    Spec (· = w₁) (xs.foldlM (ensure b k checking creating) n)
      (fun _ w => Steps b op w₀ w ∧ Ensured k w₁ w xs) (Halted b op w₀) := by
  refine Spec.foldlM (I := fun done _ w => Steps b op w₀ w ∧ Ensured k w₁ w done)
    ⟨hs, rfl, fun _ _ => rfl, fun _ h => h, by simp⟩ ?_
  rintro done x rest a w rfl ⟨hw, hdone⟩
  have hmem : x ∈ done ++ x :: rest := by simp
  refine (spec_ensure hk (hid x hmem) (hx x hmem) hw).post ?_
  rintro _ w' ⟨hw', hx'⟩
  exact ⟨hw', hdone.append hx'⟩

/-! ## Creating or updating -/

theorem spec_upsert {k : Resource} {checking creating updating : String} {x : k.Row}
    (hk : k = .routes ∨ k = .groups) (hid : k.id x = "") (hx : op.Writes b w₁.vrata k x)
    (hs : Steps b op w₀ w₁) :
    Spec (· = w₁) (upsert b k checking creating updating x)
      (fun p w => Upserted b k x p.1 w₁ w ∧ w.reconciler = w₁.reconciler ∧
        (p.2 = true ↔ ∀ y ∈ w₁.vrata.rows k, k.name y ≠ k.name x) ∧
        Steps b op w₀ (if p.2 then
          { w with reconciler := op.noteCreated .ok k x w.reconciler } else w))
      (Halted b op w₀) := by
  refine Spec.bind (spec_during (spec_findByName k _ hs)) ?_
  rintro found w ⟨hw, ⟨hv, hrc⟩, hfound⟩
  rw [← hv] at hx hfound ⊢
  cases found with
  | none =>
    have hnew := find_listing_none hfound.symm
    refine Spec.bind (spec_during (spec_create hid hx hnew hw)) ?_
    rintro _ w' ⟨rfl, hv', hrc', hw'⟩
    refine Spec.pure ⟨⟨?_, Or.inl ⟨hv ▸ hnew, ?_⟩⟩, hrc'.trans hrc, by simpa using hnew, hw'⟩
    · rw [id_newRow, hv', hv]
      rfl
    · rw [id_newRow, hv]
  | some i =>
    obtain ⟨y, hy, hname, rfl⟩ := find_listing_some hfound.symm
    refine Spec.bind (spec_during (spec_update hk hx hy hname hw)) ?_
    rintro _ w' ⟨hw', hrc', hv'⟩
    refine Spec.pure ⟨⟨hv' ▸ hv ▸ rfl, Or.inr ⟨y, hv ▸ hy, hname, rfl⟩⟩, hrc'.trans hrc, ?_, hw'⟩
    simp only [Bool.false_eq_true, false_iff, not_forall]
    exact ⟨y, hy, not_not.mpr hname⟩

theorem Upserted.mem {k : Resource} {x : k.Row} {i : String} {w w' : World}
    (h : Upserted b k x i w w') : k.withID i x ∈ w'.vrata.rows k := by
  rw [h.stored]
  exact ControlPlane.mem_rows_save.mpr (Or.inl rfl)

/-- Entities of other names are not touched. -/
theorem Upserted.mem_iff_of_name_ne {k : Resource} {x y : k.Row} {i : String} {w w' : World}
    (h : Upserted b k x i w w') (hname : k.name y ≠ k.name x) :
    y ∈ w'.vrata.rows k ↔ y ∈ w.vrata.rows k := by
  rw [h.stored, ControlPlane.mem_rows_save, k.id_withID]
  constructor
  · rintro (rfl | ⟨hy, _⟩)
    · exact absurd (k.name_withID _ _) hname
    · exact hy
  · intro hy
    refine Or.inr ⟨hy, ?_⟩
    rcases h.id_of with ⟨_, rfl⟩ | ⟨z, hz, hzname, rfl⟩
    · intro hid
      exact b.fresh _ (hid ▸ w.vrata.issued_of_mem k y hy)
    · intro hid
      exact hname (w.vrata.eq_of_id_eq hy hz hid ▸ hzname)

theorem Upserted.rows_of_ne {k k' : Resource} {x : k.Row} {i : String} {w w' : World}
    (h : Upserted b k x i w w') (hk : k' ≠ k) : w'.vrata.rows k' = w.vrata.rows k' := by
  rw [h.stored, ControlPlane.rows_save_of_ne _ hk]

/-! ## The loop over the mapped routes -/

theorem sliceOf_modify {f : RuleSlices → RuleSlices} (hf : f ⟨[], []⟩ = ⟨[], []⟩)
    (slices : List RuleSlices) (i j : ℕ) :
    sliceOf (slices.modify i f) j = if i = j then f (sliceOf slices j) else sliceOf slices j := by
  simp only [sliceOf, List.getD_eq_getElem?_getD, List.getElem?_modify]
  by_cases h : i = j
  · cases hj : slices[j]? <;> simp [h, hf]
  · cases hj : slices[j]? <;> simp [h]

theorem resolution_congr {k : Resource} {v v' : ControlPlane} (h : v'.rows k = v.rows k)
    (names : List String) : resolution b k v' names = resolution b k v names := by
  funext n
  rw [resolution, resolution, h]

/-- What is written depends on the stored destinations and middlewares only. -/
theorem writtenRoute_congr {x : HTTPRouteInput} {v v' : ControlPlane}
    (hd : v'.rows .destinations = v.rows .destinations)
    (hm : v'.rows .middlewares = v.rows .middlewares) (r : MappedRoute) (n : ℕ) :
    x.writtenRoute b v' r n = x.writtenRoute b v r n := by
  rw [HTTPRouteInput.writtenRoute, HTTPRouteInput.writtenRoute, HTTPRouteInput.slicesAfter,
    HTTPRouteInput.slicesAfter, resolution_congr hd, resolution_congr hm]

/-- The slices after one more route of an HTTPRoute. -/
theorem RoutesApplied.slices_resolve {x : HTTPRouteInput} {w w' : World}
    {done rest : List MappedRoute} {r : MappedRoute} {st : RouteLoop}
    (h : RoutesApplied b x w w' done st) (hsplit : (mapHTTPRoute x).routes = done ++ r :: rest) :
    ∀ r' ∈ (mapHTTPRoute x).routes,
      sliceOf (resolveRouteRefs r st.slices (resolution b .destinations w.vrata x.destNames)
        (resolution b .middlewares w.vrata x.mwNames)) r'.rule =
      x.slicesAfter b w.vrata r' ((done ++ [r]).countP fun r'' => r''.rule = r'.rule) := by
  intro r' hr'
  rw [resolveRouteRefs, sliceOf_modify (by simp [resolveSlices]), h.slices r' hr',
    List.countP_append, List.countP_singleton]
  by_cases hrule : r.rule = r'.rule
  · have hr : r ∈ (mapHTTPRoute x).routes := by simp [hsplit]
    rw [if_pos hrule, if_pos (by simpa using hrule), forward_eq_of_rule_eq hr hr' hrule]
    simp only [HTTPRouteInput.slicesAfter]
    rw [Function.iterate_succ_apply']
  · rw [if_neg hrule, if_neg (by simpa using hrule), Nat.add_zero]

/-- In a list without repetitions the next element has not been seen. -/
theorem not_mem_done {α : Type} {l done rest : List α} {y : α} (hl : l.Nodup)
    (hsplit : l = done ++ y :: rest) : y ∉ done := by
  rw [hsplit, List.nodup_append] at hl
  exact fun h => hl.2.2 y h y List.mem_cons_self rfl

theorem name_not_mem_done {x : HTTPRouteInput} {done rest : List MappedRoute} {r : MappedRoute}
    (hsplit : (mapHTTPRoute x).routes = done ++ r :: rest) : r.name ∉ done.map MappedRoute.name :=
  not_mem_done (nodup_routes x) (by rw [hsplit, List.map_append, List.map_cons])

/-- One more route of the loop: it is stored, and recorded if it is new. -/
theorem RoutesApplied.append {x : HTTPRouteInput} {w w' w'' : World}
    {done rest : List MappedRoute} {r : MappedRoute} {st st' : RouteLoop} {i : String}
    (h : RoutesApplied b x w w' done st) (hsplit : (mapHTTPRoute x).routes = done ++ r :: rest)
    (hup : Upserted b .routes (x.writtenRoute b w.vrata r (done.countP fun r' => r'.rule = r.rule))
      i w' w'')
    (hbooks : w''.reconciler =
      if r.name ∈ w.routeNames then w'.reconciler else w'.reconciler.record r.name x.destNames)
    (hslices : st'.slices = resolveRouteRefs r st.slices
      (resolution b .destinations w.vrata x.destNames) (resolution b .middlewares w.vrata x.mwNames))
    (hids : st'.routeVrataIDs = st.routeVrataIDs ++ [i]) :
    RoutesApplied b x w w'' (done ++ [r]) st' := by
  have hnot := name_not_mem_done hsplit
  constructor
  · intro k hk
    rw [hup.rows_of_ne hk, h.others k hk]
  · intro r' hr'
    rw [hslices]
    exact h.slices_resolve hsplit r' hr'
  · rw [hids]
    refine List.rel_append ?_ (.cons ⟨_, ⟨done, rest, hsplit, rfl⟩, hup.mem⟩ .nil)
    -- the rows stored earlier have other names
    have hearlier : ∀ r' ∈ done, r'.name ≠ r.name := fun r' hr' hname =>
      hnot (List.mem_map.mpr ⟨r', hr', hname⟩)
    refine List.Forall₂.imp ?_ ((List.forall₂_and_left _ _).mpr ⟨hearlier, h.stored⟩)
    rintro r' i' ⟨hname, n, hpos, hmem⟩
    refine ⟨n, hpos, (hup.mem_iff_of_name_ne ?_).mpr hmem⟩
    exact hname
  · intro y hy
    rw [List.map_append, List.mem_append, not_or, List.map_singleton, List.mem_singleton] at hy
    rw [hup.mem_iff_of_name_ne hy.2, h.rest y hy.1]
  · intro dn
    rw [hbooks, List.countP_append, List.countP_singleton]
    by_cases hold : r.name ∈ w.routeNames
    · rw [if_pos hold, h.counts, if_neg (by simpa using hold), Nat.add_zero]
    · rw [if_neg hold, Reconciler.refCount_record, h.counts, if_pos (by simpa using hold),
        Nat.mul_add, Nat.mul_one, Nat.add_assoc]
  · intro n
    rw [hbooks, List.map_append, List.map_singleton]
    by_cases hold : r.name ∈ w.routeNames
    · rw [if_pos hold, h.recorded]
      by_cases hn : n = r.name
      · simp [hn, hold]
      · simp [hn]
    · rw [if_neg hold, Reconciler.routeDestMap_record]
      by_cases hn : n = r.name
      · simp [hn, hold]
      · rw [if_neg hn, h.recorded]
        simp [hn]

/-- The loop over the mapped routes. -/
theorem spec_applyRoutes {x : HTTPRouteInput} (n : ℕ) (hready : x.Ready w₁.vrata)
    (hs : Steps b (.apply x) w₀ w₁) :
    Spec (· = w₁) ((mapHTTPRoute x).routes.foldlM
        (applyRoute b x.destNames (resolution b .destinations w₁.vrata x.destNames)
          (resolution b .middlewares w₁.vrata x.mwNames)) ⟨(mapHTTPRoute x).slices, [], n⟩)
      (fun st w => Steps b (.apply x) w₀ w ∧
        RoutesApplied b x w₁ w (mapHTTPRoute x).routes st)
      (Halted b (.apply x) w₀) := by
  refine Spec.foldlM (I := fun done st w => Steps b (.apply x) w₀ w ∧
    RoutesApplied b x w₁ w done st) ⟨hs, fun _ _ => rfl, fun _ _ => rfl, .nil, fun _ _ => Iff.rfl,
      by simp, by simp⟩ ?_
  rintro done r rest st w hsplit ⟨hw, hdone⟩
  have hr : r ∈ (mapHTTPRoute x).routes := by simp [hsplit]
  have hload : r.load (resolveRouteRefs r st.slices
      (resolution b .destinations w₁.vrata x.destNames)
      (resolution b .middlewares w₁.vrata x.mwNames)) =
      x.writtenRoute b w₁.vrata r (done.countP fun r' => r'.rule = r.rule) := by
    rw [MappedRoute.load, hdone.slices_resolve hsplit r hr, HTTPRouteInput.writtenRoute,
      List.countP_append, List.countP_singleton, if_pos (by simp)]
  have hwrites : (Op.apply x).Writes b w.vrata .routes
      (x.writtenRoute b w₁.vrata r (done.countP fun r' => r'.rule = r.rule)) := by
    have hdests := hdone.others .destinations (by simp)
    have hmws := hdone.others .middlewares (by simp)
    refine ⟨⟨hdests ▸ hready.dests, hmws ▸ hready.mws⟩, r, _, ⟨done, rest, hsplit, rfl⟩, ?_⟩
    exact (writtenRoute_congr hdests hmws _ _).symm
  unfold applyRoute
  simp only [hload]
  refine Spec.bind (spec_upsert (Or.inl rfl) rfl hwrites hw) ?_
  rintro ⟨i, created⟩ w' ⟨hup, hrc, hcreated, hsteps⟩
  -- whether the route is new can be read off the names stored before the loop
  have hnew : created = true ↔ r.name ∉ w₁.routeNames := by
    rw [hcreated, World.routeNames, List.mem_map, not_exists]
    refine forall_congr' fun y => ?_
    rw [not_and]
    constructor
    · intro h hy hname
      exact h ((hdone.rest y (hname ▸ name_not_mem_done hsplit)).mpr hy) hname
    · intro h hy hname
      have hname : y.name = r.name := hname
      exact h ((hdone.rest y (hname ▸ name_not_mem_done hsplit)).mp hy) hname
  cases created with
  | true =>
    refine Spec.modify (Spec.pure ⟨hsteps, hdone.append hsplit ⟨hup.stored, hup.id_of⟩ ?_ rfl rfl⟩)
    rw [if_neg (hnew.mp rfl), hrc]
  | false =>
    refine Spec.pure ⟨hsteps, hdone.append hsplit hup ?_ rfl rfl⟩
    rw [if_pos, hrc]
    exact not_not.mp fun h => Bool.false_ne_true (hnew.mpr h)

/-! ## Removing -/

theorem removes_of_selects {k : Resource} (hk : k ≠ .destinations) {y : k.Row} {rc : Reconciler}
    (h : op.selects k (k.name y) = true) : op.Removes rc k y := by
  cases k with
  | destinations => exact absurd rfl hk
  | _ => exact h

theorem nodup_listing (v : ControlPlane) (k : Resource) : (b.listing k (v.rows k)).Nodup :=
  (b.listing_perm k _).nodup_iff.mpr (v.table k).nodup.of_map

theorem mem_of_listing_split {k : Resource} {rows done rest : List k.Row} {y : k.Row}
    (hsplit : b.listing k rows = done ++ y :: rest) : y ∈ rows := by
  rw [← mem_listing (b := b), hsplit]
  simp

/-- Deleting what the next element of a loop stands for removes just that row. -/
theorem mem_erase_next {α : Type} {v v' : ControlPlane} {k : Resource} {f : k.Row → α}
    {p : k.Row → Prop} {done : List α} {y : k.Row} (hy : y ∈ v.rows k) (hp : p y)
    (hone : ∀ z, f z = f y → p z → z = y)
    (hrows : ∀ z, z ∈ v'.rows k ↔ z ∈ v.rows k ∧ ¬(f z ∈ done ∧ p z)) (z : k.Row) :
    z ∈ (v'.erase k (k.id y)).rows k ↔ z ∈ v.rows k ∧ ¬(f z ∈ done ++ [f y] ∧ p z) := by
  rw [ControlPlane.mem_rows_erase, hrows, List.mem_append, List.mem_singleton]
  constructor
  · rintro ⟨⟨hz, hnot⟩, hid⟩
    refine ⟨hz, ?_⟩
    rintro ⟨hdone | hf, hpz⟩
    · exact hnot ⟨hdone, hpz⟩
    · exact hid (congrArg k.id (hone z hf hpz))
  · rintro ⟨hz, hnot⟩
    refine ⟨⟨hz, fun h => hnot ⟨Or.inl h.1, h.2⟩⟩, fun hid => ?_⟩
    obtain rfl := v.eq_of_id_eq hz hy hid
    exact hnot ⟨Or.inr rfl, hp⟩

/-- An element of a loop that stands for nothing is passed over. -/
theorem mem_skip_next {α β : Type} {f : β → α} {p : β → Prop} {rows : List β} {done : List α} {a : α}
    (hskip : ∀ z, f z = a → ¬p z) (z : β) :
    z ∈ rows ∧ ¬(f z ∈ done ∧ p z) ↔ z ∈ rows ∧ ¬(f z ∈ done ++ [a] ∧ p z) := by
  rw [List.mem_append, List.mem_singleton]
  refine and_congr_right fun _ => not_congr (and_congr_left fun hz => ⟨Or.inl, ?_⟩)
  exact fun h => h.resolve_right fun hf => hskip z hf hz

/-- What is listed next is still stored. -/
theorem mem_next {k : Resource} {v v' : ControlPlane} {p : k.Row → Prop} {done rest : List k.Row}
    {y : k.Row} (hsplit : b.listing k (v.rows k) = done ++ y :: rest)
    (hrows : ∀ z, z ∈ v'.rows k ↔ z ∈ v.rows k ∧ ¬(z ∈ done ∧ p z)) : y ∈ v'.rows k :=
  (hrows y).mpr ⟨mem_of_listing_split hsplit, fun h =>
    not_mem_done (nodup_listing _ _) hsplit h.1⟩

theorem spec_dropAll {k : Resource} {doing : String} {sel : String → Bool} {w : World} (n : ℕ)
    (hk : k ≠ .routes) (hk' : k ≠ .destinations) (hsel : ∀ n, sel n = true → op.selects k n = true)
    (hs : Steps b op w₀ w₁) (hsame : SameStore w w₁) :
    Spec (· = w₁) ((b.listing k (w.vrata.rows k)).foldlM (dropIf b k doing sel) n)
      (fun _ w' => Steps b op w₀ w' ∧ Dropped k sel w w' (b.listing k (w.vrata.rows k)))
      (Halted b op w₀) := by
  refine Spec.foldlM (I := fun done _ w' => Steps b op w₀ w' ∧ Dropped k sel w w' done)
    ⟨hs, hsame.2, fun _ _ => by rw [hsame.1], by simp [hsame.1]⟩ ?_
  rintro done y rest a w' hsplit ⟨hw, hdone⟩
  refine Spec.ite (fun hsely => ?_) fun hsely => ?_
  · refine Spec.bind (spec_during (spec_delete (mem_next hsplit hdone.rows)
      (removes_of_selects hk' (hsel _ hsely)) hw)) ?_
    rintro _ w'' ⟨hv, hrc, hw''⟩
    rw [noteRemoved_of_ne hk] at hw''
    refine Spec.pure ⟨hw'', hrc.trans hdone.books, fun k' hk' => ?_, ?_⟩
    · rw [hv, ControlPlane.rows_erase_of_ne _ hk', hdone.others k' hk']
    · rw [hv]
      exact mem_erase_next (f := id) (p := fun z => sel (k.name z) = true)
        (mem_of_listing_split hsplit) hsely (fun _ h _ => h) hdone.rows
  · refine Spec.pure ⟨hw, hdone.books, hdone.others, fun z => (hdone.rows z).trans ?_⟩
    refine mem_skip_next (f := id) (p := fun z => sel (k.name z) = true) ?_ z
    rintro _ rfl
    exact hsely

/-- One more selected route has been deleted and forgotten. -/
theorem RoutesDropped.append {sel : String → Bool} {w w' w'' : World} {done rest : List Route}
    {y : Route} {st st' : DropLoop} (h : RoutesDropped sel w w' done st)
    (hsplit : b.listing .routes (w.vrata.rows .routes) = done ++ y :: rest)
    (hsel : sel y.name = true) (hv : w''.vrata = w'.vrata.erase .routes y.id)
    (hrc : w''.reconciler = w'.reconciler.forget y.name)
    (hst : st'.destsToCheck = st.destsToCheck ++ w'.reconciler.routeDestMap y.name) :
    RoutesDropped sel w w'' (done ++ [y]) st' := by
  have hnames : ((done ++ [y]).map Route.name).filter sel =
      (done.map Route.name).filter sel ++ [y.name] := by
    rw [List.map_append, List.filter_append, List.map_singleton, List.filter_singleton, hsel]
    rfl
  constructor
  · intro k hk
    rw [hv, ControlPlane.rows_erase_of_ne _ hk, h.others k hk]
  · rw [hv]
    exact mem_erase_next (k := .routes) (f := id) (p := fun z => sel z.name = true)
      (mem_of_listing_split hsplit) hsel (fun _ h _ => h) h.routes
  · intro dn
    rw [hrc, Reconciler.refCount_forget, h.counts, hst, List.count_append, Nat.sub_sub]
  · intro n
    rw [hrc, Reconciler.routeDestMap_forget, h.recorded, hnames]
    by_cases hn : n = y.name
    · simp [hn]
    · simp [hn]
  · intro dn
    rw [hst, List.count_append, h.checked, hnames, h.recorded]
    by_cases hmem : y.name ∈ (done.map Route.name).filter sel
    · rw [if_pos hmem, List.toFinset_append, Finset.union_eq_left.mpr]
      · simp
      · simpa using hmem
    · rw [if_neg hmem, List.toFinset_append, List.toFinset_cons, List.toFinset_nil,
        Finset.union_comm, insert_empty_eq, ← Finset.insert_eq,
        Finset.sum_insert (by simpa using hmem), Nat.add_comm]

theorem spec_dropRoutes {doing below : String} {keep : String → Bool} {w : World} (n : ℕ)
    (hsel : ∀ n, isStale below keep n = true → op.selects .routes n = true)
    (hs : Steps b op w₀ w₁) (hsame : SameStore w w₁) :
    Spec (· = w₁) ((b.listing .routes (w.vrata.rows .routes)).foldlM
        (dropRoute b doing below keep) ⟨n, []⟩)
      (fun st w' => Steps b op w₀ w' ∧ RoutesDropped (isStale below keep) w w'
        (b.listing .routes (w.vrata.rows .routes)) st)
      (Halted b op w₀) := by
  refine Spec.foldlM (I := fun done st w' => Steps b op w₀ w' ∧
    RoutesDropped (isStale below keep) w w' done st)
    ⟨hs, fun _ _ => by rw [hsame.1], by simp [hsame.1], by simp [hsame.2], by simp [hsame.2],
      by simp⟩ ?_
  rintro done y rest st w' hsplit ⟨hw, hdone⟩
  unfold dropRoute
  refine Spec.ite (fun hsely => Spec.get ?_) fun hsely => ?_
  · have hremoves : op.Removes w'.reconciler .routes y := hsel _ hsely
    refine Spec.bind (spec_during (spec_delete (mem_next hsplit hdone.routes) hremoves hw)) ?_
    rintro _ w'' ⟨hv, hrc, hw''⟩
    refine Spec.modify (Spec.pure ⟨hw'', hdone.append hsplit hsely hv ?_ rfl⟩)
    rw [hrc]
  · have hnames : ((done ++ [y]).map Route.name).filter (isStale below keep) =
        (done.map Route.name).filter (isStale below keep) := by
      rw [List.map_append, List.filter_append, List.map_singleton, List.filter_singleton]
      simp [hsely]
    refine Spec.pure ⟨hw, hdone.others, fun z => (hdone.routes z).trans ?_, hdone.counts, ?_, ?_⟩
    · refine mem_skip_next (f := id) (p := fun z : Route => isStale below keep z.name = true) ?_ z
      rintro _ rfl
      exact hsely
    · rw [hnames]
      exact hdone.recorded
    · rw [hnames]
      exact hdone.checked

theorem spec_collectAll {doing : String} {names : List String} {w : World} (n : ℕ)
    (hnames : names.Nodup) (hs : Steps b op w₀ w₁) (hsame : SameStore w w₁) :
    Spec (· = w₁) (names.foldlM (collectDestination b doing
        (b.listing .destinations (w.vrata.rows .destinations))) n)
      (fun _ w' => Steps b op w₀ w' ∧ Collected b w w' names) (Halted b op w₀) := by
  refine Spec.foldlM (I := fun done _ w' => Steps b op w₀ w' ∧ Collected b w w' done)
    ⟨hs, hsame.2, fun _ _ => by rw [hsame.1], by simp [hsame.1]⟩ ?_
  rintro done dn rest a w' hsplit ⟨hw, hdone⟩
  -- a name whose destination stays
  have hkeep : (∀ d : Destination, d.name = dn → ¬(w.reconciler.refCount d.name = 0 ∧
      (b.listing .destinations (w.vrata.rows .destinations)).find? (fun d' => d'.name = d.name) =
        some d)) → Collected b w w' (done ++ [dn]) := fun hstay =>
    ⟨hdone.books, hdone.others, fun d => (hdone.dests d).trans (mem_skip_next hstay d)⟩
  unfold collectDestination
  refine Spec.get (Spec.ite (fun hpos => ?_) fun hpos => ?_)
  · refine Spec.pure ⟨hw, hkeep ?_⟩
    rintro d rfl ⟨hzero, _⟩
    rw [hdone.books] at hpos
    omega
  rw [hdone.books] at hpos
  cases hfind : (b.listing .destinations (w.vrata.rows .destinations)).find?
      (fun d' => d'.name = dn) with
  | none =>
    refine Spec.pure ⟨hw, hkeep ?_⟩
    rintro d rfl ⟨_, hfirst⟩
    cases hfind.symm.trans hfirst
  | some d =>
    obtain rfl : d.name = dn := by simpa using List.find?_some hfind
    have hzero : w.reconciler.refCount d.name = 0 := by omega
    have hremoves : op.Removes w'.reconciler .destinations d := by
      rw [hdone.books]
      exact hzero
    have hd₁ : d ∈ w.vrata.rows .destinations :=
      mem_listing.mp (List.mem_of_find?_eq_some hfind)
    have hd : d ∈ w'.vrata.rows .destinations :=
      (hdone.dests d).mpr ⟨hd₁, fun h => not_mem_done hnames hsplit h.1⟩
    refine Spec.bind (spec_during (spec_delete hd hremoves hw)) ?_
    rintro _ w'' ⟨hv, hrc, hw''⟩
    rw [noteRemoved_of_ne (by simp)] at hw''
    refine Spec.pure ⟨hw'', hrc.trans hdone.books, fun k hk => ?_, ?_⟩
    · rw [hv, ControlPlane.rows_erase_of_ne _ hk, hdone.others k hk]
    · rw [hv]
      refine mem_erase_next (k := .destinations) hd₁ ⟨hzero, hfind⟩ ?_ hdone.dests
      rintro z hname ⟨_, hfirst⟩
      rw [hname, hfind] at hfirst
      exact (Option.some.inj hfirst).symm

/-! ## Resolving names -/

theorem byName_eq_none {k : Resource} {rows : List k.Row} {n : String} :
    byName k rows n = none ↔ ∀ y ∈ rows, k.name y ≠ n := by
  simp [byName]

theorem spec_liftExcept {α : Type} {a : α} {r : Except Err α} {Q : α → World → Prop}
    (h : r = .ok a) (ha : Q a w₁) : Spec (· = w₁) (liftExcept r) Q (Halted b op w₀) := by
  subst h
  exact Spec.pure ha

/-- When every name has an entity, resolving succeeds. -/
theorem resolveNames_eq (k : Resource) (what : String) {v : ControlPlane} {names : List String}
    (h : ∀ n ∈ names, ∃ y ∈ v.rows k, k.name y = n) :
    resolveNames k what (b.listing k (v.rows k)) names = .ok (resolution b k v names) := by
  have hfind : names.find? (fun n => (byName k (b.listing k (v.rows k)) n).isNone) = none := by
    rw [List.find?_eq_none]
    intro n hn hnone
    obtain ⟨y, hy, hname⟩ := h n hn
    rw [Option.isNone_iff_eq_none] at hnone
    exact byName_eq_none.mp hnone y (mem_listing.mpr hy) hname
  rw [resolveNames, hfind]
  rfl

theorem spec_resolveDestinationIDs {dks : List DestinationKey}
    (h : ∀ dk ∈ dks, ∃ d ∈ w₁.vrata.rows .destinations, d.name = dk.destinationName)
    (hs : Steps b op w₀ w₁) :
    Spec (· = w₁) (resolveDestinationIDs b dks)
      (fun ids w => Steps b op w₀ w ∧ SameStore w₁ w ∧
        ids = resolution b .destinations w₁.vrata (dks.map DestinationKey.destinationName))
      (Halted b op w₀) := by
  refine Spec.bind (spec_list .destinations hs) ?_
  rintro rows w ⟨hw, hsame, rfl⟩
  have hres := resolveNames_eq (b := b) .destinations "destination" (List.forall_mem_map.mpr h)
  exact spec_liftExcept hres ⟨hw, hsame, rfl⟩

theorem spec_resolveMiddlewareIDs {mws : List Middleware}
    (h : ∀ mw ∈ mws, ∃ m ∈ w₁.vrata.rows .middlewares, m.name = mw.name)
    (hs : Steps b op w₀ w₁) :
    Spec (· = w₁) (resolveMiddlewareIDs b mws)
      (fun ids w => Steps b op w₀ w ∧ SameStore w₁ w ∧
        ids = resolution b .middlewares w₁.vrata (mws.map Middleware.name))
      (Halted b op w₀) := by
  unfold resolveMiddlewareIDs
  refine Spec.ite (fun hnil => ?_) fun _ => ?_
  · refine Spec.pure ⟨hs, ⟨rfl, rfl⟩, ?_⟩
    funext n
    simp [resolution, hnil]
  · refine Spec.bind (spec_list .middlewares hs) ?_
    rintro rows w ⟨hw, hsame, rfl⟩
    have hres := resolveNames_eq (b := b) .middlewares "middleware" (List.forall_mem_map.mpr h)
    exact spec_liftExcept hres ⟨hw, hsame, rfl⟩

end Loops

/-! ## The operations -/

/-- The loops of `ApplyHTTPRoute`, one after the other. -/
structure ApplyTrail (b : Backend) (x : HTTPRouteInput) (w w' : World) where
  (dests mws routes group pruned swept : World)
  loop : RouteLoop
  groupID : String
  drop : DropLoop
  steps : Steps b (.apply x) w mws
  ensuredDests : Ensured .destinations w dests
    ((mapHTTPRoute x).destinations.map DestinationKey.destination)
  ensuredMws : Ensured .middlewares dests mws (mapHTTPRoute x).middlewares
  applied : RoutesApplied b x mws routes (mapHTTPRoute x).routes loop
  upserted : Upserted b .groups (x.writtenGroup loop.routeVrataIDs) groupID routes group
  groupBooks : group.reconciler = routes.reconciler
  dropped : RoutesDropped ((Op.apply x).selects .routes) group pruned
    (b.listing .routes (group.vrata.rows .routes)) drop
  droppedMws : Dropped .middlewares ((Op.apply x).selects .middlewares) pruned swept
    (b.listing .middlewares (pruned.vrata.rows .middlewares))
  collected : Collected b swept w' (unique drop.destsToCheck)

/-- The loops of `DeleteHTTPRoute`, one after the other. -/
structure DeleteTrail (b : Backend) (ns name : String) (w w' : World) where
  (group pruned swept : World)
  drop : DropLoop
  droppedGroups : Dropped .groups ((Op.delete ns name).selects .groups) w group
    (b.listing .groups (w.vrata.rows .groups))
  dropped : RoutesDropped ((Op.delete ns name).selects .routes) group pruned
    (b.listing .routes (group.vrata.rows .routes)) drop
  droppedMws : Dropped .middlewares ((Op.delete ns name).selects .middlewares) pruned swept
    (b.listing .middlewares (pruned.vrata.rows .middlewares))
  collected : Collected b swept w' (unique drop.destsToCheck)

section Operations

variable {b : Backend} {w w₁ w' : World}

theorem SameStore.trans {w'' : World} (h : SameStore w w') (h' : SameStore w' w'') :
    SameStore w w'' :=
  ⟨h'.1.trans h.1, h'.2.trans h.2⟩

theorem SameStore.routesApplied {x : HTTPRouteInput} {done : List MappedRoute} {st : RouteLoop}
    (hs : SameStore w w₁) (h : RoutesApplied b x w₁ w' done st) :
    RoutesApplied b x w w' done st := by
  obtain ⟨hv, hrc⟩ := hs
  cases w
  cases w₁
  obtain rfl := hv
  obtain rfl := hrc
  exact ⟨h.others, h.slices, h.stored, h.rest, h.counts, h.recorded⟩

/-- Nothing is collected for no names. -/
theorem Collected.nil (b : Backend) (w : World) : Collected b w w [] :=
  ⟨rfl, fun _ _ => rfl, by simp⟩

theorem spec_ensureDestinations {w₀ : World} (x : HTTPRouteInput) (n : ℕ)
    (hs : Steps b (.apply x) w₀ w) :
    Spec (· = w) ((mapHTTPRoute x).destinations.foldlM (ensureDestination b) n)
      (fun _ w' => Steps b (.apply x) w₀ w' ∧ Ensured .destinations w w'
        ((mapHTTPRoute x).destinations.map DestinationKey.destination))
      (Halted b (.apply x) w₀) := by
  have hmap : (mapHTTPRoute x).destinations.foldlM (ensureDestination b) n =
      ((mapHTTPRoute x).destinations.map DestinationKey.destination).foldlM
        (ensure b .destinations "checking destination" "creating destination") n := by
    rw [List.foldlM_map]
    rfl
  rw [hmap]
  refine spec_ensureAll n (by simp) ?_ ?_ hs
  · rintro d hd
    obtain ⟨dk, _, rfl⟩ := List.mem_map.mp hd
    rfl
  · rintro d hd v
    obtain ⟨dk, hdk, rfl⟩ := List.mem_map.mp hd
    exact ⟨dk, hdk, rfl⟩

theorem spec_ensureMiddlewares {w₀ : World} (x : HTTPRouteInput) (n : ℕ)
    (hs : Steps b (.apply x) w₀ w) :
    Spec (· = w) ((mapHTTPRoute x).middlewares.foldlM (ensureMiddleware b) n)
      (fun _ w' => Steps b (.apply x) w₀ w' ∧
        Ensured .middlewares w w' (mapHTTPRoute x).middlewares)
      (Halted b (.apply x) w₀) := by
  refine spec_ensureAll (k := .middlewares) n (by simp) ?_ (fun _ h _ => h) hs
  intro mw hmw
  obtain ⟨rule, ri, _, hmw⟩ := mem_middlewares_mapHTTPRoute.mp hmw
  obtain ⟨f, _, rfl⟩ := mem_ruleMiddlewares.mp hmw
  rfl

/-- `ApplyHTTPRoute` takes steps only. It goes through all its loops, or halts. -/
theorem spec_applyHTTPRoute (x : HTTPRouteInput) :
    Spec (· = w) (applyHTTPRoute b (mapHTTPRoute x))
      (fun _ w' => Steps b (.apply x) w w' ∧ Nonempty (ApplyTrail b x w w'))
      (Halted b (.apply x) w) := by
  unfold applyHTTPRoute
  refine Spec.bind (spec_ensureDestinations x 0 .refl) ?_
  rintro n w₁ ⟨hs₁, hdests⟩
  refine Spec.bind (spec_ensureMiddlewares x n hs₁) ?_
  rintro n w₂ ⟨hs₂, hmws⟩
  have hstored : ∀ dk ∈ (mapHTTPRoute x).destinations,
      ∃ d ∈ w₂.vrata.rows .destinations, d.name = dk.destinationName := by
    intro dk hdk
    rw [hmws.others _ (by simp)]
    exact hdests.named _ (List.mem_map_of_mem hdk)
  refine Spec.bind (spec_during (spec_resolveDestinationIDs hstored hs₂)) ?_
  rintro _ w₃ ⟨hs₃, hsame₃, rfl⟩
  have hstoredMws : ∀ mw ∈ (mapHTTPRoute x).middlewares,
      ∃ m ∈ w₃.vrata.rows .middlewares, m.name = mw.name := by
    rw [hsame₃.1]
    exact hmws.named
  refine Spec.bind (spec_during (spec_resolveMiddlewareIDs hstoredMws hs₃)) ?_
  rintro _ w₄ ⟨hs₄, hsame₄, rfl⟩
  have hsame := hsame₃.trans hsame₄
  rw [← hsame.1, ← hsame₄.1]
  have hready : x.Ready w₄.vrata := by
    refine ⟨List.forall_mem_map.mpr fun dk hdk => ?_, List.forall_mem_map.mpr fun mw hmw => ?_⟩
    · rw [hsame.1]
      exact hstored dk hdk
    · rw [hsame₄.1]
      exact hstoredMws mw hmw
  refine Spec.bind (spec_applyRoutes n hready hs₄) ?_
  rintro loop w₅ ⟨hs₅, hroutes⟩
  refine Spec.bind (spec_upsert (Or.inr rfl) rfl ⟨loop.routeVrataIDs, rfl⟩ hs₅) ?_
  rintro p w₆ ⟨hgroup, hbooks, -, hs₆⟩
  have hs₆ : Steps b (.apply x) w w₆ := by
    rw [noteCreated_of_ne (by simp)] at hs₆
    split at hs₆ <;> exact hs₆
  refine Spec.bind (spec_during (spec_list .routes hs₆)) ?_
  rintro _ w₇ ⟨hs₇, hsame₇, rfl⟩
  refine Spec.bind (spec_dropRoutes _ (fun _ h => h) hs₇ hsame₇) ?_
  rintro drop w₈ ⟨hs₈, hdrop⟩
  refine Spec.bind (spec_during (spec_list .middlewares hs₈)) ?_
  rintro _ w₉ ⟨hs₉, hsame₉, rfl⟩
  refine Spec.bind (spec_dropAll (k := .middlewares) _ (by simp) (by simp) (fun _ h => h) hs₉
    hsame₉) ?_
  rintro n w₁₀ ⟨hs₁₀, hdropMws⟩
  have htrail : ∀ w', Collected b w₁₀ w' (unique drop.destsToCheck) →
      Nonempty (ApplyTrail b x w w') := fun w' hcollected =>
    ⟨{ dests := w₁, mws := w₂, routes := w₅, group := w₆, pruned := w₈, swept := w₁₀, loop, drop
       groupID := p.1
       steps := hs₂
       ensuredDests := hdests
       ensuredMws := hmws
       applied := hsame.routesApplied hroutes
       upserted := hgroup
       groupBooks := hbooks
       dropped := hdrop
       droppedMws := hdropMws
       collected := hcollected }⟩
  refine Spec.ite (fun hnil => ?_) fun _ => ?_
  · exact Spec.pure ⟨hs₁₀, htrail w₁₀ (hnil ▸ Collected.nil b w₁₀)⟩
  · refine Spec.bind (spec_during (spec_list .destinations hs₁₀)) ?_
    rintro _ w₁₁ ⟨hs₁₁, hsame₁₁, rfl⟩
    refine (spec_collectAll n (nodup_unique _) hs₁₁ hsame₁₁).post ?_
    rintro _ w' ⟨hs', hcollected⟩
    exact ⟨hs', htrail w' hcollected⟩

/-- `DeleteHTTPRoute` takes steps only. It goes through all its loops, or halts. -/
theorem spec_deleteHTTPRoute (ns name : String) :
    Spec (· = w) (deleteHTTPRoute b ns name)
      (fun _ w' => Steps b (.delete ns name) w w' ∧ Nonempty (DeleteTrail b ns name w w'))
      (Halted b (.delete ns name) w) := by
  unfold deleteHTTPRoute
  refine Spec.bind (spec_during (spec_list .groups .refl)) ?_
  rintro _ w₁ ⟨hs₁, hsame₁, rfl⟩
  refine Spec.bind (spec_dropAll (k := .groups) _ (by simp) (by simp) (fun _ h => h) hs₁ hsame₁) ?_
  rintro n w₂ ⟨hs₂, hgroups⟩
  refine Spec.bind (spec_during (spec_list .routes hs₂)) ?_
  rintro _ w₃ ⟨hs₃, hsame₃, rfl⟩
  refine Spec.bind (spec_dropRoutes _ (fun _ h => h) hs₃ hsame₃) ?_
  rintro drop w₄ ⟨hs₄, hdrop⟩
  refine Spec.bind (spec_during (spec_list .middlewares hs₄)) ?_
  rintro _ w₅ ⟨hs₅, hsame₅, rfl⟩
  refine Spec.bind (spec_dropAll (k := .middlewares) _ (by simp) (by simp) (fun _ h => h) hs₅
    hsame₅) ?_
  rintro n w₆ ⟨hs₆, hdropMws⟩
  refine Spec.bind (spec_during (spec_list .destinations hs₆)) ?_
  rintro _ w₇ ⟨hs₇, hsame₇, rfl⟩
  refine (spec_collectAll n (nodup_unique _) hs₇ hsame₇).post ?_
  rintro _ w' ⟨hs', hcollected⟩
  exact ⟨hs', ⟨{
    group := w₂, pruned := w₄, swept := w₆, drop
    droppedGroups := hgroups
    dropped := hdrop
    droppedMws := hdropMws
    collected := hcollected }⟩⟩

/-- `Init` rebuilds the books from what is stored, or halts. -/
theorem spec_init :
    Spec (· = w) (init b)
      (fun _ w' => Steps b .init w w' ∧ w'.vrata = w.vrata ∧
        w'.reconciler = rebuild (b.listing .routes (w.vrata.rows .routes))
          (b.listing .destinations (w.vrata.rows .destinations)))
      (Halted b .init w) := by
  unfold init
  refine Spec.bind (spec_during (spec_list .routes .refl)) ?_
  rintro _ w₁ ⟨hs₁, hsame₁, rfl⟩
  refine Spec.bind (spec_during (spec_list .destinations hs₁)) ?_
  rintro _ w₂ ⟨hs₂, hsame₂, rfl⟩
  intro w₃ hw₃
  rw [hw₃, ← hsame₁.1, ← hsame₂.1]
  exact ⟨hs₂.tail (.rebuilt w₂ rfl), rfl, rfl⟩

end Operations

/-! ## Sequences of operations -/

/-- The program of an operation, with the number of changes it reports. -/
def Op.program (b : Backend) : Op → Sync ℕ
  | .init => do
    Controller.init b
    return 0
  | .apply x => applyHTTPRoute b (mapHTTPRoute x)
  | .delete ns name => deleteHTTPRoute b ns name

/-- The world after an operation, whether it succeeds or not. -/
def World.after (b : Backend) (w : World) (op : Op) : World :=
  match op.program b w with
  | .ok _ w' => w'
  | .error _ w' => w'

/-- The world after a sequence of operations. -/
def World.run (b : Backend) (w : World) (ops : List Op) : World := ops.foldl (World.after b) w

theorem World.run_append (b : Backend) (w : World) (ops : List Op) (op : Op) :
    w.run b (ops ++ [op]) = (w.run b ops).after b op := by
  simp [World.run]

/-- What a program leaves, whether it succeeds or not. -/
theorem after_of_spec {b : Backend} {w : World} {op : Op} {J : World → Prop}
    (h : Spec (· = w) (op.program b) (fun _ => J) J) : J (w.after b op) := by
  unfold World.after
  cases hp : op.program b w with
  | ok a w' => exact h.ok rfl hp
  | error e w' => exact h.error rfl hp

/-- Whatever happens, an operation takes steps. -/
theorem steps_after (b : Backend) (w : World) (op : Op) : Steps b op w (w.after b op) := by
  apply after_of_spec
  cases op with
  | init =>
    exact Spec.bind (spec_init.mono (fun _ _ h => h.1) fun _ h => h.1) fun _ _ h => Spec.pure h
  | apply x => exact (spec_applyHTTPRoute x).mono (fun _ _ h => h.1) fun _ h => h.1
  | delete ns name => exact (spec_deleteHTTPRoute ns name).mono (fun _ _ h => h.1) fun _ h => h.1

end Vrata.Controller

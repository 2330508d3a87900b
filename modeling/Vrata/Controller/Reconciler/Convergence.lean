import Vrata.Controller.Reconciler.Invariants

/-!
# When `ApplyHTTPRoute` converges

Reference: `clients/controller/internal/reconciler/reconciler.go`.

`Converged` says that Vrata holds exactly the mapped entities of an HTTPRoute, with their contents,
with IDs in place of names, and with the group listing its routes in mapping order. `Converges` asks
for that after every call of `ApplyHTTPRoute` that returns without error, for every order of listing
and every outcome of the requests.

`converges_iff` says for which stores and books this is so (`Convergent`). Middlewares are never
updated and duplicates never removed, so they must be right beforehand. The slices of a rule with
several matches are resolved several times, so an ID must not look like another mapped name. And a
destination that the HTTPRoute uses is lost when the books say that only its stale routes used it.
-/

namespace Vrata.Controller

open Effect

/-! ## Convergence -/

/-- The entities of `k` with the name. -/
def named (k : Resource) (v : ControlPlane) (n : String) : List k.Row :=
  (v.rows k).filter fun y => k.name y = n

/-- The slices `s` are `s₀` with names replaced by IDs of entities in `v`. -/
structure ResolvedTo (v : ControlPlane) (forward : Bool) (s₀ s : RuleSlices) : Prop where
  dests : forward = true → List.Forall₂ (fun d₀ d : DestRef => d.weight = d₀.weight ∧
    ∃ e ∈ v.rows .destinations, e.name = d₀.destinationId ∧ e.id = d.destinationId)
    s₀.destRefs s.destRefs
  mws : List.Forall₂ (fun n i => ∃ m ∈ v.rows .middlewares, m.name = n ∧ m.id = i)
    s₀.middlewareIDs s.middlewareIDs

/-- The only route of the name has the ID `i` and the mapped contents. -/
def Realised (x : HTTPRouteInput) (v : ControlPlane) (mr : MappedRoute) (i : String) : Prop :=
  ∃ s, named .routes v mr.name = [{ mr.withSlices s with id := i }] ∧
    ResolvedTo v mr.forward.isSome (sliceOf (mapHTTPRoute x).slices mr.rule) s

/-- Vrata holds exactly the mapped entities of the HTTPRoute. -/
structure Converged (x : HTTPRouteInput) (v : ControlPlane) : Prop where
  routesOnly : ∀ r ∈ v.rows .routes, Text.hasPrefix r.name (x.groupName ++ "/") = true →
    r.name ∈ x.routeNames
  mwsOnly : ∀ m ∈ v.rows .middlewares, Text.hasPrefix m.name (x.groupName ++ "/") = true →
    m.name ∈ x.mwNames
  mws : ∀ mw ∈ (mapHTTPRoute x).middlewares, ∃ i,
    named .middlewares v mw.name = [{ mw with id := i }]
  group : ∃ ids i, List.Forall₂ (Realised x v) (mapHTTPRoute x).routes ids ∧
    named .groups v x.groupName = [{ x.writtenGroup ids with id := i }]

/-- Every call of `ApplyHTTPRoute` from this store and these books converges if it succeeds. -/
def Converges (x : HTTPRouteInput) (v : ControlPlane) (rc : Reconciler) : Prop :=
  ∀ (b : Backend) (plan : List Outcome) (trace : List Call) (n : ℕ) (w' : World),
    applyHTTPRoute b (mapHTTPRoute x) ⟨v, rc, plan, trace⟩ = .ok n w' → Converged x w'.vrata

/-! ## The condition -/

/-- The names of the stored routes that the HTTPRoute no longer has. -/
def HTTPRouteInput.staleNames (x : HTTPRouteInput) (v : ControlPlane) : Finset String :=
  (((v.rows .routes).map Route.name).filter ((Op.apply x).selects .routes)).toFinset

/-- How often the entries of stale routes name a destination. -/
def HTTPRouteInput.staleCount (x : HTTPRouteInput) (v : ControlPlane) (rc : Reconciler)
    (dn : String) : ℕ :=
  ∑ n ∈ x.staleNames v, (rc.routeDestMap n).count dn

/-- How many routes are going to be created. -/
def HTTPRouteInput.newRoutes (x : HTTPRouteInput) (v : ControlPlane) : ℕ :=
  (mapHTTPRoute x).routes.countP fun r => r.name ∉ (v.rows .routes).map Route.name

/-- What the store and the books must be like for `ApplyHTTPRoute` to converge. -/
structure Convergent (x : HTTPRouteInput) (v : ControlPlane) (rc : Reconciler) : Prop where
  /-- A stored middleware with a mapped name is the only one and has the mapped contents. -/
  mws : ∀ mw ∈ (mapHTTPRoute x).middlewares, AtMostOne .middlewares mw.name v ∧
    ∀ m ∈ v.rows .middlewares, m.name = mw.name → m = { mw with id := m.id }
  /-- A stored route with a mapped name is the only one. -/
  routes : ∀ n ∈ x.routeNames, AtMostOne .routes n v
  group : AtMostOne .groups x.groupName v
  /-- No ID that the second or a later match of a rule resolves is another mapped name. -/
  destIDs : ∀ mr n, x.Position mr (n + 1) → ∀ dn ∈ x.backendNames mr,
    ∀ d ∈ v.rows .destinations, d.name = dn → d.id = dn ∨ d.id ∉ x.destNames
  mwIDs : ∀ mr n, x.Position mr (n + 1) →
    ∀ mn ∈ (sliceOf (mapHTTPRoute x).slices mr.rule).middlewareIDs,
    ∀ m ∈ v.rows .middlewares, m.name = mn → m.id = mn ∨ m.id ∉ x.mwNames
  /-- A destination in use is not given up: no stale route is booked for it, or the books count more
  references than that, or the one that is deleted is not the one that is used. -/
  inUse : ∀ mr ∈ (mapHTTPRoute x).routes, ∀ dn ∈ x.backendNames mr,
    x.staleCount v rc dn = 0 ∨ x.staleCount v rc dn < rc.refCount dn + x.newRoutes v ∨
      ¬AtMostOne .destinations dn v

/-! ## The books after a call -/

section Trail

variable {b : Backend} {x : HTTPRouteInput} {w w' : World}

/-- The routes that are deleted are those stale at the start. -/
theorem ApplyTrail.stale_eq (t : ApplyTrail b x w w') :
    (((b.listing .routes (t.group.vrata.rows .routes)).map Route.name).filter
      ((Op.apply x).selects .routes)).toFinset = x.staleNames w.vrata := by
  ext n
  simp only [HTTPRouteInput.staleNames, List.mem_toFinset, List.mem_filter, List.mem_map]
  refine and_congr_left fun hsel => exists_congr fun r => and_congr_left ?_
  rintro rfl
  have hrow : r ∈ t.routes.vrata.rows .routes ↔ r ∈ t.mws.vrata.rows .routes :=
    t.applied.rest r (not_mem_routeNames_of_selects hsel)
  rw [mem_listing, t.routes_group, hrow, t.routes_mws]

theorem ApplyTrail.count_checked (t : ApplyTrail b x w w') (dn : String) :
    t.drop.destsToCheck.count dn = x.staleCount w.vrata w.reconciler dn := by
  rw [t.dropped.checked, t.stale_eq, HTTPRouteInput.staleCount]
  refine Finset.sum_congr rfl fun n hn => ?_
  have hsel : (Op.apply x).selects .routes n = true :=
    (List.mem_filter.mp (List.mem_toFinset.mp hn)).2
  rw [t.groupBooks, t.applied.recorded, if_neg fun h => not_mem_routeNames_of_selects hsel h.1,
    t.ensuredMws.books, t.ensuredDests.books]

theorem ApplyTrail.refCount_swept (t : ApplyTrail b x w w') (dn : String) :
    t.swept.reconciler.refCount dn = w.reconciler.refCount dn +
      x.destNames.count dn * x.newRoutes w.vrata - x.staleCount w.vrata w.reconciler dn := by
  rw [t.droppedMws.books, t.dropped.counts, t.groupBooks, t.applied.counts, t.count_checked,
    t.ensuredMws.books, t.ensuredDests.books, World.routeNames, t.routes_mws,
    HTTPRouteInput.newRoutes]

theorem ApplyTrail.refCount_swept_of_mem (t : ApplyTrail b x w w') {dn : String}
    (hdn : dn ∈ x.destNames) : t.swept.reconciler.refCount dn =
      w.reconciler.refCount dn + x.newRoutes w.vrata - x.staleCount w.vrata w.reconciler dn := by
  have hone : x.destNames.count dn = 1 := List.count_eq_one_of_mem (nodup_destNames x) hdn
  rw [t.refCount_swept, hone, Nat.one_mul]

end Trail

theorem mem_named {k : Resource} {v : ControlPlane} {n : String} {y : k.Row} :
    y ∈ named k v n ↔ y ∈ v.rows k ∧ k.name y = n := by
  simp [named]

/-- The only entity of a name is all there is of that name. -/
theorem named_eq_singleton {k : Resource} {v : ControlPlane} {n : String} {y : k.Row}
    (hone : AtMostOne k n v) (hy : y ∈ v.rows k) (hn : k.name y = n) : named k v n = [y] := by
  have hnodup : (named k v n).Nodup := (v.table k).nodup.of_map.filter _
  refine List.perm_singleton.mp ((List.perm_ext_iff_of_nodup hnodup (List.nodup_singleton y)).mpr ?_)
  intro z
  rw [mem_named, List.mem_singleton]
  constructor
  · rintro ⟨hz, hzn⟩
    exact hone z hz y hy hzn hn
  · rintro rfl
    exact ⟨hy, hn⟩

/-! ## Places of mapped routes -/

section Positions

variable {x : HTTPRouteInput} {mr mr' : MappedRoute} {n n' : ℕ}

theorem exists_position (h : mr ∈ (mapHTTPRoute x).routes) : ∃ n, x.Position mr n := by
  obtain ⟨before, after, hsplit⟩ := List.append_of_mem h
  exact ⟨_, before, after, hsplit, rfl⟩

theorem HTTPRouteInput.Position.unique (h : x.Position mr n) (h' : x.Position mr n') : n = n' := by
  obtain ⟨rule, ri, hrule, hmr⟩ := mem_routes_mapHTTPRoute.mp h.mem
  obtain ⟨m, mi, _, rfl⟩ := mem_ruleRoutes.mp hmr
  obtain ⟨before, after, hsplit, rfl⟩ := h
  obtain ⟨before', after', hsplit', rfl⟩ := h'
  exact (countP_before hrule hsplit).trans (countP_before hrule hsplit').symm

theorem backendNames_eq (x : HTTPRouteInput) (mr : MappedRoute) : x.backendNames mr =
    if mr.forward.isSome then
      (sliceOf (mapHTTPRoute x).slices mr.rule).destRefs.map DestRef.destinationId
    else [] :=
  destinationIDs_withSlices _ _

/-- A rule with several matches has a second one, with the same slices. -/
theorem exists_position_one (h : x.Position mr (n + 1)) : ∃ mr', x.Position mr' 1 ∧
    mr'.rule = mr.rule ∧ x.backendNames mr' = x.backendNames mr := by
  obtain ⟨before, after, hsplit, hcount⟩ := id h
  have hlt : 1 < (mapHTTPRoute x).routes.countP fun r => r.rule = mr.rule := by
    rw [hsplit, List.countP_append, List.countP_cons_of_pos (by simp), ← hcount]
    omega
  obtain ⟨before', mr', after', hsplit', hrule, hone⟩ := exists_split_of_lt_countP hlt
  replace hrule : mr'.rule = mr.rule := by simpa using hrule
  have hpos : x.Position mr' 1 := ⟨before', after', hsplit', by rw [hrule]; exact hone.symm⟩
  refine ⟨mr', hpos, hrule, ?_⟩
  rw [backendNames_eq, backendNames_eq, hrule, forward_eq_of_rule_eq hpos.mem h.mem hrule]

/-- The middlewares a mapped route names are mapped. -/
theorem mem_mwNames_of_mem_slice (h : mr ∈ (mapHTTPRoute x).routes) {mn : String}
    (hmn : mn ∈ (sliceOf (mapHTTPRoute x).slices mr.rule).middlewareIDs) : mn ∈ x.mwNames := by
  obtain ⟨rule, ri, hrule, hmr⟩ := mem_routes_mapHTTPRoute.mp h
  rw [rule_of_mem_ruleRoutes hmr, sliceOf_mapHTTPRoute hrule] at hmn
  cases hf : findFilter rule.filters .requestHeaderModifier with
  | none => simp [ruleSlices, hf] at hmn
  | some f =>
    obtain rfl : mn = headersName x.groupName ri := by simpa [ruleSlices, hf] using hmn
    refine List.mem_map.mpr ⟨mapHeaderModifierFilter _ f, ?_, rfl⟩
    exact mem_middlewares_mapHTTPRoute.mpr ⟨rule, ri, hrule, mem_ruleMiddlewares.mpr ⟨f, hf, rfl⟩⟩

end Positions

theorem exists_of_forall₂ {α β : Type} {R : α → β → Prop} {as : List α} {bs : List β} {a : α}
    (h : List.Forall₂ R as bs) (ha : a ∈ as) : ∃ b, R a b := by
  induction h with
  | nil => cases ha
  | cons hab _ ih =>
    rcases List.mem_cons.mp ha with rfl | ha
    · exact ⟨_, hab⟩
    · exact ih ha

/-! ## The condition suffices -/

section Sufficient

variable {b : Backend} {x : HTTPRouteInput} {w w' : World} {mr : MappedRoute} {n : ℕ}

/-- A backend of a mapped route is resolved to the ID of a destination of its name that is still
there in the end. -/
theorem ApplyTrail.exists_dest (t : ApplyTrail b x w w')
    (hc : Convergent x w.vrata w.reconciler) (hpos : x.Position mr n) {dn : String}
    (hdn : dn ∈ x.backendNames mr) : ∃ e ∈ w'.vrata.rows .destinations, e.name = dn ∧
      e.id = (resolveName (resolution b .destinations t.mws.vrata x.destNames))^[n + 1] dn := by
  have hmem := mem_destNames_of_mem_backendNames hpos.mem hdn
  obtain ⟨e, he, hename, hres, hlast⟩ := resolution_eq_last (b := b) (k := .destinations)
    t.ready.dests hmem
  refine ⟨e, (t.collected.dests e).mpr ⟨t.dests_swept ▸ he, ?_⟩, hename, ?_⟩
  · rintro ⟨hchecked, hzero, hfirst⟩
    replace hename : e.name = dn := hename
    rw [hename] at hchecked hzero hfirst
    rw [t.refCount_swept_of_mem hmem] at hzero
    rw [mem_unique, ← List.count_pos_iff, t.count_checked] at hchecked
    rcases hc.inUse mr hpos.mem dn hdn with h | h | h
    · omega
    · omega
    · -- the one deleted is the first of the name, and the one resolved to the last
      refine h fun y hy y' hy' hn hn' => ?_
      rw [t.dests_swept] at hfirst
      have hall : ∀ y ∈ w.vrata.rows .destinations, y.name = dn → y = e := fun y hy hn =>
        eq_of_find?_reverse (nodup_listing (b := b) _ _) hfirst hlast
          (mem_listing.mpr (t.mem_dests hy)) (by simpa using hn)
      rw [hall y hy hn, hall y' hy' hn']
  · have hone : resolveName (resolution b .destinations t.mws.vrata x.destNames) dn = e.id := by
      simp [resolveName, hres]
    cases n with
    | zero => exact hone.symm
    | succ n =>
      rw [iterate_resolveName_once (k := .destinations) t.ready.dests hmem, hone]
      intro y hy hyname
      rcases t.steps.old_or_new (k := .destinations) (by simp) y hy with hold | hnew
      · exact hc.destIDs mr n hpos dn hdn y hold hyname
      · right
        intro hid
        exact Bool.false_ne_true (hnew.symm.trans (isOwned_of_mem_destNames hid))

/-- The same for the middlewares of a mapped route. -/
theorem ApplyTrail.exists_mw (t : ApplyTrail b x w w')
    (hc : Convergent x w.vrata w.reconciler) (hpos : x.Position mr n) {mn : String}
    (hmn : mn ∈ (sliceOf (mapHTTPRoute x).slices mr.rule).middlewareIDs) :
    ∃ m ∈ w'.vrata.rows .middlewares, m.name = mn ∧
      m.id = (resolveName (resolution b .middlewares t.mws.vrata x.mwNames))^[n + 1] mn := by
  have hmem := mem_mwNames_of_mem_slice hpos.mem hmn
  obtain ⟨m, hm, hmname, hres⟩ := resolution_eq_some (b := b) (k := .middlewares)
    t.ready.mws hmem
  replace hmname : m.name = mn := hmname
  refine ⟨m, (t.mem_middlewares m).mpr ⟨hm, selects_middlewares_of_mem ?_⟩, hmname, ?_⟩
  · rwa [hmname]
  · have hone : resolveName (resolution b .middlewares t.mws.vrata x.mwNames) mn = m.id := by
      simp [resolveName, hres]
    cases n with
    | zero => exact hone.symm
    | succ n =>
      rw [iterate_resolveName_once (k := .middlewares) t.ready.mws hmem, hone]
      intro y hy hyname
      rcases t.steps.old_or_new (k := .middlewares) (by simp) y hy with hold | hnew
      · exact hc.mwIDs mr n hpos mn hmn y hold hyname
      · right
        intro hid
        obtain ⟨mw, hmw, hname⟩ := List.mem_map.mp hid
        have := isOwned_below (below_of_mem_middlewares hmw)
        rw [hname] at this
        exact Bool.false_ne_true (hnew.symm.trans this)

/-- The slices written last are resolved if every name in them is. -/
theorem resolvedTo_slicesAfter {v v' : ControlPlane}
    (hd : ∀ dn ∈ x.backendNames mr, ∃ e ∈ v'.rows .destinations, e.name = dn ∧
      e.id = (resolveName (resolution b .destinations v x.destNames))^[n] dn)
    (hm : ∀ mn ∈ (sliceOf (mapHTTPRoute x).slices mr.rule).middlewareIDs,
      ∃ m ∈ v'.rows .middlewares, m.name = mn ∧
        m.id = (resolveName (resolution b .middlewares v x.mwNames))^[n] mn) :
    ResolvedTo v' mr.forward.isSome (sliceOf (mapHTTPRoute x).slices mr.rule)
      (x.slicesAfter b v mr n) := by
  rw [HTTPRouteInput.slicesAfter, iterate_resolveSlices]
  refine ⟨fun hf => ?_, ?_⟩
  · rw [if_pos hf, List.forall₂_map_right_iff, List.forall₂_same]
    intro d hmem
    refine ⟨rfl, hd d.destinationId ?_⟩
    rw [backendNames_eq, if_pos hf]
    exact List.mem_map_of_mem hmem
  · rw [List.forall₂_map_right_iff, List.forall₂_same]
    exact hm

theorem convergent_converges {v : ControlPlane} {rc : Reconciler} (hc : Convergent x v rc) :
    Converges x v rc := by
  intro b plan trace changes w' hrun
  obtain ⟨hsteps, ⟨t⟩⟩ := (spec_applyHTTPRoute x).ok rfl hrun
  refine ⟨fun r hr hbelow => ?_, fun m hm hbelow => ?_, fun mw hmw => ?_, ?_⟩
  · have hkeep := ((t.mem_routes r).mp hr).2
    simpa [Op.selects, isStale, isOwned_below hbelow, hbelow] using hkeep
  · have hkeep := ((t.mem_middlewares m).mp hm).2
    simpa [Op.selects, isStale, isOwned_below hbelow, hbelow] using hkeep
  · obtain ⟨m, hm, hname⟩ := t.ensuredMws.named mw hmw
    replace hname : m.name = mw.name := hname
    have hmem : m ∈ w'.vrata.rows .middlewares := (t.mem_middlewares m).mpr
      ⟨hm, selects_middlewares_of_mem (hname ▸ List.mem_map_of_mem hmw)⟩
    have hcontent := hsteps.middleware_content hmw (hc.mws mw hmw).2 m hmem hname
    refine ⟨m.id, ?_⟩
    rw [named_eq_singleton ((hc.mws mw hmw).1.steps hsteps) hmem hname]
    exact congrArg (fun m => [m]) hcontent
  · refine ⟨t.loop.routeVrataIDs, t.groupID, ?_, ?_⟩
    · refine List.Forall₂.imp ?_ ((List.forall₂_and_left _ _).mpr
        ⟨fun mr hmr => hmr, t.applied.stored⟩)
      rintro mr i ⟨hmr, n, hpos, hrow⟩
      have hname := List.mem_map_of_mem (f := MappedRoute.name) hmr
      refine ⟨x.slicesAfter b t.mws.vrata mr (n + 1), ?_, resolvedTo_slicesAfter
        (fun dn hdn => t.exists_dest hc hpos hdn) (fun mn hmn => t.exists_mw hc hpos hmn)⟩
      refine named_eq_singleton ((hc.routes _ hname).steps hsteps) ((t.mem_routes _).mpr
        ⟨hrow, selects_routes_of_mem hname⟩) rfl
    · refine named_eq_singleton (hc.group.steps hsteps) ?_ rfl
      rw [t.groups]
      exact t.upserted.mem

end Sufficient

/-! ## The condition is necessary -/

section Necessary

variable {b : Backend} {x : HTTPRouteInput} {w w' : World} {mr : MappedRoute} {n : ℕ}
  {v : ControlPlane} {rc : Reconciler}

/-- A call without failures, to be compared with what convergence promises. -/
theorem Converges.exists_run (h : Converges x v rc) (b : Backend) :
    ∃ w', Steps b (.apply x) ⟨v, rc, [], []⟩ w' ∧ Nonempty (ApplyTrail b x ⟨v, rc, [], []⟩ w') ∧
      Converged x w'.vrata := by
  obtain ⟨changes, w', hrun, hsteps, ht⟩ := apply_ok (w := ⟨v, rc, [], []⟩) b x (by simp [World.Fine])
  exact ⟨w', hsteps, ht, h b [] [] changes w' hrun⟩

/-- Where the store converges, the slices written last are resolved. -/
theorem ApplyTrail.resolvedTo (t : ApplyTrail b x w w') (hconv : Converged x w'.vrata)
    (hpos : x.Position mr n) :
    ResolvedTo w'.vrata mr.forward.isSome (sliceOf (mapHTTPRoute x).slices mr.rule)
      (x.slicesAfter b t.mws.vrata mr (n + 1)) := by
  obtain ⟨ids, _, hall, _⟩ := hconv.group
  obtain ⟨i, s, hnamed, hres⟩ := exists_of_forall₂ hall hpos.mem
  obtain ⟨i', n', hpos', hrow⟩ := exists_of_forall₂ t.applied.stored hpos.mem
  obtain rfl := hpos.unique hpos'
  -- the route written is the only one of its name
  have hname := List.mem_map_of_mem (f := MappedRoute.name) hpos.mem
  have hmem : Resource.routes.withID i' (x.writtenRoute b t.mws.vrata mr n) ∈
      named .routes w'.vrata mr.name :=
    mem_named.mpr ⟨(t.mem_routes _).mpr ⟨hrow, selects_routes_of_mem hname⟩, rfl⟩
  rw [hnamed, List.mem_singleton] at hmem
  have hfwd := congrArg Route.forward hmem
  have hmws : (x.slicesAfter b t.mws.vrata mr (n + 1)).middlewareIDs = s.middlewareIDs :=
    congrArg Route.middlewareIDs hmem
  refine ⟨fun hf => ?_, hmws ▸ hres.mws⟩
  obtain ⟨rewrite, hrewrite⟩ := Option.isSome_iff_exists.mp hf
  have hdests : (x.slicesAfter b t.mws.vrata mr (n + 1)).destRefs = s.destRefs := by
    simpa [Resource.withID, HTTPRouteInput.writtenRoute, MappedRoute.withSlices, hrewrite]
      using hfwd
  exact hdests ▸ hres.dests hf

/-- Two entities of one name that both stay contradict convergence. -/
theorem atMostOne_of_named {k : Resource} {m : String} {y : k.Row} (hk : k ≠ .destinations)
    (hsel : (Op.apply x).selects k m = false) (hsteps : Steps b (.apply x) w w')
    (hnamed : named k w'.vrata m = [y]) : AtMostOne k m w.vrata := by
  have hid : ∀ z ∈ w.vrata.rows k, k.name z = m → k.id z = k.id y := by
    intro z hz hname
    obtain ⟨z', hz', hzid, hzname⟩ := HasNamed.steps hk hsel ⟨z, hz, rfl, hname⟩ hsteps
    have hmem := mem_named.mpr ⟨hz', hzname⟩
    rw [hnamed, List.mem_singleton] at hmem
    rw [← hzid, hmem]
  intro z hz z' hz' hname hname'
  exact w.vrata.eq_of_id_eq hz hz' ((hid z hz hname).trans (hid z' hz' hname').symm)

theorem Converges.middlewares (h : Converges x v rc) {mw : Middleware}
    (hmw : mw ∈ (mapHTTPRoute x).middlewares) : AtMostOne .middlewares mw.name v ∧
      ∀ m ∈ v.rows .middlewares, m.name = mw.name → m = { mw with id := m.id } := by
  obtain ⟨w', hsteps, _, hconv⟩ := h.exists_run .plain
  obtain ⟨i, hnamed⟩ := hconv.mws mw hmw
  have hsel := selects_middlewares_of_mem (List.mem_map_of_mem (f := Middleware.name) hmw)
  refine ⟨atMostOne_of_named (by simp) hsel hsteps hnamed, fun m hm hname => ?_⟩
  have hstays := hsteps.row_stays (by simp) (by simp) hm (by rwa [Resource.name_middlewares, hname])
  have hmem : m ∈ named .middlewares w'.vrata mw.name := mem_named.mpr ⟨hstays, hname⟩
  rw [hnamed, List.mem_singleton] at hmem
  rw [hmem]

theorem Converges.routes (h : Converges x v rc) {m : String} (hm : m ∈ x.routeNames) :
    AtMostOne .routes m v := by
  obtain ⟨w', hsteps, _, hconv⟩ := h.exists_run .plain
  obtain ⟨mr, hmr, rfl⟩ := List.mem_map.mp hm
  obtain ⟨ids, _, hall, _⟩ := hconv.group
  obtain ⟨i, s, hnamed, _⟩ := exists_of_forall₂ hall hmr
  exact atMostOne_of_named (by simp) (selects_routes_of_mem hm) hsteps hnamed

theorem Converges.group (h : Converges x v rc) : AtMostOne .groups x.groupName v := by
  obtain ⟨w', hsteps, _, hconv⟩ := h.exists_run .plain
  obtain ⟨ids, i, _, hnamed⟩ := hconv.group
  exact atMostOne_of_named (by simp) rfl hsteps hnamed

/-- What the resolved slices say about one backend. -/
theorem ResolvedTo.exists_dest {v' : ControlPlane} (h : ResolvedTo v' mr.forward.isSome
    (sliceOf (mapHTTPRoute x).slices mr.rule) (x.slicesAfter b v mr n)) {dn : String}
    (hdn : dn ∈ x.backendNames mr) : ∃ e ∈ v'.rows .destinations, e.name = dn ∧
      e.id = (resolveName (resolution b .destinations v x.destNames))^[n] dn := by
  rw [backendNames_eq] at hdn
  split at hdn
  · rename_i hf
    obtain ⟨d, hd, rfl⟩ := List.mem_map.mp hdn
    have hall := h.dests hf
    rw [HTTPRouteInput.slicesAfter, iterate_resolveSlices, if_pos hf, List.forall₂_map_right_iff,
      List.forall₂_same] at hall
    exact (hall d hd).2
  · cases hdn

theorem ResolvedTo.exists_mw {v' : ControlPlane} (h : ResolvedTo v' mr.forward.isSome
    (sliceOf (mapHTTPRoute x).slices mr.rule) (x.slicesAfter b v mr n)) {mn : String}
    (hmn : mn ∈ (sliceOf (mapHTTPRoute x).slices mr.rule).middlewareIDs) :
    ∃ m ∈ v'.rows .middlewares, m.name = mn ∧
      m.id = (resolveName (resolution b .middlewares v x.mwNames))^[n] mn := by
  have hall := h.mws
  rw [HTTPRouteInput.slicesAfter, iterate_resolveSlices, List.forall₂_map_right_iff,
    List.forall₂_same] at hall
  exact hall mn hmn

/-- A backend that lists one destination after all others. -/
def Backend.listingLast (d : Destination) : Backend where
  next := Backend.plain.next
  fresh := Backend.plain.fresh
  hex := Backend.plain.hex
  listing
    | .destinations, rows => rows.filter (fun e => !decide (e = d)) ++ rows.filter (fun e => e = d)
    | _, rows => rows
  listing_perm := by
    rintro (_ | _ | _ | _ | _) rows
    case destinations =>
      exact List.perm_append_comm.trans (List.filter_append_perm (fun e => decide (e = d)) rows)
    all_goals exact List.Perm.refl _

/-- There, the name of that destination resolves to its ID. -/
theorem resolution_listingLast {d : Destination} {names : List String}
    (hd : d ∈ v.rows .destinations) (hn : d.name ∈ names) :
    resolution (.listingLast d) .destinations v names d.name = some d.id := by
  have hlast : ((v.rows .destinations).filter fun e => e = d).reverse.find?
      (fun e => e.name = d.name) = some d := by
    cases hfind : ((v.rows .destinations).filter fun e => e = d).reverse.find?
        (fun e => e.name = d.name) with
    | none =>
      rw [List.find?_eq_none] at hfind
      exact absurd (hfind d (by simpa using hd)) (by simp)
    | some e =>
      have := List.mem_of_find?_eq_some hfind
      simp only [List.mem_reverse, List.mem_filter, decide_eq_true_eq] at this
      rw [this.2]
  rw [resolution, if_pos hn, byName]
  show Option.map _ (((v.rows .destinations).filter (fun e => !decide (e = d)) ++
    (v.rows .destinations).filter fun e => e = d).reverse.find? fun e => e.name = d.name) = _
  rw [List.reverse_append, List.find?_append, hlast]
  rfl

theorem Converges.destIDs (h : Converges x v rc) (hpos : x.Position mr (n + 1)) {dn : String}
    (hdn : dn ∈ x.backendNames mr) {d : Destination} (hd : d ∈ v.rows .destinations)
    (hname : d.name = dn) : d.id = dn ∨ d.id ∉ x.destNames := by
  refine or_iff_not_imp_right.mpr fun hid => ?_
  obtain ⟨w', _, ⟨t⟩, hconv⟩ := h.exists_run (.listingLast d)
  obtain ⟨mr', hpos', _, hbackends⟩ := exists_position_one hpos
  obtain ⟨e, he, hename, heid⟩ := (t.resolvedTo hconv hpos').exists_dest (hbackends ▸ hdn)
  have hres := resolution_listingLast (t.mem_dests hd)
    (hname ▸ mem_destNames_of_mem_backendNames hpos.mem hdn)
  rw [hname] at hres
  exact id_eq_of_iterate_two (k := .destinations) t.ready.dests hres (not_not.mp hid)
    (t.mem_dests_of_mem he) hename heid

theorem Converges.mwIDs (h : Converges x v rc) (hpos : x.Position mr (n + 1)) {mn : String}
    (hmn : mn ∈ (sliceOf (mapHTTPRoute x).slices mr.rule).middlewareIDs) {m : Middleware}
    (hm : m ∈ v.rows .middlewares) (hname : m.name = mn) : m.id = mn ∨ m.id ∉ x.mwNames := by
  refine or_iff_not_imp_right.mpr fun hid => ?_
  have hmem := mem_mwNames_of_mem_slice hpos.mem hmn
  obtain ⟨mw, hmw, hmwname⟩ := List.mem_map.mp hmem
  obtain ⟨w', _, ⟨t⟩, hconv⟩ := h.exists_run .plain
  obtain ⟨mr', hpos', hrule, _⟩ := exists_position_one hpos
  obtain ⟨e, he, hename, heid⟩ := (t.resolvedTo hconv hpos').exists_mw (hrule ▸ hmn)
  have hm' : m ∈ t.mws.vrata.rows .middlewares := by
    refine t.ensuredMws.kept m ?_
    rwa [t.ensuredDests.others .middlewares (by simp)]
  obtain ⟨y, hy, hyname, hres⟩ := resolution_eq_some (b := .plain) (k := .middlewares)
    t.ready.mws hmem
  -- there is only one middleware of the name
  obtain rfl : y = m := ((h.middlewares hmw).1.steps t.steps) y hy m hm'
    (hyname.trans hmwname.symm) (hname.trans hmwname.symm)
  exact id_eq_of_iterate_two (k := .middlewares) t.ready.mws hres (not_not.mp hid)
    ((t.mem_middlewares e).mp he).1 hename heid

theorem Converges.inUse (h : Converges x v rc) (hmr : mr ∈ (mapHTTPRoute x).routes) {dn : String}
    (hdn : dn ∈ x.backendNames mr) : x.staleCount v rc dn = 0 ∨
      x.staleCount v rc dn < rc.refCount dn + x.newRoutes v ∨ ¬AtMostOne .destinations dn v := by
  by_contra hlost
  simp only [not_or, not_not] at hlost
  obtain ⟨hstale, hcount, hone⟩ := hlost
  obtain ⟨n, hpos⟩ := exists_position hmr
  obtain ⟨w', _, ⟨t⟩, hconv⟩ := h.exists_run .plain
  obtain ⟨e, he, hename, _⟩ := (t.resolvedTo hconv hpos).exists_dest hdn
  have hchecked : t.drop.destsToCheck.count dn = x.staleCount v rc dn := t.count_checked dn
  have hzero : t.swept.reconciler.refCount dn =
      rc.refCount dn + x.newRoutes v - x.staleCount v rc dn :=
    t.refCount_swept_of_mem (mem_destNames_of_mem_backendNames hmr hdn)
  obtain ⟨hswept, hkept⟩ := (t.collected.dests e).mp he
  rw [hename] at hkept
  refine hkept ⟨mem_unique.mpr (List.count_pos_iff.mp ?_), ?_, ?_⟩
  · omega
  · omega
  · -- the first of the name is the only one
    have hfound : ((Backend.plain.listing .destinations (t.swept.vrata.rows .destinations)).find?
        fun d => d.name = dn).isSome :=
      List.find?_isSome.mpr ⟨e, mem_listing.mpr hswept, by simpa using hename⟩
    obtain ⟨y, hfirst⟩ := Option.isSome_iff_exists.mp hfound
    have hy := List.mem_of_find?_eq_some hfirst
    rw [mem_listing, t.dests_swept] at hy
    have hyname : y.name = dn := by simpa using List.find?_some hfirst
    rw [hfirst, hone.steps t.steps y hy e (t.mem_dests_of_mem he) hyname hename]

end Necessary

/-- `ApplyHTTPRoute` converges on exactly the stores and books that meet the condition. -/
theorem converges_iff (x : HTTPRouteInput) (v : ControlPlane) (rc : Reconciler) :
    Converges x v rc ↔ Convergent x v rc := by
  refine ⟨fun h => ⟨?_, ?_, h.group, ?_, ?_, ?_⟩, convergent_converges⟩
  · exact fun mw hmw => h.middlewares hmw
  · exact fun n hn => h.routes hn
  · exact fun mr n hpos dn hdn d hd hname => h.destIDs hpos hdn hd hname
  · exact fun mr n hpos mn hmn m hm hname => h.mwIDs hpos hmn hm hname
  · exact fun mr hmr dn hdn => h.inUse hmr hdn

/-! ## A header that changes -/

/-- An HTTPRoute whose only rule sets a header for its backend. -/
def settingHeader (value : String) : HTTPRouteInput where
  name := "web"
  «namespace» := "default"
  hostnames := []
  rules := [⟨[], [⟨"a", "default", 80, 1⟩],
    [{ type := .requestHeaderModifier, headersToAdd := [⟨"x-env", value⟩] }]⟩]

/-- A changed header value does not reach Vrata: the stored middleware is left as it is. -/
theorem not_converges_changed_header :
    ¬Converges (settingHeader "prod")
      (World.start.run .plain [.init, .apply (settingHeader "test")]).vrata
      (World.start.run .plain [.init, .apply (settingHeader "test")]).reconciler := by
  intro h
  have hmws : ∀ mw ∈ (mapHTTPRoute (settingHeader "prod")).middlewares,
      ∀ m ∈ (World.start.run .plain [.init, .apply (settingHeader "test")]).vrata.rows .middlewares,
        m.name = mw.name → m = { mw with id := m.id } := fun _ hmw => (h.middlewares hmw).2
  revert hmws
  decide +kernel

end Vrata.Controller

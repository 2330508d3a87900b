import Vrata.Controller.Mapper.Names
import Vrata.Controller.Reconciler.Steps

/-!
# What a written route refers to

A route is written with slices that have been resolved once for every route of its rule up to and
including itself. Resolving a name gives the ID of a stored entity of that name; resolving that ID
again changes nothing unless the ID is itself one of the mapped names.
-/

namespace Vrata.Controller

/-- A name with its ID in place, or unchanged when it has none. -/
def resolveName (ids : String → Option String) (n : String) : String := (ids n).getD n

theorem resolveSlices_eq (forward : Bool) (destIDs mwIDs : String → Option String)
    (s : RuleSlices) : resolveSlices forward destIDs mwIDs s =
      { destRefs :=
          if forward then
            s.destRefs.map fun d => { d with destinationId := resolveName destIDs d.destinationId }
          else s.destRefs
        middlewareIDs := s.middlewareIDs.map (resolveName mwIDs) } := rfl

/-- Resolving a rule's slices several times resolves every entry several times. -/
theorem iterate_resolveSlices (forward : Bool) (destIDs mwIDs : String → Option String) (n : ℕ)
    (s : RuleSlices) :
    (resolveSlices forward destIDs mwIDs)^[n] s =
      { destRefs :=
          if forward then
            s.destRefs.map fun d =>
              { d with destinationId := (resolveName destIDs)^[n] d.destinationId }
          else s.destRefs
        middlewareIDs := s.middlewareIDs.map (resolveName mwIDs)^[n] } := by
  induction n with
  | zero => cases forward <;> simp
  | succ n ih =>
    rw [Function.iterate_succ_apply', ih, resolveSlices_eq]
    cases forward <;> simp only [List.map_map, Function.iterate_succ', Function.comp_def,
      Bool.false_eq_true, if_true, if_false]

section Resolution

variable {b : Backend} {k : Resource} {v : ControlPlane} {names : List String}

/-- A mapped name resolves to the ID of the last listed entity of that name. -/
theorem resolution_eq_last (h : ∀ n ∈ names, ∃ y ∈ v.rows k, k.name y = n) {n : String}
    (hn : n ∈ names) : ∃ y ∈ v.rows k, k.name y = n ∧ resolution b k v names n = some (k.id y) ∧
      (b.listing k (v.rows k)).reverse.find? (fun y => k.name y = n) = some y := by
  rw [resolution, if_pos hn]
  cases hfind : (b.listing k (v.rows k)).reverse.find? (fun y => k.name y = n) with
  | none =>
    obtain ⟨y, hy, hname⟩ := h n hn
    rw [List.find?_eq_none] at hfind
    exact absurd hname (by simpa using hfind y (by simpa using mem_listing.mpr hy))
  | some y =>
    refine ⟨y, mem_listing.mp (List.mem_reverse.mp (List.mem_of_find?_eq_some hfind)), ?_, ?_, rfl⟩
    · simpa using List.find?_some hfind
    · rw [byName, hfind]
      rfl

theorem resolution_eq_some (h : ∀ n ∈ names, ∃ y ∈ v.rows k, k.name y = n) {n : String}
    (hn : n ∈ names) : ∃ y ∈ v.rows k, k.name y = n ∧ resolution b k v names n = some (k.id y) := by
  obtain ⟨y, hy, hname, hres, _⟩ := resolution_eq_last (b := b) h hn
  exact ⟨y, hy, hname, hres⟩

theorem resolution_eq_none {n : String} (hn : n ∉ names) : resolution b k v names n = none :=
  if_neg hn

/-- However often a mapped name is resolved, the result is the ID of a stored entity with a mapped
name. -/
theorem iterate_resolveName_stored (h : ∀ n ∈ names, ∃ y ∈ v.rows k, k.name y = n) {n : String}
    (hn : n ∈ names) (m : ℕ) :
    ∃ y ∈ v.rows k, k.name y ∈ names ∧
      (resolveName (resolution b k v names))^[m + 1] n = k.id y := by
  induction m with
  | zero =>
    obtain ⟨y, hy, hname, hres⟩ := resolution_eq_some (b := b) h hn
    exact ⟨y, hy, hname ▸ hn, by simp [resolveName, hres]⟩
  | succ m ih =>
    obtain ⟨y, hy, hname, hid⟩ := ih
    rw [Function.iterate_succ_apply', hid]
    by_cases hmem : k.id y ∈ names
    · obtain ⟨z, hz, hzname, hres⟩ := resolution_eq_some (b := b) h hmem
      exact ⟨z, hz, hzname ▸ hmem, by simp [resolveName, hres]⟩
    · exact ⟨y, hy, hname, by simp [resolveName, resolution_eq_none hmem]⟩

/-- When the ID of every entity with the name is the name itself or not a mapped name, resolving once
is enough. -/
theorem iterate_resolveName_once (h : ∀ n ∈ names, ∃ y ∈ v.rows k, k.name y = n) {n : String}
    (hn : n ∈ names) (hids : ∀ y ∈ v.rows k, k.name y = n → k.id y = n ∨ k.id y ∉ names) (m : ℕ) :
    (resolveName (resolution b k v names))^[m + 1] n =
      resolveName (resolution b k v names) n := by
  obtain ⟨y, hy, hname, hres⟩ := resolution_eq_some (b := b) h hn
  have hfix : resolveName (resolution b k v names) (k.id y) = k.id y := by
    rcases hids y hy hname with hid | hid
    · rw [hid] at hres ⊢
      simp [resolveName, hres]
    · simp [resolveName, resolution_eq_none hid]
  have hone : resolveName (resolution b k v names) n = k.id y := by simp [resolveName, hres]
  rw [Function.iterate_succ_apply, hone]
  exact Function.iterate_fixed hfix m

/-- When resolving twice gives the ID of an entity of the name, resolving once has given the name
itself or nothing that is mapped. -/
theorem id_eq_of_iterate_two (h : ∀ n ∈ names, ∃ y ∈ v.rows k, k.name y = n) {n : String}
    {d e : k.Row} (hd : resolution b k v names n = some (k.id d)) (hid : k.id d ∈ names)
    (he : e ∈ v.rows k) (hename : k.name e = n)
    (heid : k.id e = (resolveName (resolution b k v names))^[2] n) : k.id d = n := by
  obtain ⟨y, hy, hyname, hres⟩ := resolution_eq_some (b := b) h hid
  have htwice : (resolveName (resolution b k v names))^[2] n = k.id y := by
    simp [resolveName, hd, hres]
  rw [htwice] at heid
  rw [← hyname, ← v.eq_of_id_eq he hy heid, hename]

end Resolution

/-! ## The references of a written route -/

/-- The names a mapped route forwards to. -/
def HTTPRouteInput.backendNames (x : HTTPRouteInput) (r : MappedRoute) : List String :=
  (r.load (mapHTTPRoute x).slices).destinationIDs

theorem destinationIDs_withSlices (r : MappedRoute) (s : RuleSlices) :
    (r.withSlices s).destinationIDs =
      if r.forward.isSome then s.destRefs.map DestRef.destinationId else [] := by
  cases h : r.forward <;> simp [MappedRoute.withSlices, Route.destinationIDs, h]

theorem destinationIDs_writtenRoute (x : HTTPRouteInput) (b : Backend) (v : ControlPlane)
    (r : MappedRoute) (n : ℕ) :
    (x.writtenRoute b v r n).destinationIDs = (x.backendNames r).map
      (resolveName (resolution b .destinations v x.destNames))^[n + 1] := by
  rw [HTTPRouteInput.writtenRoute, HTTPRouteInput.backendNames, MappedRoute.load,
    destinationIDs_withSlices, destinationIDs_withSlices, HTTPRouteInput.slicesAfter,
    iterate_resolveSlices]
  cases r.forward.isSome <;> simp [Function.comp_def]

theorem backendNames_ruleRoute {x : HTTPRouteInput} {rule : RuleInput} {ri : ℕ}
    (hrule : (rule, ri) ∈ x.rules.zipIdx) (mi : ℕ) (m : MatchInput) :
    x.backendNames (ruleRoute x.groupName ri rule mi m) =
      if (ruleForward rule).isSome then
        rule.backendRefs.map fun br => br.key.destinationName
      else [] := by
  rw [HTTPRouteInput.backendNames, MappedRoute.load, destinationIDs_withSlices]
  show (if (ruleForward rule).isSome = true then
    (sliceOf (mapHTTPRoute x).slices ri).destRefs.map DestRef.destinationId else []) = _
  rw [sliceOf_mapHTTPRoute hrule]
  simp [ruleSlices, Function.comp_def]

/-- A mapped route forwards to destinations of the mapping. -/
theorem mem_destNames_of_mem_backendNames {x : HTTPRouteInput} {r : MappedRoute} {n : String}
    (hr : r ∈ (mapHTTPRoute x).routes) (hn : n ∈ x.backendNames r) : n ∈ x.destNames := by
  obtain ⟨rule, ri, hrule, hr⟩ := mem_routes_mapHTTPRoute.mp hr
  obtain ⟨m, mi, _, rfl⟩ := mem_ruleRoutes.mp hr
  rw [backendNames_ruleRoute hrule] at hn
  split at hn
  · obtain ⟨br, hbr, rfl⟩ := List.mem_map.mp hn
    refine mem_destNames.mpr ⟨rule, ?_, br, hbr, rfl⟩
    exact List.mem_iff_getElem?.mpr ⟨ri, List.mk_mem_zipIdx_iff_getElem?.mp hrule⟩
  · cases hn

theorem HTTPRouteInput.Position.mem {x : HTTPRouteInput} {r : MappedRoute} {n : ℕ}
    (h : x.Position r n) : r ∈ (mapHTTPRoute x).routes := by
  obtain ⟨before, after, hsplit, _⟩ := h
  rw [hsplit]
  simp

/-! ## Mapped names are not selected -/

theorem selects_routes_of_mem {x : HTTPRouteInput} {n : String} (h : n ∈ x.routeNames) :
    (Op.apply x).selects .routes n = false := by
  simp [Op.selects, isStale, h]

theorem selects_middlewares_of_mem {x : HTTPRouteInput} {n : String} (h : n ∈ x.mwNames) :
    (Op.apply x).selects .middlewares n = false := by
  simp [Op.selects, isStale, h]

theorem not_mem_routeNames_of_selects {x : HTTPRouteInput} {n : String}
    (h : (Op.apply x).selects .routes n = true) : n ∉ x.routeNames := fun hmem =>
  Bool.false_ne_true ((selects_routes_of_mem hmem).symm.trans h)

/-! ## Owned names and generated IDs -/

theorem isOwned_of_mem_destNames {x : HTTPRouteInput} {n : String} (h : n ∈ x.destNames) :
    isOwned n = true := by
  obtain ⟨dk, _, rfl⟩ := List.mem_map.mp h
  exact isOwned_destinationName dk

/-- Whatever is selected is owned. -/
theorem owned_of_selects {op : Op} {k : Resource} {n : String} (h : op.selects k n = true) :
    isOwned n = true := by
  cases op with
  | init => cases h
  | apply y => cases k <;> simp_all [Op.selects, isStale]
  | delete ns name =>
    cases k with
    | groups =>
      obtain rfl : n = groupName ns name := by simpa [Op.selects] using h
      exact isOwned_groupName _ _
    | _ => simp_all [Op.selects, isStale]

theorem below_of_mem_routes {x : HTTPRouteInput} {r : MappedRoute}
    (h : r ∈ (mapHTTPRoute x).routes) :
    Text.hasPrefix r.name (x.groupName ++ "/") = true := by
  obtain ⟨rule, ri, _, hr⟩ := mem_routes_mapHTTPRoute.mp h
  obtain ⟨m, mi, _, rfl⟩ := mem_ruleRoutes.mp hr
  exact routeName_below _ _ _

theorem below_of_mem_middlewares {x : HTTPRouteInput} {mw : Middleware}
    (h : mw ∈ (mapHTTPRoute x).middlewares) :
    Text.hasPrefix mw.name (x.groupName ++ "/") = true := by
  obtain ⟨rule, ri, _, hmw⟩ := mem_middlewares_mapHTTPRoute.mp h
  obtain ⟨f, _, rfl⟩ := mem_ruleMiddlewares.mp hmw
  exact headersName_below _ _

/-- A generated ID is never an owned name: it does not start with a `k`. -/
theorem not_isOwned_next (b : Backend) (used : List String) : isOwned (b.next used) = false := by
  rw [Bool.eq_false_iff]
  intro h
  obtain ⟨rest, hrest⟩ := Text.hasPrefix_iff.mp h
  have hk : 'k' ∈ (b.next used).toList := by
    rw [← hrest]
    exact List.mem_append_left _ (by decide)
  have := b.hex used 'k' hk
  revert this
  decide

end Vrata.Controller

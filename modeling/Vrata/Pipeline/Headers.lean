import Vrata.Controller.Input
import Vrata.Controller.Mapper.Names
import Vrata.Proxy.Headers

/-!
# Do header modifiers keep their meaning?

A RequestHeaderModifier sets, adds and removes request headers. On its way to the proxy it becomes a
middleware: `httpRouteSpecToInput` puts the headers to add and those to set into one list,
`mapHTTPRoute` looks at the first such filter of a rule only, and the entries it sends do not say
`append`, so that the proxy replaces the values of every header in the list.

`headersPreserved_iff` says which filters survive this.
-/

namespace Vrata.Pipeline

open Controller Server Proxy Multimap

/-! ## The meaning of the filters -/

/-- The headers after a filter of the Gateway API. -/
def modifyHeaders (f : HTTPHeaderFilter) (h : Header) : Header :=
  let h := f.set.foldl (fun h v => h.set v.name v.value) h
  let h := f.add.foldl (fun h v => h.add v.name v.value) h
  f.remove.foldl Header.del h

/-- The header modifiers of a rule. -/
def headerModifiers (filters : List HTTPRouteFilter) : List HTTPHeaderFilter :=
  filters.filterMap fun f =>
    if f.type = .requestHeaderModifier then some (f.requestHeaderModifier.getD {}) else none

/-- The headers after all filters of a rule. -/
def gatewayHeaders (filters : List HTTPRouteFilter) (h : Header) : Header :=
  (headerModifiers filters).foldl (fun h f => modifyHeaders f h) h

/-! ## What the proxy does -/

/-- The middlewares of a mapped route. -/
def routeMiddlewares (m : MappedEntities) (r : MappedRoute) : List Middleware :=
  (r.load m.slices).middlewareIDs.filterMap fun n => m.middlewares.find? fun mw => mw.name = n

/-- The headers after the middlewares of a mapped route. -/
def upstreamHeaders (m : MappedEntities) (r : MappedRoute) (h : Header) : Header :=
  (routeMiddlewares m r).foldl (fun h mw => HeadersMiddleware.request (decodeHeaders mw.headers) h) h

/-- Every route of every rule forwards the headers that the filters of the rule ask for. -/
def HeadersPreserved («namespace» name : String) (spec : HTTPRouteSpec) : Prop :=
  let m := mapHTTPRoute (httpRouteSpecToInput «namespace» name spec)
  ∀ rule ri, (rule, ri) ∈ spec.rules.zipIdx → ∀ r ∈ m.routes, r.rule = ri →
    ∀ h, upstreamHeaders m r h = gatewayHeaders rule.filters h

/-! ## The condition -/

/-- The filters of a rule as operations on the headers. -/
def gatewayOps (filters : List HTTPRouteFilter) : List (Op String String) :=
  (headerModifiers filters).flatMap fun f =>
    f.set.map (fun v => .set (canonicalKey v.name) v.value) ++
      f.add.map (fun v => .add (canonicalKey v.name) v.value) ++ f.remove.map removeOp

/-- A header that is listed is replaced by the last value listed for it. -/
def listedEffect (vs : List Controller.HeaderValue) (key : String) : Effect String :=
  match vs.reverse.find? fun v => canonicalKey v.name = key with
  | none => .keep
  | some v => ⟨true, [v.value]⟩

/-- What the proxy makes of a filter, for one header: it is removed, or replaced by the last value
listed, or left alone. -/
def mappedEffect (f : HTTPHeaderFilter) (key : String) : Effect String :=
  if key ∈ f.remove.map canonicalKey then ⟨true, []⟩ else listedEffect (f.add ++ f.set) key

/-- Taken together, the filters have the effect on every header that the proxy makes of the first. -/
def FiltersKept (filters : List HTTPRouteFilter) : Prop :=
  ∀ key, effect key (gatewayOps filters) =
    ((headerModifiers filters).head?.map fun f => mappedEffect f key).getD .keep

/-! ## Both sides as operations -/

theorem modifyHeaders_eq (f : HTTPHeaderFilter) (h : Header) :
    modifyHeaders f h = applyAll (f.set.map (fun v => .set (canonicalKey v.name) v.value) ++
      f.add.map (fun v => .add (canonicalKey v.name) v.value) ++ f.remove.map removeOp) h := by
  rw [applyAll_append, applyAll_append]
  simp only [applyAll, List.foldl_map]
  rfl

theorem gatewayHeaders_eq (filters : List HTTPRouteFilter) (h : Header) :
    gatewayHeaders filters h = applyAll (gatewayOps filters) h := by
  unfold gatewayHeaders gatewayOps
  induction headerModifiers filters generalizing h with
  | nil => rfl
  | cons f fs ih => rw [List.foldl_cons, List.flatMap_cons, applyAll_append, ih, modifyHeaders_eq]

/-- The operations of the middleware for a filter. -/
def middlewareOps (f : HTTPHeaderFilter) : List (Op String String) :=
  (f.add ++ f.set).map (fun v => .set (canonicalKey v.name) v.value) ++ f.remove.map removeOp

theorem effect_setOps (key : String) (vs : List Controller.HeaderValue) :
    effect key (vs.map fun v => .set (canonicalKey v.name) v.value) = listedEffect vs key := by
  have hpairs : (vs.map fun v => Op.set (canonicalKey v.name) v.value) =
      (vs.map fun v => (canonicalKey v.name, v.value)).map fun p => .set p.1 p.2 := by
    rw [List.map_map]
    rfl
  rw [hpairs, effect_sets, ← List.map_reverse, List.find?_map, listedEffect]
  simp only [Function.comp_def]
  cases vs.reverse.find? fun v => canonicalKey v.name = key <;> rfl

theorem effect_append_removeOps (key : String) (ops : List (Op String String))
    (remove : List String) :
    effect key (ops ++ remove.map removeOp) =
      if key ∈ remove.map canonicalKey then ⟨true, []⟩ else effect key ops := by
  rw [← effect_append_dels, List.map_map]
  rfl

theorem effect_middlewareOps (f : HTTPHeaderFilter) (key : String) :
    effect key (middlewareOps f) = mappedEffect f key := by
  rw [middlewareOps, effect_append_removeOps, effect_setOps, mappedEffect]

/-- The middleware that a filter is mapped to runs these operations. -/
theorem request_mapHeaderModifierFilter (n : String) (f : HTTPRouteFilter) (h : Header)
    (hf : f.type = .requestHeaderModifier) :
    HeadersMiddleware.request (decodeHeaders (mapHeaderModifierFilter n f.toInput).headers) h =
      applyAll (middlewareOps (f.requestHeaderModifier.getD {})) h := by
  have hinput : f.toInput.headersToAdd = (f.requestHeaderModifier.getD {}).add ++
        (f.requestHeaderModifier.getD {}).set ∧
      f.toInput.headersToRemove = (f.requestHeaderModifier.getD {}).remove := by
    unfold HTTPRouteFilter.toInput
    rw [hf]
    cases f.requestHeaderModifier <;> exact ⟨rfl, rfl⟩
  have hops : middlewareOps (f.requestHeaderModifier.getD {}) =
      (f.toInput.headersToAdd.map fun v => ⟨v.name, v.value, false⟩).map addOp ++
        f.toInput.headersToRemove.map removeOp := by
    rw [hinput.1, hinput.2, middlewareOps, List.map_map]
    rfl
  rw [hops, ← mutateHeaders_eq]
  unfold mapHeaderModifierFilter decodeHeaders HeadersMiddleware.request
  by_cases hadd : f.toInput.headersToAdd = [] <;>
    by_cases hremove : f.toInput.headersToRemove = [] <;>
    simp [hadd, hremove, mutateHeaders, Function.comp_def]

/-! ## From the rule to its middleware -/

theorem type_toInput (f : HTTPRouteFilter) : f.toInput.type = f.type := by
  unfold HTTPRouteFilter.toInput
  cases hf : f.type <;> simp only
  · cases f.requestRedirect <;> rfl
  · cases f.urlRewrite <;> rfl
  · cases f.requestHeaderModifier <;> rfl

theorem findFilter_toInput (filters : List HTTPRouteFilter) :
    findFilter (filters.map HTTPRouteFilter.toInput) .requestHeaderModifier =
      (filters.find? fun f => f.type = .requestHeaderModifier).map HTTPRouteFilter.toInput := by
  rw [findFilter, List.find?_map]
  simp only [Function.comp_def, type_toInput]

theorem head?_headerModifiers (filters : List HTTPRouteFilter) :
    (headerModifiers filters).head? =
      (filters.find? fun f => f.type = .requestHeaderModifier).map fun f =>
        f.requestHeaderModifier.getD {} := by
  unfold headerModifiers
  induction filters with
  | nil => rfl
  | cons f fs ih =>
    by_cases hf : f.type = .requestHeaderModifier
    · simp [hf]
    · simp [hf, ih]

variable {x : HTTPRouteInput}

/-- A mapped middleware is found under its name. -/
theorem find?_middlewares {mw : Middleware} (h : mw ∈ (mapHTTPRoute x).middlewares) :
    ((mapHTTPRoute x).middlewares.find? fun mw' => mw'.name = mw.name) = some mw := by
  cases hfind : (mapHTTPRoute x).middlewares.find? fun mw' => mw'.name = mw.name with
  | none => exact absurd (List.find?_eq_none.mp hfind mw h) (by simp)
  | some mw' =>
    have hname : mw'.name = mw.name := by simpa using List.find?_some hfind
    rw [List.inj_on_of_nodup_map (nodup_middlewares x) (List.mem_of_find?_eq_some hfind) h hname]

/-- The middlewares of a route are those of its rule. -/
theorem routeMiddlewares_eq {rule : RuleInput} {ri : ℕ} (hrule : (rule, ri) ∈ x.rules.zipIdx)
    {r : MappedRoute} (hr : r.rule = ri) :
    routeMiddlewares (mapHTTPRoute x) r = ruleMiddlewares x.groupName ri rule := by
  have hids : (r.load (mapHTTPRoute x).slices).middlewareIDs =
      (ruleMiddlewares x.groupName ri rule).map Middleware.name := by
    rw [MappedRoute.load, hr, sliceOf_mapHTTPRoute hrule]
    show (ruleSlices x.groupName ri rule).middlewareIDs = _
    unfold ruleSlices ruleMiddlewares
    cases findFilter rule.filters .requestHeaderModifier <;> rfl
  rw [routeMiddlewares, hids, List.filterMap_map]
  have hmem : ∀ mw ∈ ruleMiddlewares x.groupName ri rule, mw ∈ (mapHTTPRoute x).middlewares :=
    fun mw hmw => mem_middlewares_mapHTTPRoute.mpr ⟨rule, ri, hrule, hmw⟩
  exact (List.filterMap_congr fun mw hmw => find?_middlewares (hmem mw hmw)).trans
    (List.filterMap_some ..)

/-- The proxy runs the operations of the first header modifier of the rule. -/
theorem upstreamHeaders_eq {rule : HTTPRouteRule} {ns : String} {ri : ℕ}
    (hrule : (rule.toInput ns, ri) ∈ x.rules.zipIdx) {r : MappedRoute} (hr : r.rule = ri)
    (h : Header) :
    upstreamHeaders (mapHTTPRoute x) r h =
      applyAll (((headerModifiers rule.filters).head?.map middlewareOps).getD []) h := by
  rw [upstreamHeaders, routeMiddlewares_eq hrule hr, ruleMiddlewares, HTTPRouteRule.toInput,
    findFilter_toInput, head?_headerModifiers]
  cases hfind : rule.filters.find? fun f => f.type = .requestHeaderModifier with
  | none => rfl
  | some f =>
    have hf : f.type = .requestHeaderModifier := by simpa using List.find?_some hfind
    exact request_mapHeaderModifierFilter _ f h hf

/-- The headers are preserved exactly for filters whose effect is that of the mapped first one. -/
theorem headersPreserved_iff («namespace» name : String) (spec : HTTPRouteSpec) :
    HeadersPreserved «namespace» name spec ↔ ∀ rule ∈ spec.rules, FiltersKept rule.filters := by
  have hmodel : ∀ rule : HTTPRouteRule,
      (∀ h : Header, applyAll (((headerModifiers rule.filters).head?.map middlewareOps).getD []) h =
        gatewayHeaders rule.filters h) ↔ FiltersKept rule.filters := by
    intro rule
    simp only [gatewayHeaders_eq]
    rw [applyAll_eq_iff]
    refine forall_congr' fun key => ?_
    cases (headerModifiers rule.filters).head? with
    | none => exact eq_comm
    | some f =>
      simp only [Option.map_some, Option.getD_some, effect_middlewareOps]
      exact eq_comm
  have hrules : ∀ {rule : HTTPRouteRule} {ri : ℕ}, (rule, ri) ∈ spec.rules.zipIdx →
      (rule.toInput «namespace», ri) ∈ (httpRouteSpecToInput «namespace» name spec).rules.zipIdx := by
    intro rule ri h
    rw [List.mk_mem_zipIdx_iff_getElem?] at h ⊢
    simp [httpRouteSpecToInput, h]
  constructor
  · intro h rule hrule
    obtain ⟨ri, hri⟩ := List.mem_iff_getElem?.mp hrule
    have hmem : (rule, ri) ∈ spec.rules.zipIdx := List.mk_mem_zipIdx_iff_getElem?.mpr hri
    -- every rule has a route, for which the filters have to be kept
    obtain ⟨m, ms, hms⟩ := List.exists_cons_of_ne_nil
      (effectiveMatches_ne_nil (rule.toInput «namespace»))
    have hr : ruleRoute (httpRouteSpecToInput «namespace» name spec).groupName ri
        (rule.toInput «namespace») 0 m ∈
          (mapHTTPRoute (httpRouteSpecToInput «namespace» name spec)).routes :=
      mem_routes_mapHTTPRoute.mpr ⟨_, ri, hrules hmem, mem_ruleRoutes.mpr ⟨m, 0, by simp [hms], rfl⟩⟩
    refine (hmodel rule).mp fun hd => ?_
    exact (upstreamHeaders_eq (hrules hmem) rfl hd).symm.trans (h rule ri hmem _ hr rfl hd)
  · intro h rule ri hmem r _ hri hd
    have hrule : rule ∈ spec.rules :=
      List.mem_iff_getElem?.mpr ⟨ri, List.mk_mem_zipIdx_iff_getElem?.mp hmem⟩
    exact (upstreamHeaders_eq (hrules hmem) hri hd).trans ((hmodel rule).mpr (h rule hrule) hd)

/-! ## A header that is added -/

/-- A rule that adds the header `x-env: test`. -/
def addingRule : HTTPRouteRule where
  filters := [{ type := .requestHeaderModifier
                requestHeaderModifier := some { add := [⟨"x-env", "test"⟩] } }]

/-- The value that the request brought is lost. -/
theorem added_header_replaces :
    let m := mapHTTPRoute (httpRouteSpecToInput "default" "web" { rules := [addingRule] })
    let h : Header := fun key => if key = "x-env" then ["prod"] else []
    gatewayHeaders addingRule.filters h "x-env" = ["prod", "test"] ∧
      m.routes.map (fun r => upstreamHeaders m r h "x-env") = [["test"]] := by
  decide +kernel

end Vrata.Pipeline

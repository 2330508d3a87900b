import Mathlib.Data.List.Nodup
import Vrata.Controller.Mapper

/-!
# The names of mapped entities

Every name that `mapHTTPRoute` gives out is owned, the names of routes and middlewares lie below the
name of the group, and no two entities of one kind have the same name. A route's name also says at
which place among the routes of its rule it stands.
-/

namespace Vrata.Controller

/-! ## Owned names -/

theorem isOwned_append (s : String) : isOwned ("k8s:" ++ s) = true := Text.hasPrefix_append _ _

theorem isOwned_groupName (ns name : String) : isOwned (groupName ns name) = true := by
  rw [groupName, String.append_assoc, String.append_assoc]
  exact isOwned_append _

theorem isOwned_destinationName (dk : DestinationKey) : isOwned dk.destinationName = true := by
  simp only [DestinationKey.destinationName, String.append_assoc]
  exact isOwned_append _

/-- Ownership only depends on the start of a name. -/
theorem isOwned_of_hasPrefix {p s : String} (hp : isOwned p = true)
    (h : Text.hasPrefix s p = true) : isOwned s = true := by
  rw [isOwned, Text.hasPrefix_iff] at hp ⊢
  exact hp.trans (Text.hasPrefix_iff.mp h)

theorem ruleName_eq (base : String) (ri : ℕ) :
    ruleName base ri = base ++ "/" ++ ("rule-" ++ toString ri) := by
  apply String.toList_injective
  simp [ruleName]

theorem ruleName_below (base s : String) (ri : ℕ) :
    Text.hasPrefix (ruleName base ri ++ s) (base ++ "/") = true := by
  rw [ruleName_eq, String.append_assoc]
  exact Text.hasPrefix_append _ _

theorem routeName_below (base : String) (ri mi : ℕ) :
    Text.hasPrefix (routeName base ri mi) (base ++ "/") = true := by
  rw [routeName, String.append_assoc]
  exact ruleName_below _ _ _

theorem headersName_below (base : String) (ri : ℕ) :
    Text.hasPrefix (headersName base ri) (base ++ "/") = true :=
  ruleName_below _ _ _

theorem isOwned_below {x : HTTPRouteInput} {s : String}
    (h : Text.hasPrefix s (x.groupName ++ "/") = true) : isOwned s = true := by
  refine isOwned_of_hasPrefix (isOwned_groupName x.namespace x.name) ?_
  rw [Text.hasPrefix_iff, String.toList_append] at h
  exact Text.hasPrefix_iff.mpr ((List.prefix_append _ _).trans h)

/-! ## Distinct names -/

theorem routeName_injective {base : String} {ri mi ri' mi' : ℕ}
    (h : routeName base ri mi = routeName base ri' mi') : ri = ri' ∧ mi = mi' := by
  have hcut : toString ri ++ String.singleton '/' ++ ("match-" ++ toString mi) =
      toString ri' ++ String.singleton '/' ++ ("match-" ++ toString mi') := by
    have hl := congrArg String.toList h
    apply String.toList_injective
    simpa [routeName, ruleName] using hl
  obtain ⟨hri, hmi⟩ := Text.append_singleton_inj (Text.slash_not_mem_toString ri)
    (Text.slash_not_mem_toString ri') hcut
  refine ⟨Text.toString_injective hri, Text.toString_injective (String.toList_injective ?_)⟩
  simpa using congrArg String.toList hmi

theorem headersName_injective {base : String} {ri ri' : ℕ}
    (h : headersName base ri = headersName base ri') : ri = ri' := by
  refine Text.toString_injective (String.toList_injective ?_)
  simpa [headersName, ruleName] using congrArg String.toList h

theorem nodup_ruleRoutes (base : String) (ri : ℕ) (rule : RuleInput) :
    ((ruleRoutes base ri rule).map MappedRoute.name).Nodup := by
  have hmap : (ruleRoutes base ri rule).map MappedRoute.name =
      (rule.effectiveMatches.zipIdx.map Prod.snd).map (routeName base ri) := by
    rw [ruleRoutes, List.map_map, List.map_map]
    rfl
  rw [hmap, List.zipIdx_map_snd]
  exact List.Nodup.map (fun _ _ h => (routeName_injective h).2) List.nodup_range'

/-- Rows that come from different positions of a list have different names if the names tell the
positions apart. -/
theorem nodup_map_flatMap_zipIdx {α β : Type} {f : α × ℕ → List β} {name : β → String} (l : List α)
    (hone : ∀ p, ((f p).map name).Nodup)
    (htwo : ∀ p q, ∀ r ∈ f p, ∀ r' ∈ f q, name r = name r' → p.2 = q.2) :
    ((l.zipIdx.flatMap f).map name).Nodup := by
  rw [List.map_flatMap, List.nodup_flatMap]
  refine ⟨fun p _ => hone p, ?_⟩
  have hidx : l.zipIdx.Pairwise fun p q => p.2 ≠ q.2 := by
    have h : (l.zipIdx.map Prod.snd).Nodup := by
      rw [List.zipIdx_map_snd]
      exact List.nodup_range'
    exact List.pairwise_map.mp h
  refine hidx.imp fun {p q} hpq => ?_
  intro n hp hq
  obtain ⟨r, hr, rfl⟩ := List.mem_map.mp hp
  obtain ⟨r', hr', hname⟩ := List.mem_map.mp hq
  exact hpq (htwo p q r hr r' hr' hname.symm)

theorem nodup_routes (x : HTTPRouteInput) :
    ((mapHTTPRoute x).routes.map MappedRoute.name).Nodup := by
  refine nodup_map_flatMap_zipIdx x.rules (fun p => nodup_ruleRoutes _ _ _) ?_
  rintro ⟨rule, ri⟩ ⟨rule', ri'⟩ r hr r' hr' hname
  obtain ⟨m, mi, _, rfl⟩ := mem_ruleRoutes.mp hr
  obtain ⟨m', mi', _, rfl⟩ := mem_ruleRoutes.mp hr'
  exact (routeName_injective hname).1

theorem mem_ruleMiddlewares {base : String} {ri : ℕ} {rule : RuleInput} {mw : Middleware} :
    mw ∈ ruleMiddlewares base ri rule ↔
      ∃ f, findFilter rule.filters .requestHeaderModifier = some f ∧
        mw = mapHeaderModifierFilter (headersName base ri) f := by
  unfold ruleMiddlewares
  cases findFilter rule.filters .requestHeaderModifier <;> simp

theorem mem_middlewares_mapHTTPRoute {x : HTTPRouteInput} {mw : Middleware} :
    mw ∈ (mapHTTPRoute x).middlewares ↔
      ∃ rule ri, (rule, ri) ∈ x.rules.zipIdx ∧ mw ∈ ruleMiddlewares x.groupName ri rule := by
  simp only [mapHTTPRoute, List.mem_flatMap, Prod.exists]

theorem nodup_middlewares (x : HTTPRouteInput) :
    ((mapHTTPRoute x).middlewares.map Middleware.name).Nodup := by
  refine nodup_map_flatMap_zipIdx x.rules (fun p => ?_) ?_
  · show ((ruleMiddlewares x.groupName p.2 p.1).map Middleware.name).Nodup
    unfold ruleMiddlewares
    split <;> simp
  · rintro ⟨rule, ri⟩ ⟨rule', ri'⟩ r hr r' hr' hname
    obtain ⟨f, _, rfl⟩ := mem_ruleMiddlewares.mp hr
    obtain ⟨f', _, rfl⟩ := mem_ruleMiddlewares.mp hr'
    exact headersName_injective hname

/-! ## Names of groups -/

theorem toList_groupName (ns name : String) :
    (groupName ns name).toList = "k8s:".toList ++ (ns ++ String.singleton '/' ++ name).toList := by
  simp [groupName]

/-- Where namespaces have no slash, a group's name tells its namespace and name. -/
theorem groupName_injective {ns ns' name name' : String} (hns : '/' ∉ ns.toList)
    (hns' : '/' ∉ ns'.toList) (h : groupName ns name = groupName ns' name') :
    ns = ns' ∧ name = name' := by
  have hl := congrArg String.toList h
  rw [toList_groupName, toList_groupName, List.append_cancel_left_eq] at hl
  exact Text.append_singleton_inj hns hns' (String.toList_injective hl)

/-- No name is below two groups. -/
theorem below_unique {ns ns' name name' s : String} (hns : '/' ∉ ns.toList)
    (hns' : '/' ∉ ns'.toList) (hname : '/' ∉ name.toList) (hname' : '/' ∉ name'.toList)
    (h : Text.hasPrefix s (groupName ns name ++ "/") = true)
    (h' : Text.hasPrefix s (groupName ns' name' ++ "/") = true) : ns = ns' ∧ name = name' := by
  obtain ⟨r, hr⟩ := Text.hasPrefix_iff.mp h
  obtain ⟨r', hr'⟩ := Text.hasPrefix_iff.mp h'
  rw [← hr', String.toList_append, String.toList_append, toList_groupName, toList_groupName,
    List.append_assoc, List.append_assoc, List.append_assoc, List.append_assoc,
    List.append_cancel_left_eq] at hr
  -- cut at the first slash, then at the second
  have hcut : ns ++ String.singleton '/' ++ (name ++ String.singleton '/' ++ String.ofList r) =
      ns' ++ String.singleton '/' ++ (name' ++ String.singleton '/' ++ String.ofList r') := by
    apply String.toList_injective
    simpa using hr
  obtain ⟨rfl, hrest⟩ := Text.append_singleton_inj hns hns' hcut
  exact ⟨rfl, (Text.append_singleton_inj hname hname' hrest).1⟩

/-! ## The routes of one rule -/

theorem rule_of_mem_ruleRoutes {base : String} {ri : ℕ} {rule : RuleInput} {r : MappedRoute}
    (h : r ∈ ruleRoutes base ri rule) : r.rule = ri := by
  obtain ⟨m, mi, _, rfl⟩ := mem_ruleRoutes.mp h
  rfl

/-- Selecting the routes of a rule gives the routes of that rule. -/
theorem filter_routes {x : HTTPRouteInput} {rule : RuleInput} {ri : ℕ}
    (h : (rule, ri) ∈ x.rules.zipIdx) :
    (mapHTTPRoute x).routes.filter (fun r => r.rule = ri) = ruleRoutes x.groupName ri rule := by
  have hfilter : ∀ p : RuleInput × ℕ,
      (ruleRoutes x.groupName p.2 p.1).filter (fun r => r.rule = ri) =
        if p.2 = ri then ruleRoutes x.groupName p.2 p.1 else [] := by
    intro p
    split
    · rw [List.filter_eq_self]
      intro r hr
      simpa [rule_of_mem_ruleRoutes hr]
    · rw [List.filter_eq_nil_iff]
      intro r hr
      simpa [rule_of_mem_ruleRoutes hr]
  show (x.rules.zipIdx.flatMap fun p => ruleRoutes x.groupName p.2 p.1).filter _ = _
  rw [List.filter_flatMap]
  simp only [hfilter]
  -- only the position `ri` contributes
  obtain ⟨before, after, hsplit⟩ := List.append_of_mem h
  have hidx : (x.rules.zipIdx.map Prod.snd).Nodup := by
    rw [List.zipIdx_map_snd]
    exact List.nodup_range'
  rw [hsplit, List.map_append, List.map_cons, List.nodup_append, List.nodup_cons] at hidx
  obtain ⟨_, ⟨hafter, _⟩, hbefore⟩ := hidx
  have hnil : ∀ l : List (RuleInput × ℕ), ri ∉ l.map Prod.snd →
      (l.flatMap fun p => if p.2 = ri then ruleRoutes x.groupName p.2 p.1 else []) = [] := by
    intro l hl
    rw [List.flatMap_eq_nil_iff]
    intro p hp
    rw [if_neg]
    rintro rfl
    exact hl (List.mem_map_of_mem hp)
  rw [hsplit, List.flatMap_append, List.flatMap_cons, hnil before, hnil after hafter, if_pos rfl,
    List.nil_append, List.append_nil]
  intro hmem
  exact hbefore ri hmem ri List.mem_cons_self rfl

/-- The routes of one rule all forward or none of them does. -/
theorem forward_eq_of_rule_eq {x : HTTPRouteInput} {r r' : MappedRoute}
    (hr : r ∈ (mapHTTPRoute x).routes) (hr' : r' ∈ (mapHTTPRoute x).routes)
    (h : r.rule = r'.rule) : r.forward = r'.forward := by
  obtain ⟨rule, ri, hrule, hr⟩ := mem_routes_mapHTTPRoute.mp hr
  obtain ⟨rule', ri', hrule', hr'⟩ := mem_routes_mapHTTPRoute.mp hr'
  obtain ⟨m, mi, _, rfl⟩ := mem_ruleRoutes.mp hr
  obtain ⟨m', mi', _, rfl⟩ := mem_ruleRoutes.mp hr'
  obtain rfl : ri = ri' := h
  have hget := List.mk_mem_zipIdx_iff_getElem?.mp hrule
  rw [List.mk_mem_zipIdx_iff_getElem?.mp hrule'] at hget
  obtain rfl : rule' = rule := by simpa using hget
  rfl

/-- The route of match `mi` is preceded by `mi` routes of its rule. -/
theorem countP_before {x : HTTPRouteInput} {rule : RuleInput} {ri mi : ℕ} {m : MatchInput}
    {before after : List MappedRoute} (hrule : (rule, ri) ∈ x.rules.zipIdx)
    (h : (mapHTTPRoute x).routes = before ++ ruleRoute x.groupName ri rule mi m :: after) :
    before.countP (fun r => r.rule = ri) = mi := by
  have hfilter := filter_routes hrule
  rw [h, List.filter_append, List.filter_cons_of_pos (by simp [ruleRoute])] at hfilter
  rw [List.countP_eq_length_filter]
  have hget : (ruleRoutes x.groupName ri rule)[(before.filter fun r => r.rule = ri).length]? =
      some (ruleRoute x.groupName ri rule mi m) := by
    rw [← hfilter, List.getElem?_append_right le_rfl, Nat.sub_self]
    rfl
  simp only [ruleRoutes, List.getElem?_map, List.getElem?_zipIdx, Option.map_map,
    Option.map_eq_some_iff, Function.comp_apply, Nat.zero_add] at hget
  obtain ⟨m', _, hroute⟩ := hget
  exact (routeName_injective (congrArg MappedRoute.name hroute)).2

/-! ## Destinations -/

theorem nodup_destNames (x : HTTPRouteInput) :
    ((mapHTTPRoute x).destinations.map DestinationKey.destinationName).Nodup :=
  nodup_map_distinctOn _ _ _

/-- The destinations of a mapping are the backends of its rules. -/
theorem mem_destNames {x : HTTPRouteInput} {n : String} :
    n ∈ (mapHTTPRoute x).destinations.map DestinationKey.destinationName ↔
      ∃ rule ∈ x.rules, ∃ br ∈ rule.backendRefs, n = br.key.destinationName := by
  simp only [mapHTTPRoute, deduplicateDests]
  rw [mem_map_distinctOn]
  simp only [List.mem_map, List.mem_flatMap, List.not_mem_nil, not_false_eq_true, and_true]
  constructor
  · rintro ⟨_, ⟨rule, hrule, br, hbr, rfl⟩, rfl⟩
    exact ⟨rule, hrule, br, hbr, rfl⟩
  · rintro ⟨rule, hrule, br, hbr, rfl⟩
    exact ⟨_, ⟨rule, hrule, br, hbr, rfl⟩, rfl⟩

end Vrata.Controller

import Vrata.Controller.Mapper
import Vrata.Server.Model

/-!
# Does the control plane accept what the mapper produces?

Every route that `mapHTTPRoute` produces is sent to the control plane, which runs
`validateRouteAction` on it. The two sides have different conventions. The mapper passes on Gateway
API weights, which are relative, where the validator wants percentages; it produces routes without
an action for rules without backends; and a redirect that sets none of the keys the mapper knows
vanishes on the wire.

`routes_accepted_iff` says for which inputs all routes are accepted.
-/

namespace Vrata.Pipeline

open Controller Server

/-- The routes of an input as the control plane receives them. -/
def sentRoutes (x : HTTPRouteInput) : List Server.Route :=
  (mapHTTPRoute x).routes.map fun r => decodeRoute (r.load (mapHTTPRoute x).slices)

/-- Does the redirect filter set anything that is sent? The port is not. -/
def redirectSet (f : FilterInput) : Prop :=
  f.redirectScheme ≠ "" ∨ f.redirectHost ≠ "" ∨ f.redirectPath ≠ "" ∨ 0 < f.redirectCode ∨
    f.redirectStripQuery = true

/-- The rule redirects to something, or forwards to one backend, or forwards to several backends
whose weights add up to 100. -/
def RuleAcceptable (rule : RuleInput) : Prop :=
  match findFilter rule.filters .requestRedirect with
  | some f => redirectSet f
  | none =>
    rule.backendRefs.length = 1 ∨
      1 < rule.backendRefs.length ∧
        rule.backendRefs.foldl (fun total br => total + br.mappedWeight) 0 = 100

/-! ## One route -/

theorem decodeRedirect_mapRedirectFilter_isSome {f : FilterInput} :
    (decodeRedirect (mapRedirectFilter f)).isSome = true ↔ redirectSet f := by
  have hempty : mapRedirectFilter f = {} ↔ ¬redirectSet f := by
    simp only [mapRedirectFilter, RedirectMap.mk.injEq, nonEmpty_eq_none, redirectSet]
    cases f.redirectStripQuery <;> simp
  by_cases hset : redirectSet f
  · simp [decodeRedirect, hempty, hset]
  · simp [decodeRedirect, hempty, hset]

/-- The weights of a rule's destinations add up to the mapped weights of its backends. -/
theorem totalWeight_ruleSlices (base : String) (ri : ℕ) (rule : RuleInput)
    (rewrite : Option RewriteMap) :
    totalWeight (decodeForward ⟨(ruleSlices base ri rule).destRefs, rewrite⟩).destinations =
      rule.backendRefs.foldl (fun total br => total + br.mappedWeight) 0 := by
  simp only [decodeForward, totalWeight, ruleSlices, List.map_map, List.foldl_map,
    Function.comp_apply]

theorem length_decodeForward_ruleSlices (base : String) (ri : ℕ) (rule : RuleInput)
    (rewrite : Option RewriteMap) :
    (decodeForward ⟨(ruleSlices base ri rule).destRefs, rewrite⟩).destinations.length =
      rule.backendRefs.length := by
  simp [decodeForward, ruleSlices]

/-- A route of a rule is accepted if and only if the rule is acceptable: its matches do not
matter. -/
theorem validateRouteAction_ruleRoute {x : HTTPRouteInput} {rule : RuleInput} {ri mi : ℕ}
    {m : MatchInput} (h : (rule, ri) ∈ x.rules.zipIdx) :
    validateRouteAction
        (decodeRoute ((ruleRoute x.groupName ri rule mi m).load (mapHTTPRoute x).slices)) = .ok () ↔
      RuleAcceptable rule := by
  cases hf : findFilter rule.filters .requestRedirect with
  | some f =>
    have hroute : RuleAcceptable rule ↔ redirectSet f := by simp [RuleAcceptable, hf]
    rw [hroute, ← decodeRedirect_mapRedirectFilter_isSome]
    -- a redirect is the only action such a rule can have
    cases hr : decodeRedirect (mapRedirectFilter f) <;>
      simp [validateRouteAction, Route.actions, decodeRoute, MappedRoute.load, MappedRoute.withSlices,
        ruleRoute, ruleForward, hf, hr]
  | none =>
    by_cases hb : rule.backendRefs = []
    · simp [validateRouteAction, Route.actions, decodeRoute, MappedRoute.load, MappedRoute.withSlices,
        ruleRoute, ruleForward, RuleAcceptable, hf, hb]
    · have hlen : 0 < rule.backendRefs.length := List.length_pos_iff.mpr hb
      simp only [validateRouteAction, Route.actions, decodeRoute, MappedRoute.load,
        MappedRoute.withSlices, ruleRoute, ruleForward, hf, hb, sliceOf_mapHTTPRoute h, RuleAcceptable,
        Option.map_some, if_false, Option.map_none, Option.bind_none, totalWeight_ruleSlices,
        length_decodeForward_ruleSlices]
      by_cases hmany : 1 < rule.backendRefs.length
      · have hne : rule.backendRefs.length ≠ 1 := by omega
        simp [hmany, hne]
      · have hone : rule.backendRefs.length = 1 := by omega
        simp [hone]

/-! ## The whole input -/

/-- The control plane accepts all routes of an input if and only if each of its rules is
acceptable. -/
theorem routes_accepted_iff (x : HTTPRouteInput) :
    (∀ r ∈ sentRoutes x, validateRouteAction r = .ok ()) ↔
      ∀ rule ∈ x.rules, RuleAcceptable rule := by
  constructor
  · intro h rule hrule
    obtain ⟨ri, hri⟩ := List.mem_iff_getElem?.mp hrule
    have hidx : (rule, ri) ∈ x.rules.zipIdx := List.mk_mem_zipIdx_iff_getElem?.mpr hri
    -- every rule has at least one match, and so at least one route
    obtain ⟨m, rest, hm⟩ := List.exists_cons_of_ne_nil (effectiveMatches_ne_nil rule)
    have hmatch : (m, 0) ∈ rule.effectiveMatches.zipIdx := by simp [hm]
    have hroute : ruleRoute x.groupName ri rule 0 m ∈ (mapHTTPRoute x).routes :=
      mem_routes_mapHTTPRoute.mpr ⟨rule, ri, hidx, mem_ruleRoutes.mpr ⟨m, 0, hmatch, rfl⟩⟩
    exact (validateRouteAction_ruleRoute hidx).mp (h _ (List.mem_map_of_mem hroute))
  · intro h r hr
    obtain ⟨mapped, hmapped, rfl⟩ := List.mem_map.mp hr
    obtain ⟨rule, ri, hidx, hrule⟩ := mem_routes_mapHTTPRoute.mp hmapped
    obtain ⟨m, mi, _, rfl⟩ := mem_ruleRoutes.mp hrule
    have hget : x.rules[ri]? = some rule := List.mk_mem_zipIdx_iff_getElem?.mp hidx
    exact (validateRouteAction_ruleRoute hidx).mpr
      (h rule (List.mem_iff_getElem?.mpr ⟨ri, hget⟩))

/-- Two backends with the default weight of the Gateway API. -/
def twoEqualBackends : HTTPRouteInput where
  name := "web"
  «namespace» := "default"
  hostnames := ["example.com"]
  rules := [{
    «matches» := [⟨some .pathPrefix, "/", none, []⟩]
    backendRefs := [⟨"blue", "default", 80, 1⟩, ⟨"green", "default", 80, 1⟩]
    filters := [] }]

/-- The control plane refuses an even split over two backends. -/
theorem twoEqualBackends_rejected :
    (sentRoutes twoEqualBackends).map validateRouteAction = [.error .invalidWeight] := by
  decide

end Vrata.Pipeline

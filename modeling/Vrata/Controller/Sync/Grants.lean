import Vrata.Controller.Sync

/-!
# Reference grants

Reference: `clients/controller/internal/refgrant/checker.go`, `reconcileSingleRoute` of
`clients/controller/cmd/controller/main.go`, and `ReferenceGrant` of `sigs.k8s.io/gateway-api`.

A backend in another namespace needs a grant there: for the kind of the route and its namespace, and
for Services, all of them or the one that is referred to. The check does not look at the name in a grant, and
SuperHTTPRoutes are not checked. `grantsEnforced_iff` says for which clusters the routes are reconciled by the
rule all the same.
-/

namespace Vrata.Controller

/-- The group and kind of a route. -/
def RouteRef.groupKind (ref : RouteRef) : String × String :=
  if ref.super then ("vrata.io", "SuperHTTPRoute") else ("gateway.networking.k8s.io", "HTTPRoute")

/-- The backends in other namespaces. -/
def HTTPRouteInput.crossRefs (input : HTTPRouteInput) : List BackendRefInput :=
  (input.rules.flatMap RuleInput.backendRefs).filter fun br => br.serviceNamespace ≠ input.namespace

/-- Some grant in the namespace of the Service allows the reference. -/
def Granted (grants : List ReferenceGrant) (groupKind : String × String) (sourceNamespace : String)
    (br : BackendRefInput) : Prop :=
  ∃ g ∈ grants, g.namespace = br.serviceNamespace ∧
    (∃ f ∈ g.from, (f.group, f.kind) = groupKind ∧ f.namespace = sourceNamespace) ∧
    ∃ t ∈ g.«to», t.group = "" ∧ t.kind = "Service" ∧ ∀ name ∈ t.name, name = br.serviceName

/-- Some grant in the namespace of the Service is for HTTPRoutes of the namespace and for Services, be it this
one or another. -/
def Mentioned (grants : List ReferenceGrant) (sourceNamespace : String) (br : BackendRefInput) : Prop :=
  ∃ g ∈ grants, g.namespace = br.serviceNamespace ∧
    (∃ f ∈ g.from, f.group = "gateway.networking.k8s.io" ∧ f.kind = "HTTPRoute" ∧
      f.namespace = sourceNamespace) ∧ ∃ t ∈ g.«to», t.group = "" ∧ t.kind = "Service"

namespace Loop

/-- The route has been applied, with or without success. -/
def HasApplied (s s' : Loop) : Prop :=
  ∃ input before result, s'.log = .performed (.apply input) before result :: s.log

/-- The route has been turned away for want of a grant. -/
def HasDenied (s s' : Loop) : Prop := ∃ input, s'.log = .denied input :: s.log

/-- A route is applied only if its references are granted, and one whose references are granted is not
turned away. -/
structure GrantsEnforced (b : Backend) (cfg : Config) (t : Tick) (s : Loop) (ref : RouteRef) : Prop where
  granted : s.HasApplied (s.reconcileSingleRoute b cfg t ref).2 → ∀ o, t.get cfg ref = some o →
    ∀ br ∈ o.toInput.crossRefs,
      Granted t.cluster.referenceGrants ref.groupKind o.toInput.namespace br
  not_denied : ∀ o, t.get cfg ref = some o →
    (∀ br ∈ o.toInput.crossRefs,
      Granted t.cluster.referenceGrants ref.groupKind o.toInput.namespace br) →
    (∀ ns, t.listsGrants ns = true) → ¬ s.HasDenied (s.reconcileSingleRoute b cfg t ref).2

end Loop

variable (b : Backend) (cfg : Config) (t : Tick) (s : Loop) (ref : RouteRef)

theorem mentioned_of_granted (hsuper : ref.super = false) {grants : List ReferenceGrant}
    {sourceNamespace : String} {br : BackendRefInput}
    (h : Granted grants ref.groupKind sourceNamespace br) : Mentioned grants sourceNamespace br := by
  obtain ⟨g, hg, hns, ⟨f, hf, hkind, hfrom⟩, target, hto, hgroup, hservice, -⟩ := h
  simp only [RouteRef.groupKind, hsuper, Bool.false_eq_true, if_false, Prod.mk.injEq] at hkind
  exact ⟨g, hg, hns, ⟨f, hf, hkind.1, hkind.2, hfrom⟩, target, hto, hgroup, hservice⟩

theorem allowedBackendRef_iff {sourceNamespace : String} {br : BackendRefInput}
    (hcross : br.serviceNamespace ≠ sourceNamespace) :
    t.allowedBackendRef sourceNamespace br.serviceNamespace = true ↔
      t.listsGrants br.serviceNamespace = true ∧
        Mentioned t.cluster.referenceGrants sourceNamespace br := by
  unfold Tick.allowedBackendRef Mentioned
  rw [if_neg hcross.symm]
  simp [matchesGrant]

theorem denied_eq_false (input : HTTPRouteInput) :
    t.denied input = false ↔ ∀ br ∈ input.crossRefs, t.listsGrants br.serviceNamespace = true ∧
      Mentioned t.cluster.referenceGrants input.namespace br := by
  unfold Tick.denied HTTPRouteInput.crossRefs
  rw [← List.any_flatMap, List.any_eq_false]
  refine ⟨fun h br hbr => ?_, fun h br hbr => ?_⟩
  · obtain ⟨hmem, hcross⟩ := List.mem_filter.mp hbr
    have := h br hmem
    simp only [hcross, Bool.true_and, Bool.not_eq_true', Bool.not_eq_false] at this
    exact (allowedBackendRef_iff t (of_decide_eq_true hcross)).mp this
  · cases hcross : decide (br.serviceNamespace ≠ input.namespace) with
    | false => simp
    | true =>
      have hallowed := (allowedBackendRef_iff t (of_decide_eq_true hcross)).mpr
        (h br (List.mem_filter.mpr ⟨hbr, hcross⟩))
      simp [hallowed]

/-- The grants let the route through: it is not an HTTPRoute, or they can be listed and mention all its
references. -/
def LetThrough (o : RouteObject) : Prop :=
  ref.super = true ∨ ∀ br ∈ o.toInput.crossRefs, t.listsGrants br.serviceNamespace = true ∧
    Mentioned t.cluster.referenceGrants o.toInput.namespace br

/-- It is not turned away as a duplicate. -/
def NotDuplicate (o : RouteObject) : Prop := (s.check cfg o.toInput).1 = [] ∨ cfg.duplicatesMode ≠ .reject

namespace Loop

theorem check_log (input : HTTPRouteInput) : (s.check cfg input).2.log = s.log := by
  unfold check
  split <;> rfl

/-- What the log says in the end. -/
theorem log_reconcileSingleRoute {o : RouteObject} (hget : t.get cfg ref = some o) :
    (¬ LetThrough t ref o ∧ (s.reconcileSingleRoute b cfg t ref).2.log = .denied o.toInput :: s.log) ∨
      (LetThrough t ref o ∧ ¬ NotDuplicate cfg s o ∧
        ∃ ols, (s.reconcileSingleRoute b cfg t ref).2.log = .rejected o.toInput ols :: s.log) ∨
      (LetThrough t ref o ∧ NotDuplicate cfg s o ∧ ∃ before result,
        (s.reconcileSingleRoute b cfg t ref).2.log =
          .performed (.apply o.toInput) before result :: s.log) := by
  have hlog := check_log cfg s o.toInput
  by_cases hlet : LetThrough t ref o
  · have hcheck : (!ref.super && t.denied o.toInput) = false := by
      rcases hlet with h | h
      · simp [h]
      · simp [(denied_eq_false t o.toInput).mpr h]
    right
    simp only [reconcileSingleRoute, hget, hcheck, Bool.false_eq_true, if_false, reconcileInput]
    by_cases hdup : NotDuplicate cfg s o
    · have hcond : ¬ ((s.check cfg o.toInput).1 ≠ [] ∧ cfg.duplicatesMode = .reject) := by
        rcases hdup with h | h <;> simp [h]
      refine .inr ⟨hlet, hdup, (s.check cfg o.toInput).2.world,
        ((s.check cfg o.toInput).2.perform b (.apply o.toInput)).1, ?_⟩
      rw [if_neg hcond, ← hlog]
      have hperform : ((s.check cfg o.toInput).2.perform b (.apply o.toInput)).2.log
          = .performed (.apply o.toInput) (s.check cfg o.toInput).2.world
              ((s.check cfg o.toInput).2.perform b (.apply o.toInput)).1
            :: (s.check cfg o.toInput).2.log := rfl
      rw [← hperform]
      rcases (s.check cfg o.toInput).2.perform b (.apply o.toInput) with ⟨_ | _, _⟩ <;> rfl
    · have hcond : (s.check cfg o.toInput).1 ≠ [] ∧ cfg.duplicatesMode = .reject := by
        unfold NotDuplicate at hdup
        simpa [not_or] using hdup
      refine .inl ⟨hlet, hdup, (s.check cfg o.toInput).1, ?_⟩
      rw [if_pos hcond]
      simp [hlog]
  · left
    have hcheck : (!ref.super && t.denied o.toInput) = true := by
      unfold LetThrough at hlet
      rw [← denied_eq_false] at hlet
      simpa [not_or] using hlet
    simp [reconcileSingleRoute, hget, hcheck, hlet]

/-- A route is applied if it is let through and is no duplicate, and denied if it is not let through. -/
theorem decision_iff :
    (s.HasApplied (s.reconcileSingleRoute b cfg t ref).2 ↔
      ∃ o, t.get cfg ref = some o ∧ LetThrough t ref o ∧ NotDuplicate cfg s o) ∧
    (s.HasDenied (s.reconcileSingleRoute b cfg t ref).2 ↔
      ∃ o, t.get cfg ref = some o ∧ ¬ LetThrough t ref o) := by
  cases hget : t.get cfg ref with
  | none => simp [HasApplied, HasDenied, reconcileSingleRoute, hget]
  | some o =>
    rcases log_reconcileSingleRoute b cfg t s ref hget with
      ⟨hlet, hlog⟩ | ⟨hlet, hdup, ols, hlog⟩ | ⟨hlet, hdup, before, result, hlog⟩
    · simp [HasApplied, HasDenied, hlog, hlet]
    · simp [HasApplied, HasDenied, hlog, hlet, hdup]
    · simp [HasApplied, HasDenied, hlog, hlet, hdup]

/-- The rule is kept exactly if the grants are as precise as the check: where they mention all references
of an HTTPRoute, they are for the Services that are referred to, and the references of a SuperHTTPRoute are
granted anyway. -/
theorem grantsEnforced_iff :
    s.GrantsEnforced b cfg t ref ↔
      ∀ o, t.get cfg ref = some o → NotDuplicate cfg s o →
        (ref.super = true ∨ ∀ br ∈ o.toInput.crossRefs, t.listsGrants br.serviceNamespace = true ∧
          Mentioned t.cluster.referenceGrants o.toInput.namespace br) →
        ∀ br ∈ o.toInput.crossRefs,
          Granted t.cluster.referenceGrants ref.groupKind o.toInput.namespace br := by
  constructor
  · intro henforced o hget hdup hlet
    exact henforced.granted ((decision_iff b cfg t s ref).1.mpr ⟨o, hget, hlet, hdup⟩) o hget
  · intro hgranted
    refine ⟨?_, ?_⟩
    · intro happlied o hget
      obtain ⟨o', hget', hlet, hdup⟩ := (decision_iff b cfg t s ref).1.mp happlied
      rw [hget] at hget'
      cases hget'
      exact hgranted o hget hdup hlet
    · intro o hget hall hlists hdenied
      obtain ⟨o', hget', hlet⟩ := (decision_iff b cfg t s ref).2.mp hdenied
      rw [hget] at hget'
      cases hget'
      -- A SuperHTTPRoute is let through anyway.
      refine hlet ?_
      cases hsuper : ref.super with
      | true => exact .inl hsuper
      | false =>
        exact .inr fun br hbr => ⟨hlists _, mentioned_of_granted ref hsuper (hall br hbr)⟩

end Loop

/-- An HTTPRoute with a backend in another namespace. -/
def webRoute : RouteObject := webObject [{ backendRefs := [{ name := "cart", «namespace» := some "shop" }] }]

/-- The grant is for another Service. -/
def otherGrant : Tick where
  cluster :=
    { httpRoutes := [webRoute]
      referenceGrants := [⟨"shop", [⟨"gateway.networking.k8s.io", "HTTPRoute", "default"⟩],
        [⟨"", "Service", some "checkout"⟩]⟩] }

/-- The route is applied all the same. -/
theorem not_grantsEnforced_otherGrant :
    ¬ (Loop.start .plain .start).GrantsEnforced .plain {} otherGrant (webRoute.ref false) := by
  intro henforced
  have happlied := (Loop.decision_iff .plain {} otherGrant (.start .plain .start)
    (webRoute.ref false)).1.mpr ⟨webRoute, rfl, .inr ((denied_eq_false _ _).mp (by decide)), .inr (by decide)⟩
  obtain ⟨g, hg, -, -, target, htarget, -, -, hname⟩ :=
    henforced.granted happlied webRoute rfl ⟨"cart", "shop", 0, 1⟩ (by decide)
  obtain rfl := List.mem_singleton.mp hg
  obtain rfl := List.mem_singleton.mp htarget
  exact absurd (hname _ rfl) (by decide)

end Vrata.Controller

import Vrata.Api.Handlers
import Vrata.Proxy.Pipeline

/-!
# Requests that come through authentication

Reference: `buildRouteHandler` of `server/internal/proxy/handler.go`, and `jwt.go`, `extauthz.go` and
`inlineauthz.go` under `middlewares/`.

A middleware that is meant to turn requests away does so only if it can work: where its configuration or
its destination is missing, it lets every request pass, and where the middleware itself is missing, nothing
stands in its place. `checked_iff` says for every request that is forwarded, and every such middleware on
its way, that the check was made exactly if the middleware is usable.
-/

namespace Vrata.Proxy

open Server

/-! ## What a middleware has checked -/

def MiddlewareType.isAuth : MiddlewareType → Bool
  | .jwt | .extAuthz | .inlineAuthz => true
  | _ => false

/-- The middleware whose check the event is about. -/
def Event.about : Event → Option String
  | .verified mwID _ | .decided mwID _ | .authorized mwID | .excused mwID => some mwID
  | _ => none

/-- The check of the middleware was made and passed: a token was verified with all assertions, all the rules
were heard, the service has allowed the request, or its failure is to be ignored. -/
def Passed (mw : Middleware) (es : List Event) : Prop :=
  match mw.type with
  | .jwt => ∃ cfg, mw.jwt = some cfg ∧ .verified mw.id cfg.assertClaims ∈ es
  | .inlineAuthz => ∃ cfg, mw.inlineAuthz = some cfg ∧ .decided mw.id cfg.rules ∈ es
  | .extAuthz => .authorized mw.id ∈ es ∨
      (∃ cfg, mw.extAuthz = some cfg ∧ cfg.failureModeAllow = true) ∧ .excused mw.id ∈ es
  | _ => False

/-- The middleware can make its check. -/
def Usable (eng : Engine) (services : List String) (env : Outside) (mw : Middleware) : Prop :=
  match mw.type with
  | .jwt => ∃ cfg, mw.jwt = some cfg ∧ cfg.issuer ≠ "" ∧
      ∀ expr ∈ cfg.assertClaims, (env.claimsBool expr).isSome = true
  | .inlineAuthz => ∃ cfg, mw.inlineAuthz = some cfg ∧
      ∀ rule ∈ cfg.rules, (eng.cel rule.cel).isSome = true
  | .extAuthz => ∃ cfg, mw.extAuthz = some cfg ∧ cfg.destinationID ≠ "" ∧
      cfg.destinationID ∈ services ∧ (cfg.mode = "grpc" → env.dials cfg.destinationID = true)
  | _ => False

/-! ## What is accepted -/

/-- The name of the type in the model of the API. -/
def MiddlewareType.name : MiddlewareType → String
  | .cors => "cors"
  | .headers => "headers"
  | .extAuthz => "extAuthz"
  | .rateLimit => "rateLimit"
  | .jwt => "jwt"
  | .accessLog => "accessLog"
  | .extProc => "extProc"
  | .inlineAuthz => "inlineAuthz"
  | .unknown => ""

/-- What the API reads of a middleware. -/
def submitted (mw : Middleware) : Api.Middleware where
  type := MiddlewareType.name mw.type
  inlineAuthz := mw.inlineAuthz

/-! ## What the handlers do -/

section Handlers

variable {eng : Engine} {services : List String} {env : Outside} {mwID : String} {r r' : Inbound}

theorem exists_none_iff {α : Type} {p : α → Prop} : (∃ c, none = some c ∧ p c) ↔ False := by simp

theorem exists_some_iff {α : Type} {p : α → Prop} {x : α} : (∃ c, some x = some c ∧ p c) ↔ p x := by simp

theorem jwt_iff {cfg : Option JWTConfig} (h : (jwtMiddleware env mwID r cfg).2 = some r') :
    (∃ c, cfg = some c ∧ .verified mwID c.assertClaims ∈ (jwtMiddleware env mwID r cfg).1) ↔
      ∃ c, cfg = some c ∧ c.issuer ≠ "" ∧ ∀ expr ∈ c.assertClaims, (env.claimsBool expr).isSome = true := by
  cases cfg with
  | none => rw [exists_none_iff, exists_none_iff]
  | some cfg =>
    rw [exists_some_iff, exists_some_iff]
    simp only [jwtMiddleware] at h ⊢
    split
    · rename_i hissuer
      exact iff_of_false List.not_mem_nil fun hcfg => hcfg.1 hissuer
    · rename_i hissuer
      rw [if_neg hissuer] at h
      split_ifs at h ⊢
      · cases h
      · rw [List.mem_singleton, Event.verified.injEq, eq_comm (a := cfg.assertClaims), List.filter_eq_self]
        simp [hissuer]
      · cases h
      · cases h

/-- The rules that take part are those that compile. -/
theorem map_compiledRules (cfg : InlineAuthzConfig) :
    (compiledRules eng cfg).map Prod.fst = cfg.rules.filter fun rule => (eng.cel rule.cel).isSome := by
  have hguard : ∀ rule : InlineAuthzRule, ((eng.cel rule.cel).map fun prg => (rule, prg)).map Prod.fst =
      Option.guard (fun rule => (eng.cel rule.cel).isSome) rule := by
    intro rule
    rw [Option.guard]
    cases eng.cel rule.cel with
    | none | some prg => rfl
  rw [compiledRules, List.map_filterMap, funext hguard, List.filterMap_eq_filter]

theorem inlineAuthz_iff {cfg : Option InlineAuthzConfig}
    (h : (inlineAuthzMiddleware eng mwID r cfg).2 = some r') :
    (∃ c, cfg = some c ∧ .decided mwID c.rules ∈ (inlineAuthzMiddleware eng mwID r cfg).1) ↔
      ∃ c, cfg = some c ∧ ∀ rule ∈ c.rules, (eng.cel rule.cel).isSome = true := by
  cases cfg with
  | none => rw [exists_none_iff, exists_none_iff]
  | some cfg =>
    rw [exists_some_iff, exists_some_iff]
    simp only [inlineAuthzMiddleware] at h ⊢
    split
    · rw [List.mem_cons, List.mem_singleton, map_compiledRules, Event.decided.injEq, eq_comm (a := cfg.rules),
        List.filter_eq_self]
      simp
    · rename_i hdeny
      rw [if_neg hdeny] at h
      cases h

/-- A check that lets the request pass has allowed it, or its failure is to be ignored. -/
theorem afterCheck_cases {cfg : ExtAuthzConfig} {check : CheckRequest}
    {apply : Header → List (String × String) → Header}
    (h : (afterCheck env mwID r cfg check apply).2 = some r') :
    .authorized mwID ∈ (afterCheck env mwID r cfg check apply).1 ∨
      cfg.failureModeAllow = true ∧ .excused mwID ∈ (afterCheck env mwID r cfg check apply).1 := by
  unfold afterCheck at h ⊢
  split at h
  · split at h
    · rename_i hallow
      simp [hallow]
    · cases h
  · cases h
  · simp

theorem extAuthz_iff {cfg : Option ExtAuthzConfig}
    (h : (extAuthzMiddleware services env mwID r cfg).2 = some r') :
    (.authorized mwID ∈ (extAuthzMiddleware services env mwID r cfg).1 ∨
        (∃ c, cfg = some c ∧ c.failureModeAllow = true) ∧
          .excused mwID ∈ (extAuthzMiddleware services env mwID r cfg).1) ↔
      ∃ c, cfg = some c ∧ c.destinationID ≠ "" ∧ c.destinationID ∈ services ∧
        (c.mode = "grpc" → env.dials c.destinationID = true) := by
  cases cfg with
  | none =>
    rw [exists_none_iff, exists_none_iff]
    simp [extAuthzMiddleware, handOn]
  | some cfg =>
    rw [exists_some_iff, exists_some_iff]
    simp only [extAuthzMiddleware] at h ⊢
    split
    · rename_i hmissing
      refine iff_of_false (by simp [handOn]) fun hcfg => ?_
      exact hmissing.elim hcfg.1 (· hcfg.2.1)
    · rename_i hthere
      rw [if_neg hthere] at h
      obtain ⟨hid, hservice⟩ := not_or.mp hthere
      split
      · rename_i hgrpc
        rw [if_pos hgrpc] at h
        split
        · rename_i hdials
          rw [if_pos hdials] at h
          exact iff_of_true (afterCheck_cases h) ⟨hid, not_not.mp hservice, fun _ => hdials⟩
        · rename_i hdials
          exact iff_of_false (by simp [handOn]) fun hcfg => hdials (hcfg.2.2 hgrpc)
      · rename_i hhttp
        rw [if_neg hhttp] at h
        exact iff_of_true (afterCheck_cases h) ⟨hid, not_not.mp hservice, fun hgrpc => absurd hgrpc hhttp⟩

/-- A request that comes through a middleware was checked by it exactly if the middleware is usable. -/
theorem passed_iff {mw : Middleware} (h : (handle eng services env r mw).2 = some r')
    (hauth : MiddlewareType.isAuth mw.type = true) :
    Passed mw (handle eng services env r mw).1 ↔ Usable eng services env mw := by
  unfold handle at h
  rw [Passed, Usable, handle]
  cases htype : mw.type with
  | jwt =>
    rw [htype] at h
    exact jwt_iff h
  | inlineAuthz =>
    rw [htype] at h
    exact inlineAuthz_iff h
  | extAuthz =>
    rw [htype] at h
    exact extAuthz_iff h
  | cors | headers | rateLimit | accessLog | extProc => simp [htype, MiddlewareType.isAuth] at hauth
  | unknown => simp [htype, MiddlewareType.isAuth] at hauth

/-- What a middleware has checked is seen from the events about it. -/
theorem passed_congr {mw : Middleware} {es es' : List Event}
    (h : ∀ e : Event, e.about = some mw.id → (e ∈ es ↔ e ∈ es')) : Passed mw es ↔ Passed mw es' := by
  unfold Passed
  split
  · exact exists_congr fun cfg => and_congr_right fun _ => h _ rfl
  · exact exists_congr fun cfg => and_congr_right fun _ => h _ rfl
  · exact or_congr (h _ rfl) (and_congr_right fun _ => h _ rfl)
  · exact Iff.rfl

/-! ## Whose events they are -/

/-- The event happens within a middleware. -/
def Event.within : Event → Bool
  | .reached _ _ | .upstream _ => false
  | _ => true

/-- The events are those of a middleware, and about no other one. -/
def Owned (mwID : String) (es : List Event) : Prop :=
  ∀ e ∈ es, (∀ id, e.about = some id → id = mwID) ∧ e.within = true

theorem owned_nil : Owned mwID [] := nofun

theorem owned_cons {e : Event} {es : List Event} (habout : ∀ id, e.about = some id → id = mwID)
    (hwithin : e.within = true) (hes : Owned mwID es) : Owned mwID (e :: es) :=
  List.forall_mem_cons.mpr ⟨⟨habout, hwithin⟩, hes⟩

theorem owned_append {es es' : List Event} (hes : Owned mwID es) (hes' : Owned mwID es') :
    Owned mwID (es ++ es') :=
  List.forall_mem_append.mpr ⟨hes, hes'⟩

theorem owned_jwt (cfg : Option JWTConfig) : Owned mwID (jwtMiddleware env mwID r cfg).1 := by
  cases cfg with
  | none => exact owned_nil
  | some cfg =>
    simp only [jwtMiddleware]
    split_ifs
    · exact owned_nil
    · exact owned_nil
    · exact owned_cons (fun id h => (Option.some.inj h).symm) rfl owned_nil
    · exact owned_nil
    · exact owned_nil

theorem owned_inlineAuthz (cfg : Option InlineAuthzConfig) :
    Owned mwID (inlineAuthzMiddleware eng mwID r cfg).1 := by
  cases cfg with
  | none => exact owned_nil
  | some cfg =>
    simp only [inlineAuthzMiddleware]
    split
    · exact owned_cons nofun rfl (owned_cons (fun id h => (Option.some.inj h).symm) rfl owned_nil)
    · exact owned_cons nofun rfl owned_nil

theorem owned_afterCheck (cfg : ExtAuthzConfig) (check : CheckRequest)
    (apply : Header → List (String × String) → Header) :
    Owned mwID (afterCheck env mwID r cfg check apply).1 := by
  unfold afterCheck
  split
  · split
    · exact owned_cons nofun rfl (owned_cons (fun id h => (Option.some.inj h).symm) rfl owned_nil)
    · exact owned_cons nofun rfl owned_nil
  · exact owned_cons nofun rfl owned_nil
  · exact owned_cons nofun rfl (owned_cons (fun id h => (Option.some.inj h).symm) rfl owned_nil)

theorem owned_extAuthz (cfg : Option ExtAuthzConfig) :
    Owned mwID (extAuthzMiddleware services env mwID r cfg).1 := by
  cases cfg with
  | none => exact owned_nil
  | some cfg =>
    simp only [extAuthzMiddleware]
    split_ifs
    · exact owned_nil
    · exact owned_afterCheck _ _ _
    · exact owned_nil
    · exact owned_afterCheck _ _ _

theorem owned_sendProc (cfg : Server.ExtProcConfig) (msg : ProcMessage) :
    Owned mwID (sendProc env cfg msg).1 := by
  unfold sendProc
  split_ifs
  · exact owned_cons nofun rfl owned_nil
  · exact owned_nil
  · exact owned_cons nofun rfl owned_nil

theorem owned_procBody (cfg : Server.ExtProcConfig) : Owned mwID (procBody env r cfg).1 := by
  unfold procBody
  simp only
  split
  · exact owned_nil
  · split
    · exact owned_sendProc cfg _
    · exact owned_sendProc cfg _
    · exact owned_sendProc cfg _

theorem owned_extProc (cfg : Option Server.ExtProcConfig) :
    Owned mwID (extProcMiddleware services env r cfg).1 := by
  cases cfg with
  | none => exact owned_nil
  | some cfg =>
    simp only [extProcMiddleware]
    split
    · exact owned_nil
    · split
      · exact owned_procBody cfg
      · split
        · exact owned_append (owned_sendProc cfg _) (owned_procBody cfg)
        · exact owned_sendProc cfg _
        · exact owned_sendProc cfg _

theorem owned_handle (mw : Middleware) : Owned mw.id (handle eng services env r mw).1 := by
  unfold handle
  cases mw.type with
  | jwt => exact owned_jwt _
  | inlineAuthz => exact owned_inlineAuthz _
  | extAuthz => exact owned_extAuthz _
  | extProc => exact owned_extProc _
  | cors =>
    cases mw.cors with
    | none => exact owned_nil
    | some cfg =>
      simp only [corsMiddleware]
      split
      · exact owned_nil
      · exact owned_nil
  | rateLimit =>
    cases mw.rateLimit with
    | none => exact owned_nil
    | some cfg =>
      simp only [rateLimitMiddleware]
      split
      · exact owned_nil
      · exact owned_nil
  | headers | accessLog => exact owned_nil
  | unknown => exact owned_nil

end Handlers

/-! ## A route -/

namespace Deployment

variable {d : Deployment} {env : Outside} {mwID : String} {r r' : Inbound}

theorem owned_pass (mwID : String) (r : Inbound) : Owned mwID (d.pass env mwID r).1 := by
  unfold pass
  split
  · exact owned_nil
  · rename_i l hl
    simp only
    split
    · exact owned_cons nofun rfl (id_of_link hl ▸ owned_handle l.middleware)
    · exact owned_cons nofun rfl owned_nil

/-- A middleware that is there and not disabled is applied, unless it is skipped. -/
theorem pass_of_applies {mw : Middleware} (hmw : middlewareByID d.middlewares mwID = some mw)
    (henabled : (d.override mwID).any MiddlewareOverride.disabled = false) (htype : mw.type ≠ .unknown)
    (happlies : applies d.eng (d.override mwID) r.request = true) :
    d.pass env mwID r =
      (.conditions mwID (d.conditionResults mwID r.request) :: (handle d.eng d.services env r mw).1,
        (handle d.eng d.services env r mw).2) := by
  have hlink : link d.middlewares d.route d.group mwID = some ⟨mw, d.override mwID⟩ := by
    refine Option.bind_eq_some_iff.mpr ⟨mw, hmw, ?_⟩
    have hoverride : (resolveOverride mwID d.route d.group).any MiddlewareOverride.disabled = false :=
      henabled
    simp only [hoverride, htype, if_false, Bool.false_eq_true]
    rfl
  rw [pass, hlink]
  simp only [happlies, if_true]

theorem mem_passAll_cons {ids : List String} {e : Event} :
    e ∈ (d.passAll env (mwID :: ids) r).1 ↔ e = .reached mwID r ∨ e ∈ (d.pass env mwID r).1 ∨
      ∃ r', (d.pass env mwID r).2 = some r' ∧ e ∈ (d.passAll env ids r').1 := by
  simp only [passAll]
  cases (d.pass env mwID r).2 with
  | none => simp
  | some r' => simp

theorem passAll_cons_eq_some {ids : List String} :
    (d.passAll env (mwID :: ids) r).2 = some r' ↔
      ∃ r₁, (d.pass env mwID r).2 = some r₁ ∧ (d.passAll env ids r₁).2 = some r' := by
  simp only [passAll]
  cases (d.pass env mwID r).2 with
  | none => simp
  | some r₁ => simp

/-- The events of a list of middlewares are about these. -/
theorem mem_of_passAll {ids : List String} {e : Event} (he : e ∈ (d.passAll env ids r).1) :
    (∀ id, e.about = some id → id ∈ ids) ∧ (∀ id r', e = .reached id r' → id ∈ ids) ∧
      ∀ r', e ≠ .upstream r' := by
  induction ids generalizing r with
  | nil => cases he
  | cons mwID ids ih =>
    rcases mem_passAll_cons.mp he with rfl | hpass | ⟨r₁, -, hrest⟩
    · exact ⟨nofun, fun id r' h => (Event.reached.inj h).1 ▸ List.mem_cons_self, nofun⟩
    · obtain ⟨habout, hwithin⟩ := d.owned_pass mwID r e hpass
      refine ⟨fun id h => habout id h ▸ List.mem_cons_self, ?_, ?_⟩
      · rintro id r' rfl
        cases hwithin
      · rintro r' rfl
        cases hwithin
    · obtain ⟨habout, hreached, hupstream⟩ := ih hrest
      exact ⟨fun id h => List.mem_cons_of_mem mwID (habout id h),
        fun id r' h => List.mem_cons_of_mem mwID (hreached id r' h), hupstream⟩

/-- A request that comes through a list of middlewares has come through each of them once, and the events
about it are those of that time. -/
theorem exists_reached {ids : List String} (hnodup : ids.Nodup) (h : (d.passAll env ids r).2 = some r')
    (hmem : mwID ∈ ids) :
    ∃ r₁ r₂, (d.pass env mwID r₁).2 = some r₂ ∧
      (∀ r₃, .reached mwID r₃ ∈ (d.passAll env ids r).1 ↔ r₃ = r₁) ∧
      ∀ e, e.about = some mwID → (e ∈ (d.passAll env ids r).1 ↔ e ∈ (d.pass env mwID r₁).1) := by
  induction ids generalizing r with
  | nil => cases hmem
  | cons id ids ih =>
    obtain ⟨hid, hnodup'⟩ := List.nodup_cons.mp hnodup
    obtain ⟨next, hnext, hrest⟩ := passAll_cons_eq_some.mp h
    rcases List.mem_cons.mp hmem with rfl | hlater
    · refine ⟨r, next, hnext, fun r₃ => ⟨fun hr₃ => ?_, fun hr₃ => mem_passAll_cons.mpr (.inl (hr₃ ▸ rfl))⟩,
        fun e he => ⟨fun hmem => ?_, fun hmem => mem_passAll_cons.mpr (.inr (.inl hmem))⟩⟩
      · rcases mem_passAll_cons.mp hr₃ with heq | hpass | ⟨r₁, -, hlater⟩
        · exact (Event.reached.inj heq).2
        · cases (d.owned_pass mwID r _ hpass).2
        · exact absurd ((mem_of_passAll hlater).2.1 mwID r₃ rfl) hid
      · rcases mem_passAll_cons.mp hmem with rfl | hpass | ⟨r₁, -, hlater⟩
        · cases he
        · exact hpass
        · exact absurd ((mem_of_passAll hlater).1 mwID he) hid
    · obtain ⟨r₁, r₂, hpass, hreached, habout⟩ := ih hnodup' hrest hlater
      have hne : mwID ≠ id := fun heq => hid (heq ▸ hlater)
      refine ⟨r₁, r₂, hpass, fun r₃ => ?_, fun e he => ?_⟩
      · rw [← hreached r₃, mem_passAll_cons]
        refine ⟨?_, fun hmem => .inr (.inr ⟨next, hnext, hmem⟩)⟩
        rintro (heq | hpass | ⟨next', hnext', hmem⟩)
        · exact absurd (Event.reached.inj heq).1 hne
        · cases (d.owned_pass id r _ hpass).2
        · obtain rfl := Option.some.inj (hnext.symm.trans hnext')
          exact hmem
      · rw [← habout e he, mem_passAll_cons]
        refine ⟨?_, fun hmem => .inr (.inr ⟨next, hnext, hmem⟩)⟩
        rintro (rfl | hpass | ⟨next', hnext', hmem⟩)
        · cases he
        · exact absurd ((d.owned_pass id r e hpass).1 mwID he) hne
        · obtain rfl := Option.some.inj (hnext.symm.trans hnext')
          exact hmem

/-- A request that is forwarded has come through all middlewares. -/
theorem exists_of_forwarded {sent : Inbound} (h : .upstream sent ∈ d.serve env r) :
    ∃ r' : Inbound, (d.passAll env (collectMiddlewareIDs d.route d.group) r).2 = some r' ∧
      d.serve env r = (d.passAll env (collectMiddlewareIDs d.route d.group) r).1 ++
        [.upstream { r' with header := injectXFCC env r'.header }] := by
  simp only [serve] at h ⊢
  split at h
  · exact absurd rfl ((mem_of_passAll h).2.2 sent)
  · rename_i r' hr'
    split at h
    · rename_i hforwards
      exact ⟨r', hr', by rw [if_pos hforwards]⟩
    · exact absurd rfl ((mem_of_passAll h).2.2 sent)

/-- A middleware that a route lists works on every request that comes through. -/
theorem exists_reached_of_forwarded {sent : Inbound} (h : .upstream sent ∈ d.serve env r)
    (hlisted : mwID ∈ collectMiddlewareIDs d.route d.group) :
    ∃ r₁ r₂, (d.pass env mwID r₁).2 = some r₂ ∧
      (∀ r₃, .reached mwID r₃ ∈ d.serve env r ↔ r₃ = r₁) ∧
      ∀ e, e.about = some mwID → (e ∈ d.serve env r ↔ e ∈ (d.pass env mwID r₁).1) := by
  obtain ⟨r', hr', hserve⟩ := exists_of_forwarded h
  have hnodup : (collectMiddlewareIDs d.route d.group).Nodup :=
    nodup_addIDs (nodup_addIDs List.nodup_nil _) _
  obtain ⟨r₁, r₂, hpass, hreached, habout⟩ := exists_reached hnodup hr' hlisted
  refine ⟨r₁, r₂, hpass, fun r₃ => ?_, fun e he => ?_⟩
  · rw [← hreached r₃, hserve, List.mem_append]
    exact or_iff_left fun hlast => Event.noConfusion (List.mem_singleton.mp hlast)
  · rw [← habout e he, hserve, List.mem_append]
    refine or_iff_left fun hlast => ?_
    rw [List.mem_singleton.mp hlast] at he
    cases he

end Deployment

/-- A route, with what is known of the middlewares that its list and that of its group name, also of those
that have been deleted since. -/
structure GuardedRoute extends Deployment where
  /-- The middleware authenticates or authorizes requests. -/
  auth : String → Bool
  auth_eq : ∀ {mwID : String} {mw : Middleware}, middlewareByID middlewares mwID = some mw →
    auth mwID = MiddlewareType.isAuth mw.type

namespace GuardedRoute

variable (d : GuardedRoute) (env : Outside)

/-- The check of the middleware with the ID was made and passed. -/
def Checked (es : List Event) (mwID : String) : Prop :=
  ∃ mw, middlewareByID d.middlewares mwID = some mw ∧ Passed mw es

/-- The middleware with the ID exists and can make its check. -/
def Works (mwID : String) : Prop :=
  ∃ mw, middlewareByID d.middlewares mwID = some mw ∧ Usable d.eng d.services env mw

/-- For every request that is forwarded, and every middleware for authentication or authorization that the
route or its group lists and does not disable: the request comes to it, and unless it is skipped for the
request, its check was made and passed exactly if the middleware exists and can make its check. -/
theorem checked_iff {d : GuardedRoute} {env : Outside} {r sent : Inbound} {mwID : String}
    (hforwarded : .upstream sent ∈ d.serve env r)
    (hlisted : mwID ∈ collectMiddlewareIDs d.route d.group) (hauth : d.auth mwID = true)
    (henabled : (d.override mwID).any MiddlewareOverride.disabled = false) :
    ∃ r', (∀ r₁, .reached mwID r₁ ∈ d.serve env r ↔ r₁ = r') ∧
      (applies d.eng (d.override mwID) r'.request = true →
        (d.Checked (d.serve env r) mwID ↔ d.Works env mwID)) := by
  obtain ⟨r₁, r₂, hpass, hreached, habout⟩ := Deployment.exists_reached_of_forwarded hforwarded hlisted
  refine ⟨r₁, hreached, fun happlies => exists_congr fun mw => and_congr_right fun hmw => ?_⟩
  have hid : mw.id = mwID := id_of_middlewareByID hmw
  have htype : MiddlewareType.isAuth mw.type = true := d.auth_eq hmw ▸ hauth
  have hknown : mw.type ≠ .unknown := by
    intro heq
    rw [heq] at htype
    cases htype
  rw [Deployment.pass_of_applies hmw henabled hknown happlies] at hpass habout
  refine (passed_congr fun e he => ?_).trans (passed_iff hpass htype)
  rw [habout e (he.trans (congrArg some hid)), List.mem_cons]
  refine or_iff_right fun heq => ?_
  rw [heq] at he
  cases he

end GuardedRoute

/-! ## A service that is gone -/

def authzMiddleware : Middleware where
  id := "authz"
  type := .extAuthz
  extAuthz := some { destinationID := "authz-service" }

theorem isAuth_authzMiddleware {mwID : String} {mw : Middleware}
    (h : middlewareByID [authzMiddleware] mwID = some mw) : true = MiddlewareType.isAuth mw.type := by
  obtain rfl := List.mem_singleton.mp (List.mem_of_find?_eq_some h)
  rfl

/-- A route that lists the middleware, where these destinations are there. -/
def authzRoute (services : List String) : GuardedRoute where
  eng := noEngine
  services := "app" :: services
  middlewares := [authzMiddleware]
  route := {
    id := "route"
    name := "route"
    «match» := { pathPrefix := "/" }
    forward := some { destinations := [⟨"app", 100⟩], rewrite := none }
    middlewareIDs := ["authz"] }
  group := none
  auth _ := true
  auth_eq := isAuth_authzMiddleware

/-- A service with this reply to every check. -/
def outsideWith (reply : CheckReply) : Outside where
  valid _ _ := false
  claimsBool _ := none
  claimsString _ := none
  lets _ _ := true
  check _ _ := reply
  process _ _ := .failed
  dials _ := true
  secure := false
  peerURIs := []

theorem checked_authzRoute :
    (authzRoute ["authz-service"]).Checked
      ((authzRoute ["authz-service"]).serve (outsideWith (.allowed [])) (plainRequest "/" (by decide)))
      "authz" := by
  have hforwarded : ∃ sent, .upstream sent ∈
      (authzRoute ["authz-service"]).serve (outsideWith (.allowed [])) (plainRequest "/" (by decide)) :=
    ⟨_, List.mem_of_getElem? (i := 4) rfl⟩
  obtain ⟨sent, hsent⟩ := hforwarded
  have hlisted : "authz" ∈
      collectMiddlewareIDs (authzRoute ["authz-service"]).route (authzRoute ["authz-service"]).group := by
    decide
  obtain ⟨r', -, hchecked⟩ := GuardedRoute.checked_iff hsent hlisted rfl rfl
  exact (hchecked rfl).mpr ⟨authzMiddleware, rfl, _, rfl, by decide, by decide, fun _ => rfl⟩

/-- The middleware is accepted. After its destination was deleted the service, which refuses every request,
is no longer asked. -/
theorem not_checked_authzRoute :
    Api.validateMiddleware (fun _ => none) (submitted authzMiddleware) = .ok () ∧
      (∃ sent, .upstream sent ∈ (authzRoute []).serve (outsideWith .denied) (plainRequest "/" (by decide))) ∧
      ¬(authzRoute []).Checked
        ((authzRoute []).serve (outsideWith .denied) (plainRequest "/" (by decide))) "authz" := by
  refine ⟨rfl, ⟨_, List.mem_of_getElem? (i := 2) rfl⟩, ?_⟩
  rintro ⟨mw, hmw, hpassed⟩
  obtain rfl := Option.some.inj hmw
  have hserve : (authzRoute []).serve (outsideWith .denied) (plainRequest "/" (by decide)) =
      [.reached "authz" (plainRequest "/" (by decide)), .conditions "authz" [], .upstream _] := rfl
  rw [hserve] at hpassed
  rcases hpassed with hpassed | ⟨-, hpassed⟩
  · simp at hpassed
  · simp at hpassed

end Vrata.Proxy

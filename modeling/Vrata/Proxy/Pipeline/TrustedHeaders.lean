import Vrata.Proxy.Pipeline.Authentication

/-!
# Headers that the upstream relies on

Reference: `JWTMiddlewareWithStop` of `server/internal/proxy/middlewares/jwt.go`, `Eval` of a
`ClaimsStringProgram` in `celeval/cel.go`, `extauthz.go` and `headermatch.go`.

Two middlewares put headers into a request that the upstream is meant to trust: the claims of a token, and
what an authorization service says about the client. Neither removes what the client itself has sent under
these names. A claim that comes to nothing leaves the client's values there, and one that is null is written
as `NULL_VALUE`. In HTTP mode the values of the service are put behind those of the client, and in gRPC mode
a header that the service does not set is left as it is.

What happens to the values of one header is an `Effect`, so both theorems follow one header through the
middleware.
-/

namespace Vrata.Proxy

open Server Multimap

/-! ## The claims of a token -/

/-- What a CEL expression comes to: null, or a value as `%v` prints it. -/
inductive CelResult where
  | null
  | printed (text : String)
deriving DecidableEq, Repr

/-- `Eval` of a `ClaimsStringProgram`. There is no result after an error. -/
def claimText : Option CelResult → String
  | none => ""
  | some .null => "NULL_VALUE"
  | some (.printed text) => text

/-- The expressions over the claims of a token, where they compile. -/
abbrev ClaimsEngine := String → Option (String → Option CelResult)

/-- The middlewares with the expressions as they are evaluated. -/
def Outside.withClaims (env : Outside) (compile : ClaimsEngine) : Outside :=
  { env with claimsString := fun expr => (compile expr).map fun prg token => claimText (prg token) }

/-- What the header of an entry should say about a token: the value of its expression, and nothing if
there is none. -/
def claimValue (compile : ClaimsEngine) (token : String) (c : JWTClaimHeader) : List String :=
  match (compile c.expr).bind (· token) with
  | some (.printed text) => if text = "" then [] else [text]
  | _ => []

/-- The header that an entry sets. -/
def claimSet (env : Outside) (token : String) (c : JWTClaimHeader) : Option (String × String) :=
  ((env.claimsString c.expr).map (· token)).bind fun text =>
    if text = "" then none else some (canonicalKey c.header, text)

/-- The last of the headers that are set under a key. -/
def lastSet (env : Outside) (cfg : JWTConfig) (token key : String) : Option String :=
  ((cfg.claimToHeaders.filterMap (claimSet env token)).reverse.find? fun p => p.1 = key).map Prod.snd

/-- The key is that of the token, which is not forwarded. -/
def Withheld (cfg : JWTConfig) (key : String) : Prop :=
  cfg.forwardJWT = false ∧ key = canonicalKey "Authorization"

/-- Both requests come to the upstream with the same values, which are those of the token. -/
def TrustedClaims (compile : ClaimsEngine) (cfg : JWTConfig) (token : String) (s s' : Inbound) : Prop :=
  ∀ c ∈ cfg.claimToHeaders, s.header (canonicalKey c.header) = s'.header (canonicalKey c.header) ∧
    s.header (canonicalKey c.header) = claimValue compile token c

section Claims

variable {env : Outside} {compile : ClaimsEngine} {cfg : JWTConfig} {token : String}

theorem claimHeaders_eq (h : Header) : claimHeaders env cfg token h =
    applyAll ((cfg.claimToHeaders.filterMap (claimSet env token)).map fun p => .set p.1 p.2) h := by
  unfold claimHeaders
  generalize cfg.claimToHeaders = entries
  induction entries generalizing h with
  | nil => rfl
  | cons c entries ih =>
    rw [List.foldl_cons, ih, List.filterMap_cons]
    cases hprg : env.claimsString c.expr with
    | none => simp [claimSet, hprg]
    | some prg =>
      by_cases htext : prg token = ""
      · simp [claimSet, hprg, htext]
      · simp [claimSet, hprg, htext, applyAll, Op.apply, Header.set]

/-- What becomes of the values under a key. -/
theorem jwtHeader_apply (h : Header) (key : String) [Decidable (Withheld cfg key)] :
    jwtHeader env cfg token h key =
      if Withheld cfg key then [] else ((lastSet env cfg token key).map ([·])).getD (h key) := by
  have hclaims : claimHeaders env cfg token h key =
      ((lastSet env cfg token key).map ([·])).getD (h key) := by
    rw [claimHeaders_eq, applyAll_apply, effect_sets, lastSet]
    cases (cfg.claimToHeaders.filterMap (claimSet env token)).reverse.find? fun p => p.1 = key with
    | none => exact Effect.run_keep _
    | some p => rfl
  rw [jwtHeader]
  by_cases hforward : cfg.forwardJWT = true
  · have hkept : ¬Withheld cfg key := fun hw => absurd hforward (by simp [hw.1])
    rw [if_pos hforward, if_neg hkept, hclaims]
  · -- the token is removed last, also if an entry has written to its header
    rw [if_neg hforward]
    by_cases hkey : key = canonicalKey "Authorization"
    · rw [if_pos ⟨Bool.eq_false_iff.mpr hforward, hkey⟩, hkey]
      exact Function.update_self ..
    · rw [if_neg fun hw => hkey hw.2, ← hclaims]
      exact Function.update_of_ne hkey _ _

/-- A request that is handed on has the headers of a request with this token. -/
theorem header_of_jwt {mwID : String} {r s : Inbound} (hissuer : cfg.issuer ≠ "")
    (h : (jwtMiddleware env mwID r (some cfg)).2 = some s) :
    s.header = jwtHeader env cfg (extractBearerToken r) r.header := by
  simp only [jwtMiddleware] at h
  rw [if_neg hissuer] at h
  split_ifs at h
  · cases h
  · cases h
    rfl
  · cases h
  · cases h

/-- Where no entry sets the header, the expression comes to nothing. -/
theorem claimValue_of_lastSet {c : JWTClaimHeader} (hc : c ∈ cfg.claimToHeaders)
    (h : lastSet (env.withClaims compile) cfg token (canonicalKey c.header) = none) :
    claimValue compile token c = [] := by
  rw [lastSet, Option.map_eq_none_iff, List.find?_eq_none] at h
  by_contra hvalue
  unfold claimValue at hvalue
  split at hvalue
  · rename_i text hresult
    obtain ⟨prg, hprg, htoken⟩ := Option.bind_eq_some_iff.mp hresult
    have htext : text ≠ "" := fun hempty => hvalue (if_pos hempty)
    refine h (canonicalKey c.header, text) (List.mem_reverse.mpr (List.mem_filterMap.mpr ⟨c, hc, ?_⟩))
      (decide_eq_true rfl)
    simp [claimSet, Outside.withClaims, hprg, htoken, claimText, htext]
  · exact hvalue rfl

/-- Two requests with the same token come to the upstream with the values of its claims exactly if every
header of an entry is set, last to the value of the expression, or comes to nothing and was sent by neither
client. The header of the token itself is removed unless it is forwarded. -/
theorem trustedClaims_iff (env : Outside) (mwID : String) (r r' : Inbound) {s s' : Inbound}
    (hissuer : cfg.issuer ≠ "")
    (htoken : extractBearerToken r = token) (htoken' : extractBearerToken r' = token)
    (hs : (jwtMiddleware (env.withClaims compile) mwID r (some cfg)).2 = some s)
    (hs' : (jwtMiddleware (env.withClaims compile) mwID r' (some cfg)).2 = some s') :
    TrustedClaims compile cfg token s s' ↔ ∀ c ∈ cfg.claimToHeaders,
      let key := canonicalKey c.header
      (Withheld cfg key → claimValue compile token c = []) ∧
        (¬Withheld cfg key →
          (∃ text, lastSet (env.withClaims compile) cfg token key = some text ∧
            claimValue compile token c = [text]) ∨
          (lastSet (env.withClaims compile) cfg token key = none ∧ r.header key = [] ∧
            r'.header key = [])) := by
  classical
  refine forall₂_congr fun c hc => ?_
  rw [header_of_jwt hissuer hs, header_of_jwt hissuer hs', htoken, htoken', jwtHeader_apply,
    jwtHeader_apply]
  by_cases hw : Withheld cfg (canonicalKey c.header)
  · rw [if_pos hw, if_pos hw]
    exact ⟨fun h => ⟨fun _ => h.2.symm, fun hnot => absurd hw hnot⟩, fun h => ⟨rfl, (h.1 hw).symm⟩⟩
  · rw [if_neg hw, if_neg hw]
    simp only [hw, false_implies, true_and, not_false_eq_true, true_implies]
    cases hlast : lastSet (env.withClaims compile) cfg token (canonicalKey c.header) with
    | none =>
      rw [claimValue_of_lastSet hc hlast]
      simp only [Option.map_none, Option.getD_none, reduceCtorEq, false_and, exists_false, false_or,
        true_and]
      exact ⟨fun h => ⟨h.2, h.1 ▸ h.2⟩, fun h => ⟨h.1.trans h.2.symm, h.1⟩⟩
    | some text => simp [eq_comm (a := [text])]

end Claims

/-- A configuration with a header for the name of the user. -/
def userClaim : JWTConfig where
  issuer := "issuer"
  claimToHeaders := [⟨"claims.user", "X-User"⟩]

/-- A request with a token, and with values for the header of the user. -/
def tokenRequest (values : List String) : Inbound :=
  { plainRequest "/" hasPrefix_root with
    header := fun key =>
      if key = "authorization" then ["Bearer token"] else if key = "x-user" then values else [] }

/-- Every token is valid, and the service has this reply to every check. -/
def validOutside (reply : CheckReply) : Outside := { outsideWith reply with valid := fun _ _ => true }

theorem trustedClaims_user : ∃ s s',
    (jwtMiddleware ((validOutside .failed).withClaims fun _ => some fun _ => some (.printed "ann")) "jwt"
      (tokenRequest ["root"]) (some userClaim)).2 = some s ∧
    (jwtMiddleware ((validOutside .failed).withClaims fun _ => some fun _ => some (.printed "ann")) "jwt"
      (tokenRequest []) (some userClaim)).2 = some s' ∧
    TrustedClaims (fun _ => some fun _ => some (.printed "ann")) userClaim "token" s s' := by
  have hissuer : userClaim.issuer ≠ "" := by decide
  refine ⟨_, _, rfl, rfl,
    (trustedClaims_iff (validOutside .failed) "jwt" (tokenRequest ["root"]) (tokenRequest []) hissuer rfl rfl
      rfl rfl).mpr ?_⟩
  intro c hc
  obtain rfl := List.mem_singleton.mp hc
  exact ⟨fun hw => absurd hw.2 (by decide), fun _ => .inl ⟨"ann", rfl, rfl⟩⟩

/-- For a token without the claim, the upstream sees the user that the client has named. -/
theorem spoofed_user : ∃ s,
    (jwtMiddleware ((validOutside .failed).withClaims fun _ => some fun _ => none) "jwt"
      (tokenRequest ["root"]) (some userClaim)).2 = some s ∧
    ¬TrustedClaims (fun _ => some fun _ => none) userClaim "token" s s := by
  refine ⟨_, rfl, fun h => ?_⟩
  have hroot := (h _ List.mem_cons_self).2
  exact absurd hroot (by decide)

/-! ## The replies of an authorization service -/

/-- The values of a header in a reply. -/
def replyValues (headers : List (String × String)) (key : String) : List String :=
  (headers.filter fun p => canonicalKey p.1 = key).map Prod.snd

/-- What the service is sent. -/
def checkOf (env : Outside) (cfg : ExtAuthzConfig) (r : Inbound) : CheckRequest :=
  if cfg.mode = "grpc" then checkGRPC r cfg else checkHTTP env r cfg

/-- Both requests come to the upstream with the same headers of these names, which are those of the reply. -/
def TrustedReply (cfg : ExtAuthzConfig) (headers : List (String × String)) (s s' : Inbound) : Prop :=
  ∀ key, headerMatchesAny key cfg.copyToUpstream = true →
    s.header key = s'.header key ∧ s.header key = replyValues headers key

section Replies

variable {services : List String} {env : Outside} {cfg : ExtAuthzConfig} {headers : List (String × String)}

theorem headerMatchesAny_canonicalKey (name : String) (patterns : List String) :
    headerMatchesAny (canonicalKey name) patterns = headerMatchesAny name patterns := by
  rw [headerMatchesAny, headerMatchesAny, toLower_canonicalKey]

/-- In HTTP mode the values of the reply come behind those that are there. -/
theorem addAll_apply {key : String} (hkey : headerMatchesAny key cfg.copyToUpstream = true) (h : Header) :
    headers.foldl (fun h p => if headerMatchesAny p.1 cfg.copyToUpstream then h.add p.1 p.2 else h) h key =
      h key ++ replyValues headers key := by
  induction headers generalizing h with
  | nil => exact (List.append_nil _).symm
  | cons p headers ih =>
    rw [List.foldl_cons, ih]
    by_cases hp : canonicalKey p.1 = key
    · have hmatch : headerMatchesAny p.1 cfg.copyToUpstream = true := by
        rw [← headerMatchesAny_canonicalKey, hp, hkey]
      simp [hmatch, Header.add, hp, replyValues]
    · have hother : (if headerMatchesAny p.1 cfg.copyToUpstream then h.add p.1 p.2 else h) key = h key := by
        split
        · exact Function.update_of_ne (Ne.symm hp) _ _
        · rfl
      simp [hother, hp, replyValues]

/-- In gRPC mode the last value of the reply is the one that stays. -/
theorem setAll_apply (key : String) (h : Header) :
    headers.foldl (fun h p => h.set p.1 p.2) h key =
      ((replyValues headers key).getLast?.map ([·])).getD (h key) := by
  induction headers generalizing h with
  | nil => rfl
  | cons p headers ih =>
    rw [List.foldl_cons, ih]
    by_cases hp : canonicalKey p.1 = key
    · have hset : h.set p.1 p.2 key = [p.2] := by rw [← hp]; exact Function.update_self ..
      have hcons : replyValues (p :: headers) key = p.2 :: replyValues headers key := by
        simp [replyValues, hp]
      rw [hset, hcons, List.getLast?_cons]
      cases (replyValues headers key).getLast? with
      | none | some value => rfl
    · have hset : h.set p.1 p.2 key = h key := Function.update_of_ne (Ne.symm hp) _ _
      simp [hset, replyValues, hp]

/-- The headers of a request that the service has allowed. -/
theorem header_of_extAuthz {mwID : String} {r s : Inbound} (hid : cfg.destinationID ≠ "")
    (hservice : cfg.destinationID ∈ services)
    (hdials : cfg.mode = "grpc" → env.dials cfg.destinationID = true)
    (hreply : env.check cfg.destinationID (checkOf env cfg r) = .allowed headers)
    (hs : (extAuthzMiddleware services env mwID r (some cfg)).2 = some s) :
    s.header = if cfg.mode = "grpc" then headers.foldl (fun h p => h.set p.1 p.2) r.header
      else headers.foldl
        (fun h p => if headerMatchesAny p.1 cfg.copyToUpstream then h.add p.1 p.2 else h) r.header := by
  have hthere : ¬(cfg.destinationID = "" ∨ cfg.destinationID ∉ services) :=
    not_or.mpr ⟨hid, not_not.mpr hservice⟩
  simp only [extAuthzMiddleware] at hs
  rw [if_neg hthere] at hs
  unfold checkOf at hreply
  by_cases hgrpc : cfg.mode = "grpc"
  · rw [if_pos hgrpc] at hreply hs ⊢
    rw [if_pos (hdials hgrpc), afterCheck, hreply] at hs
    cases hs
    rfl
  · rw [if_neg hgrpc] at hreply hs ⊢
    rw [afterCheck, hreply] at hs
    cases hs
    rfl

/-- Two requests that the service has allowed with the same reply come to the upstream with the headers of
the reply exactly if neither client has sent one of these headers; in gRPC mode it also suffices that the
reply sets the header, once. -/
theorem trustedReply_iff (env : Outside) (mwID : String) (r r' : Inbound) {s s' : Inbound}
    (hid : cfg.destinationID ≠ "")
    (hservice : cfg.destinationID ∈ services)
    (hdials : cfg.mode = "grpc" → env.dials cfg.destinationID = true)
    (hreply : env.check cfg.destinationID (checkOf env cfg r) = .allowed headers)
    (hreply' : env.check cfg.destinationID (checkOf env cfg r') = .allowed headers)
    (hs : (extAuthzMiddleware services env mwID r (some cfg)).2 = some s)
    (hs' : (extAuthzMiddleware services env mwID r' (some cfg)).2 = some s') :
    TrustedReply cfg headers s s' ↔ ∀ key, headerMatchesAny key cfg.copyToUpstream = true →
      (r.header key = [] ∧ r'.header key = [] ∧
          (cfg.mode = "grpc" → (replyValues headers key).length ≤ 1)) ∨
        (cfg.mode = "grpc" ∧ (replyValues headers key).length = 1) := by
  have hheader := header_of_extAuthz hid hservice hdials hreply hs
  have hheader' := header_of_extAuthz hid hservice hdials hreply' hs'
  refine forall₂_congr fun key hkey => ?_
  by_cases hgrpc : cfg.mode = "grpc"
  · rw [hheader, hheader', if_pos hgrpc, if_pos hgrpc, setAll_apply, setAll_apply]
    rcases hvalues : replyValues headers key with _ | ⟨value, _ | ⟨next, rest⟩⟩
    · simp only [List.getLast?_nil, Option.map_none, Option.getD_none, List.length_nil, Nat.zero_le,
        implies_true, and_true, hgrpc, Nat.zero_ne_one, and_false, or_false]
      exact ⟨fun h => ⟨h.2, h.1 ▸ h.2⟩, fun h => ⟨h.1.trans h.2.symm, h.1⟩⟩
    · simp [hgrpc]
    · -- one value stays of several
      have hlast : (value :: next :: rest).getLast? = some ((next :: rest).getLast (by simp)) := by
        rw [List.getLast?_cons_cons, List.getLast?_eq_some_getLast]
      simp [hlast, hgrpc]
  · rw [hheader, hheader', if_neg hgrpc, if_neg hgrpc, addAll_apply hkey, addAll_apply hkey]
    simp only [List.append_left_eq_self, hgrpc, false_implies, and_true, false_and, or_false]
    constructor
    · rintro ⟨hsame, hnil⟩
      rw [hnil, List.nil_append, List.self_eq_append_left] at hsame
      exact ⟨hnil, hsame⟩
    · rintro ⟨hnil, hnil'⟩
      exact ⟨by rw [hnil, hnil'], hnil⟩

end Replies

/-- The headers of the reply are to be copied to the upstream. -/
def userReply (mode : String) : ExtAuthzConfig where
  destinationID := "authz"
  mode
  copyToUpstream := ["X-User"]

theorem trustedReply_user : ∃ s s',
    (extAuthzMiddleware ["authz"] (validOutside (.allowed [("X-User", "ann")])) "mw" (tokenRequest ["root"])
      (some (userReply "grpc"))).2 = some s ∧
    (extAuthzMiddleware ["authz"] (validOutside (.allowed [("X-User", "ann")])) "mw" (tokenRequest [])
      (some (userReply "grpc"))).2 = some s' ∧
    TrustedReply (userReply "grpc") [("X-User", "ann")] s s' := by
  have hservice : (userReply "grpc").destinationID ∈ ["authz"] := List.mem_cons_self
  refine ⟨_, _, rfl, rfl,
    (trustedReply_iff (validOutside (.allowed [("X-User", "ann")])) "mw" (tokenRequest ["root"])
      (tokenRequest []) (by decide) hservice (fun _ => rfl) rfl rfl rfl rfl).mpr ?_⟩
  intro key hkey
  by_cases huser : key = "x-user"
  · subst huser
    exact .inr ⟨rfl, by decide⟩
  · have hauth : key ≠ "authorization" := by
      rintro rfl
      exact absurd hkey (by decide)
    have hvalues : (replyValues [("X-User", "ann")] key).length ≤ 1 :=
      (List.length_map _).trans_le (List.length_filter_le _ _)
    exact .inl ⟨by simp [tokenRequest, hauth, huser], by simp [tokenRequest, hauth], fun _ => hvalues⟩

/-- In HTTP mode the user that the client has named comes first. -/
theorem spoofed_reply : ∃ s,
    (extAuthzMiddleware ["authz"] (validOutside (.allowed [("X-User", "ann")])) "mw" (tokenRequest ["root"])
      (some (userReply "http"))).2 = some s ∧
    ¬TrustedReply (userReply "http") [("X-User", "ann")] s s := by
  refine ⟨_, rfl, fun h => ?_⟩
  have hroot := (h "x-user" (by decide)).2
  exact absurd hroot (by decide)

end Vrata.Proxy

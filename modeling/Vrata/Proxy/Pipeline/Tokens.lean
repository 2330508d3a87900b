import Vrata.Proxy.Pipeline.TrustedHeaders
import Vrata.Proxy.Pipeline.Signatures
import Vrata.Proxy.Retry

/-!
# Tokens that are let in

Reference: `JWTMiddlewareWithStop`, `verifySignature` and `validateClaims` of
`server/internal/proxy/middlewares/jwt.go`, and `docs/website/content/docs/concepts/middlewares/jwt.md`.

A token is cut into its three parts, these are decoded, the signature over the first two parts is checked
with the keys that the `kid` of the header does not rule out, and then the claims are looked at. Base64, JSON
and CEL are parameters, and so are the primitives of the signatures. Assertions that do not compile are left
out when the middleware is built, so they are not made.
-/

namespace Vrata.Proxy

open Server

/-! ## Keys -/

inductive HashAlg where
  | sha256 | sha384 | sha512
deriving DecidableEq, Repr

inductive PublicKey where
  | rsa (n e : ℕ)
  | ecdsa (curve : Curve) (x y : ℕ)
  | ed25519 (key : List UInt8)
deriving DecidableEq, Repr

structure VerifierKey where
  kid : String := ""
  key : PublicKey
deriving DecidableEq, Repr

/-- The checks of signatures: which hash they take, the content, and the signature. -/
structure Primitives where
  verifyPKCS1v15 : (n e : ℕ) → HashAlg → String → List UInt8 → Bool
  verifyASN1 : (curve : Curve) → (x y : ℕ) → HashAlg → String → List UInt8 → Bool
  verifyEd25519 : List UInt8 → String → List UInt8 → Bool

def rsaHashForAlg (alg : String) : HashAlg :=
  if alg = "RS384" ∨ alg = "PS384" then .sha384
  else if alg = "RS512" ∨ alg = "PS512" then .sha512
  else .sha256

def ecHashForCurve : Curve → HashAlg
  | .p256 => .sha256
  | .p384 => .sha384
  | .p521 => .sha512

/-- `verify`. -/
def VerifierKey.verify (p : Primitives) (vk : VerifierKey) (alg content : String) (sig : List UInt8) : Bool :=
  match vk.key with
  | .rsa n e => p.verifyPKCS1v15 n e (rsaHashForAlg alg) content sig
  | .ecdsa curve x y =>
    (ecConvertP1363ToASN1 sig curve).any (p.verifyASN1 curve x y (ecHashForCurve curve) content)
  | .ed25519 key => p.verifyEd25519 key content sig

/-! ## Tokens -/

structure JwtHeader where
  alg : String
  kid : String
deriving DecidableEq, Repr

/-- A value of a claim. Numbers are those of `float64`. -/
inductive ClaimValue where
  | string (s : String)
  | number (q : ℚ)
  | array (elems : List ClaimValue)
  | other

abbrev Claims := String → Option ClaimValue

/-- What tokens are checked with. -/
structure Verifier where
  decode : String → Option (List UInt8)
  unmarshalHeader : List UInt8 → Option JwtHeader
  unmarshalClaims : List UInt8 → Option Claims
  primitives : Primitives
  /-- The keys of a configuration that are there now. -/
  keys : JWTConfig → List VerifierKey
  compileClaims : String → Option (Claims → Bool)
  /-- The seconds since 1970. -/
  now : ℕ
  now_pos : 0 < now

/-- A token that was taken apart. -/
structure Token where
  header64 : String
  claims64 : String
  header : JwtHeader
  claims : Claims
  signature : List UInt8

def Token.signedContent (t : Token) : String := t.header64 ++ "." ++ t.claims64

def extractAudience (claims : Claims) : List String :=
  match claims "aud" with
  | some (.string s) => [s]
  | some (.array elems) => elems.filterMap fun
    | .string s => some s
    | _ => none
  | _ => []

namespace Verifier

variable (v : Verifier)

/-- The first part of the handler, up to the signature. -/
def parse (token : String) : Option Token := do
  let (header64, rest) ← Text.cut '.' token
  let (claims64, signature64) ← Text.cut '.' rest
  if '.' ∈ signature64.toList then none
  else
    let header ← (v.decode header64).bind v.unmarshalHeader
    let claims ← (v.decode claims64).bind v.unmarshalClaims
    let signature ← v.decode signature64
    some ⟨header64, claims64, header, claims, signature⟩

/-- The key is not ruled out by the header. -/
def candidate (header : JwtHeader) (k : VerifierKey) : Bool :=
  header.kid = "" || k.kid = "" || header.kid = k.kid

def verifySignature (cfg : JWTConfig) (t : Token) : Bool :=
  (v.keys cfg).any fun k =>
    candidate t.header k && k.verify v.primitives t.header.alg t.signedContent t.signature

def validateClaims (cfg : JWTConfig) (claims : Claims) : Bool :=
  (match claims "iss" with
    | some (.string iss) => cfg.issuer = "" || iss = cfg.issuer
    | _ => cfg.issuer = "") &&
  (cfg.audiences.isEmpty || cfg.audiences.any fun a => a ∈ extractAudience claims) &&
  match claims "exp" with
  | some (.number exp) => v.now ≤ toInt64 exp
  | _ => false

def valid (cfg : JWTConfig) (token : String) : Bool :=
  (v.parse token).any fun t => v.verifySignature cfg t && v.validateClaims cfg t.claims

/-- An assertion about the claims of a token. -/
def assertion (expr : String) : Option (String → Bool) :=
  (v.compileClaims expr).map fun prg token => (v.parse token).any fun t => prg t.claims

end Verifier

/-- The middlewares with the checks of tokens. -/
def Outside.withTokens (env : Outside) (v : Verifier) : Outside :=
  { env with valid := v.valid, claimsBool := v.assertion }

/-! ## What is to be let in -/

/-- The token is well formed, signed over its first two parts with a key that is not ruled out, and its
claims are as configured. -/
structure Admissible (v : Verifier) (cfg : JWTConfig) (token : String) (t : Token) : Prop where
  wellFormed : ∃ signature64, token = t.signedContent ++ "." ++ signature64 ∧
    v.decode signature64 = some t.signature ∧ (v.decode t.header64).bind v.unmarshalHeader = some t.header ∧
    (v.decode t.claims64).bind v.unmarshalClaims = some t.claims
  signed : ∃ k ∈ v.keys cfg, (t.header.kid ≠ "" → k.kid ≠ "" → t.header.kid = k.kid) ∧
    k.verify v.primitives t.header.alg t.signedContent t.signature = true
  issuer : ∃ iss, t.claims "iss" = some (.string iss) ∧ iss = cfg.issuer
  audience : cfg.audiences ≠ [] → ∃ a ∈ cfg.audiences, a ∈ extractAudience t.claims
  unexpired : ∃ exp, t.claims "exp" = some (.number exp) ∧ (v.now : ℚ) ≤ exp
  asserted : ∀ expr ∈ cfg.assertClaims, ∃ prg, v.compileClaims expr = some prg ∧ prg t.claims = true

section Admission

variable {v : Verifier} {cfg : JWTConfig} {token : String} {t : Token}

theorem wellFormed_of_parse (h : v.parse token = some t) : ∃ signature64,
    token = t.signedContent ++ "." ++ signature64 ∧ v.decode signature64 = some t.signature ∧
      (v.decode t.header64).bind v.unmarshalHeader = some t.header ∧
      (v.decode t.claims64).bind v.unmarshalClaims = some t.claims := by
  obtain ⟨⟨header64, rest⟩, hcut, h⟩ := Option.bind_eq_some_iff.mp h
  obtain ⟨⟨claims64, signature64⟩, hcut', h⟩ := Option.bind_eq_some_iff.mp h
  simp only at h
  split at h
  · cases h
  · obtain ⟨header, hheader, h⟩ := Option.bind_eq_some_iff.mp h
    obtain ⟨claims, hclaims, h⟩ := Option.bind_eq_some_iff.mp h
    obtain ⟨signature, hsignature, h⟩ := Option.bind_eq_some_iff.mp h
    obtain rfl := Option.some.inj h
    refine ⟨signature64, ?_, hsignature, hheader, hclaims⟩
    rw [Text.eq_of_cut hcut, Text.eq_of_cut hcut', Token.signedContent]
    simp [String.append_assoc]

/-- An expiry that is not before the current second has not passed. -/
theorem le_of_le_toInt64 {q : ℚ} {n : ℕ} (hn : 0 < n) (h : (n : ℤ) ≤ toInt64 q) : (n : ℚ) ≤ q := by
  have htruncate : (n : ℤ) ≤ truncate q := by
    unfold toInt64 at h
    split at h
    · exact h
    · omega
  unfold truncate at htruncate
  split at htruncate
  · simpa using Rat.le_floor_iff.mp htruncate
  · rename_i hneg
    have hfloor : (0 : ℤ) ≤ (-q).floor := Rat.le_floor_iff.mpr (by push_cast; grind)
    omega

/-- A valid token whose assertions hold as far as they are made is to be let in if all of them are made. -/
theorem admissible_of_valid (hissuer : cfg.issuer ≠ "") (hparse : v.parse token = some t)
    (hsigned : v.verifySignature cfg t = true) (hclaims : v.validateClaims cfg t.claims = true)
    (hasserted : ∀ expr ∈ cfg.assertClaims, ∀ prg, v.compileClaims expr = some prg → prg t.claims = true)
    (hcompile : ∀ expr ∈ cfg.assertClaims, (v.compileClaims expr).isSome = true) :
    Admissible v cfg token t := by
  obtain ⟨k, hk, hverify⟩ := List.any_eq_true.mp hsigned
  rw [Bool.and_eq_true] at hverify
  simp only [Verifier.validateClaims, Bool.and_eq_true] at hclaims
  obtain ⟨⟨hiss, haud⟩, hexp⟩ := hclaims
  refine ⟨wellFormed_of_parse hparse, ⟨k, hk, fun h h' => ?_, hverify.2⟩, ?_, fun hne => ?_, ?_, ?_⟩
  · simpa [Verifier.candidate, h, h'] using hverify.1
  · split at hiss
    · rename_i iss hclaim
      exact ⟨iss, hclaim, by simpa [hissuer] using hiss⟩
    · exact absurd (of_decide_eq_true hiss) hissuer
  · simpa [hne] using haud
  · split at hexp
    · rename_i exp hclaim
      exact ⟨exp, hclaim, le_of_le_toInt64 v.now_pos (of_decide_eq_true hexp)⟩
    · cases hexp
  · intro expr hexpr
    obtain ⟨prg, hprg⟩ := Option.isSome_iff_exists.mp (hcompile expr hexpr)
    exact ⟨prg, hprg, hasserted expr hexpr prg hprg⟩

end Admission

/-- A request that is let in has a token that is to be let in exactly if all assertions compile. -/
theorem admissible_iff (v : Verifier) (env : Outside) (mwID : String) (cfg : JWTConfig) (r : Inbound)
    {s : Inbound} (hissuer : cfg.issuer ≠ "")
    (hs : (jwtMiddleware (env.withTokens v) mwID r (some cfg)).2 = some s) :
    (∃ t, Admissible v cfg (extractBearerToken r) t) ↔
      ∀ expr ∈ cfg.assertClaims, (v.compileClaims expr).isSome = true := by
  simp only [jwtMiddleware] at hs
  rw [if_neg hissuer] at hs
  split_ifs at hs with hempty hvalid hassert
  · cases hs
  · obtain ⟨t, hparse, hchecks⟩ := (Option.any_eq_true _ _).mp hvalid
    rw [Bool.and_eq_true] at hchecks
    have hasserted : ∀ expr ∈ cfg.assertClaims, ∀ prg, v.compileClaims expr = some prg →
        prg t.claims = true := by
      intro expr hexpr prg hprg
      have hmade := List.all_eq_true.mp hassert expr
        (List.mem_filter.mpr ⟨hexpr, by simp [Outside.withTokens, Verifier.assertion, hprg]⟩)
      simpa [Outside.withTokens, Verifier.assertion, hprg, hparse] using hmade
    constructor
    · rintro ⟨_, h⟩ expr hexpr
      obtain ⟨prg, hprg, -⟩ := h.asserted expr hexpr
      exact Option.isSome_of_eq_some hprg
    · exact fun h => ⟨t, admissible_of_valid hissuer hparse hchecks.1 hchecks.2 hasserted h⟩
  · cases hs
  · cases hs

/-- A request with a token. -/
def bearer (token : String) : Inbound :=
  { plainRequest "/" hasPrefix_root with
    header := fun key => if key = "authorization" then ["Bearer " ++ token] else [] }

/-- The header and the claims of a token. -/
def headerText : List UInt8 := "\x7b\"alg\":\"RS256\"\x7d".toList.map (.ofNat ·.toNat)

def claimsText : List UInt8 :=
  "\x7b\"iss\":\"issuer\",\"exp\":2000000000\x7d".toList.map (.ofNat ·.toNat)

/-- They are so in base64. -/
def header64 : String := "eyJhbGciOiJSUzI1NiJ9"

def claims64 : String := "eyJpc3MiOiJpc3N1ZXIiLCJleHAiOjIwMDAwMDAwMDB9"

/-- The token, with a signature of three bytes. -/
def issued : String := "eyJhbGciOiJSUzI1NiJ9.eyJpc3MiOiJpc3N1ZXIiLCJleHAiOjIwMDAwMDAwMDB9.c2ln"

/-- A verifier that knows one key and can read one token. -/
def oneKey (compileClaims : String → Option (Claims → Bool)) : Verifier where
  decode s :=
    if s = header64 then some headerText
    else if s = claims64 then some claimsText
    else if s = "c2ln" then some [115, 105, 103]
    else none
  unmarshalHeader text := if text = headerText then some ⟨"RS256", ""⟩ else none
  unmarshalClaims text :=
    if text = claimsText then
      some fun name =>
        if name = "iss" then some (.string "issuer")
        else if name = "exp" then some (.number 2000000000)
        else none
    else none
  primitives := ⟨fun _ _ _ _ sig => sig = [115, 105, 103], fun _ _ _ _ _ _ => false, fun _ _ _ => false⟩
  keys _ := [⟨"", .rsa 3233 17⟩]
  compileClaims
  now := 1800000000
  now_pos := Nat.succ_pos _

/-- The request with the token, behind a middleware with one assertion. -/
def letIn (compileClaims : String → Option (Claims → Bool)) (expr : String) : Option Inbound :=
  (jwtMiddleware ((validOutside .failed).withTokens (oneKey compileClaims)) "jwt" (bearer issued)
    (some { userClaim with assertClaims := [expr] })).2

theorem admissible_token : ∃ t, Admissible (oneKey fun _ => some fun _ => true)
    { userClaim with assertClaims := ["claims.admin"] } (extractBearerToken (bearer issued)) t := by
  have hsome : (letIn (fun _ => some fun _ => true) "claims.admin").isSome = true := by decide +kernel
  obtain ⟨s, hs⟩ := Option.isSome_iff_exists.mp hsome
  exact (admissible_iff _ (validOutside .failed) "jwt" _ (bearer issued) (by decide) hs).mpr
    (by simp [oneKey])

/-- An assertion that does not compile is not made: the token is let in. -/
theorem unasserted_token : (letIn (fun _ => none) "claims.admin =").isSome = true ∧
    ¬∃ t, Admissible (oneKey fun _ => none) { userClaim with assertClaims := ["claims.admin ="] }
      (extractBearerToken (bearer issued)) t := by
  refine ⟨by decide +kernel, ?_⟩
  rintro ⟨t, h⟩
  obtain ⟨prg, hprg, -⟩ := h.asserted _ List.mem_cons_self
  cases hprg

end Vrata.Proxy

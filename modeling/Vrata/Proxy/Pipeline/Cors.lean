import Vrata.Proxy.Pipeline

/-!
# Cross-origin requests

Reference: `CORSMiddleware` of `server/internal/proxy/middlewares/cors.go`.

An origin is granted access by naming it in the response. It is documented that an origin has to be one of
the entries, or to match an expression among them, that the wildcard does not go together with credentials,
and that a preflight is a request with the method `OPTIONS`, an origin and `Access-Control-Request-Method`.

The code looks for an expression anywhere in the origin, names every origin if there is a wildcard, with
credentials as without, and answers every `OPTIONS` request of an origin that it allows. `granted_iff` says
for which requests this makes no difference.
-/

namespace Vrata.Proxy

open Server

/-- The whole configuration. -/
structure CORSSettings extends CORSConfig where
  allowMethods : List String := []
  allowHeaders : List String := []
  exposeHeaders : List String := []
  maxAge : ℤ := 0
  allowCredentials : Bool := false
deriving DecidableEq, Repr

/-- The expressions also tell whether they match the whole of a text. -/
structure WholeEngine extends Engine where
  matchesWhole : (pattern text : String) → Bool
  matches_of_whole : ∀ {pattern text}, matchesWhole pattern text = true →
    (regex pattern).any (fun re => re text) = true

namespace CORSSettings

variable (eng : Engine) (cfg : CORSSettings) (r : Inbound)

def allows (origin : String) : Bool := cfg.allowOrigins.any (originAllowed eng origin)

/-- Set a header unless its value is empty. -/
def setNonEmpty (key value : String) (h : Header) : Header := if value = "" then h else h.set key value

/-- The headers of every response to an origin that is allowed. -/
def grantHeader (origin : String) : Header :=
  let h : Header := Header.set (fun _ => []) "Access-Control-Allow-Origin" origin
  let h := if cfg.allowCredentials then h.set "Access-Control-Allow-Credentials" "true" else h
  setNonEmpty "Access-Control-Expose-Headers" (String.intercalate ", " cfg.exposeHeaders) h

/-- The further headers of the answer to a preflight. -/
def preflightHeader (h : Header) : Header :=
  let h := setNonEmpty "Access-Control-Allow-Methods" (String.intercalate ", " cfg.allowMethods) h
  let h := setNonEmpty "Access-Control-Allow-Headers" (String.intercalate ", " cfg.allowHeaders) h
  if 0 < cfg.maxAge then h.set "Access-Control-Max-Age" (toString cfg.maxAge) else h

/-- `CORSMiddleware`: the headers that are set, and the status if the request is not handed on. -/
def serve : Header × Option ℕ :=
  let origin := r.get "Origin"
  if origin = "" then (fun _ => [], none)
  else if cfg.allows eng origin then
    if r.method = "OPTIONS" then (cfg.preflightHeader (cfg.grantHeader origin), some 204)
    else (cfg.grantHeader origin, none)
  else (fun _ => [], none)

end CORSSettings

/-! ## What is documented -/

namespace CORSSettings

variable (eng : WholeEngine) (cfg : CORSSettings) (r : Inbound)

/-- An entry that names the origin, the wildcard without credentials, or an expression for all of it. -/
def covers (origin : String) : Bool :=
  cfg.allowOrigins.any fun o =>
    if o.regex then eng.matchesWhole o.value origin
    else o.value = origin || (o.value = "*" && !cfg.allowCredentials)

/-- A preflight from an origin that is covered. -/
def isPreflight : Bool :=
  r.method = "OPTIONS" && r.get "Origin" ≠ "" && cfg.covers eng (r.get "Origin") &&
    r.header (canonicalKey "Access-Control-Request-Method") ≠ []

/-- Only origins that are covered are granted access, and exactly the preflights are answered. -/
def Documented : Prop :=
  (((cfg.serve eng.toEngine r).1 (canonicalKey "Access-Control-Allow-Origin") ≠ [] ∨
      (cfg.serve eng.toEngine r).1 (canonicalKey "Access-Control-Allow-Credentials") ≠ []) →
    cfg.covers eng (r.get "Origin") = true) ∧
  ((cfg.serve eng.toEngine r).2 = some 204 ↔ cfg.isPreflight eng r = true) ∧
  ((cfg.serve eng.toEngine r).2 = some 204 ∨ (cfg.serve eng.toEngine r).2 = none)

/-- The origin is not let in by a wildcard with credentials or by an expression for a part of it. -/
def NotLax (origin : String) : Prop :=
  cfg.covers eng origin = true ∨ ∀ o ∈ cfg.allowOrigins,
    if o.regex then (eng.regex o.value).any (fun re => re origin) = false else o.value ≠ "*"

/-- An `OPTIONS` request names the method it asks for. -/
def NamesMethod : Prop :=
  r.method = "OPTIONS" → r.header (canonicalKey "Access-Control-Request-Method") ≠ []

variable {eng cfg r} {origin : String}

theorem allows_of_covers (h : cfg.covers eng origin = true) : cfg.allows eng.toEngine origin = true := by
  obtain ⟨o, ho, hcovers⟩ := List.any_eq_true.mp h
  refine List.any_eq_true.mpr ⟨o, ho, ?_⟩
  unfold originAllowed
  split at hcovers
  · rename_i hregex
    rw [if_pos hregex]
    exact eng.matches_of_whole hcovers
  · rename_i hregex
    rw [if_neg hregex]
    simp only [Bool.or_eq_true, Bool.and_eq_true, decide_eq_true_eq] at hcovers ⊢
    exact hcovers.elim .inr fun h => .inl h.1

/-- Who is allowed without being covered has come through a gap. -/
theorem notLax_iff : cfg.NotLax eng origin ↔
    (cfg.allows eng.toEngine origin = true → cfg.covers eng origin = true) := by
  unfold NotLax
  by_cases hcovers : cfg.covers eng origin = true
  · simp [hcovers]
  · rw [or_iff_right hcovers]
    constructor
    · intro hnone hallows
      obtain ⟨o, ho, hallowed⟩ := List.any_eq_true.mp hallows
      have hgap := hnone o ho
      unfold originAllowed at hallowed
      split at hgap
      · rename_i hregex
        rw [if_pos hregex, hgap] at hallowed
        cases hallowed
      · rename_i hregex
        rw [if_neg hregex] at hallowed
        simp only [Bool.or_eq_true, decide_eq_true_eq] at hallowed
        -- an entry that names the origin covers it
        exact List.any_eq_true.mpr ⟨o, ho, by simp [hregex, hallowed.resolve_left hgap]⟩
    · intro himp o ho
      have hnot : ¬originAllowed eng.toEngine origin o = true := fun hallowed =>
        hcovers (himp (List.any_eq_true.mpr ⟨o, ho, hallowed⟩))
      unfold originAllowed at hnot
      split
      · rename_i hregex
        rw [if_pos hregex] at hnot
        exact Bool.eq_false_iff.mpr hnot
      · rename_i hregex
        rw [if_neg hregex] at hnot
        simp only [Bool.or_eq_true, decide_eq_true_eq, not_or] at hnot
        exact hnot.1

theorem setNonEmpty_of_ne {key value k : String} {h : Header} (hk : k ≠ canonicalKey key) :
    setNonEmpty key value h k = h k := by
  unfold setNonEmpty
  split
  · rfl
  · exact Function.update_of_ne hk _ _

theorem grantHeader_origin (cfg : CORSSettings) (origin : String) :
    cfg.grantHeader origin (canonicalKey "Access-Control-Allow-Origin") = [origin] := by
  have hcredentials : canonicalKey "Access-Control-Allow-Origin" ≠
      canonicalKey "Access-Control-Allow-Credentials" := by decide +kernel
  simp only [grantHeader]
  rw [setNonEmpty_of_ne (by decide +kernel)]
  split
  · exact (Function.update_of_ne hcredentials _ _).trans (Function.update_self _ _ _)
  · exact Function.update_self _ _ _

theorem preflightHeader_origin (cfg : CORSSettings) (h : Header) :
    cfg.preflightHeader h (canonicalKey "Access-Control-Allow-Origin") =
      h (canonicalKey "Access-Control-Allow-Origin") := by
  have hage : canonicalKey "Access-Control-Allow-Origin" ≠ canonicalKey "Access-Control-Max-Age" := by
    decide +kernel
  have hlists : setNonEmpty "Access-Control-Allow-Headers" (String.intercalate ", " cfg.allowHeaders)
      (setNonEmpty "Access-Control-Allow-Methods" (String.intercalate ", " cfg.allowMethods) h)
      (canonicalKey "Access-Control-Allow-Origin") = h (canonicalKey "Access-Control-Allow-Origin") := by
    rw [setNonEmpty_of_ne (by decide +kernel), setNonEmpty_of_ne (by decide +kernel)]
  simp only [preflightHeader]
  split
  · exact (Function.update_of_ne hage _ _).trans hlists
  · exact hlists

/-- An origin that is allowed is always named. -/
theorem serve_names (horigin : r.get "Origin" ≠ "")
    (hallows : cfg.allows eng.toEngine (r.get "Origin") = true) :
    (cfg.serve eng.toEngine r).1 (canonicalKey "Access-Control-Allow-Origin") ≠ [] := by
  simp only [serve, if_neg horigin, if_pos hallows]
  split
  · change cfg.preflightHeader _ _ ≠ []
    rw [preflightHeader_origin, grantHeader_origin]
    exact List.cons_ne_nil _ _
  · change cfg.grantHeader _ _ ≠ []
    rw [grantHeader_origin]
    exact List.cons_ne_nil _ _

/-- The documented behaviour is that of the code exactly if the request has no origin, or comes through no gap
and, if its origin is covered, is not an `OPTIONS` request without the header of a preflight. -/
theorem granted_iff (eng : WholeEngine) (cfg : CORSSettings) (r : Inbound) :
    cfg.Documented eng r ↔ r.get "Origin" = "" ∨
      cfg.NotLax eng (r.get "Origin") ∧ (cfg.covers eng (r.get "Origin") = true → NamesMethod r) := by
  by_cases horigin : r.get "Origin" = ""
  · refine iff_of_true ?_ (.inl horigin)
    simp [Documented, serve, isPreflight, horigin]
  rw [or_iff_right horigin, notLax_iff]
  by_cases hallows : cfg.allows eng.toEngine (r.get "Origin") = true
  · have hnames := serve_names horigin hallows
    simp only [Documented, hnames, hallows, true_imp_iff, ne_eq, not_false_eq_true, true_or]
    by_cases hcovers : cfg.covers eng (r.get "Origin") = true
    · by_cases hmethod : r.method = "OPTIONS"
      · simp [serve, isPreflight, NamesMethod, horigin, hallows, hcovers, hmethod]
      · simp [serve, isPreflight, NamesMethod, horigin, hallows, hcovers, hmethod]
    · simp [hcovers]
  · have hcovers : ¬cfg.covers eng (r.get "Origin") = true := fun h => hallows (allows_of_covers h)
    refine iff_of_true ?_ ⟨fun h => absurd h hallows, fun h => absurd h hcovers⟩
    simp [Documented, serve, isPreflight, horigin, hallows, hcovers]

end CORSSettings

theorem matches_of_eq {pattern text : String} (h : decide (pattern = text) = true) :
    Option.any (fun re : String → Bool => re text)
      (some fun text : String => pattern.toList.isPrefixOf text.toList) = true := by
  obtain rfl := of_decide_eq_true h
  exact List.isPrefixOf_iff_prefix.mpr (List.prefix_refl _)

/-- Expressions without special characters, which are looked for at the beginning of a text. -/
def literalEngine : WholeEngine where
  regex pattern := some fun text => pattern.toList.isPrefixOf text.toList
  cel _ := none
  matchesWhole pattern text := decide (pattern = text)
  matches_of_whole := matches_of_eq

def originRequest (method origin : String) : Inbound :=
  { plainRequest "/" hasPrefix_root with
    method := method
    header := fun key => if key = canonicalKey "Origin" then [origin] else [] }

/-- The origins of an application, as an expression. -/
def appOrigins : CORSSettings where
  allowOrigins := [⟨"https://app.example", true⟩]

def anyOriginWithCredentials : CORSSettings where
  allowOrigins := [⟨"*", false⟩]
  allowCredentials := true

/-- An origin that begins like one that is allowed is granted access, every origin is granted access with
credentials, and an `OPTIONS` request that is no preflight is answered. -/
theorem granted_lax :
    (appOrigins.serve literalEngine.toEngine (originRequest "GET" "https://app.example.evil")).1
        (canonicalKey "Access-Control-Allow-Origin") = ["https://app.example.evil"] ∧
    appOrigins.covers literalEngine "https://app.example.evil" = false ∧
    (anyOriginWithCredentials.serve literalEngine.toEngine (originRequest "GET" "https://evil.example")).1
        (canonicalKey "Access-Control-Allow-Credentials") = ["true"] ∧
    anyOriginWithCredentials.covers literalEngine "https://evil.example" = false ∧
    (appOrigins.serve literalEngine.toEngine (originRequest "OPTIONS" "https://app.example")).2 = some 204 ∧
    appOrigins.isPreflight literalEngine (originRequest "OPTIONS" "https://app.example") = false := by
  decide +kernel

end Vrata.Proxy

import Mathlib.Data.Rat.Defs
import Vrata.Server.Model

/-!
# Middlewares and where they are attached

Reference: `server/internal/model/middleware.go`, and the fields `middlewareIds` and `middlewareOverrides`
of `route.go` and `group.go`.

A middleware has a type and a configuration for it. Routes and groups refer to middlewares by their IDs,
and may override them. Timeouts, and what is written to a client that is turned away, are left out.
-/

namespace Vrata.Server

structure CORSOrigin where
  value : String
  regex : Bool := false
deriving DecidableEq, Repr

structure CORSConfig where
  allowOrigins : List CORSOrigin := []
deriving DecidableEq, Repr

structure JWTClaimHeader where
  expr : String
  header : String
deriving DecidableEq, Repr

structure JWTConfig where
  issuer : String := ""
  audiences : List String := []
  jwksPath : String := ""
  jwksDestinationID : String := ""
  jwksInline : String := ""
  forwardJWT : Bool := false
  claimToHeaders : List JWTClaimHeader := []
  assertClaims : List String := []
deriving DecidableEq, Repr

structure ExtAuthzOnCheck where
  forwardHeaders : List String := []
  injectHeaders : List HeaderValue := []
deriving DecidableEq, Repr

structure ExtAuthzConfig where
  destinationID : String := ""
  mode : String := ""
  path : String := ""
  failureModeAllow : Bool := false
  includeBody : Bool := false
  onCheck : Option ExtAuthzOnCheck := none
  /-- `CopyToUpstream` of `OnAllow`. -/
  copyToUpstream : List String := []
deriving DecidableEq, Repr

/-- `MutationRules` and `ForwardRules`. -/
structure HeaderRules where
  allowHeaders : List String := []
  denyHeaders : List String := []
deriving DecidableEq, Repr

structure ObserveModeConfig where
  enabled : Bool := false
  workers : ℤ := 0
deriving DecidableEq, Repr

structure ExtProcPhases where
  requestHeaders : String := ""
  responseHeaders : String := ""
  requestBody : String := ""
  responseBody : String := ""
  maxBodyBytes : ℤ := 0
deriving DecidableEq, Repr

structure ExtProcConfig where
  destinationID : String := ""
  mode : String := ""
  phases : Option ExtProcPhases := none
  allowOnError : Bool := false
  statusOnError : ℕ := 0
  allowedMutations : Option HeaderRules := none
  forwardRules : Option HeaderRules := none
  disableReject : Bool := false
  observeMode : Option ObserveModeConfig := none
deriving DecidableEq, Repr

structure RateLimitConfig where
  requestsPerSecond : ℚ := 0
  burst : ℤ := 0
  trustedProxies : List String := []
deriving DecidableEq, Repr

/-- The fields of an entry of the log, each with its template. -/
abbrev AccessLogFields := List (String × String)

structure AccessLogConfig where
  path : String := ""
  onRequest : Option AccessLogFields := none
  onResponse : Option AccessLogFields := none
deriving DecidableEq, Repr

structure InlineAuthzRule where
  cel : String
  action : String
deriving DecidableEq, Repr

structure InlineAuthzConfig where
  rules : List InlineAuthzRule := []
  defaultAction : String := ""
deriving DecidableEq, Repr

/-- Every text that is not one of the types is unknown. -/
inductive MiddlewareType where
  | cors | jwt | extAuthz | extProc | rateLimit | headers | accessLog | inlineAuthz
  | unknown
deriving DecidableEq, Repr

structure Middleware where
  id : String
  type : MiddlewareType
  cors : Option CORSConfig := none
  jwt : Option JWTConfig := none
  extAuthz : Option ExtAuthzConfig := none
  extProc : Option ExtProcConfig := none
  rateLimit : Option RateLimitConfig := none
  headers : Option HeadersConfig := none
  accessLog : Option AccessLogConfig := none
  inlineAuthz : Option InlineAuthzConfig := none
deriving DecidableEq, Repr

/-- What the proxy reads of an override. -/
structure MiddlewareOverride where
  disabled : Bool := false
  skipWhen : List String := []
  onlyWhen : List String := []
deriving DecidableEq, Repr

/-- A route with the overrides of its middlewares. -/
structure AttachedRoute extends Route where
  middlewareOverrides : String → Option MiddlewareOverride := fun _ => none

/-- A group with its middlewares and their overrides. -/
structure AttachedGroup extends RouteGroup where
  middlewareIDs : List String := []
  middlewareOverrides : String → Option MiddlewareOverride := fun _ => none

end Vrata.Server

import Vrata.Proxy.Chain

/-!
# A request on its way through the middlewares

Reference: the handlers under `server/internal/proxy/middlewares/`, `wrapWithConditions` and `injectXFCC` of
`server/internal/proxy/handler.go`.

A middleware hands a request on, perhaps with other headers, or answers it. What it does on the way is
written down as events: the checks that were made, and what others were shown of the request. Whoever is
asked from outside (the authorization service, the external processor, the keys that tokens are verified
with, the limiter) is part of `Outside`, and every statement holds for all of them.

Bodies are left out, and so is what is done to the response.
-/

namespace Vrata.Proxy

open Server

/-! ## Templates -/

/-- `strings.ReplaceAll`. So many characters of what was replaced are still to be skipped. -/
def replaceFrom (old new : List Char) : (skip : ℕ) → List Char → List Char
  | _, [] => []
  | skip + 1, _ :: text => replaceFrom old new skip text
  | 0, c :: text =>
    if old.isPrefixOf (c :: text) then new ++ replaceFrom old new (old.length - 1) text
    else c :: replaceFrom old new 0 text

def replaceAll (text old new : String) : String :=
  String.ofList (replaceFrom old.toList new.toList 0 text.toList)

/-- The loop that fills in the values of headers. What was filled in is not looked at again. -/
def fillHeaders (get : String → String) : (fuel : ℕ) → List Char → List Char
  | 0, text => text
  | _, [] => []
  | fuel + 1, c :: text =>
    let marker := "$\x7brequest.header.".toList
    if marker.isPrefixOf (c :: text) then
      let rest := (c :: text).drop marker.length
      if '\x7d' ∈ rest then
        let name := rest.takeWhile (· ≠ '\x7d')
        (get (String.ofList name)).toList ++ fillHeaders get fuel (rest.drop (name.length + 1))
      else c :: text
    else c :: fillHeaders get fuel text

/-- `Interpolate`. -/
def interpolate (template : String) (secure : Bool) (r : Inbound) : String :=
  let text := replaceAll template "$\x7brequest.host\x7d" (Text.before ':' r.host)
  let text := replaceAll text "$\x7brequest.path\x7d" r.path
  let text := replaceAll text "$\x7brequest.method\x7d" r.method
  let text := replaceAll text "$\x7brequest.authority\x7d" r.host
  let text := replaceAll text "$\x7brequest.scheme\x7d" (if secure then "https" else "http")
  String.ofList (fillHeaders r.get text.toList.length text.toList)

/-! ## The world outside -/

/-- What an authorization service is sent. -/
structure CheckRequest where
  method : String
  path : String
  query : String → String
  header : Header

inductive CheckReply where
  /-- The service cannot be asked, or does not answer. -/
  | failed
  | denied
  | allowed (headers : List (String × String))

/-- What an external processor is sent. -/
inductive ProcMessage where
  | requestHeaders (method host path : String) (query : String → String) (header : Header)
  | requestBody

inductive ProcReply where
  | failed
  | reject
  | mutate (remove : List String) (set : List (String × String))

structure Outside where
  /-- The token can be verified with the keys that are there, and its claims are valid. -/
  valid : JWTConfig → String → Bool
  /-- Expressions over the claims of a token, if they compile. -/
  claimsBool : String → Option (String → Bool)
  claimsString : String → Option (String → String)
  /-- The limiter of a middleware lets the client pass. -/
  lets : (mwID client : String) → Bool
  check : (destinationID : String) → CheckRequest → CheckReply
  process : (destinationID : String) → ProcMessage → ProcReply
  /-- A gRPC client can be made. -/
  dials : String → Bool
  /-- The connection is encrypted. -/
  secure : Bool
  /-- The URIs in the certificate of the peer. -/
  peerURIs : List String

inductive Event where
  /-- The request comes to a middleware of the list. -/
  | reached (mwID : String) (r : Inbound)
  /-- What the conditions of an override say. -/
  | conditions (mwID : String) (results : List Bool)
  /-- What the rules of inline authorization say. -/
  | rules (mwID : String) (results : List Bool)
  | checking (destinationID : String) (check : CheckRequest)
  | processing (destinationID : String) (msg : ProcMessage)
  /-- A token was verified, and so were the assertions about its claims. -/
  | verified (mwID : String) (assertions : List String)
  /-- The rules of inline authorization have allowed the request. -/
  | decided (mwID : String) (rules : List InlineAuthzRule)
  /-- The authorization service has allowed the request. -/
  | authorized (mwID : String)
  /-- The authorization service could not be asked, which is to be ignored. -/
  | excused (mwID : String)
  | upstream (r : Inbound)

/-- The events, and the request if it is handed on. -/
abbrev Outcome := List Event × Option Inbound

def handOn (r : Inbound) : Outcome := ([], some r)

def answer : Outcome := ([], none)

/-! ## The middlewares -/

section Middlewares

variable (eng : Engine) (services : List String) (env : Outside) (mwID : String) (r : Inbound)

def originAllowed (origin : String) (o : CORSOrigin) : Bool :=
  if o.regex then (eng.regex o.value).any fun re => re origin else o.value = "*" || o.value = origin

/-- A preflight request from an origin that is allowed is answered. -/
def corsMiddleware : Option CORSConfig → Outcome
  | none => handOn r
  | some cfg =>
    let origin := r.get "Origin"
    if origin ≠ "" ∧ cfg.allowOrigins.any (originAllowed eng origin) ∧ r.method = "OPTIONS" then answer
    else handOn r

def headersMiddleware (cfg : Option HeadersConfig) : Outcome :=
  handOn { r with header := HeadersMiddleware.request cfg r.header }

def rateLimitMiddleware : Option RateLimitConfig → Outcome
  | none => handOn r
  | some cfg =>
    if env.lets mwID (r.clientIP (parseTrustedProxies cfg.trustedProxies)) then handOn r else answer

def extractBearerToken : String :=
  let auth := r.get "Authorization"
  if Text.hasPrefix auth "Bearer " then String.ofList (auth.toList.drop 7) else ""

/-- The headers that are set from the claims of a token. Expressions that do not compile are left out. -/
def claimHeaders (cfg : JWTConfig) (token : String) (h : Header) : Header :=
  cfg.claimToHeaders.foldl (fun h c =>
    match env.claimsString c.expr with
    | none => h
    | some prg => if prg token ≠ "" then h.set c.header (prg token) else h) h

/-- The headers of a request with a token that was verified. -/
def jwtHeader (cfg : JWTConfig) (token : String) (h : Header) : Header :=
  if cfg.forwardJWT then claimHeaders env cfg token h
  else (claimHeaders env cfg token h).del "Authorization"

/-- Without a configuration or an issuer nothing is checked. Assertions that do not compile are left
out. -/
def jwtMiddleware : Option JWTConfig → Outcome
  | none => handOn r
  | some cfg =>
    if cfg.issuer = "" then handOn r
    else
      let token := extractBearerToken r
      if token = "" then answer
      else if env.valid cfg token then
        let assertions := cfg.assertClaims.filter fun expr => (env.claimsBool expr).isSome
        if assertions.all fun expr => (env.claimsBool expr).any (· token) then
          ([.verified mwID assertions], some { r with header := jwtHeader env cfg token r.header })
        else answer
      else answer

/-- The names of the headers that are forwarded to the authorization service. -/
def forwardedHeaders (cfg : ExtAuthzConfig) : List String :=
  ["host", "content-length"] ++
    ((cfg.onCheck.map ExtAuthzOnCheck.forwardHeaders).getD []).map Text.toLower

def forwardHeader (cfg : ExtAuthzConfig) (h : Header) : Header :=
  fun key => if Text.toLower key ∈ forwardedHeaders cfg then h key else []

def headerMatchesAny (name : String) (patterns : List String) : Bool :=
  let lower := Text.toLower name
  patterns.any fun p =>
    let pl := Text.toLower p
    pl = lower || (Text.hasSuffix pl "*" && Text.hasPrefix lower (String.ofList pl.toList.dropLast))

/-- What is sent in HTTP mode. -/
def checkHTTP (cfg : ExtAuthzConfig) : CheckRequest where
  method := r.method
  path := cfg.path
  query _ := ""
  header := ((cfg.onCheck.map ExtAuthzOnCheck.injectHeaders).getD []).foldl
    (fun h v => h.set v.key (interpolate v.value env.secure r)) (forwardHeader cfg r.header)

/-- What is sent in gRPC mode. -/
def checkGRPC (cfg : ExtAuthzConfig) : CheckRequest where
  method := r.method
  path := r.path
  query := r.query
  header := forwardHeader cfg r.header

/-- What becomes of the request after a check, where `apply` takes over the headers of the reply. -/
def afterCheck (cfg : ExtAuthzConfig) (check : CheckRequest)
    (apply : Header → List (String × String) → Header) : Outcome :=
  match env.check cfg.destinationID check with
  | .failed =>
    if cfg.failureModeAllow then ([.checking cfg.destinationID check, .excused mwID], some r)
    else ([.checking cfg.destinationID check], none)
  | .denied => ([.checking cfg.destinationID check], none)
  | .allowed headers =>
    ([.checking cfg.destinationID check, .authorized mwID],
      some { r with header := apply r.header headers })

/-- Without a configuration or a destination, and without a client for it, nothing is checked. -/
def extAuthzMiddleware : Option ExtAuthzConfig → Outcome
  | none => handOn r
  | some cfg =>
    if cfg.destinationID = "" ∨ cfg.destinationID ∉ services then handOn r
    else if cfg.mode = "grpc" then
      if env.dials cfg.destinationID then
        afterCheck env mwID r cfg (checkGRPC r cfg) fun h headers =>
          headers.foldl (fun h p => h.set p.1 p.2) h
      else handOn r
    else
      afterCheck env mwID r cfg (checkHTTP env r cfg) fun h headers =>
        headers.foldl (fun h p => if headerMatchesAny p.1 cfg.copyToUpstream then h.add p.1 p.2 else h) h

/-- `shouldForward` and `canMutate`, for a name. -/
def allowedBy (rules : Option HeaderRules) (name : String) : Bool :=
  match rules with
  | none => true
  | some rules =>
    let named := fun h => Text.fold h = Text.fold name
    !rules.denyHeaders.any named && (rules.allowHeaders.isEmpty || rules.allowHeaders.any named)

/-- `applyHeadersAction`. -/
def applyHeadersAction (rules : Option HeaderRules) (remove : List String) (set : List (String × String))
    (h : Header) : Header :=
  let h := remove.foldl (fun h name => if allowedBy rules name then h.del name else h) h
  set.foldl (fun h p => if allowedBy rules p.1 then h.set p.1 p.2 else h) h

/-- The message about the headers of a request. -/
def procHeaders (cfg : Server.ExtProcConfig) : ProcMessage :=
  .requestHeaders r.method r.host r.path r.query fun key =>
    if allowedBy cfg.forwardRules key then r.header key else []

/-- A message is sent to the processor. One that only observes is not waited for. -/
def sendProc (cfg : Server.ExtProcConfig) (msg : ProcMessage) : List Event × ProcReply :=
  if cfg.observeMode.any ObserveModeConfig.enabled then
    ([.processing cfg.destinationID msg], .mutate [] [])
  else if cfg.mode ≠ "http" ∧ env.dials cfg.destinationID = false then ([], .failed)
  else ([.processing cfg.destinationID msg], env.process cfg.destinationID msg)

/-- The reply to a message: the request goes on, goes on without further messages, or is answered. -/
inductive ProcStep where
  | next (r : Inbound)
  | last (r : Inbound)
  | stop

def procPhase (cfg : Server.ExtProcConfig) : ProcReply → ProcStep
  | .failed => if cfg.allowOnError then .last r else .stop
  | .reject => if cfg.disableReject then .next r else .stop
  | .mutate remove set =>
    .next { r with header := applyHeadersAction cfg.allowedMutations remove set r.header }

/-- The phase of the request body. -/
def procBody (cfg : Server.ExtProcConfig) : Outcome :=
  let mode := (cfg.phases.map ExtProcPhases.requestBody).getD ""
  if mode = "" ∨ mode = "none" then handOn r
  else
    let sent := sendProc env cfg .requestBody
    match procPhase r cfg sent.2 with
    | .next r => (sent.1, some r)
    | .last r => (sent.1, some r)
    | .stop => (sent.1, none)

def extProcMiddleware : Option Server.ExtProcConfig → Outcome
  | none => handOn r
  | some cfg =>
    if cfg.destinationID = "" ∨ cfg.destinationID ∉ services then handOn r
    else if (cfg.phases.map ExtProcPhases.requestHeaders).getD "" = "skip" then procBody env r cfg
    else
      let sent := sendProc env cfg (procHeaders r cfg)
      match procPhase r cfg sent.2 with
      | .next r => (sent.1 ++ (procBody env r cfg).1, (procBody env r cfg).2)
      | .last r => (sent.1, some r)
      | .stop => (sent.1, none)

/-- The rules that compile. -/
def compiledRules (cfg : InlineAuthzConfig) : List (InlineAuthzRule × (Request → Bool)) :=
  cfg.rules.filterMap fun rule => (eng.cel rule.cel).map fun prg => (rule, prg)

/-- The first rule that matches decides. -/
def inlineAction (cfg : InlineAuthzConfig) : String :=
  match (compiledRules eng cfg).find? fun rule => rule.2 r.request with
  | some rule => rule.1.action
  | none => if cfg.defaultAction = "" then "deny" else cfg.defaultAction

/-- Without a configuration nothing is checked. -/
def inlineAuthzMiddleware : Option InlineAuthzConfig → Outcome
  | none => handOn r
  | some cfg =>
    let rules := compiledRules eng cfg
    let results := rules.map fun rule => rule.2 r.request
    if inlineAction eng r cfg = "allow" then
      ([.rules mwID results, .decided mwID (rules.map Prod.fst)], some r)
    else ([.rules mwID results], none)

/-- The handler of a middleware. -/
def handle (mw : Middleware) : Outcome :=
  match mw.type with
  | .cors => corsMiddleware eng r mw.cors
  | .headers => headersMiddleware r mw.headers
  | .extAuthz => extAuthzMiddleware services env mw.id r mw.extAuthz
  | .rateLimit => rateLimitMiddleware env mw.id r mw.rateLimit
  | .jwt => jwtMiddleware env mw.id r mw.jwt
  | .accessLog => handOn r
  | .extProc => extProcMiddleware services env r mw.extProc
  | .inlineAuthz => inlineAuthzMiddleware eng mw.id r mw.inlineAuthz
  | .unknown => handOn r

end Middlewares

/-! ## A route -/

/-- A route with what its handler is built from. -/
structure Deployment where
  eng : Engine
  services : List String
  middlewares : List Middleware
  route : AttachedRoute
  group : Option AttachedGroup

namespace Deployment

variable (d : Deployment) (env : Outside)

def override (mwID : String) : Option MiddlewareOverride := resolveOverride mwID d.route d.group

/-- What the conditions of an override say about a request. -/
def conditionResults (mwID : String) (r : Request) : List Bool :=
  match d.override mwID with
  | none => []
  | some ov => (programs d.eng ov.skipWhen ++ programs d.eng ov.onlyWhen).map fun prg => prg r

/-- A middleware of the list, if it is there and not disabled. -/
def pass (mwID : String) (r : Inbound) : Outcome :=
  match link d.middlewares d.route d.group mwID with
  | none => handOn r
  | some l =>
    let conditions := Event.conditions mwID (d.conditionResults mwID r.request)
    if applies d.eng l.override r.request then
      (conditions :: (handle d.eng d.services env r l.middleware).1,
        (handle d.eng d.services env r l.middleware).2)
    else ([conditions], some r)

/-- The middlewares of the list one after the other. -/
def passAll : List String → Inbound → Outcome
  | [], r => handOn r
  | mwID :: ids, r =>
    let done := d.pass env mwID r
    match done.2 with
    | none => (.reached mwID r :: done.1, none)
    | some r' => (.reached mwID r :: done.1 ++ (passAll ids r').1, (passAll ids r').2)

/-- `injectXFCC`. -/
def injectXFCC (h : Header) : Header :=
  let h := h.del "X-Forwarded-Client-Cert"
  if env.peerURIs = [] then h else h.set "X-Forwarded-Client-Cert" (String.intercalate ";" env.peerURIs)

/-- The handler of the route is `forwardHandler`. -/
def forwards : Bool :=
  d.route.directResponse.isNone && d.route.redirect.isNone && d.route.forward.isSome

/-- The events of a request. It is forwarded if it comes through all middlewares and the route forwards. -/
def serve (r : Inbound) : List Event :=
  let done := d.passAll env (collectMiddlewareIDs d.route d.group) r
  match done.2 with
  | none => done.1
  | some r' =>
    if d.forwards then done.1 ++ [.upstream { r' with header := injectXFCC env r'.header }] else done.1

end Deployment

end Vrata.Proxy

import Mathlib.Data.List.Infix
import Vrata.Proxy.Retry

/-!
# Forwarding a request

Reference: `server/internal/proxy/handler.go` (`forwardHandler` from the circuit breaker on, and
`recordEndpointResult`), `errors.go`, `retry.go`, and `httputil.ReverseProxy` of the Go library.

An exchange is what the upstream does: on every attempt some informational responses, and then a final
response or a transport error. The reverse proxy passes informational responses on as they come, with
`WriteHeader`; a final response is passed on with its body, and if the body cannot be copied to the end
the handler panics with `http.ErrAbortHandler`. For a status below 100 `WriteHeader` itself panics. A
transport error goes to the error handler, which only keeps it. After the response 101 the connection
is taken over, without `WriteHeader`.

`forwardHandler` hooks into `WriteHeader` to see whether something has been written, and decides with
that what the client is told and what is recorded. A handler that returns without writing a final
header makes the server answer 200 with an empty body.
-/

namespace Vrata.Proxy

/-! ## Errors -/

inductive ProxyErrorType where
  | connectionRefused | connectionReset | dnsFailure | timeout | tlsHandshakeFailure | circuitOpen
  | noDestination | noEndpoint
deriving DecidableEq, Repr

/-- A `net.OpError`, with what `errors.Is` and `errors.As` find in it. -/
structure OpError where
  op : String
  refused : Bool
  dns : Bool
  reset : Bool
deriving DecidableEq, Repr

/-- A transport error, with what `errors.Is` and `errors.As` find in it. -/
structure TransportError where
  deadlineExceeded : Bool := false
  canceled : Bool := false
  opError : Option OpError := none
  certificateVerification : Bool := false
  recordHeader : Bool := false
  message : String := ""
deriving DecidableEq, Repr

/-- `strings.Contains`. -/
def containsText (s sub : String) : Bool := sub.toList <:+: s.toList

/-- The end of `classifyError`, which looks at the text of the error. -/
def classifyMessage (msg : String) : ProxyErrorType :=
  if containsText msg "tls:" || containsText msg "TLS" || containsText msg "certificate" then
    .tlsHandshakeFailure
  else if containsText msg "connection refused" then .connectionRefused
  else if containsText msg "connection reset" then .connectionReset
  else if containsText msg "no such host" then .dnsFailure
  else if containsText msg "i/o timeout" || containsText msg "deadline exceeded" then .timeout
  else .connectionRefused

def classifyOpError (e : OpError) : Option ProxyErrorType :=
  if e.op = "dial" then
    if e.refused then some .connectionRefused
    else if e.dns then some .dnsFailure
    else some .connectionRefused
  else if e.reset then some .connectionReset
  else none

def classifyError (err : TransportError) : ProxyErrorType :=
  if err.deadlineExceeded then .timeout
  else if err.canceled then .timeout
  else
    match err.opError.bind classifyOpError with
    | some type => type
    | none =>
      if err.certificateVerification then .tlsHandshakeFailure
      else if err.recordHeader then .tlsHandshakeFailure
      else classifyMessage err.message

def statusForErrorType : ProxyErrorType → ℕ
  | .circuitOpen => 503
  | .timeout => 504
  | _ => 502

theorem statusForErrorType_ge (type : ProxyErrorType) : 500 ≤ statusForErrorType type := by
  cases type <;> decide

structure ProxyError where
  type : ProxyErrorType
  status : ℕ
  destination : String := ""
  endpoint : String := ""
  message : String
deriving DecidableEq, Repr

inductive ProxyErrorDetail where
  | minimal | standard | full
deriving DecidableEq, Repr

/-- The JSON body of an error response; fields that are left out are `none`. -/
structure ErrorBody where
  error : ProxyErrorType
  status : ℕ
  message : Option String := none
  destination : Option String := none
  endpoint : Option String := none
  timestamp : Option String := none
deriving DecidableEq, Repr

/-- A field with `omitempty`. -/
def omitEmpty (s : String) : Option String := if s = "" then none else some s

/-- The body `writeProxyError` writes. -/
def errorBody (detail : ProxyErrorDetail) (timestamp : String) (pe : ProxyError) : ErrorBody :=
  match detail with
  | .minimal => { error := pe.type, status := pe.status }
  | .full =>
    { error := pe.type, status := pe.status, message := some pe.message,
      destination := omitEmpty pe.destination, endpoint := omitEmpty pe.endpoint,
      timestamp := some timestamp }
  | .standard => { error := pe.type, status := pe.status, message := some pe.message }

/-! ## The upstream -/

/-- Informational statuses; 101 is not one of them. -/
abbrev InterimStatus := { code : ℕ // 100 ≤ code ∧ code < 200 ∧ code ≠ 101 }

/-- Statuses of three digits that end an exchange. -/
abbrev FinalStatus := { code : ℕ // code < 1000 ∧ (code < 100 ∨ code = 101 ∨ 200 ≤ code) }

/-- How an attempt ends. A response is intact if its body can be copied to the client to the end. -/
inductive Answer where
  | response (status : FinalStatus) (intact : Bool)
  | error (err : TransportError)
deriving DecidableEq

def Answer.status : Answer → Option ℕ
  | .response status _ => some status
  | .error _ => none

structure Attempt where
  interim : List InterimStatus := []
  answer : Answer

/-- What happens to a request. -/
structure Exchange where
  attempts : ℕ → Attempt
  /-- The body of the request cannot be read; only the retry transport reads it beforehand. -/
  bodyError : Option TransportError := none
  /-- The connection cannot be taken over after the response 101. -/
  upgradeError : Option TransportError := none
  /-- The answers of `rand.Int63n`. -/
  int63n : ℤ → ℤ := fun _ => 0

/-- How `RoundTrip` ends. -/
inductive TripEnd where
  | answer (a : Answer)
  | panicked
deriving DecidableEq

/-- The loop of `RoundTrip` from an attempt on, with the number of attempts that may follow. The
informational responses that have been passed on come first. -/
def attemptFrom (retry : RouteRetry) (x : Exchange) :
    (left attempt : ℕ) → List InterimStatus × TripEnd
  | 0, attempt => ((x.attempts attempt).interim, .answer (x.attempts attempt).answer)
  | left + 1, attempt =>
    let a := x.attempts attempt
    if retry.again attempt a.answer.status then
      match retry.calcBackoff x.int63n attempt with
      | none => (a.interim, .panicked)
      | some _ =>
        let rest := attemptFrom retry x left (attempt + 1)
        (a.interim ++ rest.1, rest.2)
    else (a.interim, .answer a.answer)

/-- `RoundTrip`, of the retry transport if there is a policy. -/
def roundTrip (retry : Option RouteRetry) (x : Exchange) : List InterimStatus × TripEnd :=
  match retry with
  | none => ((x.attempts 0).interim, .answer (x.attempts 0).answer)
  | some retry =>
    match x.bodyError with
    | some err => ([], .answer (.error err))
    | none => attemptFrom retry x retry.attempts.toNat 0

/-! ## The reverse proxy -/

/-- What the handler and the client have seen when the reverse proxy returns. -/
structure Served where
  capturedStatus : ℕ := 0
  headerWritten : Bool := false
  transportErr : Option TransportError := none
  sent : Option ℕ := none
  hijacked : Bool := false
deriving DecidableEq, Repr

/-- The hook on `WriteHeader`, for an informational response. -/
def relay (s : Served) (code : InterimStatus) : Served :=
  { s with capturedStatus := code, headerWritten := true }

/-- `ServeHTTP` of the reverse proxy; there is no result if it panics. -/
def serveHTTP (retry : Option RouteRetry) (x : Exchange) : Option Served :=
  let trip := roundTrip retry x
  let served := trip.1.foldl relay {}
  match trip.2 with
  | .panicked => none
  | .answer (.error err) => some { served with transportErr := some err }
  | .answer (.response status intact) =>
    if status.val = 101 then
      match x.upgradeError with
      | none => some { served with hijacked := true }
      | some err => some { served with transportErr := some err }
    else if status.val < 100 then none
    else if intact then
      some { served with capturedStatus := status, headerWritten := true, sent := some status }
    else none

/-! ## The handler -/

structure ForwardConfig where
  routeRetry : Option RouteRetry := none
  groupRetry : Option RouteRetry := none
  routeTimeout : Option ℤ := none
  destinationTimeout : Option ℤ := none
  detail : ProxyErrorDetail := .standard
  destination : String := ""
  endpoint : String := ""
  /-- The pool has a circuit breaker. -/
  breaker : Bool := true
  /-- The endpoint has been given the hook of the outlier detector. -/
  onResponse : Bool := true
  /-- The time an error response carries. -/
  timestamp : String := ""

def ForwardConfig.retry (cfg : ForwardConfig) : Option RouteRetry :=
  effectiveRetry cfg.routeRetry cfg.groupRetry

/-- The timeout of the route, or else the one of the destination. -/
def ForwardConfig.requestTimeout (cfg : ForwardConfig) : ℤ :=
  let route := cfg.routeTimeout.getD 0
  if route = 0 then cfg.destinationTimeout.getD route else route

/-- What the client gets. -/
inductive Reply where
  | upstream (status : ℕ)
  | switched
  | proxyError (status : ℕ) (body : ErrorBody)
  /-- Status 200 and no body. -/
  | empty
  | aborted
deriving DecidableEq, Repr

/-- What has been written, when the handler adds nothing to it. -/
def Served.reply (s : Served) : Reply :=
  match s.sent with
  | some status => .upstream status
  | none => if s.hijacked then .switched else .empty

/-- The reply after `writeProxyError`; a connection that has been taken over is not written to. -/
def Served.replyError (s : Served) (cfg : ForwardConfig) (pe : ProxyError) : Reply :=
  if s.hijacked then .switched
  else .proxyError pe.status (errorBody cfg.detail cfg.timestamp pe)

/-- How the breaker and the outlier detector take a status. -/
inductive Verdict where
  | success | failure
deriving DecidableEq, Repr

def Verdict.ofStatus (status : ℕ) : Verdict := if 500 ≤ status then .failure else .success

/-- The reply, and what is recorded with the breaker and reported to the outlier detector. -/
structure Result where
  reply : Reply
  breaker : List Verdict := []
  outlier : List ℕ := []
deriving DecidableEq, Repr

def recordEndpointResult (cfg : ForwardConfig) (reply : Reply) (status : ℕ) : Result where
  reply := reply
  breaker := if cfg.breaker then [Verdict.ofStatus status] else []
  outlier := if cfg.onResponse then [status] else []

def timeoutError (cfg : ForwardConfig) : ProxyError where
  type := .timeout
  status := 504
  destination := cfg.destination
  endpoint := cfg.endpoint
  message := "request timeout"

def classifiedError (cfg : ForwardConfig) (err : TransportError) : ProxyError where
  type := classifyError err
  status := statusForErrorType (classifyError err)
  destination := cfg.destination
  endpoint := cfg.endpoint
  message := err.message

/-- `forwardHandler`, for a request that has been let through. -/
def forwardHandler (cfg : ForwardConfig) (x : Exchange) : Result :=
  match serveHTTP cfg.retry x with
  | none => { reply := .aborted }
  | some served =>
    if 0 < cfg.requestTimeout then
      let reply := if served.headerWritten then served.reply
        else served.replyError cfg (timeoutError cfg)
      recordEndpointResult cfg reply served.capturedStatus
    else
      match served.transportErr with
      | some err =>
        if served.headerWritten then recordEndpointResult cfg served.reply served.capturedStatus
        else
          let pe := classifiedError cfg err
          recordEndpointResult cfg (served.replyError cfg pe) pe.status
      | none => recordEndpointResult cfg served.reply served.capturedStatus

end Vrata.Proxy

import Mathlib.Data.List.Basic
import Vrata.Proxy.Pipeline
import Vrata.Proxy.Pipeline.Writer

/-!
# The external processor

Reference: `server/internal/proxy/middlewares/extproc.go`, `server/proto/extproc/v1/extproc.proto`.

A request is put to the processor in up to two phases, headers and body, and so is the response. The
middleware reads the request body before it hands the request on. For the response it hooks the
writer of the handler behind it: what is captured is held back until that handler returns, and the
rest passes through.

A processor may remember what it has been sent, so the same chunk need not get the same answer twice.
`handle` keeps a record of what was said, and its outcome tells an error page and a rejection from what
the handler sent.

`Vrata.Proxy.Pipeline` has the request phases as one of many middlewares, with messages and headers
only. Here are all four phases of one transaction, with the bodies.

`relay_eq` says what has been handed to the client in the end, whatever the handler does to its
writer.
-/

namespace Vrata.Proxy.ExtProc

open Server NetHttp

/-! ## Settings -/

/-- `BodyMode`. A text that is none of the four names reads the body as `buffered` does. -/
inductive BodyMode where
  | none
  | buffered
  | bufferedPartial
  | streamed
deriving DecidableEq, Repr

def BodyMode.ofText (mode : String) : BodyMode :=
  if mode = "" ∨ mode = "none" then .none
  else if mode = "bufferedPartial" then .bufferedPartial
  else if mode = "streamed" then .streamed
  else .buffered

abbrev Settings := ExtProcConfig

namespace Settings

variable (cfg : Settings)

def observeEnabled : Bool := cfg.observeMode.any ObserveModeConfig.enabled

/-! `resolvePhases`: headers are sent unless they are skipped, bodies only where a mode is given. -/

def requestHeaders : Bool := (cfg.phases.map ExtProcPhases.requestHeaders).getD "" ≠ "skip"

def responseHeaders : Bool := (cfg.phases.map ExtProcPhases.responseHeaders).getD "" ≠ "skip"

def requestBody : BodyMode := .ofText ((cfg.phases.map ExtProcPhases.requestBody).getD "")

def responseBody : BodyMode := .ofText ((cfg.phases.map ExtProcPhases.responseBody).getD "")

/-- `maxBodyBytes`, for `bufferedPartial`. -/
def maxBodyBytes : ℕ :=
  match cfg.phases with
  | some phases => if 0 < phases.maxBodyBytes then phases.maxBodyBytes.toNat else 1048576
  | none => 1048576

def errorStatus : ℕ := if 0 < cfg.statusOnError then cfg.statusOnError else 500

end Settings

/-! ## Messages and answers -/

/-- `ProcessingRequest`. -/
inductive Message where
  | requestHeaders (method path authority scheme : String) (header : Header) (endOfStream : Bool)
  | requestBody (body : List UInt8) (endOfStream : Bool)
  | responseHeaders (status : ℕ) (header : Header) (endOfStream : Bool)
  | responseBody (body : List UInt8) (endOfStream : Bool)

/-- `HeadersAction`; `replace` is the status `CONTINUE_AND_REPLACE`. -/
structure HeadersAction where
  replace : Bool := false
  setHeaders : List (String × String) := []
  removeHeaders : List String := []
  replaceBody : Option (List UInt8) := none
deriving DecidableEq, Repr

inductive BodyMutation where
  | replaceBody (body : List UInt8)
  | clearBody (clear : Bool)
deriving DecidableEq, Repr

/-- `BodyAction`; nothing reads its status. -/
structure BodyAction where
  setHeaders : List (String × String) := []
  removeHeaders : List String := []
  bodyMutation : Option BodyMutation := none
deriving DecidableEq, Repr

/-- `ProcessingResponse`. -/
inductive Answer where
  | requestHeaders (action : HeadersAction)
  | responseHeaders (action : HeadersAction)
  | requestBody (action : BodyAction)
  | responseBody (action : BodyAction)
  | reject (status : ℕ) (headers : List (String × String)) (body : Option (List UInt8))
  | unset
deriving DecidableEq, Repr

def Answer.getRequestHeaders : Answer → Option HeadersAction
  | .requestHeaders action => some action
  | _ => none

def Answer.getResponseHeaders : Answer → Option HeadersAction
  | .responseHeaders action => some action
  | _ => none

def Answer.getRequestBody : Answer → Option BodyAction
  | .requestBody action => some action
  | _ => none

def Answer.getResponseBody : Answer → Option BodyAction
  | .responseBody action => some action
  | _ => none

section Getters

variable {answer : Answer}

theorem Answer.getRequestHeaders_eq_some {action : HeadersAction} :
    answer.getRequestHeaders = some action ↔ answer = .requestHeaders action := by
  cases answer <;> simp [getRequestHeaders]

theorem Answer.getRequestBody_eq_some {action : BodyAction} :
    answer.getRequestBody = some action ↔ answer = .requestBody action := by
  cases answer <;> simp [getRequestBody]

theorem Answer.getResponseBody_eq_some {action : BodyAction} :
    answer.getResponseBody = some action ↔ answer = .responseBody action := by
  cases answer <;> simp [getResponseBody]

end Getters

/-- A processor answers a message or fails: it cannot be reached, is late, or is not understood. -/
abbrev Processor := Message → Option Answer

/-- A message and the answer to it, if there is one. -/
abbrev Exchange := Message × Option Answer

/-- A processor that remembers what has been said in the transaction. -/
abbrev Dialog := List Exchange → Processor

def Answer.isReject : Answer → Bool
  | .reject .. => true
  | _ => false

/-- What a mutation makes of a body. -/
def BodyMutation.apply (body : List UInt8) : BodyMutation → List UInt8
  | .replaceBody replacement => replacement
  | .clearBody clear => if clear then [] else body

/-- `applyResponseBodyAction`. -/
def applyResponseBodyAction (original : List UInt8) (action : BodyAction) : List UInt8 :=
  match action.bodyMutation with
  | some mutation => mutation.apply original
  | none => original

/-! ## Requests -/

/-- Whoever reads a body gets its bytes, and after them the end or an error. -/
structure BodyReader where
  bytes : List UInt8
  broken : Bool := false
deriving DecidableEq, Repr

structure Request where
  method : String := ""
  requestURI : String := ""
  host : String := ""
  tls : Bool := false
  header : Header := fun _ => []
  body : Option BodyReader := none
  contentLength : ℤ := 0

/-- `applyBodyAction`, on the headers and the body of a request. -/
def applyBodyAction (rules : Option HeaderRules) (action : BodyAction) (r : Request) : Request :=
  let r := { r with header := applyHeadersAction rules action.removeHeaders action.setHeaders r.header }
  match action.bodyMutation with
  | some (.replaceBody body) => { r with body := some ⟨body, false⟩, contentLength := body.length }
  | some (.clearBody true) => { r with body := some ⟨[], false⟩, contentLength := 0 }
  | some (.clearBody false) => r
  | none => r

/-- How a phase of the request ends. -/
inductive Verdict where
  | pass (r : Request)
  /-- The processor failed, which is allowed: the handler is called on the bare writer. -/
  | skip (r : Request)
  | rejected (status : ℕ) (headers : List (String × String)) (body : Option (List UInt8))
  | failed

/-- How a transaction ends; `header` is the header map in the end. -/
inductive Outcome where
  | failed
  | rejected (status : ℕ) (headers : List (String × String)) (body : Option (List UInt8))
  | skipped (r : Request)
  | relayed (r : Request) (response : Response) (header : Header)

section Phases

variable (cfg : Settings) (dialog : Dialog)

/-! ## Putting it to the processor -/

/-- `send`, with a record of it: nobody waits for a processor that observes. -/
def send (said : List Exchange) (msg : Message) : Option (Option Answer) × List Exchange :=
  (if cfg.observeEnabled then some none else (dialog said msg).map some,
    said ++ [(msg, dialog said msg)])

/-- `headersToProto`. -/
def headersToProto (h : Header) : Header := fun key =>
  if allowedBy cfg.forwardRules key then h key else []

/-- `readBody`: the bytes, or an error of the reader. A reader that is cut off at the limit is not
asked for more. -/
def readBody (reader : BodyReader) : BodyMode → Option (List UInt8)
  | .bufferedPartial =>
    if cfg.maxBodyBytes ≤ reader.bytes.length then some (reader.bytes.take cfg.maxBodyBytes)
    else if reader.broken then none
    else some reader.bytes
  | _ => if reader.broken then none else some reader.bytes

def streamChunkSize : ℕ := 32 * 1024

/-- The loop of `sendBodyChunks`; `last` is the last answer. Each turn sends at least a byte, so the
length of the body is fuel enough. -/
def chunkLoop (build : List UInt8 → Bool → Message) :
    ℕ → List UInt8 → Option Answer → List Exchange → Option (Option Answer) × List Exchange
  | fuel + 1, b :: body, _, said =>
    let rest := (b :: body).drop streamChunkSize
    let sent := send cfg dialog said (build ((b :: body).take streamChunkSize) rest.isEmpty)
    match sent.1 with
    | none => sent
    | some answer => chunkLoop build fuel rest answer sent.2
  -- Without an answer so far, an empty last chunk is sent.
  | _, _, none, said => send cfg dialog said (build [] true)
  | _, _, some answer, said => (some (some answer), said)

/-- A body is sent in chunks or whole. -/
def sendBody (mode : BodyMode) (body : List UInt8) (build : List UInt8 → Bool → Message)
    (said : List Exchange) : Option (Option Answer) × List Exchange :=
  match mode with
  | .streamed => chunkLoop cfg dialog build body.length body none said
  | _ => send cfg dialog said (build body true)

/-! ## The phases of a request -/

/-- What both phases of the request do with an answer. -/
def verdict (r : Request) (apply : Answer → Request) : Option (Option Answer) → Verdict
  | none => if cfg.allowOnError then .skip r else .failed
  | some none => .pass r
  | some (some (.reject status headers body)) =>
    if cfg.disableReject then .pass r else .rejected status headers body
  | some (some answer) => .pass (apply answer)

def applyRequestHeaders (r : Request) (answer : Answer) : Request :=
  match answer.getRequestHeaders with
  | none => r
  | some action =>
    let r := { r with
      header := applyHeadersAction cfg.allowedMutations action.removeHeaders action.setHeaders r.header }
    match action.replace, action.replaceBody with
    | true, some body => { r with body := some ⟨body, false⟩, contentLength := body.length }
    | _, _ => r

def applyRequestBody (r : Request) (answer : Answer) : Request :=
  match answer.getRequestBody with
  | none => r
  | some action => applyBodyAction cfg.allowedMutations action r

/-- The message of `processRequestHeaders`. -/
def requestHeadersMessage (r : Request) : Message :=
  .requestHeaders r.method r.requestURI r.host (if r.tls then "https" else "http")
    (headersToProto cfg r.header) (r.contentLength = 0)

def headersVerdict (r : Request) (said : List Exchange) : Verdict × List Exchange :=
  if cfg.requestHeaders then
    let sent := send cfg dialog said (requestHeadersMessage cfg r)
    (verdict cfg r (applyRequestHeaders cfg r) sent.1, sent.2)
  else (.pass r, said)

/-- `processRequestBody`: the request with what is left of it once its body has been read, and the
answer. -/
def processRequestBody (r : Request) (said : List Exchange) :
    Request × Option (Option Answer) × List Exchange :=
  match r.body with
  | none => (r, some none, said)
  | some reader =>
    match readBody cfg reader cfg.requestBody with
    | none => ({ r with body := some ⟨[], true⟩ }, none, said)
    | some body =>
      ({ r with body := some ⟨body, false⟩ }, sendBody cfg dialog cfg.requestBody body .requestBody said)

def bodyVerdict (r : Request) (said : List Exchange) : Verdict × List Exchange :=
  if cfg.requestBody = .none then (.pass r, said)
  else
    let read := processRequestBody cfg dialog r said
    (verdict cfg read.1 (applyRequestBody cfg read.1) read.2.1, read.2.2)

/-- Both phases of the request. -/
def requestVerdict (r : Request) : Verdict × List Exchange :=
  match headersVerdict cfg dialog r [] with
  | (.pass r, said) => bodyVerdict cfg dialog r said
  | phase => phase

/-! ## The response -/

/-- The state of the hooked writer. -/
structure Capture where
  w : Writer
  capturedStatus : ℕ := 200
  capturedBody : List UInt8 := []
  headersSent : Bool := false

def captureBody : Bool := cfg.responseBody ≠ .none

def needCapture : Bool := cfg.responseHeaders || captureBody cfg

/-- The hooks for `WriteHeader` and `Write`; the header map is that of the writer behind them. -/
def hook (s : Capture) : Call → Capture
  | .setHeader key values => { s with w := s.w.setHeader key values }
  | .writeHeader code =>
    let s := { s with capturedStatus := code }
    if needCapture cfg then s else { s with headersSent := true, w := s.w.writeHeader code }
  | .write body =>
    if captureBody cfg then { s with capturedBody := s.capturedBody ++ body }
    else
      let w := if s.headersSent then s.w else s.w.writeHeader s.capturedStatus
      { s with headersSent := true, w := w.write body }

/-- The allowed mutations of a headers action. -/
def mutated (action : Option HeadersAction) (h : Header) : Header :=
  match action with
  | some action => applyHeadersAction cfg.allowedMutations action.removeHeaders action.setHeaders h
  | none => h

/-- What is flushed in the end, given the actions of both phases of the response. -/
def deliver (s : Capture) (heads : Option HeadersAction) (action : Option BodyAction) : Response :=
  let w := { s.w with header := mutated cfg heads s.w.header }
  let body := action.elim s.capturedBody (applyResponseBodyAction s.capturedBody)
  if s.headersSent then w.finish
  else
    let w := w.writeHeader s.capturedStatus
    (if body.isEmpty then w else w.write body).finish

/-- `processResponseHeaders`, where headers are captured. -/
def processResponseHeaders (s : Capture) (said : List Exchange) : Option (Option Answer) × List Exchange :=
  if cfg.responseHeaders then
    send cfg dialog said
      (.responseHeaders s.capturedStatus (headersToProto cfg s.w.header) s.capturedBody.isEmpty)
  else (some none, said)

/-- `processResponseBody`, where there is a captured body; `bufferedPartial` sends a part of a long one. -/
def processResponseBody (s : Capture) (said : List Exchange) : Option (Option Answer) × List Exchange :=
  if captureBody cfg && !s.capturedBody.isEmpty then
    sendBody cfg dialog cfg.responseBody
      (if cfg.responseBody = .bufferedPartial then s.capturedBody.take cfg.maxBodyBytes
        else s.capturedBody) .responseBody said
  else (some none, said)

/-- The writer when the handler has made its calls. -/
def captured (header : Header) (calls : List Call) : Capture :=
  calls.foldl (hook cfg) { w := { header := header } }

/-- What the response headers phase asks for. Errors and other answers ask for nothing. -/
def headersAsked (header : Header) (calls : List Call) (said : List Exchange) : Option HeadersAction :=
  (processResponseHeaders cfg dialog (captured cfg header calls) said).1.bind fun answer =>
    answer.bind Answer.getResponseHeaders

/-- What is said in the response body phase. -/
def bodyTalk (header : Header) (calls : List Call) (said : List Exchange) :
    Option (Option Answer) × List Exchange :=
  processResponseBody cfg dialog (captured cfg header calls)
    (processResponseHeaders cfg dialog (captured cfg header calls) said).2

/-- What it asks for. -/
def bodyAsked (header : Header) (calls : List Call) (said : List Exchange) : Option BodyAction :=
  (bodyTalk cfg dialog header calls said).1.bind fun answer => answer.bind Answer.getResponseBody

/-- `handle` from the call of the handler on: the response, the header map and what was said. -/
def relay (header : Header) (calls : List Call) (said : List Exchange) :
    Response × Header × List Exchange :=
  let s := captured cfg header calls
  let heads := headersAsked cfg dialog header calls said
  (deliver cfg s heads (bodyAsked cfg dialog header calls said), mutated cfg heads s.w.header,
    (bodyTalk cfg dialog header calls said).2)

/-- `handle`. -/
def handle (next : Request → List Call) (header : Header) (r : Request) : Outcome × List Exchange :=
  match requestVerdict cfg dialog r with
  | (.pass r, said) =>
    let relayed := relay cfg dialog header (next r) said
    (.relayed r relayed.1 relayed.2.1, relayed.2.2)
  | (.skip r, said) => (.skipped r, said)
  | (.rejected status headers body, said) => (.rejected status headers body, said)
  | (.failed, said) => (.failed, said)

end Phases

/-! ## What is seen of an outcome -/

/-- `writeReject`. -/
def writeReject (header : Header) (status : ℕ) (headers : List (String × String))
    (body : Option (List UInt8)) : Response :=
  let w : Writer := { header := headers.foldl (fun h p => h.set p.1 p.2) header }
  let w := w.writeHeader (if status = 0 then 403 else status)
  (match body with | some body => w.write body | none => w).finish

/-- What `onError` writes; `statusText` is `http.StatusText`. -/
def errorPage (statusText : ℕ → String) (cfg : Settings) (header : Header) : Response :=
  httpError header (statusText cfg.errorStatus) cfg.errorStatus

/-- The request that reaches the handler. -/
def Outcome.forwarded : Outcome → Option Request
  | .skipped r => some r
  | .relayed r _ _ => some r
  | _ => none

/-- The response, given the error page. -/
def Outcome.response (page : Response) (next : Request → List Call) (header : Header) : Outcome → Response
  | .failed => page
  | .rejected status headers body => writeReject header status headers body
  | .skipped r => direct header (next r)
  | .relayed _ response _ => response

/-! ## The hooked writer -/

section Hook

variable (cfg : Settings)

theorem needCapture_eq_false :
    needCapture cfg = false ↔ cfg.responseHeaders = false ∧ captureBody cfg = false := by
  simp [needCapture]

/-- A status is only noted where something is captured. -/
theorem hook_writeHeader (hcapture : captureBody cfg = true ∨ cfg.responseHeaders = true) (s : Capture)
    (code : ℕ) : hook cfg s (.writeHeader code) = { s with capturedStatus := code } := by
  have hneed : needCapture cfg = true := by
    rcases hcapture with h | h <;> simp [needCapture, h]
  simp [hook, hneed]

/-- Where bodies are captured nothing passes through. -/
theorem foldl_hook_body (hbody : captureBody cfg = true) (calls : List Call) (h : Header) (status : ℕ)
    (body : List UInt8) :
    calls.foldl (hook cfg) ⟨{ header := h }, status, body, false⟩
      = ⟨{ header := headerAfter h calls }, lastStatus status calls, body ++ written calls, false⟩ := by
  induction calls generalizing h status body with
  | nil => simp [headerAfter, lastStatus, written]
  | cons call calls ih =>
    rw [List.foldl_cons]
    cases call with
    | setHeader key values => exact ih _ _ _
    | writeHeader code =>
      rw [hook_writeHeader cfg (.inl hbody)]
      exact ih h code body
    | write more =>
      simpa [hook, hbody, headerAfter, lastStatus, written] using ih h status (body ++ more)

/-- Where only headers are captured, a handler that has written is past holding back. -/
theorem foldl_hook_sent (hbody : captureBody cfg = false) (hheaders : cfg.responseHeaders = true)
    (calls : List Call) (h : Header) (sent : ℕ × Header) (status : ℕ) (body : List UInt8) :
    calls.foldl (hook cfg) ⟨⟨h, some sent, body⟩, status, [], true⟩
      = ⟨⟨headerAfter h calls, some sent, body ++ written calls⟩, lastStatus status calls, [], true⟩ := by
  induction calls generalizing h status body with
  | nil => simp [headerAfter, lastStatus, written]
  | cons call calls ih =>
    rw [List.foldl_cons]
    cases call with
    | setHeader key values => exact ih _ _ _
    | writeHeader code =>
      rw [hook_writeHeader cfg (.inr hheaders)]
      exact ih h code body
    | write more =>
      simpa [hook, hbody, Writer.write, Writer.writeHeader, headerAfter, lastStatus, written]
        using ih h status (body ++ more)

/-- The first write sends what has been held so far. -/
theorem foldl_hook_headers (hbody : captureBody cfg = false) (hheaders : cfg.responseHeaders = true)
    (calls : List Call) (h : Header) (status : ℕ) :
    calls.foldl (hook cfg) ⟨{ header := h }, status, [], false⟩
      = ⟨⟨headerAfter h calls,
          if writes calls then
            some (finalStatus (heldToWrite status h calls).1, (heldToWrite status h calls).2) else none,
          written calls⟩, lastStatus status calls, [], writes calls⟩ := by
  induction calls generalizing h status with
  | nil => simp [headerAfter, lastStatus, written, writes]
  | cons call calls ih =>
    rw [List.foldl_cons]
    cases call with
    | setHeader key values => exact ih _ _
    | writeHeader code =>
      rw [hook_writeHeader cfg (.inr hheaders)]
      exact ih h code
    | write body =>
      have hstep : hook cfg ⟨{ header := h }, status, [], false⟩ (.write body)
          = ⟨⟨h, some (finalStatus status, h), body⟩, status, [], true⟩ := by
        rw [← Writer.write_held]
        simp [hook, hbody]
      rw [hstep, foldl_hook_sent cfg hbody hheaders]
      simp [headerAfter, lastStatus, written, writes, heldToWrite]

/-- Where nothing is captured the hooked writer does what the writer does. -/
theorem foldl_hook_none (hneed : needCapture cfg = false) (calls : List Call) (s : Capture)
    (hstatus : s.headersSent = false → s.capturedStatus = 200) (hempty : s.capturedBody = []) :
    let s' := calls.foldl (hook cfg) s
    s'.w = calls.foldl Writer.run s.w ∧ (s'.headersSent = false → s'.capturedStatus = 200) ∧
      s'.capturedBody = [] := by
  have hbody := ((needCapture_eq_false cfg).mp hneed).2
  induction calls generalizing s with
  | nil => exact ⟨rfl, hstatus, hempty⟩
  | cons call calls ih =>
    rw [List.foldl_cons, List.foldl_cons]
    cases call with
    | setHeader key values => exact ih _ hstatus hempty
    | writeHeader code =>
      have hw : (hook cfg s (.writeHeader code)).w = s.w.run (.writeHeader code) := by
        simp [hook, hneed, Writer.run]
      rw [← hw]
      exact ih _ (by simp [hook, hneed]) (by simpa [hook, hneed] using hempty)
    | write body =>
      -- A write that comes first is preceded by a status of 200, which it would have sent itself.
      have hw : (hook cfg s (.write body)).w = s.w.run (.write body) := by
        cases hsent : s.headersSent with
        | true => simp [hook, hbody, hsent, Writer.run]
        | false =>
          have htwice : (s.w.writeHeader 200).write body = s.w.write body := by
            by_cases hnone : s.w.sent.isNone = true
            · simp [Writer.write, Writer.writeHeader, hnone, isFinal_ok]
            · simp [Writer.write, Writer.writeHeader, hnone]
          simpa [hook, hbody, hsent, hstatus hsent, Writer.run] using htwice
      rw [← hw]
      exact ih _ (by simp [hook, hbody]) (by simpa [hook, hbody] using hempty)

end Hook

/-! ## What the client receives -/

section Respond

variable (cfg : Settings) (heads : Option HeadersAction) (action : Option BodyAction) (h : Header)
  (calls : List Call)

/-- The status and the headers that leave: at the end, mutated, if the body is captured or there is
none; before the first write if only the headers are captured. -/
def leaving : ℕ × Header :=
  if captureBody cfg || cfg.responseHeaders && !writes calls then
    (finalStatus (lastStatus 200 calls), mutated cfg heads (headerAfter h calls))
  else if cfg.responseHeaders then
    (finalStatus (heldToWrite 200 h calls).1, (heldToWrite 200 h calls).2)
  else firstSent h calls

/-- The body that leaves. -/
def leavingBody : List UInt8 := action.elim (written calls) (applyResponseBodyAction (written calls))

theorem deliver_of_body (hbody : captureBody cfg = true) :
    deliver cfg (captured cfg h calls) heads action
      = ⟨(leaving cfg heads h calls).1, (leaving cfg heads h calls).2, leavingBody action calls⟩ := by
  simp only [captured, foldl_hook_body cfg hbody, deliver, leaving, leavingBody, hbody, List.nil_append,
    Bool.true_or, if_true, Bool.false_eq_true, if_false]
  split
  · next hempty =>
    rw [Writer.finish_held, List.isEmpty_iff.mp hempty]
  · rw [Writer.write_held]
    rfl

theorem deliver_of_headers (hbody : captureBody cfg = false) (hheaders : cfg.responseHeaders = true) :
    deliver cfg (captured cfg h calls) heads none
      = ⟨(leaving cfg heads h calls).1, (leaving cfg heads h calls).2, written calls⟩ := by
  have hs := foldl_hook_headers cfg hbody hheaders calls h 200
  cases hwrites : writes calls with
  | true => simp [captured, hs, deliver, leaving, hbody, hheaders, hwrites, Writer.finish]
  | false =>
    simp [captured, hs, deliver, leaving, hbody, hheaders, hwrites, written_of_not_writes hwrites,
      Writer.finish_held]

theorem deliver_of_none (hneed : needCapture cfg = false) :
    deliver cfg (captured cfg h calls) none none
      = ⟨(leaving cfg none h calls).1, (leaving cfg none h calls).2, written calls⟩ := by
  obtain ⟨hheaders, hbody⟩ := (needCapture_eq_false cfg).mp hneed
  obtain ⟨hw, hstatus, hempty⟩ := foldl_hook_none cfg hneed calls { w := { header := h } } (fun _ => rfl) rfl
  have hdirect := direct_eq h calls
  unfold direct at hdirect
  rw [← hw] at hdirect
  simp only [captured, deliver, mutated, leaving, hbody, hheaders, hempty, Option.elim_none,
    List.isEmpty_nil, if_true, Bool.false_eq_true, if_false, Bool.false_and, Bool.or_false]
  split
  · exact hdirect
  · next hsent =>
    rw [hstatus (by simpa using hsent), ← hdirect]
    generalize (calls.foldl (hook cfg) { w := { header := h } }).w = w
    cases hw' : w.sent with
    | none => simp [Writer.finish, Writer.writeHeader, hw', isFinal_ok]
    | some sent => simp [Writer.finish, Writer.writeHeader, hw']

variable (dialog : Dialog) (said : List Exchange)

variable {cfg} in
/-- Headers that are not captured are not sent to the processor. -/
theorem headersAsked_eq_none (hheaders : cfg.responseHeaders = false) :
    headersAsked cfg dialog h calls said = none := by
  simp [headersAsked, processResponseHeaders, hheaders]

variable {cfg} in
/-- Nor is a body. -/
theorem bodyAsked_eq_none (hbody : captureBody cfg = false) : bodyAsked cfg dialog h calls said = none := by
  simp [bodyAsked, bodyTalk, processResponseBody, hbody]

/-- What the client receives, for every phase configuration, every answer and every sequence of calls. -/
theorem relay_eq :
    (relay cfg dialog h calls said).1
      = ⟨(leaving cfg (headersAsked cfg dialog h calls said) h calls).1,
          (leaving cfg (headersAsked cfg dialog h calls said) h calls).2,
          leavingBody (bodyAsked cfg dialog h calls said) calls⟩ := by
  unfold relay
  cases hbody : captureBody cfg with
  | true => exact deliver_of_body cfg _ _ h calls hbody
  | false =>
    rw [bodyAsked_eq_none h calls dialog said hbody]
    cases hheaders : cfg.responseHeaders with
    | true => exact deliver_of_headers cfg _ h calls hbody hheaders
    | false =>
      rw [headersAsked_eq_none h calls dialog said hheaders]
      exact deliver_of_none cfg h calls ((needCapture_eq_false cfg).mpr ⟨hheaders, hbody⟩)

end Respond

end Vrata.Proxy.ExtProc

import Vrata.Proxy.Pipeline.ExtProcDialog

/-!
# What the external processor leaves alone

Reference: `server/internal/proxy/middlewares/extproc.go`, `server/proto/extproc/v1/extproc.proto`.

The processor may change headers, within the rules for mutations, and bodies. Everything else is the
client's or the upstream's.

On the way back, `delivered_of_inTurn` compares what the client receives with what the handler would have
sent it directly, changed as the processor asked. The two differ when the handler writes a body that
is not captured, since its headers have left by the time the processor sees them; when it passes a
status after the first final one; when a body action changes headers or a headers action replaces the
body; and when a body is replaced whose length is in the headers.

On the way in, `sameBody_iff` says which requests reach the handler with the body and the length they
came with, from a processor that mutates no body: `bufferedPartial` hands on only what it has
buffered.
-/

namespace Vrata.Proxy.ExtProc

open NetHttp

/-- The key of the length of a body. -/
def lengthKey : String := canonicalKey "Content-Length"

/-- The headers that an action names. -/
def HeadersAction.names (action : HeadersAction) : List String :=
  action.setHeaders.map Prod.fst ++ action.removeHeaders

def BodyAction.names (action : BodyAction) : List String :=
  action.setHeaders.map Prod.fst ++ action.removeHeaders

/-- An action without a mutation of the body. -/
def BodyAction.sparesBody (action : BodyAction) : Bool := action.bodyMutation.all (· = .clearBody false)

section Response

variable (cfg : Settings) (dialog : Dialog) (h : Header) (calls : List Call) (said : List Exchange)

/-- `CONTINUE_AND_REPLACE` from the headers phase skips the body phase. -/
def endsPhases : Bool := (headersAsked cfg dialog h calls said).any HeadersAction.replace

/-- The allowed mutations of the response phases. Those of a body action are effective in `buffered`
mode. -/
def askedHeader (header : Header) : Header :=
  let header := mutated cfg (headersAsked cfg dialog h calls said) header
  if endsPhases cfg dialog h calls said || cfg.responseBody ≠ .buffered then header
  else
    match bodyAsked cfg dialog h calls said with
    | some action =>
      applyHeadersAction cfg.allowedMutations action.removeHeaders action.setHeaders header
    | none => header

/-- The body or its replacement. -/
def askedBody (body : List UInt8) : List UInt8 :=
  if endsPhases cfg dialog h calls said then
    ((headersAsked cfg dialog h calls said).bind HeadersAction.replaceBody).getD body
  else (bodyAsked cfg dialog h calls said).elim body (applyResponseBodyAction body)

/-- The client receives what the handler sends, changed as the processor asked. A `Content-Length` is
that of the body, or the one the handler gave for a body that has not been changed. -/
structure Delivered (response : Response) : Prop where
  status : response.status = (direct h calls).status
  header : ∀ key ≠ lengthKey,
    response.header key = askedHeader cfg dialog h calls said (direct h calls).header key
  body : response.body = askedBody cfg dialog h calls said (direct h calls).body
  length : response.header lengthKey = [] ∨
    response.header lengthKey = [toString response.body.length] ∨
    response.header lengthKey = (direct h calls).header lengthKey ∧
      response.body = (direct h calls).body

end Response

/-! ## The way back -/

section Turn

def isWrite : Call → Bool
  | .write _ => true
  | _ => false

/-- A handler that sets headers first, then passes at most one status, a final one, and writes last. -/
def inTurn : List Call → Bool
  | .setHeader _ _ :: calls => inTurn calls
  | .writeHeader code :: calls => isFinal code && calls.all isWrite
  | .write _ :: calls => calls.all isWrite
  | [] => true

/-- Writing changes neither the status nor the headers. -/
theorem after_writes {calls : List Call} (hwrites : calls.all isWrite = true) (status : ℕ) (h : Header) :
    lastStatus status calls = status ∧ headerAfter h calls = h := by
  induction calls with
  | nil => exact ⟨rfl, rfl⟩
  | cons call calls ih =>
    cases call with
    | write body => exact ih (by simpa [isWrite] using hwrites)
    | setHeader key values => simp [isWrite] at hwrites
    | writeHeader code => simp [isWrite] at hwrites

/-- What is passed in turn is sent as it was in the end, whenever it is sent. -/
theorem sent_inTurn {calls : List Call} (hturn : inTurn calls = true) (h : Header) :
    isFinal (lastStatus 200 calls) = true ∧
      firstSent h calls = (lastStatus 200 calls, headerAfter h calls) ∧
      heldToWrite 200 h calls = (lastStatus 200 calls, headerAfter h calls) := by
  induction calls generalizing h with
  | nil => exact ⟨isFinal_ok, rfl, rfl⟩
  | cons call calls ih =>
    cases call with
    | setHeader key values => exact ih hturn _
    | write body =>
      obtain ⟨hstatus, hheader⟩ := after_writes hturn 200 h
      simp [lastStatus, headerAfter, firstSent, heldToWrite, hstatus, hheader, isFinal_ok]
    | writeHeader code =>
      obtain ⟨hfinal, hwrites⟩ : isFinal code = true ∧ calls.all isWrite = true := by
        simpa only [inTurn, Bool.and_eq_true] using hturn
      obtain ⟨hstatus, hheader⟩ := after_writes hwrites code h
      have hheld : heldToWrite code h calls = (code, h) := by
        cases calls with
        | nil => rfl
        | cons call calls =>
          cases call with
          | write body => rfl
          | setHeader key values => simp [isWrite] at hwrites
          | writeHeader code => simp [isWrite] at hwrites
      simp [lastStatus, headerAfter, firstSent, heldToWrite, hstatus, hheader, hheld, hfinal]

end Turn

section Response

variable {cfg : Settings} {dialog : Dialog} {h : Header} {calls : List Call} {said : List Exchange}

/-- Headers that an action does not name are left as they are. -/
theorem mutated_of_not_named {heads : Option HeadersAction} {key : String}
    (hnames : ∀ action, heads = some action → ∀ name ∈ action.names, canonicalKey name ≠ key) (h : Header) :
    mutated cfg heads h key = h key := by
  cases heads with
  | none => rfl
  | some action =>
    have hkey := hnames action rfl
    simp only [mutated, applyHeadersAction]
    rw [foldl_header, foldl_header]
    · intro h name hname
      have hne := hkey name (List.mem_append_right _ hname)
      split
      · exact Function.update_of_ne hne.symm _ _
      · rfl
    · intro h p hp
      have hne := hkey p.1 (List.mem_append_left _ (List.mem_map_of_mem hp))
      split
      · exact Function.update_of_ne hne.symm _ _
      · rfl

/-- A body leaves as it is from an action without a mutation. -/
theorem applyResponseBodyAction_of_spares {action : BodyAction} (hspares : action.sparesBody = true)
    (body : List UInt8) : applyResponseBodyAction body action = body := by
  unfold applyResponseBodyAction
  split
  · next mutation hmutation =>
    obtain rfl : mutation = .clearBody false := by simpa [BodyAction.sparesBody, hmutation] using hspares
    rfl
  · rfl

/-- In turn, the status and the headers leave as the handler left them, mutated, unless the mutations come
too late. -/
theorem leaving_inTurn (hturn : inTurn calls = true) {heads : Option HeadersAction}
    (hheads : ∀ action, heads = some action →
      captureBody cfg = true ∨ writes calls = false ∨ action.names = [])
    (hnone : cfg.responseHeaders = false → heads = none) :
    leaving cfg heads h calls = (lastStatus 200 calls, mutated cfg heads (headerAfter h calls)) := by
  obtain ⟨hfinal, hfirst, hheld⟩ := sent_inTurn hturn h
  have hstatus : finalStatus (lastStatus 200 calls) = lastStatus 200 calls := if_pos hfinal
  unfold leaving
  split
  · rw [hstatus]
  · next hlate =>
    obtain ⟨hbody, hwrites⟩ :
        captureBody cfg = false ∧ (cfg.responseHeaders = true → writes calls = true) := by
      simpa using hlate
    split
    · next hheaders =>
      have hsame : mutated cfg heads (headerAfter h calls) = headerAfter h calls := by
        funext key
        refine mutated_of_not_named (fun action haction name hname => ?_) _
        have hnames := hheads action haction
        simp [hbody, hwrites hheaders] at hnames
        simp [hnames] at hname
      rw [hheld, hsame, hstatus]
    · next hheaders =>
      rw [hnone (by simpa using hheaders), hfirst]
      rfl

end Response

/-- Responses are captured whole. -/
def rewriter : Settings where
  phases := some { requestHeaders := "skip", responseBody := "buffered" }

/-- A processor that forbids caching and replaces the body. -/
def redact : Dialog := fun _ msg =>
  match msg with
  | .responseBody _ _ => some (.responseBody { bodyMutation := some (.replaceBody [45]) })
  | _ => some (.responseHeaders { setHeaders := [("Cache-Control", "no-store")] })

/-- A page whose length is not in the headers. -/
def page : List Call := [.setHeader "server" ["a"], .writeHeader 200, .write [104], .write [105]]

/-- Response headers are sent to the processor, bodies are not. -/
def enricher : Settings where
  phases := some { requestHeaders := "skip", responseHeaders := "send", requestBody := "none",
                   responseBody := "none" }
  allowedMutations := some { allowHeaders := ["cache-control"] }

/-- A request with the body and the length of another one. -/
def SameBody (r' r : Request) : Prop := r'.body = r.body ∧ r'.contentLength = r.contentLength

/-- An answer that changes a body. -/
def Answer.mutatesBody : Answer → Bool
  | .requestHeaders action => action.replace && action.replaceBody.isSome
  | .responseHeaders action => action.replace && action.replaceBody.isSome
  | .requestBody action => action.bodyMutation.any (· ≠ .clearBody false)
  | .responseBody action => action.bodyMutation.any (· ≠ .clearBody false)
  | .reject _ _ _ => false
  | .unset => false

/-- The processor mutates no body, or nobody listens. -/
def Passive (cfg : Settings) (dialog : Dialog) : Prop :=
  cfg.observeEnabled = true ∨
    ∀ said msg answer, dialog said msg = some answer → answer.mutatesBody = false

section Request

variable {cfg : Settings} {dialog : Dialog}

/-- Whatever is received mutates no body. -/
def Harmless (received : Option (Option Answer)) : Prop :=
  ∀ answer, received = some (some answer) → answer.mutatesBody = false

/-- A passive processor sends nothing that mutates a body. -/
theorem harmless_send (hpassive : Passive cfg dialog) (said : List Exchange) (msg : Message) :
    Harmless (send cfg dialog said msg).1 := by
  intro answer hanswer
  unfold send at hanswer
  split at hanswer
  · simp at hanswer
  · next hobserve =>
    have hdialog : dialog said msg = some answer := by simpa using hanswer
    exact (hpassive.resolve_left (by simpa using hobserve)) said msg answer hdialog

theorem harmless_chunkLoop (hpassive : Passive cfg dialog) (build : List UInt8 → Bool → Message)
    (fuel : ℕ) (body : List UInt8) (last : Option Answer) (said : List Exchange)
    (hlast : Harmless (some last)) : Harmless (chunkLoop cfg dialog build fuel body last said).1 := by
  induction fuel generalizing body last said with
  | zero =>
    cases last with
    | none => exact harmless_send hpassive _ _
    | some answer => exact hlast
  | succ fuel ih =>
    cases body with
    | nil =>
      cases last with
      | none => exact harmless_send hpassive _ _
      | some answer => exact hlast
    | cons b body =>
      have hsent := harmless_send hpassive said
        (build ((b :: body).take streamChunkSize) ((b :: body).drop streamChunkSize).isEmpty)
      simp only [chunkLoop]
      split
      · exact hsent
      · next answer hanswer =>
        rw [hanswer] at hsent
        exact ih _ _ _ hsent

theorem harmless_sendBody (hpassive : Passive cfg dialog) (mode : BodyMode) (body : List UInt8)
    (build : List UInt8 → Bool → Message) (said : List Exchange) :
    Harmless (sendBody cfg dialog mode body build said).1 := by
  unfold sendBody
  split
  · refine harmless_chunkLoop hpassive build _ body none said ?_
    intro answer hanswer
    simp at hanswer
  · exact harmless_send hpassive _ _

theorem sameBody_applyRequestHeaders (r : Request) (answer : Answer) (hanswer : answer.mutatesBody = false) :
    SameBody (applyRequestHeaders cfg r answer) r := by
  unfold applyRequestHeaders
  split
  · exact ⟨rfl, rfl⟩
  · next action haction =>
    obtain rfl := Answer.getRequestHeaders_eq_some.mp haction
    split
    · next body hreplace hbody => simp [Answer.mutatesBody, hreplace, hbody] at hanswer
    · exact ⟨rfl, rfl⟩

theorem sameBody_applyRequestBody (r : Request) (answer : Answer) (hanswer : answer.mutatesBody = false) :
    SameBody (applyRequestBody cfg r answer) r := by
  unfold applyRequestBody
  split
  · exact ⟨rfl, rfl⟩
  · next action haction =>
    obtain rfl := Answer.getRequestBody_eq_some.mp haction
    unfold applyBodyAction
    split
    · next body hbody => simp [Answer.mutatesBody, hbody] at hanswer
    · next hclear => simp [Answer.mutatesBody, hclear] at hanswer
    · exact ⟨rfl, rfl⟩
    · exact ⟨rfl, rfl⟩

/-- The request that a verdict hands on, to the next phase or to the handler. -/
def Verdict.request? : Verdict → Option Request
  | .pass r => some r
  | .skip r => some r
  | _ => none

/-- A phase without a mutation hands on the body it has. -/
theorem sameBody_verdict {r r' : Request} {answer : Option (Option Answer)} {apply : Answer → Request}
    (hharmless : Harmless answer) (happly : ∀ a, a.mutatesBody = false → SameBody (apply a) r)
    (hverdict : (verdict cfg r apply answer).request? = some r') : SameBody r' r := by
  unfold verdict at hverdict
  split at hverdict
  · split at hverdict <;> cases hverdict
    exact ⟨rfl, rfl⟩
  · cases hverdict
    exact ⟨rfl, rfl⟩
  · split at hverdict <;> cases hverdict
    exact ⟨rfl, rfl⟩
  · cases hverdict
    exact happly _ (hharmless _ rfl)

/-- Only a failure sends a request to the handler with no further phase, and a failure goes to no further
phase. -/
theorem verdict_none_iff (cfg : Settings) (r : Request) (apply : Answer → Request)
    (answer : Option (Option Answer)) :
    (∀ r', verdict cfg r apply answer = .skip r' → answer = none ∧ r' = r) ∧
      ∀ r', verdict cfg r apply answer = .pass r' → answer ≠ none := by
  unfold verdict
  split
  · split <;> simp
  · simp
  · split <;> simp
  · simp

/-- A body that reads the same after the middleware has read it: it ends, within the limit of
`bufferedPartial`, or there was nothing to read but an error. -/
def ReaderKept (cfg : Settings) (reader : BodyReader) : Prop :=
  (reader.broken = false ∧
    (cfg.requestBody = .bufferedPartial → reader.bytes.length ≤ cfg.maxBodyBytes)) ∨
  reader = ⟨[], true⟩

theorem maxBodyBytes_pos (cfg : Settings) : 0 < cfg.maxBodyBytes := by
  unfold Settings.maxBodyBytes
  split
  · split
    · next hpos => omega
    · omega
  · omega

/-- What is left of a body once it has been read. -/
theorem readBody_iff (cfg : Settings) (reader : BodyReader) :
    ((readBody cfg reader cfg.requestBody).elim ⟨[], true⟩ fun body => ⟨body, false⟩) = reader ↔
      ReaderKept cfg reader := by
  obtain ⟨bytes, broken⟩ := reader
  have hpos := maxBodyBytes_pos cfg
  unfold ReaderKept readBody
  split
  · next hmode =>
    simp only [hmode]
    split
    · next hlimit =>
      -- At the limit the rest is gone, and the error with it.
      have htake : bytes.take cfg.maxBodyBytes = bytes ↔ bytes.length ≤ cfg.maxBodyBytes :=
        ⟨fun hsame => by rw [← hsame]; exact List.length_take_le _ _, List.take_of_length_le⟩
      have hne : bytes ≠ [] := by
        rintro rfl
        simp only [List.length_nil] at hlimit
        omega
      cases broken <;> simp [htake, hne]
    · next hlimit =>
      have hshort : bytes.length ≤ cfg.maxBodyBytes := by omega
      cases broken <;> simp [hshort, eq_comm]
  · next mode hmode =>
    have hother : cfg.requestBody = .bufferedPartial → bytes.length ≤ cfg.maxBodyBytes :=
      fun hpartial => absurd hpartial hmode
    cases broken with
    | false => simpa using hother
    | true => simp [eq_comm]

/-- Reading keeps the body exactly if it reads the same afterwards. -/
theorem sameBody_processRequestBody (cfg : Settings) (dialog : Dialog) (r : Request)
    (said : List Exchange) :
    SameBody (processRequestBody cfg dialog r said).1 r ↔
      ∀ reader, r.body = some reader → ReaderKept cfg reader := by
  unfold processRequestBody SameBody
  cases hbody : r.body with
  | none => simp [hbody]
  | some reader =>
    have hread := readBody_iff cfg reader
    cases hbytes : readBody cfg reader cfg.requestBody with
    | none => simpa [hbytes] using hread
    | some bytes => simpa [hbytes] using hread

/-- The answer to the headers of the request. -/
def headersAnswer (cfg : Settings) (dialog : Dialog) (r : Request) : Option (Option Answer) :=
  (send cfg dialog [] (requestHeadersMessage cfg r)).1

/-- The body is not read, or reads the same afterwards. -/
def BodyKept (cfg : Settings) (dialog : Dialog) (r : Request) : Prop :=
  cfg.requestBody = .none ∨
    (cfg.requestHeaders = true ∧ headersAnswer cfg dialog r = none) ∨
    ∀ reader, r.body = some reader → ReaderKept cfg reader

theorem bodyVerdict_iff (hpassive : Passive cfg dialog) (r r' : Request) (said : List Exchange)
    (hverdict : (bodyVerdict cfg dialog r said).1.request? = some r') :
    SameBody r' r ↔ cfg.requestBody = .none ∨ ∀ reader, r.body = some reader → ReaderKept cfg reader := by
  unfold bodyVerdict at hverdict
  split at hverdict
  · next hmode =>
    cases hverdict
    exact ⟨fun _ => .inl hmode, fun _ => ⟨rfl, rfl⟩⟩
  · next hmode =>
    have hharmless : Harmless (processRequestBody cfg dialog r said).2.1 := by
      unfold processRequestBody
      split
      · intro answer hanswer
        cases hanswer
      · split
        · intro answer hanswer
          cases hanswer
        · exact harmless_sendBody hpassive _ _ _ _
    -- The phase hands on what reading the body has left.
    obtain ⟨hbody, hlength⟩ := sameBody_verdict hharmless
      (fun answer hanswer => sameBody_applyRequestBody _ answer hanswer) hverdict
    rw [← sameBody_processRequestBody cfg dialog r said, or_iff_right hmode, SameBody, SameBody, hbody,
      hlength]

/-- The headers phase hands on the body it has, and ends the phases exactly if it fails. -/
theorem headersVerdict_spec (hpassive : Passive cfg dialog) (r r' : Request)
    (hverdict : (headersVerdict cfg dialog r []).1.request? = some r') :
    SameBody r' r ∧ ((headersVerdict cfg dialog r []).1 = .skip r' ↔
      cfg.requestHeaders = true ∧ headersAnswer cfg dialog r = none) := by
  unfold headersVerdict headersAnswer at *
  split at hverdict
  · next hsend =>
    have hsame := sameBody_verdict (harmless_send hpassive _ _)
      (fun answer hanswer => sameBody_applyRequestHeaders r answer hanswer) hverdict
    refine ⟨hsame, ?_⟩
    simp only [hsend, if_true, true_and]
    generalize send cfg dialog [] (requestHeadersMessage cfg r) = sent at hverdict ⊢
    change (verdict cfg r (applyRequestHeaders cfg r) sent.1).request? = some r' at hverdict
    obtain ⟨hskip, hpass⟩ := verdict_none_iff cfg r (applyRequestHeaders cfg r) sent.1
    refine ⟨fun h => (hskip _ h).1, fun hnone => ?_⟩
    cases hv : verdict cfg r (applyRequestHeaders cfg r) sent.1 with
    | pass q => exact absurd hnone (hpass q hv)
    | skip q =>
      rw [hv] at hverdict
      cases hverdict
      rfl
    | failed => simp [hv, Verdict.request?] at hverdict
    | rejected status headers body => simp [hv, Verdict.request?] at hverdict
  · next hskip =>
    cases hverdict
    exact ⟨⟨rfl, rfl⟩, by simp [hskip]⟩

variable {next : Request → List Call} {header : Header} {r r' : Request}

/-- The response body of a passive processor is the one the handler writes. -/
theorem relay_body_of_passive (hpassive : Passive cfg dialog) (header : Header) (calls : List Call)
    (said : List Exchange) :
    (relay cfg dialog header calls said).1.body = (direct header calls).body := by
  rw [relay_eq, direct_eq]
  change leavingBody (bodyAsked cfg dialog header calls said) calls = written calls
  cases hasked : bodyAsked cfg dialog header calls said with
  | none => rfl
  | some action =>
    -- The action came in an answer, which mutates no body.
    obtain ⟨received, hreceived, hget⟩ := Option.bind_eq_some_iff.mp hasked
    obtain ⟨answer, rfl, hget⟩ := Option.bind_eq_some_iff.mp hget
    obtain rfl := Answer.getResponseBody_eq_some.mp hget
    have hharmless : (Answer.responseBody action).mutatesBody = false := by
      unfold bodyTalk processResponseBody at hreceived
      split at hreceived
      · exact harmless_sendBody hpassive _ _ _ _ _ hreceived
      · cases hreceived
    refine applyResponseBodyAction_of_spares ?_ _
    simpa [BodyAction.sparesBody, Answer.mutatesBody, Option.all_eq_true, Option.any_eq_false] using hharmless

/-- A request that reaches the handler past a processor that mutates no body has the body and the
length it came with, exactly when its body is not read or reads the same afterwards. The body of the
response is always the handler's. -/
theorem sameBody_iff (hpassive : Passive cfg dialog)
    (hforwarded : (handle cfg dialog next header r).1.forwarded = some r') (page : Response) :
    (SameBody r' r ↔ BodyKept cfg dialog r) ∧
      ((handle cfg dialog next header r).1.response page next header).body
        = (direct header (next r')).body := by
  have hheaders := headersVerdict_spec hpassive r
  unfold handle requestVerdict at hforwarded ⊢
  unfold BodyKept
  generalize headersVerdict cfg dialog r [] = heads at hheaders hforwarded ⊢
  obtain ⟨verdict, said⟩ := heads
  cases verdict with
  | failed => cases hforwarded
  | rejected status headers body => cases hforwarded
  | skip r₁ =>
    -- The headers phase has failed, and the body is not looked at.
    obtain rfl := Option.some.inj hforwarded
    obtain ⟨hsame, hfailed⟩ := hheaders _ rfl
    exact ⟨⟨fun _ => .inr (.inl (hfailed.mp rfl)), fun _ => hsame⟩, rfl⟩
  | pass r₁ =>
    obtain ⟨hsame, hanswered⟩ := hheaders _ rfl
    have hanswered := hanswered.not.mp (by simp)
    rw [or_iff_right hanswered, ← hsame.1]
    have hmove : SameBody r' r ↔ SameBody r' r₁ := by
      rw [SameBody, SameBody, hsame.1, hsame.2]
    rw [hmove]
    have hbody := fun q => bodyVerdict_iff hpassive r₁ q said
    simp only at hforwarded ⊢
    generalize bodyVerdict cfg dialog r₁ said = phase at hbody hforwarded ⊢
    obtain ⟨verdict, said⟩ := phase
    cases verdict with
    | failed => cases hforwarded
    | rejected status headers body => cases hforwarded
    | skip r₂ =>
      obtain rfl := Option.some.inj hforwarded
      exact ⟨hbody _ rfl, rfl⟩
    | pass r₂ =>
      obtain rfl := Option.some.inj hforwarded
      exact ⟨hbody _ rfl, relay_body_of_passive hpassive header _ said⟩

end Request

/-- A processor that looks at bodies and has nothing to say. -/
def silent : Dialog := fun _ _ => some .unset

theorem passive_silent (cfg : Settings) : Passive cfg silent := by
  refine .inr fun said msg answer hanswer => ?_
  cases hanswer
  rfl

/-- The body of a request is read up to a limit. -/
def upTo (limit : ℤ) : Settings where
  phases := some { requestHeaders := "skip", responseHeaders := "skip", requestBody := "bufferedPartial",
                   maxBodyBytes := limit }

/-- A request with a body of three bytes. -/
def threeBytes : Request where
  method := "POST"
  body := some ⟨[97, 98, 99], false⟩
  contentLength := 3

/-- A body within the limit passes. -/
theorem sameBody_upTo_three :
    (handle (upTo 3) silent (fun _ => []) (fun _ => []) threeBytes).1.forwarded = some threeBytes ∧
      SameBody threeBytes threeBytes := by
  have hforwarded :
      (handle (upTo 3) silent (fun _ => []) (fun _ => []) threeBytes).1.forwarded = some threeBytes := rfl
  refine ⟨hforwarded, (sameBody_iff (passive_silent _) hforwarded ⟨500, fun _ => [], []⟩).1.mpr ?_⟩
  refine .inr (.inr fun reader hreader => .inl ?_)
  cases hreader
  exact ⟨rfl, fun _ => by decide⟩

/-- A longer one is cut off at the limit, with its length unchanged. -/
theorem cut_upTo_two :
    Passive (upTo 2) silent ∧
      ∃ r', (handle (upTo 2) silent (fun _ => []) (fun _ => []) threeBytes).1.forwarded = some r' ∧
        r'.body = some ⟨[97, 98], false⟩ ∧ r'.contentLength = 3 ∧ ¬ SameBody r' threeBytes := by
  refine ⟨passive_silent _, { threeBytes with body := some ⟨[97, 98], false⟩ }, rfl, rfl, rfl, ?_⟩
  rintro ⟨hbody, _⟩
  revert hbody
  decide

end Vrata.Proxy.ExtProc

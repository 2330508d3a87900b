import Vrata.Proxy.Pipeline.ExtProc

/-!
# What is said to the external processor

Reference: `server/internal/proxy/middlewares/extproc.go`.

`failsClosed_of_unanswered` says for which transactions a processor that fails leads to the error page: a
phase of the request is closed, a phase of the response is not. `protects_of_not_allowed` is the frame of
the rules for mutations.
-/

namespace Vrata.Proxy.ExtProc

open NetHttp

/-! ## The exchange about a body

A body is put to the processor chunk by chunk until an answer is missing, and the last answer is the
answer. A body that is not streamed is one chunk, and so is an empty one. -/

/-- The pieces in which a body is streamed. -/
def pieces : ℕ → List UInt8 → List (List UInt8)
  | fuel + 1, b :: body =>
    (b :: body).take streamChunkSize :: pieces fuel ((b :: body).drop streamChunkSize)
  | _, _ => []

def chunks (mode : BodyMode) (body : List UInt8) : List (List UInt8) :=
  if mode = .streamed ∧ body ≠ [] then pieces body.length body else [body]

/-- The messages about chunks; the last one ends the stream. -/
def marked (build : List UInt8 → Bool → Message) : List (List UInt8) → List Message
  | [] => []
  | chunk :: chunks => build chunk chunks.isEmpty :: marked build chunks

/-- What is said about the messages in turn. -/
def exchanges (dialog : Dialog) : List Exchange → List Message → List Exchange
  | _, [] => []
  | said, msg :: msgs =>
    let e := (msg, dialog said msg)
    e :: if e.2.isSome then exchanges dialog (said ++ [e]) msgs else []

def lastAnswer (es : List Exchange) : Option Answer := es.getLast?.bind Prod.snd

section Body

variable (cfg : Settings) (dialog : Dialog) (hobserve : cfg.observeEnabled = false)

include hobserve in
theorem send_eq (said : List Exchange) (msg : Message) :
    send cfg dialog said msg = ((dialog said msg).map some, said ++ [(msg, dialog said msg)]) := by
  simp [send, hobserve]

theorem exchanges_ne_nil {said : List Exchange} {msgs : List Message} (hmsgs : msgs ≠ []) :
    exchanges dialog said msgs ≠ [] := by
  cases msgs with
  | nil => exact absurd rfl hmsgs
  | cons msg msgs => simp [exchanges]

theorem pieces_ne_nil {fuel : ℕ} {body : List UInt8} (hfuel : body.length ≤ fuel) (hbody : body ≠ []) :
    pieces fuel body ≠ [] := by
  cases body with
  | nil => exact absurd rfl hbody
  | cons b body =>
    cases fuel with
    | zero => simp at hfuel
    | succ fuel => simp [pieces]

theorem chunks_ne_nil (mode : BodyMode) (body : List UInt8) : chunks mode body ≠ [] := by
  unfold chunks
  split
  · next h => exact pieces_ne_nil le_rfl h.2
  · simp

theorem marked_ne_nil (build : List UInt8 → Bool → Message) {chunks : List (List UInt8)}
    (h : chunks ≠ []) : marked build chunks ≠ [] := by
  cases chunks with
  | nil => exact absurd rfl h
  | cons chunk chunks => simp [marked]

/-- The chunk that is cut off is not empty. -/
theorem length_drop_chunk (b : UInt8) (body : List UInt8) :
    ((b :: body).drop streamChunkSize).length ≤ body.length := by
  have hpos : 1 ≤ streamChunkSize := by decide
  simp only [List.length_drop, List.length_cons]
  omega

theorem lastAnswer_cons {e : Exchange} {es : List Exchange} (hes : es ≠ []) :
    lastAnswer (e :: es) = lastAnswer es := by
  simp [lastAnswer, List.getLast?_cons, List.getLast?_eq_some_getLast hes]

include hobserve in
theorem chunkLoop_eq (build : List UInt8 → Bool → Message) (fuel : ℕ) (body : List UInt8)
    (last : Option Answer) (said : List Exchange) (hfuel : body.length ≤ fuel) (hbody : body ≠ []) :
    chunkLoop cfg dialog build fuel body last said
      = ((lastAnswer (exchanges dialog said (marked build (pieces fuel body)))).map some,
          said ++ exchanges dialog said (marked build (pieces fuel body))) := by
  induction fuel generalizing body last said with
  | zero => exact absurd (List.length_eq_zero_iff.mp (Nat.le_zero.mp hfuel)) hbody
  | succ fuel ih =>
    cases body with
    | nil => exact absurd rfl hbody
    | cons b body =>
      have hrest := (length_drop_chunk b body).trans (Nat.le_of_succ_le_succ hfuel)
      simp only [chunkLoop, send_eq cfg dialog hobserve, pieces, marked, exchanges]
      generalize hchunk : (b :: body).take streamChunkSize = chunk
      generalize (b :: body).drop streamChunkSize = rest at hrest
      have hlast : (pieces fuel rest).isEmpty = rest.isEmpty := by
        cases rest with
        | nil => cases fuel <;> rfl
        | cons b rest =>
          rw [List.isEmpty_eq_false_iff.mpr (pieces_ne_nil hrest (List.cons_ne_nil _ _))]
          rfl
      rw [hlast]
      cases hanswer : dialog said (build chunk rest.isEmpty) with
      | none => simp [lastAnswer]
      | some answer =>
        simp only [Option.map_some, Option.isSome_some, if_true]
        cases rest with
        | nil =>
          have hnone : pieces fuel [] = [] := by cases fuel <;> rfl
          have hend : ∀ said, chunkLoop cfg dialog build fuel [] (some answer) said
              = (some (some answer), said) := by
            intro said
            cases fuel <;> rfl
          simp [hnone, hend, marked, exchanges, lastAnswer]
        | cons b rest =>
          have hne : exchanges dialog (said ++ [(build chunk (b :: rest).isEmpty, some answer)])
              (marked build (pieces fuel (b :: rest))) ≠ [] :=
            exchanges_ne_nil dialog (marked_ne_nil build (pieces_ne_nil hrest (List.cons_ne_nil _ _)))
          rw [ih _ _ _ hrest (List.cons_ne_nil _ _), lastAnswer_cons hne, List.append_assoc]
          rfl

include hobserve in
theorem sendBody_eq (mode : BodyMode) (body : List UInt8) (build : List UInt8 → Bool → Message)
    (said : List Exchange) :
    sendBody cfg dialog mode body build said
      = ((lastAnswer (exchanges dialog said (marked build (chunks mode body)))).map some,
          said ++ exchanges dialog said (marked build (chunks mode body))) := by
  have hwhole : ∀ body, send cfg dialog said (build body true)
      = ((lastAnswer (exchanges dialog said (marked build [body]))).map some,
          said ++ exchanges dialog said (marked build [body])) := by
    intro body
    rw [send_eq cfg dialog hobserve]
    simp [marked, exchanges, lastAnswer]
  cases mode with
  | streamed =>
    cases body with
    | nil => exact hwhole []
    | cons b body =>
      have hchunks : chunks .streamed (b :: body) = pieces (b :: body).length (b :: body) := by simp [chunks]
      rw [hchunks]
      exact chunkLoop_eq cfg dialog hobserve build _ _ none said le_rfl (List.cons_ne_nil _ _)
  | none => exact hwhole body
  | buffered => exact hwhole body
  | bufferedPartial => exact hwhole body

/-- An answer that is missing is the last one. -/
theorem lastAnswer_eq_none {said : List Exchange} {msgs : List Message} (hmsgs : msgs ≠ []) :
    lastAnswer (exchanges dialog said msgs) = none ↔ ∃ e ∈ exchanges dialog said msgs, e.2 = none := by
  induction msgs generalizing said with
  | nil => exact absurd rfl hmsgs
  | cons msg msgs ih =>
    simp only [exchanges]
    cases hanswer : dialog said msg with
    | none => simp [lastAnswer]
    | some answer =>
      cases msgs with
      | nil => simp [exchanges, lastAnswer]
      | cons msg' msgs =>
        have hne : exchanges dialog (said ++ [(msg, some answer)]) (msg' :: msgs) ≠ [] :=
          exchanges_ne_nil dialog (List.cons_ne_nil _ _)
        simp [lastAnswer_cons hne, ih (List.cons_ne_nil _ _)]

theorem mem_of_mem_exchanges {said : List Exchange} {msgs : List Message} {e : Exchange}
    (he : e ∈ exchanges dialog said msgs) : e.1 ∈ msgs := by
  induction msgs generalizing said with
  | nil => simp [exchanges] at he
  | cons msg msgs ih =>
    simp only [exchanges] at he
    rcases List.mem_cons.mp he with rfl | he
    · exact List.mem_cons_self
    · split at he
      · exact List.mem_cons_of_mem _ (ih he)
      · cases he

theorem mem_marked {build : List UInt8 → Bool → Message} {chunks : List (List UInt8)} {msg : Message}
    (hmsg : msg ∈ marked build chunks) : ∃ chunk ∈ chunks, ∃ eos, msg = build chunk eos := by
  induction chunks with
  | nil => cases hmsg
  | cons chunk chunks ih =>
    rcases List.mem_cons.mp hmsg with rfl | hmsg
    · exact ⟨chunk, List.mem_cons_self, _, rfl⟩
    · obtain ⟨chunk', hmem, eos, rfl⟩ := ih hmsg
      exact ⟨chunk', List.mem_cons_of_mem _ hmem, eos, rfl⟩

end Body

/-! ## Failures -/

def Message.ofRequest : Message → Bool
  | .requestHeaders .. => true
  | .requestBody .. => true
  | _ => false

/-- The answer has an action for the phase of the message. A rejection answers every message. -/
def Answer.fits : Answer → Message → Bool
  | .requestHeaders _, .requestHeaders .. => true
  | .requestBody _, .requestBody .. => true
  | .responseHeaders _, .responseHeaders .. => true
  | .responseBody _, .responseBody .. => true
  | .reject .., _ => true
  | _, _ => false

/-- There is no answer, or one that is not for the message. -/
def Exchange.failed (e : Exchange) : Bool := !e.2.any fun answer => answer.fits e.1

/-- For every failure the client receives `statusOnError`, on a page with nothing of the handler's, and
what a message of the request was about goes nowhere. -/
def FailsClosed (statusText : ℕ → String) (cfg : Settings) (next : Request → List Call) (header : Header)
    (ending : Outcome × List Exchange) : Prop :=
  ∀ e ∈ ending.2, Exchange.failed e = true →
    ending.1.response (errorPage statusText cfg header) next header = errorPage statusText cfg header ∧
      (errorPage statusText cfg header).onWire.map Response.status = some cfg.errorStatus ∧
      (e.1.ofRequest = true → ending.1.forwarded = none)

/-- The body of the request is needed and cannot be read. -/
def Unreadable (cfg : Settings) (r : Request) : Prop :=
  cfg.requestBody ≠ .none ∧ ∃ reader, r.body = some reader ∧ readBody cfg reader cfg.requestBody = none

section Failures

variable (cfg : Settings) (dialog : Dialog) (hobserve : cfg.observeEnabled = false)
  (hallow : cfg.allowOnError = false)

/-- What a phase of the request adds to the record, and when it fails. -/
structure PhaseFails (said : List Exchange) (phase : Verdict × List Exchange) (unreadable : Prop)
    (es : List Exchange) : Prop where
  said_eq : phase.2 = said ++ es
  ofRequest : ∀ e ∈ es, e.1.ofRequest = true
  failed_iff : phase.1 = .failed ↔ unreadable ∨ ∃ e ∈ es, e.2 = none
  not_skip : ∀ r, phase.1 ≠ .skip r

include hallow in
theorem verdict_eq_failed (r : Request) (apply : Answer → Request) (answer : Option (Option Answer)) :
    (verdict cfg r apply answer = .failed ↔ answer = none) ∧
      ∀ r', verdict cfg r apply answer ≠ .skip r' := by
  unfold verdict
  split
  · simp [hallow]
  · simp
  · split <;> simp
  · simp

include hobserve hallow in
theorem headersVerdict_fails (r : Request) (said : List Exchange) :
    ∃ es, PhaseFails said (headersVerdict cfg dialog r said) False es := by
  unfold headersVerdict
  split
  · rw [send_eq cfg dialog hobserve]
    refine ⟨_, rfl, by simp [requestHeadersMessage, Message.ofRequest], ?_,
      (verdict_eq_failed cfg hallow r _ _).2⟩
    simp [(verdict_eq_failed cfg hallow r _ _).1]
  · exact ⟨[], by simp, by simp, by simp, by simp⟩

include hobserve hallow in
theorem bodyVerdict_fails (r : Request) (said : List Exchange) :
    ∃ es, PhaseFails said (bodyVerdict cfg dialog r said) (Unreadable cfg r) es := by
  unfold bodyVerdict Unreadable
  split
  · next hmode => exact ⟨[], by simp, by simp, by simp [hmode], by simp⟩
  · next hmode =>
    simp only [processRequestBody]
    cases hbody : r.body with
    | none =>
      exact ⟨[], by simp, by simp, by simp [verdict], by simp [verdict]⟩
    | some reader =>
      cases hread : readBody cfg reader cfg.requestBody with
      | none =>
        exact ⟨[], by simp [hread], by simp, by simp [hread, hmode, (verdict_eq_failed cfg hallow _ _ _).1],
          (verdict_eq_failed cfg hallow _ _ _).2⟩
      | some body =>
        have hmsgs := marked_ne_nil .requestBody (chunks_ne_nil cfg.requestBody body)
        refine ⟨exchanges dialog said (marked .requestBody (chunks cfg.requestBody body)), ?_, ?_, ?_,
          (verdict_eq_failed cfg hallow _ _ _).2⟩
        · simp [hread, sendBody_eq cfg dialog hobserve]
        · intro e he
          obtain ⟨_, _, _, hmsg⟩ := mem_marked (mem_of_mem_exchanges dialog he)
          rw [hmsg]
          rfl
        · simp [hread, sendBody_eq cfg dialog hobserve, lastAnswer_eq_none dialog hmsgs,
            (verdict_eq_failed cfg hallow _ _ _).1]

include hobserve hallow in
theorem requestVerdict_fails (r : Request) :
    ∃ es, PhaseFails [] (requestVerdict cfg dialog r)
      (∃ r', (headersVerdict cfg dialog r []).1 = .pass r' ∧ Unreadable cfg r') es := by
  obtain ⟨es, hes⟩ := headersVerdict_fails cfg dialog hobserve hallow r []
  unfold requestVerdict
  generalize headersVerdict cfg dialog r [] = phase at hes ⊢
  obtain ⟨verdict, said⟩ := phase
  cases verdict with
  | pass r' =>
    obtain ⟨es', hes'⟩ := bodyVerdict_fails cfg dialog hobserve hallow r' said
    have hall := hes.failed_iff.not.mp (by simp)
    refine ⟨es ++ es', ?_, ?_, ?_, hes'.not_skip⟩
    · rw [← List.append_assoc, ← hes.said_eq]
      exact hes'.said_eq
    · intro e he
      exact (List.mem_append.mp he).elim (hes.ofRequest e) (hes'.ofRequest e)
    · rw [hes'.failed_iff]
      constructor
      · rintro (hread | ⟨e, he, hnone⟩)
        · exact .inl ⟨r', rfl, hread⟩
        · exact .inr ⟨e, List.mem_append_right _ he, hnone⟩
      · rintro (⟨_, heq, hread⟩ | ⟨e, he, hnone⟩)
        · cases heq
          exact .inl hread
        · exact .inr ⟨e, (List.mem_append.mp he).resolve_left fun he => hall (.inr ⟨e, he, hnone⟩), hnone⟩
  | skip r' => exact absurd rfl (hes.not_skip r')
  | failed => exact ⟨es, hes.said_eq, hes.ofRequest, by simpa using hes.failed_iff, by simp⟩
  | rejected status headers body =>
    exact ⟨es, hes.said_eq, hes.ofRequest, by simpa using hes.failed_iff, by simp⟩

include hobserve in
/-- The phases of the response say nothing about the request. -/
theorem relay_said (header : Header) (calls : List Call) (said : List Exchange) :
    ∃ es, (relay cfg dialog header calls said).2.2 = said ++ es ∧ ∀ e ∈ es, e.1.ofRequest = false := by
  have hheads : ∀ s, ∃ es, (processResponseHeaders cfg dialog s said).2 = said ++ es ∧
      ∀ e ∈ es, e.1.ofRequest = false := by
    intro s
    unfold processResponseHeaders
    split
    · exact ⟨_, by rw [send_eq cfg dialog hobserve], by simp [Message.ofRequest]⟩
    · exact ⟨[], by simp, by simp⟩
  have hbody : ∀ s said, ∃ es, (processResponseBody cfg dialog s said).2 = said ++ es ∧
      ∀ e ∈ es, e.1.ofRequest = false := by
    intro s said
    unfold processResponseBody
    split
    · refine ⟨_, by rw [sendBody_eq cfg dialog hobserve], ?_⟩
      intro e he
      obtain ⟨_, _, _, hmsg⟩ := mem_marked (mem_of_mem_exchanges dialog he)
      rw [hmsg]
      rfl
    · exact ⟨[], by simp, by simp⟩
  obtain ⟨es, hes, hresp⟩ := hheads (captured cfg header calls)
  obtain ⟨es', hes', hresp'⟩ := hbody (captured cfg header calls) (said ++ es)
  refine ⟨es ++ es', ?_, ?_⟩
  · simp only [relay, bodyTalk, hes, hes', List.append_assoc]
  · intro e he
    rcases List.mem_append.mp he with he | he
    · exact hresp e he
    · exact hresp' e he

include hobserve hallow in
/-- The error page is for a message of the request that is not answered, and for a body that cannot be
read. -/
theorem handle_failed_iff (next : Request → List Call) (header : Header) (r : Request) :
    (handle cfg dialog next header r).1 = .failed ↔
      (∃ e ∈ (handle cfg dialog next header r).2, e.1.ofRequest = true ∧ e.2 = none) ∨
        ∃ r', (headersVerdict cfg dialog r []).1 = .pass r' ∧ Unreadable cfg r' := by
  obtain ⟨es, hes⟩ := requestVerdict_fails cfg dialog hobserve hallow r
  unfold handle
  generalize requestVerdict cfg dialog r = phases at hes ⊢
  obtain ⟨verdict, said⟩ := phases
  obtain rfl : said = es := hes.said_eq
  cases verdict with
  | skip r' => exact absurd rfl (hes.not_skip r')
  | failed =>
    refine iff_of_true rfl ?_
    rcases hes.failed_iff.mp rfl with hread | ⟨e, he, hnone⟩
    · exact .inr hread
    · exact .inl ⟨e, he, hes.ofRequest e he, hnone⟩
  | rejected status headers body =>
    have hall := not_or.mp (hes.failed_iff.not.mp (by simp))
    refine iff_of_false (by simp) (not_or.mpr ⟨?_, hall.1⟩)
    rintro ⟨e, he, -, hnone⟩
    exact hall.2 ⟨e, he, hnone⟩
  | pass r' =>
    have hall := not_or.mp (hes.failed_iff.not.mp (by simp))
    obtain ⟨es', hes', hresp⟩ := relay_said cfg dialog hobserve header (next r') said
    refine iff_of_false (by simp) (not_or.mpr ⟨?_, hall.1⟩)
    rintro ⟨e, he, hreq, hnone⟩
    rw [hes'] at he
    rcases List.mem_append.mp he with he | he
    · exact hall.2 ⟨e, he, hnone⟩
    · rw [hresp e he] at hreq
      cases hreq

/-- The error page has the configured status, if that is one that a response can end with. -/
theorem errorPage_onWire (statusText : ℕ → String) (header : Header)
    (hstatus : isStatus cfg.errorStatus = true) (hfinal : isFinal cfg.errorStatus = true) :
    (errorPage statusText cfg header).onWire.map Response.status = some cfg.errorStatus := by
  have hpage : (errorPage statusText cfg header).status = cfg.errorStatus := by
    rw [errorPage, status_httpError, finalStatus, if_pos hfinal]
  simp [Response.onWire, hpage, hstatus]

include hobserve hallow in
/-- Failures are closed where a message of the request goes unanswered, or its body cannot be read, and the
configured status is one that a response can end with. A failure of a response phase is passed over, and so
is an answer that is not for the message. -/
theorem failsClosed_of_unanswered (statusText : ℕ → String) (hstatus : isStatus cfg.errorStatus = true)
    (hfinal : isFinal cfg.errorStatus = true) (next : Request → List Call) (header : Header) (r : Request)
    (hunanswered : ∀ e ∈ (handle cfg dialog next header r).2, Exchange.failed e = true →
      (∃ e' ∈ (handle cfg dialog next header r).2, e'.1.ofRequest = true ∧ e'.2 = none) ∨
        ∃ r', (headersVerdict cfg dialog r []).1 = .pass r' ∧ Unreadable cfg r') :
    FailsClosed statusText cfg next header (handle cfg dialog next header r) := by
  intro e he hfailed
  have hpage := (handle_failed_iff cfg dialog hobserve hallow next header r).mpr (hunanswered e he hfailed)
  rw [hpage]
  exact ⟨rfl, errorPage_onWire cfg statusText header hstatus hfinal, fun _ => rfl⟩

end Failures

/-- A handler that sends one byte. -/
def oneByte : Request → List Call := fun _ => [.writeHeader 200, .write [120]]

/-- With the default phases, a processor that cannot be reached is asked about the request first. -/
theorem failsClosed_unreachable :
    FailsClosed (fun _ => "") {} oneByte (fun _ => [])
      (handle {} (fun _ _ => none) oneByte (fun _ => []) {}) := by
  have hsaid : (handle {} (fun _ _ => none) oneByte (fun _ => []) {}).2
      = [(requestHeadersMessage {} {}, none)] := rfl
  refine failsClosed_of_unanswered {} _ rfl rfl _ rfl rfl oneByte _ _ fun _ _ _ => .inl ?_
  rw [hsaid]
  exact ⟨_, List.mem_cons_self, rfl, rfl⟩

/-- Only the headers of responses are sent. -/
def responseOnly : Settings where
  phases := some { requestHeaders := "skip" }

/-- A processor that cannot be reached does not keep a response from the client. -/
theorem not_failsClosed_responseOnly :
    ¬ FailsClosed (fun _ => "") responseOnly oneByte (fun _ => [])
      (handle responseOnly (fun _ _ => none) oneByte (fun _ => []) {}) := by
  intro hclosed
  have hpage := (hclosed _ (.head _) rfl).1
  exact absurd (congrArg Response.status hpage) (by decide)

/-! ## Headers that may not be mutated -/

theorem foldl_hook_header (cfg : Settings) (calls : List Call) (s : Capture) :
    (calls.foldl (hook cfg) s).w.header = headerAfter s.w.header calls := by
  induction calls generalizing s with
  | nil => rfl
  | cons call calls ih =>
    rw [List.foldl_cons, ih]
    cases call with
    | setHeader key values => rfl
    | writeHeader code =>
      simp only [hook, headerAfter, Writer.writeHeader]
      split
      · rfl
      · split <;> rfl
    | write body =>
      simp only [hook, headerAfter, Writer.write, Writer.writeHeader]
      repeat' split
      all_goals rfl

section Protected

variable {rules : Option Server.HeaderRules} {name : String}

theorem canonicalKey_ne_of_allowedBy {other : String} (hname : allowedBy rules name = false)
    (hother : allowedBy rules other = true) : canonicalKey name ≠ canonicalKey other := by
  intro heq
  have hfold : Text.fold name = Text.fold other := by
    rw [← fold_canonicalKey name, heq, fold_canonicalKey]
  simp only [allowedBy, hfold] at hname hother
  exact absurd (hname.symm.trans hother) Bool.false_ne_true

theorem foldl_header {α : Type} {f : Header → α → Header} {key : String} (xs : List α)
    (hf : ∀ h, ∀ x ∈ xs, f h x key = h key) (h : Header) : xs.foldl f h key = h key := by
  induction xs generalizing h with
  | nil => rfl
  | cons x xs ih =>
    rw [List.foldl_cons, ih (fun h y hy => hf h y (List.mem_cons_of_mem _ hy)), hf h x List.mem_cons_self]

/-- The rules are the frame of a headers action. -/
theorem applyHeadersAction_of_not_allowed (hname : allowedBy rules name = false) (remove : List String)
    (set : List (String × String)) (h : Header) :
    applyHeadersAction rules remove set h (canonicalKey name) = h (canonicalKey name) := by
  unfold applyHeadersAction
  rw [foldl_header, foldl_header]
  · intro h other _
    by_cases hother : allowedBy rules other = true
    · simp [hother, Header.del, canonicalKey_ne_of_allowedBy hname hother]
    · simp [hother]
  · intro h p _
    by_cases hother : allowedBy rules p.1 = true
    · simp [hother, Header.set, canonicalKey_ne_of_allowedBy hname hother]
    · simp [hother]

/-- The request that a verdict hands on has the values of a header unchanged. -/
def Verdict.Keeps (key : String) (values : List String) : Verdict → Prop
  | .pass r => r.header key = values
  | .skip r => r.header key = values
  | _ => True

/-- The values of a header are what they were: in the request that is forwarded, and in the header map
of the response, which is then as the handler left it. A rejection is a response of the processor's
own; it changes the map by its headers only. -/
def Outcome.Protects (next : Request → List Call) (header : Header) (r : Request) (key : String) :
    Outcome → Prop
  | .failed => True
  | .rejected status headers body => (∀ p ∈ headers, canonicalKey p.1 ≠ key) →
      (writeReject header status headers body).header key = header key
  | .skipped r' => r'.header key = r.header key
  | .relayed r' _ header' => r'.header key = r.header key ∧ header' key = headerAfter header (next r') key

variable (cfg : Settings) (dialog : Dialog)

theorem keeps_verdict {key : String} {r : Request} {apply : Answer → Request}
    (happly : ∀ answer, (apply answer).header key = r.header key) (answer : Option (Option Answer)) :
    (verdict cfg r apply answer).Keeps key (r.header key) := by
  unfold verdict
  split
  · split
    · rfl
    · trivial
  · rfl
  · split
    · rfl
    · trivial
  · exact happly _

variable (hname : allowedBy cfg.allowedMutations name = false)

include hname

theorem keeps_headersVerdict (r : Request) (said : List Exchange) :
    (headersVerdict cfg dialog r said).1.Keeps (canonicalKey name) (r.header (canonicalKey name)) := by
  unfold headersVerdict
  split
  · refine keeps_verdict cfg (fun answer => ?_) _
    unfold applyRequestHeaders
    split
    · rfl
    · split <;> exact applyHeadersAction_of_not_allowed hname _ _ _
  · rfl

theorem keeps_bodyVerdict (r : Request) (said : List Exchange) :
    (bodyVerdict cfg dialog r said).1.Keeps (canonicalKey name) (r.header (canonicalKey name)) := by
  unfold bodyVerdict
  split
  · rfl
  · have hread : (processRequestBody cfg dialog r said).1.header = r.header := by
      unfold processRequestBody
      split
      · rfl
      · split <;> rfl
    rw [← hread]
    refine keeps_verdict cfg (fun answer => ?_) _
    unfold applyRequestBody
    split
    · rfl
    · unfold applyBodyAction
      simp only
      split <;> exact applyHeadersAction_of_not_allowed hname _ _ _

theorem keeps_requestVerdict (r : Request) :
    (requestVerdict cfg dialog r).1.Keeps (canonicalKey name) (r.header (canonicalKey name)) := by
  have hheads := keeps_headersVerdict cfg dialog hname r []
  unfold requestVerdict
  generalize headersVerdict cfg dialog r [] = phase at hheads ⊢
  obtain ⟨verdict, said⟩ := phase
  cases verdict with
  | pass r' =>
    have heq : r'.header (canonicalKey name) = r.header (canonicalKey name) := hheads
    rw [← heq]
    exact keeps_bodyVerdict cfg dialog hname r' said
  | skip r' => exact hheads
  | failed => trivial
  | rejected status headers body => trivial

/-- What the rules do not allow to be mutated is left alone, whatever the processor answers. -/
theorem protects_of_not_allowed (next : Request → List Call) (header : Header) (r : Request) :
    (handle cfg dialog next header r).1.Protects next header r (canonicalKey name) := by
  have hkeeps := keeps_requestVerdict cfg dialog hname r
  unfold handle
  generalize requestVerdict cfg dialog r = phases at hkeeps ⊢
  obtain ⟨verdict, said⟩ := phases
  cases verdict with
  | failed => trivial
  | skip r' => exact hkeeps
  | rejected status headers body =>
    intro hother
    have hset : (headers.foldl (fun h p => h.set p.1 p.2) header) (canonicalKey name)
        = header (canonicalKey name) :=
      foldl_header headers (fun h p hp => Function.update_of_ne (hother p hp).symm _ _) header
    rw [← hset]
    cases body with
    | none => simp only [writeReject, Writer.finish_held]
    | some body => simp only [writeReject, Writer.write_held, Writer.finish, Option.getD_some]
  | pass r' =>
    refine ⟨hkeeps, ?_⟩
    simp only [relay, captured, foldl_hook_header]
    generalize headersAsked cfg dialog header (next r') said = action
    cases action with
    | none => rfl
    | some action => exact applyHeadersAction_of_not_allowed hname _ _ _

end Protected

/-- A processor that may not touch cookies and tries to, under another spelling. -/
def denyCookie : Settings where
  allowedMutations := some { denyHeaders := ["Cookie"] }

theorem protects_denyCookie :
    allowedBy denyCookie.allowedMutations "cookie" = false ∧
      (handle denyCookie (fun _ _ => some (.requestHeaders { setHeaders := [("COOKIE", "x")] })) oneByte
        (fun _ => []) {}).1.Protects oneByte (fun _ => []) {} (canonicalKey "cookie") :=
  ⟨by decide, protects_of_not_allowed denyCookie _ (by decide) oneByte _ _⟩

end Vrata.Proxy.ExtProc

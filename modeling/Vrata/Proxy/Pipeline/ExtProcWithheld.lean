import Vrata.Proxy.Pipeline.ExtProcDialog

/-!
# Headers that the external processor does not get to see

Reference: `server/internal/proxy/middlewares/extproc.go` (`shouldForward`, `headersToProto`).

The rules for forwarding decide which headers a message carries. A header that is withheld has no
influence on what the processor is told, in any phase: two transactions that are the same but for that
header say the same (`said_congr`). What the processor answers to the same messages is the same, and
changes the headers of both in the same way.
-/

namespace Vrata.Proxy.ExtProc

open NetHttp

/-- The messages of a transaction. -/
def messages (cfg : Settings) (dialog : Dialog) (next : Request → List Call) (header : Header)
    (r : Request) : List Message :=
  (handle cfg dialog next header r).2.map Prod.fst

section Agreement

variable (key : String)

/-- The headers are the same but for one. -/
def SameBut (h h' : Header) : Prop := ∀ other ≠ key, h other = h' other

def Request.SameBut (r r' : Request) : Prop :=
  ∃ header, r' = { r with header := header } ∧ ExtProc.SameBut key r.header header

/-- The calls of a handler that do not set the header. -/
def callsBut (calls : List Call) : List Call :=
  calls.filter fun
    | .setHeader other _ => other ≠ key
    | _ => true

def Verdict.SameBut : Verdict → Verdict → Prop
  | .pass r, .pass r' => r.SameBut key r'
  | .skip r, .skip r' => r.SameBut key r'
  | .rejected .., .rejected .. => True
  | .failed, .failed => True
  | _, _ => False

/-- Two phases end alike and have said the same. -/
def PhasesAgree (phase phase' : Verdict × List Exchange) : Prop :=
  phase.1.SameBut key phase'.1 ∧ phase.2 = phase'.2

variable {key} {h h' : Header}

/-- A header that is withheld does not show in a message. -/
theorem headersToProto_congr {cfg : Settings} (hkey : allowedBy cfg.forwardRules key = false)
    (hsame : SameBut key h h') : headersToProto cfg h = headersToProto cfg h' := by
  funext other
  unfold headersToProto
  by_cases heq : other = key
  · simp [heq, hkey]
  · rw [hsame other heq]

theorem SameBut.update (hsame : SameBut key h h') (name : String) (values : List String) :
    SameBut key (Function.update h name values) (Function.update h' name values) := by
  intro other hother
  by_cases heq : other = name
  · simp [heq]
  · simp [heq, hsame other hother]

theorem SameBut.foldl {α : Type} {f : Header → α → Header}
    (hf : ∀ h h' x, SameBut key h h' → SameBut key (f h x) (f h' x)) (xs : List α)
    (hsame : SameBut key h h') : SameBut key (xs.foldl f h) (xs.foldl f h') := by
  induction xs generalizing h h' with
  | nil => exact hsame
  | cons x xs ih => exact ih (hf h h' x hsame)

theorem SameBut.applyHeadersAction (hsame : SameBut key h h')
    (rules : Option Server.HeaderRules) (remove : List String) (set : List (String × String)) :
    SameBut key (applyHeadersAction rules remove set h) (applyHeadersAction rules remove set h') := by
  refine SameBut.foldl (fun h h' p hsame => ?_) set
    (SameBut.foldl (fun h h' name hsame => ?_) remove hsame)
  · split
    · exact hsame.update _ _
    · exact hsame
  · split
    · exact hsame.update _ _
    · exact hsame

theorem SameBut.headerAfter (hsame : SameBut key h h') (calls : List Call) :
    SameBut key (headerAfter h calls) (headerAfter h' (callsBut key calls)) := by
  induction calls generalizing h h' with
  | nil => exact hsame
  | cons call calls ih =>
    cases call with
    | setHeader name values =>
      by_cases hname : name = key
      · -- The call that is left out changes the header.
        have hskip : SameBut key (Function.update h name values) h' := by
          intro other hother
          rw [hname, Function.update_of_ne hother, hsame other hother]
        simpa [callsBut, hname, NetHttp.headerAfter] using ih hskip
      · simpa [callsBut, hname, NetHttp.headerAfter] using ih (hsame.update name values)
    | writeHeader code => simpa [callsBut, NetHttp.headerAfter] using ih hsame
    | write body => simpa [callsBut, NetHttp.headerAfter] using ih hsame

theorem lastStatus_callsBut (key : String) (calls : List Call) (status : ℕ) :
    lastStatus status (callsBut key calls) = lastStatus status calls := by
  induction calls generalizing status with
  | nil => rfl
  | cons call calls ih =>
    cases call with
    | setHeader name values =>
      by_cases hname : name = key <;> simpa [callsBut, hname, lastStatus] using ih status
    | writeHeader code => simpa [callsBut, lastStatus] using ih code
    | write body => simpa [callsBut, lastStatus] using ih status

theorem written_callsBut (key : String) (calls : List Call) :
    written (callsBut key calls) = written calls := by
  induction calls with
  | nil => rfl
  | cons call calls ih =>
    cases call with
    | setHeader name values =>
      by_cases hname : name = key <;> simpa [callsBut, hname, written] using ih
    | writeHeader code => simpa [callsBut, written] using ih
    | write body => simpa [callsBut, written] using ih

/-- What the hooked writer has captured, in every configuration. -/
theorem foldl_hook_captured (cfg : Settings) (calls : List Call) (s : Capture) :
    (calls.foldl (hook cfg) s).capturedStatus = lastStatus s.capturedStatus calls ∧
      (calls.foldl (hook cfg) s).capturedBody
        = s.capturedBody ++ if captureBody cfg then written calls else [] := by
  induction calls generalizing s with
  | nil => simp [lastStatus, written]
  | cons call calls ih =>
    rw [List.foldl_cons, (ih _).1, (ih _).2]
    cases call with
    | setHeader key values => exact ⟨rfl, rfl⟩
    | writeHeader code =>
      simp only [hook, lastStatus, written]
      split <;> exact ⟨rfl, rfl⟩
    | write body =>
      cases hbody : captureBody cfg with
      | true => simp [hook, hbody, lastStatus, written]
      | false => simp [hook, hbody, lastStatus]

end Agreement

section Said

variable (cfg : Settings) (dialog : Dialog) {key : String} {r r' : Request}
  (hkey : allowedBy cfg.forwardRules key = false)

include hkey in
theorem requestHeadersMessage_congr (hr : r.SameBut key r') :
    requestHeadersMessage cfg r = requestHeadersMessage cfg r' := by
  obtain ⟨header, rfl, hsame⟩ := hr
  simp only [requestHeadersMessage, headersToProto_congr hkey hsame]

theorem verdict_agrees {apply apply' : Answer → Request} (hr : r.SameBut key r')
    (happly : ∀ answer, (apply answer).SameBut key (apply' answer)) (answer : Option (Option Answer)) :
    (verdict cfg r apply answer).SameBut key (verdict cfg r' apply' answer) := by
  unfold verdict
  split
  · split
    · exact hr
    · trivial
  · exact hr
  · split
    · exact hr
    · trivial
  · exact happly _

theorem applyRequestHeaders_agrees (hr : r.SameBut key r') (answer : Answer) :
    (applyRequestHeaders cfg r answer).SameBut key (applyRequestHeaders cfg r' answer) := by
  obtain ⟨header, rfl, hsame⟩ := hr
  unfold applyRequestHeaders
  cases answer.getRequestHeaders with
  | none => exact ⟨header, rfl, hsame⟩
  | some action =>
    have hmutated := hsame.applyHeadersAction cfg.allowedMutations action.removeHeaders action.setHeaders
    simp only
    split <;> exact ⟨_, rfl, hmutated⟩

theorem applyRequestBody_agrees (hr : r.SameBut key r') (answer : Answer) :
    (applyRequestBody cfg r answer).SameBut key (applyRequestBody cfg r' answer) := by
  obtain ⟨header, rfl, hsame⟩ := hr
  unfold applyRequestBody
  cases answer.getRequestBody with
  | none => exact ⟨header, rfl, hsame⟩
  | some action =>
    have hmutated := hsame.applyHeadersAction cfg.allowedMutations action.removeHeaders action.setHeaders
    simp only [applyBodyAction]
    split <;> exact ⟨_, rfl, hmutated⟩

include hkey in
theorem headersVerdict_agrees (hr : r.SameBut key r') (said : List Exchange) :
    PhasesAgree key (headersVerdict cfg dialog r said) (headersVerdict cfg dialog r' said) := by
  unfold headersVerdict
  split
  · rw [requestHeadersMessage_congr cfg hkey hr]
    exact ⟨verdict_agrees cfg hr (applyRequestHeaders_agrees cfg hr) _, rfl⟩
  · exact ⟨hr, rfl⟩

theorem bodyVerdict_agrees (hr : r.SameBut key r') (said : List Exchange) :
    PhasesAgree key (bodyVerdict cfg dialog r said) (bodyVerdict cfg dialog r' said) := by
  unfold bodyVerdict
  split
  · exact ⟨hr, rfl⟩
  · have hread :
        (processRequestBody cfg dialog r said).1.SameBut key (processRequestBody cfg dialog r' said).1 ∧
        (processRequestBody cfg dialog r said).2 = (processRequestBody cfg dialog r' said).2 := by
      obtain ⟨header, rfl, hsame⟩ := hr
      unfold processRequestBody
      cases hbody : r.body with
      | none => exact ⟨⟨header, by simp [hbody], hsame⟩, by simp⟩
      | some reader =>
        cases hread : readBody cfg reader cfg.requestBody with
        | none => simpa [hread] using ⟨header, rfl, hsame⟩
        | some body => simpa [hread] using ⟨header, rfl, hsame⟩
    simp only [hread.2]
    exact ⟨verdict_agrees cfg hread.1 (applyRequestBody_agrees cfg hread.1) _, rfl⟩

include hkey in
theorem requestVerdict_agrees (hr : r.SameBut key r') :
    PhasesAgree key (requestVerdict cfg dialog r) (requestVerdict cfg dialog r') := by
  have hheads := headersVerdict_agrees cfg dialog hkey hr []
  unfold requestVerdict
  generalize headersVerdict cfg dialog r [] = phase at hheads ⊢
  generalize headersVerdict cfg dialog r' [] = phase' at hheads ⊢
  obtain ⟨verdict, said⟩ := phase
  obtain ⟨verdict', said'⟩ := phase'
  obtain ⟨hverdict, rfl : said = said'⟩ := hheads
  cases verdict <;> cases verdict' <;> first | exact hverdict.elim | skip
  · exact bodyVerdict_agrees cfg dialog hverdict said
  · exact ⟨hverdict, rfl⟩
  · exact ⟨hverdict, rfl⟩
  · exact ⟨hverdict, rfl⟩

include hkey in
/-- Handlers whose calls agree let the response phases say the same. -/
theorem relay_said_congr {header header' : Header} {calls calls' : List Call}
    (hheader : SameBut key header header')
    (hcalls : callsBut key calls = callsBut key calls') (said : List Exchange) :
    (relay cfg dialog header calls said).2.2 = (relay cfg dialog header' calls' said).2.2 := by
  have hmap :
      headersToProto cfg (headerAfter header calls) = headersToProto cfg (headerAfter header' calls') := by
    have h := headersToProto_congr hkey (hheader.headerAfter calls)
    have hrefl : SameBut key header' header' := fun _ _ => rfl
    have h' := headersToProto_congr hkey (hrefl.headerAfter calls')
    rw [h, hcalls]
    exact h'.symm
  have hstatus : lastStatus 200 calls = lastStatus 200 calls' := by
    rw [← lastStatus_callsBut key calls, hcalls, lastStatus_callsBut]
  have hbody : written calls = written calls' := by
    rw [← written_callsBut key calls, hcalls, written_callsBut]
  simp only [relay, bodyTalk, captured, processResponseHeaders, processResponseBody, foldl_hook_header,
    foldl_hook_captured, hmap, hstatus, hbody]

include hkey in
/-- Transactions that are the same but for the header say the same to the processor. -/
theorem said_congr {next next' : Request → List Call} {header header' : Header} (hr : r.SameBut key r')
    (hheader : SameBut key header header')
    (hnext : ∀ q q' : Request, q.SameBut key q' →
      callsBut key (next q) = callsBut key (next' q')) :
    (handle cfg dialog next header r).2 = (handle cfg dialog next' header' r').2 := by
  have hphases := requestVerdict_agrees cfg dialog hkey hr
  unfold handle
  generalize requestVerdict cfg dialog r = phases at hphases ⊢
  generalize requestVerdict cfg dialog r' = phases' at hphases ⊢
  obtain ⟨verdict, said⟩ := phases
  obtain ⟨verdict', said'⟩ := phases'
  obtain ⟨hverdict, rfl : said = said'⟩ := hphases
  cases verdict <;> cases verdict' <;> first | exact hverdict.elim | skip
  · exact relay_said_congr cfg dialog hkey hheader (hnext _ _ hverdict) said
  · rfl
  · rfl
  · rfl

end Said

/-- The presence and the values of a header that is withheld, in the request and in the response of the
upstream, make no difference to the messages. -/
theorem messages_of_withheld (cfg : Settings) (dialog : Dialog) (name : String)
    (hname : allowedBy cfg.forwardRules name = false) {next next' : Request → List Call}
    {header header' : Header} {r r' : Request} (hr : r.SameBut (canonicalKey name) r')
    (hheader : SameBut (canonicalKey name) header header')
    (hnext : ∀ q q' : Request, q.SameBut (canonicalKey name) q' →
      callsBut (canonicalKey name) (next q) = callsBut (canonicalKey name) (next' q')) :
    messages cfg dialog next header r = messages cfg dialog next' header' r' := by
  have hkey : allowedBy cfg.forwardRules (canonicalKey name) = false := by
    simpa only [allowedBy, fold_canonicalKey] using hname
  unfold messages
  rw [said_congr cfg dialog hkey hr hheader hnext]

/-- Cookies are withheld. -/
def withholdCookie : Settings where
  forwardRules := some { denyHeaders := ["cookie"] }

/-- A request with a cookie and one without, to a handler that answers with the cookie it got. -/
theorem messages_withholdCookie :
    allowedBy withholdCookie.forwardRules "Cookie" = false ∧
      messages withholdCookie (fun _ _ => some .unset) (fun r => [.setHeader "cookie" (r.header "cookie")])
          (fun _ => []) { header := Header.set (fun _ => []) "Cookie" "a" }
        = messages withholdCookie (fun _ _ => some .unset)
          (fun r => [.setHeader "cookie" (r.header "cookie")]) (fun _ => []) {} := by
  refine ⟨by decide, messages_of_withheld withholdCookie _ "Cookie" (by decide)
    ⟨fun _ => [], rfl, ?_⟩ (fun _ _ => rfl) ?_⟩
  · intro other hother
    simp [Header.set, hother]
  · intro q q' _
    have hkey : canonicalKey "Cookie" = "cookie" := by decide +kernel
    simp [callsBut, hkey]

end Vrata.Proxy.ExtProc

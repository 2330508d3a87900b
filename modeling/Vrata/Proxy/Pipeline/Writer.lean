import Vrata.Proxy.Headers

/-!
# Writing a response

Reference: `ResponseWriter` and `Error` of `net/http`.

A handler changes the header map, passes a status and writes the body in any order. The header map stays
open to changes after the status has been sent; the client gets the headers of that moment. `direct_eq` is
what it gets in the end.

`WriteHeader` panics on a number that is no status, and some statuses have no body: `Response.onWire` is what
is sent of a response.
-/

namespace Vrata.Proxy.NetHttp

/-- A response as it is handed to the server. -/
structure Response where
  status : ℕ
  header : Header
  body : List UInt8

/-- A call of a handler on its writer; `setHeader` gives a header of the map its values. -/
inductive Call where
  | setHeader (key : String) (values : List String)
  | writeHeader (code : ℕ)
  | write (body : List UInt8)

/-- A status line that is not followed by another one. -/
def isFinal (code : ℕ) : Bool := !(100 ≤ code && code ≤ 199 && code ≠ 101)

structure Writer where
  header : Header
  /-- The status and the headers that have been sent. -/
  sent : Option (ℕ × Header) := none
  body : List UInt8 := []

namespace Writer

/-- Informational responses are not the last one, and nothing is sent twice. -/
def writeHeader (w : Writer) (code : ℕ) : Writer :=
  if w.sent.isNone && isFinal code then { w with sent := some (code, w.header) } else w

/-- The first write sends the status, if nothing else has. -/
def write (w : Writer) (body : List UInt8) : Writer :=
  let w := w.writeHeader 200
  { w with body := w.body ++ body }

def setHeader (w : Writer) (key : String) (values : List String) : Writer :=
  { w with header := Function.update w.header key values }

/-- The handler returns. -/
def finish (w : Writer) : Response :=
  let sent := w.sent.getD (200, w.header)
  ⟨sent.1, sent.2, w.body⟩

def run (w : Writer) : Call → Writer
  | .setHeader key values => w.setHeader key values
  | .writeHeader code => w.writeHeader code
  | .write body => w.write body

end Writer

/-- What a client receives from a handler behind nothing. -/
def direct (header : Header) (calls : List Call) : Response :=
  (calls.foldl Writer.run { header := header }).finish

/-- `http.Error`. -/
def httpError (header : Header) (text : String) (code : ℕ) : Response :=
  let header := header.del "Content-Length"
  let header := header.set "Content-Type" "text/plain; charset=utf-8"
  let header := header.set "X-Content-Type-Options" "nosniff"
  ((({ header := header } : Writer).writeHeader code).write (text ++ "\n").toByteArray.data.toList).finish

/-- The numbers that `WriteHeader` takes for a status. -/
def isStatus (code : ℕ) : Bool := 100 ≤ code && code ≤ 999

/-- Is a body sent with the status? -/
def bodyAllowed (status : ℕ) : Bool := !(100 ≤ status && status ≤ 199) && status ≠ 204 && status ≠ 304

/-- What the client receives. A panic of `WriteHeader` closes the connection with nothing sent. -/
def Response.onWire (response : Response) : Option Response :=
  if isStatus response.status then
    some { response with body := if bodyAllowed response.status then response.body else [] }
  else none

/-! ## What the calls leave behind -/

/-- The bytes of the calls. -/
def written : List Call → List UInt8
  | [] => []
  | .write body :: calls => body ++ written calls
  | _ :: calls => written calls

/-- The header map after the calls. -/
def headerAfter (h : Header) : List Call → Header
  | [] => h
  | .setHeader key values :: calls => headerAfter (Function.update h key values) calls
  | _ :: calls => headerAfter h calls

/-- The status that was passed last, if any was. -/
def lastStatus (status : ℕ) : List Call → ℕ
  | [] => status
  | .writeHeader code :: calls => lastStatus code calls
  | _ :: calls => lastStatus status calls

/-- Whether anything was written, be it nothing at all. -/
def writes : List Call → Bool
  | [] => false
  | .write _ :: _ => true
  | _ :: calls => writes calls

/-- What a writer sends: the first final status with the headers of that moment. -/
def firstSent (h : Header) : List Call → ℕ × Header
  | [] => (200, h)
  | .setHeader key values :: calls => firstSent (Function.update h key values) calls
  | .writeHeader code :: calls => if isFinal code then (code, h) else firstSent h calls
  | .write _ :: _ => (200, h)

/-- The last status before the first write, with the headers of that moment. -/
def heldToWrite (status : ℕ) (h : Header) : List Call → ℕ × Header
  | [] => (status, h)
  | .setHeader key values :: calls => heldToWrite status (Function.update h key values) calls
  | .writeHeader code :: calls => heldToWrite code h calls
  | .write _ :: _ => (status, h)

/-- A held status that is informational is not the last one, and 200 follows. -/
def finalStatus (status : ℕ) : ℕ := if isFinal status then status else 200

/-- Without a write nothing is written. -/
theorem written_of_not_writes {calls : List Call} (hwrites : writes calls = false) : written calls = [] := by
  induction calls with
  | nil => rfl
  | cons call calls ih =>
    cases call with
    | write body => simp [writes] at hwrites
    | setHeader key values => exact ih hwrites
    | writeHeader code => exact ih hwrites

/-! ## Writers -/

theorem isFinal_ok : isFinal 200 = true := by decide

theorem Writer.write_unsent (h : Header) (sent body : List UInt8) :
    ({ header := h, body := sent } : Writer).write body = ⟨h, some (200, h), sent ++ body⟩ := by
  simp [Writer.write, Writer.writeHeader, isFinal_ok]

/-- A held status and what is written after it. -/
theorem Writer.write_held (h : Header) (status : ℕ) (body : List UInt8) :
    (({ header := h } : Writer).writeHeader status).write body
      = ⟨h, some (finalStatus status, h), body⟩ := by
  unfold finalStatus
  by_cases hfinal : isFinal status = true
  · simp [Writer.write, Writer.writeHeader, hfinal]
  · simp [Writer.write, Writer.writeHeader, hfinal, isFinal_ok]

/-- A held status with nothing after it. -/
theorem Writer.finish_held (h : Header) (status : ℕ) :
    (({ header := h } : Writer).writeHeader status).finish = ⟨finalStatus status, h, []⟩ := by
  unfold finalStatus
  by_cases hfinal : isFinal status = true
  · simp [Writer.finish, Writer.writeHeader, hfinal]
  · simp [Writer.finish, Writer.writeHeader, hfinal]

/-- An error page has the status that was passed, unless it is informational. -/
theorem status_httpError (h : Header) (text : String) (code : ℕ) :
    (httpError h text code).status = finalStatus code := by
  rw [httpError, Writer.write_held]
  rfl

theorem Writer.run_sent (h : Header) (sent : ℕ × Header) (body : List UInt8) (call : Call) :
    (⟨h, some sent, body⟩ : Writer).run call
      = ⟨headerAfter h [call], some sent, body ++ written [call]⟩ := by
  cases call with
  | setHeader key values => simp [Writer.run, Writer.setHeader, headerAfter, written]
  | writeHeader code => simp [Writer.run, Writer.writeHeader, headerAfter, written]
  | write more => simp [Writer.run, Writer.write, Writer.writeHeader, headerAfter, written]

/-- Once the status has been sent, only the body grows. -/
theorem foldl_run_sent (calls : List Call) (h : Header) (sent : ℕ × Header) (body : List UInt8) :
    calls.foldl Writer.run ⟨h, some sent, body⟩
      = ⟨headerAfter h calls, some sent, body ++ written calls⟩ := by
  induction calls generalizing h body with
  | nil => simp [headerAfter, written]
  | cons call calls ih =>
    rw [List.foldl_cons, Writer.run_sent, ih]
    cases call <;> simp [headerAfter, written]

/-- What a handler sends on a writer of its own. -/
theorem direct_eq (h : Header) (calls : List Call) :
    direct h calls = ⟨(firstSent h calls).1, (firstSent h calls).2, written calls⟩ := by
  unfold direct
  induction calls generalizing h with
  | nil => rfl
  | cons call calls ih =>
    rw [List.foldl_cons]
    cases call with
    | setHeader key values => exact ih _
    | writeHeader code =>
      by_cases hfinal : isFinal code = true
      · have hsent : Writer.run { header := h } (.writeHeader code) = ⟨h, some (code, h), []⟩ := by
          simp [Writer.run, Writer.writeHeader, hfinal]
        rw [hsent, foldl_run_sent]
        simp [Writer.finish, firstSent, written, hfinal]
      · have hsame : Writer.run { header := h } (.writeHeader code) = { header := h } := by
          simp [Writer.run, Writer.writeHeader, hfinal]
        rw [hsame, ih]
        simp [firstSent, written, hfinal]
    | write body =>
      have hsent : Writer.run { header := h } (.write body) = ⟨h, some (200, h), body⟩ :=
        Writer.write_unsent h [] body
      rw [hsent, foldl_run_sent]
      simp [Writer.finish, firstSent, written]

end Vrata.Proxy.NetHttp

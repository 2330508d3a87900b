import Vrata.Api.Handlers
import Vrata.Proxy.Body
import Vrata.Proxy.Pipeline
import Vrata.Proxy.Pipeline.Writer

/-!
# Inline authorization

Reference: `InlineAuthzMiddleware` of `server/internal/proxy/middlewares/inlineauthz.go`,
`validateMiddleware` of `server/internal/api/handlers/middlewares.go`, and `Compile` of
`server/internal/proxy/celeval/cel.go`.

The API compiles the expressions of the rules with the same function as the proxy does later, and refuses
those that do not compile. So the proxy, which leaves out rules that do not compile, has none to leave out,
and `inlineAuthz_decision` can speak about the rules as they were configured. An expression that fails is
not true.

The API does not look at the status for requests that are turned away. It is passed to `WriteHeader`, which
panics on some numbers, and not every status is one that a response with a body can have.
-/

namespace Vrata.Proxy

open Server NetHttp
open Cel (BodyData)

/-- A compiled expression over a request and, if it was buffered, its body. -/
structure AuthzProgram where
  needsBody : Bool
  eval : Request → Option BodyData → Bool

/-- `celeval.Compile`: a program or the text of an error. -/
abbrev Compiler := String → Except String AuthzProgram

/-- The error of an expression, as the API asks for it. -/
def Compiler.error (compile : Compiler) (expr : String) : Option String :=
  match compile expr with
  | .error msg => some msg
  | .ok _ => none

/-- The expressions as the proxy sees them, with the data of the body. -/
def Compiler.engine (compile : Compiler) (data : Option BodyData) : Engine where
  regex _ := none
  cel expr := (compile expr).toOption.map fun prg req => prg.eval req data

/-- The configuration with the response for requests that are turned away. -/
structure InlineAuthzSettings extends InlineAuthzConfig where
  denyStatus : ℕ := 0
  denyBody : String := ""
deriving DecidableEq, Repr

inductive AuthzOutcome where
  | next (r : RequestObject)
  | deny (response : Response)

namespace InlineAuthzSettings

variable (cfg : InlineAuthzSettings) (compile : Compiler)

/-- The middleware as the API gets it. -/
def received : Api.Middleware where
  type := "inlineAuthz"
  inlineAuthz := some cfg.toInlineAuthzConfig

/-- The programs of the rules that compile. -/
def programs : List AuthzProgram := cfg.rules.filterMap fun rule => (compile rule.cel).toOption

def status : ℕ := if cfg.denyStatus = 0 then 403 else cfg.denyStatus

def body : String := if cfg.denyBody = "" then "\x7b\"error\":\"access denied\"\x7d" else cfg.denyBody

/-- The response that is configured for requests that are turned away. -/
def denial (header : Header) : Response :=
  ⟨cfg.status, header.set "Content-Type" "application/json", cfg.body.toByteArray.data.toList⟩

/-- `writeDenyResponse`, with the header map of the writer. -/
def writeDenyResponse (header : Header) : Response :=
  let w : Writer := { header := header.set "Content-Type" "application/json" }
  ((w.writeHeader cfg.status).write cfg.body.toByteArray.data.toList).finish

/-- `InlineAuthzMiddleware`. The body is buffered once if a rule needs it, which can panic. -/
def serve (b : Buffering) (w : Readers) (obj : RequestObject) (r : Inbound) (header : Header) :
    Option AuthzOutcome :=
  (b.bufferIf ((cfg.programs compile).any AuthzProgram.needsBody) w obj).map fun (_, _, obj) =>
    if inlineAction (compile.engine obj.cached) r cfg.toInlineAuthzConfig = "allow" then .next obj
    else .deny (cfg.writeDenyResponse header)

/-- Is the expression of a rule true? -/
def isTrue (data : Option BodyData) (r : Inbound) (rule : InlineAuthzRule) : Bool :=
  (compile rule.cel).toOption.any fun prg => prg.eval r.request data

/-- The action of the first rule whose expression is true, or else the default, is to allow. -/
def allows (data : Option BodyData) (r : Inbound) : Bool :=
  match cfg.rules.find? (isTrue compile data r) with
  | some rule => rule.action = "allow"
  | none => cfg.defaultAction = "allow"

end InlineAuthzSettings

variable {compile : Compiler} {cfg : InlineAuthzSettings}

/-- The expressions that the API has accepted compile. -/
theorem compiles_of_received (h : Api.validateMiddleware compile.error cfg.received = .ok ()) :
    ∀ rule ∈ cfg.rules, ∃ prg, compile rule.cel = .ok prg := by
  obtain ⟨accepted, haccepted, hall⟩ := Api.compile_of_validateMiddleware h rfl
  obtain rfl := Option.some.inj haccepted
  intro rule hrule
  have hnone := hall rule hrule
  cases hcompile : compile rule.cel with
  | ok prg => exact ⟨prg, rfl⟩
  | error msg => simp [Compiler.error, hcompile] at hnone

/-- The rules are compiled one by one, and none is left out. -/
theorem compiledRules_eq (hall : ∀ rule ∈ cfg.rules, ∃ prg, compile rule.cel = .ok prg)
    (data : Option BodyData) :
    (compiledRules (compile.engine data) cfg.toInlineAuthzConfig).map Prod.fst = cfg.rules := by
  rw [compiledRules, List.map_filterMap]
  refine (List.filterMap_congr fun rule hrule => ?_).trans List.filterMap_some
  obtain ⟨prg, hprg⟩ := hall rule hrule
  simp [Compiler.engine, hprg, Except.toOption]

/-- The first compiled rule that matches is the first rule whose expression is true. -/
theorem inlineAction_eq_allow_iff (data : Option BodyData) (r : Inbound) :
    inlineAction (compile.engine data) r cfg.toInlineAuthzConfig = "allow" ↔
      cfg.allows compile data r = true := by
  have hfind : ((compiledRules (compile.engine data) cfg.toInlineAuthzConfig).find?
      fun rule => rule.2 r.request).map Prod.fst =
        cfg.rules.find? (InlineAuthzSettings.isTrue compile data r) := by
    rw [compiledRules]
    induction cfg.rules with
    | nil => rfl
    | cons rule rules ih =>
      cases hcompile : compile rule.cel with
      | error msg =>
        have hfalse : InlineAuthzSettings.isTrue compile data r rule = false := by
          simp [InlineAuthzSettings.isTrue, hcompile, Except.toOption]
        rw [List.filterMap_cons_none (by simp [Compiler.engine, hcompile, Except.toOption]), ih,
          List.find?_cons_of_neg (by simp [hfalse])]
      | ok prg =>
        have heq : InlineAuthzSettings.isTrue compile data r rule = prg.eval r.request data := by
          simp [InlineAuthzSettings.isTrue, hcompile, Except.toOption]
        rw [List.filterMap_cons_some (by simp [Compiler.engine, hcompile, Except.toOption]; rfl)]
        by_cases heval : prg.eval r.request data = true
        · rw [List.find?_cons_of_pos (by exact heval), List.find?_cons_of_pos (heq.trans heval)]
          rfl
        · rw [List.find?_cons_of_neg (by exact heval), List.find?_cons_of_neg (by rwa [heq]), ih]
  rw [inlineAction, InlineAuthzSettings.allows, ← hfind]
  cases (compiledRules (compile.engine data) cfg.toInlineAuthzConfig).find? fun rule => rule.2 r.request with
  | some rule => simp
  | none =>
    by_cases hdefault : cfg.defaultAction = "" <;> simp [hdefault]

/-- Only a limit below zero makes `BufferBody` panic. -/
theorem isSome_bufferIf {b : Buffering} (h : 0 ≤ b.maxSize) (needsBody : Bool) (w : Readers)
    (obj : RequestObject) : (b.bufferIf needsBody w obj).isSome = true := by
  unfold Buffering.bufferIf Buffering.bufferBody
  split
  · split
    · rfl
    · split
      · rfl
      · simp only []
        split
        · rw [if_neg (not_lt.mpr h)]
          rfl
        · rfl
  · rfl

/-- With a status that a response with a body can have, the client receives what is configured. -/
theorem onWire_writeDenyResponse (hlow : 200 ≤ cfg.status) (hhigh : cfg.status ≤ 999)
    (hbody : cfg.status ≠ 204 ∧ cfg.status ≠ 304) (header : Header) :
    (cfg.writeDenyResponse header).onWire = some (cfg.denial header) := by
  have hfinal : isFinal cfg.status = true := by
    simp [isFinal]
    omega
  have hsent : cfg.writeDenyResponse header = cfg.denial header := by
    simp [InlineAuthzSettings.writeDenyResponse, InlineAuthzSettings.denial, Writer.write_held, Writer.finish,
      finalStatus, hfinal]
  have hallowed : isStatus cfg.status = true ∧ bodyAllowed cfg.status = true := by
    simp [isStatus, bodyAllowed, hbody]
    omega
  rw [hsent]
  simp [Response.onWire, InlineAuthzSettings.denial, hallowed]

/-- Every expression compiles, and is true. -/
def alwaysTrue : Compiler := fun _ => .ok ⟨true, fun _ _ => true⟩

/-- Every request is turned away with this status. -/
def denyAll (status : ℕ) : InlineAuthzSettings where
  rules := [⟨"true", "deny"⟩]
  defaultAction := "allow"
  denyStatus := status

/-- The answer to a request with a body of two bytes. -/
def denyAnswer (status : ℕ) : Option AuthzOutcome :=
  (denyAll status).serve alwaysTrue (cutAfter 4) (Buffering.received [1, 2]).1 (Buffering.received [1, 2]).2
    (plainRequest "/" hasPrefix_root) fun _ => []

end Vrata.Proxy

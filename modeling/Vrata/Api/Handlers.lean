import Vrata.Resolve.Secrets
import Vrata.Server.Middleware

/-!
# The handlers of the API

Reference: `server/internal/api/handlers/snapshots.go` and `middlewares.go`.

A handler is a program over the store: what it reads first, the one write that it makes, and the response.
The one that makes a snapshot is here, and the check of the middlewares that are sent to the API.
-/

namespace Vrata.Api

open Json (Bytes)
open Store Resolve

/-! ## Responses -/

/-- A body is the JSON text of an error or of an entity. -/
inductive Body (S : Schema) where
  | error (msg : String)
  | entity {k : Kind} (v : S.Entity k)

structure Response (S : Schema) where
  status : ℕ
  body : Body S

def respondError {S : Schema} (status : ℕ) (msg : String) : Response S := ⟨status, .error msg⟩

/-! ## The check of middlewares -/

/-- What `validateMiddleware` reads. -/
structure Middleware where
  type : String
  inlineAuthz : Option Server.InlineAuthzConfig
deriving DecidableEq, Repr

/-- The format and the arguments of an error. -/
abbrev Invalid := Server.Invalid

def isAction (action : String) : Bool := action = "allow" || action = "deny"

/-- The rules of inline authorization, where `compile` gives the error of an expression that CEL
refuses. -/
def validateMiddleware (compile : String → Option String) (mw : Middleware) : Except Invalid Unit :=
  if mw.type ≠ "inlineAuthz" then .ok ()
  else
    match mw.inlineAuthz with
    | none => .error {
        format := "inlineAuthz config is required when type is %q"
        args := [mw.type] }
    | some cfg => do
      Server.require (0 < cfg.rules.length) "inlineAuthz.rules must not be empty" []
      Server.require (cfg.defaultAction = "" || isAction cfg.defaultAction)
        "inlineAuthz.defaultAction must be \"allow\" or \"deny\", got %q" [cfg.defaultAction]
      cfg.rules.zipIdx.forM fun (rule, i) => do
        Server.require (isAction rule.action)
          "inlineAuthz.rules[%d].action must be \"allow\" or \"deny\", got %q" [toString i, rule.action]
        Server.require (rule.cel ≠ "") "inlineAuthz.rules[%d].cel must not be empty" [toString i]
        match compile rule.cel with
        | some err => .error { format := "inlineAuthz.rules[%d].cel: %w", args := [toString i, err] }
        | none => .ok ()

theorem forall_of_forM {α ε : Type} {f : α → Except ε Unit} {l : List α} (h : l.forM f = .ok ()) :
    ∀ x ∈ l, f x = .ok () := by
  induction l with
  | nil => nofun
  | cons x l ih =>
    change (f x >>= fun _ => l.forM f) = .ok () at h
    cases hx : f x with
    | error e =>
      rw [hx] at h
      cases h
    | ok u =>
      rw [hx] at h
      exact List.forall_mem_cons.mpr ⟨hx, ih h⟩

theorem of_bind_ok {ε : Type} {x : Except ε Unit} {f : Unit → Except ε Unit}
    (h : x >>= f = .ok ()) : f () = .ok () := by
  cases x with
  | error e => cases h
  | ok u => exact h

/-- The expressions of inline authorization that is accepted compile. -/
theorem compile_of_validateMiddleware {compile : String → Option String} {mw : Middleware}
    (h : validateMiddleware compile mw = .ok ()) (htype : mw.type = "inlineAuthz") :
    ∃ cfg, mw.inlineAuthz = some cfg ∧ ∀ rule ∈ cfg.rules, compile rule.cel = none := by
  unfold validateMiddleware at h
  rw [if_neg (not_not.mpr htype)] at h
  split at h
  · cases h
  · rename_i cfg hcfg
    refine ⟨cfg, hcfg, fun rule hrule => ?_⟩
    obtain ⟨i, hi⟩ := List.mem_iff_getElem?.mp hrule
    have hok := forall_of_forM (of_bind_ok (of_bind_ok h)) (rule, i) (List.mk_mem_zipIdx_iff_getElem?.mpr hi)
    have hcel := of_bind_ok (of_bind_ok hok)
    cases hcompile : compile rule.cel with
    | none => rfl
    | some err =>
      simp only [hcompile] at hcel
      cases hcel

/-! ## What the handler depends on -/

structure Snapshot (S : Schema) where
  listeners : List (S.Entity .listener)
  routes : List (S.Entity .route)
  groups : List (S.Entity .group)
  destinations : List (S.Entity .destination)
  middlewares : List (S.Entity .middleware)

/-- The fields that the handler reads and sets, and the encoding of bodies and snapshots. -/
structure Entities (S : Schema) where
  /-- The name in the body of a request for a snapshot. -/
  decodeName : Bytes → Except String String
  secretValue : S.Entity .secret → String
  versioned : (id name : String) → (createdAt : ℤ) → Snapshot S → S.Entity .snapshot
  marshalSnapshot : Snapshot S → Option Bytes
  unmarshalSnapshot : Bytes → Option (Snapshot S)

/-- The texts of errors, and the environment of the process. -/
structure Dependencies where
  errorText : StoreError → String
  unresolvedText : List Unresolved → String
  host : Host

/-- What a request draws: a new UUID and the time. -/
structure Draw where
  uuid : String
  now : ℤ

section Handlers

variable {S : Schema} (E : Entities S) (d : Dependencies) (draw : Draw)

/-! ## The making of a snapshot -/

def buildSnapshot : Client S (Except StoreError (Snapshot S)) := ExceptT.run do
  let listeners ← ExceptT.mk (Call.request (.list .listener))
  let routes ← ExceptT.mk (Call.request (.list .route))
  let groups ← ExceptT.mk (Call.request (.list .group))
  let destinations ← ExceptT.mk (Call.request (.list .destination))
  let middlewares ← ExceptT.mk (Call.request (.list .middleware))
  return { listeners, routes, groups, destinations, middlewares }

inductive ResolveError where
  | encoding
  | unresolved (errs : List Unresolved)
  | decoding

def ResolveError.text : ResolveError → String
  | .encoding => "encoding snapshot: %w"
  | .unresolved errs => d.unresolvedText errs
  | .decoding => "decoding resolved snapshot: %w"

def resolveSecrets (snap : Snapshot S) : Client S (Except ResolveError (Snapshot S)) :=
  match E.marshalSnapshot snap with
  | none => return .error .encoding
  | some data => do
    match ← secrets E.secretValue d.host data with
    | .error errs => return .error (.unresolved errs)
    | .ok resolved =>
      match E.unmarshalSnapshot resolved with
      | none => return .error .decoding
      | some out => return .ok out

def createSnapshot (body : Bytes) : Client S (Response S) :=
  match E.decodeName body with
  | .error err => return respondError 400 ("invalid request body: " ++ err)
  | .ok name =>
    if name = "" then return respondError 400 "name is required"
    else do
      match ← buildSnapshot with
      | .error err => return respondError 500 ("building snapshot: " ++ d.errorText err)
      | .ok snap =>
        match ← resolveSecrets E d snap with
        | .error err => return respondError 400 ("resolving secrets: " ++ err.text d)
        | .ok resolved => do
          let vs := E.versioned draw.uuid name draw.now resolved
          match ← Call.request (.write (.save .snapshot vs)) with
          | .error err => return respondError 500 (d.errorText err)
          | .ok _ => return ⟨201, .entity vs⟩

end Handlers

/-! ## The reads -/

section Reads

variable {S : Schema} (E : Entities S) (d : Dependencies)

def IsRead : Call S → Prop
  | .write _ => False
  | _ => True

/-- A look-up of a secret. -/
def IsLookup : Call S → Prop
  | .get .secret _ => True
  | _ => False

theorem isLookup_resolve (secretValue : S.Entity .secret → String) (host : Host) (r : Reference) :
    (resolve secretValue host r).All IsLookup := by
  unfold resolve lookupSecret
  cases r.source with
  | value =>
    refine .bind ?_ fun result => ?_
    · cases ofUtf8 r.ref with
      | none => exact trivial
      | some id => exact .ask trivial
    · cases result <;> exact trivial
  | env => exact trivial
  | file => cases host.readFile r.ref <;> exact trivial

theorem isLookup_resolvePieces (secretValue : S.Entity .secret → String) (host : Host)
    (ps : List Piece) : (resolvePieces secretValue host ps).All IsLookup := by
  induction ps with
  | nil => exact trivial
  | cons p ps ih =>
    cases p with
    | octet b => exact .bind ih fun _ => trivial
    | reference r =>
      refine .bind (isLookup_resolve secretValue host r) fun value => .bind ih fun rest => ?_
      cases value <;> exact trivial

theorem isLookup_resolveSecrets (snap : Snapshot S) : (resolveSecrets E d snap).All IsLookup := by
  unfold resolveSecrets
  cases E.marshalSnapshot snap with
  | none => exact trivial
  | some data =>
    refine .bind (.bind (isLookup_resolvePieces _ _ _) fun _ => trivial) fun result => ?_
    cases result with
    | error errs => exact trivial
    | ok resolved => cases hout : E.unmarshalSnapshot resolved <;> simp only [hout] <;> exact trivial

end Reads

end Vrata.Api

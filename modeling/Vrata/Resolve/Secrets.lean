import Vrata.Store.Client

/-!
# The resolution of secret references

Before a snapshot is stored, the references in its JSON text are replaced by what they refer to. The text
is cut into octets and references (`pieces`, which is what the regular expression finds from the left),
and each reference is looked up in its turn.
-/

namespace Vrata.Resolve

open Json (Bytes)
open Store

/-! ## References in a text -/

inductive Source where
  | value
  | env
  | file
deriving DecidableEq, Repr

def Source.name : Source → Bytes
  | .value => utf8 "value"
  | .env => utf8 "env"
  | .file => utf8 "file"

structure Reference where
  source : Source
  ref : Bytes
deriving DecidableEq, Repr

def opening : Bytes := utf8 "\x7b\x7bsecret:"

def closing : Bytes := utf8 "\x7d\x7d"

/-- The match of a reference. -/
def Reference.text (r : Reference) : Bytes := opening ++ r.source.name ++ 0x3A :: r.ref ++ closing

/-- What follows the source: one or more octets that are not a brace, and two closing braces. -/
def matchRef (source : Source) (text : Bytes) : Option Reference :=
  let ref := text.takeWhile (· ≠ 0x7D)
  if ref ≠ [] ∧ closing <+: text.drop ref.length then some ⟨source, ref⟩ else none

/-- The match of `secretPattern` at the start of a text. -/
def matchAt (text : Bytes) : Option Reference := do
  let rest ← text.dropPrefix? opening
  [Source.value, .env, .file].findSome? fun source =>
    (rest.dropPrefix? (source.name ++ [0x3A])).bind (matchRef source)

inductive Piece where
  | octet (b : UInt8)
  | reference (r : Reference)
deriving DecidableEq, Repr

/-- The matches from the left and what stands between them. So many octets of the text as the first
argument says belong to a match. -/
def pieces : ℕ → Bytes → List Piece
  | _, [] => []
  | n + 1, _ :: text => pieces n text
  | 0, b :: text =>
    match matchAt (b :: text) with
    | some r => .reference r :: pieces (r.text.length - 1) text
    | none => .octet b :: pieces 0 text

/-! ## Values -/

/-- The environment and the files of the control plane. -/
structure Host where
  getenv : Bytes → Bytes
  readFile : Bytes → Option Bytes

def replaceAll (b : UInt8) (new text : Bytes) : Bytes := text.flatMap fun a => if a = b then new else [a]

def escapeJSON (s : Bytes) : Bytes :=
  let s := replaceAll 0x5C [0x5C, 0x5C] s
  let s := replaceAll 0x22 [0x5C, 0x22] s
  let s := replaceAll 0x0A [0x5C, 0x6E] s
  let s := replaceAll 0x0D [0x5C, 0x72] s
  replaceAll 0x09 [0x5C, 0x74] s

inductive Unresolved where
  | secret (ref : Bytes) (err : StoreError)
  | env (ref : Bytes)
  | file (ref : Bytes)
deriving DecidableEq, Repr

section Lookup

variable {S : Schema} (secretValue : S.Entity .secret → String) (host : Host)

/-- An ID that is not a text is that of no secret. -/
def lookupSecret (ref : Bytes) : Client S (Except StoreError (S.Entity .secret)) :=
  match ofUtf8 ref with
  | none => return .error .notFound
  | some id => Call.request (.get .secret id)

def resolve (r : Reference) : Client S (Except Unresolved Bytes) :=
  match r.source with
  | .value => do
    match ← lookupSecret r.ref with
    | .error err => return .error (.secret r.ref err)
    | .ok sec => return .ok (utf8 (secretValue sec))
  | .env =>
    let value := host.getenv r.ref
    return if value = [] then .error (.env r.ref) else .ok value
  | .file =>
    match host.readFile r.ref with
    | none => return .error (.file r.ref)
    | some content => return .ok content

/-- The text with the references replaced, and those that are not resolved. -/
def resolvePieces : List Piece → Client S (Bytes × List Unresolved)
  | [] => return ([], [])
  | .octet b :: ps => do
    let (text, errs) ← resolvePieces ps
    return (b :: text, errs)
  | .reference r :: ps => do
    let value ← resolve secretValue host r
    let (text, errs) ← resolvePieces ps
    match value with
    | .error err => return (r.text ++ text, err :: errs)
    | .ok value => return (escapeJSON value ++ text, errs)

def secrets (data : Bytes) : Client S (Except (List Unresolved) Bytes) := do
  let (resolved, errs) ← resolvePieces secretValue host (pieces 0 data)
  return if errs ≠ [] then .error errs else .ok resolved

end Lookup

end Vrata.Resolve

import Vrata.Lib.Multimap
import Vrata.Proxy.Router

/-!
# The headers middleware

Reference: `server/internal/proxy/middlewares/headers.go`, and `Header` of `net/http`.

A header map holds the values of each header under its canonical key. The middleware treats requests
and responses alike: headers are added one by one, each either after the values that are there or in
their place, and then headers are removed.
-/

namespace Vrata.Proxy

open Server Multimap

/-- `http.Header`; a header without values is absent. -/
abbrev Header := String → List String

namespace Header

/-- `Header.Add`. -/
def add (h : Header) (key value : String) : Header :=
  Function.update h (canonicalKey key) (h (canonicalKey key) ++ [value])

/-- `Header.Set`. -/
def set (h : Header) (key value : String) : Header := Function.update h (canonicalKey key) [value]

/-- `Header.Del`. -/
def del (h : Header) (key : String) : Header := Function.update h (canonicalKey key) []

end Header

/-- Add one header. -/
def addHeader (h : Header) (v : HeaderValue) : Header :=
  if v.append then h.add v.key v.value else h.set v.key v.value

/-- Add headers, then remove headers. -/
def mutateHeaders (toAdd : List HeaderValue) (toRemove : List String) (h : Header) : Header :=
  toRemove.foldl Header.del (toAdd.foldl addHeader h)

/-- What the middleware does to the headers of a request before it is passed on. -/
def HeadersMiddleware.request (cfg : Option HeadersConfig) (h : Header) : Header :=
  match cfg with
  | none => h
  | some cfg => mutateHeaders cfg.requestHeadersToAdd cfg.requestHeadersToRemove h

/-- What it does to the headers of a response, once, before they are written. -/
def HeadersMiddleware.response (cfg : Option HeadersConfig) (h : Header) : Header :=
  match cfg with
  | none => h
  | some cfg => mutateHeaders cfg.responseHeadersToAdd cfg.responseHeadersToRemove h

/-! ## As operations on a multi-valued map -/

def addOp (v : HeaderValue) : Op String String :=
  if v.append then .add (canonicalKey v.key) v.value else .set (canonicalKey v.key) v.value

def removeOp (key : String) : Op String String := .del (canonicalKey key)

theorem addHeader_eq (h : Header) (v : HeaderValue) : addHeader h v = (addOp v).apply h := by
  unfold addHeader addOp
  split <;> rfl

/-- The middleware runs a sequence of operations. -/
theorem mutateHeaders_eq (toAdd : List HeaderValue) (toRemove : List String) (h : Header) :
    mutateHeaders toAdd toRemove h = applyAll (toAdd.map addOp ++ toRemove.map removeOp) h := by
  have hadd : ∀ h, toAdd.foldl addHeader h = applyAll (toAdd.map addOp) h := by
    intro h
    rw [applyAll, List.foldl_map]
    exact congrArg (fun f => toAdd.foldl f h) (funext fun h => funext fun v => addHeader_eq h v)
  have hremove : ∀ h, toRemove.foldl Header.del h = applyAll (toRemove.map removeOp) h := by
    intro h
    rw [applyAll, List.foldl_map]
    rfl
  rw [mutateHeaders, hadd, hremove, applyAll_append]

end Vrata.Proxy

import Mathlib.Data.Nat.Notation
import Vrata.Lib.Net
import Vrata.Lib.Text

/-!
# A multiplexer with one pattern and a catch-all

The request multiplexer of Go's `net/http` with two handlers: one is registered for a pattern, the other
for `/`, which takes all other requests. A pattern may name a method and a host, and its path may have
wildcards, as in `GET example.com/tree/{name}/{rest...}`.

Before a handler is chosen the path is cleaned, and a request whose path changes is redirected; so is one
for `/tree` where `/tree/` is registered. `dispatch_eq_rest_iff` says which requests go to the second
handler.
-/

namespace Mux

/-! ## Paths -/

/-- The texts between slashes. -/
def split : List Char → List (List Char)
  | [] => [[]]
  | c :: text =>
    if c = '/' then [] :: split text
    else
      match split text with
      | [] => [[c]]
      | part :: parts => (c :: part) :: parts

/-- One element of a path, after those that were kept. -/
def keep (kept : List (List Char)) (part : List Char) : List (List Char) :=
  if part = [] ∨ part = ['.'] then kept
  else if part = ['.', '.'] then kept.tail
  else part :: kept

/-- `path.Clean` for a path that starts with a slash. -/
def clean (path : List Char) : List Char :=
  let kept := ((split path).foldl keep []).reverse
  if kept = [] then ['/'] else kept.flatMap fun part => '/' :: part

/-- `cleanPath`: a slash at the end is kept. -/
def cleanPath (path : List Char) : List Char :=
  if path = [] then ['/']
  else
    let rooted := if path.head? = some '/' then path else '/' :: path
    let cleaned := clean rooted
    if rooted.getLast? = some '/' ∧ cleaned ≠ ['/'] then cleaned ++ ['/'] else cleaned

/-- The text without percent-encoding, where a character stands for an octet. -/
def decode : List Char → Option (List Char)
  | [] => some []
  | '%' :: a :: b :: text => do
    let high ← Net.hexValue a
    let low ← Net.hexValue b
    let rest ← decode text
    return Char.ofNat (16 * high + low) :: rest
  | '%' :: _ => none
  | c :: text => (decode text).map (c :: ·)

theorem eq_nil_of_decode {text : List Char} (h : decode text = some []) : text = [] := by
  unfold decode at h
  split at h
  · rfl
  · simp [Option.bind_eq_some_iff] at h
  · cases h
  · simp at h

/-- `pathUnescape`. -/
def pathUnescape (text : List Char) : List Char := (decode text).getD text

/-! ## Patterns -/

/-- The end of a path, `{$}`, is the text `/`. -/
inductive Segment where
  | literal (text : List Char)
  | wild
  | multi
deriving DecidableEq, Repr

structure Pattern where
  method : List Char
  host : List Char
  segments : List Segment
deriving DecidableEq, Repr

/-- `isValidWildcardName`, for letters of ASCII. -/
def isValidWildcardName : List Char → Bool
  | [] => false
  | c :: name => (c.isAlpha || c = '_') && name.all fun c => c.isAlphanum || c = '_'

/-- The loop of `parsePattern` over the texts between slashes, with the names that were seen. -/
def parseSegments (seen : List (List Char)) : List (List Char) → Option (List Segment)
  | [] => some []
  | [[]] => some [.multi]
  | part :: parts =>
    if '\x7b' ∉ part then (parseSegments seen parts).map (.literal (pathUnescape part) :: ·)
    else if part.head? ≠ some '\x7b' ∨ part.getLast? ≠ some '\x7d' then none
    else
      let name := part.tail.dropLast
      if name = ['$'] then if parts = [] then some [.literal ['/']] else none
      else
        let multi := ['.', '.', '.'].isSuffixOf name
        let name := if multi then name.take (name.length - 3) else name
        if multi ∧ parts ≠ [] then none
        else if isValidWildcardName name = false ∨ name ∈ seen then none
        else (parseSegments (name :: seen) parts).map ((if multi then .multi else .wild) :: ·)

/-- `parsePattern`, where `isToken` says which characters a method may have. -/
def parsePattern (isToken : Char → Bool) (s : List Char) : Option Pattern :=
  let isBlank := fun c => c = ' ' || c = '\t'
  let (method, rest) :=
    if s.any isBlank then (s.takeWhile (!isBlank ·), (s.dropWhile (!isBlank ·)).dropWhile isBlank)
    else ([], s)
  let host := rest.takeWhile (· ≠ '/')
  let path := rest.dropWhile (· ≠ '/')
  if method.all isToken = false ∨ path = [] ∨ '\x7b' ∈ host then none
  else if method ≠ [] ∧ method ≠ "CONNECT".toList ∧ path ≠ cleanPath path then none
  else (parseSegments [] (split path.tail)).map fun segments => ⟨method, host, segments⟩

/-- The pattern takes the same requests as `/`. -/
def Pattern.conflicts (p : Pattern) : Bool := p.method = [] && p.host = [] && p.segments = [.multi]

/-- `Handle` with this pattern and then with `/`, which panic unless the pattern is valid and takes other
requests. -/
def register (isToken : Char → Bool) (s : String) : Option Pattern :=
  (parsePattern isToken s.toList).filter fun p => !p.conflicts

/-! ## Matching -/

/-- `firstSegment`: the first element of a path and the rest. -/
def firstSegment (path : List Char) : List Char × List Char :=
  if path = ['/'] then (['/'], [])
  else (pathUnescape (path.tail.takeWhile (· ≠ '/')), path.tail.dropWhile (· ≠ '/'))

def matchPath : List Segment → List Char → Bool
  | [], path => path = []
  | .multi :: _, path => path ≠ []
  | .literal text :: segments, path =>
    path ≠ [] && (firstSegment path).1 = text && matchPath segments (firstSegment path).2
  | .wild :: segments, path =>
    path ≠ [] && (firstSegment path).1 ≠ ['/'] && matchPath segments (firstSegment path).2

/-- The pattern takes the request. One for `GET` takes `HEAD` too. -/
def Pattern.accepts (p : Pattern) (host method path : List Char) : Bool :=
  (p.host = [] || p.host = host) &&
  (p.method = [] || p.method = method || (p.method = "GET".toList && method = "HEAD".toList)) &&
  matchPath p.segments path

/-- `exactMatch` for a path that the pattern takes: a wildcard at the end has nothing to take. -/
def Pattern.isExact (p : Pattern) (path : List Char) : Bool :=
  if p.segments.getLast? ≠ some .multi then true
  else if path ≠ [] ∧ path.getLast? ≠ some '/' then false
  else p.segments.length = path.count '/'

/-- What the multiplexer reads of a request. -/
structure Incoming where
  method : String
  host : String
  /-- The host in the target of the request. -/
  urlHost : String
  requestURI : String
  escapedPath : String
  path : String
  rawQuery : String

inductive Target where
  /-- The handler of the pattern. -/
  | special
  /-- The handler of all other requests. -/
  | rest
  | moved (path rawQuery : String)
  | badRequest
  | notFound
deriving DecidableEq, Repr

/-- The handler for a path. The pattern goes first. -/
def found (p : Pattern) (host method path : List Char) : Target :=
  if p.accepts host method path then .special
  else if path = [] then .notFound
  else .rest

/-- The pattern takes the path with a slash at its end, and not as it is. -/
def redirects (p : Pattern) (host method path : List Char) : Bool :=
  !(p.accepts host method path && p.isExact path) && path.getLast? ≠ some '/' && path ≠ [] &&
  p.accepts host method (path ++ ['/']) && p.isExact (path ++ ['/'])

/-- `stripHostPort`. -/
def stripHostPort (host : String) : String := ((Net.splitHostPort host).map Prod.fst).getD host

/-- Where the redirect to a path with a slash at its end goes. -/
def slashed (r : Incoming) : Target :=
  .moved (String.ofList (cleanPath r.path.toList ++ ['/'])) r.rawQuery

/-- `ServeHTTP` with `findHandler`. The path of a `CONNECT` request is not cleaned. -/
def dispatch (p : Pattern) (r : Incoming) : Target :=
  let method := r.method.toList
  let path := r.escapedPath.toList
  if r.requestURI = "*" then .badRequest
  else if r.method = "CONNECT" then
    if redirects p r.urlHost.toList method path then slashed r
    else found p r.host.toList method path
  else
    let host := (stripHostPort r.host).toList
    if redirects p host method (cleanPath path) then slashed r
    else if cleanPath path ≠ path then .moved (String.ofList (cleanPath path)) r.rawQuery
    else found p host method path

/-- The request does not concern the pattern: its path is clean, and the pattern takes it neither as it is
nor with a slash at its end. -/
def Clear (p : Pattern) (r : Incoming) : Prop :=
  let method := r.method.toList
  let path := r.escapedPath.toList
  r.requestURI ≠ "*" ∧ path ≠ [] ∧
    if r.method = "CONNECT" then
      redirects p r.urlHost.toList method path = false ∧ p.accepts r.host.toList method path = false
    else
      cleanPath path = path ∧ redirects p (stripHostPort r.host).toList method path = false ∧
        p.accepts (stripHostPort r.host).toList method path = false

theorem found_eq_rest_iff {p : Pattern} {host method path : List Char} :
    found p host method path = .rest ↔ path ≠ [] ∧ p.accepts host method path = false := by
  unfold found
  split
  · rename_i haccepts
    simp [haccepts]
  · split
    · rename_i hpath
      simp [hpath]
    · rename_i haccepts hpath
      simp [hpath, haccepts]

/-- The requests that go to the handler of all other requests. -/
theorem dispatch_eq_rest_iff {p : Pattern} {r : Incoming} : dispatch p r = .rest ↔ Clear p r := by
  simp only [dispatch, Clear, ne_eq]
  split
  · rename_i hstar
    exact iff_of_false nofun fun h => h.1 hstar
  · rename_i hstar
    split
    · split
      · rename_i hredirects
        rw [slashed]
        exact iff_of_false nofun fun h => Bool.noConfusion (hredirects.symm.trans h.2.2.1)
      · rename_i hredirects
        rw [found_eq_rest_iff]
        exact ⟨fun h => ⟨hstar, h.1, Bool.eq_false_iff.mpr hredirects, h.2⟩, fun h => ⟨h.2.1, h.2.2.2⟩⟩
    · split
      · rename_i hredirects
        rw [slashed]
        refine iff_of_false nofun fun h => ?_
        rw [h.2.2.1] at hredirects
        exact Bool.noConfusion (hredirects.symm.trans h.2.2.2.1)
      · rename_i hredirects
        split
        · rename_i hclean
          exact iff_of_false nofun fun h => hclean h.2.2.1
        · rename_i hclean
          rw [not_not] at hclean
          rw [hclean] at hredirects
          rw [found_eq_rest_iff]
          exact ⟨fun h => ⟨hstar, h.1, hclean, Bool.eq_false_iff.mpr hredirects, h.2⟩,
            fun h => ⟨h.2.1, h.2.2.2.2⟩⟩

end Mux

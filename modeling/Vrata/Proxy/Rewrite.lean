import Vrata.Controller.Input
import Vrata.Lib.Duration
import Vrata.Proxy.Headers

/-!
# Rewriting the path

Reference: `applyRewrite` of `server/internal/proxy/handler.go`, `RouteRewrite` of
`server/internal/model/route.go`, and `mapRewriteFilter` of the controller.

`rewrite.path` is documented as the replacement of the matched prefix, and `rewrite.pathRegex` as one in
which `\1` stands for the first group. The code puts `rewrite.path` in the place of the whole path, and hands
the substitution to `ReplaceAllString`, which knows `$1` and takes `\1` as it stands. The reverse proxy then
puts a slash in front of a path that has none.

`forwardedPath_iff` says when this makes no difference: nothing of the path is left after the matched prefix
(or only the slash that the value ends with), and the substitution refers to no group.

A library compiles the expressions and divides a path into matches and the text between them; `Regexps` stands
for it. Paths are compared after decoding, as lists of characters.
-/

namespace Vrata.Proxy

open Server Controller

/-! ## Templates -/

/-- The groups of a match, the whole match first. -/
structure Groups where
  texts : List (Option (List Char))
  names : List (List Char)

inductive Segment where
  | text (chars : List Char)
  | «match» (groups : Groups)

/-- `regexp`: how a pattern divides a text, if it compiles, and which characters are letters or digits. -/
structure Regexps where
  divide : String → Option (List Char → List Segment)
  isWord : Char → Bool

namespace Groups

def number (g : Groups) (n : ℕ) : List Char := (g.texts[n]?.getD none).getD []

/-- The group that a name in a template stands for: the number it is, without leading zeros, or else the first
group with this name that took part in the match. -/
def named (g : Groups) (name : List Char) : List Char :=
  if name.all Char.isDigit ∧ Duration.numeral name.dropLast < 100000000 ∧
      ¬(name.head? = some '0' ∧ 1 < name.length) then
    g.number (Duration.numeral name)
  else ((g.names.zip g.texts).findSome? fun (n, t) => if n = name then t else none).getD []

end Groups

/-- `extract`: the name after a dollar sign, in braces or not, and what follows it. -/
def extract (isWord : Char → Bool) (text : List Char) : Option (List Char × List Char) :=
  let brace : Bool := text.head? = some '\x7b'
  let text := if brace then text.tail else text
  let name := text.takeWhile isWord
  let rest := text.dropWhile isWord
  if name = [] then none
  else if brace then if rest.head? = some '\x7d' then some (name, rest.tail) else none
  else some (name, rest)

/-- `expand`, with enough fuel for every character. -/
def expand (isWord : Char → Bool) (g : Groups) : (fuel : ℕ) → List Char → List Char
  | 0, template => template
  | fuel + 1, template =>
    match template.dropWhile (· ≠ '$') with
    | [] => template
    | _ :: after =>
      template.takeWhile (· ≠ '$') ++
        -- two dollar signs stand for one, and one without a name for itself
        if after.head? = some '$' then '$' :: expand isWord g fuel after.tail
        else match extract isWord after with
          | none => '$' :: expand isWord g fuel after
          | some (name, rest) => g.named name ++ expand isWord g fuel rest

/-- `ReplaceAllString`. -/
def replaceAllString (isWord : Char → Bool) (substitution : List Char) (segments : List Segment) :
    List Char :=
  segments.flatMap fun
    | .text chars => chars
    | .match groups => expand isWord groups (substitution.length + 1) substitution

/-! ## The code -/

structure RewriteRegex where
  pattern : String
  substitution : String
deriving DecidableEq, Repr

/-- `RouteRewrite` with the fields that the controller does not send. -/
structure RewriteConfig extends RouteRewrite where
  pathRegex : Option RewriteRegex := none
  hostFromHeader : String := ""
  autoHost : Bool := false
deriving DecidableEq, Repr

/-- What a rewrite reads and writes of a request. -/
structure Rewritable where
  path : List Char
  host : String
  header : Header

namespace RewriteConfig

variable (lib : Regexps) (rw : RewriteConfig)

def rewritePath (path : List Char) : List Char :=
  match rw.pathRegex with
  | some re =>
    match lib.divide re.pattern with
    | some divide => replaceAllString lib.isWord re.substitution.toList (divide path)
    | none => path
  | none => if rw.path = "" then path else rw.path.toList

/-- Override the host, in the header as well. -/
def setHost (value : String) (r : Rewritable) : Rewritable :=
  if value = "" then r else { r with host := value, header := r.header.set "Host" value }

def applyRewrite (r : Rewritable) : Rewritable :=
  let r := setHost rw.host { r with path := rw.rewritePath lib r.path }
  let r :=
    if rw.hostFromHeader = "" then r
    else setHost ((r.header (canonicalKey rw.hostFromHeader)).headD "") r
  if rw.autoHost then { r with host := "" } else r

end RewriteConfig

/-- The path joined to that of the target, which is empty. -/
def rooted (path : List Char) : List Char := if path.head? = some '/' then path else '/' :: path

/-- The path that the reverse proxy sends. -/
def RewriteConfig.forwardedPath (lib : Regexps) (rw : RewriteConfig) (r : Rewritable) : List Char :=
  rooted (rw.applyRewrite lib r).path

/-! ## What is documented -/

/-- A substitution in which a backslash and a digit stand for a group, and all else for itself. -/
def substitute (g : Groups) : List Char → List Char
  | '\\' :: c :: rest =>
    if c.isDigit then g.number (c.toNat - '0'.toNat) ++ substitute g rest
    else '\\' :: substitute g (c :: rest)
  | c :: rest => c :: substitute g rest
  | [] => []

/-- Does a substitution refer to a group as it is documented? -/
def refersToGroup : List Char → Bool
  | '\\' :: c :: rest => c.isDigit || refersToGroup (c :: rest)
  | _ :: rest => refersToGroup rest
  | [] => false

/-- Does a template refer to something with a dollar sign, to a group or, doubled, to the sign? -/
def refersWithDollar (isWord : Char → Bool) : List Char → Bool
  | c :: rest =>
    (c = '$' && (rest.head? = some '$' || (extract isWord rest).isSome)) || refersWithDollar isWord rest
  | [] => false

/-- What follows a value when the rest of a path is appended with one slash in between. -/
def joinTail (value rest : List Char) : List Char :=
  if rest = [] then []
  else (if value.getLast? = some '/' then [] else ['/']) ++ if rest.head? = some '/' then rest.tail else rest

/-- The prefix that a route has matched, unless it has an expression. -/
def PathMatcher.matched (p : PathMatcher) : String := if p.exact ≠ "" then p.exact else p.pathPrefix

/-- The part of a path after the matched prefix; of an expression the length of the match is given. -/
def PathMatcher.remainder (p : PathMatcher) (regexMatch : List Char → ℕ) (path : List Char) : List Char :=
  path.drop (if p.regex.isSome then regexMatch path else p.matched.toList.length)

/-- The path as it is documented, for the part of it that is left after the matched prefix. -/
def RewriteConfig.expectedPath (lib : Regexps) (rw : RewriteConfig) (rest path : List Char) : List Char :=
  match rw.pathRegex with
  | some re =>
    match lib.divide re.pattern with
    | some divide => (divide path).flatMap fun
      | .text chars => chars
      | .match groups => substitute groups re.substitution.toList
    | none => path
  | none => if rw.path = "" then path else rw.path.toList ++ joinTail rw.path.toList rest

/-- If the expression matches a path at all, its substitution refers to no group, in either notation. -/
def RewriteConfig.Literal (lib : Regexps) (rw : RewriteConfig) (path : List Char) : Prop :=
  ∀ re divide, rw.pathRegex = some re → lib.divide re.pattern = some divide →
    (∃ groups, Segment.match groups ∈ divide path) →
    refersWithDollar lib.isWord re.substitution.toList = false ∧
      refersToGroup re.substitution.toList = false

/-- Nothing is to be appended to a value. -/
def Whole (value rest : List Char) : Prop := rest = [] ∨ rest = ['/'] ∧ value.getLast? = some '/'

/-! ## Results -/

theorem setHost_path (value : String) (r : Rewritable) : (RewriteConfig.setHost value r).path = r.path := by
  unfold RewriteConfig.setHost
  split <;> rfl

theorem applyRewrite_path (lib : Regexps) (rw : RewriteConfig) (r : Rewritable) :
    (rw.applyRewrite lib r).path = rw.rewritePath lib r.path := by
  unfold RewriteConfig.applyRewrite
  dsimp only
  split_ifs <;> simp only [setHost_path]

theorem refersWithDollar_of_append {isWord : Char → Bool} {front rest : List Char}
    (h : refersWithDollar isWord (front ++ rest) = false) : refersWithDollar isWord rest = false := by
  induction front with
  | nil => exact h
  | cons c front ih => exact ih (Bool.or_eq_false_iff.mp h).2

/-- A template in which no dollar sign refers to anything stands for itself. -/
theorem expand_eq_self {isWord : Char → Bool} {g : Groups} (fuel : ℕ) {template : List Char}
    (h : refersWithDollar isWord template = false) : expand isWord g fuel template = template := by
  induction fuel generalizing template with
  | zero => rfl
  | succ fuel ih =>
    have hsplit : template.takeWhile (· ≠ '$') ++ template.dropWhile (· ≠ '$') = template :=
      List.takeWhile_append_dropWhile
    rw [expand]
    cases hdrop : template.dropWhile (· ≠ '$') with
    | nil => rfl
    | cons c after =>
      have hc : c = '$' := by
        have hne : template.dropWhile (· ≠ '$') ≠ [] := hdrop ▸ List.cons_ne_nil c after
        have hhead := List.head_dropWhile_not (· ≠ '$') hne
        simp only [hdrop, List.head_cons] at hhead
        simpa using hhead
      subst hc
      rw [hdrop] at hsplit
      rw [← hsplit] at h
      -- the first dollar sign is kept, and so is what comes behind it
      obtain ⟨hsign, hafter⟩ := Bool.or_eq_false_iff.mp (refersWithDollar_of_append h)
      have hkept : ¬after.head? = some '$' ∧ extract isWord after = none := by
        simpa using hsign
      simp only [if_neg hkept.1, hkept.2, ih hafter]
      exact hsplit

theorem substitute_eq_self {g : Groups} {template : List Char} (h : refersToGroup template = false) :
    substitute g template = template := by
  fun_induction refersToGroup template with
  | case1 c rest ih =>
    obtain ⟨hdigit, hrest⟩ := Bool.or_eq_false_iff.mp h
    rw [substitute, if_neg (by simp [hdigit]), ih hrest]
  | case2 c rest hne ih =>
    rw [substitute, ih h]
    exact hne
  | case3 => rfl

theorem rooted_append {value : List Char} (h : value ≠ []) (rest : List Char) :
    rooted (value ++ rest) = rooted value ++ rest := by
  obtain ⟨c, value, rfl⟩ := List.exists_cons_of_ne_nil h
  unfold rooted
  split_ifs with h1 h2 h2 <;> simp_all

theorem joinTail_eq_nil_iff (value rest : List Char) : joinTail value rest = [] ↔ Whole value rest := by
  unfold joinTail Whole
  cases rest with
  | nil => simp
  | cons c rest => by_cases hc : c = '/' <;> by_cases hv : value.getLast? = some '/' <;> simp [hc, hv]

/-- A value in the place of the path is the documented path exactly if nothing is to be appended. -/
theorem rooted_eq_iff {value : List Char} (h : value ≠ []) (rest : List Char) :
    rooted value = rooted (value ++ joinTail value rest) ↔ Whole value rest := by
  rw [rooted_append h, List.self_eq_append_right, joinTail_eq_nil_iff]

/-- The rewrite that a route is stored with for a filter of the Gateway API. -/
def gatewayRewrite (f : HTTPRouteFilter) : RewriteConfig :=
  { toRouteRewrite := (decodeForward ⟨[], some (mapRewriteFilter f.toInput)⟩).rewrite.getD ⟨"", ""⟩ }

theorem gatewayRewrite_path {f : HTTPRouteFilter} {r : HTTPURLRewriteFilter} {v : String}
    (htype : f.type = .urlRewrite) (hr : f.urlRewrite = some r) (hv : r.replacePrefixMatch = some v) :
    (gatewayRewrite f).path = v := by
  simp only [gatewayRewrite, decodeForward, Option.map_some, Option.getD_some, HTTPRouteFilter.toInput, htype,
    hr, hv, mapRewriteFilter, nonEmpty]
  split_ifs with hempty
  · exact hempty.symm
  · rfl

section Forwarded

variable (lib : Regexps) (rw : RewriteConfig) (r : Rewritable) (rest : List Char)

theorem forwardedPath_value (hregex : rw.pathRegex = none) (hpath : rw.path ≠ "") :
    rw.forwardedPath lib r = rooted (rw.path.toList ++ joinTail rw.path.toList rest) ↔
      Whole rw.path.toList rest := by
  rw [RewriteConfig.forwardedPath, applyRewrite_path, RewriteConfig.rewritePath, hregex]
  simp only [if_neg hpath]
  exact rooted_eq_iff (by simpa using hpath) rest

theorem forwardedPath_eq (h : rw.Literal lib r.path) (hpath : rw.pathRegex = none → rw.path = "") :
    rw.forwardedPath lib r = rooted (rw.expectedPath lib rest r.path) := by
  rw [RewriteConfig.forwardedPath, applyRewrite_path, RewriteConfig.rewritePath, RewriteConfig.expectedPath]
  cases hregex : rw.pathRegex with
  | none => simp only [if_pos (hpath hregex)]
  | some re =>
    cases hdivide : lib.divide re.pattern with
    | none => simp only [hdivide]
    | some divide =>
      simp only [hdivide]
      refine congrArg rooted (List.flatMap_congr fun segment hmem => ?_)
      cases segment with
      | text chars => rfl
      | «match» groups =>
        obtain ⟨hdollar, hgroup⟩ := h re divide hregex hdivide ⟨groups, hmem⟩
        exact (expand_eq_self _ hdollar).trans (substitute_eq_self hgroup).symm

end Forwarded

/-- With a substitution that refers to no group where it is used, the path that is forwarded is the
documented one exactly if `rewrite.path` is not given or nothing is to be appended to it. For a filter of
the Gateway API an empty value is not a rewrite at all. -/
theorem forwardedPath_iff (lib : Regexps) (p : PathMatcher) (regexMatch : List Char → ℕ) (rw : RewriteConfig)
    (r : Rewritable) (hliteral : rw.Literal lib r.path) :
    (rw.forwardedPath lib r = rooted (rw.expectedPath lib (p.remainder regexMatch r.path) r.path) ↔
      (rw.pathRegex = none → rw.path ≠ "" → Whole rw.path.toList (p.remainder regexMatch r.path))) ∧
    ∀ (f : HTTPRouteFilter) (u : HTTPURLRewriteFilter) (v : String), f.type = .urlRewrite →
      f.urlRewrite = some u → u.replacePrefixMatch = some v →
      ((gatewayRewrite f).forwardedPath lib r =
          rooted (v.toList ++ joinTail v.toList (p.remainder regexMatch r.path)) ↔
        (v = "" ∧ rooted r.path = rooted (joinTail [] (p.remainder regexMatch r.path))) ∨
          (v ≠ "" ∧ Whole v.toList (p.remainder regexMatch r.path))) := by
  constructor
  · by_cases hvalue : rw.pathRegex = none ∧ rw.path ≠ ""
    · obtain ⟨hregex, hpath⟩ := hvalue
      have hexpected : rw.expectedPath lib (p.remainder regexMatch r.path) r.path =
          rw.path.toList ++ joinTail rw.path.toList (p.remainder regexMatch r.path) := by
        rw [RewriteConfig.expectedPath, hregex]
        exact if_neg hpath
      rw [hexpected, forwardedPath_value lib rw r _ hregex hpath]
      exact ⟨fun h _ _ => h, fun h => h hregex hpath⟩
    · have hnone : rw.pathRegex = none → rw.path = "" := fun hregex =>
        not_not.mp fun hpath => hvalue ⟨hregex, hpath⟩
      exact iff_of_true (forwardedPath_eq lib rw r _ hliteral hnone) fun hregex hpath =>
        absurd (hnone hregex) hpath
  · intro f u v htype hu hv
    have hpath := gatewayRewrite_path htype hu hv
    by_cases hempty : v = ""
    · -- `nonEmpty` leaves the key out, so the server sees no rewrite
      subst hempty
      have hkept : (gatewayRewrite f).forwardedPath lib r = rooted r.path := by
        rw [RewriteConfig.forwardedPath, applyRewrite_path]
        exact congrArg rooted (if_pos hpath)
      rw [hkept]
      simp
    · have hiff := forwardedPath_value lib (gatewayRewrite f) r (p.remainder regexMatch r.path) rfl
        (by rwa [hpath])
      rw [hpath] at hiff
      simp only [hiff, hempty, false_and, false_or, ne_eq, not_false_eq_true, true_and]

/-- A library that knows the expression `^/u/(.*)`. -/
def userRegexps : Regexps where
  divide pattern :=
    if pattern = "^/u/(.*)" then
      some fun path =>
        if "/u/".toList.isPrefixOf path then [.match ⟨[some path, some (path.drop 3)], []⟩] else [.text path]
    else none
  isWord c := c.isAlphanum || c = '_'

def requestTo (path : String) : Rewritable := ⟨path.toList, "example.com", fun _ => []⟩

/-- The documented example: `/api/v1` is to become `/internal`. -/
def internal : RewriteConfig := { path := "/internal", host := "" }

/-- The documented form of a reference to the first group. -/
def toUser : RewriteConfig := { path := "", host := "", pathRegex := some ⟨"^/u/(.*)", "/user/\\1"⟩ }

theorem forwardedPath_whole :
    internal.forwardedPath userRegexps (requestTo "/api/v1") = rooted (internal.expectedPath userRegexps
        (PathMatcher.remainder { pathPrefix := "/api/v1" } (fun _ => 0) (requestTo "/api/v1").path)
        (requestTo "/api/v1").path) :=
  (forwardedPath_iff userRegexps { pathPrefix := "/api/v1" } (fun _ => 0) internal (requestTo "/api/v1")
    fun _ _ h => by cases h).1.mpr fun _ _ => .inl rfl

/-- The rest of a path is lost, and a reference to a group stands for itself. -/
theorem forwardedPath_lost :
    internal.forwardedPath userRegexps (requestTo "/api/v1/users") = "/internal".toList ∧
    internal.expectedPath userRegexps
        (PathMatcher.remainder { pathPrefix := "/api/v1" } (fun _ => 0) (requestTo "/api/v1/users").path)
        (requestTo "/api/v1/users").path = "/internal/users".toList ∧
    toUser.forwardedPath userRegexps (requestTo "/u/7") = "/user/\\1".toList ∧
    toUser.expectedPath userRegexps [] (requestTo "/u/7").path = "/user/7".toList := by
  decide

end Vrata.Proxy

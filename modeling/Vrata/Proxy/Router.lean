import Vrata.Server.Model

/-!
# The proxy's routing table

Reference: `server/internal/proxy/table.go` (`compileRoute`, `BuildTable`) and `router.go` (`match`,
`ServeHTTP`).

Regular expressions and CEL programs are compiled by libraries; `Engine` stands for them, and every
statement about the table holds for every engine. A route that does not compile is left out of the
table. Handlers, middleware chains and destination pools are not part of matching and are left out.
-/

namespace Vrata.Proxy

open Server

/-- A request as the HTTP server hands it over. `header` and `query` give the first value of a
header under its canonical key and of a query parameter, and the empty text for one that is absent.
The path of a request line is rooted, is `*`, or is empty. -/
structure Request where
  method : String
  host : String
  path : String
  header : String → String
  query : String → String
  path_form : path = "" ∨ path = "*" ∨ Text.hasPrefix path "/" = true

/-- `regexp.Compile` with `MatchString`, and `celeval.Compile` with `Eval`. -/
structure Engine where
  regex : String → Option (String → Bool)
  cel : String → Option (Request → Bool)

/-- No expression compiles. -/
def noEngine : Engine := ⟨fun _ => none, fun _ => none⟩

/-! ## Text helpers -/

/-- The characters of an HTTP token. -/
def isTokenChar (c : Char) : Bool :=
  c.isAlphanum ||
    c ∈ ['!', '#', '$', '%', '&', '\x27', '*', '+', '-', '.', '^', '_', '\x60', '|', '~']

/-- The key under which a header is stored: names that are tokens are compared without regard to
case. -/
def canonicalKey (name : String) : String :=
  if name.toList.all isTokenChar then Text.toLower name else name

theorem toLower_canonicalKey (s : String) : Text.toLower (canonicalKey s) = Text.toLower s := by
  unfold canonicalKey
  split
  · exact Text.toLower_toLower s
  · rfl

theorem fold_canonicalKey (s : String) : Text.fold (canonicalKey s) = Text.fold s := by
  rw [← Text.fold_toLower, toLower_canonicalKey, Text.fold_toLower]

def Request.get (req : Request) (name : String) : String := req.header (canonicalKey name)

/-- `regexp.QuoteMeta`. -/
def quoteMeta (s : String) : String :=
  String.ofList (s.toList.flatMap fun c =>
    if c ∈ ['\\', '.', '+', '*', '?', '(', ')', '|', '[', ']', '\x7b', '\x7d', '^', '$'] then
      ['\\', c]
    else [c])

/-! ## Compiling -/

/-- `pathRegex`, `pathExact` and `pathPrefix` of a compiled route. -/
structure PathMatcher where
  regex : Option (String → Bool) := none
  exact : String := ""
  pathPrefix : String := ""

/-- A header or query parameter matcher. The expression is nil for an exact match. -/
structure ValueMatcher where
  name : String
  value : String
  regex : Option (String → Bool)

structure CompiledRoute where
  model : Route
  group : Option RouteGroup
  path : PathMatcher
  methods : Option (List String)
  headers : List ValueMatcher
  queryParams : List ValueMatcher
  grpcOnly : Bool
  hostnames : List String
  celProgram : Option (Request → Bool)

/-- Compose the path of a route with the regular expression of its group. -/
def groupRegexPattern (groupRegex : String) (m : MatchRule) : String :=
  if m.pathRegex ≠ "" then "(?:" ++ groupRegex ++ ")(?:" ++ m.pathRegex ++ ")"
  else if m.path ≠ "" then "(?:" ++ groupRegex ++ ")(?:" ++ quoteMeta m.path ++ ")"
  else if m.pathPrefix ≠ "" then "(?:" ++ groupRegex ++ ")(?:" ++ quoteMeta m.pathPrefix ++ ")"
  else groupRegex

/-- Compose the path of a route with the prefix of its group. -/
def compilePath (eng : Engine) (groupPrefix groupRegex : String) (m : MatchRule) :
    Option PathMatcher :=
  if groupRegex ≠ "" then
    (eng.regex ("^" ++ groupRegexPattern groupRegex m)).map fun re => { regex := some re }
  else if m.path ≠ "" then some { exact := groupPrefix ++ m.path }
  else if m.pathPrefix ≠ "" then some { pathPrefix := groupPrefix ++ m.pathPrefix }
  else if m.pathRegex ≠ "" then
    (eng.regex ("^" ++ groupPrefix ++ m.pathRegex)).map fun re => { regex := some re }
  else some { pathPrefix := if groupPrefix = "" then "/" else groupPrefix }

/-- Compile one header or query parameter matcher. -/
def compileValue (eng : Engine) (name value : String) (regex : Bool) : Option ValueMatcher :=
  if regex && value ≠ "" then (eng.regex value).map fun re => ⟨name, value, some re⟩
  else some ⟨name, value, none⟩

/-- Append the hostnames that are not there yet. -/
def mergeHostnames (groupHostnames routeHostnames : List String) : List String :=
  routeHostnames.foldl (fun hs h => if h ∈ hs then hs else hs ++ [h]) groupHostnames

/-- Compile an optional CEL expression. -/
def compileCEL (eng : Engine) (cel : String) : Option (Option (Request → Bool)) :=
  if cel = "" then some none else (eng.cel cel).map some

def compileRoute (eng : Engine) (r : Route) (g : Option RouteGroup) : Option CompiledRoute := do
  let path ← compilePath eng ((g.map RouteGroup.pathPrefix).getD "")
    ((g.map RouteGroup.pathRegex).getD "") r.match
  let rawHeaders := r.match.headers ++ (g.map RouteGroup.headers).getD []
  let headers ← rawHeaders.mapM fun h => compileValue eng h.name h.value h.regex
  let queryParams ← r.match.queryParams.mapM fun q => compileValue eng q.name q.value q.regex
  let celProgram ← compileCEL eng r.match.cel
  return {
    model := r
    group := g
    path := path
    methods := if r.match.methods = [] then none else some (r.match.methods.map Text.toUpper)
    headers := headers
    queryParams := queryParams
    grpcOnly := r.match.grpc
    hostnames := mergeHostnames ((g.map RouteGroup.hostnames).getD []) r.match.hostnames
    celProgram := celProgram }

/-! ## Matching -/

/-- The host of a request without the port. -/
def Request.hostname (req : Request) : String := Text.before ':' req.host

def PathMatcher.accepts (p : PathMatcher) (path : String) : Bool :=
  match p.regex with
  | some re => re path
  | none =>
    if p.exact ≠ "" then path = p.exact
    else if p.pathPrefix ≠ "" then Text.hasPrefix path p.pathPrefix
    else true

/-- A value that is absent or empty is never accepted. -/
def ValueMatcher.accepts (m : ValueMatcher) (val : String) : Bool :=
  val ≠ "" &&
    (m.value = "" ||
      match m.regex with
      | some re => re val
      | none => val = m.value)

def hostAccepted (hostnames : List String) (host : String) : Bool :=
  hostnames = [] || hostnames.any fun h => h = "*" || h = host

/-- `match` of a compiled route. -/
def CompiledRoute.accepts (cr : CompiledRoute) (req : Request) : Bool :=
  hostAccepted cr.hostnames req.hostname &&
  cr.path.accepts req.path &&
  (cr.methods.all fun methods => methods.contains req.method) &&
  (!cr.grpcOnly || Text.hasPrefix (req.get "Content-Type") "application/grpc") &&
  (cr.headers.all fun h => h.accepts (req.get h.name)) &&
  (cr.queryParams.all fun q => q.accepts (req.query q.name)) &&
  (cr.celProgram.all fun cel => cel req)

/-! ## The table -/

/-- The route with an ID: later entries overwrite earlier ones in the map. -/
def routeByID (routes : List Route) (id : String) : Option Route :=
  routes.reverse.find? fun r => r.id = id

/-- Compiled routes of the groups in order, then the compiled routes that are in no group. -/
def buildTable (eng : Engine) (routes : List Route) (groups : List RouteGroup) :
    List CompiledRoute :=
  let inGroups := groups.flatMap fun g =>
    (g.routeIDs.filterMap (routeByID routes)).map fun r => (r, g)
  let standalone := routes.filter fun r => r.id ∉ inGroups.map fun (r, _) => r.id
  inGroups.filterMap (fun (r, g) => compileRoute eng r (some g)) ++
    standalone.filterMap fun r => compileRoute eng r none

/-- The route that a request is dispatched to. -/
def dispatch (table : List CompiledRoute) (req : Request) : Option CompiledRoute :=
  table.find? fun cr => cr.accepts req

end Vrata.Proxy

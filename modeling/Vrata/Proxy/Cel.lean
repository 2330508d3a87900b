import Vrata.Lib.Net
import Vrata.Proxy.Exchange
import Vrata.Proxy.Headers

/-!
# Which expressions need the body

Reference: `server/internal/proxy/celeval/cel.go` (`exprReferencesBody`, `Eval` and `buildRequestMap`).

Whether an expression needs the body of a request is decided by its text: it has to contain `request.body`.
The expressions are those of CEL as they are written: identifiers, selections, tests for fields, indexing,
parentheses, macros over the elements of a value, and everything else (operators, functions, lists and maps)
as calls, with the text around their arguments. What the functions and macros compute is a parameter, so the
statements hold whatever they are.

An expression is `Plain` if it uses `request` only to take a field other than the body, in any notation, or
the body in a selection that is written without a gap. For such expressions the text decides correctly; others
can reach the body unnoticed, as `request["body"]` does.
-/

namespace Vrata.Proxy

namespace Cel

inductive Value where
  | null
  | bool (b : Bool)
  | string (s : String)
  | list (elems : List Value)
  | map (entries : String → Option Value)
  /-- Any other value: its type and how it is written. -/
  | other (type repr : String)

/-- The field of a map. -/
def Value.field (name : String) : Value → Option Value
  | .map entries => entries name
  | _ => none

/-- `has`, which is an error for everything but a map. -/
def Value.hasField (name : String) : Value → Option Value
  | .map entries => some (.bool (entries name).isSome)
  | _ => none

/-- An expression with its text: the gap of a selection stands between the operand and the name of the field,
the brackets of an index around the key, and the pieces of a call before, between and behind its arguments. -/
inductive Expr where
  | const (text : String) (v : Value)
  | ident (name : String)
  | select (operand : Expr) (gap name : String)
  | has (operand : Expr) (gap name : String)
  | index (operand : Expr) (left : String) (key : Expr) (right : String)
  | paren (left : String) (e : Expr) (right : String)
  | call (fn : String) (pieces : List String) (args : List Expr)
  /-- A macro over the elements of a range, with the name of its variable. -/
  | each (name var : String) (pieces : List String) (range : Expr) (bodies : List Expr)

/-- What functions and macros compute. An argument that is an error is `none`. -/
structure Semantics where
  call : String → List (Option Value) → Option Value
  elements : Value → Option (List Value)
  fold : String → List (Value × List (Option Value)) → Option Value

/-- A map is indexed by the names of its fields; lists, and other keys, are left to the semantics. -/
def Value.index (S : Semantics) : Value → Value → Option Value
  | .map entries, .string name => entries name
  | v, key => S.call "[]" [some v, some key]

abbrev Vars := String → Option Value

mutual

def eval (S : Semantics) (vars : Vars) : Expr → Option Value
  | .const _ v => some v
  | .ident name => vars name
  | .select e _ name => (eval S vars e).bind (Value.field name)
  | .has e _ name => (eval S vars e).bind (Value.hasField name)
  | .index e _ key _ => (eval S vars e).bind fun v => (eval S vars key).bind (v.index S)
  | .paren _ e _ => eval S vars e
  | .call fn _ args => S.call fn (evals S vars args)
  | .each name var _ range bodies =>
    ((eval S vars range).bind S.elements).bind fun elems =>
      S.fold name (elems.map fun v => (v, evals S (Function.update vars var (some v)) bodies))

def evals (S : Semantics) (vars : Vars) : List Expr → List (Option Value)
  | [] => []
  | e :: es => eval S vars e :: evals S vars es

end

/-- The pieces of a text with other texts between them. -/
def interleave : List String → List (List Char) → List Char
  | pieces, [] => pieces.flatMap String.toList
  | [], text :: texts => text ++ interleave [] texts
  | piece :: pieces, text :: texts => piece.toList ++ (text ++ interleave pieces texts)

mutual

def render : Expr → List Char
  | .const text _ => text.toList
  | .ident name => name.toList
  | .select e gap name => render e ++ (gap.toList ++ name.toList)
  | .has e gap name => "has(".toList ++ (render e ++ (gap.toList ++ name.toList) ++ [')'])
  | .index e left key right => render e ++ (left.toList ++ (render key ++ right.toList))
  | .paren left e right => left.toList ++ (render e ++ right.toList)
  | .call _ pieces args => interleave pieces (renders args)
  | .each _ _ pieces range bodies => interleave pieces (render range :: renders bodies)

def renders : List Expr → List (List Char)
  | [] => []
  | e :: es => render e :: renders es

end

/-- `exprReferencesBody`. -/
def exprReferencesBody (e : Expr) : Bool := containsText (String.ofList (render e)) "request.body"

/-! ## Requests -/

structure PeerCertificate where
  uris : List String
  dnsNames : List String
  subject : String
  serial : String

/-- What expressions see of a request, except for its body. -/
structure Input where
  method : String
  host : String
  path : String
  header : Header
  query : String → List String
  remoteAddr : String
  /-- The connection is encrypted. -/
  secure : Bool
  peer : Option PeerCertificate

/-- A body that was buffered. -/
structure BodyData where
  raw : String
  json : Option (String → Option Value)

def Input.clientIP (r : Input) : String :=
  let xff := (r.header (canonicalKey "X-Forwarded-For")).headD ""
  if xff ≠ "" then Text.trimSpace (Text.before ',' xff)
  else ((Net.splitHostPort r.remoteAddr).map Prod.fst).getD r.remoteAddr

/-- The first value of each key. -/
def firstValues (values : String → List String) : Value :=
  .map fun key => (values key).head?.map .string

def BodyData.value (data : BodyData) : Value :=
  .map fun key =>
    if key = "raw" then some (.string data.raw) else if key = "json" then data.json.map .map else none

def PeerCertificate.value (cert : PeerCertificate) : Value :=
  .map fun key =>
    if key = "uris" then some (.list (cert.uris.map .string))
    else if key = "dnsNames" then some (.list (cert.dnsNames.map .string))
    else if key = "subject" then some (.string cert.subject)
    else if key = "serial" then some (.string cert.serial)
    else none

/-- The body is there if it was buffered, by whatever expression. -/
def buildRequestMap (r : Input) (data : Option BodyData) (key : String) : Option Value :=
  if key = "method" then some (.string r.method)
  else if key = "path" then some (.string r.path)
  else if key = "host" then some (.string (Text.before ':' r.host))
  else if key = "scheme" then some (.string (if r.secure then "https" else "http"))
  else if key = "headers" then some (firstValues r.header)
  else if key = "queryParams" then some (firstValues r.query)
  else if key = "clientIp" then some (.string r.clientIP)
  else if key = "body" then data.map BodyData.value
  else if key = "tls" then
    r.peer.map fun cert => .map fun k => if k = "peerCertificate" then some cert.value else none
  else none

/-- The variables of an expression over a request. -/
def requestVars (r : Input) (data : Option BodyData) : Vars :=
  fun name => if name = "request" then some (.map (buildRequestMap r data)) else none

/-- The result is the boolean true. -/
def isTrue : Option Value → Bool
  | some (.bool b) => b
  | _ => false

/-- `Eval`: an error counts as false. -/
def evalRequest (S : Semantics) (e : Expr) (r : Input) (data : Option BodyData) : Bool :=
  isTrue (eval S (requestVars r data) e)

/-! ## Plain expressions -/

/-- The variable `request`, possibly in parentheses. -/
def IsRequest : Expr → Prop
  | .ident name => name = "request"
  | .paren _ e _ => IsRequest e
  | _ => False

mutual

/-- `request` is only used to take a field other than the body, or to select the body without a gap. Below a
macro whose variable hides it, it is no longer the request. -/
def Plain : Expr → Prop
  | .const _ _ => True
  | .ident name => name ≠ "request"
  | .select e gap name =>
    IsRequest e ∧ name ≠ "body" ∨ (e = .ident "request" ∧ gap = ".") ∨ Plain e
  | .has e gap name =>
    IsRequest e ∧ name ≠ "body" ∨ (e = .ident "request" ∧ gap = ".") ∨ Plain e
  | .index e _ key _ =>
    (IsRequest e ∧ ∃ text name, key = .const text (.string name) ∧ name ≠ "body") ∨ Plain e ∧ Plain key
  | .paren _ e _ => Plain e
  | .call _ _ args => PlainAll args
  | .each _ var _ range bodies => Plain range ∧ (var = "request" ∨ PlainAll bodies)

def PlainAll : List Expr → Prop
  | [] => True
  | e :: es => Plain e ∧ PlainAll es

end

/-- The variables differ at most in the body of the request. -/
structure Agree (vars vars₂ : Vars) : Prop where
  other : ∀ {name}, name ≠ "request" → vars name = vars₂ name
  request : vars "request" = vars₂ "request" ∨ ∃ entries entries₂,
    vars "request" = some (.map entries) ∧ vars₂ "request" = some (.map entries₂) ∧
      ∀ name, name ≠ "body" → entries name = entries₂ name

section Plain

variable {vars vars₂ : Vars}

theorem agree_requestVars (r : Input) (data data' : Option BodyData) :
    Agree (requestVars r data) (requestVars r data') := by
  refine ⟨fun hname => ?_, .inr ⟨_, _, rfl, rfl, fun name hname => ?_⟩⟩
  · rw [requestVars, requestVars, if_neg hname, if_neg hname]
  · simp [buildRequestMap, hname]

/-- What only looks at a field other than the body is the same. -/
theorem Agree.bind (h : Agree vars vars₂) {f : Value → Option Value} {name : String} (hname : name ≠ "body")
    (hf : ∀ entries entries₂, entries name = entries₂ name → f (.map entries) = f (.map entries₂)) :
    (vars "request").bind f = (vars₂ "request").bind f := by
  rcases h.request with heq | ⟨entries, entries₂, h₁, h₂, hentries⟩
  · rw [heq]
  · rw [h₁, h₂]
    exact hf entries entries₂ (hentries name hname)

theorem Agree.field (h : Agree vars vars₂) {name : String} (hname : name ≠ "body") :
    (vars "request").bind (Value.field name) = (vars₂ "request").bind (Value.field name) :=
  h.bind hname fun _ _ heq => heq

theorem Agree.hasField (h : Agree vars vars₂) {name : String} (hname : name ≠ "body") :
    (vars "request").bind (Value.hasField name) = (vars₂ "request").bind (Value.hasField name) :=
  h.bind hname fun _ _ heq => congrArg (fun v : Option Value => some (Value.bool v.isSome)) heq

/-- A variable that hides the request is the same element on both sides. -/
theorem Agree.hide (h : Agree vars vars₂) (v : Value) :
    Function.update vars "request" (some v) = Function.update vars₂ "request" (some v) := by
  funext name
  by_cases hname : name = "request"
  · rw [hname, Function.update_self, Function.update_self]
  · rw [Function.update_of_ne hname, Function.update_of_ne hname, h.other hname]

theorem Agree.update (h : Agree vars vars₂) {var : String} (hvar : var ≠ "request") (v : Value) :
    Agree (Function.update vars var (some v)) (Function.update vars₂ var (some v)) := by
  refine ⟨fun {name} hname => ?_, ?_⟩
  · by_cases hsame : name = var
    · rw [hsame, Function.update_self, Function.update_self]
    · rw [Function.update_of_ne hsame, Function.update_of_ne hsame, h.other hname]
  · rw [Function.update_of_ne hvar.symm, Function.update_of_ne hvar.symm]
    exact h.request

theorem eval_of_isRequest (S : Semantics) (vars : Vars) : (e : Expr) → IsRequest e →
    eval S vars e = vars "request"
  | .ident _, h => congrArg vars h
  | .paren _ e _, h => eval_of_isRequest S vars e h

theorem infix_interleave {text : List Char} {pieces : List String} {texts : List (List Char)}
    (h : text ∈ texts) : text <:+: interleave pieces texts := by
  induction texts generalizing pieces with
  | nil => cases h
  | cons t texts ih =>
    have hrest : text = t ∨ ∀ pieces, text <:+: interleave pieces texts :=
      (List.mem_cons.mp h).imp id fun hmem pieces => ih hmem
    cases pieces with
    | nil =>
      rcases hrest with rfl | hrest
      · exact (List.prefix_append _ _).isInfix
      · exact (hrest []).trans (List.suffix_append _ _).isInfix
    | cons piece pieces =>
      rcases hrest with rfl | hrest
      · exact (List.prefix_append _ _).isInfix.trans (List.suffix_append _ _).isInfix
      · exact (hrest pieces).trans
          ((List.suffix_append _ _).trans (List.suffix_append _ _)).isInfix

/-- A selection whose text does not name the body is one of another field. -/
theorem ne_body {name : String} {text : List Char}
    (htext : "request".toList ++ (".".toList ++ name.toList) <:+: text)
    (h : ¬"request.body".toList <:+: text) : name ≠ "body" := by
  rintro rfl
  exact h htext

mutual

/-- A plain expression whose text does not name the body does not look at it. -/
theorem eval_congr (S : Semantics) : (e : Expr) → {vars vars₂ : Vars} → Agree vars vars₂ → Plain e →
    ¬"request.body".toList <:+: render e → eval S vars e = eval S vars₂ e
  | .const _ _, _, _, _, _, _ => rfl
  | .ident _, _, _, h, hplain, _ => h.other hplain
  | .select e gap name, vars, vars₂, h, hplain, htext => by
    simp only [eval]
    -- a field other than the body, a field of the request whose text stands in the source, or another one
    rcases hplain with ⟨hrequest, hname⟩ | ⟨rfl, rfl⟩ | hplain
    · rw [eval_of_isRequest S vars e hrequest, eval_of_isRequest S vars₂ e hrequest, h.field hname]
    · exact h.field (ne_body List.infix_rfl htext)
    · rw [eval_congr S e h hplain fun hin => htext (hin.trans (List.prefix_append _ _).isInfix)]
  | .has e gap name, vars, vars₂, h, hplain, htext => by
    simp only [eval]
    have hpart : render e ++ (gap.toList ++ name.toList) <:+: render (.has e gap name) :=
      (List.prefix_append _ _).isInfix.trans (List.suffix_append _ _).isInfix
    rcases hplain with ⟨hrequest, hname⟩ | ⟨rfl, rfl⟩ | hplain
    · rw [eval_of_isRequest S vars e hrequest, eval_of_isRequest S vars₂ e hrequest, h.hasField hname]
    · exact h.hasField (ne_body hpart htext)
    · rw [eval_congr S e h hplain fun hin =>
        htext ((hin.trans (List.prefix_append _ _).isInfix).trans hpart)]
  | .index e left key right, vars, vars₂, h, hplain, htext => by
    simp only [eval]
    rcases hplain with ⟨hrequest, text, name, rfl, hname⟩ | ⟨hplain, hkey⟩
    · rw [eval_of_isRequest S vars e hrequest, eval_of_isRequest S vars₂ e hrequest]
      exact h.bind hname fun _ _ heq => heq
    · have hin : render key <:+: render (.index e left key right) :=
        ((List.prefix_append _ _).isInfix.trans (List.suffix_append _ _).isInfix).trans
          (List.suffix_append _ _).isInfix
      rw [eval_congr S e h hplain fun hin => htext (hin.trans (List.prefix_append _ _).isInfix),
        eval_congr S key h hkey fun hbody => htext (hbody.trans hin)]
  | .paren left e right, _, _, h, hplain, htext =>
    eval_congr S e h hplain fun hin => htext <|
      hin.trans ((List.prefix_append _ _).isInfix.trans (List.suffix_append _ _).isInfix)
  | .call fn pieces args, _, _, h, hplain, htext => by
    simp only [eval]
    rw [evals_congr S args h hplain fun text hmem hin => htext (hin.trans (infix_interleave hmem))]
  | .each name var pieces range bodies, vars, vars₂, h, ⟨hrange, hbodies⟩, htext => by
    simp only [eval]
    have hin : ∀ text ∈ render range :: renders bodies, ¬"request.body".toList <:+: text :=
      fun text hmem hin => htext (hin.trans (infix_interleave hmem))
    -- the variable of the macro is bound to the same elements on both sides
    have hall : ∀ v, evals S (Function.update vars var (some v)) bodies =
        evals S (Function.update vars₂ var (some v)) bodies := by
      intro v
      by_cases hvar : var = "request"
      · rw [hvar, h.hide v]
      · exact evals_congr S bodies (h.update hvar v) (hbodies.resolve_left hvar) fun text hmem =>
          hin text (List.mem_cons_of_mem _ hmem)
    simp only [eval_congr S range h hrange (hin _ List.mem_cons_self), hall]

theorem evals_congr (S : Semantics) : (es : List Expr) → {vars vars₂ : Vars} → Agree vars vars₂ →
    PlainAll es → (∀ text ∈ renders es, ¬"request.body".toList <:+: text) →
    evals S vars es = evals S vars₂ es
  | [], _, _, _, _, _ => rfl
  | e :: es, _, _, h, ⟨hplain, hall⟩, htext => by
    rw [evals, evals, eval_congr S e h hplain (htext _ List.mem_cons_self),
      evals_congr S es h hall fun text hmem => htext text (List.mem_cons_of_mem _ hmem)]

end

end Plain

/-- A plain expression that is not said to need the body gives the same result for every body, whether it
was buffered or not. -/
theorem evalRequest_eq_of_plain (S : Semantics) (e : Expr) (hplain : Plain e)
    (hneeds : exprReferencesBody e = false) (r : Input) (data data' : Option BodyData) :
    evalRequest S e r data = evalRequest S e r data' := by
  have htext : ¬"request.body".toList <:+: render e := by
    simpa [exprReferencesBody, containsText] using hneeds
  rw [evalRequest, evalRequest, eval_congr S e (agree_requestVars r data data') hplain htext]

/-- Comparison of texts. -/
def basics : Semantics where
  call
    | "==", [some (.string a), some (.string b)] => some (.bool (a = b))
    | _, _ => none
  elements _ := none
  fold _ _ := none

/-- A request over an encrypted connection. -/
def sampleInput : Input where
  method := "POST"
  host := "example.com"
  path := "/"
  header _ := []
  query _ := []
  remoteAddr := "192.0.2.1:40000"
  secure := true
  peer := none

/-- `request.method == "POST"`. -/
def methodIsPost : Expr :=
  .call "==" ["", " == "] [.select (.ident "request") "." "method", .const "\"POST\"" (.string "POST")]

theorem evalRequest_methodIsPost : evalRequest basics methodIsPost sampleInput (some ⟨"secret", none⟩) =
    evalRequest basics methodIsPost sampleInput none :=
  evalRequest_eq_of_plain basics methodIsPost ⟨.inl ⟨rfl, by decide⟩, trivial, trivial⟩ (by decide)
    sampleInput
    (some ⟨"secret", none⟩) none

/-- `request["body"]["raw"] == "secret"`. -/
def indexedBody : Expr :=
  .call "==" ["", " == "]
    [.index (.index (.ident "request") "[" (.const "\"body\"" (.string "body")) "]") "["
        (.const "\"raw\"" (.string "raw")) "]",
      .const "\"secret\"" (.string "secret")]

/-- Index notation reaches the body, and is not said to need it: the result depends on the body if something
else has buffered it, and is false otherwise. -/
theorem indexedBody_depends : exprReferencesBody indexedBody = false ∧
    evalRequest basics indexedBody sampleInput (some ⟨"secret", none⟩) = true ∧
    evalRequest basics indexedBody sampleInput (some ⟨"", none⟩) = false ∧
    evalRequest basics indexedBody sampleInput none = false := by
  refine ⟨by decide, rfl, rfl, rfl⟩

end Cel

end Vrata.Proxy

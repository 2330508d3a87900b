import Vrata.Controller.Mapper
import Vrata.Proxy.Router

/-!
# What a mapped route accepts

The way from a match of the mapper's input to the proxy's decision about a request leads through
`mapMatch`, the JSON on the wire, `compileRoute` and `accepts`. `compiled_accepts_iff` composes them
once and for all: a mapped route accepts a request if and only if the hostnames of the HTTPRoute, and
the path, method and headers of the match do, each in the sense stated here directly on the input.
-/

namespace Vrata.Pipeline

open Controller Server Proxy

/-- The compiled route of one match, in the group of its HTTPRoute. -/
def compiledMatch (eng : Engine) (x : HTTPRouteInput) (ri : ℕ) (rule : RuleInput) (mi : ℕ)
    (m : MatchInput) : Option CompiledRoute :=
  compileRoute eng
    (decodeRoute ((ruleRoute x.groupName ri rule mi m).load (mapHTTPRoute x).slices))
    (some (decodeGroup (mapHTTPRoute x).group))

/-- Does the compiled route of a match exist and accept the request? -/
def MatchAccepts (eng : Engine) (x : HTTPRouteInput) (ri : ℕ) (rule : RuleInput) (mi : ℕ)
    (m : MatchInput) (req : Proxy.Request) : Prop :=
  ∃ cr, compiledMatch eng x ri rule mi m = some cr ∧ cr.accepts req = true

/-- The path of a match: an empty value falls through to the prefix `/`. -/
def PathAccepted (eng : Engine) (m : MatchInput) (path : String) : Prop :=
  if m.pathValue = "" then Text.hasPrefix path "/" = true
  else
    match m.pathType with
    | some .exact => path = m.pathValue
    | some .regularExpression => ∃ re, eng.regex ("^" ++ m.pathValue) = some re ∧ re path = true
    | _ => Text.hasPrefix path m.pathValue = true

def MethodAccepted (m : MatchInput) (method : String) : Prop :=
  ∀ allowed, m.method = some allowed → method = allowed.name

def HeaderAccepted (eng : Engine) (h : HeaderMatchInput) (val : String) : Prop :=
  val ≠ "" ∧
    (h.value = "" ∨
      if h.type = some .regularExpression then ∃ re, eng.regex h.value = some re ∧ re val = true
      else val = h.value)

/-! ## Each component -/

/-- All of a list compiles to something good if and only if each element does. -/
theorem exists_mapM_all_iff {α β : Type} {f : α → Option β} {p : β → Bool} {xs : List α} :
    (∃ ys, xs.mapM f = some ys ∧ ys.all p = true) ↔
      ∀ a ∈ xs, ∃ b, f a = some b ∧ p b = true := by
  induction xs with
  | nil => simp
  | cons a xs ih =>
    rw [List.forall_mem_cons, ← ih]
    cases hf : f a with
    | none => simp [List.mapM_cons, hf]
    | some b =>
      cases hxs : xs.mapM f with
      | none => simp [List.mapM_cons, hf, hxs]
      | some ys => simp [List.mapM_cons, hf, hxs]

theorem compilePath_mapMatch_iff {eng : Engine} {m : MatchInput} {path : String} :
    (∃ p, compilePath eng "" "" (decodeMatch (mapMatch m)) = some p ∧ p.accepts path = true) ↔
      PathAccepted eng m path := by
  unfold PathAccepted
  by_cases hv : m.pathValue = ""
  · rw [if_pos hv]
    cases hm : m.pathType with
    | none => simp [compilePath, decodeMatch, mapMatch, PathMatcher.accepts, hv, hm]
    | some t =>
      cases t <;> simp [compilePath, decodeMatch, mapMatch, PathMatcher.accepts, hv, hm]
  · rw [if_neg hv]
    cases hm : m.pathType with
    | none => simp [compilePath, decodeMatch, mapMatch, PathMatcher.accepts, hv, hm]
    | some t =>
      cases t with
      | exact | pathPrefix => simp [compilePath, decodeMatch, mapMatch, PathMatcher.accepts, hv, hm]
      | regularExpression =>
        simp [compilePath, decodeMatch, mapMatch, PathMatcher.accepts, hv, hm]

theorem compileValue_iff {eng : Engine} {h : HeaderMatchInput} {req : Proxy.Request} :
    (∃ vm, compileValue eng h.name h.value (h.type = some .regularExpression) = some vm ∧
        vm.accepts (req.get vm.name) = true) ↔
      HeaderAccepted eng h (req.get h.name) := by
  unfold HeaderAccepted compileValue
  by_cases hv : h.value = ""
  · simp [hv, ValueMatcher.accepts]
  · by_cases ht : h.type = some .regularExpression
    · simp only [hv, ht, ValueMatcher.accepts, ne_eq, not_false_eq_true, decide_true, Bool.and_self,
        if_true, Option.map_eq_some_iff, false_or]
      constructor
      · rintro ⟨_, ⟨re, hre, rfl⟩, hacc⟩
        simp only [Bool.and_eq_true, decide_eq_true_eq, hv, decide_false, Bool.false_or] at hacc
        exact ⟨hacc.1, re, hre, hacc.2⟩
      · rintro ⟨hne, re, hre, hacc⟩
        exact ⟨_, ⟨re, hre, rfl⟩, by simp [hne, hacc]⟩
    · simp [hv, ht, ValueMatcher.accepts]

theorem toUpper_method (method : HTTPMethod) : Text.toUpper method.name = method.name := by
  cases method <;> decide

theorem methods_mapMatch_iff {m : MatchInput} {method : String} :
    ((if (decodeMatch (mapMatch m)).methods = [] then none
        else some ((decodeMatch (mapMatch m)).methods.map Text.toUpper)).all
        fun methods => methods.contains method) = true ↔
      MethodAccepted m method := by
  unfold MethodAccepted
  cases hm : m.method with
  | none => simp [decodeMatch, mapMatch, hm]
  | some allowed => simp [decodeMatch, mapMatch, hm, toUpper_method]

theorem headers_mapMatch (m : MatchInput) :
    (decodeMatch (mapMatch m)).headers =
      m.headers.map fun h => ⟨h.name, h.value, h.type = some .regularExpression⟩ := by
  unfold decodeMatch mapMatch
  by_cases hm : m.headers = [] <;> simp [hm, Function.comp_def]

/-! ## The whole route -/

/-- The mapper sets no query parameters, no CEL expression and nothing but hostnames on the group,
so a mapped route compiles when its path and its headers do. -/
theorem compiledMatch_eq_some_iff {eng : Engine} {x : HTTPRouteInput} {ri mi : ℕ}
    {rule : RuleInput} {m : MatchInput} {cr : CompiledRoute} :
    compiledMatch eng x ri rule mi m = some cr ↔ ∃ path headers,
      compilePath eng "" "" (decodeMatch (mapMatch m)) = some path ∧
      (decodeMatch (mapMatch m)).headers.mapM
        (fun h => compileValue eng h.name h.value h.regex) = some headers ∧
      { model := decodeRoute ((ruleRoute x.groupName ri rule mi m).load (mapHTTPRoute x).slices)
        group := some (decodeGroup (mapHTTPRoute x).group)
        path := path
        methods := if (decodeMatch (mapMatch m)).methods = [] then none
          else some ((decodeMatch (mapMatch m)).methods.map Text.toUpper)
        headers := headers
        queryParams := []
        grpcOnly := false
        hostnames := x.hostnames
        celProgram := none : CompiledRoute } = cr := by
  have hraw : (decodeMatch (mapMatch m)).headers ++ [] = (decodeMatch (mapMatch m)).headers :=
    List.append_nil _
  rw [← hraw]
  simp only [compiledMatch, compileRoute, Option.bind_eq_bind, Option.bind_eq_some_iff,
    Option.pure_def, Option.some.injEq]
  constructor
  · rintro ⟨path, hpath, headers, hheaders, qs, hqs, cel, hcel, rfl⟩
    obtain rfl : [] = qs := Option.some.inj hqs
    obtain rfl : none = cel := Option.some.inj hcel
    exact ⟨path, headers, hpath, hheaders, rfl⟩
  · rintro ⟨path, headers, hpath, hheaders, rfl⟩
    exact ⟨path, hpath, headers, hheaders, [], rfl, none, rfl, rfl⟩

/-- A mapped route accepts a request if and only if hostnames, path, method and headers do. -/
theorem matchAccepts_iff {eng : Engine} {x : HTTPRouteInput} {ri mi : ℕ} {rule : RuleInput}
    {m : MatchInput} {req : Proxy.Request} :
    MatchAccepts eng x ri rule mi m req ↔
      hostAccepted x.hostnames req.hostname = true ∧ PathAccepted eng m req.path ∧
        MethodAccepted m req.method ∧ ∀ h ∈ m.headers, HeaderAccepted eng h (req.get h.name) := by
  have hheaders : (∃ hs, (decodeMatch (mapMatch m)).headers.mapM
        (fun h => compileValue eng h.name h.value h.regex) = some hs ∧
        (hs.all fun h => h.accepts (req.get h.name)) = true) ↔
      ∀ h ∈ m.headers, HeaderAccepted eng h (req.get h.name) := by
    rw [exists_mapM_all_iff, headers_mapMatch]
    simp only [List.forall_mem_map, compileValue_iff]
  rw [← compilePath_mapMatch_iff, ← methods_mapMatch_iff, ← hheaders, MatchAccepts]
  simp only [compiledMatch_eq_some_iff]
  constructor
  · rintro ⟨cr, ⟨path, headers, hpath, hhs, rfl⟩, hacc⟩
    simp only [CompiledRoute.accepts, Bool.and_eq_true] at hacc
    obtain ⟨⟨⟨⟨⟨⟨hhost, hp⟩, hm⟩, _⟩, hh⟩, _⟩, _⟩ := hacc
    exact ⟨hhost, ⟨path, hpath, hp⟩, hm, headers, hhs, hh⟩
  · rintro ⟨hhost, ⟨path, hpath, hp⟩, hm, headers, hhs, hh⟩
    refine ⟨_, ⟨path, headers, hpath, hhs, rfl⟩, ?_⟩
    simp only [CompiledRoute.accepts, Bool.and_eq_true]
    exact ⟨⟨⟨⟨⟨⟨hhost, hp⟩, hm⟩, rfl⟩, hh⟩, rfl⟩, rfl⟩

end Vrata.Pipeline

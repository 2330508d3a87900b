import Vrata.Controller.Dedup
import Vrata.Pipeline.Compiled

/-!
# Does the overlap detector agree with the proxy?

Two matches of different HTTPRoutes with the same header matchers overlap when some request is
accepted by both compiled routes. The detector decides this from the texts: it looks for a common
hostname (with `*` for an HTTPRoute without hostnames) and compares paths segment by segment. The
proxy reads `*` as every host and prefixes as plain text.

`bothAccept_iff` says in terms of the inputs when a common request exists, `reported_iff` when the
detector reports the pair, and `reported_iff_bothAccept_iff` for which pairs the two agree.
-/

namespace Vrata.Pipeline

open Controller Server Proxy

/-- The header matchers are the same up to order, the letter case of names and the default type. -/
def SameMatchers (a b : List HeaderMatchInput) : Prop :=
  (a.map fun h => (h.type.getD .exact, canonicalKey h.name, h.value)).Perm
    (b.map fun h => (h.type.getD .exact, canonicalKey h.name, h.value))

/-- The detector, having seen `x`, reports an overlap of the match `m` of `x` with the match `n` of
`y`. -/
def Reported (d : Detector) (x y : HTTPRouteInput) (m n : MatchInput) : Prop :=
  ∃ ol ∈ ((d.check x.checked).2.check y.checked).1,
    ol.existing ∈ x.checked.checkedHostnames.map (x.checked.entry m.checked) ∧
      ol.incoming ∈ y.checked.checkedHostnames.map (y.checked.entry n.checked)

/-! ## The conditions on the inputs -/

/-- The two HTTPRoutes are registered under a common hostname. -/
def HostsShared (x y : HTTPRouteInput) : Prop :=
  ∃ h ∈ x.checked.checkedHostnames, h ∈ y.checked.checkedHostnames

/-- Some host is accepted by both. A host has no colon, which starts the port. -/
def HostsMeet (x y : HTTPRouteInput) : Prop :=
  ∃ h ∈ x.checked.checkedHostnames ++ y.checked.checkedHostnames, ':' ∉ h.toList ∧
    (h ∈ x.checked.checkedHostnames ∨ "*" ∈ x.checked.checkedHostnames) ∧
    (h ∈ y.checked.checkedHostnames ∨ "*" ∈ y.checked.checkedHostnames)

/-- The path value as the proxy uses it. -/
def plainValue (m : MatchInput) : String := if m.pathValue = "" then "/" else m.pathValue

/-- The proxy's comparison of a path with an exact path or a prefix. -/
def plainAccepts (m : MatchInput) (path : String) : Prop :=
  if m.pathType = some .exact ∧ m.pathValue ≠ "" then path = m.pathValue
  else Text.hasPrefix path (plainValue m) = true

/-- One of the two path values is a path that both accept. -/
def PathsMeet (m n : MatchInput) : Prop :=
  ∃ p ∈ [plainValue m, plainValue n],
    (p = "*" ∨ Text.hasPrefix p "/" = true) ∧ plainAccepts m p ∧ plainAccepts n p

/-- Some headers satisfy all matchers. -/
def HeadersMeet (eng : Engine) (hs : List HeaderMatchInput) : Prop :=
  ∃ header : String → String, ∀ h ∈ hs, HeaderAccepted eng h (header (canonicalKey h.name))

/-- Where the methods overlap, the detector's view of hostnames and paths agrees with the proxy's
view of hostnames, paths and headers. -/
structure ViewsAgree (eng : Engine) (x y : HTTPRouteInput) (m n : MatchInput) : Prop where
  sound : methodsOverlap (methodText m.method) (methodText n.method) = true → HostsShared x y →
    pathsOverlap m.pathType m.pathValue n.pathType n.pathValue = true →
    HostsMeet x y ∧ PathsMeet m n ∧ HeadersMeet eng m.headers
  complete : methodsOverlap (methodText m.method) (methodText n.method) = true → HostsMeet x y →
    PathsMeet m n → HeadersMeet eng m.headers →
    HostsShared x y ∧ pathsOverlap m.pathType m.pathValue n.pathType n.pathValue = true

/-! ## What the detector reports -/

/-- The detector's comparison of headers sees that the matchers are the same. -/
theorem SameMatchers.sameHeaders {a b : List HeaderMatchInput} (h : SameMatchers a b) :
    sameHeaders a b = true := by
  have hlen : a.length = b.length := by simpa using h.length_eq
  have hperm : (a.map normalizeHeader).Perm (b.map normalizeHeader) := by
    have := h.map fun k : HeaderMatchType × String × String =>
      k.1.name ++ ":" ++ Text.toLower k.2.1 ++ "=" ++ k.2.2
    simp only [List.map_map, Function.comp_def, toLower_canonicalKey] at this
    exact this
  have hsorted : normalizeHeaders a = normalizeHeaders b := by
    have hanti : ∀ s t, s ∈ normalizeHeaders a → t ∈ normalizeHeaders b → s ≤ t → t ≤ s → s = t :=
      fun _ _ _ _ => le_antisymm
    refine List.Perm.eq_of_pairwise hanti (List.pairwise_insertionSort _ _)
      (List.pairwise_insertionSort _ _) ?_
    exact (List.perm_insertionSort _ _).trans (hperm.trans (List.perm_insertionSort _ _).symm)
  simp [Controller.sameHeaders, hlen, hsorted]

theorem mem_entries_checked {x : HTTPRouteInput} {m : MatchInput} {rule : RuleInput}
    (hrule : rule ∈ x.rules) (hm : m ∈ rule.effectiveMatches)
    (ht : m.pathType ≠ some .regularExpression) {h : String} (hh : h ∈ x.checked.checkedHostnames) :
    x.checked.entry m.checked h ∈ x.checked.entries := by
  have hmatches : CheckedRoute.effectiveMatches (rule.«matches».map MatchInput.checked) =
      rule.effectiveMatches.map MatchInput.checked := by
    unfold RuleInput.effectiveMatches
    cases rule.«matches» <;> rfl
  refine CheckedRoute.mem_entries.mpr ⟨_, List.mem_map_of_mem hrule, m.checked, ?_, ht, h, hh, rfl⟩
  rw [hmatches]
  exact List.mem_map_of_mem hm

/-! ## What the proxy accepts -/

theorem hostAccepted_iff_checked {x : HTTPRouteInput} {h : String} :
    hostAccepted x.hostnames h = true ↔
      h ∈ x.checked.checkedHostnames ∨ "*" ∈ x.checked.checkedHostnames := by
  unfold hostAccepted HTTPRouteInput.checked CheckedRoute.checkedHostnames
  by_cases hx : x.hostnames = []
  · simp [hx]
  · simp only [hx, decide_false, Bool.false_or, List.any_eq_true, Bool.or_eq_true,
      decide_eq_true_eq, if_false]
    constructor
    · rintro ⟨h', hmem, rfl | rfl⟩
      · exact Or.inr hmem
      · exact Or.inl hmem
    · rintro (hmem | hmem)
      · exact ⟨h, hmem, Or.inr rfl⟩
      · exact ⟨"*", hmem, Or.inl rfl⟩

theorem hostsMeet_iff {x y : HTTPRouteInput} :
    HostsMeet x y ↔ ∃ host : String, hostAccepted x.hostnames (Text.before ':' host) = true ∧
      hostAccepted y.hostnames (Text.before ':' host) = true := by
  simp only [hostAccepted_iff_checked]
  constructor
  · rintro ⟨h, _, hcolon, hx, hy⟩
    refine ⟨h, ?_⟩
    rw [Text.before_eq_self hcolon]
    exact ⟨hx, hy⟩
  · rintro ⟨host, hx, hy⟩
    have hcolon := Text.not_mem_before ':' host
    rcases hx with hx | hx
    · exact ⟨_, List.mem_append_left _ hx, hcolon, Or.inl hx, hy⟩
    · rcases hy with hy | hy
      · exact ⟨_, List.mem_append_right _ hy, hcolon, Or.inr hx, Or.inl hy⟩
      · exact ⟨"*", List.mem_append_left _ hx, by decide, Or.inl hx, Or.inl hy⟩

theorem pathAccepted_iff_plainAccepts {eng : Engine} {m : MatchInput} {path : String}
    (ht : m.pathType = some .exact ∨ m.pathType = some .pathPrefix) :
    PathAccepted eng m path ↔ plainAccepts m path := by
  unfold PathAccepted plainAccepts plainValue
  by_cases hv : m.pathValue = ""
  · simp [hv]
  · rcases ht with ht | ht <;> simp [hv, ht]

theorem plainValue_ne (m : MatchInput) : plainValue m ≠ "" := by
  unfold plainValue
  split
  · decide
  · assumption

theorem plainAccepts_plainValue (m : MatchInput) : plainAccepts m (plainValue m) := by
  unfold plainAccepts
  split
  · rename_i h
    rw [plainValue, if_neg h.2]
  · exact Text.hasPrefix_iff.mpr (List.prefix_refl _)

/-- What a match accepts starts with its value. -/
theorem hasPrefix_of_plainAccepts {m : MatchInput} {path : String} (h : plainAccepts m path) :
    (plainValue m).toList <+: path.toList := by
  unfold plainAccepts at h
  split at h
  · rename_i hexact
    have hvalue : plainValue m = path := by rw [h, plainValue, if_neg hexact.2]
    exact hvalue ▸ List.prefix_refl _
  · exact Text.hasPrefix_iff.mp h

/-- A path that a prefix match accepts may be cut anywhere behind its value. -/
theorem plainAccepts_of_between {m : MatchInput} {p path : String} (h : plainAccepts m path)
    (hvalue : (plainValue m).toList <+: p.toList) (hp : p.toList <+: path.toList) :
    plainAccepts m p := by
  unfold plainAccepts at h ⊢
  split at h
  · rename_i hexact
    rw [if_pos hexact]
    rw [plainValue, if_neg hexact.2] at hvalue
    rw [h] at hp
    exact String.toList_injective (hp.eq_of_length_le hvalue.length_le)
  · rename_i hexact
    rw [if_neg hexact]
    exact Text.hasPrefix_iff.mpr hvalue

/-- A non-empty beginning of a request path is itself one. -/
theorem rooted_of_prefix {p path : String} (hne : p ≠ "") (hp : p.toList <+: path.toList)
    (hform : path = "" ∨ path = "*" ∨ Text.hasPrefix path "/" = true) :
    p = "*" ∨ Text.hasPrefix p "/" = true := by
  obtain ⟨c, cs, hc⟩ : ∃ c cs, p.toList = c :: cs := by
    cases h : p.toList with
    | nil => exact absurd (String.toList_injective (by simpa using h)) hne
    | cons c cs => exact ⟨c, cs, rfl⟩
  rcases hform with rfl | rfl | hroot
  · have := hp.length_le
    rw [hc] at this
    simp at this
  · left
    have hlen := hp.length_le
    rw [hc] at hlen
    refine String.toList_injective (hp.eq_of_length ?_)
    rw [hc]
    simp at hlen ⊢
    exact hlen
  · right
    rw [Text.hasPrefix_iff] at hroot ⊢
    rw [hc] at hp ⊢
    obtain ⟨rest, hrest⟩ := hroot
    rw [← hrest] at hp
    have hslash : c = '/' := (List.cons_prefix_cons.mp hp).1
    rw [hslash]
    exact List.prefix_append ['/'] cs

theorem pathsMeet_iff {m n : MatchInput} :
    PathsMeet m n ↔ ∃ path : String, (path = "" ∨ path = "*" ∨ Text.hasPrefix path "/" = true) ∧
      plainAccepts m path ∧ plainAccepts n path := by
  constructor
  · rintro ⟨p, _, hform, hm, hn⟩
    exact ⟨p, Or.inr hform, hm, hn⟩
  · rintro ⟨path, hform, hm, hn⟩
    have hmp := hasPrefix_of_plainAccepts hm
    have hnp := hasPrefix_of_plainAccepts hn
    -- the longer of the two values will do
    rcases List.prefix_or_prefix_of_prefix hmp hnp with h | h
    · exact ⟨plainValue n, by simp, rooted_of_prefix (plainValue_ne n) hnp hform,
        plainAccepts_of_between hm h hnp, plainAccepts_plainValue n⟩
    · exact ⟨plainValue m, by simp, rooted_of_prefix (plainValue_ne m) hmp hform,
        plainAccepts_plainValue m, plainAccepts_of_between hn h hmp⟩

theorem methodsOverlap_methodText (a b : Option HTTPMethod) :
    methodsOverlap (methodText a) (methodText b) = (a = none || b = none || a = b) := by
  rcases a with _ | a <;> rcases b with _ | b
  · rfl
  · rfl
  · cases a <;> rfl
  · cases a <;> cases b <;> decide

theorem methodsOverlap_iff {m n : MatchInput} :
    methodsOverlap (methodText m.method) (methodText n.method) = true ↔
      ∃ method, MethodAccepted m method ∧ MethodAccepted n method := by
  have hinj : ∀ a b : HTTPMethod, a.name = b.name → a = b := by
    intro a b
    cases a <;> cases b <;> decide
  rw [methodsOverlap_methodText]
  unfold MethodAccepted
  cases hm : m.method with
  | none =>
    cases hn : n.method with
    | none | some b => simp
  | some a =>
    cases hn : n.method with
    | none => simp
    | some b =>
      simp only [Option.some.injEq, forall_eq', reduceCtorEq, decide_false, Bool.false_or,
        decide_eq_true_eq]
      exact ⟨fun h => ⟨a.name, rfl, by rw [h]⟩, fun ⟨_, ha, hb⟩ => hinj a b (ha ▸ hb)⟩

/-- The condition that a header matcher puts on a request depends on its key only. -/
theorem SameMatchers.forall_headerAccepted_iff {eng : Engine} {a b : List HeaderMatchInput}
    (h : SameMatchers a b) (header : String → String) :
    (∀ hm ∈ a, HeaderAccepted eng hm (header (canonicalKey hm.name))) ↔
      ∀ hm ∈ b, HeaderAccepted eng hm (header (canonicalKey hm.name)) := by
  let key (hm : HeaderMatchInput) := (hm.type.getD .exact, canonicalKey hm.name, hm.value)
  let holds (k : HeaderMatchType × String × String) : Prop :=
    HeaderAccepted eng ⟨"", k.2.2, some k.1⟩ (header k.2.1)
  have hkey : ∀ hm : HeaderMatchInput,
      HeaderAccepted eng hm (header (canonicalKey hm.name)) ↔ holds (key hm) := by
    intro hm
    simp only [HeaderAccepted, holds, key]
    cases hm.type <;> simp
  simp only [hkey]
  rw [← List.forall_mem_map (f := key) (P := holds), ← List.forall_mem_map (f := key) (P := holds)]
  exact forall_congr' fun k => by rw [h.mem_iff]

/-- Some request is accepted by the routes of both matches. -/
def BothAccept (eng : Engine) (x : HTTPRouteInput) (ri : ℕ) (rule : RuleInput) (mi : ℕ)
    (m : MatchInput) (y : HTTPRouteInput) (ri' : ℕ) (rule' : RuleInput) (mi' : ℕ)
    (n : MatchInput) : Prop :=
  ∃ req, MatchAccepts eng x ri rule mi m req ∧ MatchAccepts eng y ri' rule' mi' n req

/-- A common request exists if and only if hosts, paths, methods and headers meet. -/
theorem bothAccept_iff {eng : Engine} {x y : HTTPRouteInput} {ri mi ri' mi' : ℕ}
    {rule rule' : RuleInput} {m n : MatchInput}
    (hmt : m.pathType = some .exact ∨ m.pathType = some .pathPrefix)
    (hnt : n.pathType = some .exact ∨ n.pathType = some .pathPrefix)
    (hheaders : SameMatchers m.headers n.headers) :
    BothAccept eng x ri rule mi m y ri' rule' mi' n ↔
      HostsMeet x y ∧ PathsMeet m n ∧ methodsOverlap (methodText m.method) (methodText n.method) = true ∧
        HeadersMeet eng m.headers := by
  simp only [BothAccept, matchAccepts_iff, hostsMeet_iff, pathsMeet_iff, methodsOverlap_iff,
    pathAccepted_iff_plainAccepts hmt, pathAccepted_iff_plainAccepts hnt]
  constructor
  · rintro ⟨req, ⟨hhx, hpm, hmm, hhm⟩, hhy, hpn, hmn, _⟩
    exact ⟨⟨req.host, hhx, hhy⟩, ⟨req.path, req.path_form, hpm, hpn⟩, ⟨req.method, hmm, hmn⟩,
      ⟨req.header, hhm⟩⟩
  · rintro ⟨⟨host, hhx, hhy⟩, ⟨path, hform, hpm, hpn⟩, ⟨method, hmm, hmn⟩, ⟨header, hh⟩⟩
    exact ⟨⟨method, host, path, header, fun _ => "", hform⟩, ⟨hhx, hpm, hmm, hh⟩, hhy, hpn, hmn,
      (hheaders.forall_headerAccepted_iff header).mp hh⟩

/-! ## What the detector reports about a pair -/

section Pair

variable {d : Detector} {x y : HTTPRouteInput} {rule rule' : RuleInput} {m n : MatchInput}
  (hsource : sourceText x.checked.id ≠ sourceText y.checked.id)
  (hrule : rule ∈ x.rules) (hm : m ∈ rule.effectiveMatches)
  (hrule' : rule' ∈ y.rules) (hn : n ∈ rule'.effectiveMatches)
  (hmt : m.pathType = some .exact ∨ m.pathType = some .pathPrefix)
  (hnt : n.pathType = some .exact ∨ n.pathType = some .pathPrefix)
  (hheaders : SameMatchers m.headers n.headers)

include hsource hrule hm hrule' hn hmt hnt hheaders

/-- The detector reports the pair if and only if the HTTPRoutes share a hostname, the methods overlap
and the paths overlap by segments. -/
theorem reported_iff :
    Reported d x y m n ↔ HostsShared x y ∧ methodsOverlap (methodText m.method) (methodText n.method) = true ∧
      pathsOverlap m.pathType m.pathValue n.pathType n.pathValue = true := by
  have hentries : ∀ h, entriesOverlap (x.checked.entry m.checked h) (y.checked.entry n.checked h) = true ↔
      methodsOverlap (methodText m.method) (methodText n.method) = true ∧
        pathsOverlap m.pathType m.pathValue n.pathType n.pathValue = true := by
    intro h
    simp [entriesOverlap, CheckedRoute.entry, MatchInput.checked, hheaders.sameHeaders]
  constructor
  · rintro ⟨ol, hol, hexisting, hincoming⟩
    obtain ⟨_, hmem, _, hoverlap⟩ := Detector.mem_check.mp hol
    obtain ⟨h, hh, hx⟩ := List.mem_map.mp hexisting
    obtain ⟨h', hh', hy⟩ := List.mem_map.mp hincoming
    have heq := (d.check x.checked).2.hostname_of_mem _ _ hmem
    rw [← hx, ← hy] at hoverlap heq
    obtain rfl : h = h' := heq
    exact ⟨⟨h, hh, hh'⟩, (hentries h).mp hoverlap⟩
  · rintro ⟨⟨h, hh, hh'⟩, hoverlap⟩
    refine ⟨⟨y.checked.entry n.checked h, x.checked.entry m.checked h⟩,
      Detector.mem_check.mpr ⟨?_, ?_, hsource, ?_⟩, List.mem_map_of_mem hh, List.mem_map_of_mem hh'⟩
    · exact mem_entries_checked hrule' hn (by rcases hnt with e | e <;> simp [e]) hh'
    · rw [Detector.byHost_check, List.mem_append, List.mem_filter]
      exact Or.inr ⟨mem_entries_checked hrule hm (by rcases hmt with e | e <;> simp [e]) hh, by
        simp [CheckedRoute.entry]⟩
    · exact (hentries h).mpr hoverlap

end Pair

/-- For two matches with the same header matchers, the detector reports an overlap exactly when a
common request exists, if and only if its view agrees with the proxy's. -/
theorem reported_iff_bothAccept_iff (eng : Engine) (d : Detector) (x y : HTTPRouteInput)
    (rule rule' : RuleInput) (ri ri' mi mi' : ℕ) (m n : MatchInput)
    (hsource : sourceText x.checked.id ≠ sourceText y.checked.id)
    (hrule : (rule, ri) ∈ x.rules.zipIdx) (hm : (m, mi) ∈ rule.effectiveMatches.zipIdx)
    (hrule' : (rule', ri') ∈ y.rules.zipIdx) (hn : (n, mi') ∈ rule'.effectiveMatches.zipIdx)
    (hmt : m.pathType = some .exact ∨ m.pathType = some .pathPrefix)
    (hnt : n.pathType = some .exact ∨ n.pathType = some .pathPrefix)
    (hheaders : SameMatchers m.headers n.headers) :
    (Reported d x y m n ↔ BothAccept eng x ri rule mi m y ri' rule' mi' n) ↔
      ViewsAgree eng x y m n := by
  rw [bothAccept_iff hmt hnt hheaders, reported_iff hsource
    (List.mem_iff_getElem?.mpr ⟨ri, List.mk_mem_zipIdx_iff_getElem?.mp hrule⟩)
    (List.mem_iff_getElem?.mpr ⟨mi, List.mk_mem_zipIdx_iff_getElem?.mp hm⟩)
    (List.mem_iff_getElem?.mpr ⟨ri', List.mk_mem_zipIdx_iff_getElem?.mp hrule'⟩)
    (List.mem_iff_getElem?.mpr ⟨mi', List.mk_mem_zipIdx_iff_getElem?.mp hn⟩) hmt hnt hheaders]
  constructor
  · intro h
    constructor
    · intro hmethods hshared hpaths
      obtain ⟨hhosts, hpath, _, hheader⟩ := h.mp ⟨hshared, hmethods, hpaths⟩
      exact ⟨hhosts, hpath, hheader⟩
    · intro hmethods hhosts hpath hheader
      obtain ⟨hshared, _, hpaths⟩ := h.mpr ⟨hhosts, hpath, hmethods, hheader⟩
      exact ⟨hshared, hpaths⟩
  · intro h
    constructor
    · rintro ⟨hshared, hmethods, hpaths⟩
      obtain ⟨hhosts, hpath, hheader⟩ := h.sound hmethods hshared hpaths
      exact ⟨hhosts, hpath, hmethods, hheader⟩
    · rintro ⟨hhosts, hpath, hmethods, hheader⟩
      obtain ⟨hshared, hpaths⟩ := h.complete hmethods hhosts hpath hheader
      exact ⟨hshared, hmethods, hpaths⟩

/-! ## Two pairs -/

/-- A rule with one match and one backend. -/
def singleRule (m : MatchInput) : RuleInput := ⟨[m], [⟨"svc", "default", 80, 1⟩], []⟩

/-- An HTTPRoute with one such rule. -/
def singleMatch (name : String) (hostnames : List String) (m : MatchInput) : HTTPRouteInput :=
  ⟨name, "default", hostnames, [singleRule m]⟩

/-- The prefix `/api`. -/
def apiPrefix : MatchInput := ⟨some .pathPrefix, "/api", none, []⟩

/-- The exact path `/api/users`. -/
def apiUsers : MatchInput := ⟨some .exact, "/api/users", none, []⟩

theorem reported_iff_bothAccept_apiUsers :
    Reported .empty (singleMatch "a" ["example.com"] apiPrefix)
        (singleMatch "b" ["example.com"] apiUsers) apiPrefix apiUsers ↔
      BothAccept ⟨fun _ => none, fun _ => none⟩
        (singleMatch "a" ["example.com"] apiPrefix) 0 (singleRule apiPrefix) 0 apiPrefix
        (singleMatch "b" ["example.com"] apiUsers) 0 (singleRule apiUsers) 0 apiUsers := by
  have h := reported_iff_bothAccept_iff ⟨fun _ => none, fun _ => none⟩ .empty
    (singleMatch "a" ["example.com"] apiPrefix) (singleMatch "b" ["example.com"] apiUsers)
    (singleRule apiPrefix) (singleRule apiUsers) 0 0 0 0 apiPrefix apiUsers (by decide) (by decide)
    (by decide) (by decide) (by decide) (by decide) (by decide) (List.Perm.refl _)
  refine h.mpr ⟨fun _ _ _ => ?_, fun _ _ _ _ => ?_⟩
  · exact ⟨by unfold HostsMeet; decide, by unfold PathsMeet plainAccepts; decide,
      fun _ => "", by simp [apiPrefix]⟩
  · exact ⟨by unfold HostsShared; decide, by decide⟩

/-- An HTTPRoute without hostnames and one for `example.com` both take `/`, and no overlap is
reported. -/
theorem not_reported_wildcard_host :
    BothAccept ⟨fun _ => none, fun _ => none⟩
        (singleMatch "any" [] defaultMatch) 0 (singleRule defaultMatch) 0 defaultMatch
        (singleMatch "web" ["example.com"] defaultMatch) 0 (singleRule defaultMatch) 0
        defaultMatch ∧
      ¬Reported .empty (singleMatch "any" [] defaultMatch)
        (singleMatch "web" ["example.com"] defaultMatch) defaultMatch defaultMatch := by
  constructor
  · rw [bothAccept_iff (by decide) (by decide) (List.Perm.refl _)]
    exact ⟨by unfold HostsMeet; decide, by unfold PathsMeet plainAccepts; decide, by decide,
      fun _ => "", by simp [defaultMatch]⟩
  · unfold Reported
    decide

end Vrata.Pipeline

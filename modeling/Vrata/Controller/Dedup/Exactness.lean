import Mathlib.Data.List.Induction
import Vrata.Controller.Dedup
import Vrata.Proxy.Router

/-!
# What the overlap detector reports

Reference: `clients/controller/internal/dedup/detector.go`.

`mem_check_iff` is what it reports, in terms of the calls before: the pairs of entries of two sources
that agree in everything but the path and have a path in common. An entry counts from the `Check` of
its source to the next `Remove` of it or `Reset` (`Registered`).
-/

namespace Vrata.Controller

/-! ## Paths in common -/

/-- The paths that a matcher covers. -/
def coversPath (type : Option PathMatchType) (path other : String) : Prop :=
  match type with
  | some .exact => other = path
  | some .pathPrefix => prefixCovers path other = true
  | _ => False

theorem prefixCovers_iff {base path : String} :
    prefixCovers base path = true ↔ ∃ rest, path.toList = base.toList ++ rest ∧
      (rest = [] ∨ Text.hasSuffix base "/" = true ∨ rest.head? = some '/') := by
  unfold prefixCovers
  split
  · next heq => simp [heq]
  · next hne =>
    split
    · next hprefix =>
      simp only [Bool.not_eq_true', ← Bool.not_eq_true, Text.hasPrefix_iff] at hprefix
      simp only [Bool.false_eq_true, false_iff]
      rintro ⟨rest, hrest, -⟩
      exact hprefix ⟨rest, hrest.symm⟩
    · next hprefix =>
      simp only [Bool.not_eq_true, Bool.not_eq_false', Text.hasPrefix_iff] at hprefix
      obtain ⟨rest, hrest⟩ := hprefix
      have hrest' : rest ≠ [] := by
        rintro rfl
        exact hne (String.toList_injective (by simpa using hrest))
      simp only [← hrest, List.drop_left, List.append_cancel_left_eq, exists_eq_left', hrest', false_or]
      split
      · next hslash => simp [hslash]
      · next hslash => simp [hslash]

theorem prefixCovers_self (path : String) : prefixCovers path path = true := by simp [prefixCovers]

/-- Two prefixes of one path, of which the first is the shorter one. -/
theorem prefixCovers_of_common {a b path : String} {rest : List Char}
    (hlonger : b.toList = a.toList ++ rest) (ha : prefixCovers a path = true)
    (hb : prefixCovers b path = true) : prefixCovers a b = true := by
  obtain ⟨after, hafter, hbound⟩ := prefixCovers_iff.mp ha
  obtain ⟨after', hafter', -⟩ := prefixCovers_iff.mp hb
  have hsplit : after = rest ++ after' := by
    rw [hlonger, hafter, List.append_assoc] at hafter'
    exact List.append_cancel_left hafter'
  refine prefixCovers_iff.mpr ⟨rest, hlonger, ?_⟩
  rcases hbound with hempty | hslash | hhead
  · rw [hsplit] at hempty
    exact .inl (List.append_eq_nil_iff.mp hempty).1
  · exact .inr (.inl hslash)
  · cases rest with
    | nil => exact .inl rfl
    | cons c rest =>
      rw [hsplit] at hhead
      exact .inr (.inr hhead)

/-- Comparing two prefixes with each other decides whether they have a path in common. -/
theorem exists_prefixCovers_iff {a b : String} :
    prefixCovers a b = true ∨ prefixCovers b a = true ↔
      ∃ path, prefixCovers a path = true ∧ prefixCovers b path = true := by
  constructor
  · rintro (h | h)
    · exact ⟨b, h, prefixCovers_self b⟩
    · exact ⟨a, prefixCovers_self a, h⟩
  · rintro ⟨path, ha, hb⟩
    obtain ⟨after, hafter, -⟩ := prefixCovers_iff.mp ha
    obtain ⟨after', hafter', -⟩ := prefixCovers_iff.mp hb
    rw [hafter] at hafter'
    rcases List.append_eq_append_iff.mp hafter' with ⟨rest, hrest, -⟩ | ⟨rest, hrest, -⟩
    · exact .inl (prefixCovers_of_common hrest ha hb)
    · exact .inr (prefixCovers_of_common hrest hb ha)

theorem pathsOverlap_iff {aType bType : Option PathMatchType} {a b : String} :
    pathsOverlap aType a bType b = true ↔ ∃ path, coversPath aType a path ∧ coversPath bType b path := by
  rcases aType with _ | _ | _ | _ <;> rcases bType with _ | _ | _ | _ <;>
    simp [pathsOverlap, coversPath, exists_prefixCovers_iff]

/-! ## Header matchers -/

/-- A matcher with the default type filled in and its name in lower case. -/
def HeaderMatchInput.normal (h : HeaderMatchInput) : HeaderMatchType × String × String :=
  (h.type.getD .exact, Text.toLower h.name, h.value)

/-- What `normalizeHeader` has written, read back. -/
def readHeader (text : String) : Option (HeaderMatchType × String × String) :=
  (Text.cut ':' text).bind fun p =>
    (Text.cut '=' p.2).map fun q =>
      (if p.1 = "Exact" then .exact else .regularExpression, q.1, q.2)

theorem toLower_ne_equals {c : Char} (h : Proxy.isTokenChar c = true) : c.toLower ≠ '=' := by
  intro heq
  by_cases hupper : c.val ≥ 'A'.val ∧ c.val ≤ 'Z'.val
  · have hlow : c.toLower.val = c.val + 32 := congrArg Char.val (dif_pos hupper)
    have h1 := UInt32.le_iff_toNat_le.mp hupper.1
    have h2 := UInt32.le_iff_toNat_le.mp hupper.2
    have h3 := congrArg UInt32.toNat (hlow.symm.trans (congrArg Char.val heq))
    rw [UInt32.toNat_add] at h3
    have hA : 'A'.val.toNat = 65 := rfl
    have hZ : 'Z'.val.toNat = 90 := rfl
    have hd : (32 : UInt32).toNat = 32 := rfl
    have he : '='.val.toNat = 61 := rfl
    omega
  · rw [show c.toLower = c from dif_neg hupper] at heq
    subst heq
    exact absurd h (by decide)

theorem readHeader_normalizeHeader {h : HeaderMatchInput}
    (hname : h.name.toList.all Proxy.isTokenChar = true) :
    readHeader (normalizeHeader h) = some h.normal := by
  have hequals : '=' ∉ (Text.toLower h.name).toList := by
    simp only [Text.toLower, String.toList_ofList, List.mem_map, not_exists, not_and]
    exact fun c hc => toLower_ne_equals (List.all_eq_true.mp hname c hc)
  have hcolon : ∀ type : HeaderMatchType, ':' ∉ type.name.toList := by
    intro type
    cases type <;> decide
  have htext : normalizeHeader h = (h.type.getD .exact).name ++ String.singleton ':' ++
      (Text.toLower h.name ++ String.singleton '=' ++ h.value) := by
    simp only [normalizeHeader, String.append_assoc]
    rfl
  rw [htext, readHeader, Text.cut_append (hcolon _), Option.bind_some, Text.cut_append hequals]
  unfold HeaderMatchInput.normal
  cases h.type.getD .exact <;> rfl

/-- Sorting the canonical texts compares the matchers up to order. -/
theorem sameHeaders_iff {a b : List HeaderMatchInput}
    (ha : ∀ h ∈ a, h.name.toList.all Proxy.isTokenChar = true)
    (hb : ∀ h ∈ b, h.name.toList.all Proxy.isTokenChar = true) :
    sameHeaders a b = true ↔ (a.map HeaderMatchInput.normal).Perm (b.map HeaderMatchInput.normal) := by
  have hsorted : normalizeHeaders a = normalizeHeaders b ↔
      (a.map normalizeHeader).Perm (b.map normalizeHeader) := by
    refine ⟨fun h => ?_, fun h => ?_⟩
    · exact (List.perm_insertionSort (· ≤ ·) _).symm.trans
        ((List.Perm.of_eq h).trans (List.perm_insertionSort (· ≤ ·) _))
    · refine List.Perm.eq_of_pairwise (fun _ _ _ _ => le_antisymm) (List.pairwise_insertionSort _ _)
        (List.pairwise_insertionSort _ _) ?_
      exact (List.perm_insertionSort _ _).trans (h.trans (List.perm_insertionSort _ _).symm)
  have hread : ∀ {l : List HeaderMatchInput}, (∀ h ∈ l, h.name.toList.all Proxy.isTokenChar = true) →
      (l.map normalizeHeader).map readHeader = (l.map HeaderMatchInput.normal).map some := by
    intro l hl
    rw [List.map_map, List.map_map]
    exact List.map_congr_left fun h hh => readHeader_normalizeHeader (hl h hh)
  rw [sameHeaders, Bool.and_eq_true, decide_eq_true_eq, decide_eq_true_eq, hsorted]
  constructor
  · rintro ⟨-, h⟩
    have hmap := h.map readHeader
    rw [hread ha, hread hb] at hmap
    simpa [List.filterMap_map] using hmap.filterMap id
  · intro h
    refine ⟨by simpa using h.length_eq, ?_⟩
    have hmap := h.map fun n : HeaderMatchType × String × String => n.1.name ++ ":" ++ n.2.1 ++ "=" ++ n.2.2
    rwa [List.map_map, List.map_map] at hmap

/-! ## Calls -/

/-- Neither the namespace nor the name has a slash. -/
def SlashFree (id : String × String) : Prop := '/' ∉ id.1.toList ∧ '/' ∉ id.2.toList

theorem SlashFree.eq_of_sourceText {a b : String × String} (ha : SlashFree a) (hb : SlashFree b)
    (h : sourceText a = sourceText b) : a = b := by
  obtain ⟨h1, h2⟩ := Text.append_singleton_inj ha.1 hb.1 h
  exact Prod.ext h1 h2

/-- An HTTPRoute whose namespace and name have no slash and whose header names are tokens. -/
structure ValidRoute extends CheckedRoute where
  slashFree : SlashFree toCheckedRoute.id
  token_of_mem : ∀ rule ∈ rules, ∀ m ∈ rule, ∀ h ∈ m.headers, h.name.toList.all Proxy.isTokenChar = true

inductive DetectorCall where
  | check (x : ValidRoute)
  | remove (id : String × String) (slashFree : SlashFree id)
  | reset

namespace DetectorCall

/-- The call drops what the source has registered. -/
def Drops : DetectorCall → String × String → Prop
  | .check _, _ => False
  | .remove removed _, id => removed = id
  | .reset, _ => True

def step (d : Detector) : DetectorCall → Detector
  | .check x => (d.check x.toCheckedRoute).2
  | .remove id _ => d.remove id
  | .reset => .empty

/-- The detector after the calls. -/
def run (calls : List DetectorCall) : Detector := calls.foldl step .empty

/-- The HTTPRoute was checked and neither removed nor reset since. -/
def Registered (calls : List DetectorCall) (y : ValidRoute) : Prop :=
  ∃ before after, calls = before ++ .check y :: after ∧ ∀ c ∈ after, ¬ c.Drops y.id

theorem registered_nil (y : ValidRoute) : ¬ Registered [] y := by
  rintro ⟨before, after, h, -⟩
  simp at h

theorem registered_append_singleton {calls : List DetectorCall} {c : DetectorCall} {y : ValidRoute} :
    Registered (calls ++ [c]) y ↔ c = .check y ∨ Registered calls y ∧ ¬ c.Drops y.id := by
  constructor
  · rintro ⟨before, after, heq, hkept⟩
    rcases List.eq_nil_or_concat after with rfl | ⟨init, last, rfl⟩
    · exact .inl (List.append_inj_right' heq rfl |> List.singleton_inj.mp)
    · have hlast : calls = before ++ .check y :: init ∧ [c] = [last] := by
        rw [List.concat_eq_append, ← List.cons_append, ← List.append_assoc] at heq
        exact List.append_inj' heq rfl
      obtain rfl : c = last := List.singleton_inj.mp hlast.2
      refine .inr ⟨⟨before, init, hlast.1, fun c' hc' => hkept c' ?_⟩, hkept c ?_⟩
      · simp [hc']
      · simp
  · rintro (rfl | ⟨⟨before, after, rfl, hkept⟩, hc⟩)
    · exact ⟨calls, [], rfl, by simp⟩
    · refine ⟨before, after ++ [c], by simp, ?_⟩
      intro c' hc'
      rcases List.mem_append.mp hc' with hc' | hc'
      · exact hkept c' hc'
      · rw [List.mem_singleton.mp hc']
        exact hc

/-- The index holds the entries of the registered HTTPRoutes. -/
theorem mem_byHost_run {calls : List DetectorCall} {h : String} {e : Entry} :
    e ∈ (run calls).byHost h ↔ e.hostname = h ∧ ∃ y, Registered calls y ∧ e ∈ y.entries := by
  induction calls using List.reverseRecOn generalizing e with
  | nil => simp [run, Detector.empty, registered_nil]
  | append_singleton calls c ih =>
    have hrun : run (calls ++ [c]) = step (run calls) c := List.foldl_concat ..
    rw [hrun]
    cases c with
    | check x =>
      have hcheck : ∀ y, DetectorCall.check x = .check y ↔ x = y := fun y => by simp
      simp only [step, Detector.byHost_check, List.mem_append, ih, List.mem_filter,
        decide_eq_true_eq, registered_append_singleton, Drops, not_false_eq_true, and_true, hcheck]
      constructor
      · rintro (⟨hh, y, hy, he⟩ | ⟨he, hh⟩)
        · exact ⟨hh, y, .inr hy, he⟩
        · exact ⟨hh, x, .inl rfl, he⟩
      · rintro ⟨hh, y, rfl | hy, he⟩
        · exact .inr ⟨he, hh⟩
        · exact .inl ⟨hh, y, hy, he⟩
    | remove id hid =>
      simp only [step, Detector.remove, List.mem_filter, ih, decide_eq_true_eq,
        registered_append_singleton, Drops, reduceCtorEq, false_or]
      constructor
      · rintro ⟨⟨hh, y, hy, he⟩, hsource⟩
        refine ⟨hh, y, ⟨hy, ?_⟩, he⟩
        rintro rfl
        exact hsource (CheckedRoute.source_of_mem_entries he)
      · rintro ⟨hh, y, ⟨hy, hne⟩, he⟩
        refine ⟨⟨hh, y, hy, he⟩, fun hsource => hne ?_⟩
        rw [CheckedRoute.source_of_mem_entries he] at hsource
        exact hid.eq_of_sourceText y.slashFree hsource.symm
    | reset =>
      simp [step, Detector.empty, registered_append_singleton, Drops]

end DetectorCall

theorem ValidRoute.token_of_mem_entries {x : ValidRoute} {e : Entry} (h : e ∈ x.entries) :
    ∀ hm ∈ e.headers, hm.name.toList.all Proxy.isTokenChar = true := by
  obtain ⟨rule, hrule, m, hm, _, hostname, _, rfl⟩ := CheckedRoute.mem_entries.mp h
  unfold CheckedRoute.effectiveMatches at hm
  split at hm
  · rw [List.mem_singleton.mp hm]
    simp [CheckedRoute.entry]
  · exact x.token_of_mem rule hrule m hm

/-- Two entries are for common traffic: the same hostname, the same header matchers up to order, name
case and the default type, the same method without regard to case unless one is unset, and a path that
both cover. -/
structure SameTraffic (a b : Entry) : Prop where
  hostname : a.hostname = b.hostname
  headers : (a.headers.map HeaderMatchInput.normal).Perm (b.headers.map HeaderMatchInput.normal)
  method : a.method = "" ∨ b.method = "" ∨ Text.toLower a.method = Text.toLower b.method
  path : ∃ path, coversPath a.pathType a.path path ∧ coversPath b.pathType b.path path

/-- A `Check` reports an entry of the HTTPRoute together with an entry of another registered source if
and only if they are for common traffic. -/
theorem mem_check_iff (calls : List DetectorCall) (x : ValidRoute) (ol : Overlap) :
    ol ∈ ((DetectorCall.run calls).check x.toCheckedRoute).1 ↔
      ol.incoming ∈ x.entries ∧
        (ol.incoming.pathType = some .exact ∨ ol.incoming.pathType = some .pathPrefix) ∧
        ∃ y, DetectorCall.Registered calls y ∧ y.id ≠ x.id ∧ ol.existing ∈ y.entries ∧
          SameTraffic ol.existing ol.incoming := by
  have htype : ∀ {t : Option PathMatchType} {p q : String}, coversPath t p q →
      t = some .exact ∨ t = some .pathPrefix := by
    intro t p q h
    rcases t with _ | _ | _ | _ <;> simp_all [coversPath]
  have hagree : ∀ {y : ValidRoute}, ol.existing ∈ y.entries → ol.incoming ∈ x.entries →
      (entriesOverlap ol.existing ol.incoming = true ∧ ol.existing.hostname = ol.incoming.hostname ↔
        SameTraffic ol.existing ol.incoming) := by
    intro y hy hx
    simp only [entriesOverlap, methodsOverlap, Bool.and_eq_true, Bool.or_eq_true, decide_eq_true_eq,
      sameHeaders_iff (ValidRoute.token_of_mem_entries hy) (ValidRoute.token_of_mem_entries hx),
      pathsOverlap_iff]
    constructor
    · rintro ⟨⟨⟨hm, hh⟩, hp⟩, hhost⟩
      exact ⟨hhost, hh, or_assoc.mp hm, hp⟩
    · intro h
      exact ⟨⟨⟨or_assoc.mpr h.method, h.headers⟩, h.path⟩, h.hostname⟩
  rw [Detector.mem_check]
  constructor
  · rintro ⟨he, hmem, hsource, hoverlap⟩
    obtain ⟨hhost, y, hy, hye⟩ := DetectorCall.mem_byHost_run.mp hmem
    have hsame := (hagree hye he).mp ⟨hoverlap, hhost⟩
    obtain ⟨path, _, hpath⟩ := hsame.path
    refine ⟨he, htype hpath, y, hy, fun hid => hsource ?_, hye, hsame⟩
    rw [CheckedRoute.source_of_mem_entries hye, hid]
  · rintro ⟨he, _, y, hy, hid, hye, hsame⟩
    obtain ⟨hoverlap, hhost⟩ := (hagree hye he).mpr hsame
    refine ⟨he, DetectorCall.mem_byHost_run.mpr ⟨hhost, y, hy, hye⟩, fun hsource => hid ?_, hoverlap⟩
    rw [CheckedRoute.source_of_mem_entries hye] at hsource
    exact y.slashFree.eq_of_sourceText x.slashFree hsource

end Vrata.Controller

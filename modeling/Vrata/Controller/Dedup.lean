import Mathlib.Data.List.Sort
import Mathlib.Data.String.Basic
import Vrata.Controller.Mapper

/-!
# The overlap detector

Reference: `clients/controller/internal/dedup/detector.go`.

`check` compares every match of an HTTPRoute, once for each of its hostnames, with the entries that
other HTTPRoutes have registered under the very same hostname, and registers it. The nested loops of
the source run over the list `entries`. Entries of the HTTPRoute itself never count as overlaps,
so the result is the one computed against the entries that were there before (`check_fst`), and all
entries are added (`byHost_check`).

The detector takes methods as texts and compares them without regard to case.
-/

namespace Vrata.Controller

structure Entry where
  path : String
  pathType : Option PathMatchType
  hostname : String
  headers : List HeaderMatchInput
  method : String
  source : String
deriving DecidableEq, Repr

structure Overlap where
  incoming : Entry
  existing : Entry
deriving DecidableEq, Repr

/-- The registered entries by hostname. -/
structure Detector where
  byHost : String → List Entry
  hostname_of_mem : ∀ h, ∀ e ∈ byHost h, e.hostname = h

/-! ## When two entries overlap -/

/-- The empty method stands for all methods. -/
def methodsOverlap (a b : String) : Bool := a = "" || b = "" || Text.toLower a = Text.toLower b

/-- The path covers the other one up to a segment boundary. -/
def prefixCovers (base path : String) : Bool :=
  if base = path then true
  else if !Text.hasPrefix path base then false
  else if Text.hasSuffix base "/" then true
  else (path.toList.drop base.toList.length).head? = some '/'

def pathsOverlap (aType : Option PathMatchType) (aPath : String) (bType : Option PathMatchType)
    (bPath : String) : Bool :=
  match aType, bType with
  | some .exact, some .exact => aPath = bPath
  | some .pathPrefix, some .pathPrefix => prefixCovers aPath bPath || prefixCovers bPath aPath
  | some .pathPrefix, some .exact => prefixCovers aPath bPath
  | some .exact, some .pathPrefix => prefixCovers bPath aPath
  | _, _ => false

def HeaderMatchType.name : HeaderMatchType → String
  | .exact => "Exact"
  | .regularExpression => "RegularExpression"

/-- The canonical text of a header matcher. -/
def normalizeHeader (h : HeaderMatchInput) : String :=
  (h.type.getD .exact).name ++ ":" ++ Text.toLower h.name ++ "=" ++ h.value

def normalizeHeaders (headers : List HeaderMatchInput) : List String :=
  (headers.map normalizeHeader).insertionSort (· ≤ ·)

def sameHeaders (a b : List HeaderMatchInput) : Bool :=
  a.length = b.length && normalizeHeaders a = normalizeHeaders b

def entriesOverlap (a b : Entry) : Bool :=
  methodsOverlap a.method b.method && sameHeaders a.headers b.headers &&
    pathsOverlap a.pathType a.path b.pathType b.path

/-! ## The detector -/

/-- What the detector reads of a match. -/
structure CheckedMatch where
  pathType : Option PathMatchType
  pathValue : String
  method : String
  headers : List HeaderMatchInput
  method_ascii : ∀ c ∈ method.toList, c.val < 0x80

/-- What the detector reads of an HTTPRoute: for each rule its matches. -/
structure CheckedRoute where
  «namespace» : String
  name : String
  hostnames : List String
  rules : List (List CheckedMatch)

/-- `Source` of the entries: namespace and name. -/
def sourceText (id : String × String) : String := id.1 ++ "/" ++ id.2

namespace CheckedRoute

variable (x : CheckedRoute)

def id : String × String := (x.«namespace», x.name)

/-- The hostnames under which an HTTPRoute is registered. -/
def checkedHostnames : List String := if x.hostnames = [] then ["*"] else x.hostnames

theorem ascii_empty : ∀ c ∈ "".toList, c.val < 0x80 := by simp

/-- The matches of a rule, with the default for an empty list. -/
def effectiveMatches : List CheckedMatch → List CheckedMatch
  | [] => [⟨some .pathPrefix, "/", "", [], ascii_empty⟩]
  | ms => ms

/-- The entry of a match under a hostname. -/
def entry (m : CheckedMatch) (hostname : String) : Entry :=
  ⟨m.pathValue, m.pathType, hostname, m.headers, m.method, sourceText x.id⟩

/-- The entries of an HTTPRoute in the order of the loops. Path expressions are skipped. -/
def entries : List Entry :=
  (x.rules.flatMap effectiveMatches).flatMap fun m =>
    if m.pathType = some .regularExpression then [] else x.checkedHostnames.map (x.entry m)

theorem mem_entries {x : CheckedRoute} {e : Entry} :
    e ∈ x.entries ↔ ∃ rule ∈ x.rules, ∃ m ∈ effectiveMatches rule,
      m.pathType ≠ some .regularExpression ∧ ∃ hostname ∈ x.checkedHostnames, x.entry m hostname = e := by
  have hsplit : ∀ m : CheckedMatch,
      (e ∈ if m.pathType = some .regularExpression then [] else x.checkedHostnames.map (x.entry m)) ↔
        m.pathType ≠ some .regularExpression ∧ ∃ hostname ∈ x.checkedHostnames, x.entry m hostname = e := by
    intro m
    split
    · next h => simp [h]
    · next h => simp [h]
  simp only [entries, List.mem_flatMap, hsplit]
  constructor
  · rintro ⟨m, ⟨rule, hrule, hm⟩, h⟩
    exact ⟨rule, hrule, m, hm, h⟩
  · rintro ⟨rule, hrule, m, hm, h⟩
    exact ⟨m, ⟨rule, hrule, hm⟩, h⟩

theorem source_of_mem_entries {x : CheckedRoute} {e : Entry} (h : e ∈ x.entries) :
    e.source = sourceText x.id := by
  obtain ⟨_, _, m, _, _, hostname, _, rfl⟩ := mem_entries.mp h
  rfl

end CheckedRoute

section Index

variable {σ ε ω κ : Type}

/-- Entries are looked up and registered in turn. If registering one does not change what is found for
the others, all of them are looked up at the start. -/
theorem foldl_lookup {find : σ → ε → List ω} {register : σ → ε → σ} {es : List ε}
    (h : ∀ d, ∀ e ∈ es, ∀ e' ∈ es, find (register d e) e' = find d e') (found : List ω) (d : σ) :
    es.foldl (fun acc e => (acc.1 ++ find acc.2 e, register acc.2 e)) (found, d) =
      (found ++ es.flatMap (find d), es.foldl register d) := by
  induction es generalizing found d with
  | nil => simp
  | cons e es ih =>
    have hrest : es.flatMap (find (register d e)) = es.flatMap (find d) :=
      List.flatMap_congr fun e' he' => h d e List.mem_cons_self e' (List.mem_cons_of_mem e he')
    have hes : ∀ d, ∀ a ∈ es, ∀ a' ∈ es, find (register d a) a' = find d a' := fun d a ha a' ha' =>
      h d a (List.mem_cons_of_mem e ha) a' (List.mem_cons_of_mem e ha')
    rw [List.foldl_cons, ih hes, hrest, List.flatMap_cons, List.append_assoc, List.foldl_cons]

/-- The index with one more entry under its key. -/
def addUnder [DecidableEq κ] (key : ε → κ) (index : κ → List ε) (e : ε) : κ → List ε :=
  Function.update index (key e) (index (key e) ++ [e])

theorem foldl_addUnder [DecidableEq κ] (key : ε → κ) (es : List ε) (index : κ → List ε) (k : κ) :
    es.foldl (addUnder key) index k = index k ++ es.filter fun e => key e = k := by
  induction es generalizing index with
  | nil => simp
  | cons e es ih =>
    rw [List.foldl_cons, ih, addUnder]
    by_cases hk : key e = k
    · simp [hk]
    · simp [hk, Function.update_of_ne (Ne.symm hk)]

end Index

namespace Detector

/-- `NewDetector`, and the state after `Reset`. -/
def empty : Detector := ⟨fun _ => [], by simp⟩

def reset (_ : Detector) : Detector := empty

def findOverlaps (d : Detector) (newEntry : Entry) : List Overlap :=
  ((d.byHost newEntry.hostname).filter fun e =>
    e.source ≠ newEntry.source ∧ e.pathType ≠ some .regularExpression ∧
      newEntry.pathType ≠ some .regularExpression ∧ entriesOverlap e newEntry = true).map
    fun e => ⟨newEntry, e⟩

def register (d : Detector) (e : Entry) : Detector where
  byHost := Function.update d.byHost e.hostname (d.byHost e.hostname ++ [e])
  hostname_of_mem := by
    intro h e' he'
    by_cases hh : h = e.hostname
    · rw [hh, Function.update_self, List.mem_append, List.mem_singleton] at he'
      rcases he' with he' | rfl
      · rw [hh]
        exact d.hostname_of_mem _ e' he'
      · exact hh.symm
    · rw [Function.update_of_ne hh] at he'
      exact d.hostname_of_mem h e' he'

/-- Look one entry up and register it. -/
def checkEntry (acc : List Overlap × Detector) (e : Entry) : List Overlap × Detector :=
  (acc.1 ++ acc.2.findOverlaps e, acc.2.register e)

/-- The overlaps that an HTTPRoute causes, and the detector with its entries. -/
def check (d : Detector) (x : CheckedRoute) : List Overlap × Detector :=
  x.entries.foldl checkEntry ([], d)

/-- Drop the entries of an HTTPRoute. -/
def remove (d : Detector) (id : String × String) : Detector where
  byHost h := (d.byHost h).filter fun e => e.source ≠ sourceText id
  hostname_of_mem h e he := d.hostname_of_mem h e (List.mem_filter.mp he).1

/-- An entry of the same source is no overlap. -/
theorem findOverlaps_register {d : Detector} {e e' : Entry} (h : e.source = e'.source) :
    (d.register e).findOverlaps e' = d.findOverlaps e' := by
  unfold findOverlaps register
  by_cases hh : e'.hostname = e.hostname
  · simp [hh, h]
  · simp only [Function.update_of_ne hh]

/-- The overlaps are found among the entries registered before. -/
theorem check_fst (d : Detector) (x : CheckedRoute) :
    (d.check x).1 = x.entries.flatMap d.findOverlaps := by
  have hsame : ∀ d : Detector, ∀ e ∈ x.entries, ∀ e' ∈ x.entries,
      (d.register e).findOverlaps e' = d.findOverlaps e' := fun d e he e' he' =>
    findOverlaps_register
      ((CheckedRoute.source_of_mem_entries he).trans (CheckedRoute.source_of_mem_entries he').symm)
  exact (congrArg Prod.fst (foldl_lookup hsame [] d)).trans (List.nil_append _)

/-- All entries of the HTTPRoute are registered. -/
theorem byHost_check (d : Detector) (x : CheckedRoute) (h : String) :
    (d.check x).2.byHost h = d.byHost h ++ x.entries.filter fun e => e.hostname = h := by
  have hregister : ∀ (es : List Entry) (acc : List Overlap × Detector),
      (es.foldl checkEntry acc).2.byHost = es.foldl (addUnder Entry.hostname) acc.2.byHost := by
    intro es
    induction es with
    | nil => exact fun _ => rfl
    | cons e es ih => exact fun acc => ih (checkEntry acc e)
  rw [check, hregister, foldl_addUnder]

/-- An overlap is a new entry and a registered one of another source that overlap. -/
theorem mem_check {d : Detector} {x : CheckedRoute} {ol : Overlap} :
    ol ∈ (d.check x).1 ↔
      ol.incoming ∈ x.entries ∧ ol.existing ∈ d.byHost ol.incoming.hostname ∧
        ol.existing.source ≠ sourceText x.id ∧ entriesOverlap ol.existing ol.incoming = true := by
  have hregex : ∀ {a b : Entry}, entriesOverlap a b = true →
      a.pathType ≠ some .regularExpression ∧ b.pathType ≠ some .regularExpression := by
    intro a b h
    simp only [entriesOverlap, Bool.and_eq_true] at h
    constructor <;> intro ht <;> rw [ht] at h
    · simp [pathsOverlap] at h
    · cases hp : a.pathType with
      | none => simp [pathsOverlap, hp] at h
      | some t => cases t <;> simp [pathsOverlap, hp] at h
  rw [check_fst, List.mem_flatMap]
  constructor
  · rintro ⟨e, he, hol⟩
    obtain ⟨e', he', rfl⟩ := List.mem_map.mp hol
    obtain ⟨hmem, hcond⟩ := List.mem_filter.mp he'
    simp only [decide_eq_true_eq] at hcond
    exact ⟨he, hmem, CheckedRoute.source_of_mem_entries he ▸ hcond.1, hcond.2.2.2⟩
  · rintro ⟨he, hmem, hsource, hoverlap⟩
    refine ⟨ol.incoming, he, List.mem_map.mpr ⟨ol.existing, List.mem_filter.mpr ⟨hmem, ?_⟩, rfl⟩⟩
    simp only [decide_eq_true_eq]
    exact ⟨CheckedRoute.source_of_mem_entries he ▸ hsource, (hregex hoverlap).1, (hregex hoverlap).2,
      hoverlap⟩

end Detector

/-! ## HTTPRoutes -/

def methodText (method : Option HTTPMethod) : String := (method.map HTTPMethod.name).getD ""

theorem ascii_methodText (method : Option HTTPMethod) : ∀ c ∈ (methodText method).toList, c.val < 0x80 := by
  rcases method with _ | _ | _ <;> simp [methodText, HTTPMethod.name]

def MatchInput.checked (m : MatchInput) : CheckedMatch where
  pathType := m.pathType
  pathValue := m.pathValue
  method := methodText m.method
  headers := m.headers
  method_ascii := ascii_methodText m.method

def HTTPRouteInput.checked (x : HTTPRouteInput) : CheckedRoute :=
  ⟨x.«namespace», x.name, x.hostnames, x.rules.map fun rule => rule.«matches».map MatchInput.checked⟩

end Vrata.Controller

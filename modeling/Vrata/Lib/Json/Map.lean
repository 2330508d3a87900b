import Mathlib.Tactic.Linarith
import Vrata.Lib.Json.Object

/-!
# Maps as JSON objects

Go writes a map from strings as an object with its keys in order, and reads an object into a map; of
members with one key the last counts. A map is written if each of its values is, and it is read back if
each of its values is (`unmarshalMap_encodeObject`).
-/

namespace Json

variable {α β : Type}

/-- The function is applied to every value, and fails if it fails for one. -/
def mapValues (f : α → Option β) (entries : List (String × α)) : Option (List (String × β)) :=
  entries.mapM fun entry => (f entry.2).map (entry.1, ·)

def marshalMap (encode : β → Option Bytes) (m : Std.ExtTreeMap String β compare) : Option Bytes :=
  (mapValues encode m.toList).map encodeObject

def unmarshalMap (decode : Bytes → Option β) (text : Bytes) :
    Option (Std.ExtTreeMap String β compare) := do
  let ms ← members text
  let entries ← mapValues decode ms
  some (Std.ExtTreeMap.ofList entries compare)

theorem mapValues_of_forall {f : α → Option β} {g : α → β} {entries : List (String × α)}
    (h : ∀ entry ∈ entries, f entry.2 = some (g entry.2)) :
    mapValues f entries = some (entries.map fun entry => (entry.1, g entry.2)) := by
  induction entries with
  | nil => rfl
  | cons entry entries ih =>
    have hentry := h entry List.mem_cons_self
    have hentries := ih fun entry' hmem => h entry' (List.mem_cons_of_mem _ hmem)
    rw [mapValues] at hentries ⊢
    rw [List.mapM_cons, hentry, hentries]
    rfl

theorem isSome_of_mapValues {f : α → Option β} {entries : List (String × α)}
    (h : (mapValues f entries).isSome = true) : ∀ entry ∈ entries, (f entry.2).isSome = true := by
  induction entries with
  | nil => exact nofun
  | cons entry entries ih =>
    rw [mapValues, List.mapM_cons] at h
    intro entry' hmem
    cases hentry : f entry.2 with
    | none =>
      rw [hentry] at h
      cases h
    | some v =>
      rw [hentry] at h
      obtain rfl | hmem := List.mem_cons.mp hmem
      · rw [hentry]
        rfl
      · refine ih ?_ entry' hmem
        rw [mapValues]
        cases hrest : entries.mapM fun entry => (f entry.2).map (entry.1, ·) with
        | none =>
          rw [hrest] at h
          cases h
        | some => rfl

section Maps

variable {m : Std.ExtTreeMap String β compare}

theorem ofList_toList (m : Std.ExtTreeMap String β compare) :
    Std.ExtTreeMap.ofList m.toList compare = m := by
  refine Std.ExtTreeMap.ext_getElem? fun key => ?_
  cases hkey : m[key]? with
  | none =>
    refine Std.ExtTreeMap.getElem?_ofList_of_contains_eq_false ?_
    rw [List.contains_eq_mem, decide_eq_false_iff_not, List.mem_map]
    rintro ⟨⟨key', v⟩, hmem, rfl⟩
    rw [Std.ExtTreeMap.mem_toList_iff_getElem?_eq_some, hkey] at hmem
    cases hmem
  | some v =>
    exact Std.ExtTreeMap.getElem?_ofList_of_mem Std.ReflCmp.compare_self
      Std.ExtTreeMap.distinct_keys_toList (Std.ExtTreeMap.mem_toList_iff_getElem?_eq_some.mpr hkey)

theorem marshalMap_of_forall {encode : β → Option Bytes} {text : β → Bytes}
    (h : ∀ (key : String) v, m[key]? = some v → encode v = some (text v)) :
    marshalMap encode m = some (encodeObject (m.map fun _ => text).toList) := by
  rw [marshalMap, mapValues_of_forall (g := text), Std.ExtTreeMap.toList_map]
  · rfl
  · intro entry hmem
    exact h _ _ (Std.ExtTreeMap.mem_toList_iff_getElem?_eq_some.mp hmem)

theorem isSome_of_marshalMap {encode : β → Option Bytes} (h : (marshalMap encode m).isSome = true)
    {key : String} {v : β} (hv : m[key]? = some v) : (encode v).isSome = true := by
  rw [marshalMap, Option.isSome_map] at h
  exact isSome_of_mapValues h (key, v) (Std.ExtTreeMap.mem_toList_iff_getElem?_eq_some.mpr hv)

/-- What has been written of a map is read back. -/
theorem unmarshalMap_encodeObject {γ : Type} {decode : Bytes → Option γ} {text : β → Bytes} {g : β → γ}
    (htight : ∀ (key : String) v, m[key]? = some v → Tight (text v))
    (hdecode : ∀ (key : String) v, m[key]? = some v → decode (text v) = some (g v)) :
    unmarshalMap decode (encodeObject (m.map fun _ => text).toList) = some (m.map fun _ => g) := by
  have hmem {key : String} {v : β} (h : (key, v) ∈ m.toList) : m[key]? = some v :=
    Std.ExtTreeMap.mem_toList_iff_getElem?_eq_some.mp h
  have hread : members (encodeObject (m.map fun _ => text).toList) =
      some (m.toList.map fun entry => (entry.1, text entry.2)) := by
    rw [Std.ExtTreeMap.toList_map]
    refine members_encodeObject fun member hmember => ?_
    obtain ⟨⟨key, v⟩, hentry, rfl⟩ := List.mem_map.mp hmember
    exact htight key v (hmem hentry)
  have hvalues : mapValues decode (m.toList.map fun entry => (entry.1, text entry.2)) =
      some (m.map fun _ => g).toList := by
    have hcomp : mapValues (fun v => decode (text v)) m.toList =
        some (m.toList.map fun entry => (entry.1, g entry.2)) :=
      mapValues_of_forall fun entry hentry => hdecode _ _ (hmem hentry)
    rw [Std.ExtTreeMap.toList_map, ← hcomp, mapValues, List.mapM_map]
    rfl
  rw [unmarshalMap, hread, Option.bind_eq_bind, Option.bind_some, hvalues]
  exact congrArg some (ofList_toList _)

theorem tight_encodeObject_map {text : β → Bytes}
    (htight : ∀ (key : String) v, m[key]? = some v → Tight (text v)) :
    Tight (encodeObject (m.map fun _ => text).toList) := by
  refine tight_encodeObject fun member hmember => ?_
  rw [Std.ExtTreeMap.toList_map] at hmember
  obtain ⟨⟨key, v⟩, hentry, rfl⟩ := List.mem_map.mp hmember
  exact htight key v (Std.ExtTreeMap.mem_toList_iff_getElem?_eq_some.mp hentry)

end Maps

end Json

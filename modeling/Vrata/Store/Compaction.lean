import Vrata.Lib.Json.Map
import Vrata.Store.View

/-!
# Compacting the log

A snapshot of Raft is a dump of the whole file as JSON, and a node that has fallen behind restores it.
The values go into the dump as raw JSON, but not every value is JSON: the ID of the active snapshot is
stored as it is, and encrypted values are octets. On the other side, a bucket is cleared by deleting its
keys while they are being iterated, which may skip some of them.

`lossless_iff` says for which pairs of stores a dump can be made and restoring it shows no difference.
-/

namespace Vrata.Store

open Json (Bytes)

/-! ## Dump and restore -/

def bucketNames : List String :=
  [Kind.route.bucket, Kind.group.bucket, Kind.middleware.bucket, Kind.listener.bucket,
    Kind.destination.bucket, Kind.secret.bucket, Kind.snapshot.bucket, bucketMeta]

def dumpMap (s : Bolt) : Std.ExtTreeMap String Bucket compare :=
  bucketNames.foldl (fun dump name => dump.insert name (s.db name)) ∅

/-- The values are marshalled as raw messages, which compacts them. -/
def dump (s : Bolt) : Except StoreError Bytes :=
  match Json.marshalMap (Json.marshalMap Json.compact) (dumpMap s) with
  | none => .error .json
  | some data => .ok data

/-- One bucket of a dump. The keys that the deletion skips are kept. -/
def restoreBucket (kept : String → Bool) (entries b : Bucket) : Except StoreError Bucket :=
  entries.toList.foldlM (fun b entry => put b entry.1 entry.2) (b.filter fun key _ => kept key)

def restoreStep (kept : String → String → Bool) (t : Bolt) (entry : String × Bucket) :
    Except StoreError Bolt :=
  if entry.1 = "" then .error .bucketNameRequired
  else (restoreBucket (kept entry.1) entry.2 (t.db entry.1)).map (t.setBucket entry.1)

/-- The dump is restored in one transaction. -/
def restore (kept : String → String → Bool) (data : Bytes) (t : Bolt) : Written :=
  match Json.unmarshalMap (Json.unmarshalMap some) data with
  | none => (.error (.wrap "decoding snapshot: %w" [] .json), t)
  | some dump =>
    match dump.toList.foldlM (restoreStep kept) t with
    | .error e => (.error e, t)
    | .ok t' => (.ok (), t')

/-- A dump can be made, and whatever keys are skipped, restoring it succeeds and leaves a store that
cannot be told from the one that was dumped. -/
def Lossless (S : Schema) (cipher : Option Cipher) (s t : Bolt) : Prop :=
  ∃ data, dump s = .ok data ∧
    ∀ kept, ∃ t', restore kept data t = (.ok (), t') ∧ ObsEq S cipher s t'

/-! ## The dump -/

/-- What becomes of a value in the dump. -/
def compacted (v : Bytes) : Bytes := (Json.compact v).getD []

def compactedBucket (b : Bucket) : Bucket := b.map fun _ => compacted

/-- Every value can be put into a dump. -/
def Dumpable (s : Bolt) : Prop :=
  ∀ name ∈ bucketNames, ∀ (key : String) v, (s.db name)[key]? = some v → (Json.compact v).isSome = true

def dumpText (s : Bolt) : Bytes :=
  Json.encodeObject
    ((dumpMap s).map fun _ b => Json.encodeObject (b.map fun _ => compacted).toList).toList

section Dump

variable {s : Bolt}

theorem getElem?_dumpMap (name : String) :
    (dumpMap s)[name]? = if name ∈ bucketNames then some (s.db name) else none := by
  have hfold (names : List String) (m : Std.ExtTreeMap String Bucket compare) :
      (names.foldl (fun dump name => dump.insert name (s.db name)) m)[name]? =
        if name ∈ names then some (s.db name) else m[name]? := by
    induction names generalizing m with
    | nil => rfl
    | cons name' names ih =>
      rw [List.foldl_cons, ih, Std.ExtTreeMap.getElem?_insert]
      by_cases hname : name' = name
      · simp [hname]
      · simp [hname, Ne.symm hname]
  exact hfold bucketNames ∅

theorem mem_of_getElem?_dumpMap {name : String} {b : Bucket} (h : (dumpMap s)[name]? = some b) :
    name ∈ bucketNames ∧ s.db name = b := by
  rw [getElem?_dumpMap, Option.ite_none_right_eq_some] at h
  exact ⟨h.1, Option.some.inj h.2⟩

theorem compact_eq_some_compacted {v : Bytes} (h : (Json.compact v).isSome = true) :
    Json.compact v = some (compacted v) := by
  obtain ⟨v', hv'⟩ := Option.isSome_iff_exists.mp h
  rw [compacted, hv', Option.getD_some]

theorem dump_of_dumpable (h : Dumpable s) : dump s = .ok (dumpText s) := by
  have hmarshal : Json.marshalMap (Json.marshalMap Json.compact) (dumpMap s) = some (dumpText s) := by
    refine Json.marshalMap_of_forall fun name b hb => ?_
    obtain ⟨hname, rfl⟩ := mem_of_getElem?_dumpMap hb
    exact Json.marshalMap_of_forall fun key v hv => compact_eq_some_compacted (h name hname key v hv)
  rw [dump, hmarshal]

theorem dumpable_of_dump {data : Bytes} (h : dump s = .ok data) : Dumpable s := by
  have hsome : (Json.marshalMap (Json.marshalMap Json.compact) (dumpMap s)).isSome = true := by
    rw [dump] at h
    split at h
    · cases h
    · next hdata => rw [hdata]; rfl
  intro name hname key v hv
  have hbucket := Json.isSome_of_marshalMap hsome (by rw [getElem?_dumpMap, if_pos hname])
  exact Json.isSome_of_marshalMap hbucket hv

/-- The dump is read back with the compacted values. -/
theorem unmarshalMap_dumpText (h : Dumpable s) :
    Json.unmarshalMap (Json.unmarshalMap some) (dumpText s) =
      some ((dumpMap s).map fun _ => compactedBucket) := by
  have htight {name : String} {b : Bucket} (hb : (dumpMap s)[name]? = some b) (key : String) (v : Bytes)
      (hv : b[key]? = some v) : Json.Tight (compacted v) := by
    obtain ⟨hname, rfl⟩ := mem_of_getElem?_dumpMap hb
    exact Json.tight_of_compact (compact_eq_some_compacted (h name hname key v hv))
  exact Json.unmarshalMap_encodeObject (fun name b hb => Json.tight_encodeObject_map (htight hb))
    fun name b hb => Json.unmarshalMap_encodeObject (htight hb) fun _ _ _ => rfl

end Dump

/-! ## The restored store -/

/-- The bucket after the entries have been put over what was kept of it. -/
def mergeBucket (kept : String → Bool) (entries b : Bucket) : Bucket :=
  (b.filter fun key _ => kept key).insertMany entries.toList

/-- Every entry of the bucket can be put. -/
def AllFit (entries : Bucket) : Prop := ∀ (key : String) v, entries[key]? = some v → Fits key v.length

/-- The target after the dump has been restored. -/
def merged (kept : String → String → Bool) (s t : Bolt) : Bolt where
  db name :=
    if name ∈ bucketNames then mergeBucket (kept name) (compactedBucket (s.db name)) (t.db name)
    else t.db name
  published := t.published

section Restore

variable {s t : Bolt} {kept : String → Bool} {keptIn : String → String → Bool} {entries b : Bucket}

theorem getElem?_mergeBucket (key : String) :
    (mergeBucket kept entries b)[key]? = entries[key]?.or (if kept key then b[key]? else none) := by
  cases hentry : entries[key]? with
  | none =>
    rw [mergeBucket, Std.ExtTreeMap.getElem?_insertMany_list_of_contains_eq_false,
      Std.ExtTreeMap.getElem?_filter', Option.none_or]
    · cases b[key]? with
      | none => simp
      | some v => simp [Option.filter]
    · rw [List.contains_eq_mem, decide_eq_false_iff_not, List.mem_map]
      rintro ⟨⟨key', v⟩, hmem, rfl⟩
      rw [Std.ExtTreeMap.mem_toList_iff_getElem?_eq_some, hentry] at hmem
      cases hmem
  | some v =>
    exact Std.ExtTreeMap.getElem?_insertMany_list_of_mem Std.ReflCmp.compare_self
      Std.ExtTreeMap.distinct_keys_toList (Std.ExtTreeMap.mem_toList_iff_getElem?_eq_some.mpr hentry)

theorem foldlM_put {l : List (String × Bytes)} (h : ∀ entry ∈ l, Fits entry.1 entry.2.length)
    (b : Bucket) : l.foldlM (fun b entry => put b entry.1 entry.2) b = .ok (b.insertMany l) := by
  induction l generalizing b with
  | nil => rfl
  | cons entry l ih =>
    rw [List.foldlM_cons, put_of_fits (h entry List.mem_cons_self), Std.ExtTreeMap.insertMany_cons]
    exact ih (fun entry' hmem => h entry' (List.mem_cons_of_mem entry hmem)) _

theorem fits_of_foldlM_put {l : List (String × Bytes)} {b b' : Bucket}
    (h : l.foldlM (fun b entry => put b entry.1 entry.2) b = .ok b') :
    ∀ entry ∈ l, Fits entry.1 entry.2.length := by
  induction l generalizing b with
  | nil => exact nofun
  | cons entry l ih =>
    by_cases hfits : Fits entry.1 entry.2.length
    · rw [List.foldlM_cons, put_of_fits hfits] at h
      intro entry' hmem
      obtain rfl | hmem := List.mem_cons.mp hmem
      · exact hfits
      · exact ih h entry' hmem
    · obtain ⟨e, he⟩ := put_of_not_fits hfits b
      rw [List.foldlM_cons, he] at h
      cases h

theorem restoreBucket_of_allFit (h : AllFit entries) :
    restoreBucket kept entries b = .ok (mergeBucket kept entries b) :=
  foldlM_put (fun _ hmem => h _ _ (Std.ExtTreeMap.mem_toList_iff_getElem?_eq_some.mp hmem)) _

theorem allFit_of_restoreBucket {b' : Bucket} (h : restoreBucket kept entries b = .ok b') :
    AllFit entries := fun key v hv =>
  fits_of_foldlM_put h (key, v) (Std.ExtTreeMap.mem_toList_iff_getElem?_eq_some.mpr hv)

/-- The buckets are restored one after the other, each on what the target has under its name. -/
theorem foldlM_restoreStep {l : List (String × Bucket)}
    (hdistinct : l.Pairwise fun entry entry' => ¬compare entry.1 entry'.1 = .eq)
    (h : ∀ entry ∈ l, entry.1 ≠ "" ∧ AllFit entry.2) (keptIn : String → String → Bool) (t : Bolt) :
    ∃ t', l.foldlM (restoreStep keptIn) t = .ok t' ∧ t'.published = t.published ∧
      (∀ entry ∈ l, t'.db entry.1 = mergeBucket (keptIn entry.1) entry.2 (t.db entry.1)) ∧
      ∀ name, (∀ entry ∈ l, entry.1 ≠ name) → t'.db name = t.db name := by
  induction l generalizing t with
  | nil => exact ⟨t, rfl, rfl, nofun, fun _ _ => rfl⟩
  | cons entry l ih =>
    obtain ⟨hentry, hrest⟩ := List.pairwise_cons.mp hdistinct
    obtain ⟨hname, hfit⟩ := h entry List.mem_cons_self
    have hne {entry' : String × Bucket} (hmem : entry' ∈ l) : entry'.1 ≠ entry.1 := fun heq =>
      hentry entry' hmem (by rw [heq]; exact Std.ReflCmp.compare_self)
    have hstep : restoreStep keptIn t entry =
        .ok (t.setBucket entry.1 (mergeBucket (keptIn entry.1) entry.2 (t.db entry.1))) := by
      rw [restoreStep, if_neg hname, restoreBucket_of_allFit hfit]
      rfl
    obtain ⟨t', hrun, hpublished, hmerged, hother⟩ :=
      ih hrest (fun entry' hmem => h entry' (List.mem_cons_of_mem entry hmem))
        (t.setBucket entry.1 (mergeBucket (keptIn entry.1) entry.2 (t.db entry.1)))
    refine ⟨t', ?_, hpublished, fun entry' hmem => ?_, fun name hall => ?_⟩
    · rw [List.foldlM_cons, hstep]
      exact hrun
    · obtain rfl | hmem := List.mem_cons.mp hmem
      · rw [hother _ fun _ => hne, Bolt.db_setBucket_self]
      · rw [hmerged entry' hmem, Bolt.db_setBucket_of_ne (hne hmem)]
    · rw [hother name fun entry' hmem => hall entry' (List.mem_cons_of_mem entry hmem),
        Bolt.db_setBucket_of_ne (hall entry List.mem_cons_self).symm]

theorem allFit_of_foldlM_restoreStep {l : List (String × Bucket)} {t t' : Bolt}
    (h : l.foldlM (restoreStep keptIn) t = .ok t') : ∀ entry ∈ l, AllFit entry.2 := by
  induction l generalizing t with
  | nil => exact nofun
  | cons entry l ih =>
    rw [List.foldlM_cons] at h
    cases hstep : restoreStep keptIn t entry with
    | error e =>
      rw [hstep] at h
      cases h
    | ok t₁ =>
      rw [hstep] at h
      intro entry' hmem
      obtain rfl | hmem := List.mem_cons.mp hmem
      · rw [restoreStep] at hstep
        split_ifs at hstep
        cases hbucket : restoreBucket (keptIn entry'.1) entry'.2 (t.db entry'.1) with
        | error e =>
          rw [hbucket] at hstep
          cases hstep
        | ok b => exact allFit_of_restoreBucket hbucket
      · exact ih h entry' hmem

/-- Restoring a dump. -/
theorem restore_dumpText (h : Dumpable s)
    (hfit : ∀ name ∈ bucketNames, AllFit (compactedBucket (s.db name))) :
    restore keptIn (dumpText s) t = (.ok (), merged keptIn s t) := by
  have hentry {entry : String × Bucket}
      (hmem : entry ∈ ((dumpMap s).map fun _ => compactedBucket).toList) :
      entry.1 ∈ bucketNames ∧ compactedBucket (s.db entry.1) = entry.2 := by
    rw [Std.ExtTreeMap.toList_map, List.mem_map] at hmem
    obtain ⟨⟨name, b⟩, hmem, rfl⟩ := hmem
    obtain ⟨hname, rfl⟩ :=
      mem_of_getElem?_dumpMap (Std.ExtTreeMap.mem_toList_iff_getElem?_eq_some.mp hmem)
    exact ⟨hname, rfl⟩
  have hnames : ∀ name ∈ bucketNames, name ≠ "" := by decide
  obtain ⟨t', hrun, hpublished, hmerged, hother⟩ :=
    foldlM_restoreStep (l := ((dumpMap s).map fun _ => compactedBucket).toList)
      Std.ExtTreeMap.distinct_keys_toList (fun entry hmem => ⟨hnames _ (hentry hmem).1, by
        rw [← (hentry hmem).2]
        exact hfit _ (hentry hmem).1⟩) keptIn t
  have ht' : t' = merged keptIn s t := by
    obtain ⟨db, published⟩ := t'
    refine congr (congrArg Bolt.mk (funext fun name => ?_)) hpublished
    by_cases hname : name ∈ bucketNames
    · rw [if_pos hname]
      refine hmerged (name, compactedBucket (s.db name)) ?_
      rw [Std.ExtTreeMap.mem_toList_iff_getElem?_eq_some, Std.ExtTreeMap.getElem?_map,
        getElem?_dumpMap, if_pos hname]
      rfl
    · rw [if_neg hname]
      exact hother name fun entry hmem heq => hname (heq ▸ (hentry hmem).1)
  rw [restore, unmarshalMap_dumpText h]
  dsimp only
  rw [hrun, ht']

theorem allFit_of_restore {t' : Bolt} (h : Dumpable s)
    (hrestore : restore keptIn (dumpText s) t = (.ok (), t')) :
    ∀ name ∈ bucketNames, AllFit (compactedBucket (s.db name)) := by
  rw [restore, unmarshalMap_dumpText h] at hrestore
  dsimp only at hrestore
  split at hrestore
  · cases (Prod.mk.inj hrestore).1
  · next hrun =>
    intro name hname
    refine allFit_of_foldlM_restoreStep hrun (name, compactedBucket (s.db name)) ?_
    rw [Std.ExtTreeMap.mem_toList_iff_getElem?_eq_some, Std.ExtTreeMap.getElem?_map,
      getElem?_dumpMap, if_pos hname]
    rfl

theorem lossless_iff_merged {S : Schema} {cipher : Option Cipher} :
    Lossless S cipher s t ↔ Dumpable s ∧
      (∀ name ∈ bucketNames, AllFit (compactedBucket (s.db name))) ∧
        ∀ keptIn, ObsEq S cipher s (merged keptIn s t) := by
  constructor
  · rintro ⟨data, hdump, hrestore⟩
    have hdumpable := dumpable_of_dump hdump
    rw [dump_of_dumpable hdumpable] at hdump
    cases hdump
    have hfit : ∀ name ∈ bucketNames, AllFit (compactedBucket (s.db name)) := by
      obtain ⟨t', ht', -⟩ := hrestore fun _ _ => false
      exact allFit_of_restore hdumpable ht'
    refine ⟨hdumpable, hfit, fun keptIn => ?_⟩
    obtain ⟨t', ht', hobs⟩ := hrestore keptIn
    rw [restore_dumpText hdumpable hfit] at ht'
    rwa [(Prod.mk.inj ht').2]
  · rintro ⟨hdumpable, hfit, hobs⟩
    exact ⟨dumpText s, dump_of_dumpable hdumpable, fun keptIn =>
      ⟨merged keptIn s t, restore_dumpText hdumpable hfit, hobs keptIn⟩⟩

end Restore

/-! ## When compaction is lossless -/

/-- The value is a JSON text that can be put and reads the same once it is compacted. -/
def Survives (S : Schema) (cipher : Option Cipher) (k : Kind) (v : Bytes) : Prop :=
  ∃ v', Json.compact v = some v' ∧ v'.length ≤ maxValueSize ∧
    readValue S cipher k v' = readValue S cipher k v

/-- If there is a cipher, the encrypted values survive the dump; the ID of the active snapshot is itself
a compact JSON text; the target has no key that is not overwritten; and if no snapshot is active, the
target does not have one active that the dump brings. -/
structure Compactable (S : Schema) (cipher : Option Cipher) (s t : Bolt) : Prop where
  isSealed : cipher.isSome = true → ∀ k id v, k.isSealed = true → s.value k id = some v →
    Survives S cipher k v
  active : ∀ p, s.activeSnapshotID = some p → Json.compact p = some p
  covered : ∀ k id, s.value k id = none → t.value k id = none
  unset : s.activeSnapshotID = none → ∀ id, t.activeSnapshotID = some (utf8 id) →
    s.value .snapshot id = none

section Lossless

variable {S : Schema} {cipher : Option Cipher} {s t : Bolt} {a : View S cipher} {k : Kind} {id : String}
  {v : Bytes}

theorem Kind.bucket_mem_bucketNames (k : Kind) : k.bucket ∈ bucketNames := by
  cases k <;> decide

theorem value_merged (keptIn : String → String → Bool) (s t : Bolt) (k : Kind) (id : String) :
    (merged keptIn s t).value k id =
      ((s.value k id).map compacted).or (if keptIn k.bucket id then t.value k id else none) := by
  rw [Bolt.value, merged]
  dsimp only
  rw [if_pos k.bucket_mem_bucketNames, getElem?_mergeBucket, compactedBucket, Std.ExtTreeMap.getElem?_map]
  rfl

theorem activeSnapshotID_merged (keptIn : String → String → Bool) (s t : Bolt) :
    (merged keptIn s t).activeSnapshotID = (s.activeSnapshotID.map compacted).or
      (if keptIn bucketMeta metaActiveSnapshot then t.activeSnapshotID else none) := by
  rw [Bolt.activeSnapshotID, merged]
  dsimp only
  rw [if_pos (by decide), getElem?_mergeBucket, compactedBucket, Std.ExtTreeMap.getElem?_map]
  rfl

/-- What the store holds of a value: a text that was saved under its ID and is read as an entity with
that ID. -/
theorem Represents.exists_saved (h : Represents s a) (hv : s.value k id = some v) :
    ∃ (e : S.Entity k) (data : Bytes), S.id e = id ∧ saved cipher e = some data ∧
      plain cipher k v = .ok data := by
  obtain ⟨data, hdata⟩ : ∃ data, a.cells (k, id) = some data := by
    refine Option.ne_none_iff_exists'.mp fun hnone => ?_
    rw [Bolt.value, h.value_eq_none.mpr hnone] at hv
    cases hv
  obtain ⟨v', hv', hplain⟩ := h.exists_value hdata
  obtain rfl : v' = v := Option.some.inj (hv'.symm.trans hv)
  obtain ⟨e, he, hsaved⟩ := a.saved_cells hdata
  exact ⟨e, data, he, hsaved, hplain⟩

theorem Represents.exists_read (h : Represents s a) (hv : s.value k id = some v) :
    ∃ e : S.Entity k, S.id e = id ∧ readValue S cipher k v = .ok (.ok e) := by
  obtain ⟨e, data, he, hsaved, hplain⟩ := h.exists_saved hv
  obtain ⟨w, hw, hid⟩ := S.id_unmarshal (saved_eq_some.mp hsaved).1
  refine ⟨w, hid.trans he, ?_⟩
  rw [readValue, hplain]
  change Except.ok (unmarshal S k data) = _
  rw [unmarshal, hw]

theorem Represents.fits_key (h : Represents s a) (hv : s.value k id = some v) :
    (utf8 id).length ≠ 0 ∧ (utf8 id).length ≤ maxKeySize := by
  obtain ⟨e, data, rfl, hsaved, -⟩ := h.exists_saved hv
  have hfits := (saved_eq_some.mp hsaved).2
  exact ⟨hfits.1, hfits.2.1⟩

/-- A value that is not encrypted is a compact text. -/
theorem Represents.survives (h : Represents s a) (hv : s.value k id = some v)
    (hplain : plain cipher k v = .ok v) : Survives S cipher k v := by
  obtain ⟨e, data, rfl, hsaved, hdata⟩ := h.exists_saved hv
  obtain rfl : v = data := Except.ok.inj (hplain.symm.trans hdata)
  obtain ⟨hmarshal, hfits⟩ := saved_eq_some.mp hsaved
  exact ⟨v, S.compact_marshal hmarshal, (Nat.le_add_right _ _).trans hfits.2.2, rfl⟩

theorem Compactable.survives (hc : Compactable S cipher s t) (h : Represents s a)
    (hv : s.value k id = some v) : Survives S cipher k v := by
  cases hk : k.isSealed with
  | false => exact h.survives hv (by rw [plain, hk]; rfl)
  | true =>
    cases hcipher : cipher with
    | none =>
      subst hcipher
      exact h.survives hv (by rw [plain, hk]; rfl)
    | some c =>
      subst hcipher
      exact hc.isSealed rfl k id v hk hv

theorem mem_bucketNames {name : String} (h : name ∈ bucketNames) :
    (∃ k : Kind, name = k.bucket) ∨ name = bucketMeta := by
  simp only [bucketNames, List.mem_cons, List.not_mem_nil, or_false] at h
  obtain rfl | rfl | rfl | rfl | rfl | rfl | rfl | rfl := h
  all_goals first | exact .inr rfl | exact .inl ⟨_, rfl⟩

/-- The metadata of a store. -/
theorem Represents.meta_cases (h : Represents s a) {key : String}
    (hv : (s.db bucketMeta)[key]? = some v) :
    (key = metaActiveSnapshot ∧ s.activeSnapshotID = some v) ∨ (key = metaEncrypted ∧ v = utf8 "true") := by
  by_cases hactive : key = metaActiveSnapshot
  · subst hactive
    exact .inl ⟨rfl, hv⟩
  · by_cases hmarker : key = metaEncrypted
    · subst hmarker
      rw [h.marker, Option.ite_none_right_eq_some] at hv
      exact .inr ⟨rfl, (Option.some.inj hv.2).symm⟩
    · rw [h.other key hactive hmarker] at hv
      cases hv

/-- The ID of the active snapshot is that of a snapshot. -/
theorem Represents.exists_active (h : Represents s a) {p : Bytes} (hp : s.activeSnapshotID = some p) :
    ∃ id v, a.active = some id ∧ p = utf8 id ∧ s.value .snapshot id = some v := by
  rw [h.active] at hp
  obtain ⟨id, hid, rfl⟩ := Option.map_eq_some_iff.mp hp
  obtain ⟨data, hdata⟩ := Option.isSome_iff_exists.mp (a.active_saved hid)
  obtain ⟨v, hv, -⟩ := h.exists_value hdata
  exact ⟨id, v, hid, rfl, hv⟩

/-! ### The condition is enough -/

theorem Compactable.exists_compact (hc : Compactable S cipher s t) (h : Represents s a) {name : String}
    (hname : name ∈ bucketNames) {key : String} (hv : (s.db name)[key]? = some v) :
    ∃ v', Json.compact v = some v' ∧ Fits key v'.length := by
  obtain ⟨k, rfl⟩ | rfl := mem_bucketNames hname
  · obtain ⟨v', hv', hsize, -⟩ := hc.survives h hv
    obtain ⟨hkey, hkey'⟩ := h.fits_key hv
    exact ⟨v', hv', hkey, hkey', hsize⟩
  · obtain ⟨rfl, hactive⟩ | ⟨rfl, rfl⟩ := h.meta_cases hv
    · obtain ⟨id, w, -, rfl, hw⟩ := h.exists_active hactive
      exact ⟨_, hc.active _ hactive, by decide, by decide, (h.fits_key hw).2.trans (by decide)⟩
    · exact ⟨utf8 "true", by decide, by decide⟩

theorem compacted_of_compact {v' : Bytes} (h : Json.compact v = some v') : compacted v = v' := by
  rw [compacted, h, Option.getD_some]

theorem Compactable.sameValues (hc : Compactable S cipher s t) (h : Represents s a)
    (keptIn : String → String → Bool) : SameValues S cipher s (merged keptIn s t) := by
  intro k id
  rw [value_merged]
  cases hv : s.value k id with
  | none => simp [hc.covered k id hv]
  | some v =>
    obtain ⟨v', hv', -, hread⟩ := hc.survives h hv
    rw [Option.map_some, Option.map_some, Option.some_or, Option.map_some, compacted_of_compact hv', hread]

/-- Of the snapshots that are there, the same one is active. -/
theorem Compactable.sameActive (hc : Compactable S cipher s t) (keptIn : String → String → Bool)
    (hid : s.value .snapshot id ≠ none) :
    s.activeSnapshotID = some (utf8 id) ↔ (merged keptIn s t).activeSnapshotID = some (utf8 id) := by
  rw [activeSnapshotID_merged]
  cases hactive : s.activeSnapshotID with
  | none =>
    rw [Option.map_none, Option.none_or]
    refine iff_of_false nofun fun ht => ?_
    split_ifs at ht
    exact hid (hc.unset hactive id ht)
  | some p =>
    rw [Option.map_some, Option.some_or, compacted_of_compact (hc.active p hactive)]

theorem Compactable.obsEq (hc : Compactable S cipher s t) (h : Represents s a)
    (keptIn : String → String → Bool) : ObsEq S cipher s (merged keptIn s t) := by
  have hvalues := hc.sameValues h keptIn
  refine hvalues.obsEq (hvalues.listSnapshots fun id v e hv he => ?_)
    (hvalues.getActiveSnapshot fun id => hc.sameActive keptIn)
  -- An ID is not empty, so it is marked exactly if it is the one in the metadata.
  obtain ⟨e', rfl, he'⟩ := h.exists_read hv
  obtain rfl : e' = e := by rw [he'] at he; exact Except.ok.inj (Except.ok.inj he)
  have hmark (x : Option Bytes) :
      (utf8 (S.id e') == x.getD []) = true ↔ x = some (utf8 (S.id e')) := by
    have hkey := (h.fits_key hv).1
    cases x with
    | none =>
      rw [beq_iff_eq]
      exact iff_of_false (fun hnil => hkey (by rw [hnil]; rfl)) nofun
    | some p => rw [beq_iff_eq, Option.getD_some, Option.some.injEq, eq_comm]
  rw [Bool.eq_iff_iff, hmark, hmark]
  exact hc.sameActive keptIn (by rw [hv]; exact nofun)

/-! ### The condition is needed -/

theorem decryptAndUnmarshal_of_read {format : String} {args : List String} {e : S.Entity k}
    (hk : k.isSealed = true) (h : readValue S cipher k v = .ok (.ok e)) :
    decryptAndUnmarshal S cipher k format args v = .ok e := by
  rw [decryptAndUnmarshal_eq S cipher hk]
  dsimp only
  rw [h]
  rfl

/-- With all keys deleted, the target holds the compacted values and nothing else. -/
theorem survives_of_obsEq (h : Represents s a) (hdump : Dumpable s)
    (hfit : ∀ name ∈ bucketNames, AllFit (compactedBucket (s.db name)))
    (hobs : ObsEq S cipher s (merged (fun _ _ => false) s t)) (hv : s.value k id = some v) :
    Survives S cipher k v := by
  obtain ⟨e, -, he⟩ := h.exists_read hv
  obtain ⟨w, hw, hread⟩ := hobs.exists_value hv he
  have hname := k.bucket_mem_bucketNames
  have hcompacted : (compactedBucket (s.db k.bucket))[id]? = some (compacted v) := by
    rw [compactedBucket, Std.ExtTreeMap.getElem?_map, show (s.db k.bucket)[id]? = some v from hv]
    rfl
  rw [value_merged, hv] at hw
  obtain rfl : compacted v = w := Option.some.inj hw
  refine ⟨compacted v, compact_eq_some_compacted (hdump _ hname id v hv), ?_, hread.trans he.symm⟩
  exact (hfit _ hname id _ hcompacted).2.2

theorem compact_active_of_obsEq (h : Represents s a) (hdump : Dumpable s)
    (hfit : ∀ name ∈ bucketNames, AllFit (compactedBucket (s.db name)))
    (hobs : ObsEq S cipher s (merged (fun _ _ => false) s t)) {p : Bytes}
    (hp : s.activeSnapshotID = some p) : Json.compact p = some p := by
  have hcompact : Json.compact p = some (compacted p) :=
    compact_eq_some_compacted (hdump bucketMeta (by decide) metaActiveSnapshot p hp)
  obtain ⟨id, v, hid, rfl, -⟩ := h.exists_active hp
  obtain ⟨w, hw, rfl⟩ := h.getActiveSnapshot_of_some hid
  have hget := hobs.getActiveSnapshot.symm.trans hw
  have hactive : (merged (fun _ _ => false) s t).activeSnapshotID = some (compacted (utf8 (S.id w))) := by
    rw [activeSnapshotID_merged, hp]
    rfl
  -- The compacted ID is that of a snapshot, and the snapshot under it is the one that was active.
  obtain ⟨id', hid', u, hu⟩ : ∃ id', compacted (utf8 (S.id w)) = utf8 id' ∧
      ∃ u, (merged (fun _ _ => false) s t).value .snapshot id' = some u := by
    by_contra hnone
    push Not at hnone
    rw [getActiveSnapshot_of_absent] at hget
    · cases hget
    · intro id' hid'
      rw [hactive] at hid'
      exact Option.eq_none_iff_forall_ne_some.mpr (hnone id' (Option.some.inj hid'))
  rw [getActiveSnapshot_of_value (by rw [hactive, hid']) hu] at hget
  obtain ⟨v', hv', hu'⟩ : ∃ v', s.value .snapshot id' = some v' ∧ compacted v' = u := by
    rw [value_merged] at hu
    simpa using hu
  obtain ⟨e, rfl, he⟩ := h.exists_read hv'
  obtain ⟨v'', hv'', -, hread⟩ := survives_of_obsEq h hdump hfit hobs hv'
  rw [← hu', compacted_of_compact hv'', decryptAndUnmarshal_of_read rfl (hread.trans he)] at hget
  cases hget
  rw [hcompact, hid']

theorem unset_of_obsEq (h : Represents s a) (hobs : ObsEq S cipher s (merged (fun _ _ => true) s t))
    (hs : s.activeSnapshotID = none) (ht : t.activeSnapshotID = some (utf8 id)) :
    s.value .snapshot id = none := by
  by_contra hvalue
  obtain ⟨v, hv⟩ := Option.ne_none_iff_exists'.mp hvalue
  obtain ⟨e, -, he⟩ := h.exists_read hv
  obtain ⟨w, hw, hread⟩ := hobs.exists_value hv he
  have hactive : (merged (fun _ _ => true) s t).activeSnapshotID = some (utf8 id) := by
    rw [activeSnapshotID_merged, hs, ht]
    rfl
  have hget := hobs.getActiveSnapshot
  rw [getActiveSnapshot_of_value hactive hw, decryptAndUnmarshal_of_read rfl hread,
    getActiveSnapshot_of_absent] at hget
  · cases hget
  · intro id' hid'
    rw [hs] at hid'
    cases hid'

theorem covered_of_obsEq (hobs : ObsEq S cipher s (merged (fun _ _ => true) s t))
    (hs : s.value k id = none) : t.value k id = none := by
  have hnone := (hobs.value_eq_none_iff k id).mp hs
  rwa [value_merged, hs] at hnone

/-- Compaction is lossless exactly for the pairs of stores that meet the condition. -/
theorem lossless_iff (h : Reachable S cipher s) (t : Bolt) :
    Lossless S cipher s t ↔ Compactable S cipher s t := by
  obtain ⟨a, ha⟩ := h.exists_view
  rw [lossless_iff_merged]
  constructor
  · rintro ⟨hdump, hfit, hobs⟩
    exact
      { isSealed := fun _ _ _ _ _ hv => survives_of_obsEq ha hdump hfit (hobs _) hv
        active := fun _ hp => compact_active_of_obsEq ha hdump hfit (hobs _) hp
        covered := fun _ _ hs => covered_of_obsEq (hobs _) hs
        unset := fun hs _ ht => unset_of_obsEq ha (hobs _) hs ht }
  · intro hc
    refine ⟨fun name hname key v hv => ?_, fun name hname key v hv => ?_, hc.obsEq ha⟩
    · obtain ⟨v', hv', -⟩ := hc.exists_compact ha hname hv
      rw [hv']
      rfl
    · rw [compactedBucket, Std.ExtTreeMap.getElem?_map] at hv
      obtain ⟨v₀, hv₀, rfl⟩ := Option.map_eq_some_iff.mp hv
      obtain ⟨v', hv', hfits⟩ := hc.exists_compact ha hname hv₀
      rwa [compacted_of_compact hv']

/-- A store with one snapshot, which is active. -/
def oneActive (v : Bool) : Bolt :=
  let save : Op sampleSchema := .save .snapshot v
  let activate : Op sampleSchema := .activate (sampleSchema.id (k := .snapshot) v)
  (activate.run sampleSchema none sampleNonce (save.run sampleSchema none sampleNonce {}).2).2

theorem reachable_oneActive (v : Bool) : Reachable sampleSchema none (oneActive v) :=
  .run _ sampleNonce (.run _ sampleNonce (.new rfl))

/-- A snapshot whose ID is a number. -/
theorem lossless_number : Lossless sampleSchema none (oneActive false) {} := by
  refine (lossless_iff (reachable_oneActive false) {}).mpr ⟨nofun, fun p hp => ?_, fun _ _ _ => rfl, ?_⟩
  · have hactive : (oneActive false).activeSnapshotID = some (utf8 "42") := by decide +kernel
    rw [hactive] at hp
    cases hp
    decide
  · rintro - id ⟨⟩

/-- A snapshot whose ID is not: the store cannot be dumped. -/
theorem dump_fails : Reachable sampleSchema none (oneActive true) ∧
    ¬Lossless sampleSchema none (oneActive true) {} := by
  refine ⟨reachable_oneActive true, ?_⟩
  rintro ⟨data, hdump, -⟩
  have hactive : ((oneActive true).db bucketMeta)[metaActiveSnapshot]? = some (utf8 "a") := by
    decide +kernel
  have hcompact := dumpable_of_dump hdump bucketMeta (by decide) metaActiveSnapshot _ hactive
  exact absurd hcompact (by decide)

end Lossless

end Vrata.Store

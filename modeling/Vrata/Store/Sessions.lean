import Vrata.Store.View

/-!
# Sessions with and without a key

A bolt file is opened with the encryption key or without it, used and closed, any number of times. `New`
refuses a file whose secrets and snapshots were written in the other mode: with a key it leaves a marker
in the file, and without the marker it takes a file only if there is nothing to decrypt.

`consistent_of_run` says that this is enough. In every session the secrets and the snapshots of the file
can be decoded, and all of them were written in the mode of the session.
-/

namespace Vrata.Store

open Json (Bytes)

/-! ## Histories of a file -/

/-- The file is closed, or a store has it open with the key or without it. -/
inductive Handle where
  | closed (db : String → Bucket)
  | opened (keyed : Bool) (s : Bolt)

def Handle.store : Handle → Bolt
  | .closed db => { db }
  | .opened _ s => s

/-- The file, and for each entry whether the store that wrote it had the key. -/
structure History where
  handle : Handle := .closed fun _ => ∅
  written : Kind × String → Option Bool := fun _ => none

inductive Action (S : Schema) where
  | new (keyed : Bool)
  | run (op : Op S) (nonce : Nonce)
  | close

/-- The cipher that `New` is given. -/
def mode (c : Cipher) (keyed : Bool) : Option Cipher := if keyed then some c else none

section Histories

variable {S : Schema} (c : Cipher)

/-- An operation that returns no error has written or removed its entry. -/
def mark (keyed : Bool) (written : Kind × String → Option Bool) (op : Op S) :
    Except StoreError Unit → Kind × String → Option Bool
  | .error _ => written
  | .ok _ =>
    match op with
    | .save k v => Function.update written (k, S.id v) (some keyed)
    | .delete k id => Function.update written (k, id) none
    | .activate _ => written

/-- A file is opened when it is closed, and used and closed when it is open. -/
def History.step (h : History) : Action S → History
  | .new keyed =>
    match h.handle with
    | .closed db =>
      match new (mode c keyed) db with
      | .error _ => h
      | .ok s => { h with handle := .opened keyed s }
    | .opened _ _ => h
  | .run op nonce =>
    match h.handle with
    | .closed _ => h
    | .opened keyed s =>
      let r := op.run S (mode c keyed) nonce s
      { handle := .opened keyed r.2, written := mark keyed h.written op r.1 }
  | .close =>
    match h.handle with
    | .closed _ => h
    | .opened _ s => { h with handle := .closed s.db }

/-- The secrets and snapshots of an open file can be decoded in the mode of the session, those of a file
were all written in one mode, and a store without the key never comes upon one that was written with
it. -/
structure Consistent (S : Schema) (c : Cipher) (h : History) : Prop where
  decoded : ∀ keyed s k id v, h.handle = .opened keyed s → k.isSealed = true → s.value k id = some v →
    ∃ e, readValue S (mode c keyed) k v = .ok (.ok e)
  uniform : ∃ keyed, ∀ k id, k.isSealed = true → h.handle.store.value k id ≠ none →
    h.written (k, id) = some keyed
  foreign : ∀ s k id, h.handle = .opened false s → k.isSealed = true → h.written (k, id) ≠ some true

end Histories

/-! ## What a file holds -/

section Held

variable {S : Schema} {c : Cipher} {h : History} {keyed : Bool} {s : Bolt}

/-- The file represents a view in one mode, that of the session if there is one, and its secrets and
snapshots were written in that mode. -/
structure Held (c : Cipher) (h : History) (keyed : Bool) (a : View S (mode c keyed)) : Prop where
  represents : Represents h.handle.store a
  opened : ∀ keyed' s, h.handle = .opened keyed' s → keyed' = keyed
  written : ∀ k id, k.isSealed = true → h.written (k, id) = (a.cells (k, id)).map fun _ => keyed

theorem Represents.of_db {cipher : Option Cipher} {a : View S cipher} {t : Bolt} (hs : Represents s a)
    (hdb : t.db = s.db) : Represents t a := by
  obtain ⟨db, _⟩ := s
  obtain ⟨_, _⟩ := t
  cases hdb
  exact ⟨hs.text, hs.active, hs.marker, hs.other⟩

/-- A view without secrets and snapshots is one for any cipher. -/
def View.rekey {cipher : Option Cipher} (a : View S cipher) (cipher' : Option Cipher)
    (hsealed : ∀ k id, k.isSealed = true → a.cells (k, id) = none) : View S cipher' where
  cells := a.cells
  active := a.active
  saved_cells := by
    intro k id data hdata
    have hk : k.isSealed = false := by
      by_contra hk
      rw [hsealed k id (Bool.eq_true_of_not_eq_false hk)] at hdata
      cases hdata
    obtain ⟨v, hid, hsaved⟩ := a.saved_cells hdata
    refine ⟨v, hid, ?_⟩
    simpa only [saved, overhead, hk, Bool.false_and] using hsaved
  active_saved := a.active_saved

theorem Represents.rekey {a : View S none} (hs : Represents s a)
    (hsealed : ∀ k id, k.isSealed = true → a.cells (k, id) = none) (c : Cipher) :
    Represents (s.setBucket bucketMeta ((s.db bucketMeta).insert metaEncrypted (utf8 "true")))
      (a.rekey (some c) hsealed) := by
  have hget (key : String) (hkey : key ≠ metaEncrypted) :
      ((s.db bucketMeta).insert metaEncrypted (utf8 "true"))[key]? = (s.db bucketMeta)[key]? := by
    rw [Std.ExtTreeMap.getElem?_insert, if_neg]
    exact fun h => hkey (Std.LawfulEqCmp.eq_of_compare h).symm
  refine ⟨fun k id => ?_, ?_, ?_, fun key hactive hkey => ?_⟩
  · rw [Bolt.text_setBucket_of_ne k.bucket_ne_meta]
    change _ = (a.cells (k, id)).map Except.ok
    cases hk : k.isSealed with
    | false =>
      have hplain : plain (some c) k = plain none k := by
        funext v
        rw [plain, plain, hk]
        rfl
      rw [← hs.text, Bolt.text, Bolt.text, hplain]
    | true =>
      have hnone := hsealed k id hk
      rw [hnone, Bolt.text, Bolt.value, hs.value_eq_none.mpr hnone]
      rfl
  · rw [Bolt.activeSnapshotID, Bolt.db_setBucket_self, hget _ (by decide)]
    exact hs.active
  · rw [Bolt.db_setBucket_self, Std.ExtTreeMap.getElem?_insert_self]
    rfl
  · rw [Bolt.db_setBucket_self, hget key hkey]
    exact hs.other key hactive hkey

/-- A file that was marked is not opened without the key. -/
theorem new_none_of_marker (hmarker : (s.db bucketMeta)[metaEncrypted]? = some (utf8 "true")) :
    ∃ e, new none s.db = .error e := by
  refine ⟨_, if_pos ⟨rfl, hmarker⟩⟩

/-- A file that was not marked is opened with the key if it has neither secrets nor snapshots, and is
marked then. -/
theorem new_some_of_unmarked (hmarker : (s.db bucketMeta)[metaEncrypted]? = none) (c : Cipher) :
    (∃ e, new (some c) s.db = .error e) ∨
      (∀ k : Kind, k.isSealed = true → s.db k.bucket = ∅) ∧
        new (some c) s.db = .ok (Bolt.setBucket { db := s.db } bucketMeta
          ((s.db bucketMeta).insert metaEncrypted (utf8 "true"))) := by
  have hne : ¬(s.db bucketMeta)[metaEncrypted]? = some (utf8 "true") := by
    rw [hmarker]
    exact nofun
  have hput (b : Bucket) : put b metaEncrypted (utf8 "true") = .ok (b.insert metaEncrypted (utf8 "true")) :=
    put_of_fits (by decide) b
  by_cases hdata : ([Kind.secret, .snapshot].any fun k => !(s.db k.bucket).isEmpty) = true
  · refine .inl ⟨.failed "data is not encrypted but an encryption key is configured" [], ?_⟩
    simp only [new, checkEncryptionMode, hne, Option.isNone_some, Bool.false_eq_true, if_false,
      Option.isSome_some, not_false_eq_true, and_self, if_true, hdata]
  · refine .inr ⟨fun k hk => ?_, ?_⟩
    · simp only [List.any_cons, List.any_nil, Bool.or_false, Bool.or_eq_true, Bool.not_eq_true', not_or,
        Bool.not_eq_false, Std.ExtTreeMap.isEmpty_iff] at hdata
      cases k with
      | secret => exact hdata.1
      | snapshot => exact hdata.2
      | _ => cases hk
    · simp only [new, checkEncryptionMode, hne, Option.isNone_some, Bool.false_eq_true, if_false,
        Option.isSome_some, not_false_eq_true, and_self, if_true, hdata, hput]
      rfl

theorem Held.new {a : View S (mode c keyed)} (ha : Held c h keyed a) {db : String → Bucket}
    (hclosed : h.handle = .closed db) (keyed' : Bool) :
    ∃ keyed'', ∃ b : View S (mode c keyed''), Held c (h.step c (.new keyed' : Action S)) keyed'' b := by
  have hs : Represents { db } a := by
    have hrepresents := ha.represents
    rwa [hclosed] at hrepresents
  have hstep : h.step c (.new keyed' : Action S) =
      match Store.new (mode c keyed') db with
      | .error _ => h
      | .ok s => { h with handle := .opened keyed' s } := by
    simp only [History.step, hclosed]
  rw [hstep]
  by_cases hkeyed : keyed' = keyed
  · subst hkeyed
    rw [hs.reopen]
    exact ⟨keyed', a, hs, by rintro _ _ ⟨⟩; rfl, ha.written⟩
  · cases keyed with
    | true =>
      cases keyed' with
      | true => exact absurd rfl hkeyed
      | false =>
        obtain ⟨e, he⟩ := new_none_of_marker hs.marker
        rw [show mode c false = none from rfl, he]
        exact ⟨true, a, ha⟩
    | false =>
      cases keyed' with
      | false => exact absurd rfl hkeyed
      | true =>
        rw [show mode c true = some c from rfl]
        obtain ⟨e, he⟩ | ⟨hempty, hok⟩ := new_some_of_unmarked hs.marker c
        · rw [he]
          exact ⟨false, a, ha⟩
        · have hsealed (k : Kind) (id : String) (hk : k.isSealed = true) : a.cells (k, id) = none := by
            rw [← hs.value_eq_none, hempty k hk]
            rfl
          rw [hok]
          refine ⟨true, a.rekey (some c) hsealed, hs.rekey hsealed c, by rintro _ _ ⟨⟩; rfl, ?_⟩
          intro k id hk
          change h.written (k, id) = (a.cells (k, id)).map _
          rw [ha.written k id hk, hsealed k id hk]
          rfl

theorem run_delete_fst (cipher : Option Cipher) (k : Kind) (id : String) (nonce : Nonce) (s : Bolt) :
    ((s.db k.bucket)[id]? = none ∧ ∃ e, ((Op.delete k id : Op S).run S cipher nonce s).1 = .error e) ∨
      ((s.db k.bucket)[id]? ≠ none ∧ ((Op.delete k id : Op S).run S cipher nonce s).1 = .ok ()) := by
  cases hv : (s.db k.bucket)[id]? with
  | none =>
    obtain ⟨noun, hrun⟩ := run_delete_of_eq_none (S := S) cipher hv nonce
    exact .inl ⟨rfl, _, congrArg Prod.fst hrun⟩
  | some v => exact .inr ⟨Option.some_ne_none v, congrArg Prod.fst (run_delete_of_eq_some hv nonce)⟩

/-- What an operation leaves is marked with the mode in which it was written. -/
theorem mark_eq {a : View S (mode c keyed)} (hs : Represents s a) {written : Kind × String → Option Bool}
    (hwritten : ∀ k id, k.isSealed = true → written (k, id) = (a.cells (k, id)).map fun _ => keyed)
    (op : Op S) (nonce : Nonce) (k : Kind) (id : String) (hk : k.isSealed = true) :
    mark keyed written op (op.run S (mode c keyed) nonce s).1 (k, id) =
      ((a.step op).cells (k, id)).map fun _ => keyed := by
  cases op with
  | save k' v =>
    simp only [View.step, Overwrite.update, Op.effect]
    cases hsaved : saved (mode c keyed) v with
    | none =>
      obtain ⟨e, he⟩ := run_save_of_saved_eq_none hsaved nonce s
      rw [he, mark, hwritten k id hk]
      split_ifs <;> rfl
    | some data =>
      obtain ⟨ev, hev⟩ := run_save_of_saved hsaved nonce s
      rw [hev]
      change Function.update written (k', S.id v) (some keyed) (k, id) = _
      by_cases hcell : (k', S.id v) = (k, id)
      · rw [← hcell, Function.update_self, if_pos rfl]
        rfl
      · rw [Function.update_of_ne (Ne.symm hcell), if_neg hcell, hwritten k id hk]
        rfl
  | delete k' id' =>
    simp only [View.step, Overwrite.update, Op.effect]
    obtain ⟨hnone, e, he⟩ | ⟨-, hok⟩ := run_delete_fst (S := S) (mode c keyed) k' id' nonce s
    · rw [he, mark, hwritten k id hk]
      split_ifs with hcell
      · cases hcell
        rw [hs.value_eq_none.mp hnone]
        rfl
      · rfl
    · rw [hok]
      change Function.update written (k', id') none (k, id) = _
      by_cases hcell : (k', id') = (k, id)
      · rw [← hcell, Function.update_self, if_pos rfl]
        rfl
      · rw [Function.update_of_ne (Ne.symm hcell), if_neg hcell, hwritten k id hk]
        rfl
  | activate id' =>
    have hcells : (a.step (.activate id')).cells (k, id) = a.cells (k, id) := rfl
    rw [hcells, ← hwritten k id hk]
    cases ((Op.activate id' : Op S).run S (mode c keyed) nonce s).1 <;> rfl

theorem Held.step {a : View S (mode c keyed)} (ha : Held c h keyed a) (action : Action S) :
    ∃ keyed', ∃ b : View S (mode c keyed'), Held c (h.step c action) keyed' b := by
  obtain ⟨handle, written⟩ := h
  cases action with
  | new keyed' =>
    cases handle with
    | closed db => exact ha.new rfl keyed'
    | opened => exact ⟨keyed, a, ha⟩
  | run op nonce =>
    cases handle with
    | closed => exact ⟨keyed, a, ha⟩
    | opened keyed' s =>
      obtain rfl := ha.opened keyed' s rfl
      refine ⟨keyed', a.step op, ha.represents.run nonce op, by rintro _ _ ⟨⟩; rfl, ?_⟩
      exact mark_eq ha.represents ha.written op nonce
  | close =>
    cases handle with
    | closed => exact ⟨keyed, a, ha⟩
    | opened keyed' s => exact ⟨keyed, a, ha.represents.of_db rfl, nofun, ha.written⟩

theorem held_init : Held c {} false (View.empty : View S (mode c false)) := by
  refine ⟨represents_of_new rfl, nofun, fun _ _ _ => rfl⟩

theorem Held.consistent {a : View S (mode c keyed)} (ha : Held c h keyed a) : Consistent S c h where
  decoded := by
    intro keyed' s k id v hopened hk hv
    obtain rfl := ha.opened keyed' s hopened
    have hs : Represents s a := by
      have hrepresents := ha.represents
      rwa [hopened] at hrepresents
    have hcell : a.cells (k, id) ≠ none := by
      rw [Ne, ← hs.value_eq_none]
      exact fun hnone => Option.some_ne_none v (hv.symm.trans hnone)
    obtain ⟨data, hdata⟩ := Option.ne_none_iff_exists'.mp hcell
    obtain ⟨v', hv', hplain⟩ := hs.exists_value hdata
    obtain ⟨e, -, hsaved⟩ := a.saved_cells hdata
    obtain ⟨w, hw, -⟩ := S.id_unmarshal (saved_eq_some.mp hsaved).1
    rw [Bolt.value, hv'] at hv
    cases hv
    exact ⟨w, by rw [readValue, hplain, Except.map, unmarshal, hw]⟩
  uniform := by
    refine ⟨keyed, fun k id hk hv => ?_⟩
    have hcell : a.cells (k, id) ≠ none := by
      rw [Ne, ← ha.represents.value_eq_none]
      exact hv
    obtain ⟨data, hdata⟩ := Option.ne_none_iff_exists'.mp hcell
    rw [ha.written k id hk, hdata]
    rfl
  foreign := by
    intro s k id hopened hk hwritten
    obtain rfl := ha.opened false s hopened
    rw [ha.written k id hk] at hwritten
    obtain ⟨data, -, hkeyed⟩ := Option.map_eq_some_iff.mp hwritten
    cases hkeyed

end Held

/-! ## Every history -/

/-- A new file is opened with the one key or without it, used and closed in any order. -/
theorem consistent_of_run {S : Schema} (c : Cipher) (actions : List (Action S)) :
    Consistent S c (actions.foldl (History.step c) {}) := by
  have hheld : ∀ h : History, (∃ keyed, ∃ a : View S (mode c keyed), Held c h keyed a) →
      ∃ keyed, ∃ a : View S (mode c keyed), Held c (actions.foldl (History.step c) h) keyed a := by
    induction actions with
    | nil => exact fun _ hh => hh
    | cons action actions ih =>
      rintro h ⟨keyed, a, ha⟩
      exact ih _ (ha.step action)
  obtain ⟨keyed, a, ha⟩ := hheld {} ⟨false, _, held_init⟩
  exact ha.consistent

end Vrata.Store

import Vrata.Lib.Overwrite
import Vrata.Store.Bolt

/-!
# What a store holds

The values of a store differ with the nonces that encryption draws, but no read shows them. A `View` is
what the reads do show: the JSON text under each ID and the ID of the active snapshot. The writes act on
views without nonces (`View.step`), a store goes on representing its view (`Represents.run`), and stores
that represent one view cannot be told apart (`Represents.obsEq`).
-/

namespace Vrata.Store

open Json (Bytes)

/-! ## Observations -/

/-- No read operation tells the stores apart. -/
structure ObsEq (S : Schema) (cipher : Option Cipher) (s t : Bolt) : Prop where
  listRoutes : listRoutes S s = listRoutes S t
  getRoute : ∀ id, getRoute S id s = getRoute S id t
  listGroups : listGroups S s = listGroups S t
  getGroup : ∀ id, getGroup S id s = getGroup S id t
  listMiddlewares : listMiddlewares S s = listMiddlewares S t
  getMiddleware : ∀ id, getMiddleware S id s = getMiddleware S id t
  listListeners : listListeners S s = listListeners S t
  getListener : ∀ id, getListener S id s = getListener S id t
  listDestinations : listDestinations S s = listDestinations S t
  getDestination : ∀ id, getDestination S id s = getDestination S id t
  listSecrets : listSecrets S cipher s = listSecrets S cipher t
  getSecret : ∀ id, getSecret S cipher id s = getSecret S cipher id t
  listSnapshots : listSnapshots S cipher s = listSnapshots S cipher t
  getSnapshot : ∀ id, getSnapshot S cipher id s = getSnapshot S cipher id t
  getActiveSnapshot : getActiveSnapshot S cipher s = getActiveSnapshot S cipher t

/-- The text of a value. -/
def plain (cipher : Option Cipher) (k : Kind) (v : Bytes) : Except StoreError Bytes :=
  if k.isSealed then decryptValue cipher v else .ok v

def Bolt.value (s : Bolt) (k : Kind) (id : String) : Option Bytes := (s.db k.bucket)[id]?

/-- The text under an ID. -/
def Bolt.text (cipher : Option Cipher) (s : Bolt) (k : Kind) (id : String) :
    Option (Except StoreError Bytes) :=
  (s.value k id).map (plain cipher k)

theorem Cipher.open_seal (c : Cipher) (nonce : Nonce) (plaintext : Bytes) :
    c.open (c.seal nonce plaintext) = .ok plaintext := by
  obtain ⟨nonce, hnonce⟩ := nonce
  have htake : (nonce ++ c.sealAEAD ⟨nonce, hnonce⟩ plaintext).take nonceSize = nonce :=
    List.take_left' hnonce
  have hdrop : (nonce ++ c.sealAEAD ⟨nonce, hnonce⟩ plaintext).drop nonceSize =
      c.sealAEAD ⟨nonce, hnonce⟩ plaintext := List.drop_left' hnonce
  have hlong : ¬(nonce ++ c.sealAEAD ⟨nonce, hnonce⟩ plaintext).length < nonceSize := by
    rw [List.length_append, hnonce]
    omega
  simp only [Cipher.open, Cipher.seal, dif_neg hlong, htake, hdrop, c.openAEAD_sealAEAD]

theorem plain_stored (cipher : Option Cipher) (nonce : Nonce) (k : Kind) (data : Bytes) :
    plain cipher k (stored cipher nonce k data) = .ok data := by
  unfold plain stored
  cases k.isSealed with
  | false => rfl
  | true =>
    cases cipher with
    | none => rfl
    | some c => exact c.open_seal nonce data

section Observations

variable {S : Schema} {cipher : Option Cipher} {s t : Bolt} {k : Kind}

/-- What the reads make of a value: the error of its decryption or, within, that of its decoding. -/
def readValue (S : Schema) (cipher : Option Cipher) (k : Kind) (v : Bytes) :
    Except StoreError (Except StoreError (S.Entity k)) :=
  (plain cipher k v).map (unmarshal S k)

/-- Lists are the same if they are made of the same results. -/
theorem mapM_toList {β γ : Type} {b : Bucket} {b' : Std.ExtTreeMap String β compare}
    {f : String × Bytes → Except StoreError γ} {f' : String × β → Except StoreError γ}
    (h : ∀ id : String, b[id]?.map (fun v => f (id, v)) = b'[id]?.map fun v => f' (id, v)) :
    b.toList.mapM f = b'.toList.mapM f' := by
  have hmap : b.map (fun id v => f (id, v)) = b'.map fun id v => f' (id, v) := by
    refine Std.ExtTreeMap.ext_getElem? fun id => ?_
    rw [Std.ExtTreeMap.getElem?_map, Std.ExtTreeMap.getElem?_map, h]
  have hlist := congrArg (fun m => List.mapM (fun entry => entry.2) m.toList) hmap
  simpa only [Std.ExtTreeMap.toList_map, List.mapM_map, Function.comp_def] using hlist

theorem map_eq_map_cases {α β : Type} {f : α → β} {x y : Option α} (h : x.map f = y.map f) :
    (x = none ∧ y = none) ∨ ∃ v w, x = some v ∧ y = some w ∧ f v = f w := by
  cases x with
  | none => exact .inl ⟨rfl, Option.map_eq_none_iff.mp h.symm⟩
  | some v =>
    obtain ⟨w, hw, hf⟩ := Option.map_eq_some_iff.mp h.symm
    exact .inr ⟨v, w, rfl, hw, hf.symm⟩

theorem map_eq_map_of {α β γ : Type} {f : α → β} {g g' : α → γ} {x y : Option α}
    (h : x.map f = y.map f) (hg : ∀ v w, x = some v → y = some w → f v = f w → g v = g' w) :
    x.map g = y.map g' := by
  obtain ⟨rfl, rfl⟩ | ⟨v, w, rfl, rfl, hvw⟩ := map_eq_map_cases h
  · rfl
  · exact congrArg some (hg v w rfl rfl hvw)

/-- The result of looking an ID up depends on what is read of the value. -/
theorem lookup_bind_eq {β γ : Type} {noun id : String} {f : Bytes → β} (g : β → Except StoreError γ)
    (h : (s.value k id).map f = (t.value k id).map f) :
    (lookup k noun id s >>= fun v => g (f v)) = lookup k noun id t >>= fun v => g (f v) := by
  unfold lookup
  obtain ⟨hs, ht⟩ | ⟨v, w, hs, ht, hvw⟩ := map_eq_map_cases h <;> rw [Bolt.value] at hs ht
  · rw [hs, ht]
  · rw [hs, ht]
    exact congrArg g hvw

section Reads

variable (S) (cipher)

theorem readValue_of_not_isSealed (hk : k.isSealed = false) (v : Bytes) :
    readValue S cipher k v = .ok (unmarshal S k v) := by
  rw [readValue, plain, hk]
  rfl

theorem decryptAndUnmarshal_eq (hk : k.isSealed = true) (format : String) (args : List String) :
    decryptAndUnmarshal S cipher k format args =
      fun v => (wrapping format args (readValue S cipher k v)).bind fun r => r := by
  funext v
  rw [decryptAndUnmarshal, readValue, plain, hk, if_pos rfl]
  cases decryptValue cipher v <;> rfl

theorem summarizeSecret_eq (id : String) (plain : Except StoreError Bytes) :
    summarizeSecret S id plain =
      (wrapping "decrypting secret %q: %w" [id] (plain.map (unmarshal S .secret))).bind fun r =>
        (wrapping "decoding secret %q: %w" [id] r).map fun sec => ⟨S.id sec, S.secretName sec⟩ := by
  cases plain <;> rfl

theorem summarizeSnapshot_eq (activeID : Bytes) (plain : Except StoreError Bytes) :
    summarizeSnapshot S activeID plain =
      (wrapping "decrypting snapshot: %w" [] (plain.map (unmarshal S .snapshot))).bind fun r =>
        (wrapping "unmarshalling snapshot: %w" [] r).map fun vs =>
          ⟨S.id vs, S.snapshotName vs, S.createdAt vs, utf8 (S.id vs) == activeID⟩ := by
  cases plain <;> rfl

end Reads

theorem utf8_injective : Function.Injective utf8 := by
  intro x y h
  exact String.toByteArray_inj.mp (ByteArray.ext (Array.toList_inj.mp h))

theorem ofUtf8_utf8 (text : String) : ofUtf8 (utf8 text) = some text := by
  have hbytes : (⟨(utf8 text).toArray⟩ : ByteArray) = text.toByteArray := by
    rw [utf8, Array.toArray_toList]
  rw [ofUtf8, hbytes, String.fromUTF8?, dif_pos text.isValidUTF8]
  rfl

theorem utf8_of_ofUtf8 {text : Bytes} {id : String} (h : ofUtf8 text = some id) : utf8 id = text := by
  rw [ofUtf8, String.fromUTF8?] at h
  split_ifs at h
  cases h
  rfl

theorem getActiveSnapshot_of_value {id : String} {v : Bytes}
    (hactive : s.activeSnapshotID = some (utf8 id)) (hv : s.value .snapshot id = some v) :
    getActiveSnapshot S cipher s =
      decryptAndUnmarshal S cipher .snapshot "decrypting active snapshot: %w" [] v := by
  rw [Bolt.value] at hv
  simp only [getActiveSnapshot, hactive, ofUtf8_utf8, Option.bind_some, hv]

theorem getActiveSnapshot_of_absent
    (h : ∀ id, s.activeSnapshotID = some (utf8 id) → s.value .snapshot id = none) :
    getActiveSnapshot S cipher s = .error .noActiveSnapshot := by
  rw [getActiveSnapshot]
  cases hactive : s.activeSnapshotID with
  | none => rfl
  | some activeID =>
    dsimp only
    cases hid : ofUtf8 activeID with
    | none => rfl
    | some id =>
      have hnone := h id (by rw [hactive, utf8_of_ofUtf8 hid])
      rw [Bolt.value] at hnone
      rw [Option.bind_some, hnone]

/-- The stores hold values under the same IDs, of which the same is read. -/
def SameValues (S : Schema) (cipher : Option Cipher) (s t : Bolt) : Prop :=
  ∀ k id, (s.value k id).map (readValue S cipher k) = (t.value k id).map (readValue S cipher k)

section SameValues

variable (h : SameValues S cipher s t)

include h

theorem SameValues.unmarshal (hk : k.isSealed = false) (id : String) :
    (s.value k id).map (Store.unmarshal S k) = (t.value k id).map (Store.unmarshal S k) := by
  have hid := h k id
  rw [funext (readValue_of_not_isSealed S cipher hk), ← Function.comp_def, ← Option.map_map,
    ← Option.map_map] at hid
  exact Option.map_injective (fun _ _ hv => Except.ok.inj hv) hid

theorem SameValues.listIn (hk : k.isSealed = false) (noun nouns : String) :
    listIn S k noun nouns s = listIn S k noun nouns t := by
  refine congrArg (wrapping ("listing " ++ nouns ++ ": %w") []) (mapM_toList fun id => ?_)
  exact map_eq_map_of (h.unmarshal hk id) fun v w _ _ hvw => by rw [hvw]

theorem SameValues.getIn (hk : k.isSealed = false) (noun id : String) :
    getIn S k noun id s = getIn S k noun id t :=
  lookup_bind_eq (fun r => r) (h.unmarshal hk id)

theorem SameValues.decrypt (hk : k.isSealed = true) (noun id format : String) (args : List String) :
    (lookup k noun id s >>= decryptAndUnmarshal S cipher k format args) =
      lookup k noun id t >>= decryptAndUnmarshal S cipher k format args := by
  rw [decryptAndUnmarshal_eq S cipher hk]
  exact lookup_bind_eq (fun r => (wrapping format args r).bind fun r => r) (h k id)

theorem SameValues.listSecrets : listSecrets S cipher s = listSecrets S cipher t := by
  refine mapM_toList fun id => map_eq_map_of (h .secret id) fun v w _ _ hvw => ?_
  rw [summarizeSecret_eq, summarizeSecret_eq]
  exact congrArg (fun r => (wrapping "decrypting secret %q: %w" [id] r).bind _) hvw

/-- The lists of snapshots are the same if they mark the same ones as active. -/
theorem SameValues.listSnapshots
    (hactive : ∀ id v e, s.value .snapshot id = some v → readValue S cipher .snapshot v = .ok (.ok e) →
      (utf8 (S.id e) == s.activeSnapshotID.getD []) = (utf8 (S.id e) == t.activeSnapshotID.getD [])) :
    listSnapshots S cipher s = listSnapshots S cipher t := by
  refine congrArg (wrapping "listing snapshots: %w" []) (mapM_toList fun id => ?_)
  refine map_eq_map_of (h .snapshot id) fun v w hv _ hvw => ?_
  have hread : ∀ v, (decryptValue cipher v).map (Store.unmarshal S .snapshot) =
      readValue S cipher .snapshot v := fun _ => rfl
  rw [summarizeSnapshot_eq, summarizeSnapshot_eq, hread, hread, ← hvw]
  cases hresult : readValue S cipher .snapshot v with
  | error err => rfl
  | ok r =>
    cases r with
    | error err => rfl
    | ok e =>
      have he := hactive id v e hv hresult
      simp only [wrapping, Except.mapError, Except.bind, Except.map, he]

/-- The active snapshot is the same if it is the same one of those that are there. -/
theorem SameValues.getActiveSnapshot
    (hactive : ∀ id, s.value .snapshot id ≠ none →
      (s.activeSnapshotID = some (utf8 id) ↔ t.activeSnapshotID = some (utf8 id))) :
    getActiveSnapshot S cipher s = getActiveSnapshot S cipher t := by
  by_cases hid : ∃ id v, s.activeSnapshotID = some (utf8 id) ∧ s.value .snapshot id = some v
  · obtain ⟨id, v, hs, hv⟩ := hid
    have ht := (hactive id (by rw [hv]; exact nofun)).mp hs
    obtain ⟨hnone, -⟩ | ⟨v', w, hv', hw, hvw⟩ := map_eq_map_cases (h .snapshot id)
    · rw [hnone] at hv
      cases hv
    · rw [getActiveSnapshot_of_value hs hv', getActiveSnapshot_of_value ht hw,
        decryptAndUnmarshal_eq S cipher rfl]
      dsimp only
      rw [hvw]
  · push Not at hid
    have hs (id : String) (hactive : s.activeSnapshotID = some (utf8 id)) : s.value .snapshot id = none :=
      Option.eq_none_iff_forall_ne_some.mpr fun v => hid id v hactive
    rw [getActiveSnapshot_of_absent hs, getActiveSnapshot_of_absent]
    intro id ht
    have hnone : s.value .snapshot id = none := by
      by_contra hvalue
      exact hvalue (hs id ((hactive id hvalue).mpr ht))
    have hid := h .snapshot id
    rw [hnone] at hid
    exact Option.map_eq_none_iff.mp hid.symm

/-- The reads see nothing but the values and which snapshot is active. -/
theorem SameValues.obsEq (hlist : Store.listSnapshots S cipher s = Store.listSnapshots S cipher t)
    (hactive : Store.getActiveSnapshot S cipher s = Store.getActiveSnapshot S cipher t) :
    ObsEq S cipher s t where
  listRoutes := h.listIn rfl _ _
  getRoute := h.getIn rfl _
  listGroups := h.listIn rfl _ _
  getGroup := h.getIn rfl _
  listMiddlewares := h.listIn rfl _ _
  getMiddleware := h.getIn rfl _
  listListeners := h.listIn rfl _ _
  getListener := h.getIn rfl _
  listDestinations := h.listIn rfl _ _
  getDestination := h.getIn rfl _
  listSecrets := h.listSecrets
  getSecret id := h.decrypt rfl _ id _ _
  listSnapshots := hlist
  getSnapshot id := h.decrypt rfl _ id _ _
  getActiveSnapshot := hactive

end SameValues

/-- The function gets entities of the kind. -/
structure IsGet (S : Schema) (cipher : Option Cipher) (k : Kind)
    (get : String → Bolt → Except StoreError (S.Entity k)) : Prop where
  ok_iff : ∀ id s e, get id s = .ok e ↔
    ∃ v, s.value k id = some v ∧ readValue S cipher k v = .ok (.ok e)
  notFound_iff : ∀ id s, (∃ err, get id s = .error err ∧ err.isNotFound = true) ↔ s.value k id = none

theorem isNotFound_of_unmarshal {v : Bytes} {err : StoreError} (h : unmarshal S k v = .error err) :
    err.isNotFound = false := by
  rw [unmarshal] at h
  split at h <;> cases h
  rfl

theorem isNotFound_of_decryptValue {v : Bytes} {err : StoreError}
    (h : decryptValue cipher v = .error err) : err.isNotFound = false := by
  cases cipher with
  | none => cases h
  | some c =>
    rw [decryptValue, Cipher.open] at h
    split_ifs at h
    · cases h
      rfl
    · dsimp only at h
      split at h <;> cases h
      rfl

theorem isGet_getIn (hk : k.isSealed = false) (noun : String) : IsGet S cipher k (getIn S k noun) where
  ok_iff id s e := by
    simp only [readValue_of_not_isSealed S cipher hk, Except.ok.injEq]
    rw [getIn, lookup, Bolt.value]
    cases (s.db k.bucket)[id]? with
    | none => exact iff_of_false nofun nofun
    | some v => simp [bind, Except.bind]
  notFound_iff id s := by
    rw [getIn, lookup, Bolt.value]
    cases (s.db k.bucket)[id]? with
    | none => exact iff_of_true ⟨_, rfl, rfl⟩ rfl
    | some v =>
      refine iff_of_false ?_ nofun
      rintro ⟨err, herr, hnotFound⟩
      rw [isNotFound_of_unmarshal herr] at hnotFound
      cases hnotFound

theorem isGet_decrypt (hk : k.isSealed = true) (noun : String) (format : String)
    (args : String → List String) : IsGet S cipher k fun id s =>
      lookup k noun id s >>= decryptAndUnmarshal S cipher k format (args id) where
  ok_iff id s e := by
    have hplain (v : Bytes) : readValue S cipher k v = (decryptValue cipher v).map (unmarshal S k) := by
      rw [readValue, plain, if_pos hk]
    simp only [hplain]
    rw [lookup, Bolt.value]
    cases (s.db k.bucket)[id]? with
    | none => exact iff_of_false nofun nofun
    | some v =>
      simp only [bind, Except.bind, decryptAndUnmarshal, Option.some.injEq, exists_eq_left']
      cases decryptValue cipher v with
      | error err => exact iff_of_false nofun nofun
      | ok data => simp [wrapping, Except.mapError, Except.map]
  notFound_iff id s := by
    rw [lookup, Bolt.value]
    cases (s.db k.bucket)[id]? with
    | none => exact iff_of_true ⟨_, rfl, rfl⟩ rfl
    | some v =>
      refine iff_of_false ?_ nofun
      rintro ⟨err, herr, hnotFound⟩
      simp only [bind, Except.bind, decryptAndUnmarshal] at herr
      cases hdecrypt : decryptValue cipher v with
      | error err' =>
        rw [hdecrypt] at herr
        cases herr
        rw [StoreError.isNotFound, isNotFound_of_decryptValue hdecrypt] at hnotFound
        cases hnotFound
      | ok data =>
        rw [hdecrypt] at herr
        rw [isNotFound_of_unmarshal herr] at hnotFound
        cases hnotFound

theorem ObsEq.exists_get (h : ObsEq S cipher s t) (k : Kind) :
    ∃ get, IsGet S cipher k get ∧ ∀ id, get id s = get id t := by
  cases k with
  | route => exact ⟨_, isGet_getIn rfl _, h.getRoute⟩
  | group => exact ⟨_, isGet_getIn rfl _, h.getGroup⟩
  | middleware => exact ⟨_, isGet_getIn rfl _, h.getMiddleware⟩
  | listener => exact ⟨_, isGet_getIn rfl _, h.getListener⟩
  | destination => exact ⟨_, isGet_getIn rfl _, h.getDestination⟩
  | secret => exact ⟨_, isGet_decrypt rfl _ _ fun id => [id], h.getSecret⟩
  | snapshot => exact ⟨_, isGet_decrypt rfl _ _ fun id => [id], h.getSnapshot⟩

/-- The IDs show. -/
theorem ObsEq.value_eq_none_iff (h : ObsEq S cipher s t) (k : Kind) (id : String) :
    s.value k id = none ↔ t.value k id = none := by
  obtain ⟨get, hget, heq⟩ := h.exists_get k
  rw [← hget.notFound_iff, ← hget.notFound_iff, heq]

/-- The entities show. -/
theorem ObsEq.exists_value (h : ObsEq S cipher s t) {id : String} {v : Bytes} {e : S.Entity k}
    (hv : s.value k id = some v) (he : readValue S cipher k v = .ok (.ok e)) :
    ∃ w, t.value k id = some w ∧ readValue S cipher k w = .ok (.ok e) := by
  obtain ⟨get, hget, heq⟩ := h.exists_get k
  have hs := (hget.ok_iff id s e).mpr ⟨v, hv, he⟩
  rw [heq] at hs
  exact (hget.ok_iff id t e).mp hs

end Observations

/-! ## Views -/

/-- A text under an ID is that of a save that went through, and the active snapshot is there. -/
@[ext]
structure View (S : Schema) (cipher : Option Cipher) where
  cells : Kind × String → Option Bytes
  active : Option String
  saved_cells : ∀ {k id data}, cells (k, id) = some data →
    ∃ v : S.Entity k, S.id v = id ∧ saved cipher v = some data
  active_saved : ∀ {id}, active = some id → (cells (.snapshot, id)).isSome = true

section Views

variable {S : Schema} {cipher : Option Cipher}

/-- What an operation writes to a cell. -/
def Op.effect (cipher : Option Cipher) (op : Op S) (cell : Kind × String) : Option (Option Bytes) :=
  match op with
  | .save k v => if (k, S.id v) = cell then (saved cipher v).map some else none
  | .delete k id => if (k, id) = cell then some none else none
  | .activate _ => none

theorem Op.effect_eq_some {op : Op S} {k : Kind} {id : String} {data : Bytes}
    (h : op.effect cipher (k, id) = some (some data)) :
    ∃ v : S.Entity k, S.id v = id ∧ saved cipher v = some data := by
  cases op with
  | save k' v =>
    rw [Op.effect, Option.ite_none_right_eq_some] at h
    obtain ⟨hcell, hsaved⟩ := h
    cases hcell
    exact ⟨v, rfl, by simpa using hsaved⟩
  | delete k' id' =>
    rw [Op.effect, Option.ite_none_right_eq_some] at h
    cases h.2
  | activate => cases h

/-- The active snapshot after an operation. -/
def View.activeAfter (a : View S cipher) : Op S → Option String
  | .activate id => if (a.cells (.snapshot, id)).isSome then some id else a.active
  | .delete .snapshot id => if a.active = some id then none else a.active
  | _ => a.active

def View.step (a : View S cipher) (op : Op S) : View S cipher where
  cells := Overwrite.update (Op.effect cipher) a.cells op
  active := a.activeAfter op
  saved_cells := by
    intro k id data h
    rw [Overwrite.update] at h
    cases heffect : op.effect cipher (k, id) with
    | none => exact a.saved_cells (by rwa [heffect] at h)
    | some cell =>
      rw [heffect, Option.getD_some] at h
      exact Op.effect_eq_some (heffect.trans (congrArg some h))
  active_saved := by
    intro id h
    rw [Overwrite.update]
    cases op with
    | save k v =>
      have hid := a.active_saved h
      rw [Op.effect]
      split_ifs with hcell
      · cases saved cipher v with
        | none => exact hid
        | some => rfl
      · exact hid
    | delete k id' =>
      rw [Op.effect]
      split_ifs with hcell
      · cases hcell
        rw [View.activeAfter] at h
        split_ifs at h with hactive
        exact absurd h hactive
      · cases k with
        | snapshot =>
          rw [View.activeAfter] at h
          split_ifs at h
          exact a.active_saved h
        | _ => exact a.active_saved h
    | activate id' =>
      rw [View.activeAfter] at h
      split_ifs at h with hid
      · cases h
        exact hid
      · exact a.active_saved h

def View.empty : View S cipher where
  cells _ := none
  active := none
  saved_cells := nofun
  active_saved := nofun

section Refused

variable (a : View S cipher) {k : Kind} {id : String}

/-- A save that does not go through changes nothing. -/
theorem View.step_save_of_eq_none {v : S.Entity k} (h : saved cipher v = none) :
    a.step (.save k v) = a := by
  refine View.ext (funext fun cell => ?_) (by cases k <;> rfl)
  simp [View.step, Overwrite.update, Op.effect, h]

/-- So does a delete that finds nothing. -/
theorem View.step_delete_of_eq_none (h : a.cells (k, id) = none) : a.step (.delete k id) = a := by
  refine View.ext (funext fun cell => ?_) ?_
  · simp only [View.step, Overwrite.update, Op.effect]
    split_ifs with hcell
    · rw [← hcell, h]
      rfl
    · rfl
  · cases k with
    | snapshot =>
      refine if_neg fun hactive => ?_
      have hsome := a.active_saved hactive
      rw [h] at hsome
      cases hsome
    | _ => rfl

theorem View.step_activate_of_eq_none (h : a.cells (.snapshot, id) = none) :
    a.step (.activate id) = a := by
  refine View.ext rfl (if_neg ?_)
  rw [h]
  exact Bool.false_ne_true

end Refused

end Views

/-! ## Buckets -/

section Buckets

variable {cipher : Option Cipher} {s : Bolt} {name name' key : String} {b : Bucket} {v : Bytes}
  {k k' : Kind} {id : String}

theorem Kind.bucket_injective : Function.Injective Kind.bucket := by
  intro k k' h
  cases k <;> cases k' <;> first | rfl | exact absurd h (by decide)

theorem Bolt.db_setBucket_self : (s.setBucket name b).db name = b := by
  simp only [Bolt.setBucket, Function.update_self]

theorem Bolt.db_setBucket_of_ne (h : name' ≠ name) : (s.setBucket name b).db name' = s.db name' := by
  simp only [Bolt.setBucket, Function.update_of_ne h]

theorem Bolt.text_setBucket_of_ne (h : k'.bucket ≠ name) :
    (s.setBucket name b).text cipher k' id = s.text cipher k' id := by
  rw [Bolt.text, Bolt.value, Bolt.db_setBucket_of_ne h]
  rfl

/-- What is read from a bucket that differs in one key. -/
theorem Bolt.text_setBucket {o : Option Bytes}
    (h : ∀ id, b[id]? = if key = id then o else (s.db k.bucket)[id]?) :
    (s.setBucket k.bucket b).text cipher k' id =
      if (k, key) = (k', id) then o.map (plain cipher k) else s.text cipher k' id := by
  by_cases hk : k = k'
  · subst hk
    rw [Bolt.text, Bolt.value, Bolt.db_setBucket_self, h]
    by_cases hid : key = id
    · simp [hid]
    · simp [hid, Bolt.text, Bolt.value]
  · rw [Bolt.text_setBucket_of_ne fun h => hk (Kind.bucket_injective h).symm,
      if_neg fun h => hk (Prod.mk.inj h).1]

theorem Bolt.text_insert :
    (s.setBucket k.bucket ((s.db k.bucket).insert key v)).text cipher k' id =
      if (k, key) = (k', id) then some (plain cipher k v) else s.text cipher k' id :=
  Bolt.text_setBucket (o := some v) fun id => by simp [Std.ExtTreeMap.getElem?_insert]

theorem Bolt.text_erase :
    (s.setBucket k.bucket ((s.db k.bucket).erase key)).text cipher k' id =
      if (k, key) = (k', id) then none else s.text cipher k' id :=
  Bolt.text_setBucket (o := none) fun id => by simp [Std.ExtTreeMap.getElem?_erase]

theorem getElem?_clearActive_of_ne (hkey : key ≠ metaActiveSnapshot) :
    (clearActive b id)[key]? = b[key]? := by
  unfold clearActive
  split_ifs
  · rw [Std.ExtTreeMap.getElem?_erase, if_neg]
    exact fun h => hkey (Std.LawfulEqCmp.eq_of_compare h).symm
  · rfl

theorem getElem?_clearActive_self :
    (clearActive b id)[metaActiveSnapshot]? =
      if b[metaActiveSnapshot]? = some (utf8 id) then none else b[metaActiveSnapshot]? := by
  unfold clearActive
  split_ifs
  · exact Std.ExtTreeMap.getElem?_erase_self
  · rfl

end Buckets

/-! ## Stores and their views -/

/-- The store holds the texts of the view, and the metadata nothing but the ID of the active snapshot
and the mark of encryption. -/
structure Represents {S : Schema} {cipher : Option Cipher} (s : Bolt) (a : View S cipher) : Prop where
  text : ∀ k id, s.text cipher k id = (a.cells (k, id)).map .ok
  active : s.activeSnapshotID = a.active.map utf8
  marker : (s.db bucketMeta)[metaEncrypted]? = if cipher.isSome then some (utf8 "true") else none
  other : ∀ key, key ≠ metaActiveSnapshot → key ≠ metaEncrypted → (s.db bucketMeta)[key]? = none

section Stores

variable {S : Schema} {cipher : Option Cipher} {nonce : Nonce} {s t : Bolt} {a b : View S cipher}
  {k : Kind} {id : String}

theorem Represents.obsEq (hs : Represents s a) (ht : Represents t a) : ObsEq S cipher s t := by
  have hvalues : SameValues S cipher s t := by
    intro k id
    have htext : s.text cipher k id = t.text cipher k id := (hs.text k id).trans (ht.text k id).symm
    have hread := congrArg (Option.map (Except.map (unmarshal S k))) htext
    rwa [Bolt.text, Bolt.text, Option.map_map, Option.map_map] at hread
  have hactive := hs.active.trans ht.active.symm
  refine hvalues.obsEq (hvalues.listSnapshots ?_) (hvalues.getActiveSnapshot ?_)
  · intro _ _ _ _ _
    rw [hactive]
  · intro _ _
    rw [hactive]

theorem Represents.value_eq_none (h : Represents s a) :
    (s.db k.bucket)[id]? = none ↔ a.cells (k, id) = none := by
  have htext : s.text cipher k id = none ↔ (a.cells (k, id)).map Except.ok = none :=
    Eq.congr_left (h.text k id)
  rwa [Bolt.text, Bolt.value, Option.map_eq_none_iff, Option.map_eq_none_iff] at htext

theorem Represents.exists_value (h : Represents s a) {data : Bytes} (hdata : a.cells (k, id) = some data) :
    ∃ v, (s.db k.bucket)[id]? = some v ∧ plain cipher k v = .ok data := by
  have htext := h.text k id
  rw [hdata] at htext
  exact Option.map_eq_some_iff.mp htext

/-- A value changes, and of the metadata at most the ID of the active snapshot. -/
theorem Represents.of_meta (h : Represents s a)
    (hmeta : ∀ key, key ≠ metaActiveSnapshot → (t.db bucketMeta)[key]? = (s.db bucketMeta)[key]?)
    (htext : ∀ k id, t.text cipher k id = (b.cells (k, id)).map .ok)
    (hactive : t.activeSnapshotID = b.active.map utf8) : Represents t b where
  text := htext
  active := hactive
  marker := by rw [hmeta _ (by decide)]; exact h.marker
  other key hkey hkey' := by rw [hmeta _ hkey]; exact h.other key hkey hkey'

theorem Represents.save (h : Represents s a) (v : S.Entity k) :
    Represents ((Op.save k v).run S cipher nonce s).2 (a.step (.save k v)) := by
  cases hsaved : saved cipher v with
  | none =>
    obtain ⟨e, he⟩ := run_save_of_saved_eq_none hsaved nonce s
    rw [he, a.step_save_of_eq_none hsaved]
    exact h
  | some data =>
    have hmeta (b : Bucket) : (s.setBucket k.bucket b).db bucketMeta = s.db bucketMeta :=
      Bolt.db_setBucket_of_ne k.bucket_ne_meta.symm
    rw [run_save_eq_of_saved hsaved]
    refine h.of_meta (fun key _ => congrArg (·[key]?) (hmeta _)) (fun k' id => ?_) ?_
    · change Bolt.text cipher (s.setBucket _ _) k' id = _
      rw [Bolt.text_insert, plain_stored, h.text]
      simp only [View.step, Overwrite.update, Op.effect, hsaved]
      split_ifs <;> rfl
    · refine (congrArg (·[metaActiveSnapshot]?) (hmeta _)).trans (h.active.trans ?_)
      cases k <;> rfl

/-- The pointer after a delete. -/
theorem Represents.metaAfter (h : Represents s a) (k : Kind) (id : String) :
    (k.metaAfter (s.db bucketMeta) id)[metaActiveSnapshot]? =
      (a.step (.delete k id)).active.map utf8 := by
  have hactive : (s.db bucketMeta)[metaActiveSnapshot]? = a.active.map utf8 := h.active
  cases k with
  | snapshot =>
    have hiff : a.active.map utf8 = some (utf8 id) ↔ a.active = some id :=
      Option.map_injective utf8_injective |>.eq_iff (b := some id)
    rw [Kind.metaAfter, getElem?_clearActive_self, hactive]
    change _ = (if a.active = some id then none else a.active).map utf8
    by_cases hid : a.active = some id
    · rw [if_pos (hiff.mpr hid), if_pos hid, Option.map_none]
    · rw [if_neg (mt hiff.mp hid), if_neg hid]
  | _ => exact hactive

theorem Represents.delete (h : Represents s a) (k : Kind) (id : String) :
    Represents ((Op.delete k id : Op S).run S cipher nonce s).2 (a.step (.delete k id)) := by
  cases hvalue : (s.db k.bucket)[id]? with
  | none =>
    obtain ⟨noun, hrun⟩ := run_delete_of_eq_none (S := S) cipher hvalue nonce
    rw [hrun, a.step_delete_of_eq_none (h.value_eq_none.mp hvalue)]
    exact h
  | some v =>
    rw [run_delete_of_eq_some hvalue]
    refine h.of_meta (fun key hkey => ?_) (fun k' id' => ?_) ?_
    · change ((Bolt.setBucket _ _ _).db bucketMeta)[key]? = _
      rw [Bolt.db_setBucket_self]
      cases k with
      | snapshot => exact getElem?_clearActive_of_ne hkey
      | _ => rfl
    · change Bolt.text cipher (Bolt.setBucket _ _ _) k' id' = _
      rw [Bolt.text_setBucket_of_ne k'.bucket_ne_meta, Bolt.text_erase, h.text]
      simp only [View.step, Overwrite.update, Op.effect]
      split_ifs <;> rfl
    · change ((Bolt.setBucket _ _ _).db bucketMeta)[metaActiveSnapshot]? = _
      rw [Bolt.db_setBucket_self]
      exact h.metaAfter k id

/-- An ID that is a key is short enough to be a value. -/
theorem Represents.fits_active (h : Represents s a) {v : Bytes}
    (hv : (s.db Kind.snapshot.bucket)[id]? = some v) : Fits metaActiveSnapshot (utf8 id).length := by
  have hsome : a.cells (.snapshot, id) ≠ none := by
    rw [Ne, ← h.value_eq_none, hv]
    exact nofun
  obtain ⟨data, hdata⟩ := Option.ne_none_iff_exists'.mp hsome
  obtain ⟨w, rfl, hsaved⟩ := a.saved_cells hdata
  have hkey := (saved_eq_some.mp hsaved).2.2.1
  exact ⟨by decide, by decide, hkey.trans (by decide)⟩

theorem Represents.activateSnapshot (h : Represents s a) (id : String) :
    Represents (activateSnapshot id s).2 (a.step (.activate id)) := by
  rw [Store.activateSnapshot]
  cases hvalue : (s.db Kind.snapshot.bucket)[id]? with
  | none =>
    rw [a.step_activate_of_eq_none (h.value_eq_none.mp hvalue)]
    exact h
  | some v =>
    simp only [put_of_fits (h.fits_active hvalue)]
    refine h.of_meta (fun key hkey => ?_) (fun k id' => ?_) ?_
    · change ((Bolt.setBucket _ _ _).db bucketMeta)[key]? = _
      rw [Bolt.db_setBucket_self, Std.ExtTreeMap.getElem?_insert, if_neg]
      exact fun h => hkey (Std.LawfulEqCmp.eq_of_compare h).symm
    · change Bolt.text cipher (Bolt.setBucket _ _ _) k id' = _
      rw [Bolt.text_setBucket_of_ne k.bucket_ne_meta, h.text]
      rfl
    · change ((Bolt.setBucket _ _ _).db bucketMeta)[metaActiveSnapshot]? =
        (if (a.cells (.snapshot, id)).isSome then some id else a.active).map utf8
      have hsome : (a.cells (.snapshot, id)).isSome = true := by
        rw [Option.isSome_iff_ne_none, Ne, ← h.value_eq_none, hvalue]
        exact Option.some_ne_none v
      rw [Bolt.db_setBucket_self, Std.ExtTreeMap.getElem?_insert_self, if_pos hsome]
      rfl

/-- A write acts on the store as it acts on the view. -/
theorem Represents.run (h : Represents s a) (nonce : Nonce) (op : Op S) :
    Represents (op.run S cipher nonce s).2 (a.step op) := by
  cases op with
  | save k v => exact h.save v
  | delete k id => exact h.delete k id
  | activate id => exact h.activateSnapshot id

theorem represents_of_new (h : new cipher (fun _ => ∅) = .ok s) :
    Represents s (View.empty : View S cipher) := by
  cases cipher with
  | none =>
    obtain rfl : { db := fun _ => ∅ } = s := Except.ok.inj h
    exact ⟨fun _ _ => rfl, rfl, rfl, fun _ _ _ => rfl⟩
  | some c =>
    obtain rfl : (Bolt.setBucket { db := fun _ => ∅ } bucketMeta
        ((∅ : Bucket).insert metaEncrypted (utf8 "true"))) = s := Except.ok.inj h
    refine ⟨fun k id => ?_, ?_, ?_, fun key _ hkey => ?_⟩
    · rw [Bolt.text_setBucket_of_ne k.bucket_ne_meta]
      rfl
    · rw [Bolt.activeSnapshotID, Bolt.db_setBucket_self]
      rfl
    · rw [Bolt.db_setBucket_self]
      exact Std.ExtTreeMap.getElem?_insert_self
    · rw [Bolt.db_setBucket_self, Std.ExtTreeMap.getElem?_insert, if_neg]
      · rfl
      · exact fun h => hkey (Std.LawfulEqCmp.eq_of_compare h).symm

/-- A file is opened again as it was left. -/
theorem Represents.reopen (h : Represents s a) : new cipher s.db = .ok { db := s.db } := by
  have hmarker := h.marker
  cases cipher with
  | none =>
    have hne : ¬(s.db bucketMeta)[metaEncrypted]? = some (utf8 "true") := by
      rw [hmarker]
      exact nofun
    simp [new, checkEncryptionMode, hne]
  | some c => simp [new, checkEncryptionMode, hmarker]

theorem Reachable.exists_view (h : Reachable S cipher s) :
    ∃ a : View S cipher, Represents s a := by
  induction h with
  | new hnew => exact ⟨_, represents_of_new hnew⟩
  | run op nonce _ ih =>
    obtain ⟨a, ha⟩ := ih
    exact ⟨_, ha.run nonce op⟩
  | reopen _ hnew ih =>
    obtain ⟨a, ha⟩ := ih
    rw [ha.reopen] at hnew
    cases hnew
    exact ⟨a, ha.text, ha.active, ha.marker, ha.other⟩

/-! ## What shows of a view -/

theorem Represents.getActiveSnapshot_of_none (h : Represents s a) (hactive : a.active = none) :
    getActiveSnapshot S cipher s = .error .noActiveSnapshot := by
  refine getActiveSnapshot_of_absent fun id hid => ?_
  rw [h.active, hactive] at hid
  cases hid

theorem Represents.getActiveSnapshot_of_some (h : Represents s a) (hactive : a.active = some id) :
    ∃ w, getActiveSnapshot S cipher s = .ok w ∧ S.id w = id := by
  obtain ⟨data, hdata⟩ := Option.isSome_iff_exists.mp (a.active_saved hactive)
  obtain ⟨v, hv, hplain⟩ := h.exists_value hdata
  obtain ⟨e, rfl, hsaved⟩ := a.saved_cells hdata
  obtain ⟨w, hw, hid⟩ := S.id_unmarshal (saved_eq_some.mp hsaved).1
  have hdecrypt : decryptValue cipher v = .ok data := hplain
  refine ⟨w, ?_, hid⟩
  rw [getActiveSnapshot_of_value (by rw [h.active, hactive]; rfl) hv, decryptAndUnmarshal, hdecrypt]
  change unmarshal S .snapshot data = .ok w
  rw [unmarshal, hw]

/-- The active snapshot shows. -/
theorem Represents.active_eq_of_obsEq (hs : Represents s a) (ht : Represents t b)
    (h : ObsEq S cipher s t) : a.active = b.active := by
  have hget := h.getActiveSnapshot
  cases ha : a.active with
  | none =>
    rw [hs.getActiveSnapshot_of_none ha] at hget
    cases hb : b.active with
    | none => rfl
    | some id =>
      obtain ⟨w, hw, -⟩ := ht.getActiveSnapshot_of_some hb
      rw [hw] at hget
      cases hget
  | some id =>
    obtain ⟨w, hw, rfl⟩ := hs.getActiveSnapshot_of_some ha
    rw [hw] at hget
    cases hb : b.active with
    | none =>
      rw [ht.getActiveSnapshot_of_none hb] at hget
      cases hget
    | some id' =>
      obtain ⟨w', hw', rfl⟩ := ht.getActiveSnapshot_of_some hb
      rw [hw'] at hget
      rw [Except.ok.inj hget]

end Stores

/-! ## What an operation touches -/

section Touches

variable {S : Schema} {cipher : Option Cipher} {k : Kind} {name : String}

/-- The kind that an operation writes. -/
def Op.kind : Op S → Kind
  | .save k _ => k
  | .delete k _ => k
  | .activate _ => .snapshot

/-- The buckets that an operation changes. -/
def Op.buckets : Op S → List String
  | .save k _ => [k.bucket]
  | .delete .snapshot _ => [Kind.snapshot.bucket, bucketMeta]
  | .delete k _ => [k.bucket]
  | .activate _ => [bucketMeta]

theorem Op.bucket_notMem {op : Op S} (h : op.kind ≠ k) : k.bucket ∉ op.buckets := by
  have hne (k' : Kind) (hk : k' ≠ k) : k.bucket ≠ k'.bucket :=
    fun hbucket => hk (Kind.bucket_injective hbucket).symm
  cases op with
  | save k' v => exact mt List.mem_singleton.mp (hne k' h)
  | delete k' id =>
    cases k' with
    | snapshot => simpa [Op.buckets] using ⟨hne .snapshot h, Kind.bucket_ne_meta k⟩
    | _ => exact mt List.mem_singleton.mp (hne _ h)
  | activate id => exact mt List.mem_singleton.mp (Kind.bucket_ne_meta k)

/-- An operation that changes the store publishes one event of its kind, and it leaves the other buckets
as they are. -/
def Op.Leaves (op : Op S) (s s' : Bolt) : Prop :=
  s' = s ∨ (∃ ev, ev.resource = op.kind ∧ s'.published = s.published ++ [ev]) ∧
    ∀ name ∉ op.buckets, s'.db name = s.db name

theorem Op.leaves_run (op : Op S) (cipher : Option Cipher) (nonce : Nonce) (s : Bolt) :
    op.Leaves s (op.run S cipher nonce s).2 := by
  cases op with
  | save k v =>
    cases hsaved : saved cipher v with
    | none =>
      obtain ⟨e, he⟩ := run_save_of_saved_eq_none hsaved nonce s
      exact .inl (by rw [he])
    | some data =>
      rw [run_save_eq_of_saved hsaved]
      refine .inr ⟨⟨_, rfl, rfl⟩, fun name hname => ?_⟩
      exact Bolt.db_setBucket_of_ne (s := s) (mt List.mem_singleton.mpr hname)
  | delete k id =>
    cases hvalue : (s.db k.bucket)[id]? with
    | none =>
      obtain ⟨noun, hrun⟩ := run_delete_of_eq_none (S := S) cipher hvalue nonce
      exact .inl (by rw [hrun])
    | some v =>
      rw [run_delete_of_eq_some hvalue]
      refine .inr ⟨⟨_, rfl, rfl⟩, fun name hname => ?_⟩
      change Function.update (Function.update s.db _ _) bucketMeta _ name = s.db name
      by_cases hmeta : name = bucketMeta
      · subst hmeta
        rw [Function.update_self]
        cases k with
        | snapshot => exact absurd (by simp [Op.buckets]) hname
        | _ => rfl
      · rw [Function.update_of_ne hmeta, Function.update_of_ne]
        rintro rfl
        exact hname (by cases k <;> simp [Op.buckets])
  | activate id =>
    change Op.Leaves _ s (Store.activateSnapshot id s).2
    unfold Store.activateSnapshot
    cases (s.db Kind.snapshot.bucket)[id]? with
    | none => exact .inl rfl
    | some v =>
      cases put (s.db bucketMeta) metaActiveSnapshot (utf8 id) with
      | error e => exact .inl rfl
      | ok b =>
        refine .inr ⟨⟨_, rfl, rfl⟩, fun name hname => ?_⟩
        exact Bolt.db_setBucket_of_ne (s := s) (b := b) (mt List.mem_singleton.mpr hname)

theorem Op.Leaves.db_eq {op : Op S} {s s' : Bolt} (h : op.Leaves s s') (hname : name ∉ op.buckets) :
    s'.db name = s.db name := by
  rcases h with rfl | ⟨-, hdb⟩
  · rfl
  · exact hdb name hname

/-- Only the operations on snapshots change the active one. -/
theorem Op.Leaves.getActiveSnapshot_eq {op : Op S} {s s' : Bolt} (h : op.Leaves s s')
    (hkind : op.kind ≠ .snapshot) : getActiveSnapshot S cipher s' = getActiveSnapshot S cipher s := by
  have hmeta : bucketMeta ∉ op.buckets := by
    cases op with
    | save k v => exact mt List.mem_singleton.mp (Kind.bucket_ne_meta k).symm
    | delete k id =>
      cases k with
      | snapshot => exact absurd rfl hkind
      | _ => exact mt List.mem_singleton.mp (Kind.bucket_ne_meta _).symm
    | activate id => exact absurd rfl hkind
  rw [getActiveSnapshot, getActiveSnapshot, Bolt.activeSnapshotID, Bolt.activeSnapshotID, h.db_eq hmeta,
    h.db_eq (Op.bucket_notMem hkind)]

end Touches

end Vrata.Store

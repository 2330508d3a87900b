import Mathlib.Data.List.Forall2
import Vrata.Lib.Json.Object
import Vrata.Store.Memory
import Vrata.Store.View

/-!
# One store for the other

The bolt store and the in-memory store have one interface. `interchangeable_iff` says how far a caller
can take the one for the other: on entities that JSON represents they give the same answers and publish
the same events exactly as long as every entity that is saved fits into a bolt file.

Both stores are compared with a `View`. The bolt store represents it (`Represents`), the in-memory store
mirrors it (`Mirrors`), and a reply is a matter of the view.
-/

namespace Vrata.Store

open Json (Bytes)

/-! ## Calls and replies -/

section Calls

variable (S : Schema)

/-- The calls of the store interface: a write, the list of a kind, the entity under an ID, or the active
snapshot. -/
inductive Call where
  | write (op : Op S)
  | list (k : Kind)
  | get (k : Kind) (id : String)
  | getActive

/-- The errors of the model that a caller asks for with `errors.Is`. -/
inductive Failure where
  | notFound
  | noActiveSnapshot
  | other
deriving DecidableEq, Repr

def StoreError.isNoActiveSnapshot : StoreError → Bool
  | .noActiveSnapshot => true
  | .wrap _ _ cause => cause.isNoActiveSnapshot
  | _ => false

def StoreError.failure (e : StoreError) : Failure :=
  if e.isNotFound then .notFound else if e.isNoActiveSnapshot then .noActiveSnapshot else .other

inductive Reply where
  | done
  | entity (k : Kind) (v : S.Entity k)
  | entities (k : Kind) (vs : List (S.Entity k))
  | secrets (l : List SecretSummary)
  | snapshots (l : List SnapshotSummary)
  | failed (failure : Failure)

variable {S}

def Reply.ofResult {α : Type} (reply : α → Reply S) : Except StoreError α → Reply S
  | .ok v => reply v
  | .error e => .failed e.failure

/-- The replies are the same up to the order of a list. -/
inductive Reply.Same : Reply S → Reply S → Prop where
  | refl (r : Reply S) : Same r r
  | entities {k : Kind} {vs ws : List (S.Entity k)} : vs.Perm ws → Same (.entities k vs) (.entities k ws)
  | secrets {l l' : List SecretSummary} : l.Perm l' → Same (.secrets l) (.secrets l')
  | snapshots {l l' : List SnapshotSummary} : l.Perm l' → Same (.snapshots l) (.snapshots l')

/-- The call on the bolt store, with the nonce that it draws if it encrypts. -/
def Call.onBolt (cipher : Option Cipher) (nonce : Nonce) : Call S → Bolt → Reply S × Bolt
  | .write op, s =>
    let r := op.run S cipher nonce s
    (.ofResult (fun _ => .done) r.1, r.2)
  | .list .route, s => (.ofResult (.entities _) (listRoutes S s), s)
  | .list .group, s => (.ofResult (.entities _) (listGroups S s), s)
  | .list .middleware, s => (.ofResult (.entities _) (listMiddlewares S s), s)
  | .list .listener, s => (.ofResult (.entities _) (listListeners S s), s)
  | .list .destination, s => (.ofResult (.entities _) (listDestinations S s), s)
  | .list .secret, s => (.ofResult .secrets (listSecrets S cipher s), s)
  | .list .snapshot, s => (.ofResult .snapshots (listSnapshots S cipher s), s)
  | .get .route id, s => (.ofResult (.entity _) (getRoute S id s), s)
  | .get .group id, s => (.ofResult (.entity _) (getGroup S id s), s)
  | .get .middleware id, s => (.ofResult (.entity _) (getMiddleware S id s), s)
  | .get .listener id, s => (.ofResult (.entity _) (getListener S id s), s)
  | .get .destination id, s => (.ofResult (.entity _) (getDestination S id s), s)
  | .get .secret id, s => (.ofResult (.entity _) (getSecret S cipher id s), s)
  | .get .snapshot id, s => (.ofResult (.entity _) (getSnapshot S cipher id s), s)
  | .getActive, s => (.ofResult (.entity _) (getActiveSnapshot S cipher s), s)

def Call.onMemory : Call S → Memory S → Reply S × Memory S
  | .write op, m =>
    let r := m.run op
    (.ofResult (fun _ => .done) r.1, r.2)
  | .list .route, m => (.ofResult (.entities _) m.listRoutes, m)
  | .list .group, m => (.ofResult (.entities _) m.listGroups, m)
  | .list .middleware, m => (.ofResult (.entities _) m.listMiddlewares, m)
  | .list .listener, m => (.ofResult (.entities _) m.listListeners, m)
  | .list .destination, m => (.ofResult (.entities _) m.listDestinations, m)
  | .list .secret, m => (.ofResult .secrets m.listSecrets, m)
  | .list .snapshot, m => (.ofResult .snapshots m.listSnapshots, m)
  | .get .route id, m => (.ofResult (.entity _) (m.getRoute id), m)
  | .get .group id, m => (.ofResult (.entity _) (m.getGroup id), m)
  | .get .middleware id, m => (.ofResult (.entity _) (m.getMiddleware id), m)
  | .get .listener id, m => (.ofResult (.entity _) (m.getListener id), m)
  | .get .destination id, m => (.ofResult (.entity _) (m.getDestination id), m)
  | .get .secret id, m => (.ofResult (.entity _) (m.getSecret id), m)
  | .get .snapshot id, m => (.ofResult (.entity _) (m.getSnapshot id), m)
  | .getActive, m => (.ofResult (.entity _) m.getActiveSnapshot, m)

/-- What the calls return, and the store after them. -/
def boltReplies (cipher : Option Cipher) : Bolt → List (Call S × Nonce) → List (Reply S) × Bolt
  | s, [] => ([], s)
  | s, (call, nonce) :: calls =>
    let r := call.onBolt cipher nonce s
    let rest := boltReplies cipher r.2 calls
    (r.1 :: rest.1, rest.2)

def memoryReplies : Memory S → List (Call S × Nonce) → List (Reply S) × Memory S
  | m, [] => ([], m)
  | m, (call, _) :: calls =>
    let r := call.onMemory m
    let rest := memoryReplies r.2 calls
    (r.1 :: rest.1, rest.2)

/-- Nothing that the calls return or publish shows which of the stores it is. -/
def Interchangeable (cipher : Option Cipher) (calls : List (Call S × Nonce)) : Prop :=
  ∀ s, new cipher (fun _ => ∅) = .ok s →
    List.Forall₂ Reply.Same (boltReplies cipher s calls).1 (memoryReplies {} calls).1 ∧
      (boltReplies cipher s calls).2.published = (memoryReplies {} calls).2.published

/-- The IDs are not empty, and an entity is one that JSON represents. -/
def Call.Admissible : Call S → Prop
  | .write (.save k v) => S.id v ≠ "" ∧ ∃ data, S.marshal v = some data ∧ S.unmarshal k data = some v
  | .write (.delete _ id) => id ≠ ""
  | .write (.activate id) => id ≠ ""
  | .get _ id => id ≠ ""
  | _ => True

/-- An entity that is saved fits into a bolt file. -/
def Call.FitsFile (cipher : Option Cipher) : Call S → Prop
  | .write (.save k v) => ∀ data, S.marshal v = some data →
      (utf8 (S.id v)).length ≤ maxKeySize ∧ data.length + overhead cipher k ≤ maxValueSize
  | _ => True

end Calls

/-! ## Mirrors of a view -/

/-- The in-memory store holds what the texts of the view encode. -/
structure Mirrors {S : Schema} {cipher : Option Cipher} (m : Memory S) (a : View S cipher) : Prop where
  entities : ∀ (k : Kind) (id : String), (m.entities k)[id]? = (a.cells (k, id)).bind (S.unmarshal k)
  active : m.activeSnap = a.active.getD ""

section Mirrors

variable {S : Schema} {cipher : Option Cipher} {m : Memory S} {a : View S cipher} {k : Kind} {id : String}

theorem View.exists_unmarshal (a : View S cipher) {data : Bytes} (h : a.cells (k, id) = some data) :
    ∃ w, S.unmarshal k data = some w ∧ S.id w = id := by
  obtain ⟨v, rfl, hsaved⟩ := a.saved_cells h
  exact S.id_unmarshal (saved_eq_some.mp hsaved).1

/-- There is nothing under the empty ID. -/
theorem View.cells_empty (a : View S cipher) (k : Kind) : a.cells (k, "") = none := by
  refine Option.eq_none_iff_forall_ne_some.mpr fun data hdata => ?_
  obtain ⟨v, hid, hsaved⟩ := a.saved_cells hdata
  refine (saved_eq_some.mp hsaved).2.1 ?_
  rw [hid]
  rfl

theorem View.active_ne_empty (a : View S cipher) : a.active ≠ some "" := by
  intro hactive
  have hsome := a.active_saved hactive
  rw [a.cells_empty] at hsome
  cases hsome

theorem Mirrors.eq_none_iff (h : Mirrors m a) :
    (m.entities k)[id]? = none ↔ a.cells (k, id) = none := by
  rw [h.entities]
  cases hdata : a.cells (k, id) with
  | none => simp
  | some data =>
    obtain ⟨w, hw, -⟩ := a.exists_unmarshal hdata
    simp [hw]

theorem Mirrors.save (h : Mirrors m a) {v : S.Entity k} {data : Bytes}
    (hsaved : saved cipher v = some data) (hread : S.unmarshal k data = some v) :
    Mirrors (m.run (.save k v)).2 (a.step (.save k v)) := by
  rw [m.run_save]
  refine ⟨fun k' id => ?_, h.active.trans ?_⟩
  · change ((m.set k _).entities k')[id]? = _
    simp only [View.step, Overwrite.update, Op.effect, hsaved, Option.map_some]
    by_cases hcell : (k, S.id v) = (k', id)
    · cases hcell
      rw [Memory.getElem?_insert_self, if_pos rfl]
      exact hread.symm
    · rw [Memory.getElem?_insert_of_ne hcell, if_neg hcell]
      exact h.entities k' id
  · cases k <;> rfl

/-- What is deleted in the maps is deleted in the view. -/
theorem Mirrors.getElem?_erase (h : Mirrors m a) (k' : Kind) (id' : String) :
    ((m.set k ((m.entities k).erase id)).entities k')[id']? =
      ((a.step (.delete k id)).cells (k', id')).bind (S.unmarshal k') := by
  rw [Memory.getElem?_erase]
  simp only [View.step, Overwrite.update, Op.effect]
  split_ifs
  · rfl
  · exact h.entities k' id'

theorem Mirrors.delete (h : Mirrors m a) (k : Kind) (id : String) :
    Mirrors (m.run (.delete k id)).2 (a.step (.delete k id)) := by
  obtain ⟨hnone, noun, hrun⟩ | ⟨-, hrun⟩ := m.run_delete k id
  · rw [hrun, a.step_delete_of_eq_none (h.eq_none_iff.mp hnone)]
    exact h
  · rw [hrun]
    refine ⟨h.getElem?_erase, ?_⟩
    change Memory.activeAfter k m.activeSnap id = (a.activeAfter (.delete k id)).getD ""
    rw [h.active]
    cases k with
    | snapshot =>
      rw [Memory.activeAfter, View.activeAfter]
      cases hactive : a.active with
      | none => simp
      | some id' => by_cases hid : id' = id <;> simp [hid]
    | _ => rfl

theorem Mirrors.activate (h : Mirrors m a) (id : String) :
    Mirrors (m.run (.activate id)).2 (a.step (.activate id)) := by
  change Mirrors (m.activateSnapshot id).2 _
  rw [Memory.activateSnapshot]
  cases hvalue : (m.entities .snapshot)[id]? with
  | none =>
    rw [a.step_activate_of_eq_none (h.eq_none_iff.mp hvalue)]
    exact h
  | some v =>
    refine ⟨h.entities, ?_⟩
    have hsome : (a.cells (.snapshot, id)).isSome = true := by
      rw [Option.isSome_iff_ne_none, Ne, ← h.eq_none_iff, hvalue]
      exact Option.some_ne_none v
    change id = (if (a.cells (.snapshot, id)).isSome then some id else a.active).getD ""
    rw [if_pos hsome, Option.getD_some]

theorem mirrors_empty : Mirrors ({} : Memory S) (View.empty : View S cipher) :=
  ⟨fun _ _ => Std.ExtTreeMap.getElem?_empty, rfl⟩

end Mirrors

/-! ## Replies -/

section Replies

variable {S : Schema} {cipher : Option Cipher} {nonce : Nonce} {s : Bolt} {m : Memory S}
  {a : View S cipher} {k : Kind} {id : String}

/-- A bucket whose values are all read gives the list of what is read. -/
theorem mapM_toList_eq_ok {β γ : Type} {b : Bucket} {b' : Std.ExtTreeMap String β compare}
    {f : String × Bytes → Except StoreError γ} {g : String × β → γ}
    (h : ∀ id : String,
      b[id]?.map (fun v => f (id, v)) = b'[id]?.map fun v => (.ok (g (id, v)) : Except StoreError γ)) :
    b.toList.mapM f = .ok (b'.toList.map g) :=
  (mapM_toList h).trans List.mapM_pure

/-- What is read of a value is what the in-memory store holds. -/
theorem Represents.readValue_eq (hs : Represents s a) (hm : Mirrors m a) (k : Kind) (id : String) :
    (s.value k id).map (readValue S cipher k) = (m.entities k)[id]?.map fun v => .ok (.ok v) := by
  have hread : (s.value k id).map (readValue S cipher k) =
      (s.text cipher k id).map (Except.map (unmarshal S k)) := by
    rw [Bolt.text, Option.map_map]
    rfl
  rw [hread, hs.text, hm.entities]
  cases hdata : a.cells (k, id) with
  | none => rfl
  | some data =>
    obtain ⟨w, hw, -⟩ := a.exists_unmarshal hdata
    simp [hw, Except.map, unmarshal]

theorem utf8_length_ne_zero (h : id ≠ "") : (utf8 id).length ≠ 0 := by
  intro hlength
  exact h (utf8_injective (List.eq_nil_of_length_eq_zero hlength))

section Reads

variable (hs : Represents s a) (hm : Mirrors m a)

include hs hm

theorem Represents.map_value_eq {γ : Type} (g : Except StoreError (Except StoreError (S.Entity k)) → γ)
    (id : String) :
    (s.value k id).map (fun v => g (readValue S cipher k v)) =
      (m.entities k)[id]?.map fun v => g (.ok (.ok v)) := by
  have hmap := congrArg (Option.map g) (hs.readValue_eq hm k id)
  rwa [Option.map_map, Option.map_map] at hmap

theorem Represents.listIn_eq (hk : k.isSealed = false) (noun nouns : String) :
    listIn S k noun nouns s = m.listIn k := by
  have hlist : (s.db k.bucket).toList.mapM (fun entry =>
      wrapping ("unmarshalling " ++ noun ++ ": %w") [] (unmarshal S k entry.2)) = m.listIn k := by
    refine mapM_toList_eq_ok fun id => ?_
    have hvalue := hs.map_value_eq hm (k := k)
      (fun r => r.bind (wrapping ("unmarshalling " ++ noun ++ ": %w") [])) id
    simp only [readValue_of_not_isSealed S cipher hk] at hvalue
    exact hvalue
  rw [listIn, hlist]
  rfl

theorem Represents.listSecrets_eq : listSecrets S cipher s = m.listSecrets := by
  refine mapM_toList_eq_ok fun id => ?_
  simp only [summarizeSecret_eq]
  exact hs.map_value_eq hm (k := .secret) (fun r =>
    (wrapping "decrypting secret %q: %w" [id] r).bind fun r =>
      (wrapping "decoding secret %q: %w" [id] r).map fun sec =>
        SecretSummary.mk (S.id sec) (S.secretName sec)) id

theorem Represents.listSnapshots_eq : listSnapshots S cipher s = m.listSnapshots := by
  have hactive : s.activeSnapshotID.getD [] = utf8 m.activeSnap := by
    rw [hs.active, hm.active]
    cases a.active <;> rfl
  have hflag (id : String) : (utf8 id == utf8 m.activeSnap) = (id == m.activeSnap) :=
    Bool.eq_iff_iff.mpr (by simp [utf8_injective.eq_iff])
  have hlist : (s.db Kind.snapshot.bucket).toList.mapM (fun entry =>
      summarizeSnapshot S (utf8 m.activeSnap) (decryptValue cipher entry.2)) = m.listSnapshots := by
    refine mapM_toList_eq_ok fun id => ?_
    simp only [summarizeSnapshot_eq, hflag]
    exact hs.map_value_eq hm (k := .snapshot) (fun r =>
      (wrapping "decrypting snapshot: %w" [] r).bind fun r =>
        (wrapping "unmarshalling snapshot: %w" [] r).map (Memory.summarize m.activeSnap)) id
  rw [listSnapshots, hactive, hlist]
  rfl

theorem Represents.get_eq {get : String → Bolt → Except StoreError (S.Entity k)}
    (hget : IsGet S cipher k get) (noun id : String) :
    Reply.ofResult (.entity k) (get id s) = .ofResult (.entity k) (m.getIn k noun id) := by
  have hvalue := hs.readValue_eq hm k id
  rw [Memory.getIn]
  cases hv : (m.entities k)[id]? with
  | none =>
    rw [hv] at hvalue
    obtain ⟨err, herr, hnotFound⟩ :=
      (hget.notFound_iff id s).mpr (Option.map_eq_none_iff.mp hvalue)
    rw [herr]
    simp only [Reply.ofResult, StoreError.failure, hnotFound, StoreError.isNotFound, if_true]
  | some v =>
    rw [hv] at hvalue
    have hok := (hget.ok_iff id s v).mpr (Option.map_eq_some_iff.mp hvalue)
    rw [hok]

theorem Represents.getActiveSnapshot_eq :
    getActiveSnapshot S cipher s = m.getActiveSnapshot := by
  rw [Memory.getActiveSnapshot, hm.active]
  cases hactive : a.active with
  | none => exact hs.getActiveSnapshot_of_none hactive
  | some id =>
    have hid : id ≠ "" := by
      rintro rfl
      exact a.active_ne_empty hactive
    obtain ⟨data, hdata⟩ := Option.isSome_iff_exists.mp (a.active_saved hactive)
    obtain ⟨v, hv, hplain⟩ := hs.exists_value hdata
    obtain ⟨w, hw, -⟩ := a.exists_unmarshal hdata
    have hread : readValue S cipher .snapshot v = .ok (.ok w) := by
      rw [readValue, hplain, Except.map, unmarshal, hw]
    have hentity : (m.entities .snapshot)[id]? = some w := by
      rw [hm.entities, hdata, Option.bind_some, hw]
    rw [Option.getD_some, if_neg hid, hentity,
      getActiveSnapshot_of_value (by rw [hs.active, hactive]; rfl) hv,
      decryptAndUnmarshal_eq S cipher rfl]
    dsimp only
    rw [hread]
    rfl

end Reads

/-! ## Calls in step -/

/-- The stores have published the same events and stand for one view. -/
def InStep (cipher : Option Cipher) (s : Bolt) (m : Memory S) : Prop :=
  s.published = m.published ∧ ∃ a : View S cipher, Represents s a ∧ Mirrors m a

/-- The replies to a call are the same, and the stores stay in step. -/
def Answers (cipher : Option Cipher) (r : Reply S × Bolt) (r' : Reply S × Memory S) : Prop :=
  r.1 = r'.1 ∧ InStep cipher r.2 r'.2

theorem InStep.answers_read (h : InStep cipher s m) {reply reply' : Reply S} (heq : reply = reply') :
    Answers cipher (reply, s) (reply', m) :=
  ⟨heq, h⟩

theorem InStep.answers_save (h : InStep cipher s m) {v : S.Entity k} {data : Bytes}
    (hsaved : saved cipher v = some data) (hread : S.unmarshal k data = some v) (nonce : Nonce) :
    Answers cipher ((Call.write (.save k v)).onBolt cipher nonce s)
      ((Call.write (.save k v)).onMemory m) := by
  obtain ⟨hpublished, a, hs, hm⟩ := h
  have hrepresents := hs.run nonce (.save k v)
  have hmirrors := hm.save hsaved hread
  have hnew : (s.db k.bucket)[S.id v]?.isNone = (m.entities k)[S.id v]?.isNone := by
    rw [Bool.eq_iff_iff, Option.isNone_iff_eq_none, Option.isNone_iff_eq_none, hs.value_eq_none,
      hm.eq_none_iff]
  rw [run_save_eq_of_saved hsaved] at hrepresents
  rw [m.run_save] at hmirrors
  rw [Call.onBolt, Call.onMemory, run_save_eq_of_saved hsaved, m.run_save]
  refine ⟨rfl, ?_, _, hrepresents, hmirrors⟩
  change s.published ++ _ = m.published ++ _
  rw [hpublished, hnew]

/-- A bucket has the ID exactly if the map has it. -/
theorem Represents.lookup_cases (hs : Represents s a) (hm : Mirrors m a) (k : Kind) (id : String) :
    ((s.db k.bucket)[id]? = none ∧ (m.entities k)[id]? = none) ∨
      ∃ v w, (s.db k.bucket)[id]? = some v ∧ (m.entities k)[id]? = some w := by
  have hnone : (s.db k.bucket)[id]? = none ↔ (m.entities k)[id]? = none :=
    hs.value_eq_none.trans hm.eq_none_iff.symm
  cases hv : (s.db k.bucket)[id]? with
  | none => exact .inl ⟨rfl, hnone.mp hv⟩
  | some v =>
    obtain ⟨w, hw⟩ := Option.ne_none_iff_exists'.mp (mt hnone.mpr (by rw [hv]; exact nofun))
    exact .inr ⟨v, w, rfl, hw⟩

/-- What is seen of a write: its result, up to the error's text, and the events. -/
def SameReport (r : Written) (r' : Except StoreError Unit × Memory S) : Prop :=
  Reply.ofResult (fun _ => (.done : Reply S)) r.1 = .ofResult (fun _ => .done) r'.1 ∧
    r.2.published = r'.2.published

theorem InStep.answers_delete (h : InStep cipher s m) (k : Kind) (id : String) (nonce : Nonce) :
    Answers cipher ((Call.write (.delete k id)).onBolt cipher nonce s)
      ((Call.write (.delete k id)).onMemory m) := by
  obtain ⟨hpublished, a, hs, hm⟩ := h
  have hreport : SameReport ((Op.delete k id : Op S).run S cipher nonce s) (m.run (.delete k id)) := by
    obtain ⟨hv, hw⟩ | ⟨v, w, hv, hw⟩ := hs.lookup_cases hm k id
    · obtain ⟨noun, hrun⟩ := run_delete_of_eq_none (S := S) cipher hv nonce
      obtain ⟨-, noun', hrun'⟩ := (m.run_delete k id).resolve_right fun h => h.1 hw
      rw [hrun, hrun']
      exact ⟨rfl, hpublished⟩
    · obtain ⟨-, hrun⟩ := (m.run_delete k id).resolve_left fun h => by simp [hw] at h
      rw [run_delete_of_eq_some hv, hrun]
      exact ⟨rfl, congrArg (· ++ _) hpublished⟩
  exact ⟨hreport.1, hreport.2, _, hs.run nonce _, hm.delete k id⟩

theorem InStep.answers_activate (h : InStep cipher s m) (id : String) (nonce : Nonce) :
    Answers cipher ((Call.write (.activate id)).onBolt cipher nonce s)
      ((Call.write (.activate id)).onMemory m) := by
  obtain ⟨hpublished, a, hs, hm⟩ := h
  have hreport : SameReport (activateSnapshot id s) (m.activateSnapshot id) := by
    rw [activateSnapshot, Memory.activateSnapshot]
    obtain ⟨hv, hw⟩ | ⟨v, w, hv, hw⟩ := hs.lookup_cases hm .snapshot id
    · rw [hv, hw]
      exact ⟨rfl, hpublished⟩
    · rw [hv, hw]
      simp only [put_of_fits (hs.fits_active hv)]
      exact ⟨rfl, congrArg (· ++ _) hpublished⟩
  exact ⟨hreport.1, hreport.2, _, hs.run nonce _, hm.activate id⟩

/-- A call whose entity fits into the file is answered alike. -/
theorem InStep.answers (h : InStep cipher s m) {call : Call S} (hcall : call.Admissible)
    (hfits : call.FitsFile cipher) (nonce : Nonce) :
    Answers cipher (call.onBolt cipher nonce s) (call.onMemory m) := by
  have h' := h
  obtain ⟨-, a, hs, hm⟩ := h'
  cases call with
  | write op =>
    cases op with
    | save k v =>
      obtain ⟨hid, data, hdata, hread⟩ := hcall
      obtain ⟨hkey, hvalue⟩ := hfits data hdata
      exact h.answers_save (saved_eq_some.mpr ⟨hdata, utf8_length_ne_zero hid, hkey, hvalue⟩) hread nonce
    | delete k id => exact h.answers_delete k id nonce
    | activate id => exact h.answers_activate id nonce
  | list k =>
    cases k with
    | secret => exact h.answers_read (congrArg _ (hs.listSecrets_eq hm))
    | snapshot => exact h.answers_read (congrArg _ (hs.listSnapshots_eq hm))
    | _ => exact h.answers_read (congrArg _ (hs.listIn_eq hm rfl _ _))
  | get k id =>
    cases k with
    | secret => exact h.answers_read (hs.get_eq hm (isGet_decrypt rfl _ _ fun id => [id]) _ id)
    | snapshot => exact h.answers_read (hs.get_eq hm (isGet_decrypt rfl _ _ fun id => [id]) _ id)
    | _ => exact h.answers_read (hs.get_eq hm (isGet_getIn rfl _) _ id)
  | getActive => exact h.answers_read (congrArg _ (hs.getActiveSnapshot_eq hm))

/-- A save that does not fit is refused by the file and accepted by the maps. -/
theorem replies_of_not_fitsFile {call : Call S} (hfits : ¬call.FitsFile cipher) (nonce : Nonce)
    (s : Bolt) (m : Memory S) :
    ∃ failure, (call.onBolt cipher nonce s).1 = .failed failure ∧ (call.onMemory m).1 = .done := by
  match call with
  | .write (.save k v) =>
    have hsaved : saved cipher v = none := by
      refine Option.eq_none_iff_forall_ne_some.mpr fun data h => hfits fun data' hdata => ?_
      obtain ⟨hmarshal, -, hkey, hvalue⟩ := saved_eq_some.mp h
      rw [hmarshal] at hdata
      cases hdata
      exact ⟨hkey, hvalue⟩
    obtain ⟨e, he⟩ := run_save_of_saved_eq_none hsaved nonce s
    refine ⟨e.failure, ?_, ?_⟩
    · rw [Call.onBolt, he]
      rfl
    · rw [Call.onMemory, m.run_save]
      rfl
  | .write (.delete _ _) | .write (.activate _) | .list _ | .get _ _ | .getActive =>
    exact absurd trivial hfits

/-- From stores in step, the calls show no difference exactly if everything they save fits. -/
theorem InStep.replies_iff (h : InStep cipher s m) {calls : List (Call S × Nonce)}
    (hcalls : ∀ c ∈ calls, c.1.Admissible) :
    (List.Forall₂ Reply.Same (boltReplies cipher s calls).1 (memoryReplies m calls).1 ∧
      (boltReplies cipher s calls).2.published = (memoryReplies m calls).2.published) ↔
      ∀ c ∈ calls, c.1.FitsFile cipher := by
  induction calls generalizing s m with
  | nil => exact iff_of_true ⟨.nil, h.1⟩ (by simp)
  | cons c calls ih =>
    obtain ⟨call, nonce⟩ := c
    rw [List.forall_mem_cons] at hcalls ⊢
    by_cases hfits : call.FitsFile cipher
    · obtain ⟨hreply, hnext⟩ := h.answers hcalls.1 hfits nonce
      rw [and_iff_right hfits, ← ih hnext hcalls.2, boltReplies, memoryReplies]
      refine and_congr_left fun _ => List.forall₂_cons.trans (and_iff_right ?_)
      rw [hreply]
      exact .refl _
    · refine iff_of_false ?_ fun hall => hfits hall.1
      rintro ⟨hreplies, -⟩
      obtain ⟨failure, hfailed, hdone⟩ := replies_of_not_fitsFile hfits nonce s m
      have hsame := (List.forall₂_cons.mp hreplies).1
      rw [hfailed, hdone] at hsame
      cases hsame

end Replies

/-! ## When the stores are interchangeable -/

section Interchange

variable {S : Schema} {cipher : Option Cipher}

theorem inStep_of_new {s : Bolt} (h : new cipher (fun _ => ∅) = .ok s) :
    InStep cipher s ({} : Memory S) := by
  refine ⟨?_, _, represents_of_new h, mirrors_empty⟩
  cases cipher <;> cases h <;> rfl

/-- On calls with IDs that are not empty and entities that JSON represents, the stores are
interchangeable exactly if every entity that is saved fits into a bolt file. -/
theorem interchangeable_iff {calls : List (Call S × Nonce)} (h : ∀ c ∈ calls, c.1.Admissible) :
    Interchangeable cipher calls ↔ ∀ c ∈ calls, c.1.FitsFile cipher := by
  obtain ⟨s, hs⟩ : ∃ s, new cipher (fun _ => ∅) = .ok s := by cases cipher <;> exact ⟨_, rfl⟩
  constructor
  · intro hcalls
    exact ((inStep_of_new hs).replies_iff h).mp (hcalls s hs)
  · intro hfits s hs
    exact ((inStep_of_new hs).replies_iff h).mpr hfits

/-- A snapshot is saved, activated, listed and deleted. -/
def snapshotCalls : List (Call sampleSchema × Nonce) :=
  [(.write (.save .snapshot true), sampleNonce), (.write (.activate "a"), sampleNonce),
    (.list .snapshot, sampleNonce), (.write (.delete .snapshot "a"), sampleNonce),
    (.getActive, sampleNonce)]

theorem interchangeable_snapshotCalls : Interchangeable none snapshotCalls := by
  refine (interchangeable_iff ?_).mpr ?_
  · simp only [snapshotCalls, List.forall_mem_cons, List.not_mem_nil, false_imp_iff, implies_true,
      and_true, Call.Admissible]
    exact ⟨⟨by decide, _, rfl, rfl⟩, by decide, by decide⟩
  · simp only [snapshotCalls, List.forall_mem_cons, List.not_mem_nil, false_imp_iff, implies_true,
      and_true, Call.FitsFile]
    rintro _ ⟨⟩
    decide

end Interchange

/-! ## An ID that is too long -/

section LongID

variable (n : ℕ)

def idOfLength : String := String.ofList (List.replicate n 'a')

theorem length_utf8_idOfLength : (utf8 (idOfLength n)).length = n := by
  have hutf8 (l : List Char) : utf8 (String.ofList l) = l.flatMap String.utf8EncodeChar := by
    rw [utf8, String.toByteArray_ofList, List.utf8Encode, List.data_toByteArray]
  rw [idOfLength, hutf8, List.length_flatMap, List.map_replicate, List.sum_replicate_nat]
  exact Nat.mul_one n

def textOfLength : Bytes := Json.encodeObject [("id", Json.quote (idOfLength n))]

theorem ascii_idOfLength : Json.Ascii (idOfLength n) := by
  intro c hc
  rw [idOfLength, String.toList_ofList] at hc
  rw [(List.mem_replicate.mp hc).2]
  decide

theorem compact_textOfLength : Json.compact (textOfLength n) = some (textOfLength n) := by
  refine Json.compact_encodeObject ?_ ?_
  · simpa using Json.tight_quote _
  · simpa using ⟨by decide +kernel, Json.unescaped_quote (ascii_idOfLength n)⟩

/-- There is one entity of each kind, and it has an ID of the length. -/
def lengthSchema : Schema where
  Entity _ := Unit
  id _ := idOfLength n
  marshal _ := some (textOfLength n)
  unmarshal _ data := if data = textOfLength n then some () else none
  secretName _ := ""
  snapshotName _ := ""
  createdAt _ := 0
  compact_marshal := by
    rintro _ _ _ ⟨⟩
    exact compact_textOfLength n
  id_unmarshal := by
    rintro _ _ _ ⟨⟩
    exact ⟨(), if_pos rfl, rfl⟩

def saveOfLength : Call (lengthSchema n) := .write (.save .route ())

variable {n}

theorem admissible_saveOfLength (h : n ≠ 0) : (saveOfLength n).Admissible := by
  refine ⟨fun hid => h ?_, textOfLength n, rfl, if_pos rfl⟩
  rw [← length_utf8_idOfLength n]
  exact congrArg (fun id => (utf8 id).length) hid

theorem not_fitsFile_saveOfLength (h : maxKeySize < n) : ¬(saveOfLength n).FitsFile none := by
  intro hfits
  have hkey : (utf8 (idOfLength n)).length ≤ maxKeySize := (hfits (textOfLength n) rfl).1
  rw [length_utf8_idOfLength] at hkey
  omega

/-- The maps take an entity with an ID of 32769 octets, and the file does not. -/
theorem not_interchangeable_saveOfLength :
    (saveOfLength 32769).Admissible ∧ ¬Interchangeable none [(saveOfLength 32769, sampleNonce)] := by
  have hcall := admissible_saveOfLength (n := 32769) (by omega)
  refine ⟨hcall, fun h => ?_⟩
  have hreplies := ((inStep_of_new rfl).replies_iff (by simpa using hcall)).mp (h _ rfl)
  exact not_fitsFile_saveOfLength (by decide) (hreplies _ (List.mem_singleton_self _))

end LongID

end Vrata.Store

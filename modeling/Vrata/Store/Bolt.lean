import Mathlib.Logic.Function.Basic
import Mathlib.Tactic.Linarith
import Vrata.Lib.Json

/-!
# The bolt store

The control plane keeps its configuration in a bbolt file: one bucket for each kind of entity, with
the entity's ID as the key and its JSON text as the value, and a bucket of metadata that names the
active snapshot. Secrets and snapshots are encrypted when a cipher is configured.

A transaction of bbolt is atomic, so a write either fails and leaves the file as it was or goes through
as a whole. What `encoding/json` makes of the entities is a parameter (`Schema`), and so is the AEAD
that a cipher wraps. The nonce that `Seal` draws is an argument of the writes that encrypt.
-/

namespace Vrata.Store

open Json (Bytes)

/-! ## Errors and events -/

/-- An error is one of a library or of the model, or a text that may wrap another error. -/
inductive StoreError where
  | notFound
  | noActiveSnapshot
  | bucketNameRequired
  | keyRequired
  | keyTooLarge
  | valueTooLarge
  | json
  | authentication
  | failed (format : String) (args : List String)
  | wrap (format : String) (args : List String) (cause : StoreError)
deriving DecidableEq, Repr

/-- What `errors.Is` with `ErrNotFound` says. -/
def StoreError.isNotFound : StoreError → Bool
  | .notFound => true
  | .wrap _ _ cause => cause.isNotFound
  | _ => false

inductive Kind where
  | route
  | group
  | middleware
  | listener
  | destination
  | secret
  | snapshot
deriving DecidableEq, Repr

def Kind.bucket : Kind → String
  | .route => "routes"
  | .group => "groups"
  | .middleware => "middlewares"
  | .listener => "listeners"
  | .destination => "destinations"
  | .secret => "secrets"
  | .snapshot => "snapshots"

def bucketMeta : String := "meta"

def metaActiveSnapshot : String := "active_snapshot_id"

def metaEncrypted : String := "encrypted"

inductive EventType where
  | created
  | updated
  | deleted
deriving DecidableEq, Repr

structure StoreEvent where
  type : EventType
  resource : Kind
  id : String
deriving DecidableEq, Repr

/-! ## Encryption -/

def nonceSize : ℕ := 12

abbrev Nonce := { nonce : Bytes // nonce.length = nonceSize }

/-- An AES-256-GCM AEAD under its key. A sealed text is 16 octets longer than the plaintext. -/
structure Cipher where
  sealAEAD : Nonce → Bytes → Bytes
  openAEAD : Nonce → Bytes → Option Bytes
  openAEAD_sealAEAD : ∀ nonce plaintext, openAEAD nonce (sealAEAD nonce plaintext) = some plaintext
  length_sealAEAD : ∀ nonce plaintext, (sealAEAD nonce plaintext).length = plaintext.length + 16

/-- The nonce and the ciphertext after it. -/
def Cipher.seal (c : Cipher) (nonce : Nonce) (plaintext : Bytes) : Bytes :=
  nonce.val ++ c.sealAEAD nonce plaintext

def Cipher.open (c : Cipher) (ciphertext : Bytes) : Except StoreError Bytes :=
  if h : ciphertext.length < nonceSize then .error (.failed "ciphertext too short" [])
  else
    let nonce : Nonce := ⟨ciphertext.take nonceSize, by simp only [List.length_take]; omega⟩
    match c.openAEAD nonce (ciphertext.drop nonceSize) with
    | none => .error (.wrap "decrypting: %w" [] .authentication)
    | some plaintext => .ok plaintext

def encryptValue (cipher : Option Cipher) (nonce : Nonce) (data : Bytes) : Bytes :=
  match cipher with
  | none => data
  | some c => c.seal nonce data

def decryptValue (cipher : Option Cipher) (data : Bytes) : Except StoreError Bytes :=
  match cipher with
  | none => .ok data
  | some c => c.open data

/-! ## Entities -/

/-- The entities of each kind and their JSON texts. What `json.Marshal` returns is compact and escaped,
and `json.Unmarshal` accepts it and finds the ID in it. -/
structure Schema where
  Entity : Kind → Type
  id : {k : Kind} → Entity k → String
  marshal : {k : Kind} → Entity k → Option Bytes
  unmarshal : (k : Kind) → Bytes → Option (Entity k)
  secretName : Entity .secret → String
  snapshotName : Entity .snapshot → String
  createdAt : Entity .snapshot → ℤ
  compact_marshal : ∀ {k : Kind} {v : Entity k} {data : Bytes},
    marshal v = some data → Json.compact data = some data
  id_unmarshal : ∀ {k : Kind} {v : Entity k} {data : Bytes},
    marshal v = some data → ∃ w, unmarshal k data = some w ∧ id w = id v

/-! ## The file -/

abbrev Bucket := Std.ExtTreeMap String Bytes compare

/-- The buckets of the file by name, and the events handed to `publish` since the store was opened. -/
structure Bolt where
  db : String → Bucket := fun _ => ∅
  published : List StoreEvent := []

/-- The octets of a text. -/
def utf8 (s : String) : Bytes := s.toByteArray.data.toList

def ofUtf8 (text : Bytes) : Option String := String.fromUTF8? ⟨text.toArray⟩

def maxKeySize : ℕ := 32768

def maxValueSize : ℕ := 2147483646

/-- The `Put` of bbolt. -/
def put (b : Bucket) (key : String) (value : Bytes) : Except StoreError Bucket :=
  if (utf8 key).length = 0 then .error .keyRequired
  else if maxKeySize < (utf8 key).length then .error .keyTooLarge
  else if maxValueSize < value.length then .error .valueTooLarge
  else .ok (b.insert key value)

def Bolt.setBucket (s : Bolt) (name : String) (b : Bucket) : Bolt :=
  { s with db := Function.update s.db name b }

def Bolt.publish (s : Bolt) (ev : StoreEvent) : Bolt :=
  { s with published := s.published ++ [ev] }

/-- The ID of the active snapshot, as it stands in the file. -/
def Bolt.activeSnapshotID (s : Bolt) : Option Bytes := (s.db bucketMeta)[metaActiveSnapshot]?

/-- The mode of encryption has to be that of the data in the file. -/
def checkEncryptionMode (cipher : Option Cipher) (s : Bolt) : Except StoreError Bolt :=
  let dataEncrypted := (s.db bucketMeta)[metaEncrypted]? = some (utf8 "true")
  if cipher.isNone ∧ dataEncrypted then
    .error (.failed "data is encrypted but no encryption key is configured" [])
  else if cipher.isSome ∧ ¬dataEncrypted then
    let hasData := [Kind.secret, .snapshot].any fun k => !(s.db k.bucket).isEmpty
    if hasData then
      .error (.failed "data is not encrypted but an encryption key is configured" [])
    else
      (put (s.db bucketMeta) metaEncrypted (utf8 "true")).map (s.setBucket bucketMeta)
  else .ok s

/-- `New` on a file with these buckets; a bucket that the file does not have is created empty. -/
def new (cipher : Option Cipher) (db : String → Bucket) : Except StoreError Bolt :=
  checkEncryptionMode cipher { db }

/-! ## Reads -/

section Reads

variable (S : Schema) (cipher : Option Cipher)

def unmarshal (k : Kind) (data : Bytes) : Except StoreError (S.Entity k) :=
  match S.unmarshal k data with
  | none => .error .json
  | some v => .ok v

def wrapping {α : Type} (format : String) (args : List String) :
    Except StoreError α → Except StoreError α :=
  Except.mapError (.wrap format args)

/-- The lists of the kinds that are kept as they are. -/
def listIn (k : Kind) (noun nouns : String) (s : Bolt) : Except StoreError (List (S.Entity k)) :=
  wrapping ("listing " ++ nouns ++ ": %w") [] <|
    (s.db k.bucket).toList.mapM fun entry =>
      wrapping ("unmarshalling " ++ noun ++ ": %w") [] (unmarshal S k entry.2)

/-- The value under an ID. -/
def lookup (k : Kind) (noun id : String) (s : Bolt) : Except StoreError Bytes :=
  match (s.db k.bucket)[id]? with
  | none => .error (.wrap (noun ++ " %q: %w") [id] .notFound)
  | some v => .ok v

def getIn (k : Kind) (noun id : String) (s : Bolt) : Except StoreError (S.Entity k) := do
  unmarshal S k (← lookup k noun id s)

def listRoutes := listIn S .route "route" "routes"

def getRoute := getIn S .route "route"

def listGroups := listIn S .group "group" "groups"

def getGroup := getIn S .group "group"

def listMiddlewares := listIn S .middleware "filter" "filters"

def getMiddleware := getIn S .middleware "filter"

def listListeners := listIn S .listener "listener" "listeners"

def getListener := getIn S .listener "listener"

def listDestinations := listIn S .destination "destination" "destinations"

def getDestination := getIn S .destination "destination"

/-- The entity of an encrypted value; the error of the decryption is wrapped. -/
def decryptAndUnmarshal (k : Kind) (format : String) (args : List String) (v : Bytes) :
    Except StoreError (S.Entity k) := do
  unmarshal S k (← wrapping format args (decryptValue cipher v))

structure SecretSummary where
  id : String
  name : String
deriving DecidableEq, Repr

/-- The summary of a secret from what its decryption gives. -/
def summarizeSecret (id : String) (plain : Except StoreError Bytes) :
    Except StoreError SecretSummary := do
  let sec ← wrapping "decoding secret %q: %w" [id]
    (unmarshal S .secret (← wrapping "decrypting secret %q: %w" [id] plain))
  return ⟨S.id sec, S.secretName sec⟩

def listSecrets (s : Bolt) : Except StoreError (List SecretSummary) :=
  (s.db Kind.secret.bucket).toList.mapM fun entry =>
    summarizeSecret S entry.1 (decryptValue cipher entry.2)

def getSecret (id : String) (s : Bolt) : Except StoreError (S.Entity .secret) := do
  decryptAndUnmarshal S cipher .secret "decrypting secret %q: %w" [id] (← lookup .secret "secret" id s)

structure SnapshotSummary where
  id : String
  name : String
  createdAt : ℤ
  active : Bool
deriving DecidableEq, Repr

/-- The summary of a snapshot from what its decryption gives. -/
def summarizeSnapshot (activeID : Bytes) (plain : Except StoreError Bytes) :
    Except StoreError SnapshotSummary := do
  let vs ← wrapping "unmarshalling snapshot: %w" []
    (unmarshal S .snapshot (← wrapping "decrypting snapshot: %w" [] plain))
  return ⟨S.id vs, S.snapshotName vs, S.createdAt vs, utf8 (S.id vs) == activeID⟩

def listSnapshots (s : Bolt) : Except StoreError (List SnapshotSummary) :=
  let activeID := s.activeSnapshotID.getD []
  wrapping "listing snapshots: %w" [] <|
    (s.db Kind.snapshot.bucket).toList.mapM fun entry =>
      summarizeSnapshot S activeID (decryptValue cipher entry.2)

def getSnapshot (id : String) (s : Bolt) : Except StoreError (S.Entity .snapshot) := do
  decryptAndUnmarshal S cipher .snapshot "decrypting snapshot %q: %w" [id]
    (← lookup .snapshot "snapshot" id s)

def getActiveSnapshot (s : Bolt) : Except StoreError (S.Entity .snapshot) :=
  match s.activeSnapshotID with
  | none => .error .noActiveSnapshot
  | some activeID =>
    match (ofUtf8 activeID).bind fun id => (s.db Kind.snapshot.bucket)[id]? with
    | none => .error .noActiveSnapshot
    | some v => decryptAndUnmarshal S cipher .snapshot "decrypting active snapshot: %w" [] v

end Reads

/-! ## Writes -/

section Writes

variable (S : Schema) (cipher : Option Cipher) (nonce : Nonce)

/-- What a write returns, and the store after it. -/
abbrev Written := Except StoreError Unit × Bolt

/-- The writes that report every entity as created. -/
def saveIn (k : Kind) (noun : String) (encrypt : Bytes → Bytes) (v : S.Entity k) (s : Bolt) : Written :=
  match S.marshal v with
  | none => (.error (.wrap ("marshalling " ++ noun ++ ": %w") [] .json), s)
  | some data =>
    match put (s.db k.bucket) (S.id v) (encrypt data) with
    | .error e => (.error (.wrap ("saving " ++ noun ++ " %q: %w") [S.id v] e), s)
    | .ok b => (.ok (), (s.setBucket k.bucket b).publish ⟨.created, k, S.id v⟩)

def deleteIn (k : Kind) (noun id : String) (s : Bolt) : Written :=
  match (s.db k.bucket)[id]? with
  | none => (.error (.wrap (noun ++ " %q: %w") [id] .notFound), s)
  | some _ =>
    (.ok (), (s.setBucket k.bucket ((s.db k.bucket).erase id)).publish ⟨.deleted, k, id⟩)

def saveRoute := saveIn S .route "route" id

def deleteRoute := deleteIn .route "route"

def saveGroup := saveIn S .group "group" id

def deleteGroup := deleteIn .group "group"

def saveMiddleware := saveIn S .middleware "filter" id

def deleteMiddleware := deleteIn .middleware "filter"

def saveListener := saveIn S .listener "listener" id

def deleteListener := deleteIn .listener "listener"

def saveDestination := saveIn S .destination "destination" id

def deleteDestination := deleteIn .destination "destination"

/-- The only write that tells a new entity from a replaced one; its errors of `Put` are not wrapped. -/
def saveSecret (sec : S.Entity .secret) (s : Bolt) : Written :=
  let isNew := (s.db Kind.secret.bucket)[S.id sec]?.isNone
  match S.marshal sec with
  | none => (.error (.wrap "encoding secret: %w" [] .json), s)
  | some data =>
    match put (s.db Kind.secret.bucket) (S.id sec) (encryptValue cipher nonce data) with
    | .error e => (.error e, s)
    | .ok b =>
      let evt := if isNew then EventType.created else .updated
      (.ok (), (s.setBucket Kind.secret.bucket b).publish ⟨evt, .secret, S.id sec⟩)

def deleteSecret := deleteIn .secret "secret"

def saveSnapshot := saveIn S .snapshot "snapshot" (encryptValue cipher nonce)

/-- The metadata after the snapshot has been deleted. -/
def clearActive (b : Bucket) (id : String) : Bucket :=
  if b[metaActiveSnapshot]? = some (utf8 id) then b.erase metaActiveSnapshot else b

def deleteSnapshot (id : String) (s : Bolt) : Written :=
  match (s.db Kind.snapshot.bucket)[id]? with
  | none => (.error (.wrap "snapshot %q: %w" [id] .notFound), s)
  | some _ =>
    (.ok (), ((s.setBucket Kind.snapshot.bucket ((s.db Kind.snapshot.bucket).erase id)).setBucket
      bucketMeta (clearActive (s.db bucketMeta) id)).publish ⟨.deleted, .snapshot, id⟩)

def activateSnapshot (id : String) (s : Bolt) : Written :=
  match (s.db Kind.snapshot.bucket)[id]? with
  | none => (.error (.wrap "snapshot %q: %w" [id] .notFound), s)
  | some _ =>
    match put (s.db bucketMeta) metaActiveSnapshot (utf8 id) with
    | .error e => (.error e, s)
    | .ok b => (.ok (), (s.setBucket bucketMeta b).publish ⟨.updated, .snapshot, id⟩)

/-- The write operations of the store interface. -/
inductive Op where
  | save (k : Kind) (v : S.Entity k)
  | delete (k : Kind) (id : String)
  | activate (id : String)

/-- The operation of the bolt store, with the nonce it draws if it encrypts. -/
def Op.run : Op S → Bolt → Written
  | .save .route v => saveRoute S v
  | .save .group v => saveGroup S v
  | .save .middleware v => saveMiddleware S v
  | .save .listener v => saveListener S v
  | .save .destination v => saveDestination S v
  | .save .secret v => saveSecret S cipher nonce v
  | .save .snapshot v => saveSnapshot S cipher nonce v
  | .delete .route id => deleteRoute id
  | .delete .group id => deleteGroup id
  | .delete .middleware id => deleteMiddleware id
  | .delete .listener id => deleteListener id
  | .delete .destination id => deleteDestination id
  | .delete .secret id => deleteSecret id
  | .delete .snapshot id => deleteSnapshot id
  | .activate id => activateSnapshot id

/-- The states of a store that was opened on a new file. -/
inductive Reachable : Bolt → Prop where
  | new {s : Bolt} : new cipher (fun _ => ∅) = .ok s → Reachable s
  | run {s : Bolt} (op : Op S) (nonce : Nonce) : Reachable s → Reachable (op.run S cipher nonce s).2
  | reopen {s s' : Bolt} : Reachable s → Store.new cipher s.db = .ok s' → Reachable s'

end Writes

/-! ## What a write does -/

section Effects

variable {S : Schema} {cipher : Option Cipher} {k : Kind}

/-- Secrets and snapshots are encrypted. -/
def Kind.isSealed : Kind → Bool
  | .secret | .snapshot => true
  | _ => false

/-- The value that is put for the JSON text of an entity. -/
def stored (cipher : Option Cipher) (nonce : Nonce) (k : Kind) (data : Bytes) : Bytes :=
  if k.isSealed then encryptValue cipher nonce data else data

/-- What encryption adds to a text. -/
def overhead (cipher : Option Cipher) (k : Kind) : ℕ :=
  if k.isSealed && cipher.isSome then nonceSize + 16 else 0

theorem length_stored (nonce : Nonce) (data : Bytes) :
    (stored cipher nonce k data).length = data.length + overhead cipher k := by
  unfold stored overhead
  cases k.isSealed with
  | false => rfl
  | true =>
    cases cipher with
    | none => rfl
    | some c =>
      simp only [if_true, encryptValue, Cipher.seal, List.length_append, nonce.property,
        c.length_sealAEAD, Option.isSome_some, Bool.and_self]
      omega

/-- What `Put` accepts. -/
def Fits (key : String) (size : ℕ) : Prop :=
  (utf8 key).length ≠ 0 ∧ (utf8 key).length ≤ maxKeySize ∧ size ≤ maxValueSize

instance (key : String) (size : ℕ) : Decidable (Fits key size) :=
  inferInstanceAs (Decidable (_ ∧ _ ∧ _))

theorem put_of_fits {key : String} {value : Bytes} (h : Fits key value.length) (b : Bucket) :
    put b key value = .ok (b.insert key value) := by
  rw [put, if_neg h.1, if_neg (Nat.not_lt.mpr h.2.1), if_neg (Nat.not_lt.mpr h.2.2)]

theorem put_of_not_fits {key : String} {value : Bytes} (h : ¬Fits key value.length) (b : Bucket) :
    ∃ e, put b key value = .error e := by
  unfold put
  split_ifs with hkey hsize hvalue
  · exact ⟨_, rfl⟩
  · exact ⟨_, rfl⟩
  · exact ⟨_, rfl⟩
  · exact absurd ⟨hkey, Nat.not_lt.mp hsize, Nat.not_lt.mp hvalue⟩ h

/-- The JSON text that a save leaves under the entity's ID, if the save goes through. -/
def saved (cipher : Option Cipher) (v : S.Entity k) : Option Bytes :=
  (S.marshal v).filter fun data => Fits (S.id v) (data.length + overhead cipher k)

theorem saved_eq_some {v : S.Entity k} {data : Bytes} :
    saved cipher v = some data ↔
      S.marshal v = some data ∧ Fits (S.id v) (data.length + overhead cipher k) := by
  rw [saved, Option.filter_eq_some_iff, decide_eq_true_iff]

/-- Every save but that of a secret is a member of the family. -/
theorem run_save_eq_saveIn (hk : k ≠ .secret) (v : S.Entity k) (cipher : Option Cipher)
    (nonce : Nonce) (s : Bolt) :
    ∃ noun, (Op.save k v).run S cipher nonce s = saveIn S k noun (stored cipher nonce k) v s := by
  cases k with
  | secret => exact absurd rfl hk
  | _ => exact ⟨_, rfl⟩

/-- A save whose argument cannot be marshalled fails and writes nothing. -/
theorem run_save_of_marshal_eq_none {v : S.Entity k} (h : S.marshal v = none)
    (cipher : Option Cipher) (nonce : Nonce) (s : Bolt) :
    ∃ e, e.isNotFound = false ∧ (Op.save k v).run S cipher nonce s = (.error e, s) := by
  by_cases hk : k = .secret
  · subst hk
    refine ⟨.wrap "encoding secret: %w" [] .json, rfl, ?_⟩
    rw [Op.run, saveSecret, h]
  · obtain ⟨noun, hrun⟩ := run_save_eq_saveIn hk v cipher nonce s
    refine ⟨.wrap ("marshalling " ++ noun ++ ": %w") [] .json, rfl, ?_⟩
    rw [hrun, saveIn, h]

/-- So does one whose key or value bbolt refuses. -/
theorem run_save_of_saved_eq_none {v : S.Entity k} (h : saved cipher v = none) (nonce : Nonce)
    (s : Bolt) :
    ∃ e, (Op.save k v).run S cipher nonce s = (.error e, s) := by
  cases hdata : S.marshal v with
  | none =>
    obtain ⟨e, -, he⟩ := run_save_of_marshal_eq_none hdata cipher nonce s
    exact ⟨e, he⟩
  | some data =>
    have hfits : ¬Fits (S.id v) (stored cipher nonce k data).length := by
      intro hfits
      rw [length_stored] at hfits
      exact absurd (saved_eq_some.mpr ⟨hdata, hfits⟩) (by rw [h]; exact nofun)
    obtain ⟨e, he⟩ := put_of_not_fits hfits (s.db k.bucket)
    by_cases hk : k = .secret
    · subst hk
      refine ⟨e, ?_⟩
      simp only [Op.run, saveSecret, hdata]
      rw [show encryptValue cipher nonce data = stored cipher nonce .secret data from rfl, he]
    · obtain ⟨noun, hrun⟩ := run_save_eq_saveIn hk v cipher nonce s
      refine ⟨.wrap ("saving " ++ noun ++ " %q: %w") [S.id v] e, ?_⟩
      simp only [hrun, saveIn, hdata, he]

/-- The event of a save: only a secret is ever reported as updated. -/
def saveEvent (k : Kind) (isNew : Bool) : EventType :=
  match k with
  | .secret => if isNew then .created else .updated
  | _ => .created

/-- A save that goes through puts the value under the entity's ID and publishes its event. -/
theorem run_save_eq_of_saved {v : S.Entity k} {data : Bytes} (h : saved cipher v = some data)
    (nonce : Nonce) (s : Bolt) :
    (Op.save k v).run S cipher nonce s =
      (.ok (), (s.setBucket k.bucket
        ((s.db k.bucket).insert (S.id v) (stored cipher nonce k data))).publish
          ⟨saveEvent k (s.db k.bucket)[S.id v]?.isNone, k, S.id v⟩) := by
  obtain ⟨hdata, hfits⟩ := saved_eq_some.mp h
  rw [← length_stored nonce] at hfits
  have hput := put_of_fits hfits (s.db k.bucket)
  by_cases hk : k = .secret
  · subst hk
    simp only [Op.run, saveSecret, hdata]
    rw [show encryptValue cipher nonce data = stored cipher nonce .secret data from rfl, hput]
    rfl
  · obtain ⟨noun, hrun⟩ := run_save_eq_saveIn hk v cipher nonce s
    have hevent (isNew : Bool) : saveEvent k isNew = .created := by
      cases k <;> first | rfl | exact absurd rfl hk
    simp only [hrun, saveIn, hdata, hput, hevent]

theorem run_save_of_saved {v : S.Entity k} {data : Bytes} (h : saved cipher v = some data)
    (nonce : Nonce) (s : Bolt) :
    ∃ ev, (Op.save k v).run S cipher nonce s =
      (.ok (), (s.setBucket k.bucket
        ((s.db k.bucket).insert (S.id v) (stored cipher nonce k data))).publish ev) :=
  ⟨_, run_save_eq_of_saved h nonce s⟩

theorem Kind.bucket_ne_meta (k : Kind) : k.bucket ≠ bucketMeta := by
  cases k <;> decide

/-- The metadata after a delete: only that of a snapshot looks at it. -/
def Kind.metaAfter (k : Kind) (b : Bucket) (id : String) : Bucket :=
  match k with
  | .snapshot => clearActive b id
  | _ => b

section Deletes

variable {id : String} {s : Bolt}

/-- A delete that finds nothing fails. -/
theorem run_delete_of_eq_none (cipher : Option Cipher) (h : (s.db k.bucket)[id]? = none)
    (nonce : Nonce) :
    ∃ noun, (Op.delete k id : Op S).run S cipher nonce s =
      (.error (.wrap (noun ++ " %q: %w") [id] .notFound), s) := by
  have hdelete (noun : String) : deleteIn k noun id s =
      (.error (.wrap (noun ++ " %q: %w") [id] .notFound), s) := by
    rw [deleteIn, h]
  cases k with
  | snapshot => exact ⟨"snapshot", by simp only [Op.run, deleteSnapshot, h]; rfl⟩
  | _ => exact ⟨_, hdelete _⟩

/-- A delete that finds a value erases it and publishes its event. -/
theorem run_delete_of_eq_some {v : Bytes} (h : (s.db k.bucket)[id]? = some v) (nonce : Nonce) :
    (Op.delete k id : Op S).run S cipher nonce s =
      (.ok (), ((s.setBucket k.bucket ((s.db k.bucket).erase id)).setBucket bucketMeta
        (k.metaAfter (s.db bucketMeta) id)).publish ⟨.deleted, k, id⟩) := by
  have hmeta (b : Bucket) : (s.setBucket k.bucket b).setBucket bucketMeta (s.db bucketMeta) =
      s.setBucket k.bucket b := by
    simp only [Bolt.setBucket]
    rw [Function.update_comm k.bucket_ne_meta, Function.update_eq_self]
  have hdelete (noun : String) : deleteIn k noun id s = (.ok (), ((s.setBucket k.bucket
      ((s.db k.bucket).erase id)).setBucket bucketMeta (s.db bucketMeta)).publish ⟨.deleted, k, id⟩) := by
    rw [deleteIn, h, hmeta]
  cases k with
  | snapshot => simp only [Op.run, deleteSnapshot, h, Kind.metaAfter]
  | _ => exact hdelete _

end Deletes

end Effects

/-! ## A small schema -/

def sampleText (v : Bool) : Bytes :=
  utf8 (if v then "\x7b\"id\":\"a\"\x7d" else "\x7b\"id\":\"42\"\x7d")

/-- There are two entities of each kind, and each consists of its ID. -/
def sampleSchema : Schema where
  Entity _ := Bool
  id v := if v then "a" else "42"
  marshal v := some (sampleText v)
  unmarshal _ data := [true, false].find? fun v => sampleText v = data
  secretName _ := ""
  snapshotName _ := ""
  createdAt _ := 0
  compact_marshal := by
    rintro _ v _ ⟨⟩
    cases v <;> decide +kernel
  id_unmarshal := by
    rintro _ v _ ⟨⟩
    exact ⟨v, by cases v <;> decide, rfl⟩

def sampleNonce : Nonce := ⟨List.replicate nonceSize 0, List.length_replicate⟩

end Vrata.Store

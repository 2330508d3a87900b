import Vrata.Store.Bolt

/-!
# The in-memory store

Tests run the control plane on a store that keeps the entities themselves in maps. It has the interface
of the bolt store, but it neither encodes what it is given nor refuses it.
-/

namespace Vrata.Store

open Json (Bytes)

/-! ## The store -/

/-- The entities of each kind by ID, the ID of the active snapshot (none if it is empty), and the events
handed to `publish`. -/
structure Memory (S : Schema) where
  entities : (k : Kind) → Std.ExtTreeMap String (S.Entity k) compare := fun _ => ∅
  activeSnap : String := ""
  published : List StoreEvent := []

namespace Memory

section Operations

variable {S : Schema}

def set (m : Memory S) (k : Kind) (b : Std.ExtTreeMap String (S.Entity k) compare) : Memory S :=
  { m with entities := Function.update m.entities k b }

def publish (m : Memory S) (ev : StoreEvent) : Memory S :=
  { m with published := m.published ++ [ev] }

/-- The lists of the kinds that are listed as they are. A map is ranged over in an order that is not
specified; here it is that of the IDs. -/
def listIn (k : Kind) (m : Memory S) : Except StoreError (List (S.Entity k)) :=
  .ok ((m.entities k).toList.map fun entry => entry.2)

def getIn (k : Kind) (noun id : String) (m : Memory S) : Except StoreError (S.Entity k) :=
  match (m.entities k)[id]? with
  | none => .error (.wrap (noun ++ " %q: %w") [id] .notFound)
  | some v => .ok v

def listRoutes : Memory S → Except StoreError (List (S.Entity .route)) := listIn .route

def getRoute : String → Memory S → Except StoreError (S.Entity .route) := getIn .route "route"

def listGroups : Memory S → Except StoreError (List (S.Entity .group)) := listIn .group

def getGroup : String → Memory S → Except StoreError (S.Entity .group) := getIn .group "group"

def listMiddlewares : Memory S → Except StoreError (List (S.Entity .middleware)) := listIn .middleware

def getMiddleware : String → Memory S → Except StoreError (S.Entity .middleware) :=
  getIn .middleware "filter"

def listListeners : Memory S → Except StoreError (List (S.Entity .listener)) := listIn .listener

def getListener : String → Memory S → Except StoreError (S.Entity .listener) :=
  getIn .listener "listener"

def listDestinations : Memory S → Except StoreError (List (S.Entity .destination)) :=
  listIn .destination

def getDestination : String → Memory S → Except StoreError (S.Entity .destination) :=
  getIn .destination "destination"

def listSecrets (m : Memory S) : Except StoreError (List SecretSummary) :=
  .ok ((m.entities .secret).toList.map fun entry => ⟨S.id entry.2, S.secretName entry.2⟩)

def getSecret : String → Memory S → Except StoreError (S.Entity .secret) := getIn .secret "secret"

def summarize (activeSnap : String) (vs : S.Entity .snapshot) : SnapshotSummary :=
  ⟨S.id vs, S.snapshotName vs, S.createdAt vs, S.id vs == activeSnap⟩

def listSnapshots (m : Memory S) : Except StoreError (List SnapshotSummary) :=
  .ok ((m.entities .snapshot).toList.map fun entry => summarize m.activeSnap entry.2)

def getSnapshot : String → Memory S → Except StoreError (S.Entity .snapshot) :=
  getIn .snapshot "snapshot"

def getActiveSnapshot (m : Memory S) : Except StoreError (S.Entity .snapshot) :=
  if m.activeSnap = "" then .error .noActiveSnapshot
  else
    match (m.entities .snapshot)[m.activeSnap]? with
    | none => .error .noActiveSnapshot
    | some vs => .ok vs

/-- The writes that report every entity as created. -/
def saveIn (k : Kind) (v : S.Entity k) (m : Memory S) : Except StoreError Unit × Memory S :=
  (.ok (), (m.set k ((m.entities k).insert (S.id v) v)).publish ⟨.created, k, S.id v⟩)

def deleteIn (k : Kind) (noun id : String) (m : Memory S) : Except StoreError Unit × Memory S :=
  match (m.entities k)[id]? with
  | none => (.error (.wrap (noun ++ " %q: %w") [id] .notFound), m)
  | some _ => (.ok (), (m.set k ((m.entities k).erase id)).publish ⟨.deleted, k, id⟩)

def saveRoute : S.Entity .route → Memory S → Except StoreError Unit × Memory S := saveIn .route

def deleteRoute : String → Memory S → Except StoreError Unit × Memory S := deleteIn .route "route"

def saveGroup : S.Entity .group → Memory S → Except StoreError Unit × Memory S := saveIn .group

def deleteGroup : String → Memory S → Except StoreError Unit × Memory S := deleteIn .group "group"

def saveMiddleware : S.Entity .middleware → Memory S → Except StoreError Unit × Memory S :=
  saveIn .middleware

def deleteMiddleware : String → Memory S → Except StoreError Unit × Memory S :=
  deleteIn .middleware "filter"

def saveListener : S.Entity .listener → Memory S → Except StoreError Unit × Memory S :=
  saveIn .listener

def deleteListener : String → Memory S → Except StoreError Unit × Memory S :=
  deleteIn .listener "listener"

def saveDestination : S.Entity .destination → Memory S → Except StoreError Unit × Memory S :=
  saveIn .destination

def deleteDestination : String → Memory S → Except StoreError Unit × Memory S :=
  deleteIn .destination "destination"

def saveSecret (sec : S.Entity .secret) (m : Memory S) : Except StoreError Unit × Memory S :=
  let evt := if (m.entities .secret)[S.id sec]?.isNone then EventType.created else .updated
  (.ok (), (m.set .secret ((m.entities .secret).insert (S.id sec) sec)).publish
    ⟨evt, .secret, S.id sec⟩)

def deleteSecret : String → Memory S → Except StoreError Unit × Memory S := deleteIn .secret "secret"

def saveSnapshot : S.Entity .snapshot → Memory S → Except StoreError Unit × Memory S :=
  saveIn .snapshot

def deleteSnapshot (id : String) (m : Memory S) : Except StoreError Unit × Memory S :=
  match (m.entities .snapshot)[id]? with
  | none => (.error (.wrap "snapshot %q: %w" [id] .notFound), m)
  | some _ =>
    let m' := m.set .snapshot ((m.entities .snapshot).erase id)
    (.ok (), { m' with activeSnap := if m.activeSnap = id then "" else m.activeSnap }.publish
      ⟨.deleted, .snapshot, id⟩)

def activateSnapshot (id : String) (m : Memory S) : Except StoreError Unit × Memory S :=
  match (m.entities .snapshot)[id]? with
  | none => (.error (.wrap "snapshot %q: %w" [id] .notFound), m)
  | some _ => (.ok (), { m with activeSnap := id }.publish ⟨.updated, .snapshot, id⟩)

def run : Op S → Memory S → Except StoreError Unit × Memory S
  | .save .route v => saveRoute v
  | .save .group v => saveGroup v
  | .save .middleware v => saveMiddleware v
  | .save .listener v => saveListener v
  | .save .destination v => saveDestination v
  | .save .secret v => saveSecret v
  | .save .snapshot v => saveSnapshot v
  | .delete .route id => deleteRoute id
  | .delete .group id => deleteGroup id
  | .delete .middleware id => deleteMiddleware id
  | .delete .listener id => deleteListener id
  | .delete .destination id => deleteDestination id
  | .delete .secret id => deleteSecret id
  | .delete .snapshot id => deleteSnapshot id
  | .activate id => activateSnapshot id

end Operations

/-! ## What a write does -/

section Effects

variable {S : Schema} {m : Memory S} {k k' : Kind} {key id : String}

theorem run_save (m : Memory S) (v : S.Entity k) :
    m.run (.save k v) = (.ok (), (m.set k ((m.entities k).insert (S.id v) v)).publish
      ⟨saveEvent k (m.entities k)[S.id v]?.isNone, k, S.id v⟩) := by
  cases k <;> rfl

/-- The ID that is kept after a delete: only that of a snapshot looks at it. -/
def activeAfter (k : Kind) (activeSnap id : String) : String :=
  match k with
  | .snapshot => if activeSnap = id then "" else activeSnap
  | _ => activeSnap

/-- A delete fails if it finds nothing, and otherwise erases what it finds. -/
theorem run_delete (m : Memory S) (k : Kind) (id : String) :
    ((m.entities k)[id]? = none ∧ ∃ noun, m.run (.delete k id) =
        (.error (.wrap (noun ++ " %q: %w") [id] .notFound), m)) ∨
      ((m.entities k)[id]? ≠ none ∧ m.run (.delete k id) =
        (.ok (), { m.set k ((m.entities k).erase id) with
          activeSnap := activeAfter k m.activeSnap id }.publish ⟨.deleted, k, id⟩)) := by
  cases hvalue : (m.entities k)[id]? with
  | none =>
    refine .inl ⟨rfl, ?_⟩
    have hdelete (noun : String) : deleteIn k noun id m = (.error (.wrap (noun ++ " %q: %w") [id]
        .notFound), m) := by rw [deleteIn, hvalue]
    cases k with
    | snapshot => exact ⟨"snapshot", by simp only [run, deleteSnapshot, hvalue]; rfl⟩
    | _ => exact ⟨_, hdelete _⟩
  | some v =>
    refine .inr ⟨Option.some_ne_none v, ?_⟩
    have hdelete (noun : String) : deleteIn k noun id m = (.ok (), (m.set k
        ((m.entities k).erase id)).publish ⟨.deleted, k, id⟩) := by rw [deleteIn, hvalue]
    cases k with
    | snapshot => simp only [run, deleteSnapshot, hvalue, activeAfter]
    | _ => exact hdelete _

theorem entities_set_self (b : Std.ExtTreeMap String (S.Entity k) compare) :
    (m.set k b).entities k = b :=
  Function.update_self ..

theorem entities_set_of_ne (h : k' ≠ k) (b : Std.ExtTreeMap String (S.Entity k) compare) :
    (m.set k b).entities k' = m.entities k' :=
  Function.update_of_ne h ..

theorem getElem?_insert_self (v : S.Entity k) :
    ((m.set k ((m.entities k).insert key v)).entities k)[key]? = some v := by
  rw [entities_set_self, Std.ExtTreeMap.getElem?_insert_self]

theorem getElem?_insert_of_ne (h : (k, key) ≠ (k', id)) (v : S.Entity k) :
    ((m.set k ((m.entities k).insert key v)).entities k')[id]? = (m.entities k')[id]? := by
  by_cases hk : k' = k
  · subst hk
    rw [entities_set_self, Std.ExtTreeMap.getElem?_insert, if_neg]
    intro hkey
    exact h (by rw [Std.LawfulEqCmp.eq_of_compare hkey])
  · rw [entities_set_of_ne hk]

theorem getElem?_erase :
    ((m.set k ((m.entities k).erase key)).entities k')[id]? =
      if (k, key) = (k', id) then none else (m.entities k')[id]? := by
  by_cases hk : k' = k
  · subst hk
    rw [entities_set_self, Std.ExtTreeMap.getElem?_erase]
    by_cases hid : key = id
    · simp [hid]
    · simp [hid]
  · rw [entities_set_of_ne hk, if_neg fun h => hk (Prod.mk.inj h).1.symm]

end Effects

end Memory

end Vrata.Store

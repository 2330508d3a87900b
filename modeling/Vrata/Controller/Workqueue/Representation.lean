import Mathlib.Data.List.Induction
import Vrata.Controller.Workqueue
import Vrata.Lib.Distinct

/-!
# What the work queue represents

Reference: `Observe`, `Pop` and `parseSize` of `clients/controller/internal/workqueue/workqueue.go`.

The queue is a slice of items and a map that leads from the name of a batch to its item. They are written
together by `Observe`, which may create an item, and by `Pop`, which may forget a name, and the same name may
come again for another item. `represents` says what both are after any sequence of calls, from the calls
alone: which item a name leads to, what has become of the observations of a batch, and the order in which
items leave.
-/

namespace Vrata.Controller

/-- A call. What the caller's set says about a single route goes with it. -/
inductive QueueCall where
  | observe (ref : RouteRef) (annotations : Annotations) (now : ℤ) (known : Bool)
  | pop
deriving DecidableEq, Repr

namespace Queue

/-- `Observe`. -/
def observe (q : Queue) (ref : RouteRef) (annotations : Annotations) (now : ℤ) (known : Bool) : Queue :=
  match annotations.batch with
  | none => if known then q else { q with items := q.items ++ [.single ref] }
  | some batchName => q.observeMember ref batchName annotations now

def call (q : Queue) : QueueCall → Queue
  | .observe ref annotations now known => q.observe ref annotations now known
  | .pop => q.pop

def run (q : Queue) (calls : List QueueCall) : Queue := calls.foldl call q

theorem run_concat (q : Queue) (calls : List QueueCall) (c : QueueCall) :
    q.run (calls ++ [c]) = (q.run calls).call c :=
  List.foldl_concat ..

/-- The items that a call puts at the end of the queue. -/
def created (q : Queue) (c : QueueCall) : List Item := (q.call c).items.drop q.items.length

/-- The item that a call returns. -/
def returned (q : Queue) : QueueCall → List Item
  | .observe .. => []
  | .pop => q.head.toList

def allCreated (q : Queue) : List QueueCall → List Item
  | [] => []
  | c :: calls => q.created c ++ (q.call c).allCreated calls

def allReturned (q : Queue) : List QueueCall → List Item
  | [] => []
  | c :: calls => q.returned c ++ (q.call c).allReturned calls

end Queue

/-- The sync loop's own queue takes the same calls. -/
theorem SyncQueue.queue_observe (s : SyncQueue) (ref : RouteRef) (a : Annotations) (now : ℤ) :
    (s.observe ref a now).queue = s.queue.observe ref a now (s.knownSingles ref.key) := by
  cases hbatch : a.batch with
  | none => cases hknown : s.knownSingles ref.key <;> simp [SyncQueue.observe, Queue.observe, hbatch, hknown]
  | some name => simp [SyncQueue.observe, Queue.observe, hbatch]

/-! ## What the calls say -/

/-- The route of an observation for a batch, and its size annotation. -/
def QueueCall.observed (name : String) : QueueCall → Option (RouteRef × Option String)
  | .observe ref annotations _ _ =>
    if annotations.batch = some name then some (ref, annotations.batchSize) else none
  | .pop => none

def observations (name : String) (calls : List QueueCall) : List (RouteRef × Option String) :=
  calls.filterMap (QueueCall.observed name)

/-- What the members of a batch are told apart by. -/
def RouteRef.pair (ref : RouteRef) : String × String := (ref.namespace, ref.name)

/-- The routes that differ in namespace or name, as they were observed first. -/
def distinctRoutes (obs : List (RouteRef × Option String)) : List RouteRef :=
  distinctOn RouteRef.pair (obs.map Prod.fst) []

/-- The first size that is not zero, if there is one. -/
def firstSize : List (RouteRef × Option String) → ℤ
  | [] => 0
  | (_, size) :: obs =>
    if (size.map parseSize).getD 0 = 0 then firstSize obs else (size.map parseSize).getD 0

/-- The group of an item has what was observed for its batch since the item was created. -/
def Recorded (calls : List QueueCall) (p : ℕ) (bg : BatchGroup) : Prop :=
  ∃ before c after, calls = before ++ c :: after ∧ Item.batch p ∈ (Queue.new.run before).created c ∧
    bg.members = distinctRoutes (observations bg.name (c :: after)) ∧
    bg.expectedSize = firstSize (observations bg.name (c :: after))

/-- The map leads from the names of the batches in the slice to their items, and no two have one name. -/
structure Queue.Keyed (q : Queue) : Prop where
  byKey_iff : ∀ name p, q.byKey name = some p ↔
    Item.batch p ∈ q.items ∧ q.batchNameOf (.batch p) = some name
  lt_length : ∀ p, Item.batch p ∈ q.items → p < q.groups.length
  nodup : (q.items.filterMap q.batchNameOf).Nodup

/-- What the queue is after these calls. -/
structure Represents (calls : List QueueCall) (q : Queue) : Prop extends q.Keyed where
  recorded : ∀ p, Item.batch p ∈ q.items → ∃ bg, q.groups[p]? = some bg ∧ Recorded calls p bg
  /-- Those that have been returned and those that are still there are all that were created. -/
  fifo : Queue.new.allReturned calls ++ q.items = Queue.new.allCreated calls

/-! ## One more observation -/

theorem distinctRoutes_concat (obs : List (RouteRef × Option String)) (ref : RouteRef)
    (size : Option String) :
    distinctRoutes (obs ++ [(ref, size)]) = distinctRoutes obs ++
      if ref.pair ∈ (distinctRoutes obs).map RouteRef.pair then [] else [ref] := by
  have hlisted : ref.pair ∈ (distinctRoutes obs).map RouteRef.pair ↔
      ref.pair ∈ (obs.map Prod.fst).map RouteRef.pair := by
    rw [distinctRoutes, mem_map_distinctOn, and_iff_left List.not_mem_nil]
  rw [distinctRoutes, List.map_append, List.map_singleton, distinctOn_concat, ← distinctRoutes]
  by_cases h : ref.pair ∈ (obs.map Prod.fst).map RouteRef.pair
  · rw [if_pos (.inr h), if_pos (hlisted.mpr h)]
  · rw [if_neg (fun hor => hor.elim List.not_mem_nil h), if_neg (h ∘ hlisted.mp)]

theorem firstSize_concat (obs : List (RouteRef × Option String)) (ref : RouteRef)
    (size : Option String) :
    firstSize (obs ++ [(ref, size)]) =
      if firstSize obs = 0 then (size.map parseSize).getD 0 else firstSize obs := by
  induction obs with
  | nil => by_cases h : (size.map parseSize).getD 0 = 0 <;> simp [firstSize, h]
  | cons o obs ih =>
    by_cases h : (o.2.map parseSize).getD 0 = 0
    · simp [firstSize, h, ih]
    · simp [firstSize, h]

namespace Queue

/-- What is noted of a member. -/
theorem addMember_spec (ref : RouteRef) (a : Annotations) (now : ℤ) (bg : BatchGroup) :
    (addMember ref a now bg).name = bg.name ∧ (addMember ref a now bg).ready = bg.ready ∧
    (addMember ref a now bg).members = bg.members ++
      (if ref.pair ∈ bg.members.map RouteRef.pair then [] else [ref]) ∧
    (addMember ref a now bg).lastSeen =
      (if ref.pair ∈ bg.members.map RouteRef.pair then bg.lastSeen else now) ∧
    (addMember ref a now bg).expectedSize =
      if bg.expectedSize = 0 then (a.batchSize.map parseSize).getD 0 else bg.expectedSize := by
  have hadd : addMember ref a now bg =
      let sized := { bg with
        expectedSize :=
          if bg.expectedSize = 0 then (a.batchSize.map parseSize).getD 0 else bg.expectedSize }
      if bg.members.any fun m => m.namespace = ref.namespace ∧ m.name = ref.name then sized
      else { sized with members := bg.members ++ [ref], lastSeen := now } := by
    obtain ⟨name, size, members, lastSeen, firstSeen, ready⟩ := bg
    unfold addMember
    cases a.batchSize <;> by_cases hzero : size = 0 <;> simp [hzero]
  have hlisted : (bg.members.any fun m => m.namespace = ref.namespace ∧ m.name = ref.name) = true ↔
      ref.pair ∈ bg.members.map RouteRef.pair := by
    simp [RouteRef.pair]
  rw [hadd]
  by_cases hmem : ref.pair ∈ bg.members.map RouteRef.pair
  · simp only [hlisted.mpr hmem, hmem, if_true, List.append_nil, and_self]
  · simp only [hlisted, hmem, if_false, and_self]

/-! ## What a call can do -/

/-- What a call can do to a queue whose batches have their groups. -/
inductive Change (q : Queue) : QueueCall → Queue → Prop where
  | known (ref : RouteRef) (a : Annotations) (now : ℤ) (batch : a.batch = none) :
    Change q (.observe ref a now true) q
  | single (ref : RouteRef) (a : Annotations) (now : ℤ) (batch : a.batch = none) :
    Change q (.observe ref a now false) { q with items := q.items ++ [.single ref] }
  | join (ref : RouteRef) (a : Annotations) (now : ℤ) (known : Bool) (name : String) (p : ℕ)
      (batch : a.batch = some name) (key : q.byKey name = some p) :
    Change q (.observe ref a now known) { q with groups := q.groups.modify p (addMember ref a now) }
  | create (ref : RouteRef) (a : Annotations) (now : ℤ) (known : Bool) (name : String)
      (batch : a.batch = some name) (key : q.byKey name = none) :
    Change q (.observe ref a now known)
      { items := q.items ++ [.batch q.groups.length]
        byKey := Function.update q.byKey name (some q.groups.length)
        groups := q.groups ++ [addMember ref a now (newGroup name a now)] }
  | empty (items : q.items = []) : Change q .pop q
  | popSingle (ref : RouteRef) (rest : List Item) (items : q.items = .single ref :: rest) :
    Change q .pop { q with items := rest }
  | popBatch (p : ℕ) (rest : List Item) (bg : BatchGroup) (items : q.items = .batch p :: rest)
      (get : q.groups[p]? = some bg) :
    Change q .pop { q with items := rest, byKey := Function.update q.byKey bg.name none }

theorem modify_concat (groups : List BatchGroup) (bg : BatchGroup) (f : BatchGroup → BatchGroup) :
    (groups ++ [bg]).modify groups.length f = groups ++ [f bg] := by
  induction groups with
  | nil => rfl
  | cons first groups ih => simpa using ih

open Change in
theorem change_observe (q : Queue) (ref : RouteRef) (a : Annotations) (now : ℤ) (known : Bool) :
    Change q (.observe ref a now known) (q.observe ref a now known) := by
  cases hbatch : a.batch with
  | none =>
    cases known with
    | true => simpa [observe, hbatch] using known ref a now hbatch
    | false => simpa [observe, hbatch] using single ref a now hbatch
  | some name =>
    cases hkey : q.byKey name with
    | some p =>
      simpa [observe, hbatch, observeMember, groupFor, hkey] using
        join ref a now known name p hbatch hkey
    | none =>
      simpa [observe, hbatch, observeMember, groupFor, hkey, modify_concat] using
        create ref a now known name hbatch hkey

open Change in
theorem change_call {q : Queue} (h : ∀ p, Item.batch p ∈ q.items → p < q.groups.length) (c : QueueCall) :
    Change q c (q.call c) := by
  cases c with
  | observe ref a now known => exact change_observe q ref a now known
  | pop =>
    cases hitems : q.items with
    | nil => simpa [call, pop, hitems] using empty hitems
    | cons item rest =>
      cases item with
      | single ref => simpa [call, pop, hitems, batchNameOf] using popSingle ref rest hitems
      | batch p =>
        obtain ⟨bg, hget⟩ : ∃ bg, q.groups[p]? = some bg :=
          ⟨_, List.getElem?_eq_getElem (h p (by simp [hitems]))⟩
        simpa [call, pop, hitems, batchNameOf, hget] using popBatch p rest bg hitems hget

/-! ## Items and names -/

theorem mem_names {q : Queue} {items : List Item} {name : String} :
    name ∈ items.filterMap q.batchNameOf ↔
      ∃ p, Item.batch p ∈ items ∧ q.batchNameOf (.batch p) = some name := by
  rw [List.mem_filterMap]
  constructor
  · rintro ⟨item, hitem, hname⟩
    cases item with
    | single ref => cases hname
    | batch p => exact ⟨p, hitem, hname⟩
  · rintro ⟨p, hitem, hname⟩
    exact ⟨_, hitem, hname⟩

theorem batchNameOf_modify (q : Queue) (p : ℕ) (ref : RouteRef) (a : Annotations) (now : ℤ) :
    batchNameOf { q with groups := q.groups.modify p (addMember ref a now) } = q.batchNameOf := by
  funext item
  cases item with
  | single ref => rfl
  | batch p' =>
    simp only [batchNameOf, List.getElem?_modify]
    cases q.groups[p']? with
    | none => rfl
    | some bg =>
      by_cases hp : p = p'
      · simp [hp, (addMember_spec ref a now bg).1]
      · simp [hp]

/-- A group at the end leaves the others as they are. -/
theorem batchNameOf_append {q : Queue} {bg : BatchGroup} {items : List Item} {byKey : String → Option ℕ}
    {item : Item} (h : ∀ p, item = .batch p → p < q.groups.length) :
    batchNameOf ⟨items, byKey, q.groups ++ [bg]⟩ item = q.batchNameOf item := by
  cases item with
  | single ref => rfl
  | batch p => simp only [batchNameOf, List.getElem?_append_left (h p rfl)]

theorem keyed_new : Keyed new where
  byKey_iff name p := by simp [new]
  lt_length p hp := by simp [new] at hp
  nodup := List.nodup_nil

theorem Keyed.create {q : Queue} (hq : Keyed q) {name : String} (hkey : q.byKey name = none)
    {bg : BatchGroup} (hbg : bg.name = name) :
    Keyed { items := q.items ++ [.batch q.groups.length]
            byKey := Function.update q.byKey name (some q.groups.length)
            groups := q.groups ++ [bg] } := by
  generalize hq' : (⟨q.items ++ [.batch q.groups.length],
    Function.update q.byKey name (some q.groups.length), q.groups ++ [bg]⟩ : Queue) = q'
  have hnew : q'.batchNameOf (.batch q.groups.length) = some name := by simp [← hq', batchNameOf, hbg]
  have hold : ∀ item ∈ q.items, q'.batchNameOf item = q.batchNameOf item := by
    intro item hitem
    rw [← hq']
    refine batchNameOf_append fun p heq => ?_
    subst heq
    exact hq.lt_length p hitem
  have hmem : ∀ p, Item.batch p ∈ q'.items ↔ Item.batch p ∈ q.items ∨ p = q.groups.length := by
    simp [← hq']
  refine ⟨fun name' p => ?_, fun p hp => ?_, ?_⟩
  · have hkeys : q'.byKey name' = if name' = name then some q.groups.length else q.byKey name' := by
      simp [← hq', Function.update_apply]
    have hq := hq.byKey_iff name' p
    have hold := hold (.batch p)
    rw [hmem, hkeys]
    grind
  · have hlength : q'.groups.length = q.groups.length + 1 := by simp [← hq']
    rw [hlength]
    rcases (hmem p).mp hp with hp | rfl
    · exact Nat.lt_succ_of_lt (hq.lt_length p hp)
    · exact Nat.lt_succ_self _
  · have hnames : q'.items.filterMap q'.batchNameOf = q.items.filterMap q.batchNameOf ++ [name] := by
      have hitems : q'.items = q.items ++ [.batch q.groups.length] := by rw [← hq']
      rw [hitems, List.filterMap_append, List.filterMap_congr hold, List.filterMap_cons_some hnew,
        List.filterMap_nil]
    rw [hnames, List.nodup_append]
    refine ⟨hq.nodup, List.nodup_singleton name, ?_⟩
    rintro name' hname' _ hlast rfl
    obtain rfl := List.mem_singleton.mp hlast
    obtain ⟨p, hp⟩ := mem_names.mp hname'
    rw [(hq.byKey_iff _ p).mpr hp] at hkey
    cases hkey

theorem Keyed.popBatch {q : Queue} (hq : Keyed q) {p : ℕ} {rest : List Item} {bg : BatchGroup}
    (hitems : q.items = .batch p :: rest) (hget : q.groups[p]? = some bg) :
    Keyed { q with items := rest, byKey := Function.update q.byKey bg.name none } := by
  have hname : q.batchNameOf (.batch p) = some bg.name := by simp [batchNameOf, hget]
  have hnodup := hq.nodup
  rw [hitems, List.filterMap_cons_some hname, List.nodup_cons] at hnodup
  refine ⟨fun name' p' => ?_, fun p' hp' => ?_, hnodup.2⟩
  · show Function.update q.byKey bg.name none name' = some p' ↔
      Item.batch p' ∈ rest ∧ q.batchNameOf (.batch p') = some name'
    by_cases heq : name' = bg.name
    · subst heq
      rw [Function.update_self]
      constructor
      · intro h
        cases h
      · intro h
        exact absurd (mem_names.mpr ⟨p', h⟩) hnodup.1
    · rw [Function.update_of_ne heq, hq.byKey_iff, hitems]
      refine and_congr_left fun hget' => ?_
      have hne : p' ≠ p := by
        rintro rfl
        exact heq (Option.some.inj (hget'.symm.trans hname))
      simp [hne]
  · exact hq.lt_length p' (by simp [hitems, hp'])

theorem Keyed.change {q q' : Queue} {c : QueueCall} (hq : Keyed q) (hc : Change q c q') : Keyed q' := by
  cases hc with
  | known => exact hq
  | empty => exact hq
  | single ref a now batch =>
    have hnames :
        (q.items ++ [Item.single ref]).filterMap q.batchNameOf = q.items.filterMap q.batchNameOf := by
      rw [List.filterMap_append]
      exact List.append_nil _
    refine ⟨fun name p => ?_, fun p hp => hq.lt_length p (by simpa using hp), hnames ▸ hq.nodup⟩
    have hkey := hq.byKey_iff name p
    simpa [batchNameOf] using hkey
  | join ref a now known name p batch key =>
    refine ⟨fun name' p' => ?_, fun p' hp' => ?_, ?_⟩
    · rw [batchNameOf_modify]
      exact hq.byKey_iff name' p'
    · rw [List.length_modify]
      exact hq.lt_length p' hp'
    · rw [batchNameOf_modify]
      exact hq.nodup
  | create ref a now known name batch key => exact hq.create key (addMember_spec ref a now _).1
  | popSingle ref rest items =>
    have hnodup := hq.nodup
    rw [items] at hnodup
    refine ⟨fun name p => ?_, fun p hp => hq.lt_length p (by simp [items, hp]), hnodup⟩
    have hkey := hq.byKey_iff name p
    rw [items] at hkey
    simpa [batchNameOf] using hkey
  | popBatch p rest bg items get => exact hq.popBatch items get

theorem keyed_run (calls : List QueueCall) : Keyed (new.run calls) := by
  induction calls using List.reverseRecOn with
  | nil => exact keyed_new
  | append_singleton calls c ih =>
    rw [run_concat]
    exact ih.change (change_call ih.lt_length c)

end Queue

/-! ## Groups -/

theorem observations_concat (name : String) (calls : List QueueCall) (c : QueueCall) :
    observations name (calls ++ [c]) = observations name calls ++ (c.observed name).toList := by
  rw [observations, observations, List.filterMap_append]
  cases hc : c.observed name with
  | none => rw [List.filterMap_cons_none hc]; rfl
  | some o => rw [List.filterMap_cons_some hc]; rfl

/-- A call that does not observe the batch adds nothing. -/
theorem Recorded.quiet {calls : List QueueCall} {p : ℕ} {bg : BatchGroup} (h : Recorded calls p bg)
    {c : QueueCall} (hc : c.observed bg.name = none) : Recorded (calls ++ [c]) p bg := by
  obtain ⟨before, c', after, rfl, hcreated, hmembers, hsize⟩ := h
  have hobs : observations bg.name (c' :: (after ++ [c])) = observations bg.name (c' :: after) := by
    rw [← List.cons_append, observations_concat, hc]
    exact List.append_nil _
  exact ⟨before, c', after ++ [c], by simp, hcreated, by rw [hobs, hmembers], by rw [hobs, hsize]⟩

theorem Recorded.join {calls : List QueueCall} {p : ℕ} {bg : BatchGroup} (h : Recorded calls p bg)
    {a : Annotations} (ha : a.batch = some bg.name) (ref : RouteRef) (now : ℤ) (known : Bool) :
    Recorded (calls ++ [.observe ref a now known]) p (Queue.addMember ref a now bg) := by
  obtain ⟨before, c, after, rfl, hcreated, hmembers, hsize⟩ := h
  obtain ⟨hname, -, hmembers', -, hsize'⟩ := Queue.addMember_spec ref a now bg
  have hobs : observations bg.name (c :: (after ++ [.observe ref a now known])) =
      observations bg.name (c :: after) ++ [(ref, a.batchSize)] := by
    rw [← List.cons_append, observations_concat, QueueCall.observed, if_pos ha]
    rfl
  refine ⟨before, c, after ++ [.observe ref a now known], by simp, hcreated, ?_, ?_⟩
  · rw [hmembers', hname, hobs, distinctRoutes_concat, ← hmembers]
  · rw [hsize', hname, hobs, firstSize_concat, ← hsize]

theorem recorded_create {calls : List QueueCall} {p : ℕ} {a : Annotations} {name : String}
    (ha : a.batch = some name) (ref : RouteRef) (now : ℤ) (known : Bool)
    (hp : Item.batch p ∈ (Queue.new.run calls).created (.observe ref a now known)) :
    Recorded (calls ++ [.observe ref a now known]) p
      (Queue.addMember ref a now (Queue.newGroup name a now)) := by
  obtain ⟨hname, -, hmembers, -, hsize⟩ := Queue.addMember_spec ref a now (Queue.newGroup name a now)
  have hobs : observations name [.observe ref a now known] = [(ref, a.batchSize)] := by
    simp [observations, QueueCall.observed, ha]
  have hnamed : (Queue.newGroup name a now).name = name := rfl
  refine ⟨calls, .observe ref a now known, [], rfl, hp, ?_, ?_⟩
  · rw [hmembers, hname, hnamed, hobs]
    rfl
  · rw [hsize, hname, hnamed, hobs]
    have hfirst : firstSize [(ref, a.batchSize)] = (a.batchSize.map parseSize).getD 0 :=
      (firstSize_concat [] ref a.batchSize).trans (if_pos rfl)
    rw [hfirst]
    exact ite_self _

theorem observed_of_batch_ne {a : Annotations} {name : String} (h : a.batch ≠ some name) (ref : RouteRef)
    (now : ℤ) (known : Bool) : (QueueCall.observe ref a now known).observed name = none :=
  if_neg h

theorem recorded_run (calls : List QueueCall) (p : ℕ) (hp : Item.batch p ∈ (Queue.new.run calls).items) :
    ∃ bg, (Queue.new.run calls).groups[p]? = some bg ∧ Recorded calls p bg := by
  induction calls using List.reverseRecOn generalizing p with
  | nil => cases hp
  | append_singleton calls c ih =>
    have hkeyed := Queue.keyed_run calls
    have hchange := Queue.change_call hkeyed.lt_length c
    have hcreated : (Queue.new.run calls).created c =
        ((Queue.new.run calls).call c).items.drop (Queue.new.run calls).items.length := rfl
    rw [Queue.run_concat] at hp ⊢
    generalize (Queue.new.run calls).call c = q' at hchange hp hcreated ⊢
    -- The name of a batch that is in the queue leads to it.
    have hkey : ∀ {p bg}, Item.batch p ∈ (Queue.new.run calls).items →
        (Queue.new.run calls).groups[p]? = some bg → (Queue.new.run calls).byKey bg.name = some p := by
      intro p bg hitem hget
      exact (hkeyed.byKey_iff bg.name p).mpr ⟨hitem, by simp [Queue.batchNameOf, hget]⟩
    cases hchange with
    | known ref a now batch =>
      obtain ⟨bg, hget, hrec⟩ := ih p hp
      exact ⟨bg, hget, hrec.quiet (observed_of_batch_ne (by simp [batch]) ref now true)⟩
    | single ref a now batch =>
      obtain ⟨bg, hget, hrec⟩ := ih p (by simpa using hp)
      exact ⟨bg, hget, hrec.quiet (observed_of_batch_ne (by simp [batch]) ref now false)⟩
    | join ref a now known name p' batch key =>
      obtain ⟨bg, hget, hrec⟩ := ih p hp
      have hbg := hkey hp hget
      by_cases hname : name = bg.name
      · subst hname
        obtain rfl : p' = p := Option.some.inj (key.symm.trans hbg)
        refine ⟨_, ?_, hrec.join batch ref now known⟩
        simp [hget]
      · have hne : p' ≠ p := by
          rintro rfl
          have hnamed := ((hkeyed.byKey_iff name p').mp key).2
          simp [Queue.batchNameOf, hget] at hnamed
          exact hname hnamed.symm
        refine ⟨bg, ?_, hrec.quiet (observed_of_batch_ne (by simpa [batch] using hname) ref now known)⟩
        simp [hne, hget]
    | create ref a now known name batch key =>
      rcases List.mem_append.mp hp with hold | hnew
      · obtain ⟨bg, hget, hrec⟩ := ih p hold
        have hname : name ≠ bg.name := by
          rintro rfl
          rw [hkey hold hget] at key
          cases key
        refine ⟨bg, ?_, hrec.quiet (observed_of_batch_ne (by simpa [batch] using hname) ref now known)⟩
        rw [List.getElem?_append_left (hkeyed.lt_length p hold), hget]
      · cases List.mem_singleton.mp hnew
        refine ⟨_, List.getElem?_concat_length, recorded_create batch ref now known ?_⟩
        rw [hcreated, List.drop_left]
        exact List.mem_cons_self
    | empty items =>
      obtain ⟨bg, hget, hrec⟩ := ih p hp
      exact ⟨bg, hget, hrec.quiet rfl⟩
    | popSingle ref rest items =>
      obtain ⟨bg, hget, hrec⟩ := ih p (items ▸ List.mem_cons_of_mem _ hp)
      exact ⟨bg, hget, hrec.quiet rfl⟩
    | popBatch p' rest bg' items get =>
      obtain ⟨bg, hget, hrec⟩ := ih p (items ▸ List.mem_cons_of_mem _ hp)
      exact ⟨bg, hget, hrec.quiet rfl⟩

/-! ## The order -/

/-- What a call returns comes off the front, and what it creates goes to the end. -/
theorem Queue.items_change {q q' : Queue} {c : QueueCall} (h : Queue.Change q c q') :
    q.returned c ++ q'.items = q.items ++ q'.items.drop q.items.length := by
  cases h with
  | known => simp [Queue.returned]
  | single => simp [Queue.returned]
  | join => simp [Queue.returned]
  | create => simp [Queue.returned]
  | empty items => simp [Queue.returned, Queue.head, items]
  | popSingle ref rest items => simp [Queue.returned, Queue.head, items]
  | popBatch p rest bg items => simp [Queue.returned, Queue.head, items]

theorem Queue.items_run {q : Queue} (hq : Queue.Keyed q) (calls : List QueueCall) :
    q.allReturned calls ++ (q.run calls).items = q.items ++ q.allCreated calls := by
  induction calls generalizing q with
  | nil => exact (List.append_nil _).symm
  | cons c calls ih =>
    have hchange := Queue.change_call hq.lt_length c
    have hstep : q.returned c ++ (q.call c).items = q.items ++ q.created c := Queue.items_change hchange
    have hrest : (q.call c).allReturned calls ++ (q.run (c :: calls)).items =
        (q.call c).items ++ (q.call c).allCreated calls := ih (hq.change hchange)
    rw [Queue.allReturned, Queue.allCreated, List.append_assoc, hrest, ← List.append_assoc, hstep,
      List.append_assoc]

/-- After every sequence of calls, with any annotations, the queue is what the calls say. -/
theorem represents (calls : List QueueCall) : Represents calls (Queue.new.run calls) where
  toKeyed := Queue.keyed_run calls
  recorded := recorded_run calls
  fifo := Queue.items_run Queue.keyed_new calls

end Vrata.Controller

import Vrata.Proxy.Rings
import Vrata.Proxy.Selection
import Vrata.Proxy.Sticky

/-!
# Pinning clients to destinations

Reference: `server/internal/proxy/pinning.go`, and `pickPinnedPool` of `handler.go`.

A route that pins its clients has a ring with virtual nodes of its destinations, more of them for a
higher weight and at least one. A client belongs to the destination of the first node at or after its
key whose destination is healthy.

`pickValid_firstValid` is this rule, and `pick_stable` says how far it keeps clients where they are when
a weight changes: a key that changes hands goes to the destination that has grown. Since a destination
of weight zero has a node, it is given clients that a choice at random would never give it;
`eligible_iff` says when that does not happen.
-/

namespace Vrata.Proxy

open Server HashRing

/-! ## The ring -/

/-- The digits of a number, the last one first. -/
def itoaDigits (n : ℕ) : List Char :=
  if n = 0 then [] else Nat.digitChar (n % 10) :: itoaDigits (n / 10)

def itoa (n : ℕ) : String :=
  if n < 10 then String.singleton (Nat.digitChar n) else String.ofList (itoaDigits n).reverse

def vnodeMultiplier : ℕ := 100

/-- The number of virtual nodes of a destination. -/
def destinationVnodes (weight : UInt32) : ℕ :=
  if weight.toNat * vnodeMultiplier < 1 then 1 else weight.toNat * vnodeMultiplier

def virtualNode (H : Hashing) (destID : String) (i : ℕ) : RingEntry :=
  ⟨H.crc32 (destID ++ ":" ++ itoa i), destID⟩

def buildDestinationRing (H : Hashing) (dests : List DestinationRef) : List RingEntry :=
  if dests = [] then []
  else H.sort (dests.flatMap fun b =>
    (List.range (destinationVnodes b.weight)).map (virtualNode H b.destinationID))

/-- `Pick` of a destination ring. -/
def pick (ring : List RingEntry) (hashKey : UInt32) : String := (ringSlot ring hashKey).getD ""

/-- The loop of `PickValid`. -/
def pickValidFrom (ring : List RingEntry) (valid : String → Bool) : (fuel idx : ℕ) → String
  | 0, _ => ""
  | fuel + 1, idx =>
    let idx := if ring.length ≤ idx then 0 else idx
    match ring[idx]? with
    | none => ""
    | some e => if valid e.destID then e.destID else pickValidFrom ring valid fuel (idx + 1)

def pickValid (ring : List RingEntry) (hashKey : UInt32) (valid : String → Bool) : String :=
  if ring = [] then ""
  else pickValidFrom ring valid ring.length (ring.findIdx fun e => hashKey ≤ e.hash)

section Ring

variable {H : Hashing} {dests : List DestinationRef} {ring : List RingEntry} {e : RingEntry}

theorem destinationVnodes_pos (weight : UInt32) : 0 < destinationVnodes weight := by
  unfold destinationVnodes
  split <;> omega

theorem mem_buildDestinationRing : e ∈ buildDestinationRing H dests ↔
    ∃ b ∈ dests, ∃ i < destinationVnodes b.weight, virtualNode H b.destinationID i = e := by
  unfold buildDestinationRing
  split
  · rename_i hnil
    simp [hnil]
  · simp only [(H.sort_perm _).mem_iff, List.mem_flatMap, List.mem_map, List.mem_range]

theorem inOrder_buildDestinationRing (H : Hashing) (dests : List DestinationRef) :
    InOrder (buildDestinationRing H dests) := by
  unfold buildDestinationRing
  split
  · exact List.Pairwise.nil
  · exact inOrder_sort H _

/-! ## Lookup with failover -/

/-- The loop goes through the nodes in turn. -/
theorem pickValidFrom_eq (valid : String → Bool) {n idx : ℕ} (hn : n ≤ ring.length)
    (hidx : idx ≤ ring.length) : pickValidFrom ring valid n idx =
      ((((ring.rotate idx).take n).find? fun e => valid e.destID).map RingEntry.destID).getD "" := by
  induction n generalizing idx with
  | zero => rfl
  | succ n ih =>
    -- The index goes back to zero before the node is read.
    have hturn : ring.rotate idx = ring.rotate (if ring.length ≤ idx then 0 else idx) := by
      split
      · rw [le_antisymm hidx ‹_›, List.rotate_length, List.rotate_zero]
      · rfl
    have hlt : (if ring.length ≤ idx then 0 else idx) < ring.length := by split <;> omega
    rw [pickValidFrom, hturn]
    generalize (if ring.length ≤ idx then 0 else idx) = i at hlt
    -- One node is looked at, and the rest are the first nodes of the ring turned once more.
    have hnext : ((ring.rotate i).take (n + 1)) = ring[i] :: ((ring.rotate (i + 1)).take n) := by
      have hlen : n ≤ (ring.drop (i + 1) ++ ring.take i).length := by
        simp only [List.length_append, List.length_drop, List.length_take]
        omega
      rw [List.rotate_eq_drop_append_take hlt.le, List.rotate_eq_drop_append_take hlt,
        List.drop_eq_getElem_cons hlt, List.cons_append, List.take_succ_cons,
        List.take_succ_eq_append_getElem hlt, ← List.append_assoc, List.take_append_of_le_length hlen]
    rw [hnext, List.getElem?_eq_getElem hlt, List.find?_cons]
    dsimp only
    cases hvalid : valid ring[i].destID with
    | true => rfl
    | false => exact ih (by omega) hlt

/-- The first node at or after the key, going around at the end, whose destination is valid. -/
def firstValid (ring : List RingEntry) (key : UInt32) (valid : String → Bool) : Option RingEntry :=
  (nodesFrom ring key).find? fun e => valid e.destID

theorem pickValid_eq (h : InOrder ring) (key : UInt32) (valid : String → Bool) :
    pickValid ring key valid = ((firstValid ring key valid).map RingEntry.destID).getD "" := by
  unfold pickValid firstValid
  split
  · rename_i hnil
    rw [hnil]
    rfl
  · rw [pickValidFrom_eq valid le_rfl List.findIdx_le_length, nodesFrom_eq_rotate h,
      List.take_of_length_le (by rw [List.length_rotate])]

/-- Every destination of the list has a node, so that the ring has a valid node if the list has a valid
destination. -/
theorem firstValid_eq_none (key : UInt32) {valid : String → Bool} :
    firstValid (buildDestinationRing H dests) key valid = none ↔
      ∀ b ∈ dests, valid b.destinationID = false := by
  simp only [firstValid, List.find?_eq_none, nodesFrom, mem_clockwise, mem_buildDestinationRing,
    Bool.not_eq_true]
  constructor
  · exact fun h b hb => h _ ⟨b, hb, 0, destinationVnodes_pos b.weight, rfl⟩
  · rintro h _ ⟨b, hb, i, -, rfl⟩
    exact h b hb

theorem firstValid_eq_some {key : UInt32} {valid : String → Bool}
    (h : firstValid ring key valid = some e) : e ∈ ring ∧ valid e.destID = true := by
  have hvalid := List.find?_some h
  exact ⟨mem_clockwise.mp (List.mem_of_find?_eq_some h), hvalid⟩

/-- A destination that is found stays found when others are not valid any more. -/
theorem firstValid_of_imp {key : UInt32} {valid valid' : String → Bool}
    (hsub : ∀ id, valid' id = true → valid id = true)
    (h : firstValid ring key valid = some e) (he : valid' e.destID = true) :
    firstValid ring key valid' = some e := by
  obtain ⟨-, l, l', heq, hnot⟩ := List.find?_eq_some_iff_append.mp h
  refine List.find?_eq_some_iff_append.mpr ⟨he, l, l', heq, fun a ha => ?_⟩
  have hvalid := hnot a ha
  grind

/-- The key of a node is given to its destination, if the node is not hidden by one of another
destination. -/
theorem pickValid_hash (valid : String → Bool) (h : InOrder ring) (he : e ∈ ring)
    (hvalid : valid e.destID = true) (hapart : ∀ e' ∈ ring, e'.hash = e.hash → e'.destID = e.destID) :
    pickValid ring e.hash valid = e.destID := by
  rw [pickValid_eq h]
  cases hfirst : firstValid ring e.hash valid with
  | none => exact absurd hvalid (List.find?_eq_none.mp hfirst e (mem_clockwise.mpr he))
  | some e' =>
    have hrank := rank_le_iff.mp (rank_le_of_find? h hfirst he hvalid)
    have hhash : e'.hash = e.hash := UInt32.toNat_inj.mp (by omega)
    exact hapart e' (firstValid_eq_some hfirst).1 hhash

/-- `PickValid` gives the destination of the first valid node from the key on, the empty text if there
is none, and a destination that is not valid any more changes only the keys it had. -/
theorem pickValid_firstValid (H : Hashing) (dests : List DestinationRef) (key : UInt32)
    (valid : String → Bool) (hid : ∀ b ∈ dests, valid b.destinationID = true → b.destinationID ≠ "") :
    pickValid (buildDestinationRing H dests) key valid =
        ((firstValid (buildDestinationRing H dests) key valid).map RingEntry.destID).getD "" ∧
      (pickValid (buildDestinationRing H dests) key valid = "" ↔
        ∀ b ∈ dests, valid b.destinationID = false) ∧
      ∀ d, pickValid (buildDestinationRing H dests) key (fun id => valid id && id ≠ d) ≠
          pickValid (buildDestinationRing H dests) key valid →
        pickValid (buildDestinationRing H dests) key valid = d := by
  have hpick := pickValid_eq (inOrder_buildDestinationRing H dests) key
  refine ⟨hpick valid, ?_, fun d hmoved => ?_⟩
  · rw [hpick, ← firstValid_eq_none (H := H) key]
    cases hfirst : firstValid (buildDestinationRing H dests) key valid with
    | none => simp
    | some e =>
      obtain ⟨hmem, hvalid⟩ := firstValid_eq_some hfirst
      obtain ⟨b, hb, i, -, rfl⟩ := mem_buildDestinationRing.mp hmem
      simpa [virtualNode] using hid b hb hvalid
  · by_contra hother
    refine hmoved ?_
    -- The node that was found is still the first valid one, since only `d` is passed over now.
    rw [hpick, hpick]
    cases hfirst : firstValid (buildDestinationRing H dests) key valid with
    | none =>
      have hnone := (firstValid_eq_none key).mp hfirst
      rw [(firstValid_eq_none key).mpr fun b hb => by rw [hnone b hb, Bool.false_and]]
    | some e =>
      have hne : e.destID ≠ d := by simpa [hpick, hfirst] using hother
      have hvalid := (firstValid_eq_some hfirst).2
      rw [firstValid_of_imp (fun id h => (Bool.and_eq_true_iff.mp h).1) hfirst (by simp [hvalid, hne])]

end Ring

/-- The first node behind the key is passed over. Without `c`, which has the next one, `b` is found. -/
theorem pickValid_three :
    pickValid (buildDestinationRing checksums [⟨"a", 0⟩, ⟨"b", 0⟩, ⟨"c", 0⟩]) 3000000000 (· != "a") = "c" :=
  (pickValid_firstValid checksums [⟨"a", 0⟩, ⟨"b", 0⟩, ⟨"c", 0⟩] 3000000000 (· != "a") (by decide)).2.2 "c"
    (by decide +kernel)

/-- A valid destination with the empty ID looks as if none was found. -/
theorem pickValid_empty_id :
    pickValid (buildDestinationRing checksums [⟨"", 0⟩]) 0 (fun _ => true) = "" := by
  decide +kernel

/-! ## Weights that change -/

/-- The second list is the first one in some order, with the weight of `d` raised or with `d` added. -/
def Grown (d : String) (l l' : List DestinationRef) : Prop :=
  ∃ rest w', l'.Perm (⟨d, w'⟩ :: rest) ∧ (l.Perm rest ∨ ∃ w ≤ w', l.Perm (⟨d, w⟩ :: rest))

section Grown

variable {H : Hashing} {d : String} {l l' : List DestinationRef}

theorem destinationVnodes_mono {w w' : UInt32} (h : w ≤ w') :
    destinationVnodes w ≤ destinationVnodes w' := by
  have hle := UInt32.le_iff_toNat_le.mp h
  unfold destinationVnodes vnodeMultiplier
  split <;> split <;> omega

/-- The nodes of the first list are nodes of the second one, and the others belong to `d`. -/
theorem Grown.nodes (h : Grown d l l') :
    (∀ e ∈ buildDestinationRing H l, e ∈ buildDestinationRing H l') ∧
      ∀ e ∈ buildDestinationRing H l', e ∈ buildDestinationRing H l ∨ e.destID = d := by
  -- The destination is new, or its weight has been raised.
  obtain ⟨rest, w', hl', hl | ⟨w, hw, hl⟩⟩ := h
  all_goals
    simp only [mem_buildDestinationRing, hl.mem_iff, hl'.mem_iff, List.mem_cons]
    constructor
  · rintro e ⟨b, hb, hnode⟩
    exact ⟨b, Or.inr hb, hnode⟩
  · rintro e ⟨b, rfl | hb, i, hi, rfl⟩
    · exact Or.inr rfl
    · exact Or.inl ⟨b, hb, i, hi, rfl⟩
  · rintro e ⟨b, rfl | hb, i, hi, rfl⟩
    · exact ⟨_, Or.inl rfl, i, hi.trans_le (destinationVnodes_mono hw), rfl⟩
    · exact ⟨b, Or.inr hb, i, hi, rfl⟩
  · rintro e ⟨b, rfl | hb, i, hi, rfl⟩
    · exact Or.inr rfl
    · exact Or.inl ⟨b, Or.inr hb, i, hi, rfl⟩

end Grown

/-- The order of the destinations does not matter, and a key that changes hands when a destination grows
or is added goes to this destination. -/
theorem pick_stable (H : Hashing) (l' : List DestinationRef) (hapart : Apart (buildDestinationRing H l'))
    (key : UInt32) :
    (∀ l, l.Perm l' → pick (buildDestinationRing H l) key = pick (buildDestinationRing H l') key) ∧
      ∀ d l, Grown d l l' → pick (buildDestinationRing H l) key ≠ pick (buildDestinationRing H l') key →
        pick (buildDestinationRing H l') key = d := by
  have hnew (l : List DestinationRef)
      (hsub : ∀ e ∈ buildDestinationRing H l, e ∈ buildDestinationRing H l') :=
    ringSlot_eq_or_new (inOrder_buildDestinationRing H l) (inOrder_buildDestinationRing H l') hsub
      hapart key
  unfold pick
  constructor
  · intro l hperm
    -- A list in another order has the same nodes, so none of them is new.
    have hmem (e : RingEntry) : e ∈ buildDestinationRing H l ↔ e ∈ buildDestinationRing H l' := by
      simp only [mem_buildDestinationRing, hperm.mem_iff]
    rcases hnew l fun e => (hmem e).mp with ⟨e, he, hnot, -⟩ | heq
    · exact absurd ((hmem e).mpr he) hnot
    · rw [heq]
  · intro d l hgrown hmoved
    obtain ⟨hsub, hother⟩ := hgrown.nodes (H := H)
    rcases hnew l hsub with ⟨e, he, hnot, hslot⟩ | heq
    · rw [hslot, Option.getD_some]
      exact (hother e he).resolve_left hnot
    · rw [heq] at hmoved
      exact absurd rfl hmoved

theorem pick_stable_added :
    pick (buildDestinationRing checksums [⟨"a", 0⟩, ⟨"b", 0⟩]) 3050000000 = "b" :=
  (pick_stable checksums [⟨"a", 0⟩, ⟨"b", 0⟩] (by decide +kernel) 3050000000).2 "b" [⟨"a", 0⟩]
    ⟨[⟨"a", 0⟩], 0, .swap .., .inl (.refl _)⟩ (by decide +kernel)

/-! ## Pinned clients -/

/-- `pickPinnedPool`, for a client that sends `cookie`, with the cookies that are set. -/
def pickPinnedPool {Pool : Type} (H : Hashing) (cfg : Option DestinationPinCookie) (routeID : String)
    (ring : List RingEntry) (healthy : List DestinationRef) (pools : String → Option Pool) (rnd : Random)
    (draw : UInt32) (b : RandomBytes) (cookie : String) : Except Panic (Option Pool × List SetCookie) :=
  let cfg := pinConfig "_vrata_destination_pin" cfg
  let sid := if cookie = "" then generateSessionID b else cookie
  let cookies := if cookie = "" then setCookie ⟨cfg.name, sid, cfg.ttlSeconds⟩ else []
  let validSet := fun id => decide (id ∈ healthy.map DestinationRef.destinationID)
  let destID := pickValid ring (H.crc32 (sid ++ ":" ++ routeID)) validSet
  if destID = "" then (selectDestination healthy pools rnd.intn draw).map (·, cookies)
  else .ok (pools destID, cookies)

/-- A choice at random can give the pool. -/
def Selectable {Pool : Type} (healthy : List DestinationRef) (pools : String → Option Pool) (p : Pool) :
    Prop :=
  ∃ (rnd : Random) (draw : UInt32), selectDestination healthy pools rnd.intn draw = .ok (some p)

section Pinned

variable {Pool : Type} {H : Hashing} {ring : List RingEntry} {healthy : List DestinationRef}
  {pools : String → Option Pool} {p : Pool}

/-- A pinned client is at a healthy destination, or at one that is chosen at random. -/
theorem pickPinnedPool_eq_ok {cfg : Option DestinationPinCookie} {routeID : String} {rnd : Random}
    {draw : UInt32} {b : RandomBytes} {cookie : String} {cookies : List SetCookie}
    (hring : InOrder ring) (h : pickPinnedPool H cfg routeID ring healthy pools rnd draw b cookie =
      .ok (some p, cookies)) :
    (∃ d ∈ healthy, pools d.destinationID = some p) ∨ Selectable healthy pools p := by
  unfold pickPinnedPool at h
  extract_lets cfg sid cookies' validSet destID at h
  split at h
  · right
    refine ⟨rnd, draw, ?_⟩
    cases hselect : selectDestination healthy pools rnd.intn draw <;> simp_all [Except.map]
  · rename_i hfound
    left
    have hpool : pools destID = some p := by simpa using (Prod.ext_iff.mp (Except.ok.inj h)).1
    have hdest : destID = _ := pickValid_eq hring _ _
    cases hfirst : firstValid ring (H.crc32 (sid ++ ":" ++ routeID)) validSet with
    | none => exact absurd (by rw [hdest, hfirst]; rfl) hfound
    | some e =>
      rw [hfirst] at hdest
      obtain ⟨d, hd, hid⟩ := List.mem_map.mp (of_decide_eq_true (firstValid_eq_some hfirst).2)
      exact ⟨d, hd, by rw [hid, ← hpool, hdest]; rfl⟩

theorem selectDestination_of_position {i : ℕ} (hi : i < healthy.length) {rnd : Random} {draw : UInt32}
    (h : selectPosition healthy rnd.intn draw = .ok (some i)) :
    selectDestination healthy pools rnd.intn draw = .ok (pools healthy[i].destinationID) := by
  rw [selectDestination, h]
  simp [hi]

theorem selectable_of_unmixed (hweights : Unmixed healthy) {d : DestinationRef} (hd : d ∈ healthy)
    (hp : pools d.destinationID = some p) : Selectable healthy pools p := by
  obtain ⟨i, hi, rfl⟩ := List.getElem_of_mem hd
  obtain ⟨rnd, draw, hselect⟩ := exists_selectPosition hweights hi
  exact ⟨rnd, draw, hp ▸ selectDestination_of_position hi hselect⟩

/-- Where pools are different, a pool is chosen by its position only. -/
theorem Selectable.exists_position (h : Selectable healthy pools p)
    (hpools : (healthy.map fun d => pools d.destinationID).Nodup) {i : ℕ} (hi : i < healthy.length)
    (hp : pools healthy[i].destinationID = some p) :
    ∃ (rnd : Random) (draw : UInt32), selectPosition healthy rnd.intn draw = .ok (some i) := by
  obtain ⟨rnd, draw, hselect⟩ := h
  refine ⟨rnd, draw, ?_⟩
  rw [selectDestination] at hselect
  cases hposition : selectPosition healthy rnd.intn draw with
  | error panic =>
    rw [hposition] at hselect
    cases hselect
  | ok position =>
    rw [hposition] at hselect
    obtain ⟨d, hd, hpool⟩ := Option.bind_eq_some_iff.mp (Except.ok.inj hselect)
    obtain ⟨j, rfl, hj⟩ := Option.bind_eq_some_iff.mp hd
    obtain ⟨hlt, rfl⟩ := List.getElem?_eq_some_iff.mp hj
    obtain rfl : j = i :=
      (List.getElem?_inj (by simpa using hlt) hpools).mp (by simp [hlt, hi, hp, hpool])
    rfl

/-- A client whose session is the ID of a destination is pinned to this destination on the route `0`: its
key is the text of the first node. -/
theorem pickPinnedPool_own {dests : List DestinationRef} {alive : Pool → Bool} {d : DestinationRef}
    (hapart : Apart (buildDestinationRing H dests)) (hd : d ∈ filterHealthyPools dests pools alive)
    (hid : d.destinationID ≠ "") (rnd : Random) (draw : UInt32) (b : RandomBytes) :
    pickPinnedPool H none "0" (buildDestinationRing H dests) (filterHealthyPools dests pools alive) pools
      rnd draw b d.destinationID = .ok (pools d.destinationID, []) := by
  have hnode : virtualNode H d.destinationID 0 ∈ buildDestinationRing H dests :=
    mem_buildDestinationRing.mpr ⟨d, (List.mem_filter.mp hd).1, 0, destinationVnodes_pos _, rfl⟩
  have hpick := pickValid_hash
    (fun id => decide (id ∈ (filterHealthyPools dests pools alive).map DestinationRef.destinationID))
    (inOrder_buildDestinationRing H dests) hnode (decide_eq_true (List.mem_map_of_mem hd))
    fun e he hhash => hapart e he _ hnode hhash
  have hkey : H.crc32 (d.destinationID ++ ":" ++ "0") = (virtualNode H d.destinationID 0).hash := by
    rw [virtualNode, show itoa 0 = "0" by decide]
  simp only [pickPinnedPool, if_neg hid, hkey, hpick]
  exact if_neg hid

end Pinned

/-- Whatever a client is pinned to, a choice at random among the healthy destinations can give it too. -/
def Eligible {Pool : Type} (H : Hashing) (dests : List DestinationRef) (pools : String → Option Pool)
    (alive : Pool → Bool) : Prop :=
  ∀ cfg routeID rnd draw b cookie p cookies,
    pickPinnedPool H cfg routeID (buildDestinationRing H dests) (filterHealthyPools dests pools alive)
      pools rnd draw b cookie = .ok (some p, cookies) →
    Selectable (filterHealthyPools dests pools alive) pools p

/-- Clients are pinned only to what a choice at random can give if no healthy destination has weight zero
unless all have. Where nodes of different destinations have different hashes and destinations have IDs and
pools of their own, this is also necessary. -/
theorem eligible_iff {Pool : Type} (H : Hashing) (dests : List DestinationRef)
    (pools : String → Option Pool) (alive : Pool → Bool) :
    (Unmixed (filterHealthyPools dests pools alive) → Eligible H dests pools alive) ∧
      (Apart (buildDestinationRing H dests) → pools "" = none →
        ((filterHealthyPools dests pools alive).map fun d => pools d.destinationID).Nodup →
        Eligible H dests pools alive → Unmixed (filterHealthyPools dests pools alive)) := by
  constructor
  · intro hweights _ _ _ _ _ _ p _ h
    rcases pickPinnedPool_eq_ok (inOrder_buildDestinationRing H dests) h with ⟨d, hd, hp⟩ | hselect
    · exact selectable_of_unmixed hweights hd hp
    · exact hselect
  · intro hapart hempty hpools h
    refine unmixed_of_selectPosition fun i hi => ?_
    have hd := List.getElem_mem hi
    obtain ⟨p, hp, -⟩ := (Option.any_eq_true _ _).mp (List.mem_filter.mp hd).2
    have hid : (filterHealthyPools dests pools alive)[i].destinationID ≠ "" := by
      intro hnil
      rw [hnil, hempty] at hp
      cases hp
    have hpinned := pickPinnedPool_own hapart hd hid ⟨fun _ => 0, fun _ h => h⟩ 0 (.replicate 16 0)
    rw [hp] at hpinned
    exact (h _ _ _ _ _ _ _ _ hpinned).exists_position hpools hi hp

theorem eligible_zero_weights : Eligible checksums [⟨"a", 0⟩, ⟨"b", 0⟩] some fun _ => true :=
  (eligible_iff checksums [⟨"a", 0⟩, ⟨"b", 0⟩] some fun _ => true).1 (Or.inl (by decide))

/-- All traffic is meant for the first destination. -/
def drained : List DestinationRef := [⟨"a", 100⟩, ⟨"b", 0⟩]

/-- Hashes by the first character. -/
def byFirst : Hashing :=
  .sorting (fun s => if s.toList.head? = some 'a' then 100 else 5) fun _ => (0, 0)

/-- The API accepts the weights 100 and 0, and whatever the hashes are, if they keep the two destinations
apart, clients are pinned to the one with weight zero, which is never chosen at random. -/
theorem pinned_to_zero_weight :
    validateRouteAction ⟨"r", "r", {}, some ⟨drained, none⟩, none, none, []⟩ = .ok () ∧
      Apart (buildDestinationRing byFirst drained) ∧
      ∀ H, Apart (buildDestinationRing H drained) → ¬Eligible H drained some fun _ => true := by
  refine ⟨by decide, ?_, fun H hapart h => ?_⟩
  · intro e he e' he' hhash
    obtain ⟨b, hb, i, -, rfl⟩ := mem_buildDestinationRing.mp he
    obtain ⟨b', hb', i', -, rfl⟩ := mem_buildDestinationRing.mp he'
    rcases List.mem_pair.mp hb with rfl | rfl <;> rcases List.mem_pair.mp hb' with rfl | rfl
    · rfl
    · simp [virtualNode, byFirst, Hashing.sorting] at hhash
    · simp [virtualNode, byFirst, Hashing.sorting] at hhash
    · rfl
  have hb : (⟨"b", 0⟩ : DestinationRef) ∈ filterHealthyPools drained some fun _ => true := by decide
  have hpinned := pickPinnedPool_own hapart hb (by decide) ⟨fun _ => 0, fun _ h => h⟩ 0 (.replicate 16 0)
  obtain ⟨rnd, draw, hselect⟩ : Selectable drained some "b" := h _ _ _ _ _ _ _ _ hpinned
  -- Every draw lies below the weight of `a`.
  have hr : draw % 100 < 100 := UInt32.mod_lt _ (by decide)
  have htotal : totalWeight drained = 100 := rfl
  have hposition : selectPosition drained rnd.intn draw = .ok (some 0) := by
    rw [selectPosition_of_many (by decide) (by decide), htotal, if_neg (by decide)]
    simp [positionFor, walk, drained, hr]
  rw [selectDestination_of_position (by decide) hposition] at hselect
  exact absurd hselect (by decide)

end Vrata.Proxy

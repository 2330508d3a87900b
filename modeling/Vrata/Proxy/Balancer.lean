import Mathlib.Data.Nat.Prime.Basic
import Mathlib.Data.Int.GCD
import Mathlib.Data.List.Dedup
import Mathlib.Data.List.Sort
import Vrata.Lib.Distinct
import Vrata.Proxy.Endpoint

/-!
# Endpoint balancers

Reference: `server/internal/proxy/balancer.go`, and `buildBalancer` of `endpoint.go`.

A balancer chooses among the healthy endpoints of a pool. Ring hash and maglev look a hash up in a
table that is built once, from all endpoints of the pool; the others only read the endpoints they are
given. The tables rest on `crc32`, `md5` and `sort.Slice`, which `Hashing` stands for: any functions
of these types, and any sorted arrangement, since the sort is not stable.

Building a maglev table need not end. Every destination walks through the table with its own stride
until it meets a free slot, and a stride that has a factor in common with the size of the table never
meets some of the slots. `probe` gives up after as many steps as the table has slots, when the walk
has come back to where it started; `probe_eq_none_iff` says that it then goes on forever. For a prime
size, which the documentation asks for, the table is built (`exists_maglevTable`).
-/

namespace Vrata.Proxy

open Server

/-! ## What the balancers work with -/

/-- A resolved address with its health. -/
structure Endpoint where
  host : String
  port : UInt32
  healthy : Bool
deriving DecidableEq, Repr

def Endpoint.id (ep : Endpoint) : String := ep.host ++ ":" ++ toString ep.port.toNat

theorem Endpoint.id_ne_empty (ep : Endpoint) : ep.id ≠ "" := by
  intro h
  have hl := congrArg String.toList h
  simp [Endpoint.id] at hl

/-- The ID tells host and port: the last colon is between the two. -/
theorem Endpoint.eq_of_id {ep ep' : Endpoint} (hid : ep.id = ep'.id) (hhealthy : ep.healthy = ep'.healthy) :
    ep = ep' := by
  have hcolon (n : ℕ) : ':' ∉ (toString n).toList := fun h => by
    simpa using Text.isDigit_of_mem_toString h
  obtain ⟨hhost, hport⟩ := Text.append_singleton_inj_right (hcolon _) (hcolon _) hid
  cases ep
  cases ep'
  obtain rfl : _ = _ := hhost
  obtain rfl : _ = _ := UInt32.toNat_inj.mp (Text.toString_injective hport)
  obtain rfl : _ = _ := hhealthy
  rfl

structure RingEntry where
  hash : UInt32
  destID : String
deriving DecidableEq, Repr

/-- The hash functions and the sort. `md5` gives the two halves of the digest. -/
structure Hashing where
  crc32 : String → UInt32
  md5 : String → UInt64 × UInt64
  sort : List RingEntry → List RingEntry
  sort_perm : ∀ l, (sort l).Perm l
  sort_sorted : ∀ l, (sort l).Pairwise fun a b => a.hash ≤ b.hash

/-- The order of the sort. -/
def byHash (a b : RingEntry) : Prop := a.hash ≤ b.hash

instance : DecidableRel byHash := fun a b => inferInstanceAs (Decidable (a.hash ≤ b.hash))
instance : Std.Total byHash := ⟨fun _ _ => UInt32.le_total _ _⟩
instance : IsTrans RingEntry byHash := ⟨fun _ _ _ => UInt32.le_trans⟩

/-- The given hash functions, with a sort that is stable. -/
def Hashing.sorting (crc32 : String → UInt32) (md5 : String → UInt64 × UInt64) : Hashing where
  crc32 := crc32
  md5 := md5
  sort := List.insertionSort byHash
  sort_perm := List.perm_insertionSort byHash
  sort_sorted := List.pairwise_insertionSort byHash

/-! `crc32.ChecksumIEEE`, for examples. -/

def crcBit (c : UInt32) : UInt32 := if c &&& 1 = 1 then (0xEDB88320 : UInt32) ^^^ (c >>> 1) else c >>> 1

def crcByte (c : UInt32) (b : UInt8) : UInt32 := (List.range 8).foldl (fun c _ => crcBit c) (c ^^^ b.toUInt32)

def checksumIEEE (text : String) : UInt32 :=
  text.toByteArray.data.toList.foldl crcByte 0xFFFFFFFF ^^^ 0xFFFFFFFF

/-- Rings with checksums as they are. -/
def checksums : Hashing := .sorting checksumIEEE fun _ => (0, 0)

/-- The answers of `rand.Intn`. -/
structure Random where
  intn : ℕ → ℕ
  intn_lt : ∀ n, 0 < n → intn n < n

/-- The endpoint with an ID in the map made from a list of endpoints. -/
def lookup (endpoints : List Endpoint) (id : String) : Option Endpoint :=
  endpoints.reverse.find? fun ep => ep.id = id

/-- A random value of the map, which has one for every ID. -/
def pickRandomEndpoint (rnd : Random) (endpoints : List Endpoint) : Option Endpoint :=
  let keys := (endpoints.map Endpoint.id).dedup
  keys[rnd.intn keys.length]?.bind (lookup endpoints)

/-! ## Ring hash -/

/-- `NewRingHashBalancer`. -/
def newRingSize (minSize maxSize : ℤ) : ℕ :=
  let minSize := if minSize ≤ 0 then 1024 else minSize
  let maxSize := if maxSize ≤ 0 then 8388608 else maxSize
  (if maxSize < minSize then maxSize else minSize).toNat

/-- How many entries of the ring a destination gets. -/
def vnodes (ringSize n : ℕ) : ℕ := if ringSize / n < 1 then 1 else ringSize / n

/-- `Build` of a ring. -/
def buildRing (H : Hashing) (ringSize : ℕ) (dests : List DestinationRef) : List RingEntry :=
  H.sort (dests.flatMap fun d => (List.range (vnodes ringSize dests.length)).map fun i =>
    ⟨H.crc32 (d.destinationID ++ ":" ++ toString i), d.destinationID⟩)

/-- The ID at the first entry that is not below the hash, going around at the end. -/
def ringSlot (ring : List RingEntry) (h : UInt32) : Option String :=
  let idx := ring.findIdx fun e => h ≤ e.hash
  (ring[if ring.length ≤ idx then 0 else idx]?).map RingEntry.destID

section Ring

variable {H : Hashing} {size : ℕ} {dests : List DestinationRef}

theorem mem_buildRing {e : RingEntry} : e ∈ buildRing H size dests ↔ ∃ d ∈ dests,
    ∃ i < vnodes size dests.length,
      ⟨H.crc32 (d.destinationID ++ ":" ++ toString i), d.destinationID⟩ = e := by
  simp only [buildRing, (H.sort_perm _).mem_iff, List.mem_flatMap, List.mem_map, List.mem_range]

theorem length_buildRing_pos (h : dests ≠ []) : 0 < (buildRing H size dests).length := by
  obtain ⟨d, hd⟩ := List.exists_mem_of_ne_nil dests h
  have hvnodes : 0 < vnodes size dests.length := by
    unfold vnodes
    split <;> omega
  exact List.length_pos_of_mem (mem_buildRing.mpr ⟨d, hd, 0, hvnodes, rfl⟩)

/-- A hash always falls on one of the destinations. -/
theorem exists_ringSlot (hd : dests ≠ []) (h : UInt32) :
    ∃ d ∈ dests, ringSlot (buildRing H size dests) h = some d.destinationID := by
  have hpos : 0 < (buildRing H size dests).length := length_buildRing_pos hd
  have hmem : ∀ e ∈ buildRing H size dests, ∃ d ∈ dests, e.destID = d.destinationID := by
    intro e he
    obtain ⟨d, hd, i, _, rfl⟩ := mem_buildRing.mp he
    exact ⟨d, hd, rfl⟩
  generalize buildRing H size dests = ring at hpos hmem ⊢
  have hlt : (if ring.length ≤ ring.findIdx (fun e => h ≤ e.hash) then 0
      else ring.findIdx fun e => h ≤ e.hash) < ring.length := by
    split <;> omega
  obtain ⟨d, hd, hid⟩ := hmem _ (List.getElem_mem hlt)
  refine ⟨d, hd, ?_⟩
  rw [ringSlot, List.getElem?_eq_getElem hlt, Option.map_some, hid]

end Ring

/-! ## Maglev -/

/-- `NewMaglevBalancer`. -/
def newMaglevSize (tableSize : ℤ) : ℕ := if tableSize ≤ 0 then 65537 else tableSize.toNat

/-- Walk from `c` on to the first free slot, for as many steps as `fuel` allows. -/
def probe (table : List (Option ℕ)) (skip : ℕ) : (fuel : ℕ) → (c : ℕ) → Option ℕ
  | 0, _ => none
  | fuel + 1, c =>
    if table[c]? = some none then some c else probe table skip fuel ((c + skip) % table.length)

/-- The table with free slots marked `none`, and the slot each destination looks at next. -/
structure MaglevLoop where
  table : List (Option ℕ)
  next : List ℕ

/-- Where a destination starts, and how far apart the slots it looks at are. -/
def maglevOffset (H : Hashing) (size : ℕ) (d : DestinationRef) : ℕ :=
  (H.md5 d.destinationID).1.toNat % size

def maglevSkip (H : Hashing) (size : ℕ) (d : DestinationRef) : ℕ :=
  (H.md5 d.destinationID).2.toNat % (size - 1) + 1

/-- Fill the `k`-th slot to be filled: destinations take turns. There is no result when the walk goes
on forever. -/
def fillSlot (H : Hashing) (dests : List DestinationRef) (st : MaglevLoop) (k : ℕ) :
    Option MaglevLoop := do
  let i := k % dests.length
  let d ← dests[i]?
  let size := st.table.length
  let c ← probe st.table (maglevSkip H size d) size (st.next[i]?.getD 0)
  return ⟨st.table.set c (some i), st.next.set i ((c + maglevSkip H size d) % size)⟩

inductive BuildFailure where
  | divideByZero
  | endless
deriving DecidableEq, Repr

/-- `Build` of a maglev table. -/
def maglevTable (H : Hashing) (size : ℕ) (dests : List DestinationRef) :
    Except BuildFailure (List (Option ℕ)) :=
  if dests = [] then .ok []
  else if size - 1 = 0 then .error .divideByZero
  else
    match (List.range size).foldlM (fillSlot H dests)
      ⟨List.replicate size none, dests.map (maglevOffset H size)⟩ with
    | some st => .ok st.table
    | none => .error .endless

section Maglev

variable {H : Hashing} {size skip : ℕ} {dests : List DestinationRef} {table : List (Option ℕ)}

/-- The walk visits `c`, `c + skip`, `c + 2 * skip` and so on. -/
theorem probe_eq_some {fuel c c' : ℕ} (h : probe table skip fuel c = some c') :
    table[c']? = some none := by
  induction fuel generalizing c with
  | zero => cases h
  | succ fuel ih =>
    rw [probe] at h
    split at h
    · rename_i hfree
      obtain rfl : c = c' := Option.some.inj h
      exact hfree
    · exact ih h

theorem probe_eq_none_iff {fuel c : ℕ} (hc : c < table.length) :
    probe table skip fuel c = none ↔
      ∀ j < fuel, table[(c + j * skip) % table.length]? ≠ some none := by
  induction fuel generalizing c with
  | zero => simp [probe]
  | succ fuel ih =>
    have hlt : (c + skip) % table.length < table.length := Nat.mod_lt _ (by omega)
    have hshift : ∀ j, ((c + skip) % table.length + j * skip) % table.length =
        (c + (j + 1) * skip) % table.length := by
      intro j
      rw [Nat.mod_add_mod, Nat.succ_mul]
      congr 1
      omega
    rw [probe]
    constructor
    · intro h j hj
      split at h
      · cases h
      · rename_i hfree
        rcases j with _ | j
        · rwa [Nat.zero_mul, Nat.add_zero, Nat.mod_eq_of_lt hc]
        · rw [← hshift]
          exact (ih hlt).mp h j (by omega)
    · intro h
      have hfree := h 0 (by omega)
      rw [Nat.zero_mul, Nat.add_zero, Nat.mod_eq_of_lt hc] at hfree
      rw [if_neg hfree, ih hlt]
      intro j hj
      rw [hshift]
      exact h (j + 1) (by omega)

/-- After as many steps as there are slots the walk is back where it started: if it has met no free
slot by then, it never does. -/
theorem probe_endless {c : ℕ} (hc : c < table.length)
    (h : probe table skip table.length c = none) (j : ℕ) :
    table[(c + j * skip) % table.length]? ≠ some none := by
  have hpos : 0 < table.length := by omega
  have hperiod : (c + j * skip) % table.length =
      (c + j % table.length * skip) % table.length := by
    simp only [Nat.add_mod, Nat.mul_mod, Nat.mod_mod]
  rw [hperiod]
  exact (probe_eq_none_iff hc).mp h _ (Nat.mod_lt _ hpos)

/-- A stride without a factor in common with the size leads to every slot. -/
theorem exists_step_of_coprime {c f : ℕ} (hcop : Nat.Coprime skip size) (hc : c < size)
    (hf : f < size) : ∃ j < size, (c + j * skip) % size = f := by
  obtain ⟨m, hlt, hm⟩ := Nat.exists_mul_mod_eq_of_coprime (f + size - c) hcop (by omega)
  refine ⟨m, hlt, ?_⟩
  calc (c + m * skip) % size = (c + skip * m % size) % size := by
        rw [Nat.add_mod_mod, Nat.mul_comm m skip]
    _ = (c + (f + size - c)) % size := by rw [hm, Nat.add_mod_mod]
    _ = (f + size) % size := by congr 1; omega
    _ = f := by rw [Nat.add_mod_right, Nat.mod_eq_of_lt hf]

/-- After `k` slots have been filled. -/
structure Filled (n size k : ℕ) (st : MaglevLoop) : Prop where
  length_table : st.table.length = size
  length_next : st.next.length = n
  next_lt : ∀ c ∈ st.next, c < size
  free : st.table.countP (·.isNone) = size - k
  dest_lt : ∀ i, some i ∈ st.table → i < n

theorem filled_start (hsize : 0 < size) : Filled dests.length size 0
    ⟨List.replicate size none, dests.map (maglevOffset H size)⟩ where
  length_table := List.length_replicate
  length_next := List.length_map _
  next_lt := by
    intro c hc
    obtain ⟨d, _, rfl⟩ := List.mem_map.mp hc
    exact Nat.mod_lt _ hsize
  free := by simp [List.countP_replicate]
  dest_lt i hi := by simp at hi

theorem fillSlot_eq_some {k : ℕ} {st st' : MaglevLoop} (h : fillSlot H dests st k = some st') :
    ∃ d c, dests[k % dests.length]? = some d ∧
      probe st.table (maglevSkip H st.table.length d) st.table.length
        (st.next[k % dests.length]?.getD 0) = some c ∧
      st' = ⟨st.table.set c (some (k % dests.length)),
        st.next.set (k % dests.length) ((c + maglevSkip H st.table.length d) % st.table.length)⟩ := by
  simp only [fillSlot, Option.bind_eq_bind, Option.bind_eq_some_iff, Option.pure_def,
    Option.some.injEq] at h
  obtain ⟨d, hd, c, hprobe, rfl⟩ := h
  exact ⟨d, c, hd, hprobe, rfl⟩

/-- What every slot that is filled preserves holds after any number of slots. -/
theorem fillSlot_induction {P : ℕ → MaglevLoop → Prop}
    (hstart : P 0 ⟨List.replicate size none, dests.map (maglevOffset H size)⟩)
    (hstep : ∀ k st st', P k st → fillSlot H dests st k = some st' → P (k + 1) st') {k : ℕ}
    {st : MaglevLoop} (h : (List.range k).foldlM (fillSlot H dests)
      ⟨List.replicate size none, dests.map (maglevOffset H size)⟩ = some st) : P k st := by
  induction k generalizing st with
  | zero =>
    obtain rfl := Option.some.inj h
    exact hstart
  | succ k ih =>
    rw [List.range_succ, List.foldlM_append, Option.bind_eq_bind, Option.bind_eq_some_iff] at h
    obtain ⟨st', hst', hlast⟩ := h
    exact hstep k st' st (ih hst') (by simpa using hlast)

theorem Filled.fillSlot {k : ℕ} {st st' : MaglevLoop} (h : Filled dests.length size k st)
    (hfill : fillSlot H dests st k = some st') : Filled dests.length size (k + 1) st' := by
  obtain ⟨d, c, hd, hprobe, rfl⟩ := fillSlot_eq_some hfill
  have hfree := probe_eq_some hprobe
  obtain ⟨hc, hnone⟩ := List.getElem?_eq_some_iff.mp hfree
  have hi : k % dests.length < dests.length := (List.getElem?_eq_some_iff.mp hd).1
  refine ⟨by simpa using h.length_table, by simpa using h.length_next, ?_, ?_, ?_⟩
  · intro c' hc'
    rcases List.mem_or_eq_of_mem_set hc' with hc' | rfl
    · exact h.next_lt c' hc'
    · rw [h.length_table] at hc ⊢
      exact Nat.mod_lt _ (by omega)
  · rw [List.countP_set hc, hnone, h.free]
    simp only [Option.isNone_none, Option.isNone_some, if_true, Bool.false_eq_true, if_false]
    omega
  · intro j hj
    rcases List.mem_or_eq_of_mem_set hj with hj | hj
    · exact h.dest_lt j hj
    · obtain rfl : j = k % dests.length := Option.some.inj hj
      exact hi

theorem filled_range {k : ℕ} {st : MaglevLoop} (hsize : 0 < size)
    (h : (List.range k).foldlM (fillSlot H dests)
      ⟨List.replicate size none, dests.map (maglevOffset H size)⟩ = some st) :
    Filled dests.length size k st :=
  fillSlot_induction (filled_start hsize) (fun _ _ _ => Filled.fillSlot) h

theorem maglevTable_eq_ok (hdests : dests ≠ []) (h : maglevTable H size dests = .ok table) :
    1 < size ∧ ∃ st : MaglevLoop, st.table = table ∧ (List.range size).foldlM (fillSlot H dests)
      ⟨List.replicate size none, dests.map (maglevOffset H size)⟩ = some st := by
  rw [maglevTable, if_neg hdests] at h
  split at h
  · cases h
  · rename_i hsize
    split at h
    · rename_i st hst
      exact ⟨by omega, st, Except.ok.inj h, hst⟩
    · cases h

/-- A table that has been built has a destination in every slot. -/
theorem maglevTable_full (hdests : dests ≠ []) (h : maglevTable H size dests = .ok table) :
    table.length = size ∧ 1 < size ∧ ∀ o ∈ table, ∃ i < dests.length, o = some i := by
  obtain ⟨hsize, st, rfl, hst⟩ := maglevTable_eq_ok hdests h
  have hfilled := filled_range (by omega) hst
  refine ⟨hfilled.length_table, hsize, fun o ho => ?_⟩
  have hnone : st.table.countP (·.isNone) = 0 := by rw [hfilled.free, Nat.sub_self]
  cases o with
  | none =>
    have hsome := List.countP_eq_zero.mp hnone none ho
    simp at hsome
  | some i => exact ⟨i, hfilled.dest_lt i ho, rfl⟩

/-- A prime size has no factor in common with a stride. -/
theorem coprime_maglevSkip (H : Hashing) (hprime : size.Prime) (d : DestinationRef) :
    (maglevSkip H size d).Coprime size := by
  have hsize := hprime.two_le
  have hmod := Nat.mod_lt (H.md5 d.destinationID).2.toNat (by omega : 0 < size - 1)
  have hlt : maglevSkip H size d < size := by
    unfold maglevSkip
    omega
  refine Nat.coprime_comm.mp ((Nat.Prime.coprime_iff_not_dvd hprime).mpr fun hdvd => ?_)
  exact absurd (Nat.le_of_dvd (by unfold maglevSkip; omega) hdvd) (by omega)

/-- With such a stride, a destination finds a free slot as long as there is one. -/
theorem Filled.exists_fillSlot {k : ℕ} {st : MaglevLoop} (h : Filled dests.length size k st)
    (hcop : ∀ d ∈ dests, (maglevSkip H size d).Coprime size) (hdests : dests ≠ []) (hk : k < size) :
    ∃ st', Proxy.fillSlot H dests st k = some st' := by
  have hi : k % dests.length < dests.length := Nat.mod_lt _ (List.length_pos_iff.mpr hdests)
  have hnext : k % dests.length < st.next.length := by rwa [h.length_next]
  have hnextlt : st.next[k % dests.length] < size := h.next_lt _ (List.getElem_mem hnext)
  have hlen := h.length_table
  set d := dests[k % dests.length]
  have hskip := hcop d (List.getElem_mem hi)
  obtain ⟨c, hc⟩ : ∃ c, probe st.table (maglevSkip H size d) size
      st.next[k % dests.length] = some c := by
    rw [← Option.isSome_iff_exists, Option.isSome_iff_ne_none, ne_eq, ← hlen,
      probe_eq_none_iff (by omega), hlen]
    -- there is a free slot, and the walk leads to it
    have hcount : 0 < st.table.countP (·.isNone) := by
      rw [h.free]
      omega
    obtain ⟨o, ho, hfree⟩ := List.countP_pos_iff.mp hcount
    obtain rfl : o = none := by simpa using hfree
    obtain ⟨f, hf, hfnone⟩ := List.getElem_of_mem ho
    obtain ⟨j, hj, hstep⟩ := exists_step_of_coprime hskip hnextlt (by omega : f < size)
    intro hall
    refine hall j hj ?_
    rw [hstep, List.getElem?_eq_getElem hf, hfnone]
  refine ⟨⟨st.table.set c (some (k % dests.length)),
    st.next.set (k % dests.length) ((c + maglevSkip H size d) % size)⟩, ?_⟩
  simp [Proxy.fillSlot, List.getElem?_eq_getElem hi, List.getElem?_eq_getElem hnext, hlen, hc, d]

/-- With such strides the table is built. -/
theorem exists_maglevTable (hsize : 1 < size)
    (hcop : ∀ d ∈ dests, (maglevSkip H size d).Coprime size) :
    ∃ table, maglevTable H size dests = .ok table := by
  by_cases hdests : dests = []
  · exact ⟨[], by rw [maglevTable, if_pos hdests]⟩
  have hall : ∀ k ≤ size, ∃ st, (List.range k).foldlM (fillSlot H dests)
      ⟨List.replicate size none, dests.map (maglevOffset H size)⟩ = some st := by
    intro k
    induction k with
    | zero => exact fun _ => ⟨_, rfl⟩
    | succ k ih =>
      intro hk
      obtain ⟨st, hst⟩ := ih (by omega)
      obtain ⟨st', hst'⟩ := (filled_range (by omega) hst).exists_fillSlot hcop hdests hk
      refine ⟨st', ?_⟩
      rw [List.range_succ, List.foldlM_append, hst]
      simpa using hst'
  obtain ⟨st, hst⟩ := hall size le_rfl
  exact ⟨st.table, by rw [maglevTable, if_neg hdests, if_neg (by omega), hst]⟩

end Maglev

/-- The ID in the slot of a hash; there is none if the table cannot be used. -/
def maglevSlot (table : List (Option ℕ)) (dests : List String) (h : UInt32) :
    Except Panic (Option String) :=
  if table = [] ∨ dests = [] then .ok none
  else if table.length.toUInt32 = 0 then .error .divideByZero
  else
    match table[(h % table.length.toUInt32).toNat]? with
    | some (some idx) => .ok dests[idx]?
    | _ => .ok none

/-- A hash falls on one of the destinations, unless the length of the table is lost when it is made
a 32-bit number. -/
theorem exists_maglevSlot {H : Hashing} {size : ℕ} {dests : List DestinationRef}
    {table : List (Option ℕ)} (hdests : dests ≠ []) (hbuilt : maglevTable H size dests = .ok table)
    (hsize : size.toUInt32 ≠ 0) (h : UInt32) :
    ∃ d ∈ dests, maglevSlot table (dests.map DestinationRef.destinationID) h =
      .ok (some d.destinationID) := by
  obtain ⟨hlen, hlt, hfull⟩ := maglevTable_full hdests hbuilt
  have htable : table ≠ [] := by
    rintro rfl
    simp at hlen
    omega
  have hidx : (h % table.length.toUInt32).toNat < table.length := by
    have hle : table.length.toUInt32.toNat ≤ table.length := by
      rw [Nat.toUInt32_eq, UInt32.toNat_ofNat']
      exact Nat.mod_le _ _
    have hmod : (h % table.length.toUInt32).toNat < table.length.toUInt32.toNat := by
      rw [UInt32.toNat_mod]
      refine Nat.mod_lt _ (Nat.pos_of_ne_zero fun hzero => hsize ?_)
      rw [hlen] at hzero
      exact UInt32.toNat_inj.mp hzero
    omega
  obtain ⟨i, hi, hslot⟩ := hfull _ (List.getElem_mem hidx)
  refine ⟨dests[i], List.getElem_mem hi, ?_⟩
  rw [maglevSlot, if_neg (by simp [htable, hdests]), if_neg (hlen ▸ hsize),
    List.getElem?_eq_getElem hidx, hslot]
  simp [List.getElem?_eq_getElem hi]

/-! ## The balancers -/

/-- The balancers, with the tables of those that have one. -/
inductive Balancer where
  | roundRobin
  | leastRequest
  | random
  | ringHash (ring : List RingEntry)
  | maglev (table : List (Option ℕ)) (dests : List String)

/-- What the balancers change: the position of round robin and the counts of least request. -/
structure BalancerState where
  counter : UInt64
  inflight : String → Int64

/-- The loop of least request: the destination with the smallest count below `bestCount`. -/
def fewest (inflight : String → Int64) (dests : List DestinationRef) (best : String)
    (bestCount : Int64) : String :=
  (dests.foldl (fun acc d =>
    if inflight d.destinationID < acc.2 then (d.destinationID, inflight d.destinationID) else acc)
    (best, bestCount)).1

/-- `PickByHash` of the balancers that have one. -/
def Balancer.pickByHash (rnd : Random) (endpoints : List Endpoint) (h : UInt32) :
    Balancer → Except Panic (Option Endpoint)
  | .ringHash ring =>
    match ringSlot ring h with
    | some id => .ok (lookup endpoints id)
    | none => .ok (pickRandomEndpoint rnd endpoints)
  | .maglev table dests => do
    match ← maglevSlot table dests h with
    | some id => return lookup endpoints id
    | none => return pickRandomEndpoint rnd endpoints
  | _ => .ok none

/-- `Pick`, given the hash of the request. -/
def Balancer.pick (rnd : Random) (st : BalancerState) (dests : List DestinationRef)
    (endpoints : List Endpoint) (h : UInt32) (b : Balancer) :
    Except Panic (Option Endpoint × BalancerState) :=
  match b with
  | .roundRobin =>
    if dests = [] then .ok (none, st)
    else
      let counter := st.counter + 1
      let d := dests[counter.toNat % dests.length]?
      .ok (d.bind fun d => lookup endpoints d.destinationID, { st with counter := counter })
  | .leastRequest =>
    let best := fewest st.inflight dests "" Int64.maxValue
    if best = "" then .ok (none, st)
    else
      .ok (lookup endpoints best,
        { st with inflight := Function.update st.inflight best (st.inflight best + 1) })
  | .random =>
    if dests = [] then .ok (none, st)
    else
      let d := dests[rnd.intn dests.length]?
      .ok (d.bind fun d => lookup endpoints d.destinationID, st)
  | .ringHash ring => ((Balancer.ringHash ring).pickByHash rnd endpoints h).map fun ep => (ep, st)
  | .maglev table ids => ((Balancer.maglev table ids).pickByHash rnd endpoints h).map
      fun ep => (ep, st)

theorem fewest_eq_or_mem (inflight : String → Int64) (dests : List DestinationRef) (best : String)
    (bestCount : Int64) : fewest inflight dests best bestCount = best ∨
      fewest inflight dests best bestCount ∈ dests.map DestinationRef.destinationID := by
  induction dests generalizing best bestCount with
  | nil => exact Or.inl rfl
  | cons d dests ih =>
    unfold fewest
    rw [List.foldl_cons, List.map_cons, List.mem_cons]
    split
    · rcases ih d.destinationID (inflight d.destinationID) with h | h
      · exact Or.inr (Or.inl h)
      · exact Or.inr (Or.inr h)
    · rcases ih best bestCount with h | h
      · exact Or.inl h
      · exact Or.inr (Or.inr h)

/-- A destination is chosen if and only if one has a count below the bound. -/
theorem fewest_mem_iff {inflight : String → Int64} {dests : List DestinationRef} {best : String}
    {bestCount : Int64} (hbest : best ∉ dests.map DestinationRef.destinationID) :
    fewest inflight dests best bestCount ∈ dests.map DestinationRef.destinationID ↔
      ∃ d ∈ dests, inflight d.destinationID < bestCount := by
  induction dests with
  | nil => simp
  | cons d dests ih =>
    rw [List.map_cons, List.mem_cons, not_or] at hbest
    unfold fewest
    rw [List.foldl_cons]
    split
    · rename_i hlt
      refine iff_of_true ?_ ⟨d, List.mem_cons_self, hlt⟩
      rw [List.map_cons, List.mem_cons]
      exact fewest_eq_or_mem inflight dests d.destinationID (inflight d.destinationID)
    · rename_i hge
      have hne : fewest inflight dests best bestCount ≠ d.destinationID ∨
          fewest inflight dests best bestCount ∈ dests.map DestinationRef.destinationID := by
        rcases fewest_eq_or_mem inflight dests best bestCount with h | h
        · exact Or.inl fun heq => hbest.1 (h.symm.trans heq)
        · exact Or.inr h
      have htail : fewest inflight dests best bestCount ∈
          (d :: dests).map DestinationRef.destinationID ↔
          fewest inflight dests best bestCount ∈ dests.map DestinationRef.destinationID := by
        rw [List.map_cons, List.mem_cons]
        constructor
        · rintro (h | h)
          · exact hne.resolve_left (not_not.mpr h)
          · exact h
        · exact Or.inr
      refine htail.trans ((ih hbest.2).trans ?_)
      constructor
      · rintro ⟨e, he, hlt⟩
        exact ⟨e, List.mem_cons_of_mem d he, hlt⟩
      · rintro ⟨e, he, hlt⟩
        rcases List.mem_cons.mp he with rfl | he
        · exact absurd hlt hge
        · exact ⟨e, he, hlt⟩

end Vrata.Proxy

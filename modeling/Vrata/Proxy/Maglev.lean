import Vrata.Lib.Turns
import Vrata.Proxy.Pool

/-!
# Maglev tables

Reference: `MaglevBalancer.Build` of `server/internal/proxy/balancer.go`, and `buildBalancer` of
`endpoint.go`.

The API takes any size of a table. `fills_iff_prime` says that a table is built whatever the endpoints
and their hashes are exactly if its size is prime: a table of size one is a division by zero, and a
stride that divides the size leaves slots free that it never comes to. `balanced_of_prime` says that the
endpoints then share the slots evenly.
-/

namespace Vrata.Proxy

open Server

/-- The size of the table of a destination. -/
def maglevSize (eb : EndpointBalancing) : ℕ := newMaglevSize (sizeOr eb.tableSize 65537)

/-- `Build` ends, and every slot of the table has one of the destinations. -/
def Fills (H : Hashing) (size : ℕ) (dests : List DestinationRef) : Prop :=
  ∃ table, maglevTable H size dests = .ok table ∧ table.length = size ∧
    ∀ o ∈ table, ∃ i < dests.length, o = some i

section Maglev

variable {H : Hashing} {size p k : ℕ} {dests : List DestinationRef} {st st' : MaglevLoop}

theorem fills_of_prime (hprime : size.Prime) (hne : dests ≠ []) : Fills H size dests := by
  obtain ⟨table, hbuilt⟩ := exists_maglevTable hprime.one_lt fun d _ => coprime_maglevSkip H hprime d
  obtain ⟨hlen, -, hfull⟩ := maglevTable_full hne hbuilt
  exact ⟨table, hbuilt, hlen, hfull⟩

/-! ## Sizes that are not prime -/

/-- Only every `p`-th slot is in use. -/
structure Striped (p size : ℕ) (st : MaglevLoop) : Prop where
  length_table : st.table.length = size
  dvd_next : ∀ c ∈ st.next, p ∣ c
  free : ∀ c < size, ¬p ∣ c → st.table[c]? = some none

/-- A stride that is a multiple of `p` leads from a multiple of `p` to others only. -/
theorem dvd_of_probe {table : List (Option ℕ)} {skip fuel c c' : ℕ} (hskip : p ∣ skip)
    (hlen : p ∣ table.length) (hc : p ∣ c) (h : probe table skip fuel c = some c') : p ∣ c' := by
  induction fuel generalizing c with
  | zero => cases h
  | succ fuel ih =>
    rw [probe] at h
    split at h
    · exact Option.some.inj h ▸ hc
    · exact ih ((Nat.dvd_mod_iff hlen).mpr (hc.add hskip)) h

theorem Striped.fillSlot (hdvd : p ∣ size) (hskip : ∀ d ∈ dests, p ∣ maglevSkip H size d)
    (h : Striped p size st) (hfill : fillSlot H dests st k = some st') : Striped p size st' := by
  obtain ⟨d, c, hd, hprobe, rfl⟩ := fillSlot_eq_some hfill
  rw [h.length_table] at hprobe
  have hstride := hskip d (List.mem_of_getElem? hd)
  have hstart : p ∣ st.next[k % dests.length]?.getD 0 := by
    cases hnext : st.next[k % dests.length]? with
    | none => exact dvd_zero p
    | some c => exact h.dvd_next c (List.mem_of_getElem? hnext)
  -- The slot that is taken is a multiple of `p`, and so is the one where the next probe starts.
  have hc := dvd_of_probe hstride (h.length_table ▸ hdvd) hstart hprobe
  refine ⟨by simpa using h.length_table, fun c' hc' => ?_, fun c' hlt hnot => ?_⟩
  · rcases List.mem_or_eq_of_mem_set hc' with hold | rfl
    · exact h.dvd_next c' hold
    · rw [h.length_table]
      exact (Nat.dvd_mod_iff hdvd).mpr (hc.add hstride)
  · have hother : c ≠ c' := fun heq => hnot (heq ▸ hc)
    rw [List.getElem?_set_ne hother, h.free c' hlt hnot]

/-- Endpoints whose strides and starting points have a factor in common with the size never fill the
table. -/
theorem not_fills_of_dvd (hp : p ≠ 1) (hdvd : p ∣ size) (hne : dests ≠ [])
    (hskip : ∀ d ∈ dests, p ∣ maglevSkip H size d) (hoffset : ∀ d ∈ dests, p ∣ maglevOffset H size d) :
    ¬Fills H size dests := by
  rintro ⟨table, hbuilt, -, hfull⟩
  obtain ⟨hsize, st, rfl, hst⟩ := maglevTable_eq_ok hne hbuilt
  have hstart : Striped p size ⟨List.replicate size none, dests.map (maglevOffset H size)⟩ := by
    refine ⟨List.length_replicate, by simpa using hoffset, fun c hc _ => ?_⟩
    rw [List.getElem?_replicate_of_lt hc]
  have hstriped := fillSlot_induction (P := fun _ => Striped p size) hstart
    (fun _ _ _ => Striped.fillSlot hdvd hskip) hst
  -- Slot 1 is no multiple of `p`.
  obtain ⟨i, -, hsome⟩ := hfull none (List.mem_of_getElem? (hstriped.free 1 hsize (by simpa using hp)))
  cases hsome

/-- Hashes with which every endpoint starts at the first slot and has the same stride. -/
def strided (skip : ℕ) : Hashing := .sorting (fun _ => 0) fun _ => (0, .ofNat (skip - 1))

theorem maglevSize_lt (eb : EndpointBalancing) : maglevSize eb < 2 ^ 64 := by
  have hsize := eb.tableSize.toInt64.toInt_lt
  unfold maglevSize newMaglevSize sizeOr
  split <;> split <;> omega

end Maglev

/-- A table of the configured size is built for all endpoints and hashes exactly if the size is
prime. -/
theorem fills_iff_prime (eb : EndpointBalancing) :
    (∀ (H : Hashing) (dests : List DestinationRef), dests ≠ [] → Fills H (maglevSize eb) dests) ↔
      (maglevSize eb).Prime := by
  refine ⟨fun h => ?_, fun hprime H dests hne => fills_of_prime hprime hne⟩
  have hmax := maglevSize_lt eb
  generalize maglevSize eb = size at h hmax
  by_contra hcomposite
  let p := size.minFac
  have hfills := h (strided p) [⟨"a", 1⟩] (by simp)
  have hsize : 1 < size := by
    obtain ⟨table, hbuilt, -⟩ := hfills
    exact (maglevTable_full (by simp) hbuilt).2.1
  have hlt : p < size := (Nat.not_prime_iff_minFac_lt hsize).mp hcomposite
  have hpos : 0 < p := Nat.minFac_pos size
  -- the divisor itself is a stride
  have hskip : maglevSkip (strided p) size ⟨"a", 1⟩ = p := by
    have hmd5 : (UInt64.ofNat (p - 1)).toNat = p - 1 := by
      rw [UInt64.toNat_ofNat', Nat.mod_eq_of_lt (by omega)]
    change (UInt64.ofNat (p - 1)).toNat % (size - 1) + 1 = p
    rw [hmd5, Nat.mod_eq_of_lt (by omega)]
    omega
  have hoffset : maglevOffset (strided p) size ⟨"a", 1⟩ = 0 := Nat.zero_mod size
  refine not_fills_of_dvd (p := p) ?_ (Nat.minFac_dvd size) (by simp) ?_ ?_ hfills
  · exact fun hone => hsize.ne' (Nat.minFac_eq_one_iff.mp hone)
  · simp [hskip]
  · simp [hoffset]

/-- A destination with a table of size one panics when it is built. -/
theorem table_of_one_panics : buildBalancer (strided 1) (some ⟨.maglev, 0, 0, 1⟩)
    (endpointRefs [⟨"10.0.0.1", 80, true⟩]) = .error .divideByZero := by
  rfl

/-! ## Balance -/

section Balance

variable {H : Hashing} {size k i : ℕ} {dests : List DestinationRef} {st st' : MaglevLoop}

theorem count_fillSlot (h : fillSlot H dests st k = some st') :
    st'.table.count (some i) = st.table.count (some i) + if k % dests.length = i then 1 else 0 := by
  obtain ⟨d, c, -, hprobe, rfl⟩ := fillSlot_eq_some h
  obtain ⟨hc, hnone⟩ := List.getElem?_eq_some_iff.mp (probe_eq_some hprobe)
  rw [List.count_set hc, hnone]
  simp

/-- The destinations take turns. -/
theorem count_range (hst : (List.range k).foldlM (fillSlot H dests)
      ⟨List.replicate size none, dests.map (maglevOffset H size)⟩ = some st) :
    st.table.count (some i) = Nat.count (fun k => k % dests.length = i) k := by
  refine fillSlot_induction (P := fun k st => st.table.count (some i) = Nat.count _ k) ?_ ?_ hst
  · simp [List.count_replicate]
  · intro k st st' ih hfill
    rw [count_fillSlot hfill, ih, Nat.count_succ]

end Balance

/-- With a prime size every slot has a destination, and two destinations have the same number of slots
up to one. -/
theorem balanced_of_prime (H : Hashing) (size : ℕ) (hprime : size.Prime) (dests : List DestinationRef)
    (hne : dests ≠ []) : ∃ table, maglevTable H size dests = .ok table ∧ table.length = size ∧
      (∀ o ∈ table, ∃ i < dests.length, o = some i) ∧
      ∀ i < dests.length, ∀ j < dests.length, table.count (some i) ≤ table.count (some j) + 1 := by
  obtain ⟨table, hbuilt, hlen, hfull⟩ : Fills H size dests := fills_of_prime hprime hne
  refine ⟨table, hbuilt, hlen, hfull, fun i hi j hj => ?_⟩
  obtain ⟨-, st, rfl, hst⟩ := maglevTable_eq_ok hne hbuilt
  rw [count_range hst, count_range hst]
  simpa only [Nat.zero_add] using Turns.count_le hi hj 0 size

theorem balanced_two_of_three : ∃ table, maglevTable (strided 2) 3 [⟨"a", 1⟩, ⟨"b", 1⟩] = .ok table ∧
    table.count (some 0) ≤ table.count (some 1) + 1 := by
  obtain ⟨table, hbuilt, -, -, hcount⟩ :=
    balanced_of_prime (strided 2) 3 Nat.prime_three [⟨"a", 1⟩, ⟨"b", 1⟩] (by simp)
  exact ⟨table, hbuilt, hcount 0 (by simp) 1 (by simp)⟩

end Vrata.Proxy

import Vrata.Lib.HashRing
import Vrata.Proxy.Balancer

/-!
# Rings of virtual nodes

Reference: `RingHashBalancer` of `server/internal/proxy/balancer.go`.

A ring that loses an endpoint should move only the keys of this endpoint. The ring of the balancer has a
fixed size, which its endpoints share: when one leaves, the others get more nodes, and a new node takes
keys that another endpoint had. `consistent_of_vnodes` says when there are no new nodes, or no other endpoint.
-/

namespace Vrata.Proxy

open Server HashRing

/-! ## Lookup -/

/-- The nodes are in the order of their hashes. -/
def InOrder (ring : List RingEntry) : Prop := ring.Pairwise fun a b => a.hash.toNat ≤ b.hash.toNat

/-- Nodes of different destinations have different hashes. -/
def Apart (ring : List RingEntry) : Prop :=
  ∀ e ∈ ring, ∀ e' ∈ ring, e.hash = e'.hash → e.destID = e'.destID

instance (ring : List RingEntry) : Decidable (Apart ring) :=
  inferInstanceAs (Decidable (∀ e ∈ ring, ∀ e' ∈ ring, _))

/-- The nodes of a ring in the order in which they are met from a key on. -/
def nodesFrom (ring : List RingEntry) (key : UInt32) : List RingEntry :=
  clockwise (fun e => e.hash.toNat) ring key.toNat

section Lookup

variable {ring : List RingEntry}

theorem inOrder_sort (H : Hashing) (l : List RingEntry) : InOrder (H.sort l) :=
  (H.sort_sorted l).imp UInt32.le_iff_toNat_le.mp

theorem nodesFrom_eq_rotate (h : InOrder ring) (key : UInt32) :
    nodesFrom ring key = ring.rotate (ring.findIdx fun e => key ≤ e.hash) := by
  simpa only [nodesFrom, UInt32.le_iff_toNat_le] using clockwise_eq_rotate h key.toNat

theorem ringSlot_eq_owner (h : InOrder ring) (key : UInt32) :
    ringSlot ring key = owner (fun e => e.hash.toNat) RingEntry.destID ring key.toNat := by
  have hrotate := nodesFrom_eq_rotate h key
  rw [nodesFrom] at hrotate
  rw [owner, hrotate, ringSlot]
  have hle : ring.findIdx (fun e => key ≤ e.hash) ≤ ring.length := List.findIdx_le_length
  -- After the last node the lookup starts again, and a rotation by the whole length is none.
  split
  · rw [le_antisymm hle ‹_›, List.rotate_length, List.head?_eq_getElem?]
  · rw [List.head?_rotate (by omega)]

/-- In a ring with more nodes a key belongs to a new node, or to the same destination. -/
theorem ringSlot_eq_or_new {ring' : List RingEntry} (h : InOrder ring) (h' : InOrder ring')
    (hsub : ∀ e ∈ ring, e ∈ ring') (hapart : Apart ring') (key : UInt32) :
    (∃ e ∈ ring', e ∉ ring ∧ ringSlot ring' key = some e.destID) ∨
      ringSlot ring key = ringSlot ring' key := by
  rw [ringSlot_eq_owner h, ringSlot_eq_owner h']
  exact owner_eq_or_new h h' hsub (fun a ha b hb heq => hapart a ha b hb (UInt32.toNat_inj.mp heq)) _

end Lookup

/-! ## The ring of endpoints -/

/-- The endpoints without the one that leaves. -/
def without (id : String) (dests : List DestinationRef) : List DestinationRef :=
  dests.filter fun d => d.destinationID ≠ id

/-- Only keys of the endpoint that leaves change hands. -/
def Consistent (H : Hashing) (size : ℕ) (dests : List DestinationRef) (id : String) : Prop :=
  ∀ key, ringSlot (buildRing H size (without id dests)) key ≠ ringSlot (buildRing H size dests) key →
    ringSlot (buildRing H size dests) key = some id

section Endpoints

variable {H : Hashing} {size : ℕ} {dests : List DestinationRef} {id : String}

theorem vnodes_le_without (hne : without id dests ≠ []) :
    vnodes size dests.length ≤ vnodes size (without id dests).length := by
  have hpos := List.length_pos_iff.mpr hne
  have hlen : (without id dests).length ≤ dests.length := List.length_filter_le ..
  -- Fewer endpoints share the size, so that each has no fewer nodes.
  have hdiv : size / dests.length ≤ size / (without id dests).length := Nat.div_le_div_left hlen hpos
  unfold vnodes
  split <;> split <;> omega

/-- The nodes of the endpoints that stay are all there again. -/
theorem mem_buildRing_without {e : RingEntry} (he : e ∈ buildRing H size dests) (hid : e.destID ≠ id) :
    e ∈ buildRing H size (without id dests) := by
  obtain ⟨d, hd, i, hi, rfl⟩ := mem_buildRing.mp he
  have hmem : d ∈ without id dests := List.mem_filter.mpr ⟨hd, decide_eq_true hid⟩
  exact mem_buildRing.mpr ⟨d, hmem, i, hi.trans_le (vnodes_le_without (List.ne_nil_of_mem hmem)), rfl⟩

/-- Where the endpoints that stay have as many nodes as before, there is no new node. -/
theorem mem_buildRing_of_vnodes (hvnodes : vnodes size (without id dests).length = vnodes size dests.length)
    {e : RingEntry} (he : e ∈ buildRing H size (without id dests)) : e ∈ buildRing H size dests := by
  obtain ⟨d, hd, i, hi, rfl⟩ := mem_buildRing.mp he
  exact mem_buildRing.mpr ⟨d, (List.mem_filter.mp hd).1, i, hvnodes ▸ hi, rfl⟩

/-- Only keys of the endpoint that leaves change hands if the others keep their number of nodes (as they do
if it was not there), or if at most one endpoint is left. -/
theorem consistent_of_vnodes (H : Hashing) (size : ℕ) (dests : List DestinationRef) (id : String)
    (hapart : Apart (buildRing H size dests))
    (h : vnodes size (without id dests).length = vnodes size dests.length ∨
      ∀ d ∈ without id dests, ∀ d' ∈ without id dests, d.destinationID = d'.destinationID) :
    Consistent H size dests id := by
  intro key hmoved
  rcases h with hvnodes | hone
  · -- A key that moves was at a node that is gone, and only nodes of the endpoint that leaves are gone.
    rcases ringSlot_eq_or_new (inOrder_sort H _) (inOrder_sort H _)
      (fun e => mem_buildRing_of_vnodes hvnodes) hapart key with ⟨e, he, hgone, hslot⟩ | hsame
    · have hid : e.destID = id := by
        by_contra hid
        exact hgone (mem_buildRing_without he hid)
      rw [← hid]
      exact hslot
    · exact absurd hsame hmoved
  · have hdests : dests ≠ [] := by
      rintro rfl
      exact hmoved rfl
    obtain ⟨d, hd, hslot⟩ : ∃ d ∈ dests, ringSlot (buildRing H size dests) key = some d.destinationID :=
      exists_ringSlot hdests key
    by_contra hother
    have hstays : d ∈ without id dests := by
      refine List.mem_filter.mpr ⟨hd, decide_eq_true fun hid => hother ?_⟩
      rw [← hid]
      exact hslot
    obtain ⟨d', hd', hslot'⟩ : ∃ d' ∈ without id dests,
        ringSlot (buildRing H size (without id dests)) key = some d'.destinationID :=
      exists_ringSlot (List.ne_nil_of_mem hstays) key
    exact hmoved (by rw [hslot, hslot', hone d hstays d' hd'])

end Endpoints

/-! ## Three endpoints -/

def threeEndpoints : List DestinationRef := [⟨"10.0.0.1:80", 1⟩, ⟨"10.0.0.2:80", 1⟩, ⟨"10.0.0.3:80", 1⟩]

/-- With three nodes, every endpoint keeps its one node. -/
theorem consistent_threeEndpoints : Consistent checksums 3 threeEndpoints "10.0.0.3:80" :=
  consistent_of_vnodes checksums 3 threeEndpoints "10.0.0.3:80" (by decide +kernel) (.inl rfl)

/-- With four nodes, the second node that the first endpoint gets when the third one leaves takes keys of
the second one. -/
theorem not_consistent_threeEndpoints :
    Apart (buildRing checksums 4 threeEndpoints ++
        buildRing checksums 4 (without "10.0.0.3:80" threeEndpoints)) ∧
      ¬Consistent checksums 4 threeEndpoints "10.0.0.3:80" :=
  ⟨by decide +kernel, fun h => absurd (h 1826862586) (by decide +kernel)⟩

end Vrata.Proxy

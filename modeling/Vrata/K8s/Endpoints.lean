import Mathlib.Data.List.Nodup
import Mathlib.Data.List.Pairwise

/-!
# The endpoints of a Service

Reference: `buildEndpoints` of `server/internal/k8s/watcher.go`.

The endpoints of a Service are spread over slices. A slice has ports, which hold for all its endpoints, and
an address may be in several slices. `buildEndpoints` takes the first port of each slice and puts the
addresses behind each other. What it should return is `Resolved`: the port of the destination, where the
slice has it, and every address once. `resolved_iff` says which slices it does so for.
-/

namespace Vrata.K8s

structure Endpoint where
  host : String
  port : UInt32
deriving DecidableEq, Repr

structure SliceEndpoint where
  addresses : List String
  /-- The condition may be missing. -/
  ready : Option Bool
deriving DecidableEq, Repr

/-- A port may go without a number. -/
structure EndpointSlice where
  ports : List (Option Int32)
  endpoints : List SliceEndpoint
deriving DecidableEq, Repr

namespace EndpointSlice

/-- The numbers of the ports. -/
def declared (slice : EndpointSlice) : List UInt32 :=
  slice.ports.filterMap fun port => port.map Int32.toUInt32

/-- The addresses of the endpoints that are not marked unready. -/
def addresses (slice : EndpointSlice) : List String :=
  (slice.endpoints.filter fun ep => ep.ready ≠ some false).flatMap SliceEndpoint.addresses

/-- The first port with a number, or else that of the destination. -/
def firstPort (slice : EndpointSlice) (destPort : UInt32) : UInt32 := slice.declared.head?.getD destPort

/-- The endpoints of a slice. -/
def build (slice : EndpointSlice) (destPort : UInt32) : List Endpoint :=
  slice.addresses.map fun addr => ⟨addr, slice.firstPort destPort⟩

/-- The port that a slice should be reached at. -/
def port (slice : EndpointSlice) (destPort : UInt32) : UInt32 :=
  if destPort ∈ slice.declared then destPort else slice.firstPort destPort

end EndpointSlice

/-- The slices among the objects; `none` is an object of another type. -/
def slicesOf (objs : List (Option EndpointSlice)) : List EndpointSlice := objs.filterMap id

def buildEndpoints (destPort : UInt32) (objs : List (Option EndpointSlice)) : List Endpoint :=
  (slicesOf objs).flatMap fun slice => slice.build destPort

/-- The endpoints are those of the slices, each at the port it should be reached at, and no one is there
twice. -/
structure Resolved (destPort : UInt32) (slices : List EndpointSlice) (eps : List Endpoint) : Prop where
  nodup : eps.Nodup
  mem_iff : ∀ ep, ep ∈ eps ↔ ∃ slice ∈ slices, ep.host ∈ slice.addresses ∧ ep.port = slice.port destPort

/-! ## Which slices are resolved -/

/-- No address is listed twice, in one slice or in two slices with the same first port. -/
def Unrepeated (destPort : UInt32) (slices : List EndpointSlice) : Prop :=
  (∀ slice ∈ slices, slice.addresses.Nodup) ∧
    slices.Pairwise fun s t => s.firstPort destPort = t.firstPort destPort → s.addresses.Disjoint t.addresses

/-- Where a slice with addresses has the port of the destination, it has it first. -/
def PortFirst (destPort : UInt32) (slices : List EndpointSlice) : Prop :=
  ∀ slice ∈ slices, slice.addresses ≠ [] → destPort ∈ slice.declared → slice.firstPort destPort = destPort

theorem port_eq_firstPort {slice : EndpointSlice} {destPort : UInt32}
    (h : destPort ∈ slice.declared → slice.firstPort destPort = destPort) :
    slice.port destPort = slice.firstPort destPort := by
  rw [EndpointSlice.port]
  split
  · rename_i hdeclared
    exact (h hdeclared).symm
  · rfl

theorem Unrepeated.disjoint {destPort : UInt32} {slices : List EndpointSlice}
    (h : Unrepeated destPort slices) {s t : EndpointSlice} (hs : s ∈ slices) (ht : t ∈ slices) (hne : s ≠ t)
    (hport : s.firstPort destPort = t.firstPort destPort) : s.addresses.Disjoint t.addresses := by
  have hsymm : Std.Symm fun s t : EndpointSlice =>
      s.firstPort destPort = t.firstPort destPort → s.addresses.Disjoint t.addresses :=
    ⟨fun _ _ hst heq => List.disjoint_symm (hst heq.symm)⟩
  exact h.2.forall hs ht hne hport

theorem mem_build {slice : EndpointSlice} {destPort : UInt32} {ep : Endpoint} :
    ep ∈ slice.build destPort ↔ ep.host ∈ slice.addresses ∧ ep.port = slice.firstPort destPort := by
  rw [EndpointSlice.build, List.mem_map]
  constructor
  · rintro ⟨addr, haddr, rfl⟩
    exact ⟨haddr, rfl⟩
  · rintro ⟨haddr, hport⟩
    exact ⟨ep.host, haddr, by rw [← hport]⟩

theorem nodup_build {slice : EndpointSlice} {destPort : UInt32} :
    (slice.build destPort).Nodup ↔ slice.addresses.Nodup :=
  List.nodup_map_iff fun _ _ h => (Endpoint.mk.inj h).1

theorem disjoint_build {s t : EndpointSlice} {destPort : UInt32} :
    (s.build destPort).Disjoint (t.build destPort) ↔
      (s.firstPort destPort = t.firstPort destPort → s.addresses.Disjoint t.addresses) := by
  constructor
  · intro h hport addr hs ht
    have hmem : (⟨addr, s.firstPort destPort⟩ : Endpoint) ∈ s.build destPort := mem_build.mpr ⟨hs, rfl⟩
    exact h hmem (mem_build.mpr ⟨ht, hport⟩)
  · intro h ep hs ht
    obtain ⟨hs, hsport⟩ := mem_build.mp hs
    obtain ⟨ht, htport⟩ := mem_build.mp ht
    exact h (hsport.symm.trans htport) hs ht

theorem nodup_buildEndpoints {destPort : UInt32} {objs : List (Option EndpointSlice)} :
    (buildEndpoints destPort objs).Nodup ↔ Unrepeated destPort (slicesOf objs) := by
  rw [buildEndpoints, List.nodup_flatMap, Unrepeated]
  refine and_congr (forall₂_congr fun slice _ => nodup_build) ?_
  exact ⟨fun h => h.imp disjoint_build.mp, fun h => h.imp disjoint_build.mpr⟩

/-- Every address is there once, and at the right port, if no address is listed twice and the port of the
destination is always the first one; and only then. -/
theorem resolved_iff (destPort : UInt32) (objs : List (Option EndpointSlice)) :
    Resolved destPort (slicesOf objs) (buildEndpoints destPort objs) ↔
      Unrepeated destPort (slicesOf objs) ∧ PortFirst destPort (slicesOf objs) := by
  have hmem : ∀ ep, ep ∈ buildEndpoints destPort objs ↔
      ∃ slice ∈ slicesOf objs, ep.host ∈ slice.addresses ∧ ep.port = slice.firstPort destPort := by
    intro ep
    simp only [buildEndpoints, List.mem_flatMap, mem_build]
  constructor
  · intro h
    have hunrepeated := nodup_buildEndpoints.mp h.nodup
    refine ⟨hunrepeated, fun slice hslice haddresses hdeclared => ?_⟩
    by_contra hport
    obtain ⟨addr, haddr⟩ := List.exists_mem_of_ne_nil _ haddresses
    -- What the slice gives is due to another one, and is therefore there twice.
    obtain ⟨other, hother, haddr', hport'⟩ :=
      (h.mem_iff ⟨addr, slice.firstPort destPort⟩).mp ((hmem _).mpr ⟨slice, hslice, haddr, rfl⟩)
    by_cases hdeclared' : destPort ∈ other.declared
    · rw [EndpointSlice.port, if_pos hdeclared'] at hport'
      exact hport hport'
    · rw [EndpointSlice.port, if_neg hdeclared'] at hport'
      have hne : slice ≠ other := fun e => hdeclared' (e ▸ hdeclared)
      exact hunrepeated.disjoint hslice hother hne hport' haddr haddr'
  · rintro ⟨hunrepeated, hfirst⟩
    refine ⟨nodup_buildEndpoints.mpr hunrepeated, fun ep => (hmem ep).trans ?_⟩
    refine exists_congr fun slice => and_congr_right fun hslice => and_congr_right fun haddr => ?_
    rw [port_eq_firstPort (hfirst slice hslice (List.ne_nil_of_mem haddr))]

/-- A slice of a Service with two ports. -/
def twoPorts : EndpointSlice := ⟨[some 9090, some 8080], [⟨["10.0.0.1"], some true⟩]⟩

/-- Two slices of a Service, between which an endpoint has been moved. -/
def oldSlice : EndpointSlice := ⟨[some 8080], [⟨["10.0.0.1"], some true⟩, ⟨["10.0.0.2"], some false⟩]⟩

def newSlice : EndpointSlice := ⟨[some 8080], [⟨["10.0.0.1"], none⟩]⟩

/-- The port of the destination is passed over, and an address in two slices is returned twice. -/
theorem not_resolved_twoPorts :
    buildEndpoints 8080 [some twoPorts] = [⟨"10.0.0.1", 9090⟩] ∧
    ¬Resolved 8080 (slicesOf [some twoPorts]) (buildEndpoints 8080 [some twoPorts]) ∧
    buildEndpoints 8080 [some oldSlice, some newSlice] = [⟨"10.0.0.1", 8080⟩, ⟨"10.0.0.1", 8080⟩] ∧
    ¬Resolved 8080 (slicesOf [some oldSlice, some newSlice])
      (buildEndpoints 8080 [some oldSlice, some newSlice]) := by
  refine ⟨by decide, fun h => ?_, by decide, fun h => absurd h.nodup (by decide)⟩
  have hdue := (h.mem_iff ⟨"10.0.0.1", 8080⟩).mpr ⟨twoPorts, by decide, by decide, by decide⟩
  exact absurd hdue (by decide)

end Vrata.K8s

import Vrata.Lib.Authority
import Vrata.Proxy.Balancer

/-!
# Addresses of endpoints

Reference: `ReverseProxyFor` of `server/internal/proxy/pool.go`, `checkEndpoint` of `health.go` and
`poolsToServices` of `handler.go`.

The address of an endpoint is written in three places: for the reverse proxy, for the health check and for
the middlewares that call a service. All three put a colon between host and port. The authority of a URL has
an IPv6 address in brackets, and hosts are configured, and discovered, without them. `roundTrips_iff` says
for which hosts the three are authorities of the host and the port they were made from.
-/

namespace Vrata.Proxy

/-- What a destination is addressed by. The mode is there if `options.tls` is. -/
structure Upstream where
  host : String
  port : UInt32
  tlsMode : Option String
deriving DecidableEq, Repr

/-- The mode is `none` by default. -/
def Upstream.scheme (d : Upstream) : String :=
  match d.tlsMode with
  | none => "http"
  | some mode => if mode ≠ "none" ∧ mode ≠ "" then "https" else "http"

/-- The format `%s:%d`. -/
def hostPort (host : String) (port : UInt32) : String := host ++ ":" ++ toString port.toNat

/-- The URL that requests are sent to. -/
structure Target where
  scheme : String
  host : String
deriving DecidableEq, Repr

def reverseProxyFor (d : Upstream) (ep : Endpoint) : Target := ⟨d.scheme, hostPort ep.host ep.port⟩

/-- The URL of `checkEndpoint`. -/
def checkURL (d : Upstream) (ep : Endpoint) (path : String) : String :=
  d.scheme ++ "://" ++ (hostPort ep.host ep.port ++ path)

/-- The URL of the service that a destination is for the middlewares. -/
def baseURL (d : Upstream) : String := d.scheme ++ "://" ++ hostPort d.host d.port

/-- The three addresses of a host, as an endpoint and as a destination, are the one authority of the host and
the port. -/
structure RoundTrips (host : Net.Host) (port : UInt32) (tlsMode : Option String) (healthy : Bool)
    (path : String) : Prop where
  target : Net.parse (reverseProxyFor ⟨host.bare, port, tlsMode⟩ ⟨host.bare, port, healthy⟩).host =
    some ⟨host, some (.ofNat port.toNat)⟩
  check : (Net.ofURL (checkURL ⟨host.bare, port, tlsMode⟩ ⟨host.bare, port, healthy⟩ path)).bind Net.parse =
    some ⟨host, some (.ofNat port.toNat)⟩
  base : (Net.ofURL (baseURL ⟨host.bare, port, tlsMode⟩)).bind Net.parse =
    some ⟨host, some (.ofNat port.toNat)⟩

/-! ## Host and port -/

/-- Brackets make the difference. -/
theorem text_eq_hostPort_iff (host : Net.Host) (port : UInt32) :
    (Net.Authority.mk host (some (.ofNat port.toNat))).text = hostPort host.bare port ↔
      host.isIPv6 = false := by
  cases host with
  | name text valid =>
    refine ⟨fun _ => rfl, fun _ => ?_⟩
    simp [Net.Authority.text, Net.Host.text, Net.Host.bare, Net.portText, Net.Port.ofNat, hostPort,
      String.append_assoc]
  | ip6 text valid =>
    refine ⟨fun h => ?_, fun h => by cases h⟩
    have hlength := congrArg (fun s : String => s.toList.length) h
    simp only [Net.Authority.text, Net.Host.text, Net.Host.bare, Net.portText, Net.Port.ofNat, hostPort,
      Option.elim_some, String.toList_append, List.length_append] at hlength
    have hbracket : "[".toList.length = 1 := rfl
    omega

theorem endsAuthority_eq_false {c : Char}
    (h : Net.isNameChar c = true ∨ Net.isAddressChar c = true ∨ c.isDigit = true) :
    Net.endsAuthority c = false := by
  cases hends : Net.endsAuthority c with
  | false => rfl
  | true =>
    simp only [Net.endsAuthority, Bool.or_eq_true, decide_eq_true_eq] at hends
    rcases hends with (rfl | rfl) | rfl <;> exact absurd h (by decide)

/-- The authority goes on at least to the end of the port. -/
theorem endsAuthority_hostPort (host : Net.Host) (port : UInt32) :
    ∀ c ∈ (hostPort host.bare port).toList, (!Net.endsAuthority c) = true := by
  intro c hc
  simp only [hostPort, String.toList_append, List.mem_append] at hc
  have hends : Net.endsAuthority c = false := by
    rcases hc with (hc | hc) | hc
    · cases host with
      | name text valid => exact endsAuthority_eq_false (.inl (List.all_eq_true.mp valid c hc))
      | ip6 text valid =>
        exact endsAuthority_eq_false (.inr (.inl (Net.isAddressChar_of_parseIPv6 valid c hc)))
    · obtain rfl : c = ':' := by simpa using hc
      decide
    · exact endsAuthority_eq_false (.inr (.inr (Text.isDigit_of_mem_toString hc)))
  rw [hends]
  rfl

theorem colon_not_mem_scheme (d : Upstream) : ':' ∉ d.scheme.toList := by
  rw [Upstream.scheme]
  split
  · decide
  · split <;> decide

/-- What the URL of a check has for an authority: the path may run into it. -/
theorem ofURL_hostPort (d : Upstream) (host : Net.Host) (port : UInt32) (path : String) :
    Net.ofURL (d.scheme ++ "://" ++ (hostPort host.bare port ++ path)) =
      some (hostPort host.bare port ++
        String.ofList (path.toList.takeWhile fun c => !Net.endsAuthority c)) := by
  rw [Net.ofURL_append (colon_not_mem_scheme d), String.toList_append,
    List.takeWhile_append_of_pos (endsAuthority_hostPort host port), String.ofList_append,
    String.ofList_toList]

theorem ofURL_baseURL (host : Net.Host) (port : UInt32) (tlsMode : Option String) :
    Net.ofURL (baseURL ⟨host.bare, port, tlsMode⟩) = some (hostPort host.bare port) := by
  have h := ofURL_hostPort ⟨host.bare, port, tlsMode⟩ host port ""
  simpa [baseURL] using h

/-! ## The authority -/

/-- The addresses of names and IPv4 addresses are right, as long as the path of the check does not begin in
the middle of the authority. Those of IPv6 addresses are not. -/
theorem roundTrips_iff (host : Net.Host) (port : UInt32) (tlsMode : Option String) (healthy : Bool)
    (path : String) :
    RoundTrips host port tlsMode healthy path ↔
      host.isIPv6 = false ∧ ∀ c ∈ path.toList.head?, Net.endsAuthority c = true := by
  have hcheck : Net.ofURL (checkURL ⟨host.bare, port, tlsMode⟩ ⟨host.bare, port, healthy⟩ path) =
      some (hostPort host.bare port ++
        String.ofList (path.toList.takeWhile fun c => !Net.endsAuthority c)) :=
    ofURL_hostPort _ host port path
  constructor
  · intro h
    have htext := Net.parse_eq_some_iff.mp h.target
    refine ⟨(text_eq_hostPort_iff host port).mp htext, ?_⟩
    have hpath := h.check
    rw [hcheck, Option.bind_some, Net.parse_eq_some_iff, htext, reverseProxyFor, ← String.toList_inj,
      String.toList_append, String.toList_ofList, List.self_eq_append_right] at hpath
    intro c hc
    cases hchars : path.toList with
    | nil => rw [hchars] at hc; cases hc
    | cons d rest =>
      rw [hchars] at hpath hc
      obtain rfl : d = c := Option.some.inj hc
      simpa [List.takeWhile_cons] using hpath
  · rintro ⟨hname, hpath⟩
    have htext := (text_eq_hostPort_iff host port).mpr hname
    have hstop : (path.toList.takeWhile fun c => !Net.endsAuthority c) = [] := by
      cases hchars : path.toList with
      | nil => rfl
      | cons d rest => simp [hpath d (by rw [hchars]; rfl)]
    refine ⟨Net.parse_eq_some_iff.mpr htext, ?_, ?_⟩
    · rw [hcheck, hstop, Option.bind_some, Net.parse_eq_some_iff, htext]
      exact String.append_empty.symm
    · rw [ofURL_baseURL, Option.bind_some, Net.parse_eq_some_iff, htext]

theorem parseIPv6_loopback : (Net.parseIPv6 "::1".toList).isSome = true := by decide

/-- The loopback address. -/
def loopback : Net.Host := .ip6 "::1" parseIPv6_loopback

/-- What is written for the loopback address is no authority. -/
theorem not_roundTrips_loopback : hostPort loopback.bare 8080 = "::1:8080" ∧
    (Net.parse "::1:8080").isNone = true ∧ ¬RoundTrips loopback 8080 none true "/health" := by
  have hnone : (Net.parse (hostPort loopback.bare 8080)).isNone = true := by decide +kernel
  refine ⟨by decide +kernel, by decide +kernel, fun h => ?_⟩
  have htarget := h.target
  rw [reverseProxyFor, Option.isNone_iff_eq_none.mp hnone] at htarget
  cases htarget

end Vrata.Proxy

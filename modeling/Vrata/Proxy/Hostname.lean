import Vrata.Lib.Authority
import Vrata.Proxy.Cel
import Vrata.Proxy.Pipeline.Interpolation

/-!
# The hostname of a request

Reference: `match` of `server/internal/proxy/router.go`, `buildRequestMap` of `celeval/cel.go` and
`requestHost` of `middlewares/interpolate.go`.

The hostname is taken off the Host value three times: routes compare it, CEL expressions have it as
`request.host`, and templates are filled in with it. Each time it is what stands before the first colon.
That is the host of an authority as long as the host has no colon itself, which an IPv6 address does.
`hostRead_iff` says so for every authority.
-/

namespace Vrata.Proxy

/-- All three take this host off the Host value. -/
structure ReadsHost (text host : String) : Prop where
  routing : ∀ req : Request, req.host = text → req.hostname = host
  expression : ∀ (r : Cel.Input) (data : Option Cel.BodyData), r.host = text →
    Cel.buildRequestMap r data "host" = some (.string host)
  substitution : ∀ (secure : Bool) (r : Inbound), r.host = text →
    interpolate "$\x7brequest.host\x7d" secure r = host

/-- The host of an authority is read, with its brackets or without, and is told from every other one. -/
structure HostRead (a : Net.Authority) : Prop where
  read : ReadsHost a.text a.host.text ∨ ReadsHost a.text a.host.bare
  apart : ∀ (b : Net.Authority) (req req' : Request), req.host = a.text → req'.host = b.text →
    req.hostname = req'.hostname → a.host = b.host

/-! ## The first colon -/

theorem before_portText (port : Option Net.Port) : Text.before ':' (Net.portText port) = "" := by
  cases port with
  | none => rfl
  | some port =>
    rw [← String.toList_inj]
    simp [Text.before, Net.portText]

theorem before_text_name {a : Net.Authority} (h : a.host.isIPv6 = false) :
    Text.before ':' a.text = a.host.text := by
  rw [Net.Authority.text, Text.before_append (Net.Host.not_mem_text h (by decide)), before_portText,
    String.append_empty]

/-- An address is cut off within its brackets. -/
theorem bracket_mem_before {a : Net.Authority} (h : a.host.isIPv6 = true) :
    '[' ∈ (Text.before ':' a.text).toList := by
  obtain ⟨host, port⟩ := a
  cases host with
  | name text valid => cases h
  | ip6 text valid =>
    rw [Net.Authority.text, Net.Host.text, String.append_assoc, String.append_assoc,
      Text.before_append (by decide)]
    simp

theorem replaceAll_eq_value {text mark value : String}
    (h : replaceFrom mark.toList value.toList 0 (text.toList ++ []) = value.toList ++ []) :
    replaceAll text mark value = value := by
  rw [List.append_nil, List.append_nil] at h
  rw [replaceAll, h, String.ofList_toList]

/-- What is filled in is left as it is, if it begins no placeholder. -/
theorem interpolate_host {secure : Bool} {r : Inbound}
    (h : ¬"$\x7b".toList <:+: (Text.before ':' r.host).toList) :
    interpolate "$\x7brequest.host\x7d" secure r = Text.before ':' r.host := by
  have hmark : replaceAll "$\x7brequest.host\x7d" "$\x7brequest.host\x7d" (Text.before ':' r.host) =
      Text.before ':' r.host :=
    replaceAll_eq_value <| replaceFrom_prefix (by decide) _ _
  have hplain : replaceAll (Text.before ':' r.host) "$\x7brequest.host\x7d" (Text.before ':' r.host) =
      Text.before ':' r.host :=
    replaceAll_eq_value <| replaceFrom_absent <| absent_of_not_infix (by decide) h
  have hsame : interpolate "$\x7brequest.host\x7d" secure r =
      interpolate (Text.before ':' r.host) secure r := by
    simp only [interpolate, hmark, hplain]
  rw [hsame, interpolate_of_plain h]

/-! ## Which hosts are read -/

theorem readsHost_of_name {a : Net.Authority} (h : a.host.isIPv6 = false) :
    ReadsHost a.text a.host.text where
  routing req hreq := by rw [Request.hostname, hreq, before_text_name h]
  expression r data hr := by simp [Cel.buildRequestMap, hr, before_text_name h]
  substitution secure r hr := by
    rw [← before_text_name h, ← hr]
    refine interpolate_host fun hin => ?_
    rw [hr, before_text_name h] at hin
    have hbrace : '\x7b' ∈ a.host.text.toList := hin.subset (by decide)
    exact Net.Host.not_mem_text h (by decide) hbrace

/-- Every hostname is without a colon. -/
theorem not_readsHost {text host : String} (h : ':' ∈ host.toList) : ¬ReadsHost text host := by
  intro hread
  have hname := hread.routing { (plainRequest "/" hasPrefix_root).request with host := text } rfl
  refine Text.not_mem_before ':' text ?_
  rw [Request.hostname] at hname
  rw [hname]
  exact h

/-- The hostname of a request is the host of its authority for names and IPv4 addresses, and for no IPv6
address. -/
theorem hostRead_iff (a : Net.Authority) : HostRead a ↔ a.host.isIPv6 = false := by
  constructor
  · intro h
    by_contra hip
    obtain ⟨htext, hbare⟩ := Net.Host.colon_mem (Bool.not_eq_false _ ▸ hip)
    rcases h.read with hread | hread
    · exact not_readsHost htext hread
    · exact not_readsHost hbare hread
  · intro h
    refine ⟨.inl (readsHost_of_name h), fun b req req' hreq hreq' hsame => ?_⟩
    rw [Request.hostname, Request.hostname, hreq, hreq', before_text_name h] at hsame
    cases hb : b.host.isIPv6 with
    | false =>
      rw [before_text_name hb] at hsame
      exact Net.Host.eq_of_text_eq h hb hsame
    | true =>
      have hbracket := bracket_mem_before hb
      rw [← hsame] at hbracket
      exact absurd hbracket (Net.Host.not_mem_text h (by decide))

theorem parseIPv6_first : (Net.parseIPv6 "2001:db8::1".toList).isSome = true := by decide

theorem parseIPv6_second : (Net.parseIPv6 "2001:db8::2".toList).isSome = true := by decide

/-- Two hosts in one network. -/
def firstHost : Net.Authority := ⟨.ip6 "2001:db8::1" parseIPv6_first, some (.ofNat 80)⟩

def secondHost : Net.Authority := ⟨.ip6 "2001:db8::2" parseIPv6_second, none⟩

/-- Requests for two hosts have the same hostname, which is neither of them. -/
theorem hostname_firstHost : ¬HostRead firstHost ∧ firstHost.host.bare ≠ secondHost.host.bare ∧
    ∀ req req' : Request, req.host = firstHost.text → req'.host = secondHost.text →
      req.hostname = "[2001" ∧ req'.hostname = "[2001" := by
  refine ⟨fun h => ?_, by decide, fun req req' hreq hreq' => ?_⟩
  · rcases h.read with hread | hread
    · exact not_readsHost (by decide) hread
    · exact not_readsHost (by decide) hread
  · rw [Request.hostname, Request.hostname, hreq, hreq']
    decide +kernel

end Vrata.Proxy

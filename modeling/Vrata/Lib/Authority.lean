import Vrata.Lib.Net
import Vrata.Lib.Text

/-!
# The authority of a URL

An authority is a host, and perhaps a port behind a colon. The host is a registered name, which an IPv4
address has the form of, or an IPv6 address in brackets: it has colons of its own. There is no user
information here.

`parse` reads an authority and `Authority.text` writes it; `parse_eq_some_iff` says that each undoes the
other. `ofURL` is the text of the authority of a URL.
-/

namespace Net

/-! ## The characters of an IPv6 address -/

/-- The characters that an IPv6 address is written with. -/
def isAddressChar (c : Char) : Bool := (hexValue c).isSome || c = ':' || c = '.'

theorem isAddressChar_of_isDigit {c : Char} (h : c.isDigit = true) : isAddressChar c = true := by
  have hc : '0' ≤ c ∧ c ≤ '9' := by
    simp only [Char.isDigit, Bool.and_eq_true, decide_eq_true_eq] at h
    exact h
  simp [isAddressChar, hexValue, hc]

theorem isAddressChar_of_parseOctet {field : List Char} {octet : UInt8}
    (h : parseOctet field = some octet) : ∀ c ∈ field, isAddressChar c = true := by
  have hall : field.all Char.isDigit = true := by
    by_contra hall
    rw [parseOctet, if_pos (by simp [hall])] at h
    cases h
  exact fun c hc => isAddressChar_of_isDigit (List.all_eq_true.mp hall c hc)

theorem isAddressChar_of_parseIPv4 {text : List Char} {octets : List UInt8}
    (h : parseIPv4 text = some octets) : ∀ c ∈ text, isAddressChar c = true := by
  rw [parseIPv4] at h
  split at h
  · rename_i a b c d hsplit
    have htext : text = a ++ '.' :: (b ++ '.' :: (c ++ '.' :: d)) := by
      have hjoin : ['.'].intercalate (text.splitOn '.') = text := List.intercalate_splitOn '.'
      rw [← hjoin, hsplit]
      simp [List.intercalate]
    simp only [List.mapM_cons, List.mapM_nil, Option.bind_eq_bind, Option.bind_eq_some_iff] at h
    obtain ⟨_, ha, _, ⟨_, hb, _, ⟨_, hc, _, ⟨_, hd, _⟩, _⟩, _⟩, _⟩ := h
    intro x hx
    rw [htext] at hx
    simp only [List.mem_append, List.mem_cons] at hx
    rcases hx with hx | rfl | hx | rfl | hx | rfl | hx
    · exact isAddressChar_of_parseOctet ha x hx
    · decide
    · exact isAddressChar_of_parseOctet hb x hx
    · decide
    · exact isAddressChar_of_parseOctet hc x hx
    · decide
    · exact isAddressChar_of_parseOctet hd x hx
  · cases h

/-- What a group takes off the text are hexadecimal digits. -/
theorem takeGroup_spec {text rest : List Char} {group : ℕ} (h : takeGroup text = some (group, rest)) :
    ∃ digits, text = digits ++ rest ∧ digits ≠ [] ∧ ∀ c ∈ digits, (hexValue c).isSome = true := by
  rw [takeGroup] at h
  by_cases hdigits : (decide ((text.takeWhile fun c => (hexValue c).isSome) = []) ||
      decide (4 < (text.takeWhile fun c => (hexValue c).isSome).length)) = true
  · rw [if_pos hdigits] at h
    cases h
  · rw [if_neg hdigits] at h
    obtain ⟨_, rfl⟩ := Prod.mk.inj (Option.some.inj h)
    exact ⟨text.takeWhile fun c => (hexValue c).isSome,
      (List.prefix_iff_eq_append.mp (List.takeWhile_prefix _)).symm,
      fun hnil => hdigits (by simp [hnil]), List.all_eq_true.mp List.all_takeWhile⟩

/-- Groups are separated by colons. -/
theorem isAddressChar_of_takeGroups {room : ℕ} {octets : List UInt8} {ellipsis : Option ℕ}
    {text : List Char} {result : List UInt8 × Option ℕ}
    (h : takeGroups room octets ellipsis text = some result) : ∀ c ∈ text, isAddressChar c = true := by
  induction room generalizing octets ellipsis text with
  | zero =>
    intro c hc
    rw [takeGroups] at h
    split at h
    · rename_i hnil
      rw [hnil] at hc
      cases hc
    · cases h
  | succ room ih =>
    rw [takeGroups] at h
    simp only [Option.bind_eq_bind, Option.bind_eq_some_iff, Prod.exists] at h
    obtain ⟨group, rest, hgroup, h⟩ := h
    obtain ⟨digits, htext, -, hdigits⟩ := takeGroup_spec hgroup
    have hrest : ∀ tail, text = digits ++ tail → (∀ c ∈ tail, isAddressChar c = true) →
        ∀ c ∈ text, isAddressChar c = true := by
      rintro tail rfl htail c hc
      rcases List.mem_append.mp hc with hc | hc
      · simp [isAddressChar, hdigits c hc]
      · exact htail c hc
    split at h
    · split at h
      · cases h
      · obtain ⟨_, hip, _⟩ := Option.bind_eq_some_iff.mp h
        exact isAddressChar_of_parseIPv4 hip
    · refine hrest rest htext ?_
      split at h
      · simp
      · simp [isAddressChar]
      · split at h
        · cases h
        · simpa [isAddressChar] using ih h
      · cases h
      · simpa [isAddressChar] using ih h
      · cases h

theorem isAddressChar_of_parseIPv6 {text : List Char} (h : (parseIPv6 text).isSome = true) :
    ∀ c ∈ text, isAddressChar c = true := by
  obtain ⟨ip, h⟩ := Option.isSome_iff_exists.mp h
  unfold parseIPv6 at h
  split at h
  · simp [isAddressChar]
  · obtain ⟨_, hgroups, _⟩ := Option.bind_eq_some_iff.mp h
    simpa [isAddressChar] using isAddressChar_of_takeGroups hgroups
  · obtain ⟨_, hgroups, _⟩ := Option.bind_eq_some_iff.mp h
    exact isAddressChar_of_takeGroups hgroups

/-- Without a colon there is one group only, which is too short. -/
theorem colon_mem_of_parseIPv6 {text : List Char} (h : (parseIPv6 text).isSome = true) : ':' ∈ text := by
  obtain ⟨ip, h⟩ := Option.isSome_iff_exists.mp h
  by_contra hcolon
  have hstart : ∀ rest, text ≠ ':' :: rest := by
    rintro rest rfl
    exact hcolon List.mem_cons_self
  unfold parseIPv6 at h
  split at h
  · exact hstart _ rfl
  · exact hstart _ rfl
  · obtain ⟨_, hgroups, hexpand⟩ := Option.bind_eq_some_iff.mp h
    rw [takeGroups] at hgroups
    simp only [Option.bind_eq_bind, Option.bind_eq_some_iff, Prod.exists] at hgroups
    obtain ⟨group, rest, hgroup, hgroups⟩ := hgroups
    obtain ⟨digits, rfl, -, hdigits⟩ := takeGroup_spec hgroup
    have hrest : ':' ∉ rest := fun hmem => hcolon (List.mem_append_right _ hmem)
    split at hgroups
    · simp at hgroups
    · split at hgroups
      · cases hgroups
        simp [expand] at hexpand
      all_goals simp at hrest hgroups

/-! ## Hosts and ports -/

/-- The characters of a registered name. What a percent sign starts is not looked into. -/
def isNameChar (c : Char) : Bool := c.isAlphanum || "-._~!$&'()*+,;=%".toList.contains c

inductive Host where
  | name (text : String) (valid : text.toList.all isNameChar = true)
  | ip6 (text : String) (valid : (parseIPv6 text.toList).isSome = true)

namespace Host

/-- The host without brackets. -/
def bare : Host → String
  | name text _ => text
  | ip6 text _ => text

/-- The host as it stands in an authority. -/
def text : Host → String
  | name text _ => text
  | ip6 text _ => "[" ++ text ++ "]"

def isIPv6 : Host → Bool
  | name .. => false
  | ip6 .. => true

end Host

theorem not_mem_of_isNameChar {text : String} (h : text.toList.all isNameChar = true) {c : Char}
    (hc : isNameChar c = false) : c ∉ text.toList := by
  intro hmem
  rw [List.all_eq_true.mp h c hmem] at hc
  cases hc

theorem not_mem_of_isAddressChar {text : String} (h : (parseIPv6 text.toList).isSome = true) {c : Char}
    (hc : isAddressChar c = false) : c ∉ text.toList := by
  intro hmem
  rw [isAddressChar_of_parseIPv6 h c hmem] at hc
  cases hc

theorem Host.not_mem_text {host : Host} (h : host.isIPv6 = false) {c : Char} (hc : isNameChar c = false) :
    c ∉ host.text.toList := by
  cases host with
  | name text valid => exact not_mem_of_isNameChar valid hc
  | ip6 text valid => cases h

theorem Host.eq_of_text_eq {host host' : Host} (h : host.isIPv6 = false) (h' : host'.isIPv6 = false)
    (htext : host.text = host'.text) : host = host' := by
  cases host with
  | ip6 text valid => cases h
  | name text valid =>
    cases host' with
    | ip6 text' valid' => cases h'
    | name text' valid' =>
      obtain rfl : text = text' := htext
      rfl

theorem Host.colon_mem {host : Host} (h : host.isIPv6 = true) :
    ':' ∈ host.text.toList ∧ ':' ∈ host.bare.toList := by
  cases host with
  | name text valid => cases h
  | ip6 text valid =>
    have hcolon := colon_mem_of_parseIPv6 valid
    exact ⟨by simp [Host.text, hcolon], hcolon⟩

structure Port where
  text : String
  valid : text.toList.all Char.isDigit = true

theorem all_isDigit_toString (n : ℕ) : (toString n).toList.all Char.isDigit = true :=
  List.all_eq_true.mpr fun _ hc => Text.isDigit_of_mem_toString hc

def Port.ofNat (n : ℕ) : Port := ⟨toString n, all_isDigit_toString n⟩

structure Authority where
  host : Host
  port : Option Port

def portText (port : Option Port) : String := port.elim "" fun port => ":" ++ port.text

def Authority.text (a : Authority) : String := a.host.text ++ portText a.port

/-! ## Reading -/

def readName (text : List Char) : Option Host :=
  if h : (String.ofList text).toList.all isNameChar = true then some (.name (String.ofList text) h) else none

def readAddress (text : List Char) : Option Host :=
  if h : (parseIPv6 (String.ofList text).toList).isSome = true then some (.ip6 (String.ofList text) h)
  else none

/-- The host and what follows it. A name goes up to a colon, an address up to its bracket. -/
def parseHost : List Char → Option (Host × List Char)
  | '[' :: text =>
    match text.dropWhile (· ≠ ']') with
    | [] => none
    | _ :: rest => (readAddress (text.takeWhile (· ≠ ']'))).map (·, rest)
  | text => (readName (text.takeWhile (· ≠ ':'))).map (·, text.dropWhile (· ≠ ':'))

def parsePort : List Char → Option (Option Port)
  | [] => some none
  | ':' :: digits =>
    if h : (String.ofList digits).toList.all Char.isDigit = true then some (some ⟨String.ofList digits, h⟩)
    else none
  | _ => none

def parse (text : String) : Option Authority := do
  let (host, rest) ← parseHost text.toList
  let port ← parsePort rest
  return ⟨host, port⟩

theorem readName_toList {text : String} (h : text.toList.all isNameChar = true) :
    readName text.toList = some (.name text h) := by
  simp only [readName, String.ofList_toList, h, dite_true]

theorem readAddress_toList {text : String} (h : (parseIPv6 text.toList).isSome = true) :
    readAddress text.toList = some (.ip6 text h) := by
  simp only [readAddress, String.ofList_toList, h, dite_true]

theorem text_of_readName {text : List Char} {host : Host} (h : readName text = some host) :
    host.text.toList = text := by
  rw [readName] at h
  split at h
  · cases h
    simp [Host.text]
  · cases h

theorem text_of_readAddress {text : List Char} {host : Host} (h : readAddress text = some host) :
    host.text.toList = '[' :: text ++ [']'] := by
  rw [readAddress] at h
  split at h
  · cases h
    simp [Host.text]
  · cases h

theorem parsePort_portText (port : Option Port) : parsePort (portText port).toList = some port := by
  cases port with
  | none => rfl
  | some port => simp [portText, parsePort, port.valid]

theorem portText_of_parsePort {text : List Char} {port : Option Port} (h : parsePort text = some port) :
    (portText port).toList = text := by
  unfold parsePort at h
  split at h
  · cases h
    rfl
  · split at h
    · cases h
      simp [portText]
    · cases h
  · cases h

/-- Nothing is read beyond the host where the port begins. -/
theorem parseHost_text (host : Host) {rest : List Char} (hrest : ∀ c ∈ rest.head?, c = ':') :
    parseHost (host.text.toList ++ rest) = some (host, rest) := by
  cases host with
  | name text valid =>
    have hcolon : ∀ c ∈ text.toList, (decide (c ≠ ':')) = true := by
      intro c hc
      have hne : c ≠ ':' := fun e => not_mem_of_isNameChar valid (by decide) (e ▸ hc)
      simpa using hne
    have hstop : rest.takeWhile (· ≠ ':') = [] ∧ rest.dropWhile (· ≠ ':') = rest := by
      cases rest with
      | nil => exact ⟨rfl, rfl⟩
      | cons c rest => simp [hrest c rfl]
    unfold parseHost
    split
    · rename_i tail heq
      rcases List.cons_eq_append_iff.mp heq.symm with ⟨_, rfl⟩ | ⟨_, htext, _⟩
      · exact absurd (hrest '[' rfl) (by decide)
      · exact absurd (htext ▸ List.mem_cons_self) (not_mem_of_isNameChar valid (by decide))
    · rw [Host.text, List.takeWhile_append_of_pos hcolon, List.dropWhile_append_of_pos hcolon, hstop.1,
        hstop.2, List.append_nil, readName_toList valid]
      rfl
  | ip6 text valid =>
    have hbracket : ∀ c ∈ text.toList, (decide (c ≠ ']')) = true := by
      intro c hc
      have hne : c ≠ ']' := fun e => not_mem_of_isAddressChar valid (by decide) (e ▸ hc)
      simpa using hne
    have htext : (Host.ip6 text valid).text.toList ++ rest = '[' :: (text.toList ++ ']' :: rest) := by
      simp [Host.text]
    rw [htext]
    simp only [parseHost, List.takeWhile_append_of_pos hbracket, List.dropWhile_append_of_pos hbracket]
    simp [readAddress_toList valid]

theorem text_of_parseHost {text rest : List Char} {host : Host} (h : parseHost text = some (host, rest)) :
    host.text.toList ++ rest = text := by
  unfold parseHost at h
  split at h
  · rename_i text
    split at h
    · cases h
    · rename_i c tail hdrop
      obtain ⟨_, hread, heq⟩ := Option.map_eq_some_iff.mp h
      cases heq
      have hclose := List.head?_dropWhile_not (· ≠ ']') text
      rw [hdrop] at hclose
      obtain rfl : c = ']' := by simpa using hclose
      rw [text_of_readAddress hread, List.append_assoc, List.singleton_append, List.cons_append, ← hdrop,
        List.takeWhile_append_dropWhile]
  · obtain ⟨_, hread, heq⟩ := Option.map_eq_some_iff.mp h
    cases heq
    rw [text_of_readName hread, List.takeWhile_append_dropWhile]

/-- An authority is read as what it was written from. -/
theorem parse_text (a : Authority) : parse a.text = some a := by
  have hrest : ∀ c ∈ (portText a.port).toList.head?, c = ':' := by
    cases a.port <;> simp [portText]
  rw [parse, Authority.text, String.toList_append, parseHost_text a.host hrest]
  simp [parsePort_portText]

theorem parse_eq_some_iff {text : String} {a : Authority} : parse text = some a ↔ a.text = text := by
  constructor
  · intro h
    simp only [parse, Option.bind_eq_bind, Option.bind_eq_some_iff, Prod.exists] at h
    obtain ⟨host, rest, hhost, port, hport, heq⟩ := h
    cases heq
    rw [← String.toList_inj, Authority.text, String.toList_append, portText_of_parsePort hport,
      text_of_parseHost hhost]
  · rintro rfl
    exact parse_text a

/-! ## The authority in a URL -/

def endsAuthority (c : Char) : Bool := c = '/' || c = '?' || c = '#'

/-- What stands between the two slashes behind the scheme and the path, the query or the fragment. -/
def ofURL (url : String) : Option String := do
  let (_, rest) ← Text.cut ':' url
  match rest.toList with
  | '/' :: '/' :: rest => some (String.ofList (rest.takeWhile fun c => !endsAuthority c))
  | _ => none

theorem ofURL_append {scheme : String} (h : ':' ∉ scheme.toList) (rest : String) :
    ofURL (scheme ++ "://" ++ rest) =
      some (String.ofList (rest.toList.takeWhile fun c => !endsAuthority c)) := by
  have hurl : scheme ++ "://" ++ rest = scheme ++ String.singleton ':' ++ ("//" ++ rest) := by
    rw [← String.toList_inj]
    simp
  rw [hurl, ofURL, Text.cut_append h]
  simp

end Net

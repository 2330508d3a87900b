import Vrata.Proxy.Chain

/-!
# The address that a client is limited by

Reference: `clientIP` of `server/internal/proxy/middlewares/ratelimit.go`.

Behind trusted proxies the address of a client is in `X-Forwarded-For`, to which every proxy appends the
address it was called from. It is documented to be looked for from the right, past the trusted addresses,
since all that stands further left comes from the client. The code takes the first element of the first line.

`clientIP_iff` says that this is the documented address exactly if the first element is the rightmost one that
is not trusted, or there is none, or the header is not to be looked at.
-/

namespace Vrata.Proxy

namespace Inbound

/-- The host of the direct peer. -/
def directIP (r : Inbound) : String := ((Net.splitHostPort r.remoteAddr).map Prod.fst).getD ""

def isTrusted (trusted : List Net.Network) (address : String) : Bool :=
  (Net.parseIP address).any fun ip => trusted.any fun n => n.contains ip

/-- The elements of all lines of the header. -/
def forwardedFor (r : Inbound) : List String :=
  (r.header (canonicalKey "X-Forwarded-For")).flatMap fun line =>
    (line.toList.splitOn ',').map fun element => Text.trimSpace (String.ofList element)

/-- The rightmost entry that is not a trusted address. Elements that are empty are no entries. -/
def rightmostUntrusted (trusted : List Net.Network) (entries : List String) : Option String :=
  (entries.filter (· ≠ "")).reverse.find? fun entry => !isTrusted trusted entry

/-- The address is that of the peer or, if this is trusted, the rightmost entry that is not. -/
def AddressDocumented (trusted : List Net.Network) (r : Inbound) : Prop :=
  if isTrusted trusted r.directIP then
    ∀ entry, rightmostUntrusted trusted r.forwardedFor = some entry → r.clientIP trusted = entry
  else r.clientIP trusted = r.directIP

/-- The peer is not trusted, or no entry is to be preferred to the first element. -/
def FirstIsRightmost (trusted : List Net.Network) (r : Inbound) : Prop :=
  isTrusted trusted r.directIP = true → ∀ entry, rightmostUntrusted trusted r.forwardedFor = some entry →
    r.forwardedFor.head? = some entry

theorem head?_splitOn (c : Char) (text : List Char) :
    (text.splitOn c).head? = some (text.takeWhile (· ≠ c)) := by
  induction text with
  | nil => rfl
  | cons d text ih =>
    rw [List.splitOn] at ih ⊢
    rw [List.splitOnP_cons_eq_if_modifyHead]
    by_cases hd : d = c
    · simp [hd]
    · obtain ⟨first, rest, hsplit⟩ : ∃ first rest, text.splitOnP (· == c) = first :: rest :=
        List.exists_cons_of_ne_nil fun hnil => by simp [hnil] at ih
      rw [hsplit, List.head?_cons, Option.some_inj] at ih
      simp [hd, hsplit, ih]

/-- The first element is what stands before the first comma of the first line. -/
theorem head?_forwardedFor (r : Inbound) :
    r.forwardedFor.head? = ((r.header (canonicalKey "X-Forwarded-For")).head?).map fun line =>
      Text.trimSpace (Text.before ',' line) := by
  rw [forwardedFor]
  cases r.header (canonicalKey "X-Forwarded-For") with
  | nil => rfl
  | cons line lines =>
    have hhead := head?_splitOn ',' line.toList
    rw [List.flatMap_cons, List.head?_append, List.head?_map, hhead]
    rfl

variable {trusted : List Net.Network} {r : Inbound} {entry : String}

theorem isTrusted_nil (address : String) : isTrusted [] address = false := by
  cases h : Net.parseIP address <;> simp [isTrusted, h]

theorem clientIP_of_not_trusted (h : isTrusted trusted r.directIP = false) :
    r.clientIP trusted = r.directIP := by
  rw [clientIP]
  exact if_neg fun hcond => Bool.false_ne_true (h.symm.trans hcond.2.2)

/-- From a trusted peer the first element is taken, unless the first line is empty. -/
theorem clientIP_of_trusted (h : isTrusted trusted r.directIP = true) :
    r.clientIP trusted = if r.get "X-Forwarded-For" = "" then r.directIP else
      Text.trimSpace (Text.before ',' (r.get "X-Forwarded-For")) := by
  have hne : trusted ≠ [] := by
    rintro rfl
    exact Bool.false_ne_true ((isTrusted_nil _).symm.trans h)
  rw [clientIP]
  by_cases hxff : r.get "X-Forwarded-For" = ""
  · rw [if_pos hxff]
    exact if_neg fun hcond => hcond.2.1 hxff
  · rw [if_neg hxff]
    exact if_pos ⟨hne, hxff, h⟩

theorem of_rightmostUntrusted {entries : List String} (h : rightmostUntrusted trusted entries = some entry) :
    entry ≠ "" ∧ isTrusted trusted entry = false := by
  have hmem := List.mem_of_find?_eq_some h
  have huntrusted := List.find?_some h
  simp only [List.mem_reverse, List.mem_filter, decide_eq_true_eq] at hmem
  exact ⟨hmem.2, by simpa using huntrusted⟩

/-- What is taken from a trusted peer is an entry that is not trusted exactly if this comes first. -/
theorem clientIP_eq_iff (h : isTrusted trusted r.directIP = true) (hentry : entry ≠ "")
    (huntrusted : isTrusted trusted entry = false) :
    r.clientIP trusted = entry ↔ r.forwardedFor.head? = some entry := by
  rw [clientIP_of_trusted h, head?_forwardedFor, get]
  cases r.header (canonicalKey "X-Forwarded-For") with
  | nil =>
    refine iff_of_false (fun heq => ?_) (by simp)
    -- the peer is trusted and the entry is not
    rw [List.headD_nil, if_pos rfl] at heq
    rw [← heq, h] at huntrusted
    cases huntrusted
  | cons line lines =>
    rw [List.headD_cons, List.head?_cons, Option.map_some, Option.some_inj]
    split
    · rename_i hline
      subst hline
      refine iff_of_false (fun heq => ?_) fun heq => hentry heq.symm
      rw [← heq, h] at huntrusted
      cases huntrusted
    · rfl

/-- What stands left of the rightmost entry that is not trusted makes no difference to it. -/
theorem rightmostUntrusted_append (left right : List String) (hentry : entry ≠ "")
    (huntrusted : isTrusted trusted entry = false) (hright : ∀ x ∈ right, isTrusted trusted x = true) :
    rightmostUntrusted trusted (left ++ entry :: right) = some entry := by
  have hnone : (right.filter (· ≠ "")).reverse.find? (fun entry => !isTrusted trusted entry) = none := by
    rw [List.find?_eq_none]
    intro x hx
    simp [hright x (List.mem_filter.mp (List.mem_reverse.mp hx)).1]
  rw [rightmostUntrusted, List.filter_append, List.filter_cons_of_pos (by simpa using hentry),
    List.reverse_append, List.reverse_cons, List.find?_append, List.find?_append, hnone]
  simp [huntrusted]

/-- The address is the documented one exactly if no entry is to be preferred to the first element. Requests
of which this holds, and which differ only to the left of the rightmost entry that is not trusted, have the
same one. -/
theorem clientIP_iff (trusted : List Net.Network) (r : Inbound) :
    (r.AddressDocumented trusted ↔ r.FirstIsRightmost trusted) ∧
    ∀ (r₂ : Inbound) (left left₂ right : List String) (entry : String), r₂.remoteAddr = r.remoteAddr →
      r.forwardedFor = left ++ entry :: right → r₂.forwardedFor = left₂ ++ entry :: right →
      entry ≠ "" → isTrusted trusted entry = false → (∀ x ∈ right, isTrusted trusted x = true) →
      r.FirstIsRightmost trusted → r₂.FirstIsRightmost trusted →
      r.clientIP trusted = r₂.clientIP trusted := by
  constructor
  · unfold AddressDocumented FirstIsRightmost
    split
    · rename_i htrusted
      simp only [htrusted, true_imp_iff]
      refine forall₂_congr fun entry hentry => ?_
      obtain ⟨hne, huntrusted⟩ := of_rightmostUntrusted hentry
      exact clientIP_eq_iff htrusted hne huntrusted
    · rename_i htrusted
      exact iff_of_true (clientIP_of_not_trusted (Bool.eq_false_iff.mpr htrusted)) fun h => absurd h htrusted
  · intro r₂ left left₂ right entry hpeer hentries hentries₂ hne huntrusted hright hfirst hfirst₂
    have hdirect : r₂.directIP = r.directIP := by rw [directIP, directIP, hpeer]
    by_cases htrusted : isTrusted trusted r.directIP = true
    · have htrusted₂ : isTrusted trusted r₂.directIP = true := by rw [hdirect, htrusted]
      have hrightmost := fun left => rightmostUntrusted_append left right hne huntrusted hright
      rw [(clientIP_eq_iff htrusted hne huntrusted).mpr
          (hfirst htrusted entry (by rw [hentries, hrightmost left])),
        (clientIP_eq_iff htrusted₂ hne huntrusted).mpr
          (hfirst₂ htrusted₂ entry (by rw [hentries₂, hrightmost left₂]))]
    · have hfalse := Bool.eq_false_iff.mpr htrusted
      rw [clientIP_of_not_trusted hfalse, clientIP_of_not_trusted (by rw [hdirect, hfalse]), hdirect]

end Inbound

/-- The networks of the proxies. -/
def proxyNetworks : List Net.Network := parseTrustedProxies ["10.0.0.0/8"]

/-- A request that comes through a proxy. -/
def proxiedRequest (forwardedFor : String) : Inbound :=
  { plainRequest "/" hasPrefix_root with
    header := fun key => if key = canonicalKey "X-Forwarded-For" then [forwardedFor] else []
    remoteAddr := "10.0.0.1:40000" }

theorem clientIP_documented : (proxiedRequest "203.0.113.7, 10.0.0.2").AddressDocumented proxyNetworks :=
  (Inbound.clientIP_iff proxyNetworks (proxiedRequest "203.0.113.7, 10.0.0.2")).1.mpr
    fun _ _ h => h

/-- The client has sent an address of its own choice, to which the proxy has appended the real one. -/
theorem clientIP_spoofed :
    (proxiedRequest "6.6.6.6, 203.0.113.7").clientIP proxyNetworks = "6.6.6.6" ∧
    Inbound.isTrusted proxyNetworks (proxiedRequest "6.6.6.6, 203.0.113.7").directIP = true ∧
    Inbound.rightmostUntrusted proxyNetworks (proxiedRequest "6.6.6.6, 203.0.113.7").forwardedFor =
      some "203.0.113.7" := by
  decide +kernel

end Vrata.Proxy

import Vrata.Lib.Duration
import Vrata.Proxy.Headers
import Vrata.Proxy.Retry

/-!
# The gRPC timeout of a request

Reference: `parseGRPCTimeout`, `formatGRPCTimeout` and their use in `forwardHandler` of
`server/internal/proxy/handler.go`.

A route can have a maximum for the `grpc-timeout` header. The value of the client is scanned with
`fmt.Sscanf`, which accepts spaces and a sign in front and ignores what follows the digits, and multiplied by
its unit in 64 bits. If the product exceeds the maximum, the header is replaced by the maximum, in micro- or
milliseconds.

A `GrpcTimeout` is a value as the protocol has it, and `Clamped` says what clamping is for. `clamped_iff` says
when it is achieved: the product must not wrap around to a value below the maximum, and the maximum must have
an expression in milli- or microseconds that is neither zero nor longer than eight digits.
-/

namespace Vrata.Proxy

open Server

/-! ## The code -/

inductive GrpcUnit where
  | hour | minute | second | milli | micro | nano
deriving DecidableEq, Repr

namespace GrpcUnit

def char : GrpcUnit → Char
  | hour => 'H'
  | minute => 'M'
  | second => 'S'
  | milli => 'm'
  | micro => 'u'
  | nano => 'n'

def ofChar (c : Char) : Option GrpcUnit :=
  [hour, minute, second, milli, micro, nano].find? fun u => u.char = c

def nanoseconds : GrpcUnit → ℕ
  | hour => 3600000000000
  | minute => 60000000000
  | second => 1000000000
  | milli => 1000000
  | micro => 1000
  | nano => 1

theorem ofChar_char (u : GrpcUnit) : ofChar u.char = some u := by
  cases u <;> decide

end GrpcUnit

/-- An optional sign. -/
def scanSign : List Char → Bool × List Char
  | '-' :: text => (true, text)
  | '+' :: text => (false, text)
  | text => (false, text)

/-- `fmt.Sscanf` with `%d`. A line break is not a space here. -/
def scanInt (text : List Char) : Option ℤ :=
  let (negative, text) := scanSign (text.dropWhile fun c => Text.isSpace c && c ≠ '\n')
  let digits := text.takeWhile Char.isDigit
  let n := Duration.numeral digits
  if digits = [] then none
  else if negative then if n ≤ Duration.limit then some (-n) else none
  else if n < Duration.limit then some n else none

def parseGRPCTimeout (s : String) : Option ℤ :=
  if s.length < 2 then none
  else do
    let n ← scanInt s.toList.dropLast
    let u ← s.toList.getLast?.bind GrpcUnit.ofChar
    return wrap64 (n * u.nanoseconds)

def formatGRPCTimeout (d : ℤ) : String :=
  if d.tdiv 1000 < 1000 then toString (d.tdiv 1000) ++ "u" else toString (d.tdiv 1000000) ++ "m"

/-- `Header.Get` of the timeout. -/
def Header.grpcTimeout (h : Header) : String := (h (canonicalKey "grpc-timeout")).headD ""

/-- The header that `forwardHandler` sends, for a route with `maxGrpcTimeout`. -/
def clampTimeout (maxGrpcTimeout : String) (h : Header) : Header :=
  if maxGrpcTimeout = "" then h
  else match Duration.parse maxGrpcTimeout with
    | none => h
    | some maxDur =>
      if h.grpcTimeout = "" then h
      else match parseGRPCTimeout h.grpcTimeout with
        | none => h
        | some clientDur =>
          if maxDur < clientDur then h.set "grpc-timeout" (formatGRPCTimeout maxDur) else h

/-! ## The protocol -/

/-- A timeout of the protocol: at most eight digits and a unit. -/
structure GrpcTimeout where
  digits : List Char
  unit : GrpcUnit
  nonempty : digits ≠ []
  short : digits.length ≤ 8
  decimal : ∀ c ∈ digits, c.isDigit = true

namespace GrpcTimeout

def text (t : GrpcTimeout) : String := String.ofList (t.digits ++ [t.unit.char])

def nanoseconds (t : GrpcTimeout) : ℕ := Duration.numeral t.digits * t.unit.nanoseconds

theorem numeral_lt (t : GrpcTimeout) : Duration.numeral t.digits < 100000000 :=
  (Duration.numeral_lt t.decimal).trans_le (Nat.pow_le_pow_right (by decide) t.short)

end GrpcTimeout

/-- The handler replaces the timeout. -/
def Exceeds (maxDur : ℤ) (h : Header) : Prop := ∃ d, parseGRPCTimeout h.grpcTimeout = some d ∧ maxDur < d

/-- What a maximum is for: no timeout that is sent is longer, one that is not longer is left alone, and one
that is written is a timeout of the protocol. -/
structure Clamped (maxGrpcTimeout : String) (maxDur : ℤ) (h : Header) : Prop where
  bounded : ∀ t : GrpcTimeout, (clampTimeout maxGrpcTimeout h).grpcTimeout = t.text → t.nanoseconds ≤ maxDur
  kept : ∀ t : GrpcTimeout, h.grpcTimeout = t.text → t.nanoseconds ≤ maxDur →
    clampTimeout maxGrpcTimeout h = h
  written : Exceeds maxDur h → ∃ t : GrpcTimeout,
    (clampTimeout maxGrpcTimeout h).grpcTimeout = t.text ∧ 0 < t.nanoseconds

/-! ## What is read -/

/-- A digit is neither a space nor a sign. -/
theorem plain_of_isDigit {c : Char} (h : c.isDigit = true) :
    Text.isSpace c = false ∧ c ≠ '-' ∧ c ≠ '+' := by
  simp only [Char.isDigit, Bool.and_eq_true, decide_eq_true_eq, UInt32.le_iff_toNat_le] at h
  have hlow : 48 ≤ c.toNat := h.1
  have hhigh : c.toNat ≤ 57 := h.2
  obtain ⟨k, hk⟩ : ∃ k : Fin 10, c.toNat = 48 + k := ⟨⟨c.toNat - 48, by omega⟩, by simp only; omega⟩
  rw [← Char.ofNat_toNat c, hk]
  clear hk
  revert k
  decide

theorem scanInt_digits {digits : List Char} (hne : digits ≠ []) (h : ∀ c ∈ digits, c.isDigit = true)
    (hlt : Duration.numeral digits < Duration.limit) :
    scanInt digits = some (Duration.numeral digits : ℤ) := by
  obtain ⟨c, rest, rfl⟩ := List.exists_cons_of_ne_nil hne
  obtain ⟨hspace, hminus, hplus⟩ := plain_of_isDigit (h c List.mem_cons_self)
  have hsign : scanSign (c :: rest) = (false, c :: rest) := by
    unfold scanSign
    split <;> simp_all
  have htake : (c :: rest).takeWhile Char.isDigit = c :: rest := List.takeWhile_eq_self_iff.mpr h
  rw [scanInt, List.dropWhile_cons_of_neg (by simp [hspace]), hsign]
  simp only [htake, if_neg hne, Bool.false_eq_true, if_false, if_pos hlt]

/-- A timeout of the protocol is read as its length, wrapped around. -/
theorem parseGRPCTimeout_text (t : GrpcTimeout) :
    parseGRPCTimeout t.text = some (wrap64 t.nanoseconds) := by
  have hlength : ¬t.text.length < 2 := by
    have hpos := List.length_pos_of_ne_nil t.nonempty
    rw [GrpcTimeout.text, String.length_ofList, List.length_append, List.length_singleton]
    omega
  have hlimit : Duration.numeral t.digits < Duration.limit := t.numeral_lt.trans (by decide)
  have hscan := scanInt_digits t.nonempty t.decimal hlimit
  rw [parseGRPCTimeout, if_neg hlength, GrpcTimeout.text, String.toList_ofList, List.dropLast_concat, hscan,
    List.getLast?_concat, Option.bind_some, GrpcUnit.ofChar_char]
  simp [GrpcTimeout.nanoseconds]

/-! ## What is written -/

/-- The timeouts among numbers with a unit. -/
theorem text_eq_iff (t : GrpcTimeout) (n : ℕ) (u : GrpcUnit) :
    toString n ++ String.ofList [u.char] = t.text ↔
      t.digits = (toString n).toList ∧ t.unit = u := by
  rw [← String.toList_inj, String.toList_append, GrpcTimeout.text, String.toList_ofList,
    String.toList_ofList]
  constructor
  · intro h
    obtain ⟨hdigits, hunit⟩ := List.append_inj' h rfl
    have hchar : GrpcUnit.ofChar u.char = GrpcUnit.ofChar t.unit.char := by rw [List.singleton_inj.mp hunit]
    rw [GrpcUnit.ofChar_char, GrpcUnit.ofChar_char] at hchar
    exact ⟨hdigits.symm, (Option.some.inj hchar).symm⟩
  · rintro ⟨hdigits, rfl⟩
    rw [hdigits]

theorem nanoseconds_of_text {t : GrpcTimeout} {n : ℕ} {u : GrpcUnit}
    (h : toString n ++ String.ofList [u.char] = t.text) :
    t.nanoseconds = n * u.nanoseconds ∧ n < 100000000 := by
  obtain ⟨hdigits, rfl⟩ := (text_eq_iff t n u).mp h
  have hn : Duration.numeral t.digits = n := by rw [hdigits, Duration.numeral_toString]
  exact ⟨by rw [GrpcTimeout.nanoseconds, hn], hn ▸ t.numeral_lt⟩

theorem exists_text {n : ℕ} (h : n < 100000000) (u : GrpcUnit) :
    ∃ t : GrpcTimeout, toString n ++ String.ofList [u.char] = t.text := by
  have hdigits : (toString n).toList = Nat.toDigits 10 n := by
    rw [Nat.toString_eq_ofList_toDigits, String.toList_ofList]
  refine ⟨⟨(toString n).toList, u, ?_, ?_, fun c hc => Text.isDigit_of_mem_toString hc⟩,
    (text_eq_iff _ n u).mpr ⟨rfl, rfl⟩⟩
  · rw [hdigits]
    exact Nat.toDigits_ne_nil
  · rw [hdigits]
    exact (Nat.length_toDigits_le_iff (by decide) (by decide)).mpr h

/-- The maximum as it is written, in its unit. -/
theorem formatGRPCTimeout_eq (m : ℕ) :
    formatGRPCTimeout m = if m < 1000000 then toString (m / 1000) ++ String.ofList [GrpcUnit.micro.char]
      else toString (m / 1000000) ++ String.ofList [GrpcUnit.milli.char] := by
  have hmicro : (m : ℤ).tdiv 1000 = (m / 1000 : ℕ) := rfl
  have hmilli : (m : ℤ).tdiv 1000000 = (m / 1000000 : ℕ) := rfl
  have hlt : ((m / 1000 : ℕ) : ℤ) < 1000 ↔ m < 1000000 := by omega
  rw [formatGRPCTimeout, hmicro, hmilli]
  simp only [hlt]
  rfl

/-- What is written is never longer than the maximum, and is a timeout of the protocol exactly if the maximum
is at least a microsecond and less than 100,000 seconds. -/
theorem formatGRPCTimeout_spec (m : ℕ) :
    (∀ t : GrpcTimeout, formatGRPCTimeout m = t.text → t.nanoseconds ≤ m) ∧
      ((∃ t : GrpcTimeout, formatGRPCTimeout m = t.text ∧ 0 < t.nanoseconds) ↔
        1000 ≤ m ∧ m < 100000000000000) := by
  rw [formatGRPCTimeout_eq]
  -- in microseconds the number is short but can be zero, in milliseconds it is positive but can be long
  split
  · refine ⟨fun t ht => ?_, ?_, ?_⟩
    · rw [(nanoseconds_of_text ht).1]
      exact Nat.div_mul_le_self m 1000
    · rintro ⟨t, ht, hpos⟩
      rw [(nanoseconds_of_text ht).1] at hpos
      have hmicro : 0 < m / 1000 := Nat.pos_of_mul_pos_right hpos
      omega
    · rintro ⟨hlow, -⟩
      obtain ⟨t, ht⟩ := exists_text (n := m / 1000) (by omega) .micro
      refine ⟨t, ht, ?_⟩
      rw [(nanoseconds_of_text ht).1]
      exact Nat.mul_pos (by omega) (by decide)
  · refine ⟨fun t ht => ?_, ?_, ?_⟩
    · rw [(nanoseconds_of_text ht).1]
      exact Nat.div_mul_le_self m 1000000
    · rintro ⟨t, ht, -⟩
      have hshort := (nanoseconds_of_text ht).2
      omega
    · rintro ⟨-, hhigh⟩
      obtain ⟨t, ht⟩ := exists_text (n := m / 1000000) (by omega) .milli
      refine ⟨t, ht, ?_⟩
      rw [(nanoseconds_of_text ht).1]
      exact Nat.mul_pos (by omega) (by decide)

/-! ## The clamp -/

section Clamp

variable {maxGrpcTimeout : String} {m : ℕ} {h : Header}

theorem clampTimeout_of_exceeds (hmax : Duration.parse maxGrpcTimeout = some (m : ℤ))
    (hexceeds : Exceeds m h) :
    (clampTimeout maxGrpcTimeout h).grpcTimeout = formatGRPCTimeout m := by
  obtain ⟨d, hd, hlt⟩ := hexceeds
  have hne : maxGrpcTimeout ≠ "" := by
    rintro rfl
    cases hmax
  have hpresent : h.grpcTimeout ≠ "" := by
    intro hempty
    rw [hempty] at hd
    cases hd
  rw [clampTimeout, if_neg hne, hmax]
  simp only [if_neg hpresent, hd, if_pos hlt]
  simp only [Header.grpcTimeout, Header.set, Function.update_self, List.headD_cons]

theorem clampTimeout_of_not_exceeds (hmax : Duration.parse maxGrpcTimeout = some (m : ℤ))
    (hexceeds : ¬Exceeds m h) : clampTimeout maxGrpcTimeout h = h := by
  rw [clampTimeout, hmax]
  cases hd : parseGRPCTimeout h.grpcTimeout with
  | none => simp
  | some d => simp [show ¬(m : ℤ) < d from fun hlt => hexceeds ⟨d, hd, hlt⟩]

theorem exceeds_text_iff {t : GrpcTimeout} (ht : h.grpcTimeout = t.text) :
    Exceeds m h ↔ (m : ℤ) < wrap64 t.nanoseconds := by
  rw [Exceeds, ht, parseGRPCTimeout_text]
  simp

/-- A number that is not negative does not grow by wrapping around. -/
theorem wrap64_le (n : ℕ) : wrap64 n ≤ n := by
  unfold wrap64
  omega

end Clamp

/-- Clamping a timeout to a positive maximum does what it is for exactly if no longer timeout wraps around to
one that is not longer, and a maximum that is written lies between a microsecond and 100,000 seconds. -/
theorem clamped_iff (maxGrpcTimeout : String) (maxDur : ℤ) (h : Header)
    (hmax : Duration.parse maxGrpcTimeout = some maxDur) (hpos : 0 < maxDur) :
    Clamped maxGrpcTimeout maxDur h ↔
      (∀ t : GrpcTimeout, h.grpcTimeout = t.text → maxDur < t.nanoseconds → maxDur < wrap64 t.nanoseconds) ∧
      (Exceeds maxDur h → 1000 ≤ maxDur ∧ maxDur < 100000000000000) := by
  obtain ⟨m, rfl⟩ := Int.eq_ofNat_of_zero_le (Int.le_of_lt hpos)
  obtain ⟨hbound, hvalid⟩ := formatGRPCTimeout_spec m
  constructor
  · intro hclamped
    refine ⟨fun t ht hlong => ?_, fun hexceeds => ?_⟩
    · -- a timeout that wraps around is kept as it is
      by_contra hwrapped
      have hkept := clampTimeout_of_not_exceeds hmax (mt (exceeds_text_iff ht).mp hwrapped)
      exact absurd (hclamped.bounded t (by rw [hkept, ht])) (Int.not_le.mpr hlong)
    · obtain ⟨t, ht, hzero⟩ := hclamped.written hexceeds
      rw [clampTimeout_of_exceeds hmax hexceeds] at ht
      have hrange := hvalid.mp ⟨t, ht, hzero⟩
      omega
  · rintro ⟨hwrap, hrange⟩
    refine ⟨fun t ht => ?_, fun t ht hle => ?_, fun hexceeds => ?_⟩
    · by_cases hexceeds : Exceeds m h
      · rw [clampTimeout_of_exceeds hmax hexceeds] at ht
        exact Int.ofNat_le.mpr (hbound t ht)
      · rw [clampTimeout_of_not_exceeds hmax hexceeds] at ht
        by_contra hlong
        exact hexceeds ((exceeds_text_iff ht).mpr (hwrap t ht (Int.not_le.mp hlong)))
    · exact clampTimeout_of_not_exceeds hmax fun hexceeds =>
        absurd ((exceeds_text_iff ht).mp hexceeds) (Int.not_lt.mpr (Int.le_trans (wrap64_le _) hle))
    · rw [clampTimeout_of_exceeds hmax hexceeds]
      have hm := hrange hexceeds
      exact hvalid.mpr (by omega)

/-- A request with one timeout. -/
def timeoutHeader (value : String) : Header := Header.set (fun _ => []) "grpc-timeout" value

theorem clamped_minute : Clamped "1m" 60000000000 (timeoutHeader "90S") ↔
    (∀ t : GrpcTimeout, (timeoutHeader "90S").grpcTimeout = t.text → 60000000000 < (t.nanoseconds : ℤ) →
      60000000000 < wrap64 t.nanoseconds) ∧
    (Exceeds 60000000000 (timeoutHeader "90S") →
      (1000 : ℤ) ≤ 60000000000 ∧ (60000000000 : ℤ) < 100000000000000) :=
  clamped_iff "1m" 60000000000 (timeoutHeader "90S") (by decide) (by decide)

/-- Some 292 years are sent to a route with a maximum of an hour; a maximum of 500 nanoseconds is written as
zero, and one of 28 hours with nine digits. -/
theorem unclamped_timeouts :
    (∃ t : GrpcTimeout, (clampTimeout "1h" (timeoutHeader "2562048H")).grpcTimeout = t.text ∧
      3600000000000 < t.nanoseconds) ∧
    (clampTimeout "500ns" (timeoutHeader "1S")).grpcTimeout = "0u" ∧
    (clampTimeout "28h" (timeoutHeader "30H")).grpcTimeout = "100800000m" :=
  ⟨⟨⟨"2562048".toList, .hour, by decide, by decide, by simp⟩, by decide, by decide⟩, by decide, by decide⟩

end Vrata.Proxy

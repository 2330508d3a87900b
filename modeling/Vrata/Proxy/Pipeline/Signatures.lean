import Vrata.Lib.Der

/-!
# Signatures on elliptic curves

Reference: `ecConvertP1363ToASN1` and `verify` of `server/internal/proxy/middlewares/jwt.go`.

The signature of a token is the two numbers of an ECDSA signature in as many octets each as the curve has. The
library that verifies it wants them in DER. The code writes all lengths in one octet, which is the encoding
exactly if they are below 128: always on the smaller curves, and on P-521 if the numbers happen to be short
(`ecConvert_iff`).
-/

namespace Vrata.Proxy

open Der

inductive Curve where
  | p256
  | p384
  | p521
deriving DecidableEq, Repr

namespace Curve

/-- `Params().BitSize`. -/
def bitSize : Curve → ℕ
  | p256 => 256
  | p384 => 384
  | p521 => 521

/-- The octets of a coordinate. -/
def byteLen (curve : Curve) : ℕ := (curve.bitSize + 7) / 8

theorem byteLen_le (curve : Curve) : curve.byteLen ≤ 66 := by cases curve <;> decide

end Curve

/-- The octets of a `big.Int`, with a zero in front if the high bit is set. -/
def signedBytes (n : ℕ) : List UInt8 :=
  match octets n with
  | [] => []
  | b :: bs => if b &&& 0x80 ≠ 0 then 0 :: b :: bs else b :: bs

def ecConvertP1363ToASN1 (sig : List UInt8) (curve : Curve) : Option (List UInt8) :=
  if sig.length ≠ 2 * curve.byteLen then none
  else
    let rBytes := signedBytes (value (sig.take curve.byteLen))
    let sBytes := signedBytes (value (sig.drop curve.byteLen))
    some ([0x30, UInt8.ofNat (rBytes.length + sBytes.length + 4), 0x02, UInt8.ofNat rBytes.length] ++
      rBytes ++ [0x02, UInt8.ofNat sBytes.length] ++ sBytes)

theorem and_high_ne_zero_iff (b : UInt8) : b &&& 0x80 ≠ 0 ↔ 128 ≤ b.toNat := by
  have hall : ∀ n : Fin 256, UInt8.ofNat n &&& 0x80 ≠ 0 ↔ 128 ≤ n.val := by decide +kernel
  simpa using hall ⟨b.toNat, b.toNat_lt⟩

theorem signedBytes_eq_integer {n : ℕ} (h : 0 < n) : signedBytes n = integer n := by
  have hne := octets_ne_nil h
  unfold signedBytes integer
  cases hoctets : octets n with
  | nil => contradiction
  | cons b bs => simp only [and_high_ne_zero_iff]

theorem length_integer_value_le (bs : List UInt8) : (integer (value bs)).length ≤ bs.length + 1 := by
  have hinteger := length_integer_le (value bs)
  have hoctets := length_octets_value_le bs
  omega

/-- The content of the sequence. -/
def signatureContent (r s : List UInt8) : List UInt8 :=
  element 0x02 (integer (value r)) ++ element 0x02 (integer (value s))

section Conversion

variable {curve : Curve} {r s : List UInt8}

theorem length_signatureContent (hr : r.length = curve.byteLen) (hs : s.length = curve.byteLen) :
    (signatureContent r s).length = (integer (value r)).length + (integer (value s)).length + 4 := by
  have hbyte := curve.byteLen_le
  have hrlen := length_integer_value_le r
  have hslen := length_integer_value_le s
  rw [signatureContent, List.length_append, (length_element _ _).mpr (by omega),
    (length_element _ _).mpr (by omega)]
  omega

/-- What comes out of two coordinates that are not zero. -/
theorem ecConvert_append (hr : r.length = curve.byteLen) (hs : s.length = curve.byteLen)
    (hr0 : 0 < value r) (hs0 : 0 < value s) :
    ecConvertP1363ToASN1 (r ++ s) curve =
      some (0x30 :: UInt8.ofNat (signatureContent r s).length :: signatureContent r s) := by
  have hbyte := curve.byteLen_le
  have hrlen := length_integer_value_le r
  have hslen := length_integer_value_le s
  have htake : (r ++ s).take curve.byteLen = r := by rw [← hr, List.take_left]
  have hdrop : (r ++ s).drop curve.byteLen = s := by rw [← hr, List.drop_left]
  rw [length_signatureContent hr hs, ecConvertP1363ToASN1,
    if_neg (by rw [List.length_append, hr, hs]; omega), htake, hdrop, signedBytes_eq_integer hr0,
    signedBytes_eq_integer hs0, signatureContent, element_of_short (by omega), element_of_short (by omega)]
  simp

theorem ecConvert_of_short (hr : r.length = curve.byteLen) (hs : s.length = curve.byteLen)
    (hr0 : 0 < value r) (hs0 : 0 < value s) (hshort : (signatureContent r s).length < 128) :
    ecConvertP1363ToASN1 (r ++ s) curve = some (pair (value r) (value s)) := by
  rw [ecConvert_append hr hs hr0 hs0, ← element_of_short hshort]
  rfl

/-- In the long form the encoding has an octet more. -/
theorem short_of_ecConvert (hr : r.length = curve.byteLen) (hs : s.length = curve.byteLen)
    (hr0 : 0 < value r) (hs0 : 0 < value s)
    (h : ecConvertP1363ToASN1 (r ++ s) curve = some (pair (value r) (value s))) :
    (signatureContent r s).length < 128 := by
  rw [ecConvert_append hr hs hr0 hs0, Option.some_inj] at h
  have hlen := congrArg List.length h
  refine (length_element 0x30 _).mp (hlen.symm.trans ?_)
  simp

/-- On the smaller curves the sequence is always short. -/
theorem short_iff (hr : r.length = curve.byteLen) (hs : s.length = curve.byteLen) :
    (signatureContent r s).length < 128 ↔
      curve ≠ .p521 ∨ (integer (value r)).length + (integer (value s)).length ≤ 123 := by
  have hrlen := length_integer_value_le r
  have hslen := length_integer_value_le s
  rw [length_signatureContent hr hs]
  cases curve with
  | p256 =>
    have hbyte : Curve.p256.byteLen = 32 := rfl
    exact iff_of_true (by omega) (.inl (by simp))
  | p384 =>
    have hbyte : Curve.p384.byteLen = 48 := rfl
    exact iff_of_true (by omega) (.inl (by simp))
  | p521 =>
    rw [or_iff_right (by simp)]
    omega

end Conversion

/-- The signature is converted to the encoding of its pair of numbers, and of no other pair, exactly if the
curve is not P-521 or the integers are so short that their sequence is below 128 octets. -/
theorem ecConvert_iff (curve : Curve) (r s : List UInt8) (hr : r.length = curve.byteLen)
    (hs : s.length = curve.byteLen) (hr0 : 0 < value r) (hs0 : 0 < value s) :
    (∀ a b, ecConvertP1363ToASN1 (r ++ s) curve = some (pair a b) ↔ a = value r ∧ b = value s) ↔
      curve ≠ .p521 ∨ (integer (value r)).length + (integer (value s)).length ≤ 123 := by
  rw [← short_iff hr hs]
  constructor
  · intro h
    exact short_of_ecConvert hr hs hr0 hs0 ((h _ _).mpr ⟨rfl, rfl⟩)
  · intro hshort a b
    rw [ecConvert_of_short hr hs hr0 hs0 hshort, Option.some_inj]
    constructor
    · exact fun h => pair_injective hshort h
    · rintro ⟨rfl, rfl⟩
      rfl

/-- A coordinate with a one in its first octet. -/
def coordinate (curve : Curve) : List UInt8 := 1 :: List.replicate (curve.byteLen - 1) 0

theorem value_coordinate_pos (curve : Curve) : 0 < value (coordinate curve) :=
  value_cons_pos (by decide) _

theorem ecConvert_p256 :
    0 < value (coordinate .p256) ∧
      ecConvertP1363ToASN1 (coordinate .p256 ++ coordinate .p256) .p256 =
        some (pair (value (coordinate .p256)) (value (coordinate .p256))) := by
  have hpos := value_coordinate_pos .p256
  have hpair :=
    (ecConvert_iff .p256 (coordinate .p256) (coordinate .p256) rfl rfl hpos hpos).mpr (.inl (by simp))
  exact ⟨hpos, (hpair _ _).mpr ⟨rfl, rfl⟩⟩

/-- Two integers of 66 octets: the length of the sequence is 136, and is written in one octet. -/
theorem ecConvert_p521 :
    ecConvertP1363ToASN1 (coordinate .p521 ++ coordinate .p521) .p521 ≠
      some (pair (value (coordinate .p521)) (value (coordinate .p521))) := by
  intro h
  have hpos := value_coordinate_pos .p521
  have hshort := short_of_ecConvert rfl rfl hpos hpos h
  have hinteger : integer (value (coordinate .p521)) = coordinate .p521 := by
    rw [integer, coordinate, octets_value_cons (by decide)]
    rfl
  have hlength : (coordinate .p521).length = Curve.p521.byteLen := rfl
  rw [length_signatureContent hlength hlength, hinteger] at hshort
  exact absurd hshort (by decide)

end Vrata.Proxy

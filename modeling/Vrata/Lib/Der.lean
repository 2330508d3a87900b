import Mathlib.Data.Nat.Digits.Lemmas

/-!
# Numbers and pairs of numbers in DER

The distinguished encoding of ASN.1, as far as it is needed for a sequence of two integers that are not
negative. An integer takes as few octets as it can, with a zero in front if the first bit is set. A length
below 128 is one octet; a longer one is written in as few octets as it can, behind the number of these.
-/

namespace Der

/-! ## Octets of a number, the most significant first -/

def value (bs : List UInt8) : ℕ := Nat.ofDigits 256 (bs.reverse.map UInt8.toNat)

/-- As few octets as possible; none for zero. -/
def octets (n : ℕ) : List UInt8 := ((Nat.digits 256 n).map UInt8.ofNat).reverse

theorem value_octets (n : ℕ) : value (octets n) = n := by
  have hmap : ((Nat.digits 256 n).map UInt8.ofNat).map UInt8.toNat = Nat.digits 256 n := by
    rw [List.map_map]
    refine (List.map_congr_left fun d hd => ?_).trans (List.map_id _)
    exact UInt8.toNat_ofNat_of_lt (Nat.digits_lt_base (by norm_num) hd)
  rw [value, octets, List.reverse_reverse, hmap, Nat.ofDigits_digits]

theorem value_zero_cons (bs : List UInt8) : value (0 :: bs) = value bs := by
  simp [value, Nat.ofDigits_append]

theorem value_dropWhile (bs : List UInt8) : value (bs.dropWhile (· = 0)) = value bs := by
  induction bs with
  | nil => rfl
  | cons b bs ih =>
    by_cases hb : b = 0
    · subst hb
      rw [List.dropWhile_cons_of_pos (by simp), ih, value_zero_cons]
    · rw [List.dropWhile_cons_of_neg (by simpa using hb)]

theorem octets_value_cons {b : UInt8} (hb : b ≠ 0) (bs : List UInt8) :
    octets (value (b :: bs)) = b :: bs := by
  have hdigits : Nat.digits 256 (value (b :: bs)) = (b :: bs).reverse.map UInt8.toNat := by
    refine Nat.digits_ofDigits 256 (by norm_num) _ (fun d hd => ?_) fun _ => ?_
    · obtain ⟨x, -, rfl⟩ := List.mem_map.mp hd
      exact x.toNat_lt
    · simpa [← UInt8.toNat_inj] using hb
  rw [octets, hdigits, List.map_map, List.reverse_cons]
  simp [Function.comp_def]

theorem value_cons_pos {b : UInt8} (hb : b ≠ 0) (bs : List UInt8) : 0 < value (b :: bs) := by
  have hoctets := octets_value_cons hb bs
  refine Nat.pos_of_ne_zero fun hzero => ?_
  rw [hzero] at hoctets
  exact List.cons_ne_nil b bs (hoctets.symm.trans (by simp [octets]))

/-- The octets of a number that is given in octets are these without zeros in front. -/
theorem octets_value (bs : List UInt8) : octets (value bs) = bs.dropWhile (· = 0) := by
  rw [← value_dropWhile]
  cases h : bs.dropWhile (· = 0) with
  | nil => simp [octets, value]
  | cons b rest =>
    have hb : b ≠ 0 := by
      have hne : bs.dropWhile (· = 0) ≠ [] := h ▸ List.cons_ne_nil b rest
      have hhead := List.head_dropWhile_not (fun b : UInt8 => decide (b = 0)) hne
      simp only [h, List.head_cons] at hhead
      simpa using hhead
    exact octets_value_cons hb rest

theorem length_octets_value_le (bs : List UInt8) : (octets (value bs)).length ≤ bs.length := by
  rw [octets_value]
  exact (List.dropWhile_suffix _).length_le

theorem octets_ne_nil {n : ℕ} (h : 0 < n) : octets n ≠ [] := by
  intro hnil
  have hvalue := value_octets n
  rw [hnil] at hvalue
  have hzero : n = 0 := hvalue.symm
  omega

/-! ## Elements -/

/-- The content of an integer that is not negative. -/
def integer (n : ℕ) : List UInt8 :=
  match octets n with
  | [] => [0]
  | b :: bs => if 128 ≤ b.toNat then 0 :: b :: bs else b :: bs

def lengthOctets (n : ℕ) : List UInt8 :=
  if n < 128 then [UInt8.ofNat n] else UInt8.ofNat (128 + (octets n).length) :: octets n

def element (tag : UInt8) (content : List UInt8) : List UInt8 :=
  tag :: (lengthOctets content.length ++ content)

/-- A sequence of two integers. -/
def pair (r s : ℕ) : List UInt8 := element 0x30 (element 0x02 (integer r) ++ element 0x02 (integer s))

theorem value_integer (n : ℕ) : value (integer n) = n := by
  have hvalue := value_octets n
  unfold integer
  split
  · rename_i hnil
    rw [hnil] at hvalue
    exact hvalue
  · rename_i b bs hcons
    rw [hcons] at hvalue
    split
    · rw [value_zero_cons, hvalue]
    · exact hvalue

theorem integer_injective {m n : ℕ} (h : integer m = integer n) : m = n := by
  rw [← value_integer m, h, value_integer]

theorem length_integer_le (n : ℕ) : (integer n).length ≤ (octets n).length + 1 := by
  unfold integer
  split
  · rename_i hnil
    simp [hnil]
  · rename_i b bs hcons
    rw [hcons]
    split <;> simp

theorem element_of_short {tag : UInt8} {content : List UInt8} (h : content.length < 128) :
    element tag content = tag :: UInt8.ofNat content.length :: content := by
  rw [element, lengthOctets, if_pos h]
  rfl

/-- An element is at least two octets longer than its content, and exactly so if this is short. -/
theorem length_element (tag : UInt8) (content : List UInt8) :
    (element tag content).length = content.length + 2 ↔ content.length < 128 := by
  by_cases h : content.length < 128
  · simp [element_of_short h, h]
  · have hpos : octets content.length ≠ [] := octets_ne_nil (by omega)
    have hlen := List.length_pos_of_ne_nil hpos
    rw [element, lengthOctets, if_neg h]
    simp only [List.length_cons, List.length_append]
    omega

theorem length_element_le (tag : UInt8) (content : List UInt8) :
    content.length + 2 ≤ (element tag content).length := by
  have hpos : 1 ≤ (lengthOctets content.length).length := by
    unfold lengthOctets
    split <;> simp
  simp only [element, List.length_cons, List.length_append]
  omega

/-- What follows a short element can be told from it. -/
theorem element_append_inj {tag : UInt8} {c c' x x' : List UInt8} (hc : c.length < 128)
    (hc' : c'.length < 128) (h : element tag c ++ x = element tag c' ++ x') : c = c' ∧ x = x' := by
  rw [element_of_short hc, element_of_short hc'] at h
  simp only [List.cons_append, List.cons.injEq, true_and] at h
  obtain ⟨hlength, happend⟩ := h
  have hnat := congrArg UInt8.toNat hlength
  simp only [UInt8.toNat_ofNat'] at hnat
  exact List.append_inj happend (by omega)

theorem element_inj {tag : UInt8} {c c' : List UInt8} (hc : c.length < 128) (hc' : c'.length < 128)
    (h : element tag c = element tag c') : c = c' :=
  (element_append_inj hc hc' (congrArg (· ++ []) h)).1

/-- A sequence that is short holds one pair only. -/
theorem pair_injective {r s a b : ℕ}
    (hshort : (element 0x02 (integer r) ++ element 0x02 (integer s)).length < 128)
    (h : pair r s = pair a b) : a = r ∧ b = s := by
  have hshort' : (element 0x02 (integer a) ++ element 0x02 (integer b)).length < 128 := by
    have hlen := congrArg List.length h
    have hle := length_element_le 0x30 (element 0x02 (integer a) ++ element 0x02 (integer b))
    unfold pair at hlen
    rw [(length_element 0x30 _).mpr hshort] at hlen
    omega
  have hcontent := element_inj hshort hshort' h
  rw [List.length_append] at hshort hshort'
  have hr := length_element_le 0x02 (integer r)
  have ha := length_element_le 0x02 (integer a)
  obtain ⟨hfirst, hrest⟩ := element_append_inj (by omega) (by omega) hcontent
  have hs := length_element_le 0x02 (integer s)
  have hb := length_element_le 0x02 (integer b)
  have hsecond := element_inj (by omega) (by omega) hrest
  exact ⟨integer_injective hfirst.symm, integer_injective hsecond.symm⟩

end Der

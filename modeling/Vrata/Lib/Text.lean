import Mathlib.Data.List.TakeWhile
import Mathlib.Data.Nat.Notation

/-!
# Text read as a list of characters

Prefixes, cuts at a separator and decimal numerals, over `String.toList`. The functions agree with
the byte-level ones of a UTF-8 library whenever the separator and the prefix are themselves valid
text, and they compute in the kernel.
-/

namespace Text

/-- Does `s` start with `p`? -/
def hasPrefix (s p : String) : Bool := p.toList.isPrefixOf s.toList

/-- Does `s` end with `p`? -/
def hasSuffix (s p : String) : Bool := p.toList.isSuffixOf s.toList

@[simp] theorem hasPrefix_iff {s p : String} : hasPrefix s p = true ↔ p.toList <+: s.toList :=
  List.isPrefixOf_iff_prefix

theorem hasPrefix_append (p s : String) : hasPrefix (p ++ s) p = true := by
  rw [hasPrefix_iff, String.toList_append]
  exact List.prefix_append _ _

/-- ASCII letters in lower case. -/
def toLower (s : String) : String := String.ofList (s.toList.map Char.toLower)

/-- ASCII letters in upper case. -/
def toUpper (s : String) : String := String.ofList (s.toList.map Char.toUpper)

/-- Case folding: the Kelvin sign is a `k` and the long s an `s`. No other letters are taken for ASCII
ones. -/
def fold (s : String) : String :=
  toLower (String.ofList (s.toList.map fun c =>
    if c = '\u212a' then 'k' else if c = '\u017f' then 's' else c))

private theorem char_toLower_cases (c : Char) :
    c.toLower = c ∨ 97 ≤ c.toLower.val.toNat ∧ c.toLower.val.toNat ≤ 122 := by
  by_cases h : c.val ≥ 'A'.val ∧ c.val ≤ 'Z'.val
  · have hlow : c.toLower.val = c.val + 32 := congrArg Char.val (dif_pos h)
    have h1 : 65 ≤ c.val.toNat := UInt32.le_iff_toNat_le.mp h.1
    have h2 : c.val.toNat ≤ 90 := UInt32.le_iff_toNat_le.mp h.2
    have hd : (32 : UInt32).toNat = 32 := rfl
    rw [hlow, UInt32.toNat_add]
    omega
  · exact .inl (dif_neg h)

private theorem char_toLower_toLower (c : Char) : c.toLower.toLower = c.toLower := by
  rcases char_toLower_cases c with h | h
  · rw [h, h]
  · refine dif_neg ?_
    rintro ⟨_, hle⟩
    have h3 : c.toLower.val.toNat ≤ 90 := UInt32.le_iff_toNat_le.mp hle
    omega

theorem toLower_toLower (s : String) : toLower (toLower s) = toLower s := by
  simp only [toLower, String.toList_ofList, List.map_map]
  exact congrArg String.ofList (List.map_congr_left fun c _ => char_toLower_toLower c)

theorem fold_toLower (s : String) : fold (toLower s) = fold s := by
  simp only [fold, toLower, String.toList_ofList, List.map_map]
  refine congrArg String.ofList (List.map_congr_left fun c _ => ?_)
  simp only [Function.comp_apply]
  rcases char_toLower_cases c with h | h
  · rw [h]
  · have hne : ∀ d : Char, d.toLower = d → 122 < d.val.toNat → c.toLower ≠ d ∧ c ≠ d := by
      refine fun d hd hbig => ⟨?_, ?_⟩ <;> rintro rfl <;> first | omega | (rw [hd] at h; omega)
    obtain ⟨h1, h2⟩ := hne '\u212a' (by decide) (by decide)
    obtain ⟨h3, h4⟩ := hne '\u017f' (by decide) (by decide)
    rw [if_neg h1, if_neg h2, if_neg h3, if_neg h4, char_toLower_toLower]

/-- The text before and after the first `c`, if there is one. -/
def cut (c : Char) (s : String) : Option (String × String) :=
  if c ∈ s.toList then
    some (String.ofList (s.toList.takeWhile (· ≠ c)),
      String.ofList (s.toList.dropWhile (· ≠ c)).tail)
  else none

/-- The text before the first `c`, or all of it. -/
def before (c : Char) (s : String) : String := String.ofList (s.toList.takeWhile (· ≠ c))

private theorem takeWhile_ne_append {c : Char} {xs ys : List Char} (h : c ∉ xs) :
    (xs ++ c :: ys).takeWhile (· ≠ c) = xs := by
  rw [List.takeWhile_append_of_pos (by grind)]
  simp

private theorem dropWhile_ne_append {c : Char} {xs ys : List Char} (h : c ∉ xs) :
    (xs ++ c :: ys).dropWhile (· ≠ c) = c :: ys := by
  rw [List.dropWhile_append_of_pos (by grind)]
  simp

/-- Cutting at a separator that the first part does not contain. -/
theorem cut_append {c : Char} {a b : String} (h : c ∉ a.toList) :
    cut c (a ++ String.singleton c ++ b) = some (a, b) := by
  have hl : (a ++ String.singleton c ++ b).toList = a.toList ++ c :: b.toList := by
    simp [String.toList_append]
  rw [cut, hl, if_pos (by simp), takeWhile_ne_append h, dropWhile_ne_append h, List.tail_cons,
    String.ofList_toList, String.ofList_toList]

/-- What is cut is the text with the character in between. -/
theorem eq_of_cut {c : Char} {s a b : String} (h : cut c s = some (a, b)) :
    s = a ++ String.singleton c ++ b := by
  by_cases hmem : c ∈ s.toList
  · obtain ⟨xs, ys, hs, hxs⟩ := List.eq_append_cons_of_mem hmem
    obtain rfl : s = String.ofList xs ++ String.singleton c ++ String.ofList ys := by
      rw [← String.toList_inj, hs]
      simp
    rw [cut_append (by simpa using hxs)] at h
    obtain ⟨rfl, rfl⟩ := Prod.mk.inj (Option.some.inj h)
    rfl
  · rw [cut, if_neg hmem] at h
    cases h

theorem not_mem_before (c : Char) (s : String) : c ∉ (before c s).toList := by
  rw [before, String.toList_ofList]
  intro h
  simpa using List.mem_takeWhile_imp h

theorem before_eq_self {c : Char} {s : String} (h : c ∉ s.toList) : before c s = s := by
  have hall : s.toList.takeWhile (· ≠ c) = s.toList := by
    rw [List.takeWhile_eq_self_iff]
    intro a ha
    have hne : a ≠ c := fun e => h (e ▸ ha)
    simpa using hne
  rw [before, hall, String.ofList_toList]

theorem before_append {c : Char} {a : String} (h : c ∉ a.toList) (b : String) :
    before c (a ++ b) = a ++ before c b := by
  have hall : ∀ x ∈ a.toList, decide (x ≠ c) = true := by
    intro x hx
    have hne : x ≠ c := fun e => h (e ▸ hx)
    simpa using hne
  rw [before, String.toList_append, List.takeWhile_append_of_pos hall, String.ofList_append,
    String.ofList_toList, before]

/-- Two texts split by the first separator have equal parts when they are equal. -/
theorem append_singleton_inj {c : Char} {a a' b b' : String} (ha : c ∉ a.toList)
    (ha' : c ∉ a'.toList) (h : a ++ String.singleton c ++ b = a' ++ String.singleton c ++ b') :
    a = a' ∧ b = b' := by
  have hc := cut_append (b := b) ha
  rw [h, cut_append ha'] at hc
  simpa [eq_comm] using hc

/-- And so have two texts split by the last separator. -/
theorem append_singleton_inj_right {c : Char} {a a' b b' : String} (hb : c ∉ b.toList)
    (hb' : c ∉ b'.toList) (h : a ++ String.singleton c ++ b = a' ++ String.singleton c ++ b') :
    a = a' ∧ b = b' := by
  have hrev : b.toList.reverse ++ c :: a.toList.reverse = b'.toList.reverse ++ c :: a'.toList.reverse := by
    simpa [String.toList_append] using congrArg (fun s => s.toList.reverse) h
  have hlast := congrArg (List.takeWhile (· ≠ c)) hrev
  have hinit := congrArg (fun s => (s.dropWhile (· ≠ c)).tail) hrev
  simp only [takeWhile_ne_append, dropWhile_ne_append, List.mem_reverse, hb, hb', not_false_eq_true,
    List.tail_cons, List.reverse_inj, String.toList_inj] at hlast hinit
  exact ⟨hinit, hlast⟩

/-- The characters that `unicode.IsSpace` accepts. -/
def isSpace (c : Char) : Bool :=
  c ∈ ['\t', '\n', '\x0b', '\x0c', '\r', ' ', '\u0085', '\u00a0', '\u1680', '\u2028', '\u2029',
      '\u202f', '\u205f', '\u3000'] ||
    ('\u2000' ≤ c && c ≤ '\u200a')

def trimSpace (s : String) : String :=
  String.ofList (((s.toList.dropWhile isSpace).reverse.dropWhile isSpace).reverse)

/-- A decimal numeral holds only digits. -/
theorem isDigit_of_mem_toString {n : ℕ} {c : Char} (h : c ∈ (toString n).toList) :
    c.isDigit = true := by
  have h' : c ∈ (Nat.repr n).toList := h
  rw [Nat.repr, String.toList_ofList] at h'
  exact Nat.isDigit_of_mem_toDigits (by decide) (by decide) h'

theorem slash_not_mem_of_all {s : String} (h : s.toList.all (· != '/') = true) :
    '/' ∉ s.toList := fun hmem => by
  simpa using List.all_eq_true.mp h '/' hmem

theorem slash_not_mem_toString (n : ℕ) : '/' ∉ (toString n).toList := fun h => by
  simpa using isDigit_of_mem_toString h

theorem toString_injective {m n : ℕ} (h : toString m = toString n) : m = n := by
  have hdigits : Nat.toDigits 10 m = Nat.toDigits 10 n := String.ofList_injective h
  rw [← Nat.ofDigitChars_toDigits (b := 10) (n := m) (by decide) (by decide), hdigits,
    Nat.ofDigitChars_toDigits (by decide) (by decide)]

end Text

import Mathlib.Algebra.Group.Int.Defs
import Mathlib.Algebra.Group.Nat.Defs
import Mathlib.Data.List.Induction

/-!
# Durations as text

Durations such as `90s`, `1.5h` or `-2m30s`, as the standard library of Go reads them: numbers with an
optional fraction, each followed by its unit, and an optional sign in front. They are counted in
nanoseconds, and have to fit into 64 bits.
-/

namespace Duration

/-- The value of decimal digits. -/
def numeral (digits : List Char) : ℕ := digits.foldl (fun n c => 10 * n + (c.toNat - '0'.toNat)) 0

theorem numeral_toString (n : ℕ) : numeral (toString n).toList = n := by
  rw [Nat.toString_eq_ofList_toDigits, String.toList_ofList]
  exact Nat.ofDigitChars_ten_toDigits

theorem numeral_lt {digits : List Char} (h : ∀ c ∈ digits, c.isDigit = true) :
    numeral digits < 10 ^ digits.length := by
  induction digits using List.reverseRecOn with
  | nil => exact Nat.one_pos
  | append_singleton digits c ih =>
    have hlast : c.toNat - '0'.toNat < 10 := by
      have hc := h c (by simp)
      simp only [Char.isDigit, Bool.and_eq_true, decide_eq_true_eq, UInt32.le_iff_toNat_le] at hc
      exact Nat.lt_of_le_of_lt (Nat.sub_le_sub_right hc.2 _) (by decide)
    have hinit := ih fun c hc => h c (by simp [hc])
    rw [numeral, List.foldl_append, List.length_append, List.length_singleton, Nat.pow_succ]
    change 10 * numeral digits + (c.toNat - '0'.toNat) < _
    omega

/-- The length of a unit. -/
def unit (name : String) : Option ℕ :=
  if name = "ns" then some 1
  else if name = "us" ∨ name = "µs" ∨ name = "μs" then some 1000
  else if name = "ms" then some 1000000
  else if name = "s" then some 1000000000
  else if name = "m" then some 60000000000
  else if name = "h" then some 3600000000000
  else none

/-- The digits after a period, and what follows them. -/
def fraction : List Char → List Char × List Char
  | '.' :: text => text.span Char.isDigit
  | text => ([], text)

/-- The largest value without its sign. -/
def limit : ℕ := 9223372036854775808

/-- The loop over the numbers with their units, added to what was read before. -/
def parseFrom : (fuel : ℕ) → (total : ℕ) → List Char → Option ℕ
  | _, total, [] => some total
  | 0, _, _ => none
  | fuel + 1, total, text =>
    let (whole, text) := text.span Char.isDigit
    let (part, text) := fraction text
    let (name, text) := text.span fun c => c ≠ '.' && !c.isDigit
    if whole = [] ∧ part = [] then none
    else do
      let length ← unit (String.ofList name)
      let value := numeral whole * length + numeral part * length / 10 ^ part.length
      if limit < total + value then none else parseFrom fuel (total + value) text

/-- The number of nanoseconds without a sign. -/
def parseUnsigned (text : List Char) : Option ℕ :=
  if text = ['0'] then some 0
  else if text = [] then none
  else parseFrom text.length 0 text

/-- `time.ParseDuration`. -/
def parse (s : String) : Option ℤ :=
  match s.toList with
  | '-' :: text => (parseUnsigned text).map fun n => -(n : ℤ)
  | '+' :: text => (parseUnsigned text).bind fun n => if n < limit then some n else none
  | text => (parseUnsigned text).bind fun n => if n < limit then some n else none

end Duration

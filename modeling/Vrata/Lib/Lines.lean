import Mathlib.Data.List.Basic

/-!
# Lines read through a bounded buffer

`Scanner` is the scanner that Go's `bufio` reads lines with, when its buffer has its full size from the
start. It holds what it has read and not yet returned, and a read fills what room there is behind it.
How many octets a read returns depends on the transport, so the reader has a list of sizes.

`scan_eq_split` says that the lines do not depend on the sizes: they are those of the whole text, up to
the first one that leaves no room in the buffer for its end.
-/

namespace Lines

/-- The text up to the first line feed, and the text after it. -/
def cutLine : List UInt8 → Option (List UInt8 × List UInt8)
  | [] => none
  | b :: text =>
    if b = 0x0A then some ([], text)
    else (cutLine text).map fun cut => (b :: cut.1, cut.2)

/-- A carriage return at the end of a line is not part of it. -/
def dropCR (line : List UInt8) : List UInt8 :=
  if line.getLast? = some 0x0D then line.dropLast else line

/-- Why there are no more lines. -/
inductive Stop where
  | ended | tooLong
deriving DecidableEq, Repr

section Cut

variable {line text rest : List UInt8}

theorem cutLine_eq_none_iff : cutLine text = none ↔ 0x0A ∉ text := by
  induction text with
  | nil => simp [cutLine]
  | cons b text ih =>
    unfold cutLine
    split
    · next hb => simp [hb]
    · next hb => simp [ih, Ne.symm hb]

theorem cutLine_append (h : 0x0A ∉ line) : cutLine (line ++ 0x0A :: rest) = some (line, rest) := by
  induction line with
  | nil => rfl
  | cons b line ih =>
    obtain ⟨hb, hline⟩ := not_or.mp (mt List.mem_cons.mpr h)
    rw [List.cons_append, cutLine, if_neg (Ne.symm hb), ih hline]
    rfl

theorem eq_of_cutLine (h : cutLine text = some (line, rest)) :
    text = line ++ 0x0A :: rest ∧ 0x0A ∉ line := by
  induction text generalizing line with
  | nil => cases h
  | cons b text ih =>
    unfold cutLine at h
    split at h
    · next hb =>
      cases h
      exact ⟨by rw [hb]; rfl, List.not_mem_nil⟩
    · next hb =>
      obtain ⟨⟨line, rest⟩, hcut, heq⟩ := Option.map_eq_some_iff.mp h
      cases heq
      obtain ⟨rfl, hline⟩ := ih hcut
      exact ⟨rfl, by simpa [Ne.symm hb] using hline⟩

theorem length_of_cutLine (h : cutLine text = some (line, rest)) :
    text.length = line.length + 1 + rest.length := by
  rw [(eq_of_cutLine h).1, List.length_append, List.length_cons]
  omega

end Cut

/-! ## The lines of a text -/

/-- The lines, when a line with its end must fit in `size` octets. -/
def split (size : ℕ) (text : List UInt8) : List (List UInt8) × Stop :=
  match _ : cutLine text with
  | some (line, rest) =>
    if line.length < size then
      let r := split size rest
      (dropCR line :: r.1, r.2)
    else ([], .tooLong)
  | none =>
    if size ≤ text.length then ([], .tooLong)
    else if text = [] then ([], .ended)
    else ([dropCR text], .ended)
termination_by text.length
decreasing_by
  have hlength := length_of_cutLine ‹cutLine text = some (line, rest)›
  omega

section Split

variable {size : ℕ} {line text rest : List UInt8}

theorem split_of_cutLine (h : cutLine text = some (line, rest)) :
    split size text =
      if line.length < size then (dropCR line :: (split size rest).1, (split size rest).2)
      else ([], .tooLong) := by
  rw [split]
  split
  · next heq =>
    rw [h] at heq
    cases heq
    rfl
  · next heq =>
    rw [h] at heq
    cases heq

theorem split_of_notMem (h : 0x0A ∉ text) :
    split size text =
      if size ≤ text.length then ([], .tooLong)
      else if text = [] then ([], .ended)
      else ([dropCR text], .ended) := by
  rw [split]
  split
  · next heq =>
    rw [cutLine_eq_none_iff.mpr h] at heq
    cases heq
  · rfl

/-- The buffer is full before the first line has ended. -/
theorem split_append_of_le (h : 0x0A ∉ text) (hlength : size ≤ text.length) :
    split size (text ++ rest) = ([], .tooLong) := by
  cases hcut : cutLine (text ++ rest) with
  | none =>
    rw [split_of_notMem (cutLine_eq_none_iff.mp hcut), if_pos]
    rw [List.length_append]
    omega
  | some cut =>
    obtain ⟨line, after⟩ := cut
    rw [split_of_cutLine hcut, if_neg]
    have hline : line ++ [0x0A] <+: text ++ rest := by
      rw [(eq_of_cutLine hcut).1]
      exact ⟨after, by simp⟩
    have htext : text <+: line := by
      rcases List.prefix_or_prefix_of_prefix hline (List.prefix_append text rest) with hle | hle
      · exact absurd (hle.subset (by simp)) h
      · rcases List.prefix_concat_iff.mp hle with rfl | hle
        · exact absurd (by simp) h
        · exact hle
    have := htext.length_le
    omega

end Split

/-! ## The scanner -/

/-- The scanner with a buffer of the size. -/
structure Scanner (size : ℕ) where
  /-- Where in the buffer that begins which has not been returned. -/
  start : ℕ := 0
  held : List UInt8 := []
  fits : start + held.length ≤ size
  /-- The octets that have not been read. -/
  rest : List UInt8
  /-- A read returns one octet more than its size says, as long as there is room. When there are no
  sizes left, it fills the room. -/
  sizes : List ℕ := []

namespace Scanner

variable {size : ℕ}

/-- Nothing has been read of the text. -/
def new (size : ℕ) (text : List UInt8) (sizes : List ℕ) : Scanner size where
  fits := Nat.zero_le size
  rest := text
  sizes := sizes

theorem fits_advance (s : Scanner size) {line held : List UInt8}
    (h : cutLine s.held = some (line, held)) : s.start + line.length + 1 + held.length ≤ size := by
  have hlength := length_of_cutLine h
  have hfits := s.fits
  omega

/-- A line is returned. -/
def advance (s : Scanner size) {line held : List UInt8} (h : cutLine s.held = some (line, held)) :
    Scanner size :=
  { s with start := s.start + line.length + 1, held, fits := s.fits_advance h }

theorem fits_shift (s : Scanner size) : 0 + s.held.length ≤ size :=
  Nat.le_trans (Nat.add_le_add_right (Nat.zero_le s.start) _) s.fits

/-- What is held moves to the front of the buffer, if room is needed or much of it is empty. -/
def shift (s : Scanner size) : Scanner size :=
  if 0 < s.start ∧ (s.start + s.held.length = size ∨ size / 2 < s.start) then
    { s with start := 0, fits := s.fits_shift }
  else s

def isFull (s : Scanner size) : Prop := s.start + s.held.length = size

instance (s : Scanner size) : Decidable s.isFull := inferInstanceAs (Decidable (_ = _))

/-- The number of octets that a read returns, if there are so many. -/
def amount (s : Scanner size) : ℕ :=
  let room := size - (s.start + s.held.length)
  match s.sizes with
  | [] => room
  | n :: _ => min (n + 1) room

theorem amount_le (s : Scanner size) : s.amount ≤ size - (s.start + s.held.length) := by
  unfold amount
  split
  · exact Nat.le_refl _
  · exact Nat.min_le_right _ _

theorem fits_read (s : Scanner size) :
    s.start + (s.held ++ s.rest.take s.amount).length ≤ size := by
  have hamount := s.amount_le
  have hfits := s.fits
  rw [List.length_append, List.length_take]
  omega

def read (s : Scanner size) : Scanner size :=
  { s with
    held := s.held ++ s.rest.take s.amount
    fits := s.fits_read
    rest := s.rest.drop s.amount
    sizes := s.sizes.tail }

theorem amount_pos {s : Scanner size} (hfull : ¬s.isFull) : 0 < s.amount := by
  have hroom : 0 < size - (s.start + s.held.length) := by
    have hfits := s.fits
    unfold isFull at hfull
    omega
  unfold amount
  split
  · exact hroom
  · exact Nat.lt_min.mpr ⟨Nat.succ_pos _, hroom⟩

theorem held_shift (s : Scanner size) : s.shift.held = s.held ∧ s.shift.rest = s.rest := by
  unfold shift
  split
  · exact ⟨rfl, rfl⟩
  · exact ⟨rfl, rfl⟩

/-- After the shift the buffer is full only with what is held. -/
theorem isFull_shift (s : Scanner size) : s.shift.isFull ↔ s.held.length = size := by
  have hfits := s.fits
  unfold shift
  split
  · rw [isFull, Nat.zero_add]
  · unfold isFull
    omega

/-- What can still happen: every octet is read once and returned once. -/
def left (s : Scanner size) : ℕ := 2 * s.rest.length + s.held.length

theorem left_advance (s : Scanner size) {line held : List UInt8}
    (h : cutLine s.held = some (line, held)) : (s.advance h).left < s.left := by
  have hlength := length_of_cutLine h
  change 2 * s.rest.length + held.length < 2 * s.rest.length + s.held.length
  omega

theorem left_read (s : Scanner size) (hfull : ¬s.shift.isFull) (hrest : s.rest ≠ []) :
    s.shift.read.left < s.left := by
  have hpos := amount_pos hfull
  have hlength := List.length_pos_of_ne_nil hrest
  simp only [left, read, s.held_shift, List.length_append, List.length_take, List.length_drop]
  omega

/-- The lines that the scanner returns, one call after the other. -/
def scan (s : Scanner size) : List (List UInt8) × Stop :=
  match h : cutLine s.held with
  | some (line, _) =>
    let r := (s.advance h).scan
    (dropCR line :: r.1, r.2)
  | none =>
    if _ : s.shift.isFull then ([], .tooLong)
    else if _ : s.rest = [] then
      if s.held = [] then ([], .ended) else ([dropCR s.held], .ended)
    else s.shift.read.scan
termination_by s.left
decreasing_by
  · exact s.left_advance h
  · exact s.left_read ‹_› ‹_›

theorem read_shift (s : Scanner size) :
    s.shift.read.held ++ s.shift.read.rest = s.held ++ s.rest := by
  simp only [read, s.held_shift, List.append_assoc, List.take_append_drop]

/-- The lines do not depend on how the text is cut into reads. -/
theorem scan_eq_split (s : Scanner size) : s.scan = split size (s.held ++ s.rest) := by
  induction hleft : s.left using Nat.strongRecOn generalizing s with
  | ind n ih =>
    subst hleft
    rw [scan]
    split
    · next line held h =>
      obtain ⟨hheld, hline⟩ := eq_of_cutLine h
      have hcut : cutLine (s.held ++ s.rest) = some (line, held ++ s.rest) := by
        rw [hheld, List.append_assoc, List.cons_append, cutLine_append hline]
      have hfits : line.length < size := by
        have hlength := length_of_cutLine h
        have := s.fits
        omega
      rw [split_of_cutLine hcut, if_pos hfits, ih _ (s.left_advance h) _ rfl]
      rfl
    · next h =>
      have hline := cutLine_eq_none_iff.mp h
      by_cases hfull : s.shift.isFull
      · rw [dif_pos hfull, split_append_of_le hline (Nat.le_of_eq (s.isFull_shift.mp hfull).symm)]
      · rw [dif_neg hfull]
        by_cases hrest : s.rest = []
        · have hroom : ¬size ≤ s.held.length := by
            have hfits := s.fits
            rw [isFull_shift] at hfull
            omega
          rw [dif_pos hrest, hrest, List.append_nil, split_of_notMem hline, if_neg hroom]
        · rw [dif_neg hrest, ih _ (s.left_read hfull hrest) _ rfl, read_shift]

end Scanner

end Lines

import Vrata.Lib.Json

/-!
# JSON strings

How Go writes a text as a JSON string, and how it reads one. In a string that is read, octets that are
not UTF-8 and surrogates without their other half become U+FFFD. `unquote_quote` says that a text that
has been written is read back, and `tight_quote` that it is written as a tight JSON text.
-/

namespace Json

/-! ## Writing -/

/-- The octet that stands for a character after a backslash. -/
def shortEscape (c : Char) : Option UInt8 :=
  if c = '\\' ∨ c = '"' then some c.toUInt8
  else if c = '\x08' then some 0x62
  else if c = '\x0c' then some 0x66
  else if c = '\n' then some 0x6E
  else if c = '\r' then some 0x72
  else if c = '\t' then some 0x74
  else none

def quoteChar (c : Char) : Bytes :=
  match shortEscape c with
  | some b => [0x5C, b]
  | none =>
    if c.val < 0x20 ∨ c = '<' ∨ c = '>' ∨ c = '&' then
      [0x5C, 0x75, 0x30, 0x30, hexDigit (c.toUInt8 >>> 4), hexDigit (c.toUInt8 &&& 0xF)]
    else if c = '\u2028' ∨ c = '\u2029' then
      [0x5C, 0x75, 0x32, 0x30, 0x32, hexDigit (c.toUInt8 &&& 0xF)]
    else String.utf8EncodeChar c

/-- A text as a JSON string. -/
def quote (s : String) : Bytes := 0x22 :: (s.toList.flatMap quoteChar ++ [0x22])

/-! ## Reading -/

def hexValue (b : UInt8) : Option ℕ :=
  if isDigit b then some (b.toNat - 0x30)
  else if 0x61 ≤ b && b ≤ 0x66 then some (b.toNat - 0x57)
  else if 0x41 ≤ b && b ≤ 0x46 then some (b.toNat - 0x37)
  else none

/-- The number that four digits stand for. -/
def hexValue4 (a b c d : UInt8) : Option ℕ := do
  let a ← hexValue a
  let b ← hexValue b
  let c ← hexValue c
  let d ← hexValue d
  some (((a * 16 + b) * 16 + c) * 16 + d)

def isSurrogate (r : ℕ) : Bool := 0xD800 ≤ r && r < 0xE000

/-- The character of a pair of surrogates. -/
def decodePair (r r' : ℕ) : Option Char :=
  if 0xD800 ≤ r ∧ r < 0xDC00 ∧ 0xDC00 ≤ r' ∧ r' < 0xE000 then
    some (Char.ofNat ((r - 0xD800) * 0x400 + (r' - 0xDC00) + 0x10000))
  else none

/-- What an octet after a backslash stands for. -/
def unescape (b : UInt8) : Option Char :=
  if b = 0x22 ∨ b = 0x5C ∨ b = 0x2F ∨ b = 0x27 then some (Char.ofNat b.toNat)
  else if b = 0x62 then some '\x08'
  else if b = 0x66 then some '\x0c'
  else if b = 0x6E then some '\n'
  else if b = 0x72 then some '\r'
  else if b = 0x74 then some '\t'
  else none

def replacement : Char := '\uFFFD'

/-- The character of a `\u` escape with this number, and the text that is left. -/
def decodeEscape (r : ℕ) (text : Bytes) : Char × Bytes :=
  if isSurrogate r then
    match text with
    | 0x5C :: 0x75 :: a :: b :: c :: d :: rest =>
      match (hexValue4 a b c d).bind (decodePair r) with
      | some char => (char, rest)
      | none => (replacement, text)
    | _ => (replacement, text)
  else (Char.ofNat r, text)

/-- The first character of a text, and the text that is left. -/
def decodeRune (text : Bytes) : Char × Bytes :=
  match text.toByteArray.utf8DecodeChar? 0 with
  | some c => (c, text.drop c.utf8Size)
  | none => (replacement, text.drop 1)

/-- The characters of the body of a string; each takes at least one octet. -/
def unquoteBody : ℕ → Bytes → Option (List Char)
  | 0, _ => none
  | _ + 1, [] => some []
  | n + 1, 0x5C :: 0x75 :: a :: b :: c :: d :: text =>
    (hexValue4 a b c d).bind fun r =>
      let (char, rest) := decodeEscape r text
      (unquoteBody n rest).map (char :: ·)
  | n + 1, 0x5C :: b :: text =>
    (unescape b).bind fun char => (unquoteBody n text).map (char :: ·)
  | n + 1, b :: text =>
    if b = 0x22 ∨ b = 0x5C ∨ b < 0x20 then none
    else
      let (char, rest) := decodeRune (b :: text)
      (unquoteBody n rest).map (char :: ·)

/-- The text of a JSON string. -/
def unquote : Bytes → Option String
  | 0x22 :: text =>
    if text.getLast? = some 0x22 then
      (unquoteBody text.length text.dropLast).map String.ofList
    else none
  | _ => none

/-! ## One character -/

section Character

variable {c : Char} {n : ℕ} {text : Bytes}

theorem hexValue4_hexDigit (b : UInt8) :
    hexValue4 0x30 0x30 (hexDigit (b >>> 4)) (hexDigit (b &&& 0xF)) = some b.toNat := by
  have hall : ∀ i : Fin 256, hexValue4 0x30 0x30 (hexDigit (UInt8.ofFin i >>> 4))
      (hexDigit (UInt8.ofFin i &&& 0xF)) = some (UInt8.ofFin i).toNat := by decide +kernel
  exact hall b.toFin

theorem toNat_toUInt8 (h : c.val < 0x80) : c.toUInt8.toNat = c.toNat := by
  have hlt : c.val.toNat < 0x80 := UInt32.lt_iff_toNat_lt.mp h
  rw [Char.toUInt8, UInt32.toNat_toUInt8]
  exact Nat.mod_eq_of_lt (by omega)

theorem isSurrogate_of_lt {r : ℕ} (h : r < 0x80) : isSurrogate r = false := by
  simp only [isSurrogate, Bool.and_eq_false_iff, decide_eq_false_iff_not]
  omega

theorem decodeRune_utf8EncodeChar : decodeRune (String.utf8EncodeChar c ++ text) = (c, text) := by
  unfold decodeRune
  rw [List.toByteArray_append, ByteArray.utf8DecodeChar?_utf8EncodeChar_append]
  simp [← String.length_utf8EncodeChar]

/-- An octet of a character is the character itself or is not ASCII. -/
theorem toNat_of_mem_utf8EncodeChar {b : UInt8} (hb : b ∈ String.utf8EncodeChar c) :
    b.toNat = c.toNat ∨ 0x80 ≤ b.toNat := by
  unfold String.utf8EncodeChar at hb
  dsimp only at hb
  split at hb
  · rename_i hle
    rw [List.mem_singleton.mp hb]
    refine Or.inl (Nat.mod_eq_of_lt ?_)
    omega
  · refine Or.inr ?_
    split at hb
    · simp only [List.mem_cons, List.not_mem_nil, or_false] at hb
      rcases hb with rfl | rfl <;> rw [UInt8.toNat_ofNat'] <;> omega
    · split at hb
      · simp only [List.mem_cons, List.not_mem_nil, or_false] at hb
        rcases hb with rfl | rfl | rfl <;> rw [UInt8.toNat_ofNat'] <;> omega
      · simp only [List.mem_cons, List.not_mem_nil, or_false] at hb
        rcases hb with rfl | rfl | rfl | rfl <;> rw [UInt8.toNat_ofNat'] <;> omega

/-- The ways to write a character. -/
inductive Written (c : Char) : Bytes → Prop where
  | short {b : UInt8} (h : shortEscape c = some b) : Written c [0x5C, b]
  | escape (h : c.val < 0x80) : Written c
      [0x5C, 0x75, 0x30, 0x30, hexDigit (c.toUInt8 >>> 4), hexDigit (c.toUInt8 &&& 0xF)]
  | separator (h : c = '\u2028' ∨ c = '\u2029') :
      Written c [0x5C, 0x75, 0x32, 0x30, 0x32, hexDigit (c.toUInt8 &&& 0xF)]
  | plain (h : ∀ b ∈ String.utf8EncodeChar c, ¬(b = 0x22 ∨ b = 0x5C ∨ b < 0x20)) :
      Written c (String.utf8EncodeChar c)

/-- A character that is written as it is: its octets do not end the string or begin an escape. -/
theorem plain_utf8EncodeChar (hshort : shortEscape c = none) (hctl : ¬c.val < 0x20) :
    ∀ b ∈ String.utf8EncodeChar c, ¬(b = 0x22 ∨ b = 0x5C ∨ b < 0x20) := by
  intro b hb hbad
  have hcases := toNat_of_mem_utf8EncodeChar hb
  rcases hbad with rfl | rfl | hlt
  · rcases hcases with heq | hge
    · obtain rfl : '"' = c := Char.toNat_inj.mp heq
      cases hshort
    · exact absurd hge (by decide)
  · rcases hcases with heq | hge
    · obtain rfl : '\\' = c := Char.toNat_inj.mp heq
      cases hshort
    · exact absurd hge (by decide)
  · have hsmall : b.toNat < 0x20 := UInt8.lt_iff_toNat_lt.mp hlt
    rcases hcases with heq | hge
    · rw [heq] at hsmall
      exact hctl (UInt32.lt_iff_toNat_lt.mpr hsmall)
    · omega

theorem written_quoteChar (c : Char) : Written c (quoteChar c) := by
  unfold quoteChar
  split
  · rename_i b hshort
    exact .short hshort
  · rename_i hshort
    split
    · rename_i h
      refine .escape ?_
      rcases h with h | rfl | rfl | rfl
      · exact UInt32.lt_trans h (by decide)
      · decide
      · decide
      · decide
    · rename_i h
      split
      · rename_i hsep
        exact .separator hsep
      · exact .plain (plain_utf8EncodeChar hshort fun hctl => h (Or.inl hctl))

theorem shortEscape_cases {b : UInt8} (h : shortEscape c = some b) :
    c = '\\' ∧ b = 0x5C ∨ c = '"' ∧ b = 0x22 ∨ c = '\x08' ∧ b = 0x62 ∨ c = '\x0c' ∧ b = 0x66 ∨
      c = '\n' ∧ b = 0x6E ∨ c = '\r' ∧ b = 0x72 ∨ c = '\t' ∧ b = 0x74 := by
  unfold shortEscape at h
  split at h
  · rename_i hc
    rcases hc with rfl | rfl <;> cases h <;> decide
  · repeat' split at h
    all_goals simp_all

/-- Reading a character that has been written. -/
theorem Written.unquoteBody {out : Bytes} (h : Written c out) :
    unquoteBody (n + 1) (out ++ text) = (unquoteBody n text).map (c :: ·) := by
  cases h with
  | short h =>
    rcases shortEscape_cases h with ⟨rfl, rfl⟩ | ⟨rfl, rfl⟩ | ⟨rfl, rfl⟩ | ⟨rfl, rfl⟩ | ⟨rfl, rfl⟩ |
      ⟨rfl, rfl⟩ | ⟨rfl, rfl⟩ <;> rfl
  | escape h =>
    have hlt : c.toNat < 0x80 := UInt32.lt_iff_toNat_lt.mp h
    simp only [List.cons_append, List.nil_append, Json.unquoteBody, hexValue4_hexDigit,
      toNat_toUInt8 h, Option.bind_some, decodeEscape, isSurrogate_of_lt hlt]
    simp
  | separator h => rcases h with rfl | rfl <;> rfl
  | plain h =>
    obtain ⟨b, rest, hcons⟩ := List.exists_cons_of_ne_nil (String.utf8EncodeChar_ne_nil (c := c))
    have hb := h b (by simp [hcons])
    have hrune : decodeRune (b :: (rest ++ text)) = (c, text) := by
      rw [← List.cons_append, ← hcons, decodeRune_utf8EncodeChar]
    have hne : b ≠ 0x5C := fun heq => hb (Or.inr (Or.inl heq))
    rw [hcons, List.cons_append, Json.unquoteBody]
    · rw [if_neg hb, hrune]
    · exact fun _ _ _ _ _ heq => absurd heq hne
    · exact fun _ _ heq => absurd heq hne

theorem Written.length_pos {out : Bytes} (h : Written c out) : 0 < out.length := by
  cases h with
  | short | escape | separator => exact Nat.zero_lt_succ _
  | plain => exact List.length_pos_of_ne_nil String.utf8EncodeChar_ne_nil

theorem isHex_high (b : UInt8) : isHex (hexDigit (b >>> 4)) = true := by
  have hall : ∀ i : Fin 256, isHex (hexDigit (UInt8.ofFin i >>> 4)) = true := by decide +kernel
  exact hall b.toFin

theorem isHex_low (b : UInt8) : isHex (hexDigit (b &&& 0xF)) = true := by
  have hall : ∀ i : Fin 256, isHex (hexDigit (UInt8.ofFin i &&& 0xF)) = true := by decide +kernel
  exact hall b.toFin

theorem run_escape (stack : List Frame) {a b c d : UInt8} (ha : isHex a = true)
    (hb : isHex b = true) (hc : isHex c = true) (hd : isHex d = true) :
    Scanner.run ⟨.inString, stack⟩ [0x5C, 0x75, a, b, c, d] = some ⟨.inString, stack⟩ := by
  have hstart : Scanner.run ⟨.inString, stack⟩ [0x5C, 0x75] = some ⟨.inStringEscU 3, stack⟩ := rfl
  have hdigits : Scanner.run ⟨.inStringEscU 3, stack⟩ [a, b, c, d] = some ⟨.inString, stack⟩ := by
    simp [Scanner.tightStep, Scanner.drops, Scanner.step, ha, hb, hc, hd]
  exact (Scanner.run_append _ [0x5C, 0x75] [a, b, c, d]).trans (by rw [hstart]; exact hdigits)

theorem run_plain (stack : List Frame) {out : Bytes}
    (h : ∀ b ∈ out, ¬(b = 0x22 ∨ b = 0x5C ∨ b < 0x20)) :
    Scanner.run ⟨.inString, stack⟩ out = some ⟨.inString, stack⟩ := by
  induction out with
  | nil => rfl
  | cons b out ih =>
    have hb := h b List.mem_cons_self
    have hstep : Scanner.tightStep ⟨.inString, stack⟩ b = some ⟨.inString, stack⟩ := by
      simp only [not_or] at hb
      simp [Scanner.tightStep, Scanner.drops, Scanner.step, hb]
    rw [Scanner.run_cons, hstep, Option.bind_some, ih fun b' hb' => h b' (List.mem_cons_of_mem b hb')]

/-- A string goes on after a character that has been written. -/
theorem Written.run {out : Bytes} (h : Written c out) (stack : List Frame) :
    Scanner.run ⟨.inString, stack⟩ out = some ⟨.inString, stack⟩ := by
  cases h with
  | short h =>
    rcases shortEscape_cases h with ⟨rfl, rfl⟩ | ⟨rfl, rfl⟩ | ⟨rfl, rfl⟩ | ⟨rfl, rfl⟩ | ⟨rfl, rfl⟩ |
      ⟨rfl, rfl⟩ | ⟨rfl, rfl⟩ <;> rfl
  | escape h => exact run_escape stack rfl rfl (isHex_high _) (isHex_low _)
  | separator h => rcases h with rfl | rfl <;> rfl
  | plain h => exact run_plain stack h

end Character

/-! ## Texts -/

/-- The text is a way to write the characters, one after the other. -/
inductive Spells : List Char → Bytes → Prop where
  | nil : Spells [] []
  | cons {c : Char} {cs : List Char} {out text : Bytes} (h : Written c out) (hs : Spells cs text) :
      Spells (c :: cs) (out ++ text)

section Texts

variable {cs cs' : List Char} {text text' : Bytes}

theorem spells_flatMap {write : Char → Bytes} (h : ∀ c ∈ cs, Written c (write c)) :
    Spells cs (cs.flatMap write) := by
  induction cs with
  | nil => exact .nil
  | cons c cs ih =>
    obtain ⟨hc, hcs⟩ := List.forall_mem_cons.mp h
    exact .cons hc (ih hcs)

theorem Spells.unquoteBody (h : Spells cs text) (n : ℕ) (hn : cs.length < n) :
    unquoteBody n text = some cs := by
  induction h generalizing n with
  | nil =>
    cases n with
    | zero => omega
    | succ n => rfl
  | cons hc _ ih =>
    cases n with
    | zero => omega
    | succ n =>
      rw [hc.unquoteBody, ih n (by simpa using hn)]
      rfl

theorem Spells.length_le (h : Spells cs text) : cs.length ≤ text.length := by
  induction h with
  | nil => exact Nat.le_refl 0
  | cons hc _ ih =>
    have hpos := hc.length_pos
    rw [List.length_append, List.length_cons]
    omega

theorem Spells.unquote (h : Spells cs text) :
    unquote (0x22 :: (text ++ [0x22])) = some (String.ofList cs) := by
  have hbody := h.unquoteBody (text.length + 1) (Nat.lt_succ_of_le h.length_le)
  rw [Json.unquote, List.getLast?_concat, if_pos rfl, List.dropLast_concat, List.length_append,
    List.length_singleton, hbody, Option.map_some]

theorem Spells.run (h : Spells cs text) (stack : List Frame) :
    Scanner.run ⟨.inString, stack⟩ text = some ⟨.inString, stack⟩ := by
  induction h with
  | nil => rfl
  | cons hc _ ih => rw [Scanner.run_append, hc.run, Option.bind_some, ih]

/-- In every state in which a string may begin. -/
theorem Spells.run_quoted (h : Spells cs text) {stack : List Frame} {q : State}
    (hq : Scanner.tightStep ⟨q, stack⟩ 0x22 = some ⟨.inString, stack⟩) :
    Scanner.run ⟨q, stack⟩ (0x22 :: (text ++ [0x22])) = some ⟨.endValue, stack⟩ := by
  rw [Scanner.run_cons, hq, Option.bind_some, Scanner.run_append, h.run]
  rfl

theorem Spells.tight (h : Spells cs text) : Tight (0x22 :: (text ++ [0x22])) :=
  ⟨_, h.run_quoted rfl, rfl⟩

end Texts

theorem spells_quoteChar (cs : List Char) : Spells cs (cs.flatMap quoteChar) :=
  spells_flatMap fun c _ => written_quoteChar c

theorem unquote_quote (s : String) : unquote (quote s) = some s := by
  rw [quote, (spells_quoteChar s.toList).unquote, String.ofList_toList]

theorem run_quote {stack : List Frame} {q : State}
    (hq : Scanner.tightStep ⟨q, stack⟩ 0x22 = some ⟨.inString, stack⟩) (s : String) :
    Scanner.run ⟨q, stack⟩ (quote s) = some ⟨.endValue, stack⟩ :=
  (spells_quoteChar s.toList).run_quoted hq

theorem tight_quote (s : String) : Tight (quote s) :=
  (spells_quoteChar s.toList).tight

end Json

import Vrata.Lib.Json.Quote

/-!
# JSON objects

An object is written as its members, each a key and the text of a value. It is read as Go reads one
whose values are kept as they stand in the text (`json.RawMessage`). What has been written with tight
values is read back (`members_encodeObject`), and it is itself tight, so that objects can be nested
(`tight_encodeObject`).
-/

namespace Json

abbrev Member := String × Bytes

/-! ## Writing -/

def encodeMember (m : Member) : Bytes := quote m.1 ++ 0x3A :: m.2

def encodeMembers : List Member → Bytes
  | [] => []
  | [m] => encodeMember m
  | m :: ms => encodeMember m ++ 0x2C :: encodeMembers ms

theorem encodeMembers_cons_cons (m m' : Member) (ms : List Member) :
    encodeMembers (m :: m' :: ms) = encodeMember m ++ 0x2C :: encodeMembers (m' :: ms) := rfl

def encodeObject (ms : List Member) : Bytes := 0x7B :: (encodeMembers ms ++ [0x7D])

/-! ## Reading -/

def dropSpace (text : Bytes) : Bytes := text.dropWhile isSpace

/-- A key and its value, and what comes after them. -/
def takeMember (text : Bytes) : Option (Member × Bytes) := do
  let (item, text) ← takeValue {} (dropSpace text)
  let key ← unquote item
  match dropSpace text with
  | 0x3A :: text =>
    let (value, text) ← takeValue {} (dropSpace text)
    some ((key, value), text)
  | _ => none

/-- The members up to the end of the object, and what comes after it. -/
def takeMembers : ℕ → Bytes → Option (List Member × Bytes)
  | 0, _ => none
  | n + 1, text => do
    let (m, text) ← takeMember text
    match dropSpace text with
    | 0x2C :: text =>
      let (ms, text) ← takeMembers n text
      some (m :: ms, text)
    | 0x7D :: text => some ([m], text)
    | _ => none

/-- The members of an object; `null` has none. -/
def members (text : Bytes) : Option (List Member) :=
  match dropSpace text with
  | 0x7B :: text =>
    match dropSpace text with
    | 0x7D :: rest => if rest.all isSpace then some [] else none
    | inner => do
      let (ms, rest) ← takeMembers inner.length inner
      if rest.all isSpace then some ms else none
  | 0x6E :: 0x75 :: 0x6C :: 0x6C :: rest => if rest.all isSpace then some [] else none
  | _ => none

/-! ## Reading what has been written -/

section Roundtrip

variable {m : Member} {ms : List Member} {rest : Bytes}

theorem dropSpace_cons {b : UInt8} (hb : isSpace b = false) : dropSpace (b :: rest) = b :: rest :=
  List.dropWhile_cons_of_neg (by rw [hb]; decide)

theorem delimited_cons {b : UInt8} (hb : isDelimiter b = true) : Delimited (b :: rest) := by
  rintro b' ⟨⟩
  exact hb

/-- A member is read up to the delimiter after it. -/
theorem takeMember_encodeMember (hm : Tight m.2) (hrest : Delimited rest) :
    takeMember (encodeMember m ++ rest) = some (m, rest) := by
  have hkey : takeValue {} (dropSpace (encodeMember m ++ rest)) =
      some (quote m.1, 0x3A :: (m.2 ++ rest)) := by
    rw [encodeMember, List.append_assoc, dropSpace, (tight_quote m.1).dropWhile]
    exact (tight_quote m.1).takeValue (delimited_cons rfl)
  have hvalue : takeValue {} (dropSpace (m.2 ++ rest)) = some (m.2, rest) := by
    rw [dropSpace, hm.dropWhile]
    exact hm.takeValue hrest
  simp only [takeMember, hkey, Option.bind_eq_bind, Option.bind_some, unquote_quote,
    dropSpace_cons (rfl : isSpace 0x3A = false), hvalue]

theorem takeMembers_encodeMembers {n : ℕ} (hms : ∀ m ∈ ms, Tight m.2) (hne : ms ≠ [])
    (hn : ms.length ≤ n) :
    takeMembers n (encodeMembers ms ++ 0x7D :: rest) = some (ms, rest) := by
  induction ms generalizing n with
  | nil => exact absurd rfl hne
  | cons m ms ih =>
    have hm := hms m List.mem_cons_self
    cases n with
    | zero => cases hn
    | succ n =>
      cases ms with
      | nil =>
        rw [encodeMembers, takeMembers, takeMember_encodeMember hm (delimited_cons rfl)]
        rfl
      | cons m' ms =>
        have hrest := ih (n := n) (fun x hx => hms x (List.mem_cons_of_mem m hx)) nofun
          (Nat.le_of_succ_le_succ hn)
        rw [encodeMembers_cons_cons, List.append_assoc, List.cons_append, takeMembers,
          takeMember_encodeMember hm (delimited_cons rfl)]
        simp only [Option.bind_eq_bind, Option.bind_some,
          dropSpace_cons (rfl : isSpace 0x2C = false), hrest]

/-- The text of some members begins with the quotation mark of the first key. -/
theorem encodeMembers_cons (m : Member) (ms : List Member) :
    ∃ text, encodeMembers (m :: ms) = 0x22 :: text := by
  cases ms with
  | nil => exact ⟨_, rfl⟩
  | cons => exact ⟨_, rfl⟩

theorem length_le_encodeMembers (ms : List Member) : ms.length ≤ (encodeMembers ms).length := by
  induction ms with
  | nil => exact Nat.le_refl 0
  | cons m ms ih =>
    cases ms with
    | nil => exact Nat.succ_le_succ (Nat.zero_le _)
    | cons m' ms =>
      rw [encodeMembers_cons_cons]
      simp only [List.length_append, List.length_cons] at ih ⊢
      omega

theorem members_encodeObject (hms : ∀ m ∈ ms, Tight m.2) : members (encodeObject ms) = some ms := by
  cases ms with
  | nil => rfl
  | cons m ms =>
    have hlength := length_le_encodeMembers (m :: ms)
    have htake : takeMembers (encodeMembers (m :: ms) ++ [0x7D]).length
        (encodeMembers (m :: ms) ++ [0x7D]) = some (m :: ms, []) :=
      takeMembers_encodeMembers hms nofun (by rw [List.length_append]; omega)
    obtain ⟨text, htext⟩ := encodeMembers_cons m ms
    rw [htext, List.cons_append] at htake
    rw [encodeObject, htext, List.cons_append, members, dropSpace_cons rfl]
    change ((takeMembers _ (0x22 :: (text ++ [0x7D]))).bind fun r =>
      if r.2.all isSpace then some r.1 else none) = some (m :: ms)
    rw [htake]
    rfl

end Roundtrip

/-! ## Nesting -/

section Nesting

variable {m : Member} {ms : List Member} {outer : List Frame} {q : State} {b : UInt8}

/-- A member and the delimiter after it, where a key may begin. -/
theorem run_encodeMember
    (hq : Scanner.tightStep ⟨q, .objectKey :: outer⟩ 0x22 = some ⟨.inString, .objectKey :: outer⟩)
    (hm : Tight m.2) (hb : isDelimiter b = true) :
    Scanner.run ⟨q, .objectKey :: outer⟩ (encodeMember m ++ [b]) =
      Scanner.endValue (.objectValue :: outer) b := by
  obtain ⟨s, hrun, heof⟩ := hm
  have hvalue : Scanner.run ⟨.beginValue, .objectValue :: outer⟩ m.2 =
      some (s.under (.objectValue :: outer)) := Scanner.run_under hrun
  have hcolon : Scanner.tightStep ⟨.endValue, .objectKey :: outer⟩ 0x3A =
      some ⟨.beginValue, .objectValue :: outer⟩ := rfl
  rw [encodeMember, List.append_assoc, Scanner.run_append, run_quote hq, Option.bind_some,
    List.cons_append, Scanner.run_cons, hcolon, Option.bind_some, Scanner.run_append, hvalue,
    Option.bind_some, Scanner.run_cons, Scanner.tightStep_of_eof heof hb]
  cases Scanner.endValue (.objectValue :: outer) b <;> rfl

/-- The members up to the end of the object. -/
theorem run_encodeMembers
    (hq : Scanner.tightStep ⟨q, .objectKey :: outer⟩ 0x22 = some ⟨.inString, .objectKey :: outer⟩)
    (hms : ∀ m ∈ ms, Tight m.2) (hne : ms ≠ []) :
    Scanner.run ⟨q, .objectKey :: outer⟩ (encodeMembers ms ++ [0x7D]) = some ⟨.endValue, outer⟩ := by
  induction ms generalizing q with
  | nil => exact absurd rfl hne
  | cons m ms ih =>
    have hm := hms m List.mem_cons_self
    cases ms with
    | nil => exact run_encodeMember hq hm rfl
    | cons m' ms =>
      have hsplit : encodeMembers (m :: m' :: ms) ++ [0x7D] =
          (encodeMember m ++ [0x2C]) ++ (encodeMembers (m' :: ms) ++ [0x7D]) := by
        rw [encodeMembers_cons_cons, List.append_assoc, List.append_assoc]
        rfl
      rw [hsplit, Scanner.run_append, run_encodeMember hq hm rfl]
      exact ih rfl (fun x hx => hms x (List.mem_cons_of_mem m hx)) nofun

theorem tight_encodeObject (hms : ∀ m ∈ ms, Tight m.2) : Tight (encodeObject ms) := by
  refine ⟨⟨.endValue, []⟩, ?_, rfl⟩
  have hopen : Scanner.tightStep {} 0x7B = some ⟨.beginStringOrEmpty, [.objectKey]⟩ := rfl
  rw [encodeObject, Scanner.run_cons, hopen]
  cases ms with
  | nil => rfl
  | cons m ms => exact run_encodeMembers rfl hms nofun

end Nesting

/-! ## Plain objects -/

section Plain

variable {ms : List Member}

def Ascii (s : String) : Prop := ∀ c ∈ s.toList, c.val < 0x80

instance (s : String) : Decidable (Ascii s) :=
  List.decidableBAll (fun c : Char => c.val < 0x80) s.toList

theorem unescaped_quoteChar {c : Char} (h : c.val < 0x80) : Unescaped (quoteChar c) := by
  have hall : ∀ i : Fin 128, ∀ b ∈ quoteChar (Char.ofNat i),
      b ≠ 0x3C ∧ b ≠ 0x3E ∧ b ≠ 0x26 ∧ b ≠ 0xE2 := by decide +kernel
  have hc : c.toNat < 128 := UInt32.lt_iff_toNat_lt.mp h
  rw [← Char.ofNat_toNat c]
  exact hall ⟨c.toNat, hc⟩

theorem unescaped_cons {b : UInt8} {text : Bytes} :
    Unescaped (b :: text) ↔ (b ≠ 0x3C ∧ b ≠ 0x3E ∧ b ≠ 0x26 ∧ b ≠ 0xE2) ∧ Unescaped text :=
  List.forall_mem_cons

theorem unescaped_append {text text' : Bytes} :
    Unescaped (text ++ text') ↔ Unescaped text ∧ Unescaped text' :=
  List.forall_mem_append

theorem unescaped_nil : Unescaped [] := fun _ hb => absurd hb List.not_mem_nil

theorem unescaped_quote {s : String} (h : Ascii s) : Unescaped (quote s) := by
  have hbody : Unescaped (s.toList.flatMap quoteChar) := by
    intro b hb
    obtain ⟨c, hc, hb⟩ := List.mem_flatMap.mp hb
    exact unescaped_quoteChar (h c hc) b hb
  exact unescaped_cons.mpr ⟨by decide, unescaped_append.mpr
    ⟨hbody, unescaped_cons.mpr ⟨by decide, unescaped_nil⟩⟩⟩

theorem unescaped_encodeMember {m : Member} (hkey : Ascii m.1) (hvalue : Unescaped m.2) :
    Unescaped (encodeMember m) :=
  unescaped_append.mpr ⟨unescaped_quote hkey, unescaped_cons.mpr ⟨by decide, hvalue⟩⟩

theorem unescaped_encodeMembers (h : ∀ m ∈ ms, Ascii m.1 ∧ Unescaped m.2) :
    Unescaped (encodeMembers ms) := by
  induction ms with
  | nil => exact unescaped_nil
  | cons m ms ih =>
    obtain ⟨⟨hkey, hvalue⟩, hms⟩ := List.forall_mem_cons.mp h
    cases ms with
    | nil => exact unescaped_encodeMember hkey hvalue
    | cons m' ms =>
      exact unescaped_append.mpr ⟨unescaped_encodeMember hkey hvalue,
        unescaped_cons.mpr ⟨by decide, ih hms⟩⟩

theorem compact_encodeObject (hms : ∀ m ∈ ms, Tight m.2)
    (hplain : ∀ m ∈ ms, Ascii m.1 ∧ Unescaped m.2) :
    compact (encodeObject ms) = some (encodeObject ms) :=
  compact_of_tight (tight_encodeObject hms) <| unescaped_cons.mpr ⟨by decide, unescaped_append.mpr
    ⟨unescaped_encodeMembers hplain, unescaped_cons.mpr ⟨by decide, unescaped_nil⟩⟩⟩

end Plain

end Json

import Mathlib.Data.List.Basic

/-!
# JSON texts

A JSON text is a list of octets, and `Scanner` is the machine that Go's `encoding/json` scans one with:
what may come next, and for every object and array that is open whether a key, a value or an element is
being read. The limit on the depth of nesting is left out.

`compact` drops the space between the tokens of a text and writes the characters `<`, `>`, `&`, U+2028
and U+2029 as escapes. A text is `Tight` if there is no space to drop. What a scanner does with a tight
text does not depend on the objects and arrays around it (`Scanner.run_under`), so tight texts can
be put together and taken apart again.
-/

namespace Json

abbrev Bytes := List UInt8

/-! ## The scanner -/

def isSpace (b : UInt8) : Bool := b == 0x20 || b == 0x09 || b == 0x0D || b == 0x0A

def isDigit (b : UInt8) : Bool := 0x30 ≤ b && b ≤ 0x39

def isHex (b : UInt8) : Bool :=
  isDigit b || (0x61 ≤ b && b ≤ 0x66) || (0x41 ≤ b && b ≤ 0x46)

/-- What is being read of an object or an array. -/
inductive Frame where
  | objectKey | objectValue | arrayValue
deriving DecidableEq, Repr

inductive State where
  | beginValue | beginValueOrEmpty | beginString | beginStringOrEmpty | endValue
  | inString | inStringEsc
  /-- In a `\u` escape, with so many digits to come after the next one. -/
  | inStringEscU (left : ℕ)
  | neg | zero | one | dot | dot0 | e | eSign | e0
  /-- In `true`, `false` or `null`. -/
  | t | tr | tru | f | fa | fal | fals | n | nu | nul
deriving DecidableEq, Repr

/-- A value has ended, or ends with what comes next. -/
def State.ends : State → Bool
  | .endValue | .zero | .one | .dot0 | .e0 => true
  | _ => false

theorem State.ends_cases {q : State} (h : q.ends = true) :
    q = .endValue ∨ q = .zero ∨ q = .one ∨ q = .dot0 ∨ q = .e0 := by
  unfold ends at h
  split at h
  all_goals simp_all

structure Scanner where
  state : State := .beginValue
  stack : List Frame := []
deriving DecidableEq, Repr

namespace Scanner

/-- A value begins. -/
def beginValue (stack : List Frame) (b : UInt8) : Option Scanner :=
  if isSpace b then some ⟨.beginValue, stack⟩
  else if b = 0x7B then some ⟨.beginStringOrEmpty, .objectKey :: stack⟩
  else if b = 0x5B then some ⟨.beginValueOrEmpty, .arrayValue :: stack⟩
  else if b = 0x22 then some ⟨.inString, stack⟩
  else if b = 0x2D then some ⟨.neg, stack⟩
  else if b = 0x30 then some ⟨.zero, stack⟩
  else if isDigit b then some ⟨.one, stack⟩
  else if b = 0x74 then some ⟨.t, stack⟩
  else if b = 0x66 then some ⟨.f, stack⟩
  else if b = 0x6E then some ⟨.n, stack⟩
  else none

/-- A value has ended. At the top only space may follow. -/
def endValue (stack : List Frame) (b : UInt8) : Option Scanner :=
  match stack with
  | [] => if isSpace b then some ⟨.endValue, []⟩ else none
  | frame :: rest =>
    if isSpace b then some ⟨.endValue, stack⟩
    else
      match frame with
      | .objectKey => if b = 0x3A then some ⟨.beginValue, .objectValue :: rest⟩ else none
      | .objectValue =>
        if b = 0x2C then some ⟨.beginString, .objectKey :: rest⟩
        else if b = 0x7D then some ⟨.endValue, rest⟩
        else none
      | .arrayValue =>
        if b = 0x2C then some ⟨.beginValue, .arrayValue :: rest⟩
        else if b = 0x5D then some ⟨.endValue, rest⟩
        else none

def beginString (stack : List Frame) (b : UInt8) : Option Scanner :=
  if isSpace b then some ⟨.beginString, stack⟩
  else if b = 0x22 then some ⟨.inString, stack⟩
  else none

/-- The octets that may follow a backslash, other than `u`. -/
def isEscape (b : UInt8) : Bool :=
  b == 0x62 || b == 0x66 || b == 0x6E || b == 0x72 || b == 0x74 || b == 0x5C || b == 0x2F || b == 0x22

/-- After the integer part of a number. -/
def afterInteger (stack : List Frame) (b : UInt8) : Option Scanner :=
  if b = 0x2E then some ⟨.dot, stack⟩
  else if b = 0x65 ∨ b = 0x45 then some ⟨.e, stack⟩
  else endValue stack b

def step (s : Scanner) (b : UInt8) : Option Scanner :=
  match s.state with
  | .beginValue => beginValue s.stack b
  | .beginValueOrEmpty =>
    if isSpace b then some s
    else if b = 0x5D then endValue s.stack b
    else beginValue s.stack b
  | .beginString => beginString s.stack b
  | .beginStringOrEmpty =>
    if isSpace b then some s
    else if b = 0x7D then
      match s.stack with
      | [] => none
      | _ :: rest => endValue (.objectValue :: rest) b
    else beginString s.stack b
  | .endValue => endValue s.stack b
  | .inString =>
    if b = 0x22 then some ⟨.endValue, s.stack⟩
    else if b = 0x5C then some ⟨.inStringEsc, s.stack⟩
    else if b < 0x20 then none
    else some s
  | .inStringEsc =>
    if isEscape b then some ⟨.inString, s.stack⟩
    else if b = 0x75 then some ⟨.inStringEscU 3, s.stack⟩
    else none
  | .inStringEscU 0 => if isHex b then some ⟨.inString, s.stack⟩ else none
  | .inStringEscU (left + 1) => if isHex b then some ⟨.inStringEscU left, s.stack⟩ else none
  | .neg =>
    if b = 0x30 then some ⟨.zero, s.stack⟩
    else if isDigit b then some ⟨.one, s.stack⟩
    else none
  | .one => if isDigit b then some s else afterInteger s.stack b
  | .zero => afterInteger s.stack b
  | .dot => if isDigit b then some ⟨.dot0, s.stack⟩ else none
  | .dot0 =>
    if isDigit b then some s
    else if b = 0x65 ∨ b = 0x45 then some ⟨.e, s.stack⟩
    else endValue s.stack b
  | .e =>
    if b = 0x2B ∨ b = 0x2D then some ⟨.eSign, s.stack⟩
    else if isDigit b then some ⟨.e0, s.stack⟩
    else none
  | .eSign => if isDigit b then some ⟨.e0, s.stack⟩ else none
  | .e0 => if isDigit b then some s else endValue s.stack b
  | .t => if b = 0x72 then some ⟨.tr, s.stack⟩ else none
  | .tr => if b = 0x75 then some ⟨.tru, s.stack⟩ else none
  | .tru => if b = 0x65 then some ⟨.endValue, s.stack⟩ else none
  | .f => if b = 0x61 then some ⟨.fa, s.stack⟩ else none
  | .fa => if b = 0x6C then some ⟨.fal, s.stack⟩ else none
  | .fal => if b = 0x73 then some ⟨.fals, s.stack⟩ else none
  | .fals => if b = 0x65 then some ⟨.endValue, s.stack⟩ else none
  | .n => if b = 0x75 then some ⟨.nu, s.stack⟩ else none
  | .nu => if b = 0x6C then some ⟨.nul, s.stack⟩ else none
  | .nul => if b = 0x6C then some ⟨.endValue, s.stack⟩ else none

/-- The text may end here. -/
def eof (s : Scanner) : Bool := s.stack.isEmpty && s.state.ends

/-- The octet is space between tokens. -/
def drops (s : Scanner) (b : UInt8) : Bool :=
  match s.state with
  | .inString | .inStringEsc | .inStringEscU _ => false
  | _ => isSpace b

end Scanner

/-! ## Compact texts -/

/-- The text without space between its tokens, if it is one. -/
def strip (s : Scanner) : Bytes → Option Bytes
  | [] => if s.eof then some [] else none
  | b :: text =>
    (s.step b).bind fun s' =>
      (strip s' text).map fun out => if s.drops b then out else b :: out

/-- A digit of an escape. -/
def hexDigit (n : UInt8) : UInt8 := if n < 10 then 0x30 + n else 0x57 + n

/-- `<`, `>`, `&`, U+2028 and U+2029 as escapes. -/
def escapeHTML : Bytes → Bytes
  | 0xE2 :: 0x80 :: 0xA8 :: text => [0x5C, 0x75, 0x32, 0x30, 0x32, 0x38] ++ escapeHTML text
  | 0xE2 :: 0x80 :: 0xA9 :: text => [0x5C, 0x75, 0x32, 0x30, 0x32, 0x39] ++ escapeHTML text
  | b :: text =>
    if b = 0x3C ∨ b = 0x3E ∨ b = 0x26 then
      [0x5C, 0x75, 0x30, 0x30, hexDigit (b >>> 4), hexDigit (b &&& 0xF)] ++ escapeHTML text
    else b :: escapeHTML text
  | [] => []

/-- What a `json.RawMessage` is written as; there is none if it is not JSON. -/
def compact (text : Bytes) : Option Bytes := (strip {} text).map escapeHTML

/-! ## Tight texts -/

namespace Scanner

/-- A step with an octet that is not dropped. -/
def tightStep (s : Scanner) (b : UInt8) : Option Scanner := if s.drops b then none else s.step b

def run (s : Scanner) (text : Bytes) : Option Scanner := text.foldlM tightStep s

/-- The scanner inside other objects and arrays. -/
def under (s : Scanner) (outer : List Frame) : Scanner := { s with stack := s.stack ++ outer }

@[simp] theorem run_nil (s : Scanner) : s.run [] = some s := rfl

@[simp] theorem run_cons (s : Scanner) (b : UInt8) (text : Bytes) :
    s.run (b :: text) = (s.tightStep b).bind fun s' => s'.run text := rfl

theorem run_append (s : Scanner) (text text' : Bytes) :
    s.run (text ++ text') = (s.run text).bind fun s' => s'.run text' := by
  simp only [run, List.foldlM_append]
  rfl

section Under

variable {stack outer : List Frame} {b : UInt8} {s s' : Scanner} {x x' y y' : Option Scanner}

/-- The one result, if there is one, is the other one inside other objects and arrays. -/
def Lifts (outer : List Frame) (x x' : Option Scanner) : Prop :=
  ∀ s, x = some s → x' = some (s.under outer)

theorem Lifts.none : Lifts outer none x' := nofun

theorem Lifts.some (s : Scanner) : Lifts outer (some s) (some (s.under outer)) := by
  rintro s' ⟨⟩
  rfl

theorem Lifts.ite {c : Prop} [Decidable c] (hx : Lifts outer x x') (hy : Lifts outer y y') :
    Lifts outer (if c then x else y) (if c then x' else y') := by
  split
  · exact hx
  · exact hy

theorem lifts_beginValue :
    Lifts outer (beginValue stack b) (beginValue (stack ++ outer) b) := by
  unfold beginValue
  repeat' refine .ite (.some _) ?_
  exact .none

theorem lifts_beginString :
    Lifts outer (beginString stack b) (beginString (stack ++ outer) b) :=
  .ite (.some _) (.ite (.some _) .none)

theorem lifts_endValue (hb : isSpace b = false) :
    Lifts outer (endValue stack b) (endValue (stack ++ outer) b) := by
  unfold endValue
  cases stack with
  | nil =>
    rw [hb]
    exact .none
  | cons frame rest =>
    refine .ite (.some _) ?_
    cases frame with
    | objectKey => exact .ite (.some _) .none
    | objectValue => exact .ite (.some _) (.ite (.some _) .none)
    | arrayValue => exact .ite (.some _) (.ite (.some _) .none)

theorem lifts_afterInteger (hb : isSpace b = false) :
    Lifts outer (afterInteger stack b) (afterInteger (stack ++ outer) b) :=
  .ite (.some _) (.ite (.some _) (lifts_endValue hb))

/-- A tight step does not look at what is around. -/
theorem lifts_tightStep : Lifts outer (s.tightStep b) ((s.under outer).tightStep b) := by
  obtain ⟨state, stack⟩ := s
  unfold tightStep
  cases hdrops : Scanner.drops ⟨state, stack⟩ b with
  | true => exact .none
  | false =>
    have hunder : (Scanner.under ⟨state, stack⟩ outer).drops b = false := hdrops
    rw [hunder, if_neg Bool.false_ne_true, if_neg Bool.false_ne_true]
    unfold step
    cases state with
    | beginValue => exact lifts_beginValue
    | beginString => exact lifts_beginString
    | endValue => exact lifts_endValue hdrops
    | beginValueOrEmpty => exact .ite (.some _) (.ite (lifts_endValue hdrops) lifts_beginValue)
    | beginStringOrEmpty =>
      refine .ite (.some _) (.ite ?_ lifts_beginString)
      cases stack with
      | nil => exact .none
      | cons frame rest => exact lifts_endValue hdrops
    | inString => exact .ite (.some _) (.ite (.some _) (.ite .none (.some _)))
    | inStringEsc => exact .ite (.some _) (.ite (.some _) .none)
    | inStringEscU left =>
      cases left with
      | zero | succ => exact .ite (.some _) .none
    | neg => exact .ite (.some _) (.ite (.some _) .none)
    | one => exact .ite (.some _) (lifts_afterInteger hdrops)
    | zero => exact lifts_afterInteger hdrops
    | dot | eSign | t | tr | tru | f | fa | fal | fals | n | nu | nul =>
      exact .ite (.some _) .none
    | dot0 => exact .ite (.some _) (.ite (.some _) (lifts_endValue hdrops))
    | e => exact .ite (.some _) (.ite (.some _) .none)
    | e0 => exact .ite (.some _) (lifts_endValue hdrops)

theorem run_under {text : Bytes} (h : s.run text = some s') :
    (s.under outer).run text = some (s'.under outer) := by
  induction text generalizing s with
  | nil =>
    cases h
    rfl
  | cons b text ih =>
    obtain ⟨s₁, hstep, hrest⟩ := Option.bind_eq_some_iff.mp h
    rw [run_cons, lifts_tightStep s₁ hstep]
    exact ih hrest

end Under

end Scanner

/-- A JSON text without space between its tokens. -/
def Tight (text : Bytes) : Prop := ∃ s, Scanner.run {} text = some s ∧ s.eof = true

/-- The octets that stand between values. -/
def isDelimiter (b : UInt8) : Bool := b == 0x2C || b == 0x3A || b == 0x5D || b == 0x7D

namespace Scanner

variable {s : Scanner} {b : UInt8} {outer : List Frame}

theorem drops_of_not_isSpace (hb : isSpace b = false) : s.drops b = false := by
  unfold drops
  split
  all_goals first | rfl | exact hb

theorem isSpace_of_isDelimiter (hb : isDelimiter b = true) : isSpace b = false := by
  simp only [isDelimiter, Bool.or_eq_true, beq_iff_eq] at hb
  rcases hb with ((rfl | rfl) | rfl) | rfl <;> rfl

theorem step_of_ends (h : s.state.ends = true) (hb : isDelimiter b = true ∨ isSpace b = true) :
    s.step b = endValue s.stack b := by
  obtain ⟨state, stack⟩ := s
  simp only [isDelimiter, isSpace, Bool.or_eq_true, beq_iff_eq] at hb
  rcases State.ends_cases h with rfl | rfl | rfl | rfl | rfl <;>
    rcases hb with (((rfl | rfl) | rfl) | rfl) | (((rfl | rfl) | rfl) | rfl) <;> rfl

/-- After a tight text the scanner goes on with what is around it. -/
theorem tightStep_of_eof (h : s.eof = true) (hb : isDelimiter b = true) :
    (s.under outer).tightStep b = endValue outer b := by
  obtain ⟨hempty, hends⟩ := Bool.and_eq_true_iff.mp h
  have hstack : (s.under outer).stack = outer := by
    rw [under, List.isEmpty_iff.mp hempty]
    rfl
  unfold tightStep
  rw [drops_of_not_isSpace (isSpace_of_isDelimiter hb), if_neg Bool.false_ne_true,
    step_of_ends (s := s.under outer) hends (Or.inl hb), hstack]

end Scanner

/-! ## Values in a text -/

/-- The octet belongs to the value that is being read. -/
def Scanner.advance (s : Scanner) (b : UInt8) : Option Scanner :=
  if s.eof && isSpace b then none else s.step b

/-- The value at the beginning of a text, and what comes after it. -/
def takeValue (s : Scanner) : Bytes → Option (Bytes × Bytes)
  | [] => if s.eof then some ([], []) else none
  | b :: text =>
    match s.advance b with
    | some s' => (takeValue s' text).map fun r => (b :: r.1, r.2)
    | none => if s.eof then some ([], b :: text) else none

namespace Scanner

variable {s s' : Scanner} {b : UInt8}

theorem drops_of_ends (h : s.state.ends = true) : s.drops b = isSpace b := by
  obtain ⟨state, stack⟩ := s
  rcases State.ends_cases h with rfl | rfl | rfl | rfl | rfl <;> rfl

theorem advance_of_tightStep (h : s.tightStep b = some s') : s.advance b = some s' := by
  unfold tightStep at h
  split at h
  · cases h
  · rename_i hnot
    unfold advance
    rw [if_neg, h]
    intro hspace
    obtain ⟨heof, hb⟩ := Bool.and_eq_true_iff.mp hspace
    rw [drops_of_ends (Bool.and_eq_true_iff.mp heof).2] at hnot
    exact hnot hb

theorem advance_of_isDelimiter (h : s.eof = true) (hb : isDelimiter b = true) :
    s.advance b = none := by
  obtain ⟨hempty, hends⟩ := Bool.and_eq_true_iff.mp h
  unfold advance
  rw [isSpace_of_isDelimiter hb, Bool.and_false, if_neg Bool.false_ne_true, step_of_ends hends (Or.inl hb),
    List.isEmpty_iff.mp hempty, endValue, isSpace_of_isDelimiter hb]
  rfl

end Scanner

/-- A text that begins with a delimiter, or is over. -/
def Delimited (text : Bytes) : Prop := ∀ b ∈ text.head?, isDelimiter b = true

theorem takeValue_append {s s' : Scanner} {text : Bytes} (h : s.run text = some s') (rest : Bytes) :
    takeValue s (text ++ rest) = (takeValue s' rest).map fun r => (text ++ r.1, r.2) := by
  induction text generalizing s with
  | nil =>
    cases h
    simp
  | cons b text ih =>
    obtain ⟨s₁, hstep, hrun⟩ := Option.bind_eq_some_iff.mp h
    rw [List.cons_append, takeValue, Scanner.advance_of_tightStep hstep]
    simp [ih hrun, Function.comp_def]

theorem takeValue_of_run {s s' : Scanner} {text rest : Bytes} (h : s.run text = some s')
    (heof : s'.eof = true) (hrest : Delimited rest) :
    takeValue s (text ++ rest) = some (text, rest) := by
  rw [takeValue_append h]
  cases rest with
  | nil => simp [takeValue, heof]
  | cons b rest =>
    have hstop := Scanner.advance_of_isDelimiter heof (hrest b rfl)
    simp [takeValue, hstop, heof]

/-- A tight text is a value in every text it stands in. -/
theorem Tight.takeValue {text rest : Bytes} (h : Tight text) (hrest : Delimited rest) :
    takeValue {} (text ++ rest) = some (text, rest) := by
  obtain ⟨s, hrun, heof⟩ := h
  exact takeValue_of_run hrun heof hrest

theorem Tight.ne_nil {text : Bytes} (h : Tight text) : text ≠ [] := by
  rintro rfl
  obtain ⟨s, hrun, heof⟩ := h
  cases hrun
  cases heof

/-- A tight text does not begin with space. -/
theorem Tight.dropWhile {text rest : Bytes} (h : Tight text) :
    (text ++ rest).dropWhile isSpace = text ++ rest := by
  obtain ⟨s, hrun, _⟩ := id h
  cases text with
  | nil => exact absurd rfl h.ne_nil
  | cons b text =>
    obtain ⟨s₁, hstep, _⟩ := Option.bind_eq_some_iff.mp hrun
    refine List.dropWhile_cons_of_neg fun hb => ?_
    simp [Scanner.tightStep, Scanner.drops, hb] at hstep

/-! ## Compact texts are tight -/

section Compact

variable {s s' : Scanner} {b : UInt8} {text out : Bytes}

/-- The scanner is as it was, or it has seen that a value has ended. -/
inductive Scanner.Settled (s : Scanner) : Scanner → Prop where
  | refl : Settled s s
  | ended (h : s.state.ends = true) : Settled s ⟨.endValue, s.stack⟩

theorem Scanner.endValue_of_isSpace {stack : List Frame} (hb : isSpace b = true) :
    Scanner.endValue stack b = some ⟨.endValue, stack⟩ := by
  cases stack with
  | nil => exact if_pos hb
  | cons => exact if_pos hb

theorem Scanner.isDelimiter_of_endValue {stack : List Frame} (hb : isSpace b = false)
    (h : Scanner.endValue stack b = some s') : isDelimiter b = true := by
  unfold endValue at h
  simp only [hb, Bool.false_eq_true, if_false] at h
  split at h
  · cases h
  · repeat' split at h
    all_goals first | cases h; done | simp_all [isDelimiter]

/-- Space between tokens is passed over. -/
theorem Scanner.settled_of_drops (h : s.step b = some s') (hb : s.drops b = true) : s.Settled s' := by
  cases hends : s.state.ends with
  | true =>
    rw [drops_of_ends hends] at hb
    rw [step_of_ends hends (Or.inr hb), endValue_of_isSpace hb] at h
    cases h
    exact .ended hends
  | false =>
    obtain ⟨state, stack⟩ := s
    cases state with
    | beginValue | beginValueOrEmpty | beginString | beginStringOrEmpty =>
      have hself : some _ = some s' := (if_pos hb).symm.trans h
      cases hself
      exact .refl
    | neg | dot | e | eSign | t | tr | tru | f | fa | fal | fals | n | nu | nul =>
      simp only [drops, isSpace, Bool.or_eq_true, beq_iff_eq] at hb
      rcases hb with ((rfl | rfl) | rfl) | rfl <;> cases h
    | inString | inStringEsc | inStringEscU => cases hb
    | endValue | zero | one | dot0 | e0 => cases hends

theorem Scanner.Settled.step {s₁ : Scanner} (h : s.Settled s₁) (hb : s₁.drops b = false)
    (hstep : s₁.step b = some s') : s.tightStep b = some s' := by
  cases h with
  | refl =>
    rw [tightStep, hb]
    exact hstep
  | ended hends =>
    have hdelim := isDelimiter_of_endValue hb hstep
    rw [tightStep, drops_of_not_isSpace hb, if_neg Bool.false_ne_true,
      step_of_ends hends (Or.inl hdelim)]
    exact hstep

theorem Scanner.Settled.trans {s₁ s₂ : Scanner} (h : s.Settled s₁) (h' : s₁.Settled s₂) :
    s.Settled s₂ := by
  cases h with
  | refl => exact h'
  | ended hends =>
    cases h' with
    | refl => exact .ended hends
    | ended _ => exact .ended hends

/-- What is left when the space is dropped is tight. -/
theorem exists_run_of_strip {s₁ : Scanner} (hs : s.Settled s₁) (h : strip s₁ text = some out) :
    ∃ s', s.run out = some s' ∧ s'.eof = true := by
  induction text generalizing s s₁ out with
  | nil =>
    rw [strip] at h
    split at h
    · rename_i heof
      cases h
      refine ⟨s, rfl, ?_⟩
      cases hs with
      | refl => exact heof
      | ended hends => exact Bool.and_eq_true_iff.mpr ⟨(Bool.and_eq_true_iff.mp heof).1, hends⟩
    · cases h
  | cons b text ih =>
    obtain ⟨s₂, hstep, hrest⟩ := Option.bind_eq_some_iff.mp h
    obtain ⟨out', hout, heq⟩ := Option.map_eq_some_iff.mp hrest
    cases hdrops : s₁.drops b with
    | true =>
      rw [hdrops] at heq
      cases heq
      exact ih (hs.trans (Scanner.settled_of_drops hstep hdrops)) hout
    | false =>
      rw [hdrops, if_neg Bool.false_ne_true] at heq
      cases heq
      obtain ⟨s', hrun, heof⟩ := ih .refl hout
      refine ⟨s', ?_, heof⟩
      rw [Scanner.run_cons, hs.step hdrops hstep]
      exact hrun

/-- The octets that escapes are written for stand in strings only. -/
theorem Scanner.inString_of_tightStep (hb : b = 0x3C ∨ b = 0x3E ∨ b = 0x26 ∨ b = 0xE2)
    (h : s.tightStep b = some s') : s.state = .inString ∧ s' = s := by
  have hspace : isSpace b = false := by rcases hb with rfl | rfl | rfl | rfl <;> rfl
  have hdelim : isDelimiter b = false := by rcases hb with rfl | rfl | rfl | rfl <;> rfl
  have hend : ∀ stack, endValue stack b ≠ some s' := fun stack hstep => by
    rw [isDelimiter_of_endValue hspace hstep] at hdelim
    cases hdelim
  rw [tightStep, drops_of_not_isSpace hspace, if_neg Bool.false_ne_true] at h
  obtain ⟨state, stack⟩ := s
  cases state with
  | inString =>
    rcases hb with rfl | rfl | rfl | rfl <;> exact ⟨rfl, (Option.some.inj h).symm⟩
  | endValue => exact absurd h (hend stack)
  | zero | one | dot0 | e0 =>
    rcases hb with rfl | rfl | rfl | rfl <;> exact absurd h (hend stack)
  | inStringEscU left =>
    cases left with
    | zero | succ => rcases hb with rfl | rfl | rfl | rfl <;> cases h
  | _ => rcases hb with rfl | rfl | rfl | rfl <;> cases h

/-- An escape leads back into the string. -/
theorem run_escapeHTML (h : s.run text = some s') : s.run (escapeHTML text) = some s' := by
  induction text using escapeHTML.induct generalizing s with
  | case1 text ih | case2 text ih =>
    obtain ⟨s₁, hfirst, hrest⟩ := Option.bind_eq_some_iff.mp h
    obtain ⟨hstate, rfl⟩ := Scanner.inString_of_tightStep (by decide) hfirst
    obtain ⟨state, stack⟩ := s₁
    cases hstate
    exact ih hrest
  | case3 b text h1 h2 hb ih =>
    obtain ⟨s₁, hfirst, hrest⟩ := Option.bind_eq_some_iff.mp h
    obtain ⟨hstate, rfl⟩ := Scanner.inString_of_tightStep (by tauto) hfirst
    obtain ⟨state, stack⟩ := s₁
    cases hstate
    rw [escapeHTML.eq_3 b text h1 h2, if_pos hb]
    rcases hb with rfl | rfl | rfl <;> exact ih hrest
  | case4 b text h1 h2 hb ih =>
    obtain ⟨s₁, hfirst, hrest⟩ := Option.bind_eq_some_iff.mp h
    rw [escapeHTML.eq_3 b text h1 h2, if_neg hb, Scanner.run_cons, hfirst]
    exact ih hrest
  | case5 => exact h

theorem tight_of_compact (h : compact text = some out) : Tight out := by
  obtain ⟨stripped, hstrip, rfl⟩ := Option.map_eq_some_iff.mp h
  obtain ⟨s', hrun, heof⟩ := exists_run_of_strip .refl hstrip
  exact ⟨s', run_escapeHTML hrun, heof⟩

/-- There is no space in a tight text. -/
theorem strip_of_run (h : s.run text = some s') (heof : s'.eof = true) : strip s text = some text := by
  induction text generalizing s with
  | nil =>
    cases h
    exact if_pos heof
  | cons b text ih =>
    obtain ⟨s₁, hfirst, hrest⟩ := Option.bind_eq_some_iff.mp h
    rw [Scanner.tightStep] at hfirst
    split_ifs at hfirst with hdrops
    rw [strip, hfirst, Option.bind_some, ih hrest, Option.map_some, if_neg hdrops]

/-- No octet of the text starts one of the characters that escapes are written for. -/
def Unescaped (text : Bytes) : Prop := ∀ b ∈ text, b ≠ 0x3C ∧ b ≠ 0x3E ∧ b ≠ 0x26 ∧ b ≠ 0xE2

theorem escapeHTML_of_unescaped (h : Unescaped text) : escapeHTML text = text := by
  induction text using escapeHTML.induct with
  | case1 text ih | case2 text ih => exact absurd rfl (h 0xE2 (by simp)).2.2.2
  | case3 b text h1 h2 hb ih =>
    obtain ⟨hlt, hgt, hamp, -⟩ := h b (by simp)
    rcases hb with rfl | rfl | rfl
    · exact absurd rfl hlt
    · exact absurd rfl hgt
    · exact absurd rfl hamp
  | case4 b text h1 h2 hb ih =>
    rw [escapeHTML.eq_3 b text h1 h2, if_neg hb, ih fun b' hb' => h b' (List.mem_cons_of_mem b hb')]
  | case5 => rfl

theorem compact_of_tight (h : Tight text) (hplain : Unescaped text) : compact text = some text := by
  obtain ⟨s', hrun, heof⟩ := h
  rw [compact, strip_of_run hrun heof, Option.map_some, escapeHTML_of_unescaped hplain]

/-! ## Line breaks -/

theorem Scanner.tightStep_lineBreak (s : Scanner) :
    s.tightStep 0x0A = none ∧ s.tightStep 0x0D = none := by
  obtain ⟨q, stack⟩ := s
  cases q with
  | inStringEscU left =>
    cases left with
    | zero | succ left => exact ⟨rfl, rfl⟩
  | _ => exact ⟨rfl, rfl⟩

theorem notMem_of_run (h : s.run text = some s') : 0x0A ∉ text ∧ 0x0D ∉ text := by
  induction text generalizing s with
  | nil => exact ⟨List.not_mem_nil, List.not_mem_nil⟩
  | cons b text ih =>
    obtain ⟨s₁, hfirst, hrest⟩ := Option.bind_eq_some_iff.mp h
    obtain ⟨hlf, hcr⟩ := ih hrest
    refine ⟨fun hmem => ?_, fun hmem => ?_⟩
    · rcases List.mem_cons.mp hmem with rfl | hmem
      · cases s.tightStep_lineBreak.1.symm.trans hfirst
      · exact hlf hmem
    · rcases List.mem_cons.mp hmem with rfl | hmem
      · cases s.tightStep_lineBreak.2.symm.trans hfirst
      · exact hcr hmem

/-- A tight text is on one line. -/
theorem Tight.notMem_lineBreak (h : Tight text) : 0x0A ∉ text ∧ 0x0D ∉ text := by
  obtain ⟨s', hrun, -⟩ := h
  exact notMem_of_run hrun

end Compact

end Json

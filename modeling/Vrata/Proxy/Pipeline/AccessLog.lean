import Mathlib.Data.List.Sort
import Vrata.Lib.Json.Quote
import Vrata.Proxy.Pipeline.Interpolation

/-!
# The lines of the access log

Reference: `server/internal/proxy/middlewares/accesslog.go`.

The log gets one write for each configured phase, when the request comes in and when the handler has
returned. `Vrata.Proxy.Pipeline.Interpolation` has how the templates are filled in; here are the two ways
to write an entry. JSON strings escape a line feed. The other one, `key=value`, writes the values as they
are, and the path of a request is percent-decoded.

The paths and headers of a request are octets. Its texts are read octet by octet here: a character stands
for the octet of its number.
-/

namespace Vrata.Proxy

open Json (Bytes)
open Server

/-! ## The code -/

/-- A text of octets. -/
def IsOctets (text : List Char) : Prop := ∀ c ∈ text, c.val < 0x100

instance (text : List Char) : Decidable (IsOctets text) := List.decidableBAll _ text

def octets (s : String) : Bytes := s.toList.map Char.toUInt8

/-- `strings.Join`. -/
def joinWith (sep : UInt8) : List Bytes → Bytes
  | [] => []
  | [part] => part
  | part :: parts => part ++ sep :: joinWith sep parts

/-- An entry as `key=value` pairs, in the order in which they are visited. -/
def textEntry (entry : AccessLogFields) : Bytes :=
  joinWith 0x20 (entry.map fun field => octets field.1 ++ 0x3D :: octets field.2)

/-- The body of a JSON string. What is not UTF-8 is written as the escape of U+FFFD. -/
def quoteBody : (fuel : ℕ) → Bytes → Bytes
  | 0, _ => []
  | _, [] => []
  | fuel + 1, b :: text =>
    match (b :: text).toByteArray.utf8DecodeChar? 0 with
    | some c => Json.quoteChar c ++ quoteBody fuel ((b :: text).drop c.utf8Size)
    | none => [0x5C, 0x75, 0x66, 0x66, 0x66, 0x64] ++ quoteBody fuel text

def quoteOctets (s : String) : Bytes := 0x22 :: (quoteBody (octets s).length (octets s) ++ [0x22])

/-- An entry as `json.Marshal` writes a map, the keys in order. -/
def jsonEntry (entry : AccessLogFields) : Bytes :=
  0x7B :: (joinWith 0x2C ((entry.insertionSort fun a b => a.1 ≤ b.1).map fun field =>
    quoteOctets field.1 ++ 0x3A :: quoteOctets field.2) ++ [0x7D])

def writeLine (useJSON : Bool) (entry : AccessLogFields) : Bytes :=
  (if useJSON then jsonEntry entry else textEntry entry) ++ [0x0A]

/-- The templates of an entry, filled in with these values. -/
def fillFields (v : Values) (fields : AccessLogFields) : AccessLogFields :=
  fields.map fun field => (field.1, String.ofList (runText v logSteps field.2.toList))

/-- The fields of a phase; keys and templates have no line feed. -/
structure LogFields where
  fields : AccessLogFields
  octets_of_mem : ∀ field ∈ fields, IsOctets field.1.toList ∧ IsOctets field.2.toList
  newline_not_mem : ∀ field ∈ fields, '\n' ∉ field.1.toList ∧ '\n' ∉ field.2.toList

/-- What the placeholders stand for when an entry is written. -/
structure OctetValues extends Values where
  octets_slot : ∀ mark, IsOctets (slot mark).toList
  octets_header : ∀ name, IsOctets (header name).toList

structure AccessLog where
  path : String
  useJSON : Bool
  onRequest : Option LogFields
  onResponse : Option LogFields

namespace AccessLog

/-- Without a path nothing is logged. -/
def phase (l : AccessLog) (fields : Option LogFields) : Option LogFields :=
  if l.path = "" then none else fields

/-- The writes for one request: what the placeholders stand for when it comes in, and when the handler
has returned, which it does not if it panics. -/
def writes (l : AccessLog) (before : OctetValues) (after : Option OctetValues) : List Bytes :=
  (l.phase l.onRequest).toList.map (fun p => writeLine l.useJSON (fillFields before.toValues p.fields)) ++
    after.toList.flatMap fun v =>
      (l.phase l.onResponse).toList.map fun p => writeLine l.useJSON (fillFields v.toValues p.fields)

end AccessLog

/-- One line with its end. -/
def IsLine (text : Bytes) : Prop := ∃ line, 0x0A ∉ line ∧ text = line ++ [0x0A]

/-- Each configured phase has written exactly one line. -/
def AccessLog.OneLinePerPhase (l : AccessLog) (writes : List Bytes) : Prop :=
  writes.length = ((l.phase l.onRequest).toList ++ (l.phase l.onResponse).toList).length ∧
    ∀ text ∈ writes, IsLine text

/-- The texts that are filled in, apart from the headers. -/
def logTexts (ctx : LogContext) (secure : Bool) (r : Inbound) : List String :=
  [ctx.requestID, r.method, ctx.originalPath, Text.before ':' r.host, r.host, r.loggedIP,
    if secure then "https" else "http", toString ctx.statusCode, toString ctx.bytesWritten,
    toString ctx.milliseconds, toString ctx.microseconds, ctx.seconds]

theorem slot_logValues_mem (ctx : LogContext) (secure : Bool) (r : Inbound) (mark : String) :
    (logValues ctx secure r).slot mark ∈ logTexts ctx secure r := by
  have hite : ∀ {p : Prop} [Decidable p] {a b : String} {texts : List String},
      a ∈ texts → b ∈ texts → (if p then a else b) ∈ texts := by
    intro p _ a b texts ha hb
    split
    · exact ha
    · exact hb
  unfold logValues logTexts
  repeat refine hite (by simp only [List.mem_cons, true_or, or_true]) ?_
  simp only [List.mem_cons, true_or, or_true]

/-! ## Octets -/

theorem toUInt8_ne_lineFeed {text : List Char} (h : IsOctets text) (hnot : '\n' ∉ text) :
    ∀ c ∈ text, c.toUInt8 ≠ 0x0A := by
  intro c hc heq
  have hnat := congrArg UInt8.toNat heq
  rw [Char.toUInt8, UInt32.toNat_toUInt8] at hnat
  have hlt : c.val.toNat < 0x100 := UInt32.lt_iff_toNat_lt.mp (h c hc)
  have hten : (0x0A : UInt8).toNat = 10 := rfl
  have hnewline : c = '\n' := by
    refine Char.toNat_inj.mp ?_
    show c.val.toNat = 10
    omega
  exact hnot (hnewline ▸ hc)

theorem lineFeed_not_mem_octets {s : String} (h : ∀ c ∈ s.toList, c.toUInt8 ≠ 0x0A) : 0x0A ∉ octets s := by
  intro hmem
  obtain ⟨c, hc, heq⟩ := List.mem_map.mp hmem
  exact h c hc heq

theorem mem_joinWith {sep b : UInt8} (hb : b ≠ sep) {parts : List Bytes} :
    b ∈ joinWith sep parts ↔ ∃ part ∈ parts, b ∈ part := by
  induction parts with
  | nil => simp [joinWith]
  | cons part parts ih =>
    cases parts with
    | nil => simp [joinWith]
    | cons part' parts =>
      show b ∈ part ++ sep :: joinWith sep (part' :: parts) ↔ _
      rw [List.mem_append, List.mem_cons, ih]
      simp [hb]

/-! ## Filling in -/

section Fill

variable {P : Char → Prop} {v : Values}

theorem forall_mem_replaceFrom {old new : List Char} (hnew : ∀ c ∈ new, P c) {text : List Char}
    (htext : ∀ c ∈ text, P c) (skip : ℕ) : ∀ c ∈ replaceFrom old new skip text, P c := by
  induction text generalizing skip with
  | nil =>
    intro c hc
    cases skip <;> simp [replaceFrom] at hc
  | cons d text ih =>
    obtain ⟨hd, hrest⟩ := List.forall_mem_cons.mp htext
    cases skip with
    | succ skip => exact ih hrest skip
    | zero =>
      rw [replaceFrom]
      split
      · exact List.forall_mem_append.mpr ⟨hnew, ih hrest _⟩
      · exact List.forall_mem_cons.mpr ⟨hd, ih hrest 0⟩

theorem forall_mem_fillHeaders {get : String → String} (hget : ∀ name, ∀ c ∈ (get name).toList, P c)
    {text : List Char} (htext : ∀ c ∈ text, P c) (fuel : ℕ) : ∀ c ∈ fillHeaders get fuel text, P c := by
  induction fuel generalizing text with
  | zero => exact htext
  | succ fuel ih =>
    cases text with
    | nil => exact htext
    | cons d text =>
      have hdrop : ∀ {n m : ℕ}, ∀ c ∈ ((d :: text).drop n).drop m, P c := fun c hc =>
        htext c (List.mem_of_mem_drop (List.mem_of_mem_drop hc))
      rw [fillHeaders_cons]
      split
      · split
        · exact List.forall_mem_append.mpr ⟨hget _, ih hdrop⟩
        · exact htext
      · obtain ⟨hd, hrest⟩ := List.forall_mem_cons.mp htext
        exact List.forall_mem_cons.mpr ⟨hd, ih hrest⟩

/-- What all characters of the template and of the values have in common, those of the result have. -/
theorem forall_mem_runText (hslot : ∀ mark, ∀ c ∈ (v.slot mark).toList, P c)
    (hheader : ∀ name, ∀ c ∈ (v.header name).toList, P c) (steps : List Fill) {text : List Char}
    (htext : ∀ c ∈ text, P c) : ∀ c ∈ runText v steps text, P c := by
  induction steps generalizing text with
  | nil => exact htext
  | cons step steps ih =>
    refine ih ?_
    cases step with
    | replace mark => exact forall_mem_replaceFrom (hslot mark) htext 0
    | headers => exact forall_mem_fillHeaders hheader htext _

end Fill

/-! ## Entries -/

/-- No value has a line feed. -/
def OctetValues.Plain (v : OctetValues) : Prop :=
  (∀ mark, '\n' ∉ (v.slot mark).toList) ∧ ∀ name, '\n' ∉ (v.header name).toList

theorem isLine_append_lineFeed {text : Bytes} : IsLine (text ++ [0x0A]) ↔ 0x0A ∉ text := by
  constructor
  · rintro ⟨line, hline, heq⟩
    rwa [List.append_cancel_right heq]
  · exact fun h => ⟨text, h, rfl⟩

/-- Values without a line feed bring none into an entry. -/
theorem isLine_writeLine_text (p : LogFields) {v : OctetValues} (hplain : v.Plain) :
    IsLine (writeLine false (fillFields v.toValues p.fields)) := by
  rw [writeLine, isLine_append_lineFeed, if_neg Bool.false_ne_true, textEntry,
    mem_joinWith (by decide), fillFields, List.map_map]
  rintro ⟨part, hpart, hmem⟩
  obtain ⟨field, hfield, rfl⟩ := List.mem_map.mp hpart
  obtain ⟨hkey, htemplate⟩ := p.octets_of_mem field hfield
  obtain ⟨hkey', htemplate'⟩ := p.newline_not_mem field hfield
  have hfilled : ∀ c ∈ runText v.toValues logSteps field.2.toList, c.toUInt8 ≠ 0x0A :=
    forall_mem_runText (fun mark => toUInt8_ne_lineFeed (v.octets_slot mark) (hplain.1 mark))
      (fun name => toUInt8_ne_lineFeed (v.octets_header name) (hplain.2 name)) logSteps
      (toUInt8_ne_lineFeed htemplate htemplate')
  rcases List.mem_append.mp hmem with hmem | hmem
  · exact lineFeed_not_mem_octets (toUInt8_ne_lineFeed hkey hkey') hmem
  · rcases List.mem_cons.mp hmem with heq | hmem
    · exact absurd heq (by decide)
    · exact lineFeed_not_mem_octets (by rwa [String.toList_ofList]) hmem

theorem lineFeed_not_mem_quoteChar (c : Char) : 0x0A ∉ Json.quoteChar c := by
  have hhex : ∀ d : UInt8, Json.isHex d = true → 0x0A ≠ d := by
    rintro d h rfl
    exact absurd h (by decide)
  have hwritten := Json.written_quoteChar c
  generalize Json.quoteChar c = out at hwritten
  cases hwritten with
  | short h =>
    rcases Json.shortEscape_cases h with
      ⟨-, rfl⟩ | ⟨-, rfl⟩ | ⟨-, rfl⟩ | ⟨-, rfl⟩ | ⟨-, rfl⟩ | ⟨-, rfl⟩ | ⟨-, rfl⟩ <;>
      decide
  | escape h => simp [hhex _ (Json.isHex_high _), hhex _ (Json.isHex_low _)]
  | separator h => simp [hhex _ (Json.isHex_low _)]
  | plain h => exact fun hmem => h _ hmem (.inr (.inr (by decide)))

theorem lineFeed_not_mem_quoteOctets (s : String) : 0x0A ∉ quoteOctets s := by
  have hbody : ∀ (fuel : ℕ) (text : Bytes), 0x0A ∉ quoteBody fuel text := by
    intro fuel
    induction fuel with
    | zero => simp [quoteBody]
    | succ fuel ih =>
      intro text
      cases text with
      | nil => simp [quoteBody]
      | cons b text =>
        rw [quoteBody]
        split
        · simp [lineFeed_not_mem_quoteChar, ih]
        · simp [ih]
  simp [quoteOctets, hbody]

theorem isLine_writeLine_json (entry : AccessLogFields) : IsLine (writeLine true entry) := by
  rw [writeLine, isLine_append_lineFeed, if_pos rfl, jsonEntry, List.mem_cons, List.mem_append,
    mem_joinWith (by decide)]
  simp [lineFeed_not_mem_quoteOctets]

namespace AccessLog

/-- Each phase writes one line if the handler returns when the second one is configured, and the log is JSON
or no value has a line feed. -/
theorem oneLinePerPhase_of_plain (l : AccessLog) (before : OctetValues) (after : Option OctetValues)
    (hreturns : after = none → l.phase l.onResponse = none)
    (hplain : l.useJSON = true ∨ before.Plain ∧ ∀ v ∈ after, v.Plain) :
    l.OneLinePerPhase (l.writes before after) := by
  have hline : ∀ (p : LogFields) (v : OctetValues), l.useJSON = true ∨ v.Plain →
      IsLine (writeLine l.useJSON (fillFields v.toValues p.fields)) := by
    intro p v h
    cases hjson : l.useJSON with
    | true => exact isLine_writeLine_json _
    | false => exact isLine_writeLine_text p (h.resolve_left (by simp [hjson]))
  have hbefore := fun p => hline p before (hplain.imp_right And.left)
  unfold OneLinePerPhase writes
  generalize l.phase l.onRequest = request
  generalize l.phase l.onResponse = response at hreturns ⊢
  cases after with
  | none => cases request <;> simp [hreturns rfl, hbefore]
  | some v =>
    have hafter := fun p => hline p v (hplain.imp_right fun h => h.2 v rfl)
    cases request <;> cases response <;> simp [hbefore, hafter]

theorem octets_pathFields : ∀ field ∈ [("path", "$\x7brequest.path\x7d")],
    IsOctets field.1.toList ∧ IsOctets field.2.toList := by decide

theorem newline_not_mem_pathFields : ∀ field ∈ [("path", "$\x7brequest.path\x7d")],
    '\n' ∉ field.1.toList ∧ '\n' ∉ field.2.toList := by decide

/-- The paths of the requests as text. -/
def pathLog : AccessLog :=
  ⟨"stdout", false, some ⟨_, octets_pathFields, newline_not_mem_pathFields⟩, none⟩

/-- The values for a request with this path. -/
def pathValues (path : String) (h : Text.hasPrefix path "/" = true) : Values :=
  logValues ⟨"", path, 0, 0, 0, 0, "0.000"⟩ false (plainRequest path h)

/-- The texts of such a request. -/
def pathTexts (path : String) (h : Text.hasPrefix path "/" = true) : List String :=
  logTexts ⟨"", path, 0, 0, 0, 0, "0.000"⟩ false (plainRequest path h)

/-- The values, if the texts are octets. -/
def octetValues (path : String) (h : Text.hasPrefix path "/" = true)
    (hoctets : ∀ s ∈ pathTexts path h, IsOctets s.toList) : OctetValues where
  toValues := pathValues path h
  octets_slot mark := hoctets _ (slot_logValues_mem _ _ _ mark)
  octets_header _ _ hc := absurd hc List.not_mem_nil

theorem octets_root : ∀ s ∈ pathTexts "/" hasPrefix_root, IsOctets s.toList := by decide +kernel

theorem newline_not_mem_root : ∀ s ∈ pathTexts "/" hasPrefix_root, '\n' ∉ s.toList := by decide +kernel

theorem oneLinePerPhase_root :
    pathLog.OneLinePerPhase (pathLog.writes (octetValues "/" hasPrefix_root octets_root) none) :=
  pathLog.oneLinePerPhase_of_plain _ none (fun _ => rfl)
    (.inr ⟨⟨fun mark => newline_not_mem_root _ (slot_logValues_mem _ _ _ mark), fun _ => List.not_mem_nil⟩,
      fun _ h => absurd h (Option.not_mem_none _)⟩)

theorem hasPrefix_forgedPath : Text.hasPrefix "/\npath=/admin" "/" = true := by decide

theorem octets_forgedPath : ∀ s ∈ pathTexts "/\npath=/admin" hasPrefix_forgedPath, IsOctets s.toList := by
  decide +kernel

/-- `GET /%0Apath=/admin` is logged as two lines. -/
theorem not_oneLinePerPhase_forged :
    ¬ pathLog.OneLinePerPhase
      (pathLog.writes (octetValues _ hasPrefix_forgedPath octets_forgedPath) none) := by
  rintro ⟨-, h⟩
  obtain ⟨line, hline, heq⟩ := h (octets "path=/\npath=/admin\n") (by decide +kernel)
  have hcount := congrArg (List.count 0x0A) heq
  rw [List.count_append, List.count_eq_zero_of_not_mem hline] at hcount
  exact absurd hcount (by decide +kernel)

end AccessLog

end Vrata.Proxy

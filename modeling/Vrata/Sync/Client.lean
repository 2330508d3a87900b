import Vrata.Api.Delivery
import Vrata.Lib.Lines
import Vrata.Store.Interchange
import Mathlib.Data.List.TakeWhile

/-!
# The stream that a proxy reads

The control plane writes each snapshot as an event of three lines, and comments in between to keep the
connection open. A proxy reads the lines through a buffer of four megabytes and applies what stands in a
`data` line after an `event: snapshot`.

`roundTrip_iff` says that it applies the snapshots that were written, in order and each once, and reads
until the control plane closes the stream, exactly if the line of every snapshot fits the buffer.
-/

namespace Vrata.Sync

open Json (Bytes)
open Store Api Lines

/-! ## The client -/

def bufferSize : ℕ := 4 * 1024 * 1024

/-- The type of the event that is being read, and what `applySnapshot` has been called with. -/
structure Reading where
  eventType : Bytes := []
  applied : List Bytes := []

def Reading.line (r : Reading) (line : Bytes) : Reading :=
  if line = [] then
    if r.eventType = utf8 "snapshot" then r else { r with eventType := [] }
  else
    match line.dropPrefix? (utf8 "event: ") with
    | some eventType => { r with eventType }
    | none =>
      match line.dropPrefix? (utf8 "data: ") with
      | some data => if r.eventType = utf8 "snapshot" then ⟨[], r.applied ++ [data]⟩ else r
      | none => r

def stopText : Stop → String
  | .ended => "stream closed by server"
  | .tooLong => "reading stream: bufio.Scanner: token too long"

/-- What is applied of a response, and the error with which `stream` returns in the end. The sizes are
those of the reads. -/
def stream (status : ℕ) (body : Bytes) (sizes : List ℕ) : List Bytes × String :=
  if status ≠ 200 then ([], "control plane returned " ++ toString status)
  else
    let r := (Scanner.new bufferSize body sizes).scan
    ((r.1.foldl Reading.line {}).applied, stopText r.2)

/-! ## The round trip -/

section RoundTrip

variable {S : Schema}

/-- What the control plane writes. -/
def written (ps : List (Push S)) : Bytes := (ps.filterMap Push.text).flatten

def json : Push S → Option Bytes
  | .snapshot vs => S.marshal vs
  | .keepalive => none

/-- The snapshots that are written, as JSON. -/
def texts (ps : List (Push S)) : List Bytes := ps.filterMap json

def RoundTrip (ps : List (Push S)) (sizes : List ℕ) : Prop :=
  stream 200 (written ps) sizes = (texts ps, "stream closed by server")

/-- The `data` line of the snapshot, with its end, fits a buffer of the size. -/
def fitsLine (size : ℕ) (data : Bytes) : Bool := (utf8 "data: ").length + data.length < size

end RoundTrip

/-! ## The lines of an event -/

section Lines

variable {size : ℕ} {r : Reading} {rest : Bytes}

/-- What is read of a text after `r`. -/
def readFrom (size : ℕ) (r : Reading) (text : Bytes) : List Bytes × Stop :=
  (((split size text).1.foldl Reading.line r).applied, (split size text).2)

theorem readFrom_line {line : Bytes} (hlf : 0x0A ∉ line) (hcr : 0x0D ∉ line) (hsize : line.length < size) :
    readFrom size r (line ++ 0x0A :: rest) = readFrom size (r.line line) rest := by
  have hline : dropCR line = line := by
    rw [dropCR, if_neg]
    exact fun h => hcr (List.mem_of_getLast? h)
  rw [readFrom, split_of_cutLine (cutLine_append hlf), if_pos hsize, hline]
  rfl

theorem readFrom_long {line : Bytes} (hlf : 0x0A ∉ line) (hsize : ¬line.length < size) :
    readFrom size r (line ++ 0x0A :: rest) = (r.applied, .tooLong) := by
  rw [readFrom, split_of_cutLine (cutLine_append hlf), if_neg hsize]
  rfl

theorem line_event (r : Reading) :
    r.line (utf8 "event: snapshot") = { r with eventType := utf8 "snapshot" } := rfl

theorem line_data (r : Reading) (data : Bytes) (h : r.eventType = utf8 "snapshot") :
    r.line (utf8 "data: " ++ data) = ⟨[], r.applied ++ [data]⟩ := by
  have hevent : (utf8 "data: " ++ data).dropPrefix? (utf8 "event: ") = none := rfl
  have hdata : (utf8 "data: " ++ data).dropPrefix? (utf8 "data: ") = some data :=
    List.dropPrefix?_eq_some_iff.mpr ⟨_, rfl, beq_self_eq_true _⟩
  rw [Reading.line, if_neg (List.append_ne_nil_of_left_ne_nil (by decide) _), hevent, hdata]
  exact if_pos h

theorem line_comment (r : Reading) : r.line (utf8 ": keepalive") = r := rfl

theorem line_empty (h : r.eventType = []) : r.line [] = r := by
  obtain ⟨eventType, applied⟩ := r
  cases h
  rfl

theorem readFrom_snapshot {data : Bytes} (hsize : 15 < size)
    (hlf : 0x0A ∉ data) (hcr : 0x0D ∉ data) :
    readFrom size r (utf8 "event: snapshot\ndata: " ++ data ++ utf8 "\n\n" ++ rest) =
      if fitsLine size data = true then readFrom size ⟨[], r.applied ++ [data]⟩ rest
      else (r.applied, .tooLong) := by
  have hlines : utf8 "event: snapshot\ndata: " ++ data ++ utf8 "\n\n" ++ rest =
      utf8 "event: snapshot" ++ 0x0A :: ((utf8 "data: " ++ data) ++ 0x0A :: ([] ++ 0x0A :: rest)) := by
    have hevent : utf8 "event: snapshot\ndata: " = utf8 "event: snapshot" ++ 0x0A :: utf8 "data: " := by
      decide
    have hend : utf8 "\n\n" = [0x0A, 0x0A] := by decide
    simp [hevent, hend]
  have hdata : 0x0A ∉ utf8 "data: " ++ data ∧ 0x0D ∉ utf8 "data: " ++ data := by
    have hfield : 0x0A ∉ utf8 "data: " ∧ 0x0D ∉ utf8 "data: " := by decide
    simp [hfield, hlf, hcr]
  rw [hlines, readFrom_line (by decide) (by decide) (by exact hsize), line_event]
  have hfits : fitsLine size data = true ↔ (utf8 "data: " ++ data).length < size := by
    rw [fitsLine, decide_eq_true_iff, List.length_append]
  by_cases hline : (utf8 "data: " ++ data).length < size
  · rw [if_pos (hfits.mpr hline), readFrom_line hdata.1 hdata.2 hline, line_data _ _ rfl,
      readFrom_line List.not_mem_nil List.not_mem_nil (Nat.zero_lt_of_lt hsize), line_empty rfl]
  · rw [if_neg (mt hfits.mp hline), readFrom_long hdata.1 hline]

theorem readFrom_keepalive (hr : r.eventType = []) (hsize : 15 < size) :
    readFrom size r (utf8 ": keepalive\n\n" ++ rest) = readFrom size r rest := by
  have hlines : utf8 ": keepalive\n\n" ++ rest =
      utf8 ": keepalive" ++ 0x0A :: ([] ++ 0x0A :: rest) := by
    have hend : utf8 ": keepalive\n\n" = utf8 ": keepalive" ++ [0x0A, 0x0A] := by decide
    simp [hend]
  have hlength : (utf8 ": keepalive").length < size := Nat.lt_trans (by decide) hsize
  rw [hlines, readFrom_line (by decide) (by decide) hlength, line_comment,
    readFrom_line List.not_mem_nil List.not_mem_nil (Nat.zero_lt_of_lt hsize), line_empty hr]

end Lines

/-! ## The stream -/

section Stream

variable {S : Schema} {size : ℕ} {r : Reading} {ps : List (Push S)}

theorem marshal_notMem {vs : S.Entity .snapshot} {data : Bytes} (h : S.marshal vs = some data) :
    0x0A ∉ data ∧ 0x0D ∉ data :=
  (Json.tight_of_compact (S.compact_marshal h)).notMem_lineBreak

/-- The snapshots are applied one after the other, until one does not fit. -/
theorem readFrom_written (hsize : 15 < size) (hr : r.eventType = []) (ps : List (Push S)) :
    readFrom size r (written ps) =
      (r.applied ++ (texts ps).takeWhile (fitsLine size),
        if (texts ps).all (fitsLine size) = true then .ended else .tooLong) := by
  induction ps generalizing r with
  | nil =>
    have hsplit : split size [] = ([], .ended) := by
      rw [split_of_notMem List.not_mem_nil, if_neg, if_pos rfl]
      exact Nat.not_le.mpr (Nat.zero_lt_of_lt hsize)
    change readFrom size r [] = (r.applied ++ [], _)
    rw [readFrom, hsplit, List.append_nil]
    rfl
  | cons p ps ih =>
    cases p with
    | keepalive =>
      change readFrom size r (utf8 ": keepalive\n\n" ++ written ps) = _
      rw [readFrom_keepalive hr hsize]
      exact ih hr
    | snapshot vs =>
      cases hdata : json (.snapshot vs) with
      | none =>
        have htext : (Push.snapshot vs).text = none := congrArg (Option.map _) hdata
        rw [written, texts, List.filterMap_cons_none htext, List.filterMap_cons_none hdata]
        exact ih hr
      | some data =>
        have htext : (Push.snapshot vs).text =
            some (utf8 "event: snapshot\ndata: " ++ data ++ utf8 "\n\n") :=
          congrArg (Option.map _) hdata
        obtain ⟨hlf, hcr⟩ := marshal_notMem hdata
        rw [written, texts, List.filterMap_cons_some htext, List.flatten_cons,
          readFrom_snapshot hsize hlf hcr, List.filterMap_cons_some hdata, List.takeWhile_cons,
          List.all_cons]
        cases hfits : fitsLine size data with
        | true =>
          have hrest := ih (r := ⟨[], r.applied ++ [data]⟩) rfl
          rw [← List.append_cons] at hrest
          rw [if_pos rfl, if_pos rfl, Bool.true_and]
          exact hrest
        | false => rw [if_neg Bool.false_ne_true, if_neg Bool.false_ne_true, List.append_nil]; rfl

/-- The snapshots arrive exactly if each of them fits the buffer. -/
theorem roundTrip_iff (ps : List (Push S)) (sizes : List ℕ) :
    RoundTrip ps sizes ↔ ∀ data ∈ texts ps, (utf8 "data: ").length + data.length < bufferSize := by
  have hstream : stream 200 (written ps) sizes =
      ((texts ps).takeWhile (fitsLine bufferSize),
        stopText (if (texts ps).all (fitsLine bufferSize) = true then .ended else .tooLong)) := by
    have hread := readFrom_written (r := {}) (by decide : 15 < bufferSize) rfl ps
    rw [stream, if_neg (by decide), Scanner.scan_eq_split]
    exact congrArg (fun r => (r.1, stopText r.2)) hread
  have hall : (texts ps).all (fitsLine bufferSize) = true ↔
      ∀ data ∈ texts ps, (utf8 "data: ").length + data.length < bufferSize := by
    simp [fitsLine]
  rw [RoundTrip, hstream, ← hall]
  constructor
  · intro h
    by_contra hlong
    have hstop := congrArg Prod.snd h
    rw [if_neg hlong] at hstop
    exact absurd hstop (by decide : stopText .tooLong ≠ stopText .ended)
  · intro h
    rw [if_pos h, List.takeWhile_eq_self_iff.mpr (List.all_eq_true.mp h)]
    rfl

end Stream

/-! ## A snapshot that is too long -/

section Long

variable (n : ℕ)

def textOfName : Bytes :=
  Json.encodeObject [("id", Json.quote "a"), ("name", Json.quote (idOfLength n))]

/-- There is one entity of each kind. It has a short ID and a name of the length. -/
def nameSchema : Schema where
  Entity _ := Unit
  id _ := "a"
  marshal _ := some (textOfName n)
  unmarshal _ data := if data = textOfName n then some () else none
  secretName _ := ""
  snapshotName _ := idOfLength n
  createdAt _ := 0
  compact_marshal := by
    rintro _ _ _ ⟨⟩
    refine Json.compact_encodeObject ?_ ?_
    · simpa using ⟨Json.tight_quote _, Json.tight_quote _⟩
    · simpa using ⟨⟨by decide +kernel, Json.unescaped_quote (by decide +kernel)⟩,
        by decide +kernel,
        Json.unescaped_quote (ascii_idOfLength n)⟩
  id_unmarshal := by
    rintro _ _ _ ⟨⟩
    exact ⟨(), if_pos rfl, rfl⟩

theorem length_textOfName : n ≤ (textOfName n).length := by
  have hbody : (idOfLength n).toList.flatMap Json.quoteChar = List.replicate n 0x61 := by
    rw [idOfLength, String.toList_ofList, List.flatMap_replicate]
    exact List.flatten_replicate_singleton
  simp only [textOfName, Json.encodeObject, Json.encodeMembers, Json.encodeMember, Json.quote, hbody,
    List.length_cons, List.length_append, List.length_replicate]
  omega

/-- A snapshot with a name of four megabytes is not applied. -/
theorem not_roundTrip_nameSchema :
    ¬RoundTrip [(.snapshot () : Push (nameSchema bufferSize))] [] := by
  intro h
  have hfits := (roundTrip_iff _ _).mp h (textOfName bufferSize) (List.mem_singleton_self _)
  have hlength := length_textOfName bufferSize
  omega

end Long

end Vrata.Sync

import Mathlib.Data.List.Basic
import Vrata.Proxy.Pipeline

/-!
# Templates

Reference: `Interpolate` of `server/internal/proxy/middlewares/interpolate.go`, and `interpolateFields` of
`accesslog.go`.

A template is filled in placeholder by placeholder: each is replaced all over the text before the next one is
looked for. So a value that contains the text of a later placeholder is filled in itself, although it comes
from the request. Only the loop over the headers skips what it has put in.

A template is taken apart once into pieces, characters and placeholders; to substitute for all of them at the
same time is to read the pieces with their values. After some of the steps the text consists of the same
pieces, with the values of these in their places, as long as every placeholder occurs only where it stands in
the template when its turn comes. This is `Steady`, and `interpolate_eq` is what follows for whole templates.
-/

namespace Vrata.Proxy

open Server

/-! ## The code -/

/-- What a template is filled in with: a text for each placeholder, and the headers. -/
structure Values where
  slot : String → String
  header : String → String

inductive Fill where
  | replace (mark : String)
  | headers
deriving DecidableEq, Repr

def headerMarker : List Char := "$\x7brequest.header.".toList

def Fill.runText (v : Values) : Fill → List Char → List Char
  | .replace mark, text => replaceFrom mark.toList (v.slot mark).toList 0 text
  | .headers, text => fillHeaders v.header text.length text

def runText (v : Values) (steps : List Fill) (text : List Char) : List Char :=
  steps.foldl (fun text step => step.runText v text) text

/-- The values of `Interpolate`. -/
def requestValues (secure : Bool) (r : Inbound) : Values where
  slot mark :=
    if mark = "$\x7brequest.host\x7d" then Text.before ':' r.host
    else if mark = "$\x7brequest.path\x7d" then r.path
    else if mark = "$\x7brequest.method\x7d" then r.method
    else if mark = "$\x7brequest.authority\x7d" then r.host
    else if secure then "https" else "http"
  header := r.get

def requestSteps : List Fill :=
  [.replace "$\x7brequest.host\x7d", .replace "$\x7brequest.path\x7d", .replace "$\x7brequest.method\x7d",
    .replace "$\x7brequest.authority\x7d", .replace "$\x7brequest.scheme\x7d", .headers]

theorem interpolate_eq_runText (template : String) (secure : Bool) (r : Inbound) :
    interpolate template secure r =
      String.ofList (runText (requestValues secure r) requestSteps template.toList) := by
  simp [interpolate, replaceAll, runText, requestSteps, Fill.runText, requestValues]

/-- What an entry of the log is about, apart from the request. Seconds are given as they are written. -/
structure LogContext where
  requestID : String
  originalPath : String
  statusCode : ℤ
  bytesWritten : ℤ
  milliseconds : ℤ
  microseconds : ℤ
  seconds : String

/-- `clientIPFromRequest`. -/
def Inbound.loggedIP (r : Inbound) : String :=
  let xff := r.get "X-Forwarded-For"
  if xff ≠ "" then Text.trimSpace (Text.before ',' xff)
  else ((Net.splitHostPort r.remoteAddr).map Prod.fst).getD ""

/-- The values of `interpolateFields`. -/
def logValues (ctx : LogContext) (secure : Bool) (r : Inbound) : Values where
  slot mark :=
    if mark = "$\x7bid\x7d" then ctx.requestID
    else if mark = "$\x7brequest.method\x7d" then r.method
    else if mark = "$\x7brequest.path\x7d" then ctx.originalPath
    else if mark = "$\x7brequest.host\x7d" then Text.before ':' r.host
    else if mark = "$\x7brequest.authority\x7d" then r.host
    else if mark = "$\x7brequest.clientIp\x7d" then r.loggedIP
    else if mark = "$\x7brequest.scheme\x7d" then (if secure then "https" else "http")
    else if mark = "$\x7bresponse.status\x7d" then toString ctx.statusCode
    else if mark = "$\x7bresponse.bytes\x7d" then toString ctx.bytesWritten
    else if mark = "$\x7bduration.ms\x7d" then toString ctx.milliseconds
    else if mark = "$\x7bduration.us\x7d" then toString ctx.microseconds
    else ctx.seconds
  header := r.get

def logSteps : List Fill :=
  [.replace "$\x7bid\x7d", .replace "$\x7brequest.method\x7d", .replace "$\x7brequest.path\x7d",
    .replace "$\x7brequest.host\x7d", .replace "$\x7brequest.authority\x7d",
    .replace "$\x7brequest.clientIp\x7d", .replace "$\x7brequest.scheme\x7d", .headers,
    .replace "$\x7bresponse.status\x7d", .replace "$\x7bresponse.bytes\x7d",
    .replace "$\x7bduration.ms\x7d", .replace "$\x7bduration.us\x7d", .replace "$\x7bduration.s\x7d"]

def interpolateFields (fields : AccessLogFields) (ctx : LogContext) (secure : Bool) (r : Inbound) :
    AccessLogFields :=
  fields.map fun field =>
    (field.1, String.ofList (runText (logValues ctx secure r) logSteps field.2.toList))

/-! ## Pieces -/

inductive Piece where
  | char (c : Char)
  | slot (mark : String)
  | header (name : List Char)
deriving DecidableEq, Repr

/-- How a piece is written in the template. -/
def Piece.source : Piece → List Char
  | .char c => [c]
  | .slot mark => mark.toList
  | .header name => headerMarker ++ (name ++ ['\x7d'])

/-- A piece with its value. -/
def Piece.filled (v : Values) : Piece → List Char
  | .char c => [c]
  | .slot mark => (v.slot mark).toList
  | .header name => (v.header (String.ofList name)).toList

def sourceOf (ps : List Piece) : List Char := ps.flatMap Piece.source

def filledOf (v : Values) (ps : List Piece) : List Char := ps.flatMap (Piece.filled v)

/-- The placeholders of a template, from left to right. -/
def pieces (marks : List String) : (fuel : ℕ) → List Char → List Piece
  | 0, text => text.map .char
  | _ + 1, [] => []
  | fuel + 1, c :: text =>
    match marks.find? fun mark => mark.toList.isPrefixOf (c :: text) with
    | some mark => .slot mark :: pieces marks fuel ((c :: text).drop mark.toList.length)
    | none =>
      let rest := (c :: text).drop headerMarker.length
      if headerMarker.isPrefixOf (c :: text) ∧ '\x7d' ∈ rest then
        let name := rest.takeWhile (· ≠ '\x7d')
        .header name :: pieces marks fuel (rest.drop (name.length + 1))
      else .char c :: pieces marks fuel text

def Fill.mark? : Fill → Option String
  | .replace mark => some mark
  | .headers => none

/-- The pieces of a template that is filled in by these steps. -/
def piecesFor (steps : List Fill) (template : List Char) : List Piece :=
  pieces (steps.filterMap Fill.mark?) template.length template

/-- All placeholders are substituted at the same time. -/
def simultaneous (v : Values) (steps : List Fill) (template : List Char) : List Char :=
  filledOf v (piecesFor steps template)

/-- Is a step about this piece? -/
def Fill.settles : Fill → Piece → Bool
  | .replace mark, .slot m => m = mark
  | .headers, .header _ => true
  | _, _ => false

/-- A step puts the value of its pieces in their places. -/
def Fill.runPieces (v : Values) (step : Fill) (ps : List Piece) : List Piece :=
  ps.flatMap fun p => if step.settles p then (p.filled v).map .char else [p]

/-- Does a text begin with what a step looks for? A header that is not closed ends the loop over the
headers. -/
def Fill.begins : Fill → List Char → Bool
  | .replace mark, text => mark.toList.isPrefixOf text
  | .headers, text => headerMarker.isPrefixOf text && '\x7d' ∈ text.drop headerMarker.length

/-- Nothing that a step looks for begins within the first text, which another one follows. -/
def Fill.absent (step : Fill) : List Char → List Char → Bool
  | [], _ => true
  | c :: text, rest => !step.begins (c :: (text ++ rest)) && step.absent text rest

/-- What a step looks for occurs only in the pieces that it is about. -/
def Fill.steady (step : Fill) : List Piece → Bool
  | [] => true
  | p :: ps => (step.settles p || step.absent p.source (sourceOf ps)) && step.steady ps

/-- When its turn comes, every placeholder occurs only where it stands in the template. -/
def Steady (v : Values) : List Fill → List Piece → Bool
  | [], _ => true
  | step :: steps, ps => step.steady ps && Steady v steps (step.runPieces v ps)

/-! ## One step -/

theorem sourceOf_cons (p : Piece) (ps : List Piece) : sourceOf (p :: ps) = p.source ++ sourceOf ps := rfl

theorem sourceOf_append (ps qs : List Piece) : sourceOf (ps ++ qs) = sourceOf ps ++ sourceOf qs :=
  List.flatMap_append

theorem sourceOf_map_char (text : List Char) : sourceOf (text.map .char) = text := by
  induction text with
  | nil => rfl
  | cons c text ih => rw [List.map_cons, sourceOf_cons, ih]; rfl

theorem replaceFrom_skip (old new text rest : List Char) :
    replaceFrom old new text.length (text ++ rest) = replaceFrom old new 0 rest := by
  induction text with
  | nil => rfl
  | cons c text ih => exact ih

theorem replaceFrom_prefix {old : List Char} (h : old ≠ []) (new rest : List Char) :
    replaceFrom old new 0 (old ++ rest) = new ++ replaceFrom old new 0 rest := by
  obtain ⟨c, old, rfl⟩ := List.exists_cons_of_ne_nil h
  have hstart : (c :: old).isPrefixOf (c :: (old ++ rest)) = true :=
    List.isPrefixOf_iff_prefix.mpr (List.prefix_append (c :: old) rest)
  rw [List.cons_append, replaceFrom, if_pos hstart]
  exact congrArg _ (replaceFrom_skip (c :: old) new old rest)

theorem replaceFrom_absent {mark : String} {new text rest : List Char}
    (h : (Fill.replace mark).absent text rest = true) :
    replaceFrom mark.toList new 0 (text ++ rest) = text ++ replaceFrom mark.toList new 0 rest := by
  induction text with
  | nil => rfl
  | cons c text ih =>
    obtain ⟨hnot, hrest⟩ := Bool.and_eq_true_iff.mp h
    have hnot' : mark.toList.isPrefixOf (c :: (text ++ rest)) = false := by simpa [Fill.begins] using hnot
    rw [List.cons_append, replaceFrom, hnot']
    exact congrArg (c :: ·) (ih hrest)

theorem fillHeaders_cons (get : String → String) (fuel : ℕ) (c : Char) (text : List Char) :
    fillHeaders get (fuel + 1) (c :: text) =
      if headerMarker.isPrefixOf (c :: text) then
        if '\x7d' ∈ (c :: text).drop headerMarker.length then
          (get (String.ofList (((c :: text).drop headerMarker.length).takeWhile (· ≠ '\x7d')))).toList ++
            fillHeaders get fuel (((c :: text).drop headerMarker.length).drop
              ((((c :: text).drop headerMarker.length).takeWhile (· ≠ '\x7d')).length + 1))
        else c :: text
      else c :: fillHeaders get fuel text :=
  rfl

/-- Without a brace nothing is a header. -/
theorem fillHeaders_of_not_mem {get : String → String} {text : List Char} (h : '\x7d' ∉ text) (fuel : ℕ) :
    fillHeaders get fuel text = text := by
  induction fuel generalizing text with
  | zero => rfl
  | succ fuel ih =>
    cases text with
    | nil => rfl
    | cons c text =>
      have hdrop : '\x7d' ∉ (c :: text).drop headerMarker.length := fun hmem => h (List.mem_of_mem_drop hmem)
      rw [fillHeaders_cons, if_neg hdrop, ih fun hmem => h (List.mem_cons_of_mem c hmem), ite_self]

theorem fillHeaders_absent {get : String → String} {fuel : ℕ} {text rest : List Char}
    (h : Fill.headers.absent text rest = true) :
    fillHeaders get (text.length + fuel) (text ++ rest) = text ++ fillHeaders get fuel rest := by
  induction text with
  | nil => rw [List.length_nil, Nat.zero_add, List.nil_append, List.nil_append]
  | cons c text ih =>
    obtain ⟨hnot, hrest⟩ := Bool.and_eq_true_iff.mp h
    rw [List.length_cons, Nat.add_right_comm, List.cons_append, fillHeaders_cons]
    split
    · next hstart =>
      have hbrace : '\x7d' ∉ (c :: (text ++ rest)).drop headerMarker.length := by
        simpa [Fill.begins, hstart] using hnot
      -- the marker has no brace either, so there is none behind it
      have hnone : '\x7d' ∉ rest := by
        intro hmem
        obtain ⟨tail, htail⟩ := List.isPrefixOf_iff_prefix.mp hstart
        rw [← htail, List.drop_left] at hbrace
        have hmem' : '\x7d' ∈ headerMarker ++ tail :=
          htail ▸ List.mem_cons_of_mem c (List.mem_append_right text hmem)
        exact (List.mem_append.mp hmem').elim (by decide) hbrace
      rw [if_neg hbrace, fillHeaders_of_not_mem hnone, List.cons_append]
    · exact congrArg (c :: ·) (ih hrest)

/-- The name of a header ends at the first brace. -/
theorem fillHeaders_header {get : String → String} {name rest : List Char} (h : '\x7d' ∉ name) (fuel : ℕ) :
    fillHeaders get (fuel + 1) (headerMarker ++ (name ++ ['\x7d']) ++ rest) =
      (get (String.ofList name)).toList ++ fillHeaders get fuel rest := by
  have hname : (name ++ '\x7d' :: rest).takeWhile (· ≠ '\x7d') = name := by
    rw [List.takeWhile_append_of_pos fun c hc => decide_eq_true (ne_of_mem_of_not_mem hc h)]
    simp
  have htext : headerMarker ++ (name ++ ['\x7d']) ++ rest = headerMarker ++ (name ++ '\x7d' :: rest) := by
    simp
  have hstart : headerMarker.isPrefixOf (headerMarker ++ (name ++ '\x7d' :: rest)) = true :=
    List.isPrefixOf_iff_prefix.mpr (List.prefix_append _ _)
  obtain ⟨c, text, heq⟩ : ∃ c text, headerMarker ++ (name ++ '\x7d' :: rest) = c :: text := ⟨_, _, rfl⟩
  rw [htext, heq, fillHeaders_cons, ← heq, if_pos hstart, List.drop_left, hname, if_pos (by simp)]
  simp

/-- Slots are not empty, and the names of headers have no brace. -/
def Piece.Regular : Piece → Prop
  | .char _ => True
  | .slot mark => mark ≠ ""
  | .header name => '\x7d' ∉ name

theorem fillHeaders_eq {v : Values} {ps : List Piece} (hregular : ∀ p ∈ ps, p.Regular)
    (h : Fill.headers.steady ps = true) {fuel : ℕ} (hfuel : (sourceOf ps).length ≤ fuel) :
    fillHeaders v.header fuel (sourceOf ps) = sourceOf (Fill.headers.runPieces v ps) := by
  induction ps generalizing fuel with
  | nil => cases fuel <;> rfl
  | cons p ps ih =>
    obtain ⟨hhead, htail⟩ := Bool.and_eq_true_iff.mp h
    obtain ⟨hp, hps⟩ := List.forall_mem_cons.mp hregular
    rw [sourceOf_cons, List.length_append] at hfuel
    rw [sourceOf_cons, Fill.runPieces, List.flatMap_cons, sourceOf_append]
    by_cases hsettles : Fill.headers.settles p = true
    · -- a header takes one round of the loop
      cases p with
      | char c => cases hsettles
      | slot mark => cases hsettles
      | header name =>
        have hpos : 0 < (Piece.header name).source.length :=
          List.length_pos_of_ne_nil (by simp [Piece.source])
        obtain ⟨fuel, rfl⟩ : ∃ f, fuel = f + 1 := ⟨fuel - 1, by omega⟩
        rw [if_pos hsettles, sourceOf_map_char, Piece.source, fillHeaders_header hp,
          ih hps htail (by omega)]
        rfl
    · have habsent := (Bool.or_eq_true_iff.mp hhead).resolve_left hsettles
      obtain ⟨fuel, rfl⟩ : ∃ f, fuel = p.source.length + f := ⟨fuel - p.source.length, by omega⟩
      rw [if_neg hsettles, fillHeaders_absent habsent, ih hps htail (by omega)]
      simp [sourceOf, Fill.runPieces]

theorem replaceFrom_eq {v : Values} {mark : String} {ps : List Piece} (hregular : ∀ p ∈ ps, p.Regular)
    (h : (Fill.replace mark).steady ps = true) :
    replaceFrom mark.toList (v.slot mark).toList 0 (sourceOf ps) =
      sourceOf ((Fill.replace mark).runPieces v ps) := by
  induction ps with
  | nil => rfl
  | cons p ps ih =>
    obtain ⟨hhead, htail⟩ := Bool.and_eq_true_iff.mp h
    obtain ⟨hp, hps⟩ := List.forall_mem_cons.mp hregular
    rw [sourceOf_cons, Fill.runPieces, List.flatMap_cons, sourceOf_append]
    by_cases hsettles : (Fill.replace mark).settles p = true
    · cases p with
      | char c => cases hsettles
      | header name => cases hsettles
      | slot m =>
        obtain rfl : m = mark := of_decide_eq_true hsettles
        have hne : m.toList ≠ [] := by simpa [Piece.Regular] using hp
        rw [if_pos hsettles, sourceOf_map_char, Piece.source, replaceFrom_prefix hne, ih hps htail]
        rfl
    · have habsent : (Fill.replace mark).absent p.source (sourceOf ps) = true :=
        (Bool.or_eq_true_iff.mp hhead).resolve_left hsettles
      rw [if_neg hsettles, replaceFrom_absent habsent, ih hps htail]
      simp [sourceOf, Fill.runPieces]

/-- A step that finds its target only in its own pieces puts their values in the text. -/
theorem runText_step {v : Values} {step : Fill} {ps : List Piece} (hregular : ∀ p ∈ ps, p.Regular)
    (h : step.steady ps = true) : step.runText v (sourceOf ps) = sourceOf (step.runPieces v ps) := by
  cases step with
  | replace mark => exact replaceFrom_eq hregular h
  | headers => exact fillHeaders_eq hregular h (le_refl _)

/-! ## All steps -/

variable {v : Values} {steps : List Fill} {ps : List Piece}

/-- What is left after a step is text, or a piece that the step does not settle. -/
theorem mem_runPieces {step : Fill} {p : Piece} (h : p ∈ step.runPieces v ps) :
    (∃ c, p = .char c) ∨ p ∈ ps ∧ step.settles p = false := by
  obtain ⟨q, hq, hp⟩ := List.mem_flatMap.mp h
  split at hp
  · obtain ⟨c, -, rfl⟩ := List.mem_map.mp hp
    exact .inl ⟨c, rfl⟩
  · rename_i hsettles
    obtain rfl := List.mem_singleton.mp hp
    exact .inr ⟨hq, Bool.eq_false_iff.mpr hsettles⟩

/-- Steps keep pieces regular. -/
theorem regular_runPieces {step : Fill} (h : ∀ p ∈ ps, p.Regular) : ∀ p ∈ step.runPieces v ps, p.Regular := by
  intro p hp
  rcases mem_runPieces hp with ⟨c, rfl⟩ | ⟨hmem, -⟩
  · trivial
  · exact h p hmem

theorem filledOf_map_char (text : List Char) : filledOf v (text.map .char) = text := by
  rw [filledOf, List.flatMap_map]
  exact List.flatMap_singleton' text

/-- Values that are in their places already are not filled in again. -/
theorem filledOf_runPieces (step : Fill) : filledOf v (step.runPieces v ps) = filledOf v ps := by
  induction ps with
  | nil => rfl
  | cons p ps ih =>
    have hcons : step.runPieces v (p :: ps) =
        (if step.settles p then (p.filled v).map .char else [p]) ++ step.runPieces v ps := rfl
    have happend : ∀ qs rs, filledOf v (qs ++ rs) = filledOf v qs ++ filledOf v rs := fun _ _ =>
      List.flatMap_append
    rw [hcons, happend, ih]
    refine congrArg (· ++ filledOf v ps) ?_
    split
    · exact filledOf_map_char _
    · exact List.append_nil _

/-- Steps that settle all pieces leave the text in which all values are filled in. -/
theorem runText_eq (hregular : ∀ p ∈ ps, p.Regular) (h : Steady v steps ps = true)
    (hall : ∀ p ∈ ps, (∃ c, p = .char c) ∨ ∃ step ∈ steps, step.settles p = true) :
    runText v steps (sourceOf ps) = filledOf v ps := by
  induction steps generalizing ps with
  | nil =>
    refine List.flatMap_congr fun p hp => ?_
    obtain ⟨c, rfl⟩ := (hall p hp).resolve_right fun hstep => by simp at hstep
    rfl
  | cons step steps ih =>
    obtain ⟨hstep, hsteps⟩ := Bool.and_eq_true_iff.mp h
    rw [runText, List.foldl_cons, runText_step hregular hstep]
    refine (ih (regular_runPieces hregular) hsteps fun p hp => ?_).trans (filledOf_runPieces step)
    rcases mem_runPieces hp with hchar | ⟨hmem, hnot⟩
    · exact .inl hchar
    · rcases hall p hmem with hchar | ⟨s, hs, hsettles⟩
      · exact .inl hchar
      -- the piece is still there, so it was not this step that settles it
      refine .inr ⟨s, (List.mem_cons.mp hs).resolve_left fun heq => ?_, hsettles⟩
      rw [heq, hnot] at hsettles
      cases hsettles

/-! ## Taking a template apart -/

/-- A text around its first brace. -/
theorem takeWhile_append_brace {text : List Char} (h : '\x7d' ∈ text) :
    text.takeWhile (· ≠ '\x7d') ++ '\x7d' :: text.drop ((text.takeWhile (· ≠ '\x7d')).length + 1) = text := by
  induction text with
  | nil => cases h
  | cons c text ih =>
    by_cases hc : c = '\x7d'
    · simp [hc]
    · have hmem : '\x7d' ∈ text := (List.mem_cons.mp h).resolve_left (Ne.symm hc)
      simpa [hc] using ih hmem

/-- No character of the template is lost. -/
theorem sourceOf_pieces (marks : List String) (fuel : ℕ) (text : List Char) :
    sourceOf (pieces marks fuel text) = text := by
  induction fuel generalizing text with
  | zero => exact sourceOf_map_char text
  | succ fuel ih =>
    cases text with
    | nil => rfl
    | cons c text =>
      rw [pieces]
      split
      · rename_i mark hmark
        have hfound := List.find?_some hmark
        have hstart : mark.toList <+: c :: text := List.isPrefixOf_iff_prefix.mp hfound
        rw [sourceOf_cons, ih]
        exact List.prefix_iff_eq_append.mp hstart
      · simp only []
        split
        · rename_i hheader
          obtain ⟨hstart, hbrace⟩ := hheader
          rw [sourceOf_cons, ih, Piece.source, List.append_assoc, List.append_assoc, List.singleton_append,
            takeWhile_append_brace hbrace]
          exact List.prefix_iff_eq_append.mp (List.isPrefixOf_iff_prefix.mp hstart)
        · rw [sourceOf_cons, ih]
          rfl

/-- The slots of a template are among the marks, and every piece is regular. -/
theorem mem_pieces {marks : List String} (hmarks : "" ∉ marks) {fuel : ℕ} {text : List Char} {p : Piece}
    (h : p ∈ pieces marks fuel text) : p.Regular ∧ ∀ mark, p = .slot mark → mark ∈ marks := by
  induction fuel generalizing text with
  | zero =>
    obtain ⟨c, -, rfl⟩ := List.mem_map.mp h
    exact ⟨trivial, fun _ heq => by cases heq⟩
  | succ fuel ih =>
    cases text with
    | nil => cases h
    | cons c text =>
      rw [pieces] at h
      split at h
      · rename_i mark hmark
        rcases List.mem_cons.mp h with rfl | h
        · have hmem := List.mem_of_find?_eq_some hmark
          refine ⟨fun hempty => hmarks (hempty ▸ hmem), fun m heq => ?_⟩
          cases heq
          exact hmem
        · exact ih h
      · simp only [] at h
        split at h
        · rcases List.mem_cons.mp h with rfl | h
          · refine ⟨fun hbrace => ?_, fun _ heq => by cases heq⟩
            have hne := List.mem_takeWhile_imp hbrace
            simp at hne
          · exact ih h
        · rcases List.mem_cons.mp h with rfl | h
          · exact ⟨trivial, fun _ heq => by cases heq⟩
          · exact ih h

/-- A template is filled in as if all placeholders were substituted at the same time, if each occurs only
where it stands in the template when its turn comes. -/
theorem runText_eq_simultaneous (hheaders : .headers ∈ steps) (hmarks : "" ∉ steps.filterMap Fill.mark?)
    {template : List Char} (h : Steady v steps (piecesFor steps template) = true) :
    runText v steps template = simultaneous v steps template := by
  have hmem : ∀ p ∈ piecesFor steps template,
      p.Regular ∧ ∀ mark, p = .slot mark → mark ∈ steps.filterMap Fill.mark? :=
    fun p hp => mem_pieces hmarks hp
  have hrun := runText_eq (fun p hp => (hmem p hp).1) h fun p hp => ?_
  · rwa [piecesFor, sourceOf_pieces] at hrun
  cases p with
  | char c => exact .inl ⟨c, rfl⟩
  | header name => exact .inr ⟨.headers, hheaders, rfl⟩
  | slot mark =>
    obtain ⟨step, hstep, hmark⟩ := List.mem_filterMap.mp ((hmem _ hp).2 mark rfl)
    cases step with
    | headers => cases hmark
    | replace m =>
      obtain rfl := Option.some.inj hmark
      exact .inr ⟨_, hstep, decide_eq_true rfl⟩

/-- The loop over the headers ends by itself: more rounds than the text has characters change nothing. -/
theorem fillHeaders_congr (get : String → String) {text : List Char} {fuel fuel' : ℕ}
    (h : text.length ≤ fuel) (h' : text.length ≤ fuel') :
    fillHeaders get fuel text = fillHeaders get fuel' text := by
  induction fuel generalizing text fuel' with
  | zero =>
    obtain rfl := List.eq_nil_of_length_eq_zero (Nat.le_zero.mp h)
    cases fuel' <;> rfl
  | succ fuel ih =>
    cases text with
    | nil => cases fuel' <;> rfl
    | cons c text =>
      rw [List.length_cons] at h h'
      obtain ⟨fuel', rfl⟩ : ∃ f, fuel' = f + 1 := ⟨fuel' - 1, by omega⟩
      rw [fillHeaders_cons, fillHeaders_cons]
      split
      · split
        · refine congrArg _ (ih ?_ ?_) <;> simp only [List.length_drop, List.length_cons] <;> omega
        · rfl
      · exact congrArg (c :: ·) (ih (by omega) (by omega))

/-- What every step looks for begins in the same way. -/
theorem isPrefix_of_begins {step : Fill} (hstep : step ∈ requestSteps) {text : List Char}
    (h : step.begins text = true) : "$\x7b".toList <+: text := by
  cases step with
  | headers =>
    have hmarker : "$\x7b".toList <+: headerMarker := by decide
    exact hmarker.trans (List.isPrefixOf_iff_prefix.mp (Bool.and_eq_true_iff.mp h).1)
  | replace mark =>
    have hmark : ∀ step ∈ requestSteps, ∀ m, step.mark? = some m → "$\x7b".toList <+: m.toList := by
      simp only [requestSteps, List.forall_mem_cons, Fill.mark?, Option.some.injEq, forall_eq']
      decide
    exact (hmark _ hstep mark rfl).trans (List.isPrefixOf_iff_prefix.mp h)

theorem absent_of_not_infix {step : Fill} (hstep : step ∈ requestSteps) {text : List Char}
    (h : ¬"$\x7b".toList <:+: text) : step.absent text [] = true := by
  induction text with
  | nil => rfl
  | cons c text ih =>
    rw [Fill.absent, List.append_nil, ih fun hin => h (hin.trans (List.suffix_cons c text).isInfix),
      Bool.and_true]
    cases hbegins : step.begins (c :: text) with
    | false => rfl
    | true => exact absurd (isPrefix_of_begins hstep hbegins).isInfix h

/-- A template without the beginning of a placeholder is returned at once, which makes no difference. -/
theorem interpolate_of_plain {template : String} (h : ¬"$\x7b".toList <:+: template.toList) (secure : Bool)
    (r : Inbound) : interpolate template secure r = template := by
  have hstep : ∀ step ∈ requestSteps,
      step.runText (requestValues secure r) template.toList = template.toList := by
    intro step hmem
    have habsent := absent_of_not_infix hmem h
    cases step with
    | replace mark =>
      have hrun : replaceFrom mark.toList ((requestValues secure r).slot mark).toList 0
          (template.toList ++ []) = template.toList ++ [] := replaceFrom_absent habsent
      rwa [List.append_nil] at hrun
    | headers =>
      have hrun : fillHeaders r.get (template.toList.length + 0) (template.toList ++ []) =
          template.toList ++ [] := fillHeaders_absent habsent
      rwa [List.append_nil, Nat.add_zero] at hrun
  have hrun : ∀ steps : List Fill, (∀ step ∈ steps, step ∈ requestSteps) →
      runText (requestValues secure r) steps template.toList = template.toList := by
    intro steps
    induction steps with
    | nil => exact fun _ => rfl
    | cons step steps ih =>
      intro hsteps
      obtain ⟨hhead, htail⟩ := List.forall_mem_cons.mp hsteps
      rw [runText, List.foldl_cons, hstep step hhead]
      exact ih htail
  rw [interpolate_eq_runText, hrun requestSteps fun _ hmem => hmem, String.ofList_toList]

/-- Both functions substitute for all placeholders at the same time, if each of these occurs only where it
stands in the template when its turn comes; and their loops end. -/
theorem interpolate_eq (secure : Bool) (r : Inbound) :
    (∀ template : String,
      Steady (requestValues secure r) requestSteps (piecesFor requestSteps template.toList) = true →
      interpolate template secure r =
        String.ofList (simultaneous (requestValues secure r) requestSteps template.toList)) ∧
    (∀ (fields : AccessLogFields) (ctx : LogContext),
      (∀ field ∈ fields,
        Steady (logValues ctx secure r) logSteps (piecesFor logSteps field.2.toList) = true) →
      interpolateFields fields ctx secure r = fields.map fun field =>
        (field.1, String.ofList (simultaneous (logValues ctx secure r) logSteps field.2.toList))) ∧
    ∀ (text : List Char) (fuel : ℕ), text.length ≤ fuel →
      fillHeaders r.get fuel text = fillHeaders r.get text.length text := by
  refine ⟨fun template h => ?_, fun fields ctx h => ?_, fun text fuel h => ?_⟩
  · rw [interpolate_eq_runText, runText_eq_simultaneous (by decide) (by decide +kernel) h]
  · refine List.map_congr_left fun field hfield => ?_
    rw [runText_eq_simultaneous (by decide) (by decide +kernel) (h field hfield)]
  · exact fillHeaders_congr r.get h (le_refl _)

theorem hasPrefix_markedPath : Text.hasPrefix "/$\x7brequest.method\x7d" "/" = true := by decide

/-- The path of the request is written like a placeholder. -/
def markedRequest : Inbound := plainRequest "/$\x7brequest.method\x7d" hasPrefix_markedPath

theorem interpolate_method :
    interpolate "$\x7brequest.method\x7d $\x7brequest.header.X-User\x7d" false markedRequest =
      String.ofList (simultaneous (requestValues false markedRequest) requestSteps
        "$\x7brequest.method\x7d $\x7brequest.header.X-User\x7d".toList) :=
  (interpolate_eq false markedRequest).1 _ (by decide +kernel)

/-- The method is filled in for what the client has sent as its path. -/
theorem interpolate_twice :
    interpolate "$\x7brequest.path\x7d" false markedRequest = "/GET" ∧
    simultaneous (requestValues false markedRequest) requestSteps "$\x7brequest.path\x7d".toList =
      "/$\x7brequest.method\x7d".toList := by
  decide +kernel

end Vrata.Proxy

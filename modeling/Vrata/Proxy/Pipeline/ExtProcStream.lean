import Vrata.Proxy.Pipeline.ExtProcDialog

/-!
# The end of a streamed body

Reference: `send` and `sendBodyChunks` of `server/internal/proxy/middlewares/extproc.go`.

A body is streamed in chunks, and the last chunk is marked as the end of the stream. Only an empty body has
none, and it gets a message of its own behind the loop. The code takes the body for empty if there has been no
answer. In observe mode there never is one, so that the stream is ended once more behind the last chunk.
`streamed_iff` is about the messages of both modes.
-/

namespace Vrata.Proxy.ExtProc

open NetHttp

/-- The message about a chunk of a response or of a request. -/
def bodyMessage (response : Bool) : List UInt8 → Bool → Message :=
  if response then .responseBody else .requestBody

/-- The messages have the body in chunks that are not too long, and the last one, and no other, ends the
stream. -/
def Streamed (response : Bool) (body : List UInt8) (msgs : List Message) : Prop :=
  ∃ (front : List (List UInt8)) (last : List UInt8),
    msgs = front.map (bodyMessage response · false) ++ [bodyMessage response last true] ∧
    (front ++ [last]).flatten = body ∧ ∀ chunk ∈ front ++ [last], chunk.length ≤ streamChunkSize

/-- A processor that always answers. -/
def answering (answers : List Exchange → Message → Answer) : Dialog := fun said msg => some (answers said msg)

section Stream

variable (cfg : Settings) (answers : List Exchange → Message → Answer) (response : Bool)

/-- `sendBodyChunks` with a processor that always answers, and so many rounds of its loop. -/
def stream (rounds : ℕ) (body : List UInt8) (said : List Exchange) :
    Option (Option Answer) × List Exchange :=
  chunkLoop cfg (answering answers) (bodyMessage response) rounds body none said

/-- The messages of a body. -/
def sent (body : List UInt8) (said : List Exchange) : List Message :=
  ((stream cfg answers response body.length body said).2.drop said.length).map Prod.fst

/-! ## The pieces of a body -/

theorem flatten_pieces {rounds : ℕ} {body : List UInt8} (h : body.length ≤ rounds) :
    (pieces rounds body).flatten = body := by
  induction rounds generalizing body with
  | zero =>
    obtain rfl := List.length_eq_zero_iff.mp (Nat.le_zero.mp h)
    rfl
  | succ rounds ih =>
    cases body with
    | nil => rfl
    | cons b body =>
      have hrest := (length_drop_chunk b body).trans (Nat.le_of_succ_le_succ h)
      rw [pieces, List.flatten_cons, ih hrest, List.take_append_drop]

theorem length_of_mem_pieces {rounds : ℕ} {body chunk : List UInt8} (h : chunk ∈ pieces rounds body) :
    chunk.length ≤ streamChunkSize := by
  induction rounds generalizing body with
  | zero => cases h
  | succ rounds ih =>
    cases body with
    | nil => cases h
    | cons b body =>
      rcases List.mem_cons.mp h with rfl | h
      · exact List.length_take_le _ _
      · exact ih h

theorem marked_concat (build : List UInt8 → Bool → Message) (front : List (List UInt8))
    (last : List UInt8) :
    marked build (front ++ [last]) = front.map (build · false) ++ [build last true] := by
  induction front with
  | nil => rfl
  | cons chunk front ih =>
    have hmore : (front ++ [last]).isEmpty = false := by simp
    rw [List.cons_append, marked, ih, hmore]
    rfl

/-- The pieces of a body are messages as they should be. -/
theorem streamed_marked {body : List UInt8} (hbody : body ≠ []) :
    Streamed response body (marked (bodyMessage response) (pieces body.length body)) := by
  have hsplit := List.dropLast_append_getLast (pieces_ne_nil le_rfl hbody)
  refine ⟨(pieces body.length body).dropLast, (pieces body.length body).getLast
    (pieces_ne_nil le_rfl hbody), ?_, ?_, ?_⟩
  · rw [← marked_concat, hsplit]
  · rw [hsplit, flatten_pieces le_rfl]
  · rw [hsplit]
    exact fun chunk => length_of_mem_pieces

/-! ## The loop -/

/-- The loop ends by itself: more rounds than the body has bytes change nothing. -/
theorem chunkLoop_congr (dialog : Dialog) (build : List UInt8 → Bool → Message) {rounds rounds' : ℕ}
    {body : List UInt8} (last : Option Answer) (said : List Exchange) (h : body.length ≤ rounds)
    (h' : body.length ≤ rounds') :
    chunkLoop cfg dialog build rounds body last said = chunkLoop cfg dialog build rounds' body last said := by
  induction rounds generalizing rounds' body last said with
  | zero =>
    obtain rfl := List.length_eq_zero_iff.mp (Nat.le_zero.mp h)
    cases rounds' <;> cases last <;> rfl
  | succ rounds ih =>
    cases body with
    | nil => cases rounds' <;> cases last <;> rfl
    | cons b body =>
      rw [List.length_cons] at h h'
      obtain ⟨rounds', rfl⟩ : ∃ n, rounds' = n + 1 := ⟨rounds' - 1, by omega⟩
      have hrest := length_drop_chunk b body
      simp only [chunkLoop]
      split
      · rfl
      · exact ih _ _ (by omega) (by omega)

/-- The message that ends the stream once more. -/
def again : List Message := if cfg.observeEnabled then [bodyMessage response [] true] else []

theorem send_answered (said : List Exchange) (msg : Message) :
    send cfg (answering answers) said msg =
      (some (if cfg.observeEnabled then none else some (answers said msg)),
        said ++ [(msg, some (answers said msg))]) := by
  cases hobserve : cfg.observeEnabled <;> simp [send, answering, hobserve]

/-- Behind the last chunk an answer tells that there was one. -/
theorem chunkLoop_nil (rounds : ℕ) (answer : Answer) (said : List Exchange) :
    (chunkLoop cfg (answering answers) (bodyMessage response) rounds []
        (if cfg.observeEnabled then none else some answer) said).2.map Prod.fst =
      said.map Prod.fst ++ again cfg response := by
  cases hobserve : cfg.observeEnabled <;> cases rounds <;> simp [chunkLoop, again, hobserve, send_answered]

/-- What is said about a body that is not empty. -/
theorem chunkLoop_messages {rounds : ℕ} {body : List UInt8} (last : Option Answer) (said : List Exchange)
    (hrounds : body.length ≤ rounds) (hbody : body ≠ []) :
    (chunkLoop cfg (answering answers) (bodyMessage response) rounds body last
        said).2.map Prod.fst =
      said.map Prod.fst ++ (marked (bodyMessage response) (pieces rounds body) ++ again cfg response) := by
  induction rounds generalizing body last said with
  | zero => exact absurd (List.length_eq_zero_iff.mp (Nat.le_zero.mp hrounds)) hbody
  | succ rounds ih =>
    cases body with
    | nil => exact absurd rfl hbody
    | cons b body =>
      have hrest := (length_drop_chunk b body).trans (Nat.le_of_succ_le_succ hrounds)
      simp only [chunkLoop, send_answered, pieces, marked]
      generalize (b :: body).take streamChunkSize = chunk
      generalize (b :: body).drop streamChunkSize = rest at hrest
      cases rest with
      | nil =>
        have hnone : pieces rounds [] = [] := by cases rounds <;> rfl
        rw [hnone, chunkLoop_nil]
        simp [marked]
      | cons c rest =>
        have hmore : (pieces rounds (c :: rest)).isEmpty = false :=
          List.isEmpty_eq_false_iff.mpr (pieces_ne_nil hrest (List.cons_ne_nil _ _))
        rw [ih _ _ hrest (List.cons_ne_nil _ _), hmore]
        simp

theorem chunkLoop_isSome (rounds : ℕ) (body : List UInt8) (last : Option Answer) (said : List Exchange) :
    (chunkLoop cfg (answering answers) (bodyMessage response) rounds body last
      said).1.isSome = true := by
  induction rounds generalizing body last said with
  | zero => cases body <;> cases last <;> simp [chunkLoop, send_answered]
  | succ rounds ih =>
    cases body with
    | nil => cases last <;> simp [chunkLoop, send_answered]
    | cons b body =>
      simp only [chunkLoop, send_answered]
      exact ih _ _ _

theorem sent_of_ne_nil {body : List UInt8} (said : List Exchange) (hbody : body ≠ []) :
    sent cfg answers response body said =
      marked (bodyMessage response) (pieces body.length body) ++ again cfg response := by
  rw [sent, stream, List.map_drop, chunkLoop_messages cfg answers response none said le_rfl hbody]
  exact List.drop_left' (List.length_map _)

theorem sent_nil (said : List Exchange) :
    sent cfg answers response [] said = [bodyMessage response [] true] := by
  simp [sent, stream, chunkLoop, send_answered]

/-- A stream that is ended twice is not as it should be. -/
theorem not_streamed_again {body : List UInt8} {chunks : List (List UInt8)} (hchunks : chunks ≠ []) :
    ¬Streamed response body
      (marked (bodyMessage response) chunks ++ [bodyMessage response [] true]) := by
  rintro ⟨front, last, hmsgs, -⟩
  have hfront := (List.append_inj' hmsgs rfl).1
  rw [← List.dropLast_append_getLast hchunks, marked_concat] at hfront
  have hmem :
      bodyMessage response (chunks.getLast hchunks) true ∈ front.map (bodyMessage response · false) := by
    rw [← hfront]
    exact List.mem_append_right _ List.mem_cons_self
  obtain ⟨chunk, -, heq⟩ := List.mem_map.mp hmem
  cases response <;> cases heq

/-- The loop ends, without an error, and the messages are as they should be unless a body that is not empty
is streamed in observe mode. -/
theorem streamed_iff (body : List UInt8) (said : List Exchange) (extra : ℕ) :
    stream cfg answers response (body.length + extra) body said =
      stream cfg answers response body.length body said ∧
    (stream cfg answers response body.length body said).1.isSome = true ∧
    (Streamed response body (sent cfg answers response body said) ↔
      cfg.observeEnabled = false ∨ body = []) := by
  refine ⟨chunkLoop_congr cfg _ _ none said (Nat.le_add_right _ _) le_rfl,
    chunkLoop_isSome cfg answers response _ _ none said, ?_⟩
  by_cases hbody : body = []
  · subst hbody
    rw [sent_nil]
    exact ⟨fun _ => .inr rfl, fun _ => ⟨[], [], rfl, rfl, by simp⟩⟩
  · rw [sent_of_ne_nil cfg answers response said hbody, again]
    cases hobserve : cfg.observeEnabled with
    | false =>
      refine ⟨fun _ => .inl rfl, fun _ => ?_⟩
      simpa using streamed_marked response hbody
    | true =>
      constructor
      · intro h
        exact absurd h (not_streamed_again response (pieces_ne_nil le_rfl hbody))
      · rintro (h | h)
        · cases h
        · exact absurd h hbody

end Stream

/-- Bodies of requests are streamed to a processor that observes. -/
def observing : Settings where
  phases := some { requestBody := "streamed" }
  observeMode := some { enabled := true }

/-- A body of one byte ends twice. -/
theorem not_streamed_observing :
    sent observing (fun _ _ => .unset) false [7] [] = [.requestBody [7] true, .requestBody [] true] ∧
    ¬Streamed false [7] (sent observing (fun _ _ => .unset) false [7] []) := by
  have hsent : sent observing (fun _ _ => .unset) false [7] [] =
      marked (bodyMessage false) [[7]] ++ [bodyMessage false [] true] := rfl
  refine ⟨rfl, ?_⟩
  rw [hsent]
  exact not_streamed_again false (List.cons_ne_nil _ _)

end Vrata.Proxy.ExtProc

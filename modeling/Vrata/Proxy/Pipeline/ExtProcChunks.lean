import Vrata.Proxy.Pipeline.ExtProcDialog

/-!
# The answers to the chunks of a streamed body

Reference: `server/internal/proxy/middlewares/extproc.go` (`sendBodyChunks`).

A streamed body is put to the processor in chunks, and each chunk gets an answer of its own. Only the
last one is looked at, and it is taken for an answer to the whole body. `chunksObeyed_iff` says for
which exchanges this is what the answers ask for.
-/

namespace Vrata.Proxy.ExtProc

open NetHttp

/-- What an answer puts in the place of the body it is for. -/
def Answer.replacement (answer : Answer) : Option (List UInt8) :=
  match answer.getRequestBody.bind BodyAction.bodyMutation with
  | some (.replaceBody body) => some body
  | some (.clearBody true) => some []
  | _ => none

/-- What becomes of the chunk of an exchange. -/
def Exchange.chunk : Exchange → List UInt8
  | (.requestBody chunk _, some answer) => answer.replacement.getD chunk
  | (.requestBody chunk _, none) => chunk
  | _ => []

/-- Every answer counts: one that rejects is enough for a rejection, and otherwise each chunk is
replaced as its own answer says. -/
structure ChunksObeyed (cfg : Settings) (verdict : Verdict) (es : List Exchange) : Prop where
  rejected : cfg.disableReject = false → (∃ e ∈ es, e.2.any Answer.isReject = true) →
    ∃ status headers body, verdict = .rejected status headers body
  forwarded : (cfg.disableReject = false → ∀ e ∈ es, e.2.any Answer.isReject = false) →
    (∀ e ∈ es, e.2 ≠ none) →
    ∃ r, verdict = .pass r ∧ r.body = some ⟨es.flatMap Exchange.chunk, false⟩

/-- What is said about the body of a request. -/
def bodyExchanges (dialog : Dialog) (said : List Exchange) (body : List UInt8) : List Exchange :=
  exchanges dialog said (marked .requestBody (chunks .streamed body))

section Chunks

variable (cfg : Settings) (dialog : Dialog)

theorem applyRequestBody_body (r : Request) (body : List UInt8) (hbody : r.body = some ⟨body, false⟩)
    (answer : Answer) :
    (applyRequestBody cfg r answer).body = some ⟨answer.replacement.getD body, false⟩ := by
  unfold applyRequestBody Answer.replacement
  cases answer.getRequestBody with
  | none => exact hbody
  | some action =>
    unfold applyBodyAction
    simp only [Option.bind_some]
    cases action.bodyMutation with
    | none => exact hbody
    | some mutation =>
      cases mutation with
      | replaceBody replacement => rfl
      | clearBody clear =>
        cases clear with
        | true => rfl
        | false => exact hbody

/-- The last answer is one of the answers. -/
theorem exists_of_lastAnswer {es : List Exchange} {answer : Answer} (hlast : lastAnswer es = some answer) :
    ∃ e ∈ es, e.2 = some answer := by
  obtain ⟨e, he, heq⟩ := Option.bind_eq_some_iff.mp hlast
  exact ⟨e, List.mem_of_getLast? he, heq⟩

/-- The streamed body phase, in terms of the last answer. -/
theorem bodyVerdict_streamed (hobserve : cfg.observeEnabled = false) (hmode : cfg.requestBody = .streamed)
    {r : Request} {body : List UInt8} (hbody : r.body = some ⟨body, false⟩) (said : List Exchange) :
    (bodyVerdict cfg dialog r said).1
      = verdict cfg r (applyRequestBody cfg r) ((lastAnswer (bodyExchanges dialog said body)).map some) := by
  have hsame : { r with body := some ⟨body, false⟩ } = r := by rw [← hbody]
  simp [bodyVerdict, processRequestBody, hmode, hbody, readBody, sendBody_eq cfg dialog hobserve,
    bodyExchanges, hsame]

theorem verdict_rejected_iff (r : Request) (apply : Answer → Request) (last : Option Answer) :
    (∃ status headers body, verdict cfg r apply (last.map some) = .rejected status headers body) ↔
      cfg.disableReject = false ∧ last.any Answer.isReject = true := by
  cases last with
  | none =>
    simp only [Option.map_none, verdict]
    split <;> simp
  | some answer =>
    cases answer with
    | reject status headers body =>
      simp only [Option.map_some, verdict]
      split <;> simp_all [Answer.isReject]
    | _ => simp [verdict, Answer.isReject]

/-- An answer that does not reject is applied to the whole body. -/
theorem verdict_body {r : Request} {body : List UInt8} (hbody : r.body = some ⟨body, false⟩)
    {answer : Answer} (hanswer : cfg.disableReject = false → answer.isReject = false) :
    ∃ r', verdict cfg r (applyRequestBody cfg r) (some (some answer)) = .pass r' ∧
      r'.body = some ⟨answer.replacement.getD body, false⟩ := by
  cases answer with
  | reject status headers content =>
    have hdisabled : cfg.disableReject = true := by
      by_contra hallowed
      exact absurd (hanswer (by simpa using hallowed)) (by simp [Answer.isReject])
    exact ⟨r, by simp [verdict, hdisabled], hbody⟩
  | _ => exact ⟨_, rfl, applyRequestBody_body cfg r body hbody _⟩

/-- When what the last answer makes of the whole body is what all answers make of their chunks. -/
theorem replaced_iff {es : List Exchange} {answer : Answer} (hlast : lastAnswer es = some answer)
    (hmsgs : ∀ e ∈ es, ∃ chunk eos, e.1 = .requestBody chunk eos) (body : List UInt8) :
    answer.replacement.getD body = es.flatMap Exchange.chunk ↔
      if answer.replacement = none then es.flatMap Exchange.chunk = body
      else ∀ e ∈ es.dropLast, Exchange.chunk e = [] := by
  cases hanswer : answer.replacement with
  | none => simp [eq_comm]
  | some replacement =>
    obtain ⟨⟨msg, received⟩, he, rfl⟩ := Option.bind_eq_some_iff.mp hlast
    obtain ⟨front, rfl⟩ := List.getLast?_eq_some_iff.mp he
    obtain ⟨chunk, eos, rfl⟩ := hmsgs (msg, some answer) (by simp)
    simp [Exchange.chunk, hanswer]

/-- The answers to the chunks are obeyed exactly if a rejection is the last answer, and otherwise the
chunks as answered make up the body, or the last answer replaces it and the others remove their chunks. -/
theorem chunksObeyed_iff (hobserve : cfg.observeEnabled = false) (hmode : cfg.requestBody = .streamed)
    (r : Request) (body : List UInt8) (hbody : r.body = some ⟨body, false⟩) (said : List Exchange) :
    ChunksObeyed cfg (bodyVerdict cfg dialog r said).1 (bodyExchanges dialog said body) ↔
      (cfg.disableReject = false →
        (∃ e ∈ bodyExchanges dialog said body, e.2.any Answer.isReject = true) →
          (lastAnswer (bodyExchanges dialog said body)).any Answer.isReject = true) ∧
      ((cfg.disableReject = false →
          ∀ e ∈ bodyExchanges dialog said body, e.2.any Answer.isReject = false) →
        (∀ e ∈ bodyExchanges dialog said body, e.2 ≠ none) →
          if (lastAnswer (bodyExchanges dialog said body)).bind Answer.replacement = none then
            (bodyExchanges dialog said body).flatMap Exchange.chunk = body
          else ∀ e ∈ (bodyExchanges dialog said body).dropLast, Exchange.chunk e = []) := by
  have hnone : lastAnswer (bodyExchanges dialog said body) = none ↔
      ∃ e ∈ bodyExchanges dialog said body, e.2 = none :=
    lastAnswer_eq_none dialog (marked_ne_nil _ (chunks_ne_nil _ _))
  have hmsgs : ∀ e ∈ bodyExchanges dialog said body, ∃ chunk eos, e.1 = .requestBody chunk eos := by
    intro e he
    obtain ⟨chunk, -, eos, hmsg⟩ := mem_marked (mem_of_mem_exchanges dialog he)
    exact ⟨chunk, eos, hmsg⟩
  rw [bodyVerdict_streamed cfg dialog hobserve hmode hbody said]
  generalize bodyExchanges dialog said body = es at hnone hmsgs ⊢
  have hrejected := verdict_rejected_iff cfg r (applyRequestBody cfg r) (lastAnswer es)
  -- Where every chunk is answered and none rejects, the phase passes with what the last answer makes of
  -- the body.
  have hforwarded : (cfg.disableReject = false → ∀ e ∈ es, e.2.any Answer.isReject = false) →
      (∀ e ∈ es, e.2 ≠ none) → ∃ answer, lastAnswer es = some answer ∧
      ∃ r', verdict cfg r (applyRequestBody cfg r) ((lastAnswer es).map some) = .pass r' ∧
        r'.body = some ⟨answer.replacement.getD body, false⟩ := by
    intro hkept hall
    obtain ⟨answer, hlast⟩ := Option.ne_none_iff_exists'.mp fun hmissing => by
      obtain ⟨e, he, heq⟩ := hnone.mp hmissing
      exact hall e he heq
    obtain ⟨e, he, heq⟩ := exists_of_lastAnswer hlast
    refine ⟨answer, hlast, ?_⟩
    rw [hlast]
    exact verdict_body cfg hbody fun hallowed => by simpa [heq] using hkept hallowed e he
  constructor
  · intro hobeyed
    refine ⟨fun hallowed hexists => (hrejected.mp (hobeyed.rejected hallowed hexists)).2, ?_⟩
    intro hkept hall
    obtain ⟨r', hpass, hbody'⟩ := hobeyed.forwarded hkept hall
    obtain ⟨answer, hlast, r'', hpass', hreplaced⟩ := hforwarded hkept hall
    rw [hpass] at hpass'
    cases hpass'
    rw [hlast]
    exact (replaced_iff hlast hmsgs body).mp (by simpa using hreplaced.symm.trans hbody')
  · rintro ⟨hreject, hreplaced⟩
    refine ⟨fun hallowed hexists => hrejected.mpr ⟨hallowed, hreject hallowed hexists⟩, ?_⟩
    intro hkept hall
    obtain ⟨answer, hlast, hpass⟩ := hforwarded hkept hall
    have hcond := hreplaced hkept hall
    rw [hlast] at hcond
    rwa [← (replaced_iff hlast hmsgs body).mpr hcond]

end Chunks

def streaming : Settings where
  phases := some { requestBody := "streamed" }

/-- A body of one chunk. -/
theorem chunksObeyed_streaming_one :
    ChunksObeyed streaming
      (bodyVerdict streaming (fun _ _ => some (.requestBody { bodyMutation := some (.clearBody true) }))
        { body := some ⟨[1], false⟩ } []).1
      (bodyExchanges (fun _ _ => some (.requestBody { bodyMutation := some (.clearBody true) })) [] [1]) :=
  (chunksObeyed_iff streaming _ (by decide) (by decide) { body := some ⟨[1], false⟩ } [1] rfl []).mpr
    ⟨by decide, by decide⟩

theorem chunks_two {body rest : List UInt8} (hbody : body.length = streamChunkSize) (hrest : rest ≠ [])
    (hlen : rest.length ≤ streamChunkSize) : chunks .streamed (body ++ rest) = [body, rest] := by
  have hbody' : body ≠ [] := by
    rintro rfl
    exact absurd hbody (by decide)
  obtain ⟨b, body, rfl⟩ := List.exists_cons_of_ne_nil hbody'
  obtain ⟨c, rest, rfl⟩ := List.exists_cons_of_ne_nil hrest
  have htake : (b :: body ++ c :: rest).take streamChunkSize = b :: body := by
    rw [← hbody, List.take_left']
    rfl
  have hdrop : (b :: body ++ c :: rest).drop streamChunkSize = c :: rest := by
    rw [← hbody, List.drop_left']
    rfl
  have hchunks : chunks .streamed (b :: body ++ c :: rest)
      = pieces (body ++ c :: rest).length.succ (b :: (body ++ c :: rest)) := by
    simp [chunks]
  have hfuel : (body ++ c :: rest).length = (body.length + rest.length) + 1 := by
    simp [Nat.add_assoc]
  have hnone : ∀ fuel, pieces fuel [] = [] := fun fuel => by cases fuel <;> rfl
  rw [hchunks, pieces, ← List.cons_append, htake, hdrop, hfuel, pieces, List.take_of_length_le hlen,
    List.drop_eq_nil_of_le hlen, hnone]

/-- The first chunk is rejected and the second one is not. -/
def rejectFirst : Dialog := fun said _ => if said.isEmpty then some (.reject 403 [] none) else some .unset

/-- A body that is rejected at its first chunk is forwarded. -/
theorem not_chunksObeyed_rejectFirst :
    ¬ ChunksObeyed streaming
      (bodyVerdict streaming rejectFirst
        { body := some ⟨List.replicate streamChunkSize 0 ++ [1], false⟩ } []).1
      (bodyExchanges rejectFirst [] (List.replicate streamChunkSize 0 ++ [1])) := by
  have hes : bodyExchanges rejectFirst [] (List.replicate streamChunkSize 0 ++ [1])
      = [(.requestBody (List.replicate streamChunkSize 0) false, some (.reject 403 [] none)),
          (.requestBody [1] true, some .unset)] := by
    unfold bodyExchanges
    rw [chunks_two List.length_replicate (by simp) (by decide)]
    rfl
  intro hobeyed
  rw [bodyVerdict_streamed streaming rejectFirst (by decide) (by decide) rfl, hes] at hobeyed
  have hrejected := (verdict_rejected_iff _ _ _ _).mp (hobeyed.rejected rfl ⟨_, .head _, rfl⟩)
  exact absurd hrejected.2 (by decide)

end Vrata.Proxy.ExtProc

import Mathlib.Data.List.TakeDrop
import Vrata.Proxy.Cel

/-!
# The body of a request and the expressions that look at it

Reference: `BufferBody` of `server/internal/proxy/celeval/cel.go`, `match` and `ServeHTTP` of `router.go`,
`wrapWithConditions` of `handler.go`, and `middlewares/inlineauthz.go`.

`BufferBody` reads the body up to a limit and puts a reader over what it has read in its place. It does so
in the request that it is given, and returns a copy that also remembers the data; both share the new reader.
A route that does not match drops its copy, and the next one reads again. So readers are kept apart from the
requests that refer to them.

What is behind the limit is not put back: `forwarded_iff` says that a body comes to the upstream as it was
sent exactly if no route or middleware that is reached looks at it or it is not longer than the limit.
-/

namespace Vrata.Proxy

open Cel (BodyData)

/-- The readers of bodies by their numbers. -/
structure Readers where
  content : ℕ → List UInt8
  fresh : ℕ

/-- A request as an object: its reader, unless it has no body, and the data in its context. -/
structure RequestObject where
  body : Option ℕ
  cached : Option BodyData

/-- How bodies are buffered. -/
structure Buffering where
  /-- `celBodyMaxSize`. -/
  maxSize : ℤ
  maxSize_le : maxSize ≤ 9223372036854775807
  /-- The text of a body, and its JSON if the type of the content says that it is. -/
  text : List UInt8 → String
  json : List UInt8 → Option (String → Option Cel.Value)

namespace Buffering

variable (b : Buffering)

/-- How much is read: the limit and one more, in 64 bits. -/
def limit : ℕ := (wrap64 (b.maxSize + 1)).toNat

/-- How much of a body is kept. -/
def capacity : ℕ := if b.maxSize = 9223372036854775807 then 0 else b.maxSize.toNat

/-- The body is replaced by these bytes. -/
def replace (w : Readers) (id : ℕ) (bytes : List UInt8) (json : Option (String → Option Cel.Value)) :
    Readers × RequestObject × RequestObject :=
  let drained := Function.update w.content id ((w.content id).drop b.limit)
  (⟨Function.update drained w.fresh bytes, w.fresh + 1⟩, ⟨some w.fresh, none⟩,
    ⟨some w.fresh, some ⟨b.text bytes, json⟩⟩)

/-- `BufferBody`, with the request as it is afterwards and the copy. It panics if the limit is negative. -/
def bufferBody (w : Readers) (r : RequestObject) : Option (Readers × RequestObject × RequestObject) :=
  if r.cached.isSome then some (w, r, r)
  else
    match r.body with
    | none => some (w, r, { r with cached := some ⟨"", none⟩ })
    | some id =>
      let raw := (w.content id).take b.limit
      if b.maxSize < raw.length then
        if b.maxSize < 0 then none else some (b.replace w id (raw.take b.maxSize.toNat) none)
      else some (b.replace w id raw (b.json raw))

end Buffering

/-! ## Routes and middlewares -/

/-- A compiled expression: whether it is said to need the body, and its result for the data it finds. -/
structure BodyProgram where
  needsBody : Bool
  eval : Option BodyData → Bool

/-- The conditions or the rules of a middleware: whether one of them needs the body, and whether the request
is handed on. -/
structure Stage where
  needsBody : Bool
  handsOn : Option BodyData → Bool

/-- A route: whether it matches apart from its expression, the expression, and its middlewares. -/
structure BodyRoute where
  reached : Bool
  program : Option BodyProgram
  stages : List Stage

namespace Buffering

variable (b : Buffering)

/-- The body is buffered if it is needed. -/
def bufferIf (needsBody : Bool) (w : Readers) (r : RequestObject) :
    Option (Readers × RequestObject × RequestObject) :=
  if needsBody then b.bufferBody w r else some (w, r, r)

/-- The middlewares one after the other. -/
def runStages : List Stage → Readers → RequestObject → Option (Readers × Option RequestObject)
  | [], w, r => some (w, some r)
  | stage :: stages, w, r =>
    (b.bufferIf stage.needsBody w r).bind fun (w, _, r) =>
      if stage.handsOn r.cached then runStages stages w r else some (w, none)

/-- The routes one after the other. One that does not match leaves the request to the next. -/
def runRoutes : List BodyRoute → Readers → RequestObject → Option (Readers × Option RequestObject)
  | [], w, _ => some (w, none)
  | route :: routes, w, r =>
    if route.reached then
      match route.program with
      | none => b.runStages route.stages w r
      | some prg =>
        (b.bufferIf prg.needsBody w r).bind fun (w, r, copy) =>
          if prg.eval copy.cached then b.runStages route.stages w copy else runRoutes routes w r
    else runRoutes routes w r

/-- What the reader of a request gives. -/
def bodyOf (w : Readers) (r : RequestObject) : List UInt8 := (r.body.map w.content).getD []

/-- The readers and the request as they come from the client. A request without a body has no reader. -/
def received (sent : List UInt8) : Readers × RequestObject :=
  (⟨fun _ => sent, 1⟩, ⟨if sent = [] then none else some 0, none⟩)

/-- The body that is forwarded, if the request is. -/
def forwarded (routes : List BodyRoute) (sent : List UInt8) : Option (List UInt8) :=
  (b.runRoutes routes (received sent).1 (received sent).2).bind fun (w, r) => r.map (bodyOf w)

/-! ## What is left of a body -/

/-- An expression, a condition or a rule that looks at the body is reached. As long as there is none, the
expressions find no data. -/
def looks : List BodyRoute → Bool
  | [] => false
  | route :: routes =>
    if route.reached then
      match route.program with
      | none => route.stages.any Stage.needsBody
      | some prg =>
        prg.needsBody || if prg.eval none then route.stages.any Stage.needsBody else looks routes
    else looks routes

/-- The request has the whole body as long as nobody has looked, and then what is kept of it. -/
structure Intact (looked : Bool) (sent : List UInt8) (w : Readers) (r : RequestObject) : Prop where
  cached : r.cached.isSome = true → looked = true
  body : bodyOf w r = if looked then sent.take b.capacity else sent

variable {b} {looked : Bool} {sent : List UInt8} {w w' : Readers} {r r' copy : RequestObject}

/-- One more than what is kept is read, unless the sum overflows. -/
theorem limit_eq (h : 0 ≤ b.maxSize) :
    b.limit = if b.maxSize = 9223372036854775807 then 0 else b.maxSize.toNat + 1 := by
  have hmax := b.maxSize_le
  unfold limit wrap64
  split <;> omega

/-- What is kept of a body that was read up to the limit. -/
theorem kept_eq (bytes : List UInt8) (h : 0 ≤ b.maxSize) :
    (if b.maxSize < (bytes.take b.limit).length then (bytes.take b.limit).take b.maxSize.toNat
      else bytes.take b.limit) = bytes.take b.capacity := by
  rw [limit_eq h, capacity]
  split
  · simp
  · rw [List.take_take, List.length_take]
    split
    · rw [Nat.min_eq_left (Nat.le_succ _)]
    · rw [List.take_of_length_le, List.take_of_length_le] <;> omega

/-- A body that was cut before is cut at the same place again. -/
theorem Intact.take_bodyOf (h : b.Intact looked sent w r) :
    (bodyOf w r).take b.capacity = sent.take b.capacity := by
  rw [h.body]
  split
  · rw [List.take_take, Nat.min_self]
  · rfl

theorem intact_of_replace {id : ℕ} {bytes : List UInt8} {json : Option (String → Option Cel.Value)}
    (hbytes : bytes = sent.take b.capacity) : b.replace w id bytes json = (w', r', copy) →
    b.Intact true sent w' r' ∧ b.Intact true sent w' copy := by
  intro h
  simp only [replace, Prod.mk.injEq] at h
  obtain ⟨rfl, rfl, rfl⟩ := h
  refine ⟨⟨fun _ => rfl, ?_⟩, ⟨fun _ => rfl, ?_⟩⟩ <;> simp [bodyOf, hbytes]

/-- Both the request and its copy have what is kept of the body. -/
theorem intact_of_bufferBody (h : b.Intact looked sent w r)
    (hbuffer : b.bufferBody w r = some (w', r', copy)) :
    b.Intact true sent w' r' ∧ b.Intact true sent w' copy := by
  have hcut := h.take_bodyOf
  unfold bufferBody at hbuffer
  split at hbuffer
  · next hcached =>
    cases hbuffer
    obtain rfl := h.cached hcached
    exact ⟨h, h⟩
  · cases hid : r.body with
    | none =>
      -- nothing is read, and the copy has no reader either
      rw [hid] at hbuffer
      cases hbuffer
      have hnone : (bodyOf w r).take b.capacity = bodyOf w r := by simp [bodyOf, hid]
      refine ⟨⟨fun _ => rfl, hnone.symm.trans hcut⟩, ⟨fun _ => rfl, ?_⟩⟩
      rw [hnone] at hcut
      simpa [bodyOf, hid] using hcut
    | some id =>
      rw [hid] at hbuffer
      rw [bodyOf, hid, Option.map_some, Option.getD_some] at hcut
      simp only at hbuffer
      split at hbuffer
      · split at hbuffer
        · cases hbuffer
        · rename_i hlong hneg
          refine intact_of_replace ?_ (Option.some.inj hbuffer)
          rw [← hcut, ← kept_eq _ (Int.not_lt.mp hneg), if_pos hlong]
      · rename_i hshort
        refine intact_of_replace ?_ (Option.some.inj hbuffer)
        rw [← hcut, ← kept_eq _ (by omega), if_neg hshort]

theorem intact_of_bufferIf {needsBody : Bool} (h : b.Intact looked sent w r)
    (hbuffer : b.bufferIf needsBody w r = some (w', r', copy)) :
    b.Intact (looked || needsBody) sent w' r' ∧ b.Intact (looked || needsBody) sent w' copy := by
  cases needsBody with
  | true =>
    rw [Bool.or_true]
    exact intact_of_bufferBody h hbuffer
  | false =>
    cases hbuffer
    rw [Bool.or_false]
    exact ⟨h, h⟩

theorem intact_of_runStages {stages : List Stage} (h : b.Intact looked sent w r)
    (hrun : b.runStages stages w r = some (w', some r')) :
    b.Intact (looked || stages.any Stage.needsBody) sent w' r' := by
  induction stages generalizing looked w r with
  | nil =>
    cases hrun
    simpa using h
  | cons stage stages ih =>
    obtain ⟨⟨w₁, r₁, copy⟩, hbuffer, hrest⟩ := Option.bind_eq_some_iff.mp hrun
    simp only at hrest
    split at hrest
    · rw [List.any_cons, ← Bool.or_assoc]
      exact ih (intact_of_bufferIf h hbuffer).2 hrest
    · cases hrest

theorem intact_of_runRoutes {routes : List BodyRoute} (h : b.Intact looked sent w r)
    (hrun : b.runRoutes routes w r = some (w', some r')) :
    b.Intact (looked || looks routes) sent w' r' := by
  induction routes generalizing looked w r with
  | nil => cases hrun
  | cons route routes ih =>
    rw [runRoutes] at hrun
    rw [looks]
    split at hrun
    · next hreached =>
      rw [if_pos hreached]
      split at hrun
      · exact intact_of_runStages h hrun
      · next prg _ =>
        obtain ⟨⟨w₁, r₁, copy⟩, hbuffer, hrest⟩ := Option.bind_eq_some_iff.mp hrun
        obtain ⟨horiginal, hcopy⟩ := intact_of_bufferIf h hbuffer
        simp only at hrest ⊢
        rw [← Bool.or_assoc]
        -- the middlewares get the copy, the next route the request itself
        cases hlooked : looked || prg.needsBody with
        | true =>
          rw [hlooked] at horiginal hcopy
          rw [Bool.true_or]
          split at hrest
          · simpa only [Bool.true_or] using intact_of_runStages hcopy hrest
          · simpa only [Bool.true_or] using ih horiginal hrest
        | false =>
          rw [hlooked] at horiginal hcopy
          have hdata : copy.cached = none := by simpa using hcopy.cached
          rw [hdata] at hrest
          split at hrest
          · next heval =>
            rw [if_pos heval]
            exact intact_of_runStages hcopy hrest
          · next heval =>
            rw [if_neg heval]
            exact ih horiginal hrest
    · next hreached =>
      rw [if_neg hreached]
      exact ih h hrun

/-- A body that is forwarded is the one that was sent exactly if nothing that looks at it was reached, or it
is not longer than what is kept. -/
theorem forwarded_iff (b : Buffering) (routes : List BodyRoute) (sent : List UInt8) {bytes : List UInt8}
    (h : b.forwarded routes sent = some bytes) :
    bytes = sent ↔ looks routes = false ∨ sent.length ≤ b.capacity := by
  obtain ⟨⟨w, r⟩, hrun, hr⟩ := Option.bind_eq_some_iff.mp h
  obtain ⟨r, rfl, rfl⟩ := Option.map_eq_some_iff.mp hr
  have hreceived : b.Intact false sent (received sent).1 (received sent).2 :=
    ⟨by simp [received], by by_cases hsent : sent = [] <;> simp [received, bodyOf, hsent]⟩
  rw [(intact_of_runRoutes hreceived hrun).body, Bool.false_or]
  cases looks routes with
  | false => simp
  | true => simp

end Buffering

theorem toNat_le_maxInt64 (n : UInt8) : (n.toNat : ℤ) ≤ 9223372036854775807 := by
  have hlt := n.toNat_lt
  omega

/-- Bodies are cut after so many bytes. -/
def cutAfter (n : UInt8) : Buffering where
  maxSize := n.toNat
  maxSize_le := toNat_le_maxInt64 n
  text _ := ""
  json _ := none

/-- A route whose expression looks at the body and never matches, and one that takes all requests. -/
def failedThenAny : List BodyRoute := [⟨true, some ⟨true, fun _ => false⟩, []⟩, ⟨true, none, []⟩]

theorem forwarded_short : ∃ bytes, (cutAfter 4).forwarded failedThenAny [1, 2, 3] = some bytes ∧
    bytes = [1, 2, 3] :=
  ⟨_, rfl, (Buffering.forwarded_iff (cutAfter 4) failedThenAny [1, 2, 3] rfl).mpr (.inr (by decide))⟩

/-- A route that does not match has cut off the body for the one that does. -/
theorem forwarded_cut : (cutAfter 2).forwarded failedThenAny [1, 2, 3] = some [1, 2] := rfl

end Vrata.Proxy

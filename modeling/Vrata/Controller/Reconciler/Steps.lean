import Mathlib.Logic.Function.Iterate
import Mathlib.Logic.Relation
import Vrata.Controller.Reconciler

/-!
# What the reconciler can do in one step

Reference: `clients/controller/internal/reconciler/reconciler.go`.

A step of an operation is one request together with the bookkeeping that the reconciler does before
its next request. `Step` lists all steps that `Init`, `ApplyHTTPRoute` and `DeleteHTTPRoute` can
take, each with what the reconciler knows when it takes it. The rules of the second half say which
steps the building blocks of the operations take; the specifications of the operations themselves
are put together from them.

An operation that stops early stops right after a request that did not end well: it never asks for
an entity that does not exist.
-/

namespace Vrata.Controller

open Effect

/-! ## Requests as changes of the world -/

/-- How the next request will go. -/
def World.outcome (w : World) : Outcome := w.plan.headD .ok

/-- The world after a request that leaves the tables `v`. -/
def World.sent (w : World) (q : Request) (v : ControlPlane) : World :=
  { w with vrata := v, plan := w.plan.tail, trace := ⟨q, w.outcome, w.vrata⟩ :: w.trace }

section Sent

variable (w : World) (q : Request) (v : ControlPlane)

@[simp] theorem World.vrata_sent : (w.sent q v).vrata = v := rfl

end Sent

/-- The world was reached from `w₀` by requests of which the last did not end well. -/
def World.Stopped (w₀ w : World) : Prop :=
  ∃ c rest, w.trace = c :: rest ∧ c.outcome ≠ .ok ∧ w₀.trace <:+ rest

/-! ## The steps of an operation -/

/-- The operations of the reconciler. -/
inductive Op where
  | init
  | apply (x : HTTPRouteInput)
  | delete («namespace» name : String)

/-- The IDs that the names are resolved to. -/
def resolution (b : Backend) (k : Resource) (v : ControlPlane) (names : List String) (n : String) :
    Option String :=
  if n ∈ names then byName k (b.listing k (v.rows k)) n else none

/-- The names of the destinations of an HTTPRoute. -/
def HTTPRouteInput.destNames (x : HTTPRouteInput) : List String :=
  destinationNamesForRoute (mapHTTPRoute x).destinations

/-- The names of the middlewares of an HTTPRoute. -/
def HTTPRouteInput.mwNames (x : HTTPRouteInput) : List String :=
  (mapHTTPRoute x).middlewares.map Middleware.name

/-- The names of the routes of an HTTPRoute. -/
def HTTPRouteInput.routeNames (x : HTTPRouteInput) : List String :=
  (mapHTTPRoute x).routes.map MappedRoute.name

/-- The slices of a rule, resolved `n` times with the entities in `v`. -/
def HTTPRouteInput.slicesAfter (x : HTTPRouteInput) (b : Backend) (v : ControlPlane)
    (r : MappedRoute) (n : ℕ) : RuleSlices :=
  (resolveSlices r.forward.isSome (resolution b .destinations v x.destNames)
    (resolution b .middlewares v x.mwNames))^[n] (sliceOf (mapHTTPRoute x).slices r.rule)

/-- A mapped route is preceded by `n` routes of its rule. -/
def HTTPRouteInput.Position (x : HTTPRouteInput) (r : MappedRoute) (n : ℕ) : Prop :=
  ∃ before after, (mapHTTPRoute x).routes = before ++ r :: after ∧
    n = before.countP fun r' => r'.rule = r.rule

/-- A mapped route as it is written: its slices have been resolved once for every route of the rule
before it, and once more for itself. -/
def HTTPRouteInput.writtenRoute (x : HTTPRouteInput) (b : Backend) (v : ControlPlane)
    (r : MappedRoute) (n : ℕ) : Route :=
  r.withSlices (x.slicesAfter b v r (n + 1))

/-- The destinations and middlewares of an HTTPRoute are stored. -/
structure HTTPRouteInput.Ready (x : HTTPRouteInput) (v : ControlPlane) : Prop where
  dests : ∀ n ∈ x.destNames, ∃ d ∈ v.rows .destinations, d.name = n
  mws : ∀ n ∈ x.mwNames, ∃ m ∈ v.rows .middlewares, m.name = n

/-- The group of an HTTPRoute with the given route IDs. -/
def HTTPRouteInput.writtenGroup (x : HTTPRouteInput) (ids : List String) : RouteGroup :=
  { (mapHTTPRoute x).group with routeIDs := ids }

/-- The entities an operation may write, given what is stored. -/
def Op.Writes (b : Backend) (v : ControlPlane) : Op → (k : Resource) → k.Row → Prop
  | .apply x, .destinations, d => ∃ dk ∈ (mapHTTPRoute x).destinations, d = dk.destination
  | .apply x, .middlewares, m => m ∈ (mapHTTPRoute x).middlewares
  | .apply x, .routes, r => x.Ready v ∧ ∃ mr n, x.Position mr n ∧ r = x.writtenRoute b v mr n
  | .apply x, .groups, g => ∃ ids, g = x.writtenGroup ids
  | _, _, _ => False

/-- The names an operation removes from the table of a resource. -/
def Op.selects : Op → Resource → String → Bool
  | .apply x, .routes => isStale (x.groupName ++ "/") fun n => x.routeNames.contains n
  | .apply x, .middlewares => isStale (x.groupName ++ "/") fun n => x.mwNames.contains n
  | .delete ns name, .groups => fun n => n = groupName ns name
  | .delete ns name, .routes => isStale (groupName ns name ++ "/") fun _ => false
  | .delete ns name, .middlewares => isStale (groupName ns name ++ "/") fun _ => false
  | _, _ => fun _ => false

/-- The entities an operation may remove: those it selects by name, and destinations that are not
counted. -/
def Op.Removes (rc : Reconciler) (op : Op) : (k : Resource) → k.Row → Prop
  | .destinations, d => rc.refCount d.name = 0
  | k, y => op.selects k (k.name y) = true

/-- The bookkeeping after a request to create: a created route is recorded. -/
def Op.noteCreated : Op → Outcome → (k : Resource) → k.Row → Reconciler → Reconciler
  | .apply x, .ok, .routes, r, rc => rc.record r.name x.destNames
  | _, _, _, _, rc => rc

/-- The bookkeeping after a request to delete: a deleted route is forgotten. -/
def noteRemoved : Outcome → (k : Resource) → k.Row → Reconciler → Reconciler
  | .ok, .routes, r, rc => rc.forget r.name
  | _, _, _, rc => rc

/-- The entity as it is stored when it is created. -/
def newRow (b : Backend) (v : ControlPlane) (k : Resource) (x : k.Row) : k.Row :=
  k.withID (b.next v.issued) x

/-- One step of an operation. -/
inductive Step (b : Backend) (op : Op) : World → World → Prop where
  /-- A listing, or a request that failed. -/
  | silent (w : World) (q : Request) (h : w.outcome = .failed ∨ ∃ k, q = .list k) :
      Step b op w (w.sent q w.vrata)
  /-- The counts are rebuilt from the listings. -/
  | rebuilt (w : World) (h : op = .init) :
      Step b op w { w with reconciler := rebuild (b.listing .routes (w.vrata.rows .routes))
                            (b.listing .destinations (w.vrata.rows .destinations)) }
  /-- An entity is created; there was none of its name. -/
  | created (w : World) (k : Resource) (x : k.Row) (hx : op.Writes b w.vrata k x)
      (hnew : ∀ y ∈ w.vrata.rows k, k.name y ≠ k.name x) (ho : w.outcome ≠ .failed) :
      Step b op w { w.sent (.create k x) (w.vrata.save k (newRow b w.vrata k x)) with
        reconciler := op.noteCreated w.outcome k x w.reconciler }
  /-- A stored route or group is overwritten; the name stays. -/
  | updated (w : World) (k : Resource) (x y : k.Row) (hk : k = .routes ∨ k = .groups)
      (hx : op.Writes b w.vrata k x) (hy : y ∈ w.vrata.rows k) (hname : k.name y = k.name x)
      (ho : w.outcome ≠ .failed) :
      Step b op w (w.sent (.update k (k.id y) (k.withID (k.id y) x))
        (w.vrata.save k (k.withID (k.id y) x)))
  /-- A stored entity is deleted. -/
  | removed (w : World) (k : Resource) (y : k.Row) (hy : y ∈ w.vrata.rows k)
      (hsel : op.Removes w.reconciler k y) (ho : w.outcome ≠ .failed) :
      Step b op w { w.sent (.delete k (k.id y)) (w.vrata.erase k (k.id y)) with
        reconciler := noteRemoved w.outcome k y w.reconciler }

/-- Any number of steps. -/
abbrev Steps (b : Backend) (op : Op) : World → World → Prop := Relation.ReflTransGen (Step b op)

/-- An operation stopped early. -/
def Halted (b : Backend) (op : Op) (w w' : World) : Prop := Steps b op w w' ∧ w.Stopped w'

/-- What every step preserves, a sequence of steps preserves. -/
theorem Steps.preserve {b : Backend} {op : Op} {I : World → Prop}
    (hstep : ∀ w w', I w → Step b op w w' → I w') {w w' : World} (h : Steps b op w w') (hw : I w) :
    I w' := by
  induction h with
  | refl => exact hw
  | tail _ hlast ih => exact hstep _ _ ih hlast

/-- A step makes one request at most. -/
theorem Step.trace_cases {b : Backend} {op : Op} {w w' : World} (h : Step b op w w') :
    (w'.trace = w.trace ∧ w'.plan = w.plan) ∨
      ∃ c, w'.trace = c :: w.trace ∧ c.outcome = w.outcome ∧ w'.plan = w.plan.tail := by
  cases h with
  | rebuilt hop => exact Or.inl ⟨rfl, rfl⟩
  | _ => exact Or.inr ⟨_, rfl, rfl, rfl⟩

/-- Requests are never taken off the trace. -/
theorem Steps.trace_suffix {b : Backend} {op : Op} {w w' : World} (h : Steps b op w w') :
    w.trace <:+ w'.trace := by
  refine h.preserve (I := fun w' => w.trace <:+ w'.trace) ?_ (List.suffix_refl _)
  intro w₁ w₂ hsuffix hstep
  rcases hstep.trace_cases with ⟨htrace, _⟩ | ⟨c, htrace, _⟩
  · rwa [htrace]
  · rw [htrace]
    exact hsuffix.trans (List.suffix_cons _ _)

/-! ## The rule for a request -/

section Rules

variable {b : Backend} {op : Op} {w₀ w₁ : World}

/-- A request that the control plane serves returns its answer, unless the plan says otherwise. -/
theorem spec_call {q : Request} {Q : q.Reply → World → Prop} {E : World → Prop} {a : q.Reply}
    {v : ControlPlane} (hserve : serve b q w₁.vrata = .ok (a, v))
    (hok : w₁.outcome = .ok → Q a (w₁.sent q v))
    (hlost : w₁.outcome = .lost → E (w₁.sent q v))
    (hfailed : w₁.outcome = .failed → E (w₁.sent q w₁.vrata)) :
    Spec (· = w₁) (call b q) Q E := by
  rintro w rfl
  unfold call
  simp only [hserve]
  cases ho : w.plan.headD .ok with
  | ok => simpa only [World.sent, World.outcome, ho] using hok ho
  | failed => simpa only [World.sent, World.outcome, ho] using hfailed ho
  | lost => simpa only [World.sent, World.outcome, ho] using hlost ho

/-- What a call leaves: the request is recorded, and perhaps served. -/
theorem spec_sent {q : Request} {J : World → Prop} (hsame : J (w₁.sent q w₁.vrata))
    (hserved : ∀ v, Served w₁.vrata q v → J (w₁.sent q v)) :
    Spec (· = w₁) (call b q) (fun _ => J) J := by
  rintro w rfl
  unfold call
  cases hserve : serve b q w.vrata with
  | error e =>
    cases ho : w.plan.headD .ok <;> simpa only [World.sent, World.outcome, ho] using hsame
  | ok p =>
    have hv := hserved p.2 (served hserve)
    cases ho : w.plan.headD .ok with
    | failed => simpa only [World.sent, World.outcome, ho] using hsame
    | ok => simpa only [World.sent, World.outcome, ho] using hv
    | lost => simpa only [World.sent, World.outcome, ho] using hv

theorem keeps_call {q : Request} {J : World → Prop} (hsame : ∀ w, J w → J (w.sent q w.vrata))
    (hserved : ∀ w v, J w → Served w.vrata q v → J (w.sent q v)) : Keeps J (call b q) :=
  fun w hw => spec_sent (hsame w hw) (fun v => hserved w v hw) w rfl

/-- Context on the error changes nothing else. -/
theorem spec_during {α : Type} {doing subject : String} {p : Sync α} {P : World → Prop}
    {Q : α → World → Prop} {E : World → Prop} (h : Spec P p Q E) :
    Spec P (during doing subject p) Q E := by
  intro w hw
  unfold during
  cases hp : p w with
  | ok a w' => exact h.ok hw hp
  | error e w' => exact h.error hw hp

theorem stopped_sent {q : Request} {v : ControlPlane} (hs : Steps b op w₀ w₁)
    (h : w₁.outcome ≠ .ok) : w₀.Stopped (w₁.sent q v) :=
  ⟨_, _, rfl, h, hs.trace_suffix⟩

/-- The stores and the books of two worlds are the same. -/
def SameStore (w w' : World) : Prop := w'.vrata = w.vrata ∧ w'.reconciler = w.reconciler

theorem halted_of_failed {q : Request} (hs : Steps b op w₀ w₁) (h : w₁.outcome = .failed) :
    Halted b op w₀ (w₁.sent q w₁.vrata) :=
  ⟨hs.tail (.silent w₁ q (Or.inl h)), stopped_sent hs (by simp [h])⟩

theorem spec_list (k : Resource) (hs : Steps b op w₀ w₁) :
    Spec (· = w₁) (call b (.list k))
      (fun rows w => Steps b op w₀ w ∧ SameStore w₁ w ∧ rows = b.listing k (w₁.vrata.rows k))
      (Halted b op w₀) := by
  have hstep := hs.tail (.silent w₁ (.list k) (Or.inr ⟨k, rfl⟩))
  refine spec_call rfl (fun _ => ⟨hstep, ⟨rfl, rfl⟩, rfl⟩) (fun h => ⟨hstep, ?_⟩)
    (halted_of_failed hs)
  exact stopped_sent hs (by simp [h])

theorem spec_findByName (k : Resource) (n : String) (hs : Steps b op w₀ w₁) :
    Spec (· = w₁) (findByName b k n)
      (fun r w => Steps b op w₀ w ∧ SameStore w₁ w ∧
        r = ((b.listing k (w₁.vrata.rows k)).find? fun x => k.name x = n).map k.id)
      (Halted b op w₀) := by
  refine Spec.bind (spec_list k hs) ?_
  rintro rows w ⟨hw, hsame, rfl⟩
  exact Spec.pure ⟨hw, hsame, rfl⟩

theorem mem_listing {k : Resource} {rows : List k.Row} {y : k.Row} :
    y ∈ b.listing k rows ↔ y ∈ rows :=
  (b.listing_perm k rows).mem_iff

/-- Nothing of the name is found if and only if nothing of the name is stored. -/
theorem find_listing_none {k : Resource} {rows : List k.Row} {n : String}
    (h : ((b.listing k rows).find? fun x => k.name x = n).map k.id = none) :
    ∀ y ∈ rows, k.name y ≠ n := by
  intro y hy
  rw [Option.map_eq_none_iff, List.find?_eq_none] at h
  simpa using h y (mem_listing.mpr hy)

theorem find_listing_some {k : Resource} {rows : List k.Row} {n i : String}
    (h : ((b.listing k rows).find? fun x => k.name x = n).map k.id = some i) :
    ∃ y ∈ rows, k.name y = n ∧ k.id y = i := by
  obtain ⟨y, hy, rfl⟩ := Option.map_eq_some_iff.mp h
  exact ⟨y, mem_listing.mp (List.mem_of_find?_eq_some hy), by simpa using List.find?_some hy, rfl⟩

/-! ## Creating, updating and deleting -/

/-- A request to create an entity without an ID. -/
theorem spec_create {k : Resource} {x : k.Row} (hid : k.id x = "")
    (hx : op.Writes b w₁.vrata k x) (hnew : ∀ y ∈ w₁.vrata.rows k, k.name y ≠ k.name x)
    (hs : Steps b op w₀ w₁) :
    Spec (· = w₁) (call b (.create k x))
      (fun y w => y = newRow b w₁.vrata k x ∧ w.vrata = w₁.vrata.save k y ∧
        w.reconciler = w₁.reconciler ∧
        Steps b op w₀ { w with reconciler := op.noteCreated .ok k x w.reconciler })
      (Halted b op w₀) := by
  have hserve : serve b (.create k x) w₁.vrata =
      .ok (newRow b w₁.vrata k x, w₁.vrata.save k (newRow b w₁.vrata k x)) := by
    simp [serve, hid, newRow]
  have hstep := fun ho => hs.tail (.created w₁ k x hx hnew ho)
  refine spec_call hserve (fun h => ?_) (fun h => ?_) (halted_of_failed hs)
  · rw [h] at hstep
    exact ⟨rfl, rfl, rfl, hstep (by simp)⟩
  · have hnote : op.noteCreated .lost k x w₁.reconciler = w₁.reconciler := by cases op <;> rfl
    rw [h, hnote] at hstep
    exact ⟨hstep (by simp), stopped_sent hs (by simp [h])⟩

theorem spec_update {k : Resource} {x y : k.Row} (hk : k = .routes ∨ k = .groups)
    (hx : op.Writes b w₁.vrata k x) (hy : y ∈ w₁.vrata.rows k) (hname : k.name y = k.name x)
    (hs : Steps b op w₀ w₁) :
    Spec (· = w₁) (call b (.update k (k.id y) (k.withID (k.id y) x)))
      (fun _ w => Steps b op w₀ w ∧ w.reconciler = w₁.reconciler ∧
        w.vrata = w₁.vrata.save k (k.withID (k.id y) x))
      (Halted b op w₀) := by
  have hserve : serve b (.update k (k.id y) (k.withID (k.id y) x)) w₁.vrata =
      .ok ((), w₁.vrata.save k (k.withID (k.id y) x)) := by
    have hwith : k.withID (k.id y) (k.withID (k.id y) x) = k.withID (k.id y) x := by
      cases k <;> rfl
    simp only [serve, hwith]
    rw [if_pos (List.mem_map_of_mem hy)]
  have hstep := fun ho => hs.tail (.updated w₁ k x y hk hx hy hname ho)
  exact spec_call hserve (fun h => ⟨hstep (by simp [h]), rfl, rfl⟩)
    (fun h => ⟨hstep (by simp [h]), stopped_sent hs (by simp [h])⟩) (halted_of_failed hs)

theorem spec_delete {k : Resource} {y : k.Row} (hy : y ∈ w₁.vrata.rows k)
    (hsel : op.Removes w₁.reconciler k y) (hs : Steps b op w₀ w₁) :
    Spec (· = w₁) (call b (.delete k (k.id y)))
      (fun _ w => w.vrata = w₁.vrata.erase k (k.id y) ∧ w.reconciler = w₁.reconciler ∧
        Steps b op w₀ { w with reconciler := noteRemoved .ok k y w.reconciler })
      (Halted b op w₀) := by
  have hserve : serve b (.delete k (k.id y)) w₁.vrata =
      .ok ((), w₁.vrata.erase k (k.id y)) := by
    simp only [serve]
    rw [if_pos (List.mem_map_of_mem hy)]
  have hstep := fun ho => hs.tail (.removed w₁ k y hy hsel ho)
  refine spec_call hserve (fun h => ?_) (fun h => ?_) (halted_of_failed hs)
  · rw [h] at hstep
    exact ⟨rfl, rfl, hstep (by simp)⟩
  · rw [h] at hstep
    exact ⟨hstep (by simp), stopped_sent hs (by simp [h])⟩

end Rules

end Vrata.Controller

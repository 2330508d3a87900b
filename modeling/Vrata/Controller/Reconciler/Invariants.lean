import Vrata.Controller.Reconciler.Trails
import Vrata.Controller.Reconciler.Written

/-!
# What the steps of an operation leave alone

`Step.rows` says what a step can do to one table. The facts that hold throughout an operation, also
when it stops early, follow from it by induction over the steps: a name that occurs once keeps doing
so, an entity whose name is not selected for removal stays, and new entities have generated IDs.
-/

namespace Vrata.Controller

open Effect

/-- What one step does to the table of `k`. -/
inductive RowsStep (b : Backend) (op : Op) (k : Resource) (w w' : World) : Prop where
  | same (h : w'.vrata.rows k = w.vrata.rows k)
  | created (x : k.Row) (hx : op.Writes b w.vrata k x)
      (hnew : ∀ y ∈ w.vrata.rows k, k.name y ≠ k.name x)
      (h : w'.vrata = w.vrata.save k (newRow b w.vrata k x))
  | updated (x y : k.Row) (hk : k = .routes ∨ k = .groups) (hx : op.Writes b w.vrata k x)
      (hy : y ∈ w.vrata.rows k) (hname : k.name y = k.name x)
      (h : w'.vrata = w.vrata.save k (k.withID (k.id y) x))
  | removed (y : k.Row) (hy : y ∈ w.vrata.rows k) (hsel : op.Removes w.reconciler k y)
      (h : w'.vrata = w.vrata.erase k (k.id y))

section Invariants

variable {b : Backend} {op : Op} {w w' : World}

/-- A step changes one table at most. -/
theorem Step.rows (h : Step b op w w') (k : Resource) : RowsStep b op k w w' := by
  cases h with
  | silent q hq | rebuilt hop => exact .same rfl
  | created k' x hx hnew ho =>
    by_cases hk : k = k'
    · subst hk
      exact .created x hx hnew rfl
    · exact .same (w.vrata.rows_save_of_ne hk _)
  | updated k' x y hk' hx hy hname ho =>
    by_cases hk : k = k'
    · subst hk
      exact .updated x y hk' hx hy hname rfl
    · exact .same (w.vrata.rows_save_of_ne hk _)
  | removed k' y hy hsel ho =>
    by_cases hk : k = k'
    · subst hk
      exact .removed y hy hsel rfl
    · exact .same (w.vrata.rows_erase_of_ne hk _)

/-! ## Names that occur once -/

/-- At most one entity of `k` has the name. -/
def AtMostOne (k : Resource) (n : String) (v : ControlPlane) : Prop :=
  ∀ y ∈ v.rows k, ∀ y' ∈ v.rows k, k.name y = n → k.name y' = n → y = y'

theorem AtMostOne.step {k : Resource} {n : String} (h : AtMostOne k n w.vrata)
    (hstep : Step b op w w') : AtMostOne k n w'.vrata := by
  cases hstep.rows k with
  | same hrows =>
    intro y hy y' hy'
    exact h y (hrows ▸ hy) y' (hrows ▸ hy')
  | created x hx hnew hv =>
    intro y hy y' hy' hn hn'
    rw [hv, mem_save_newRow] at hy hy'
    rcases hy with hy | rfl <;> rcases hy' with hy' | rfl
    · exact h y hy y' hy' hn hn'
    · exact absurd (hn.trans hn'.symm) ((k.name_withID _ x).symm ▸ hnew y hy)
    · exact absurd (hn'.trans hn.symm) ((k.name_withID _ x).symm ▸ hnew y' hy')
    · rfl
  | updated x z hk hx hz hname hv =>
    intro y hy y' hy' hn hn'
    rw [hv, ControlPlane.mem_rows_save, k.id_withID] at hy hy'
    rcases hy with rfl | ⟨hy, hid⟩ <;> rcases hy' with rfl | ⟨hy', hid'⟩
    · rfl
    · rw [k.name_withID, ← hname] at hn
      exact absurd (congrArg k.id (h y' hy' z hz hn' hn)) hid'
    · rw [k.name_withID, ← hname] at hn'
      exact absurd (congrArg k.id (h y hy z hz hn hn')) hid
    · exact h y hy y' hy' hn hn'
  | removed z hz hsel hv =>
    intro y hy y' hy'
    rw [hv, ControlPlane.mem_rows_erase] at hy hy'
    exact h y hy.1 y' hy'.1

theorem AtMostOne.steps {k : Resource} {n : String} (h : AtMostOne k n w.vrata)
    (hsteps : Steps b op w w') : AtMostOne k n w'.vrata :=
  hsteps.preserve (I := fun w => AtMostOne k n w.vrata) (fun _ _ h hstep => h.step hstep) h

/-! ## Entities that stay -/

/-- The entity with the ID has the name. -/
def HasNamed (k : Resource) (i n : String) (v : ControlPlane) : Prop :=
  ∃ y ∈ v.rows k, k.id y = i ∧ k.name y = n

theorem selects_of_removes {k : Resource} (hk : k ≠ .destinations) {rc : Reconciler} {y : k.Row}
    (h : op.Removes rc k y) : op.selects k (k.name y) = true := by
  cases k with
  | destinations => exact absurd rfl hk
  | _ => exact h

/-- A name that is not selected stays with its ID. -/
theorem HasNamed.steps {k : Resource} {i n : String} (hk : k ≠ .destinations)
    (hn : op.selects k n = false) (h : HasNamed k i n w.vrata) (hsteps : Steps b op w w') :
    HasNamed k i n w'.vrata := by
  refine hsteps.preserve (I := fun w => HasNamed k i n w.vrata) ?_ h
  rintro w₁ w₂ ⟨y, hy, rfl, rfl⟩ hstep
  cases hstep.rows k with
  | same hrows => exact ⟨y, hrows ▸ hy, rfl, rfl⟩
  | created x hx hnew hv => exact ⟨y, hv ▸ mem_save_newRow.mpr (Or.inl hy), rfl, rfl⟩
  | updated x z hk hx hz hname hv =>
    by_cases hid : k.id y = k.id z
    · obtain rfl := w₁.vrata.eq_of_id_eq hy hz hid
      refine ⟨_, hv ▸ ControlPlane.mem_rows_save.mpr (Or.inl rfl), k.id_withID _ _, ?_⟩
      rw [k.name_withID, hname]
    · refine ⟨y, hv ▸ ControlPlane.mem_rows_save.mpr (Or.inr ⟨hy, ?_⟩), rfl, rfl⟩
      rwa [k.id_withID]
  | removed z hz hsel hv =>
    refine ⟨y, hv ▸ ControlPlane.mem_rows_erase.mpr ⟨hy, fun hid => ?_⟩, rfl, rfl⟩
    obtain rfl := w₁.vrata.eq_of_id_eq hy hz hid
    rw [selects_of_removes hk hsel] at hn
    cases hn

/-- An entity that is neither overwritten nor selected is not touched. -/
theorem Steps.row_stays {k : Resource} (hk : k ≠ .destinations)
    {y : k.Row}
    (hwrites : k = .routes ∨ k = .groups → ∀ v x, op.Writes b v k x → k.name y ≠ k.name x)
    (hy : y ∈ w.vrata.rows k) (hn : op.selects k (k.name y) = false) (hsteps : Steps b op w w') :
    y ∈ w'.vrata.rows k := by
  refine hsteps.preserve (I := fun w => y ∈ w.vrata.rows k) ?_ hy
  intro w₁ w₂ hy hstep
  cases hstep.rows k with
  | same hrows => exact hrows ▸ hy
  | created x hx hnew hv => exact hv ▸ mem_save_newRow.mpr (Or.inl hy)
  | updated x z hk hx hz hname hv =>
    refine hv ▸ ControlPlane.mem_rows_save.mpr (Or.inr ⟨hy, fun hid => ?_⟩)
    rw [k.id_withID] at hid
    exact hwrites hk _ x hx (w₁.vrata.eq_of_id_eq hy hz hid ▸ hname)
  | removed z hz hsel hv =>
    refine hv ▸ ControlPlane.mem_rows_erase.mpr ⟨hy, fun hid => ?_⟩
    obtain rfl := w₁.vrata.eq_of_id_eq hy hz hid
    rw [selects_of_removes hk hsel] at hn
    cases hn

/-! ## New entities -/

/-- Destinations and middlewares are the old ones, or have generated IDs. -/
theorem Steps.old_or_new {k : Resource} (hk : ¬(k = .routes ∨ k = .groups))
    (hsteps : Steps b op w w') :
    ∀ y ∈ w'.vrata.rows k, y ∈ w.vrata.rows k ∨ isOwned (k.id y) = false := by
  refine hsteps.preserve (I := fun w' => ∀ y ∈ w'.vrata.rows k,
    y ∈ w.vrata.rows k ∨ isOwned (k.id y) = false) ?_ (fun _ h => Or.inl h)
  intro w₁ w₂ ih hstep y hy
  cases hstep.rows k with
  | same hrows => exact ih y (hrows ▸ hy)
  | created x hx hnew hv =>
    rw [hv, mem_save_newRow] at hy
    rcases hy with hy | rfl
    · exact ih y hy
    · right
      rw [id_newRow]
      exact not_isOwned_next b _
  | updated x z hk' hx hz hname hv => exact absurd hk' hk
  | removed z hz hsel hv =>
    rw [hv, ControlPlane.mem_rows_erase] at hy
    exact ih y hy.1

/-- Middlewares with a mapped name have the mapped contents, if they had them before. -/
theorem Steps.middleware_content {x : HTTPRouteInput} {mw : Middleware}
    (hmw : mw ∈ (mapHTTPRoute x).middlewares)
    (h : ∀ m ∈ w.vrata.rows .middlewares, m.name = mw.name → m = { mw with id := m.id })
    (hsteps : Steps b (.apply x) w w') :
    ∀ m ∈ w'.vrata.rows .middlewares, m.name = mw.name → m = { mw with id := m.id } := by
  refine hsteps.preserve (I := fun w => ∀ m ∈ w.vrata.rows .middlewares, m.name = mw.name →
    m = { mw with id := m.id }) ?_ h
  intro w₁ w₂ ih hstep m hm hname
  cases hstep.rows .middlewares with
  | same hrows => exact ih m (hrows ▸ hm) hname
  | created y hy hnew hv =>
    rw [hv] at hm
    rcases mem_save_newRow.mp hm with hm | rfl
    · exact ih m hm hname
    · have hy : y ∈ (mapHTTPRoute x).middlewares := hy
      obtain rfl : y = mw := List.inj_on_of_nodup_map (nodup_middlewares x) hy hmw hname
      rfl
  | updated y z hk hy hz hname hv => simp at hk
  | removed z hz hsel hv =>
    rw [hv] at hm
    exact ih m (ControlPlane.mem_rows_erase.mp hm).1 hname

/-! ## Calls that all go well -/

/-- No failure is planned. -/
def World.Fine (w : World) : Prop := ∀ o ∈ w.plan, o = .ok

theorem World.Fine.outcome (h : w.Fine) : w.outcome = .ok := by
  unfold World.Fine at h
  unfold World.outcome
  cases hplan : w.plan with
  | nil => rfl
  | cons o plan => exact h o (hplan ▸ List.mem_cons_self)

/-- Without failures planned, no call fails. -/
theorem Steps.all_ok (hfine : w.Fine) (hsteps : Steps b op w w') :
    w'.Fine ∧ ∃ calls, w'.trace = calls ++ w.trace ∧ ∀ c ∈ calls, c.outcome = .ok := by
  refine hsteps.preserve (I := fun w' => w'.Fine ∧ ∃ calls, w'.trace = calls ++ w.trace ∧
    ∀ c ∈ calls, c.outcome = .ok) ?_ ⟨hfine, [], rfl, by simp⟩
  rintro w₁ w₂ ⟨hp, calls, ht, hok⟩ hstep
  rcases hstep.trace_cases with ⟨htrace, hplan⟩ | ⟨c, htrace, hc, hplan⟩
  · exact ⟨by rwa [World.Fine, hplan], calls, htrace.trans ht, hok⟩
  · refine ⟨fun o ho => hp o (List.mem_of_mem_tail (hplan ▸ ho)), c :: calls, ?_, ?_⟩
    · rw [htrace, ht, List.cons_append]
    · intro c' hc'
      rcases List.mem_cons.mp hc' with rfl | hc'
      · rw [hc, hp.outcome]
      · exact hok c' hc'

theorem World.Fine.not_halted (hfine : w.Fine) : ¬Halted b op w w' := by
  rintro ⟨hsteps, c, rest, htrace, hc, hsuffix⟩
  obtain ⟨_, calls, htrace', hok⟩ := hsteps.all_ok hfine
  cases calls with
  | nil =>
    rw [htrace, List.nil_append] at htrace'
    rw [← htrace'] at hsuffix
    exact absurd hsuffix.length_le (by simp)
  | cons c' calls =>
    rw [htrace, List.cons_append] at htrace'
    exact hc ((List.cons.inj htrace').1 ▸ hok c' List.mem_cons_self)

/-- Deleting an HTTPRoute goes through all its loops unless it halts. -/
theorem delete_trail (b : Backend) (ns name : String)
    (h : ¬Halted b (.delete ns name) w (w.after b (.delete ns name))) :
    Nonempty (DeleteTrail b ns name w (w.after b (.delete ns name))) := by
  have hspec := spec_deleteHTTPRoute (b := b) (w := w) ns name
  unfold World.after at h ⊢
  cases hrun : (Op.delete ns name).program b w with
  | ok n w' => exact (hspec.ok rfl hrun).2
  | error e w' =>
    rw [hrun] at h
    exact absurd (hspec.error rfl hrun) h

/-- Deleting an HTTPRoute succeeds when no call fails. -/
theorem delete_ok (b : Backend) (ns name : String) (hfine : w.Fine) :
    Steps b (.delete ns name) w (w.after b (.delete ns name)) ∧
      Nonempty (DeleteTrail b ns name w (w.after b (.delete ns name))) :=
  ⟨steps_after b w _, delete_trail b ns name hfine.not_halted⟩

/-- Applying an HTTPRoute succeeds when no call fails. -/
theorem apply_ok (b : Backend) (x : HTTPRouteInput) (hfine : w.Fine) :
    ∃ n w', applyHTTPRoute b (mapHTTPRoute x) w = .ok n w' ∧ Steps b (.apply x) w w' ∧
      Nonempty (ApplyTrail b x w w') := by
  have hspec := spec_applyHTTPRoute (b := b) (w := w) x
  cases hrun : applyHTTPRoute b (mapHTTPRoute x) w with
  | ok n w' => exact ⟨n, w', rfl, hspec.ok rfl hrun⟩
  | error e w' => exact absurd (hspec.error rfl hrun) hfine.not_halted

end Invariants

/-! ## Reading a trail -/

section Trail

variable {b : Backend} {x : HTTPRouteInput} {w w' : World}

theorem ApplyTrail.routes_group (t : ApplyTrail b x w w') :
    t.group.vrata.rows .routes = t.routes.vrata.rows .routes :=
  t.upserted.rows_of_ne (by simp)

/-- The routes at the end are those written, without the stale ones. -/
theorem ApplyTrail.mem_routes (t : ApplyTrail b x w w') (r : Route) :
    r ∈ w'.vrata.rows .routes ↔
      r ∈ t.routes.vrata.rows .routes ∧ (Op.apply x).selects .routes r.name = false := by
  rw [t.collected.others .routes (by simp), t.droppedMws.others .routes (by simp), t.dropped.routes,
    t.routes_group]
  refine and_congr_right fun hr => ?_
  have hmem : r ∈ b.listing .routes (t.routes.vrata.rows .routes) := mem_listing.mpr hr
  simp [hmem]

/-- The middlewares at the end are those ensured, without the stale ones. -/
theorem ApplyTrail.mem_middlewares (t : ApplyTrail b x w w') (m : Middleware) :
    m ∈ w'.vrata.rows .middlewares ↔
      m ∈ t.mws.vrata.rows .middlewares ∧ (Op.apply x).selects .middlewares m.name = false := by
  have hrows : t.pruned.vrata.rows .middlewares = t.mws.vrata.rows .middlewares := by
    rw [t.dropped.others .middlewares (by simp), t.upserted.rows_of_ne (by simp),
      t.applied.others .middlewares (by simp)]
  rw [t.collected.others .middlewares (by simp), t.droppedMws.rows, hrows]
  refine and_congr_right fun hm => ?_
  have hmem : m ∈ b.listing .middlewares (t.mws.vrata.rows .middlewares) := mem_listing.mpr hm
  simp [hmem]

theorem ApplyTrail.groups (t : ApplyTrail b x w w') :
    w'.vrata.rows .groups = t.group.vrata.rows .groups := by
  rw [t.collected.others .groups (by simp), t.droppedMws.others .groups (by simp),
    t.dropped.others .groups (by simp)]

theorem ApplyTrail.dests_swept (t : ApplyTrail b x w w') :
    t.swept.vrata.rows .destinations = t.mws.vrata.rows .destinations := by
  rw [t.droppedMws.others .destinations (by simp), t.dropped.others .destinations (by simp),
    t.upserted.rows_of_ne (by simp), t.applied.others .destinations (by simp)]

theorem ApplyTrail.mem_dests_of_mem (t : ApplyTrail b x w w') {d : Destination}
    (hd : d ∈ w'.vrata.rows .destinations) : d ∈ t.mws.vrata.rows .destinations := by
  have := ((t.collected.dests d).mp hd).1
  rwa [t.dests_swept] at this

theorem ApplyTrail.routes_mws (t : ApplyTrail b x w w') :
    t.mws.vrata.rows .routes = w.vrata.rows .routes := by
  rw [t.ensuredMws.others .routes (by simp), t.ensuredDests.others .routes (by simp)]

theorem ApplyTrail.ready (t : ApplyTrail b x w w') : x.Ready t.mws.vrata where
  dests := by
    refine List.forall_mem_map.mpr fun dk hdk => ?_
    rw [t.ensuredMws.others _ (by simp)]
    exact t.ensuredDests.named _ (List.mem_map_of_mem hdk)
  mws := List.forall_mem_map.mpr t.ensuredMws.named

theorem ApplyTrail.mem_dests (t : ApplyTrail b x w w') {d : Destination}
    (hd : d ∈ w.vrata.rows .destinations) : d ∈ t.mws.vrata.rows .destinations := by
  rw [t.ensuredMws.others _ (by simp)]
  exact t.ensuredDests.kept d hd

section Delete

variable {ns name : String}

/-- `DeleteHTTPRoute` removes the group. -/
theorem DeleteTrail.mem_groups (t : DeleteTrail b ns name w w') (g : RouteGroup) :
    g ∈ w'.vrata.rows .groups ↔ g ∈ w.vrata.rows .groups ∧ g.name ≠ groupName ns name := by
  rw [t.collected.others .groups (by simp), t.droppedMws.others .groups (by simp),
    t.dropped.others .groups (by simp), t.droppedGroups.rows]
  refine and_congr_right fun hg => ?_
  have hmem : g ∈ b.listing .groups (w.vrata.rows .groups) := mem_listing.mpr hg
  have hsel : (Op.delete ns name).selects .groups (Resource.groups.name g) = true ↔
      g.name = groupName ns name := decide_eq_true_iff
  rw [hsel]
  simp [hmem]

end Delete

end Trail

end Vrata.Controller

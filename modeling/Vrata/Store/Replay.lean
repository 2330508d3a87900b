import Vrata.Store.Command
import Vrata.Store.View

/-!
# Replaying the log

The bolt file of a node survives a restart, and Raft hands the state machine the log from the start:
the whole log is applied to a store to which a part of it has been applied before. The entities end up
as they do on a node that never restarted, because the last save or delete of an ID decides. The active
snapshot need not. A snapshot may be activated in the log before it is saved. The first time this was
refused, but the store of the restarted node knows the snapshot already.

`replayAgrees_iff` says for which logs the replay is harmless.
-/

namespace Vrata.Store

open Json (Bytes)

/-! ## The operations of a log -/

section Log

variable (S : Schema)

/-- The operation that `ApplyCommand` calls. -/
def Command.toOp (cmd : Command) : Option (Op S) :=
  match cmd.type with
  | "SaveRoute" => (S.unmarshal .route cmd.payload).map (.save .route)
  | "DeleteRoute" => some (.delete .route cmd.id)
  | "SaveGroup" => (S.unmarshal .group cmd.payload).map (.save .group)
  | "DeleteGroup" => some (.delete .group cmd.id)
  | "SaveMiddleware" => (S.unmarshal .middleware cmd.payload).map (.save .middleware)
  | "DeleteMiddleware" => some (.delete .middleware cmd.id)
  | "SaveListener" => (S.unmarshal .listener cmd.payload).map (.save .listener)
  | "DeleteListener" => some (.delete .listener cmd.id)
  | "SaveDestination" => (S.unmarshal .destination cmd.payload).map (.save .destination)
  | "DeleteDestination" => some (.delete .destination cmd.id)
  | "SaveSecret" => (S.unmarshal .secret cmd.payload).map (.save .secret)
  | "DeleteSecret" => some (.delete .secret cmd.id)
  | "SaveSnapshot" => (S.unmarshal .snapshot cmd.payload).map (.save .snapshot)
  | "DeleteSnapshot" => some (.delete .snapshot cmd.id)
  | "ActivateSnapshot" => some (.activate cmd.id)
  | _ => none

/-- The operation of an entry; one that is not a command has none. -/
def entryOp (data : Bytes) : Option (Op S) := (Command.unmarshal data).bind (Command.toOp S)

variable {S} (cipher : Option Cipher) (nonce : Nonce) (s : Bolt)

theorem applySave_snd {k : Kind} (cmdType : String) (payload : Bytes) :
    (applySave S k cmdType (fun v => (Op.save k v).run S cipher nonce) payload s).2 =
      ((S.unmarshal k payload).map (Op.save k)).elim s fun op => (op.run S cipher nonce s).2 := by
  rw [applySave]
  cases S.unmarshal k payload <;> rfl

theorem applyCommand_snd (cmd : Command) :
    (applyCommand S cipher nonce cmd.type cmd.id cmd.payload s).2 =
      (cmd.toOp S).elim s fun op => (op.run S cipher nonce s).2 := by
  obtain ⟨type, id, payload⟩ := cmd
  unfold applyCommand Command.toOp
  dsimp only
  split
  -- a name that is none of the fifteen is none of them on the other side either
  case h_16 => simp [*]
  all_goals first
    | rfl
    | exact applySave_snd cipher nonce s _ payload

/-- An entry does what its operation does, and nothing if it has none. -/
theorem fsmApply_snd (data : Bytes) :
    (fsmApply S cipher nonce data s).2 = (entryOp S data).elim s fun op => (op.run S cipher nonce s).2 := by
  rw [fsmApply, entryOp]
  cases Command.unmarshal data with
  | none => rfl
  | some cmd => exact applyCommand_snd cipher nonce s cmd

end Log

/-! ## Runs -/

/-- The entries are applied one after the other, each with the nonce that is drawn for it. -/
inductive Ran (S : Schema) (cipher : Option Cipher) : List Bytes → Bolt → Bolt → Prop where
  | nil {s : Bolt} : Ran S cipher [] s s
  | cons {data : Bytes} {log : List Bytes} {s t : Bolt} (nonce : Nonce) :
    Ran S cipher log (fsmApply S cipher nonce data s).2 t → Ran S cipher (data :: log) s t

/-- A node that has applied a part of the log, is restarted and applies the whole log cannot be told
from one that has applied the log once. -/
def ReplayAgrees (S : Schema) (cipher : Option Cipher) (done log : List Bytes) : Prop :=
  ∀ s₀ p s₁ q r, new cipher (fun _ => ∅) = .ok s₀ → Ran S cipher done s₀ p →
    new cipher p.db = .ok s₁ → Ran S cipher log s₁ q → Ran S cipher log s₀ r → ObsEq S cipher q r

section Runs

variable {S : Schema} {cipher : Option Cipher}

theorem exists_ran (S : Schema) (cipher : Option Cipher) (log : List Bytes) (s : Bolt) :
    ∃ t, Ran S cipher log s t := by
  induction log generalizing s with
  | nil => exact ⟨s, .nil⟩
  | cons data log ih =>
    have nonce : Nonce := ⟨List.replicate nonceSize 0, List.length_replicate⟩
    obtain ⟨t, ht⟩ := ih (fsmApply S cipher nonce data s).2
    exact ⟨t, .cons nonce ht⟩

theorem exists_new (cipher : Option Cipher) : ∃ s, new cipher (fun _ => ∅) = .ok s := by
  cases cipher with
  | none => exact ⟨_, rfl⟩
  | some c => exact ⟨_, rfl⟩

/-- The operations of a log. -/
def opsOf (S : Schema) (log : List Bytes) : List (Op S) := log.filterMap (entryOp S)

theorem Represents.ran {log : List Bytes} {s t : Bolt} {a : View S cipher} (hs : Represents s a)
    (h : Ran S cipher log s t) : Represents t ((opsOf S log).foldl View.step a) := by
  induction h generalizing a with
  | nil => exact hs
  | @cons data log s t nonce _ ih =>
    have happly := fsmApply_snd (S := S) cipher nonce s data
    rw [opsOf, List.filterMap_cons]
    cases hop : entryOp S data with
    | none =>
      rw [hop] at happly
      exact ih (happly ▸ hs)
    | some op =>
      rw [hop] at happly
      exact ih (happly ▸ hs.run nonce op)

/-- The view of a store to which the operations have been applied. -/
def viewOf (cipher : Option Cipher) (l : List (Op S)) : View S cipher := l.foldl View.step View.empty

theorem cells_foldl_step (l : List (Op S)) (a : View S cipher) :
    (l.foldl View.step a).cells = l.foldl (Overwrite.update (Op.effect cipher)) a.cells := by
  induction l generalizing a with
  | nil => rfl
  | cons op l ih => exact ih (a.step op)

/-- The entities do not show that the log was replayed; the active snapshot may. -/
theorem replayAgrees_iff_active {done log : List Bytes} (h : done <+: log) :
    ReplayAgrees S cipher done log ↔
      (viewOf cipher (opsOf S done ++ opsOf S log)).active = (viewOf cipher (opsOf S log)).active := by
  have hview {s₀ p s₁ q r : Bolt} (hnew : new cipher (fun _ => ∅) = .ok s₀)
      (hdone : Ran S cipher done s₀ p) (hopen : new cipher p.db = .ok s₁) (hreplay : Ran S cipher log s₁ q)
      (honce : Ran S cipher log s₀ r) :
      Represents q (viewOf cipher (opsOf S done ++ opsOf S log)) ∧
        Represents r (viewOf cipher (opsOf S log)) := by
    have hs₀ : Represents s₀ (View.empty : View S cipher) := represents_of_new hnew
    have hp := hs₀.ran hdone
    have hs₁ : Represents s₁ ((opsOf S done).foldl View.step (View.empty : View S cipher)) := by
      rw [hp.reopen] at hopen
      cases hopen
      exact ⟨hp.text, hp.active, hp.marker, hp.other⟩
    refine ⟨?_, hs₀.ran honce⟩
    rw [viewOf, List.foldl_append]
    exact hs₁.ran hreplay
  have hcells : (viewOf cipher (opsOf S done ++ opsOf S log)).cells =
      (viewOf cipher (opsOf S log)).cells := by
    rw [viewOf, viewOf, List.foldl_append, cells_foldl_step, cells_foldl_step, cells_foldl_step]
    exact Overwrite.foldl_update_of_isPrefix _ (h.filterMap _)
  constructor
  · intro hagrees
    obtain ⟨s₀, hnew⟩ := exists_new cipher
    obtain ⟨p, hdone⟩ := exists_ran S cipher done s₀
    have hp := (represents_of_new (S := S) hnew).ran hdone
    obtain ⟨q, hreplay⟩ := exists_ran S cipher log { db := p.db }
    obtain ⟨r, honce⟩ := exists_ran S cipher log s₀
    obtain ⟨hq, hr⟩ := hview hnew hdone hp.reopen hreplay honce
    exact hq.active_eq_of_obsEq hr (hagrees _ _ _ _ _ hnew hdone hp.reopen hreplay honce)
  · intro hactive s₀ p s₁ q r hnew hdone hopen hreplay honce
    obtain ⟨hq, hr⟩ := hview hnew hdone hopen hreplay honce
    rw [View.ext hcells hactive] at hq
    exact hq.obsEq hr

end Runs

/-! ## Any number of restarts -/

section Lives

variable {S : Schema} {cipher : Option Cipher} {log : List Bytes}

/-- The store of a node that was started any number of times and each time given the log from its first
entry on, as far as it got. -/
inductive Lived (S : Schema) (cipher : Option Cipher) (log : List Bytes) : Bolt → Prop where
  | new {s : Bolt} : Store.new cipher (fun _ => ∅) = .ok s → Lived S cipher log s
  | restarted {s t s' : Bolt} {part : List Bytes} : Lived S cipher log s → part <+: log →
    Ran S cipher part s t → Store.new cipher t.db = .ok s' → Lived S cipher log s'

/-- Once the log has been applied, nothing is left of what was there before. -/
theorem Lived.exists_view {s : Bolt} (h : Lived S cipher log s) :
    ∃ a : View S cipher, Represents s a ∧
      ((opsOf S log).foldl View.step a).cells = (viewOf cipher (opsOf S log)).cells := by
  induction h with
  | new hnew => exact ⟨.empty, represents_of_new hnew, rfl⟩
  | restarted _ hpart hran hopen ih =>
    obtain ⟨a, hs, hcells⟩ := ih
    have ht := hs.ran hran
    rw [ht.reopen] at hopen
    cases hopen
    refine ⟨_, ⟨ht.text, ht.active, ht.marker, ht.other⟩, ?_⟩
    rw [← hcells, cells_foldl_step, cells_foldl_step, cells_foldl_step]
    exact Overwrite.foldl_update_of_isPrefix _ (hpart.filterMap _)

/-- Nodes that have been given the whole log in the end hold the same entities, however often they were
restarted and whichever nonces they drew. -/
theorem sameValues_of_lived {s t s' t' : Bolt} (hs : Lived S cipher log s) (ht : Ran S cipher log s t)
    (hs' : Lived S cipher log s') (ht' : Ran S cipher log s' t') : SameValues S cipher t t' := by
  intro k id
  obtain ⟨a, ha, hcells⟩ := hs.exists_view
  obtain ⟨a', ha', hcells'⟩ := hs'.exists_view
  have htext : t.text cipher k id = t'.text cipher k id := by
    rw [(ha.ran ht).text, (ha'.ran ht').text, hcells, hcells']
  have hread := congrArg (Option.map (Except.map (unmarshal S k))) htext
  rwa [Bolt.text, Bolt.text, Option.map_map, Option.map_map] at hread

end Lives

/-! ## The active snapshot of a log -/

section Active

variable {S : Schema} (cipher : Option Cipher)

/-- The snapshot is there after the operations: the last one that saves or deletes it saves it. -/
def Holds (l : List (Op S)) (id : String) : Prop :=
  ∃ data, Overwrite.last (Op.effect cipher) l (.snapshot, id) = some (some data)

/-- After the first operations, every activation of the others is refused. -/
def Refused (base l : List (Op S)) : Prop :=
  ∀ pre id post, l = pre ++ .activate id :: post → ¬Holds cipher (base ++ pre) id

/-- The operations leave the snapshot active: it was activated when it was there, and since then no
other has been activated and it has not been deleted. -/
def LeavesActive (l : List (Op S)) (id : String) : Prop :=
  ∃ pre post, l = pre ++ .activate id :: post ∧ Holds cipher pre id ∧
    Refused cipher (pre ++ [.activate id]) post ∧ .delete .snapshot id ∉ post

/-- If the last activation that the replay accepts was refused the first time, then its snapshot is
deleted after it, and so is the one that was active. -/
def Unaffected (done log : List (Op S)) : Prop :=
  ∀ pre id post, log = pre ++ .activate id :: post → Holds cipher (done ++ pre) id →
    Refused cipher (done ++ pre ++ [.activate id]) post → ¬Holds cipher pre id →
      .delete .snapshot id ∈ post ∧ ∀ id', LeavesActive cipher pre id' → .delete .snapshot id' ∈ post

variable {cipher} {base done l log pre post : List (Op S)} {op : Op S} {id id' : String}

theorem viewOf_append_singleton (l : List (Op S)) (op : Op S) :
    viewOf cipher (l ++ [op]) = (viewOf cipher l).step op := by
  rw [viewOf, List.foldl_append]
  rfl

theorem holds_iff : Holds cipher l id ↔ ((viewOf cipher l).cells (.snapshot, id)).isSome = true := by
  have hcells : (viewOf cipher l).cells (.snapshot, id) =
      (Overwrite.last (Op.effect cipher) l (.snapshot, id)).getD none := by
    rw [viewOf, cells_foldl_step, Overwrite.foldl_update]
    rfl
  rw [hcells, Holds]
  cases Overwrite.last (Op.effect cipher) l (.snapshot, id) with
  | none => simp
  | some cell => cases cell <;> simp

/-- What was there in the first run is there in the replay. -/
theorem Holds.append (h : Holds cipher l id) (base : List (Op S)) : Holds cipher (base ++ l) id := by
  obtain ⟨data, hdata⟩ := h
  exact ⟨data, by rw [Overwrite.last_append, hdata, Option.some_or]⟩

/-- What the replay refuses was refused in the first run. -/
theorem Refused.of_append (h : Refused cipher (done ++ base) l) : Refused cipher base l := by
  intro pre id post hl hholds
  refine h pre id post hl ?_
  rw [List.append_assoc]
  exact hholds.append done

theorem Refused.nil : Refused cipher base [] := by
  intro pre id post hl
  simp at hl

theorem refused_cons : Refused cipher base (op :: l) ↔
    (∀ id, op = .activate id → ¬Holds cipher base id) ∧ Refused cipher (base ++ [op]) l := by
  constructor
  · refine fun h => ⟨fun id hop => ?_, fun pre id post hl => ?_⟩
    · have := h [] id l (by rw [hop, List.nil_append])
      rwa [List.append_nil] at this
    · have := h (op :: pre) id post (by rw [hl, List.cons_append])
      rwa [List.append_cons] at this
  · rintro ⟨hop, h⟩ pre id post hl
    cases pre with
    | nil =>
      rw [List.append_nil]
      exact hop id (List.cons.inj hl).1
    | cons op' pre =>
      obtain ⟨rfl, hrest⟩ := List.cons.inj hl
      rw [List.append_cons]
      exact h pre id post hrest

/-- An operation that activates nothing leaves the active snapshot or deletes it. -/
theorem step_active_of_refused (hop : ∀ id, op = .activate id → ¬Holds cipher base id) :
    (viewOf cipher (base ++ [op])).active = some id ↔
      (viewOf cipher base).active = some id ∧ op ≠ .delete .snapshot id := by
  rw [viewOf_append_singleton]
  change (viewOf cipher base).activeAfter op = some id ↔ _
  cases op with
  | save k v => simp [View.activeAfter]
  | activate id' =>
    have hrefused := hop id' rfl
    rw [holds_iff] at hrefused
    rw [View.activeAfter, if_neg hrefused]
    simp
  | delete k id' =>
    cases k with
    | snapshot =>
      rw [View.activeAfter]
      split_ifs with hactive
      · rw [hactive]
        simp only [Option.some.injEq, ne_eq, Op.delete.injEq, true_and, false_iff]
        exact fun h => h.2 h.1
      · refine ⟨fun h => ⟨h, ?_⟩, fun h => h.1⟩
        rintro ⟨⟩
        exact hactive h
    | _ => simp [View.activeAfter]

theorem active_of_refused (h : Refused cipher base l) :
    (viewOf cipher (base ++ l)).active = some id ↔
      (viewOf cipher base).active = some id ∧ .delete .snapshot id ∉ l := by
  induction l generalizing base with
  | nil => simp
  | cons op l ih =>
    obtain ⟨hop, hl⟩ := refused_cons.mp h
    rw [List.append_cons, ih hl, step_active_of_refused hop, List.mem_cons, not_or, and_assoc, ne_comm]

/-- After an activation that is accepted and is the last, its snapshot is active until it is deleted. -/
theorem active_of_last (base : List (Op S)) (hid : Holds cipher (base ++ pre) id)
    (hpost : Refused cipher (base ++ pre ++ [.activate id]) post) :
    (viewOf cipher (base ++ (pre ++ .activate id :: post))).active = some id' ↔
      id' = id ∧ .delete .snapshot id' ∉ post := by
  have hactive : (viewOf cipher (base ++ pre ++ [.activate id])).active = some id := by
    rw [viewOf_append_singleton]
    exact if_pos (holds_iff.mp hid)
  rw [← List.append_assoc, List.append_cons, active_of_refused hpost, hactive, Option.some.injEq,
    eq_comm]

/-- Either every activation is refused, or there is a last one that is accepted. -/
theorem exists_last (cipher : Option Cipher) (base l : List (Op S)) :
    Refused cipher base l ∨ ∃ pre id post, l = pre ++ .activate id :: post ∧
      Holds cipher (base ++ pre) id ∧ Refused cipher (base ++ pre ++ [.activate id]) post := by
  induction l generalizing base with
  | nil => exact .inl .nil
  | cons op l ih =>
    obtain hl | ⟨pre, id, post, rfl, hid, hpost⟩ := ih (base ++ [op])
    · by_cases hop : ∀ id, op = .activate id → ¬Holds cipher base id
      · exact .inl (refused_cons.mpr ⟨hop, hl⟩)
      · push Not at hop
        obtain ⟨id, rfl, hid⟩ := hop
        exact .inr ⟨[], id, l, rfl, by rwa [List.append_nil], by rwa [List.append_nil]⟩
    · rw [← List.append_cons] at hid hpost
      exact .inr ⟨op :: pre, id, post, rfl, hid, hpost⟩

theorem active_iff_leavesActive : (viewOf cipher l).active = some id ↔ LeavesActive cipher l id := by
  constructor
  · intro hactive
    obtain hl | ⟨pre, id', post, rfl, hid, hpost⟩ := exists_last cipher [] l
    · cases ((active_of_refused hl).mp hactive).1
    · obtain ⟨rfl, hdelete⟩ := (active_of_last [] hid hpost).mp hactive
      exact ⟨pre, post, rfl, hid, hpost, hdelete⟩
  · rintro ⟨pre, post, rfl, hid, hpost, hdelete⟩
    exact (active_of_last [] hid hpost).mpr ⟨rfl, hdelete⟩

/-- Where the replay accepts nothing, the part of the log that was applied first has accepted nothing. -/
theorem active_done_of_refused (hdone : done <+: log) (h : Refused cipher done log) :
    (viewOf cipher done).active = none := by
  refine Option.eq_none_iff_forall_ne_some.mpr fun id hactive => ?_
  obtain ⟨pre, post, rfl, hid, -, -⟩ := active_iff_leavesActive.mp hactive
  obtain ⟨rest, rfl⟩ := hdone
  exact h pre id (post ++ rest) (by rw [List.append_assoc, List.cons_append]) (hid.append _)

theorem LeavesActive.holds (h : LeavesActive cipher l id) : Holds cipher l id :=
  holds_iff.mpr ((viewOf cipher l).active_saved (active_iff_leavesActive.mpr h))

/-- After an activation that is refused and is followed by none that is accepted, what was active before
it is active until it is deleted. -/
theorem active_of_refused_last (hid : ¬Holds cipher pre id)
    (hpost : Refused cipher (pre ++ [.activate id]) post) :
    (viewOf cipher (pre ++ .activate id :: post)).active = some id' ↔
      LeavesActive cipher pre id' ∧ .delete .snapshot id' ∉ post := by
  have hrefused : Refused cipher pre (.activate id :: post) := by
    refine refused_cons.mpr ⟨?_, hpost⟩
    rintro _ ⟨⟩
    exact hid
  rw [active_of_refused hrefused, active_iff_leavesActive, List.mem_cons, not_or]
  exact and_congr_right fun _ => and_iff_right nofun

/-- The last activation that the replay accepts was refused the first time: the nodes agree only where
neither has an active snapshot. -/
theorem active_eq_iff_of_refused_first (hid : Holds cipher (done ++ pre) id)
    (hpost : Refused cipher (done ++ pre ++ [.activate id]) post) (hfirst : ¬Holds cipher pre id) :
    (viewOf cipher (done ++ (pre ++ .activate id :: post))).active =
        (viewOf cipher (pre ++ .activate id :: post)).active ↔
      .delete .snapshot id ∈ post ∧
        ∀ id', LeavesActive cipher pre id' → .delete .snapshot id' ∈ post := by
  have hreplay (id' : String) :
      (viewOf cipher (done ++ (pre ++ .activate id :: post))).active = some id' ↔
        id' = id ∧ .delete .snapshot id' ∉ post := active_of_last done hid hpost
  rw [List.append_assoc] at hpost
  have honce (id' : String) : (viewOf cipher (pre ++ .activate id :: post)).active = some id' ↔
      LeavesActive cipher pre id' ∧ .delete .snapshot id' ∉ post :=
    active_of_refused_last hfirst hpost.of_append
  constructor
  · intro heq
    refine ⟨?_, fun id' hactive => ?_⟩
    · by_contra hdelete
      have hactive := (hreplay id).mpr ⟨rfl, hdelete⟩
      exact hfirst ((honce id).mp (heq ▸ hactive)).1.holds
    · by_contra hdelete
      have honce' := (honce id').mpr ⟨hactive, hdelete⟩
      obtain ⟨rfl, -⟩ := (hreplay id').mp (heq ▸ honce')
      exact hfirst hactive.holds
  · rintro ⟨hdelete, hactive⟩
    refine Option.ext fun id' => ?_
    rw [hreplay, honce]
    constructor
    · rintro ⟨rfl, hid'⟩
      exact absurd hdelete hid'
    · rintro ⟨hid', hpost'⟩
      exact absurd (hactive id' hid') hpost'

theorem active_eq_iff_unaffected (hdone : done <+: log) :
    (viewOf cipher (done ++ log)).active = (viewOf cipher log).active ↔ Unaffected cipher done log := by
  constructor
  · rintro heq pre id post rfl hid hpost hfirst
    exact (active_eq_iff_of_refused_first hid hpost hfirst).mp heq
  · intro h
    obtain hlog | ⟨pre, id, post, rfl, hid, hpost⟩ := exists_last cipher done log
    · -- No activation is accepted, and both nodes are without an active snapshot.
      have hlog' : Refused cipher [] log := Refused.of_append (by rwa [List.append_nil])
      refine Option.ext fun id => ?_
      rw [active_of_refused hlog, active_done_of_refused hdone hlog]
      refine iff_of_false (fun h => Option.some_ne_none id h.1.symm) fun h => ?_
      exact Option.some_ne_none id ((active_of_refused hlog').mp h).1.symm
    · by_cases hfirst : Holds cipher pre id
      · -- The last activation that the replay accepts is the last that was accepted the first time.
        refine Option.ext fun id' => ?_
        rw [active_of_last done hid hpost]
        rw [List.append_assoc] at hpost
        exact (active_of_last [] hfirst hpost.of_append).symm
      · exact (active_eq_iff_of_refused_first hid hpost hfirst).mpr
          (h pre id post rfl hid hpost hfirst)

end Active

/-! ## When the replay is harmless -/

section Harmless

variable {S : Schema} {cipher : Option Cipher}

/-- A log is replayed without harm exactly if the last activation that the replay accepts was accepted
the first time, or both its snapshot and the one that was active have been deleted by the end. -/
theorem replayAgrees_iff {done log : List Bytes} (h : done <+: log) :
    ReplayAgrees S cipher done log ↔ Unaffected cipher (opsOf S done) (opsOf S log) :=
  (replayAgrees_iff_active h).trans (active_eq_iff_unaffected (h.filterMap _))

/-- A log in which the snapshot is activated after it was saved, replayed where it has been saved. -/
def savedFirst : List Bytes :=
  [utf8 "\x7b\"type\":\"SaveSnapshot\",\"id\":\"a\",\"payload\":\x7b\"id\":\"a\"\x7d\x7d",
    utf8 "\x7b\"type\":\"ActivateSnapshot\",\"id\":\"a\"\x7d"]

/-- A node that was restarted after the first entry, and one that was not. -/
theorem sameValues_savedFirst : ∃ s t t', Lived sampleSchema none savedFirst s ∧
    Ran sampleSchema none savedFirst s t ∧ SameValues sampleSchema none t t' := by
  obtain ⟨s, hs⟩ := exists_new none
  obtain ⟨p, hp⟩ := exists_ran sampleSchema none (savedFirst.take 1) s
  have hlived := Lived.restarted (.new hs) (List.take_prefix 1 _) hp ((represents_of_new hs).ran hp).reopen
  obtain ⟨t, ht⟩ := exists_ran sampleSchema none savedFirst { db := p.db }
  obtain ⟨t', ht'⟩ := exists_ran sampleSchema none savedFirst s
  exact ⟨_, t, t', hlived, ht, sameValues_of_lived hlived ht (.new hs) ht'⟩

theorem replayAgrees_savedFirst : ReplayAgrees sampleSchema none (savedFirst.take 1) savedFirst := by
  refine (replayAgrees_iff (List.take_prefix 1 _)).mpr ?_
  have hops : opsOf sampleSchema savedFirst = [.save .snapshot true, .activate "a"] := rfl
  rw [hops]
  rintro pre id post hlog - - hfirst
  refine absurd ?_ hfirst
  rcases pre with _ | ⟨op, _ | ⟨op', pre⟩⟩
  · cases (List.cons.inj hlog).1
  · obtain ⟨rfl, hrest⟩ := List.cons.inj hlog
    cases (List.cons.inj hrest).1
    exact ⟨_, rfl⟩
  · simp at hlog

/-- A log in which the snapshot is activated before it is saved. -/
def savedLate : List Bytes := savedFirst.reverse

/-- Once the whole log has been applied, the replay activates the snapshot. -/
theorem replay_activates : ¬ReplayAgrees sampleSchema none savedLate savedLate := by
  rw [replayAgrees_iff_active List.prefix_rfl]
  decide +kernel

end Harmless

end Vrata.Store

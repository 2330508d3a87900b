import Vrata.Api.Handlers
import Vrata.Store.View

/-!
# What a snapshot captures

`CreateSnapshot` lists five kinds of entities and then looks up the secrets, each in a transaction of its
own, and other writes can land between them. `captures_of_serial` says when the snapshot is still that of
one state of the store: if there is an instant such that the writes that land until then are of kinds that
have not been read yet, and those that land after it of kinds that are not read any more.
-/

namespace Vrata.Api

open Json (Bytes)
open Store Resolve

/-! ## The call beside other writes -/

section Interleaving

variable {S : Schema} (E : Entities S) (d : Dependencies) (draw : Draw) (cipher : Option Cipher)

/-- The store, the number of calls that the handler has made, and the states that the store has had since
the handler was called. -/
structure Timeline where
  store : Bolt
  calls : ℕ := 0
  past : List Bolt

/-- Another write lands. -/
def Timeline.land (t : Timeline) (w : Op S × Nonce) : Timeline :=
  let b := (w.1.run S cipher w.2 t.store).2
  { t with store := b, past := t.past ++ [b] }

/-- A call of the handler. The writes of `others i` land before its call number `i`, counted from 0. -/
def Timeline.exec (others : ℕ → List (Op S × Nonce)) (nonce : Nonce) (call : Call S) (t : Timeline) :
    call.Result × Timeline :=
  let t := (others t.calls).foldl (Timeline.land cipher) t
  let r := call.exec cipher (fun b => b) (fun op b => op.run S cipher nonce b) t.store
  (r.1, ⟨r.2, t.calls + 1, t.past ++ [r.2]⟩)

/-- The part of the handler that reads: the entities, with the references to secrets resolved. -/
def capture : Client S (Option (Snapshot S)) := do
  match ← buildSnapshot with
  | .error _ => return none
  | .ok snap => return (← resolveSecrets E d snap).toOption

/-- The snapshot of a single state. -/
def captured (b : Bolt) : Option (Snapshot S) := (capture E d).eval (answers cipher b)

/-- If the handler creates a snapshot, its content is that of a state which the store had during the
call. -/
def Captures (start : Bolt) (others : ℕ → List (Op S × Nonce)) (nonce : Nonce) (body : Bytes) : Prop :=
  let r := (createSnapshot E d draw body).run (Timeline.exec cipher others nonce) ⟨start, 0, [start]⟩
  ∀ vs : S.Entity .snapshot, r.1 = ⟨201, .entity vs⟩ →
    ∃ b ∈ r.2.past, ∃ name snap, E.decodeName body = .ok name ∧ captured E d cipher b = some snap ∧
      vs = E.versioned draw.uuid name draw.now snap

/-! ## Writes that do no harm -/

/-- What the reads of the handler are about. -/
def ReadAt (i : ℕ) (k : Kind) : Prop :=
  match k with
  | .listener => i = 0
  | .route => i = 1
  | .group => i = 2
  | .destination => i = 3
  | .middleware => i = 4
  | .secret => 5 ≤ i
  | .snapshot => False

/-- The number of reads. -/
def reads (start : Bolt) (others : ℕ → List (Op S × Nonce)) (nonce : Nonce) : ℕ :=
  ((capture E d).run (Timeline.exec cipher others nonce) ⟨start, 0, [start]⟩).2.calls

/-- A write that lands before the read `i` is early if its kind has not been read yet. -/
def Early (i : ℕ) (op : Op S) : Prop := ∀ i' < i, ¬ReadAt i' op.kind

/-- A write that lands before the read `i` is late if its kind is not read any more. -/
def Late (total i : ℕ) (op : Op S) : Prop := ∀ i', i ≤ i' → i' < total → ¬ReadAt i' op.kind

/-- There is an instant, somewhere among the writes of `others j`, such that the writes until then are
early and those after it are late. -/
def Serial (total : ℕ) (others : ℕ → List (Op S × Nonce)) : Prop :=
  ∃ j < total, ∃ ws ws', others j = ws ++ ws' ∧
    (∀ i < j, ∀ w ∈ others i, Early i w.1) ∧ (∀ w ∈ ws, Early j w.1) ∧
    (∀ w ∈ ws', Late total j w.1) ∧ ∀ i, j < i → ∀ w ∈ others i, Late total i w.1

end Interleaving

/-! ## The states of the store -/

section States

variable {S : Schema} (cipher : Option Cipher) (start : Bolt) (others : ℕ → List (Op S × Nonce))

def landed (ws : List (Op S × Nonce)) (b : Bolt) : Bolt :=
  ws.foldl (fun b w => (w.1.run S cipher w.2 b).2) b

/-- The store before the writes of `others i` land, as long as the handler only reads. -/
def before : ℕ → Bolt
  | 0 => start
  | i + 1 => landed cipher (others i) (before i)

variable {cipher start others} {b : Bolt} {k : Kind} {i j : ℕ}

theorem db_landed {ws : List (Op S × Nonce)} (h : ∀ w ∈ ws, w.1.kind ≠ k) :
    (landed cipher ws b).db k.bucket = b.db k.bucket := by
  induction ws generalizing b with
  | nil => rfl
  | cons w ws ih =>
    obtain ⟨hw, hws⟩ := List.forall_mem_cons.mp h
    exact (ih hws).trans ((w.1.leaves_run cipher w.2 b).db_eq (Op.bucket_notMem hw))

theorem db_before_of_le (hij : i ≤ j) (h : ∀ n, i ≤ n → n < j → ∀ w ∈ others n, w.1.kind ≠ k) :
    (before cipher start others j).db k.bucket = (before cipher start others i).db k.bucket := by
  induction j, hij using Nat.le_induction with
  | base => rfl
  | succ j hij ih =>
    refine (db_landed (h j hij (Nat.lt_succ_self j))).trans (ih fun n hn hnj => ?_)
    exact h n hn (Nat.lt_succ_of_lt hnj)

/-- A read before the instant finds what it would find then: no write of its kind lands in between. -/
theorem db_before_of_early {ws : List (Op S × Nonce)} (hij : i < j) (hread : ReadAt i k)
    (hearly : ∀ n < j, ∀ w ∈ others n, Early n w.1) (hws : ∀ w ∈ ws, Early j w.1) :
    (before cipher start others (i + 1)).db k.bucket =
      (landed cipher ws (before cipher start others j)).db k.bucket := by
  rw [db_landed fun w hw hk => hws w hw i hij (hk ▸ hread)]
  exact (db_before_of_le hij fun n hn hnj w hw hk => hearly n hnj w hw i hn (hk ▸ hread)).symm

/-- A read after the instant finds what it would have found then. -/
theorem db_before_of_late {total : ℕ} {ws ws' : List (Op S × Nonce)} (hji : j ≤ i) (hi : i < total)
    (hread : ReadAt i k) (hsplit : others j = ws ++ ws') (hws : ∀ w ∈ ws', Late total j w.1)
    (hlate : ∀ n, j < n → ∀ w ∈ others n, Late total n w.1) :
    (before cipher start others (i + 1)).db k.bucket =
      (landed cipher ws (before cipher start others j)).db k.bucket := by
  have hj : before cipher start others (j + 1) =
      landed cipher ws' (landed cipher ws (before cipher start others j)) := by
    rw [before, hsplit, landed, landed, landed, List.foldl_append]
  have hrest : (before cipher start others (i + 1)).db k.bucket =
      (before cipher start others (j + 1)).db k.bucket := by
    refine db_before_of_le (Nat.succ_le_succ hji) fun n hn hni w hw hk => ?_
    exact hlate n hn w hw i (Nat.le_of_lt_succ hni) hi (hk ▸ hread)
  rw [hrest, hj]
  exact db_landed fun w hw hk => hws w hw i hji hi (hk ▸ hread)

/-! ## The reads of the handler -/

/-- The call is the read of the kind that is due. -/
def Reads (i : ℕ) : Call S → Prop
  | .list k => k.isSealed = false ∧ ReadAt i k
  | .get .secret _ => ReadAt i .secret
  | _ => False

theorem reads_capture (E : Entities S) (d : Dependencies) : (capture E d).AllAt Reads 0 := by
  have hresolve (snap : Snapshot S) :
      (resolveSecrets E d snap >>= fun r => pure r.toOption).AllAt Reads 5 := by
    have hall : (resolveSecrets E d snap >>= fun r => pure r.toOption).All IsLookup :=
      .bind (isLookup_resolveSecrets E d snap) fun _ => trivial
    refine hall.allAt fun m call hm hcall => ?_
    cases call with
    | get k id =>
      cases k with
      | secret => exact hm
      | _ => exact hcall.elim
    | _ => exact hcall.elim
  refine ⟨⟨rfl, rfl⟩, fun listeners => ?_⟩
  cases listeners with
  | error err => exact trivial
  | ok listeners =>
    refine ⟨⟨rfl, rfl⟩, fun routes => ?_⟩
    cases routes with
    | error err => exact trivial
    | ok routes =>
      refine ⟨⟨rfl, rfl⟩, fun groups => ?_⟩
      cases groups with
      | error err => exact trivial
      | ok groups =>
        refine ⟨⟨rfl, rfl⟩, fun destinations => ?_⟩
        cases destinations with
        | error err => exact trivial
        | ok destinations =>
          refine ⟨⟨rfl, rfl⟩, fun middlewares => ?_⟩
          cases middlewares with
          | error err => exact trivial
          | ok middlewares => exact hresolve _

/-- A read depends only on the bucket of its kind. -/
theorem answers_eq {b b' : Bolt} {call : Call S} (hcall : Reads i call)
    (h : ∀ k, ReadAt i k → b.db k.bucket = b'.db k.bucket) :
    answers cipher b call = answers cipher b' call := by
  cases call with
  | write op => exact hcall.elim
  | list k =>
    obtain ⟨hk, hread⟩ := hcall
    have hlist (noun nouns : String) : listIn S k noun nouns b = listIn S k noun nouns b' := by
      rw [listIn, listIn, h k hread]
    cases k with
    | secret | snapshot => cases hk
    | _ => exact hlist _ _
  | get k id =>
    cases k with
    | secret =>
      change getSecret S cipher id b = getSecret S cipher id b'
      rw [getSecret, getSecret, lookup, lookup, h .secret hcall]
    | _ => exact hcall.elim
  | getActive => exact hcall.elim

/-! ## The run of the handler -/

/-- The handler has made so many reads, and the states that they found are in the past. -/
structure Timeline.At (cipher : Option Cipher) (start : Bolt) (others : ℕ → List (Op S × Nonce)) (n : ℕ)
    (t : Timeline) : Prop where
  calls : t.calls = n
  store : t.store = before cipher start others n
  current : t.store ∈ t.past
  past : ∀ i < n, ∀ ws ws', others i = ws ++ ws' →
    landed cipher ws (before cipher start others i) ∈ t.past

theorem Timeline.foldl_land (ws : List (Op S × Nonce)) (t : Timeline) :
    (ws.foldl (Timeline.land cipher) t).store = landed cipher ws t.store ∧
      (ws.foldl (Timeline.land cipher) t).calls = t.calls := by
  induction ws generalizing t with
  | nil => exact ⟨rfl, rfl⟩
  | cons w ws ih => exact ih (t.land cipher w)

theorem Timeline.past_foldl_land (ws : List (Op S × Nonce)) {t : Timeline} (hb : b ∈ t.past) :
    b ∈ (ws.foldl (Timeline.land cipher) t).past := by
  induction ws generalizing t with
  | nil => exact hb
  | cons w ws ih => exact ih (List.mem_append_left _ hb)

theorem Timeline.landed_mem_past (ws ws' : List (Op S × Nonce)) {t : Timeline}
    (ht : t.store ∈ t.past) :
    landed cipher ws t.store ∈ ((ws ++ ws').foldl (Timeline.land cipher) t).past := by
  induction ws generalizing t with
  | nil => exact past_foldl_land ws' ht
  | cons w ws ih => exact ih (List.mem_append_right _ (List.mem_singleton_self _))

variable (nonce : Nonce) {n : ℕ} {t : Timeline}

theorem Timeline.past_exec (call : Call S) {t : Timeline} (hb : b ∈ t.past) :
    b ∈ (t.exec cipher others nonce call).2.past :=
  List.mem_append_left _ (Timeline.past_foldl_land (others t.calls) hb)

/-- A read. -/
theorem Timeline.At.exec (ht : t.At cipher start others n) {call : Call S} (hcall : IsRead call) :
    (t.exec cipher others nonce call).1 = answers cipher (before cipher start others (n + 1)) call ∧
      (t.exec cipher others nonce call).2.At cipher start others (n + 1) := by
  obtain ⟨hstore, hcalls⟩ := Timeline.foldl_land (others t.calls) t
  have hread (b : Bolt) : call.exec cipher (fun b => b) (fun op b => op.run S cipher nonce b) b =
      (answers cipher b call, b) := by
    cases call with
    | write op => exact hcall.elim
    | list k => cases k <;> rfl
    | get k id => cases k <;> rfl
    | getActive => rfl
  have hafter : ((others t.calls).foldl (Timeline.land cipher) t).store =
      before cipher start others (n + 1) := by
    rw [hstore, ht.store, ht.calls]
    rfl
  simp only [Timeline.exec, hread, hafter]
  refine ⟨trivial, ?_, rfl, List.mem_append_right _ (List.mem_singleton_self _),
    fun i hi ws ws' hsplit => List.mem_append_left _ ?_⟩
  · rw [hcalls, ht.calls]
  · obtain hlt | rfl : i < n ∨ i = n := by omega
    · exact Timeline.past_foldl_land _ (ht.past i hlt ws ws' hsplit)
    · rw [ht.calls, hsplit, ← ht.store]
      exact Timeline.landed_mem_past ws ws' ht.current

theorem Reads.isRead {call : Call S} (h : Reads i call) : IsRead call := by
  cases call with
  | write op => exact h
  | _ => exact trivial

theorem Timeline.At.le_calls {α : Type} {p : Client S α} (ht : t.At cipher start others n)
    (hp : p.AllAt Reads n) : n ≤ (p.run (Timeline.exec cipher others nonce) t).2.calls := by
  induction p generalizing n t with
  | done a => exact ht.calls.ge
  | call c next ih =>
    exact Nat.le_of_succ_le (ih _ (ht.exec nonce hp.1.isRead).2 (hp.2 _))

/-- The reads find what they would find at a single state, if each of them does. -/
theorem Timeline.At.run {α : Type} {p : Client S α} {b : Bolt} (ht : t.At cipher start others n)
    (hp : p.AllAt Reads n)
    (h : ∀ i, n ≤ i → i < (p.run (Timeline.exec cipher others nonce) t).2.calls → ∀ k, ReadAt i k →
      (before cipher start others (i + 1)).db k.bucket = b.db k.bucket) :
    (p.run (Timeline.exec cipher others nonce) t).1 = p.eval (answers cipher b) ∧
      (p.run (Timeline.exec cipher others nonce) t).2.At cipher start others
        (p.run (Timeline.exec cipher others nonce) t).2.calls := by
  induction p generalizing n t with
  | done a => exact ⟨rfl, ht.calls ▸ ht⟩
  | call c next ih =>
    obtain ⟨hanswer, hnext⟩ := ht.exec nonce hp.1.isRead
    have hcalls := hnext.le_calls nonce (hp.2 (t.exec cipher others nonce c).1)
    have hsame : (t.exec cipher others nonce c).1 = answers cipher b c :=
      hanswer.trans (answers_eq hp.1 (h n le_rfl hcalls))
    have hrest := ih _ hnext (hp.2 _) fun i hi => h i (Nat.le_of_succ_le hi)
    refine ⟨hrest.1.trans ?_, hrest.2⟩
    rw [hsame]
    rfl

end States

/-! ## The snapshot -/

section Created

variable {S : Schema} (E : Entities S) (d : Dependencies) (draw : Draw) (cipher : Option Cipher)
  {start : Bolt} {others : ℕ → List (Op S × Nonce)} {nonce : Nonce} {body : Bytes}

/-- A snapshot is created from what has been captured, and its write is the last call. -/
theorem capture_of_created {σ : Type} {exec : (call : Call S) → σ → call.Result × σ} {s : σ}
    {vs : S.Entity .snapshot}
    (h : ((createSnapshot E d draw body).run exec s).1 = ⟨201, .entity vs⟩) :
    ∃ name snap, E.decodeName body = .ok name ∧ ((capture E d).run exec s).1 = some snap ∧
      vs = E.versioned draw.uuid name draw.now snap ∧
      ((createSnapshot E d draw body).run exec s).2 =
        (exec (.write (.save .snapshot vs)) ((capture E d).run exec s).2).2 := by
  unfold createSnapshot at h ⊢
  cases hname : E.decodeName body with
  | error err =>
    rw [hname] at h
    cases h
  | ok name =>
    rw [hname] at h
    by_cases hempty : name = ""
    · simp only [hempty, if_true] at h
      cases h
    · simp only [hempty, if_false, capture, Program.run_bind] at h ⊢
      generalize buildSnapshot.run exec s = built at h ⊢
      obtain ⟨built, s⟩ := built
      cases built with
      | error err => cases h
      | ok snap =>
        simp only [Program.run_bind] at h ⊢
        generalize (resolveSecrets E d snap).run exec s = resolved at h ⊢
        obtain ⟨resolved, s⟩ := resolved
        cases resolved with
        | error err => cases h
        | ok resolved =>
          simp only [Call.request, Program.run_ask_bind, Program.run_pure] at h ⊢
          generalize hr : exec (.write (.save .snapshot
            (E.versioned draw.uuid name draw.now resolved))) s = r at h ⊢
          obtain ⟨result, s⟩ := r
          cases result with
          | error err => cases h
          | ok u =>
            cases h
            refine ⟨name, resolved, rfl, rfl, rfl, ?_⟩
            rw [hr]
            rfl

/-- The snapshot is that of the instant. -/
theorem captures_of_serial (h : Serial (reads E d cipher start others nonce) others) :
    Captures E d draw cipher start others nonce body := by
  intro vs hvs
  obtain ⟨name, snap, hname, hsnap, rfl, hlast⟩ := capture_of_created E d draw hvs
  obtain ⟨j, hj, ws, ws', hsplit, hearly, hws, hws', hlate⟩ := h
  have hstart : Timeline.At cipher start others 0 ⟨start, 0, [start]⟩ :=
    ⟨rfl, rfl, List.mem_singleton_self _, fun i hi => absurd hi (Nat.not_lt_zero i)⟩
  obtain ⟨hresult, hfinal⟩ := hstart.run nonce
    (b := landed cipher ws (before cipher start others j)) (reads_capture E d) fun i _ hi k hread => by
      rcases Nat.lt_or_ge i j with hij | hji
      · exact db_before_of_early hij hread hearly hws
      · exact db_before_of_late hji hi hread hsplit hws' hlate
  refine ⟨_, ?_, name, snap, hname, hresult.symm.trans hsnap, rfl⟩
  rw [hlast]
  exact Timeline.past_exec _ _ (hfinal.past j hj ws ws' hsplit)

end Created

/-! ## A route without its listener -/

section Torn

def letters (vs : List Bool) : Bytes := vs.map fun v => if v then 116 else 102

def ofLetters (text : Bytes) : List Bool := text.map (· == 116)

/-- The text of a snapshot has its lists one after the other. Of the lists, a versioned snapshot keeps
whether there are routes but no listeners. -/
def captureEntities : Entities sampleSchema where
  decodeName _ := .ok "release"
  secretValue _ := ""
  versioned _ _ _ snap := snap.listeners.isEmpty && !snap.routes.isEmpty
  marshalSnapshot snap := some ([44].intercalate [letters snap.listeners, letters snap.routes,
    letters snap.groups, letters snap.destinations, letters snap.middlewares])
  unmarshalSnapshot text :=
    match (text.splitOn 44).map ofLetters with
    | [listeners, routes, groups, destinations, middlewares] =>
      some ⟨listeners, routes, groups, destinations, middlewares⟩
    | _ => none

def sampleDependencies : Dependencies where
  errorText _ := ""
  unresolvedText _ := ""
  host := ⟨fun _ => [], fun _ => none⟩

/-- A listener and then a route, before the read `i`. -/
def pairAt (i n : ℕ) : List (Op sampleSchema × Nonce) :=
  if n = i then [(.save .listener true, sampleNonce), (.save .route true, sampleNonce)] else []

/-- The pair lands before the first read. -/
theorem captures_pairAt_zero : Captures captureEntities sampleDependencies ⟨"u", 0⟩ none {} (pairAt 0)
    sampleNonce [] := by
  refine captures_of_serial captureEntities sampleDependencies ⟨"u", 0⟩ none
    ⟨0, by decide, pairAt 0 0, [], rfl, ?_, ?_, ?_, ?_⟩
  · intro i hi
    exact absurd hi (Nat.not_lt_zero i)
  · intro w _ i hi
    exact absurd hi (Nat.not_lt_zero i)
  · intro w hw
    cases hw
  · intro i hi w hw
    rw [pairAt, if_neg hi.ne'] at hw
    cases hw

/-- The pair lands between the reads of the listeners and of the routes. -/
theorem not_captures_pairAt_one : ¬Captures captureEntities sampleDependencies ⟨"u", 0⟩ none {}
    (pairAt 1) sampleNonce [] := by
  intro h
  obtain ⟨b, hb, name, snap, -, hsnap, htorn⟩ := h true rfl
  have hwhole : ∀ b ∈ ((createSnapshot captureEntities sampleDependencies ⟨"u", 0⟩ []).run
      (Timeline.exec none (pairAt 1) sampleNonce) ⟨{}, 0, [{}]⟩).2.past,
      ∀ snap ∈ captured captureEntities sampleDependencies none b,
        (snap.listeners.isEmpty && !snap.routes.isEmpty) = false := by
    decide
  exact Bool.noConfusion (htorn.trans (hwhole b hb snap hsnap))

end Torn

end Vrata.Api

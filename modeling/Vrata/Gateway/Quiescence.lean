import Vrata.Lib.Runs
import Vrata.Store.Client
import Vrata.Store.Feed

/-!
# The gateway at rest

Reference: `Run` and `rebuild` of `server/internal/gateway/gateway.go`, the watcher of
`server/internal/k8s/watcher.go`, and `runControlPlane` of `server/cmd/vrata/main.go`.

The event loop rebuilds the proxy after every event of the store. The watcher of endpoints rebuilds it
too, in goroutines of its own, after every change that it reports. A rebuild reads the store list by list,
then the endpoints, and then installs a table and the listeners. Nothing keeps two of them apart.

`current_of_serial` says that the gateway at rest shows the store and the endpoints as they are, if no
rebuild starts while another one is running and every change is reported or followed by an event. An event
that is dropped does no harm: the channel is full then, and every event of it leads to a rebuild.
-/

namespace Vrata.Gateway

open Json (Bytes)
open Store Runs

/-! ## A rebuild -/

section Rebuild

variable (S : Schema) (T Ep : Type)

inductive RebuildError where
  | listing (what : String) (err : StoreError)
  | building (err : String)

/-- How a table is built, and how discovered endpoints are put into a destination. -/
structure Builder where
  buildTable : List (S.Entity .route) → List (S.Entity .group) → List (S.Entity .destination) →
    List (S.Entity .middleware) → Except String T
  setEndpoints : S.Entity .destination → List Ep → S.Entity .destination

inductive GatewayCall where
  | read (call : Call S)
  | endpoints
  | swapTable (table : T)
  | reconcile (listeners : List (S.Entity .listener))

@[reducible]
def GatewayCall.Result : GatewayCall S T → Type
  | .read call => call.Result
  | .endpoints => String → List Ep
  | .swapTable _ => Unit
  | .reconcile _ => Unit

/-- The store, the endpoints that the watcher has found, and what is installed. -/
structure Plane where
  store : Bolt
  endpoints : String → List Ep
  table : Option T := none
  listeners : List (S.Entity .listener) := []

variable {S T Ep}

/-- Discovered endpoints take the place of those of the destination. -/
def merge (B : Builder S T Ep) (discovered : String → List Ep) (d : S.Entity .destination) :
    S.Entity .destination :=
  match discovered (S.id d) with
  | [] => d
  | eps => B.setEndpoints d eps

abbrev Rebuilding (S : Schema) (T Ep : Type) : Type → Type :=
  Program (GatewayCall S T) (GatewayCall.Result S T Ep)

def GatewayCall.request (c : GatewayCall S T) : Rebuilding S T Ep (c.Result S T Ep) := Program.ask c

/-- A call whose error is wrapped. -/
def listing {α : Type} (what : String) (p : Rebuilding S T Ep (Except StoreError α)) :
    ExceptT RebuildError (Rebuilding S T Ep) α :=
  ExceptT.mk do return (← p).mapError (.listing what)

def rebuild (B : Builder S T Ep) : Rebuilding S T Ep (Except RebuildError Unit) := ExceptT.run do
  let listeners ← listing "listeners" (GatewayCall.request (.read (.list .listener)))
  let middlewares ← listing "middlewares" (GatewayCall.request (.read (.list .middleware)))
  let groups ← listing "groups" (GatewayCall.request (.read (.list .group)))
  let routes ← listing "routes" (GatewayCall.request (.read (.list .route)))
  let destinations ← listing "destinations" (GatewayCall.request (.read (.list .destination)))
  let discovered ← ExceptT.lift (GatewayCall.request .endpoints)
  let table ← ExceptT.mk (pure ((B.buildTable routes groups
    (destinations.map (merge B discovered)) middlewares).mapError .building))
  ExceptT.lift (GatewayCall.request (.swapTable table))
  ExceptT.lift (GatewayCall.request (.reconcile listeners))

def Plane.exec (cipher : Option Cipher) : (c : GatewayCall S T) → Plane S T Ep →
    c.Result S T Ep × Plane S T Ep
  | .read call, g => (answers cipher g.store call, g)
  | .endpoints, g => (g.endpoints, g)
  | .swapTable table, g => ((), { g with table := some table })
  | .reconcile listeners, g => ((), { g with listeners })

/-- The table and the listeners that belong to the store and the endpoints as they are. -/
def Plane.config (B : Builder S T Ep) (g : Plane S T Ep) :
    Except RebuildError (T × List (S.Entity .listener)) := do
  let listeners ← (listListeners S g.store).mapError (.listing "listeners")
  let middlewares ← (listMiddlewares S g.store).mapError (.listing "middlewares")
  let groups ← (listGroups S g.store).mapError (.listing "groups")
  let routes ← (listRoutes S g.store).mapError (.listing "routes")
  let destinations ← (listDestinations S g.store).mapError (.listing "destinations")
  let table ← (B.buildTable routes groups (destinations.map (merge B g.endpoints))
    middlewares).mapError .building
  return (table, listeners)

/-- In `g'` that is installed which belongs to `g`. -/
def Plane.Shows (B : Builder S T Ep) (g g' : Plane S T Ep) : Prop :=
  ∃ table, g'.table = some table ∧ g.config B = .ok (table, g'.listeners)

variable {B : Builder S T Ep} {cipher : Option Cipher}

/-- A rebuild with nothing in between. -/
theorem run_rebuild (g : Plane S T Ep) :
    (rebuild B).run (Plane.exec cipher) g =
      match g.config B with
      | .error err => (.error err, g)
      | .ok (table, listeners) => (.ok (), { g with table := some table, listeners }) := by
  have hlisteners : (listing "listeners" (GatewayCall.request (.read (.list .listener)))).run.run
      (Plane.exec cipher) g = ((listListeners S g.store).mapError (.listing "listeners"), g) := rfl
  have hmiddlewares : (listing "middlewares" (GatewayCall.request (.read (.list .middleware)))).run.run
      (Plane.exec cipher) g = ((listMiddlewares S g.store).mapError (.listing "middlewares"), g) := rfl
  have hgroups : (listing "groups" (GatewayCall.request (.read (.list .group)))).run.run
      (Plane.exec cipher) g = ((listGroups S g.store).mapError (.listing "groups"), g) := rfl
  have hroutes : (listing "routes" (GatewayCall.request (.read (.list .route)))).run.run
      (Plane.exec cipher) g = ((listRoutes S g.store).mapError (.listing "routes"), g) := rfl
  have hdestinations : (listing "destinations" (GatewayCall.request (.read (.list .destination)))).run.run
      (Plane.exec cipher) g =
        ((listDestinations S g.store).mapError (.listing "destinations"), g) := rfl
  have hendpoints : (ExceptT.lift (GatewayCall.request .endpoints) :
      ExceptT RebuildError (Rebuilding S T Ep) _).run.run (Plane.exec cipher) g =
        (.ok g.endpoints, g) := rfl
  unfold rebuild Plane.config
  rw [Program.run_exceptT_bind, hlisteners]
  cases listListeners S g.store with
  | error err => rfl
  | ok listeners =>
    dsimp only [Except.mapError]
    rw [Program.run_exceptT_bind, hmiddlewares]
    cases listMiddlewares S g.store with
    | error err => rfl
    | ok middlewares =>
      dsimp only [Except.mapError]
      rw [Program.run_exceptT_bind, hgroups]
      cases listGroups S g.store with
      | error err => rfl
      | ok groups =>
        dsimp only [Except.mapError]
        rw [Program.run_exceptT_bind, hroutes]
        cases listRoutes S g.store with
        | error err => rfl
        | ok routes =>
          dsimp only [Except.mapError]
          rw [Program.run_exceptT_bind, hdestinations]
          cases listDestinations S g.store with
          | error err => rfl
          | ok destinations =>
            dsimp only [Except.mapError]
            rw [Program.run_exceptT_bind, hendpoints]
            conv_rhs => dsimp only [bind, Except.bind]
            dsimp only
            rw [Program.run_exceptT_bind]
            cases B.buildTable routes groups (destinations.map (merge B g.endpoints)) middlewares with
            | error err => rfl
            | ok table => rfl

/-- A rebuild that succeeds with nothing in between installs what belongs to the state. -/
theorem shows_rebuild {g : Plane S T Ep} (h : ((rebuild B).run (Plane.exec cipher) g).1 = .ok ()) :
    g.Shows B ((rebuild B).run (Plane.exec cipher) g).2 := by
  rw [run_rebuild] at h ⊢
  cases hconfig : g.config B with
  | error err =>
    rw [hconfig] at h
    cases h
  | ok installed => exact ⟨installed.1, rfl, hconfig⟩

variable (cipher) in
theorem Plane.exec_frame (c : GatewayCall S T) (g : Plane S T Ep) :
    (g.exec cipher c).2.store = g.store ∧ (g.exec cipher c).2.endpoints = g.endpoints := by
  cases c with
  | _ => exact ⟨rfl, rfl⟩

/-- What belongs to the state depends on the store and the endpoints only. -/
theorem Plane.config_exec (c : GatewayCall S T) (g : Plane S T Ep) :
    (g.exec cipher c).2.config B = g.config B := by
  rw [config, config, (g.exec_frame cipher c).1, (g.exec_frame cipher c).2]

end Rebuild

/-! ## The goroutines -/

section System

variable (S : Schema) (T Ep : Type)

/-- A rebuild that is running, in the event loop or in a goroutine of the watcher. -/
structure Thread where
  byLoop : Bool
  rest : Rebuilding S T Ep (Except RebuildError Unit)

structure System where
  feed : Feed
  endpoints : String → List Ep
  table : Option T := none
  listeners : List (S.Entity .listener) := []
  /-- The changes of endpoints that the watcher has yet to report. -/
  notices : ℕ := 0
  /-- The watcher has been told to call `Rebuild`. -/
  onChange : Bool := false
  threads : List (Thread S T Ep) := []
  /-- The result of the last rebuild. -/
  last : Option (Except RebuildError Unit) := none

inductive GatewayAction where
  | commit (op : Op S) (nonce : Nonce)
  | publish (i : ℕ)
  | restore (kept : String → String → Bool) (data : Bytes)
  /-- The watcher finds endpoints, and will report that. -/
  | discover (id : String) (eps : List Ep)
  /-- The watcher drops the endpoints of a destination that it does not watch any more, or of a service
  without a name, and does not report that. -/
  | forget (id : String)
  | setOnChange
  | notifyChange
  /-- The event loop subscribes, and starts its first rebuild. -/
  | start
  /-- The event loop takes an event, and starts a rebuild. -/
  | receive
  /-- A rebuild makes its next call, or ends. -/
  | advance (i : ℕ)

variable {S T Ep} (B : Builder S T Ep) (cipher : Option Cipher)

namespace System

def plane (s : System S T Ep) : Plane S T Ep := ⟨s.feed.store, s.endpoints, s.table, s.listeners⟩

def advance (s : System S T Ep) (i : ℕ) : System S T Ep :=
  match s.threads[i]? with
  | none => s
  | some ⟨_, .done result⟩ => { s with threads := s.threads.eraseIdx i, last := some result }
  | some ⟨byLoop, .call c next⟩ =>
    let r := s.plane.exec cipher c
    { s with
      table := r.2.table
      listeners := r.2.listeners
      threads := s.threads.set i ⟨byLoop, next r.1⟩ }

def step (s : System S T Ep) : GatewayAction S Ep → System S T Ep
  | .commit op nonce => { s with feed := s.feed.commit cipher op nonce }
  | .publish i => { s with feed := s.feed.publish i }
  | .restore kept data => { s with feed := s.feed.restore kept data }
  | .discover id eps =>
    { s with endpoints := Function.update s.endpoints id eps, notices := s.notices + 1 }
  | .forget id => { s with endpoints := Function.update s.endpoints id [] }
  | .setOnChange => { s with onChange := true }
  | .notifyChange =>
    if s.notices = 0 then s
    else
      { s with
        notices := s.notices - 1
        threads := if s.onChange then s.threads ++ [⟨false, rebuild B⟩] else s.threads }
  | .start =>
    if s.feed.channel.isSome then s
    else { s with feed := s.feed.subscribe, threads := s.threads ++ [⟨true, rebuild B⟩] }
  | .receive =>
    if s.threads.any Thread.byLoop then s
    else
      match s.feed.receive with
      | none => s
      | some (_, feed) => { s with feed, threads := s.threads ++ [⟨true, rebuild B⟩] }
  | .advance i => s.advance cipher i

/-- When no rebuild is running, the channel is empty and the last rebuild has not failed, then the table
and the listeners are those of the store and the endpoints as they are. -/
def Current (s : System S T Ep) : Prop :=
  s.threads = [] → s.feed.channel = some [] → s.last = some (.ok ()) → s.plane.Shows B s.plane

/-- Something will start a rebuild: the event loop itself, an event, or a change that is to be
reported. -/
def Due (s : System S T Ep) : Prop :=
  s.feed.channel = none ∨ s.feed.Awaits (fun _ => True) ∨ 0 < s.notices

/-- No rebuild starts while another one is running. What changes the store or the endpoints without an
event or a report comes while a rebuild is due, or changes nothing. -/
def Serial (s : System S T Ep) : GatewayAction S Ep → Prop
  | .restore kept data =>
    s.Due ∨ s.threads = [] ∧
      (s.step B cipher (.restore kept data)).plane.config B = s.plane.config B
  | .forget id => s.Due ∨ s.endpoints id = []
  | .notifyChange =>
    if s.onChange = true then s.threads = []
    else s.feed.channel = none ∨ s.feed.Awaits fun _ => True
  | .start => s.feed.channel = none → s.threads = []
  | .receive => s.threads.any Thread.byLoop = false → s.threads = []
  | _ => True

/-- The last rebuild, or the one that is running, shows the state as it is. -/
def Shown (s : System S T Ep) : Prop :=
  match s.threads with
  | [] => s.last = some (.ok ()) → s.plane.Shows B s.plane
  | t :: _ =>
    (t.rest.run (Plane.exec cipher) s.plane).1 = .ok () →
      s.plane.Shows B (t.rest.run (Plane.exec cipher) s.plane).2

structure Tracks (s : System S T Ep) : Prop where
  single : s.threads.length ≤ 1
  shown : s.Due ∨ s.Shown B cipher

variable {B cipher} {s : System S T Ep}

theorem shown_of_rebuild {byLoop : Bool} (h : s.threads = [⟨byLoop, rebuild B⟩]) : s.Shown B cipher := by
  rw [Shown, h]
  exact shows_rebuild

theorem due_publish (h : s.Due) (i : ℕ) : (s.step B cipher (.publish i)).Due := by
  rcases h with hnone | hawaits | hnotices
  · exact .inl (Feed.channel_publish_of_none hnone i)
  · cases hchannel : s.feed.channel with
    | none => exact .inl (Feed.channel_publish_of_none hchannel i)
    | some ch =>
      -- a full channel has other events
      refine .inr (.inl (hawaits.publish fun ev _ _ => ⟨ch, hchannel, ?_⟩))
      cases ch with
      | nil => exact .inl (by decide)
      | cons ev' ch => exact .inr ⟨ev', List.mem_cons_self, trivial⟩
  · exact .inr (.inr hnotices)

theorem Tracks.commit (h : s.Tracks B cipher) (op : Op S) (nonce : Nonce) :
    (s.step B cipher (.commit op nonce)).Tracks B cipher := by
  rcases s.feed.commit_cases op nonce with hsame | ⟨ev, -, hpending, -⟩
  · rwa [step, hsame]
  · refine ⟨h.single, .inl (.inr (.inl ⟨ev, trivial, .inl ?_⟩))⟩
    rw [step, hpending]
    exact List.mem_append_right _ (List.mem_singleton_self _)

theorem Tracks.publish (h : s.Tracks B cipher) (i : ℕ) :
    (s.step B cipher (.publish i)).Tracks B cipher := by
  refine ⟨h.single, h.shown.imp (due_publish · i) fun hshown => ?_⟩
  have hplane : (s.step B cipher (.publish i)).plane = s.plane := by
    rw [plane, step, Feed.store_publish]
    rfl
  rw [Shown, hplane]
  exact hshown

theorem Tracks.restore (h : s.Tracks B cipher) {kept : String → String → Bool} {data : Bytes}
    (hs : s.Serial B cipher (.restore kept data)) :
    (s.step B cipher (.restore kept data)).Tracks B cipher := by
  refine ⟨h.single, ?_⟩
  rcases hs with hdue | ⟨hidle, hsame⟩
  · exact .inl hdue
  · refine h.shown.imp_right fun hshown => ?_
    unfold Shown at hshown ⊢
    rw [show (s.step B cipher (.restore kept data)).threads = [] from hidle]
    rw [hidle] at hshown
    intro hlast
    obtain ⟨table, htable, hconfig⟩ := hshown hlast
    exact ⟨table, htable, hsame.trans hconfig⟩

theorem Tracks.forget (h : s.Tracks B cipher) {id : String} (hs : s.Serial B cipher (.forget id)) :
    (s.step B cipher (.forget id)).Tracks B cipher := by
  rcases hs with hdue | hempty
  · exact ⟨h.single, .inl hdue⟩
  · rwa [step, ← hempty, Function.update_eq_self]

theorem Tracks.notifyChange (h : s.Tracks B cipher) (hs : s.Serial B cipher .notifyChange) :
    (s.step B cipher .notifyChange).Tracks B cipher := by
  unfold step
  unfold Serial at hs
  by_cases hnone : s.notices = 0
  · rwa [if_pos hnone]
  · rw [if_neg hnone]
    by_cases hset : s.onChange = true
    · rw [if_pos hset] at hs ⊢
      rw [hs]
      exact ⟨Nat.le_refl 1, .inr (shown_of_rebuild rfl)⟩
    · rw [if_neg hset] at hs ⊢
      exact ⟨h.single, .inl (hs.imp_right .inl)⟩

theorem plane_of_call {c : GatewayCall S T} {threads : List (Thread S T Ep)} :
    ({ s with
      table := (s.plane.exec cipher c).2.table
      listeners := (s.plane.exec cipher c).2.listeners
      threads } : System S T Ep).plane = (s.plane.exec cipher c).2 := by
  cases c with
  | _ => rfl

theorem Tracks.eq_singleton (h : s.Tracks B cipher) {i : ℕ} {t : Thread S T Ep}
    (hi : s.threads[i]? = some t) : i = 0 ∧ s.threads = [t] := by
  have hlt := (List.getElem?_eq_some_iff.mp hi).1
  obtain rfl : i = 0 := by
    have hsingle := h.single
    omega
  cases hthreads : s.threads with
  | nil =>
    rw [hthreads] at hi
    cases hi
  | cons t' ts =>
    have hsingle := h.single
    rw [hthreads] at hsingle hi
    obtain rfl : ts = [] := List.eq_nil_of_length_eq_zero (by simpa using hsingle)
    cases hi
    exact ⟨rfl, rfl⟩

theorem Tracks.advance (h : s.Tracks B cipher) (i : ℕ) : (s.advance cipher i).Tracks B cipher := by
  unfold System.advance
  split
  · exact h
  · next byLoop result hi =>
    obtain ⟨rfl, hthreads⟩ := h.eq_singleton hi
    simp only [hthreads]
    refine ⟨Nat.zero_le 1, h.shown.imp_right fun hshown => ?_⟩
    rw [Shown, hthreads] at hshown
    intro hlast
    exact hshown (Option.some.inj hlast)
  · next byLoop c next hi =>
    obtain ⟨rfl, hthreads⟩ := h.eq_singleton hi
    simp only [hthreads]
    refine ⟨Nat.le_refl 1, h.shown.imp_right fun hshown => ?_⟩
    rw [Shown, hthreads] at hshown
    rw [Shown, plane_of_call]
    intro hok
    obtain ⟨table, htable, hconfig⟩ := hshown hok
    exact ⟨table, htable, (Plane.config_exec c s.plane).trans hconfig⟩

theorem Tracks.step (h : s.Tracks B cipher) (a : GatewayAction S Ep) (hs : s.Serial B cipher a) :
    (s.step B cipher a).Tracks B cipher := by
  cases a with
  | commit op nonce => exact h.commit op nonce
  | publish i => exact h.publish i
  | restore kept data => exact h.restore hs
  | discover id eps => exact ⟨h.single, .inl (.inr (.inr (Nat.succ_pos _)))⟩
  | forget id => exact h.forget hs
  | setOnChange => exact ⟨h.single, h.shown⟩
  | notifyChange => exact h.notifyChange hs
  | start =>
    rw [System.step]
    split
    · exact h
    · next hnone =>
      rw [hs (Option.not_isSome_iff_eq_none.mp hnone)]
      exact ⟨Nat.le_refl 1, .inr (shown_of_rebuild rfl)⟩
  | receive =>
    rw [System.step]
    split
    · exact h
    · next hfree =>
      split
      · exact h
      · rw [hs (Bool.eq_false_iff.mpr hfree)]
        exact ⟨Nat.le_refl 1, .inr (shown_of_rebuild rfl)⟩
  | advance i => exact h.advance i

/-- If the rebuilds do not overlap and no change goes unreported, then the gateway at rest shows the
store and the endpoints as they are, as soon as no write and no change is still to be announced. -/
theorem current_of_serial (start : System S T Ep) (hidle : start.threads = [])
    (hnew : start.feed.channel = none) (as : List (GatewayAction S Ep))
    (h : Along (System.step B cipher) (Serial B cipher) start as) :
    Always (System.step B cipher)
      (fun s => s.feed.pending = [] → s.notices = 0 → s.Current B) start as := by
  have htracks : Always (System.step B cipher) (Tracks B cipher) start as :=
    h.always (fun s a hs ha => hs.step a ha) ⟨by rw [hidle]; exact Nat.zero_le 1, .inl (.inl hnew)⟩
  refine htracks.mono fun s hs hpending hnotices hrest hempty hlast => ?_
  rcases hs.shown with (hnone | ⟨ev, -, hmem | ⟨ch, hch, hmem⟩⟩ | hdue) | hshown
  · cases hnone.symm.trans hempty
  · rw [hpending] at hmem
    cases hmem
  · cases hempty.symm.trans hch
    cases hmem
  · exact absurd hnotices hdue.ne'
  · rw [Shown, hrest] at hshown
    exact hshown hlast

end System

end System

/-! ## Two rebuilds at once -/

section Overlap

/-- A table that only knows how many routes it has. -/
def routeCount : Builder sampleSchema ℕ Unit where
  buildTable routes _ _ _ := .ok routes.length
  setEndpoints d _ := d

/-- An empty store, before the event loop starts. -/
def booting : System sampleSchema ℕ Unit where
  feed := ⟨{}, [], none⟩
  endpoints _ := []

/-- A rebuild from its first call to its end. -/
def whole (i : ℕ) : List (GatewayAction sampleSchema Unit) := List.replicate 9 (.advance i)

theorem along_advance (n : ℕ) {s : System sampleSchema ℕ Unit} {as : List (GatewayAction sampleSchema Unit)}
    (h : Along (System.step routeCount none) (System.Serial routeCount none)
      ((List.replicate n (.advance 0)).foldl (System.step routeCount none) s) as) :
    Along (System.step routeCount none) (System.Serial routeCount none) s
      (List.replicate n (.advance 0) ++ as) := by
  induction n generalizing s with
  | zero => exact h
  | succ n ih => exact along_cons.mpr ⟨trivial, ih h⟩

/-- A route is saved after the first rebuild, and the event loop rebuilds the proxy once more. -/
theorem current_booting :
    Always (System.step routeCount none)
      (fun s => s.feed.pending = [] → s.notices = 0 → s.Current routeCount) booting
      (.start :: (whole 0 ++
        .commit (.save .route true) sampleNonce :: .publish 0 :: .receive :: whole 0)) :=
  System.current_of_serial booting rfl rfl _ <| along_cons.mpr ⟨fun _ => rfl, along_advance 9 <|
    along_cons.mpr ⟨trivial, along_cons.mpr ⟨trivial, along_cons.mpr ⟨fun _ => rfl,
      along_advance 9 along_nil⟩⟩⟩⟩

/-- While a rebuild of the watcher has read the store and not yet installed its table, a route is saved,
and the event loop rebuilds the proxy. -/
def overtaking : List (GatewayAction sampleSchema Unit) :=
  [.setOnChange, .start] ++ whole 0 ++ [.discover "d" [], .notifyChange] ++
    List.replicate 6 (.advance 0) ++
    [.commit (.save .route true) sampleNonce, .publish 0, .receive] ++ whole 1 ++
    List.replicate 3 (.advance 0)

def overtaken : System sampleSchema ℕ Unit := overtaking.foldl (System.step routeCount none) booting

/-- The watcher has installed its table last, and it is without the route. -/
theorem not_current_overtaken :
    overtaken.feed.pending = [] ∧ overtaken.notices = 0 ∧ ¬overtaken.Current routeCount := by
  refine ⟨rfl, rfl, fun h => ?_⟩
  obtain ⟨table, htable, hconfig⟩ := h rfl rfl rfl
  obtain rfl : 0 = table := Option.some.inj htable
  cases hconfig

end Overlap

end Vrata.Gateway

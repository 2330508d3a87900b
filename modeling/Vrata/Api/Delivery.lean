import Vrata.Lib.Runs
import Vrata.Store.Feed

/-!
# The stream of active snapshots

`SyncSnapshot` sends the active snapshot, subscribes to the events of the store, and sends the active
snapshot again after every event about a snapshot. Each of these is a step, and other writes, the
publication of their events and the restoring of a dump take place between them.

`delivered_of_heard` says that a handler that waits with an empty channel has sent the active snapshot, if
no event about a snapshot was lost. An event is lost when it is published after the first read and before
the subscription, or when the channel is full of events about other things; and a restored dump has no
event at all. Whatever is lost, nothing is sent that was not active (`active_of_sends`).
-/

namespace Vrata.Api

open Json (Bytes)
open Store Runs

/-! ## The handler -/

/-- What is written on the stream. -/
inductive Push (S : Schema) where
  | snapshot (vs : S.Entity .snapshot)
  | keepalive

/-- The events of the stream. A snapshot that cannot be encoded is not written. -/
def Push.text {S : Schema} : Push S → Option Bytes
  | .snapshot vs =>
    (S.marshal vs).map fun data => utf8 "event: snapshot\ndata: " ++ data ++ utf8 "\n\n"
  | .keepalive => some (utf8 ": keepalive\n\n")

def Push.snapshot? {S : Schema} : Push S → Option (S.Entity .snapshot)
  | .snapshot vs => some vs
  | .keepalive => none

/-- Where the handler stands. The first snapshot is sent before the subscription. -/
inductive Phase (S : Schema) where
  | connecting
  | greeting (vs : S.Entity .snapshot)
  | subscribing
  | waiting
  /-- An event about a snapshot has been received. -/
  | notified
  | sending (vs : S.Entity .snapshot)
  | closed

structure Connection (S : Schema) where
  feed : Feed
  phase : Phase S := .connecting
  written : List (Push S) := []

inductive StreamAction (S : Schema) where
  | commit (op : Op S) (nonce : Nonce)
  | publish (i : ℕ)
  | restore (kept : String → String → Bool) (data : Bytes)
  /-- The handler goes on, or takes an event from the channel. -/
  | proceed
  | heartbeat
  | disconnect

namespace Connection

variable {S : Schema} (cipher : Option Cipher)

/-- `sendActiveSnapshot` reads in one step, and encodes and writes in the next. If the first snapshot
cannot be sent, that is only logged; later the handler returns. -/
def proceed (c : Connection S) : Connection S :=
  match c.phase with
  | .connecting =>
    match getActiveSnapshot S cipher c.feed.store with
    | .ok vs => { c with phase := .greeting vs }
    | .error _ => { c with phase := .subscribing }
  | .greeting vs =>
    match S.marshal vs with
    | none => { c with phase := .subscribing }
    | some _ => { c with phase := .subscribing, written := c.written ++ [.snapshot vs] }
  | .subscribing => { c with feed := c.feed.subscribe, phase := .waiting }
  | .waiting =>
    match c.feed.receive with
    | none => c
    | some (ev, feed) =>
      { c with feed, phase := if ev.resource = .snapshot then .notified else .waiting }
  | .notified =>
    match getActiveSnapshot S cipher c.feed.store with
    | .ok vs => { c with phase := .sending vs }
    | .error .noActiveSnapshot => { c with phase := .waiting }
    | .error _ => { c with phase := .closed }
  | .sending vs =>
    match S.marshal vs with
    | none => { c with phase := .closed }
    | some _ => { c with phase := .waiting, written := c.written ++ [.snapshot vs] }
  | .closed => c

def step (c : Connection S) : StreamAction S → Connection S
  | .commit op nonce => { c with feed := c.feed.commit cipher op nonce }
  | .publish i => { c with feed := c.feed.publish i }
  | .restore kept data => { c with feed := c.feed.restore kept data }
  | .proceed => c.proceed cipher
  | .heartbeat =>
    match c.phase with
    | .waiting => { c with written := c.written ++ [.keepalive] }
    | _ => c
  | .disconnect => { c with phase := .closed }

/-- The last snapshot on the stream. -/
def last (c : Connection S) : Option (S.Entity .snapshot) :=
  (c.written.filterMap Push.snapshot?).getLast?

/-- When the handler waits with an empty channel, it has sent the active snapshot. -/
def Delivered (c : Connection S) : Prop :=
  c.phase = .waiting → c.feed.channel = some [] →
    ∀ vs, getActiveSnapshot S cipher c.feed.store = .ok vs → c.last = some vs

end Connection

/-! ## Events that are heard -/

section Heard

variable {S : Schema} (cipher : Option Cipher)

def aboutSnapshot (ev : StoreEvent) : Prop := ev.resource = .snapshot

/-- The handler will read the active snapshot before it waits again, or it is gone. -/
def Phase.Looks : Phase S → Prop
  | .connecting | .notified | .closed => True
  | _ => False

/-- No event about a snapshot is lost: the handler still looks, or it hears the event. A dump that is
restored leaves the active snapshot as it is, unless an event makes the handler look. The first snapshot
can be encoded. -/
def Heard (c : Connection S) : StreamAction S → Prop
  | .publish i => c.phase.Looks ∨ c.feed.Hears aboutSnapshot i
  | .restore kept data =>
    c.phase.Looks ∨ c.feed.Awaits aboutSnapshot ∨
      getActiveSnapshot S cipher (c.feed.restore kept data).store =
        getActiveSnapshot S cipher c.feed.store
  | .proceed => ∀ vs, c.phase = .greeting vs → (S.marshal vs).isSome
  | _ => True

/-- The snapshot that has been sent or is being sent. -/
def Connection.shown (c : Connection S) : Option (S.Entity .snapshot) :=
  match c.phase with
  | .greeting vs | .sending vs => some vs
  | _ => c.last

/-- What the handler has sent is the active snapshot, or it will learn that it is not. -/
def Connection.Current (c : Connection S) : Prop :=
  c.phase.Looks ∨ c.feed.Awaits aboutSnapshot ∨
    ∀ vs, getActiveSnapshot S cipher c.feed.store = .ok vs → c.shown = some vs

/-- There is no channel before the subscription. -/
def Connection.Unsubscribed (c : Connection S) : Prop :=
  match c.phase with
  | .connecting | .greeting _ | .subscribing => c.feed.channel = none
  | _ => True

variable {cipher} {c : Connection S}

theorem Connection.last_write (feed : Feed) (phase : Phase S) (written : List (Push S))
    (vs : S.Entity .snapshot) :
    (⟨feed, phase, written ++ [.snapshot vs]⟩ : Connection S).last = some vs := by
  simp [Connection.last, Push.snapshot?]

theorem Connection.Current.commit (h : c.Current cipher) (op : Op S) (nonce : Nonce) :
    (c.step cipher (.commit op nonce)).Current cipher := by
  rcases h with hlooks | hawaits | hshown
  · exact .inl hlooks
  · exact .inr (.inl (hawaits.commit op nonce))
  · rcases c.feed.commit_cases op nonce with hsame | ⟨ev, hev, hpending, -, hleaves⟩
    · exact .inr (.inr (by rwa [Connection.step, hsame]))
    · by_cases hkind : op.kind = .snapshot
      · refine .inr (.inl ⟨ev, hev.trans hkind, .inl ?_⟩)
        rw [Connection.step, hpending]
        exact List.mem_append_right _ (List.mem_singleton_self _)
      · refine .inr (.inr fun vs hvs => hshown vs ?_)
        rwa [← hleaves.getActiveSnapshot_eq hkind]

theorem Connection.Current.proceed (h : c.Current cipher) (hc : c.Unsubscribed)
    (hheard : Heard cipher c .proceed) : (c.proceed cipher).Current cipher := by
  obtain ⟨feed, phase, written⟩ := c
  unfold Connection.proceed
  cases phase with
  | connecting =>
    dsimp only
    cases hactive : getActiveSnapshot S cipher feed.store with
    | ok vs => exact .inr (.inr fun vs' hvs' => congrArg some (Except.ok.inj (hactive.symm.trans hvs')))
    | error e => exact .inr (.inr fun vs' hvs' => nomatch hactive.symm.trans hvs')
  | greeting vs =>
    obtain ⟨data, hdata⟩ := Option.isSome_iff_exists.mp (hheard vs rfl)
    simp only [hdata]
    rcases h with hlooks | hawaits | hshown
    · exact hlooks.elim
    · exact .inr (.inl hawaits)
    · refine .inr (.inr fun vs' hvs' => ?_)
      rw [← hshown vs' hvs']
      exact Connection.last_write ..
  | subscribing =>
    rcases h with hlooks | ⟨ev, hev, hpending | ⟨ch, hch, -⟩⟩ | hshown
    · exact hlooks.elim
    · exact .inr (.inl ⟨ev, hev, .inl hpending⟩)
    · exact nomatch hch.symm.trans hc
    · exact .inr (.inr hshown)
  | waiting =>
    dsimp only
    cases hreceive : feed.receive with
    | none => exact h
    | some received =>
      obtain ⟨ev, feed'⟩ := received
      dsimp only
      split
      · exact .inl trivial
      · next hev =>
        rcases h with hlooks | hawaits | hshown
        · exact hlooks.elim
        · exact .inr (.inl ((hawaits.receive hreceive).resolve_left hev))
        · refine .inr (.inr fun vs hvs => hshown vs ?_)
          rwa [Feed.store_of_receive hreceive] at hvs
  | notified =>
    dsimp only
    cases hactive : getActiveSnapshot S cipher feed.store with
    | ok vs => exact .inr (.inr fun vs' hvs' => congrArg some (Except.ok.inj (hactive.symm.trans hvs')))
    | error e =>
      split
      · next hok => cases hok
      · exact .inr (.inr fun vs' hvs' => nomatch hactive.symm.trans hvs')
      · exact .inl trivial
  | sending vs =>
    dsimp only
    cases hdata : S.marshal vs with
    | none => exact .inl trivial
    | some data =>
      rcases h with hlooks | hawaits | hshown
      · exact hlooks.elim
      · exact .inr (.inl hawaits)
      · refine .inr (.inr fun vs' hvs' => ?_)
        rw [← hshown vs' hvs']
        exact Connection.last_write ..
  | closed => exact .inl trivial

theorem Connection.Current.step (h : c.Current cipher) (hc : c.Unsubscribed) (a : StreamAction S)
    (hheard : Heard cipher c a) : (c.step cipher a).Current cipher := by
  cases a with
  | commit op nonce => exact h.commit op nonce
  | publish i =>
    rcases h with hlooks | hawaits | hshown
    · exact .inl hlooks
    · exact hheard.imp_right fun hears => .inl (hawaits.publish hears)
    · refine .inr (.inr ?_)
      rwa [Connection.step, Feed.store_publish]
  | restore kept data =>
    rcases hheard with hlooks | hawaits | hsame
    · exact .inl hlooks
    · exact .inr (.inl hawaits)
    · rcases h with hlooks | hawaits | hshown
      · exact .inl hlooks
      · exact .inr (.inl hawaits)
      · exact .inr (.inr fun vs hvs => hshown vs (hsame.symm.trans hvs))
  | proceed => exact h.proceed hc hheard
  | heartbeat =>
    obtain ⟨feed, phase, written⟩ := c
    cases phase with
    | waiting =>
      rcases h with hlooks | hawaits | hshown
      · exact hlooks.elim
      · exact .inr (.inl hawaits)
      · refine .inr (.inr fun vs hvs => ?_)
        rw [← hshown vs hvs]
        simp [Connection.step, Connection.shown, Connection.last, Push.snapshot?]
    | _ => exact h
  | disconnect => exact .inl trivial

theorem Connection.Unsubscribed.proceed (h : c.Unsubscribed) : (c.proceed cipher).Unsubscribed := by
  obtain ⟨feed, phase, written⟩ := c
  unfold Connection.proceed
  cases phase with
  | connecting | greeting vs =>
    dsimp only
    split
    · exact h
    · exact h
  | waiting =>
    dsimp only
    split
    · exact trivial
    · split
      · exact trivial
      · exact trivial
  | notified =>
    dsimp only
    split
    · exact trivial
    · exact trivial
    · exact trivial
  | sending vs =>
    dsimp only
    split
    · exact trivial
    · exact trivial
  | _ => exact trivial

theorem Connection.Unsubscribed.step (h : c.Unsubscribed) (a : StreamAction S) :
    (c.step cipher a).Unsubscribed := by
  cases a with
  | publish i =>
    obtain ⟨feed, phase, written⟩ := c
    cases phase with
    | connecting | greeting vs | subscribing => exact Feed.channel_publish_of_none h i
    | _ => exact trivial
  | proceed => exact h.proceed
  | heartbeat =>
    obtain ⟨feed, phase, written⟩ := c
    cases phase with
    | waiting => exact trivial
    | _ => exact h
  | disconnect => exact trivial
  | _ => exact h

/-- If no event about a snapshot is lost, then the active snapshot has been sent whenever the handler
waits with an empty channel and no snapshot has been written whose event is still to be published. -/
theorem delivered_of_heard (store : Bolt) (pending : List StoreEvent) (as : List (StreamAction S))
    (h : Along (Connection.step cipher) (Heard cipher) ⟨⟨store, pending, none⟩, .connecting, []⟩ as) :
    Always (Connection.step cipher)
      (fun c => (∀ ev ∈ c.feed.pending, ¬aboutSnapshot ev) → c.Delivered cipher)
      ⟨⟨store, pending, none⟩, .connecting, []⟩ as := by
  have hcurrent : Always (Connection.step cipher)
      (fun c : Connection S => c.Current cipher ∧ c.Unsubscribed)
      ⟨⟨store, pending, none⟩, .connecting, []⟩ as :=
    h.always (fun c a hc ha => ⟨hc.1.step hc.2 a ha, hc.2.step a⟩) ⟨.inl trivial, rfl⟩
  refine hcurrent.mono fun c hc hpending hwaiting hempty vs hvs => ?_
  obtain ⟨feed, phase, written⟩ := c
  cases hwaiting
  rcases hc.1 with hlooks | ⟨ev, hev, hmem | ⟨ch, hch, hmem⟩⟩ | hshown
  · exact hlooks.elim
  · exact absurd hev (hpending ev hmem)
  · cases hempty.symm.trans hch
    cases hmem
  · exact hshown vs hvs

/-- The snapshot is on the stream, or about to be. -/
def Connection.Sends (c : Connection S) (vs : S.Entity .snapshot) : Prop :=
  .snapshot vs ∈ c.written ∨ c.phase = .greeting vs ∨ c.phase = .sending vs

/-- Only the active snapshot is taken up. -/
theorem Connection.Sends.of_step {a : StreamAction S} {vs : S.Entity .snapshot}
    (h : (c.step cipher a).Sends vs) : c.Sends vs ∨ getActiveSnapshot S cipher c.feed.store = .ok vs := by
  obtain ⟨feed, phase, written⟩ := c
  unfold Sends at h ⊢
  cases a with
  | commit | publish | restore => exact .inl h
  | disconnect | heartbeat => cases phase <;> simp_all [Connection.step]
  | proceed => cases phase <;> grind [Connection.step, Connection.proceed]

/-- Every snapshot on the stream has been the active one since the connection was made. -/
theorem active_of_sends {feed : Feed} {as : List (StreamAction S)} {vs : S.Entity .snapshot}
    (h : (as.foldl (Connection.step cipher) ⟨feed, .connecting, []⟩).Sends vs) : ∃ done, done <+: as ∧
      getActiveSnapshot S cipher
        (done.foldl (Connection.step cipher) ⟨feed, .connecting, []⟩).feed.store = .ok vs := by
  induction as using List.reverseRecOn with
  | nil => simp [Connection.Sends] at h
  | append_singleton as a ih =>
    rw [List.foldl_concat] at h
    rcases h.of_step with h | h
    · obtain ⟨done, hdone, hactive⟩ := ih h
      exact ⟨done, hdone.trans (List.prefix_append as [a]), hactive⟩
    · exact ⟨as, List.prefix_append as [a], h⟩

end Heard

/-! ## An activation before the subscription -/

section Missed

/-- A snapshot is activated, and its events are published, before a handler connects. -/
def activation : List (StreamAction sampleSchema) :=
  [.commit (.save .snapshot true) sampleNonce, .publish 0, .commit (.activate "a") sampleNonce, .publish 0]

/-- The same after the handler has subscribed: it hears of the snapshot and sends it. -/
theorem delivered_activation : Always (Connection.step none)
    (fun c => (∀ ev ∈ c.feed.pending, ¬aboutSnapshot ev) → c.Delivered none)
    ⟨⟨{}, [], none⟩, .connecting, []⟩
    (.proceed :: .proceed :: (activation ++ List.replicate 6 .proceed)) := by
  have hproceed : ∀ c : Connection sampleSchema, Heard none c .proceed := fun _ _ _ => rfl
  refine delivered_of_heard {} [] _ (along_cons.mpr ⟨hproceed _, along_cons.mpr ⟨hproceed _,
    along_cons.mpr ⟨trivial, along_cons.mpr ⟨.inr fun _ _ _ => ⟨[], rfl, .inl (by decide)⟩,
    along_cons.mpr ⟨trivial, along_cons.mpr ⟨.inr fun _ _ _ => ⟨_, rfl, .inl (by decide)⟩, ?_⟩⟩⟩⟩⟩⟩)
  intro done a h
  have ha := h.subset (List.mem_append_right done (List.mem_singleton_self a))
  rw [List.eq_of_mem_replicate ha]
  exact hproceed _

theorem active_activation : ∃ done, done <+: activation ++ [.proceed, .proceed] ∧
    getActiveSnapshot sampleSchema none
      (done.foldl (Connection.step none) ⟨⟨{}, [], none⟩, .connecting, []⟩).feed.store = .ok true :=
  active_of_sends (.inl (.head _))

/-- A snapshot is activated after the first read and before the subscription. -/
def missedActivation : Connection sampleSchema :=
  (StreamAction.proceed :: (activation ++ [StreamAction.proceed])).foldl (Connection.step none)
    ⟨⟨{}, [], none⟩, .connecting, []⟩

/-- It is not sent, although its events have been published. -/
theorem not_delivered_missedActivation :
    missedActivation.feed.pending = [] ∧ ¬missedActivation.Delivered none := by
  refine ⟨rfl, fun h => ?_⟩
  cases h rfl rfl true rfl

end Missed

end Vrata.Api

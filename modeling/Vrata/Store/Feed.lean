import Vrata.Store.Compaction

/-!
# The events of a subscriber

A write is committed first and its event is published after that, so between the two the store is ahead
of its subscribers. An event is dropped by a subscriber whose channel is full, and nothing is published
when a dump is restored.

A subscriber is safe as long as an event that it acts on is under way whenever it has something to do.
`Feed.Awaits` says so, and the lemmas of this module say which steps keep it.
-/

namespace Vrata.Store

open Json (Bytes)

/-- The capacity of the channel of a subscriber. -/
def channelSize : ℕ := 32

/-- The store as one subscriber sees it. -/
structure Feed where
  store : Bolt
  /-- The events of the writes that have been committed and not yet published. -/
  pending : List StoreEvent := []
  /-- The channel, once there is a subscription. -/
  channel : Option (List StoreEvent) := none

namespace Feed

section Steps

variable {S : Schema} (cipher : Option Cipher)

def commit (f : Feed) (op : Op S) (nonce : Nonce) : Feed :=
  let b := (op.run S cipher nonce f.store).2
  { f with store := b, pending := f.pending ++ b.published.drop f.store.published.length }

/-- A full channel drops the event. -/
def deliver (ev : StoreEvent) (ch : List StoreEvent) : List StoreEvent :=
  if ch.length < channelSize then ch ++ [ev] else ch

/-- One of the writers publishes its event. -/
def publish (f : Feed) (i : ℕ) : Feed :=
  match f.pending[i]? with
  | none => f
  | some ev => { f with pending := f.pending.eraseIdx i, channel := f.channel.map (deliver ev) }

def restore (f : Feed) (kept : String → String → Bool) (data : Bytes) : Feed :=
  { f with store := (Store.restore kept data f.store).2 }

def subscribe (f : Feed) : Feed := { f with channel := some [] }

/-- The subscriber takes the next event. -/
def receive (f : Feed) : Option (StoreEvent × Feed) :=
  match f.channel with
  | some (ev :: ch) => some (ev, { f with channel := some ch })
  | _ => none

end Steps

/-! ## Events that are under way -/

section Awaits

variable {S : Schema} {cipher : Option Cipher} {P : StoreEvent → Prop} {f : Feed}

/-- An event with the property has not reached the subscriber and will. -/
def Awaits (P : StoreEvent → Prop) (f : Feed) : Prop :=
  ∃ ev, P ev ∧ (ev ∈ f.pending ∨ ∃ ch, f.channel = some ch ∧ ev ∈ ch)

/-- If the event has the property, it is not lost: there is room for it in the channel, or the channel
has another one. -/
def Hears (P : StoreEvent → Prop) (f : Feed) (i : ℕ) : Prop :=
  ∀ ev, f.pending[i]? = some ev → P ev →
    ∃ ch, f.channel = some ch ∧ (ch.length < channelSize ∨ ∃ ev' ∈ ch, P ev')

/-- A write that is refused changes nothing. -/
theorem commit_cases (f : Feed) (op : Op S) (nonce : Nonce) :
    f.commit cipher op nonce = f ∨
      ∃ ev, ev.resource = op.kind ∧ (f.commit cipher op nonce).pending = f.pending ++ [ev] ∧
        (f.commit cipher op nonce).channel = f.channel ∧
        op.Leaves f.store (f.commit cipher op nonce).store := by
  have hleaves := op.leaves_run cipher nonce f.store
  rcases hleaves with hsame | ⟨⟨ev, hev, hpublished⟩, hdb⟩
  · left
    rw [commit, hsame, List.drop_length, List.append_nil]
  · right
    refine ⟨ev, hev, ?_, rfl, op.leaves_run cipher nonce f.store⟩
    rw [commit, hpublished, List.drop_left]

theorem Awaits.commit (h : f.Awaits P) (op : Op S) (nonce : Nonce) :
    (f.commit cipher op nonce).Awaits P := by
  obtain ⟨ev, hev, hpending | hchannel⟩ := h
  · exact ⟨ev, hev, .inl (List.mem_append_left _ hpending)⟩
  · exact ⟨ev, hev, .inr hchannel⟩

theorem mem_deliver {ev x : StoreEvent} {ch : List StoreEvent} (hx : x ∈ ch) : x ∈ deliver ev ch := by
  unfold deliver
  split
  · exact List.mem_append_left _ hx
  · exact hx

theorem Awaits.publish {i : ℕ} (h : f.Awaits P) (hi : f.Hears P i) : (f.publish i).Awaits P := by
  unfold Feed.publish
  cases hpublished : f.pending[i]? with
  | none => exact h
  | some ev =>
    have hchannel {ch : List StoreEvent} {x : StoreEvent} (hch : f.channel = some ch)
        (hx : x ∈ deliver ev ch) (hP : P x) :
        Awaits P { f with pending := f.pending.eraseIdx i, channel := f.channel.map (deliver ev) } :=
      ⟨x, hP, .inr ⟨deliver ev ch, congrArg (Option.map (deliver ev)) hch, hx⟩⟩
    obtain ⟨x, hP, hpending | ⟨ch, hch, hx⟩⟩ := h
    · obtain ⟨j, hj⟩ := List.mem_iff_getElem?.mp hpending
      by_cases hji : j = i
      · obtain rfl : ev = x := Option.some.inj (hpublished.symm.trans (hji ▸ hj))
        obtain ⟨ch, hch, hroom | ⟨ev', hev', hP'⟩⟩ := hi ev hpublished hP
        · refine hchannel hch ?_ hP
          rw [deliver, if_pos hroom]
          exact List.mem_append_right _ (List.mem_singleton_self _)
        · exact hchannel hch (mem_deliver hev') hP'
      · exact ⟨x, hP, .inl (List.mem_eraseIdx_iff_getElem?.mpr ⟨j, hji, hj⟩)⟩
    · exact hchannel hch (mem_deliver hx) hP

theorem store_publish (f : Feed) (i : ℕ) : (f.publish i).store = f.store := by
  unfold Feed.publish
  split
  · rfl
  · rfl

theorem channel_publish_of_none (h : f.channel = none) (i : ℕ) : (f.publish i).channel = none := by
  unfold Feed.publish
  split
  · exact h
  · rw [h]
    rfl

theorem store_of_receive {ev : StoreEvent} {f' : Feed} (h : f.receive = some (ev, f')) :
    f'.store = f.store := by
  unfold Feed.receive at h
  split at h
  · cases h
    rfl
  · cases h

theorem Awaits.receive {ev : StoreEvent} {f' : Feed} (h : f.Awaits P)
    (hreceive : f.receive = some (ev, f')) : P ev ∨ f'.Awaits P := by
  unfold Feed.receive at hreceive
  split at hreceive
  · next ev ch hch =>
    cases hreceive
    obtain ⟨x, hP, hpending | ⟨ch', hch', hx⟩⟩ := h
    · exact .inr ⟨x, hP, .inl hpending⟩
    · cases hch.symm.trans hch'
      rcases List.mem_cons.mp hx with rfl | hx
      · exact .inl hP
      · exact .inr ⟨x, hP, .inr ⟨ch, rfl, hx⟩⟩
  · cases hreceive

end Awaits

end Feed

end Vrata.Store

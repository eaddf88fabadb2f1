import Mathlib.Data.List.Basic

/-!
# A watch channel

A channel that carries no value, only the fact that it was written: senders raise a version, and a receiver remembers
the version it has seen last.

- `Channel.send` on a channel without receivers drops the notification;
- `Channel.subscribe` gives a receiver that has already seen the current version (`not_unseen_subscribe`);
- a notification sent to a subscribed receiver stays unseen until that receiver takes it (`unseen_send`).
-/

namespace Lib.Watch

/-- A watch channel: the version of the value and the number of live receivers. -/
structure Channel where
  version : Nat
  receivers : Nat
  deriving DecidableEq, Repr

/-- A receiver, with the version it has seen. -/
structure Receiver where
  seen : Nat
  deriving DecidableEq, Repr

/-- A new channel and its first receiver. -/
def channel : Channel × Receiver := (⟨0, 1⟩, ⟨0⟩)

/-- A receiver goes out of scope. -/
def Channel.dropReceiver (c : Channel) : Channel := { c with receivers := c.receivers - 1 }

/-- Send: with no live receiver the value is handed back and the channel keeps its version. -/
def Channel.send (c : Channel) : Channel := if c.receivers = 0 then c else { c with version := c.version + 1 }

/-- A new receiver of the channel; the current version counts as seen. -/
def Channel.subscribe (c : Channel) : Channel × Receiver := ({ c with receivers := c.receivers + 1 }, ⟨c.version⟩)

/-- The channel has a version that the receiver has not seen. -/
def Receiver.unseen (r : Receiver) (c : Channel) : Bool := r.seen != c.version

/-- `changed()`: ready when there is an unseen version, which it marks as seen. -/
def Receiver.changed (r : Receiver) (c : Channel) : Option Receiver := if r.unseen c then some ⟨c.version⟩ else none

/-- A receiver of this channel: it is counted, and it has seen no version that was not sent. -/
structure Receiver.Of (r : Receiver) (c : Channel) : Prop where
  counted : 0 < c.receivers
  seen_le : r.seen ≤ c.version

variable {c : Channel} {r : Receiver}

theorem unseen_iff : r.unseen c = true ↔ r.seen ≠ c.version := by simp [Receiver.unseen]

theorem send_of_receiver (h : 0 < c.receivers) : c.send = { c with version := c.version + 1 } := by
  simp [Channel.send, Nat.ne_of_gt h]

@[simp] theorem receivers_send (c : Channel) : c.send.receivers = c.receivers := by
  unfold Channel.send
  split <;> rfl

/-- A sent notification is unseen by every receiver of the channel. -/
theorem unseen_send (h : r.Of c) : r.unseen c.send = true := by
  rw [unseen_iff, send_of_receiver h.counted]
  have := h.seen_le
  simp only
  omega

/-- Sending keeps receivers. -/
theorem of_send (h : r.Of c) : r.Of c.send := by
  refine ⟨by rw [receivers_send]; exact h.counted, ?_⟩
  rw [send_of_receiver h.counted]
  exact Nat.le_succ_of_le h.seen_le

/-- A new receiver is a receiver of the channel. -/
theorem of_subscribe (c : Channel) : c.subscribe.2.Of c.subscribe.1 := ⟨Nat.succ_pos _, Nat.le_refl _⟩

/-- What was sent before the subscription is not seen as a change. -/
theorem not_unseen_subscribe (c : Channel) : c.subscribe.2.unseen c.subscribe.1 = false := by
  simp [Receiver.unseen, Channel.subscribe]

/-- `changed()` is ready exactly when there is something unseen, and leaves nothing unseen. -/
theorem changed_eq_some {r' : Receiver} :
    r.changed c = some r' ↔ r.unseen c = true ∧ r' = ⟨c.version⟩ := by
  unfold Receiver.changed
  split
  · rename_i h
    simp [h, eq_comm]
  · rename_i h
    simp [h]

/-- The receiver after `changed()` is a receiver of the channel. -/
theorem of_changed {r' : Receiver} (h : r.Of c) (hc : r.changed c = some r') : r'.Of c := by
  obtain ⟨_, rfl⟩ := changed_eq_some.1 hc
  exact ⟨h.counted, Nat.le_refl _⟩

end Lib.Watch

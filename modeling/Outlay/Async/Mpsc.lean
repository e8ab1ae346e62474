import Mathlib

/-!
# Bounded queues

A bounded queue with many senders and one receiver, first in first out. A sender
waits while the queue is full; once the receiver is dropped every send fails.

The queue is modelled by the values its receiver has `received` and those still
queued, so that what was ever `sent` is their concatenation: sending extends it
(`sent_of_send`), receiving does not change it (`sent_recv`), and the values
received are always a prefix of it (`received_isPrefix`).
-/

namespace Async

/-- A bounded queue: the values received, those queued, and whether the receiver
    is still there. -/
structure Mpsc (α : Type*) where
  /-- The values received, oldest first. -/
  received : List α
  /-- The values queued, oldest first. -/
  queue : List α
  /-- The receiver has not been dropped. -/
  alive : Bool

namespace Mpsc

variable {α : Type*}

/-- A fresh queue. -/
def fresh : Mpsc α := ⟨[], [], true⟩

/-- Every value accepted, oldest first. -/
def sent (ch : Mpsc α) : List α := ch.received ++ ch.queue

/-- Sending a value through a buffer of capacity `cap`: whether it was accepted,
    and the queue after that; `none` while the sender waits. -/
def send (ch : Mpsc α) (cap : ℕ) (v : α) : Option (Bool × Mpsc α) :=
  if ch.alive then
    if ch.queue.length < cap then some (true, { ch with queue := ch.queue ++ [v] }) else none
  else some (false, ch)

/-- Receiving the oldest value queued; `none` if there is none. -/
def recv (ch : Mpsc α) : Option (α × Mpsc α) :=
  match ch.queue with
  | [] => none
  | v :: q => some (v, { ch with received := ch.received ++ [v], queue := q })

/-- Dropping the receiver. -/
def dropReceiver (ch : Mpsc α) : Mpsc α := { ch with alive := false }

@[simp] theorem sent_fresh : (fresh : Mpsc α).sent = [] := rfl

/-- A send is accepted while the receiver is there, and fails once it is dropped. -/
theorem send_cases {ch ch' : Mpsc α} {cap : ℕ} {v : α} {ok : Bool}
    (h : ch.send cap v = some (ok, ch')) :
    (ok = true ∧ ch.alive = true ∧ ch' = { ch with queue := ch.queue ++ [v] }) ∨
      (ok = false ∧ ch.alive = false ∧ ch' = ch) := by
  rw [send] at h
  split_ifs at h with ha hc
  · obtain ⟨rfl, rfl⟩ := Prod.mk.inj (Option.some.inj h)
    exact .inl ⟨rfl, ha, rfl⟩
  · obtain ⟨rfl, rfl⟩ := Prod.mk.inj (Option.some.inj h)
    exact .inr ⟨rfl, Bool.eq_false_of_not_eq_true ha, rfl⟩

/-- A send is accepted if and only if the receiver is there. -/
theorem alive_of_send {ch ch' : Mpsc α} {cap : ℕ} {v : α} {ok : Bool}
    (h : ch.send cap v = some (ok, ch')) : ch.alive = ok := by
  obtain ⟨rfl, ha, -⟩ | ⟨rfl, ha, -⟩ := send_cases h <;> exact ha

/-- Sending a value extends what was sent by it, if it is accepted. -/
theorem sent_of_send {ch ch' : Mpsc α} {cap : ℕ} {v : α} {ok : Bool}
    (h : ch.send cap v = some (ok, ch')) : ch'.sent = ch.sent ++ if ok then [v] else [] := by
  obtain ⟨rfl, -, rfl⟩ | ⟨rfl, -, rfl⟩ := send_cases h
  · exact (List.append_assoc ..).symm
  · exact (List.append_nil _).symm

/-- Sending changes neither what was received nor whether the receiver is there. -/
theorem frame_of_send {ch ch' : Mpsc α} {cap : ℕ} {v : α} {ok : Bool}
    (h : ch.send cap v = some (ok, ch')) :
    ch'.received = ch.received ∧ ch'.alive = ch.alive := by
  obtain ⟨-, -, rfl⟩ | ⟨-, -, rfl⟩ := send_cases h <;> exact ⟨rfl, rfl⟩

/-- Receiving takes the oldest value queued. -/
theorem recv_eq_some {ch ch' : Mpsc α} {v : α} (h : ch.recv = some (v, ch')) :
    ch.queue = v :: ch'.queue ∧ ch'.received = ch.received ++ [v] ∧ ch'.alive = ch.alive := by
  rw [recv] at h
  split at h
  next => cases h
  next hq =>
    obtain ⟨rfl, rfl⟩ := Prod.mk.inj (Option.some.inj h)
    exact ⟨hq, rfl, rfl⟩

/-- Receiving changes nothing about what was sent. -/
theorem sent_recv {ch ch' : Mpsc α} {v : α} (h : ch.recv = some (v, ch')) :
    ch'.sent = ch.sent := by
  obtain ⟨hq, hr, -⟩ := recv_eq_some h
  rw [sent, sent, hq, hr, List.append_assoc, List.singleton_append]

/-- Nothing is received from an empty queue only. -/
theorem recv_eq_none {ch : Mpsc α} : ch.recv = none ↔ ch.queue = [] := by
  rw [recv]
  cases ch.queue <;> simp

/-- A sender only waits while the queue is full, and its receiver is there. -/
theorem send_eq_none {ch : Mpsc α} {cap : ℕ} {v : α} :
    ch.send cap v = none ↔ ch.alive = true ∧ cap ≤ ch.queue.length := by
  rw [send]
  by_cases ha : ch.alive = true
  · by_cases hc : ch.queue.length < cap
    · simp [ha, hc]
    · simpa [ha, hc] using not_lt.1 hc
  · simp [ha]

/-- A queue with room takes a value, if its receiver is there. -/
theorem send_of_lt {ch : Mpsc α} {cap : ℕ} (ha : ch.alive = true) (hc : ch.queue.length < cap)
    (v : α) : ch.send cap v = some (true, { ch with queue := ch.queue ++ [v] }) := by
  rw [send, if_pos ha, if_pos hc]

/-- A queue never exceeds its capacity. -/
theorem length_of_send {ch ch' : Mpsc α} {cap : ℕ} {v : α} {ok : Bool}
    (h : ch.send cap v = some (ok, ch')) (hcap : ch.queue.length ≤ cap) :
    ch'.queue.length ≤ cap := by
  rw [send] at h
  split_ifs at h with ha hc <;> obtain ⟨-, rfl⟩ := Prod.mk.inj (Option.some.inj h)
  · simpa using hc
  · exact hcap

/-- What was received is a prefix of what was sent. -/
theorem received_isPrefix (ch : Mpsc α) : ch.received <+: ch.sent := List.prefix_append _ _

end Mpsc

end Async

import Mathlib

/-!
# Bounded broadcast channels

A broadcast channel hands every value sent to every receiver, through a buffer
of bounded capacity shared by the receivers. The channel is modelled by the log
of all values sent; a receiver is a position in it, at first the end of the log.
The buffer retains the last `cap` values only: a receiver that has fallen behind
them is moved to the oldest retained one, and told how many it has lost.

* `Broadcast.recv`: what a receiver yields next, and its new position.
* `Broadcast.recv_cases`: the three ways it can yield.
* `Broadcast.seen`: the part of the log before a position, which sending does
  not change (`seen_send`) and yielding a value extends by it (`seen_succ`).
-/

namespace Async

/-- A broadcast channel: every value sent, oldest first, and whether all its
    senders are gone. -/
structure Broadcast (α : Type*) where
  /-- The values sent, oldest first. -/
  log : List α
  /-- All senders are gone. -/
  closed : Bool

namespace Broadcast

variable {α : Type*}

/-- A fresh channel. -/
def fresh : Broadcast α := ⟨[], false⟩

/-- Sending a value. -/
def send (b : Broadcast α) (v : α) : Broadcast α := { b with log := b.log ++ [v] }

/-- Dropping the last sender. -/
def close (b : Broadcast α) : Broadcast α := { b with closed := true }

/-- What a receiver yields: a value, the number of values it has lost, or the
    end of the channel. -/
inductive Recv (α : Type*)
  | value (v : α)
  | lagged (n : ℕ)
  | closed

/-- The position of the oldest value retained by a buffer of capacity `cap`. -/
def oldest (b : Broadcast α) (cap : ℕ) : ℕ := b.log.length - cap

/-- What the receiver at `pos` yields next, and its new position; `none` while it waits. -/
def recv (b : Broadcast α) (cap pos : ℕ) : Option (Recv α × ℕ) :=
  -- The receiver has fallen behind: the values it has lost are skipped.
  if pos < b.oldest cap then some (.lagged (b.oldest cap - pos), b.oldest cap)
  else
    match b.log[pos]? with
    | some v => some (.value v, pos + 1)
    | none => if b.closed then some (.closed, pos) else none

@[simp] theorem log_send (b : Broadcast α) (v : α) : (b.send v).log = b.log ++ [v] := rfl
/-- A receiver yields the value at its position, or is moved to the oldest one
    retained, or finds the channel closed. -/
theorem recv_cases {b : Broadcast α} {cap pos pos' : ℕ} {r : Recv α}
    (h : b.recv cap pos = some (r, pos')) :
    (∃ v, r = .value v ∧ b.oldest cap ≤ pos ∧ b.log[pos]? = some v ∧ pos' = pos + 1) ∨
      (r = .lagged (b.oldest cap - pos) ∧ pos < b.oldest cap ∧ pos' = b.oldest cap) ∨
        (r = .closed ∧ b.closed = true ∧ b.log.length ≤ pos ∧ pos' = pos) := by
  rw [recv] at h
  by_cases hlag : pos < b.oldest cap
  · rw [if_pos hlag] at h
    obtain ⟨rfl, rfl⟩ := Prod.mk.inj (Option.some.inj h)
    exact .inr (.inl ⟨rfl, hlag, rfl⟩)
  · rw [if_neg hlag] at h
    split at h
    next v hv =>
      obtain ⟨rfl, rfl⟩ := Prod.mk.inj (Option.some.inj h)
      exact .inl ⟨v, rfl, not_lt.1 hlag, hv, rfl⟩
    next hnone =>
      split_ifs at h with hc
      obtain ⟨rfl, rfl⟩ := Prod.mk.inj (Option.some.inj h)
      exact .inr (.inr ⟨rfl, hc, List.getElem?_eq_none_iff.1 hnone, rfl⟩)

/-- A receiver of a closed channel never waits. -/
theorem exists_recv {b : Broadcast α} (hc : b.closed = true) (cap pos : ℕ) :
    ∃ r, b.recv cap pos = some r := by
  rw [recv]
  by_cases hlag : pos < b.oldest cap
  · exact ⟨_, if_pos hlag⟩
  · rw [if_neg hlag, hc, if_pos rfl]
    cases b.log[pos]? <;> exact ⟨_, rfl⟩

/-! ## What precedes a position -/

/-- The values before the position `pos`. -/
def seen (b : Broadcast α) (pos : ℕ) : List α := b.log.take pos

/-- Sending does not change what precedes a position. -/
theorem seen_send {b : Broadcast α} {pos : ℕ} (hpos : pos ≤ b.log.length) (v : α) :
    (b.send v).seen pos = b.seen pos := by
  rw [seen, log_send, List.take_append_of_le_length hpos, seen]

/-- Moving past a value extends what has been seen by it. -/
theorem seen_succ {b : Broadcast α} {pos : ℕ} {v : α} (hv : b.log[pos]? = some v) :
    b.seen (pos + 1) = b.seen pos ++ [v] := by
  rw [seen, List.take_add_one, hv, Option.toList_some, seen]

/-- Moving ahead extends what has been seen by the values moved over. -/
theorem seen_of_le {b : Broadcast α} {pos pos' : ℕ} (h : pos ≤ pos') :
    b.seen pos' = b.seen pos ++ (b.seen pos').drop pos := by
  conv_lhs => rw [← List.take_append_drop pos (b.seen pos')]
  rw [seen, seen, List.take_take, min_eq_left h]

end Broadcast

end Async

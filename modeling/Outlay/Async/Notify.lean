import Mathlib

/-!
# One-permit notifications

A notification with a single waiter at a time: `notifyOne` wakes the waiter, or
stores a permit for the next one; permits do not accumulate. A waiter that goes
away after having been woken gives its notification back (`dropWaiter`), so that a
notification is never lost: it stays `available` until a waiter consumes it.
-/

namespace Async

/-- The waiter of a notification: none, one registered, or one that was woken
    and has not run yet. -/
inductive Waiter
  | absent
  | registered
  | woken
  deriving DecidableEq

/-- A one-permit notification. -/
structure Notify where
  /-- A permit is stored. -/
  permit : Bool
  /-- The waiter. -/
  waiter : Waiter
  deriving DecidableEq

namespace Notify

/-- A fresh notification. -/
def fresh : Notify := ⟨false, .absent⟩

/-- Wakes the registered waiter, or else stores a permit. -/
def notifyOne (n : Notify) : Notify :=
  match n.waiter with
  | .registered => { n with waiter := .woken }
  -- A waiter already woken is not woken again: the permit is stored.
  | _ => { n with permit := true }

/-- A notification that a waiter can consume at once: a permit, or its wake-up. -/
def available (n : Notify) : Bool := n.permit || decide (n.waiter = .woken)

/-- Registering a waiter, when there is nothing to consume. -/
def register (n : Notify) : Option Notify :=
  if n.available then none else some { n with waiter := .registered }

/-- Consuming the notification: its wake-up, or else the permit. -/
def consume (n : Notify) : Option Notify :=
  match n.waiter with
  | .woken => some { n with waiter := .absent }
  | _ => if n.permit then some ⟨false, .absent⟩ else none

/-- Dropping the waiter: one that was woken gives its notification back. -/
def dropWaiter (n : Notify) : Notify :=
  match n.waiter with
  | .woken => ⟨true, .absent⟩
  | _ => { n with waiter := .absent }

/-- A notification sent is available. -/
@[simp] theorem available_notifyOne (n : Notify) : n.notifyOne.available = true := by
  obtain ⟨p, w⟩ := n
  cases w <;> simp [notifyOne, available]

/-- Dropping the waiter loses nothing. -/
@[simp] theorem available_dropWaiter (n : Notify) : n.dropWaiter.available = n.available := by
  obtain ⟨p, w⟩ := n
  cases w <;> simp [dropWaiter, available]

/-- A waiter only registers when there is nothing to consume, and then there still is nothing. -/
theorem available_of_register {n n' : Notify} (h : n.register = some n') :
    n.available = false ∧ n'.available = false := by
  obtain ⟨p, w⟩ := n
  rw [register] at h
  split_ifs at h with ha
  obtain rfl := Option.some.inj h
  cases p <;> cases w <;> simp_all [available]

/-- What is available can be consumed, and nothing else. -/
theorem consume_isSome (n : Notify) : n.consume.isSome = n.available := by
  obtain ⟨p, w⟩ := n
  cases p <;> cases w <;> rfl

/-- What was consumed was available. -/
theorem available_of_consume {n n' : Notify} (h : n.consume = some n') : n.available = true := by
  rw [← consume_isSome, h, Option.isSome_some]

end Notify

end Async

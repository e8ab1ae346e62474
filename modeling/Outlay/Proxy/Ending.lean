import Outlay.Proxy.Unwind

/-!
# How a call ends its stream

A call that leaves its loop with an active sink closes it, which ends the stream
of its client. Usually a CLOSED chunk precedes the end: the upstream has closed
the subscription, or the pool has shut down (`closedLast`). There are two other
ways to leave the loop: a write fails, or the notification channel is found
closed. Then the stream just ends (`closes_silently`).
-/

namespace Outlay.Proxy

open Async

/-- A final body is forwarded as a CLOSED chunk. -/
theorem Body.relabel_of_final {b : Body} (h : b.final = true) (clientSub : String) :
    ∃ msg, b.relabel clientSub = (Body.closed msg).relabel clientSub := by
  cases b with
  | event _ | eose => cases h
  | closed msg => exact ⟨msg, rfl⟩
  | shutdown => exact ⟨"error: upstream relay pool shut down", rfl⟩

namespace Setup

variable {Filter : Type*} (env : Setup Filter) (i : ℕ)

/-- What the call `i` receives next is the end of the notification channel. -/
def hearsEnd (s : State Filter) : Bool :=
  match s.bus.recv env.cap (s.calls i).pos with
  | some (.closed, _) => true
  | _ => false

/-- The call `i` does not find the channel closed, and no write fails on its
    active sink. -/
def Outspoken (s : State Filter) : Action → Prop
  | .call j .recv => j = i → env.hearsEnd i s = false
  | .call j (.write ok) => j = i → ok = true ∨ (s.calls i).active = false
  | _ => True

/-- The last chunk written is a CLOSED chunk. -/
def SaidClosed (written : List String) : Prop :=
  ∃ msg, written.getLast? = some ((Body.closed msg).relabel (env.clientSub i))

/-- Out of its loop with an active sink, or having closed it, the call has
    written a CLOSED chunk last. -/
def Ends (c : Call Filter) : Prop :=
  match c.stage with
  | .unwinding | .closing => c.active = true → env.SaidClosed i c.written
  | .returned (.ok _) => c.closes ≠ 0 → env.SaidClosed i c.written
  | _ => True

variable {env i}

/-- A call that leaves its loop when it receives has found the channel closed. -/
theorem hearsEnd_of_recv {s s' : State Filter}
    (hst : env.system.step s (.call i .recv) = some s')
    (he : (s'.calls i).stage.ended = true) : env.hearsEnd i s = true := by
  obtain ⟨c, hc, rfl⟩ := Option.map_eq_some_iff.1 hst
  simp only [Function.update_self] at he
  simp only [callStep] at hc
  split at hc
  next hs =>
    rw [hearsEnd]
    split at hc
    next => split at hc <;> obtain rfl := Option.some.inj hc <;> simp [hs, Stage.ended] at he
    next => obtain rfl := Option.some.inj hc; simp [hs, Stage.ended] at he
    next hr => rw [hr]
    next => cases hc
  next => cases hc

/-- Writing a chunk, without failing on an active sink. -/
theorem Ends.write {c : Call Filter} {f : Forward} {ok : Bool} (hs : c.stage = .writing f)
    (hst : Streamed env i c) (hok : ok = true ∨ c.active = false) :
    env.Ends i { c with
      written := if ok then c.written ++ [f.chunk] else c.written
      stage := f.next (ok && c.active) } := by
  rcases f.next_cases (ok && c.active) with hf | hf
  · simp only [Ends, hf]
  · simp only [Ends, hf]
    intro ha
    obtain rfl : ok = true := hok.resolve_right (by simp [ha])
    simp only [Streamed, hs] at hst
    obtain ⟨_, b, -, rfl, -⟩ := hst
    -- On an active sink, the loop is only left after a final body.
    have hfin : b.final = true := by
      by_contra hb
      simp [Body.forward, hb, Forward.next, ha] at hf
    obtain ⟨msg, hmsg⟩ := Body.relabel_of_final hfin (env.clientSub i)
    exact ⟨msg, by simp [hmsg]⟩

/-- Every step of a call that does not find the channel closed, and whose writes do
    not fail on an active sink, ends as it should. -/
theorem Ends.step {s : State Filter} {a : CallAction} {c : Call Filter}
    (hs : env.system.Reachable s) (h : env.Ends i (s.calls i))
    (ha : env.Outspoken i s (.call i a)) (hc : CallStep env s.bus i (s.calls i) a c)
    (hend : a = .recv → c.stage.ended = true → env.hearsEnd i s = true) : env.Ends i c := by
  have hstr := streamed hs i
  have hun := unwinds hs i
  cases hc with
  | drained _ => exact absurd (hend rfl rfl) (by simp [ha rfl])
  | dead _ hd => exact fun hact => absurd hact (by simp [hd])
  | write ok hw => exact Ends.write hw hstr (ha rfl)
  | unsubscribe hi => simpa only [Ends, hi] using h
  | finish hi =>
    simp only [Ends, hi] at h
    simp only [Unwinds, hi] at hun
    intro hcl
    refine h ?_
    by_contra hact
    exact hcl (by simp [hact, hun.2])
  | deactivate =>
    cases hi : (s.calls i).stage with
    | unwinding | closing => simp [Ends]
    | returned r =>
      cases r with
      | error _ => trivial
      | ok _ => simpa only [Ends, hi] using h
    | _ => simp [Ends]
  | skip hi _ _ | lag hi _ => simp [Ends, hi]
  | alive _ _ => exact h
  | reject _ _ | register _ _ | issue _ | accepted _ | refused _ | start _ | take _ _ _ => trivial

/-- In every run in which the call does not find the channel closed, and no write
    fails on its active sink, the chunk before the end of its stream is CLOSED. -/
theorem closedLast {s : State Filter} (hs : env.system.ReachableBy (env.Outspoken i) s)
    {r : Json} (hr : (s.calls i).stage = .returned (.ok r)) (hcl : (s.calls i).closes ≠ 0) :
    env.SaidClosed i (s.calls i).written := by
  have h : env.Ends i (s.calls i) := by
    refine hs.invariant (P := fun s => env.Ends i (s.calls i))
      (show env.Ends i (.idle Filter) from trivial) fun s a s' hs h hC hst => ?_
    obtain ⟨n, rfl, _, rfl⟩ | ⟨rfl, rfl⟩ | ⟨j, b, c, rfl, hc, rfl⟩ := step_cases hst
    · exact h
    · exact h
    · by_cases hj : j = i
      · subst hj
        simp only [Function.update_self]
        refine h.step hs.reachable hC hc fun hb he => ?_
        subst hb
        exact hearsEnd_of_recv hst (by simpa using he)
      · simpa [Function.update_of_ne (Ne.symm hj)] using h
  simp only [Ends, hr] at h
  exact h hcl

/-- The pool goes away after the stored events of a call: it closes its sink
    without a CLOSED chunk. -/
theorem closes_silently : ∃ s : State Json, (sameSub 4 (by decide)).system.Reachable s ∧
    (s.calls 0).stage.ended = true ∧ (s.calls 0).closes = 1 ∧
      (s.calls 0).written = ["[\"EOSE\",\"sub1\"]"] := by
  obtain ⟨s, hs, hp⟩ := System.exists_reachableBy (M := (sameSub 4 (by decide)).system)
    (C := fun _ _ => True)
    [.call 0 .begin, .call 0 .issue, .call 0 (.answer (.ok ())), .call 0 .start,
      .notify (.message "wss://up" (.endOfStoredEvents "u")), .call 0 .recv, .call 0 (.write true),
      .close, .call 0 .recv, .call 0 .unsubscribe, .call 0 .finish]
    (fun s => decide ((s.calls 0).stage.ended = true ∧ (s.calls 0).closes = 1 ∧
      (s.calls 0).written = ["[\"EOSE\",\"sub1\"]"])) (by decide)
  exact ⟨s, hs, of_decide_eq_true hp⟩

end Setup

end Outlay.Proxy

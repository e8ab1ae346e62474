import Outlay.Async.Potential
import Outlay.Proxy.Unwind

/-!
# A call comes to its end

A `subscribe` call is served as long as its sink is active and the pool is there. Once
either is gone, the call comes to its end (`completes`): the steps it has left are bounded,
whatever the interleaving with the pool and with other calls; it can always do the next
one; and in the end its upstream subscription is not open any more.

The bound is by the `work` of the call, the notifications it still has to pass over
included. For a sink that is not active, it grows by two steps with every notification
that comes in, so that the steps the call takes may be many; but all of them are steps of
reading what there is, and no notification is waited for.
-/

namespace Outlay.Proxy

open Async

variable {Filter : Type*}

/-- The steps a call has left: those for its backlog of `behind` notifications, and those
    of its stages. -/
def Stage.work (behind : ℕ) : Stage → ℕ
  | .idle => 8
  | .registered => 7 + 2 * behind
  | .subscribing => 6 + 2 * behind
  | .starting => 5 + 2 * behind
  | .selecting => 4 + 2 * behind
  | .writing _ => 5 + 2 * behind
  | .unwinding => 2
  | .closing => 1
  | .returned _ => 0

/-- The steps a call on the channel `bus` has left. -/
def Call.work (bus : Broadcast RelayPoolNotification) (c : Call Filter) : ℕ :=
  c.stage.work (bus.log.length - c.pos)

/-- A step the call takes, and not its client. -/
def CallAction.cost : CallAction → ℕ
  | .deactivate => 0
  | _ => 1

namespace Action

/-- A step the call `i` takes. -/
def cost (i : ℕ) : Action → ℕ
  | .call j a => if j = i then a.cost else 0
  | _ => 0

/-- What a notification adds to the steps of a call: one to receive it, and one to write it. -/
def news : Action → ℕ
  | .notify _ => 2
  | _ => 0

/-- A poll of the sink of the call `i`. -/
def polls (i : ℕ) : Action → ℕ
  | .call j .poll => if j = i then 1 else 0
  | _ => 0

end Action

namespace Setup

variable {env : Setup Filter} {i : ℕ} {s s' : State Filter}

/-! ## Paying for the steps -/

/-- A step of a call is paid for, except that an active sink is polled in vain. -/
theorem CallStep.pays {bus : Broadcast RelayPoolNotification} {c c' : Call Filter}
    {a : CallAction} (h : CallStep env bus i c a c') (hpos : c.pos ≤ bus.log.length) :
    c'.work bus + a.cost ≤ c.work bus ∨ (a = .poll ∧ c.active = true ∧ c' = c) := by
  have hlt : ∀ {n}, bus.log[c.pos]? = some n → c.pos < bus.log.length := fun hn =>
    (List.getElem?_eq_some_iff.1 hn).1
  cases h with
  | alive _ ha => exact .inr ⟨rfl, ha, rfl⟩
  | deactivate => exact .inl le_rfl
  | take hs hn _ =>
    have := hlt hn
    simp only [Call.work, hs, Stage.work, CallAction.cost]
    omega
  | skip hs hn _ =>
    have := hlt hn
    simp only [Call.work, hs, Stage.work, CallAction.cost]
    omega
  | lag hs hl =>
    simp only [Call.work, hs, Stage.work, CallAction.cost, Broadcast.oldest] at hl ⊢
    omega
  | @write f ok hs =>
    rcases f.next_cases (ok && c.active) with hf | hf
    all_goals
      simp only [Call.work, hs, hf, Stage.work, CallAction.cost]
      omega
  | reject hs _ | register hs _ | issue hs | accepted hs | refused hs | start hs | drained hs
  | dead hs _ | unsubscribe hs | finish hs =>
    simp only [Call.work, hs, Stage.work, CallAction.cost]
    omega

/-- A notification adds two steps at most. -/
theorem work_send (bus : Broadcast RelayPoolNotification) (n : RelayPoolNotification)
    (c : Call Filter) : c.work (bus.send n) ≤ c.work bus + 2 := by
  have hlen : (bus.send n).log.length = bus.log.length + 1 := by simp
  cases hs : c.stage with
  | _ => simp only [Call.work, hs, Stage.work, hlen]; omega

/-- What a step does to the steps left of the call `i`. -/
theorem work_step (hs : env.system.Reachable s) {a : Action}
    (hst : env.system.step s a = some s') :
    (s'.calls i).work s'.bus + a.cost i ≤ (s.calls i).work s.bus + a.news ∨
      (a = .call i .poll ∧ (s.calls i).active = true ∧ s' = s) := by
  have hpos := (received hs i).pos_le
  obtain ⟨n, rfl, _, rfl⟩ | ⟨rfl, rfl⟩ | ⟨j, b, c, rfl, hc, rfl⟩ := step_cases hst
  · exact .inl (work_send s.bus n _)
  · exact .inl le_rfl
  · by_cases hj : j = i
    · subst hj
      rcases hc.pays hpos with h | ⟨rfl, ha, rfl⟩
      · exact .inl (by simpa [Action.cost, Action.news] using h)
      · exact .inr ⟨rfl, ha, by simp [issuedAfter, openedAfter]⟩
    · exact .inl (by simp [Action.cost, Action.news, hj, Function.update_of_ne (Ne.symm hj)])

/-- A sink stays inactive. -/
theorem inactive_of_step (h : (s.calls i).active = false) {a : Action}
    (hst : env.system.step s a = some s') : (s'.calls i).active = false := by
  obtain ⟨n, rfl, _, rfl⟩ | ⟨rfl, rfl⟩ | ⟨j, b, c, rfl, hc, rfl⟩ := step_cases hst
  · exact h
  · exact h
  · by_cases hj : j = i
    · subst hj
      simp only [Function.update_self]
      cases hc with
      | deactivate => rfl
      | _ => exact h
    · simpa [Function.update_of_ne (Ne.symm hj)] using h

/-- A channel stays closed. -/
theorem closed_of_step (h : s.bus.closed = true) {a : Action}
    (hst : env.system.step s a = some s') : s'.bus.closed = true := by
  obtain ⟨n, rfl, _, rfl⟩ | ⟨rfl, rfl⟩ | ⟨j, b, c, rfl, hc, rfl⟩ := step_cases hst
  · exact h
  · rfl
  · exact h

variable (env i) in
/-- The steps of a call whose sink is not active are paid for. -/
theorem amortized_inactive : System.Amortized env.system
    (fun s => env.system.Reachable s ∧ (s.calls i).active = false)
    (fun s => (s.calls i).work s.bus) (Action.cost i) Action.news where
  closed h hst := ⟨h.1.next hst, inactive_of_step h.2 hst⟩
  pays h hst := (work_step h.1 hst).resolve_right fun ⟨_, ha, _⟩ => by
    rw [h.2] at ha
    cases ha

variable (env i) in
/-- Those of a call whose pool is gone, too, except for the polls. -/
theorem amortized_closed : System.Amortized env.system
    (fun s => env.system.Reachable s ∧ s.bus.closed = true)
    (fun s => (s.calls i).work s.bus) (Action.cost i) (Action.polls i) where
  closed h hst := ⟨h.1.next hst, closed_of_step h.2 hst⟩
  pays {s a s'} h hst := by
    rcases work_step (i := i) h.1 hst with hw | ⟨rfl, -, rfl⟩
    · -- A channel that is closed does not notify.
      have hnews : a.news = 0 := by
        cases a with
        | notify n => simp [system, h.2] at hst
        | close | call _ _ => rfl
      omega
    · simp [Action.cost, CallAction.cost, Action.polls]

/-! ## Nobody is waited for -/

/-- A call that is being served can do a step, which is not a poll of an active sink: it
    waits for no notification. -/
theorem exists_step (hserved : (s.calls i).stage ≠ .idle ∧ ∀ r, (s.calls i).stage ≠ .returned r)
    (hend : s.bus.closed = true ∨ (s.calls i).active = false) :
    ∃ a, a.cost = 1 ∧ (a = .poll → (s.calls i).active = false) ∧
      (env.system.step s (.call i a)).isSome = true := by
  cases hst : (s.calls i).stage with
  | idle => exact absurd hst hserved.1
  | returned r => exact absurd hst (hserved.2 r)
  | registered => exact ⟨.issue, rfl, by simp, by simp [system, callStep, hst]⟩
  | subscribing => exact ⟨.answer (.ok ()), rfl, by simp, by simp [system, callStep, hst]⟩
  | starting => exact ⟨.start, rfl, by simp, by simp [system, callStep, hst]⟩
  | writing f => exact ⟨.write true, rfl, by simp, by simp [system, callStep, hst]⟩
  | unwinding => exact ⟨.unsubscribe, rfl, by simp, by simp [system, callStep, hst]⟩
  | closing => exact ⟨.finish, rfl, by simp, by simp [system, callStep, hst]⟩
  | selecting =>
    rcases hend with hc | ha
    · -- The channel yields what there is, or its end.
      obtain ⟨⟨r, pos⟩, hr⟩ := Broadcast.exists_recv hc env.cap (s.calls i).pos
      refine ⟨.recv, rfl, by simp, ?_⟩
      cases r with
      | value n =>
        cases hm : mapNotification n (env.upstreamId i) (env.clientSub i) <;>
          simp [system, callStep, hst, hr, hm]
      | lagged _ | closed => simp [system, callStep, hst, hr]
    · exact ⟨.poll, rfl, fun _ => ha, by simp [system, callStep, hst]⟩

/-! ## The law -/

/-- How a call goes on whose sink is not active, or whose pool is gone. -/
structure Completes (env : Setup Filter) (s : State Filter) (i : ℕ) : Prop where
  /-- Without an active sink, it has only so many steps left, but for what the pool
      still notifies. -/
  inactive : (s.calls i).active = false → ∀ l s',
    env.system.runBy (fun _ _ => True) s l = some s' →
      (l.map (Action.cost i)).sum ≤ (s.calls i).work s.bus + (l.map Action.news).sum
  /-- Without the pool, it has only so many steps left, but for the polls of its sink. -/
  closed : s.bus.closed = true → ∀ l s', env.system.runBy (fun _ _ => True) s l = some s' →
    (l.map (Action.cost i)).sum ≤ (s.calls i).work s.bus + (l.map (Action.polls i)).sum
  /-- Until it has returned, it can do a step, and waits for no notification. -/
  progress : ∀ s', env.system.Leads s s' → (s'.calls i).stage ≠ .idle →
    (∀ r, (s'.calls i).stage ≠ .returned r) → ∃ a, a.cost = 1 ∧
      (a = .poll → (s'.calls i).active = false) ∧ (env.system.step s' (.call i a)).isSome = true
  /-- Once it has returned, its upstream subscription is not open. -/
  released : ∀ s' r, env.system.Leads s s' → (s'.calls i).stage = .returned r →
    env.upstreamId i ∉ s'.opened

/-- Whatever the interleaving, a call whose sink is not active, or whose pool is gone, comes
    to its end. -/
theorem completes (hs : env.system.Reachable s)
    (hend : s.bus.closed = true ∨ (s.calls i).active = false) : Completes env s i where
  inactive ha l s' hl := by
    have h := (amortized_inactive env i).sum_cost_le ⟨hs, ha⟩ hl
    omega
  closed hc l s' hl := by
    have h := (amortized_closed env i).sum_cost_le ⟨hs, hc⟩ hl
    omega
  progress s' hlead hne hr := exists_step ⟨hne, hr⟩ <|
    hlead.invariant (P := fun s => s.bus.closed = true ∨ (s.calls i).active = false)
      (fun _ _ _ _ h hst => h.imp (closed_of_step · hst) (inactive_of_step · hst)) hs hend
  released s' r hlead hr hmem := by
    have := ((opened (hs.leads hlead)).mem_iff i).1 hmem
    rw [hr] at this
    cases this

/-- A call whose client has left while two notifications are waiting, one of them its own. -/
def abandoned : List Action :=
  [.call 0 .begin, .call 0 .issue, .call 0 (.answer (.ok ())), .call 0 .start,
    .notify (.message "wss://up" (.endOfStoredEvents "u")),
    .notify (.message "wss://up" (.notice "")), .call 0 .deactivate]

/-- It takes eight steps at most, if no more notifications come in. -/
theorem completes_abandoned : ∃ s : State Json, (s.calls 0).work s.bus = 8 ∧
    Completes (sameSub 4 (by decide)) s 0 := by
  obtain ⟨s, hs, hp⟩ := System.exists_reachableBy (M := (sameSub 4 (by decide)).system)
    (C := fun _ _ => True) abandoned
    (fun s => decide ((s.calls 0).work s.bus = 8 ∧ (s.calls 0).active = false)) (by decide)
  obtain ⟨hw, ha⟩ := of_decide_eq_true hp
  exact ⟨s, hw, completes hs (.inr ha)⟩

end Setup

end Outlay.Proxy

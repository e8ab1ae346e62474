import Outlay.Deployment.Delivery
import Outlay.Proxy.Progress
import Outlay.Shim.Progress

/-!
# Departure

A visitor that leaves, leaves nothing behind (`departs`). Once its main loop has been left,
and the outlay has noticed that nobody reads the sinks of its calls, the connection and
its calls come to their end together: all of them have only so many steps left, whatever
the interleaving with other visitors; until they are done, one of them can do a step that
awaits neither a frame of the visitor nor a stream nor a notification; and then none of the
upstream subscriptions opened for the visitor is open.

The steps of the connection alone are only bounded but for the chunks that its streams
yield, and it is the calls that bound these: a chunk is read once, after it has been
written. So what a call may still write is paid for with the call (`share`).
-/

namespace Outlay.Deployment

open Async

variable {Filter : Type*} {d : Deployment Filter} {s s' : State Filter} {k n N : ℕ}

/-- The connection `k` has left its main loop, after `N` items, and no sink of its calls
    is active. -/
structure Left (d : Deployment Filter) (k N : ℕ) (s : State Filter) : Prop where
  main : (s.conns k).main.looping = false
  items : (s.conns k).inbound.length = N
  sinks : ∀ n, (s.task k n).stage ≠ .absent → (d.call s k n).active = false

/-- The connection and its calls are done. -/
structure Departed (d : Deployment Filter) (k : ℕ) (s : State Filter) : Prop where
  bridge : (s.conns k).Done
  calls : ∀ n, (d.call s k n).stage = .idle ∨ ∃ r, (d.call s k n).stage = .returned r

/-! ## The calls of a connection -/

/-- A call that is served is that of a task. -/
theorem spawned_of_stage (hs : d.system.Reachable s) (h : (d.call s k n).stage ≠ .idle) :
    (s.task k n).stage ≠ .absent := by
  obtain ⟨subId, filters, hreq, -⟩ := begun hs k n h
  have hA := Shim.Conn.assigned (conn_reachable hs k) n
  rw [Shim.Conn.Assigned, hreq] at hA
  exact hA.1

/-- Only a call of a task is served, but its sink may be found inactive before. -/
theorem spawned_of_step (hs : d.system.Reachable s) {a : Proxy.CallAction}
    (ha : a ≠ .deactivate)
    (hst : d.system.step s (.proxy (.call (d.callOf k n) a)) = some s') :
    (s.task k n).stage ≠ .absent := by
  by_cases hidle : (d.call s k n).stage = .idle
  · obtain ⟨hcar, p, hp, -⟩ := step_proxy hst
    obtain ⟨_, h, -⟩ | ⟨h, -⟩ | ⟨i, b, c, heq, hc, -⟩ := Proxy.Setup.step_cases hp
    · cases h
    · cases h
    · obtain ⟨rfl, rfl⟩ := Proxy.Action.call.inj heq
      -- The transport carries the first step for a task that has been spawned.
      have hbegin : a = .begin := by
        cases hc with
        | deactivate => exact absurd rfl ha
        | reject _ _ | register _ _ => rfl
        | issue h | accepted h | refused h | start h | take h _ _ | skip h _ _ | lag h _
        | drained h | write _ h | alive h _ | dead h _ | unsubscribe h | finish h =>
          rw [show _ = _ from hidle] at h
          cases h
      subst hbegin
      simp only [carries, (d.owner_eq_some (d.callOf k n) k n).2 rfl, decide_eq_true_eq] at hcar
      exact hcar.1
  · exact spawned_of_stage hs hidle

/-- A connection that has left stays so: it spawns no tasks, and sinks stay inactive. -/
theorem Left.step (h : Left d k N s) {a : Action} (hst : d.system.step s a = some s') :
    Left d k N s' := by
  obtain ⟨-, ⟨b, p, rfl, hp, rfl⟩ | ⟨l, b, c, rfl, hstep, rfl⟩⟩ := step_cases hst
  · exact ⟨h.main, h.items, fun n hn => Proxy.Setup.inactive_of_step (h.sinks n hn) hp⟩
  · by_cases hl : l = k
    · subst hl
      refine ⟨?_, ?_, fun n hn => ?_⟩
      · simpa using Shim.Conn.looping_of_step h.main hstep
      · simpa [hstep.inbound_of_left h.main] using h.items
      · refine h.sinks n fun hab => hn ?_
        have hkeeps := (hstep.taskMove n).keeps fun f hf => by
          subst hf
          exact absurd h.main hstep.looping_of_inbound
        simpa [State.task] using hkeeps.1.2 hab
    · have hother := Function.update_of_ne (Ne.symm hl) c s.conns
      refine ⟨?_, ?_, fun n hn => h.sinks n ?_⟩
      · simpa [hother] using h.main
      · simpa [hother] using h.items
      · simpa [State.task, hother] using hn

/-! ## Paying for the steps -/

/-- The steps that the call of a task has left, the reading of what it writes included. -/
def share (d : Deployment Filter) (s : State Filter) (k n : ℕ) : ℕ :=
  4 * ((d.call s k n).written.length - (s.task k n).read.length) +
    5 * (d.call s k n).work s.proxy.bus

/-- The steps that a connection and its calls have left. -/
def work (d : Deployment Filter) (s : State Filter) (k : ℕ) : ℕ :=
  (s.conns k).work + ∑ n ∈ Finset.range (s.conns k).inbound.length, d.share s k n

/-- A step that the connection `k` takes, or one of its calls. -/
def cost (d : Deployment Filter) (k : ℕ) : Action → ℕ
  | .proxy (.call i a) =>
    match d.owner i with
    | some (l, _) => if l = k then a.cost else 0
    | none => 0
  | .proxy _ => 0
  | .conn l _ => if l = k then 1 else 0

/-- What an action adds to the steps left of the connection `k`, which has had `N` items: a
    notification is received, written and read by each of its calls at most; and a task may
    wait on for a signal that has not come. -/
def gain (k N : ℕ) : Action → ℕ
  | .proxy (.notify _) => 10 * N
  | .conn l (.task _ .arm) => if l = k then 1 else 0
  | _ => 0

/-- A step of a call writes one chunk at most. -/
theorem length_written {env : Proxy.Setup Filter} {bus : Broadcast Proxy.RelayPoolNotification}
    {i : ℕ} {c c' : Proxy.Call Filter} {a : Proxy.CallAction}
    (h : Proxy.Setup.CallStep env bus i c a c') :
    c'.written.length ≤ c.written.length + a.cost := by
  cases h with
  | @write f ok _ => cases ok <;> simp [Proxy.CallAction.cost]
  | deactivate => exact le_rfl
  | _ => exact Nat.le_succ _

/-- A step of the proxy is paid for by the share of the call that takes it. -/
theorem share_proxy (hs : d.system.Reachable s) (h : Left d k N s) {a : Proxy.Action}
    (hst : d.system.step s (.proxy a) = some s') (n : ℕ) :
    d.share s' k n + a.cost (d.callOf k n) ≤ d.share s k n + 5 * a.news := by
  obtain ⟨-, p, hp, rfl⟩ := step_proxy hst
  have hwork : (p.calls (d.callOf k n)).work p.bus + a.cost (d.callOf k n) ≤
      (d.call s k n).work s.proxy.bus + a.news := by
    rcases Proxy.Setup.work_step (i := d.callOf k n) (proxy_reachable hs) hp with
      hw | ⟨rfl, hactive, -⟩
    · exact hw
    · -- The sink of a call that is served is not active, and so not polled in vain.
      rw [h.sinks n (spawned_of_step (a := .poll) hs nofun hst)] at hactive
      cases hactive
  have hwritten : (p.calls (d.callOf k n)).written.length ≤
      (d.call s k n).written.length + a.cost (d.callOf k n) := by
    obtain ⟨_, rfl, _, rfl⟩ | ⟨rfl, rfl⟩ | ⟨i, b, c, rfl, hc, rfl⟩ :=
      Proxy.Setup.step_cases hp
    · exact Nat.le_add_right _ _
    · exact Nat.le_add_right _ _
    · by_cases hi : i = d.callOf k n
      · subst hi
        simpa [Proxy.Action.cost] using length_written hc
      · simp [Function.update_of_ne (Ne.symm hi)]
  simp only [share, call, State.task] at hwork hwritten ⊢
  omega

/-- What the reading of a chunk by the task `n` adds to the steps of its connection. -/
def reads (n : ℕ) : Shim.ConnAction → ℕ
  | .task m (.chunk _) => if m = n then 4 else 0
  | _ => 0

/-- A task that is not spawned anew keeps what it has read. -/
theorem isPrefix_read {c : Shim.Conn} {b : Shim.ConnAction} {t : Shim.Task}
    (h : Shim.Conn.TaskMove c n b t) (hb : ∀ f, b ≠ .inbound f) : (c.tasks n).read <+: t.read := by
  cases h with
  | stay | signal | send _ => exact List.prefix_rfl
  | spawn _ _ _ => exact absurd rfl (hb _)
  | step ht =>
    cases ht with
    | chunk _ => exact List.prefix_append _ _
    | _ => exact List.prefix_rfl

/-- The reading of a chunk is paid for by the share of the call that has written it. -/
theorem share_conn (h : Left d k N s) {b : Shim.ConnAction}
    (hst : d.system.step s (.conn k b) = some s') (n : ℕ) :
    d.share s' k n + reads n b ≤ d.share s k n := by
  obtain ⟨hcar, c, hstep, rfl⟩ := step_conn hst
  have hmove := hstep.taskMove n
  have hlen := (isPrefix_read hmove fun f hf => by
    subst hf
    exact hstep.looping_of_inbound h.main).length_le
  have hreads : reads n b = 0 ∨ (c.tasks n).read.length = (s.task k n).read.length + 1 ∧
      (s.task k n).read.length < (d.call s k n).written.length ∧ reads n b = 4 := by
    cases hstep with
    | @task m _ t ht =>
      cases ht with
      | chunk _ =>
        by_cases hm : m = n
        · subst hm
          simp only [carries, decide_eq_true_eq] at hcar
          exact .inr ⟨by simp, (List.getElem?_eq_some_iff.1 hcar).1, if_pos rfl⟩
        · exact .inl (if_neg hm)
      | _ => exact .inl rfl
    | inbound | notice | signal | cleaned | join | send | published | ack | recv | drained
    | wrote | broke | closed => exact .inl rfl
  simp only [share, call, State.task, Function.update_self] at hreads ⊢
  omega

/-- A step of the connection alone is paid for, but for the chunks that it reads. -/
theorem gain_le (hs : d.system.Reachable s) {b : Shim.ConnAction}
    (hst : d.system.step s (.conn k b) = some s') :
    b.gain ≤ ∑ n ∈ Finset.range (s.conns k).inbound.length, reads n b + gain k N (.conn k b) := by
  obtain ⟨-, c, hstep, -⟩ := step_conn hst
  cases hstep with
  | @task m _ t ht =>
    cases ht with
    | @chunk x hpump =>
      -- The task that reads is that of an item.
      have hm : m < (s.conns k).inbound.length :=
        Shim.Conn.lt_of_spawned (conn_reachable hs k) (.inl (by simp [hpump]))
      have hsum := Finset.single_le_sum (f := fun n => reads n (.task m (.chunk x)))
        (fun _ _ => Nat.zero_le _) (Finset.mem_range.2 hm)
      simp only [reads, if_pos] at hsum
      exact hsum.trans (Nat.le_add_right _ _)
    | arm _ _ => simp [Shim.ConnAction.gain, gain]
    | _ => exact Nat.zero_le _
  | inbound | notice | signal | cleaned | join | send | published | ack | recv | drained
  | wrote | broke | closed => exact Nat.zero_le _

/-- A step of one of the calls is paid for by its share. -/
theorem cost_le (hs : d.system.Reachable s) {a : Proxy.Action}
    (hst : d.system.step s (.proxy a) = some s') :
    d.cost k (.proxy a) ≤
      ∑ n ∈ Finset.range (s.conns k).inbound.length, a.cost (d.callOf k n) := by
  cases a with
  | notify | close => exact Nat.zero_le _
  | call i a =>
    cases ho : d.owner i with
    | none => simp [cost, ho]
    | some q =>
      obtain ⟨l, n⟩ := q
      by_cases hl : l = k
      · subst hl
        obtain rfl := (d.owner_eq_some i l n).1 ho
        by_cases ha : a = .deactivate
        · simp [cost, ho, ha, Proxy.CallAction.cost]
        · have hn : n < (s.conns l).inbound.length :=
            Shim.Conn.lt_of_spawned (conn_reachable hs l) (.inl (spawned_of_step hs ha hst))
          have hsum := Finset.single_le_sum
            (f := fun m => Proxy.Action.cost (d.callOf l m) (.call (d.callOf l n) a))
            (fun _ _ => Nat.zero_le _) (Finset.mem_range.2 hn)
          simpa [cost, ho, Proxy.Action.cost] using hsum
      · simp [cost, ho, hl]

/-- Every step is paid for, once the connection has been left. -/
theorem amortized (d : Deployment Filter) (k N : ℕ) : System.Amortized d.system
    (fun s => d.system.Reachable s ∧ Left d k N s) (fun s => d.work s k) (d.cost k)
    (gain k N) where
  closed h hst := ⟨h.1.next hst, h.2.step hst⟩
  pays {s a s'} h hst := by
    obtain ⟨hs, hleft⟩ := h
    have hitems : (s'.conns k).inbound.length = (s.conns k).inbound.length :=
      (hleft.step hst).items.trans hleft.items.symm
    simp only [work, hitems]
    cases a with
    | proxy a =>
      -- The connection does not move, and each of its calls is paid for.
      have hconns : s'.conns = s.conns := by
        obtain ⟨-, _, -, rfl⟩ := step_proxy hst
        rfl
      have hshares := Finset.sum_le_sum (s := Finset.range (s.conns k).inbound.length)
        fun n _ => share_proxy hs hleft hst n
      have hcost := cost_le (k := k) hs hst
      have hnews : (s.conns k).inbound.length * (5 * a.news) = gain k N (.proxy a) := by
        rw [hleft.items]
        cases a <;> simp [Proxy.Action.news, gain, mul_comm]
      simp only [Finset.sum_add_distrib, Finset.sum_const, Finset.card_range, smul_eq_mul,
        hnews] at hshares
      rw [hconns]
      omega
    | conn l b =>
      by_cases hl : l = k
      · subst hl
        have hshares := Finset.sum_le_sum (s := Finset.range (s.conns l).inbound.length)
          fun n _ => share_conn hleft hst n
        have hgain := gain_le (N := N) hs hst
        have hpays : (s'.conns l).work + 1 ≤ (s.conns l).work + b.gain := by
          obtain ⟨-, c, hstep, rfl⟩ := step_conn hst
          simpa using Shim.Conn.pays (conn_reachable hs l) hleft.main hstep
        simp only [Finset.sum_add_distrib] at hshares
        simp only [cost, if_pos]
        omega
      · -- Another connection shares nothing with it.
        obtain ⟨-, c, -, rfl⟩ := step_conn hst
        have hother := Function.update_of_ne (Ne.symm hl) c s.conns
        simp [cost, hl, share, State.task, hother]

/-! ## Nobody is waited for -/

/-- An action of the connection `k` that awaits neither a frame nor a stream, or one of one
    of its calls. -/
inductive Own (d : Deployment Filter) (k : ℕ) : Action → Prop
  | conn {b : Shim.ConnAction} (hb : b.internal = true) : Own d k (.conn k b)
  | call {n : ℕ} {a : Proxy.CallAction} (ha : a.cost = 1) :
    Own d k (.proxy (.call (d.callOf k n) a))

/-- The transport lets a connection do what awaits no stream. -/
theorem carries_of_internal {b : Shim.ConnAction} (hb : b.internal = true) :
    d.carries s (.conn k b) = true := by
  cases b with
  | task n b => cases b <;> first | rfl | cases hb
  | _ => rfl

/-- The transport lets a call go on that has begun. -/
theorem carries_of_begun {i : ℕ} {a : Proxy.CallAction} (hne : (s.proxy.calls i).stage ≠ .idle)
    (hst : (d.env.system.step s.proxy (.call i a)).isSome = true) :
    d.carries s (.proxy (.call i a)) = true := by
  cases a with
  | begin =>
    -- Only an idle call begins.
    simp only [Proxy.Setup.system, Proxy.Setup.callStep] at hst
    cases hst
  | _ => rfl

/-- Until the connection and its calls are done, one of them can do a step. -/
theorem exists_own (hs : d.system.Reachable s) (h : Left d k N s) (hd : ¬Departed d k s) :
    ∃ a, Own d k a ∧ (d.system.step s a).isSome = true := by
  by_cases hdone : (s.conns k).Done
  · obtain ⟨n, hserved⟩ : ∃ n, (d.call s k n).stage ≠ .idle ∧
        ∀ r, (d.call s k n).stage ≠ .returned r := by
      by_contra hn
      push Not at hn
      exact hd ⟨hdone, fun n => or_iff_not_imp_left.2 (hn n)⟩
    obtain ⟨a, ha, hsome⟩ : ∃ a : Proxy.CallAction, a.cost = 1 ∧
        (d.env.system.step s.proxy (.call (d.callOf k n) a)).isSome = true := by
      have hsink := h.sinks n (spawned_of_stage hs hserved.1)
      obtain ⟨a, ha, -, hsome⟩ := Proxy.Setup.exists_step hserved (.inr hsink)
      exact ⟨a, ha, hsome⟩
    refine ⟨_, .call (n := n) ha, ?_⟩
    simpa [system, step, carries_of_begun hserved.1 hsome] using hsome
  · obtain ⟨b, hb, hsome⟩ := Shim.Conn.canStep (conn_reachable hs k) h.main hdone
    refine ⟨_, .conn hb, ?_⟩
    simpa [system, step, carries_of_internal hb, Shim.Conn.system] using hsome

/-! ## The law -/

/-- How a visitor departs. -/
structure Departs (d : Deployment Filter) (k : ℕ) (s : State Filter) : Prop where
  /-- The connection and its calls have only so many steps left, but for what the upstream
      still sends. -/
  bounded : ∀ l s', d.system.runBy (fun _ _ => True) s l = some s' →
    (l.map (d.cost k)).sum ≤ d.work s k + (l.map (gain k (s.conns k).inbound.length)).sum
  /-- Until they are done, one of them can do a step, and waits for no notification. -/
  progress : ∀ s', d.system.Leads s s' → ¬Departed d k s' →
    ∃ a, Own d k a ∧ (d.system.step s' a).isSome = true
  /-- Then no upstream subscription is open that was opened for the visitor, -/
  released : ∀ s', d.system.Leads s s' → Departed d k s' →
    ∀ n, d.env.upstreamId (d.callOf k n) ∉ s'.proxy.opened
  /-- and the visitor has been given every frame, unless its socket failed. -/
  drained : ∀ s', d.system.Leads s s' → Departed d k s' → (s'.conns k).sinkFailed = false →
    (s'.conns k).given = (s'.conns k).channel.sent

/-- Whatever the interleaving, a visitor that leaves, leaves nothing behind. -/
theorem departs (hs : d.system.Reachable s) (hl : (s.conns k).main.looping = false)
    (hsinks : ∀ n, (s.task k n).stage ≠ .absent → (d.call s k n).active = false) :
    Departs d k s where
  bounded l s' hrun := by
    have h := (amortized d k _).sum_cost_le ⟨hs, hl, rfl, hsinks⟩ hrun
    omega
  progress s' hlead hd := exists_own (N := (s.conns k).inbound.length) (hs.leads hlead)
    (hlead.invariant (P := Left d k (s.conns k).inbound.length)
      (fun _ _ _ _ h hst => h.step hst) hs ⟨hl, rfl, hsinks⟩) hd
  released s' hlead hd n hmem := by
    have hheld := ((Proxy.Setup.opened (proxy_reachable (hs.leads hlead))).mem_iff _).1 hmem
    -- Neither a call that has not begun nor one that has returned holds a subscription.
    rcases hd.calls n with h | ⟨r, h⟩ <;> rw [h] at hheld <;> cases hheld
  drained s' hlead hd := (hd.bridge.drained (conn_reachable (hs.leads hlead) k)).2

/-- A visitor subscribes, and is gone before it has read the event that the upstream has sent;
    the outlay notices. -/
def subscribeAndLeave : List Action :=
  [.conn 0 (.inbound (.text "[\"REQ\",\"sub1\",\x7b\x7d]")), .proxy (.call 0 .begin),
    .proxy (.call 0 .issue), .proxy (.call 0 (.answer (.ok ()))), .proxy (.call 0 .start),
    .conn 0 (.task 0 .established),
    .proxy (.notify (.message "wss://up" (.event "u" (.obj [])))), .proxy (.call 0 .recv),
    .proxy (.call 0 (.write true)), .conn 0 (.inbound .eof), .proxy (.call 0 .deactivate)]

/-- Its subscription is open, and its departure takes 73 steps at most, if the upstream sends
    nothing more. -/
theorem departs_subscribeAndLeave : ∃ s : State Json, s.proxy.opened = ["u"] ∧
    sameSub.work s 0 = 73 ∧ Departs sameSub 0 s := by
  obtain ⟨s, hs, hp⟩ := System.exists_reachableBy (M := sameSub.system) (C := fun _ _ => True)
    subscribeAndLeave (fun s => decide (s.proxy.opened = ["u"] ∧ sameSub.work s 0 = 73 ∧
      (s.conns 0).main.looping = false ∧ (s.conns 0).inbound.length = 2 ∧
      (s.task 0 1).stage = .absent ∧ (sameSub.call s 0 0).active = false)) (by decide +kernel)
  obtain ⟨hopened, hwork, hl, hlen, habsent, hsink⟩ := of_decide_eq_true hp
  refine ⟨s, hopened, hwork, departs hs hl fun n hn => ?_⟩
  -- Only the first of its two items has a task.
  have hlt : n < 2 := hlen ▸ Shim.Conn.lt_of_spawned (conn_reachable hs 0) (.inl hn)
  interval_cases n
  exacts [hsink, absurd habsent hn]

end Outlay.Deployment

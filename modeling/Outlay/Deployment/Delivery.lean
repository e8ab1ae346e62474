import Outlay.Deployment.System
import Outlay.Json.Read
import Outlay.Proxy.Lag
import Outlay.Proxy.Unwind

/-!
# Delivery

What a visitor is given for a REQ comes, whatever the interleaving, from one upstream
subscription, which is that REQ's own: the frames are a prefix of the bodies that the
proxy's receiver has yielded for it, in their order, up to the first final one, under
the sub_id that the visitor has picked, and a closing frame of the shim's own if the
call has failed (`delivered`). So it does not matter which sub_ids other visitors of
the outlay have picked. And in a run in which the call keeps up with the upstream,
nothing is lost on the way (`lossless`).

* `Begun`: the proxy serves a call with the REQ of its task.
* `Carried`: the chunks read are a prefix of those written, and all of them once the
  stream has ended.
-/

namespace Outlay.Shim.Conn

open Async

variable {decode : String → Option Json} {s s' : Conn} {n : ℕ}

/-- What an item asks for never changes. -/
theorem Step.request {a : ConnAction} (h : Step decode s a s') {r : Option ClientMsg}
    (hr : s.request decode n = some r) : s'.request decode n = some r := by
  cases h with
  | inbound f _ =>
    have hn : n ≠ s.inbound.length := by
      rintro rfl
      rw [Conn.request, List.getElem?_eq_none le_rfl] at hr
      cases hr
    exact (request_of_ne rfl hn).trans hr
  | notice | signal | cleaned | join | task | send | published | ack | recv | drained | wrote
  | broke | closed => exact hr

/-- A task that was not spawned has consumed nothing. -/
theorem not_taken_of_absent (hs : (system decode).Reachable s)
    (h : (s.tasks n).stage = .absent) : (s.tasks n).taken = false := by
  refine task_invariant (P := fun t => t.stage = .absent → t.taken = false) (fun _ => rfl)
    (fun _ _ h => nomatch h) (fun _ h => h) (fun t a t' _ hst hs' => ?_) ?_ hs h
  · cases hst with
    | arm ha _ => rcases ha with ha | ha <;> simp [ha] at hs'
    | _ => cases hs'
  · intro s frame last _ _ _ hs'
    cases last <;> cases ha : s.channel.alive <;> simp [Task.afterSend, ha] at hs'

end Outlay.Shim.Conn

/-- As long as its sink is active, a call that keeps up has written all messages of its own
    that precede its read position. -/
theorem Outlay.Proxy.Setup.kept {Filter : Type*} {env : Setup Filter} {i : ℕ}
    {s : State Filter} (hs : env.system.ReachableBy (env.KeepsUp i) s) :
    (s.calls i).active = true → Kept env i s.bus (s.calls i) :=
  call_invariant (P := fun bus c => c.active = true → Kept env i bus c) (fun _ => ⟨rfl, rfl⟩)
    (fun _ n hs h ha => (h ha).send (received hs i).pos_le n) (fun _ _ h => h)
    (fun _ _ _ hs hk h hc => Kept.step hs hk h hc) hs

namespace Outlay.Deployment

open Async

variable {Filter : Type*} {d : Deployment Filter} {s s' : State Filter} {k n : ℕ}

/-- The proxy serves the call of a task with what the task was spawned for. -/
def Begun (d : Deployment Filter) (s : State Filter) : Prop :=
  ∀ k n, (d.call s k n).stage ≠ .idle → ∃ subId filters,
    (s.conns k).request d.decode n = some (some (.req subId filters)) ∧
      d.env.params (d.callOf k n) = ⟨subId, filters⟩

/-- A call that leaves its first stage begins. -/
theorem begin_of_idle {env : Proxy.Setup Filter} {bus : Broadcast Proxy.RelayPoolNotification}
    {i : ℕ} {c c' : Proxy.Call Filter} {a : Proxy.CallAction}
    (h : Proxy.Setup.CallStep env bus i c a c') (hs : c.stage = .idle) (hs' : c'.stage ≠ .idle) :
    a = .begin := by
  cases h with
  | reject _ _ | register _ _ => rfl
  | deactivate => exact absurd hs hs'
  | issue h | accepted h | refused h | start h | take h _ _ | skip h _ _ | lag h _ | drained h
  | write _ h | alive h _ | dead h _ | unsubscribe h | finish h =>
    rw [hs] at h
    cases h

/-- The proxy only serves calls with what their tasks were spawned for. -/
theorem begun (hs : d.system.Reachable s) : Begun d s := by
  refine hs.invariant (P := Begun d) (fun _ _ h => absurd rfl h) fun s a s' hs h _ hst k n hc => ?_
  obtain ⟨hcar, ⟨b, p, rfl, hp, rfl⟩ | ⟨l, b, c, rfl, hstep, rfl⟩⟩ := step_cases hst
  · -- Only the first step of a call matters.
    by_cases hidle : (d.call s k n).stage = .idle
    · obtain ⟨_, rfl, _, rfl⟩ | ⟨rfl, rfl⟩ | ⟨i, b, c, rfl, hcall, rfl⟩ :=
        Proxy.Setup.step_cases hp
      · exact absurd hidle hc
      · exact absurd hidle hc
      · by_cases hi : i = d.callOf k n
        · subst hi
          obtain rfl := begin_of_idle hcall hidle (by simpa [call] using hc)
          have howner := (d.owner_eq_some (d.callOf k n) k n).2 rfl
          simp only [carries, howner, decide_eq_true_eq] at hcar
          obtain ⟨hspawned, hargs⟩ := hcar
          have hA := Shim.Conn.assigned (conn_reachable hs k) n
          obtain ⟨subId, filters, hreq, -⟩ := hA.req hspawned
          rw [Shim.Conn.Assigned, hreq] at hA
          rw [hA.2.2.1, Proxy.SubscribeParams.ofArgs_subscribeArgs] at hargs
          exact ⟨subId, filters, hreq, (Option.some.inj hargs).symm⟩
        · exact absurd hidle (by simpa [call, Function.update_of_ne (Ne.symm hi)] using hc)
    · exact h k n hidle
  · obtain ⟨subId, filters, hreq, hparams⟩ := h k n hc
    refine ⟨subId, filters, ?_, hparams⟩
    by_cases hl : k = l
    · subst hl
      simpa using hstep.request hreq
    · simpa [Function.update_of_ne hl] using hreq

/-! ## What the tasks have read -/

/-- What a task has read of what its call has written. -/
structure Carried (t : Shim.Task) (c : Proxy.Call Filter) : Prop where
  /-- A prefix of the chunks written. -/
  read : t.read <+: c.written
  /-- Everything, if the stream has ended, and then the call has closed its sink. -/
  finished : t.call = .finished → t.read = c.written ∧ c.closes ≠ 0

/-- Reading the next chunk. -/
theorem Carried.chunk {t : Shim.Task} {c : Proxy.Call Filter} (h : Carried t c) {x : String}
    (hx : c.written[t.read.length]? = some x) : t.read ++ [x] <+: c.written := by
  obtain ⟨r, hr⟩ := h.read
  rw [← hr, List.getElem?_append_right le_rfl, Nat.sub_self] at hx
  cases r with
  | nil => cases hx
  | cons y r =>
    obtain rfl := Option.some.inj hx
    exact ⟨r, by rw [← hr, List.append_assoc, List.singleton_append]⟩

/-- A task that moves reads what the transport lets through. -/
theorem Carried.move {b : Shim.ConnAction} {t : Shim.Task}
    (h : Carried (s.task k n) (d.call s k n)) (hcar : d.carries s (.conn k b) = true)
    (hm : Shim.Conn.TaskMove (s.conns k) n b t) : Carried t (d.call s k n) := by
  cases hm with
  | stay => exact h
  | signal => exact ⟨h.read, h.finished⟩
  | spawn subId filters _ => exact ⟨List.nil_prefix, fun hf => (by cases hf)⟩
  | send _ => exact ⟨h.read, h.finished⟩
  | step ht =>
    cases ht with
    | arm _ _ | bail _ _ | abort _ _ | aborted _ => exact ⟨h.read, h.finished⟩
    | established _ | refused _ | error _ => exact ⟨h.read, fun hf => (by cases hf)⟩
    | @chunk x _ =>
      simp only [carries, decide_eq_true_eq] at hcar
      refine ⟨h.chunk hcar, fun hf => ?_⟩
      -- A stream that has ended yields nothing more.
      rw [(h.finished hf).1, List.getElem?_eq_none le_rfl] at hcar
      cases hcar
    | finish _ =>
      simp only [carries, decide_eq_true_eq] at hcar
      exact ⟨h.read, fun _ => hcar⟩

/-- A call that has closed its sink writes nothing more. -/
theorem written_of_closes {env : Proxy.Setup Filter} {bus : Broadcast Proxy.RelayPoolNotification}
    {i : ℕ} {c c' : Proxy.Call Filter} {a : Proxy.CallAction} (hun : env.Unwinds i c)
    (hcl : c.closes ≠ 0) (h : Proxy.Setup.CallStep env bus i c a c') :
    c'.written = c.written ∧ c'.closes = c.closes := by
  cases h with
  | deactivate => exact ⟨rfl, rfl⟩
  | reject h _ | register h _ | issue h | accepted h | refused h | start h | take h _ _
  | skip h _ _ | lag h _ | drained h | write _ h | alive h _ | dead h _ | unsubscribe h
  | finish h =>
    simp only [Proxy.Setup.Unwinds, h] at hun
    omega

/-- Every task has read what it should. -/
theorem carried (hs : d.system.Reachable s) (k n : ℕ) :
    Carried (s.task k n) (d.call s k n) := by
  refine hs.invariant (P := fun s => Carried (s.task k n) (d.call s k n))
    ⟨List.nil_prefix, fun h => (by cases h)⟩ fun s a s' hs h _ hst => ?_
  obtain ⟨hcar, ⟨b, p, rfl, hp, rfl⟩ | ⟨l, b, c, rfl, hstep, rfl⟩⟩ := step_cases hst
  · obtain ⟨_, rfl, _, rfl⟩ | ⟨rfl, rfl⟩ | ⟨i, b, c, rfl, hcall, rfl⟩ :=
      Proxy.Setup.step_cases hp
    · exact h
    · exact h
    · change Carried (s.task k n) (Function.update s.proxy.calls i c (d.callOf k n))
      by_cases hi : i = d.callOf k n
      · subst hi
        rw [Function.update_self]
        have hun := Proxy.Setup.unwinds (proxy_reachable hs) (d.callOf k n)
        refine ⟨h.read.trans hcall.grows.written, fun hf => ?_⟩
        obtain ⟨hall, hcl⟩ := h.finished hf
        obtain ⟨hw, hc⟩ := written_of_closes hun hcl hcall
        exact ⟨hall.trans hw.symm, hc ▸ hcl⟩
      · rwa [Function.update_of_ne (Ne.symm hi)]
  · by_cases hl : k = l
    · subst hl
      simpa [State.task] using h.move hcar (hstep.taskMove n)
    · simpa [State.task, Function.update_of_ne hl] using h

/-! ## The law -/

/-- What the visitor on the connection `k` is given for its item `n`, a REQ. -/
structure Delivered (d : Deployment Filter) (s : State Filter) (k n : ℕ) (subId : String)
    (filters : List Json) : Prop where
  /-- The call that serves it has its sub_id and its filters. -/
  params : (d.call s k n).stage ≠ .idle → d.env.params (d.callOf k n) = ⟨subId, filters⟩
  /-- The frames given are bodies of this call, up to the first final one, under its sub_id, in
      their order, and a frame of the shim's own if the call has failed. -/
  frames : ∃ bs, bs <+: through Proxy.Body.final
      (d.env.bodies (d.callOf k n) (d.call s k n).yielded) ∧
    Shim.framesOf n (s.conns k).given <+:
      bs.map (Proxy.Body.relabel subId) ++ (s.task k n).call.closing subId
  /-- The upstream has sent them in this order. -/
  order : (d.call s k n).yielded.Sublist
    (s.proxy.bus.log.drop (d.call s k n).registeredAt)
  /-- No other call owns any of them. -/
  isolated : ∀ f ∈ Shim.framesOf n (s.conns k).given,
    f ∈ (s.task k n).call.closing subId ∨ ∃ m ∈ (d.call s k n).yielded, ∃ b,
      Proxy.ownBody (d.env.upstreamId (d.callOf k n)) m = some b ∧ f = b.relabel subId ∧
        ∀ j, j ≠ d.callOf k n → m.tag ≠ some (d.env.upstreamId j)

/-- The call of a REQ is made with what the REQ asks for. -/
theorem params_eq (hs : d.system.Reachable s) {subId : String} {filters : List Json}
    (hreq : (s.conns k).request d.decode n = some (some (.req subId filters)))
    (hc : (d.call s k n).stage ≠ .idle) :
    d.env.params (d.callOf k n) = ⟨subId, filters⟩ := by
  obtain ⟨_, _, hreq', hparams⟩ := begun hs k n hc
  rw [hreq] at hreq'
  obtain ⟨rfl, rfl⟩ := Shim.ClientMsg.req.inj (Option.some.inj (Option.some.inj hreq'))
  exact hparams

/-- The chunks that a task has read are those of bodies of its call, under the sub_id of
    its REQ. -/
theorem exists_read_eq (hs : d.system.Reachable s) {subId : String} {filters : List Json}
    (hreq : (s.conns k).request d.decode n = some (some (.req subId filters))) :
    ∃ bs, bs <+: through Proxy.Body.final
        (d.env.bodies (d.callOf k n) (d.call s k n).yielded) ∧
      (s.task k n).read = bs.map (Proxy.Body.relabel subId) := by
  have hread := (carried hs k n).read
  have hstr := Proxy.Setup.streamed (proxy_reachable hs) (d.callOf k n)
  by_cases hidle : (d.call s k n).stage = .idle
  · simp only [Proxy.Setup.Streamed, hidle] at hstr
    rw [hstr.2, List.prefix_nil] at hread
    exact ⟨[], List.nil_prefix, hread⟩
  · -- The chunks written are those of the bodies, under the sub_id the call was made with.
    have hsub : d.env.clientSub (d.callOf k n) = subId :=
      congrArg Proxy.SubscribeParams.subscriptionId (params_eq hs hreq hidle)
    have hexp := hread.trans hstr.written_expected
    rw [Proxy.Setup.expected, hsub, List.prefix_iff_eq_take, ← List.map_take] at hexp
    exact ⟨_, List.take_prefix _ _, hexp⟩

/-- Whatever the interleaving, every visitor is given for a REQ what its own upstream
    subscription yields, and nothing of what others have subscribed to. -/
theorem delivered (hs : d.system.Reachable s) {subId : String} {filters : List Json}
    (hreq : (s.conns k).request d.decode n = some (some (.req subId filters))) :
    Delivered d s k n subId filters := by
  obtain ⟨bs, hbs, hread⟩ := exists_read_eq hs hreq
  have hdemux := Proxy.Setup.received (proxy_reachable hs) (d.callOf k n)
  have hgiven := Shim.Conn.given_isPrefix (conn_reachable hs k) n
  simp only [Shim.Conn.answer, hreq] at hgiven
  rw [show (s.conns k).tasks n = s.task k n from rfl, hread] at hgiven
  refine ⟨params_eq hs hreq, ⟨bs, hbs, hgiven⟩, ?_, fun f hf => ?_⟩
  · refine hdemux.yielded.trans ?_
    rw [Broadcast.seen, List.drop_take]
    exact List.take_sublist _ _
  · rcases List.mem_append.1 (hgiven.subset hf) with hf | hf
    · obtain ⟨b, hb, rfl⟩ := List.mem_map.1 hf
      obtain ⟨m, hm, hmb⟩ := List.mem_filterMap.1 ((through_isPrefix _).subset (hbs.subset hb))
      refine .inr ⟨m, hm, b, hmb, rfl, fun j hj hmj => ?_⟩
      rw [Proxy.ownBody_eq_none hmj fun h => hj (d.env.upstreamId_injective h)] at hmb
      cases hmb
    · exact .inl hf

/-! ## Nothing lost -/

/-- The call of a task keeps up with the traffic of the upstream. -/
def KeepsUp (d : Deployment Filter) (k n : ℕ) (s : State Filter) : Action → Prop
  | .proxy a => d.env.KeepsUp (d.callOf k n) s.proxy a
  | .conn _ _ => True

/-- What a visitor has been given for a REQ whose stream has ended. -/
structure Complete (d : Deployment Filter) (s : State Filter) (k n : ℕ) : Prop where
  /-- Everything its call has written, and nothing else. -/
  given : Shim.framesOf n (s.conns k).given = (d.call s k n).written
  /-- Among it all messages that the upstream has sent for its subscription before the call
      stopped listening. -/
  nothingLost : (d.call s k n).active = true →
    (d.env.ownChunks (d.callOf k n) (s.proxy.bus.seen (d.call s k n).readPos)).Sublist
      (Shim.framesOf n (s.conns k).given)

/-- In every run in which the call of a task keeps up, the visitor loses nothing: once its
    stream has ended, and the connection is settled and drained, it has been given everything
    of its subscription. -/
theorem lossless (hs : d.system.ReachableBy (KeepsUp d k n) s) {subId : String}
    {filters : List Json} (hreq : (s.conns k).request d.decode n = some (some (.req subId filters)))
    (hfin : (s.task k n).call = .finished) (hset : Shim.Conn.Settled (s.conns k))
    (hdr : (s.conns k).channel.queue = [] ∨ (s.conns k).writer = .returned) :
    Complete d s k n := by
  have hgiven := hset.framesOf_given (conn_reachable hs.reachable k) hdr n
  have hread := ((carried hs.reachable k n).finished hfin).1
  -- A stream that has ended without error has no closing frame.
  simp only [Shim.Conn.answer, hreq] at hgiven
  rw [show (s.conns k).tasks n = s.task k n from rfl, hfin, hread,
    show Shim.CallStatus.finished.closing subId = [] from rfl, List.append_nil] at hgiven
  have hproxy : d.env.system.ReachableBy (d.env.KeepsUp (d.callOf k n)) s.proxy :=
    proxy_reachableBy (fun _ _ h => h) hs
  exact ⟨hgiven, fun ha => hgiven ▸ (Proxy.Setup.kept hproxy ha).sublist⟩

/-! ## Two visitors with the same sub_id -/

/-- An outlay that decodes any filter, and a shim whose visitors all pick the sub_id `sub1`. -/
def sameSub : Deployment Json where
  env := Proxy.Setup.sameSub 4 (by decide)
  decode := Json.parse some
  callOf := Nat.pair
  owner i := some (Nat.unpair i)
  owner_eq_some _ k n := ⟨fun h => Nat.pair_eq_of_unpair_eq (Option.some.inj h),
    fun h => h ▸ congrArg some (Nat.unpair_pair k n)⟩

/-- Both visitors subscribe, and the upstream has an event for the second. -/
def bothSubscribe : List Action :=
  [.conn 0 (.inbound (.text "[\"REQ\",\"sub1\",\x7b\x7d]")),
    .conn 1 (.inbound (.text "[\"REQ\",\"sub1\",\x7b\x7d]")),
    .proxy (.call 0 .begin), .proxy (.call 2 .begin), .proxy (.call 0 .issue),
    .proxy (.call 2 .issue), .proxy (.call 0 (.answer (.ok ()))),
    .proxy (.call 2 (.answer (.ok ()))), .proxy (.call 0 .start), .proxy (.call 2 .start),
    .conn 0 (.task 0 .established), .conn 1 (.task 0 .established),
    .proxy (.notify (.message "wss://up" (.event "uuu" (.obj [])))), .proxy (.call 0 .recv),
    .proxy (.call 2 .recv), .proxy (.call 2 (.write true)),
    .conn 1 (.task 0 (.chunk "[\"EVENT\",\"sub1\",\x7b\x7d]")), .conn 1 (.send 0),
    .conn 1 .recv]

/-- Only the second visitor is given the event. -/
theorem delivered_bothSubscribe : ∃ s : State Json, (s.conns 0).given = [] ∧
    (s.conns 1).given = [(0, "[\"EVENT\",\"sub1\",\x7b\x7d]")] ∧
      Delivered sameSub s 0 0 "sub1" [.obj []] ∧ Delivered sameSub s 1 0 "sub1" [.obj []] := by
  obtain ⟨s, hs, hp⟩ := System.exists_reachableBy (M := sameSub.system) (C := fun _ _ => True)
    bothSubscribe (fun s => decide ((s.conns 0).given = [] ∧
      (s.conns 1).given = [(0, "[\"EVENT\",\"sub1\",\x7b\x7d]")] ∧
      (s.conns 0).request sameSub.decode 0 = some (some (.req "sub1" [.obj []])) ∧
      (s.conns 1).request sameSub.decode 0 = some (some (.req "sub1" [.obj []]))))
    (by decide +kernel)
  obtain ⟨h₀, h₁, hreq₀, hreq₁⟩ := of_decide_eq_true hp
  exact ⟨s, h₀, h₁, delivered hs hreq₀, delivered hs hreq₁⟩

/-- A visitor subscribes, the upstream closes its subscription, and the stream ends. -/
def subscribeAndEnd : List Action :=
  [.conn 0 (.inbound (.text "[\"REQ\",\"sub1\",\x7b\x7d]")), .proxy (.call 0 .begin),
    .proxy (.call 0 .issue), .proxy (.call 0 (.answer (.ok ()))), .proxy (.call 0 .start),
    .conn 0 (.task 0 .established), .proxy (.notify (.message "wss://up" (.closed "u" "done"))),
    .proxy (.call 0 .recv), .proxy (.call 0 (.write true)), .proxy (.call 0 .unsubscribe),
    .proxy (.call 0 .finish), .conn 0 (.task 0 (.chunk "[\"CLOSED\",\"sub1\",\"done\"]")),
    .conn 0 (.send 0), .conn 0 .recv, .conn 0 (.wrote true), .conn 0 (.task 0 .finish)]

instance (k n : ℕ) (s : State Filter) : DecidablePred (d.KeepsUp k n s)
  | .proxy a => inferInstanceAs (Decidable (d.env.KeepsUp (d.callOf k n) s.proxy a))
  | .conn _ _ => .isTrue trivial

/-- The visitor has been given all of its subscription. -/
theorem lossless_subscribeAndEnd : ∃ s : State Json,
    (s.conns 0).given = [(0, "[\"CLOSED\",\"sub1\",\"done\"]")] ∧ Complete sameSub s 0 0 := by
  obtain ⟨s, hs, hp⟩ := System.exists_reachableBy (M := sameSub.system)
    (C := sameSub.KeepsUp 0 0) subscribeAndEnd (fun s => decide (
      (s.conns 0).given = [(0, "[\"CLOSED\",\"sub1\",\"done\"]")] ∧
      (s.conns 0).request sameSub.decode 0 = some (some (.req "sub1" [.obj []])) ∧
      (s.task 0 0).call = .finished ∧ (s.conns 0).channel.queue = [] ∧
      (s.conns 0).inbound.length = 1 ∧ (s.task 0 0).running = false ∧
      ((s.conns 0).publishes 0).running = false ∧ (s.task 0 0).signals = 0 ∧
      (s.conns 0).main = .reading ∧ (s.conns 0).sinkFailed = false)) (by decide +kernel)
  obtain ⟨hg, hreq, hfin, hq, hlen, ht, hpub, hsig, hmain, hsink⟩ := of_decide_eq_true hp
  have hconn := conn_reachable hs.reachable 0
  have habsent : ∀ n, n ≠ 0 → ((s.conns 0).tasks n).stage = .absent ∧
      ((s.conns 0).publishes n).stage = .absent := fun n hn =>
    Shim.Conn.absent_of_le hconn (by omega)
  refine ⟨s, hg, lossless hs hreq hfin ⟨fun n => ?_, fun n => ?_, fun n => by simp [hmain], hsink⟩
    (.inl hq)⟩
  · by_cases hn : n = 0
    · subst hn
      exact ⟨ht, hpub⟩
    · simp [Shim.Task.running, Shim.Publish.running, habsent n hn]
  · by_cases hn : n = 0
    · subst hn
      exact .inl hsig
    · exact .inr (Shim.Conn.not_taken_of_absent hconn (habsent n hn).1)

end Outlay.Deployment

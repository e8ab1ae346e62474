import Outlay.Proxy.Ending
import Outlay.Shim.Outbound

/-!
# The end of a subscription

A subscribe task may end without the client having asked for it: its call is
refused, or its stream yields an error or ends. In the first two cases the task
reports the end with a CLOSED frame; in the last one it just returns, relying on
the stream having yielded a CLOSED chunk before. But nothing makes it do so: the
loop of an outlay that finds its notification channel closed writes no such chunk
before it closes its sink (`Proxy.Setup.closes_silently`), and the client is left
believing that its subscription is live (`not_reported`).

The end is reported in every run in which streams only end after a CLOSED chunk
(`reported`), as they do for the calls of an outlay that do not find the channel
closed, and whose writes do not fail (`lastClosed_of_call`).
-/

namespace Outlay.Shim

open Async

namespace Conn

variable {decode : String → Option Json} {s s' : Conn} {n : ℕ}

/-- The last frame is a CLOSED frame for the sub_id. -/
def LastClosed (subId : String) (frames : List String) : Prop :=
  ∃ msg, frames.getLast? = some (closedFrame subId msg)

/-- A task that has returned without having been signalled, while the channel is
    open, has reported the end of its subscription. -/
def Reported (s : Conn) (n : ℕ) : Prop :=
  (s.tasks n).stage = .returned → (s.tasks n).signals = 0 → s.channel.alive = true →
    LastClosed (s.tasks n).subId (framesOf n s.channel.sent)

/-- The stream of the task `n` only ends after a CLOSED chunk, unless the task was
    signalled or the channel is closed. -/
def EndsClosed (n : ℕ) (s : Conn) : ConnAction → Prop
  | .task m .finish => m = n → (s.tasks n).signals = 0 → s.channel.alive = true →
      LastClosed (s.tasks n).subId (s.tasks n).read
  | _ => True

/-! ## What a step enqueues for an item -/

/-- A step other than a send of the task `n` enqueues nothing for it. -/
theorem framesOf_step {a : ConnAction} (hst : Step decode s a s') (ha : a ≠ .send n)
    (hm : s.main ≠ .noticing n) (hp : (s.publishes n).stage = .absent) :
    framesOf n s'.channel.sent = framesOf n s.channel.sent := by
  cases hst with
  | inbound => rw [handle_channel]
  | @notice m _ _ hm' hc =>
    exact (framesOf_of_send hc).2 n fun hn => hm (hn ▸ hm')
  | @send m _ _ _ _ _ hc => exact (framesOf_of_send hc).2 n fun hn => ha (hn ▸ rfl)
  | @ack m _ _ _ hs _ hc =>
    refine (framesOf_of_send hc).2 n fun hn => ?_
    rw [hn, hs] at hp
    cases hp
  | recv _ hc => rw [Mpsc.sent_recv hc]
  | signal | cleaned | join | task | published | drained | wrote | broke | closed => rfl

/-- The receiver of the channel does not come back. -/
theorem alive_of_step {a : ConnAction} (hst : Step decode s a s')
    (h : s'.channel.alive = true) : s.channel.alive = true := by
  cases hst with
  | inbound => rwa [handle_channel] at h
  | notice _ hc | send _ hc | ack _ _ hc => exact (Mpsc.frame_of_send hc).2 ▸ h
  | recv _ hc => exact (Mpsc.recv_eq_some hc).2.2 ▸ h
  | closed => cases h
  | signal | cleaned | join | task | published | drained | wrote | broke => exact h

/-- What the task `n` has enqueued, stage by stage, as long as the channel is open. -/
def TaskEnqueued (s : Conn) (n : ℕ) : Prop :=
  (s.tasks n).stage ≠ .absent →
    TaskSent (s.tasks n) (!s.channel.alive) (framesOf n s.channel.sent)

/-- An item with a subscribe task has no other sender. -/
theorem only_sender (hs : (system decode).Reachable s) (ht : (s.tasks n).stage ≠ .absent) :
    s.main ≠ .noticing n ∧ (s.publishes n).stage = .absent := by
  have hA := assigned hs n
  obtain ⟨subId, filters, hreq, -⟩ := hA.req ht
  rw [Assigned, hreq] at hA
  refine ⟨fun hm => ?_, hA.2.2.2⟩
  have := request_of_noticing hs n hm
  rw [hreq] at this
  cases this

/-- Every step keeps what a task has enqueued as it should be. -/
theorem TaskEnqueued.step {a : ConnAction} (hs : (system decode).Reachable s)
    (h : s.TaskEnqueued n) (hst : Step decode s a s') : s'.TaskEnqueued n := by
  intro ht'
  have hclosed : (!s.channel.alive) = true → (!s'.channel.alive) = true := by
    cases hal : s'.channel.alive with
    | false => exact fun _ => rfl
    | true => simp [alive_of_step hst hal]
  by_cases ha : a = .send n
  · -- The send completes, and fails only on a closed channel.
    subst ha
    cases hst with
    | @send _ frame last ok ch hf hc =>
      obtain ⟨hself, -⟩ := framesOf_of_send hc
      have hfail : ok = false → (!s.channel.alive) = true := fun hok => by
        rw [Mpsc.alive_of_send hc, hok]
        rfl
      have hsent := (h (by simp [hf])).send hf hfail
      simpa only [Function.update_self, hself] using hsent.mono hclosed
  · have hmove := hst.taskMove n
    have hframes : (s.tasks n).stage ≠ .absent →
        framesOf n s'.channel.sent = framesOf n s.channel.sent := fun ht =>
      framesOf_step hst ha (only_sender hs ht).1 (only_sender hs ht).2
    generalize s'.tasks n = t at hmove ht'
    cases hmove with
    | stay => exact hframes ht' ▸ (h ht').mono hclosed
    | signal => exact hframes ht' ▸ TaskSent.mono (t := (s.tasks n).signal) (h ht') hclosed
    | spawn subId filters hn =>
      -- For the item just read nothing has been enqueued yet.
      have hnil : framesOf n s.channel.sent = [] := by
        have hreq : s.request decode n = none := by
          rw [request, List.getElem?_eq_none hn.ge, Option.bind_none]
        simpa only [Sent, hreq] using sent hs n
      cases hst with
      | inbound => rw [handle_channel, hnil]; exact ⟨rfl, rfl, rfl⟩
    | step ht =>
      exact hframes ht.spawned ▸ ((h ht.spawned).step ht).mono hclosed
    | send _ => exact absurd rfl ha

/-- What a task has enqueued is always as it should be. -/
theorem taskEnqueued (hs : (system decode).Reachable s) (n : ℕ) : s.TaskEnqueued n :=
  hs.invariant (P := fun s => s.TaskEnqueued n) (fun h => absurd rfl h)
    fun _ _ _ hs h _ hst => h.step hs (step_cases hst)

/-! ## Reporting the end -/

/-- Every stream that has ended did so after a CLOSED chunk, unless its task was
    signalled or the channel is closed. -/
def EndedClosed (s : Conn) (n : ℕ) : Prop :=
  (s.tasks n).call = .finished → (s.tasks n).signals = 0 → s.channel.alive = true →
    LastClosed (s.tasks n).subId (s.tasks n).read

/-- Every step keeps the streams that have ended as they should be. -/
theorem EndedClosed.step {a : ConnAction} (hs : (system decode).Reachable s)
    (h : s.EndedClosed n) (ha : EndsClosed n s a) (hst : Step decode s a s') :
    s'.EndedClosed n := by
  have hmove := hst.taskMove n
  have halive := alive_of_step hst
  rw [EndedClosed]
  generalize s'.tasks n = t at hmove
  intro hf hsig hal
  cases hmove with
  | stay => exact h hf hsig (halive hal)
  | spawn => cases hf
  | signal => exact absurd hsig (Nat.succ_ne_zero _)
  | step ht =>
    cases ht with
    | finish _ => exact ha rfl hsig (halive hal)
    | established _ | refused _ | error _ => cases hf
    | chunk hp =>
      -- A stream that yields a chunk has not ended.
      have hsent := taskEnqueued hs n (by simp [hp])
      simp only [TaskSent, hp] at hsent
      exact absurd hf (by simp [hsent.2])
    | arm _ _ | bail _ _ | abort _ _ | aborted _ => exact h hf hsig (halive hal)
  | send hs => exact h hf hsig (halive hal)

/-- In every run in which streams only end after a CLOSED chunk, a subscription
    ended by the server side is reported. -/
theorem reported (hs : (system decode).ReachableBy (EndsClosed n) s) : s.Reported n := by
  intro hr hsig hal
  have hended : s.EndedClosed n := hs.invariant (P := fun s => s.EndedClosed n)
    (fun h => nomatch h) fun _ _ _ hs h ha hst => h.step hs.reachable ha (step_cases hst)
  have hsent := taskEnqueued hs.reachable n (by simp [hr])
  simp only [TaskSent, hr, hal, Bool.not_true, Bool.false_eq_true, false_or,
    not_taken hs.reachable hsig] at hsent
  obtain ⟨-, he, hover⟩ := hsent
  rw [he, Task.output]
  cases hc : (s.tasks n).call with
  | connecting | streaming => rw [hc] at hover; cases hover
  -- The frame synthesized is the last one.
  | refused e | failed e => exact ⟨e, by simp [CallStatus.closing]⟩
  | finished => simpa [CallStatus.closing] using hended hc hsig hal

/-- A stream that carries what a call of an outlay wrote before it closed its sink
    ends with a CLOSED chunk, if the call did not find the channel closed. -/
theorem lastClosed_of_call {Filter : Type*} {env : Proxy.Setup Filter} {i : ℕ}
    {p : Proxy.State Filter} (hp : env.system.ReachableBy (env.Outspoken i) p) {r : Json}
    (hr : (p.calls i).stage = .returned (.ok r)) (hcl : (p.calls i).closes ≠ 0) {t : Task}
    (hsub : t.subId = env.clientSub i) (hread : t.read = (p.calls i).written) :
    LastClosed t.subId t.read := by
  obtain ⟨msg, hmsg⟩ := Proxy.Setup.closedLast hp hr hcl
  exact ⟨msg, by rw [hread, hmsg, hsub]; rfl⟩

/-- Every stream ends after a CLOSED chunk with the given message. -/
def EndsWith (msg : String) (s : Conn) : ConnAction → Prop
  | .task m .finish => (s.tasks m).read.getLast? = some (closedFrame (s.tasks m).subId msg)
  | _ => True

instance (msg : String) (s : Conn) : DecidablePred (EndsWith msg s)
  | .task _ .finish => inferInstanceAs (Decidable (_ = _))
  | .task _ .arm | .task _ .established | .task _ (.refused _) | .task _ (.chunk _)
  | .task _ (.error _) | .task _ .takeCancel | .task _ .aborted | .inbound _ | .notice
  | .signal _ | .cleanup | .join | .send _ | .published _ _ | .ack _ | .recv | .wrote _ | .closed =>
    instDecidableTrue

theorem EndsWith.endsClosed {msg : String} {s : Conn} {a : ConnAction} (h : EndsWith msg s a) :
    EndsClosed n s a := by
  cases a with
  | task m b =>
    cases b with
    | finish => exact fun hm _ _ => ⟨msg, hm ▸ h⟩
    | _ => trivial
  | _ => trivial

/-- The decoding of the texts of a client that only subscribes. -/
def subscribeOnly (_ : String) : Option Json := some (.arr [.str "REQ", .str "sub1", .obj []])

/-- A subscription whose stream has yielded the given chunks. -/
def streamOf (chunks : List String) : List ConnAction :=
  [.inbound (.text "[\"REQ\",\"sub1\",\x7b\x7d]"), .task 0 .established] ++
    chunks.flatMap fun c => [.task 0 (.chunk c), .send 0]

/-- The upstream closes the subscription. -/
theorem reported_closed : ∃ s : Conn, (s.tasks 0).stage = .returned ∧
    (s.tasks 0).signals = 0 ∧ s.channel.alive = true ∧ s.Reported 0 := by
  obtain ⟨s, hs, hp⟩ := System.exists_reachableBy (M := system subscribeOnly)
    (C := EndsWith "bye")
    (streamOf ["[\"EOSE\",\"sub1\"]", "[\"CLOSED\",\"sub1\",\"bye\"]"] ++ [.task 0 .finish])
    (fun s => decide ((s.tasks 0).stage = .returned ∧ (s.tasks 0).signals = 0 ∧
      s.channel.alive = true)) (by decide +kernel)
  obtain ⟨hr, hsig, hal⟩ := of_decide_eq_true hp
  exact ⟨s, hr, hsig, hal, reported (hs.mono fun _ _ h => h.endsClosed)⟩

/-- The stream ends after the stored events, as that of an outlay whose pool goes
    away; the task returns, and the last frame for its client is EOSE. -/
theorem not_reported : ¬∀ (decode : String → Option Json) (s : Conn) (n : ℕ),
    (system decode).Reachable s → s.Reported n := by
  intro h
  obtain ⟨s, hs, hp⟩ := System.exists_reachableBy (M := system subscribeOnly)
    (C := fun _ _ => True) (streamOf ["[\"EOSE\",\"sub1\"]"] ++ [.task 0 .finish])
    (fun s => decide ((s.tasks 0).stage = .returned ∧ (s.tasks 0).signals = 0 ∧
      s.channel.alive = true ∧ framesOf 0 s.channel.sent = ["[\"EOSE\",\"sub1\"]"])) (by decide)
  obtain ⟨hr, hsig, hal, hf⟩ := of_decide_eq_true hp
  obtain ⟨msg, hmsg⟩ := h _ s 0 hs hr hsig hal
  -- A CLOSED frame does not start as an EOSE frame does.
  rw [hf] at hmsg
  have hquote : Json.quote "CLOSED" = "\"CLOSED\"" := by decide
  have := congrArg (fun t : Option String => t.map fun t => t.toList.take 3) hmsg
  simp [closedFrame, Json.render, Json.renderItems, hquote] at this

end Conn

end Outlay.Shim

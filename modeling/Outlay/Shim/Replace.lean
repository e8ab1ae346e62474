import Outlay.Shim.Outbound

/-!
# Replacing a subscription

A client may re-REQ a live sub_id to replace it. The main loop then signals the
old task, and spawns the new one at once; it does not wait for the old task to
end. An old task that has read a chunk and is sending it does not see the signal,
and its frame may well be enqueued after frames of the new one: an EOSE, say,
that the client takes for the one of its new subscription (`not_isolated`).

The two are kept apart only as long as the old task completes its sends before
the new call has yielded anything (`Prompt`, `isolated`).
-/

namespace Outlay.Shim

open Async

/-- The call of the task has yielded nothing yet: no chunk, and no error. -/
def Task.silent (t : Task) : Bool := decide (t.output = [])

namespace Conn

/-- The sub_id of the item `n`, if it is a REQ. -/
def subOf (decode : String → Option Json) (s : Conn) (n : ℕ) : Option String :=
  match s.request decode n with
  | some (some (.req subId _)) => some subId
  | _ => none

/-- No frame for a REQ is enqueued after a frame for a newer REQ of the same sub_id. -/
def Isolated (decode : String → Option Json) (s : Conn) : Prop :=
  s.channel.sent.Pairwise fun f g =>
    ∀ k, s.subOf decode f.1 = some k → s.subOf decode g.1 = some k → f.1 ≤ g.1

/-- The old tasks are prompt: a task only completes a send while the calls of all
    newer tasks of its sub_id have yielded nothing. -/
def Prompt (s : Conn) : ConnAction → Prop
  | .send n => ∀ m < s.inbound.length, n < m → (s.tasks m).stage ≠ .absent →
      (s.tasks m).subId = (s.tasks n).subId → (s.tasks m).silent = true
  | _ => True

instance (s : Conn) : DecidablePred (Prompt s)
  | .send _ => inferInstanceAs (Decidable (∀ m < _, _ → _ → _ → _))
  | .inbound _ | .notice | .signal _ | .cleanup | .join | .task _ _ | .published _ _ | .ack _
  | .recv | .wrote _ | .closed => instDecidableTrue

variable {decode : String → Option Json} {s s' : Conn} {m n : ℕ}

/-- Reading an item does not change the sub_ids of the others. -/
theorem subOf_of_ne {f : Inbound} (hs' : s'.inbound = s.inbound ++ [f])
    (hn : n ≠ s.inbound.length) : s'.subOf decode n = s.subOf decode n := by
  rw [subOf, subOf, request_of_ne hs' hn]

/-- The task of a REQ was spawned for its sub_id. -/
theorem task_of_subOf (hs : (system decode).Reachable s) {k : String}
    (h : s.subOf decode n = some k) :
    (s.tasks n).stage ≠ .absent ∧ (s.tasks n).subId = k := by
  have hA := assigned hs n
  rw [Assigned] at hA
  rw [subOf] at h
  split at h
  next subId filters hr =>
    rw [hr] at hA
    exact ⟨hA.1, hA.2.1.trans (Option.some.inj h)⟩
  next => cases h

/-- A frame enqueued answers an item that was read. -/
theorem lt_of_mem_sent (hs : (system decode).Reachable s) {f : String}
    (h : (n, f) ∈ s.channel.sent) : n < s.inbound.length := by
  by_contra hn
  have hnil := sent hs n
  rw [Sent, request, List.getElem?_eq_none (not_lt.1 hn), Option.bind_none] at hnil
  have hmem : f ∈ framesOf n s.channel.sent := List.mem_filterMap.2 ⟨(n, f), h, if_pos rfl⟩
  rw [hnil] at hmem
  exact List.not_mem_nil hmem

/-- A task whose call has yielded nothing has enqueued nothing. -/
theorem not_mem_sent (hs : (system decode).Reachable s) {f k : String}
    (hk : s.subOf decode n = some k) (hq : (s.tasks n).silent = true) :
    (n, f) ∉ s.channel.sent := by
  intro h
  obtain ⟨hsp, -⟩ := task_of_subOf hs hk
  obtain ⟨subId, filters, hreq, -⟩ := (assigned hs n).req hsp
  have hpre := ((sent_req hreq).1 (sent hs n)).output
  rw [of_decide_eq_true hq, List.prefix_nil] at hpre
  have hmem : f ∈ framesOf n s.channel.sent := List.mem_filterMap.2 ⟨(n, f), h, if_pos rfl⟩
  rw [hpre] at hmem
  exact List.not_mem_nil hmem

/-- A frame is enqueued in order if no frame for a newer REQ of its sub_id precedes it. -/
theorem Isolated.send {ch : Mpsc (ℕ × String)} {f : String} {ok : Bool} (h : s.Isolated decode)
    (hs' : s'.inbound = s.inbound) (hch : s'.channel = ch)
    (hc : s.channel.send outboundBuf (n, f) = some (ok, ch))
    (hn : ∀ k, s.subOf decode n = some k → ∀ g ∈ s.channel.sent,
      s.subOf decode g.1 = some k → g.1 ≤ n) : s'.Isolated decode := by
  have hsub : ∀ n, s'.subOf decode n = s.subOf decode n := fun n => by
    rw [subOf, subOf, request, request, hs']
  simp only [Isolated, hsub, hch, Mpsc.sent_of_send hc]
  refine List.pairwise_append.2 ⟨h, ?_, fun g hg g' hg' k hk hk' => ?_⟩
  · cases ok <;> simp
  · cases ok with
    | false => simp at hg'
    | true =>
      obtain rfl := List.mem_singleton.1 hg'
      exact hn k hk' g hg hk

/-- In every run in which the old tasks are prompt, no frame of an older call is
    enqueued after a frame of a newer one of the same sub_id. -/
theorem isolated (hs : (system decode).ReachableBy Prompt s) : s.Isolated decode := by
  refine hs.invariant (P := Isolated decode) (by simp [Isolated, system, fresh])
    fun s a s' hs h hC hst => ?_
  have hs := hs.reachable
  cases step_cases hst with
  | inbound f hm =>
    -- The frames enqueued answer items read before.
    simp only [Isolated, handle_channel]
    refine h.imp_of_mem fun {f g} hf hg hfg k hkf hkg => hfg k ?_ ?_
    · rwa [subOf_of_ne rfl (lt_of_mem_sent hs hf).ne] at hkf
    · rwa [subOf_of_ne rfl (lt_of_mem_sent hs hg).ne] at hkg
  | @notice n _ _ hm hc =>
    refine h.send rfl rfl hc fun k hk => ?_
    rw [subOf, request_of_noticing hs n hm] at hk
    cases hk
  | @ack n _ _ _ hp _ hc =>
    refine h.send rfl rfl hc fun k hk => ?_
    obtain ⟨event, hreq, -⟩ := (assigned hs n).publish (by simp [hp])
    rw [subOf, hreq] at hk
    cases hk
  | @send n f last ok ch hf hc =>
    refine h.send rfl rfl hc fun k hk g hg hkg => not_lt.1 fun hlt => ?_
    -- A newer call of the sub_id has yielded nothing, so no frame of it was enqueued.
    obtain ⟨hsp, hsub⟩ := task_of_subOf hs hkg
    have hq := hC g.1 (lt_of_mem_sent hs hg) hlt hsp (hsub.trans (task_of_subOf hs hk).2.symm)
    exact not_mem_sent hs hkg hq hg
  | recv hw hc =>
    simp only [Isolated, Mpsc.sent_recv hc]
    exact h
  | signal | cleaned | join | task | published | drained | wrote | broke | closed => exact h

/-- A subscription that has read its EOSE when it is replaced by another. -/
def replacing : List ConnAction :=
  [req, .task 0 .established, .task 0 (.chunk "[\"EOSE\",\"s\"]"), req, .task 1 .established]

/-- The old task completes its send before the new call yields anything. -/
theorem isolated_replacing : ∃ s : Conn,
    s.channel.sent = [(0, "[\"EOSE\",\"s\"]"), (1, "[\"EVENT\",\"s\",1]")] ∧ s.Isolated sample := by
  obtain ⟨s, hs, hp⟩ := System.exists_reachableBy (M := system sample) (C := Prompt)
    (replacing ++ [.send 0, .task 1 (.chunk "[\"EVENT\",\"s\",1]"), .send 1])
    (fun s => decide (s.channel.sent = [(0, "[\"EOSE\",\"s\"]"), (1, "[\"EVENT\",\"s\",1]")]))
    (by decide)
  exact ⟨s, of_decide_eq_true hp, isolated hs⟩

/-- The new call yields its first event, and its task sends it, while the old task
    still sends its EOSE. -/
theorem not_isolated : ¬∀ (decode : String → Option Json) (s : Conn),
    (system decode).Reachable s → s.Isolated decode := by
  intro h
  obtain ⟨s, hs, hp⟩ := System.exists_reachableBy (M := system sample) (C := fun _ _ => True)
    (replacing ++ [.task 1 (.chunk "[\"EVENT\",\"s\",1]"), .send 1, .send 0])
    (fun s => decide (s.channel.sent = [(1, "[\"EVENT\",\"s\",1]"), (0, "[\"EOSE\",\"s\"]")] ∧
      s.subOf sample 0 = some "s" ∧ s.subOf sample 1 = some "s")) (by decide)
  obtain ⟨hsent, h₀, h₁⟩ := of_decide_eq_true hp
  have hI := h _ s hs
  rw [Isolated, hsent, List.pairwise_pair] at hI
  exact absurd (hI "s" h₁ h₀) (by decide)

end Conn

end Outlay.Shim

import Outlay.Async.Potential
import Outlay.Shim.Outbound

/-!
# A connection winds down

Once the main loop has been left, `handle_ws` signals the tasks, drops its sender and
waits for the writer, which waits for the workers, which may wait for room in the channel
of the writer. This ends (`windsDown`): the steps left are bounded, whatever the
interleaving, but for the chunks that the streams still yield; and until all is done, one
of the parties can do a step that awaits no frame of the client and nothing of a stream:
the writes to the socket have to complete or fail, and the calls of publish tasks to
return.

* `work`: the potential, which every step reduces.
* `canStep_of_send`: a worker that waits in a send waits for the writer only.
-/

namespace Outlay.Shim

open Async

/-- The steps a task has left, if its stream yields nothing more. -/
def TaskStage.work : TaskStage → ℕ
  | .absent | .returned => 0
  | .cancelling => 1
  | .sending _ last => if last then 3 else 7
  | .pumping => 4
  | .setup => 5

/-- The steps a publish task has left. -/
def PublishStage.work : PublishStage → ℕ
  | .absent | .returned => 0
  | .sending => 3
  | .calling => 4

/-- The steps the writer has left, the frames queued excepted. -/
def Writer.work : Writer → ℕ
  | .returned => 0
  | .closing => 1
  | .receiving => 2
  | .writing => 3

/-- The steps `handle_ws` has left, once it has left the main loop. -/
def Main.work : Main → ℕ
  | .reading | .noticing _ | .returned => 0
  | .joining => 1
  | .cleanup rest => rest.length + 2

/-- What an action adds to the steps left. -/
def ConnAction.gain : ConnAction → ℕ
  | .task _ (.chunk _) => 4
  | .task _ .arm => 1
  | _ => 0

/-- An action that awaits neither a frame of the client nor a stream. -/
def ConnAction.internal : ConnAction → Bool
  | .inbound _ => false
  | .task _ .takeCancel | .task _ .aborted => true
  | .task _ _ => false
  | _ => true

/-- A step of a task is paid for. -/
theorem TaskStep.pays {t t' : Task} {a : TaskAction} (h : TaskStep t a t') (n : ℕ) :
    t'.stage.work + 1 ≤ t.stage.work + (ConnAction.task n a).gain := by
  cases h with
  | arm _ _ => exact le_rfl
  | _ hs => simp [TaskStage.work, ConnAction.gain, hs]

namespace Conn

variable {decode : String → Option Json} {s s' : Conn} {n : ℕ}

/-- The steps a connection has left, if the streams yield nothing more. -/
def work (s : Conn) : ℕ :=
  ∑ n ∈ Finset.range s.inbound.length, (s.tasks n).stage.work +
    ∑ n ∈ Finset.range s.inbound.length, (s.publishes n).stage.work +
      2 * s.channel.queue.length + s.writer.work + s.main.work

/-- The bridge is done with the connection. -/
def Done (s : Conn) : Prop :=
  s.main = .returned ∧ ∀ n, (s.tasks n).running = false ∧ (s.publishes n).running = false

/-! ## Paying for the steps -/

/-- A task that has been spawned belongs to an item. -/
theorem lt_of_spawned (hs : (system decode).Reachable s)
    (h : (s.tasks n).stage ≠ .absent ∨ (s.publishes n).stage ≠ .absent) :
    n < s.inbound.length := by
  by_contra hn
  obtain ⟨ht, hp⟩ := absent_of_le hs (not_lt.1 hn)
  exact h.elim (fun h => h ht) fun h => h hp

/-- Sending a frame queues one at most. -/
theorem queue_length_of_send {ch ch' : Mpsc (ℕ × String)} {cap : ℕ} {f : ℕ × String} {ok : Bool}
    (h : ch.send cap f = some (ok, ch')) : ch'.queue.length ≤ ch.queue.length + 1 := by
  obtain ⟨-, -, rfl⟩ | ⟨-, -, rfl⟩ := Mpsc.send_cases h
  · simp
  · exact Nat.le_succ _

/-- Once the main loop has been left, every step is paid for. -/
theorem pays (hs : (system decode).Reachable s) (hl : s.main.looping = false) {a : ConnAction}
    (hst : Step decode s a s') : s'.work + 1 ≤ s.work + a.gain := by
  have htask : ∀ m t, (s.tasks m).stage ≠ .absent → _ := fun m t hm =>
    System.sum_update (Finset.mem_range.2 (lt_of_spawned hs (.inl hm)))
      (fun t : Task => t.stage.work) s.tasks t
  have hpublish : ∀ m p, (s.publishes m).stage ≠ .absent → _ := fun m p hm =>
    System.sum_update (Finset.mem_range.2 (lt_of_spawned hs (.inr hm)))
      (fun p : Publish => p.stage.work) s.publishes p
  simp only [work]
  cases hst with
  | inbound f hm | notice hm _ => rw [hm] at hl; cases hl
  | @signal m rest hm hmem =>
    -- A signal does not change what a task has left to do.
    have hsame : ∀ n, (Function.update s.tasks m (s.tasks m).signal n).stage =
        (s.tasks n).stage := fun n => by
      rw [Function.update_apply]
      split_ifs with hn
      · rw [hn]; rfl
      · rfl
    have hlen : (rest.erase m).length + 1 = rest.length := by
      have := List.length_pos_of_mem hmem
      rw [List.length_erase_of_mem hmem]
      omega
    simp only [hsame, hm, Main.work, ConnAction.gain]
    omega
  | cleaned hm | join hm _ =>
    simp only [hm, Main.work, ConnAction.gain, List.length_nil]
    omega
  | @task m b t ht =>
    have hsum := htask m t ht.spawned
    have hpay := ht.pays m
    simp only at hsum ⊢
    omega
  | @send m f last ok ch hf hc =>
    have hsum := htask m { s.tasks m with stage := Task.afterSend last ok } (by simp [hf])
    have hq := queue_length_of_send hc
    have hafter : (Task.afterSend last ok).work + 3 ≤ (TaskStage.sending f last).work := by
      cases last <;> cases ok <;> simp [Task.afterSend, TaskStage.work]
    simp only [hf, ConnAction.gain] at hsum hafter ⊢
    omega
  | @published m r hp =>
    have hsum := hpublish m { s.publishes m with stage := .sending, outcome := some r }
      (by simp [hp])
    simp only [hp, PublishStage.work, ConnAction.gain] at hsum ⊢
    omega
  | @ack m r ok ch hp ho hc =>
    have hsum := hpublish m { s.publishes m with stage := .returned } (by simp [hp])
    have hq := queue_length_of_send hc
    simp only [hp, PublishStage.work, ConnAction.gain] at hsum ⊢
    omega
  | recv hw hc =>
    rw [(Mpsc.recv_eq_some hc).1, List.length_cons, hw]
    simp only [Writer.work, ConnAction.gain]
    omega
  | drained hw _ _ | wrote hw | broke hw | closed hw =>
    simp only [hw, Writer.work, ConnAction.gain, Mpsc.dropReceiver]
    omega

/-- No step enters the main loop again. -/
theorem looping_of_step (hl : s.main.looping = false) {a : ConnAction}
    (hst : Step decode s a s') : s'.main.looping = false := by
  cases hst with
  | inbound f hm | notice hm _ => rw [hm] at hl; cases hl
  | signal _ _ | cleaned _ | join _ _ => rfl
  | task | send | published | ack | recv | drained | wrote | broke | closed => exact hl

/-- Items come in through the main loop only. -/
theorem Step.looping_of_inbound {f : Inbound} (h : Step decode s (.inbound f) s') :
    s.main.looping ≠ false := by
  cases h with
  | inbound _ hm => simp [hm, Main.looping]

/-- No more items come in once it has been left. -/
theorem Step.inbound_of_left {a : ConnAction} (h : Step decode s a s')
    (hl : s.main.looping = false) : s'.inbound = s.inbound := by
  cases h with
  | inbound f hm => rw [hm] at hl; cases hl
  | notice | signal | cleaned | join | task | send | published | ack | recv | drained | wrote
  | broke | closed => rfl

/-! ## Nobody is stuck -/

/-- A task that has consumed its signal is about to abort its stream, or has returned. -/
theorem stage_of_taken (hs : (system decode).Reachable s)
    (h : (s.tasks n).taken = true) :
    (s.tasks n).stage = .cancelling ∨ (s.tasks n).stage = .returned := by
  refine task_invariant (P := fun t => t.taken = true → t.stage = .cancelling ∨ t.stage = .returned)
    (fun h => (by cases h)) (fun _ _ h => (by cases h)) (fun _ h => h) (fun t a t' ht hst htk => ?_)
    (fun s frame last _ h hf htk => ?_) hs h
  · cases hst with
    | arm _ _ => exact ht htk
    | established hs | refused hs | chunk hs | error hs =>
      have := ht htk
      simp [hs] at this
    | finish _ | bail _ _ | aborted _ => exact .inr rfl
    | abort _ _ => exact .inl rfl
  · have := h htk
    simp [hf] at this

/-- The receiver is dropped with the writer. -/
theorem alive_of_returned (hs : (system decode).Reachable s) (h : s.writer = .returned) :
    s.channel.alive = false := by
  refine hs.invariant (P := fun s => s.writer = .returned → s.channel.alive = false)
    (fun h => (by cases h)) (fun s a s' _ h _ hst hw => ?_) h
  cases step_cases hst with
  | inbound f _ => simpa using h (by simpa using hw)
  | notice _ hc | send _ hc | ack _ _ hc => exact (Mpsc.frame_of_send hc).2.trans (h hw)
  | signal | cleaned | join | task | published => exact h hw
  | recv | drained | wrote | broke => cases hw
  | closed _ => rfl

/-- A party can do a step that awaits neither a frame nor a stream. -/
def CanStep (decode : String → Option Json) (s : Conn) : Prop :=
  ∃ a, a.internal = true ∧ ((system decode).step s a).isSome = true

/-- A send waits for the writer only: it completes, or the writer can do a step. -/
theorem canStep_of_send (hs : (system decode).Reachable s) (f : ℕ × String)
    (hsend : ∀ r, s.channel.send outboundBuf f = some r → CanStep decode s) :
    CanStep decode s := by
  cases hc : s.channel.send outboundBuf f with
  | some r => exact hsend r hc
  | none =>
    obtain ⟨ha, hfull⟩ := Mpsc.send_eq_none.1 hc
    cases hw : s.writer with
    | receiving =>
      -- The queue is full, so there is something to receive.
      refine ⟨.recv, rfl, ?_⟩
      cases hr : s.channel.recv with
      | none => rw [Mpsc.recv_eq_none.1 hr] at hfull; cases hfull
      | some r => simp [system, step, hw, hr]
    | writing => exact ⟨.wrote true, rfl, by simp [system, step, hw]⟩
    | closing => exact ⟨.closed, rfl, by simp [system, step, hw]⟩
    | returned => rw [alive_of_returned hs hw] at ha; cases ha

/-- A task that has been signalled and has not returned can do a step, or waits for the
    writer. -/
theorem canStep_of_task (hs : (system decode).Reachable s) (hsig : (s.tasks n).signals ≠ 0)
    (hrun : (s.tasks n).running = true) : CanStep decode s := by
  have hheard := heard hs n (Nat.pos_of_ne_zero hsig) hrun
  have htaken := stage_of_taken (n := n) hs
  have hconsume : (s.tasks n).taken = false → ∃ c, (s.tasks n).cancel.consume = some c :=
    fun ht => Option.isSome_iff_exists.1 ((Notify.consume_isSome _).trans (hheard ht))
  cases hst : (s.tasks n).stage with
  | absent | returned => simp [Task.running, hst] at hrun
  | setup | pumping =>
    obtain ⟨c, hc⟩ := hconsume (by simpa [hst] using htaken)
    exact ⟨.task n .takeCancel, rfl, by simp [system, step, Task.step, hst, hc]⟩
  | sending f last =>
    exact canStep_of_send hs (n, f) fun r hr => ⟨.send n, rfl, by simp [system, step, hst, hr]⟩
  | cancelling => exact ⟨.task n .aborted, rfl, by simp [system, step, Task.step, hst]⟩

/-- A publish task that has not returned can do a step, or waits for the writer. -/
theorem canStep_of_publish (hs : (system decode).Reachable s)
    (hrun : (s.publishes n).running = true) : CanStep decode s := by
  cases hst : (s.publishes n).stage with
  | absent | returned => simp [Publish.running, hst] at hrun
  | calling =>
    exact ⟨.published n (.error ""), rfl, by simp [system, step, Publish.complete, hst]⟩
  | sending =>
    -- The outcome is known once the call has returned.
    have hsent := sent hs n
    obtain ⟨event, hreq, -⟩ := (assigned hs n).publish (by simp [hst])
    rw [sent_publish hreq, PublishSent, hst] at hsent
    obtain ⟨r, hr⟩ := Option.ne_none_iff_exists'.1 hsent.2
    exact canStep_of_send hs (n, publishFrame (s.publishes n).event r) fun r' hr' =>
      ⟨.ack n, rfl, by simp [system, step, hst, hr, hr']⟩

/-- The cleanup can go on. -/
theorem canStep_of_cleanup {rest : List ℕ} (hm : s.main = .cleanup rest) : CanStep decode s := by
  cases rest with
  | nil => exact ⟨.cleanup, rfl, by simp [system, step, hm]⟩
  | cons n rest => exact ⟨.signal n, rfl, by simp [system, step, hm]⟩

/-- Until the bridge is done with a connection whose main loop has been left, somebody can
    do a step. -/
theorem canStep (hs : (system decode).Reachable s) (hl : s.main.looping = false)
    (hd : ¬s.Done) : CanStep decode s := by
  by_cases hrun : ∃ n, (s.tasks n).running = true ∨ (s.publishes n).running = true
  · obtain ⟨n, ht | hp⟩ := hrun
    · cases hm : s.main with
      | reading | noticing _ => rw [hm] at hl; cases hl
      | cleanup rest => exact canStep_of_cleanup hm
      | joining | returned =>
        -- Every task has been signalled by now.
        have hcl : s.Cleaned := by simp [Cleaned, hm]
        rcases (ledger hs).signals n (of_decide_eq_true ht).1 with ⟨hp, -⟩ | ⟨-, h1⟩
        · exact absurd hp hcl.not_pending
        · exact canStep_of_task hs (by omega) ht
    · exact canStep_of_publish hs hp
  · have hidle : ∀ n, (s.tasks n).running = false ∧ (s.publishes n).running = false := by
      simpa [not_or] using hrun
    cases hm : s.main with
    | reading | noticing _ => rw [hm] at hl; cases hl
    | cleanup rest => exact canStep_of_cleanup hm
    | returned => exact absurd ⟨hm, hidle⟩ hd
    | joining =>
      cases hw : s.writer with
      | receiving =>
        -- With the last sender gone, the channel ends once it is drained.
        have hg : s.SendersGone := ⟨by rw [hm]; rfl, fun n _ => hidle n⟩
        refine ⟨.recv, rfl, ?_⟩
        cases hr : s.channel.recv <;> simp [system, step, hw, hr, hg]
      | writing => exact ⟨.wrote true, rfl, by simp [system, step, hw]⟩
      | closing => exact ⟨.closed, rfl, by simp [system, step, hw]⟩
      | returned => exact ⟨.join, rfl, by simp [system, step, hm, hw]⟩

/-! ## The law -/

/-- How a connection goes on once its main loop has been left. -/
structure WindsDown (decode : String → Option Json) (s : Conn) : Prop where
  /-- There are only so many steps left, but for the chunks the streams still yield. -/
  bounded : ∀ l s', (system decode).runBy (fun _ _ => True) s l = some s' →
    l.length ≤ s.work + (l.map ConnAction.gain).sum
  /-- Until all is done, somebody can do a step that awaits neither a frame nor a stream. -/
  progress : ∀ s', (system decode).Leads s s' → ¬s'.Done → CanStep decode s'
  /-- All is done, and every frame has been given to the client, unless its socket failed. -/
  drained : ∀ s', (system decode).Leads s s' → s'.Done → s'.writer = .returned ∧
    (s'.sinkFailed = false → s'.given = s'.channel.sent)

/-- Handling an item does not end `handle_ws`. -/
theorem handle_main_ne (f : Inbound) (hm : s.main = .reading) :
    (s.handle decode f).main ≠ .returned := by
  cases f with
  | text t =>
    simp only [handle]
    rcases parseClientFrame decode t with _ | ⟨subId, filters⟩ | subId | event
    all_goals simp [dispatch, subscribe, publish, hm]
  | close | error | eof => simp [handle, leave]
  | other => simp [handle, hm]

/-- `handle_ws` returns after the writer. -/
theorem writer_returned (hs : (system decode).Reachable s) (h : s.main = .returned) :
    s.writer = .returned := by
  refine hs.invariant (P := fun s => s.main = .returned → s.writer = .returned)
    (fun h => (by cases h)) (fun s a s' _ h _ hst hm => ?_) h
  cases step_cases hst with
  | inbound f hr => exact absurd hm (handle_main_ne f hr)
  | notice _ _ | signal _ _ | cleaned _ => cases hm
  | join _ hw => exact hw
  | task | send | published | ack => exact h hm
  | recv hw _ | drained hw _ _ | wrote hw | broke hw => rw [h hm] at hw; cases hw
  | closed _ => rfl

/-- Once all is done, the writer has given the client every frame, unless its socket failed. -/
theorem Done.drained (hd : s.Done) (hs : (system decode).Reachable s) : s.writer = .returned ∧
    (s.sinkFailed = false → s.given = s.channel.sent) := by
  have hw := written hs
  have hret := writer_returned hs hd.1
  refine ⟨hret, fun hsink => ?_⟩
  -- The writer has not stopped before the channel was drained.
  obtain ⟨-, hq⟩ := (hw.stopped (.inr hret)).resolve_left (by simp [hsink])
  rw [hw.given, Mpsc.sent, hq, List.append_nil]

/-- Every step of a connection whose main loop has been left is paid for. -/
theorem amortized : System.Amortized (system decode)
    (fun s => (system decode).Reachable s ∧ s.main.looping = false) work (fun _ => 1)
    ConnAction.gain where
  closed h hst := ⟨h.1.next hst, looping_of_step h.2 (step_cases hst)⟩
  pays h hst := pays h.1 h.2 (step_cases hst)

/-- Whatever the interleaving, a connection whose main loop has been left winds down. -/
theorem windsDown (hs : (system decode).Reachable s) (hl : s.main.looping = false) :
    WindsDown decode s where
  bounded l s' hl' := by
    have h := amortized.sum_cost_le ⟨hs, hl⟩ hl'
    simp only [List.map_const', List.sum_replicate, smul_eq_mul, mul_one] at h
    omega
  progress s' hlead hd := canStep (hs.leads hlead)
    (hlead.invariant (P := fun s => s.main.looping = false)
      (fun _ _ _ _ h hst => looping_of_step h (step_cases hst)) hs hl) hd
  drained s' hlead hd := hd.drained (hs.leads hlead)

/-- The client subscribes and publishes, and is gone after the first chunk. -/
def hangUp : List ConnAction :=
  established ++ [.inbound (.text "[\"EVENT\",\x7b\"id\":\"e\"\x7d]"), .inbound .eof]

/-- What is left to be done, takes sixteen steps at most, if no more chunks come. -/
theorem windsDown_hangUp : ∃ s : Conn, s.work = 16 ∧ WindsDown sample s := by
  obtain ⟨s, hs, hp⟩ := System.exists_reachableBy (M := system sample) (C := fun _ _ => True)
    hangUp (fun s => decide (s.work = 16 ∧ s.main.looping = false)) (by decide +kernel)
  obtain ⟨hw, hl⟩ := of_decide_eq_true hp
  exact ⟨s, hw, windsDown hs hl⟩

end Conn

end Outlay.Shim

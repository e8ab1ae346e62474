import Outlay.Shim.Lifecycle

/-!
# What the client is sent

All workers of a connection write to the client through one channel and one
writer. Nevertheless the frames the client is given for each item it sent are, at
every moment, a prefix of the `answer` to that item: for a REQ the chunks of its
call, verbatim and in order, and the closing frame synthesized if the call
returned an error; for an EVENT one `OK`; for an unrecognized frame one notice;
and nothing else (`faithful`). Once the workers are done, and unless they were
cancelled or the socket failed, the answers are complete.

* `Sent` is the invariant of one item: what its worker has enqueued, stage by stage.
* `Written` is the invariant of the writer.
-/

namespace Outlay.Shim

open Async

/-- The frames that answer the item `n`. -/
def framesOf (n : ℕ) (l : List (ℕ × String)) : List String :=
  l.filterMap fun f => if f.1 = n then some f.2 else none

theorem framesOf_append (n : ℕ) (l m : List (ℕ × String)) :
    framesOf n (l ++ m) = framesOf n l ++ framesOf n m := List.filterMap_append

@[simp] theorem framesOf_nil (n : ℕ) : framesOf n [] = [] := rfl

@[simp] theorem framesOf_self (n : ℕ) (f : String) : framesOf n [(n, f)] = [f] := by
  simp [framesOf]

theorem framesOf_of_ne {m n : ℕ} (h : m ≠ n) (f : String) : framesOf n [(m, f)] = [] := by
  simp [framesOf, h]

/-- A prefix of the frames has a prefix of those of an item. -/
theorem framesOf_mono {l m : List (ℕ × String)} (h : l <+: m) (n : ℕ) :
    framesOf n l <+: framesOf n m := by
  obtain ⟨r, rfl⟩ := h
  rw [framesOf_append]
  exact List.prefix_append _ _

/-- Sending a frame for the item `n` extends the frames of that item by it, if it
    is accepted, and leaves those of the others. -/
theorem framesOf_of_send {ch ch' : Mpsc (ℕ × String)} {cap n : ℕ} {f : String} {ok : Bool}
    (h : ch.send cap (n, f) = some (ok, ch')) :
    framesOf n ch'.sent = framesOf n ch.sent ++ (if ok then [f] else []) ∧
      ∀ m ≠ n, framesOf m ch'.sent = framesOf m ch.sent := by
  rw [Mpsc.sent_of_send h]
  constructor
  · rw [framesOf_append]
    cases ok <;> simp
  · intro m hm
    rw [framesOf_append]
    cases ok <;> simp [framesOf_of_ne (Ne.symm hm)]

/-! ## What one worker has sent -/

/-- What a subscribe task has enqueued, stage by stage: the chunks read, the one
    being sent excepted. It returns with its answer complete, unless it has
    consumed its cancel signal or the sink has failed. -/
def TaskSent (t : Task) (failed : Bool) (e : List String) : Prop :=
  match t.stage with
  | .absent => False
  | .setup => e = [] ∧ t.read = [] ∧ t.call = .connecting
  | .pumping => e = t.read ∧ t.call = .streaming
  | .sending f last =>
    if last then e = t.read ∧ t.call.closing t.subId = [f] ∧ t.call.over = true
    else t.read = e ++ [f] ∧ t.call = .streaming
  | .cancelling => e = t.read ∧ t.taken = true
  | .returned => e <+: t.output ∧
      (t.taken = true ∨ failed = true ∨ (e = t.output ∧ t.call.over = true))

/-- What a task has enqueued is a prefix of its answer. -/
theorem TaskSent.output {t : Task} {failed : Bool} {e : List String} (h : TaskSent t failed e) :
    e <+: t.output := by
  rw [TaskSent] at h
  split at h
  · exact h.elim
  · rw [h.1]; exact List.nil_prefix
  · rw [h.1]; exact List.prefix_append _ _
  · split_ifs at h
    · rw [h.1]; exact List.prefix_append _ _
    · rw [Task.output, h.1, List.append_assoc]; exact List.prefix_append _ _
  · rw [h.1]; exact List.prefix_append _ _
  · exact h.1

/-- The sink failing later changes nothing. -/
theorem TaskSent.mono {t : Task} {failed failed' : Bool} {e : List String}
    (h : TaskSent t failed e) (hf : failed = true → failed' = true) : TaskSent t failed' e := by
  rw [TaskSent] at h ⊢
  split at h
  · exact h
  · exact h
  · exact h
  · exact h
  · exact h
  · exact ⟨h.1, h.2.imp id (Or.imp hf id)⟩

/-- What a task has enqueued stays as it should be when it moves without sending. -/
theorem TaskSent.step {t t' : Task} {a : TaskAction} {failed : Bool} {e : List String}
    (h : TaskSent t failed e) (hst : TaskStep t a t') : TaskSent t' failed e := by
  cases hst with
  | arm hs hc => exact h
  | established hs | chunk hs | abort hs _ =>
    simp only [TaskSent, hs] at h
    simp [TaskSent, h]
  | refused hs =>
    simp only [TaskSent, hs] at h
    simp [TaskSent, h, CallStatus.closing, CallStatus.over]
  | error hs =>
    simp only [TaskSent, hs] at h
    simp [TaskSent, h.1, CallStatus.closing, CallStatus.over]
  | finish hs =>
    simp only [TaskSent, hs] at h
    simp [TaskSent, h.1, Task.output, CallStatus.closing, CallStatus.over]
  | bail hs _ =>
    simp only [TaskSent, hs] at h
    simp [TaskSent, h.1]
  | aborted hs =>
    have hpre := h.output
    simp only [TaskSent, hs] at h
    exact ⟨hpre, .inl h.2⟩

/-- What a task has enqueued stays as it should be when its send completes; it
    only fails if the sink has. -/
theorem TaskSent.send {t : Task} {failed ok last : Bool} {f : String} {e : List String}
    (h : TaskSent t failed e) (hs : t.stage = .sending f last)
    (hok : ok = false → failed = true) :
    TaskSent { t with stage := Task.afterSend last ok } failed (e ++ if ok then [f] else []) := by
  have hpre := h.output
  simp only [TaskSent, hs] at h
  cases ok with
  | false =>
    simp only [TaskSent, Task.afterSend, Bool.false_and, Bool.false_eq_true, if_false,
      List.append_nil]
    exact ⟨hpre, .inr (.inl (hok rfl))⟩
  | true =>
    cases last with
    | false =>
      obtain ⟨hread, hcall⟩ := h
      exact ⟨hread.symm, hcall⟩
    | true =>
      obtain ⟨rfl, hf, hover⟩ := h
      have hout : t.read ++ [f] = t.output := by rw [Task.output, hf]
      exact ⟨hout ▸ List.prefix_rfl, .inr (.inr ⟨hout, hover⟩)⟩

/-- What a publish task has enqueued: nothing before its call returns, and one
    frame after that, unless the sink has failed. -/
def PublishSent (p : Publish) (failed : Bool) (e : List String) : Prop :=
  match p.stage with
  | .absent => False
  | .calling => e = [] ∧ p.outcome = none
  | .sending => e = [] ∧ p.outcome ≠ none
  | .returned => p.outcome ≠ none ∧ (e = p.output ∨ (e = [] ∧ failed = true))

/-- What the main loop has enqueued for an unrecognized frame: nothing while it
    sends the notice, and the notice after that, unless the sink has failed. -/
def NoticeSent (main : Main) (n : ℕ) (failed : Bool) (e : List String) : Prop :=
  if main = .noticing n then e = []
  else e = [noticeFrame "unrecognized frame"] ∨ (e = [] ∧ failed = true)

namespace Conn

/-- What was enqueued for the item `n`, depending on what it asks for. -/
def Sent (decode : String → Option Json) (s : Conn) (n : ℕ) : Prop :=
  let e := framesOf n s.channel.sent
  match s.request decode n with
  | some (some (.req _ _)) => TaskSent (s.tasks n) s.sinkFailed e
  | some (some (.publish _)) => PublishSent (s.publishes n) s.sinkFailed e
  | some none => NoticeSent s.main n s.sinkFailed e
  | _ => e = []

variable {decode : String → Option Json} {s s' : Conn} {n : ℕ}

theorem sent_req {subId : String} {filters : List Json}
    (h : s.request decode n = some (some (.req subId filters))) :
    s.Sent decode n ↔ TaskSent (s.tasks n) s.sinkFailed (framesOf n s.channel.sent) := by
  simp only [Sent, h]

theorem sent_publish {event : Json} (h : s.request decode n = some (some (.publish event))) :
    s.Sent decode n ↔
      PublishSent (s.publishes n) s.sinkFailed (framesOf n s.channel.sent) := by
  simp only [Sent, h]

theorem sent_notice (h : s.request decode n = some none) :
    s.Sent decode n ↔ NoticeSent s.main n s.sinkFailed (framesOf n s.channel.sent) := by
  simp only [Sent, h]

/-- What was enqueued for an item depends on its workers, and on whether its
    notice is being sent, and not on signals; the sink may fail. -/
theorem Sent.congr (h : s.Sent decode n) (hreq : s'.request decode n = s.request decode n)
    (he : framesOf n s'.channel.sent = framesOf n s.channel.sent)
    (ht : s'.tasks n = s.tasks n ∨ s'.tasks n = (s.tasks n).signal)
    (hp : s'.publishes n = s.publishes n) (hm : s'.main = .noticing n ↔ s.main = .noticing n)
    (hf : s.sinkFailed = true → s'.sinkFailed = true) : s'.Sent decode n := by
  rw [Sent] at h ⊢
  rw [hreq, he, hp]
  split at h
  · rcases ht with ht | ht <;> rw [ht]
    · exact TaskSent.mono h hf
    · exact TaskSent.mono (t := (s.tasks n).signal) h hf
  · rw [PublishSent] at h ⊢
    split at h
    · exact h
    · exact h
    · exact h
    · exact ⟨h.1, h.2.imp id (And.imp id hf)⟩
  · simp only [NoticeSent, hm] at h ⊢
    split_ifs at h ⊢
    · exact h
    · exact h.imp id (And.imp id hf)
  · exact h

/-! ## The writer -/

/-- Once the senders are gone, no worker runs. -/
theorem SendersGone.not_running (hs : (system decode).Reachable s) (h : s.SendersGone) (n : ℕ) :
    (s.tasks n).running = false ∧ (s.publishes n).running = false := by
  rcases lt_or_ge n s.inbound.length with hn | hn
  · exact h.2 n hn
  · obtain ⟨ht, hp⟩ := absent_of_le hs hn
    simp [Task.running, Publish.running, ht, hp]

/-- A step other than the writer's is one of a sender, unless `handle_ws` only
    waits for the writer. -/
theorem Step.busy {a : ConnAction} (hs : (system decode).Reachable s) (hst : Step decode s a s')
    (hw' : s'.writer = s.writer) (ha : a ≠ .join) : ¬s.SendersGone := by
  intro hg
  have hrun := hg.not_running hs
  cases hst with
  | inbound f hm | notice hm _ | signal hm _ | cleaned hm =>
    exact absurd hg.1 (by simp [hm, Main.sender])
  | join => exact ha rfl
  | @task n a t ht =>
    have := (hrun n).1
    cases ht with
    | arm hs _ => rcases hs with hs | hs <;> simp [Task.running, hs] at this
    | established hs | refused hs | chunk hs | error hs | finish hs | bail hs _ | abort hs _
    | aborted hs => simp [Task.running, hs] at this
  | @send n _ _ _ _ hs _ => simpa [Task.running, hs] using (hrun n).1
  | @published n _ hs | @ack n _ _ _ hs _ _ => simpa [Publish.running, hs] using (hrun n).2
  | recv hw | drained hw | wrote hw | broke hw | closed hw => rw [hw] at hw'; cases hw'

/-- What the writer has given to the sink, and when it stops. -/
structure Written (s : Conn) : Prop where
  /-- The frames given are those received. -/
  given : s.given = s.channel.received
  /-- Only the end of the writer drops the receiver. -/
  dropped : s.channel.alive = false → s.writer = .returned
  /-- The writer stops when the sink fails, or when nothing can be sent any more. -/
  stopped : s.writer = .closing ∨ s.writer = .returned →
    s.sinkFailed = true ∨ (s.SendersGone ∧ s.channel.queue = [])

/-- While there are senders, the receiver is only dropped if the sink has failed. -/
theorem Written.failed (h : Written s) (hbusy : ¬s.SendersGone) (ha : s.channel.alive = false) :
    s.sinkFailed = true :=
  (h.stopped (.inr (h.dropped ha))).resolve_right fun hg => hbusy hg.1

/-- The steps of the senders leave the writer as it is. -/
theorem Written.of_busy (h : Written s) (hbusy : ¬s.SendersGone) (hw : s'.writer = s.writer)
    (hf : s'.sinkFailed = s.sinkFailed) (hg : s'.given = s.given)
    (hc : s'.channel.received = s.channel.received ∧ s'.channel.alive = s.channel.alive) :
    Written s' := by
  refine ⟨by rw [hg, hc.1, h.given], fun ha => hw ▸ h.dropped (hc.2 ▸ ha), fun hs => .inl ?_⟩
  rw [hf]
  exact (h.stopped (hw ▸ hs)).resolve_right fun hg => hbusy hg.1

/-- Every step keeps what the writer has given as it should be. -/
theorem Written.step {a : ConnAction} (hs : (system decode).Reachable s) (h : Written s)
    (hst : Step decode s a s') : Written s' := by
  have hbusy := hst.busy hs
  cases hst with
  | inbound f hm =>
    exact h.of_busy (hbusy (by simp) (by simp)) (by simp) (by simp) (by simp) (by simp)
  | notice hm hc => exact h.of_busy (hbusy rfl (by simp)) rfl rfl rfl (Mpsc.frame_of_send hc)
  | send hs hc => exact h.of_busy (hbusy rfl (by simp)) rfl rfl rfl (Mpsc.frame_of_send hc)
  | ack hs ho hc => exact h.of_busy (hbusy rfl (by simp)) rfl rfl rfl (Mpsc.frame_of_send hc)
  | signal | cleaned | task | published =>
    exact h.of_busy (hbusy rfl (by simp)) rfl rfl rfl ⟨rfl, rfl⟩
  | join hm hw =>
    -- The main loop has dropped its sender before.
    refine ⟨h.given, h.dropped, fun hs => (h.stopped hs).imp id (And.imp (fun hg => ?_) id)⟩
    exact ⟨rfl, hg.2⟩
  | recv hw hc =>
    obtain ⟨-, hr, ha⟩ := Mpsc.recv_eq_some hc
    refine ⟨by rw [h.given, hr], fun hd => ?_, fun hs => by rcases hs with hs | hs <;> cases hs⟩
    rw [h.dropped (ha ▸ hd)] at hw
    cases hw
  | drained hw hq hg =>
    refine ⟨h.given, fun hd => ?_, fun _ => .inr ⟨hg, hq⟩⟩
    rw [h.dropped hd] at hw
    cases hw
  | wrote hw =>
    refine ⟨h.given, fun hd => ?_, fun hs => by rcases hs with hs | hs <;> cases hs⟩
    rw [h.dropped hd] at hw
    cases hw
  | broke hw =>
    refine ⟨h.given, fun hd => ?_, fun _ => .inl rfl⟩
    rw [h.dropped hd] at hw
    cases hw
  | closed hw => exact ⟨h.given, fun _ => rfl, fun _ => h.stopped (.inl hw)⟩

/-- What the writer has given is always as it should be. -/
theorem written (hs : (system decode).Reachable s) : Written s := by
  refine hs.invariant (P := Written) ⟨rfl, fun h => (by cases h), fun h => ?_⟩
    fun s a s' hs h _ hst => h.step hs (step_cases hst)
  rcases h with h | h <;> cases h

/-! ## What was enqueued for each item -/

/-- A notice is sent for an unrecognized frame. -/
theorem request_of_noticing (hs : (system decode).Reachable s) :
    ∀ n, s.main = .noticing n → s.request decode n = some none := by
  refine hs.invariant (P := fun s => ∀ n, s.main = .noticing n → s.request decode n = some none)
    (fun n h => (by cases h)) fun s a s' _ h _ hst n hn => ?_
  cases step_cases hst with
  | inbound f hm =>
    obtain ⟨rfl, hf⟩ := handle_noticing hm hn
    simp [request, hf]
  | notice | signal | cleaned | join => cases hn
  | task | send | published | ack | recv | drained | wrote | broke | closed => exact h n hn

/-- For an item just read nothing has been enqueued yet. -/
theorem Sent.inbound (f : Inbound) (h : s.Sent decode s.inbound.length) :
    ({ s.handle decode f with inbound := s.inbound ++ [f] } : Conn).Sent decode
      s.inbound.length := by
  have hnone : s.request decode s.inbound.length = none := by
    rw [request, List.getElem?_eq_none le_rfl, Option.bind_none]
  have hnil : framesOf s.inbound.length s.channel.sent = [] := by
    simpa only [Sent, hnone] using h
  simp only [Sent, request, List.getElem?_concat_length, Option.bind_some, handle_channel, hnil]
  cases f with
  | text t =>
    simp only [asked, handle]
    rcases parseClientFrame decode t with _ | ⟨subId, filters⟩ | subId | event
    · simp [dispatch, NoticeSent]
    · simp [dispatch, subscribe, TaskSent, Task.spawn, Task.absent]
    · trivial
    · simp [dispatch, publish, PublishSent, Publish.spawn]
  | close | error | other | eof => trivial

/-- Every step keeps what was enqueued for an item as it should be. -/
theorem Sent.step {a : ConnAction} (hs : (system decode).Reachable s) (h : s.Sent decode n)
    (hst : Step decode s a s') : s'.Sent decode n := by
  have hA := assigned hs n
  -- A send only fails if the sink has.
  have hfailed : s'.writer = s.writer → a ≠ .join → s.channel.alive = false →
      s.sinkFailed = true := fun hw ha => (written hs).failed (hst.busy hs hw ha)
  cases hst with
  | inbound f hm =>
    by_cases hn : n = s.inbound.length
    · subst hn
      exact h.inbound f
    · obtain ⟨ht, hp⟩ : (_ ∨ _) ∧ (s.handle decode f).publishes n = _ := handle_of_ne f hn
      refine h.congr (request_of_ne rfl hn) (by simp) ht hp ?_ (by simp)
      rw [hm]
      exact ⟨fun hl => absurd (handle_noticing hm hl).1 hn, fun hl => by cases hl⟩
  | @notice m ok ch hm hc =>
    obtain ⟨hself, hother⟩ := framesOf_of_send hc
    by_cases hn : n = m
    · subst hn
      have hreq := request_of_noticing hs n hm
      have hnil : framesOf n s.channel.sent = [] := by
        simpa only [sent_notice hreq, NoticeSent, hm, if_true] using h
      refine (sent_notice (by exact hreq)).2 ?_
      -- The main loop is not sending the notice any more.
      simp only [NoticeSent, hself, hnil, List.nil_append]
      cases ok with
      | true => exact .inl rfl
      | false => exact .inr ⟨rfl, hfailed rfl (by simp) (Mpsc.alive_of_send hc)⟩
    · exact h.congr rfl (hother n hn) (.inl rfl) rfl (by simp [hm, Ne.symm hn]) id
  | @signal m rest hm _ =>
    -- A signal alone changes nothing about what was sent.
    refine h.congr rfl rfl ?_ rfl (by simp [hm]) id
    by_cases hn : n = m
    · subst hn; exact .inr (by simp)
    · exact .inl (by simp [Function.update_of_ne hn])
  | cleaned hm => exact h.congr rfl rfl (.inl rfl) rfl (by simp [hm]) id
  | join hm _ => exact h.congr rfl rfl (.inl rfl) rfl (by simp [hm]) id
  | @task m b t ht =>
    by_cases hn : n = m
    · subst hn
      obtain ⟨subId, filters, hreq, -⟩ := hA.req ht.spawned
      refine (sent_req (by exact hreq)).2 ?_
      simpa only [Function.update_self] using ((sent_req hreq).1 h).step ht
    · exact h.congr rfl rfl (.inl (by simp [Function.update_of_ne hn])) rfl Iff.rfl id
  | @send m f last ok ch hf hc =>
    obtain ⟨hself, hother⟩ := framesOf_of_send hc
    by_cases hn : n = m
    · subst hn
      obtain ⟨subId, filters, hreq, -⟩ := hA.req (by simp [hf])
      refine (sent_req (by exact hreq)).2 ?_
      rw [hself]
      simpa only [Function.update_self] using ((sent_req hreq).1 h).send hf fun hok =>
        hfailed rfl (by simp) (Mpsc.alive_of_send hc ▸ hok)
    · exact h.congr rfl (hother n hn) (.inl (by simp [Function.update_of_ne hn])) rfl Iff.rfl id
  | @published m r hp =>
    by_cases hn : n = m
    · subst hn
      obtain ⟨event, hreq, -⟩ := hA.publish (by simp [hp])
      refine (sent_publish (by exact hreq)).2 ?_
      have := (sent_publish hreq).1 h
      simp only [PublishSent, hp] at this
      simp [PublishSent, this.1]
    · exact h.congr rfl rfl (.inl rfl) (by simp [Function.update_of_ne hn]) Iff.rfl id
  | @ack m r ok ch hp ho hc =>
    obtain ⟨hself, hother⟩ := framesOf_of_send hc
    by_cases hn : n = m
    · subst hn
      obtain ⟨event, hreq, -⟩ := hA.publish (by simp [hp])
      refine (sent_publish (by exact hreq)).2 ?_
      have hnil := (sent_publish hreq).1 h
      simp only [PublishSent, hp] at hnil
      simp only [PublishSent, Function.update_self, hself, hnil.1, ho, List.nil_append]
      refine ⟨Option.some_ne_none r, ?_⟩
      cases ok with
      | true => exact .inl (by simp [Publish.output])
      | false => exact .inr ⟨rfl, hfailed rfl (by simp) (Mpsc.alive_of_send hc)⟩
    · exact h.congr rfl (hother n hn) (.inl rfl) (by simp [Function.update_of_ne hn]) Iff.rfl id
  | recv hw hc => exact h.congr rfl (by rw [Mpsc.sent_recv hc]) (.inl rfl) rfl Iff.rfl id
  | drained | wrote => exact h.congr rfl rfl (.inl rfl) rfl Iff.rfl id
  | broke => exact h.congr rfl rfl (.inl rfl) rfl Iff.rfl fun _ => rfl
  | closed => exact h.congr rfl rfl (.inl rfl) rfl Iff.rfl id

/-- What was enqueued for an item is always as it should be. -/
theorem sent (hs : (system decode).Reachable s) (n : ℕ) : s.Sent decode n :=
  hs.invariant (P := fun s => ∀ n, s.Sent decode n) (fun _ => rfl)
    (fun _ _ _ hs h _ hst n => (h n).step hs (step_cases hst)) n

/-! ## The answers -/

/-- The answer to the item `n`, as far as it is known: for a REQ the chunks of its
    call, and the closing frame synthesized if the call returned an error; for an
    EVENT the `OK` frame for the outcome of its call; for a frame that is not
    recognized a notice; and nothing for all others. -/
def answer (decode : String → Option Json) (s : Conn) (n : ℕ) : List String :=
  match s.request decode n with
  | some (some (.req subId _)) => (s.tasks n).read ++ (s.tasks n).call.closing subId
  | some (some (.publish event)) => ((s.publishes n).outcome.map (publishFrame event)).toList
  | some none => [noticeFrame "unrecognized frame"]
  | _ => []

/-- The answer to the item `n` is known: its calls are over. -/
def Answered (decode : String → Option Json) (s : Conn) (n : ℕ) : Prop :=
  match s.request decode n with
  | some (some (.req _ _)) => (s.tasks n).call.over = true
  | some (some (.publish _)) => (s.publishes n).outcome ≠ none
  | _ => True

/-- The workers are done, undisturbed: none runs, none was cancelled, no notice is
    being sent, and the sink has not failed. -/
structure Settled (s : Conn) : Prop where
  workers : ∀ n, (s.tasks n).running = false ∧ (s.publishes n).running = false
  undisturbed : ∀ n, (s.tasks n).signals = 0 ∨ (s.tasks n).taken = false
  notices : ∀ n, s.main ≠ .noticing n
  sink : s.sinkFailed = false

/-- What a publish task has enqueued is a prefix of its answer. -/
theorem PublishSent.output {p : Publish} {failed : Bool} {e : List String}
    (h : PublishSent p failed e) : e <+: p.output := by
  rw [PublishSent] at h
  split at h
  · exact h.elim
  · rw [h.1]; exact List.nil_prefix
  · rw [h.1]; exact List.nil_prefix
  · rcases h.2 with h | h
    · rw [h]
    · rw [h.1]; exact List.nil_prefix

/-- What was enqueued for an item is a prefix of the answer to it. -/
theorem Sent.isPrefix (hA : s.Assigned decode n) (h : s.Sent decode n) :
    framesOf n s.channel.sent <+: s.answer decode n := by
  rw [Assigned] at hA
  rcases hr : s.request decode n with _ | _ | ⟨subId, filters⟩ | subId | event
  all_goals
    rw [hr] at hA
    simp only [Sent, hr] at h
    simp only [answer, hr]
  case some.none =>
    rw [NoticeSent] at h
    split_ifs at h
    · rw [h]; exact List.nil_prefix
    · rcases h with h | h
      · rw [h]
      · rw [h.1]; exact List.nil_prefix
  case some.some.req => exact hA.2.1 ▸ TaskSent.output h
  case some.some.publish => exact hA.2.2.1 ▸ PublishSent.output h
  all_goals rw [h]

/-- Once the workers are done, undisturbed, what was enqueued for an item is the
    whole answer to it. -/
theorem Settled.complete (hs : (system decode).Reachable s) (hS : Settled s) (n : ℕ) :
    framesOf n s.channel.sent = s.answer decode n ∧ s.Answered decode n := by
  have hA := assigned hs n
  have h := sent hs n
  -- A task that was not signalled has consumed no signal.
  have htaken : (s.tasks n).taken = false := (hS.undisturbed n).elim (not_taken hs) id
  obtain ⟨ht, hp⟩ := hS.workers n
  rw [Assigned] at hA
  rcases hr : s.request decode n with _ | _ | ⟨subId, filters⟩ | subId | event
  all_goals
    rw [hr] at hA
    simp only [Sent, hr] at h
    simp only [answer, Answered, hr]
  case some.none => simpa [NoticeSent, hS.notices n, hS.sink] using h
  case some.some.req =>
    have hret : (s.tasks n).stage = .returned := by simpa [Task.running, hA.1] using ht
    simp only [TaskSent, hret, htaken, hS.sink, Bool.false_eq_true, false_or] at h
    exact hA.2.1 ▸ h.2
  case some.some.publish =>
    have hret : (s.publishes n).stage = .returned := by simpa [Publish.running, hA.2.1] using hp
    simp only [PublishSent, hret, hS.sink, Bool.false_eq_true, and_false, or_false] at h
    exact hA.2.2.1 ▸ ⟨h.2, h.1⟩
  all_goals exact ⟨h, trivial⟩

/-- The frames given to the sink are those enqueued first. -/
theorem given_isPrefix_sent (hs : (system decode).Reachable s) : s.given <+: s.channel.sent :=
  (written hs).given ▸ s.channel.received_isPrefix

/-- What the client was given for an item is a prefix of the answer to it. -/
theorem given_isPrefix (hs : (system decode).Reachable s) (n : ℕ) :
    framesOf n s.given <+: s.answer decode n :=
  (framesOf_mono (given_isPrefix_sent hs) n).trans ((sent hs n).isPrefix (assigned hs n))

/-- Once the workers are done, undisturbed, and the channel is drained, the client was given
    all that was enqueued. -/
theorem Settled.given (hs : (system decode).Reachable s) (hS : Settled s)
    (hd : s.channel.queue = [] ∨ s.writer = .returned) : s.given = s.channel.sent := by
  have hW := written hs
  -- Without a failing sink, the writer only returns once the channel is drained.
  have hq : s.channel.queue = [] := by
    rcases hd with hq | hw
    · exact hq
    · exact ((hW.stopped (.inr hw)).resolve_left (by simp [hS.sink])).2
  rw [hW.given, Mpsc.sent, hq, List.append_nil]

/-- So it was given the whole answers. -/
theorem Settled.framesOf_given (hs : (system decode).Reachable s) (hS : Settled s)
    (hd : s.channel.queue = [] ∨ s.writer = .returned) (n : ℕ) :
    framesOf n s.given = s.answer decode n := by
  rw [hS.given hs hd, (hS.complete hs n).1]

end Conn

end Outlay.Shim

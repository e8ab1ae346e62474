import Outlay.Async.Mpsc
import Outlay.Async.System
import Outlay.Shim.Relay

/-!
# Backpressure in the relay pipe

The client, `forward` and the relay as processes joined by four bounded queues.
The client sends at any time, and takes what is addressed to it at any time. The
relay is one sequential loop: it takes one frame, or one event to broadcast, and
writes all the frames it produces for it before it reads again.

`forward` does not read from the relay while it sends to it. So when the queue to
the relay is full, and the relay has more to write than there is room for, both
wait in their sends, for each other, forever (`not_unblocked`).

This happens exactly when the pipe is *overfull*: `forward` sends to a full queue
while the relay has more to write than there is room for. A run never gets there
(`unblocked`) as long as `forward` takes no frame from the client, and the relay no
event, that would make it so (`Roomy`); one that does leads to the deadlock
(`deadlocked_of_not_roomy`).
-/

namespace Outlay.Shim

open Async

/-- The capacities of the queues. -/
structure Capacities where
  fromClient : ℕ
  toRelay : ℕ
  fromRelay : ℕ
  toClient : ℕ
  one_le : 1 ≤ fromClient ∧ 1 ≤ toRelay ∧ 1 ≤ fromRelay ∧ 1 ≤ toClient

/-- The state of the processes and the queues. -/
structure Flow where
  /-- Where `forward` is. -/
  stage : PipeStage
  fromClient : Mpsc AxumMsg
  toRelay : Mpsc TgMsg
  fromRelay : Mpsc TgMsg
  toClient : Mpsc AxumMsg
  /-- The frames the relay has produced, and is still to write. -/
  pending : List TgMsg

/-- The steps of the processes. -/
inductive FlowAction
  /-- The client sends. -/
  | clientSends (m : AxumMsg)
  /-- The client takes a frame addressed to it. -/
  | clientTakes
  /-- `forward` reads from the client. -/
  | take
  /-- `forward` reads from the relay. -/
  | give
  /-- The send of `forward` completes. -/
  | sent
  /-- The relay takes a frame, and produces some. -/
  | inbound (out : List TgMsg)
  /-- The relay takes an event to broadcast, and produces some frames. -/
  | broadcast (out : List TgMsg)
  /-- The relay writes a frame. -/
  | writes

/-- A step of `forward`, or one of the relay with the frames it has been given. -/
def FlowAction.internal : FlowAction → Bool
  | .take | .give | .sent | .inbound _ | .writes => true
  | .clientSends _ | .clientTakes | .broadcast _ => false

/-- `forward` is in a send to the relay. -/
def PipeStage.sendsToRelay : PipeStage → Bool
  | .toRelay _ => true
  | _ => false

namespace Flow

variable (cap : Capacities)

/-- A step of a process. -/
def step (s : Flow) : FlowAction → Option Flow
  | .clientSends m => (s.fromClient.send cap.fromClient m).map fun r =>
      { s with fromClient := r.2 }
  | .clientTakes => s.toClient.recv.map fun r => { s with toClient := r.2 }
  | .take => s.fromClient.recv.bind fun r =>
      (s.stage.step (.client (some (.ok r.1)))).map fun stage =>
        { s with stage, fromClient := r.2 }
  | .give => s.fromRelay.recv.bind fun r =>
      (s.stage.step (.relay (some (.ok r.1)))).map fun stage =>
        { s with stage, fromRelay := r.2 }
  | .sent =>
    match s.stage with
    | .toRelay m => (s.toRelay.send cap.toRelay m).map fun r =>
        { s with stage := .afterSend r.1, toRelay := r.2 }
    | .toClient a => (s.toClient.send cap.toClient a).map fun r =>
        { s with stage := .afterSend r.1, toClient := r.2 }
    | _ => none
  | .inbound out =>
    match s.pending with
    | [] => s.toRelay.recv.map fun r => { s with toRelay := r.2, pending := out }
    | _ :: _ => none
  | .broadcast out =>
    match s.pending with
    | [] => some { s with pending := out }
    | _ :: _ => none
  | .writes =>
    match s.pending with
    | [] => none
    | m :: rest => (s.fromRelay.send cap.fromRelay m).map fun r =>
        { s with fromRelay := r.2, pending := rest }

/-- The pipe, once connected. -/
def system : System Flow FlowAction where
  init := ⟨.selecting, .fresh, .fresh, .fresh, .fresh, []⟩
  step := step cap

/-! ## What a step can do -/

/-- The steps of the processes: what `step` can do, case by case. -/
inductive Step (s : Flow) : FlowAction → Flow → Prop
  | clientSends {m : AxumMsg} {ok : Bool} {ch : Mpsc AxumMsg}
      (hc : s.fromClient.send cap.fromClient m = some (ok, ch)) :
      Step s (.clientSends m) { s with fromClient := ch }
  | clientTakes {m : AxumMsg} {ch : Mpsc AxumMsg} (hc : s.toClient.recv = some (m, ch)) :
      Step s .clientTakes { s with toClient := ch }
  | take {m : AxumMsg} {ch : Mpsc AxumMsg} (hs : s.stage = .selecting)
      (hc : s.fromClient.recv = some (m, ch)) :
      Step s .take { s with stage := .toRelay (toTungstenite m), fromClient := ch }
  | give {m : TgMsg} {ch : Mpsc TgMsg} (hs : s.stage = .selecting)
      (hc : s.fromRelay.recv = some (m, ch)) :
      Step s .give { s with stage := .give m, fromRelay := ch }
  | sentRelay {m : TgMsg} {ok : Bool} {ch : Mpsc TgMsg} (hs : s.stage = .toRelay m)
      (hc : s.toRelay.send cap.toRelay m = some (ok, ch)) :
      Step s .sent { s with stage := .afterSend ok, toRelay := ch }
  | sentClient {a : AxumMsg} {ok : Bool} {ch : Mpsc AxumMsg} (hs : s.stage = .toClient a)
      (hc : s.toClient.send cap.toClient a = some (ok, ch)) :
      Step s .sent { s with stage := .afterSend ok, toClient := ch }
  | inbound {m : TgMsg} {out : List TgMsg} {ch : Mpsc TgMsg} (hp : s.pending = [])
      (hc : s.toRelay.recv = some (m, ch)) :
      Step s (.inbound out) { s with toRelay := ch, pending := out }
  | broadcast {out : List TgMsg} (hp : s.pending = []) :
      Step s (.broadcast out) { s with pending := out }
  | writes {m : TgMsg} {rest : List TgMsg} {ok : Bool} {ch : Mpsc TgMsg}
      (hp : s.pending = m :: rest) (hc : s.fromRelay.send cap.fromRelay m = some (ok, ch)) :
      Step s .writes { s with fromRelay := ch, pending := rest }

variable {cap} {s s' : Flow}

/-- A step of a process is one of those listed. -/
theorem step_cases {a : FlowAction} (h : (system cap).step s a = some s') : Step cap s a s' := by
  cases a with
  | clientSends m =>
    obtain ⟨⟨_, _⟩, hc, rfl⟩ := Option.map_eq_some_iff.1 h
    exact .clientSends hc
  | clientTakes =>
    obtain ⟨⟨_, _⟩, hc, rfl⟩ := Option.map_eq_some_iff.1 h
    exact .clientTakes hc
  | take =>
    obtain ⟨⟨m, ch⟩, hc, h⟩ := Option.bind_eq_some_iff.1 h
    obtain ⟨_, hst, rfl⟩ := Option.map_eq_some_iff.1 h
    generalize hs : s.stage = stage at hst
    cases PipeStage.step_cases hst with
    | take => exact .take hs hc
    | clientEnd hne => exact absurd rfl (hne m)
  | give =>
    obtain ⟨⟨m, ch⟩, hc, h⟩ := Option.bind_eq_some_iff.1 h
    obtain ⟨_, hst, rfl⟩ := Option.map_eq_some_iff.1 h
    generalize hs : s.stage = stage at hst
    cases PipeStage.step_cases hst with
    | give => exact .give hs hc
    | relayEnd hne => exact absurd rfl (hne m)
  | sent =>
    simp only [system, step] at h
    split at h
    next hs => obtain ⟨⟨_, _⟩, hc, rfl⟩ := Option.map_eq_some_iff.1 h; exact .sentRelay hs hc
    next hs => obtain ⟨⟨_, _⟩, hc, rfl⟩ := Option.map_eq_some_iff.1 h; exact .sentClient hs hc
    next => cases h
  | inbound out =>
    simp only [system, step] at h
    split at h
    next hp => obtain ⟨⟨_, _⟩, hc, rfl⟩ := Option.map_eq_some_iff.1 h; exact .inbound hp hc
    next => cases h
  | broadcast out =>
    simp only [system, step] at h
    split at h
    next hp => obtain rfl := Option.some.inj h; exact .broadcast hp
    next => cases h
  | writes =>
    simp only [system, step] at h
    split at h
    next => cases h
    next hp => obtain ⟨⟨_, _⟩, hc, rfl⟩ := Option.map_eq_some_iff.1 h; exact .writes hp hc

/-! ## What always holds -/

/-- No queue exceeds its capacity. -/
structure Bounded (cap : Capacities) (s : Flow) : Prop where
  fromClient : s.fromClient.queue.length ≤ cap.fromClient
  toRelay : s.toRelay.queue.length ≤ cap.toRelay
  fromRelay : s.fromRelay.queue.length ≤ cap.fromRelay
  toClient : s.toClient.queue.length ≤ cap.toClient

/-- Nobody has gone, no queue exceeds its capacity, and `forward` is connected. -/
structure Sound (cap : Capacities) (s : Flow) : Prop where
  alive : s.fromClient.alive = true ∧ s.toRelay.alive = true ∧ s.fromRelay.alive = true ∧
    s.toClient.alive = true
  bounded : Bounded cap s
  connected : s.stage ≠ .connecting ∧ s.stage ≠ .refused

/-- A queue that has been received from holds less. -/
theorem length_of_recv {α : Type} {ch ch' : Mpsc α} {v : α} (h : ch.recv = some (v, ch')) :
    ch'.queue.length < ch.queue.length := by
  rw [(Mpsc.recv_eq_some h).1, List.length_cons]
  exact Nat.lt_succ_self _

/-- Every step keeps the queues within their capacities. -/
theorem Bounded.step {a : FlowAction} (h : Bounded cap s) (hst : Step cap s a s') :
    Bounded cap s' := by
  obtain ⟨h₁, h₂, h₃, h₄⟩ := h
  cases hst with
  | clientSends hch => exact ⟨Mpsc.length_of_send hch h₁, h₂, h₃, h₄⟩
  | clientTakes hch => exact ⟨h₁, h₂, h₃, (length_of_recv hch).le.trans h₄⟩
  | take _ hch => exact ⟨(length_of_recv hch).le.trans h₁, h₂, h₃, h₄⟩
  | give _ hch => exact ⟨h₁, h₂, (length_of_recv hch).le.trans h₃, h₄⟩
  | sentRelay _ hch => exact ⟨h₁, Mpsc.length_of_send hch h₂, h₃, h₄⟩
  | sentClient _ hch => exact ⟨h₁, h₂, h₃, Mpsc.length_of_send hch h₄⟩
  | inbound _ hch => exact ⟨h₁, (length_of_recv hch).le.trans h₂, h₃, h₄⟩
  | broadcast _ => exact ⟨h₁, h₂, h₃, h₄⟩
  | writes _ hch => exact ⟨h₁, h₂, Mpsc.length_of_send hch h₃, h₄⟩

/-- Every step keeps the processes sound. -/
theorem Sound.step {a : FlowAction} (h : Sound cap s) (hst : Step cap s a s') :
    Sound cap s' := by
  have hb := h.bounded.step hst
  obtain ⟨⟨h₁, h₂, h₃, h₄⟩, -, hs⟩ := h
  cases hst with
  | clientSends hch => exact ⟨⟨(Mpsc.frame_of_send hch).2.trans h₁, h₂, h₃, h₄⟩, hb, hs⟩
  | clientTakes hch => exact ⟨⟨h₁, h₂, h₃, (Mpsc.recv_eq_some hch).2.2.trans h₄⟩, hb, hs⟩
  | take _ hch => exact ⟨⟨(Mpsc.recv_eq_some hch).2.2.trans h₁, h₂, h₃, h₄⟩, hb, by simp⟩
  | @give m _ _ hch =>
    refine ⟨⟨h₁, h₂, (Mpsc.recv_eq_some hch).2.2.trans h₃, h₄⟩, hb, ?_⟩
    cases m <;> simp [PipeStage.give, fromTungstenite]
  | @sentRelay _ ok _ _ hch =>
    refine ⟨⟨h₁, (Mpsc.frame_of_send hch).2.trans h₂, h₃, h₄⟩, hb, ?_⟩
    cases ok <;> simp [PipeStage.afterSend]
  | @sentClient _ ok _ _ hch =>
    refine ⟨⟨h₁, h₂, h₃, (Mpsc.frame_of_send hch).2.trans h₄⟩, hb, ?_⟩
    cases ok <;> simp [PipeStage.afterSend]
  | inbound _ hch => exact ⟨⟨h₁, (Mpsc.recv_eq_some hch).2.2.trans h₂, h₃, h₄⟩, hb, hs⟩
  | broadcast _ => exact ⟨⟨h₁, h₂, h₃, h₄⟩, hb, hs⟩
  | writes _ hch => exact ⟨⟨h₁, h₂, (Mpsc.frame_of_send hch).2.trans h₃, h₄⟩, hb, hs⟩

/-- The processes are sound, in every run. -/
theorem sound (hs : (system cap).Reachable s) : Sound cap s := by
  refine hs.invariant (P := Sound cap) ?_ fun _ _ _ _ h _ hst => h.step (step_cases hst)
  exact ⟨⟨rfl, rfl, rfl, rfl⟩, ⟨Nat.zero_le _, Nat.zero_le _, Nat.zero_le _, Nat.zero_le _⟩,
    by simp [system]⟩

/-! ## Waiting for each other -/

variable (cap)

/-- `forward` waits in a send to the relay, the relay in a send to `forward`, and
    neither ever proceeds. -/
def Deadlocked (s : Flow) : Prop :=
  s.stage.sendsToRelay = true ∧ s.pending ≠ [] ∧
    ∀ s', (system cap).Leads s s' →
      (system cap).step s' .sent = none ∧ (system cap).step s' .writes = none

/-- There are frames left for `forward` or the relay. -/
def Busy (s : Flow) : Prop :=
  s.stage ≠ .selecting ∨ s.fromClient.queue ≠ [] ∨ s.toRelay.queue ≠ [] ∨
    s.fromRelay.queue ≠ [] ∨ s.pending ≠ []

/-- `forward` or the relay can do a step. -/
def CanStep (s : Flow) : Prop :=
  ∃ a, a.internal = true ∧ ((system cap).step s a).isSome = true

/-- `forward` and the relay do not wait for each other: while there are frames left,
    and the pipe has not ended, one of them can do a step, at once or after the
    client has taken a frame. -/
structure Unblocked (s : Flow) : Prop where
  not_deadlocked : ¬Deadlocked cap s
  progress : s.stage.ended = false → s.Busy →
    CanStep cap s ∨ ∃ s', (system cap).step s .clientTakes = some s' ∧ CanStep cap s'

/-- `forward` sends to a full queue, while the relay has more to write than there
    is room for. -/
def Overfull (s : Flow) : Prop :=
  s.stage.sendsToRelay = true ∧ cap.toRelay ≤ s.toRelay.queue.length ∧
    cap.fromRelay < s.pending.length + s.fromRelay.queue.length

/-- When `forward` takes a frame of the client while the queue to the relay is full,
    the relay has no more to write than there is room for; and when it waits in a
    send to the full queue, the relay takes no event with more frames than that. -/
def Roomy (s : Flow) : FlowAction → Prop
  | .take => cap.toRelay ≤ s.toRelay.queue.length →
      s.pending.length + s.fromRelay.queue.length ≤ cap.fromRelay
  | .broadcast out => s.stage.sendsToRelay = true → cap.toRelay ≤ s.toRelay.queue.length →
      out.length + s.fromRelay.queue.length ≤ cap.fromRelay
  | _ => True

variable {cap}

/-- A step with room does not make the pipe overfull. -/
theorem not_overfull_of_step {a : FlowAction} (hS : Sound cap s) (h : ¬Overfull cap s)
    (ha : Roomy cap s a) (hst : Step cap s a s') : ¬Overfull cap s' := by
  rintro ⟨hsend, hfull, hover⟩
  cases hst with
  | clientSends _ | clientTakes _ => exact h ⟨hsend, hfull, hover⟩
  | take _ _ => exact absurd hover (not_lt.2 (ha hfull))
  | @give m _ _ _ => cases m <;> cases hsend
  | @sentRelay _ ok _ _ _ | @sentClient _ ok _ _ _ => cases ok <;> cases hsend
  | inbound _ hc =>
    -- There is room in the queue from which the relay has just taken a frame.
    have := length_of_recv hc
    have := hS.bounded.toRelay
    dsimp only at hfull
    omega
  | broadcast _ => exact absurd hover (not_lt.2 (ha hsend hfull))
  | writes hp hc =>
    refine h ⟨hsend, hfull, ?_⟩
    rw [hp, List.length_cons]
    obtain ⟨-, -, rfl⟩ | ⟨-, -, rfl⟩ := Mpsc.send_cases hc
    · dsimp only at hover
      rw [List.length_append, List.length_singleton] at hover
      omega
    · dsimp only at hover
      omega

/-- As long as there is room, the pipe is never overfull. -/
theorem not_overfull (hs : (system cap).ReachableBy (Roomy cap) s) : ¬Overfull cap s := by
  refine hs.invariant (P := fun s => ¬Overfull cap s) ?_ fun s a s' hs h ha hst =>
    not_overfull_of_step (sound hs.reachable) h ha (step_cases hst)
  rintro ⟨hsend, -⟩
  cases hsend

/-- A pipe that is not overfull is not deadlocked. -/
theorem not_deadlocked_of_not_overfull (h : ¬Overfull cap s) : ¬Deadlocked cap s := by
  rintro ⟨hsend, hp, hwait⟩
  obtain ⟨hsent, hwrites⟩ := hwait s .refl
  refine h ⟨hsend, ?_, ?_⟩
  · cases hst : s.stage with
    | toRelay m =>
      simp only [system, step, hst, Option.map_eq_none_iff] at hsent
      exact (Mpsc.send_eq_none.1 hsent).2
    | _ => rw [hst] at hsend; cases hsend
  · cases hpend : s.pending with
    | nil => exact absurd hpend hp
    | cons m rest =>
      simp only [system, step, hpend, Option.map_eq_none_iff] at hwrites
      have := (Mpsc.send_eq_none.1 hwrites).2
      rw [List.length_cons]
      omega

/-- A relay that is not overfull can do a step: it writes, or takes a frame. -/
theorem canStep_of_relay (hS : Sound cap s) (h : s.toRelay.queue ≠ [] ∨ s.pending ≠ [])
    (hroom : s.pending ≠ [] → s.fromRelay.queue.length < cap.fromRelay) : CanStep cap s := by
  cases hp : s.pending with
  | nil =>
    cases hq : s.toRelay.queue with
    | nil => simp [hp, hq] at h
    | cons m q =>
      exact ⟨.inbound [], rfl, by simp [system, step, hp, Mpsc.recv, hq]⟩
  | cons m rest =>
    have hsend := Mpsc.send_of_lt hS.alive.2.2.1 (hroom (by simp [hp])) m
    exact ⟨.writes, rfl, by simp [system, step, hp, hsend]⟩

/-- Processes that are sound and not overfull are not blocked. -/
theorem progress_of_not_overfull (hS : Sound cap s) (h : ¬Overfull cap s)
    (he : s.stage.ended = false) (hb : s.Busy) :
    CanStep cap s ∨ ∃ s', (system cap).step s .clientTakes = some s' ∧ CanStep cap s' := by
  cases hst : s.stage with
  | connecting => exact absurd hst hS.connected.1
  | refused => exact absurd hst hS.connected.2
  | closingRelay | closingClient | returned => rw [hst] at he; cases he
  | selecting =>
    cases hc : s.fromClient.queue with
    | cons m q =>
      exact .inl ⟨.take, rfl, by simp [system, step, Mpsc.recv, hc, hst, PipeStage.step]⟩
    | nil =>
      cases hr : s.fromRelay.queue with
      | cons m q =>
        exact .inl ⟨.give, rfl, by simp [system, step, Mpsc.recv, hr, hst, PipeStage.step]⟩
      | nil =>
        -- Only the relay has something to do, and all the room there is.
        refine .inl (canStep_of_relay hS ?_ fun _ => by rw [hr]; exact cap.one_le.2.2.1)
        simpa [Busy, hst, hc, hr] using hb
  | toRelay m =>
    by_cases hfull : s.toRelay.queue.length < cap.toRelay
    · have hsend := Mpsc.send_of_lt hS.alive.2.1 hfull m
      exact .inl ⟨.sent, rfl, by simp [system, step, hst, hsend]⟩
    · -- The relay takes a frame from the full queue, or has room to write.
      have hone := cap.one_le.2.1
      refine .inl (canStep_of_relay hS (.inl fun hq => ?_) fun hp => ?_)
      · rw [hq, List.length_nil] at hfull
        omega
      · have hlen := List.length_pos_iff.2 hp
        by_contra hroom
        exact h ⟨by rw [hst]; rfl, by omega, by omega⟩
  | toClient a =>
    by_cases hfull : s.toClient.queue.length < cap.toClient
    · have hsend := Mpsc.send_of_lt hS.alive.2.2.2 hfull a
      exact .inl ⟨.sent, rfl, by simp [system, step, hst, hsend]⟩
    · -- The client takes a frame first.
      have hone := cap.one_le.2.2.2
      cases hrecv : s.toClient.recv with
      | none =>
        rw [Mpsc.recv_eq_none.1 hrecv, List.length_nil] at hfull
        omega
      | some r =>
        obtain ⟨v, ch⟩ := r
        have hlt : ch.queue.length < cap.toClient := by
          have := length_of_recv hrecv
          have := hS.bounded.toClient
          omega
        have hsend := Mpsc.send_of_lt ((Mpsc.recv_eq_some hrecv).2.2.trans hS.alive.2.2.2) hlt a
        exact .inr ⟨{ s with toClient := ch }, by simp [system, step, hrecv], .sent, rfl,
          by simp [system, step, hst, hsend]⟩

/-- In every run in which there is room, `forward` and the relay do not block. -/
theorem unblocked (hs : (system cap).ReachableBy (Roomy cap) s) : Unblocked cap s where
  not_deadlocked := not_deadlocked_of_not_overfull (not_overfull hs)
  progress := progress_of_not_overfull (sound hs.reachable) (not_overfull hs)

/-! ## Once overfull -/

/-- In an overfull pipe the relay has something to write. -/
theorem Overfull.pending (hS : Sound cap s) (h : Overfull cap s) :
    ∃ m rest, s.pending = m :: rest := by
  cases hp : s.pending with
  | cons m rest => exact ⟨m, rest, rfl⟩
  | nil =>
    have hover := h.2.2
    have hle := hS.bounded.fromRelay
    rw [hp, List.length_nil] at hover
    omega

/-- What is overfull stays so: `forward` does not read, and the relay only writes. -/
theorem Overfull.step {a : FlowAction} (hS : Sound cap s) (h : Overfull cap s)
    (hst : Step cap s a s') : Overfull cap s' := by
  obtain ⟨m, rest, hpend⟩ := h.pending hS
  obtain ⟨hsend, hfull, hover⟩ := h
  cases hst with
  | clientSends _ | clientTakes _ => exact ⟨hsend, hfull, hover⟩
  | take hs _ | give hs _ | sentClient hs _ => rw [hs] at hsend; cases hsend
  | sentRelay hs hc =>
    have := Mpsc.send_eq_none.2 ⟨hS.alive.2.1, hfull⟩ |>.symm.trans hc
    cases this
  | inbound hp _ | broadcast hp => rw [hp] at hpend; cases hpend
  | writes hp hc =>
    refine ⟨hsend, hfull, ?_⟩
    rw [hp, List.length_cons] at hover
    obtain ⟨-, -, rfl⟩ | ⟨-, ha, rfl⟩ := Mpsc.send_cases hc
    · dsimp only
      rw [List.length_append, List.length_singleton]
      omega
    · exact absurd hS.alive.2.2.1 (by simp [ha])

/-- In an overfull pipe in which the queue from the relay is full, too, both wait. -/
theorem waits_of_full (hS : Sound cap s) (h : Overfull cap s)
    (hfull : cap.fromRelay ≤ s.fromRelay.queue.length) :
    (system cap).step s .sent = none ∧ (system cap).step s .writes = none := by
  obtain ⟨m, rest, hp⟩ := h.pending hS
  constructor
  · cases hst : s.stage with
    | toRelay m =>
      have hsend := Mpsc.send_eq_none (v := m).2 ⟨hS.alive.2.1, h.2.1⟩
      simp [system, step, hst, hsend]
    | _ => have := h.1; rw [hst] at this; cases this
  · have hsend := Mpsc.send_eq_none (v := m).2 ⟨hS.alive.2.2.1, hfull⟩
    simp [system, step, hp, hsend]

/-- In an overfull pipe, the queue from the relay only grows. -/
theorem Overfull.grows {a : FlowAction} (h : Overfull cap s) (hst : Step cap s a s') :
    s.fromRelay.queue.length ≤ s'.fromRelay.queue.length := by
  cases hst with
  | give hs _ => have := h.1; rw [hs] at this; cases this
  | writes _ hc =>
    obtain ⟨-, -, rfl⟩ | ⟨-, -, rfl⟩ := Mpsc.send_cases hc
    · simp
    · exact le_rfl
  | _ => exact le_rfl

/-- An overfull pipe in which the queue from the relay is full, too, is deadlocked. -/
theorem deadlocked_of_full (hs : (system cap).Reachable s) (h : Overfull cap s)
    (hfull : cap.fromRelay ≤ s.fromRelay.queue.length) : Deadlocked cap s := by
  obtain ⟨m, rest, hp⟩ := h.pending (sound hs)
  refine ⟨h.1, by simp [hp], fun s' hl => ?_⟩
  have hfull' : Overfull cap s' ∧ cap.fromRelay ≤ s'.fromRelay.queue.length :=
    hl.invariant (P := fun s => Overfull cap s ∧ cap.fromRelay ≤ s.fromRelay.queue.length)
      (fun _ _ _ hs h hst => ⟨h.1.step (sound hs) (step_cases hst),
        h.2.trans (h.1.grows (step_cases hst))⟩) hs ⟨h, hfull⟩
  exact waits_of_full (sound (hs.leads hl)) hfull'.1 hfull'.2

/-- What is overfull gets deadlocked: the relay writes until there is no room left. -/
theorem deadlocked_of_overfull (hs : (system cap).Reachable s) (h : Overfull cap s) :
    ∃ s', (system cap).Leads s s' ∧ Deadlocked cap s' := by
  -- By induction on the room left.
  induction hn : cap.fromRelay - s.fromRelay.queue.length generalizing s with
  | zero => exact ⟨s, .refl, deadlocked_of_full hs h (by omega)⟩
  | succ n ih =>
    obtain ⟨m, rest, hp⟩ := h.pending (sound hs)
    have hsend := Mpsc.send_of_lt (sound hs).alive.2.2.1
      (show s.fromRelay.queue.length < cap.fromRelay by omega) m
    have hst : (system cap).step s .writes = some { s with
        fromRelay := { s.fromRelay with queue := s.fromRelay.queue ++ [m] }, pending := rest } := by
      simp [system, step, hp, hsend]
    obtain ⟨s', hl, hd⟩ := ih (hs.next hst) (h.step (sound hs) (step_cases hst)) (by
      dsimp only
      rw [List.length_append, List.length_singleton]
      omega)
    exact ⟨s', .head ⟨_, hst⟩ hl, hd⟩

/-- A step without room makes the pipe overfull. -/
theorem overfull_of_not_roomy {a : FlowAction} (hst : Step cap s a s') (ha : ¬Roomy cap s a) :
    Overfull cap s' := by
  cases hst with
  | take _ _ =>
    simp only [Roomy, Classical.not_imp, not_le] at ha
    exact ⟨rfl, ha⟩
  | broadcast _ =>
    simp only [Roomy, Classical.not_imp, not_le] at ha
    exact ha
  | _ => exact absurd trivial ha

/-- Whenever a step is done without room, the pipe gets deadlocked. -/
theorem deadlocked_of_not_roomy {a : FlowAction} (hs : (system cap).Reachable s)
    (hst : (system cap).step s a = some s') (ha : ¬Roomy cap s a) :
    ∃ s'', (system cap).Leads s' s'' ∧ Deadlocked cap s'' :=
  deadlocked_of_overfull (hs.next hst) (overfull_of_not_roomy (step_cases hst) ha)

instance (s : Flow) : DecidablePred (Roomy cap s)
  | .take => inferInstanceAs (Decidable (_ → _ ≤ _))
  | .broadcast _ => inferInstanceAs (Decidable (_ → _ → _ ≤ _))
  | .clientSends _ | .clientTakes | .give | .sent | .inbound _ | .writes => instDecidableTrue

/-- One frame in each queue. -/
def one : Capacities := ⟨1, 1, 1, 1, by decide⟩

/-- The client sends a frame, for which the relay produces two; it writes the first
    one. The client sends another frame. -/
def request : List FlowAction :=
  [.clientSends (.text "a"), .take, .sent, .inbound [.text "x", .text "y"], .writes,
    .clientSends (.text "b"), .take, .sent]

/-- `forward` reads from the relay first, and the client gets both frames. -/
theorem unblocked_request : ∃ s : Flow, s.toClient.received = [.text "x", .text "y"] ∧
    s.toRelay.queue = [.text "b"] ∧ Unblocked one s := by
  obtain ⟨s, hs, hp⟩ := System.exists_reachableBy (M := system one) (C := Roomy one)
    (request ++ [.give, .sent, .clientTakes, .writes, .give, .sent, .clientTakes])
    (fun s => decide (s.toClient.received = [.text "x", .text "y"] ∧
      s.toRelay.queue = [.text "b"])) (by decide)
  obtain ⟨hc, hr⟩ := of_decide_eq_true hp
  exact ⟨s, hc, hr, unblocked hs⟩

/-- `forward` reads a third frame of the client: it waits for room in the queue to
    the relay, and the relay for room in the queue from it. -/
theorem not_unblocked : ¬∀ (cap : Capacities) (s : Flow), (system cap).Reachable s →
    Unblocked cap s := by
  intro h
  obtain ⟨s, hs, hp⟩ := System.exists_reachableBy (M := system one) (C := fun _ _ => True)
    (request ++ [.clientSends (.text "c"), .take])
    (fun s => decide (s.stage.sendsToRelay = true ∧ s.toRelay.queue.length = 1 ∧
      s.fromRelay.queue.length = 1 ∧ s.pending.length = 1)) (by decide)
  obtain ⟨hsend, hr, hf, hpend⟩ := of_decide_eq_true hp
  refine (h one s hs).not_deadlocked (deadlocked_of_full hs ⟨hsend, hr.ge, ?_⟩ hf.ge)
  rw [hf, hpend]
  decide

end Flow

end Outlay.Shim

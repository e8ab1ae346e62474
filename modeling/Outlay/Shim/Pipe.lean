import Outlay.Async.System
import Outlay.Shim.Relay

/-!
# The relay pipe is verbatim

`forward` between two streams and two sinks: the client's and the relay's streams
yield the items of two given sequences, at any time, and every send may fail, with
its message handed over or not. At every moment, what was handed to the relay is a
prefix of the client's messages, and what was handed to the client a prefix of the
relay's messages before its first close message or raw frame, of the same kind and
with the same payload; only a close message of the client loses its code and
reason. Once the pipe ends, nothing more is handed over, and both sinks are closed
(`verbatim`).

`Piped` is the invariant: what was handed over, what is being sent and what is
still to be read make up the whole sequences.
-/

namespace Outlay.Shim

open Async

/-- The messages a stream yields before an error or its end. -/
def messages {α : Type} : List (Except Unit α) → List α
  | .ok m :: l => m :: messages l
  | _ => []

/-- A message that ends the pipe: a close message or a raw frame. -/
def TgMsg.final : TgMsg → Bool
  | .close _ | .frame _ => true
  | _ => false

/-- The state of the pipe. -/
structure Pipe where
  stage : PipeStage
  /-- What the client's stream is still to yield. -/
  clientRest : List (Except Unit AxumMsg)
  /-- What the relay's stream is still to yield. -/
  relayRest : List (Except Unit TgMsg)
  /-- The messages handed to the relay. -/
  toRelay : List TgMsg
  /-- The messages handed to the client. -/
  toClient : List AxumMsg
  relayClosed : Bool
  clientClosed : Bool

/-- The moves of the pipe. -/
inductive PipeMove
  | connected (ok : Bool)
  /-- The client's stream yields its next item, or its end. -/
  | client
  /-- The relay's stream yields its next item, or its end. -/
  | relay
  /-- The send completes or fails, and the message was handed over or not. -/
  | sent (ok delivered : Bool)
  | relayClosed
  | clientClosed

/-- What a send to the relay hands over. -/
def PipeStage.forRelay : PipeStage → List TgMsg
  | .toRelay m => [m]
  | _ => []

/-- What a send to the client hands over. -/
def PipeStage.forClient : PipeStage → List AxumMsg
  | .toClient a => [a]
  | _ => []

namespace Pipe

/-- A step of the pipe. -/
def step (s : Pipe) : PipeMove → Option Pipe
  | .connected ok => (s.stage.step (.connected ok)).map fun stage => { s with stage }
  | .client => (s.stage.step (.client s.clientRest.head?)).map fun stage =>
      { s with stage, clientRest := s.clientRest.tail }
  | .relay => (s.stage.step (.relay s.relayRest.head?)).map fun stage =>
      { s with stage, relayRest := s.relayRest.tail }
  | .sent ok delivered => (s.stage.step (.sent ok)).map fun stage => { s with
      stage
      toRelay := s.toRelay ++ if ok || delivered then s.stage.forRelay else []
      toClient := s.toClient ++ if ok || delivered then s.stage.forClient else [] }
  | .relayClosed => (s.stage.step .relayClosed).map fun stage =>
      { s with stage, relayClosed := true }
  | .clientClosed => (s.stage.step .clientClosed).map fun stage =>
      { s with stage, clientClosed := true }

/-- The pipe between a client and a relay whose streams yield the given items. -/
def system (client : List (Except Unit AxumMsg)) (relay : List (Except Unit TgMsg)) :
    System Pipe PipeMove where
  init := ⟨.connecting, client, relay, [], [], false, false⟩
  step := step

/-! ## What a step can do -/

/-- The steps of the pipe: what `step` can do, case by case. -/
inductive Step (s : Pipe) : PipeMove → Pipe → Prop
  | connected (ok : Bool) (hs : s.stage = .connecting) :
      Step s (.connected ok) { s with stage := if ok then .selecting else .refused }
  | take {m : AxumMsg} {rest : List (Except Unit AxumMsg)} (hs : s.stage = .selecting)
      (hr : s.clientRest = .ok m :: rest) :
      Step s .client { s with stage := .toRelay (toTungstenite m), clientRest := rest }
  | clientEnd (hs : s.stage = .selecting) :
      Step s .client { s with stage := .closingRelay, clientRest := s.clientRest.tail }
  | give {m : TgMsg} {rest : List (Except Unit TgMsg)} (hs : s.stage = .selecting)
      (hr : s.relayRest = .ok m :: rest) :
      Step s .relay { s with stage := .give m, relayRest := rest }
  | relayEnd (hs : s.stage = .selecting) :
      Step s .relay { s with stage := .closingRelay, relayRest := s.relayRest.tail }
  | sentRelay {m : TgMsg} (ok delivered : Bool) (hs : s.stage = .toRelay m) :
      Step s (.sent ok delivered) { s with
        stage := .afterSend ok, toRelay := s.toRelay ++ if ok || delivered then [m] else [] }
  | sentClient {a : AxumMsg} (ok delivered : Bool) (hs : s.stage = .toClient a) :
      Step s (.sent ok delivered) { s with
        stage := .afterSend ok, toClient := s.toClient ++ if ok || delivered then [a] else [] }
  | relayClosed (hs : s.stage = .closingRelay) :
      Step s .relayClosed { s with stage := .closingClient, relayClosed := true }
  | clientClosed (hs : s.stage = .closingClient) :
      Step s .clientClosed { s with stage := .returned, clientClosed := true }

variable {client : List (Except Unit AxumMsg)} {relay : List (Except Unit TgMsg)} {s s' : Pipe}

/-- A step of the pipe is one of those listed. -/
theorem step_cases {a : PipeMove} (h : (system client relay).step s a = some s') :
    Step s a s' := by
  obtain ⟨stage, clientRest, relayRest, toRelay, toClient, _, _⟩ := s
  cases a with
  | connected ok =>
    obtain ⟨_, hst, rfl⟩ := Option.map_eq_some_iff.1 h
    cases PipeStage.step_cases hst with
    | connected => exact .connected ok rfl
  | client =>
    obtain ⟨_, hst, rfl⟩ := Option.map_eq_some_iff.1 h
    generalize hitem : clientRest.head? = item at hst
    cases PipeStage.step_cases hst with
    | take m =>
      obtain ⟨rest, rfl⟩ := List.head?_eq_some_iff.1 hitem
      exact .take rfl rfl
    | clientEnd _ => exact .clientEnd rfl
  | relay =>
    obtain ⟨_, hst, rfl⟩ := Option.map_eq_some_iff.1 h
    generalize hitem : relayRest.head? = item at hst
    cases PipeStage.step_cases hst with
    | give m =>
      obtain ⟨rest, rfl⟩ := List.head?_eq_some_iff.1 hitem
      exact .give rfl rfl
    | relayEnd _ => exact .relayEnd rfl
  | sent ok delivered =>
    obtain ⟨_, hst, rfl⟩ := Option.map_eq_some_iff.1 h
    cases PipeStage.step_cases hst with
    | sentRelay m => simpa [PipeStage.forRelay, PipeStage.forClient] using
        Step.sentRelay ok delivered rfl
    | sentClient m => simpa [PipeStage.forRelay, PipeStage.forClient] using
        Step.sentClient ok delivered rfl
  | relayClosed =>
    obtain ⟨_, hst, rfl⟩ := Option.map_eq_some_iff.1 h
    cases PipeStage.step_cases hst with
    | relayClosed => exact .relayClosed rfl
  | clientClosed =>
    obtain ⟨_, hst, rfl⟩ := Option.map_eq_some_iff.1 h
    cases PipeStage.step_cases hst with
    | clientClosed => exact .clientClosed rfl

/-! ## What is handed over -/

/-- The messages for the relay, of a stream of the client. -/
def forRelay (client : List (Except Unit AxumMsg)) : List TgMsg :=
  (messages client).map toTungstenite

/-- The messages for the client before the first close message or raw frame. -/
def before : List TgMsg → List AxumMsg
  | [] => []
  | m :: l =>
    match fromTungstenite m with
    | some a => a :: before l
    | none => []

/-- The messages for the client, of a stream of the relay. -/
def forClient (relay : List (Except Unit TgMsg)) : List AxumMsg := before (messages relay)

theorem forRelay_cons (m : AxumMsg) (l : List (Except Unit AxumMsg)) :
    forRelay (.ok m :: l) = toTungstenite m :: forRelay l := rfl

theorem forClient_cons (m : TgMsg) (l : List (Except Unit TgMsg)) :
    forClient (.ok m :: l) =
      match fromTungstenite m with
      | some a => a :: forClient l
      | none => [] := rfl

/-- What was handed over, is being sent and is still to be read, in each stage. -/
def Piped (client : List (Except Unit AxumMsg)) (relay : List (Except Unit TgMsg)) (s : Pipe) :
    Prop :=
  match s.stage with
  | .connecting | .refused | .selecting =>
    forRelay client = s.toRelay ++ forRelay s.clientRest ∧
      forClient relay = s.toClient ++ forClient s.relayRest
  | .toRelay m => forRelay client = s.toRelay ++ m :: forRelay s.clientRest ∧
      forClient relay = s.toClient ++ forClient s.relayRest
  | .toClient a => forRelay client = s.toRelay ++ forRelay s.clientRest ∧
      forClient relay = s.toClient ++ a :: forClient s.relayRest
  | .closingRelay | .closingClient | .returned =>
    s.toRelay <+: forRelay client ∧ s.toClient <+: forClient relay

/-- What was handed over is a prefix of what is for the other side. -/
theorem Piped.isPrefix (h : Piped client relay s) :
    s.toRelay <+: forRelay client ∧ s.toClient <+: forClient relay := by
  rw [Piped] at h
  split at h
  case h_6 | h_7 | h_8 => exact h
  all_goals exact ⟨h.1 ▸ List.prefix_append _ _, h.2 ▸ List.prefix_append _ _⟩

/-- Handing over the next message of a sequence, or not. -/
theorem prefix_handed {α : Type} {l handed rest : List α} {m : α} (h : l = handed ++ m :: rest)
    (b : Bool) : handed ++ (if b then [m] else []) <+: l := by
  subst h
  cases b with
  | true => exact ⟨rest, by simp⟩
  | false => exact ⟨m :: rest, by simp⟩

/-- Every step keeps what is handed over as it should be. -/
theorem Piped.step {a : PipeMove} (h : Piped client relay s) (hst : Step s a s') :
    Piped client relay s' := by
  have hpre := h.isPrefix
  cases hst with
  | connected ok hs =>
    simp only [Piped, hs] at h
    cases ok <;> exact h
  | take hs hr =>
    simp only [Piped, hs] at h
    rw [hr, forRelay_cons] at h
    exact h
  | clientEnd _ | relayEnd _ => exact hpre
  | @give m rest hs hr =>
    simp only [Piped, hs] at h
    rw [hr, forClient_cons] at h
    simp only [Piped, PipeStage.give]
    cases hm : fromTungstenite m with
    | some a => rw [hm] at h; exact h
    | none => exact hpre
  | @sentRelay m ok delivered hs =>
    simp only [Piped, hs] at h
    have hpre' := prefix_handed h.1 (ok || delivered)
    cases ok with
    | false => exact ⟨hpre', hpre.2⟩
    | true => exact ⟨by simpa using h.1, h.2⟩
  | @sentClient a ok delivered hs =>
    simp only [Piped, hs] at h
    have hpre' := prefix_handed h.2 (ok || delivered)
    cases ok with
    | false => exact ⟨hpre.1, hpre'⟩
    | true => exact ⟨h.1, by simpa using h.2⟩
  | relayClosed _ | clientClosed _ => exact hpre

/-- What is handed over is as it should be, in every run. -/
theorem piped (hs : (system client relay).Reachable s) : Piped client relay s := by
  refine hs.invariant (P := Piped client relay) ?_ fun _ _ _ _ h _ hst => h.step (step_cases hst)
  exact ⟨rfl, rfl⟩

/-! ## The law -/

/-- Messages of the two sides of the same kind, with the same payload. -/
inductive Same : AxumMsg → TgMsg → Prop
  | text (t : String) : Same (.text t) (.text t)
  | binary (b : Bytes) : Same (.binary b) (.binary b)
  | ping (b : Bytes) : Same (.ping b) (.ping b)
  | pong (b : Bytes) : Same (.pong b) (.pong b)

/-- What a message of the client is carried as: a close message loses its code and
    reason. -/
inductive Carried : AxumMsg → TgMsg → Prop
  | same {a : AxumMsg} {m : TgMsg} (h : Same a m) : Carried a m
  | close (f : Option CloseFrame) : Carried (.close f) (.close none)

theorem carried_toTungstenite (a : AxumMsg) : Carried a (toTungstenite a) := by
  cases a with
  | close f => exact .close f
  | text _ | binary _ | ping _ | pong _ => exact .same (by constructor)

theorem same_of_fromTungstenite {m : TgMsg} {a : AxumMsg} (h : fromTungstenite m = some a) :
    Same a m := by
  cases m with
  | close _ | frame _ => cases h
  | text _ | binary _ | ping _ | pong _ => obtain rfl := Option.some.inj h; constructor

/-- A prefix of what is for the relay carries a prefix of the client's messages. -/
theorem carried_of_prefix {l : List TgMsg} {msgs : List AxumMsg}
    (h : l <+: msgs.map toTungstenite) : ∃ k, k <+: msgs ∧ List.Forall₂ Carried k l := by
  obtain ⟨rest, hrest⟩ := h
  refine ⟨msgs.take l.length, List.take_prefix _ _, List.forall₂_take_append _ _ rest ?_⟩
  rw [hrest, List.forall₂_map_right_iff, List.forall₂_same]
  exact fun a _ => carried_toTungstenite a

/-- A prefix of what is for the client is a prefix of the relay's messages. -/
theorem same_of_prefix {l : List AxumMsg} {msgs : List TgMsg} (h : l <+: before msgs) :
    ∃ k, k <+: msgs ∧ List.Forall₂ Same l k := by
  induction msgs generalizing l with
  | nil =>
    obtain rfl := List.prefix_nil.1 h
    exact ⟨[], List.prefix_rfl, .nil⟩
  | cons m msgs ih =>
    rw [before] at h
    cases hm : fromTungstenite m with
    | none =>
      rw [hm] at h
      obtain rfl := List.prefix_nil.1 h
      exact ⟨[], List.nil_prefix, .nil⟩
    | some a =>
      rw [hm] at h
      cases l with
      | nil => exact ⟨[], List.nil_prefix, .nil⟩
      | cons b l =>
        obtain ⟨rfl, hl⟩ := List.cons_prefix_cons.1 h
        obtain ⟨k, hk, hsame⟩ := ih hl
        exact ⟨m :: k, List.cons_prefix_cons.2 ⟨rfl, hk⟩, .cons (same_of_fromTungstenite hm) hsame⟩

/-- The move ends the pipe: a stream ends or yields an error, the relay closes, or
    a send fails. -/
def Ending (s : Pipe) : PipeMove → Prop
  | .client => ∀ m, s.clientRest.head? ≠ some (.ok m)
  | .relay => ∀ m, s.relayRest.head? = some (.ok m) → m.final = true
  | .sent ok _ => ok = false
  | _ => False

/-- A move that ends the pipe leaves the loop. -/
theorem ended_of_ending {a : PipeMove} (hst : Step s a s') (ha : s.Ending a) :
    s'.stage.ended = true := by
  cases hst with
  | connected _ _ | relayClosed _ | clientClosed _ => exact ha.elim
  | take _ hr => exact absurd (by rw [hr]; rfl) (ha _)
  | clientEnd _ | relayEnd _ => rfl
  | @give m _ _ hr =>
    have hm : m.final = true := ha m (by rw [hr]; rfl)
    cases m with
    | close _ | frame _ => rfl
    | text _ | binary _ | ping _ | pong _ => cases hm
  | sentRelay ok _ _ | sentClient ok _ _ =>
    obtain rfl : ok = false := ha
    rfl

/-- Out of the loop, nothing is handed over. -/
theorem quiet_of_ended {a : PipeMove} (hst : Step s a s') (he : s.stage.ended = true) :
    s'.stage.ended = true ∧ s'.toRelay = s.toRelay ∧ s'.toClient = s.toClient := by
  cases hst with
  | relayClosed _ | clientClosed _ => exact ⟨rfl, rfl, rfl⟩
  | connected _ hs | take hs _ | clientEnd hs | give hs _ | relayEnd hs | sentRelay _ _ hs
  | sentClient _ _ hs => rw [hs] at he; cases he

/-- Out of the loop, nothing is ever handed over again. -/
theorem quiet_of_leads (hs : (system client relay).Reachable s) (he : s.stage.ended = true)
    (hl : (system client relay).Leads s s') :
    s'.stage.ended = true ∧ s'.toRelay = s.toRelay ∧ s'.toClient = s.toClient := by
  refine hl.invariant (P := fun s' => s'.stage.ended = true ∧ s'.toRelay = s.toRelay ∧
    s'.toClient = s.toClient) (fun s₁ a s₂ _ h hst => ?_) hs ⟨he, rfl, rfl⟩
  obtain ⟨he, hr, hc⟩ := quiet_of_ended (step_cases hst) h.1
  exact ⟨he, hr.trans h.2.1, hc.trans h.2.2⟩

/-- The sinks are closed one after the other, once the loop has been left. -/
def Closing (s : Pipe) : Prop :=
  (s.relayClosed = true ↔ s.stage = .closingClient ∨ s.stage = .returned) ∧
    (s.clientClosed = true ↔ s.stage = .returned)

/-- Every step closes the sinks in turn. -/
theorem Closing.step {a : PipeMove} (h : s.Closing) (hst : Step s a s') : s'.Closing := by
  cases hst with
  | connected ok hs =>
    simp only [Closing, hs] at h
    cases ok <;> simp [Closing, h]
  | take hs _ | clientEnd hs | relayEnd hs | relayClosed hs | clientClosed hs =>
    simp only [Closing, hs] at h
    simp [Closing, h]
  | @give m _ hs _ =>
    simp only [Closing, hs] at h
    cases hm : fromTungstenite m <;> simp [Closing, PipeStage.give, hm, h]
  | sentRelay ok _ hs | sentClient ok _ hs =>
    simp only [Closing, hs] at h
    cases ok <;> simp [Closing, PipeStage.afterSend, h]

/-- The sinks are closed in turn, in every run. -/
theorem closing (hs : (system client relay).Reachable s) : s.Closing := by
  refine hs.invariant (P := Closing) ?_ fun _ _ _ _ h _ hst => h.step (step_cases hst)
  simp [Closing, system]

/-- Out of the loop, both sinks can be closed, whatever else happens. -/
theorem returns_of_ended (he : s.stage.ended = true) :
    ∃ s', (system client relay).Leads s s' ∧ s'.stage = .returned := by
  have hclient : ∀ s : Pipe, s.stage = .closingClient →
      (system client relay).step s .clientClosed =
        some { s with stage := .returned, clientClosed := true } := fun s hs => by
    simp [system, Pipe.step, PipeStage.step, hs]
  have hrelay : ∀ s : Pipe, s.stage = .closingRelay →
      (system client relay).step s .relayClosed =
        some { s with stage := .closingClient, relayClosed := true } := fun s hs => by
    simp [system, Pipe.step, PipeStage.step, hs]
  cases hst : s.stage with
  | closingRelay => exact ⟨_, (Relation.ReflTransGen.single ⟨_, hrelay s hst⟩).tail
      ⟨_, hclient _ rfl⟩, rfl⟩
  | closingClient => exact ⟨_, .single ⟨_, hclient s hst⟩, rfl⟩
  | returned => exact ⟨s, .refl, hst⟩
  | _ => rw [hst] at he; cases he

variable (client relay) in
/-- The pipe carries the messages of both sides verbatim. -/
structure Verbatim (s : Pipe) : Prop where
  /-- What was handed to the relay are the first messages of the client. -/
  toRelay : ∃ msgs, msgs <+: messages client ∧ List.Forall₂ Carried msgs s.toRelay
  /-- What was handed to the client are the first messages of the relay, and none of
      them ends the pipe. -/
  toClient : ∃ msgs, msgs <+: messages relay ∧ List.Forall₂ Same s.toClient msgs
  /-- A stream that ends or yields an error, a relay that closes and a send that
      fails end the pipe. -/
  ends : ∀ a s', (system client relay).step s a = some s' → s.Ending a → s'.stage.ended = true
  /-- Then nothing more is handed over, in either direction. -/
  quiet : s.stage.ended = true → ∀ s', (system client relay).Leads s s' →
    s'.toRelay = s.toRelay ∧ s'.toClient = s.toClient
  /-- And both sinks are closed before it returns, as it can. -/
  closed : s.stage = .returned → s.relayClosed = true ∧ s.clientClosed = true
  returns : s.stage.ended = true → ∃ s', (system client relay).Leads s s' ∧ s'.stage = .returned

/-- Whatever the streams yield, and whichever sends fail, the pipe is verbatim. -/
theorem verbatim (hs : (system client relay).Reachable s) : Verbatim client relay s where
  toRelay := carried_of_prefix (piped hs).isPrefix.1
  toClient := same_of_prefix (piped hs).isPrefix.2
  ends _ _ hst ha := ended_of_ending (step_cases hst) ha
  quiet he _ hl := (quiet_of_leads hs he hl).2
  closed hr := ⟨(closing hs).1.2 (.inr hr), (closing hs).2.2 hr⟩
  returns := returns_of_ended

/-- The client sends a text and closes with a reason, the relay answers once; then
    the send to the relay fails. -/
theorem verbatim_session : ∃ s : Pipe, s.stage = .returned ∧ s.toRelay = [.text "a", .close none] ∧
    s.toClient = [.binary [1, 2]] ∧
      Verbatim [.ok (.text "a"), .ok (.close (some ⟨1000, "bye"⟩)), .ok (.text "b")]
        [.ok (.binary [1, 2]), .ok (.close none)] s := by
  obtain ⟨s, hs, hp⟩ := System.exists_reachableBy
    (M := system [.ok (.text "a"), .ok (.close (some ⟨1000, "bye"⟩)), .ok (.text "b")]
      [.ok (.binary [1, 2]), .ok (.close none)])
    (C := fun _ _ => True)
    [.connected true, .client, .sent true true, .relay, .sent true true, .client, .sent false true,
      .relayClosed, .clientClosed]
    (fun s => decide (s.stage = .returned ∧ s.toRelay = [.text "a", .close none] ∧
      s.toClient = [.binary [1, 2]])) (by decide)
  obtain ⟨hr, htr, htc⟩ := of_decide_eq_true hp
  exact ⟨s, hr, htr, htc, verbatim hs⟩

end Pipe

end Outlay.Shim

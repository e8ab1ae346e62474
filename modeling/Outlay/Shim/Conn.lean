import Mathlib.Data.List.AList
import Outlay.Async.Mpsc
import Outlay.Async.System
import Outlay.Shim.Task

/-!
# One connection of the bridge

`handle_ws`, once the path has parsed and the transport was obtained, as a system
of concurrent parties: the main loop that reads the client's frames, the workers
it spawns, and the writer task, which alone feeds the client's socket from one
bounded channel.

* The items the client's stream yields are numbered, and so are the workers: the
  worker `n` was spawned for the `n`-th item. A frame in the channel carries the
  number of the item it answers.
* The main loop handles an item in one step, unless it has to send a notice,
  through the same channel. Once it is left, the workers still stored are
  signalled one by one, in any order, and the writer is awaited.
* The writer may fail to write at any point; then it closes the socket, and drops
  the receiver of the channel.

`Step` lists, once and for all, what a step of the connection can do.
-/

namespace Outlay.Shim

open Async

/-- The capacity of the outbound channel. -/
def outboundBuf : ℕ := 256

/-- What the client's stream yields. -/
inductive Inbound
  | text (t : String)
  | close
  | error
  /-- Ping, pong and binary messages. -/
  | other
  /-- The stream has ended. -/
  | eof
  deriving DecidableEq

/-- Where `handle_ws` is. -/
inductive Main
  /-- Waiting for the client. -/
  | reading
  /-- Sending a notice in answer to the item `n`. -/
  | noticing (n : ℕ)
  /-- Signalling the tasks still stored. -/
  | cleanup (rest : List ℕ)
  /-- Waiting for the writer. -/
  | joining
  | returned
  deriving DecidableEq

/-- The main loop has not been left. -/
def Main.looping : Main → Bool
  | .reading | .noticing _ => true
  | _ => false

/-- The main loop still has its sender. -/
def Main.sender : Main → Bool
  | .reading | .noticing _ | .cleanup _ => true
  | _ => false

/-- Where the writer task is. -/
inductive Writer
  /-- At `rx.recv`. -/
  | receiving
  /-- At `sink.send`. -/
  | writing
  /-- At `sink.close`. -/
  | closing
  | returned
  deriving DecidableEq

/-- The state of a connection. -/
structure Conn where
  /-- The items read from the client's stream. -/
  inbound : List Inbound
  main : Main
  /-- The task stored for each sub_id. -/
  subs : AList fun _ : String => ℕ
  tasks : ℕ → Task
  publishes : ℕ → Publish
  channel : Mpsc (ℕ × String)
  writer : Writer
  /-- The frames given to the sink. -/
  given : List (ℕ × String)
  /-- The sink has failed to write. -/
  sinkFailed : Bool

namespace Conn

/-- Removing the task stored for a sub_id, and signalling it. -/
def remove (s : Conn) (subId : String) : Conn :=
  match s.subs.lookup subId with
  | some m => { s with
      subs := s.subs.erase subId
      tasks := Function.update s.tasks m (s.tasks m).signal }
  | none => s

/-- Spawning a subscribe task for the item being handled, and storing it. -/
def subscribe (s : Conn) (subId : String) (filters : List Json) : Conn := { s with
  tasks := Function.update s.tasks s.inbound.length (.spawn subId filters)
  subs := s.subs.insert subId s.inbound.length }

/-- Spawning a publish task for the item being handled. -/
def publish (s : Conn) (event : Json) : Conn := { s with
  publishes := Function.update s.publishes s.inbound.length (.spawn event) }

/-- Handling a client message, or a frame that is none. -/
def dispatch (s : Conn) : Option ClientMsg → Conn
  -- NIP-01 REQ-on-existing-sub == replace: cancel the old one first.
  | some (.req subId filters) => (s.remove subId).subscribe subId filters
  | some (.close subId) => s.remove subId
  | some (.publish event) => s.publish event
  | none => { s with main := .noticing s.inbound.length }

/-- Leaving the main loop. -/
def leave (s : Conn) : Conn := { s with main := .cleanup (s.subs.entries.map Sigma.snd) }

/-- Handling an item of the client's stream. -/
def handle (decode : String → Option Json) (s : Conn) : Inbound → Conn
  | .text t => s.dispatch (parseClientFrame decode t)
  | .close | .error | .eof => s.leave
  -- Pings are answered by the socket itself, and binary messages ignored.
  | .other => s

/-- All senders of the channel are gone. -/
def SendersGone (s : Conn) : Prop :=
  s.main.sender = false ∧
    ∀ n < s.inbound.length, (s.tasks n).running = false ∧ (s.publishes n).running = false

instance (s : Conn) : Decidable s.SendersGone := inferInstanceAs (Decidable (_ ∧ _))

end Conn

/-- The actions of a connection. -/
inductive ConnAction
  /-- The main loop reads an item. -/
  | inbound (f : Inbound)
  /-- The main loop's `tx.send` of a notice completes. -/
  | notice
  /-- One turn of the cleanup, which signals the task `n`. -/
  | signal (n : ℕ)
  /-- The end of the cleanup. -/
  | cleanup
  /-- `writer.await` completes. -/
  | join
  /-- A subscribe task acts. -/
  | task (n : ℕ) (a : TaskAction)
  /-- The `tx.send` of a subscribe task completes. -/
  | send (n : ℕ)
  /-- The call of a publish task returns. -/
  | published (n : ℕ) (r : Except String (Option Json))
  /-- The `tx.send` of a publish task completes. -/
  | ack (n : ℕ)
  /-- The writer's `rx.recv` completes. -/
  | recv
  /-- The writer's `sink.send` completes. -/
  | wrote (ok : Bool)
  /-- The writer's `sink.close` completes. -/
  | closed

namespace Conn

/-- A step of a connection. -/
def step (decode : String → Option Json) (s : Conn) : ConnAction → Option Conn
  | .inbound f =>
    match s.main with
    | .reading => some { s.handle decode f with inbound := s.inbound ++ [f] }
    | _ => none
  | .notice =>
    match s.main with
    | .noticing n => (s.channel.send outboundBuf (n, noticeFrame "unrecognized frame")).map
        fun r => { s with channel := r.2, main := .reading }
    | _ => none
  | .signal n =>
    match s.main with
    -- The tasks come in any order.
    | .cleanup rest => if n ∈ rest then some { s with
        tasks := Function.update s.tasks n (s.tasks n).signal
        main := .cleanup (rest.erase n) } else none
    | _ => none
  | .cleanup =>
    match s.main with
    -- The tasks are detached, and the sender of the main loop is dropped.
    | .cleanup [] => some { s with subs := ∅, main := .joining }
    | _ => none
  | .join =>
    match s.main with
    | .joining => if s.writer = .returned then some { s with main := .returned } else none
    | _ => none
  | .task n a => ((s.tasks n).step a).map fun t =>
      { s with tasks := Function.update s.tasks n t }
  | .send n =>
    match (s.tasks n).stage with
    | .sending frame last => (s.channel.send outboundBuf (n, frame)).map fun r => { s with
        channel := r.2
        tasks := Function.update s.tasks n
          { s.tasks n with stage := Task.afterSend last r.1 } }
    | _ => none
  | .published n r => ((s.publishes n).complete r).map fun p =>
      { s with publishes := Function.update s.publishes n p }
  | .ack n =>
    match (s.publishes n).stage, (s.publishes n).outcome with
    | .sending, some r =>
      (s.channel.send outboundBuf (n, publishFrame (s.publishes n).event r)).map fun r => { s with
        channel := r.2
        publishes := Function.update s.publishes n { s.publishes n with stage := .returned } }
    | _, _ => none
  | .recv =>
    match s.writer with
    | .receiving =>
      match s.channel.recv with
      | some (frame, ch) => some { s with
          channel := ch, given := s.given ++ [frame], writer := .writing }
      -- An empty channel only ends once no sender is left.
      | none => if s.SendersGone then some { s with writer := .closing } else none
    | _ => none
  | .wrote ok =>
    match s.writer with
    | .writing => some (if ok then { s with writer := .receiving }
        else { s with writer := .closing, sinkFailed := true })
    | _ => none
  | .closed =>
    match s.writer with
    -- The receiver is dropped with the writer task.
    | .closing => some { s with writer := .returned, channel := s.channel.dropReceiver }
    | _ => none

/-- A connection that has read nothing yet. -/
def fresh : Conn where
  inbound := []
  main := .reading
  subs := ∅
  tasks := fun _ => .absent
  publishes := fun _ => .absent
  channel := .fresh
  writer := .receiving
  given := []
  sinkFailed := false

/-- The system of one connection. -/
def system (decode : String → Option Json) : System Conn ConnAction := ⟨fresh, step decode⟩

/-! ## What a step can do -/

/-- The steps of a connection: what `Conn.step` can do, case by case. -/
inductive Step (decode : String → Option Json) (s : Conn) : ConnAction → Conn → Prop
  | inbound (f : Inbound) (hm : s.main = .reading) :
      Step decode s (.inbound f) { s.handle decode f with inbound := s.inbound ++ [f] }
  | notice {n : ℕ} {ok : Bool} {ch : Mpsc (ℕ × String)} (hm : s.main = .noticing n)
      (hc : s.channel.send outboundBuf (n, noticeFrame "unrecognized frame") = some (ok, ch)) :
      Step decode s .notice { s with channel := ch, main := .reading }
  | signal {m : ℕ} {rest : List ℕ} (hm : s.main = .cleanup rest) (hmem : m ∈ rest) :
      Step decode s (.signal m) { s with
        tasks := Function.update s.tasks m (s.tasks m).signal
        main := .cleanup (rest.erase m) }
  | cleaned (hm : s.main = .cleanup []) :
      Step decode s .cleanup { s with subs := ∅, main := .joining }
  | join (hm : s.main = .joining) (hw : s.writer = .returned) :
      Step decode s .join { s with main := .returned }
  | task {n : ℕ} {a : TaskAction} {t : Task} (ht : TaskStep (s.tasks n) a t) :
      Step decode s (.task n a) { s with tasks := Function.update s.tasks n t }
  | send {n : ℕ} {frame : String} {last ok : Bool} {ch : Mpsc (ℕ × String)}
      (hs : (s.tasks n).stage = .sending frame last)
      (hc : s.channel.send outboundBuf (n, frame) = some (ok, ch)) :
      Step decode s (.send n) { s with
        channel := ch
        tasks := Function.update s.tasks n { s.tasks n with stage := Task.afterSend last ok } }
  | published {n : ℕ} {r : Except String (Option Json)} (hs : (s.publishes n).stage = .calling) :
      Step decode s (.published n r) { s with
        publishes := Function.update s.publishes n
          { s.publishes n with stage := .sending, outcome := some r } }
  | ack {n : ℕ} {r : Except String (Option Json)} {ok : Bool} {ch : Mpsc (ℕ × String)}
      (hs : (s.publishes n).stage = .sending) (ho : (s.publishes n).outcome = some r)
      (hc : s.channel.send outboundBuf (n, publishFrame (s.publishes n).event r) =
        some (ok, ch)) :
      Step decode s (.ack n) { s with
        channel := ch
        publishes := Function.update s.publishes n { s.publishes n with stage := .returned } }
  | recv {frame : ℕ × String} {ch : Mpsc (ℕ × String)} (hw : s.writer = .receiving)
      (hc : s.channel.recv = some (frame, ch)) :
      Step decode s .recv { s with
        channel := ch, given := s.given ++ [frame], writer := .writing }
  | drained (hw : s.writer = .receiving) (hq : s.channel.queue = []) (hg : s.SendersGone) :
      Step decode s .recv { s with writer := .closing }
  | wrote (hw : s.writer = .writing) : Step decode s (.wrote true) { s with writer := .receiving }
  | broke (hw : s.writer = .writing) :
      Step decode s (.wrote false) { s with writer := .closing, sinkFailed := true }
  | closed (hw : s.writer = .closing) :
      Step decode s .closed { s with writer := .returned, channel := s.channel.dropReceiver }

variable {decode : String → Option Json}

/-- A step of a connection is one of those listed. -/
theorem step_cases {s s' : Conn} {a : ConnAction} (h : (system decode).step s a = some s') :
    Step decode s a s' := by
  cases a with
  | inbound f =>
    simp only [system, step] at h
    split at h
    next hm => obtain rfl := Option.some.inj h; exact .inbound f hm
    next => cases h
  | notice =>
    simp only [system, step] at h
    split at h
    next hm => obtain ⟨⟨_, _⟩, hc, rfl⟩ := Option.map_eq_some_iff.1 h; exact .notice hm hc
    next => cases h
  | signal n =>
    simp only [system, step] at h
    split at h
    next hm =>
      split_ifs at h with hmem
      obtain rfl := Option.some.inj h
      exact .signal hm hmem
    next => cases h
  | cleanup =>
    simp only [system, step] at h
    split at h
    next hm => obtain rfl := Option.some.inj h; exact .cleaned hm
    next => cases h
  | join =>
    simp only [system, step] at h
    split at h
    next hm =>
      split_ifs at h with hw
      obtain rfl := Option.some.inj h
      exact .join hm hw
    next => cases h
  | task n a =>
    obtain ⟨t, ht, rfl⟩ := Option.map_eq_some_iff.1 h
    exact .task (Task.step_cases ht)
  | send n =>
    simp only [system, step] at h
    split at h
    next hs => obtain ⟨⟨_, _⟩, hc, rfl⟩ := Option.map_eq_some_iff.1 h; exact .send hs hc
    next => cases h
  | published n r =>
    obtain ⟨p, hp, rfl⟩ := Option.map_eq_some_iff.1 h
    simp only [Publish.complete] at hp
    split at hp
    next hs => obtain rfl := Option.some.inj hp; exact .published hs
    next => cases hp
  | ack n =>
    simp only [system, step] at h
    split at h
    next hs ho => obtain ⟨⟨_, _⟩, hc, rfl⟩ := Option.map_eq_some_iff.1 h; exact .ack hs ho hc
    next => cases h
  | recv =>
    simp only [system, step] at h
    split at h
    next hw =>
      cases hc : s.channel.recv with
      | none =>
        rw [hc] at h
        simp only at h
        split_ifs at h with hg
        obtain rfl := Option.some.inj h
        exact .drained hw (Mpsc.recv_eq_none.1 hc) hg
      | some r =>
        rw [hc] at h
        obtain rfl := Option.some.inj h
        exact .recv hw hc
    next => cases h
  | wrote ok =>
    simp only [system, step] at h
    split at h
    next hw => cases ok <;> obtain rfl := Option.some.inj h; exacts [.broke hw, .wrote hw]
    next => cases h
  | closed =>
    simp only [system, step] at h
    split at h
    next hw => obtain rfl := Option.some.inj h; exact .closed hw
    next => cases h

end Conn

end Outlay.Shim

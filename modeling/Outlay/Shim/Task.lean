import Outlay.Async.Notify
import Outlay.Shim.Translate

/-!
# The workers of a connection

The two kinds of workers a connection spawns: a `Task` runs `subscribe_loop`, one
subscribe call whose chunks it pumps into the outbound channel until the stream
ends, errors, or its cancel signal fires; a `Publish` runs `publish_once`, one
publish call answered with an `OK` frame.

A step of a worker is what it does between two awaits. At a `select!` the task
polls its cancel signal (`arm`, `takeCancel`) and its call in either order;
whichever arm is taken, the wait for the signal is dropped with it. Sending into
the channel is a step of the connection.

`Task.step` is one step; `TaskStep` lists, once and for all, what it can do.
-/

namespace Outlay.Shim

open Async

/-- How far the tool call of a subscribe task is. -/
inductive CallStatus
  /-- Being set up. -/
  | connecting
  /-- The setup returned an error. -/
  | refused (e : String)
  /-- Established, and its stream open. -/
  | streaming
  /-- The stream yielded an error. -/
  | failed (e : String)
  /-- The stream ended. -/
  | finished
  deriving DecidableEq

/-- The call is over: it was refused, or its stream has ended. -/
def CallStatus.over : CallStatus → Bool
  | .refused _ | .failed _ | .finished => true
  | _ => false

/-- The frame synthesized for a call whose setup or stream returned an error. -/
def CallStatus.closing (subId : String) : CallStatus → List String
  | .refused e | .failed e => [closedFrame subId e]
  | _ => []

/-- Where a subscribe task is. -/
inductive TaskStage
  /-- Not spawned. -/
  | absent
  /-- At the `select!` of the setup. -/
  | setup
  /-- At the `select!` of the loop. -/
  | pumping
  /-- In `tx.send`; after its last frame it returns. -/
  | sending (frame : String) (last : Bool)
  /-- In `handle.cancel`. -/
  | cancelling
  | returned
  deriving DecidableEq

/-- The state of a subscribe task, and the history of its call and signals. -/
structure Task where
  stage : TaskStage
  subId : String
  /-- The arguments of its tool call. -/
  args : Json
  /-- Its cancel signal. -/
  cancel : Notify
  call : CallStatus
  /-- The chunks its stream yielded. -/
  read : List String
  /-- The number of times it was signalled. -/
  signals : ℕ
  /-- It has consumed its cancel signal. -/
  taken : Bool
  /-- The number of times it issued `handle.cancel` for its call. -/
  aborts : ℕ

namespace Task

/-- A task not spawned. -/
def absent : Task where
  stage := .absent
  subId := ""
  args := .null
  cancel := .fresh
  call := .connecting
  read := []
  signals := 0
  taken := false
  aborts := 0

/-- A task just spawned. -/
def spawn (subId : String) (filters : List Json) : Task :=
  { absent with stage := .setup, subId, args := subscribeArgs subId filters }

/-- Signalling a task: `cancel.notify_one()`. -/
def signal (t : Task) : Task :=
  { t with cancel := t.cancel.notifyOne, signals := t.signals + 1 }

/-- A task that has been spawned and has not returned. -/
def running (t : Task) : Bool := decide (t.stage ≠ .absent ∧ t.stage ≠ .returned)

/-- What the task has to answer: the chunks of its stream, verbatim, and then the
    frame synthesized, if any. -/
def output (t : Task) : List String := t.read ++ t.call.closing t.subId

/-- Where a task is after a send that was accepted or not. -/
def afterSend (last ok : Bool) : TaskStage := if ok && !last then .pumping else .returned

end Task

/-- The actions of a subscribe task. -/
inductive TaskAction
  /-- The wait for the cancel signal is registered. -/
  | arm
  | established
  | refused (e : String)
  | chunk (c : String)
  | error (e : String)
  | finish
  /-- The cancel signal is consumed. -/
  | takeCancel
  /-- `handle.cancel` returns. -/
  | aborted

/-- A step of a subscribe task. -/
def Task.step (t : Task) : TaskAction → Option Task
  | .arm =>
    match t.stage with
    | .setup | .pumping => t.cancel.register.map fun cancel => { t with cancel }
    | _ => none
  -- Whichever arm of a `select!` is taken, the wait of the other is dropped.
  | .established =>
    match t.stage with
    | .setup => some { t with
        stage := .pumping, call := .streaming, cancel := t.cancel.dropWaiter }
    | _ => none
  | .refused e =>
    match t.stage with
    | .setup => some { t with
        stage := .sending (closedFrame t.subId e) true
        call := .refused e, cancel := t.cancel.dropWaiter }
    | _ => none
  | .chunk c =>
    match t.stage with
    | .pumping => some { t with
        stage := .sending c false, read := t.read ++ [c], cancel := t.cancel.dropWaiter }
    | _ => none
  | .error e =>
    match t.stage with
    | .pumping => some { t with
        stage := .sending (closedFrame t.subId e) true
        call := .failed e, cancel := t.cancel.dropWaiter }
    | _ => none
  | .finish =>
    match t.stage with
    | .pumping => some { t with
        stage := .returned, call := .finished, cancel := t.cancel.dropWaiter }
    | _ => none
  | .takeCancel =>
    match t.stage with
    -- There is nothing to cancel yet: the connect is simply dropped.
    | .setup => t.cancel.consume.map fun cancel => { t with
        stage := .returned, cancel, taken := true }
    | .pumping => t.cancel.consume.map fun cancel => { t with
        stage := .cancelling, cancel, taken := true, aborts := t.aborts + 1 }
    | _ => none
  | .aborted =>
    match t.stage with
    | .cancelling => some { t with stage := .returned }
    | _ => none

/-- The steps of a subscribe task: what `Task.step` can do, case by case. -/
inductive TaskStep (t : Task) : TaskAction → Task → Prop
  | arm {cancel : Notify} (hs : t.stage = .setup ∨ t.stage = .pumping)
      (hc : t.cancel.register = some cancel) : TaskStep t .arm { t with cancel }
  | established (hs : t.stage = .setup) :
      TaskStep t .established { t with
        stage := .pumping, call := .streaming, cancel := t.cancel.dropWaiter }
  | refused {e : String} (hs : t.stage = .setup) :
      TaskStep t (.refused e) { t with
        stage := .sending (closedFrame t.subId e) true
        call := .refused e, cancel := t.cancel.dropWaiter }
  | chunk {c : String} (hs : t.stage = .pumping) :
      TaskStep t (.chunk c) { t with
        stage := .sending c false, read := t.read ++ [c], cancel := t.cancel.dropWaiter }
  | error {e : String} (hs : t.stage = .pumping) :
      TaskStep t (.error e) { t with
        stage := .sending (closedFrame t.subId e) true
        call := .failed e, cancel := t.cancel.dropWaiter }
  | finish (hs : t.stage = .pumping) :
      TaskStep t .finish { t with
        stage := .returned, call := .finished, cancel := t.cancel.dropWaiter }
  | bail {cancel : Notify} (hs : t.stage = .setup) (hc : t.cancel.consume = some cancel) :
      TaskStep t .takeCancel { t with stage := .returned, cancel, taken := true }
  | abort {cancel : Notify} (hs : t.stage = .pumping) (hc : t.cancel.consume = some cancel) :
      TaskStep t .takeCancel { t with
        stage := .cancelling, cancel, taken := true, aborts := t.aborts + 1 }
  | aborted (hs : t.stage = .cancelling) : TaskStep t .aborted { t with stage := .returned }

/-- A step of a task is one of those listed. -/
theorem Task.step_cases {t t' : Task} {a : TaskAction} (h : t.step a = some t') :
    TaskStep t a t' := by
  cases a with
  | arm =>
    simp only [step] at h
    split at h
    next hs => obtain ⟨_, hc, rfl⟩ := Option.map_eq_some_iff.1 h; exact .arm (.inl hs) hc
    next hs => obtain ⟨_, hc, rfl⟩ := Option.map_eq_some_iff.1 h; exact .arm (.inr hs) hc
    next => cases h
  | takeCancel =>
    simp only [step] at h
    split at h
    next hs => obtain ⟨_, hc, rfl⟩ := Option.map_eq_some_iff.1 h; exact .bail hs hc
    next hs => obtain ⟨_, hc, rfl⟩ := Option.map_eq_some_iff.1 h; exact .abort hs hc
    next => cases h
  | established | refused e | chunk c | error e | finish | aborted =>
    simp only [step] at h
    split at h
    next hs => obtain rfl := Option.some.inj h; constructor; exact hs
    next => cases h

/-- Only a task that was spawned acts. -/
theorem TaskStep.spawned {t t' : Task} {a : TaskAction} (h : TaskStep t a t') :
    t.stage ≠ .absent := by
  cases h with
  | arm hs _ => rcases hs with hs | hs <;> simp [hs]
  | established hs | refused hs | chunk hs | error hs | finish hs | bail hs _ | abort hs _
  | aborted hs => simp [hs]

/-- Where a publish task is. -/
inductive PublishStage
  /-- Not spawned. -/
  | absent
  /-- In `call_tool`. -/
  | calling
  /-- In `tx.send`. -/
  | sending
  | returned
  deriving DecidableEq

/-- The state of a publish task, and the outcome of its call. -/
structure Publish where
  stage : PublishStage
  event : Json
  /-- The arguments of its tool call. -/
  args : Json
  /-- The structured content of the result, or the error, once the call is over. -/
  outcome : Option (Except String (Option Json))

namespace Publish

/-- A publish task not spawned. -/
def absent : Publish := ⟨.absent, .null, .null, none⟩

/-- A publish task just spawned. -/
def spawn (event : Json) : Publish := ⟨.calling, event, publishArgs event, none⟩

/-- A publish task that has been spawned and has not returned. -/
def running (p : Publish) : Bool := decide (p.stage ≠ .absent ∧ p.stage ≠ .returned)

/-- What the publish task has to answer: one frame, once its call is over. -/
def output (p : Publish) : List String := (p.outcome.map (publishFrame p.event)).toList

/-- The call returns. -/
def complete (p : Publish) (r : Except String (Option Json)) : Option Publish :=
  match p.stage with
  | .calling => some { p with stage := .sending, outcome := some r }
  | _ => none

end Publish

end Outlay.Shim

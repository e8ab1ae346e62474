import Mathlib

/-!
# The relay pipe

`forward` pipes the WebSocket of a client to the colocated relay, in both
directions, until either side closes. A step of it is what it does between two
awaits: `PipeStage.step` says where it goes when a stream yields an item, when a
send completes or fails, and when a sink is closed.

Which items the streams yield, and when a send completes, is up to the system
`forward` is put in.
-/

namespace Outlay.Shim

/-- The payload of a binary message. -/
abbrev Bytes := List UInt8

/-- The code and the reason of a close message. -/
structure CloseFrame where
  code : UInt16
  reason : String
  deriving DecidableEq

/-- A message on the client's side of the pipe. -/
inductive AxumMsg
  | text (t : String)
  | binary (b : Bytes)
  | ping (b : Bytes)
  | pong (b : Bytes)
  | close (f : Option CloseFrame)
  deriving DecidableEq

/-- A message on the relay's side of the pipe. -/
inductive TgMsg
  | text (t : String)
  | binary (b : Bytes)
  | ping (b : Bytes)
  | pong (b : Bytes)
  | close (f : Option CloseFrame)
  /-- A raw frame. -/
  | frame (b : Bytes)
  deriving DecidableEq

/-- The client's message, for the relay. -/
def toTungstenite : AxumMsg → TgMsg
  | .text t => .text t
  | .binary b => .binary b
  | .ping b => .ping b
  | .pong b => .pong b
  | .close _ => .close none

/-- The relay's message, for the client. `none` for a close message or a raw frame
    signals the caller to end the pipe. -/
def fromTungstenite : TgMsg → Option AxumMsg
  | .text t => some (.text t)
  | .binary b => some (.binary b)
  | .ping b => some (.ping b)
  | .pong b => some (.pong b)
  | .close _ => none
  | .frame _ => none

/-- What a stream yields: a message, an error, or its end. -/
abbrev Item (α : Type) := Option (Except Unit α)

/-- Where `forward` is. -/
inductive PipeStage
  /-- In `connect_async`. -/
  | connecting
  /-- Returned, as connecting failed. -/
  | refused
  /-- At the `select!`. -/
  | selecting
  /-- In `tg_sink.send`. -/
  | toRelay (m : TgMsg)
  /-- In `axum_sink.send`. -/
  | toClient (m : AxumMsg)
  /-- In `tg_sink.close`. -/
  | closingRelay
  /-- In `axum_sink.close`. -/
  | closingClient
  | returned
  deriving DecidableEq

/-- The actions of `forward`. -/
inductive PipeAction
  | connected (ok : Bool)
  /-- The client's stream yields an item. -/
  | client (item : Item AxumMsg)
  /-- The relay's stream yields an item. -/
  | relay (item : Item TgMsg)
  /-- The send completes, or fails. -/
  | sent (ok : Bool)
  | relayClosed
  | clientClosed

namespace PipeStage

/-- Where `forward` goes with a message of the relay. -/
def give (m : TgMsg) : PipeStage :=
  match fromTungstenite m with
  | some a => .toClient a
  -- A close message or a raw frame ends the pipe.
  | none => .closingRelay

/-- Where `forward` is after a send. -/
def afterSend (ok : Bool) : PipeStage := if ok then .selecting else .closingRelay

/-- A step of `forward`. -/
def step : PipeStage → PipeAction → Option PipeStage
  | .connecting, .connected ok => some (if ok then .selecting else .refused)
  | .selecting, .client (some (.ok m)) => some (.toRelay (toTungstenite m))
  | .selecting, .client _ => some .closingRelay
  | .selecting, .relay (some (.ok m)) => some (give m)
  | .selecting, .relay _ => some .closingRelay
  | .toRelay _, .sent ok => some (afterSend ok)
  | .toClient _, .sent ok => some (afterSend ok)
  | .closingRelay, .relayClosed => some .closingClient
  | .closingClient, .clientClosed => some .returned
  | _, _ => none

/-- The loop has been left. -/
def ended : PipeStage → Bool
  | .closingRelay | .closingClient | .returned => true
  | _ => false

/-- The steps of `forward`: what `step` can do, case by case. -/
inductive Step : PipeStage → PipeAction → PipeStage → Prop
  | connected (ok : Bool) :
      Step .connecting (.connected ok) (if ok then .selecting else .refused)
  | take (m : AxumMsg) : Step .selecting (.client (some (.ok m))) (.toRelay (toTungstenite m))
  | clientEnd {item : Item AxumMsg} (h : ∀ m, item ≠ some (.ok m)) :
      Step .selecting (.client item) .closingRelay
  | give (m : TgMsg) : Step .selecting (.relay (some (.ok m))) (PipeStage.give m)
  | relayEnd {item : Item TgMsg} (h : ∀ m, item ≠ some (.ok m)) :
      Step .selecting (.relay item) .closingRelay
  | sentRelay (m : TgMsg) (ok : Bool) : Step (.toRelay m) (.sent ok) (afterSend ok)
  | sentClient (m : AxumMsg) (ok : Bool) : Step (.toClient m) (.sent ok) (afterSend ok)
  | relayClosed : Step .closingRelay .relayClosed .closingClient
  | clientClosed : Step .closingClient .clientClosed .returned

/-- A step of `forward` is one of those listed. -/
theorem step_cases {s s' : PipeStage} {a : PipeAction} (h : s.step a = some s') : Step s a s' := by
  revert h
  fun_cases step s a
  case case3 hne => intro h; obtain rfl := Option.some.inj h; exact .clientEnd hne
  case case5 hne => intro h; obtain rfl := Option.some.inj h; exact .relayEnd hne
  case case10 => intro h; cases h
  all_goals intro h; obtain rfl := Option.some.inj h; constructor

end PipeStage

end Outlay.Shim

import Outlay.Proxy.Subscribe

/-!
# Publishing

The `publish_event` tool: the client's event is decoded, sent to the upstream as
it is, and the outcome is serialised into the structured content of the result.

Events and their ids are those of the Nostr library, of which the model takes
what the proxy relies on as parameters: an `EventCodec`.
-/

namespace Outlay.Proxy

/-- 64 lowercase hexadecimal digits. -/
def CanonicalHex (s : String) : Prop :=
  s.length = 64 ∧ ∀ c ∈ s.toList, c ∈ "0123456789abcdef".toList

instance : DecidablePred CanonicalHex := fun _ => inferInstanceAs (Decidable (_ ∧ _))

/-- What publishing relies on of the Nostr library. -/
structure EventCodec (Event EventId : Type*) where
  /-- The decoding of an event object. -/
  decode : Json → Except String Event
  /-- The id of an event. -/
  id : Event → EventId
  /-- The parsing of an event id. -/
  ofHex : String → Option EventId
  /-- The text an event id is serialised to. -/
  toHex : EventId → String

/-- The id of an event is the one its object carries, and is serialised to
    canonical hex. -/
structure EventCodec.Lawful {Event EventId : Type*} (codec : EventCodec Event EventId) :
    Prop where
  id_of_decode : ∀ {e : Json} {ev : Event}, codec.decode e = .ok ev →
    ∃ s, (e.get "id").bind Json.asStr = some s ∧ codec.ofHex s = some (codec.id ev)
  toHex_of_ofHex : ∀ {s : String} {id : EventId}, codec.ofHex s = some id →
    CanonicalHex s → codec.toHex id = s

/-- What `send_event` returns within the timeout, if it does: an error, or the
    relays that accepted the event and those that did not, with their messages. -/
inductive SendResult
  | timeout
  | error (e : String)
  | output (success : List String) (failed : List (String × String))

/-- The upstream has accepted the event within the timeout. -/
def SendResult.accepted : SendResult → Bool
  | .output (_ :: _) _ => true
  | _ => false

/-- The upstream `OK` outcome mirrored back by `publish_event`. -/
structure PublishOutcome (EventId : Type*) where
  ok : Bool
  eventId : EventId
  message : String

namespace EventCodec

variable {Event EventId : Type*} (codec : EventCodec Event EventId)

/-- Forward an event to the upstream, which answers with `r`, and report its status. -/
def publishEvent (event : Event) (r : SendResult) : Except ProxyError (PublishOutcome EventId) :=
  match r with
  | .timeout => .error .publishTimeout
  | .error e => .error (.publish e)
  | .output success failed =>
    let ok := !success.isEmpty
    let message := if ok then "" else
      match failed with
      | (_, e) :: _ => e
      | [] => "error: upstream did not accept the event"
    .ok { ok, eventId := codec.id event, message }

/-- The JSON object an outcome is serialised to. -/
def outcomeJson (out : PublishOutcome EventId) : Json :=
  .obj [("event_id", .str (codec.toHex out.eventId)), ("message", .str out.message),
    ("ok", .bool out.ok)]

/-- The `publish_event` tool: the structured content of its result, or its error. -/
def publishEventTool (args : Json) (r : SendResult) : Except String Json :=
  match args.get "event" with
  | none => .error "missing field `event`"
  | some e =>
    match codec.decode e with
    | .error err => .error err
    | .ok event =>
      match codec.publishEvent event r with
      | .error err => .error err.text
      | .ok out => .ok (codec.outcomeJson out)

/-- What the tool returns instead of an acceptance: the error, or the message of
    the outcome. -/
def refusal (e : Json) (r : SendResult) : Except String String :=
  match codec.decode e, r with
  | .error err, _ => .error err
  | .ok _, .timeout => .error ProxyError.publishTimeout.text
  | .ok _, .error err => .error (ProxyError.publish err).text
  | .ok _, .output _ ((_, err) :: _) => .ok err
  | .ok _, .output _ [] => .ok "error: upstream did not accept the event"

end EventCodec

end Outlay.Proxy

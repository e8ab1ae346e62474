import Outlay.Json

/-!
# Frames of the bridge

The parsing of a client's NIP-01 frame into a dispatch decision, and the
synthesis of the frames the bridge answers with itself. The chunks of a
subscription are complete frames already, and are not translated.

The decoding of a text to a JSON value is a parameter.
-/

namespace Outlay.Shim

/-- A parsed inbound NIP-01 frame from a vanilla client. -/
inductive ClientMsg
  /-- `["REQ", sub, f1, f2, …]` -/
  | req (subId : String) (filters : List Json)
  /-- `["CLOSE", sub]` -/
  | close (subId : String)
  /-- `["EVENT", <event>]` -/
  | publish (event : Json)

/-- The dispatch decision for the items of a frame. -/
def parseItems (arr : List Json) : Option ClientMsg :=
  match arr[0]?.bind Json.asStr with
  | some "REQ" => (arr[1]?.bind Json.asStr).map fun subId => .req subId (arr.drop 2)
  | some "CLOSE" => (arr[1]?.bind Json.asStr).map .close
  | some "EVENT" => arr[1]?.map .publish
  | _ => none

/-- Parse one inbound text frame. `none` if it isn't a recognized NIP-01 client
    message (the caller emits a NOTICE). -/
def parseClientFrame (decode : String → Option Json) (text : String) : Option ClientMsg :=
  match decode text with
  | some (.arr arr) => parseItems arr
  | _ => none

/-- `["OK", event_id, accepted, message]`. -/
def okFrame (eventId : String) (accepted : Bool) (message : String) : String :=
  (Json.arr [.str "OK", .str eventId, .bool accepted, .str message]).render

/-- `["NOTICE", message]`. -/
def noticeFrame (message : String) : String :=
  (Json.arr [.str "NOTICE", .str message]).render

/-- `["CLOSED", sub_id, message]`. -/
def closedFrame (subId message : String) : String :=
  (Json.arr [.str "CLOSED", .str subId, .str message]).render

/-- The arguments of the `subscribe` tool call. -/
def subscribeArgs (subId : String) (filters : List Json) : Json :=
  .obj [("filters", .arr filters), ("subscription_id", .str subId)]

/-- The arguments of the `publish_event` tool call. -/
def publishArgs (event : Json) : Json := .obj [("event", event)]

/-- The id an event carries, or else nothing. -/
def eventId (event : Json) : String := ((event.get "id").bind Json.asStr).getD ""

/-- The `OK` frame for the outcome of a `publish_event` call: its structured
    content, or its error. -/
def publishFrame (event : Json) : Except String (Option Json) → String
  | .ok content =>
    let sc := content.getD .null
    okFrame (((sc.get "event_id").bind Json.asStr).getD (eventId event))
      (((sc.get "ok").bind Json.asBool).getD false) (((sc.get "message").bind Json.asStr).getD "")
  | .error e => okFrame (eventId event) false e

end Outlay.Shim

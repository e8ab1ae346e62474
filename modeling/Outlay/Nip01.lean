import Outlay.Json.Text
import Outlay.Proxy.Notification
import Outlay.Shim.Translate

/-!
# Frames on the wire

The messages of a relay as the texts that its client reads (`RelayFrame`): the client
reads back the frames it is given, those the bridge synthesizes (`read_okFrame`,
`read_noticeFrame`, `read_closedFrame`), and the chunks of the proxy (`read_relabel`).
-/

namespace Outlay

open Json

/-! ## What a relay says -/

/-- A message of a relay to its client. -/
inductive RelayFrame
  | event (subId : String) (event : Json)
  | eose (subId : String)
  | closed (subId message : String)
  | ok (eventId : String) (accepted : Bool) (message : String)
  | notice (message : String)

namespace RelayFrame

/-- The array of a message. -/
def toJson : RelayFrame → Json
  | .event subId e => .arr [.str "EVENT", .str subId, e]
  | .eose subId => .arr [.str "EOSE", .str subId]
  | .closed subId message => .arr [.str "CLOSED", .str subId, .str message]
  | .ok eventId accepted message => .arr [.str "OK", .str eventId, .bool accepted, .str message]
  | .notice message => .arr [.str "NOTICE", .str message]

/-- The message of an array. -/
def ofJson : Json → Option RelayFrame
  | .arr [.str verb, .str a, b] =>
    if verb = "EVENT" then some (.event a b)
    else if verb = "CLOSED" then b.asStr.map (.closed a)
    else none
  | .arr [.str verb, .str a] =>
    if verb = "EOSE" then some (.eose a) else if verb = "NOTICE" then some (.notice a) else none
  | .arr [.str verb, .str a, .bool b, .str c] => if verb = "OK" then some (.ok a b c) else none
  | _ => none

/-- The message that a client reads from a text. -/
def read (fmt : String → Option String) (text : String) : Option RelayFrame :=
  (parse fmt text).bind ofJson

theorem ofJson_toJson (f : RelayFrame) : ofJson f.toJson = some f := by
  cases f <;> simp [toJson, ofJson, asStr]

variable {fmt : String → Option String}

/-- The print of a message is read back. -/
theorem read_render {f : RelayFrame} (h : Valid fmt depthLimit f.toJson) :
    read fmt f.toJson.render = some f := by
  rw [read, parse_render h, Option.bind_some, ofJson_toJson]

end RelayFrame

variable {fmt : String → Option String}

/-- An array of values nested one level less is valid. -/
theorem Json.Valid.arr {d : ℕ} {items : List Json} (h : ∀ v ∈ items, Valid fmt d v) :
    Valid fmt (d + 1) (.arr items) := by
  rw [Valid]
  exact h

/-- A string is valid. -/
theorem Json.Valid.str (d : ℕ) (s : String) : Valid fmt d (.str s) := by
  rw [Valid]
  trivial

/-- The arrays of messages are valid, if the event they carry is. -/
theorem RelayFrame.valid_toJson {f : RelayFrame}
    (h : ∀ s e, f = .event s e → Valid fmt (depthLimit - 1) e) :
    Valid fmt depthLimit f.toJson := by
  have hstr : ∀ s, Valid fmt (depthLimit - 1) (.str s) := Valid.str _
  cases f with
  | event s e =>
    refine Valid.arr fun v hv => ?_
    simp only [List.mem_cons, List.not_mem_nil, or_false] at hv
    rcases hv with rfl | rfl | rfl
    exacts [hstr _, hstr _, h _ _ rfl]
  | eose _ | closed _ _ | notice _ =>
    refine Valid.arr fun v hv => ?_
    simp only [List.mem_cons, List.not_mem_nil, or_false] at hv
    rcases hv with rfl | rfl | rfl <;> exact hstr _
  | ok _ _ _ =>
    refine Valid.arr fun v hv => ?_
    simp only [List.mem_cons, List.not_mem_nil, or_false] at hv
    rcases hv with rfl | rfl | rfl | rfl
    exacts [hstr _, hstr _, by rw [Valid]; trivial, hstr _]

/-! ## What the bridge says itself -/

namespace Shim

theorem read_okFrame (eventId : String) (accepted : Bool) (message : String) :
    RelayFrame.read fmt (okFrame eventId accepted message) =
      some (.ok eventId accepted message) := by
  rw [okFrame]
  exact RelayFrame.read_render (f := .ok eventId accepted message)
    (RelayFrame.valid_toJson fun _ _ h => nomatch h)

theorem read_noticeFrame (message : String) :
    RelayFrame.read fmt (noticeFrame message) = some (.notice message) := by
  rw [noticeFrame]
  exact RelayFrame.read_render (f := .notice message)
    (RelayFrame.valid_toJson fun _ _ h => nomatch h)

theorem read_closedFrame (subId message : String) :
    RelayFrame.read fmt (closedFrame subId message) = some (.closed subId message) := by
  rw [closedFrame]
  exact RelayFrame.read_render (f := .closed subId message)
    (RelayFrame.valid_toJson fun _ _ h => nomatch h)

end Shim

/-! ## What the proxy says -/

namespace Proxy

/-- The message of a body, under the client's subscription id. -/
def Body.frame (clientSub : String) : Body → RelayFrame
  | .event e => .event clientSub e
  | .eose => .eose clientSub
  | .closed message => .closed clientSub message
  | .shutdown => .closed clientSub "error: upstream relay pool shut down"

/-- The events of a body are valid. -/
def Body.Valid (fmt : String → Option String) (b : Body) : Prop :=
  ∀ e, b = .event e → Json.Valid fmt (depthLimit - 1) e

/-- The chunk of a body is read as its message. -/
theorem read_relabel {b : Body} (h : b.Valid fmt) (clientSub : String) :
    RelayFrame.read fmt (b.relabel clientSub) = some (b.frame clientSub) := by
  have hparts : b.parts clientSub = (b.frame clientSub).toJson := by cases b <;> rfl
  rw [Body.relabel, chunk, hparts]
  refine RelayFrame.read_render (RelayFrame.valid_toJson fun s e he => h e ?_)
  cases b <;> cases he
  rfl

end Proxy

end Outlay

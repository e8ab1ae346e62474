import Outlay.Nip01
import Outlay.Proxy.Publish
import Outlay.Shim.Outbound
import Outlay.Shim.Path

/-!
# Publishing, end to end

An EVENT frame crosses two crates and back: the bridge parses it, and calls the
`publish_event` tool with the event; the outlay decodes the arguments and the
event, publishes it, and serialises the outcome; the bridge reads the structured
content of the result, or the error, and answers with an OK frame. The encoders
and the decoders share no types; that they fit is `acknowledged`.

The call and its result are carried without loss. How the error of a call is
displayed on the side of the bridge is a parameter.
-/

namespace Outlay.Shim

open Proxy

/-- The result of a tool call, as it arrives at the bridge. -/
def carried (display : String → String) : Except String Json → Except String (Option Json)
  | .ok content => .ok (some content)
  | .error e => .error (display e)

/-- The id an event carries, if any. -/
def ownId (event : Json) : Option String := (event.get "id").bind Json.asStr

/-- The text an event that was not accepted is refused with. -/
def refusalText (display : String → String) : Except String String → String
  | .ok message => message
  | .error e => display e

section

variable {Event EventId : Type*} {codec : EventCodec Event EventId} {display : String → String}
  {e : Json} {r : SendResult}

/-- The frame for an outcome reads back what was serialised. -/
theorem publishFrame_outcome (out : PublishOutcome EventId) :
    publishFrame e (carried display (.ok (codec.outcomeJson out))) =
      okFrame (codec.toHex out.eventId) out.ok out.message := rfl

/-- The frame for an error. -/
theorem publishFrame_error (err : String) :
    publishFrame e (carried display (.error err)) = okFrame (eventId e) false (display err) := rfl

/-- An event that decodes carries an id. -/
theorem ownId_of_decode (hc : codec.Lawful) {ev : Event} (h : codec.decode e = .ok ev)
    {s : String} (hs : ownId e = some s) (hhex : CanonicalHex s) :
    codec.toHex (codec.id ev) = s := by
  obtain ⟨s', hs', hof⟩ := hc.id_of_decode h
  obtain rfl := Option.some.inj (hs.symm.trans hs')
  exact hc.toHex_of_ofHex hof hhex

variable (codec display e r) in
/-- An OK frame that acknowledges the event `e`, to which the upstream answered `r`. -/
structure Acknowledges (id : String) (accepted : Bool) (msg : String) : Prop where
  /-- The event is accepted if it decodes, and the upstream has accepted it in time. -/
  accepted_iff : accepted = true ↔ (∃ ev, codec.decode e = .ok ev) ∧ r.accepted = true
  /-- The id is the one the event carries, if that is canonical. -/
  id_eq : ∀ s, ownId e = some s → CanonicalHex s → id = s
  msg_of_accepted : accepted = true → msg = ""
  msg_of_refused : accepted = false → msg = refusalText display (codec.refusal e r)

/-- On an error, the frame carries the id of the event itself. -/
theorem acknowledges_error {err : String}
    (hr : ¬((∃ ev, codec.decode e = .ok ev) ∧ r.accepted = true))
    (herr : codec.refusal e r = .error err) :
    Acknowledges codec display e r (eventId e) false (display err) where
  accepted_iff := by simpa using hr
  id_eq s hs _ := by
    have hs' : (e.get "id").bind Json.asStr = some s := hs
    rw [eventId, hs', Option.getD_some]
  msg_of_accepted h := by cases h
  msg_of_refused _ := by rw [herr]; rfl

/-- The text is that of an OK message, and is read back as it. -/
structure IsOk (frame id : String) (accepted : Bool) (msg : String) : Prop where
  text : frame = (Json.arr [.str "OK", .str id, .bool accepted, .str msg]).render
  read : ∀ fmt, RelayFrame.read fmt frame = some (.ok id accepted msg)

theorem isOk_okFrame (id : String) (accepted : Bool) (msg : String) :
    IsOk (okFrame id accepted msg) id accepted msg where
  text := rfl
  read _ := read_okFrame id accepted msg

/-- Whatever the upstream answers, the tool returns an outcome or an error, and
    the frame for it is an OK that acknowledges the event. -/
theorem publishFrame_acknowledges (hc : codec.Lawful) (display : String → String) (e : Json)
    (r : SendResult) :
    ∃ id accepted msg,
      IsOk (publishFrame e (carried display (codec.publishEventTool (publishArgs e) r)))
        id accepted msg ∧ Acknowledges codec display e r id accepted msg := by
  have hget : (publishArgs e).get "event" = some e := rfl
  simp only [EventCodec.publishEventTool, hget]
  cases hd : codec.decode e with
  | error err =>
    exact ⟨_, _, _, publishFrame_error err ▸ isOk_okFrame _ _ _,
      acknowledges_error (by simp [hd]) (by simp [EventCodec.refusal, hd])⟩
  | ok ev =>
    cases r with
    | timeout | error _ =>
      exact ⟨_, _, _, publishFrame_error _ ▸ isOk_okFrame _ _ _,
        acknowledges_error (by simp [SendResult.accepted]) (by simp [EventCodec.refusal, hd])⟩
    | output success failed =>
      refine ⟨_, _, _, publishFrame_outcome _ ▸ isOk_okFrame _ _ _, ?_, ?_, ?_, ?_⟩
      · cases success <;> simp [hd, SendResult.accepted]
      · exact fun s hs hhex => ownId_of_decode hc hd hs hhex
      · cases success <;> simp
      · cases success with
        | cons _ _ => simp
        | nil => cases failed <;> simp [EventCodec.refusal, hd, refusalText]

/-- Every EVENT frame of a client is acknowledged, by one OK frame. -/
theorem acknowledged (hc : codec.Lawful) (display : String → String)
    {decode : String → Option Json} {text : String}
    (ht : decode text = some (.arr [.str "EVENT", e])) (r : SendResult) :
    parseClientFrame decode text = some (.publish e) ∧
      ∃ p, (Publish.spawn e).complete
          (carried display (codec.publishEventTool (Publish.spawn e).args r)) = some p ∧
        ∃ frame id accepted msg, p.output = [frame] ∧ IsOk frame id accepted msg ∧
          Acknowledges codec display e r id accepted msg := by
  obtain ⟨id, accepted, msg, hf, hack⟩ := publishFrame_acknowledges hc display e r
  exact ⟨by simp [parseClientFrame, ht, parseItems, Json.asStr],
    _, rfl, _, id, accepted, msg, rfl, hf, hack⟩

/-- In every run of a connection, all the client is given for an EVENT frame, whose
    call returns what the tool returns, is the OK frame that acknowledges it. -/
theorem given_acknowledged (hc : codec.Lawful) {decode : String → Option Json} {s : Conn}
    (hs : (Conn.system decode).Reachable s) {n : ℕ} {text : String}
    (hn : s.inbound[n]? = some (.text text)) (ht : decode text = some (.arr [.str "EVENT", e]))
    (ho : (s.publishes n).outcome =
      some (carried display (codec.publishEventTool (s.publishes n).args r))) :
    ∃ frame id accepted msg, framesOf n s.given <+: [frame] ∧ IsOk frame id accepted msg ∧
      Acknowledges codec display e r id accepted msg := by
  obtain ⟨id, accepted, msg, hf, hack⟩ := publishFrame_acknowledges hc display e r
  refine ⟨_, id, accepted, msg, ?_, hf, hack⟩
  have hreq : s.request decode n = some (some (.publish e)) := by
    simp [Conn.request, hn, Conn.asked, parseClientFrame, ht, parseItems, Json.asStr]
  have hA := Conn.assigned hs n
  rw [Conn.Assigned, hreq] at hA
  have hgiven := Conn.given_isPrefix hs n
  rw [hA.2.2.2] at ho
  simpa [Conn.answer, hreq, ho] using hgiven

end

/-! ## A rejected event -/

/-- A signed event, but for its id. -/
structure SignedEvent where
  pubkey : String
  createdAt : ℕ
  kind : ℕ
  tags : List (List String)
  content : String
  sig : String

namespace SignedEvent

/-- The member `name` of an object, read by `read`. -/
def member {α : Type} (e : Json) (name : String) (read : Json → Option α) : Except String α :=
  match e.get name with
  | none => .error ("missing field `" ++ name ++ "`")
  | some v =>
    match read v with
    | some a => .ok a
    | none => .error ("invalid " ++ name)

/-- The lowercase of `2 * n` hexadecimal digits, of either case. -/
def parseHex (n : ℕ) (s : String) : Option String :=
  if s.length = 2 * n ∧ s.toList.all Str.isAsciiHexdigit then some (Str.toAsciiLowercase s)
  else none

def readHex (n : ℕ) (v : Json) : Option String := v.asStr.bind (parseHex n)

/-- An unsigned integer of `w` bits. -/
def readUnsigned (w : ℕ) : Json → Option ℕ
  | .num lit => Str.parseUnsigned w lit
  | _ => none

/-- A tag has a kind at least. -/
def readTag : Json → Option (List String)
  | .arr (kind :: items) => (kind :: items).mapM Json.asStr
  | _ => none

def readTags : Json → Option (List (List String))
  | .arr tags => tags.mapM readTag
  | _ => none

/-- The members of an event but its id. -/
def decode (e : Json) : Except String SignedEvent := do
  let pubkey ← member e "pubkey" (readHex 32)
  let createdAt ← member e "created_at" (readUnsigned 64)
  let kind ← member e "kind" (readUnsigned 16)
  let tags ← member e "tags" readTags
  let content ← member e "content" Json.asStr
  let sig ← member e "sig" (readHex 64)
  return { pubkey, createdAt, kind, tags, content, sig }

/-- A codec for events with all their members, each with its id in lowercase. -/
def codec : EventCodec (String × SignedEvent) String where
  decode e := do
    let id ← member e "id" (readHex 32)
    let rest ← decode e
    return (id, rest)
  id := Prod.fst
  ofHex := parseHex 32
  toHex id := id

theorem member_eq_ok {α : Type} {e : Json} {name : String} {read : Json → Option α} {a : α}
    (h : member e name read = .ok a) : ∃ v, e.get name = some v ∧ read v = some a := by
  rw [member] at h
  split at h
  next => cases h
  next v hv =>
    split at h <;> cases h
    next hread => exact ⟨v, hv, hread⟩

theorem codec_lawful : codec.Lawful where
  id_of_decode {e ev} h := by
    simp only [codec] at h
    cases hid : member e "id" (readHex 32) with
    | error _ => rw [hid] at h; cases h
    | ok id =>
      cases hrest : decode e with
      | error _ => rw [hid, hrest] at h; cases h
      | ok rest =>
        rw [hid, hrest] at h
        obtain rfl := Except.ok.inj h
        obtain ⟨v, hv, hread⟩ := member_eq_ok hid
        obtain ⟨s, hs, hof⟩ := Option.bind_eq_some_iff.1 hread
        exact ⟨s, by rw [hv]; exact hs, hof⟩
  toHex_of_ofHex {s id} h hhex := by
    simp only [codec, parseHex] at h
    split_ifs at h
    rw [← Option.some.inj h, NostrCodec.toAsciiLowercase_of_canonicalHex hhex]
    rfl

/-- The id of `note`. -/
def noteId : String := "5c7e6f9e5bee1d16d40ce456e24319f4370faa522c60217cb7b4c0214b6921ac"

/-- A signed note. -/
def note : Json := .obj
  [("content", .str "hello"), ("created_at", .num "1700000000"), ("id", .str noteId),
    ("kind", .num "1"),
    ("pubkey", .str "f9308a019258c31049344f85f89d5229b531c845836f99b08601f113bce036f9"),
    ("sig", .str ("04b138fb9089af57cd343dc69bc13b1680b845535e85a34579e9b111e53f75c6" ++
      "15564e712559224dc246c8bc768588d7729d4c36a81e0fffdc1ece94573584ed")),
    ("tags", .arr [.arr [.str "t", .str "nostr"]])]

end SignedEvent

open SignedEvent (note noteId)

/-- A client publishes the note, as the text it is read from. -/
def publishNote : String := (Json.arr [.str "EVENT", note]).render

theorem valid_publishNote : Json.Valid some Json.depthLimit (.arr [.str "EVENT", note]) := by
  simp [note, Json.depthLimit, Json.Valid, Json.isNumber, Json.isUnsigned, Json.isFraction,
    Json.isExponent]
  rw [OrderedMap.Ordered]
  decide

/-- The upstream rejects the note, and the client is told so. -/
theorem acknowledged_rejected :
    parseClientFrame (Json.parse some) publishNote = some (.publish note) ∧
      ∃ p, (Publish.spawn note).complete (carried id (SignedEvent.codec.publishEventTool
          (Publish.spawn note).args (.output [] [("wss://up.example", "blocked")]))) = some p ∧
        p.output = ["[\"OK\",\"5c7e6f9e5bee1d16d40ce456e24319f4370faa522c60217cb7b4c0214b6921ac" ++
          "\",false,\"blocked\"]"] := by
  have ht := Json.parse_render valid_publishNote
  obtain ⟨hparse, p, hp, frame, i, accepted, msg, hout, hok, hack⟩ :=
    acknowledged SignedEvent.codec_lawful id ht (.output [] [("wss://up.example", "blocked")])
  refine ⟨hparse, p, hp, ?_⟩
  obtain rfl := hack.id_eq noteId rfl (NostrCodec.canonicalHex_of_all (by decide) (by decide))
  obtain rfl : accepted = false := by
    by_contra h
    exact absurd (hack.accepted_iff.1 (Bool.eq_true_of_not_eq_false h)).2 (by decide)
  have hmsg : msg = "blocked" := (hack.msg_of_refused rfl).trans (by decide +kernel)
  rw [hout, hok.text, hmsg]
  decide +kernel

end Outlay.Shim

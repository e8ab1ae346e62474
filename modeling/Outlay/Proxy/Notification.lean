import Outlay.Json

/-!
# Upstream notifications

What the pool of upstream relays notifies its receivers of, and the mapping of
a notification to a NIP-01 chunk of one subscription (`mapNotification`).

Read abstractly, a notification belongs to a subscription or not, and if it does
it has a *body*: an event, the end of the stored events, or the end of the
subscription (`ownBody`). The mapping is the relabelling of the body with the
client's subscription id, ending the stream after a final body
(`mapNotification_eq`).
-/

namespace Outlay.Proxy

/-- A NIP-01 subscription id. -/
abbrev SubscriptionId := String

/-- A message of the upstream relay. An event is carried as the JSON object it
    serialises to. -/
inductive RelayMessage
  | event (subscriptionId : SubscriptionId) (event : Json)
  | ok (eventId : String) (status : Bool) (message : String)
  | endOfStoredEvents (subscriptionId : SubscriptionId)
  | notice (message : String)
  | closed (subscriptionId : SubscriptionId) (message : String)
  | auth (challenge : String)
  | count (subscriptionId : SubscriptionId) (count : ℕ)
  | negMsg (subscriptionId : SubscriptionId) (message : String)
  | negErr (subscriptionId : SubscriptionId) (message : String)

/-- A notification of the pool: an event (deduplicated), a relay message, or
    the shutdown of the pool. -/
inductive RelayPoolNotification
  | event (relayUrl : String) (subscriptionId : SubscriptionId) (event : Json)
  | message (relayUrl : String) (message : RelayMessage)
  | shutdown

/-- The subscription id a relay message is tagged with. -/
def RelayMessage.tag : RelayMessage → Option SubscriptionId
  | .event sid _ | .endOfStoredEvents sid | .closed sid _ | .count sid _ | .negMsg sid _
  | .negErr sid _ => some sid
  | .ok .. | .notice _ | .auth _ => none

/-- The subscription id a notification is tagged with. -/
def RelayPoolNotification.tag : RelayPoolNotification → Option SubscriptionId
  | .event _ sid _ => some sid
  | .message _ m => m.tag
  | .shutdown => none

/-- Outcome of mapping one upstream notification for a subscription stream. -/
inductive Forward
  /-- Forward this chunk and keep streaming (`Continue`). -/
  | cont (c : String)
  /-- Forward this chunk and then end the stream (upstream closed the sub). -/
  | stop (c : String)

/-- The chunk to forward. -/
def Forward.chunk : Forward → String
  | .cont c | .stop c => c

/-- The text of a chunk. -/
def chunk (parts : Json) : String := parts.render

/-- The chunk of a notification for the given upstream subscription, relabelled
    with the client's bare subscription id; `none` for notifications that do not
    belong to this subscription. -/
def mapNotification (n : RelayPoolNotification) (upstreamId : SubscriptionId)
    (clientSub : String) : Option Forward :=
  match n with
  | .shutdown => some (.stop (chunk (.arr
      [.str "CLOSED", .str clientSub, .str "error: upstream relay pool shut down"])))
  | .message _ (.event sid event) =>
    if sid = upstreamId then
      some (.cont (chunk (.arr [.str "EVENT", .str clientSub, event])))
    else none
  | .message _ (.endOfStoredEvents sid) =>
    if sid = upstreamId then some (.cont (chunk (.arr [.str "EOSE", .str clientSub]))) else none
  | .message _ (.closed sid message) =>
    if sid = upstreamId then
      some (.stop (chunk (.arr [.str "CLOSED", .str clientSub, .str message])))
    else none
  | _ => none

/-! ## Bodies -/

/-- What a notification means for the subscription it belongs to. -/
inductive Body
  | event (event : Json)
  | eose
  | closed (message : String)
  | shutdown

/-- A final body ends the stream. -/
def Body.final : Body → Bool
  | .event _ | .eose => false
  | .closed _ | .shutdown => true

/-- The NIP-01 message of a body, under the client's subscription id. -/
def Body.parts (clientSub : String) : Body → Json
  | .event e => .arr [.str "EVENT", .str clientSub, e]
  | .eose => .arr [.str "EOSE", .str clientSub]
  | .closed message => .arr [.str "CLOSED", .str clientSub, .str message]
  | .shutdown => .arr [.str "CLOSED", .str clientSub, .str "error: upstream relay pool shut down"]

/-- The chunk of a body, under the client's subscription id. -/
def Body.relabel (clientSub : String) (b : Body) : String := chunk (b.parts clientSub)

/-- The body of an EVENT, EOSE or CLOSED message tagged with the id. -/
def taggedBody (upstreamId : SubscriptionId) : RelayPoolNotification → Option Body
  | .message _ (.event sid event) => if sid = upstreamId then some (.event event) else none
  | .message _ (.endOfStoredEvents sid) => if sid = upstreamId then some .eose else none
  | .message _ (.closed sid message) => if sid = upstreamId then some (.closed message) else none
  | _ => none

/-- The body of a notification that belongs to the subscription: a message
    tagged with its id, or the shutdown of the pool. -/
def ownBody (upstreamId : SubscriptionId) : RelayPoolNotification → Option Body
  | .shutdown => some .shutdown
  | n => taggedBody upstreamId n

/-- How a body is forwarded. -/
def Body.forward (clientSub : String) (b : Body) : Forward :=
  if b.final then .stop (b.relabel clientSub) else .cont (b.relabel clientSub)

@[simp] theorem Body.chunk_forward (clientSub : String) (b : Body) :
    (b.forward clientSub).chunk = b.relabel clientSub := by
  cases b <;> rfl

/-- The mapping forwards the body of a notification, and only of one that
    belongs to the subscription. -/
theorem mapNotification_eq (n : RelayPoolNotification) (upstreamId : SubscriptionId)
    (clientSub : String) :
    mapNotification n upstreamId clientSub =
      (ownBody upstreamId n).map (Body.forward clientSub) := by
  cases n with
  | event _ _ _ => rfl
  | shutdown => rfl
  | message _ m =>
    cases m with
    | event sid _ | endOfStoredEvents sid | closed sid _ =>
      by_cases h : sid = upstreamId
      · simp only [mapNotification, ownBody, taggedBody, if_pos h]; rfl
      · simp only [mapNotification, ownBody, taggedBody, if_neg h]; rfl
    | ok _ _ _ | notice _ | auth _ | count _ _ | negMsg _ _ | negErr _ _ => rfl

/-- A body tagged with the id comes from a notification tagged with it. -/
theorem tag_of_taggedBody {upstreamId : SubscriptionId} {n : RelayPoolNotification} {b : Body}
    (h : taggedBody upstreamId n = some b) : n.tag = some upstreamId := by
  cases n with
  | event _ _ _ => cases h
  | shutdown => cases h
  | message _ m =>
    cases m with
    | event sid _ | endOfStoredEvents sid | closed sid _ =>
      simp only [taggedBody] at h
      split_ifs at h with hs
      exact congrArg some hs
    | ok _ _ _ | notice _ | auth _ | count _ _ | negMsg _ _ | negErr _ _ => cases h

/-- A notification tagged with one id does not belong to another subscription. -/
theorem ownBody_eq_none {upstreamId sid : SubscriptionId} {n : RelayPoolNotification}
    (hn : n.tag = some sid) (hs : sid ≠ upstreamId) : ownBody upstreamId n = none := by
  rw [Option.eq_none_iff_forall_ne_some]
  intro b hb
  cases n with
  | shutdown => cases hn
  | event _ _ _ => cases hb
  | message _ m => exact hs (Option.some.inj (hn.symm.trans (tag_of_taggedBody hb)))

/-- A body tagged with the id belongs to the subscription. -/
theorem ownBody_of_taggedBody {upstreamId : SubscriptionId} {n : RelayPoolNotification} {b : Body}
    (h : taggedBody upstreamId n = some b) : ownBody upstreamId n = some b := by
  cases n with
  | shutdown => cases h
  | event _ _ _ | message _ _ => exact h

/-- A body that is not final is that of a message tagged with the id. -/
theorem taggedBody_of_ownBody {upstreamId : SubscriptionId} {n : RelayPoolNotification} {b : Body}
    (h : ownBody upstreamId n = some b) (hf : b.final = false) :
    taggedBody upstreamId n = some b := by
  cases n with
  | shutdown => obtain rfl := Option.some.inj h; cases hf
  | event _ _ _ | message _ _ => exact h

end Outlay.Proxy

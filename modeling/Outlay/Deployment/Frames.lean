import Outlay.Deployment.Delivery
import Outlay.Nip01

/-!
# What the visitors read

The texts a visitor is given can all be read as messages of a relay, and answer what it
has sent (`legible`): for a REQ, they are the messages of its subscription, under its
sub_id, in the order of the upstream, and a CLOSED message if the call has failed; for
an EVENT an OK, for a frame that is not recognized a notice, and for a CLOSE nothing.

This depends on the events alone, which come from the upstream: no sub_id, and no text
of an error, can spoil a frame.
-/

namespace Outlay

open Json

variable {fmt : String → Option String}

/-- The reason that the call of a task ends with an error, if it does. -/
def Shim.CallStatus.reason : CallStatus → Option String
  | .refused e | .failed e => some e
  | _ => none

/-- The frame that closes a failed call is read with its reason. -/
theorem Shim.read_closing (subId : String) (c : CallStatus) :
    (c.closing subId).map (RelayFrame.read fmt) =
      (c.reason.toList.map (RelayFrame.closed subId)).map some := by
  cases c <;> simp [CallStatus.closing, CallStatus.reason, read_closedFrame]

variable (fmt) in
/-- The frame for the outcome of a publish call is read as an OK. -/
theorem Shim.read_publishFrame (event : Json) (r : Except String (Option Json)) :
    ∃ eventId accepted message, RelayFrame.read fmt (publishFrame event r) =
      some (.ok eventId accepted message) := by
  cases r <;> exact ⟨_, _, _, read_okFrame _ _ _⟩

/-- The event that a notification carries to the subscribe calls. -/
def Proxy.RelayPoolNotification.payload : RelayPoolNotification → Option Json
  | .message _ (.event _ e) => some e
  | _ => none

/-- An event is only read off a notification that carries it. -/
theorem Proxy.payload_of_ownBody {m : RelayPoolNotification} {upstreamId : SubscriptionId}
    {e : Json} (hb : ownBody upstreamId m = some (.event e)) : m.payload = some e := by
  have ht := taggedBody_of_ownBody hb rfl
  cases m with
  | event _ _ _ | shutdown => cases ht
  | message _ r =>
    cases r with
    | event sid _ | endOfStoredEvents sid | closed sid _ =>
      simp only [taggedBody] at ht
      split_ifs at ht
      cases ht <;> rfl
    | ok _ _ _ | notice _ | auth _ | count _ _ | negMsg _ _ | negErr _ _ => cases ht

namespace Deployment

open Async

variable {Filter : Type*} {d : Deployment Filter} {s s' : State Filter} {k n : ℕ}

/-- The event that the upstream sends. -/
def Action.payload : Action → Option Json
  | .proxy (.notify m) => m.payload
  | _ => none

/-- The upstream sends events that can be read back. -/
def ValidEvents (fmt : String → Option String) (_ : State Filter) (a : Action) : Prop :=
  ∀ e, a.payload = some e → Valid fmt (depthLimit - 1) e

/-- All events sent can be read back. -/
theorem valid_payload (hs : d.system.ReachableBy (ValidEvents fmt) s) :
    ∀ m ∈ s.proxy.bus.log, ∀ e, m.payload = some e → Valid fmt (depthLimit - 1) e := by
  refine hs.invariant
    (P := fun s => ∀ m ∈ s.proxy.bus.log, ∀ e, m.payload = some e → Valid fmt (depthLimit - 1) e)
    (fun m hm => absurd hm List.not_mem_nil) fun s a s' _ h ha hst => ?_
  obtain ⟨-, ⟨b, p, rfl, hp, rfl⟩ | ⟨l, b, c, rfl, -, rfl⟩⟩ := step_cases hst
  · obtain ⟨m, rfl, -, rfl⟩ | ⟨rfl, rfl⟩ | ⟨i, b, c, rfl, -, rfl⟩ := Proxy.Setup.step_cases hp
    · intro m' hm'
      rcases List.mem_append.1 hm' with hm' | hm'
      · exact h m' hm'
      · obtain rfl := List.mem_singleton.1 hm'
        exact ha
    · exact h
    · exact h
  · exact h

/-- The bodies that the proxy has seen for a call can be read back. -/
theorem valid_bodies (hs : d.system.ReachableBy (ValidEvents fmt) s) (i : ℕ) {b : Proxy.Body}
    (hb : b ∈ d.env.bodies i (s.proxy.calls i).yielded) : b.Valid fmt := by
  rintro e rfl
  obtain ⟨m, hm, hmb⟩ := List.mem_filterMap.1 hb
  have hsub := (Proxy.Setup.received (proxy_reachable hs.reachable) i).yielded
  exact valid_payload hs m (List.mem_of_mem_take (List.mem_of_mem_drop (hsub.subset hm))) e
    (Proxy.payload_of_ownBody hmb)

/-- What the messages `l` that a visitor has read for its item `n` are, depending on what the
    item asks for. -/
def Replies (d : Deployment Filter) (s : State Filter) (k n : ℕ) (l : List RelayFrame) : Prop :=
  match (s.conns k).request d.decode n with
  | some (some (.req subId _)) => ∃ bs, bs <+: through Proxy.Body.final
      (d.env.bodies (d.callOf k n) (d.call s k n).yielded) ∧
    l <+: bs.map (Proxy.Body.frame subId) ++
      (s.task k n).call.reason.toList.map (RelayFrame.closed subId)
  | some (some (.publish _)) => ∃ eventId accepted message, l <+: [.ok eventId accepted message]
  | some none => l <+: [.notice "unrecognized frame"]
  | _ => l = []

variable (fmt) in
/-- A prefix of texts that are all read is read as a prefix. -/
theorem read_of_prefix {l texts : List String} (hl : l <+: texts) (ms : List RelayFrame)
    (h : texts.map (RelayFrame.read fmt) = ms.map some) :
    ∃ ms', ms' <+: ms ∧ l.map (RelayFrame.read fmt) = ms'.map some := by
  rw [List.prefix_iff_eq_take] at hl
  refine ⟨ms.take l.length, List.take_prefix _ _, ?_⟩
  rw [List.map_take, ← h, ← List.map_take, ← hl]

/-- In every run in which the upstream sends events that can be read back, every visitor can
    read whatever it is given, as messages that answer what it has sent. -/
theorem legible (hs : d.system.ReachableBy (ValidEvents fmt) s) (k n : ℕ) :
    ∃ l : List RelayFrame,
      (Shim.framesOf n (s.conns k).given).map (RelayFrame.read fmt) = l.map some ∧
        Replies d s k n l := by
  have hgiven := Shim.Conn.given_isPrefix (conn_reachable hs.reachable k) n
  simp only [Shim.Conn.answer] at hgiven
  rcases hreq : (s.conns k).request d.decode n with _ | _ | ⟨subId, filters⟩ | subId | event
  all_goals simp only [hreq] at hgiven; simp only [Replies, hreq]
  case some.some.req =>
    obtain ⟨bs, hbs, hread⟩ := exists_read_eq hs.reachable hreq
    rw [show (s.conns k).tasks n = s.task k n from rfl, hread] at hgiven
    have hbodies : (bs.map (Proxy.Body.relabel subId)).map (RelayFrame.read fmt) =
        (bs.map (Proxy.Body.frame subId)).map some := by
      simp only [List.map_map]
      refine List.map_congr_left fun b hb =>
        Proxy.read_relabel (valid_bodies hs (d.callOf k n) ?_) subId
      exact (through_isPrefix _).subset (hbs.subset hb)
    obtain ⟨l, hl, hmap⟩ := read_of_prefix fmt hgiven (bs.map (Proxy.Body.frame subId) ++
        (s.task k n).call.reason.toList.map (RelayFrame.closed subId))
      (by rw [List.map_append, List.map_append, hbodies, Shim.read_closing])
    exact ⟨l, hmap, bs, hbs, hl⟩
  case some.some.publish =>
    cases ho : ((s.conns k).publishes n).outcome with
    | none =>
      rw [ho] at hgiven
      exact ⟨[], by rw [List.prefix_nil.1 hgiven]; rfl, "", false, "", List.nil_prefix⟩
    | some r =>
      obtain ⟨eventId, accepted, message, hr⟩ := Shim.read_publishFrame fmt event r
      rw [ho] at hgiven
      obtain ⟨l, hl, hmap⟩ := read_of_prefix fmt hgiven [.ok eventId accepted message]
        (by simp [hr])
      exact ⟨l, hmap, _, _, _, hl⟩
  case some.none =>
    obtain ⟨l, hl, hmap⟩ := read_of_prefix fmt hgiven [.notice "unrecognized frame"]
      (by simp [Shim.read_noticeFrame])
    exact ⟨l, hmap, hl⟩
  all_goals exact ⟨[], by rw [List.prefix_nil.1 hgiven]; rfl, rfl⟩

/-- The second visitor reads its event. -/
theorem legible_bothSubscribe : ∃ s : State Json, (s.conns 1).given =
    [(0, "[\"EVENT\",\"sub1\",\x7b\x7d]")] ∧ ∃ l : List RelayFrame,
      (Shim.framesOf 0 (s.conns 1).given).map (RelayFrame.read some) = l.map some ∧
        Replies sameSub s 1 0 l := by
  obtain ⟨s, hs, hp⟩ := System.exists_reachableBy (M := sameSub.system)
    (C := fun _ a => a.payload = none ∨ a.payload = some (.obj [])) bothSubscribe
    (fun s => decide ((s.conns 1).given = [(0, "[\"EVENT\",\"sub1\",\x7b\x7d]")]))
    (by decide +kernel)
  refine ⟨s, of_decide_eq_true hp, legible (hs.mono fun _ _ h e he => ?_) 1 0⟩
  obtain rfl : e = .obj [] := by
    rcases h with h | h
    · exact nomatch h.symm.trans he
    · exact (Option.some.inj (h.symm.trans he)).symm
  simp [Valid, depthLimit, OrderedMap.Ordered]

end Deployment

end Outlay

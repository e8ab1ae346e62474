import Outlay.Proxy.Demux

/-!
# Falling behind

The notification channel is bounded, and shared with the traffic of all other
subscriptions. A call whose sink is slow falls behind it; its receiver is then
moved over the notifications dropped, and the loop goes on (`Lagged`), whatever
they were. So a message of the subscription may be lost without a trace
(`not_noSilentLoss`): its EOSE, say, and the client waits for it forever.

Nothing is lost as long as the call *keeps up* (`KeepsUp`): what is dropped when
it falls behind belongs to others, and no write fails on a sink that is still
active. Then the chunks of all its messages read so far have been written
(`noSilentLoss`).
-/

namespace Outlay.Proxy

open Async

/-- The read position of the loop: what precedes it has been dealt with, the
    chunk being written excepted. -/
def Call.readPos {Filter : Type*} (c : Call Filter) : ℕ :=
  match c.stage with
  | .writing _ => c.pos - 1
  | _ => c.pos

namespace Setup

variable {Filter : Type*} (env : Setup Filter)

/-- The chunks of the EVENT, EOSE and CLOSED messages of the call `i` among the
    notifications `l`. -/
def ownChunks (i : ℕ) (l : List RelayPoolNotification) : List String :=
  (l.filterMap (taggedBody (env.upstreamId i))).map (Body.relabel (env.clientSub i))

/-- The client has been told that the subscription has ended: a CLOSED chunk was
    written, and the loop has been left. -/
def Told (i : ℕ) (c : Call Filter) : Prop :=
  c.stage.ended = true ∧ ∃ m, (Body.closed m).relabel (env.clientSub i) ∈ c.written

/-- As long as its sink is active, the call `i` has written every message of its
    own that precedes its read position, or has told its client of the gap. -/
def NoSilentLoss (s : State Filter) (i : ℕ) : Prop :=
  (s.calls i).active = true →
    (env.ownChunks i (s.bus.seen (s.calls i).readPos)).Sublist (s.calls i).written ∨
      env.Told i (s.calls i)

/-- The call `i` keeps up: when it receives, no message of its own is among the
    notifications dropped unread, and no write fails on its active sink. -/
def KeepsUp (i : ℕ) (s : State Filter) : Action → Prop
  | .call j .recv => j = i →
      ∀ n ∈ (s.bus.seen (s.bus.oldest env.cap)).drop (s.calls i).pos,
        taggedBody (env.upstreamId i) n = none
  | .call j (.write ok) => j = i → ok = true ∨ (s.calls i).active = false
  | _ => True

variable {env} {i : ℕ}

theorem ownChunks_append (l m : List RelayPoolNotification) :
    env.ownChunks i (l ++ m) = env.ownChunks i l ++ env.ownChunks i m := by
  rw [ownChunks, List.filterMap_append, List.map_append]
  rfl

theorem ownChunks_eq_nil {l : List RelayPoolNotification}
    (h : ∀ n ∈ l, taggedBody (env.upstreamId i) n = none) : env.ownChunks i l = [] := by
  rw [ownChunks, List.filterMap_eq_nil_iff.2 h, List.map_nil]

/-- A notification that is not tagged with the id of the call has no chunk. -/
theorem ownChunks_of_tag {l : List RelayPoolNotification}
    (h : ∀ n ∈ l, n.tag ≠ some (env.upstreamId i)) : env.ownChunks i l = [] :=
  ownChunks_eq_nil fun n hn => Option.eq_none_iff_forall_ne_some.2 fun _ hb =>
    h n hn (tag_of_taggedBody hb)

/-- A notification that does not belong to the call has no chunk. -/
theorem ownChunks_skip {n : RelayPoolNotification} (hn : ownBody (env.upstreamId i) n = none) :
    env.ownChunks i [n] = [] :=
  ownChunks_eq_nil fun m hm => Option.eq_none_iff_forall_ne_some.2 fun b hb => by
    rw [List.mem_singleton.1 hm] at hb
    exact Option.some_ne_none b ((ownBody_of_taggedBody hb).symm.trans hn)

/-- The chunk of a single notification, if it belongs to the call, is what it is
    forwarded as, or nothing. -/
theorem ownChunks_singleton {n : RelayPoolNotification} {b : Body}
    (hb : ownBody (env.upstreamId i) n = some b) :
    (env.ownChunks i [n]).Sublist [b.relabel (env.clientSub i)] := by
  cases ht : taggedBody (env.upstreamId i) n with
  | none => simp [ownChunks, ht]
  | some b' =>
    obtain rfl := Option.some.inj ((ownBody_of_taggedBody ht).symm.trans hb)
    simp [ownChunks, ht]

/-- What the call `i` has written, as long as it keeps up: in the loop, exactly
    the chunks of its own messages read so far. -/
def Kept (env : Setup Filter) (i : ℕ) (bus : Broadcast RelayPoolNotification)
    (c : Call Filter) : Prop :=
  match c.stage with
  | .selecting => c.written = env.ownChunks i (bus.seen c.pos)
  | .writing f => ∃ q n b, c.pos = q + 1 ∧ bus.log[q]? = some n ∧
      ownBody (env.upstreamId i) n = some b ∧ f = b.forward (env.clientSub i) ∧
        c.written = env.ownChunks i (bus.seen q)
  | .unwinding | .closing | .returned _ => (env.ownChunks i (bus.seen c.pos)).Sublist c.written
  | _ => env.ownChunks i (bus.seen c.pos) = [] ∧ c.written = []

/-- A notification does not change what has been written of those before. -/
theorem Kept.send {bus : Broadcast RelayPoolNotification} {c : Call Filter}
    (hp : c.pos ≤ bus.log.length) (n : RelayPoolNotification) (h : Kept env i bus c) :
    Kept env i (bus.send n) c := by
  rw [Kept] at h ⊢
  split at h <;> try rwa [Broadcast.seen_send hp]
  obtain ⟨q, n', b, hq, hn, hb, hf, hw⟩ := h
  have hlt : q < bus.log.length := by omega
  refine ⟨q, n', b, hq, ?_, hb, hf, by rwa [Broadcast.seen_send hlt.le]⟩
  rwa [Broadcast.log_send, List.getElem?_append_left hlt]

/-- Wherever the call is, it has written all of its own messages before its read position. -/
theorem Kept.sublist {bus : Broadcast RelayPoolNotification} {c : Call Filter}
    (h : Kept env i bus c) : (env.ownChunks i (bus.seen c.readPos)).Sublist c.written := by
  rw [Kept] at h
  rw [Call.readPos]
  split at h
  next hs => simp only [hs]; rw [h]
  next f hs =>
    obtain ⟨q, n, b, hq, -, -, -, hw⟩ := h
    simp only [hs]
    rw [hw, hq, Nat.add_sub_cancel]
  next hs => simp only [hs]; exact h
  next hs => simp only [hs]; exact h
  next r hs => simp only [hs]; exact h
  next h₁ h₂ h₃ h₄ h₅ =>
    have hpos : (match c.stage with | .writing _ => c.pos - 1 | _ => c.pos) = c.pos := by
      split
      next f hs => exact absurd hs (h₂ f)
      next => rfl
    rw [hpos, h.1]
    exact List.nil_sublist _

/-- Writing the chunk on an active sink, without failing. -/
theorem Kept.write {bus : Broadcast RelayPoolNotification} {c : Call Filter} {f : Forward}
    (hs : c.stage = .writing f) (h : Kept env i bus c) :
    Kept env i bus { c with written := c.written ++ [f.chunk], stage := f.next true } := by
  simp only [Kept, hs] at h
  obtain ⟨q, n, b, hq, hn, hb, rfl, hw⟩ := h
  have hseen : env.ownChunks i (bus.seen c.pos) =
      c.written ++ env.ownChunks i [n] := by
    rw [hq, Broadcast.seen_succ hn, ownChunks_append, hw]
  cases hf : b.final with
  | true =>
    have hu : (b.forward (env.clientSub i)).next true = .unwinding := by
      simp [Body.forward, hf, Forward.next]
    simp only [Kept, hu]
    rw [hseen, Body.chunk_forward]
    exact (List.Sublist.refl _).append (ownChunks_singleton hb)
  | false =>
    have hu : (b.forward (env.clientSub i)).next true = .selecting := by
      simp [Body.forward, hf, Forward.next]
    simp only [Kept, hu]
    rw [hseen, Body.chunk_forward]
    simp [ownChunks, taggedBody_of_ownBody hb hf]

/-- Falling behind, over messages of others. -/
theorem ownChunks_of_lag {bus : Broadcast RelayPoolNotification} {pos pos' : ℕ} (hp : pos ≤ pos')
    (h : ∀ n ∈ (bus.seen pos').drop pos, taggedBody (env.upstreamId i) n = none) :
    env.ownChunks i (bus.seen pos') = env.ownChunks i (bus.seen pos) := by
  rw [Broadcast.seen_of_le hp, ownChunks_append, ownChunks_eq_nil h, List.append_nil]

/-- Every step of a call that keeps up keeps what it has written as it should be. -/
theorem Kept.step {s : State Filter} {c' : Call Filter} {a : CallAction}
    (hs : env.system.Reachable s) (hk : env.KeepsUp i s (.call i a))
    (h : (s.calls i).active = true → Kept env i s.bus (s.calls i))
    (hc : CallStep env s.bus i (s.calls i) a c') (ha : c'.active = true) :
    Kept env i s.bus c' := by
  cases hc with
  | deactivate => cases ha
  | register hi _ =>
    have hnil := streamed hs i
    simp only [Streamed, hi] at hnil
    exact ⟨ownChunks_of_tag fun n hn =>
      (registered hs).not_tagged hi n (List.mem_of_mem_take hn), hnil.2⟩
  | reject hi _ =>
    have h := h ha
    simp only [Kept, hi] at h
    simp [Kept, h.1]
  | refused hi =>
    have h := h ha
    simp only [Kept, hi] at h
    simp [Kept, h.1]
  | issue hi | accepted hi => simpa only [Kept, hi] using h ha
  | start hi =>
    have h := h ha
    simp only [Kept, hi] at h
    simp [Kept, h.1, h.2]
  | take hi hn hb =>
    have h := h ha
    simp only [Kept, hi] at h
    exact ⟨_, _, _, rfl, hn, hb, rfl, h⟩
  | skip hi hn hb =>
    -- What does not belong to the call has no chunk to write.
    have h := h ha
    simp only [Kept, hi] at h ⊢
    rw [Broadcast.seen_succ hn, ownChunks_append, ownChunks_skip hb, List.append_nil, h]
  | lag hi hl =>
    -- The call keeps up: what is moved over belongs to others.
    have h := h ha
    simp only [Kept, hi] at h ⊢
    rw [ownChunks_of_lag hl.le (hk rfl), h]
  | drained hi =>
    have h := h ha
    simp only [Kept, hi] at h
    exact h ▸ List.Sublist.refl _
  | dead hi hd => exact absurd ha (by simp [hd])
  | alive _ _ => exact h ha
  | write ok hw =>
    have hok : ok = true := (hk rfl).resolve_right (by simpa using ha)
    have hact : (s.calls i).active = true := ha
    simpa [hok, hact] using (h hact).write hw
  | unsubscribe hi | finish hi => simpa only [Kept, hi] using h ha

/-- In every run in which the call `i` keeps up, it loses nothing: as long as
    its sink is active, everything of its own that precedes the read position
    has been written. -/
theorem noSilentLoss {s : State Filter} (hs : env.system.ReachableBy (env.KeepsUp i) s) :
    env.NoSilentLoss s i := by
  refine fun ha => .inl (Kept.sublist ?_)
  exact call_invariant (P := fun bus c => c.active = true → Kept env i bus c) (fun _ => ⟨rfl, rfl⟩)
    (fun s n hs h ha => (h ha).send (received hs i).pos_le n) (fun _ _ h => h)
    (fun _ _ _ hs hk h hc => Kept.step hs hk h hc) hs ha

instance (s : State Filter) : DecidablePred (env.KeepsUp i s)
  | .call _ .recv => inferInstanceAs (Decidable (_ → ∀ n ∈ _, _))
  | .call _ (.write _) => inferInstanceAs (Decidable (_ → _ ∨ _))
  | .call _ .begin | .call _ .issue | .call _ (.answer _) | .call _ .start | .call _ .poll
  | .call _ .deactivate | .call _ .unsubscribe | .call _ .finish | .notify _ | .close =>
    instDecidableTrue

/-- A call that opens, and the end of its stored events. -/
def opening : List Action :=
  [.call 0 .begin, .call 0 .issue, .call 0 (.answer (.ok ())), .call 0 .start,
    .notify (.message "wss://up" (.endOfStoredEvents "u"))]

/-- The call receives and writes the end of its stored events at once. -/
theorem noSilentLoss_opening : ∃ s : State Json, (s.calls 0).active = true ∧
    (s.calls 0).written = ["[\"EOSE\",\"sub1\"]"] ∧
      (sameSub 1 le_rfl).NoSilentLoss s 0 := by
  obtain ⟨s, hs, hp⟩ := System.exists_reachableBy (M := (sameSub 1 le_rfl).system)
    (C := (sameSub 1 le_rfl).KeepsUp 0) (opening ++ [.call 0 .recv, .call 0 (.write true)])
    (fun s => decide ((s.calls 0).active = true ∧ (s.calls 0).written = ["[\"EOSE\",\"sub1\"]"]))
    (by decide)
  obtain ⟨ha, hw⟩ := of_decide_eq_true hp
  exact ⟨s, ha, hw, noSilentLoss hs⟩

/-- On a channel of capacity `1`, a notice of the upstream drops the end of the
    stored events before the call receives it; the loop goes on, and the sink is
    active, but the chunk is never written. -/
theorem not_noSilentLoss : ¬∀ (env : Setup Json) (s : State Json) (i : ℕ),
    env.system.Reachable s → env.NoSilentLoss s i := by
  intro h
  obtain ⟨s, hs, hp⟩ := System.exists_reachableBy (M := (sameSub 1 le_rfl).system)
    (C := fun _ _ => True)
    (opening ++ [.notify (.message "wss://up" (.notice "busy")), .call 0 .recv])
    (fun s => decide ((s.calls 0).active = true ∧ (s.calls 0).written = [] ∧
      (s.calls 0).stage.ended = false ∧
        (sameSub 1 le_rfl).ownChunks 0 (s.bus.seen (s.calls 0).readPos) = ["[\"EOSE\",\"sub1\"]"]))
    (by decide)
  obtain ⟨ha, hw, he, hc⟩ := of_decide_eq_true hp
  rcases h _ s 0 hs ha with hsub | htold
  · rw [hc, hw] at hsub
    exact absurd hsub.length_le (by decide)
  · exact absurd htold.1 (by simp [he])

end Setup

end Outlay.Proxy

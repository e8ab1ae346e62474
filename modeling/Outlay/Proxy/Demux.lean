import Outlay.Async.Stream
import Outlay.Proxy.Subscribe

/-!
# Demultiplexing

All calls read the one notification channel of the pool, and several clients may
have picked the same subscription id. Nevertheless the chunks a call writes are,
at every moment, a prefix of the bodies of its *own* notifications, in the order
in which its receiver yielded them, relabelled with its client's subscription
id, and end with the first final body (`subscribe_demultiplexed`).

* `Streamed` is the invariant of one call: what has been written, stage by stage.
* `Registered` relates the calls to the ids issued: as a receiver is registered
  before its id is issued, no message tagged with the id precedes it.
-/

namespace Outlay.Proxy

open Async

namespace Setup

variable {Filter : Type*} (env : Setup Filter)

/-- The bodies of the notifications that belong to the call `i`. -/
def bodies (i : ℕ) (l : List RelayPoolNotification) : List Body :=
  l.filterMap (ownBody (env.upstreamId i))

/-- The chunks the call `i` is to write for the notifications `l`: those of its
    own bodies up to the first final one, relabelled. -/
def expected (i : ℕ) (l : List RelayPoolNotification) : List String :=
  (through Body.final (env.bodies i l)).map (Body.relabel (env.clientSub i))

variable {env} {i : ℕ}

theorem bodies_append (l m : List RelayPoolNotification) :
    env.bodies i (l ++ m) = env.bodies i l ++ env.bodies i m := List.filterMap_append

theorem bodies_take {l : List RelayPoolNotification} {n : RelayPoolNotification} {b : Body}
    (hb : ownBody (env.upstreamId i) n = some b) :
    env.bodies i (l ++ [n]) = env.bodies i l ++ [b] := by
  rw [bodies_append]
  simp [bodies, hb]

theorem bodies_skip {l : List RelayPoolNotification} {n : RelayPoolNotification}
    (hb : ownBody (env.upstreamId i) n = none) : env.bodies i (l ++ [n]) = env.bodies i l := by
  rw [bodies_append]
  simp [bodies, hb]

/-- After a final body, more notifications change nothing. -/
theorem expected_append_of_final {l : List RelayPoolNotification}
    (h : ∃ b ∈ env.bodies i l, b.final = true) (m : List RelayPoolNotification) :
    env.expected i (l ++ m) = env.expected i l := by
  rw [expected, expected, bodies_append, through_append_of_exists h]

/-! ## What has been written -/

/-- What the call `i` has written, depending on where it is: in the loop, the
    chunks of all its bodies so far, the one being written excepted. -/
def Streamed (env : Setup Filter) (i : ℕ) (c : Call Filter) : Prop :=
  match c.stage with
  | .selecting => c.written = (env.bodies i c.yielded).map (Body.relabel (env.clientSub i)) ∧
      ∀ b ∈ env.bodies i c.yielded, b.final = false
  | .writing f => ∃ bs b, env.bodies i c.yielded = bs ++ [b] ∧ f = b.forward (env.clientSub i) ∧
      c.written = bs.map (Body.relabel (env.clientSub i)) ∧ ∀ b ∈ bs, b.final = false
  | .unwinding | .closing | .returned _ => c.written <+: env.expected i c.yielded
  | _ => c.yielded = [] ∧ c.written = []

/-- As long as no final body came, everything is expected. -/
theorem expected_of_not_final {l : List RelayPoolNotification}
    (h : ∀ b ∈ env.bodies i l, b.final = false) :
    env.expected i l = (env.bodies i l).map (Body.relabel (env.clientSub i)) := by
  rw [expected, through_eq_self h]

/-- Whatever follows the bodies `bs`, none of them final, their chunks are written first. -/
theorem prefix_expected {l : List RelayPoolNotification} {bs : List Body} {b : Body}
    (hl : env.bodies i l = bs ++ [b]) (h : ∀ b ∈ bs, b.final = false) :
    env.expected i l = (bs ++ [b]).map (Body.relabel (env.clientSub i)) := by
  rw [expected, hl, through_append_of_forall h]
  congr 2
  rw [through]
  split_ifs <;> rfl

/-- At every stage, the chunks written are a prefix of those expected. -/
theorem Streamed.written_expected {c : Call Filter} (h : Streamed env i c) :
    c.written <+: env.expected i c.yielded := by
  rw [Streamed] at h
  split at h
  · rw [expected_of_not_final h.2, h.1]
  · obtain ⟨bs, b, hl, -, hw, hf⟩ := h
    rw [prefix_expected hl hf, hw, List.map_append]
    exact List.prefix_append _ _
  · exact h
  · exact h
  · exact h
  · rw [h.2]; exact List.nil_prefix

/-- Writing a chunk, with whatever outcome. -/
theorem Streamed.write {c : Call Filter} {f : Forward} (hs : c.stage = .writing f) (ok : Bool)
    (h : Streamed env i c) :
    Streamed env i { c with
      written := if ok then c.written ++ [f.chunk] else c.written
      stage := f.next (ok && c.active) } := by
  simp only [Streamed, hs] at h
  obtain ⟨bs, b, hl, rfl, hw, hf⟩ := h
  have hwrote : c.written ++ [(b.forward (env.clientSub i)).chunk] =
      (bs ++ [b]).map (Body.relabel (env.clientSub i)) := by
    rw [hw, Body.chunk_forward, List.map_append, List.map_singleton]
  have hpre : (if ok then c.written ++ [(b.forward (env.clientSub i)).chunk] else c.written) <+:
      env.expected i c.yielded := by
    rw [prefix_expected hl hf, hwrote]
    split_ifs
    · exact List.prefix_rfl
    · rw [hw, List.map_append]; exact List.prefix_append _ _
  -- A final body ends the loop whether its chunk was written or not.
  cases hb : b.final with
  | true => simpa only [Streamed, Body.forward, hb, if_true, Forward.next] using hpre
  | false =>
    by_cases hk : (ok && c.active) = true
    · -- The loop goes on, with the chunk written.
      obtain ⟨rfl, -⟩ := Bool.and_eq_true_iff.1 hk
      simp only [Streamed, Body.forward, hb, Forward.next, hk, if_true, hl, Bool.false_eq_true,
        if_false]
      refine ⟨by simpa [Body.forward, hb] using hwrote, fun b' hb' => ?_⟩
      rcases List.mem_append.1 hb' with hb' | hb'
      · exact hf b' hb'
      · rw [List.mem_singleton.1 hb', hb]
    · simpa only [Streamed, Body.forward, hb, Forward.next, hk, if_false, Bool.false_eq_true]
        using hpre

/-- Every step of a call keeps what it has written as it should be. -/
theorem Streamed.step {bus : Broadcast RelayPoolNotification} {c c' : Call Filter}
    {a : CallAction} (h : Streamed env i c) (hc : CallStep env bus i c a c') :
    Streamed env i c' := by
  cases hc with
  | reject hs _ =>
    simp only [Streamed, hs] at h
    simp [Streamed, h.1, h.2]
  | refused hs =>
    simp only [Streamed, hs] at h
    simp [Streamed, h.1, h.2]
  | register hs _ | issue hs | accepted hs => simpa only [Streamed, hs] using h
  | start hs =>
    simp only [Streamed, hs] at h
    simp [Streamed, h.1, h.2, bodies]
  | take hs _ hb =>
    simp only [Streamed, hs] at h
    exact ⟨_, _, bodies_take hb, rfl, h⟩
  | skip hs _ hb =>
    simp only [Streamed, hs] at h
    simpa only [Streamed, hs, bodies_skip hb] using h
  | lag hs _ => simpa only [Streamed, hs] using h
  | drained hs => exact h.written_expected
  | dead hs _ => exact h.written_expected
  | write ok hs => exact h.write hs ok
  | alive _ _ => exact h
  | deactivate => exact h
  | unsubscribe hs => simpa only [Streamed, hs] using h
  | finish hs => simpa only [Streamed, hs] using h

/-- What every call has written, in every run. -/
theorem streamed {s : State Filter} (hs : env.system.Reachable s) (i : ℕ) :
    Streamed env i (s.calls i) :=
  call_invariant (P := fun _ c => Streamed env i c) ⟨rfl, rfl⟩ (fun _ _ _ h => h)
    (fun _ _ h => h) (fun _ _ _ _ _ h hc => h.step hc) hs

/-! ## What has been received -/

/-- The receiver of a call has yielded notifications of the channel, in order,
    from where it was registered to its position. -/
structure Received (bus : Broadcast RelayPoolNotification) (c : Call Filter) : Prop where
  pos_le : c.pos ≤ bus.log.length
  registered_le : c.registeredAt ≤ c.pos
  yielded : c.yielded.Sublist ((bus.seen c.pos).drop c.registeredAt)

/-- Yielding the next notification. -/
theorem Received.yield {bus : Broadcast RelayPoolNotification} {c : Call Filter}
    (h : Received bus c) {n : RelayPoolNotification} (hn : bus.log[c.pos]? = some n)
    (stage : Stage) :
    Received bus { c with stage, pos := c.pos + 1, yielded := c.yielded ++ [n] } where
  pos_le := (List.getElem?_eq_some_iff.1 hn).1
  registered_le := h.registered_le.trans (Nat.le_succ _)
  yielded := by
    have hlen : (bus.seen c.pos).length = c.pos := List.length_take_of_le h.pos_le
    rw [Broadcast.seen_succ hn, List.drop_append_of_le_length (hlen.symm ▸ h.registered_le)]
    exact h.yielded.append (List.Sublist.refl _)

/-- Falling behind, and being moved ahead. -/
theorem Received.lag {bus : Broadcast RelayPoolNotification} {c : Call Filter}
    (h : Received bus c) {pos : ℕ} (hp : c.pos ≤ pos) (hl : pos ≤ bus.log.length) :
    Received bus { c with pos } where
  pos_le := hl
  registered_le := h.registered_le.trans hp
  yielded := by
    refine h.yielded.trans ?_
    rw [Broadcast.seen_of_le hp, List.drop_append]
    exact List.sublist_append_left _ _

/-- Every receiver has received what it should, in every run. -/
theorem received {s : State Filter} (hs : env.system.Reachable s) (i : ℕ) :
    Received s.bus (s.calls i) := by
  refine call_invariant ⟨le_rfl, le_rfl, List.Sublist.refl _⟩ (fun s n _ h => ?_)
    (fun _ _ h => ⟨h.pos_le, h.registered_le, h.yielded⟩) (fun s a c hs _ h hc => ?_) hs
  · exact ⟨h.pos_le.trans (by simp), h.registered_le,
      (Broadcast.seen_send h.pos_le n).symm ▸ h.yielded⟩
  · cases hc with
    | register hi _ =>
      have hnil : (s.calls i).yielded = [] := by
        have := streamed hs i
        simp only [Streamed, hi] at this
        exact this.1
      exact ⟨le_rfl, le_rfl, hnil ▸ List.nil_sublist _⟩
    | take _ hn _ => exact h.yield hn _
    | skip _ hn _ => exact h.yield hn _
    | lag _ hl => exact h.lag hl.le (Nat.sub_le _ _)
    | _ => exact ⟨h.pos_le, h.registered_le, h.yielded⟩

/-- How the calls relate to the ids issued and to the notifications sent so far. -/
structure Registered (env : Setup Filter) (s : State Filter) : Prop where
  /-- Only ids issued tag notifications. -/
  tagged : ∀ n ∈ s.bus.log, ∀ t, n.tag = some t → t ∈ s.issued
  /-- The id of a call is issued after its receiver is registered. -/
  issued : ∀ i, env.upstreamId i ∈ s.issued →
    (s.calls i).stage ≠ .idle ∧ (s.calls i).stage ≠ .registered
  /-- No notification tagged with the id of a call precedes its receiver. -/
  before : ∀ i, ∀ n ∈ s.bus.log.take (s.calls i).registeredAt, n.tag ≠ some (env.upstreamId i)

/-- Before a call is made, no message is tagged with its id. -/
theorem Registered.not_tagged {s : State Filter} (h : Registered env s)
    (hs : (s.calls i).stage = .idle) : ∀ n ∈ s.bus.log, n.tag ≠ some (env.upstreamId i) :=
  fun n hn ht => (h.issued i (h.tagged n hn _ ht)).1 hs

/-- An id issued by a step was issued before, or is that of the call. -/
theorem mem_issuedAfter {issued : List SubscriptionId} {a : CallAction} {t : SubscriptionId}
    (h : t ∈ env.issuedAfter i issued a) : t ∈ issued ∨ t = env.upstreamId i := by
  cases a with
  | issue => exact (List.mem_cons.1 h).symm
  | _ => exact .inl h

theorem subset_issuedAfter {issued : List SubscriptionId} {a : CallAction} :
    issued ⊆ env.issuedAfter i issued a := by
  cases a with
  | issue => exact List.subset_cons_self _ _
  | _ => exact List.Subset.refl _

/-- A step that leaves a call idle or registered does not issue its id. -/
theorem stage_of_step {bus : Broadcast RelayPoolNotification} {issued : List SubscriptionId}
    {c c' : Call Filter} {a : CallAction} (hc : CallStep env bus i c a c')
    (h : env.upstreamId i ∈ issued → c.stage ≠ .idle ∧ c.stage ≠ .registered)
    (hi : env.upstreamId i ∈ env.issuedAfter i issued a) :
    c'.stage ≠ .idle ∧ c'.stage ≠ .registered := by
  cases hc with
  | reject hs _ | register hs _ => exact absurd hs (h hi).1
  | @write f ok _ => rcases f.next_cases (ok && c.active) with hf | hf <;> simp [hf]
  | skip hs _ _ | lag hs _ | alive hs _ => simp [hs]
  | deactivate => exact h hi
  | _ => simp

/-- A step of another call does not issue the id. -/
theorem mem_of_mem_issuedAfter {issued : List SubscriptionId} {a : CallAction} {j : ℕ}
    (hj : j ≠ i) (h : env.upstreamId j ∈ env.issuedAfter i issued a) :
    env.upstreamId j ∈ issued :=
  (mem_issuedAfter h).resolve_right fun h => hj (env.upstreamId_injective h)

/-- The ids issued are those of calls past their registration, which no message
    tagged with their id precedes. -/
theorem registered {s : State Filter} (hs : env.system.Reachable s) : Registered env s := by
  refine hs.invariant ⟨by simp [system, Broadcast.fresh], by simp [system],
    by simp [system, Broadcast.fresh]⟩ fun s a s' hs h _ hst => ?_
  obtain ⟨n, rfl, ht, rfl⟩ | ⟨rfl, rfl⟩ | ⟨i, b, c, rfl, hc, rfl⟩ := step_cases hst
  -- A notification is tagged with an id issued, and comes after every registration so far.
  · refine ⟨fun m hm t hmt => ?_, h.issued, fun i m hm => ?_⟩
    · rcases List.mem_append.1 hm with hm | hm
      · exact h.tagged m hm t hmt
      · exact ht t (List.mem_singleton.1 hm ▸ hmt)
    · have hr := received hs i
      rw [Broadcast.log_send, List.take_append_of_le_length
        (hr.registered_le.trans hr.pos_le)] at hm
      exact h.before i m hm
  · exact ⟨h.tagged, h.issued, h.before⟩
  · refine ⟨fun m hm t hmt => subset_issuedAfter (h.tagged m hm t hmt), fun j hj => ?_,
      fun j m hm => ?_⟩
    · by_cases hji : j = i
      · subst hji
        simpa using stage_of_step hc (h.issued j) hj
      · simpa [Function.update_of_ne hji] using h.issued j (mem_of_mem_issuedAfter hji hj)
    · by_cases hji : j = i
      · subst hji
        simp only [Function.update_self] at hm
        cases hc with
        | register hs _ =>
          -- All of the log so far precedes the receiver, and the id is not issued yet.
          exact h.not_tagged hs m (List.mem_of_mem_take hm)
        | _ => exact h.before j m hm
      · simp only [Function.update_of_ne hji] at hm
        exact h.before j m hm

/-! ## The law -/

/-- The histories of a call only grow. -/
structure Grows (c c' : Call Filter) : Prop where
  yielded : c.yielded <+: c'.yielded
  written : c.written <+: c'.written

theorem Grows.refl (c : Call Filter) : Grows c c := ⟨List.prefix_rfl, List.prefix_rfl⟩

theorem CallStep.grows {bus : Broadcast RelayPoolNotification} {c c' : Call Filter}
    {a : CallAction} (hc : CallStep env bus i c a c') : Grows c c' := by
  cases hc with
  | take _ _ _ | skip _ _ _ => exact ⟨List.prefix_append _ _, List.prefix_rfl⟩
  | write ok _ =>
    refine ⟨List.prefix_rfl, ?_⟩
    dsimp only
    split_ifs
    · exact List.prefix_append _ _
    · exact List.prefix_rfl
  | _ => exact ⟨List.prefix_rfl, List.prefix_rfl⟩

/-- Along every continuation, the histories of a call only grow. -/
theorem grows_of_leads {s s' : State Filter} (hs : env.system.Reachable s)
    (hl : env.system.Leads s s') (i : ℕ) : Grows (s.calls i) (s'.calls i) :=
  call_leads (P := Grows (s.calls i)) (fun _ _ _ _ h hc =>
    ⟨h.yielded.trans hc.grows.yielded, h.written.trans hc.grows.written⟩) hs (.refl _) hl

variable (env) in
/-- The call `i` is served as if it had the upstream for itself. -/
structure Demultiplexed (s : State Filter) (i : ℕ) : Prop where
  /-- Its receiver yields notifications in the order sent, from its registration on. -/
  received : (s.calls i).yielded.Sublist (s.bus.log.drop (s.calls i).registeredAt)
  /-- No message tagged with its upstream id was sent before. -/
  before : ∀ n ∈ s.bus.log.take (s.calls i).registeredAt, n.tag ≠ some (env.upstreamId i)
  /-- The chunks written are a prefix of those of its own bodies, relabelled, up
      to the first final one. -/
  written : (s.calls i).written <+: env.expected i (s.calls i).yielded
  /-- Every chunk written is that of a notification yielded that no other call owns. -/
  isolated : ∀ c ∈ (s.calls i).written, ∃ n ∈ (s.calls i).yielded, ∃ b,
    ownBody (env.upstreamId i) n = some b ∧ c = b.relabel (env.clientSub i) ∧
      ∀ j, j ≠ i → n.tag ≠ some (env.upstreamId j)
  /-- Once the chunk of a final body is written, nothing is ever written again. -/
  final : (∃ b ∈ env.bodies i (s.calls i).yielded, b.final = true) →
    (s.calls i).written = env.expected i (s.calls i).yielded →
      ∀ s', env.system.Leads s s' → (s'.calls i).written = (s.calls i).written

/-- A chunk expected is that of a notification no other call owns. -/
theorem of_mem_expected {l : List RelayPoolNotification} {c : String}
    (hc : c ∈ env.expected i l) : ∃ n ∈ l, ∃ b, ownBody (env.upstreamId i) n = some b ∧
      c = b.relabel (env.clientSub i) ∧ ∀ j, j ≠ i → n.tag ≠ some (env.upstreamId j) := by
  obtain ⟨b, hb, rfl⟩ := List.mem_map.1 hc
  obtain ⟨n, hn, hnb⟩ := List.mem_filterMap.1 ((through_isPrefix _).subset hb)
  refine ⟨n, hn, b, hnb, rfl, fun j hj hnj => ?_⟩
  rw [ownBody_eq_none hnj fun h => hj (env.upstreamId_injective h)] at hnb
  cases hnb

/-- Whatever the interleaving, every call is served as if it had the upstream
    for itself. -/
theorem subscribe_demultiplexed {s : State Filter} (hs : env.system.Reachable s) (i : ℕ) :
    Demultiplexed env s i where
  received := by
    have h := received hs i
    refine h.yielded.trans ?_
    rw [Broadcast.seen, List.drop_take]
    exact List.take_sublist _ _
  before := (registered hs).before i
  written := (streamed hs i).written_expected
  isolated _ hc := of_mem_expected ((streamed hs i).written_expected.subset hc)
  final hf hw s' hl := by
    have hg := grows_of_leads hs hl i
    obtain ⟨m, hm⟩ := hg.yielded
    -- What was written stays a prefix of what is, which nothing yielded later extends.
    have hw' := (streamed (hs.leads hl) i).written_expected
    rw [← hm, expected_append_of_final hf, ← hw] at hw'
    exact (hw'.sublist.antisymm hg.written.sublist)

/-! ## Two clients with the same subscription id -/

/-- Calls of clients that all picked the subscription id `sub1`. -/
def sameSub (cap : ℕ) (hcap : 1 ≤ cap) : Setup Json where
  cap := cap
  one_le_cap := hcap
  params _ := { subscriptionId := "sub1", filters := [.obj []] }
  writer _ := true
  decodeFilter := .ok
  upstreamId i := String.ofList (List.replicate (i + 1) 'u')
  upstreamId_injective i j h := by simpa using congrArg String.length h

/-- An event for the second call, then the end of the stored events of the first. -/
def twoCalls : List Action :=
  [.call 0 .begin, .call 1 .begin, .call 0 .issue, .call 1 .issue, .call 1 (.answer (.ok ())),
    .notify (.message "wss://up" (.event "uu" (.obj []))), .call 1 .start,
    .call 0 (.answer (.ok ())), .notify (.message "wss://up" (.endOfStoredEvents "u")),
    .call 0 .start, .call 1 .recv, .call 0 .recv, .call 0 .recv, .call 0 (.write true),
    .call 1 (.write true)]

/-- Each call gets its own chunk only. -/
theorem subscribe_demultiplexed_twoCalls : ∃ s : State Json,
    (s.calls 0).written = ["[\"EOSE\",\"sub1\"]"] ∧
      (s.calls 1).written = ["[\"EVENT\",\"sub1\",\x7b\x7d]"] ∧
        Demultiplexed (sameSub 4 (by decide)) s 0 ∧ Demultiplexed (sameSub 4 (by decide)) s 1 := by
  obtain ⟨s, hs, hp⟩ := System.exists_reachableBy (M := (sameSub 4 (by decide)).system)
    (C := fun _ _ => True) twoCalls (fun s => decide
      ((s.calls 0).written = ["[\"EOSE\",\"sub1\"]"] ∧
        (s.calls 1).written = ["[\"EVENT\",\"sub1\",\x7b\x7d]"])) (by decide)
  obtain ⟨h₀, h₁⟩ := of_decide_eq_true hp
  exact ⟨s, h₀, h₁, subscribe_demultiplexed hs 0, subscribe_demultiplexed hs 1⟩

end Setup

end Outlay.Proxy

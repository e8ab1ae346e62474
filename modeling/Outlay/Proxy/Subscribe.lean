import Outlay.Async.Broadcast
import Outlay.Async.System
import Outlay.Proxy.Notification

/-!
# The subscribe calls of a proxy

The `subscribe` tool calls made on one proxy, as a system of concurrent parties:
the calls, and the pool of the upstream relay, which notifies the receivers of
all calls through one bounded broadcast channel. An action is what a party does
between two awaits:

* a call *begins*: its arguments are checked, and its receiver registered;
* `subscribe_with_id` is *issued*, from when on the upstream may send messages
  tagged with the id, and *answered*;
* the sink is *started*;
* the loop *receives* a notification, *writes* a chunk to the sink, for an
  arbitrarily long time, or *polls* the sink;
* the upstream subscription is *unsubscribed*, and the call *finishes*.

A sink may become inactive at any point, and a write may fail.

`Setup.callStep` is one step of one call; `CallStep` lists, once and for all,
what it can do.
-/

namespace Outlay.Proxy

open Async

/-- The errors of the proxy. -/
inductive ProxyError
  | init (e : String)
  | connect (e : String)
  | emptyFilters
  | subscribe (e : String)
  | publish (e : String)
  | publishTimeout
  | relayInfo (e : String)

/-- The text of an error. -/
def ProxyError.text : ProxyError → String
  | .init e => "upstream relay pool init failed: " ++ e
  | .connect e => "upstream relay connect failed: " ++ e
  | .emptyFilters => "subscribe filters must be non-empty"
  | .subscribe e => "upstream subscribe failed: " ++ e
  | .publish e => "upstream publish failed: " ++ e
  | .publishTimeout => "upstream did not acknowledge the event within timeout"
  | .relayInfo e => "relay_info: " ++ e

/-- The arguments of a `subscribe` tool call. -/
structure SubscribeParams where
  /-- NIP-01 subscription id, client-chosen. -/
  subscriptionId : String
  /-- NIP-01 filter objects. -/
  filters : List Json

/-- The calls made on a proxy, by number, and what they depend on. -/
structure Setup (Filter : Type*) where
  /-- The capacity of the notification channel. -/
  cap : ℕ
  one_le_cap : 1 ≤ cap
  /-- The arguments of the calls. -/
  params : ℕ → SubscribeParams
  /-- The call carries an open-stream writer. -/
  writer : ℕ → Bool
  /-- The decoding of a filter object. -/
  decodeFilter : Json → Except String Filter
  /-- The ids generated for the calls. -/
  upstreamId : ℕ → SubscriptionId
  upstreamId_injective : Function.Injective upstreamId

/-- Where a call is. -/
inductive Stage
  /-- Not made yet. -/
  | idle
  /-- Its receiver is registered. -/
  | registered
  /-- Waiting for the answer of `subscribe_with_id`. -/
  | subscribing
  /-- Starting its sink. -/
  | starting
  /-- At the `select!` of the loop. -/
  | selecting
  /-- Writing a chunk to its sink. -/
  | writing (f : Forward)
  /-- Out of the loop. -/
  | unwinding
  /-- Unsubscribed, closing its sink. -/
  | closing
  /-- Returned to its caller. -/
  | returned (r : Except String Json)

/-- Where the loop is after writing a chunk, the sink being dead or alive. -/
def Forward.next (alive : Bool) : Forward → Stage
  | .cont _ => if alive then .selecting else .unwinding
  | .stop _ => .unwinding

/-- After writing, the loop goes on or is left. -/
theorem Forward.next_cases (alive : Bool) (f : Forward) :
    f.next alive = .selecting ∨ f.next alive = .unwinding := by
  cases f with
  | cont _ => cases alive; exacts [.inr rfl, .inl rfl]
  | stop _ => exact .inr rfl

/-- The loop has been left. -/
def Stage.ended : Stage → Bool
  | .unwinding | .closing | .returned _ => true
  | _ => false

/-- The state of a call: its stage, its receiver and its sink, and the history
    of what it received and did. -/
structure Call (Filter : Type*) where
  stage : Stage
  /-- The filters subscribed to. -/
  filters : List Filter
  /-- The position of the receiver. -/
  pos : ℕ
  /-- The sink is active. -/
  active : Bool
  /-- Where the receiver was registered. -/
  registeredAt : ℕ
  /-- The notifications the receiver yielded. -/
  yielded : List RelayPoolNotification
  /-- The chunks written to the sink. -/
  written : List String
  /-- The number of times the sink was started. -/
  starts : ℕ
  /-- The ids unsubscribed. -/
  unsubscribed : List SubscriptionId
  /-- The number of times the sink was closed. -/
  closes : ℕ

/-- A call not made yet. -/
def Call.idle (Filter : Type*) : Call Filter where
  stage := .idle
  filters := []
  pos := 0
  active := true
  registeredAt := 0
  yielded := []
  written := []
  starts := 0
  unsubscribed := []
  closes := 0

/-- The actions of a call. -/
inductive CallAction
  | begin
  | issue
  | answer (r : Except String Unit)
  | start
  | recv
  | write (ok : Bool)
  | poll
  | deactivate
  | unsubscribe
  | finish

/-- The actions of the system. -/
inductive Action
  /-- The pool notifies. -/
  | notify (n : RelayPoolNotification)
  /-- The pool goes away. -/
  | close
  /-- A call acts. -/
  | call (i : ℕ) (a : CallAction)

namespace Setup

variable {Filter : Type*} (env : Setup Filter)

/-- The client's subscription id of a call. -/
abbrev clientSub (i : ℕ) : String := (env.params i).subscriptionId

/-- The checks of a call: it carries a writer, its filters decode and are not empty. -/
def checkArgs (i : ℕ) : Except String (List Filter) :=
  if env.writer i then
    match (env.params i).filters.mapM env.decodeFilter with
    | .error e => .error e
    | .ok [] => .error ProxyError.emptyFilters.text
    | .ok (f :: fs) => .ok (f :: fs)
  else .error ("subscribe requires CEP-41 open-stream; the client must advertise support " ++
    "and send a progressToken")

/-- A step of the call `i`, on the channel `bus`. -/
def callStep (bus : Broadcast RelayPoolNotification) (i : ℕ) (c : Call Filter) :
    CallAction → Option (Call Filter)
  | .begin =>
    match c.stage with
    | .idle =>
      match env.checkArgs i with
      | .error e => some { c with stage := .returned (.error e) }
      -- The receiver is registered before subscribing.
      | .ok filters => some { c with
          stage := .registered, filters, pos := bus.log.length, registeredAt := bus.log.length }
    | _ => none
  | .issue =>
    match c.stage with
    | .registered => some { c with stage := .subscribing }
    | _ => none
  | .answer r =>
    match c.stage with
    | .subscribing =>
      match r with
      | .ok _ => some { c with stage := .starting }
      | .error e => some { c with stage := .returned (.error (ProxyError.subscribe e).text) }
    | _ => none
  | .start =>
    match c.stage with
    -- Whether the sink starts is ignored.
    | .starting => some { c with stage := .selecting, starts := c.starts + 1 }
    | _ => none
  | .recv =>
    match c.stage with
    | .selecting =>
      match bus.recv env.cap c.pos with
      | some (.value n, pos) =>
        match mapNotification n (env.upstreamId i) (env.clientSub i) with
        | some f => some { c with stage := .writing f, pos, yielded := c.yielded ++ [n] }
        | none => some { c with pos, yielded := c.yielded ++ [n] }
      -- The loop continues, whatever was lost.
      | some (.lagged _, pos) => some { c with pos }
      | some (.closed, pos) => some { c with stage := .unwinding, pos }
      | none => none
    | _ => none
  | .write ok =>
    match c.stage with
    | .writing f =>
      -- A chunk accepted by a sink that is not active any more ends the loop, too.
      some { c with
        written := if ok then c.written ++ [f.chunk] else c.written
        stage := f.next (ok && c.active) }
    | _ => none
  | .poll =>
    match c.stage with
    | .selecting => some (if c.active then c else { c with stage := .unwinding })
    | _ => none
  | .deactivate => some { c with active := false }
  | .unsubscribe =>
    match c.stage with
    -- In any case: the client aborted, the upstream closed, or the pool died.
    | .unwinding => some { c with
        stage := .closing, unsubscribed := c.unsubscribed ++ [env.upstreamId i] }
    | _ => none
  | .finish =>
    match c.stage with
    | .closing => some { c with
        stage := .returned (.ok (.obj [("ok", .bool true)]))
        closes := if c.active then c.closes + 1 else c.closes }
    | _ => none

end Setup

/-- The state of the system. -/
structure State (Filter : Type*) where
  /-- The notification channel of the pool. -/
  bus : Broadcast RelayPoolNotification
  /-- The ids `subscribe_with_id` was issued for. -/
  issued : List SubscriptionId
  /-- The open upstream subscriptions. -/
  opened : List SubscriptionId
  calls : ℕ → Call Filter

namespace Setup

variable {Filter : Type*} (env : Setup Filter)

/-- The ids issued after an action of the call `i`. -/
def issuedAfter (i : ℕ) (issued : List SubscriptionId) : CallAction → List SubscriptionId
  | .issue => env.upstreamId i :: issued
  | _ => issued

/-- The upstream subscriptions open after an action of the call `i`. -/
def openedAfter (i : ℕ) (opened : List SubscriptionId) : CallAction → List SubscriptionId
  | .answer (.ok _) => env.upstreamId i :: opened
  | .unsubscribe => opened.erase (env.upstreamId i)
  | _ => opened

/-- The system of the calls and the pool. The pool sends messages tagged with
    ids issued only. -/
def system : System (State Filter) Action where
  init := { bus := .fresh, issued := [], opened := [], calls := fun _ => .idle Filter }
  step s
    | .notify n =>
      if s.bus.closed = false ∧ n.tag.all (· ∈ s.issued) then
        some { s with bus := s.bus.send n }
      else none
    | .close => some { s with bus := s.bus.close }
    | .call i a => (env.callStep s.bus i (s.calls i) a).map fun c =>
      { s with
        issued := env.issuedAfter i s.issued a
        opened := env.openedAfter i s.opened a
        calls := Function.update s.calls i c }

/-! ## What a step can do -/

variable (bus : Broadcast RelayPoolNotification) (i : ℕ)

/-- The steps of the call `i`: what `callStep` can do, case by case. -/
inductive CallStep (c : Call Filter) : CallAction → Call Filter → Prop
  | reject {e : String} (hs : c.stage = .idle) (he : env.checkArgs i = .error e) :
      CallStep c .begin { c with stage := .returned (.error e) }
  | register {filters : List Filter} (hs : c.stage = .idle) (he : env.checkArgs i = .ok filters) :
      CallStep c .begin { c with
        stage := .registered, filters, pos := bus.log.length, registeredAt := bus.log.length }
  | issue (hs : c.stage = .registered) : CallStep c .issue { c with stage := .subscribing }
  | accepted {u : Unit} (hs : c.stage = .subscribing) :
      CallStep c (.answer (.ok u)) { c with stage := .starting }
  | refused {e : String} (hs : c.stage = .subscribing) :
      CallStep c (.answer (.error e))
        { c with stage := .returned (.error (ProxyError.subscribe e).text) }
  | start (hs : c.stage = .starting) :
      CallStep c .start { c with stage := .selecting, starts := c.starts + 1 }
  | take {n : RelayPoolNotification} {b : Body} (hs : c.stage = .selecting)
      (hn : bus.log[c.pos]? = some n) (hb : ownBody (env.upstreamId i) n = some b) :
      CallStep c .recv { c with
        stage := .writing (b.forward (env.clientSub i)), pos := c.pos + 1
        yielded := c.yielded ++ [n] }
  | skip {n : RelayPoolNotification} (hs : c.stage = .selecting)
      (hn : bus.log[c.pos]? = some n) (hb : ownBody (env.upstreamId i) n = none) :
      CallStep c .recv { c with pos := c.pos + 1, yielded := c.yielded ++ [n] }
  | lag (hs : c.stage = .selecting) (hl : c.pos < bus.oldest env.cap) :
      CallStep c .recv { c with pos := bus.oldest env.cap }
  | drained (hs : c.stage = .selecting) : CallStep c .recv { c with stage := .unwinding }
  | write {f : Forward} (ok : Bool) (hs : c.stage = .writing f) :
      CallStep c (.write ok) { c with
        written := if ok then c.written ++ [f.chunk] else c.written
        stage := f.next (ok && c.active) }
  | alive (hs : c.stage = .selecting) (ha : c.active = true) : CallStep c .poll c
  | dead (hs : c.stage = .selecting) (ha : c.active = false) :
      CallStep c .poll { c with stage := .unwinding }
  | deactivate : CallStep c .deactivate { c with active := false }
  | unsubscribe (hs : c.stage = .unwinding) :
      CallStep c .unsubscribe { c with
        stage := .closing, unsubscribed := c.unsubscribed ++ [env.upstreamId i] }
  | finish (hs : c.stage = .closing) :
      CallStep c .finish { c with
        stage := .returned (.ok (.obj [("ok", .bool true)]))
        closes := if c.active then c.closes + 1 else c.closes }

variable {env bus i}

/-- A step of a call is one of those listed. -/
theorem callStep_cases {c c' : Call Filter} {a : CallAction}
    (h : env.callStep bus i c a = some c') : CallStep env bus i c a c' := by
  cases a with
  | begin =>
    simp only [callStep] at h
    split at h
    next hs =>
      split at h <;> obtain rfl := Option.some.inj h
      next he => exact .reject hs he
      next he => exact .register hs he
    next => cases h
  | answer r =>
    simp only [callStep] at h
    split at h
    next hs =>
      cases r <;> obtain rfl := Option.some.inj h
      · exact .refused hs
      · exact .accepted hs
    next => cases h
  | recv =>
    simp only [callStep] at h
    split at h
    next hs =>
      cases hr : bus.recv env.cap c.pos with
      | none => rw [hr] at h; cases h
      | some r =>
        obtain ⟨r, pos⟩ := r
        rw [hr] at h
        obtain ⟨n, rfl, _, hn, rfl⟩ | ⟨rfl, hl, rfl⟩ | ⟨rfl, _, _, rfl⟩ := Broadcast.recv_cases hr
        · simp only [mapNotification_eq] at h
          cases hb : ownBody (env.upstreamId i) n with
          | none => rw [hb] at h; obtain rfl := Option.some.inj h; exact .skip hs hn hb
          | some b => rw [hb] at h; obtain rfl := Option.some.inj h; exact .take hs hn hb
        · obtain rfl := Option.some.inj h; exact .lag hs hl
        · obtain rfl := Option.some.inj h; exact .drained hs
    next => cases h
  | poll =>
    simp only [callStep] at h
    split at h
    next hs =>
      obtain rfl := Option.some.inj h
      split_ifs with ha
      · exact .alive hs ha
      · exact .dead hs (Bool.eq_false_of_not_eq_true ha)
    next => cases h
  | deactivate => obtain rfl := Option.some.inj h; exact .deactivate
  | issue | start | write ok | unsubscribe | finish =>
    simp only [callStep] at h
    split at h
    next hs => obtain rfl := Option.some.inj h; constructor; exact hs
    next => cases h

/-- A step of the system is a notification, the end of the pool, or a step of a
    call, which leaves the other calls and the channel as they are. -/
theorem step_cases {s s' : State Filter} {a : Action} (h : env.system.step s a = some s') :
    (∃ n, a = .notify n ∧ (∀ t, n.tag = some t → t ∈ s.issued) ∧
        s' = { s with bus := s.bus.send n }) ∨
      (a = .close ∧ s' = { s with bus := s.bus.close }) ∨
        ∃ i b c, a = .call i b ∧ CallStep env s.bus i (s.calls i) b c ∧
          s' = { s with
            issued := env.issuedAfter i s.issued b
            opened := env.openedAfter i s.opened b
            calls := Function.update s.calls i c } := by
  cases a with
  | notify n =>
    simp only [system] at h
    split_ifs at h with hn
    refine .inl ⟨n, rfl, fun t ht => ?_, (Option.some.inj h).symm⟩
    simpa [ht] using hn.2
  | close => exact .inr (.inl ⟨rfl, (Option.some.inj h).symm⟩)
  | call i b =>
    obtain ⟨c, hc, rfl⟩ := Option.map_eq_some_iff.1 h
    exact .inr (.inr ⟨i, b, c, rfl, callStep_cases hc, rfl⟩)

/-- What holds of a call not made yet, and is preserved by notifications and by
    the steps of the call (that meet the condition), always holds of the call. -/
theorem call_invariant {C : State Filter → Action → Prop} {i : ℕ}
    {P : Broadcast RelayPoolNotification → Call Filter → Prop}
    (h₀ : P .fresh (.idle Filter))
    (hsend : ∀ s n, env.system.Reachable s → P s.bus (s.calls i) → P (s.bus.send n) (s.calls i))
    (hclose : ∀ bus c, P bus c → P bus.close c)
    (hstep : ∀ s a c, env.system.Reachable s → C s (.call i a) → P s.bus (s.calls i) →
      CallStep env s.bus i (s.calls i) a c → P s.bus c)
    {s : State Filter} (hs : env.system.ReachableBy C s) : P s.bus (s.calls i) := by
  refine hs.invariant (P := fun s => P s.bus (s.calls i)) h₀ fun s a s' hs hP hC hst => ?_
  obtain ⟨n, rfl, _, rfl⟩ | ⟨rfl, rfl⟩ | ⟨j, b, c, rfl, hc, rfl⟩ := step_cases hst
  · exact hsend _ n hs.reachable hP
  · exact hclose _ _ hP
  · by_cases hj : j = i
    · subst hj
      simpa using hstep s b c hs.reachable hC hP hc
    · simpa [Function.update_of_ne (Ne.symm hj)] using hP

/-- What the steps of the call `i` preserve, continuations preserve. -/
theorem call_leads {i : ℕ} {P : Call Filter → Prop}
    (hstep : ∀ bus c a c', P c → CallStep env bus i c a c' → P c') {s s' : State Filter}
    (hs : env.system.Reachable s) (hP : P (s.calls i)) (hl : env.system.Leads s s') :
    P (s'.calls i) := by
  refine hl.invariant (P := fun s => P (s.calls i)) (fun s a s' _ hP hst => ?_) hs hP
  obtain ⟨n, rfl, _, rfl⟩ | ⟨rfl, rfl⟩ | ⟨j, b, c, rfl, hc, rfl⟩ := step_cases hst
  · exact hP
  · exact hP
  · by_cases hj : j = i
    · subst hj
      simpa using hstep s.bus _ b c hP hc
    · simpa [Function.update_of_ne (Ne.symm hj)] using hP

end Setup

end Outlay.Proxy

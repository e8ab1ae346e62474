import Outlay.Proxy.Demux
import Outlay.Shim.Outbound

/-!
# A shim in front of an outlay

The visitors of one outlay, each on a connection of its own to the shim, and the
proxy of the outlay, which serves the tool calls of all of them over one upstream
relay. The parties are those of the two crates, and act as they do there; what joins
them is the transport of the calls:

* the proxy begins a call of the shim with the arguments the subscribe task has sent;
* a task reads the chunks that its call has written, in order, each once (CEP-41);
* the stream of a task ends when it has read everything, and the call has closed its
  sink. It may fail at any point, with whatever error.

Other clients may call the proxy directly.
-/

namespace Outlay

open Async

namespace Proxy

/-- The arguments of a `subscribe` tool call, as the server takes them. -/
def SubscribeParams.ofArgs (args : Json) : Option SubscribeParams :=
  match (args.get "subscription_id").bind Json.asStr, args.get "filters" with
  | some subscriptionId, some (.arr filters) => some ⟨subscriptionId, filters⟩
  | _, _ => none

deriving instance DecidableEq for SubscribeParams

/-- The server takes the arguments that a task sends. -/
theorem SubscribeParams.ofArgs_subscribeArgs (subId : String) (filters : List Json) :
    ofArgs (Shim.subscribeArgs subId filters) = some ⟨subId, filters⟩ := by
  have hsub : (Shim.subscribeArgs subId filters).get "subscription_id" = some (.str subId) := rfl
  have hfilters : (Shim.subscribeArgs subId filters).get "filters" = some (.arr filters) := rfl
  simp only [ofArgs, hsub, hfilters, Option.bind_some, Json.asStr]

end Proxy

deriving instance DecidableEq for Shim.ClientMsg

/-- An outlay, and the shim that its visitors come through. -/
structure Deployment (Filter : Type*) where
  /-- The proxy of the outlay. -/
  env : Proxy.Setup Filter
  /-- The decoding of the visitors' frames. -/
  decode : String → Option Json
  /-- The call of the subscribe task `n` of the connection `k`. -/
  callOf : ℕ → ℕ → ℕ
  /-- The task that makes a call, if the shim makes it. -/
  owner : ℕ → Option (ℕ × ℕ)
  owner_eq_some : ∀ i k n, owner i = some (k, n) ↔ callOf k n = i

namespace Deployment

/-- The state of a deployment. -/
structure State (Filter : Type*) where
  proxy : Proxy.State Filter
  conns : ℕ → Shim.Conn

/-- The actions of a deployment. -/
inductive Action
  /-- The proxy, its pool, or one of its calls acts. -/
  | proxy (a : Proxy.Action)
  /-- A connection acts. -/
  | conn (k : ℕ) (a : Shim.ConnAction)

variable {Filter : Type*}

namespace State

/-- The subscribe task `n` of the connection `k`. -/
abbrev task (s : State Filter) (k n : ℕ) : Shim.Task := (s.conns k).tasks n

end State

variable (d : Deployment Filter)

/-- The call of a subscribe task. -/
abbrev call (s : State Filter) (k n : ℕ) : Proxy.Call Filter := s.proxy.calls (d.callOf k n)

/-- What the transport of the calls lets through. -/
def carries (s : State Filter) : Action → Bool
  | .proxy (.call i .begin) =>
    match d.owner i with
    | some (k, n) => decide ((s.task k n).stage ≠ .absent ∧
        Proxy.SubscribeParams.ofArgs (s.task k n).args = some (d.env.params i))
    | none => true
  | .conn k (.task n (.chunk c)) =>
    decide ((d.call s k n).written[(s.task k n).read.length]? = some c)
  | .conn k (.task n .finish) =>
    decide ((s.task k n).read = (d.call s k n).written ∧ (d.call s k n).closes ≠ 0)
  | _ => true

/-- A step of a deployment: one of the proxy, or of a connection, that the transport
    lets through. -/
def step (s : State Filter) (a : Action) : Option (State Filter) :=
  if d.carries s a then
    match a with
    | .proxy b => (d.env.system.step s.proxy b).map fun proxy => { s with proxy }
    | .conn k b => (Shim.Conn.step d.decode (s.conns k) b).map fun c =>
        { s with conns := Function.update s.conns k c }
  else none

/-- The system of the proxy and the connections. -/
def system : System (State Filter) Action where
  init := { proxy := d.env.system.init, conns := fun _ => .fresh }
  step := d.step

/-! ## What a step can do -/

variable {d} {s s' : State Filter}

/-- A step of a deployment is one of the proxy, or of a connection. -/
theorem step_cases {a : Action} (h : d.system.step s a = some s') : d.carries s a = true ∧
    ((∃ b p, a = .proxy b ∧ d.env.system.step s.proxy b = some p ∧
        s' = { s with proxy := p }) ∨
      ∃ k b c, a = .conn k b ∧ Shim.Conn.Step d.decode (s.conns k) b c ∧
        s' = { s with conns := Function.update s.conns k c }) := by
  simp only [system, step] at h
  split_ifs at h with hc
  refine ⟨hc, ?_⟩
  cases a with
  | proxy b =>
    obtain ⟨p, hp, rfl⟩ := Option.map_eq_some_iff.1 h
    exact .inl ⟨b, p, rfl, hp, rfl⟩
  | conn k b =>
    obtain ⟨c, hstep, rfl⟩ := Option.map_eq_some_iff.1 h
    exact .inr ⟨k, b, c, rfl, Shim.Conn.step_cases hstep, rfl⟩

/-- A step of the proxy is one that it does alone. -/
theorem step_proxy {a : Proxy.Action} (h : d.system.step s (.proxy a) = some s') :
    d.carries s (.proxy a) = true ∧
      ∃ p, d.env.system.step s.proxy a = some p ∧ s' = { s with proxy := p } := by
  obtain ⟨hcar, ⟨b, p, heq, hp, rfl⟩ | ⟨_, _, _, heq, -⟩⟩ := step_cases h
  · obtain rfl := Action.proxy.inj heq
    exact ⟨hcar, p, hp, rfl⟩
  · cases heq

/-- So is a step of a connection. -/
theorem step_conn {k : ℕ} {b : Shim.ConnAction} (h : d.system.step s (.conn k b) = some s') :
    d.carries s (.conn k b) = true ∧ ∃ c, Shim.Conn.Step d.decode (s.conns k) b c ∧
      s' = { s with conns := Function.update s.conns k c } := by
  obtain ⟨hcar, ⟨_, _, heq, -⟩ | ⟨_, _, c, heq, hstep, rfl⟩⟩ := step_cases h
  · cases heq
  · obtain ⟨rfl, rfl⟩ := Action.conn.inj heq
    exact ⟨hcar, c, hstep, rfl⟩

/-- The proxy of a deployment runs as it does alone, under a condition on its actions. -/
theorem proxy_reachableBy {C : State Filter → Action → Prop}
    {C' : Proxy.State Filter → Proxy.Action → Prop}
    (hC : ∀ s a, C s (.proxy a) → C' s.proxy a) (hs : d.system.ReachableBy C s) :
    d.env.system.ReachableBy C' s.proxy := by
  refine hs.projectBy (f := State.proxy) rfl fun s a s' ha hst => ?_
  obtain ⟨-, ⟨b, p, rfl, hp, rfl⟩ | ⟨k, b, c, rfl, -, rfl⟩⟩ := step_cases hst
  · exact .inr ⟨b, hC s b ha, hp⟩
  · exact .inl rfl

/-- So does every connection. -/
theorem conn_reachable (hs : d.system.Reachable s) (k : ℕ) :
    (Shim.Conn.system d.decode).Reachable (s.conns k) := by
  refine hs.project (N := Shim.Conn.system d.decode) (f := fun s => s.conns k) rfl
    fun s a s' hst => ?_
  simp only [system, step] at hst
  split_ifs at hst
  cases a with
  | proxy b =>
    obtain ⟨p, -, rfl⟩ := Option.map_eq_some_iff.1 hst
    exact .inl rfl
  | conn l b =>
    obtain ⟨c, hc, rfl⟩ := Option.map_eq_some_iff.1 hst
    by_cases hl : l = k
    · subst hl
      exact .inr ⟨b, by simp only [Function.update_self]; exact hc⟩
    · exact .inl (Function.update_of_ne (Ne.symm hl) ..)

theorem proxy_reachable (hs : d.system.Reachable s) : d.env.system.Reachable s.proxy :=
  proxy_reachableBy (fun _ _ _ => trivial) hs

end Deployment

end Outlay

import Outlay.Deployment.Delivery
import Outlay.Shim.Served

/-!
# One shim in front of many outlays

The visitors of the shim, each of which is routed and bridged by the server to the outlay
that its path names, and the proxies of all these outlays, each over an upstream relay of
its own.

The calls of a visit that is bridged go to the outlay of the transport that the cache has
handed out to it. Seen from one outlay, with the visits whose calls go to it, this is a
deployment of that outlay alone, whatever happens elsewhere (`refines`): so every visitor is
served its subscriptions by the outlay that its path names, and what is known of a
deployment, such as what its visitors are given (`Deployment.Delivered`), is known of each
outlay here.
-/

namespace Outlay

open Async
open Shim (Server)

/-- The shim, and the outlays that can be reached through it, each by its key. -/
structure Network (PublicKey RelayUrl Filter : Type*) where
  shim : Server PublicKey RelayUrl
  /-- The outlay of a key; its visitors are the visits of the shim. -/
  outlay : String → Deployment Filter
  decode_eq : ∀ hex, (outlay hex).decode = shim.decode

namespace Network

variable {PublicKey RelayUrl Filter : Type*} (net : Network PublicKey RelayUrl Filter)

/-- The state of a network. -/
structure State where
  shim : net.shim.State
  proxies : String → Proxy.State Filter

/-- The actions of a network. -/
inductive Action
  /-- The shim acts, or one of the connections it bridges. -/
  | shim (a : Server.Action)
  /-- The proxy of an outlay acts. -/
  | proxy (hex : String) (a : Proxy.Action)

variable {net}

/-- The connection of a visit that is bridged by a transport to the outlay of the key. -/
def connOf (hex : String) (visit : Shim.Visit) : Shim.Conn :=
  match visit.stage with
  | .bridged _ t => if t.config.serverPubkey = hex then visit.conn else .fresh
  | _ => .fresh

/-- The outlay of a key, with the visits that are bridged to it. -/
def State.view (s : net.State) (hex : String) : Deployment.State Filter where
  proxy := s.proxies hex
  conns v := connOf hex (s.shim.visits v)

variable (net)

/-- What the transports of the calls let through. -/
def carries (s : net.State) : Action → Bool
  | .shim (.bridge v a) =>
    match (s.shim.visits v).stage with
    | .bridged _ t =>
      (net.outlay t.config.serverPubkey).carries (s.view t.config.serverPubkey) (.conn v a)
    | _ => true
  | .shim _ => true
  | .proxy hex a => (net.outlay hex).carries (s.view hex) (.proxy a)

/-- A step of a network: one of the shim, or of a proxy, that the transports let through. -/
def step (s : net.State) (a : Action) : Option net.State :=
  if net.carries s a then
    match a with
    | .shim b => (net.shim.system.step s.shim b).map fun shim => { s with shim }
    | .proxy hex b => ((net.outlay hex).env.system.step (s.proxies hex) b).map fun p =>
        { s with proxies := Function.update s.proxies hex p }
  else none

/-- The system of the shim and the proxies. -/
def system : System net.State Action where
  init := ⟨net.shim.system.init, fun hex => (net.outlay hex).env.system.init⟩
  step := net.step

variable {net} {s s' : net.State}

/-- A step of a network is one of the shim, or of a proxy. -/
theorem step_cases {a : Action} (h : net.system.step s a = some s') : net.carries s a = true ∧
    ((∃ b shim, a = .shim b ∧ net.shim.system.step s.shim b = some shim ∧
        s' = { s with shim }) ∨
      ∃ hex b p, a = .proxy hex b ∧ (net.outlay hex).env.system.step (s.proxies hex) b = some p ∧
        s' = { s with proxies := Function.update s.proxies hex p }) := by
  simp only [system, step] at h
  split_ifs at h with hc
  refine ⟨hc, ?_⟩
  cases a with
  | shim b =>
    obtain ⟨shim, hst, rfl⟩ := Option.map_eq_some_iff.1 h
    exact .inl ⟨b, shim, rfl, hst, rfl⟩
  | proxy hex b =>
    obtain ⟨p, hst, rfl⟩ := Option.map_eq_some_iff.1 h
    exact .inr ⟨hex, b, p, rfl, hst, rfl⟩

/-- The shim of a network runs as it does alone. -/
theorem shim_reachable (hs : net.system.Reachable s) : net.shim.system.Reachable s.shim := by
  refine hs.project (N := net.shim.system) (f := State.shim) rfl fun s a s' hst => ?_
  obtain ⟨-, ⟨b, shim, rfl, hb, rfl⟩ | ⟨hex, b, p, rfl, -, rfl⟩⟩ := step_cases hst
  exacts [.inr ⟨b, hb⟩, .inl rfl]

/-! ## The view of an outlay -/

theorem connOf_of_bridged (hex : String) {visit : Shim.Visit} {parsed : Shim.ParsedPath}
    {t : Shim.TransportCache.Transport} (h : visit.stage = .bridged parsed t) :
    connOf hex visit = if t.config.serverPubkey = hex then visit.conn else .fresh := by
  simp only [connOf, h]

theorem connOf_of_not_bridged {hex : String} {visit : Shim.Visit}
    (h : ∀ parsed t, visit.stage ≠ .bridged parsed t) : connOf hex visit = .fresh := by
  rw [connOf]
  split
  next hst => exact absurd hst (h _ _)
  next => rfl

/-- A visit that is bridged starts with a connection on which nothing has happened. -/
theorem connOf_of_fresh {hex : String} {visit : Shim.Visit} (h : visit.conn = .fresh) :
    connOf hex visit = .fresh := by
  rw [connOf]
  split
  next => split_ifs <;> simp [h]
  next => rfl

/-- A visit that goes on, other than by its connection, looks the same to all outlays. -/
theorem connOf_move {shim : net.shim.State} {v : ℕ} {visit : Shim.Visit} {a : Server.Action}
    {cache : Shim.TransportCache.State net.shim.cache.cap}
    (h : net.shim.Handled shim.cache (shim.visits v)) (hm : net.shim.Move shim v a visit cache)
    (ha : ∀ b, a ≠ .bridge v b) (hex : String) :
    connOf hex visit = connOf hex (shim.visits v) := by
  -- Before it was not bridged, and nothing had happened on its connection.
  have hfresh : (∀ parsed t, (shim.visits v).stage ≠ .bridged parsed t) →
      (shim.visits v).conn = .fresh := fun hnot => by
    by_contra hne
    obtain ⟨parsed, t, hb⟩ := h.conn hne
    exact hnot parsed t hb
  have hsame : (∀ parsed t, (shim.visits v).stage ≠ .bridged parsed t) →
      visit.conn = (shim.visits v).conn → connOf hex visit = connOf hex (shim.visits v) :=
    fun hnot hconn => by
      rw [connOf_of_not_bridged hnot, connOf_of_fresh (hconn.trans (hfresh hnot))]
  cases hm with
  | bridge _ _ => exact absurd rfl (ha _)
  | arrive hst =>
    refine hsame (by simp [hst]) ?_
    obtain ⟨stage, reply, -, heq⟩ := Server.exists_router_eq net.shim _
    exact (congrArg Shim.Visit.conn heq).trans (hfresh (by simp [hst])).symm
  | resume hst _ =>
    obtain ⟨stage, reply, -, heq⟩ := Server.exists_resume_eq (shim.visits v) _ _
    exact hsame (by simp [hst]) ((congrArg Shim.Visit.conn heq).trans rfl)
  | enter hst _ | answer hst | notice hst | close hst => exact hsame (by simp [hst]) rfl
  | abandon _ hw _ =>
    refine hsame (fun parsed t hst => ?_) rfl
    simp [hst, Shim.VisitStage.waiting] at hw

/-- A connection that does a step does it in the view of the outlay that it is bridged to, and
    is not seen by the others. -/
theorem view_bridge {v : ℕ} {parsed : Shim.ParsedPath} {t : Shim.TransportCache.Transport}
    (hb : (s.shim.visits v).stage = .bridged parsed t) (conn : Shim.Conn) (hex : String) :
    State.view { s with shim := s.shim.setVisit v { s.shim.visits v with conn } } hex =
      if t.config.serverPubkey = hex then
        { s.view hex with conns := Function.update (s.view hex).conns v conn }
      else s.view hex := by
  have hv := connOf_of_bridged hex hb
  have hv' : connOf hex { s.shim.visits v with conn } =
      if t.config.serverPubkey = hex then conn else .fresh := connOf_of_bridged hex hb
  have hconns : ∀ w, connOf hex (Function.update s.shim.visits v
      { s.shim.visits v with conn } w) =
        Function.update (s.view hex).conns v
          (if t.config.serverPubkey = hex then conn else .fresh) w := by
    intro w
    by_cases hw : w = v
    · subst hw
      rw [Function.update_self, Function.update_self, hv']
    · rw [Function.update_of_ne hw, Function.update_of_ne hw]
      rfl
  by_cases h : t.config.serverPubkey = hex
  · rw [if_pos h]
    refine congrArg (Deployment.State.mk (s.proxies hex)) (funext fun w => (hconns w).trans ?_)
    rw [if_pos h]
  · rw [if_neg h]
    have hfresh : (s.view hex).conns v = .fresh := hv.trans (if_neg h)
    refine congrArg (Deployment.State.mk (s.proxies hex)) (funext fun w => (hconns w).trans ?_)
    rw [if_neg h, ← hfresh, Function.update_eq_self]
    rfl

/-- Seen from an outlay, a network runs as the deployment of this outlay does alone, under a
    condition on the actions seen. -/
theorem view_reachableBy {C : net.State → Action → Prop}
    {C' : Deployment.State Filter → Deployment.Action → Prop} {hex : String}
    (hproxy : ∀ s a, C s (.proxy hex a) → C' (s.view hex) (.proxy a))
    (hconn : ∀ s v a, C s (.shim (.bridge v a)) → C' (s.view hex) (.conn v a))
    (hs : net.system.ReachableBy C s) :
    (net.outlay hex).system.ReachableBy C' (s.view hex) := by
  refine hs.invariant (P := fun s => (net.outlay hex).system.ReachableBy C' (s.view hex)) .init
    fun s a s' hs h ha hst => ?_
  obtain ⟨hcar, ⟨b, shim, rfl, hb, rfl⟩ | ⟨key, b, p, rfl, hp, rfl⟩⟩ := step_cases hst
  · obtain ⟨_, cache, -, -, -, -, rfl⟩ | ⟨v, visit, cache, hm, rfl⟩ := Server.step_cases hb
    · exact h
    · by_cases hbridge : ∃ c, b = .bridge v c
      · obtain ⟨c, rfl⟩ := hbridge
        cases hm with
        | @bridge parsed t _ conn hstage hc =>
          have hview := view_bridge hstage conn hex
          simp only [Server.State.setVisit] at hview
          rw [hview]
          split_ifs with hhex
          · -- The outlay that the visit is bridged to sees its connection do the step.
            subst hhex
            have hvisit : (s.view t.config.serverPubkey).conns v = (s.shim.visits v).conn :=
              (connOf_of_bridged _ hstage).trans (if_pos rfl)
            simp only [carries, hstage] at hcar
            refine .step h (hconn s v c ha) ?_
            simp only [Deployment.system, Deployment.step, hcar, if_true, hvisit,
              net.decode_eq t.config.serverPubkey, hc, Option.map_some]
          · exact h
      · have hsame : (State.mk (Server.State.mk cache (Function.update s.shim.visits v visit))
            s.proxies : net.State).view hex = s.view hex := by
          refine congrArg (Deployment.State.mk (s.proxies hex)) (funext fun w => ?_)
          by_cases hw : w = v
          · subst hw
            have hhandled := Server.handled (shim_reachable hs.reachable) w
            simpa using connOf_move hhandled hm (fun c hc => hbridge ⟨c, hc⟩) hex
          · simp [Function.update_of_ne hw]
        rw [hsame]
        exact h
  · by_cases hkey : key = hex
    · subst hkey
      simp only [carries] at hcar
      have hview : (net.outlay key).env.system.step (s.view key).proxy b = some p := hp
      refine .step h (hproxy s b ha) ?_
      simp only [Deployment.system, Deployment.step, hcar, if_true, hview, Option.map_some]
      simp [State.view]
    · rw [show State.view { s with proxies := Function.update s.proxies key p } hex = s.view hex by
        simp [State.view, Function.update_of_ne (Ne.symm hkey)]]
      exact h

/-! ## The law -/

/-- A network, seen from the shim, from its outlays and from its visitors. -/
structure Refines (net : Network PublicKey RelayUrl Filter) (s : net.State) : Prop where
  /-- The shim runs as it does alone. -/
  shim : net.shim.system.Reachable s.shim
  /-- Every outlay runs as it does in a deployment of its own, with the visits bridged to it. -/
  outlay : ∀ hex, (net.outlay hex).system.Reachable (s.view hex)
  /-- A visit that is bridged is served by the outlay that its path names; -/
  served : ∀ v parsed t, (s.shim.visits v).stage = .bridged parsed t →
    net.shim.Names (s.shim.visits v).request parsed ∧
      (s.view parsed.hex).conns v = (s.shim.visits v).conn
  /-- no other outlay sees anything of it, and none anything of a visit that is not bridged. -/
  unseen : ∀ v hex, (∀ parsed t, (s.shim.visits v).stage = .bridged parsed t → parsed.hex ≠ hex) →
    (s.view hex).conns v = .fresh

/-- Whatever the interleaving, the parties of a network are those of a shim and of the
    deployments of its outlays. -/
theorem refines (hs : net.system.Reachable s) : Refines net s where
  shim := shim_reachable hs
  outlay _ := view_reachableBy (fun _ _ _ => trivial) (fun _ _ _ _ => trivial) hs
  served v parsed t hb := by
    -- The transport that its call has returned is one of the outlay it has named.
    obtain ⟨hn, -, hkey⟩ := Server.got_of_bridged (shim_reachable hs) hb
    exact ⟨hn, (connOf_of_bridged _ hb).trans (if_pos hkey)⟩
  unseen v hex hne := by
    by_cases hb : ∃ parsed t, (s.shim.visits v).stage = .bridged parsed t
    · obtain ⟨parsed, t, hb⟩ := hb
      obtain ⟨-, -, hkey⟩ := Server.got_of_bridged (shim_reachable hs) hb
      exact (connOf_of_bridged _ hb).trans (if_neg (hkey ▸ hne parsed t hb))
    · exact connOf_of_not_bridged fun parsed t h => hb ⟨parsed, t, h⟩

/-! ## Two visitors of two outlays -/

/-- A shim whose visitors all pick the sub_id `sub1`. -/
def sample : Network Shim.NostrCodec.HexKey String Json where
  shim := { Server.sample with decode := Json.parse some }
  outlay _ := Deployment.sameSub
  decode_eq _ := rfl

/-- The key of the other outlay. -/
def otherKey : String := .ofList (List.replicate 64 'a')

/-- A visitor comes to the outlay that `pubkey` names, as the visit `v`, and subscribes. -/
def comes (v : ℕ) (pubkey : String) : List Action :=
  [.shim (.arrive v ⟨some pubkey, true, .ok (), none⟩), .shim (.enter v),
    .shim (.cache (.build v)), .shim (.cache (.built v (.ok ()))), .shim (.cache (.ret v)),
    .shim (.resume v), .shim (.bridge v (.inbound (.text "[\"REQ\",\"sub1\",\x7b\x7d]")))]

/-- The upstream of the first outlay has an event for its visitor. -/
def twoOutlays : List Action :=
  let key := Shim.NostrCodec.sampleKey.1
  comes 0 Shim.NostrCodec.sampleNpub ++ comes 1 otherKey ++
    [.proxy key (.call 0 .begin), .proxy key (.call 0 .issue),
      .proxy key (.call 0 (.answer (.ok ()))), .proxy key (.call 0 .start),
      .shim (.bridge 0 (.task 0 .established)),
      .proxy key (.notify (.message "wss://up" (.event "u" (.obj [])))),
      .proxy key (.call 0 .recv), .proxy key (.call 0 (.write true)),
      .shim (.bridge 0 (.task 0 (.chunk "[\"EVENT\",\"sub1\",\x7b\x7d]"))),
      .shim (.bridge 0 (.send 0)), .shim (.bridge 0 .recv)]

/-- The first visitor is given the event, and the other outlay has seen nothing of this. -/
theorem refines_twoOutlays : ∃ s : sample.State,
    (s.shim.visits 0).conn.given = [(0, "[\"EVENT\",\"sub1\",\x7b\x7d]")] ∧
      (s.proxies otherKey).bus.log = [] ∧ ((s.view otherKey).conns 1).inbound.length = 1 ∧
        ((s.view otherKey).conns 0).inbound = [] ∧ Refines sample s := by
  obtain ⟨s, hs, hp⟩ := System.exists_reachableBy (M := sample.system) (C := fun _ _ => True)
    twoOutlays (fun s => decide (
      (s.shim.visits 0).conn.given = [(0, "[\"EVENT\",\"sub1\",\x7b\x7d]")] ∧
      (s.proxies otherKey).bus.log.length = 0 ∧
      ((s.view otherKey).conns 1).inbound.length = 1 ∧
      ((s.view otherKey).conns 0).inbound.length = 0)) (by decide +kernel)
  obtain ⟨hg, hlog, h₁, h₀⟩ := of_decide_eq_true hp
  exact ⟨s, hg, List.length_eq_zero_iff.1 hlog, h₁, List.length_eq_zero_iff.1 h₀, refines hs⟩

end Network

end Outlay

import Outlay.Shim.Link
import Outlay.Shim.Outbound
import Outlay.Shim.Sharing

/-!
# The server of the shim

The visits to the shim, as a system of concurrent parties: each is a request, which is
routed by its path and its `Upgrade` header, parsed, served a transport of the outlay its
path names by the cache that all visits share, and then answered with the document of the
outlay, or bridged to it.

* A visit *arrives*: it is routed, and its path is parsed. It then *enters* the cache,
  whose calls of `get` go on by themselves, and *resumes* when its own call has returned.
* A visit of a client that does not ask for an upgrade may be *abandoned*: its handler is
  dropped, with its call.
* A bridged visit goes on as the connection it is (`Conn.system`).

`served` says what every visit comes to, in every run.
-/

namespace Outlay.Shim

open Async

/-- A request, as far as the handlers look at it. -/
structure Request where
  /-- The segment of its path; `/` has none. -/
  segment : Option String
  /-- It has an `Upgrade` header. -/
  upgrade : Bool
  /-- What the handshake of the upgrade comes to. -/
  handshake : Except String Unit
  /-- Its `Accept` header. -/
  accept : Option String

/-- What a request is answered with. -/
inductive Reply
  /-- The upgrade. -/
  | switching
  | response (r : Response)

/-- Where a visit is. -/
inductive VisitStage
  | absent
  /-- About to call `get`. -/
  | entering (parsed : ParsedPath)
  /-- Waiting for its call `g` of `get`. -/
  | getting (parsed : ParsedPath) (g : ℕ)
  /-- Waiting for the document of the outlay. -/
  | asking (parsed : ParsedPath) (t : TransportCache.Transport)
  /-- Sending a notice before the socket is closed. -/
  | noticing (text : String)
  /-- Closing the socket. -/
  | closing
  /-- In the loop of `handle_ws`. -/
  | bridged (parsed : ParsedPath) (t : TransportCache.Transport)
  /-- In the relay pipe. -/
  | piped
  | done

/-- The visit waits for the outlay, or for its transport. -/
def VisitStage.waiting : VisitStage → Bool
  | .entering _ | .getting _ _ | .asking _ _ => true
  | _ => false

/-- A visit. -/
structure Visit where
  request : Request
  stage : VisitStage
  /-- The call of `get` that it has made. -/
  call : Option ℕ
  reply : Option Reply
  /-- What the outlay has answered to `relay_info`, and the transport it was asked through. -/
  answer : Option (TransportCache.Transport × Except String (Option Json))
  /-- The frames sent before the socket is closed, and whether the socket has taken them. -/
  notices : List (String × Bool)
  /-- The connection, once it is bridged. -/
  conn : Conn

/-- A visit that has not arrived. -/
def Visit.absent : Visit where
  request := ⟨none, false, .ok (), none⟩
  stage := .absent
  call := none
  reply := none
  answer := none
  notices := []
  conn := .fresh

/-- `get` has returned. -/
def Visit.resume (visit : Visit) (parsed : ParsedPath) :
    Except String TransportCache.Transport → Visit
  | .ok t => { visit with
      stage := if visit.request.upgrade then .bridged parsed t else .asking parsed t }
  | .error e =>
    if visit.request.upgrade then { visit with stage := .noticing ("error: " ++ e) }
    else { visit with stage := .done, reply := some (.response (plain 502 e)) }

/-- The document of the shim itself. -/
def synthRoot : Json :=
  .obj [("description", .str ("Local NIP-01 bridge to CVM-exposed outlay servers. " ++
      "Connect at /<server-pubkey> (hex, npub, or nprofile).")),
    ("limitation", .obj [("bridge", .bool true)]), ("name", .str "outlay-shim"),
    ("software", .str "outlay-shim"), ("supported_nips", .arr [.num "1", .num "11"]),
    ("version", .str "0.4.0")]

/-- Serve the document of the shim. -/
def serveRoot (accept : Option String) : Response := render synthRoot accept none

/-- The server, and what it depends on. -/
structure Server (PublicKey RelayUrl : Type*) where
  state : AppState
  nostr : NostrCodec PublicKey RelayUrl
  /-- The decoding of the visitors' frames. -/
  decode : String → Option Json

namespace Server

variable {PublicKey RelayUrl : Type*} (server : Server PublicKey RelayUrl)

/-- The transport cache. -/
abbrev cache : TransportCache := server.state.transports

/-- The state of the server. -/
structure State where
  cache : TransportCache.State server.cache.cap
  visits : ℕ → Visit

/-- The actions of the server. -/
inductive Action
  /-- A request arrives. -/
  | arrive (v : ℕ) (request : Request)
  /-- The call of `get` of a visit accesses the map. -/
  | enter (v : ℕ)
  /-- A call of `get` goes on. -/
  | cache (a : TransportCache.Action)
  /-- The call of `get` of a visit has returned. -/
  | resume (v : ℕ)
  /-- `relay_info` returns. -/
  | answer (v : ℕ) (r : Except String (Option Json))
  /-- The send of a notice completes. -/
  | notice (v : ℕ) (ok : Bool)
  /-- The socket is closed. -/
  | close (v : ℕ)
  /-- A bridged connection acts. -/
  | bridge (v : ℕ) (a : ConnAction)
  /-- The client of a visit without upgrade goes away. -/
  | abandon (v : ℕ)

/-- `root_handler`. -/
def rootHandler (visit : Visit) : Visit :=
  if server.state.relayUrl.isSome && visit.request.upgrade then
    match visit.request.handshake with
    | .ok _ => { visit with stage := .piped, reply := some .switching }
    | .error rej => { visit with stage := .done, reply := some (.response (plain 400 rej)) }
  else { visit with
    stage := .done, reply := some (.response (serveRoot visit.request.accept)) }

/-- `handle_ws`, up to its call of `get`. -/
def handleWs (visit : Visit) (pubkey : String) : Visit :=
  match server.nostr.parsePath pubkey with
  | .ok parsed => { visit with stage := .entering parsed }
  | .error e => { visit with stage := .noticing ("error: " ++ e.text) }

/-- `serve_pubkey`, up to its call of `get`. -/
def serveDocument (visit : Visit) (pubkey : String) : Visit :=
  match server.nostr.parsePath pubkey with
  | .ok parsed => { visit with stage := .entering parsed }
  | .error e => { visit with stage := .done, reply := some (.response (plain 400 e.text)) }

/-- `pubkey_handler`. -/
def pubkeyHandler (visit : Visit) (pubkey : String) : Visit :=
  if visit.request.upgrade then
    match visit.request.handshake with
    | .ok _ => server.handleWs { visit with reply := some .switching } pubkey
    | .error rej => { visit with stage := .done, reply := some (.response (plain 400 rej)) }
  else server.serveDocument visit pubkey

/-- The routes. -/
def router (request : Request) : Visit :=
  let visit := { Visit.absent with request }
  match request.segment with
  | none => server.rootHandler visit
  | some pubkey => server.pubkeyHandler visit pubkey

/-- `relay_info` has returned. -/
def answered (visit : Visit) (parsed : ParsedPath) (t : TransportCache.Transport)
    (r : Except String (Option Json)) : Visit := { visit with
  stage := .done
  answer := some (t, r)
  reply := some (.response (match r with
    | .ok content => render (content.getD .null) visit.request.accept
        (jumble server.state.config.toShimConfig parsed)
    | .error e => plain 502 ("relay_info: " ++ e))) }

variable {server}

/-- A visit changes. -/
@[simps] def State.setVisit (s : server.State) (v : ℕ) (visit : Visit) : server.State :=
  { s with visits := Function.update s.visits v visit }

variable (server)

/-- A step of the server. -/
def step (s : server.State) : Action → Option server.State
  | .arrive v request =>
    match (s.visits v).stage with
    | .absent => some (s.setVisit v (server.router request))
    | _ => none
  | .enter v =>
    match (s.visits v).stage with
    | .entering parsed => (server.cache.system.step s.cache (.access parsed)).map fun cache =>
        { s with cache }.setVisit v { s.visits v with
          stage := .getting parsed s.cache.started
          call := some s.cache.started }
    | _ => none
  | .cache a =>
    match a with
    -- Calls are made, and dropped, by the visits.
    | .access _ | .drop _ => none
    | .build _ | .built _ _ | .ret _ =>
      (server.cache.system.step s.cache a).map fun cache => { s with cache }
  | .resume v =>
    match (s.visits v).stage with
    | .getting parsed g =>
      match (s.cache.gets g).stage with
      | .returned r => some (s.setVisit v ((s.visits v).resume parsed r))
      | _ => none
    | _ => none
  | .answer v r =>
    match (s.visits v).stage with
    | .asking parsed t => some (s.setVisit v (server.answered (s.visits v) parsed t r))
    | _ => none
  | .notice v ok =>
    match (s.visits v).stage with
    -- The socket is closed even if the notice cannot be sent.
    | .noticing text => some (s.setVisit v { s.visits v with
        stage := .closing
        notices := (s.visits v).notices ++ [(noticeFrame text, ok)] })
    | _ => none
  | .close v =>
    match (s.visits v).stage with
    | .closing => some (s.setVisit v { s.visits v with stage := .done })
    | _ => none
  | .bridge v a =>
    match (s.visits v).stage with
    | .bridged _ _ => (Conn.step server.decode (s.visits v).conn a).map fun conn =>
        s.setVisit v { s.visits v with conn }
    | _ => none
  | .abandon v =>
    if (s.visits v).request.upgrade then none else
    match (s.visits v).stage with
    | .entering _ | .asking _ _ => some (s.setVisit v { s.visits v with stage := .done })
    | .getting _ g =>
      match server.cache.system.step s.cache (.drop g) with
      | some cache => some ({ s with cache }.setVisit v { s.visits v with stage := .done })
      -- The call has returned already.
      | none => some (s.setVisit v { s.visits v with stage := .done })
    | _ => none

/-- The system of the visits. -/
def system : System server.State Action where
  init := ⟨server.cache.system.init, fun _ => .absent⟩
  step := server.step

/-! ## What a step can do -/

/-- What a step of the server does to a visit, and to the cache. -/
inductive Move (s : server.State) (v : ℕ) :
    Action → Visit → TransportCache.State server.cache.cap → Prop
  | arrive {request : Request} (hs : (s.visits v).stage = .absent) :
      Move s v (.arrive v request) (server.router request) s.cache
  | enter {parsed : ParsedPath} {cache : TransportCache.State server.cache.cap}
      (hs : (s.visits v).stage = .entering parsed)
      (hc : server.cache.system.step s.cache (.access parsed) = some cache) :
      Move s v (.enter v) { s.visits v with
        stage := .getting parsed s.cache.started
        call := some s.cache.started } cache
  | resume {parsed : ParsedPath} {g : ℕ} {r : Except String TransportCache.Transport}
      (hs : (s.visits v).stage = .getting parsed g)
      (hr : (s.cache.gets g).stage = .returned r) :
      Move s v (.resume v) ((s.visits v).resume parsed r) s.cache
  | answer {parsed : ParsedPath} {t : TransportCache.Transport} {r : Except String (Option Json)}
      (hs : (s.visits v).stage = .asking parsed t) :
      Move s v (.answer v r) (server.answered (s.visits v) parsed t r) s.cache
  | notice {text : String} {ok : Bool} (hs : (s.visits v).stage = .noticing text) :
      Move s v (.notice v ok) { s.visits v with
        stage := .closing
        notices := (s.visits v).notices ++ [(noticeFrame text, ok)] } s.cache
  | close (hs : (s.visits v).stage = .closing) :
      Move s v (.close v) { s.visits v with stage := .done } s.cache
  | bridge {parsed : ParsedPath} {t : TransportCache.Transport} {a : ConnAction} {conn : Conn}
      (hs : (s.visits v).stage = .bridged parsed t)
      (hc : Conn.step server.decode (s.visits v).conn a = some conn) :
      Move s v (.bridge v a) { s.visits v with conn } s.cache
  | abandon {cache : TransportCache.State server.cache.cap}
      (hu : (s.visits v).request.upgrade = false) (hs : (s.visits v).stage.waiting = true)
      (hc : cache = s.cache ∨ ∃ parsed g, (s.visits v).stage = .getting parsed g ∧
        server.cache.system.step s.cache (.drop g) = some cache) :
      Move s v (.abandon v) { s.visits v with stage := .done } cache

variable {server} {s s' : server.State}

/-- A step of the server is one of the cache alone, or one of a visit. -/
theorem step_cases {a : Action} (h : server.system.step s a = some s') :
    (∃ b cache, a = .cache b ∧ (∀ parsed, b ≠ .access parsed) ∧ (∀ g, b ≠ .drop g) ∧
        server.cache.system.step s.cache b = some cache ∧ s' = { s with cache }) ∨
      ∃ v visit cache, server.Move s v a visit cache ∧
        s' = ⟨cache, Function.update s.visits v visit⟩ := by
  cases a with
  | arrive v request =>
    simp only [system, step] at h
    split at h
    next hs => obtain rfl := Option.some.inj h; exact .inr ⟨v, _, _, .arrive hs, rfl⟩
    next => cases h
  | enter v =>
    simp only [system, step] at h
    split at h
    next hs =>
      obtain ⟨cache, hc, rfl⟩ := Option.map_eq_some_iff.1 h
      exact .inr ⟨v, _, _, .enter hs hc, rfl⟩
    next => cases h
  | cache b =>
    simp only [system, step] at h
    split at h
    next => cases h
    next => cases h
    all_goals
      obtain ⟨cache, hc, rfl⟩ := Option.map_eq_some_iff.1 h
      exact .inl ⟨_, cache, rfl, nofun, nofun, hc, rfl⟩
  | resume v =>
    simp only [system, step] at h
    split at h
    next hs =>
      split at h
      next hr => obtain rfl := Option.some.inj h; exact .inr ⟨v, _, _, .resume hs hr, rfl⟩
      next => cases h
    next => cases h
  | answer v r =>
    simp only [system, step] at h
    split at h
    next hs => obtain rfl := Option.some.inj h; exact .inr ⟨v, _, _, .answer hs, rfl⟩
    next => cases h
  | notice v ok =>
    simp only [system, step] at h
    split at h
    next hs => obtain rfl := Option.some.inj h; exact .inr ⟨v, _, _, .notice hs, rfl⟩
    next => cases h
  | close v =>
    simp only [system, step] at h
    split at h
    next hs => obtain rfl := Option.some.inj h; exact .inr ⟨v, _, _, .close hs, rfl⟩
    next => cases h
  | bridge v b =>
    simp only [system, step] at h
    split at h
    next hs =>
      obtain ⟨conn, hc, rfl⟩ := Option.map_eq_some_iff.1 h
      exact .inr ⟨v, _, _, .bridge hs hc, rfl⟩
    next => cases h
  | abandon v =>
    simp only [system, step] at h
    split_ifs at h with hu
    have hu := Bool.eq_false_of_not_eq_true hu
    split at h
    next hs =>
      obtain rfl := Option.some.inj h
      exact .inr ⟨v, _, _, .abandon hu (by rw [hs]; rfl) (.inl rfl), rfl⟩
    next hs =>
      obtain rfl := Option.some.inj h
      exact .inr ⟨v, _, _, .abandon hu (by rw [hs]; rfl) (.inl rfl), rfl⟩
    next hs =>
      split at h <;> obtain rfl := Option.some.inj h
      next hc => exact .inr ⟨v, _, _, .abandon hu (by rw [hs]; rfl) (.inr ⟨_, _, hs, hc⟩), rfl⟩
      next => exact .inr ⟨v, _, _, .abandon hu (by rw [hs]; rfl) (.inl rfl), rfl⟩
    next => cases h

/-- Resuming, a visit goes on to another stage, and may be replied to. -/
theorem exists_resume_eq (visit : Visit) (parsed : ParsedPath)
    (r : Except String TransportCache.Transport) :
    ∃ stage reply, (∀ p g, stage ≠ .getting p g) ∧
      visit.resume parsed r = { visit with stage, reply } := by
  rw [Visit.resume.eq_def]
  cases r with
  | ok t =>
    cases visit.request.upgrade
    exacts [⟨.asking parsed t, visit.reply, nofun, rfl⟩,
      ⟨.bridged parsed t, visit.reply, nofun, rfl⟩]
  | error e =>
    cases visit.request.upgrade
    exacts [⟨.done, _, nofun, rfl⟩, ⟨.noticing _, visit.reply, nofun, rfl⟩]

variable (server) in
/-- So does a visit that arrives. -/
theorem exists_router_eq (request : Request) :
    ∃ stage reply, (∀ p g, stage ≠ .getting p g) ∧
      server.router request = { Visit.absent with request, stage, reply } := by
  have hparse : ∀ (visit : Visit) pubkey,
      (∃ stage reply, (∀ p g, stage ≠ .getting p g) ∧
        server.handleWs visit pubkey = { visit with stage, reply }) ∧
      ∃ stage reply, (∀ p g, stage ≠ .getting p g) ∧
        server.serveDocument visit pubkey = { visit with stage, reply } := fun visit pubkey => by
    rw [handleWs, serveDocument]
    cases server.nostr.parsePath pubkey with
    | ok parsed => exact ⟨⟨.entering parsed, visit.reply, nofun, rfl⟩,
        .entering parsed, visit.reply, nofun, rfl⟩
    | error _ => exact ⟨⟨.noticing _, visit.reply, nofun, rfl⟩, .done, _, nofun, rfl⟩
  rw [router]
  cases request.segment with
  | none =>
    simp only [rootHandler]
    split_ifs
    · cases request.handshake
      exacts [⟨.done, _, nofun, rfl⟩, ⟨.piped, _, nofun, rfl⟩]
    · exact ⟨.done, _, nofun, rfl⟩
  | some pubkey =>
    simp only [pubkeyHandler]
    split_ifs
    · cases request.handshake with
      | ok _ => exact (hparse { Visit.absent with request, reply := some .switching } pubkey).1
      | error _ => exact ⟨.done, _, nofun, rfl⟩
    · exact (hparse _ pubkey).2

/-- A visit that goes on leaves the cache, or does a step on it. -/
theorem Move.cache {v : ℕ} {a : Action} {visit : Visit}
    {cache : TransportCache.State server.cache.cap} (h : server.Move s v a visit cache) :
    cache = s.cache ∨ ∃ b, server.cache.system.step s.cache b = some cache := by
  cases h with
  | enter _ hc => exact .inr ⟨_, hc⟩
  | abandon _ _ hc => exact hc.imp id fun ⟨_, _, _, hc⟩ => ⟨_, hc⟩
  | arrive _ | resume _ _ | answer _ | notice _ | close _ | bridge _ _ => exact .inl rfl

/-- The cache of a server runs as it does alone. -/
theorem cache_reachable (hs : server.system.Reachable s) :
    server.cache.system.Reachable s.cache := by
  refine hs.project (N := server.cache.system) (f := State.cache) rfl fun s a s' hst => ?_
  obtain ⟨b, cache, -, -, -, hc, rfl⟩ | ⟨v, visit, cache, hm, rfl⟩ := step_cases hst
  · exact .inr ⟨b, hc⟩
  · exact hm.cache

end Server

end Outlay.Shim

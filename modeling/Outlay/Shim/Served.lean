import Outlay.Shim.Server

/-!
# What a visit comes to

Every visit is served what its own request asks for, whatever the other visits do: the
transport it goes on with is the one that its own call has returned, of the outlay that its
path names, a response is the one `servePubkey` makes of what this call has fetched, and a
visit whose path names no outlay is told so, and never touches the cache that all visits
share (`served`).

So the cache only ever holds outlays that visits have named, each under the canonical hex
of its key, however they have spelled it (`identified`).

* `Handled` is the invariant of one visit.
-/

namespace Outlay.Shim

open Async

namespace TransportCache

variable {env : TransportCache} {s s' : State env.cap}

/-- A call that has returned stays so. -/
theorem Step.returned {a : Action} (hC : Consistent env s) (h : Step env s a s') {g : ℕ}
    {r : Except String Transport} (hg : (s.gets g).stage = .returned r) :
    (s'.gets g).stage = .returned r := by
  have hlt : g ≠ s.started := (hC.started_of_stage (by simp [hg])).ne
  cases h with
  | hit _ | miss _ => simpa [Function.update_of_ne hlt] using hg
  | @move k _ _ _ hm =>
    have hk : g ≠ k := by
      rintro rfl
      have := hm.inProgress
      rw [hg] at this
      cases this
    rwa [move_gets_of_ne hk]

/-- The call, if there is one, is for the path, and has returned. -/
def Got (s : State env.cap) (call : Option ℕ) (parsed : ParsedPath)
    (r : Except String Transport) : Prop :=
  ∃ g, call = some g ∧ (s.gets g).path = parsed ∧ (s.gets g).stage = .returned r

section

variable {call : Option ℕ} {parsed parsed' : ParsedPath} {r r' : Except String Transport}

/-- What a call has returned remains. -/
theorem Got.step {a : Action} (hs : env.system.Reachable s)
    (hst : env.system.step s a = some s') (h : Got s call parsed r) : Got s' call parsed r := by
  obtain ⟨g, hcall, hpath, hg⟩ := h
  have hC := consistent hs
  have hlt := hC.started_of_stage (g := g) (by simp [hg])
  exact ⟨g, hcall, ((step_cases hst).keeps.2 g hlt).1.trans hpath,
    (step_cases hst).returned hC hg⟩

/-- A call returns once. -/
theorem Got.unique (h : Got s call parsed r) (h' : Got s call parsed' r') : r = r' := by
  obtain ⟨g, hcall, -, hg⟩ := h
  obtain ⟨g', hcall', -, hg'⟩ := h'
  obtain rfl := Option.some.inj (hcall.symm.trans hcall')
  exact GetStage.returned.inj (hg.symm.trans hg')

/-- A transport got for a path is one of the identity it names. -/
theorem Got.serverPubkey (hs : env.system.Reachable s) {t : Transport}
    (h : Got s call parsed (.ok t)) : t.config.serverPubkey = parsed.hex := by
  obtain ⟨g, -, rfl, hg⟩ := h
  have hC := consistent hs
  obtain ⟨hlt, hcell, hconf⟩ := hC.value _ t (hC.returned g t hg)
  have hg' := hC.started_of_stage (g := g) (by simp [hg])
  have hhex : s.hex t.builder = s.hex g := by
    rw [← (hC.cell _ hlt).2, ← (hC.cell g hg').2, State.cellOf, hcell]
  rw [hconf]
  exact hhex

end

/-- The identities that calls have been made for. -/
def named (s : State env.cap) : Finset String := (Finset.range s.started).image s.hex

/-- As long as no more identities have been named than there is room for, calls for one
    identity return one transport. -/
theorem eq_of_returned (hs : env.system.Reachable s) (hcard : (named s).card ≤ env.cap)
    {g h : ℕ} {t u : Transport} (hg : (s.gets g).stage = .returned (.ok t))
    (hh : (s.gets h).stage = .returned (.ok u)) (hhex : s.hex g = s.hex h) : t = u := by
  have hC := consistent hs
  have hlt : ∀ {g t}, (s.gets g).stage = .returned (.ok t) → g < s.started := fun hg =>
    hC.started_of_stage (by simp [hg])
  -- The others are fewer than all.
  have hothers : ∀ {i j}, i < s.started → j ≤ s.started → (s.others i j).card < env.cap := by
    intro i j hi hj
    have hmem : s.hex i ∈ named s := Finset.mem_image_of_mem _ (Finset.mem_range.2 hi)
    have hsub : s.others i j ⊆ (named s).erase (s.hex i) :=
      Finset.erase_subset_erase _ (Finset.image_subset_image fun k hk =>
        Finset.mem_range.2 ((Finset.mem_Ioo.1 hk).2.trans_le hj))
    exact (Finset.card_le_card hsub).trans_lt ((Finset.card_erase_lt_of_mem hmem).trans_le hcard)
  have hcell : (s.gets g).cell = (s.gets h).cell := by
    rcases lt_trichotomy g h with hgh | rfl | hgh
    · exact shared hs g h hgh (hlt hh) hhex (hothers (hlt hg) (hlt hh).le)
    · rfl
    · exact (shared hs h g hgh (hlt hg) hhex.symm (hothers (hlt hh) (hlt hg).le)).symm
  have ht := hC.returned g t hg
  rw [State.cellOf, hcell] at ht
  exact Option.some.inj (ht.symm.trans (hC.returned h u hh))

end TransportCache

open TransportCache (Got Transport)

/-- The visit is not over, or about to be. -/
def VisitStage.goesOn : VisitStage → Bool
  | .closing | .done => false
  | .absent | .entering _ | .getting _ _ | .asking _ _ | .noticing _ | .bridged _ _ | .piped => true

namespace Server

variable {PublicKey RelayUrl : Type*} (server : Server PublicKey RelayUrl)

/-- The path of the request names an outlay. -/
def Names (request : Request) (parsed : ParsedPath) : Prop :=
  ∃ pubkey, request.segment = some pubkey ∧ server.nostr.parsePath pubkey = .ok parsed

variable (cache : TransportCache.State server.cache.cap)

/-- The visitor, whose call of `get` is `call`, is told why its path is not served. -/
inductive Refused (request : Request) (call : Option ℕ) : String → Prop
  | malformed {pubkey : String} {e : PathError} (hr : request.segment = some pubkey)
      (he : server.nostr.parsePath pubkey = .error e) : Refused request call ("error: " ++ e.text)
  | failed {parsed : ParsedPath} {e : String} (hn : server.Names request parsed)
      (hg : Got cache call parsed (.error e)) : Refused request call ("error: " ++ e)

/-- What fetching the document of an outlay has come to, by the call `call` of `get`, and where
    the outlay has answered `answer` to `relay_info`. -/
inductive Fetched (call : Option ℕ) (answer : Option (Transport × Except String (Option Json)))
    (parsed : ParsedPath) : Except String Json → Prop
  | failed {e : String} (hg : Got cache call parsed (.error e)) :
      Fetched call answer parsed (.error e)
  | refused {t : Transport} {e : String} (hg : Got cache call parsed (.ok t))
      (ha : answer = some (t, .error e)) :
      Fetched call answer parsed (.error ("relay_info: " ++ e))
  | fetched {t : Transport} {content : Option Json} (hg : Got cache call parsed (.ok t))
      (ha : answer = some (t, .ok content)) :
      Fetched call answer parsed (.ok (content.getD .null))

/-- The responses to a request. -/
inductive Responds (request : Request) (call : Option ℕ)
    (answer : Option (Transport × Except String (Option Json))) : Response → Prop
  | rejected {rej : String} (hu : request.upgrade = true) (hr : request.handshake = .error rej)
      (hs : request.segment ≠ none ∨ server.state.relayUrl ≠ none) :
      Responds request call answer (plain 400 rej)
  | root (hr : request.segment = none)
      (hu : request.upgrade = false ∨ server.state.relayUrl = none) :
      Responds request call answer (serveRoot request.accept)
  | document {pubkey : String} {fetch : ParsedPath → Except String Json}
      (hr : request.segment = some pubkey) (hu : request.upgrade = false)
      (hf : ∀ parsed, server.nostr.parsePath pubkey = .ok parsed →
        server.Fetched cache call answer parsed (fetch parsed)) :
      Responds request call answer (servePubkey server.nostr fetch
        server.state.config.toShimConfig request.accept pubkey)

/-- What has been found out about a request, stage by stage. -/
def AtStage (request : Request) (call : Option ℕ) : VisitStage → Prop
  | .absent => request.segment = none ∧ call = none
  | .entering parsed => server.Names request parsed ∧ call = none
  | .getting parsed g =>
    server.Names request parsed ∧ call = some g ∧ (cache.gets g).path = parsed
  | .asking parsed t =>
    server.Names request parsed ∧ request.upgrade = false ∧ Got cache call parsed (.ok t)
  | .noticing text => request.upgrade = true ∧ server.Refused cache request call text
  | .bridged parsed t =>
    server.Names request parsed ∧ request.upgrade = true ∧ Got cache call parsed (.ok t)
  | .closing | .piped | .done => True

/-- The call that a visit has made is for the outlay its path names. -/
def Called (request : Request) (call : Option ℕ) : Prop :=
  ∀ g, call = some g → g < cache.started ∧ server.Names request (cache.gets g).path

/-- The socket of the visit is closed, or about to be, without its having been bridged. -/
def Dismissed (visit : Visit) : Prop :=
  visit.stage = .closing ∨ visit.stage = .done ∧ visit.reply = some .switching

/-- A visit has only been given what it should. -/
structure Handled (visit : Visit) : Prop where
  stage : server.AtStage cache visit.request visit.call visit.stage
  call : server.Called cache visit.request visit.call
  /-- Only a visit that has asked for it is switched, -/
  switched : visit.reply = some .switching → visit.request.upgrade = true
  /-- only one that is done has been responded to, -/
  response : ∀ r, visit.reply = some (.response r) → visit.stage = .done ∧
    server.Responds cache visit.request visit.call visit.answer r
  /-- only one whose socket is closed has been sent a notice, -/
  notices : visit.notices ≠ [] → (visit.stage = .closing ∨ visit.stage = .done) ∧
    ∃ text ok, server.Refused cache visit.request visit.call text ∧
      visit.notices = [(noticeFrame text, ok)]
  /-- and that has been sent one; -/
  told : Dismissed visit → visit.notices ≠ []
  /-- and only one that is bridged has a connection. -/
  conn : visit.conn ≠ .fresh → ∃ parsed t, visit.stage = .bridged parsed t
  run : (Conn.system server.decode).Reachable visit.conn

variable {server} {s s' : server.State} {v : ℕ} {visit : Visit}
  {cache cache' : TransportCache.State server.cache.cap}

/-! ## The cache goes on -/

section

variable (hs : server.cache.system.Reachable cache) {a : TransportCache.Action}
  (hst : server.cache.system.step cache a = some cache')

include hs hst

theorem Refused.step {request : Request} {call : Option ℕ} {text : String}
    (h : server.Refused cache request call text) : server.Refused cache' request call text := by
  cases h with
  | malformed hr he => exact .malformed hr he
  | failed hn hg => exact .failed hn (hg.step hs hst)

theorem Responds.step {request : Request} {call answer} {r : Response}
    (h : server.Responds cache request call answer r) :
    server.Responds cache' request call answer r := by
  cases h with
  | rejected hu hr hs => exact .rejected hu hr hs
  | root hr hu => exact .root hr hu
  | @document pubkey fetch hr hu hf =>
    refine .document hr hu fun parsed hp => ?_
    have hfetched := hf parsed hp
    generalize fetch parsed = x at hfetched ⊢
    cases hfetched with
    | failed hg => exact .failed (hg.step hs hst)
    | refused hg ha => exact .refused (hg.step hs hst) ha
    | fetched hg ha => exact .fetched (hg.step hs hst) ha

omit hs in
theorem Called.step {request : Request} {call : Option ℕ}
    (h : server.Called cache request call) : server.Called cache' request call := by
  intro g hg
  obtain ⟨hlt, hn⟩ := h g hg
  have hkeeps := (TransportCache.step_cases hst).keeps
  exact ⟨hlt.trans_le hkeeps.1, (hkeeps.2 g hlt).1.symm ▸ hn⟩

theorem AtStage.step {request : Request} {call : Option ℕ} {stage : VisitStage}
    (hc : server.Called cache request call) (h : server.AtStage cache request call stage) :
    server.AtStage cache' request call stage := by
  cases stage with
  | getting parsed g =>
    obtain ⟨hn, hcall, hpath⟩ := h
    have hkeeps := (TransportCache.step_cases hst).keeps
    exact ⟨hn, hcall, (hkeeps.2 g (hc g hcall).1).1.trans hpath⟩
  | asking _ _ | bridged _ _ => exact ⟨h.1, h.2.1, h.2.2.step hs hst⟩
  | noticing _ => exact ⟨h.1, h.2.step hs hst⟩
  | absent | entering _ | closing | piped | done => exact h

/-- Nothing that the cache does changes what a visit has been given. -/
theorem Handled.step (h : server.Handled cache visit) : server.Handled cache' visit where
  stage := h.stage.step hs hst h.call
  call := h.call.step hst
  switched := h.switched
  response r hr := (h.response r hr).imp id (Responds.step hs hst)
  notices hn := by
    obtain ⟨hstage, text, ok, hrefused, heq⟩ := h.notices hn
    exact ⟨hstage, text, ok, hrefused.step hs hst, heq⟩
  told := h.told
  conn := h.conn
  run := h.run

end

/-! ## A visit goes on -/

variable (server cache) in
/-- A visit that has been given nothing yet. -/
structure Quiet (visit : Visit) : Prop where
  call : server.Called cache visit.request visit.call
  switched : visit.reply = some .switching → visit.request.upgrade = true
  reply : ∀ r, visit.reply ≠ some (.response r)
  notices : visit.notices = []
  conn : visit.conn = .fresh

/-- A visit that has been given nothing may go on to any stage that is right. -/
theorem Quiet.goOn (h : server.Quiet cache visit) (stage : VisitStage)
    (hgo : stage.goesOn = true)
    (hstage : server.AtStage cache visit.request visit.call stage) :
    server.Handled cache { visit with stage } where
  stage := hstage
  call := h.call
  switched := h.switched
  response r hr := absurd hr (h.reply r)
  notices hn := absurd h.notices hn
  told hd := by
    rcases hd with rfl | ⟨rfl, -⟩ <;> cases hgo
  conn hc := absurd h.conn hc
  run := h.conn ▸ .init

/-- A visit without upgrade that has been given nothing may be abandoned. -/
theorem Quiet.abandon (h : server.Quiet cache visit) (hu : visit.request.upgrade = false) :
    server.Handled cache { visit with stage := .done } where
  stage := trivial
  call := h.call
  switched := h.switched
  response r hr := absurd hr (h.reply r)
  notices hn := absurd h.notices hn
  told hd := by
    rcases hd with hd | ⟨-, hsw⟩
    · cases hd
    · exact absurd (h.switched hsw) (by simp [hu])
  conn hc := absurd h.conn hc
  run := h.conn ▸ .init

/-- A visit that has been given nothing may be responded to. -/
theorem Quiet.respond (h : server.Quiet cache visit) {answer} {r : Response}
    (hr : server.Responds cache visit.request visit.call answer r) :
    server.Handled cache
      { visit with stage := .done, answer, reply := some (.response r) } where
  stage := trivial
  call := h.call
  switched hsw := by cases hsw
  response r' hr' := by
    obtain rfl := Reply.response.inj (Option.some.inj hr')
    exact ⟨rfl, hr⟩
  notices hn := absurd h.notices hn
  told hd := by
    rcases hd with hd | ⟨-, hsw⟩
    · cases hd
    · cases hsw
  conn hc := absurd h.conn hc
  run := h.conn ▸ .init

/-- The response that `servePubkey` makes of what was fetched. -/
theorem Responds.ofFetched {request : Request} {call answer} {pubkey : String}
    (fetched : Except String Json) (hseg : request.segment = some pubkey)
    (hu : request.upgrade = false) (hf : ∀ parsed, server.nostr.parsePath pubkey = .ok parsed →
      server.Fetched cache call answer parsed fetched) :
    server.Responds cache request call answer (servePubkey server.nostr (fun _ => fetched)
      server.state.config.toShimConfig request.accept pubkey) :=
  .document hseg hu hf

/-- Until its socket is closed, or it is done or bridged, a visit has been given nothing. -/
theorem Handled.quiet (h : server.Handled cache visit) (hc : visit.stage ≠ .closing)
    (hd : visit.stage ≠ .done) (hb : ∀ parsed t, visit.stage ≠ .bridged parsed t) :
    server.Quiet cache visit where
  call := h.call
  switched := h.switched
  reply r hr := hd (h.response r hr).1
  notices := by
    by_contra hn
    exact (h.notices hn).1.elim hc hd
  conn := by
    by_contra hn
    obtain ⟨parsed, t, ht⟩ := h.conn hn
    exact hb parsed t ht

/-! ## What the handlers do -/

/-- A visit whose upgrade is answered, and which has been given nothing. -/
theorem Quiet.switching (h : server.Quiet cache visit) (hu : visit.request.upgrade = true) :
    server.Quiet cache { visit with reply := some .switching } :=
  ⟨h.call, fun _ => hu, fun _ hr => (by cases hr), h.notices, h.conn⟩

theorem handled_rootHandler (h : server.Quiet cache visit)
    (hseg : visit.request.segment = none) :
    server.Handled cache (server.rootHandler visit) := by
  simp only [rootHandler]
  split_ifs with hu
  · obtain ⟨hrelay, hup⟩ := Bool.and_eq_true_iff.1 hu
    cases hh : visit.request.handshake with
    | ok _ => exact (h.switching hup).goOn .piped rfl trivial
    | error rej => exact h.respond (.rejected hup hh (.inr (Option.isSome_iff_ne_none.1 hrelay)))
  · refine h.respond (.root hseg ?_)
    cases hup : visit.request.upgrade with
    | false => exact .inl rfl
    | true => exact .inr (by simpa [hup] using hu)

theorem handled_handleWs (h : server.Quiet cache visit) {pubkey : String}
    (hseg : visit.request.segment = some pubkey) (hu : visit.request.upgrade = true)
    (hcall : visit.call = none) : server.Handled cache (server.handleWs visit pubkey) := by
  rw [handleWs]
  cases hp : server.nostr.parsePath pubkey with
  | ok parsed => exact h.goOn (.entering parsed) rfl ⟨⟨pubkey, hseg, hp⟩, hcall⟩
  | error e => exact h.goOn (.noticing _) rfl ⟨hu, .malformed hseg hp⟩

theorem handled_serveDocument (h : server.Quiet cache visit) {pubkey : String}
    (hseg : visit.request.segment = some pubkey) (hu : visit.request.upgrade = false)
    (hcall : visit.call = none) : server.Handled cache (server.serveDocument visit pubkey) := by
  rw [serveDocument]
  cases hp : server.nostr.parsePath pubkey with
  | ok parsed => exact h.goOn (.entering parsed) rfl ⟨⟨pubkey, hseg, hp⟩, hcall⟩
  | error e =>
    -- The document is not fetched.
    have hr : server.Responds cache visit.request visit.call visit.answer _ :=
      .ofFetched (.error "") hseg hu fun parsed hok => by rw [hp] at hok; cases hok
    simp only [servePubkey, hp] at hr
    exact h.respond hr

theorem handled_pubkeyHandler (h : server.Quiet cache visit) {pubkey : String}
    (hseg : visit.request.segment = some pubkey) (hcall : visit.call = none) :
    server.Handled cache (server.pubkeyHandler visit pubkey) := by
  rw [pubkeyHandler]
  split_ifs with hu
  · cases hh : visit.request.handshake with
    | ok _ => exact handled_handleWs (h.switching hu) hseg hu hcall
    | error rej => exact h.respond (.rejected hu hh (.inl (by simp [hseg])))
  · exact handled_serveDocument h hseg (Bool.eq_false_of_not_eq_true hu) hcall

/-- A visit that has just arrived has been given nothing. -/
theorem quiet_absent (request : Request) :
    server.Quiet cache { Visit.absent with request } where
  call _ h := by cases h
  switched h := by cases h
  reply _ h := by cases h
  notices := rfl
  conn := rfl

/-- A request that arrives is handled as it should be. -/
theorem handled_router (request : Request) : server.Handled cache (server.router request) := by
  rw [router]
  cases hseg : request.segment with
  | none => exact handled_rootHandler (quiet_absent request) hseg
  | some pubkey => exact handled_pubkeyHandler (quiet_absent request) hseg rfl

/-- A visit whose call of `get` has returned is handled as it should be. -/
theorem handled_resume (h : server.Quiet cache visit) {parsed : ParsedPath}
    {r : Except String Transport} (hn : server.Names visit.request parsed)
    (hg : Got cache visit.call parsed r) : server.Handled cache (visit.resume parsed r) := by
  rw [Visit.resume.eq_def]
  cases r with
  | ok t =>
    cases hu : visit.request.upgrade with
    | true => exact h.goOn (.bridged parsed t) rfl ⟨hn, hu, hg⟩
    | false => exact h.goOn (.asking parsed t) rfl ⟨hn, hu, hg⟩
  | error e =>
    cases hu : visit.request.upgrade with
    | true => exact h.goOn (.noticing _) rfl ⟨hu, .failed hn hg⟩
    | false =>
      obtain ⟨pubkey, hseg, hp⟩ := hn
      have hr : server.Responds cache visit.request visit.call visit.answer _ :=
        .ofFetched (.error e) hseg hu fun p hok => by
          obtain rfl := Except.ok.inj (hp.symm.trans hok)
          exact .failed hg
      simp only [servePubkey, hp] at hr
      exact h.respond hr

/-- A visit whose outlay has answered is handled as it should be. -/
theorem handled_answered (h : server.Quiet cache visit) {parsed : ParsedPath} {t : Transport}
    {r : Except String (Option Json)} (hn : server.Names visit.request parsed)
    (hu : visit.request.upgrade = false) (hg : Got cache visit.call parsed (.ok t)) :
    server.Handled cache (server.answered visit parsed t r) := by
  obtain ⟨pubkey, hseg, hp⟩ := hn
  simp only [answered]
  cases r with
  | ok content =>
    have hr : server.Responds cache visit.request visit.call (some (t, .ok content)) _ :=
      .ofFetched (.ok (content.getD .null)) hseg hu fun p hok => by
        obtain rfl := Except.ok.inj (hp.symm.trans hok)
        exact .fetched hg rfl
    simp only [servePubkey, hp] at hr
    exact h.respond hr
  | error e =>
    have hr : server.Responds cache visit.request visit.call (some (t, .error e)) _ :=
      .ofFetched (.error ("relay_info: " ++ e)) hseg hu fun p hok => by
        obtain rfl := Except.ok.inj (hp.symm.trans hok)
        exact .refused hg rfl
    simp only [servePubkey, hp] at hr
    exact h.respond hr

/-- A call that accesses the map is the next one. -/
theorem getting_of_access {parsed : ParsedPath}
    (hc : server.cache.system.step cache (.access parsed) = some cache') :
    (cache'.gets cache.started).path = parsed ∧ cache.started < cache'.started := by
  cases TransportCache.step_cases hc with
  | hit _ | miss _ => simp
  | move hm => cases hm

/-- A visit that goes on is handled as it should be. -/
theorem Handled.move (h : server.Handled s.cache (s.visits v)) {a : Action}
    (hs : server.cache.system.Reachable s.cache) (hm : server.Move s v a visit cache) :
    server.Handled cache visit := by
  have hstage := h.stage
  cases hm with
  | arrive _ => exact handled_router _
  | @enter parsed _ hst hc =>
    have hq := h.quiet (by simp [hst]) (by simp [hst]) (by simp [hst])
    rw [hst] at hstage
    obtain ⟨hpath, hlt⟩ := getting_of_access hc
    -- The call that it makes is for the path that it has been parsed to.
    have hcalled : server.Called cache (s.visits v).request (some s.cache.started) := by
      rintro g hg
      obtain rfl := Option.some.inj hg
      exact ⟨hlt, hpath.symm ▸ hstage.1⟩
    have hq' : server.Quiet cache { s.visits v with call := some s.cache.started } :=
      ⟨hcalled, hq.switched, hq.reply, hq.notices, hq.conn⟩
    exact hq'.goOn (.getting _ _) rfl ⟨hstage.1, rfl, hpath⟩
  | @resume parsed g r hst hr =>
    have hq := h.quiet (by simp [hst]) (by simp [hst]) (by simp [hst])
    rw [hst] at hstage
    exact handled_resume hq hstage.1 ⟨g, hstage.2.1, hstage.2.2, hr⟩
  | answer hst =>
    have hq := h.quiet (by simp [hst]) (by simp [hst]) (by simp [hst])
    rw [hst] at hstage
    exact handled_answered hq hstage.1 hstage.2.1 hstage.2.2
  | @notice text ok hst =>
    have hq := h.quiet (by simp [hst]) (by simp [hst]) (by simp [hst])
    rw [hst] at hstage
    exact {
      stage := trivial
      call := h.call
      switched := h.switched
      response r hr := absurd hr (hq.reply r)
      notices _ := ⟨.inl rfl, text, ok, hstage.2, by simp [hq.notices]⟩
      told _ := by simp
      conn hc := absurd hq.conn hc
      run := h.run }
  | close hst =>
    exact {
      stage := trivial
      call := h.call
      switched := h.switched
      response r hr := by
        have := (h.response r hr).1
        rw [hst] at this
        cases this
      notices hn := ⟨.inr rfl, (h.notices hn).2⟩
      told _ := h.told (.inl hst)
      conn hc := by
        obtain ⟨parsed, t, ht⟩ := h.conn hc
        rw [hst] at ht
        cases ht
      run := h.run }
  | @bridge parsed t a conn hst hc =>
    exact ⟨h.stage, h.call, h.switched, h.response, h.notices, h.told,
      fun _ => ⟨parsed, t, hst⟩, h.run.next hc⟩
  | abandon hu hw hc =>
    have hq := h.quiet (by rintro hst; simp [hst, VisitStage.waiting] at hw)
      (by rintro hst; simp [hst, VisitStage.waiting] at hw)
      (by rintro _ _ hst; simp [hst, VisitStage.waiting] at hw)
    rcases hc with rfl | ⟨_, _, _, hc⟩
    exacts [hq.abandon hu, (hq.abandon hu).step hs hc]

/-- Every visit is handled as it should be, in every run. -/
theorem handled (hs : server.system.Reachable s) (v : ℕ) :
    server.Handled s.cache (s.visits v) := by
  refine hs.invariant (P := fun s => ∀ v, server.Handled s.cache (s.visits v)) (fun v => ?_)
    (fun s a s' hs h _ hst w => ?_) v
  · exact (quiet_absent Visit.absent.request).goOn .absent rfl ⟨rfl, rfl⟩
  · have hcache := cache_reachable hs
    obtain ⟨b, cache, -, -, -, hc, rfl⟩ | ⟨v, visit, cache, hm, rfl⟩ := step_cases hst
    · exact (h w).step hcache hc
    · by_cases hw : w = v
      · subst hw
        simpa using (h w).move hcache hm
      · simp only [Function.update_of_ne hw]
        rcases hm.cache with rfl | ⟨b, hc⟩
        · exact h w
        · exact (h w).step hcache hc

/-! ## Calls of one's own -/

/-- A visit that goes on keeps its call, or has just made one. -/
theorem Move.call (h : server.Handled s.cache (s.visits v)) {a : Action}
    (hm : server.Move s v a visit cache) :
    visit.call = (s.visits v).call ∨
      visit.call = some s.cache.started := by
  cases hm with
  | arrive hst =>
    obtain ⟨stage, reply, -, heq⟩ := exists_router_eq server _
    have hstage := h.stage
    rw [hst] at hstage
    exact .inl ((congrArg Visit.call heq).trans hstage.2.symm)
  | resume _ _ =>
    obtain ⟨stage, reply, -, heq⟩ := exists_resume_eq (s.visits v) _ _
    exact .inl ((congrArg Visit.call heq).trans rfl)
  | enter _ _ => exact .inr rfl
  | answer _ | notice _ | close _ | bridge _ _ | abandon _ _ _ => exact .inl rfl

/-- No two visits make the same call. -/
theorem call_unique (hs : server.system.Reachable s) {v w g : ℕ}
    (hv : (s.visits v).call = some g) (hw : (s.visits w).call = some g) : v = w := by
  refine hs.invariant (P := fun s => ∀ v w g, (s.visits v).call = some g →
      (s.visits w).call = some g → v = w) (fun _ _ _ h => (by cases h))
    (fun s a s' hs h _ hst v w g hv hw => ?_) v w g hv hw
  obtain ⟨b, cache, -, -, -, -, rfl⟩ | ⟨x, visit, cache, hm, rfl⟩ := step_cases hst
  · exact h v w g hv hw
  · have hlt : ∀ {w}, (s.visits w).call = some g → g < s.cache.started := fun hg =>
      ((handled hs _).call g hg).1
    -- A call that has just been made is not one of those made before.
    have hold : ∀ {w}, (s.visits w).call = some g → visit.call = some g → w = x :=
        fun {w} hw hx => by
      rcases hm.call (handled hs x) with heq | heq
      · exact h w x g hw (heq.symm.trans hx)
      · exact absurd (Option.some.inj (hx.symm.trans heq)) (hlt hw).ne
    by_cases hvx : v = x <;> by_cases hwx : w = x
    · exact hvx.trans hwx.symm
    · subst hvx
      simp only [Function.update_self, Function.update_of_ne hwx] at hv hw
      exact (hold hw hv).symm
    · subst hwx
      simp only [Function.update_self, Function.update_of_ne hvx] at hv hw
      exact hold hv hw
    · simp only [Function.update_of_ne hvx, Function.update_of_ne hwx] at hv hw
      exact h v w g hv hw

/-! ## The law -/

/-- What a visit comes to. -/
structure Served (server : Server PublicKey RelayUrl) (s : server.State) (v : ℕ) : Prop where
  /-- The call of `get` that a visit makes is for the outlay its path names, and is its own. -/
  call : ∀ g, (s.visits v).call = some g →
    server.Names (s.visits v).request (s.cache.gets g).path ∧
      ∀ w, (s.visits w).call = some g → w = v
  /-- A response is that of the handlers, with what this call, and the outlay, have returned. -/
  response : ∀ r, (s.visits v).reply = some (.response r) →
    server.Responds s.cache (s.visits v).request (s.visits v).call (s.visits v).answer r
  /-- A visitor is only sent a notice, or dismissed without one, if it is refused: then it is
      told why, once; -/
  notices : (s.visits v).notices ≠ [] ∨ Dismissed (s.visits v) →
    ∃ text ok, server.Refused s.cache (s.visits v).request (s.visits v).call text ∧
      (s.visits v).notices = [(noticeFrame text, ok)]
  /-- and whoever is refused is not bridged. -/
  refused : ∀ text, server.Refused s.cache (s.visits v).request (s.visits v).call text →
    (s.visits v).conn = .fresh ∧ ∀ parsed t, (s.visits v).stage ≠ .bridged parsed t
  /-- A visitor is bridged to the outlay its path names, by the transport that its call has
      returned; -/
  bridged : ∀ parsed t, (s.visits v).stage = .bridged parsed t →
    server.Names (s.visits v).request parsed ∧
      Got s.cache (s.visits v).call parsed (.ok t) ∧ t.config.serverPubkey = parsed.hex
  /-- and only then does its connection run. -/
  conn : (s.visits v).conn ≠ .fresh → ∃ parsed t, (s.visits v).stage = .bridged parsed t
  run : (Conn.system server.decode).Reachable (s.visits v).conn
  /-- A visit whose path names no outlay never calls for one. -/
  malformed : ∀ pubkey e, (s.visits v).request.segment = some pubkey →
    server.nostr.parsePath pubkey = .error e →
      (s.visits v).call = none ∧ (s.visits v).stage.waiting = false

/-- A stage in which the path is known to name an outlay. -/
theorem names_of_waiting (h : server.Handled cache visit) (hs : visit.stage.waiting = true) :
    ∃ parsed, server.Names visit.request parsed := by
  have hstage := h.stage
  cases hst : visit.stage with
  | entering parsed | getting parsed _ | asking parsed _ =>
    rw [hst] at hstage
    exact ⟨parsed, hstage.1⟩
  | absent | noticing _ | bridged _ _ | closing | piped | done =>
    simp [hst, VisitStage.waiting] at hs

/-- A path that is malformed names nothing. -/
theorem not_names_of_error {request : Request} {pubkey : String} {e : PathError}
    (hseg : request.segment = some pubkey) (he : server.nostr.parsePath pubkey = .error e)
    (parsed : ParsedPath) : ¬server.Names request parsed := by
  rintro ⟨pubkey', hseg', hp⟩
  obtain rfl := Option.some.inj (hseg.symm.trans hseg')
  rw [he] at hp
  cases hp

/-- A visitor that is refused is not bridged. -/
theorem Refused.not_bridged (h : server.Handled cache visit) {text : String}
    (hr : server.Refused cache visit.request visit.call text) (parsed : ParsedPath)
    (t : Transport) : visit.stage ≠ .bridged parsed t := by
  intro hb
  have hstage := h.stage
  rw [hb] at hstage
  obtain ⟨hn, -, hgot⟩ := hstage
  cases hr with
  | malformed hseg he => exact not_names_of_error hseg he _ hn
  | failed _ hg => cases hg.unique hgot

/-- A visit is bridged by a transport of the outlay its path names: the one its call got. -/
theorem got_of_bridged (hs : server.system.Reachable s) {parsed : ParsedPath} {t : Transport}
    (hb : (s.visits v).stage = .bridged parsed t) :
    server.Names (s.visits v).request parsed ∧ Got s.cache (s.visits v).call parsed (.ok t) ∧
      t.config.serverPubkey = parsed.hex := by
  have hstage := (handled hs v).stage
  rw [hb] at hstage
  exact ⟨hstage.1, hstage.2.2, hstage.2.2.serverPubkey (cache_reachable hs)⟩

/-- Whatever the other visits do, every visit is served what its own request asks for. -/
theorem served (hs : server.system.Reachable s) (v : ℕ) : Served server s v := by
  have h := handled hs v
  exact {
    call := fun g hg => ⟨(h.call g hg).2, fun w hw => call_unique hs hw hg⟩
    response := fun r hr => (h.response r hr).2
    notices := fun hn => (h.notices (hn.elim id h.told)).2
    refused := fun text hr => by
      refine ⟨?_, hr.not_bridged h⟩
      by_contra hc
      obtain ⟨_, _, hb⟩ := h.conn hc
      exact hr.not_bridged h _ _ hb
    bridged := fun _ _ hb => got_of_bridged hs hb
    conn := h.conn
    run := h.run
    malformed := fun pubkey e hseg he => by
      have hnot := not_names_of_error hseg he
      refine ⟨Option.eq_none_iff_forall_ne_some.2 fun g hg => hnot _ (h.call g hg).2, ?_⟩
      refine Bool.eq_false_of_not_eq_true fun hw => ?_
      obtain ⟨parsed, hn⟩ := names_of_waiting h hw
      exact hnot parsed hn }

/-! ## Identities -/

/-- A visit that goes on keeps naming the outlay that its path names. -/
theorem Names.move (h : server.Handled s.cache (s.visits v)) {a : Action}
    (hm : server.Move s v a visit cache) {parsed : ParsedPath}
    (hn : server.Names (s.visits v).request parsed) : server.Names visit.request parsed := by
  cases hm with
  | arrive hst =>
    -- A visit that has not arrived names nothing.
    obtain ⟨pubkey, hseg, -⟩ := hn
    have hstage := h.stage
    rw [hst] at hstage
    rw [hstage.1] at hseg
    cases hseg
  | resume _ _ =>
    obtain ⟨stage, reply, -, heq⟩ := exists_resume_eq (s.visits v) _ _
    rw [heq]
    exact hn
  | enter _ _ | answer _ | notice _ | close _ | bridge _ _ | abandon _ _ _ => exact hn

/-- Every call is made for the path of a visit. -/
theorem exists_names (hs : server.system.Reachable s) :
    ∀ g < s.cache.started, ∃ v, server.Names (s.visits v).request (s.cache.gets g).path := by
  refine hs.invariant (P := fun s => ∀ g < s.cache.started,
      ∃ v, server.Names (s.visits v).request (s.cache.gets g).path)
    (fun g hg => absurd hg (Nat.not_lt_zero g)) fun s a s' hs h _ hst g hg => ?_
  -- An earlier call keeps its path, and its visit.
  have hold : ∀ {b cache}, server.cache.system.step s.cache b = some cache →
      g < s.cache.started →
        ∃ v, server.Names (s.visits v).request (cache.gets g).path := fun hc hlt => by
    obtain ⟨v, hv⟩ := h g hlt
    exact ⟨v, ((TransportCache.step_cases hc).keeps.2 g hlt).1.symm ▸ hv⟩
  obtain ⟨b, cache, -, hb, -, hc, rfl⟩ | ⟨v, visit, cache, hm, rfl⟩ := step_cases hst
  · refine hold hc ?_
    cases TransportCache.step_cases hc with
    | hit _ | miss _ => exact absurd rfl (hb _)
    | move _ => exact hg
  · have hkeep : ∀ w parsed, server.Names (s.visits w).request parsed →
        server.Names (Function.update s.visits v visit w).request parsed := fun w parsed hw => by
      by_cases hwv : w = v
      · subst hwv
        simpa using hw.move (handled hs w) hm
      · simpa [Function.update_of_ne hwv] using hw
    by_cases hlt : g < s.cache.started
    · rcases hm.cache with rfl | ⟨b, hc⟩
      · obtain ⟨w, hw⟩ := h g hlt
        exact ⟨w, hkeep w _ hw⟩
      · obtain ⟨w, hw⟩ := hold hc hlt
        exact ⟨w, hkeep w _ hw⟩
    · -- A new call is made by the visit that enters.
      cases hm with
      | @enter parsed _ hstage hc =>
        have hnames : server.Names (s.visits v).request parsed := by
          have h := (handled hs v).stage
          rw [hstage] at h
          exact h.1
        have hget : g = s.cache.started ∧ (cache.gets s.cache.started).path = parsed := by
          refine ⟨?_, (getting_of_access hc).1⟩
          cases TransportCache.step_cases hc with
          | hit _ | miss _ => simp at hg; omega
          | move hm => cases hm
        refine ⟨v, ?_⟩
        rw [hget.1, hget.2]
        simpa using hnames
      | abandon _ _ hc =>
        rcases hc with rfl | ⟨_, _, _, hc⟩
        · exact absurd hg hlt
        · cases TransportCache.step_cases hc with
          | move _ => exact absurd hg hlt
      | arrive _ | resume _ _ | answer _ | notice _ | close _ | bridge _ _ => exact absurd hg hlt

/-- How visits are told apart. -/
structure Identified (server : Server PublicKey RelayUrl) (s : server.State) : Prop where
  /-- The cache only holds outlays that visits have named, each under the hex of its key. -/
  keys : ∀ hex ∈ s.cache.entries.keys, ∃ v raw pk relays,
    (s.visits v).request.segment = some raw ∧ server.nostr.Denotes raw pk relays ∧
      server.nostr.toHex pk = hex
  /-- Visits of one outlay share a transport, however they have spelled its key, as long as no
      more outlays have been named than there is room for in the cache. -/
  shared : (TransportCache.named s.cache).card ≤ server.cache.cap →
    ∀ v w {raw raw' pk relays relays'},
    (s.visits v).request.segment = some raw → server.nostr.Denotes raw pk relays →
    (s.visits w).request.segment = some raw' → server.nostr.Denotes raw' pk relays' →
    ∀ parsed parsed' t u, (s.visits v).stage = .bridged parsed t →
      (s.visits w).stage = .bridged parsed' u → t = u

/-- A path that names an outlay names the key that it denotes. -/
theorem Names.hex (hl : server.nostr.Lawful) {request : Request} {parsed : ParsedPath}
    (h : server.Names request parsed) {raw : String} {pk : PublicKey} {relays : List RelayUrl}
    (hseg : request.segment = some raw) (hd : server.nostr.Denotes raw pk relays) :
    parsed.hex = server.nostr.toHex pk := by
  obtain ⟨raw', hseg', hp⟩ := h
  obtain rfl := Option.some.inj (hseg.symm.trans hseg')
  obtain ⟨pk', _, hd', rfl⟩ := hl.parsePath_eq_ok_iff.1 hp
  rw [hl.denotes_unique hd' hd]

/-- Whatever the visits, outlays are told apart by their keys. -/
theorem identified (hl : server.nostr.Lawful) (hs : server.system.Reachable s) :
    Identified server s := by
  have hcache := cache_reachable hs
  constructor
  case keys =>
    intro hex hk
    have hrecent : s.cache.entries.keys = (Lru.recent s.cache.hex s.cache.started).take
      server.cache.cap := (TransportCache.kept hcache).recent
    rw [hrecent] at hk
    obtain ⟨g, hg, rfl⟩ := Lru.exists_of_mem_recent (List.mem_of_mem_take hk)
    obtain ⟨v, raw, hseg, hp⟩ := exists_names hs g hg
    obtain ⟨pk, relays, hd, hpath⟩ := hl.parsePath_eq_ok_iff.1 hp
    exact ⟨v, raw, pk, relays, hseg, hd, (congrArg ParsedPath.hex hpath).symm⟩
  case shared =>
    intro hcard v w raw raw' pk relays relays' hv hdv hw hdw parsed parsed' t u hbv hbw
    obtain ⟨hnv, ⟨g, -, hpg, hg⟩, -⟩ := got_of_bridged hs hbv
    obtain ⟨hnw, ⟨h, -, hph, hh⟩, -⟩ := got_of_bridged hs hbw
    have hhex : s.cache.hex g = s.cache.hex h := by
      rw [TransportCache.State.hex, TransportCache.State.hex, hpg, hph, hnv.hex hl hv hdv,
        hnw.hex hl hw hdw]
    exact TransportCache.eq_of_returned hcache hcard hg hh hhex

/-! ## Three visitors -/

/-- A server that knows the npub of an outlay. -/
def sample : Server NostrCodec.HexKey String where
  state := {
    config := {
      toShimConfig := (TransportCache.shim 64 (by decide)).cfg
      listenAddr := "127.0.0.1:8088"
      privateKey := none
      maxCachedOutlays := 64
      maxWsMessageBytes := 1048576
      enableRelay := false }
    transports := TransportCache.shim 64 (by decide)
    relayUrl := none }
  nostr := .sample
  decode := Conn.sample

/-- One visitor dials the npub of the outlay, another asks for the document of the same outlay
    by its hex, and a third dials a path that names none. -/
def threeVisits : List Action :=
  [.arrive 0 ⟨some NostrCodec.sampleNpub, true, .ok (), none⟩,
    .arrive 1 ⟨some NostrCodec.sampleKey.1, false, .ok (), some "application/nostr+json"⟩,
    .arrive 2 ⟨some "favicon.ico", true, .ok (), none⟩, .enter 1, .enter 0,
    .cache (.build 0), .notice 2 true, .cache (.built 0 (.ok ())), .cache (.ret 1), .resume 0,
    .cache (.ret 0), .resume 1, .bridge 0 (.inbound (.text "hello")), .close 2,
    .answer 1 (.ok (some (.obj [("name", .str "outlay")])))]

/-- The three visits have come to different ends. -/
theorem reachable_threeVisits : ∃ s : sample.State, sample.system.Reachable s ∧
    ((s.visits 0).conn.inbound = [.text "hello"] ∧ (s.visits 1).answer.isSome = true ∧
      (s.visits 2).notices = [(noticeFrame "error: invalid pubkey: parsing failed", true)]) ∧
        s.cache.entries.keys = [NostrCodec.sampleKey.1] ∧ s.cache.started = 2 := by
  obtain ⟨s, hs, hp⟩ := System.exists_reachableBy (M := sample.system) (C := fun _ _ => True)
    threeVisits (fun s => decide (((s.visits 0).conn.inbound = [.text "hello"] ∧
      (s.visits 1).answer.isSome = true ∧
        (s.visits 2).notices = [(noticeFrame "error: invalid pubkey: parsing failed", true)]) ∧
          s.cache.entries.keys = [NostrCodec.sampleKey.1] ∧ s.cache.started = 2))
    (by decide +kernel)
  exact ⟨s, hs, of_decide_eq_true hp⟩

/-- The first is bridged, the second is given the document, and the third is told why not. -/
theorem served_threeVisits : ∃ s : sample.State, (s.visits 0).conn.inbound = [.text "hello"] ∧
    (s.visits 1).answer.isSome = true ∧
      (s.visits 2).notices = [(noticeFrame "error: invalid pubkey: parsing failed", true)] ∧
        ∀ v, Served sample s v := by
  obtain ⟨s, hs, ⟨h₀, h₁, h₂⟩, -⟩ := reachable_threeVisits
  exact ⟨s, h₀, h₁, h₂, served hs⟩

/-- The cache holds the one outlay that two of them have named. -/
theorem identified_threeVisits : ∃ s : sample.State,
    s.cache.entries.keys = [NostrCodec.sampleKey.1] ∧ s.cache.started = 2 ∧
      Identified sample s := by
  obtain ⟨s, hs, -, hk, hn⟩ := reachable_threeVisits
  exact ⟨s, hk, hn, identified NostrCodec.sample_lawful hs⟩

end Server

end Outlay.Shim

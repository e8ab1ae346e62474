import Outlay.Json.Text
import Outlay.Proxy.Nip11
import Outlay.Shim.Served

/-!
# The document of an outlay

What a visitor reads of an outlay: the document that the upstream serves is overlaid and
sent by the proxy, and printed by the shim, as JSON or on a page, for the visit that has
asked for it. What is read off the response is the document of the outlay, with every
field of the upstream's, whatever that is, and whatever other visits do (`announced`).

What fetching the document comes to is a parameter, and the result of `relay_info` is
carried without loss. The document has to be one that can be read back from its print,
and, as the proxy moves the identity of the upstream one level deeper, this has to be
nested less deep than what can just be read (`Portable`).
-/

namespace Outlay

open Async
open Json (Valid depthLimit parse)

variable {fmt : String → Option String}

namespace Proxy

/-- The fields of the document that the upstream serves, if it serves any. -/
def upstreamFields (url : String) (fetch : String → Fetched) : Option (List (String × Json)) :=
  match (nip11Origin url).map fetch with
  | some (.response true (some (.obj obj))) => some obj
  | _ => none

/-- The fields that the overlay writes. -/
def ownKeys : List String := ["software", "version", "proxy", "upstream"]

/-- The document of an outlay whose upstream has the fields `upstream`, if it serves any. -/
structure Announces (upstream : Option (List (String × Json))) (doc : Json) : Prop where
  software : doc.get "software" = some (.str "outlay")
  version : doc.get "version" = some (.str outlayVersion)
  proxy : doc.get "proxy" = some (.bool true)
  /-- Every other field is that of the upstream. -/
  kept : ∀ obj k, upstream = some obj → k ∉ ownKeys → doc.get k = obj.lookup k
  /-- The identity of the upstream is found under `upstream`. -/
  identity : ∀ obj k, upstream = some obj → k = "software" ∨ k = "version" →
    identityFields obj ≠ [] → (doc.get "upstream").bind (Json.get k) = obj.lookup k

/-- The document of an upstream can be sent on. -/
structure Portable (fmt : String → Option String) (obj : List (String × Json)) : Prop where
  /-- It can be read back from its print, -/
  valid : Valid fmt depthLimit (.obj obj)
  /-- and its identity can be nested one level deeper. -/
  shallow : ∀ f ∈ identityFields obj, Valid fmt (depthLimit - 2) f.2

/-- What `relay_info` returns is the document of an outlay. -/
theorem announces_of_relayInfo {url : String} {fetch : String → Fetched} {doc : Json}
    (h : relayInfo url fetch = .ok (some doc)) : Announces (upstreamFields url fetch) doc := by
  obtain ⟨doc', hdoc, hs, hv, hp⟩ := relayInfo_ok h
  obtain rfl := Option.some.inj hdoc
  refine ⟨hs, hv, hp, fun obj k hobj hk => ?_, fun obj k hobj hk hid => ?_⟩
  all_goals
    rw [upstreamFields.eq_def] at hobj
    rw [relayInfo] at h
    cases ho : nip11Origin url with
    | none => rw [ho] at h; cases h
    | some origin =>
      simp only [ho, Option.map_some] at hobj h
      split at hobj
      next hf =>
        obtain rfl := Option.some.inj hobj
        rw [Option.some.inj hf] at h
        obtain rfl := Option.some.inj (Except.ok.inj h)
        rw [Json.get]
        first
        | -- A field that the overlay does not write.
          simp only [ownKeys, List.mem_cons, List.not_mem_nil, or_false, not_or] at hk
          exact lookup_overlayFields_of_ne hk.2.2.1 hk.2.1 hk.1 hk.2.2.2
        | rw [lookup_upstream, if_neg hid, Option.bind_some, Json.get, lookup_identityFields,
            if_pos hk]
      next => cases hobj

theorem ordered_identityFields (obj : List (String × Json)) :
    OrderedMap.Ordered (identityFields obj) := by
  simp only [identityFields, List.filterMap_cons, List.filterMap_nil]
  cases obj.lookup "software" <;> cases obj.lookup "version"
  · exact List.Pairwise.nil
  · exact List.pairwise_singleton _ _
  · exact List.pairwise_singleton _ _
  · exact List.pairwise_pair.2 (show "software" < "version" by decide)

/-- The document of an outlay whose upstream has none can be read. -/
theorem valid_synthesizedProxyInfo (hone : fmt "1" = some "1") :
    Valid fmt depthLimit synthesizedProxyInfo := by
  have hkeys : OrderedMap.Ordered [("proxy", Json.bool true), ("software", .str "outlay"),
      ("supported_nips", .arr [.num "1"]), ("version", .str outlayVersion)] := by
    rw [OrderedMap.Ordered]
    decide
  have hnum : Json.isNumber "1".toList = true := by decide
  rw [synthesizedProxyInfo, depthLimit, Valid]
  refine ⟨hkeys, fun f hf => ?_⟩
  simp only [List.mem_cons, List.not_mem_nil, or_false] at hf
  rcases hf with rfl | rfl | rfl | rfl
  case inr.inr.inl =>
    rw [Valid]
    rintro v hv
    obtain rfl := List.mem_singleton.1 hv
    rw [Valid]
    exact ⟨hnum, hone⟩
  all_goals rw [Valid]; trivial

/-- A document that can be read is still one with outlay overlaid. -/
theorem valid_overlayFields {obj : List (String × Json)} (hport : Portable fmt obj) :
    Valid fmt depthLimit (.obj (overlayFields obj)) := by
  have hval : OrderedMap.Ordered obj ∧ ∀ f ∈ obj, Valid fmt 126 f.2 := by
    have h := hport.valid
    rwa [depthLimit, Valid] at h
  have hup : Valid fmt 126 (.obj (identityFields obj)) := by
    rw [Valid]
    exact ⟨ordered_identityFields obj, hport.shallow⟩
  have hrest : ∀ f ∈ OrderedMap.remove "version" (OrderedMap.remove "software" obj),
      Valid fmt 126 f.2 := fun f hf =>
    hval.2 f (List.mem_of_mem_filter (List.mem_of_mem_filter hf))
  rw [depthLimit, Valid]
  refine ⟨ordered_overlayFields hval.1, fun f hf => ?_⟩
  simp only [overlayFields, movedFields_eq] at hf
  rcases OrderedMap.eq_or_mem_of_mem_insert hf with rfl | hf
  · rw [Valid]; trivial
  rcases OrderedMap.eq_or_mem_of_mem_insert hf with rfl | hf
  · rw [Valid]; trivial
  rcases OrderedMap.eq_or_mem_of_mem_insert hf with rfl | hf
  · rw [Valid]; trivial
  split_ifs at hf
  · exact hrest f hf
  · rcases OrderedMap.eq_or_mem_of_mem_insert hf with rfl | hf
    exacts [hup, hrest f hf]

/-- What `relay_info` returns can be printed and read back. -/
theorem valid_relayInfo {url : String} {fetch : String → Fetched} {content : Option Json}
    (h : relayInfo url fetch = .ok content)
    (hport : ∀ obj, upstreamFields url fetch = some obj → Portable fmt obj)
    (hone : fmt "1" = some "1") : ∃ doc, content = some doc ∧ Valid fmt depthLimit doc := by
  rw [relayInfo] at h
  split at h
  next => cases h
  next origin ho =>
    split at h <;> obtain rfl := Except.ok.inj h
    next obj hf =>
      have hobj := hport obj (by rw [upstreamFields.eq_def, ho, Option.map_some, hf])
      exact ⟨_, rfl, valid_overlayFields hobj⟩
    next => exact ⟨_, rfl, valid_synthesizedProxyInfo hone⟩

end Proxy

namespace Shim

/-- The response presents the document: its text is read as it, whichever way it is served. -/
structure Presents (fmt : String → Option String) (accept : Option String) (doc : Json)
    (r : Response) : Prop where
  status : r.status = 200
  /-- To a client that accepts it, the body is a text of the document. -/
  json : (∃ s ∈ accept, nip11Json.toList <:+: s.toList) →
    r.headers.lookup "content-type" = some nip11Json ∧ parse fmt r.body = some doc
  /-- To any other client, the body is a page, which has the markup of the template, and
      shows a text of the document. -/
  html : (¬∃ s ∈ accept, nip11Json.toList <:+: s.toList) →
    r.headers.lookup "content-type" = some "text/html; charset=utf-8" ∧
      (∃ button, markup r.body = markup (template button)) ∧
        ∃ title name button document, r.body = page title name button document ∧
          parse fmt (unescapeHtml document) = some doc

/-- A document that can be read back is presented. -/
theorem presents_render {doc : Json} (h : Valid fmt depthLimit doc)
    (accept jumble : Option String) : Presents fmt accept doc (render doc accept jumble) := by
  have hread := Json.parse_toStringPretty h
  have hany : (accept.any fun s => decide (nip11Json.toList <:+: s.toList)) = true ↔
      ∃ s ∈ accept, nip11Json.toList <:+: s.toList := by
    cases accept <;> simp
  rw [render]
  split_ifs with hw
  · exact ⟨rfl, fun _ => ⟨rfl, hread⟩, fun hn => absurd (hany.1 hw) hn⟩
  · refine ⟨rfl, fun hj => absurd (hany.2 hj) hw, fun _ => ⟨rfl, ?_, ?_⟩⟩
    · exact ⟨_, markup_renderHtml doc jumble⟩
    · exact ⟨_, _, _, _, rfl, by rw [unescapeHtml_esc]; exact hread⟩

namespace Server

variable {PublicKey RelayUrl : Type*} {server : Server PublicKey RelayUrl} {s s' : server.State}

/-- A visit whose outlay has answered has been responded to with this answer, through a
    transport of the outlay its path names. -/
def Replied (cache : TransportCache.State server.cache.cap) (visit : Visit) : Prop :=
  ∀ t a, visit.answer = some (t, a) → visit.stage = .done ∧
    ∃ parsed, server.Names visit.request parsed ∧
      TransportCache.Got cache visit.call parsed (.ok t) ∧
        visit.reply = (server.answered visit parsed t a).reply

/-- The answers that the outlays have given are what visits have been responded to with. -/
theorem replied (hs : server.system.Reachable s) (v : ℕ) :
    server.Replied s.cache (s.visits v) := by
  refine hs.invariant (P := fun s => ∀ v, server.Replied s.cache (s.visits v))
    (fun v t a h => (by cases h)) (fun s b s' hs h _ hst w => ?_) v
  have hcache := cache_reachable hs
  have hgo : ∀ {c cache}, server.cache.system.step s.cache c = some cache →
      ∀ w, server.Replied cache (s.visits w) := fun hc w t a ha => by
    obtain ⟨hdone, parsed, hn, hg, hr⟩ := h w t a ha
    exact ⟨hdone, parsed, hn, hg.step hcache hc, hr⟩
  obtain ⟨c, cache, -, -, -, hc, rfl⟩ | ⟨v, visit, cache, hm, rfl⟩ := step_cases hst
  · exact hgo hc w
  · change server.Replied cache (Function.update s.visits v visit w)
    by_cases hw : w = v
    · subst hw
      rw [Function.update_self]
      -- Only a visit that is done has an answer, and it does not move any more.
      have hnone : (s.visits w).stage ≠ .done → (s.visits w).answer = none := fun hd => by
        by_contra hne
        obtain ⟨⟨t, a⟩, ha⟩ := Option.ne_none_iff_exists'.1 hne
        exact hd (h w t a ha).1
      have hskip : ∀ {visit : Visit}, visit.answer = none → server.Replied cache visit :=
        fun hn t a ha => by rw [hn] at ha; cases ha
      cases hm with
      | arrive _ =>
        obtain ⟨stage, reply, -, heq⟩ := exists_router_eq server _
        exact hskip (congrArg Visit.answer heq)
      | enter hd _ | notice hd | close hd | bridge hd _ => exact hskip (hnone (by simp [hd]))
      | resume hd _ =>
        obtain ⟨stage, reply, -, heq⟩ := exists_resume_eq (s.visits w) _ _
        exact hskip ((congrArg Visit.answer heq).trans (hnone (by simp [hd])))
      | abandon _ hw _ => exact hskip (hnone fun hd => by simp [hd, VisitStage.waiting] at hw)
      | @answer parsed t r hd =>
        have hstage := (handled hs w).stage
        rw [hd] at hstage
        rintro t' a ha
        obtain ⟨rfl, rfl⟩ := Prod.mk.inj (Option.some.inj ha)
        exact ⟨rfl, parsed, hstage.1, hstage.2.2, rfl⟩
    · rw [Function.update_of_ne hw]
      rcases hm.cache with rfl | ⟨c, hc⟩
      exacts [h w, hgo hc w]

/-- What a visitor is told who has asked for the document of an outlay. -/
structure Documented (server : Server PublicKey RelayUrl) (s : server.State)
    (fmt : String → Option String) (v : ℕ) (t : TransportCache.Transport)
    (upstream : Option (List (String × Json))) : Prop where
  /-- It has asked the outlay that its path names. -/
  names : ∃ parsed, server.Names (s.visits v).request parsed ∧ t.config.serverPubkey = parsed.hex
  /-- What is read off the response is the document of this outlay. -/
  read : ∃ doc r, (s.visits v).reply = some (.response r) ∧
    Presents fmt (s.visits v).request.accept doc r ∧ Proxy.Announces upstream doc

/-- Whatever the upstream of an outlay serves as its document, and whatever other visits do, a
    visitor that the outlay has answered reads the document of this outlay. -/
theorem announced (hs : server.system.Reachable s) (hone : fmt "1" = some "1") {v : ℕ}
    {t : TransportCache.Transport} {content : Option Json}
    (ha : (s.visits v).answer = some (t, .ok content)) {url : String}
    {fetch : String → Proxy.Fetched} (hinfo : Proxy.relayInfo url fetch = .ok content)
    (hport : ∀ obj, Proxy.upstreamFields url fetch = some obj → Proxy.Portable fmt obj) :
    Documented server s fmt v t (Proxy.upstreamFields url fetch) := by
  obtain ⟨doc, rfl, hvalid⟩ := Proxy.valid_relayInfo hinfo hport hone
  obtain ⟨-, parsed, hn, hg, hr⟩ := replied hs v t _ ha
  refine ⟨⟨parsed, hn, hg.serverPubkey (cache_reachable hs)⟩, doc, _, hr, ?_, ?_⟩
  · exact presents_render hvalid _ _
  · exact Proxy.announces_of_relayInfo hinfo

/-! ## A relay with markup in its name -/

/-- The fields of the document that the upstream serves. -/
def strfryFields : List (String × Json) :=
  [("name", .str "<b>"), ("software", .str "strfry"), ("version", .str "1.0")]

/-- The upstream serves its document. -/
def strfry (origin : String) : Proxy.Fetched :=
  if origin = "https://up.example" then .response true (some (.obj strfryFields)) else .failed

/-- The document of the outlay. -/
def strfryInfo : Json :=
  .obj [("name", .str "<b>"), ("proxy", .bool true), ("software", .str "outlay"),
    ("upstream", .obj [("software", .str "strfry"), ("version", .str "1.0")]),
    ("version", .str Proxy.outlayVersion)]

/-- A visitor asks for the page of an outlay. -/
def asksForPage : List Action :=
  [.arrive 0 ⟨some NostrCodec.sampleNpub, false, .ok (), none⟩, .enter 0, .cache (.build 0),
    .cache (.built 0 (.ok ())), .cache (.ret 0), .resume 0, .answer 0 (.ok (some strfryInfo))]

deriving instance DecidableEq for Proxy.ProxyError

/-- It is shown the name of the relay, and the identity of both. -/
theorem announced_strfry : ∃ (s : sample.State) (t : TransportCache.Transport),
    (s.visits 0).answer = some (t, .ok (some strfryInfo)) ∧
      Documented sample s some 0 t (some strfryFields) := by
  obtain ⟨s, hs, hp⟩ := System.exists_reachableBy (M := sample.system) (C := fun _ _ => True)
    asksForPage (fun s => decide (∃ t ∈ (s.visits 0).answer, t.2 = .ok (some strfryInfo)))
    (by decide +kernel)
  obtain ⟨⟨t, a⟩, ha, rfl⟩ := of_decide_eq_true hp
  have hfields : Proxy.upstreamFields "wss://up.example/ws" strfry = some strfryFields := by
    decide +kernel
  have hinfo : Proxy.relayInfo "wss://up.example/ws" strfry = .ok (some strfryInfo) := by
    decide +kernel
  refine ⟨s, t, ha, hfields ▸ announced hs rfl ha hinfo fun obj hobj => ?_⟩
  obtain rfl := Option.some.inj (hfields.symm.trans hobj)
  refine ⟨?_, fun f hf => ?_⟩
  · have hkeys : OrderedMap.Ordered strfryFields := by rw [OrderedMap.Ordered]; decide
    rw [depthLimit, Valid]
    refine ⟨hkeys, fun f hf => ?_⟩
    simp only [strfryFields, List.mem_cons, List.not_mem_nil, or_false] at hf
    rcases hf with rfl | rfl | rfl <;> rw [Valid] <;> trivial
  · -- Both the software and its version are strings.
    simp [strfryFields, Proxy.identityFields, List.lookup] at hf
    rcases hf with rfl | rfl <;> rw [Valid] <;> trivial

end Server

end Shim

end Outlay

import Outlay.Data.OrderedMap
import Outlay.Proxy.Subscribe

/-!
# The NIP-11 document

`relay_info` fetches the document of the upstream, and overlays the identity of
the outlay: the upstream's `software` and `version` are moved under an `upstream`
key, and its own are put in their place. All other fields are to be preserved.

But a document may have an `upstream` field already: that of another outlay has.
If there is something to move, the field is overwritten (`not_overlaid`). The
exact condition under which nothing is lost is `overlaid_iff`.
-/

namespace Outlay.Proxy

/-- outlay's own version. -/
def outlayVersion : String := "0.4.0"

/-- HTTP origin of the upstream's NIP-11 document: the scheme and the authority,
    no path. -/
def nip11Origin (upstream : String) : Option String :=
  let authority (l : List Char) := String.ofList (l.takeWhile (· ≠ '/'))
  if "wss://".toList.isPrefixOf upstream.toList then
    some ("https://" ++ authority (upstream.toList.drop 6))
  else if "ws://".toList.isPrefixOf upstream.toList then
    some ("http://" ++ authority (upstream.toList.drop 5))
  else none

/-- The fields moved under the `upstream` key. -/
def movedFields (obj : List (String × Json)) : List (String × Json) :=
  let upstream :=
    match obj.lookup "software" with
    | some s => OrderedMap.insert "software" s []
    | none => []
  match (OrderedMap.remove "software" obj).lookup "version" with
  | some v => OrderedMap.insert "version" v upstream
  | none => upstream

/-- Overlay outlay's identity onto the fields of an upstream NIP-11 document. -/
def overlayFields (obj : List (String × Json)) : List (String × Json) :=
  let upstream := movedFields obj
  let obj := OrderedMap.remove "version" (OrderedMap.remove "software" obj)
  let obj := if upstream.isEmpty then obj else OrderedMap.insert "upstream" (.obj upstream) obj
  OrderedMap.insert "proxy" (.bool true) (OrderedMap.insert "version" (.str outlayVersion)
    (OrderedMap.insert "software" (.str "outlay") obj))

/-- Overlay outlay's identity onto an upstream NIP-11 document, which is expected
    to be an object. -/
def overlayProxyInfo : Json → Option Json
  | .obj obj => some (.obj (overlayFields obj))
  | _ => none

/-- Minimum NIP-11 document returned when the upstream serves none. -/
def synthesizedProxyInfo : Json :=
  .obj [("proxy", .bool true), ("software", .str "outlay"), ("supported_nips", .arr [.num "1"]),
    ("version", .str outlayVersion)]

/-- What fetching the document comes to: a transport error, or a response, with its
    body if that is JSON. -/
inductive Fetched
  | failed
  | response (success : Bool) (body : Option Json)

/-- The upstream's NIP-11 document with outlay overlaid, or a synthesized minimum. -/
def relayInfo (upstreamUrl : String) (fetch : String → Fetched) : Except ProxyError (Option Json) :=
  match nip11Origin upstreamUrl with
  | none => .error (.relayInfo ("upstream URL must be ws:// or wss://, got: " ++ upstreamUrl))
  | some origin =>
    match fetch origin with
    | .response true (some (.obj obj)) => .ok (overlayProxyInfo (.obj obj))
    | _ => .ok (some synthesizedProxyInfo)

/-! ## What the overlay does to a field -/

section

variable (obj : List (String × Json))

/-- The `software` and the `version` of a document. -/
def identityFields : List (String × Json) :=
  ["software", "version"].filterMap fun k => (obj.lookup k).map fun v => (k, v)

/-- What is moved is the identity of the upstream. -/
theorem movedFields_eq : movedFields obj = identityFields obj := by
  have hlt : ¬"version" < "software" := by decide
  simp only [movedFields, identityFields, OrderedMap.lookup_remove, List.filterMap_cons,
    List.filterMap_nil]
  cases obj.lookup "software" <;> cases obj.lookup "version" <;> simp [OrderedMap.insert, hlt]

/-- What a key is mapped to in the overlaid document. -/
theorem lookup_overlayFields (k : String) : (overlayFields obj).lookup k =
    if k = "proxy" then some (.bool true)
    else if k = "version" then some (.str outlayVersion)
    else if k = "software" then some (.str "outlay")
    else if k = "upstream" ∧ identityFields obj ≠ [] then some (.obj (identityFields obj))
    else obj.lookup k := by
  simp only [overlayFields, OrderedMap.lookup_insert, movedFields_eq]
  by_cases hp : k = "proxy"
  · rw [if_pos hp, if_pos hp]
  rw [if_neg hp, if_neg hp]
  by_cases hv : k = "version"
  · rw [if_pos hv, if_pos hv]
  rw [if_neg hv, if_neg hv]
  by_cases hs : k = "software"
  · rw [if_pos hs, if_pos hs]
  rw [if_neg hs, if_neg hs]
  -- Any other field is that of the document, but for the identity moved.
  have hrest : (OrderedMap.remove "version" (OrderedMap.remove "software" obj)).lookup k =
      obj.lookup k := by
    rw [OrderedMap.lookup_remove, if_neg hv, OrderedMap.lookup_remove, if_neg hs]
  by_cases hm : identityFields obj = []
  · simp [hm, hrest]
  · have hne : (identityFields obj).isEmpty = false := by simpa using hm
    rw [hne, if_neg Bool.false_ne_true, OrderedMap.lookup_insert, hrest]
    simp [hm]

/-- What the identity maps a key to. -/
theorem lookup_identityFields (k : String) : (identityFields obj).lookup k =
    if k = "software" ∨ k = "version" then obj.lookup k else none := by
  simp only [identityFields, List.filterMap_cons, List.filterMap_nil]
  by_cases hs : k = "software"
  · subst hs
    cases obj.lookup "software" <;> cases obj.lookup "version" <;>
      simp [OrderedMap.lookup_cons_eq]
  by_cases hv : k = "version"
  · subst hv
    cases obj.lookup "software" <;> cases obj.lookup "version" <;>
      simp [OrderedMap.lookup_cons_eq]
  · cases obj.lookup "software" <;> cases obj.lookup "version" <;>
      simp [OrderedMap.lookup_cons_eq, hs, hv]

/-- A document has no identity if it has neither of the two fields. -/
theorem identityFields_eq_nil : identityFields obj = [] ↔
    obj.lookup "software" = none ∧ obj.lookup "version" = none := by
  simp [identityFields]

/-- Overlaying a map in order gives a map in order. -/
theorem ordered_overlayFields {obj : List (String × Json)} (h : OrderedMap.Ordered obj) :
    OrderedMap.Ordered (overlayFields obj) := by
  rw [overlayFields]
  have hrest := (h.remove "software").remove "version"
  refine ((OrderedMap.Ordered.insert ?_ _ _).insert _ _).insert _ _
  split_ifs
  · exact hrest
  · exact hrest.insert _ _

/-! ## The law -/

/-- The document `out` is `doc` with outlay overlaid, and nothing lost. -/
structure Overlaid (doc out : Json) : Prop where
  software : out.get "software" = some (.str "outlay")
  version : out.get "version" = some (.str outlayVersion)
  proxy : out.get "proxy" = some (.bool true)
  /-- The identity of the upstream is found under `upstream`, and nothing else is
      taken for it. -/
  upstreamSoftware : (out.get "upstream").bind (Json.get "software") = doc.get "software"
  upstreamVersion : (out.get "upstream").bind (Json.get "version") = doc.get "version"
  /-- All other fields are still there. -/
  preserved : ∀ k v, k ≠ "software" → k ≠ "version" → k ≠ "proxy" →
    doc.get k = some v → out.get k = some v

/-- The document has no `upstream` field that the overlay would overwrite, or that
    could be taken for its own: if it has an identity, the field is exactly that;
    if it has none, neither has the field. -/
def Recoverable : Prop :=
  ∀ u, obj.lookup "upstream" = some u →
    if identityFields obj = [] then u.get "software" = none ∧ u.get "version" = none
    else u = .obj (identityFields obj)

variable {obj}

/-- What the `upstream` field of the overlaid document is. -/
theorem lookup_upstream : (overlayFields obj).lookup "upstream" =
    if identityFields obj = [] then obj.lookup "upstream"
    else some (.obj (identityFields obj)) := by
  rw [lookup_overlayFields]
  by_cases h : identityFields obj = [] <;> simp [h]

/-- A field the overlay does not write is as it was. -/
theorem lookup_overlayFields_of_ne {k : String} (hp : k ≠ "proxy") (hv : k ≠ "version")
    (hs : k ≠ "software") (hu : k ≠ "upstream") :
    (overlayFields obj).lookup k = obj.lookup k := by
  rw [lookup_overlayFields, if_neg hp, if_neg hv, if_neg hs, if_neg fun h => hu h.1]

/-- The identity of the upstream is found under `upstream`. -/
theorem Recoverable.identity (h : Recoverable obj) {k : String}
    (hk : k = "software" ∨ k = "version") :
    ((overlayFields obj).lookup "upstream").bind (Json.get k) = obj.lookup k := by
  rw [lookup_upstream]
  by_cases hm : identityFields obj = []
  · -- There is nothing to move, and nothing is taken for it.
    have hnone : obj.lookup k = none := by
      obtain ⟨hs, hv⟩ := (identityFields_eq_nil obj).1 hm
      rcases hk with rfl | rfl <;> assumption
    rw [if_pos hm, hnone]
    cases hu : obj.lookup "upstream" with
    | none => rfl
    | some u =>
      obtain ⟨hs, hv⟩ := (if_pos hm).mp (h u hu)
      rcases hk with rfl | rfl <;> assumption
  · rw [if_neg hm, Option.bind_some]
    exact (lookup_identityFields obj k).trans (if_pos hk)

/-- An `upstream` field the document has already stays as it is. -/
theorem Recoverable.upstream (h : Recoverable obj) {u : Json}
    (hu : obj.lookup "upstream" = some u) : (overlayFields obj).lookup "upstream" = some u := by
  rw [lookup_upstream]
  have := h u hu
  split_ifs at this ⊢
  · exact hu
  · exact congrArg some this.symm

/-- Nothing is lost if and only if the document has no `upstream` field that the
    overlay would overwrite, or that could be taken for its own. -/
theorem overlaid_iff (obj : List (String × Json)) :
    (∃ out, overlayProxyInfo (.obj obj) = some out ∧ Overlaid (.obj obj) out) ↔
      Recoverable obj := by
  constructor
  · rintro ⟨out, hout, h⟩ u hu
    obtain rfl := Option.some.inj hout
    have hkept : (overlayFields obj).lookup "upstream" = some u :=
      h.preserved "upstream" u (by decide) (by decide) (by decide) hu
    rw [lookup_upstream] at hkept
    split_ifs at hkept ⊢ with hm
    · -- With nothing to move, the field is taken for the overlay's own.
      have hs := h.upstreamSoftware
      have hv := h.upstreamVersion
      simp only [Json.get, lookup_upstream, if_pos hm, hu, Option.bind_some] at hs hv
      obtain ⟨hs', hv'⟩ := (identityFields_eq_nil obj).1 hm
      exact ⟨hs.trans hs', hv.trans hv'⟩
    · exact (Option.some.inj hkept).symm
  · intro h
    refine ⟨_, rfl, ?_, ?_, ?_, h.identity (.inl rfl), h.identity (.inr rfl), ?_⟩
    · exact (lookup_overlayFields obj _).trans (by simp)
    · exact (lookup_overlayFields obj _).trans (by simp)
    · exact (lookup_overlayFields obj _).trans (by simp)
    · intro k v hs hv hp hk
      by_cases hu : k = "upstream"
      · subst hu
        exact h.upstream hk
      · exact (lookup_overlayFields_of_ne hp hv hs hu).trans hk

/-- Behind another outlay, nothing is lost if and only if the document has no
    `upstream` field, or the one for outlay itself: what the other outlay has moved
    there is overwritten. -/
theorem recoverable_overlayFields_iff : Recoverable (overlayFields obj) ↔
    ∀ u, (overlayFields obj).lookup "upstream" = some u →
      u = .obj [("software", .str "outlay"), ("version", .str outlayVersion)] := by
  have hid : identityFields (overlayFields obj) =
      [("software", .str "outlay"), ("version", .str outlayVersion)] := by
    simp [identityFields, lookup_overlayFields]
  simp [Recoverable, hid]

/-- The document of another outlay that proxies a relay: its `upstream` field is lost. -/
theorem not_overlaid : ¬∀ obj : List (String × Json),
    ∃ out, overlayProxyInfo (.obj obj) = some out ∧ Overlaid (.obj obj) out := by
  intro h
  have hid : identityFields (overlayFields [("software", .str "strfry")]) =
      [("software", .str "outlay"), ("version", .str outlayVersion)] := by
    simp [identityFields, lookup_overlayFields]
  have hup : (overlayFields [("software", .str "strfry")]).lookup "upstream" =
      some (.obj [("software", .str "strfry")]) := by
    simp [lookup_upstream, identityFields]
  obtain ⟨out, hout, hO⟩ := h (overlayFields [("software", .str "strfry")])
  obtain rfl := Option.some.inj hout
  -- The field is still there, but with another value.
  have hkept := hO.preserved "upstream" _ (by decide) (by decide) (by decide) hup
  rw [Json.get, lookup_upstream, hid] at hkept
  simp at hkept

/-! ## The tool -/

/-- Whatever the upstream serves, the document returned is one of outlay. -/
theorem relayInfo_ok {url : String} {fetch : String → Fetched} {r : Option Json}
    (h : relayInfo url fetch = .ok r) : ∃ doc, r = some doc ∧
      doc.get "software" = some (.str "outlay") ∧
        doc.get "version" = some (.str outlayVersion) ∧ doc.get "proxy" = some (.bool true) := by
  rw [relayInfo] at h
  split at h
  next => cases h
  next =>
    split at h <;> obtain rfl := Except.ok.inj h
    next obj _ =>
      exact ⟨_, rfl, (lookup_overlayFields obj _).trans (by simp),
        (lookup_overlayFields obj _).trans (by simp), (lookup_overlayFields obj _).trans (by simp)⟩
    next => exact ⟨_, rfl, rfl, rfl, rfl⟩

example : nip11Origin "wss://relay.example.com/some/path?x=1" =
    some "https://relay.example.com" := by decide

end

end Outlay.Proxy

import Outlay.Shim.Outbound

/-!
# The client's messages

`parse_client_frame` is documented to accept the NIP-01 client messages only: a REQ
with its filters, a CLOSE, and an EVENT in its 2-element form. A filter and an event
are objects, and outlay asks for one filter at least.

The items past those a message needs are not looked at, though, and neither are the
filters nor the event: what the code does accept is `Accepted`. The frames that it
should not have accepted are the malformed ones (`Malformed`), and
`parseClientFrame_exact_iff` says that there are no others.
-/

namespace Outlay

/-- `Value::is_object`. -/
def Json.isObject : Json → Bool
  | .obj _ => true
  | _ => false

namespace Shim

/-- The NIP-01 client messages, as they are documented. -/
inductive Documented : Json → ClientMsg → Prop
  /-- `["REQ", sub, f1, f2, …]` -/
  | req (subId : String) (f : Json) (filters : List Json)
      (h : ∀ g ∈ f :: filters, g.isObject) :
      Documented (.arr (.str "REQ" :: .str subId :: f :: filters)) (.req subId (f :: filters))
  /-- `["CLOSE", sub]` -/
  | close (subId : String) : Documented (.arr [.str "CLOSE", .str subId]) (.close subId)
  /-- `["EVENT", <event>]` -/
  | publish (event : Json) (h : event.isObject) :
      Documented (.arr [.str "EVENT", event]) (.publish event)

/-- The messages as the code recognizes them. -/
inductive Accepted : List Json → ClientMsg → Prop
  | req (subId : String) (filters : List Json) :
      Accepted (.str "REQ" :: .str subId :: filters) (.req subId filters)
  | close (subId : String) (rest : List Json) :
      Accepted (.str "CLOSE" :: .str subId :: rest) (.close subId)
  | publish (event : Json) (rest : List Json) :
      Accepted (.str "EVENT" :: event :: rest) (.publish event)

/-- The frames taken for a message that they are not. -/
inductive Malformed : List Json → Prop
  /-- A REQ without filters. -/
  | noFilter (subId : String) : Malformed [.str "REQ", .str subId]
  /-- A REQ with a filter that is no object. -/
  | badFilter (subId : String) (filters : List Json) (f : Json) (hf : f ∈ filters)
      (h : f.isObject = false) : Malformed (.str "REQ" :: .str subId :: filters)
  /-- A CLOSE of more than two elements. -/
  | longClose (subId : String) (x : Json) (rest : List Json) :
      Malformed (.str "CLOSE" :: .str subId :: x :: rest)
  /-- An EVENT of more than two elements, such as the relay's own form. -/
  | longEvent (event x : Json) (rest : List Json) :
      Malformed (.str "EVENT" :: event :: x :: rest)
  /-- An EVENT that is no object. -/
  | badEvent (event : Json) (h : event.isObject = false) : Malformed [.str "EVENT", event]

/-! ## What is accepted -/

theorem asStr_eq_some {v : Json} {s : String} (h : v.asStr = some s) : v = .str s := by
  cases v with
  | str t => exact congrArg Json.str (Option.some.inj h)
  | _ => cases h

/-- A frame whose first item is read as a string starts with it. -/
theorem head_eq_some {arr : List Json} {s : String} (h : arr[0]?.bind Json.asStr = some s) :
    ∃ rest, arr = .str s :: rest := by
  cases arr with
  | nil => cases h
  | cons v rest => exact ⟨rest, congrArg (· :: rest) (asStr_eq_some h)⟩

theorem parseItems_eq_some_iff (arr : List Json) (m : ClientMsg) :
    parseItems arr = some m ↔ Accepted arr m := by
  constructor
  · intro h
    rw [parseItems] at h
    split at h
    next hkind =>
      obtain ⟨rest, rfl⟩ := head_eq_some hkind
      obtain ⟨subId, hsub, rfl⟩ := Option.map_eq_some_iff.1 h
      obtain ⟨filters, rfl⟩ := head_eq_some (show rest[0]?.bind Json.asStr = _ from hsub)
      exact .req subId filters
    next hkind =>
      obtain ⟨rest, rfl⟩ := head_eq_some hkind
      obtain ⟨subId, hsub, rfl⟩ := Option.map_eq_some_iff.1 h
      obtain ⟨rest, rfl⟩ := head_eq_some (show rest[0]?.bind Json.asStr = _ from hsub)
      exact .close subId rest
    next hkind =>
      obtain ⟨rest, rfl⟩ := head_eq_some hkind
      obtain ⟨event, hevent, rfl⟩ := Option.map_eq_some_iff.1 h
      cases rest with
      | nil => cases hevent
      | cons e rest =>
        obtain rfl := Option.some.inj hevent
        exact .publish e rest
    next => cases h
  · rintro (⟨subId, filters⟩ | ⟨subId, rest⟩ | ⟨event, rest⟩) <;> rfl

theorem parseClientFrame_eq_some_iff {decode : String → Option Json} {text : String}
    {m : ClientMsg} : parseClientFrame decode text = some m ↔
      ∃ arr, decode text = some (.arr arr) ∧ Accepted arr m := by
  constructor
  · intro h
    rw [parseClientFrame] at h
    split at h
    next arr harr => exact ⟨arr, harr, (parseItems_eq_some_iff arr m).1 h⟩
    next => cases h
  · rintro ⟨arr, harr, h⟩
    rw [parseClientFrame, harr]
    exact (parseItems_eq_some_iff arr m).2 h

/-! ## What is documented -/

/-- What is documented is accepted. -/
theorem Documented.accepted {v : Json} {m : ClientMsg} (h : Documented v m) :
    ∃ arr, v = .arr arr ∧ Accepted arr m := by
  cases h with
  | req subId f filters _ => exact ⟨_, rfl, .req subId (f :: filters)⟩
  | close subId => exact ⟨_, rfl, .close subId []⟩
  | publish event _ => exact ⟨_, rfl, .publish event []⟩

/-- What is accepted is documented, or else is malformed. -/
theorem Accepted.documented {arr : List Json} {m : ClientMsg} (h : Accepted arr m) :
    Documented (.arr arr) m ∨ Malformed arr := by
  cases h with
  | req subId filters =>
    by_cases hobj : ∀ g ∈ filters, g.isObject
    · cases filters with
      | nil => exact .inr (.noFilter subId)
      | cons f filters => exact .inl (.req subId f filters hobj)
    · push Not at hobj
      obtain ⟨f, hf, hfalse⟩ := hobj
      exact .inr (.badFilter subId filters f hf (Bool.eq_false_iff.2 hfalse))
  | close subId rest =>
    cases rest with
    | nil => exact .inl (.close subId)
    | cons x rest => exact .inr (.longClose subId x rest)
  | publish event rest =>
    cases rest with
    | cons x rest => exact .inr (.longEvent event x rest)
    | nil =>
      cases hobj : event.isObject with
      | true => exact .inl (.publish event hobj)
      | false => exact .inr (.badEvent event hobj)

/-- What is malformed is accepted. -/
theorem Malformed.accepted {arr : List Json} (h : Malformed arr) : ∃ m, Accepted arr m := by
  cases h with
  | noFilter subId => exact ⟨_, .req subId []⟩
  | badFilter subId filters => exact ⟨_, .req subId filters⟩
  | longClose subId x rest => exact ⟨_, .close subId (x :: rest)⟩
  | longEvent event x rest => exact ⟨_, .publish event (x :: rest)⟩
  | badEvent event => exact ⟨_, .publish event []⟩

/-- The shape of a documented message. -/
theorem Documented.shape {arr : List Json} {m : ClientMsg} (h : Documented (.arr arr) m) :
    (∃ subId filters, arr = .str "REQ" :: .str subId :: filters ∧ filters ≠ [] ∧
        ∀ g ∈ filters, g.isObject = true) ∨
      (∃ subId, arr = [.str "CLOSE", .str subId]) ∨
        ∃ event, arr = [.str "EVENT", event] ∧ event.isObject = true := by
  generalize hv : Json.arr arr = v at h
  cases h with
  | req subId f filters hobj =>
    exact .inl ⟨subId, _, Json.arr.inj hv, List.cons_ne_nil f filters, hobj⟩
  | close subId => exact .inr (.inl ⟨subId, Json.arr.inj hv⟩)
  | publish event hobj => exact .inr (.inr ⟨event, Json.arr.inj hv, hobj⟩)

/-- What is malformed is not documented. -/
theorem Malformed.not_documented {arr : List Json} {m : ClientMsg} (h : Malformed arr) :
    ¬Documented (.arr arr) m := by
  intro hd
  -- The kind and the length of the frame leave one of the three shapes at most.
  have hshape := hd.shape
  cases h with
  | noFilter subId => simp at hshape
  | badFilter subId filters f hf hfalse =>
    have hobj : ∀ g ∈ filters, g.isObject = true := by
      simp at hshape
      exact hshape.2
    exact Bool.false_ne_true (hfalse.symm.trans (hobj f hf))
  | longClose subId x rest => simp at hshape
  | longEvent event x rest => simp at hshape
  | badEvent event hfalse => simp [hfalse] at hshape

/-- A text that is not malformed is parsed to what it is documented to be. -/
theorem documented_of_parse {decode : String → Option Json} {text : String} {m : ClientMsg}
    (hbad : ∀ arr, decode text = some (.arr arr) → ¬Malformed arr)
    (h : parseClientFrame decode text = some m) :
    ∃ v, decode text = some v ∧ Documented v m := by
  obtain ⟨arr, harr, hm⟩ := parseClientFrame_eq_some_iff.1 h
  exact ⟨_, harr, hm.documented.resolve_right (hbad arr harr)⟩

/-! ## The law -/

/-- A text is parsed to the message it is documented to be, and to none if it is none. -/
def Exact (decode : String → Option Json) (text : String) : Prop :=
  ∀ m, parseClientFrame decode text = some m ↔ ∃ v, decode text = some v ∧ Documented v m

/-- The messages accepted are those documented, if and only if the frame is not
    malformed. -/
theorem parseClientFrame_exact_iff (decode : String → Option Json) (text : String) :
    Exact decode text ↔ ∀ arr, decode text = some (.arr arr) → ¬Malformed arr := by
  constructor
  · intro h arr harr hbad
    obtain ⟨m, hm⟩ := hbad.accepted
    obtain ⟨v, hv, hd⟩ := (h m).1 (parseClientFrame_eq_some_iff.2 ⟨arr, harr, hm⟩)
    obtain rfl := Option.some.inj (harr.symm.trans hv)
    exact hbad.not_documented hd
  · intro h m
    refine ⟨documented_of_parse h, ?_⟩
    rintro ⟨v, hv, hd⟩
    obtain ⟨arr, rfl, hm⟩ := hd.accepted
    exact parseClientFrame_eq_some_iff.2 ⟨arr, hv, hm⟩

/-- An EVENT in the form of a relay. -/
def relayEvent : Json := .arr [.str "EVENT", .str "s", .obj []]

/-- The relay's form of an EVENT is accepted, and its subscription taken for the event. -/
theorem not_exact :
    ¬Exact (fun t => if t = relayEvent.render then some relayEvent else none)
      relayEvent.render := by
  intro h
  obtain ⟨v, hv, hd⟩ := (h (.publish (.str "s"))).1 (by
    rw [parseClientFrame_eq_some_iff]
    exact ⟨_, if_pos rfl, .publish (.str "s") [.obj []]⟩)
  obtain rfl := Option.some.inj ((if_pos rfl).symm.trans hv)
  exact (Malformed.longEvent (.str "s") (.obj []) []).not_documented hd

/-- In every run of a connection, all the client is given for a text frame that is
    neither a message as documented nor malformed is the NOTICE. -/
theorem given_notice {decode : String → Option Json} {s : Conn}
    (hs : (Conn.system decode).Reachable s) {n : ℕ} {text : String}
    (hn : s.inbound[n]? = some (.text text))
    (hbad : ∀ arr, decode text = some (.arr arr) → ¬Malformed arr)
    (hnone : ∀ v m, decode text = some v → ¬Documented v m) :
    framesOf n s.given <+: [noticeFrame "unrecognized frame"] := by
  have hparse : parseClientFrame decode text = none := by
    refine Option.eq_none_iff_forall_ne_some.2 fun m hm => ?_
    obtain ⟨v, hv, hd⟩ := documented_of_parse hbad hm
    exact hnone v m hv hd
  have hreq : s.request decode n = some none := by
    simp [Conn.request, hn, Conn.asked, hparse]
  simpa [Conn.answer, hreq] using Conn.given_isPrefix hs n

end Shim

end Outlay

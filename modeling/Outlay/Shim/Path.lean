import Outlay.Proxy.Publish
import Outlay.Shim.Transport
import Outlay.Str

/-!
# Paths

The path a visitor asks for names a server by its public key: in hex, as an npub,
or as an nprofile, which carries relay hints. It is parsed to the lowercase hex of
the key, which the transport cache keys on, and the hints (`parsePath`).

Keys and their encodings are those of the Nostr library, of which the model takes
what the parser relies on as parameters: a `NostrCodec`. If it is lawful, parsing
is canonical (`canonical`): what a path is parsed to depends on nothing but the
key it denotes and the hints it carries.
-/

namespace Outlay.Shim

open Proxy (CanonicalHex)

/-- The bech32 entities that are no identity of a server. -/
inductive Entity
  | secret
  | encryptedSecret
  | eventId
  | event
  | coordinate
  deriving DecidableEq

/-- What a bech32 string stands for. -/
inductive Nip19 (PublicKey RelayUrl : Type*)
  | pubkey (pk : PublicKey)
  | profile (pk : PublicKey) (relays : List RelayUrl)
  | other (e : Entity)

/-- The human-readable prefix. -/
def Nip19.hrp {PublicKey RelayUrl : Type*} : Nip19 PublicKey RelayUrl → String
  | .pubkey _ => "npub"
  | .profile _ _ => "nprofile"
  | .other .secret => "nsec"
  | .other .encryptedSecret => "ncryptsec"
  | .other .eventId => "note"
  | .other .event => "nevent"
  | .other .coordinate => "naddr"

/-- Why a path is not accepted. -/
inductive PathError
  | notAPubkey
  | invalid (e : String)
  deriving DecidableEq

/-- The text of the error. -/
def PathError.text : PathError → String
  | .notAPubkey => "not a server pubkey (expected 64-char hex, npub, or nprofile)"
  | .invalid e => "invalid pubkey: " ++ e

/-- 64 hexadecimal digits. -/
def looksHex (s : String) : Bool := Str.len s == 64 && s.toList.all Str.isAsciiHexdigit

/-- What parsing a path relies on of the Nostr library. -/
structure NostrCodec (PublicKey RelayUrl : Type*) where
  fromHex : String → Except String PublicKey
  toHex : PublicKey → String
  fromBech32 : String → Except String (Nip19 PublicKey RelayUrl)
  asStrWithoutTrailingSlash : RelayUrl → String

/-- Hex is decoded in either case, and written in lowercase. A bech32 string starts
    with its prefix, in either case. -/
structure NostrCodec.Lawful {PublicKey RelayUrl : Type*}
    (nostr : NostrCodec PublicKey RelayUrl) : Prop where
  canonicalHex_toHex : ∀ pk, CanonicalHex (nostr.toHex pk)
  fromHex_toHex : ∀ pk, nostr.fromHex (nostr.toHex pk) = .ok pk
  toHex_of_fromHex : ∀ {s : String} {pk : PublicKey}, looksHex s → nostr.fromHex s = .ok pk →
    nostr.toHex pk = Str.toAsciiLowercase s
  hrp_of_fromBech32 : ∀ {s : String} {n : Nip19 PublicKey RelayUrl}, nostr.fromBech32 s = .ok n →
    n.hrp.toList <+: (Str.toAsciiLowercase s).toList

namespace NostrCodec

variable {PublicKey RelayUrl : Type*} (nostr : NostrCodec PublicKey RelayUrl)

/-- Validate a path. Accepts hex, npub, and nprofile. -/
def parsePath (raw : String) : Except PathError ParsedPath :=
  let s := Str.trim raw
  if s.isEmpty then .error .notAPubkey
  else if looksHex s then
    match nostr.fromHex s with
    | .ok pk => .ok { hex := nostr.toHex pk, relayHints := [] }
    | .error e => .error (.invalid e)
  else
    match nostr.fromBech32 s with
    | .ok (.pubkey pk) => .ok { hex := nostr.toHex pk, relayHints := [] }
    | .ok (.profile pk relays) => .ok {
        hex := nostr.toHex pk
        relayHints := relays.map nostr.asStrWithoutTrailingSlash }
    | .ok (.other _) => .error .notAPubkey
    | .error e => .error (.invalid e)

/-- The string, whitespace around it aside, denotes the key, with relay hints. -/
inductive Denotes (raw : String) (pk : PublicKey) : List RelayUrl → Prop
  | hex : looksHex (Str.trim raw) → nostr.fromHex (Str.trim raw) = .ok pk → Denotes raw pk []
  | npub : nostr.fromBech32 (Str.trim raw) = .ok (.pubkey pk) → Denotes raw pk []
  | nprofile {relays : List RelayUrl} :
      nostr.fromBech32 (Str.trim raw) = .ok (.profile pk relays) → Denotes raw pk relays

end NostrCodec

/-! ## What looks like hex -/

section

variable {s : String}

theorem looksHex_iff : looksHex s ↔
    s.length = 64 ∧ ∀ c ∈ s.toList, Str.isAsciiHexdigit c := by
  simp only [looksHex, Bool.and_eq_true, beq_iff_eq, List.all_eq_true]
  refine and_congr_left fun h => ?_
  rw [Str.len_of_isAsciiHexdigit h]

/-- What holds of the lowercase digits holds of the letters of canonical hex. -/
theorem forall_of_canonicalHex {P : Char → Prop} [DecidablePred P] (h : CanonicalHex s)
    (hall : "0123456789abcdef".toList.all fun d => P d) : ∀ c ∈ s.toList, P c :=
  fun c hc => of_decide_eq_true (List.all_eq_true.1 hall c (h.2 c hc))

/-- Canonical hex looks like hex. -/
theorem looksHex_of_canonicalHex (h : CanonicalHex s) : looksHex s :=
  looksHex_iff.2 ⟨h.1, forall_of_canonicalHex h (by decide)⟩

/-- What looks like hex has no whitespace. -/
theorem trim_of_looksHex (h : looksHex s) : Str.trim s = s :=
  Str.trim_of_not_whitespace fun c hc =>
    Str.not_isWhitespace_of_isAsciiHexdigit ((looksHex_iff.1 h).2 c hc)

theorem not_isEmpty_of_looksHex (h : looksHex s) : ¬s.isEmpty := by
  intro he
  have hlen := (looksHex_iff.1 h).1
  rw [String.isEmpty_iff.1 he] at hlen
  exact absurd hlen (by decide)

end

namespace NostrCodec

variable {PublicKey RelayUrl : Type*} {nostr : NostrCodec PublicKey RelayUrl}
  {raw : String} {p : ParsedPath}

/-! ## What a path denotes -/

namespace Lawful

variable (hl : nostr.Lawful)

include hl

theorem toHex_injective : Function.Injective nostr.toHex := fun pk pk' h => by
  have hpk := hl.fromHex_toHex pk
  rw [h, hl.fromHex_toHex pk'] at hpk
  exact (Except.ok.inj hpk).symm

/-- A bech32 string starts with the letter n. -/
theorem exists_cons_of_fromBech32 {s : String} {n : Nip19 PublicKey RelayUrl}
    (h : nostr.fromBech32 s = .ok n) : ∃ c l, s.toList = c :: l ∧ c.toLower = 'n' := by
  have hn : n.hrp.toList.head? = some 'n' := by
    cases n with
    | pubkey _ => simp [Nip19.hrp]
    | profile _ _ => simp [Nip19.hrp]
    | other e => cases e <;> simp [Nip19.hrp]
  obtain ⟨t, ht⟩ := List.head?_eq_some_iff.1 hn
  obtain ⟨u, hu⟩ := hl.hrp_of_fromBech32 h
  rw [ht, List.cons_append, Str.toAsciiLowercase, String.toList_ofList] at hu
  obtain ⟨c, l, hs, hc, -⟩ := List.map_eq_cons_iff.1 hu.symm
  exact ⟨c, l, hs, hc⟩

/-- A bech32 string does not look like hex. -/
theorem not_looksHex_of_fromBech32 {s : String} {n : Nip19 PublicKey RelayUrl}
    (h : nostr.fromBech32 s = .ok n) : ¬looksHex s := by
  intro hx
  obtain ⟨c, l, hs, hc⟩ := hl.exists_cons_of_fromBech32 h
  have hd : Str.isAsciiHexdigit c := (looksHex_iff.1 hx).2 c (hs ▸ List.mem_cons_self)
  exact Str.toLower_ne_of_isAsciiHexdigit hd hc

theorem not_isEmpty_of_fromBech32 {s : String} {n : Nip19 PublicKey RelayUrl}
    (h : nostr.fromBech32 s = .ok n) : ¬s.isEmpty := by
  intro he
  obtain ⟨c, l, hs, -⟩ := hl.exists_cons_of_fromBech32 h
  rw [String.isEmpty_iff.1 he] at hs
  exact absurd hs (by simp)

/-- A bech32 string is parsed as what it stands for. -/
theorem parsePath_of_fromBech32 {n : Nip19 PublicKey RelayUrl}
    (h : nostr.fromBech32 (Str.trim raw) = .ok n) :
    nostr.parsePath raw = match n with
      | .pubkey pk => .ok ⟨nostr.toHex pk, []⟩
      | .profile pk relays =>
        .ok ⟨nostr.toHex pk, relays.map nostr.asStrWithoutTrailingSlash⟩
      | .other _ => .error .notAPubkey := by
  simp only [parsePath, if_neg (hl.not_isEmpty_of_fromBech32 h),
    if_neg (hl.not_looksHex_of_fromBech32 h), h]
  cases n <;> rfl

/-- What is accepted denotes a key, and is parsed to the key and the hints. -/
theorem parsePath_eq_ok_iff : nostr.parsePath raw = .ok p ↔ ∃ pk relays,
    nostr.Denotes raw pk relays ∧
      p = ⟨nostr.toHex pk, relays.map nostr.asStrWithoutTrailingSlash⟩ := by
  constructor
  · intro h
    simp only [parsePath] at h
    split at h
    · cases h
    · split at h
      next hx =>
        split at h <;> cases h
        next pk hpk => exact ⟨pk, [], .hex hx hpk, rfl⟩
      next =>
        split at h <;> cases h
        next pk hpk => exact ⟨pk, [], .npub hpk, rfl⟩
        next pk relays hpk => exact ⟨pk, relays, .nprofile hpk, rfl⟩
  · rintro ⟨pk, relays, hd, rfl⟩
    cases hd with
    | hex hx hpk => simp only [parsePath, if_neg (not_isEmpty_of_looksHex hx), if_pos hx, hpk,
        List.map_nil]
    | npub hpk => exact hl.parsePath_of_fromBech32 hpk
    | nprofile hpk => exact hl.parsePath_of_fromBech32 hpk

end Lawful

/-! ## Canonical parsing -/

variable (nostr) in
/-- The string denotes the key. -/
def DenotesKey (raw : String) (pk : PublicKey) : Prop := ∃ relays, nostr.Denotes raw pk relays

variable (nostr) in
/-- Paths are parsed to one canonical identity. -/
structure Canonical : Prop where
  /-- What denotes a key is accepted, with its hints in order. -/
  accepted : ∀ {raw pk relays}, nostr.Denotes raw pk relays →
    nostr.parsePath raw = .ok ⟨nostr.toHex pk, relays.map nostr.asStrWithoutTrailingSlash⟩
  /-- What is accepted denotes exactly one key. -/
  denotes : ∀ {raw p}, nostr.parsePath raw = .ok p → ∃! pk, nostr.DenotesKey raw pk
  /-- The identity is that of the key denoted. -/
  hex_eq_iff : ∀ {a b p q}, nostr.parsePath a = .ok p → nostr.parsePath b = .ok q →
    (p.hex = q.hex ↔ ∃ pk, nostr.DenotesKey a pk ∧ nostr.DenotesKey b pk)
  canonicalHex : ∀ {raw p}, nostr.parsePath raw = .ok p → CanonicalHex p.hex
  /-- Hex is parsed to its lowercase. -/
  lowercase : ∀ {raw p}, looksHex (Str.trim raw) → nostr.parsePath raw = .ok p →
    p.hex = Str.toAsciiLowercase (Str.trim raw)
  idempotent : ∀ {raw p}, nostr.parsePath raw = .ok p → nostr.parsePath p.hex = .ok ⟨p.hex, []⟩
  /-- Whitespace around a path does not matter. -/
  surrounded : ∀ {w w'}, Str.AllWhitespace w → Str.AllWhitespace w' →
    ∀ raw, nostr.parsePath (w ++ raw ++ w') = nostr.parsePath raw
  /-- Hints are those of an nprofile. -/
  hints : ∀ {raw p}, nostr.parsePath raw = .ok p → p.relayHints ≠ [] → ∃ pk relays,
    nostr.fromBech32 (Str.trim raw) = .ok (.profile pk relays) ∧ relays ≠ [] ∧
      p.relayHints = relays.map nostr.asStrWithoutTrailingSlash
  /-- Other entities are not accepted. -/
  other : ∀ {raw e}, nostr.fromBech32 (Str.trim raw) = .ok (.other e) →
    nostr.parsePath raw = .error .notAPubkey
  /-- Nor is whitespace. -/
  blank : ∀ {raw}, Str.AllWhitespace raw → nostr.parsePath raw = .error .notAPubkey

/-- Whitespace around a path is trimmed. -/
theorem parsePath_congr {raw' : String} (h : Str.trim raw = Str.trim raw') :
    nostr.parsePath raw = nostr.parsePath raw' := by
  rw [parsePath, h, parsePath]

namespace Lawful

variable (hl : nostr.Lawful)

include hl

/-- A string denotes at most one key. -/
theorem denotes_unique {pk pk' : PublicKey} {relays relays' : List RelayUrl}
    (h : nostr.Denotes raw pk relays) (h' : nostr.Denotes raw pk' relays') : pk = pk' := by
  have hp := hl.parsePath_eq_ok_iff.2 ⟨pk, relays, h, rfl⟩
  rw [hl.parsePath_eq_ok_iff.2 ⟨pk', relays', h', rfl⟩] at hp
  have hpk : nostr.toHex pk' = nostr.toHex pk := congrArg ParsedPath.hex (Except.ok.inj hp)
  exact hl.toHex_injective hpk.symm

/-- The hex of a key is parsed to itself. -/
theorem parsePath_toHex (pk : PublicKey) :
    nostr.parsePath (nostr.toHex pk) = .ok ⟨nostr.toHex pk, []⟩ := by
  have hx := looksHex_of_canonicalHex (hl.canonicalHex_toHex pk)
  refine hl.parsePath_eq_ok_iff.2 ⟨pk, [], .hex ?_ ?_, rfl⟩
  · rwa [trim_of_looksHex hx]
  · rw [trim_of_looksHex hx, hl.fromHex_toHex]

/-- What is accepted has the hex of a key. -/
theorem exists_toHex_eq (h : nostr.parsePath raw = .ok p) : ∃ pk, nostr.toHex pk = p.hex := by
  obtain ⟨pk, relays, -, rfl⟩ := hl.parsePath_eq_ok_iff.1 h
  exact ⟨pk, rfl⟩

end Lawful

/-- Over a lawful codec, paths are parsed to one canonical identity. -/
theorem canonical (hl : nostr.Lawful) : nostr.Canonical := by
  constructor
  case accepted => exact fun hd => hl.parsePath_eq_ok_iff.2 ⟨_, _, hd, rfl⟩
  case denotes =>
    intro raw p h
    obtain ⟨pk, relays, hd, -⟩ := hl.parsePath_eq_ok_iff.1 h
    exact ⟨pk, ⟨relays, hd⟩, fun pk' ⟨_, hd'⟩ => hl.denotes_unique hd' hd⟩
  case hex_eq_iff =>
    intro a b p q ha hb
    obtain ⟨pk, relays, hda, rfl⟩ := hl.parsePath_eq_ok_iff.1 ha
    obtain ⟨pk', relays', hdb, rfl⟩ := hl.parsePath_eq_ok_iff.1 hb
    constructor
    · intro h
      obtain rfl := hl.toHex_injective h
      exact ⟨pk, ⟨relays, hda⟩, relays', hdb⟩
    · rintro ⟨key, ⟨_, hka⟩, _, hkb⟩
      rw [hl.denotes_unique hda hka, hl.denotes_unique hdb hkb]
  case canonicalHex =>
    intro raw p h
    obtain ⟨pk, hpk⟩ := hl.exists_toHex_eq h
    exact hpk ▸ hl.canonicalHex_toHex pk
  case lowercase =>
    intro raw p hx h
    obtain ⟨pk, relays, hd, rfl⟩ := hl.parsePath_eq_ok_iff.1 h
    cases hd with
    | hex _ hpk => exact hl.toHex_of_fromHex hx hpk
    | npub hpk => exact absurd hx (hl.not_looksHex_of_fromBech32 hpk)
    | nprofile hpk => exact absurd hx (hl.not_looksHex_of_fromBech32 hpk)
  case idempotent =>
    intro raw p h
    obtain ⟨pk, hpk⟩ := hl.exists_toHex_eq h
    exact hpk ▸ hl.parsePath_toHex pk
  case surrounded => exact fun hw hw' raw => parsePath_congr (Str.trim_surrounded hw hw' raw)
  case hints =>
    intro raw p h hne
    obtain ⟨pk, relays, hd, rfl⟩ := hl.parsePath_eq_ok_iff.1 h
    cases hd with
    | hex _ _ => exact absurd rfl hne
    | npub _ => exact absurd rfl hne
    | nprofile hpk => exact ⟨pk, relays, hpk, fun hr => hne (hr ▸ rfl), rfl⟩
  case other => exact fun h => hl.parsePath_of_fromBech32 h
  case blank =>
    intro raw h
    have he : (Str.trim raw).isEmpty := by rw [Str.trim_of_allWhitespace h]; rfl
    simp only [parsePath, if_pos he]

/-! A codec that knows the npub and an nprofile of one key. -/

theorem canonicalHex_of_all {s : String} (hlen : s.length = 64)
    (hall : s.toList.all "0123456789abcdef".toList.contains) : CanonicalHex s :=
  ⟨hlen, fun c hc => List.contains_iff_mem.1 (List.all_eq_true.1 hall c hc)⟩

/-- Canonical hex is in lowercase. -/
theorem toAsciiLowercase_of_canonicalHex {s : String} (h : CanonicalHex s) :
    Str.toAsciiLowercase s = s := by
  have hmap : s.toList.map Char.toLower = s.toList.map id :=
    List.map_congr_left (forall_of_canonicalHex h (by decide))
  rw [Str.toAsciiLowercase, hmap, List.map_id, String.ofList_toList]

/-- Keys kept as their canonical hex. -/
abbrev HexKey : Type := {s : String // CanonicalHex s}

def sampleKey : HexKey :=
  ⟨"3bf0c63fcb93463407af97a5e5ee64fa883d107ef9e558472c4eb9aaaefa459d",
    canonicalHex_of_all (by decide) (by decide)⟩

def sampleNpub : String := "npub180cvv07tjdrrgpa0j7j7tmnyl2yr6yr7l8j4s3evf6u64th6gkwsyjh6w6"

def sampleNprofile : String :=
  "nprofile1qqsrhuxx8l9ex335q7he0f09aej04zpazpl0ne2cgukyawd24mayt8gppamhxue69uhkummnw3ezuam5vcpj8f8e"

def sample : NostrCodec HexKey String where
  fromHex s :=
    let t := Str.toAsciiLowercase s
    if h : t.length = 64 ∧ t.toList.all "0123456789abcdef".toList.contains then
      .ok ⟨t, canonicalHex_of_all h.1 h.2⟩
    else .error "invalid hex"
  toHex := Subtype.val
  fromBech32 s :=
    if s = sampleNpub then .ok (.pubkey sampleKey)
    else if s = sampleNprofile then .ok (.profile sampleKey ["wss://nostr.wtf"])
    else .error "parsing failed"
  asStrWithoutTrailingSlash := id

theorem sample_lawful : sample.Lawful where
  canonicalHex_toHex := Subtype.property
  fromHex_toHex pk := by
    have hlower := toAsciiLowercase_of_canonicalHex pk.2
    have hall : pk.1.toList.all "0123456789abcdef".toList.contains :=
      List.all_eq_true.2 fun c hc => List.contains_iff_mem.2 (pk.2.2 c hc)
    simp only [sample, hlower, dif_pos (And.intro pk.2.1 hall)]
  toHex_of_fromHex := fun {s pk} _ h => by
    simp only [sample] at h
    split at h <;> cases h
    rfl
  hrp_of_fromBech32 := fun {s n} h => by
    simp only [sample] at h
    split at h
    next hs =>
      cases h
      subst hs
      decide
    next =>
      split at h <;> cases h
      next hs =>
        subst hs
        decide +kernel

theorem sample_canonical : sample.Canonical ∧
    sample.parsePath "\n3BF0C63FCB93463407AF97A5E5EE64FA883D107EF9E558472C4EB9AAAEFA459D\n" =
      .ok ⟨sampleKey, []⟩ ∧
    sample.parsePath sampleNprofile = .ok ⟨sampleKey, ["wss://nostr.wtf"]⟩ :=
  ⟨canonical sample_lawful, by decide +kernel, by decide +kernel⟩

end NostrCodec

end Outlay.Shim

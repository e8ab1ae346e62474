import Outlay.Shim.Config
import Outlay.Shim.Nip11
import Outlay.Shim.Path

/-!
# The bridge link

The page of a server has a link to the bridge to it: the public URL of the shim, a
slash, and the hex of the server. A client that dials the link asks for its path,
which the shim routes, as a path of one segment, to the bridge of the server that
the segment names.

The public URL is kept as the operator has spelled it. A slash at its end makes
the path of the link start with an empty segment, which is not routed; so the link
leads back to the server if and only if the public URL does not end with a slash
(`leadsBack_iff`).
-/

namespace Outlay.Shim

open Env

/-! ## Serving the page -/

/-- A response, as far as the shim makes it. -/
structure Response where
  status : ℕ
  headers : List (String × String)
  body : String

def nip11Json : String := "application/nostr+json"

/-- Serve a document as JSON or as a page, by what the client accepts. -/
def render (doc : Json) (accept jumble : Option String) : Response :=
  let wantsJson := accept.any fun s => decide (nip11Json.toList <:+: s.toList)
  if wantsJson then {
    status := 200
    headers := [("content-type", nip11Json), ("access-control-allow-origin", "*")]
    body := doc.toStringPretty }
  else {
    status := 200
    headers := [("content-type", "text/html; charset=utf-8")]
    body := renderHtml doc jumble }

/-- Serve an error. -/
def plain (status : ℕ) (msg : String) : Response where
  status
  headers := [("content-type", "text/plain; charset=utf-8")]
  body := msg

/-- The bridge link of a server. -/
def jumble (cfg : ShimConfig) (parsed : ParsedPath) : Option String :=
  cfg.publicUrl.map fun u => u ++ "/" ++ parsed.hex

/-- Serve the document of a server, which `fetch` asks it for. -/
def servePubkey {PublicKey RelayUrl : Type*} (nostr : NostrCodec PublicKey RelayUrl)
    (fetch : ParsedPath → Except String Json) (cfg : ShimConfig) (accept : Option String)
    (pubkey : String) : Response :=
  match nostr.parsePath pubkey with
  | .error e => plain 400 e.text
  | .ok parsed =>
    match fetch parsed with
    | .error e => plain 502 e
    | .ok doc => render doc accept (jumble cfg parsed)

/-- The page served for the path shows the link, whatever the document of the server. -/
def ShowsLink {PublicKey RelayUrl : Type*} (nostr : NostrCodec PublicKey RelayUrl)
    (cfg : ShimConfig) (raw link : String) : Prop :=
  ∀ (fetch : ParsedPath → Except String Json) (doc : Json) {parsed : ParsedPath},
    nostr.parsePath raw = .ok parsed → fetch parsed = .ok doc →
      (servePubkey nostr fetch cfg none raw).body = renderHtml doc (some link)

section

variable {PublicKey RelayUrl : Type*} {nostr : NostrCodec PublicKey RelayUrl}
  {cfg : ShimConfig} {raw : String} {parsed : ParsedPath}

/-- The page of a server that answers shows its bridge link. -/
theorem showsLink_iff {u link : String} (hu : cfg.publicUrl = some u)
    (hp : nostr.parsePath raw = .ok parsed) :
    ShowsLink nostr cfg raw link ↔ link = u ++ "/" ++ parsed.hex := by
  have hpage : ∀ (fetch : ParsedPath → Except String Json) (doc : Json), fetch parsed = .ok doc →
      servePubkey nostr fetch cfg none raw =
        render doc none (some (u ++ "/" ++ parsed.hex)) := fun fetch doc hdoc => by
    simp only [servePubkey, hp, hdoc, jumble, hu, Option.map_some]
  constructor
  · intro h
    -- The page of an empty document will do.
    have hbody := h (fun _ => .ok .null) .null hp rfl
    rw [hpage _ _ rfl] at hbody
    exact (renderHtml_injective hbody).symm
  · rintro rfl fetch doc p hp' hdoc
    obtain rfl := Except.ok.inj (hp.symm.trans hp')
    rw [hpage fetch doc hdoc]
    rfl

end

/-! ## Dialling the link -/

/-- What follows the scheme of a WebSocket URL. -/
def afterScheme : List Char → Option (List Char)
  | 'w' :: 's' :: ':' :: '/' :: '/' :: rest => some rest
  | 'w' :: 's' :: 's' :: ':' :: '/' :: '/' :: rest => some rest
  | _ => none

/-- The letters that an authority ends at. -/
def endsAuthority (c : Char) : Bool := c == '/' || c == '\\' || c == '?' || c == '#'

/-- The path that a WebSocket URL asks for, up to a query or a fragment. Segments of
    dots, of which a link has none, are left as they are. -/
def urlPath (url : String) : Option (List Char) :=
  (afterScheme url.toList).map fun rest =>
    let path := (rest.dropWhile fun c => !endsAuthority c).takeWhile fun c => c ≠ '?' && c ≠ '#'
    if path.isEmpty then ['/'] else path

/-- The routes of the shim: its own, and the bridges. -/
inductive Route
  | root
  | pubkey (segment : String)

/-- The route of a path: `/`, or `/{pubkey}`, a single segment that is not empty. -/
def route : List Char → Option Route
  | ['/'] => some .root
  | '/' :: segment => if '/' ∈ segment then none else some (.pubkey (.ofList segment))
  | _ => none

/-- Dialling the link, one gets to the bridge of the server. -/
def LeadsBack {PublicKey RelayUrl : Type*} (nostr : NostrCodec PublicKey RelayUrl)
    (link : String) (parsed : ParsedPath) : Prop :=
  ∃ segment, (urlPath link).bind route = some (.pubkey segment) ∧
    ∃ p, nostr.parsePath segment = .ok p ∧ p.hex = parsed.hex

/-- An origin of WebSockets: a scheme and an authority, and any slashes after it. -/
structure Origin where
  secure : Bool
  authority : List Char
  authority_ne_nil : authority ≠ []
  authority_not_ends : ∀ c ∈ authority, ¬endsAuthority c
  slashes : ℕ

namespace Origin

variable (o : Origin)

/-- The scheme. -/
def scheme : List Char := if o.secure then "wss://".toList else "ws://".toList

/-- The spelling of the origin. -/
def text : String := .ofList (o.scheme ++ o.authority ++ List.replicate o.slashes '/')

theorem afterScheme_append (rest : List Char) : afterScheme (o.scheme ++ rest) = some rest := by
  rw [scheme]
  cases o.secure <;> rfl

/-- An origin ends with a slash if it has one after the authority. -/
theorem getLast?_text : o.text.toList.getLast? = some '/' ↔ o.slashes ≠ 0 := by
  rw [text, String.toList_ofList]
  cases hk : o.slashes with
  | zero =>
    rw [List.replicate_zero, List.append_nil, List.getLast?_append_of_ne_nil _ o.authority_ne_nil]
    refine iff_of_false (fun h => ?_) (fun h => h rfl)
    exact o.authority_not_ends '/' (List.mem_of_getLast? h) rfl
  | succ k =>
    rw [List.replicate_succ', ← List.append_assoc, List.getLast?_concat]
    exact iff_of_true rfl (Nat.succ_ne_zero k)

/-- The path of what follows the origin: its slashes come first. -/
theorem urlPath_append {l : List Char} (hl : ∀ c ∈ l, c ≠ '?' ∧ c ≠ '#') :
    urlPath (o.text ++ "/" ++ .ofList l) = some (List.replicate o.slashes '/' ++ '/' :: l) := by
  have hurl : (o.text ++ "/" ++ .ofList l).toList =
      o.scheme ++ (o.authority ++ (List.replicate o.slashes '/' ++ '/' :: l)) := by
    simp [text]
  have hdrop : (o.authority ++ (List.replicate o.slashes '/' ++ '/' :: l)).dropWhile
      (fun c => !endsAuthority c) = List.replicate o.slashes '/' ++ '/' :: l := by
    rw [List.dropWhile_append_of_pos fun c hc => by simpa using o.authority_not_ends c hc]
    cases o.slashes <;> rfl
  have htake : (List.replicate o.slashes '/' ++ '/' :: l).takeWhile
      (fun c => c ≠ '?' && c ≠ '#') = List.replicate o.slashes '/' ++ '/' :: l := by
    refine List.takeWhile_eq_self_iff.2 fun c hc => ?_
    rcases List.mem_append.1 hc with hc | hc
    · rw [List.eq_of_mem_replicate hc]
      rfl
    · rcases List.mem_cons.1 hc with rfl | hc
      · rfl
      · simpa using hl c hc
  rw [urlPath, hurl, afterScheme_append, Option.map_some, hdrop, htake]
  simp

end Origin

/-! ## Leading back -/

theorem route_cons {l : List Char} (h : l ≠ []) :
    route ('/' :: l) = if '/' ∈ l then none else some (.pubkey (.ofList l)) := by
  cases l with
  | nil => exact absurd rfl h
  | cons c l => rfl

section

variable {PublicKey RelayUrl : Type*} {nostr : NostrCodec PublicKey RelayUrl}
  {raw : String} {parsed : ParsedPath}

/-- A link to the bridge of a server leads back if there is no slash at the end of the
    origin. -/
theorem leadsBack_append_iff (hl : nostr.Lawful) (hp : nostr.parsePath raw = .ok parsed)
    (o : Origin) : LeadsBack nostr (o.text ++ "/" ++ parsed.hex) parsed ↔ o.slashes = 0 := by
  obtain ⟨pk, hpk⟩ := hl.exists_toHex_eq hp
  have hhex := hl.canonicalHex_toHex pk
  rw [hpk] at hhex
  have hdigit : ∀ c ∈ parsed.hex.toList, c ≠ '?' ∧ c ≠ '#' ∧ c ≠ '/' :=
    forall_of_canonicalHex hhex (by decide)
  have hpath := o.urlPath_append fun c hc => ⟨(hdigit c hc).1, (hdigit c hc).2.1⟩
  rw [String.ofList_toList] at hpath
  rw [LeadsBack, hpath, Option.bind_some]
  cases hk : o.slashes with
  | zero =>
    -- The only segment is the hex, which is parsed to itself.
    have hne : parsed.hex.toList ≠ [] := fun h => by
      have hlen := hhex.1
      rw [← String.length_toList, h] at hlen
      cases hlen
    have hslash : '/' ∉ parsed.hex.toList := fun h => (hdigit '/' h).2.2 rfl
    rw [List.replicate_zero, List.nil_append, route_cons hne, if_neg hslash,
      String.ofList_toList]
    refine iff_of_true ⟨parsed.hex, rfl, ⟨parsed.hex, []⟩, ?_, rfl⟩ rfl
    rw [← hpk]
    exact hl.parsePath_toHex pk
  | succ k =>
    -- There is an empty segment in front.
    have hmem : '/' ∈ List.replicate k '/' ++ '/' :: parsed.hex.toList :=
      List.mem_append_right _ List.mem_cons_self
    rw [List.replicate_succ, List.cons_append, route_cons (List.ne_nil_of_mem hmem), if_pos hmem]
    exact iff_of_false (fun ⟨_, h, _⟩ => nomatch h) (Nat.succ_ne_zero k)

/-- The link on the page of a server leads back to it if and only if the public URL
    does not end with a slash. -/
theorem leadsBack_iff (hl : nostr.Lawful) {cfg : ShimConfig} {o : Origin}
    (ho : cfg.publicUrl = some o.text) (hp : nostr.parsePath raw = .ok parsed) :
    (∃ link, ShowsLink nostr cfg raw link ∧ LeadsBack nostr link parsed) ↔
      o.text.toList.getLast? ≠ some '/' := by
  simp only [showsLink_iff ho hp, exists_eq_left]
  rw [leadsBack_append_iff hl hp o, ne_eq, o.getLast?_text, not_not]

end

/-! A public URL with a slash at its end. -/

def slashEnv : Env := fun name =>
  if name = "OUTLAY_SHIM_PUBLIC_URLS" then some "wss://nostr.wtf/" else none

/-- The origin, with slashes after it. -/
def nostrWtf (slashes : ℕ) : Origin where
  secure := true
  authority := "nostr.wtf".toList
  authority_ne_nil := by decide
  authority_not_ends := by
    have hall : "nostr.wtf".toList.all fun c => !endsAuthority c := by decide
    exact fun c hc => by simpa using List.all_eq_true.1 hall c hc
  slashes

theorem leadsBack_nostrWtf :
    (∃ link, ShowsLink NostrCodec.sample ⟨["wss://nostr.wtf"], .optional, 15, .ephemeral, []⟩
        NostrCodec.sampleKey link ∧
      LeadsBack NostrCodec.sample link ⟨NostrCodec.sampleKey, []⟩) ↔
    (nostrWtf 0).text.toList.getLast? ≠ some '/' :=
  leadsBack_iff NostrCodec.sample_lawful (by decide)
    (NostrCodec.sample_lawful.parsePath_toHex NostrCodec.sampleKey)

/-- The configuration of the shim is read from the environment, and the path is
    accepted, but the link on the page does not lead back. -/
theorem not_leadsBack_of_slash : ∃ cfg, readShimConfig slashEnv = .ok cfg ∧
    cfg.publicUrl = some (nostrWtf 1).text ∧ ∃ parsed,
      NostrCodec.sample.parsePath NostrCodec.sampleKey = .ok parsed ∧
      ∀ link, ShowsLink NostrCodec.sample cfg.toShimConfig NostrCodec.sampleKey link →
        link =
          "wss://nostr.wtf//3bf0c63fcb93463407af97a5e5ee64fa883d107ef9e558472c4eb9aaaefa459d" ∧
        ¬LeadsBack NostrCodec.sample link parsed := by
  have hvalid : ValidEnv slashEnv := ⟨allowed_of_eq_none (by decide),
    allowed_of_eq_none (by decide), allowed_of_eq_none (by decide)⟩
  obtain ⟨cfg, hcfg⟩ := hvalid.exists_readShimConfig
  have hpublic : cfg.publicUrls = [(nostrWtf 1).text] :=
    (readShimConfig_eq_ok hcfg).2.1.trans (by decide)
  have hurl : cfg.publicUrl = some (nostrWtf 1).text := by
    rw [ShimConfig.publicUrl, hpublic]
    rfl
  have hp := NostrCodec.sample_lawful.parsePath_toHex NostrCodec.sampleKey
  refine ⟨cfg, hcfg, hurl, _, hp, fun link h => ?_⟩
  obtain rfl := (showsLink_iff hurl hp).1 h
  refine ⟨by decide, fun hb => ?_⟩
  exact Nat.one_ne_zero ((leadsBack_append_iff NostrCodec.sample_lawful hp (nostrWtf 1)).1 hb)

end Outlay.Shim

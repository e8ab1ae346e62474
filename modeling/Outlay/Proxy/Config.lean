import Outlay.Data.Sequence
import Outlay.Env
import Outlay.Shim.Transport

/-!
# The configuration of the proxy

Read from the environment: the upstream relay, the relays the server listens on,
and how it presents itself. Without an upstream, the bundled relay is run, in a
build that has one (`bundledRelay`), and the environment is refused in another. So
whatever configuration is read, there is an upstream to proxy
(`exists_upstreamUrl`).
-/

namespace Outlay.Proxy

open Env Sequence
open Shim (GiftWrapMode)

/-- The configuration of the bundled relay. -/
structure BundledConfig where
  backend : String
  dbPath : String
  port : UInt16

/-- The configuration of the proxy. -/
structure ServerConfig where
  /-- The upstream to proxy, or else the bundled relay. -/
  proxyRelayUrl : Option String
  /-- The relays the server listens on. -/
  cvmRelayUrls : List String
  privateKeyHex : Option String
  serverName : String
  serverAbout : Option String
  isAnnounced : Bool
  giftWrapMode : GiftWrapMode
  /-- In a build with the bundled relay. -/
  bundled : Option BundledConfig

/-- Why the environment is refused. -/
inductive ConfigError
  | missingProxyRelayUrl
  | invalidBoolean (name : String)
  | invalidGiftWrapMode (value : String)

/-- The text of the error. -/
def ConfigError.text : ConfigError → String
  | .missingProxyRelayUrl =>
    "OUTLAY_PROXY_RELAY_URL is required (no bundled relay compiled in; " ++
      "rebuild with the `bundled-relay` feature, or set an upstream URL)"
  | .invalidBoolean name => "Invalid boolean environment variable: " ++ name
  | .invalidGiftWrapMode value =>
    "invalid OUTLAY_GIFT_WRAP_MODE: " ++ value ++ " (expected persistent|ephemeral|optional)"

def defaultCvmRelayUrls : List String := ["wss://nostr.wtf"]

/-- A boolean variable, which is named if it is invalid. -/
def optBool (env : Env) (name : String) : Except ConfigError (Option Bool) :=
  oneOf (optString env name) none booleans fun _ => .invalidBoolean name

def giftWrapModes : List (String × GiftWrapMode) :=
  [("ephemeral", .ephemeral), ("persistent", .persistent), ("optional", .optional)]

/-- Read the configuration from the environment, with defaults. -/
def readServerConfig (bundledRelay : Bool) (env : Env) : Except ConfigError ServerConfig :=
  let bundled : BundledConfig := {
    backend := (optString env "OUTLAY_BUNDLED_BACKEND").getD "sqlite"
    dbPath := (optString env "OUTLAY_BUNDLED_DB_PATH").getD "outlay-relay.db"
    port := .ofNat (((optString env "OUTLAY_BUNDLED_PORT").bind (Str.parseUnsigned 16)).getD 0) }
  let proxyRelayUrl := optString env "OUTLAY_PROXY_RELAY_URL"
  if proxyRelayUrl.isNone && !bundledRelay then .error .missingProxyRelayUrl
  else do
    let cvmRelayUrls := entriesOr env "OUTLAY_CVM_RELAYS" defaultCvmRelayUrls
    let giftWrapMode ← oneOf (optString env "OUTLAY_GIFT_WRAP_MODE") .ephemeral giftWrapModes
      ConfigError.invalidGiftWrapMode
    let isAnnounced ← optBool env "OUTLAY_ANNOUNCED"
    return {
      proxyRelayUrl
      cvmRelayUrls
      privateKeyHex := optString env "OUTLAY_SERVER_PRIVATE_KEY"
      serverName := (optString env "OUTLAY_SERVER_NAME").getD "outlay"
      serverAbout := optString env "OUTLAY_SERVER_ABOUT"
      isAnnounced := isAnnounced.getD false
      giftWrapMode
      bundled := if bundledRelay then some bundled else none }

/-- The upstream that is proxied: the one configured, or else the bundled relay, which
    reports its URL once it has been spawned. Nothing stands for the panic on neither. -/
def ServerConfig.upstreamUrl (cfg : ServerConfig) (spawn : BundledConfig → String) :
    Option String :=
  match cfg.proxyRelayUrl, cfg.bundled with
  | some url, _ => some url
  | none, some bundled => some (spawn bundled)
  | none, none => none

variable {bundledRelay : Bool} {env : Env} {cfg : ServerConfig}

/-- What the configuration read has to do with the environment. -/
theorem readServerConfig_eq_ok (h : readServerConfig bundledRelay env = .ok cfg) :
    cfg.cvmRelayUrls = entriesOr env "OUTLAY_CVM_RELAYS" defaultCvmRelayUrls ∧
      cfg.bundled.isSome = bundledRelay ∧ (bundledRelay ∨ cfg.proxyRelayUrl.isSome) := by
  rw [readServerConfig] at h
  split at h
  · cases h
  next hurl =>
    obtain ⟨giftWrapMode, -, h⟩ := bind_eq_ok.1 h
    obtain ⟨isAnnounced, -, h⟩ := bind_eq_ok.1 h
    cases h
    refine ⟨rfl, ?_, ?_⟩
    · cases bundledRelay <;> rfl
    · cases bundledRelay with
      | true => exact .inl rfl
      | false => exact .inr (Option.isSome_iff_ne_none.2 (by simpa using hurl))

/-- There is an upstream to proxy. -/
theorem exists_upstreamUrl (h : readServerConfig bundledRelay env = .ok cfg)
    (spawn : BundledConfig → String) : ∃ url, cfg.upstreamUrl spawn = some url := by
  obtain ⟨-, hbundled, hurl⟩ := readServerConfig_eq_ok h
  rw [ServerConfig.upstreamUrl]
  cases hp : cfg.proxyRelayUrl with
  | some url => exact ⟨url, rfl⟩
  | none =>
    -- Then the bundled relay is compiled in.
    have hrelay : bundledRelay := hurl.resolve_right (by simp [hp])
    obtain ⟨bundled, hb⟩ := Option.isSome_iff_exists.1 (hbundled.trans hrelay)
    rw [hb]
    exact ⟨spawn bundled, rfl⟩

/-- There are relays to listen on. -/
theorem cvmRelayUrls_ne_nil (h : readServerConfig bundledRelay env = .ok cfg) :
    cfg.cvmRelayUrls ≠ [] := by
  rw [(readServerConfig_eq_ok h).1]
  exact entriesOr_ne_nil (List.cons_ne_nil _ _)

theorem isEntry_of_mem_cvmRelayUrls (h : readServerConfig bundledRelay env = .ok cfg) :
    ∀ u ∈ cfg.cvmRelayUrls, IsEntry u := by
  have hdefault : ∀ u ∈ defaultCvmRelayUrls, IsEntry u :=
    List.forall_mem_singleton.2 ⟨by decide, by decide, by decide⟩
  rw [(readServerConfig_eq_ok h).1]
  exact fun u hu => isEntry_of_mem_entriesOr hdefault hu

/-- Every variable that can be refused is unset, or valid. In a build without the
    bundled relay, the upstream is set. -/
structure ValidEnv (bundledRelay : Bool) (env : Env) : Prop where
  proxyRelayUrl : bundledRelay ∨ (optString env "OUTLAY_PROXY_RELAY_URL").isSome
  giftWrapMode : Allowed (optString env "OUTLAY_GIFT_WRAP_MODE") giftWrapModes
  announced : Allowed (optString env "OUTLAY_ANNOUNCED") booleans

/-- A valid environment is not refused. -/
theorem ValidEnv.exists_readServerConfig (h : ValidEnv bundledRelay env) :
    ∃ cfg, readServerConfig bundledRelay env = .ok cfg := by
  obtain ⟨g, hg⟩ := exists_oneOf_eq_ok h.giftWrapMode .ephemeral ConfigError.invalidGiftWrapMode
  obtain ⟨a, ha⟩ := exists_oneOf_eq_ok h.announced none
    fun _ => ConfigError.invalidBoolean "OUTLAY_ANNOUNCED"
  have hurl : ¬((optString env "OUTLAY_PROXY_RELAY_URL").isNone && !bundledRelay) := by
    rcases h.proxyRelayUrl with hb | hb
    · rw [hb, Bool.not_true, Bool.and_false]
      exact Bool.false_ne_true
    · rw [Option.isNone_eq_false_iff.2 hb, Bool.false_and]
      exact Bool.false_ne_true
  simp only [readServerConfig, if_neg hurl, hg, optBool, ha]
  exact ⟨_, rfl⟩

end Outlay.Proxy

import Outlay.Data.Sequence
import Outlay.Env
import Outlay.Shim.Cache
import Outlay.Shim.Loopback

/-!
# The configuration of the shim

Read from the environment: the relays that outlays are reached through, the URLs
that the shim is reached at, and the limits of its connections and of its cache
of transports.

Whatever the environment, the configuration read is well formed: there are relays,
so there is a public URL, and the cache has room for a transport, so the state of
the server can be made of it (`WellFormed.exists_new`).
-/

namespace Outlay.Shim

open Env Sequence

/-- The configuration of the shim, with what transports do not depend on. -/
structure RuntimeConfig extends ShimConfig where
  listenAddr : String
  privateKey : Option String
  /-- The capacity of the transport cache. -/
  maxCachedOutlays : ℕ
  maxWsMessageBytes : ℕ
  /-- Whether to run the colocated relay. -/
  enableRelay : Bool

/-- The canonical public URL: the first of the public URLs, or else of the relays. -/
def ShimConfig.publicUrl (cfg : ShimConfig) : Option String :=
  cfg.publicUrls.head?.or cfg.relayUrls.head?

/-- Why the environment is refused. -/
inductive ConfigError
  | invalidEncryption (value : String)
  | invalidGiftWrapMode (value : String)
  | invalidBoolean (value : String)

/-- The text of the error. -/
def ConfigError.text : ConfigError → String
  | .invalidEncryption value =>
    "invalid OUTLAY_SHIM_ENCRYPTION_MODE: " ++ value ++ " (expected optional|disabled|required)"
  | .invalidGiftWrapMode value =>
    "invalid OUTLAY_SHIM_GIFT_WRAP_MODE: " ++ value ++
      " (expected persistent|ephemeral|optional)"
  | .invalidBoolean value => "Invalid boolean environment variable: " ++ value

def defaultRelayUrls : List String := ["wss://nostr.wtf"]

/-- A boolean variable, in either case. -/
def optBoolEnv (env : Env) (name : String) : Except ConfigError (Option Bool) :=
  oneOf ((optString env name).map Str.toAsciiLowercase) none booleans .invalidBoolean

def encryptionModes : List (String × EncryptionMode) :=
  [("optional", .optional), ("disabled", .disabled), ("required", .required)]

def giftWrapModes : List (String × GiftWrapMode) :=
  [("ephemeral", .ephemeral), ("persistent", .persistent), ("optional", .optional)]

/-- An unsigned number of 64 bits, with a default for what is no such number. -/
def unsignedOr (env : Env) (name : String) (default : ℕ) : ℕ :=
  ((optString env name).bind (Str.parseUnsigned 64)).getD default

/-- Read the configuration from the environment, with defaults. -/
def readShimConfig (env : Env) : Except ConfigError RuntimeConfig := do
  let listenAddr := (optString env "OUTLAY_SHIM_LISTEN_ADDR").getD "127.0.0.1:8088"
  let relayUrls := entriesOr env "OUTLAY_SHIM_CVM_RELAYS" defaultRelayUrls
  let encryptionMode ← oneOf (optString env "OUTLAY_SHIM_ENCRYPTION_MODE") .optional
    encryptionModes ConfigError.invalidEncryption
  let giftWrapMode ← oneOf (optString env "OUTLAY_SHIM_GIFT_WRAP_MODE") .ephemeral
    giftWrapModes ConfigError.invalidGiftWrapMode
  let connectTimeout := unsignedOr env "OUTLAY_SHIM_CONNECT_TIMEOUT" 15
  let maxWsMessageBytes := unsignedOr env "OUTLAY_SHIM_MAX_WS_MESSAGE_BYTES" 1048576
  let maxCachedOutlays := max (unsignedOr env "OUTLAY_SHIM_MAX_CACHED_OUTLAYS" 64) 1
  let enableRelay ← optBoolEnv env "OUTLAY_SHIM_RELAY"
  let publicUrls := entries env "OUTLAY_SHIM_PUBLIC_URLS"
  return {
    listenAddr
    relayUrls
    privateKey := optString env "OUTLAY_SHIM_PRIVATE_KEY"
    encryptionMode
    connectTimeout
    giftWrapMode
    maxCachedOutlays
    maxWsMessageBytes
    enableRelay := enableRelay.getD true
    publicUrls }

/-- The state of the server. -/
structure AppState where
  config : RuntimeConfig
  transports : TransportCache
  /-- The loopback URL of the colocated relay, if it is enabled. -/
  relayUrl : Option String

/-- The state made of a configuration: nothing stands for the panic on a cache
    without room. -/
def AppState.new (normUrl : String → Option String) (config : RuntimeConfig)
    (relayUrl : Option String) : Option AppState :=
  if h : 1 ≤ config.maxCachedOutlays then
    some {
      config
      transports := {
        cap := config.maxCachedOutlays
        one_le_cap := h
        cfg := config.toShimConfig
        loopbackUrl := relayUrl
        normUrl }
      relayUrl }
  else none

/-- The public URL is the first of those that the loopback shortcut takes for the
    shim's own. -/
theorem ShimConfig.publicUrl_eq (cfg : ShimConfig) : cfg.publicUrl = (ownUrls cfg).head? := by
  rw [publicUrl, ownUrls]
  cases h : cfg.publicUrls with
  | nil => rfl
  | cons u us => rfl

/-! ## What is read -/

variable {env : Env} {cfg : RuntimeConfig}

/-- What the configuration read has to do with the environment. -/
theorem readShimConfig_eq_ok (h : readShimConfig env = .ok cfg) :
    cfg.relayUrls = entriesOr env "OUTLAY_SHIM_CVM_RELAYS" defaultRelayUrls ∧
      cfg.publicUrls = entries env "OUTLAY_SHIM_PUBLIC_URLS" ∧
      cfg.maxCachedOutlays = max (unsignedOr env "OUTLAY_SHIM_MAX_CACHED_OUTLAYS" 64) 1 := by
  obtain ⟨encryptionMode, -, h⟩ := bind_eq_ok.1 h
  obtain ⟨giftWrapMode, -, h⟩ := bind_eq_ok.1 h
  obtain ⟨enableRelay, -, h⟩ := bind_eq_ok.1 h
  cases h
  exact ⟨rfl, rfl, rfl⟩

/-- Every variable that can be refused is unset, or valid. -/
structure ValidEnv (env : Env) : Prop where
  encryptionMode : Allowed (optString env "OUTLAY_SHIM_ENCRYPTION_MODE") encryptionModes
  giftWrapMode : Allowed (optString env "OUTLAY_SHIM_GIFT_WRAP_MODE") giftWrapModes
  relay : Allowed ((optString env "OUTLAY_SHIM_RELAY").map Str.toAsciiLowercase) booleans

/-- A valid environment is not refused. -/
theorem ValidEnv.exists_readShimConfig (h : ValidEnv env) :
    ∃ cfg, readShimConfig env = .ok cfg := by
  obtain ⟨e, he⟩ := exists_oneOf_eq_ok h.encryptionMode .optional ConfigError.invalidEncryption
  obtain ⟨g, hg⟩ := exists_oneOf_eq_ok h.giftWrapMode .ephemeral ConfigError.invalidGiftWrapMode
  obtain ⟨r, hr⟩ := exists_oneOf_eq_ok h.relay none ConfigError.invalidBoolean
  simp only [readShimConfig, he, hg, optBoolEnv, hr]
  exact ⟨_, rfl⟩

/-- What holds of every configuration read. -/
structure RuntimeConfig.WellFormed (cfg : RuntimeConfig) : Prop where
  relayUrls_ne_nil : cfg.relayUrls ≠ []
  isEntry_relayUrls : ∀ u ∈ cfg.relayUrls, IsEntry u
  isEntry_publicUrls : ∀ u ∈ cfg.publicUrls, IsEntry u
  one_le_maxCachedOutlays : 1 ≤ cfg.maxCachedOutlays

theorem wellFormed_of_readShimConfig (h : readShimConfig env = .ok cfg) : cfg.WellFormed := by
  obtain ⟨hrelay, hpublic, hcap⟩ := readShimConfig_eq_ok h
  constructor
  case relayUrls_ne_nil => exact hrelay ▸ entriesOr_ne_nil (List.cons_ne_nil _ _)
  case isEntry_relayUrls =>
    have hdefault : ∀ u ∈ defaultRelayUrls, IsEntry u :=
      List.forall_mem_singleton.2 ⟨by decide, by decide, by decide⟩
    exact fun u hu => isEntry_of_mem_entriesOr hdefault (hrelay ▸ hu)
  case isEntry_publicUrls => exact fun u hu => isEntry_of_mem_entries (hpublic ▸ hu)
  case one_le_maxCachedOutlays => exact hcap ▸ le_max_right _ _

namespace RuntimeConfig.WellFormed

/-- There is a public URL, and it is an entry. -/
theorem exists_publicUrl (h : cfg.WellFormed) : ∃ u, cfg.publicUrl = some u ∧ IsEntry u := by
  have hmem : ∀ u ∈ ownUrls cfg.toShimConfig, IsEntry u := fun u hu => by
    rw [ownUrls] at hu
    split at hu
    · exact h.isEntry_publicUrls u hu
    · exact h.isEntry_relayUrls u hu
  have hne : ownUrls cfg.toShimConfig ≠ [] := by
    rw [ownUrls]
    split
    next hp => exact hp
    next => exact h.relayUrls_ne_nil
  obtain ⟨u, us, hown⟩ := List.exists_cons_of_ne_nil hne
  rw [ShimConfig.publicUrl_eq, hown]
  exact ⟨u, rfl, hmem u (hown ▸ List.mem_cons_self)⟩

/-- The state of the server can be made of the configuration. -/
theorem exists_new (h : cfg.WellFormed) (normUrl : String → Option String)
    (relayUrl : Option String) : ∃ state, AppState.new normUrl cfg relayUrl = some state :=
  ⟨_, dif_pos h.one_le_maxCachedOutlays⟩

end RuntimeConfig.WellFormed

end Outlay.Shim

import Mathlib

/-!
# The transport of an outlay

What the client transport to an outlay is built from: the path the visitor asked
for, the configuration of the shim, and the loopback relay. The relays it dials
are the hints of the path, or else the configured ones, with the shim's own
public URLs rewritten to the loopback relay.

The normalisation of relay URLs is a parameter.
-/

namespace Outlay.Shim

/-- A parsed `/<pubkey>` path. -/
structure ParsedPath where
  /-- Lowercase hex pubkey, the identity the transport cache keys on. -/
  hex : String
  /-- Relay hints from an nprofile. Empty for hex / npub. -/
  relayHints : List String
  deriving DecidableEq

/-- Whether frames are encrypted. -/
inductive EncryptionMode
  | optional
  | disabled
  | required
  deriving DecidableEq

/-- The kind policy of outbound gift wraps. -/
inductive GiftWrapMode
  | persistent
  | ephemeral
  | optional
  deriving DecidableEq

/-- The configuration of the shim, as far as transports depend on it. -/
structure ShimConfig where
  relayUrls : List String
  encryptionMode : EncryptionMode
  /-- In seconds. -/
  connectTimeout : ℕ
  giftWrapMode : GiftWrapMode
  publicUrls : List String

/-- The configuration of one client transport. -/
structure TransportConfig where
  serverPubkey : String
  encryptionMode : EncryptionMode
  giftWrapMode : GiftWrapMode
  stateless : Bool
  openStream : Bool
  timeout : ℕ
  relayUrls : List String
  deriving DecidableEq

/-- Rewrite any URL in `candidates` that matches one of `publicUrls` to the
    loopback relay, if there is one. -/
def substituteSelf (normUrl : String → Option String) (candidates publicUrls : List String)
    (loopback : Option String) : List String :=
  match loopback with
  | none => candidates
  | some loopback =>
    let own := publicUrls.filterMap normUrl
    candidates.map fun u =>
      match normUrl u with
      | some n => if n ∈ own then loopback else u
      | none => u

/-- The relay URLs the transport dials for a path. -/
def resolveRelayUrls (normUrl : String → Option String) (cfg : ShimConfig) (parsed : ParsedPath)
    (loopbackUrl : Option String) : List String :=
  let candidates := if parsed.relayHints ≠ [] then parsed.relayHints else cfg.relayUrls
  let publicUrls := if cfg.publicUrls ≠ [] then cfg.publicUrls else cfg.relayUrls
  substituteSelf normUrl candidates publicUrls loopbackUrl

/-- The configuration a transport is built with (`build_client`). -/
def clientConfig (normUrl : String → Option String) (cfg : ShimConfig) (parsed : ParsedPath)
    (loopbackUrl : Option String) : TransportConfig where
  serverPubkey := parsed.hex
  encryptionMode := cfg.encryptionMode
  giftWrapMode := cfg.giftWrapMode
  stateless := true
  openStream := true
  timeout := cfg.connectTimeout
  relayUrls := resolveRelayUrls normUrl cfg parsed loopbackUrl

end Outlay.Shim

import Outlay.Proxy.Config
import Outlay.Shim.Config

/-!
# The lists of relays

Both binaries are configured with lists of relay URLs, and the shim with a list of
its public URLs. A list is read back from every text that writes it (`ReadBack`).
No environment makes a list of relays empty, or puts anything but entries into a
list, and the first of the URLs that the shim takes for its own is its public face
(`relayLists`).
-/

namespace Outlay

open Env

/-- The list is read back from the text, whichever variable is set to it. -/
structure ReadBack (raw : String) (l : List String) : Prop where
  cvmRelays : ∀ {bundledRelay : Bool} {env : Env}, env "OUTLAY_CVM_RELAYS" = some raw →
    Proxy.ValidEnv bundledRelay env →
      ∃ cfg, Proxy.readServerConfig bundledRelay env = .ok cfg ∧ cfg.cvmRelayUrls = l
  shimCvmRelays : ∀ {env : Env}, env "OUTLAY_SHIM_CVM_RELAYS" = some raw → Shim.ValidEnv env →
    ∃ cfg, Shim.readShimConfig env = .ok cfg ∧ cfg.relayUrls = l
  shimPublicUrls : ∀ {env : Env}, env "OUTLAY_SHIM_PUBLIC_URLS" = some raw → Shim.ValidEnv env →
    ∃ cfg, Shim.readShimConfig env = .ok cfg ∧ cfg.publicUrls = l

/-- A list of entries is read back from every text that writes it. -/
theorem Env.Writes.readBack {raw : String} {l : List String} (h : Writes raw l)
    (hl : ∀ s ∈ l, IsEntry s) (hne : l ≠ []) : ReadBack raw l where
  cvmRelays hraw hvalid := by
    obtain ⟨cfg, hcfg⟩ := hvalid.exists_readServerConfig
    exact ⟨cfg, hcfg, (Proxy.readServerConfig_eq_ok hcfg).1.trans
      (entriesOr_of_writes hraw h hl hne _)⟩
  shimCvmRelays hraw hvalid := by
    obtain ⟨cfg, hcfg⟩ := hvalid.exists_readShimConfig
    exact ⟨cfg, hcfg, (Shim.readShimConfig_eq_ok hcfg).1.trans
      (entriesOr_of_writes hraw h hl hne _)⟩
  shimPublicUrls hraw hvalid := by
    obtain ⟨cfg, hcfg⟩ := hvalid.exists_readShimConfig
    exact ⟨cfg, hcfg, (Shim.readShimConfig_eq_ok hcfg).2.1.trans (entries_of_writes hraw h hl)⟩

/-- Lists of relays are read as they are written, and are never empty. -/
theorem relayLists :
    (∀ {raw : String} {l : List String}, l ≠ [] → (∀ s ∈ l, IsEntry s) → Writes raw l →
      ReadBack raw l) ∧
    (∀ {bundledRelay : Bool} {env : Env} {cfg : Proxy.ServerConfig},
      Proxy.readServerConfig bundledRelay env = .ok cfg →
        cfg.cvmRelayUrls ≠ [] ∧ ∀ u ∈ cfg.cvmRelayUrls, IsEntry u) ∧
    ∀ {env : Env} {cfg : Shim.RuntimeConfig}, Shim.readShimConfig env = .ok cfg →
      cfg.WellFormed ∧ (∃ u, cfg.publicUrl = some u) ∧
        ∀ normUrl relayUrl, ∃ state, Shim.AppState.new normUrl cfg relayUrl = some state := by
  refine ⟨fun hne hl hw => hw.readBack hl hne, fun hcfg => ?_, fun hcfg => ?_⟩
  · exact ⟨Proxy.cvmRelayUrls_ne_nil hcfg, Proxy.isEntry_of_mem_cvmRelayUrls hcfg⟩
  · have hwf := Shim.wellFormed_of_readShimConfig hcfg
    obtain ⟨u, hu, -⟩ := hwf.exists_publicUrl
    exact ⟨hwf, ⟨u, hu⟩, hwf.exists_new⟩

/-! Two entries, with blanks around them and blank entries everywhere. -/

def sampleRaw : String := " , wss://a.example ,,\twss://b.example\n, "

theorem sampleRaw_writes : Writes sampleRaw ["wss://a.example", "wss://b.example"] := by
  have hspace : Separated.Blank Str.isWhitespace [' '] := List.forall_mem_singleton.2 (by decide)
  have htab : Separated.Blank Str.isWhitespace ['\t'] := List.forall_mem_singleton.2 (by decide)
  have hline : Separated.Blank Str.isWhitespace ['\n'] := List.forall_mem_singleton.2 (by decide)
  have hnil : Separated.Blank Str.isWhitespace [] := List.forall_mem_nil _
  refine ⟨[[' '], [' '] ++ "wss://a.example".toList ++ [' '], [],
    ['\t'] ++ "wss://b.example".toList ++ ['\n'], [' ']], ?_, by decide⟩
  exact .blank hspace (.item hspace hspace (.blank hnil (.item htab hline (.blank hspace .nil))))

/-- All three lists are set to the same text. -/
def sampleEnv : Env := fun name =>
  if name ∈ ["OUTLAY_CVM_RELAYS", "OUTLAY_SHIM_CVM_RELAYS", "OUTLAY_SHIM_PUBLIC_URLS"] then
    some sampleRaw
  else none

theorem relayLists_sample :
    (∃ cfg, Proxy.readServerConfig true sampleEnv = .ok cfg ∧
      cfg.cvmRelayUrls = ["wss://a.example", "wss://b.example"]) ∧
    (∃ cfg, Shim.readShimConfig sampleEnv = .ok cfg ∧
      cfg.relayUrls = ["wss://a.example", "wss://b.example"]) ∧
    ∃ cfg, Shim.readShimConfig sampleEnv = .ok cfg ∧
      cfg.publicUrls = ["wss://a.example", "wss://b.example"] := by
  have hentries : ∀ s ∈ ["wss://a.example", "wss://b.example"], IsEntry s :=
    List.forall_mem_cons.2 ⟨⟨by decide, by decide, by decide⟩,
      List.forall_mem_singleton.2 ⟨by decide, by decide, by decide⟩⟩
  have hread := relayLists.1 (List.cons_ne_nil _ _) hentries sampleRaw_writes
  have hserver : Proxy.ValidEnv true sampleEnv :=
    ⟨.inl rfl, allowed_of_eq_none (by decide), allowed_of_eq_none (by decide)⟩
  have hshim : Shim.ValidEnv sampleEnv := ⟨allowed_of_eq_none (by decide),
    allowed_of_eq_none (by decide), allowed_of_eq_none (by decide)⟩
  exact ⟨hread.cvmRelays (by decide) hserver, hread.shimCvmRelays (by decide) hshim,
    hread.shimPublicUrls (by decide) hshim⟩

end Outlay

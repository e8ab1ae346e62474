import Outlay.Shim.Transport

/-!
# The loopback shortcut

A shim with a colocated relay dials that relay over loopback wherever a path leads
to one of its own public URLs, instead of hairpinning through its own edge; other
relays are dialled as they are spelled (`shortcut`).

URLs are compared up to normalisation, a partial function: `Own` says that a URL
has the normal form of one of the public URLs, and all that depends on it is that
normal form (`own_congr`).
-/

namespace Outlay.Shim

/-- The relays a path leads to: its hints, or else those configured. -/
def candidates (cfg : ShimConfig) (parsed : ParsedPath) : List String :=
  if parsed.relayHints ≠ [] then parsed.relayHints else cfg.relayUrls

/-- The public URLs of the shim: those configured, or else its relays. -/
def ownUrls (cfg : ShimConfig) : List String :=
  if cfg.publicUrls ≠ [] then cfg.publicUrls else cfg.relayUrls

section

variable (normUrl : String → Option String)

/-- The URL has the normal form of one of the public URLs. -/
def Own (publicUrls : List String) (u : String) : Prop :=
  ∃ n, normUrl u = some n ∧ ∃ p ∈ publicUrls, normUrl p = some n

/-- Two lists of URLs that differ in their spelling only. -/
abbrev SameUrls : List String → List String → Prop :=
  List.Forall₂ fun u v => normUrl u = normUrl v

variable {normUrl} {publicUrls publicUrls' : List String} {loopback u v : String}

/-- Being own only depends on normal forms. -/
theorem own_congr (hu : normUrl u = normUrl v) (hp : SameUrls normUrl publicUrls publicUrls') :
    Own normUrl publicUrls u ↔ Own normUrl publicUrls' v := by
  have hforms : publicUrls.map normUrl = publicUrls'.map normUrl := by
    induction hp with
    | nil => rfl
    | cons h _ ih => rw [List.map_cons, List.map_cons, h, ih]
  have hmem : ∀ n, (∃ p ∈ publicUrls, normUrl p = some n) ↔
      ∃ p ∈ publicUrls', normUrl p = some n := fun n => by
    rw [← List.mem_map, hforms, List.mem_map]
  simp only [Own, hu, hmem]

/-! ## Rewriting one URL -/

variable (normUrl publicUrls loopback) in
/-- What is dialled for a URL. -/
def dialled (u : String) : String :=
  match normUrl u with
  | some n => if n ∈ publicUrls.filterMap normUrl then loopback else u
  | none => u

/-- An own URL is rewritten. -/
theorem dialled_of_own (h : Own normUrl publicUrls u) :
    dialled normUrl publicUrls loopback u = loopback := by
  obtain ⟨n, hu, p, hp, hn⟩ := h
  simp only [dialled, hu, if_pos (List.mem_filterMap.2 ⟨p, hp, hn⟩)]

/-- Any other URL is left as it is spelled. -/
theorem dialled_of_not_own (h : ¬Own normUrl publicUrls u) :
    dialled normUrl publicUrls loopback u = u := by
  rw [dialled]
  split
  next n hu =>
    refine if_neg fun hn => h ?_
    obtain ⟨p, hp, hpn⟩ := List.mem_filterMap.1 hn
    exact ⟨n, hu, p, hp, hpn⟩
  next => rfl

variable (normUrl publicUrls loopback) in
/-- What is dialled is the loopback relay, or is not own. -/
theorem dialled_cases (u : String) :
    dialled normUrl publicUrls loopback u = loopback ∨
      dialled normUrl publicUrls loopback u = u ∧ ¬Own normUrl publicUrls u := by
  by_cases h : Own normUrl publicUrls u
  · exact .inl (dialled_of_own h)
  · exact .inr ⟨dialled_of_not_own h, h⟩

/-- Rewriting twice changes nothing more. -/
theorem dialled_dialled (u : String) :
    dialled normUrl publicUrls loopback (dialled normUrl publicUrls loopback u) =
      dialled normUrl publicUrls loopback u := by
  by_cases hu : Own normUrl publicUrls u
  · -- Even if the loopback relay is own, it is rewritten to itself.
    rw [dialled_of_own hu]
    rcases dialled_cases normUrl publicUrls loopback loopback with h | ⟨h, -⟩ <;> exact h
  · rw [dialled_of_not_own hu, dialled_of_not_own hu]

/-! ## Resolving a path -/

variable {cfg : ShimConfig} {parsed : ParsedPath}

variable (normUrl publicUrls) in
/-- With a loopback relay, every candidate is dialled on its own. -/
theorem substituteSelf_some (us : List String) (l : String) :
    substituteSelf normUrl us publicUrls (some l) = us.map (dialled normUrl publicUrls l) := rfl

variable (normUrl cfg parsed) in
/-- What is dialled for a path are its candidates, but for the own ones. -/
theorem resolveRelayUrls_eq (l : Option String) : resolveRelayUrls normUrl cfg parsed l =
    substituteSelf normUrl (candidates cfg parsed) (ownUrls cfg) l := rfl

variable (normUrl cfg parsed) in
/-- The relays dialled for a path, with a loopback relay. -/
structure Shortcut (l : String) : Prop where
  length : (resolveRelayUrls normUrl cfg parsed (some l)).length = (candidates cfg parsed).length
  /-- Own URLs are rewritten to the loopback relay. -/
  own : ∀ (i : ℕ) u, (candidates cfg parsed)[i]? = some u → Own normUrl (ownUrls cfg) u →
    (resolveRelayUrls normUrl cfg parsed (some l))[i]? = some l
  /-- All others are left as they are spelled. -/
  other : ∀ (i : ℕ) u, (candidates cfg parsed)[i]? = some u → ¬Own normUrl (ownUrls cfg) u →
    (resolveRelayUrls normUrl cfg parsed (some l))[i]? = some u
  /-- No own URL is dialled, unless the loopback relay is one. -/
  no_hairpin : ¬Own normUrl (ownUrls cfg) l →
    ∀ u ∈ resolveRelayUrls normUrl cfg parsed (some l), ¬Own normUrl (ownUrls cfg) u
  /-- Rewriting again changes nothing. -/
  idempotent : substituteSelf normUrl (resolveRelayUrls normUrl cfg parsed (some l))
    (ownUrls cfg) (some l) = resolveRelayUrls normUrl cfg parsed (some l)
  /-- How the candidates and the public URLs are spelled changes neither which
      positions are rewritten, nor what is dialled at a position that is not respelled. -/
  respelled : ∀ candidates' publicUrls', SameUrls normUrl (candidates cfg parsed) candidates' →
    SameUrls normUrl (ownUrls cfg) publicUrls' →
      ∀ (i : ℕ) u u', (candidates cfg parsed)[i]? = some u → candidates'[i]? = some u' →
        (Own normUrl (ownUrls cfg) u ↔ Own normUrl publicUrls' u') ∧
          (u = u' → (resolveRelayUrls normUrl cfg parsed (some l))[i]? =
            (substituteSelf normUrl candidates' publicUrls' (some l))[i]?)

/-- What is dialled at a position. -/
theorem substituteSelf_getElem? {l : String} {us : List String} {i : ℕ} (h : us[i]? = some u) :
    (substituteSelf normUrl us publicUrls (some l))[i]? =
      some (dialled normUrl publicUrls l u) := by
  rw [substituteSelf_some, List.getElem?_map, h, Option.map_some]

/-- Two positions of lists that differ in their spelling only. -/
theorem SameUrls.getElem? {a a' : List String} (h : SameUrls normUrl a a') {i : ℕ}
    {u u' : String} (hu : a[i]? = some u) (hu' : a'[i]? = some u') :
    normUrl u = normUrl u' := by
  obtain ⟨hi, rfl⟩ := List.getElem?_eq_some_iff.1 hu
  obtain ⟨hi', rfl⟩ := List.getElem?_eq_some_iff.1 hu'
  exact h.get hi hi'

/-- Without a loopback relay, the candidates are dialled verbatim; with one, own
    URLs are dialled over loopback, and all others as they are spelled. -/
theorem shortcut (normUrl : String → Option String) (cfg : ShimConfig) (parsed : ParsedPath) :
    resolveRelayUrls normUrl cfg parsed none = candidates cfg parsed ∧
      ∀ l, Shortcut normUrl cfg parsed l := by
  refine ⟨rfl, fun l => ?_⟩
  constructor
  case length => rw [resolveRelayUrls_eq, substituteSelf_some, List.length_map]
  case own =>
    intro i u hu ho
    rw [resolveRelayUrls_eq, substituteSelf_getElem? hu, dialled_of_own ho]
  case other =>
    intro i u hu ho
    rw [resolveRelayUrls_eq, substituteSelf_getElem? hu, dialled_of_not_own ho]
  case no_hairpin =>
    intro hl u hu
    rw [resolveRelayUrls_eq, substituteSelf_some] at hu
    obtain ⟨v, -, rfl⟩ := List.mem_map.1 hu
    rcases dialled_cases normUrl (ownUrls cfg) l v with h | ⟨h, hv⟩
    · exact h.symm ▸ hl
    · exact h.symm ▸ hv
  case idempotent =>
    rw [resolveRelayUrls_eq, substituteSelf_some, substituteSelf_some, List.map_map]
    exact List.map_congr_left fun u _ => dialled_dialled u
  case respelled =>
    intro candidates' publicUrls' hcand hpub i u u' hu hu'
    have hown := own_congr (hcand.getElem? hu hu') hpub
    refine ⟨hown, fun heq => ?_⟩
    subst heq
    rw [resolveRelayUrls_eq, substituteSelf_getElem? hu, substituteSelf_getElem? hu']
    by_cases ho : Own normUrl (ownUrls cfg) u
    · rw [dialled_of_own ho, dialled_of_own (hown.1 ho)]
    · rw [dialled_of_not_own ho, dialled_of_not_own fun ho' => ho (hown.2 ho')]

end

end Outlay.Shim

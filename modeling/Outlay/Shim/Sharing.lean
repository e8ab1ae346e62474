import Outlay.Shim.Cells

/-!
# Sharing a transport

All calls for one identity share one transport, as long as the identity is not
evicted: a call finds the cell of an earlier one whenever fewer than `cap`
distinct other identities have accessed the map in between (`kept`, `shared`).
And a cell has one transport for good: one call at a time builds it, a build that
fails leaves it to the next, and once it is filled nobody builds it again
(`lawful`).

As the cells are keyed by the identity alone, the transport is the one that the
first successful call was asked to build, with the relay hints of *that* call
(`relays_of_builder`); the hints of those it is shared with are not looked at
(`not_own_relays`).
-/

namespace Outlay.Shim.TransportCache

open Async

variable {env : TransportCache} {s s' : State env.cap}

/-! ## What the map keeps -/

/-- The identities other than its own that accessed the map between the calls `g` and `h`. -/
def State.others (s : State env.cap) (g h : ℕ) : Finset String :=
  ((Finset.Ioo g h).image s.hex).erase (s.hex g)

/-- Every step leaves the paths and the cells of the calls. -/
theorem Step.keeps {a : Action} (h : Step env s a s') :
    s.started ≤ s'.started ∧ ∀ g < s.started,
      (s'.gets g).path = (s.gets g).path ∧ (s'.gets g).cell = (s.gets g).cell := by
  cases h with
  | hit _ | miss _ =>
    refine ⟨Nat.le_succ _, fun g hg => ?_⟩
    simp [Function.update_of_ne hg.ne]
  | move _ => exact ⟨le_rfl, fun g _ => ⟨move_path g, move_cell g⟩⟩

/-- Every step leaves the identities between two calls. -/
theorem Step.others {a : Action} (h : Step env s a s') {g k : ℕ} (hk : k ≤ s.started)
    (hg : g < s.started) : s'.others g k = s.others g k := by
  have hhex : ∀ i < s.started, s'.hex i = s.hex i := fun i hi => by
    rw [State.hex, (h.keeps.2 i hi).1]
  rw [State.others, State.others, hhex g hg]
  congr 1
  refine Finset.image_congr fun i hi => hhex i ?_
  have := (Finset.mem_Ioo.1 hi).2
  omega

/-- A step is an access of the next call, which puts its cell in front, the one
    of its identity if there is one; or it leaves the map. -/
theorem Step.access_or {a : Action} (h : Step env s a s') :
    (s'.started = s.started + 1 ∧
      s'.entries = s.entries.put (s'.hex s.started) (s'.gets s.started).cell ∧
      ∀ c, s.entries.peek (s'.hex s.started) = some c → c = (s'.gets s.started).cell) ∨
        (s'.started = s.started ∧ s'.entries = s.entries) := by
  cases h with
  | hit hc =>
    refine .inl ⟨rfl, by simp [State.hex], fun c h => ?_⟩
    rw [State.hex, start_gets_self] at h
    rw [start_gets_self]
    exact (Option.some.inj (hc.symm.trans h)).symm
  | miss hc =>
    refine .inl ⟨rfl, by simp [State.hex], fun c h => ?_⟩
    simp only [State.hex, State.start_gets, State.create_started, Function.update_self] at h
    rw [hc] at h
    cases h
  | move _ => exact .inr ⟨rfl, rfl⟩

/-- What the map keeps: the most recent identities, and for a call the cell it
    was given, as long as fewer than `cap` distinct other ones have accessed the
    map since. -/
structure Kept (s : State env.cap) : Prop where
  recent : s.entries.Recent s.hex s.started
  cell : ∀ g < s.started, (s.others g s.started).card < env.cap →
    s.entries.peek (s.hex g) = some (s.gets g).cell

/-- Every step keeps the cells of the recent identities. -/
theorem Kept.step {a : Action} (h : Kept s) (hst : Step env s a s') : Kept s' := by
  have hhex : ∀ i < s.started, s'.hex i = s.hex i := fun i hi => by
    rw [State.hex, (hst.keeps.2 i hi).1]
  rcases hst.access_or with ⟨hlt, hent, hfound⟩ | ⟨hlt, hent⟩
  · have hrec : s'.entries.Recent s'.hex s'.started := by
      rw [hlt, hent]
      refine Lru.Recent.put ?_ _
      rw [Lru.Recent, h.recent, Lru.recent_congr hhex]
    refine ⟨hrec, fun g hg hcard => ?_⟩
    rcases Nat.lt_succ_iff_lt_or_eq.1 (hlt ▸ hg) with hgs | rfl
    · -- An earlier call: its identity is still in the map, with the cell it had.
      have hsub : s.others g s.started ⊆ s'.others g s'.started := by
        rw [← hst.others le_rfl hgs, hlt]
        exact Finset.erase_subset_erase _
          (Finset.image_subset_image (Finset.Ioo_subset_Ioo_right (Nat.le_succ _)))
      have hcell := h.cell g hgs (lt_of_le_of_lt (Finset.card_le_card hsub) hcard)
      rw [hhex g hgs, (hst.keeps.2 g hgs).2]
      by_cases he : s.hex g = s'.hex s.started
      · rw [hent, he, Lru.peek_put_self env.one_le_cap, hfound (s.gets g).cell (he ▸ hcell)]
      · obtain ⟨c, hc⟩ := Lru.mem_keys.1 (hrec.mem_keys hg hcard)
        rw [hhex g hgs] at hc
        rcases Lru.peek_put_cases (hent ▸ hc) with ⟨he', -⟩ | ⟨-, hc'⟩
        · exact absurd he' he
        · rw [hc, ← hc', hcell]
    · rw [hent, Lru.peek_put_self env.one_le_cap]
  · refine ⟨?_, fun g hg hcard => ?_⟩
    · rw [hlt, hent, Lru.Recent, h.recent, Lru.recent_congr hhex]
    · rw [hlt] at hg hcard
      rw [hst.others le_rfl hg] at hcard
      rw [hent, hhex g hg, (hst.keeps.2 g hg).2]
      exact h.cell g hg hcard

/-- The map always keeps the cells of the recent identities. -/
theorem kept (hs : env.system.Reachable s) : Kept s := by
  refine hs.invariant (P := Kept) ?_ fun _ _ _ _ h _ hst => h.step (step_cases hst)
  exact ⟨List.take_nil.symm, fun g hg => absurd hg (Nat.not_lt_zero g)⟩

/-- Calls for one identity are given one cell, if fewer than `cap` distinct other
    identities accessed the map between them. -/
theorem shared (hs : env.system.Reachable s) : ∀ g h, g < h → h < s.started →
    s.hex g = s.hex h → (s.others g h).card < env.cap → (s.gets g).cell = (s.gets h).cell := by
  refine hs.invariant (P := fun s => ∀ g h, g < h → h < s.started → s.hex g = s.hex h →
    (s.others g h).card < env.cap → (s.gets g).cell = (s.gets h).cell)
    (fun _ h _ hh => absurd hh (Nat.not_lt_zero h)) fun s a s' hs ih _ hst g h hgh hh he hcard => ?_
  have hst := step_cases hst
  have hold : h < s.started → (s'.gets g).cell = (s'.gets h).cell := fun hlt => by
    have hg := hgh.trans hlt
    rw [State.hex, State.hex, (hst.keeps.2 g hg).1, (hst.keeps.2 h hlt).1] at he
    rw [hst.others hlt.le hg] at hcard
    rw [(hst.keeps.2 g hg).2, (hst.keeps.2 h hlt).2]
    exact ih g h hgh hlt he hcard
  rcases hst.access_or with ⟨hlt, -, hfound⟩ | ⟨hlt, -⟩
  · rcases Nat.lt_succ_iff_lt_or_eq.1 (hlt ▸ hh) with hlt | rfl
    · exact hold hlt
    · -- The later call accesses the map in this step, and finds the cell of the earlier one.
      rw [hst.others le_rfl hgh] at hcard
      have hcell := (kept hs).cell g hgh hcard
      rw [State.hex, (hst.keeps.2 g hgh).1] at he
      rw [(hst.keeps.2 g hgh).2]
      exact hfound _ (he ▸ hcell)
  · exact hold (hlt ▸ hh)

/-! ## What a cell holds -/

/-- A cell that is filled stays so. -/
theorem Step.value {a : Action} (hC : Consistent env s) (h : Step env s a s') {c : ℕ}
    {t : Transport} (hv : (s.cells c).value = some t) : (s'.cells c).value = some t := by
  cases h with
  | hit _ => exact hv
  | miss _ =>
    have hne : c ≠ s.created := by
      rintro rfl
      have := hC.unused _ le_rfl
      rw [Cell.occupied, hv] at this
      cases this
    exact (congrArg Cell.value (create_cells_of_ne hne)).trans hv
  | @move g _ _ cell hm =>
    by_cases hc : c = (s.gets g).cell
    · subst hc
      rw [move_cells_self]
      -- Only an empty cell is filled.
      rcases hC.move_value hm with he | ⟨hn, -⟩
      · exact he.trans hv
      · rw [State.cellOf, hv] at hn
        cases hn
    · rwa [move_cells_of_ne hc]

/-- Only a call whose own build fails returns an error. -/
theorem Step.error {a : Action} (h : Step env s a s') {g : ℕ} {e : String}
    (hg : (s'.gets g).stage = .returned (.error e)) :
    (s.gets g).stage = .returned (.error e) ∨
      (a = .built g (.error e) ∧ (s.gets g).stage = .building) := by
  cases h with
  | hit _ | miss _ =>
    by_cases hn : g = s.started
    · simp [hn] at hg
    · left
      simpa [Function.update_of_ne hn] using hg
  | @move k _ stage _ hm =>
    by_cases hk : g = k
    · subst hk
      rw [move_stage] at hg
      cases hm with
      | failed hs =>
        cases hg
        exact .inr ⟨rfl, hs⟩
      | build _ _ _ | filled _ | leave _ | abandon _ | ret _ _ => cases hg
    · left
      rwa [move_gets_of_ne hk] at hg

/-- A build that ends without success leaves its cell empty. -/
theorem Move.empty {g : ℕ} {a : Action} {stage : GetStage} {cell : Cell}
    (hC : Consistent env s) (hm : Move env s g a stage cell) (hb : (s.gets g).stage = .building)
    (ha : ∀ u, a ≠ .built g (.ok u)) : cell.value = none ∧ cell.builder = none := by
  cases hm with
  | failed hs | abandon hs => exact ⟨(hC.building g hs).2, rfl⟩
  | filled _ => exact absurd rfl (ha _)
  | build hs _ _ | leave hs | ret hs _ => rw [hb] at hs; cases hs

/-- The law of the cache. -/
structure Lawful (env : TransportCache) (s : State env.cap) : Prop where
  /-- The map has no more entries than its capacity, -/
  bounded : s.entries.entries.length ≤ env.cap
  /-- and no two for one identity. -/
  distinct : s.entries.keys.Nodup
  /-- At most one call builds the transport of a cell. -/
  single : ∀ g h, (s.gets g).stage = .building → (s.gets h).stage = .building →
    (s.gets g).cell = (s.gets h).cell → g = h
  /-- A build that fails or is dropped leaves its cell empty. -/
  empty : ∀ g a s', (s.gets g).stage = .building → (a = .drop g ∨ ∃ e, a = .built g (.error e)) →
    env.system.step s a = some s' → (s'.cellOf g).value = none ∧ (s'.cellOf g).builder = none
  /-- Every call waiting on an empty cell that nobody builds can build. -/
  retry : ∀ g, (s.gets g).stage = .waiting → (s.cellOf g).value = none →
    (s.cellOf g).builder = none → (env.system.step s (.build g)).isSome = true
  /-- An error is returned by the call whose own build failed with it, only. -/
  error : ∀ g a s' e, env.system.step s a = some s' → (s'.gets g).stage = .returned (.error e) →
    (s.gets g).stage = .returned (.error e) ∨
      (a = .built g (.error e) ∧ (s.gets g).stage = .building)
  /-- Once a cell is filled, it keeps its transport, and nobody builds it again. -/
  settled : ∀ c t s', (s.cells c).value = some t → env.system.Leads s s' →
    (s'.cells c).value = some t ∧ ∀ g, (s'.gets g).stage = .building → (s'.gets g).cell ≠ c
  /-- Successful calls for one identity return the same transport, if fewer than
      `cap` distinct other identities accessed the map between them. -/
  shared : ∀ g h t u, g < h → (s.gets g).stage = .returned (.ok t) →
    (s.gets h).stage = .returned (.ok u) → s.hex g = s.hex h →
      (s.others g h).card < env.cap → t = u

/-- In every state of every run, the cache is lawful. -/
theorem lawful (hs : env.system.Reachable s) : Lawful env s := by
  have hC := consistent hs
  refine
    { bounded := s.entries.length_le
      distinct := s.entries.nodup
      single := fun g h hg hh he => ?_
      empty := fun g a s' hg ha hst => ?_
      retry := fun g hg hv hb => ?_
      error := fun g a s' e hst hg => (step_cases hst).error hg
      settled := fun c t s' hv hl => ?_
      shared := fun g h t u hgh hg hh he hcard => ?_ }
  · -- A cell names the one call that builds it.
    have hbg := (hC.building g hg).1
    rw [State.cellOf, he] at hbg
    exact Option.some.inj (hbg.symm.trans (hC.building h hh).1)
  · cases step_cases hst with
    | hit _ | miss _ => rcases ha with ha | ⟨e, ha⟩ <;> cases ha
    | @move k _ _ cell hm =>
      obtain rfl : k = g := by rcases ha with rfl | ⟨e, rfl⟩ <;> cases hm <;> rfl
      have hne : ∀ u, a ≠ .built k (.ok u) := by rcases ha with rfl | ⟨e, rfl⟩ <;> simp
      rw [State.cellOf, move_cell, move_cells_self]
      exact hm.empty hC hg hne
  · simp [system, step, hg, hv, hb]
  · have hv' : (s'.cells c).value = some t :=
      hl.invariant (P := fun s => (s.cells c).value = some t)
        (fun _ _ _ hs hv hst => (step_cases hst).value (consistent hs) hv) hs hv
    refine ⟨hv', fun g hg hc => ?_⟩
    have hn := ((consistent (hs.leads hl)).building g hg).2
    rw [State.cellOf, hc, hv'] at hn
    cases hn
  · -- Both calls have one cell, and have returned what is in it.
    have hlt := hC.started_of_stage (g := h) (by simp [hh])
    have hcell := shared hs g h hgh hlt he hcard
    have ht := hC.returned g t hg
    rw [State.cellOf, hcell] at ht
    exact Option.some.inj (ht.symm.trans (hC.returned h u hh))

/-- A shim without a loopback relay. -/
def shim (cap : ℕ) (h : 1 ≤ cap) : TransportCache where
  cap := cap
  one_le_cap := h
  cfg :=
    { relayUrls := ["wss://nostr.wtf"]
      encryptionMode := .optional
      connectTimeout := 30
      giftWrapMode := .ephemeral
      publicUrls := [] }
  loopbackUrl := none
  normUrl := some

/-- The identity of an outlay. -/
def outlayHex : String := "deadbeefdeadbeefdeadbeefdeadbeefdeadbeefdeadbeefdeadbeefdeadbeef"

/-- A call builds, and fails; another waits on the same cell, builds again, and
    returns; a third shares its transport. -/
theorem lawful_retry : ∃ s : State 1, (s.gets 0).stage = .returned (.error "timed out") ∧
    (s.gets 1).stage = (s.gets 2).stage ∧ (s.cellOf 2).value.isSome = true ∧
      Lawful (shim 1 le_rfl) s := by
  obtain ⟨s, hs, hp⟩ := System.exists_reachableBy (M := (shim 1 le_rfl).system)
    (C := fun _ _ => True)
    [.access ⟨outlayHex, []⟩, .build 0, .access ⟨outlayHex, []⟩, .built 0 (.error "timed out"),
      .build 1, .built 1 (.ok ()), .ret 1, .access ⟨outlayHex, []⟩, .ret 2]
    (fun s => decide ((s.gets 0).stage = .returned (.error "timed out") ∧
      (s.gets 1).stage = (s.gets 2).stage ∧ (s.cellOf 2).value.isSome = true)) (by decide)
  obtain ⟨h₀, h₁, h₂⟩ := of_decide_eq_true hp
  exact ⟨s, h₀, h₁, h₂, lawful hs⟩

/-! ## Whose relays -/

/-- A call that returns is given the transport of its identity that some call
    for it built, and that dials the relays of the path of that call: the relays
    of its own path, if all paths of the identity so far have the same ones. -/
theorem relays_of_builder (hs : env.system.Reachable s) {g : ℕ} {t : Transport}
    (hg : (s.gets g).stage = .returned (.ok t)) :
    t.config.serverPubkey = s.hex g ∧ t.builder < s.started ∧ s.hex t.builder = s.hex g ∧
      t.config.relayUrls = env.relaysOf (s.gets t.builder).path ∧
        ((∀ h < s.started, s.hex h = s.hex g →
          env.relaysOf (s.gets h).path = env.relaysOf (s.gets g).path) →
            t.config.relayUrls = env.relaysOf (s.gets g).path) := by
  have hC := consistent hs
  obtain ⟨hlt, hcell, hconf⟩ := hC.value _ t (hC.returned g t hg)
  have hg' := hC.started_of_stage (g := g) (by simp [hg])
  -- Both calls have the cell of one identity.
  have hhex : s.hex t.builder = s.hex g := by
    rw [← (hC.cell _ hlt).2, ← (hC.cell g hg').2, State.cellOf, hcell]
  have hrelays : t.config.relayUrls = env.relaysOf (s.gets t.builder).path := by
    rw [hconf]
    rfl
  refine ⟨?_, hlt, hhex, hrelays, fun h => hrelays.trans (h _ hlt hhex)⟩
  rw [hconf, ← hhex]
  rfl

/-- Two visitors of one outlay, the second with a relay hint of its own. -/
def hinted : List Action :=
  [.access ⟨outlayHex, []⟩, .build 0, .built 0 (.ok ()), .ret 0,
    .access ⟨outlayHex, ["wss://relay.contextvm.org"]⟩, .ret 1]

/-- The second visitor is given the transport of the first. -/
theorem relays_of_builder_hinted : ∃ (s : State 1) (t : Transport),
    (s.gets 1).stage = .returned (.ok t) ∧ t.builder = 0 ∧
      t.config.relayUrls = (shim 1 le_rfl).relaysOf (s.gets t.builder).path := by
  obtain ⟨s, hs, hp⟩ := System.exists_reachableBy (M := (shim 1 le_rfl).system)
    (C := fun _ _ => True) hinted
    (fun s => decide ((s.gets 1).stage =
      .returned (.ok ⟨0, (shim 1 le_rfl).configOf ⟨outlayHex, []⟩⟩))) (by decide)
  have hg := of_decide_eq_true hp
  exact ⟨s, _, hg, rfl, (relays_of_builder hs hg).2.2.2.1⟩

/-- The second visitor's hint is not looked at: it dials the relays of the first. -/
theorem not_own_relays : ¬∀ (env : TransportCache) (s : State env.cap) (g : ℕ) (t : Transport),
    env.system.Reachable s → (s.gets g).stage = .returned (.ok t) →
      t.config.relayUrls = env.relaysOf (s.gets g).path := by
  intro h
  obtain ⟨s, hs, hp⟩ := System.exists_reachableBy (M := (shim 1 le_rfl).system)
    (C := fun _ _ => True) hinted
    (fun s => decide ((s.gets 1).stage =
      .returned (.ok ⟨0, (shim 1 le_rfl).configOf ⟨outlayHex, []⟩⟩) ∧
        (s.gets 1).path = ⟨outlayHex, ["wss://relay.contextvm.org"]⟩)) (by decide)
  obtain ⟨hg, hpath⟩ := of_decide_eq_true hp
  have hrelays := h _ s 1 _ hs hg
  rw [hpath] at hrelays
  exact absurd hrelays (by decide)

end Outlay.Shim.TransportCache

import Outlay.Shim.Sharing

/-!
# Eviction

The map evicts the least recently used cell when there is no room, even if a call
in progress still holds it. Then:

* the transport in it, or being built for it, outlives its place in the map: there
  may be more live transports than the capacity, and two of one identity
  (`not_bounded`). That does not happen in runs in which every live cell is in the
  map when it is evicted or built (`Spares`, `bounded`);
* if no other call holds it, the transport is dropped when the call returns
  (`not_alive_of_ret`). A call whose identity has been accessed recently returns a
  live one (`alive_of_ret`).
-/

namespace Outlay.Shim.TransportCache

open Async

variable {env : TransportCache} {s s' : State env.cap}

/-! ## What lives -/

/-- The live transports are of distinct identities, and at most `cap`. -/
structure Bounded (s : State env.cap) : Prop where
  distinct : ∀ c d, s.Live c → s.Live d → (s.cells c).hex = (s.cells d).hex → c = d
  card : ∀ F : Finset ℕ, (∀ c ∈ F, s.Live c) → F.card ≤ env.cap

/-- The step evicts no cell that a call in progress holds with a transport in it
    or being built, and starts no build on a cell that has been evicted. -/
def Spares (s : State env.cap) : Action → Prop
  | .access parsed => ∀ e ∈ s.entries.entries,
      e.1 ∉ (s.entries.put parsed.hex s.created).keys →
        ¬(s.Held e.2 ∧ (s.cells e.2).occupied = true)
  | .build g => s.Mapped (s.gets g).cell
  | _ => True

instance (s : State env.cap) : DecidablePred (Spares s)
  | .access _ => inferInstanceAs (Decidable (∀ e ∈ _, _ → _))
  | .build _ => inferInstanceAs (Decidable (State.Mapped ..))
  | .built _ _ | .drop _ | .ret _ => instDecidableTrue

theorem mapped_iff {c : ℕ} : s.Mapped c ↔ ∃ k, s.entries.peek k = some c := by
  constructor
  · rintro ⟨⟨k, _⟩, he, rfl⟩
    exact ⟨k, Lru.peek_eq_some.2 he⟩
  · rintro ⟨k, hk⟩
    exact ⟨_, Lru.peek_eq_some.1 hk, rfl⟩

/-- A live cell is in the map. -/
def LiveMapped (s : State env.cap) : Prop := ∀ c, s.Live c → s.Mapped c

/-- A cell that an access spares stays in the map. -/
theorem mapped_put {parsed : ParsedPath} {c d : ℕ}
    (hc : ∀ b, s.entries.peek parsed.hex = some b → b = c) (hd : s.Mapped d) (hl : s.Held d)
    (ho : (s.cells d).occupied = true) (hC : Spares s (.access parsed)) :
    ∃ k, (s.entries.put parsed.hex c).peek k = some d := by
  obtain ⟨e, he, rfl⟩ := hd
  have hpeek : s.entries.peek e.1 = some e.2 := Lru.peek_eq_some.2 he
  refine ⟨e.1, Lru.peek_put_of_mem hpeek ?_ fun hk => hc _ (hk ▸ hpeek)⟩
  rw [Lru.keys_put, ← Lru.keys_put s.entries _ s.created]
  exact not_not.1 fun hn => hC e he hn ⟨hl, ho⟩

/-- Of the cells a call starts to wait on, and those held before, one is that of a call. -/
theorem held_start {entries : Lru String ℕ env.cap} {parsed : ParsedPath} {c d : ℕ}
    (h : (s.start entries parsed c).Held d) : d = c ∨ s.Held d := by
  obtain ⟨g, hg, hp, rfl⟩ := h
  by_cases hn : g = s.started
  · exact .inl (by simp [hn])
  · have hlt : g < s.started := by
      rw [State.start_started] at hg
      omega
    rw [start_gets_of_ne hn] at hp ⊢
    exact .inr ⟨g, hlt, hp, rfl⟩

/-- A call that moves holds no more cells than before. -/
theorem held_move {g : ℕ} {a : Action} {stage : GetStage} {cell : Cell} {d : ℕ}
    (hm : Move env s g a stage cell) (h : (s.move g stage cell).Held d) : s.Held d := by
  obtain ⟨k, hk, hp, rfl⟩ := h
  rw [move_cell]
  by_cases hkg : k = g
  · exact ⟨k, hk, hkg ▸ hm.inProgress, rfl⟩
  · rw [move_gets_of_ne hkg] at hp
    exact ⟨k, hk, hp, rfl⟩

/-- A call that moves occupies its cell only by starting to build it. -/
theorem Move.occupied {g : ℕ} {a : Action} {stage : GetStage} {cell : Cell}
    (hC : Consistent env s) (hm : Move env s g a stage cell) :
    a = .build g ∨ (cell.occupied = true → (s.cellOf g).occupied = true) := by
  cases hm with
  | build _ _ _ => exact .inl rfl
  | filled hs => exact .inr fun _ => by simp [Cell.occupied, (hC.building g hs).1]
  | failed hs | abandon hs => exact .inr fun _ => by simp [Cell.occupied, (hC.building g hs).1]
  | leave _ | ret _ _ => exact .inr id

/-- Every step that spares the live cells keeps them in the map. -/
theorem LiveMapped.step {a : Action} (hC : Consistent env s) (h : LiveMapped s)
    (ha : Spares s a) (hst : Step env s a s') : LiveMapped s' := by
  rintro d ⟨hmap | hheld, ho⟩
  · exact hmap
  -- A live cell that a call holds.
  cases hst with
  | @hit parsed c hc =>
    have hfound : ∀ b, s.entries.peek parsed.hex = some b → b = c := fun b hb =>
      Option.some.inj (hb.symm.trans hc)
    refine mapped_iff.2 ?_
    rcases held_start hheld with rfl | hheld
    · exact ⟨parsed.hex, Lru.peek_put_self env.one_le_cap _ _ _⟩
    · exact mapped_put hfound (h d ⟨.inr hheld, ho⟩) hheld ho ha
  | @miss parsed hc =>
    -- The cell just created is empty, so it is not the one that is live.
    have hne : d ≠ s.created := by
      rintro rfl
      simp [Cell.fresh, Cell.occupied] at ho
    have hheld : s.Held d := (held_start hheld).resolve_left hne
    have ho : (s.cells d).occupied = true := by simpa [Function.update_of_ne hne] using ho
    have hfound : ∀ b, s.entries.peek parsed.hex = some b → b = s.created := fun b hb => by
      rw [hc] at hb
      cases hb
    exact mapped_iff.2 (mapped_put hfound (h d ⟨.inr hheld, ho⟩) hheld ho ha)
  | @move g _ stage cell hm =>
    have hheld := held_move hm hheld
    by_cases hd : d = (s.gets g).cell
    · subst hd
      rw [move_cells_self] at ho
      rcases hm.occupied hC with rfl | hocc
      · -- A build that starts on a cell in the map.
        exact ha
      · exact h _ ⟨.inr hheld, hocc ho⟩
    · rw [move_cells_of_ne hd] at ho
      exact h d ⟨.inr hheld, ho⟩

/-- In every run in which the live cells are spared, the live transports are of
    distinct identities, and no more than the capacity. -/
theorem bounded (hs : env.system.ReachableBy Spares s) : Bounded s := by
  have hlive : LiveMapped s := hs.invariant (P := LiveMapped)
    (fun _ ⟨_, ho⟩ => by cases ho)
    fun _ _ _ hs h ha hst => h.step (consistent hs.reachable) ha (step_cases hst)
  have hC := consistent hs.reachable
  refine ⟨fun c d hc hd he => ?_, fun F hF => Lru.card_le fun c hc =>
    mapped_iff.1 (hlive c (hF c hc))⟩
  -- Both are in the map, under their identities, which have one entry each.
  obtain ⟨k, hk⟩ := mapped_iff.1 (hlive c hc)
  obtain ⟨l, hl⟩ := mapped_iff.1 (hlive d hd)
  rw [(hC.mapped k c hk).2, (hC.mapped l d hl).2] at he
  rw [he, hl] at hk
  exact (Option.some.inj hk).symm

/-- The identity of another outlay. -/
def otherHex : String := "cafebabecafebabecafebabecafebabecafebabecafebabecafebabecafebabe"

/-- A call that has returned is followed by one for another identity, which evicts its cell. -/
theorem bounded_evicted : ∃ s : State (shim 1 le_rfl).cap, ¬s.Alive 0 ∧ s.Live 1 ∧ Bounded s := by
  obtain ⟨s, hs, hp⟩ := System.exists_reachableBy (M := (shim 1 le_rfl).system) (C := Spares)
    [.access ⟨outlayHex, []⟩, .build 0, .built 0 (.ok ()), .ret 0, .access ⟨otherHex, []⟩, .build 1]
    (fun s => decide (¬s.Alive 0 ∧ s.Live 1)) (by decide)
  obtain ⟨h₀, h₁⟩ := of_decide_eq_true hp
  exact ⟨s, h₀, h₁, bounded hs⟩

/-- With room for one transport, a call for another identity evicts the cell of
    one that still builds; its identity is asked for again, and a second
    transport is built for it. -/
theorem not_bounded : ¬∀ (env : TransportCache) (s : State env.cap),
    env.system.Reachable s → Bounded s := by
  intro h
  obtain ⟨s, hs, hp⟩ := System.exists_reachableBy (M := (shim 1 le_rfl).system)
    (C := fun _ _ => True)
    [.access ⟨outlayHex, []⟩, .build 0, .access ⟨otherHex, []⟩, .access ⟨outlayHex, []⟩, .build 2]
    (fun s => decide (s.Live 0 ∧ s.Live 2 ∧ (s.cells 0).hex = (s.cells 2).hex)) (by decide)
  obtain ⟨h₀, h₂, he⟩ := of_decide_eq_true hp
  exact absurd ((h _ s hs).distinct 0 2 h₀ h₂ he) (by decide)

/-! ## What a call returns -/

/-- The transport a call returns is alive after that if and only if its cell is
    in the map, or another call in progress holds it; and it is in the map if
    fewer than `cap` distinct other identities have accessed the map since the
    call did. -/
theorem alive_of_ret (hs : env.system.Reachable s) {g : ℕ}
    (hst : env.system.step s (.ret g) = some s') :
    (s'.Alive (s.gets g).cell ↔ s.Mapped (s.gets g).cell ∨
      ∃ h < s.started, h ≠ g ∧ (s.gets h).stage.inProgress = true ∧
        (s.gets h).cell = (s.gets g).cell) ∧
      ((s.others g s.started).card < env.cap → s'.Alive (s.gets g).cell) := by
  cases step_cases hst with
  | @move k _ stage cell hm =>
    cases hm with
    | @ret t hw hv =>
      have hg := (consistent hs).started_of_stage (g := g) (by simp [hw])
      refine ⟨or_congr Iff.rfl ?_, fun hcard => .inl (mapped_iff.2 ⟨_, (kept hs).cell g hg hcard⟩)⟩
      constructor
      · rintro ⟨h, hh, hp, hc⟩
        rw [move_cell] at hc
        have hne : h ≠ g := by
          rintro rfl
          simp [GetStage.inProgress] at hp
        rw [move_gets_of_ne hne] at hp
        exact ⟨h, hh, hne, hp, hc⟩
      · rintro ⟨h, hh, hne, hp, hc⟩
        refine ⟨h, hh, ?_, by rw [move_cell]; exact hc⟩
        rw [move_gets_of_ne hne]
        exact hp

/-- A call returns a live transport, its identity being the last one asked for. -/
theorem alive_of_ret_recent : ∃ s s' : State 1, (s.cellOf 0).value.isSome = true ∧
    (shim 1 le_rfl).system.step s (.ret 0) = some s' ∧ s'.Alive (s.gets 0).cell := by
  obtain ⟨s, hs, hp⟩ := System.exists_reachableBy (M := (shim 1 le_rfl).system)
    (C := fun _ _ => True) [.access ⟨outlayHex, []⟩, .build 0, .built 0 (.ok ())]
    (fun s => decide ((s.cellOf 0).value.isSome = true ∧
      ((shim 1 le_rfl).system.step s (.ret 0)).isSome = true ∧
        (s.others 0 s.started).card < 1)) (by decide)
  obtain ⟨hv, hst, hcard⟩ := of_decide_eq_true hp
  obtain ⟨s', hst⟩ := Option.isSome_iff_exists.1 hst
  exact ⟨s, s', hv, hst, (alive_of_ret hs hst).2 hcard⟩

/-- With room for one transport, a call for another identity evicts the cell of
    one that still builds: its transport is dropped when it returns it. -/
theorem not_alive_of_ret : ¬∀ (env : TransportCache) (s s' : State env.cap) (g : ℕ),
    env.system.Reachable s → env.system.step s (.ret g) = some s' →
      s'.Alive (s.gets g).cell := by
  intro h
  obtain ⟨s, hs, hp⟩ := System.exists_reachableBy (M := (shim 1 le_rfl).system)
    (C := fun _ _ => True)
    [.access ⟨outlayHex, []⟩, .build 0, .access ⟨otherHex, []⟩, .built 0 (.ok ())]
    (fun s => ((shim 1 le_rfl).system.step s (.ret 0)).any fun s' : State (shim 1 le_rfl).cap =>
      decide (¬s'.Alive (s.gets 0).cell)) (by decide)
  obtain ⟨s', hst, hdead⟩ := (Option.any_eq_true ..).1 hp
  exact of_decide_eq_true hdead (h _ s s' 0 hs hst)

end Outlay.Shim.TransportCache

import Outlay.Shim.Cache

/-!
# The cells of the transport cache

How the calls and the cells of the cache fit together (`Consistent`): a call and
the map only have cells of their identity, a cell is built by the one call that
says so and while it is empty, and what a cell is filled with is what the call
that filled it was asked to build.
-/

namespace Outlay.Shim.TransportCache

open Async

variable {env : TransportCache} {s s' : State env.cap}

/-- How the calls and the cells fit together. -/
structure Consistent (env : TransportCache) (s : State env.cap) : Prop where
  /-- Calls that have not accessed the map are not in progress. -/
  absent : ∀ g, s.started ≤ g → (s.gets g).stage = .absent
  /-- Cells not created are empty. -/
  unused : ∀ c, s.created ≤ c → (s.cells c).occupied = false
  /-- The cell of a call is one of its identity. -/
  cell : ∀ g < s.started, (s.gets g).cell < s.created ∧ (s.cellOf g).hex = s.hex g
  /-- The cells in the map are those of their keys. -/
  mapped : ∀ k c, s.entries.peek k = some c → c < s.created ∧ (s.cells c).hex = k
  /-- A call builds its cell, which is empty. -/
  building : ∀ g, (s.gets g).stage = .building →
    (s.cellOf g).builder = some g ∧ (s.cellOf g).value = none
  /-- A cell is built by the call that it says. -/
  builder : ∀ c g, (s.cells c).builder = some g →
    (s.gets g).stage = .building ∧ (s.gets g).cell = c
  /-- What a call has returned is in its cell. -/
  returned : ∀ g t, (s.gets g).stage = .returned (.ok t) → (s.cellOf g).value = some t
  /-- What is in a cell was built by a call on this cell, for its path. -/
  value : ∀ c t, (s.cells c).value = some t → t.builder < s.started ∧
    (s.gets t.builder).cell = c ∧ t.config = env.configOf (s.gets t.builder).path

/-- A call that is anywhere has accessed the map. -/
theorem Consistent.started_of_stage (h : Consistent env s) {g : ℕ}
    (hg : (s.gets g).stage ≠ .absent) : g < s.started :=
  not_le.1 fun hle => hg (h.absent g hle)

/-- An access of the map keeps the calls and the cells consistent, if the cell it
    finds is one of its identity. -/
theorem Consistent.start (h : Consistent env s) {parsed : ParsedPath} {c : ℕ}
    (hc : c < s.created ∧ (s.cells c).hex = parsed.hex) :
    Consistent env (s.start (s.entries.put parsed.hex c) parsed c) where
  absent g hg := by
    have hne : g ≠ s.started := by simp at hg; omega
    rw [start_gets_of_ne hne]
    exact h.absent g (by simp at hg; omega)
  unused := h.unused
  cell g hg := by
    by_cases hn : g = s.started
    · simpa [State.hex, State.cellOf, hn] using hc
    · simpa [State.hex, State.cellOf, Function.update_of_ne hn] using
        h.cell g (by simp at hg; omega)
  mapped k d hk := by
    rcases Lru.peek_put_cases hk with ⟨rfl, rfl⟩ | ⟨-, hk⟩
    · exact hc
    · exact h.mapped k d hk
  building g hg := by
    by_cases hn : g = s.started
    · simp [hn] at hg
    · rw [start_gets_of_ne hn] at hg
      rw [State.cellOf, start_gets_of_ne hn]
      exact h.building g hg
  builder d g hd := by
    have hg := h.builder d g hd
    have hn : g ≠ s.started := by
      rintro rfl
      rw [h.absent _ le_rfl] at hg
      cases hg.1
    rwa [start_gets_of_ne hn]
  returned g t hg := by
    by_cases hn : g = s.started
    · simp [hn] at hg
    · rw [start_gets_of_ne hn] at hg
      rw [State.cellOf, start_gets_of_ne hn]
      exact h.returned g t hg
  value d t hd := by
    obtain ⟨hlt, hcell, hconf⟩ := h.value d t hd
    rw [start_gets_of_ne hlt.ne]
    exact ⟨hlt.trans (Nat.lt_succ_self _), hcell, hconf⟩

/-- A new cell keeps the calls and the cells consistent. -/
theorem Consistent.create (h : Consistent env s) (hex : String) :
    Consistent env (s.create hex) where
  absent := h.absent
  unused c hc := by
    have hne : c ≠ s.created := by simp at hc; omega
    rw [create_cells_of_ne hne]
    exact h.unused c (by simp at hc; omega)
  cell g hg := by
    obtain ⟨hlt, hhex⟩ := h.cell g hg
    simpa [State.hex, State.cellOf, Function.update_of_ne hlt.ne] using ⟨hlt.le, hhex⟩
  mapped k c hk := by
    obtain ⟨hlt, hhex⟩ := h.mapped k c hk
    rw [create_cells_of_ne hlt.ne]
    exact ⟨hlt.trans (Nat.lt_succ_self _), hhex⟩
  building g hg := by
    rw [State.create_gets] at hg
    have hlt := (h.cell g (h.started_of_stage (by simp [hg]))).1
    rw [State.cellOf, State.create_gets, create_cells_of_ne hlt.ne]
    exact h.building g hg
  builder c g hc := by
    by_cases hn : c = s.created
    · simp [hn, Cell.fresh] at hc
    · rw [create_cells_of_ne hn] at hc
      exact h.builder c g hc
  returned g t hg := by
    rw [State.create_gets] at hg
    have hlt := (h.cell g (h.started_of_stage (by simp [hg]))).1
    rw [State.cellOf, State.create_gets, create_cells_of_ne hlt.ne]
    exact h.returned g t hg
  value c t hc := by
    by_cases hn : c = s.created
    · simp [hn, Cell.fresh] at hc
    · rw [create_cells_of_ne hn] at hc
      exact h.value c t hc

/-- Another call builds the cell of a call that moves only if this one leaves the
    cell as it is. -/
theorem Consistent.other_builder {g k : ℕ} {a : Action} {stage : GetStage} {cell : Cell}
    (h : Consistent env s) (hm : Move env s g a stage cell) (hk : k ≠ g)
    (hb : (s.cellOf g).builder = some k) : cell = s.cellOf g := by
  cases hm with
  | build _ _ hn => rw [hb] at hn; cases hn
  | filled hs | failed hs | abandon hs =>
    rw [(h.building g hs).1] at hb
    exact absurd (Option.some.inj hb).symm hk
  | leave _ | ret _ _ => rfl

/-- A call that moves changes the transport in its cell only by filling it, if it is empty. -/
theorem Consistent.move_value {g : ℕ} {a : Action} {stage : GetStage} {cell : Cell}
    (h : Consistent env s) (hm : Move env s g a stage cell) :
    cell.value = (s.cellOf g).value ∨ ((s.cellOf g).value = none ∧
      cell.value = some ⟨g, env.configOf (s.gets g).path⟩) := by
  cases hm with
  | filled hs => exact .inr ⟨(h.building g hs).2, rfl⟩
  | build _ _ _ | failed _ | leave _ | abandon _ | ret _ _ => exact .inl rfl

/-- A call that moves keeps the calls and the cells consistent. -/
theorem Consistent.move {g : ℕ} {a : Action} {stage : GetStage} {cell : Cell}
    (h : Consistent env s) (hm : Move env s g a stage cell) :
    Consistent env (s.move g stage cell) := by
  have hg : g < s.started := h.started_of_stage fun habs => by
    have := hm.inProgress
    rw [habs] at this
    cases this
  have hhex : ∀ c, ((s.move g stage cell).cells c).hex = (s.cells c).hex := fun c => by
    by_cases hc : c = (s.gets g).cell
    · rw [hc, move_cells_self, hm.hex]
    · rw [move_cells_of_ne hc]
  refine
    { absent := fun k hk => ?_, unused := fun c hc => ?_
      cell := fun k hk => ?_, mapped := fun k c hk => ?_
      building := fun k hk => ?_, builder := fun c k hc => ?_
      returned := fun k t hk => ?_, value := fun c t hc => ?_ }
  · rw [move_gets_of_ne (by rintro rfl; exact absurd hg (not_lt.2 hk))]
    exact h.absent k hk
  · rw [move_cells_of_ne (by rintro rfl; exact absurd (h.cell g hg).1 (not_lt.2 hc))]
    exact h.unused c hc
  · rw [State.cellOf, State.hex, hhex, move_path, move_cell]
    exact h.cell k hk
  · rw [hhex]
    exact h.mapped k c hk
  · rw [State.cellOf, move_cell]
    by_cases hkg : k = g
    · -- The call itself, which starts to build its cell.
      subst hkg
      rw [move_stage] at hk
      rw [move_cells_self]
      cases hm with
      | build _ hv _ => exact ⟨rfl, hv⟩
      | filled _ | failed _ | leave _ | abandon _ | ret _ _ => cases hk
    · rw [move_gets_of_ne hkg] at hk
      obtain ⟨hb, hv⟩ := h.building k hk
      by_cases hc : (s.gets k).cell = (s.gets g).cell
      · rw [State.cellOf, hc] at hb hv
        rw [hc, move_cells_self, h.other_builder hm hkg hb]
        exact ⟨hb, hv⟩
      · rw [move_cells_of_ne hc]
        exact ⟨hb, hv⟩
  · rw [move_cell]
    by_cases hcg : c = (s.gets g).cell
    · subst hcg
      rw [move_cells_self] at hc
      cases hm with
      | build _ _ _ =>
        obtain rfl := Option.some.inj hc
        simp
      | filled _ | failed _ | abandon _ => cases hc
      | leave hs | ret hs _ =>
        obtain ⟨hk, hcell⟩ := h.builder _ k hc
        have hkg : k ≠ g := by rintro rfl; rw [hs] at hk; cases hk
        rw [move_gets_of_ne hkg]
        exact ⟨hk, hcell⟩
    · rw [move_cells_of_ne hcg] at hc
      obtain ⟨hk, hcell⟩ := h.builder c k hc
      rw [move_gets_of_ne (by rintro rfl; exact hcg hcell.symm)]
      exact ⟨hk, hcell⟩
  · rw [State.cellOf, move_cell]
    by_cases hkg : k = g
    · -- The call itself, which returns what is in its cell.
      subst hkg
      rw [move_stage] at hk
      rw [move_cells_self]
      cases hm with
      | ret _ hv =>
        cases hk
        exact hv
      | build _ _ _ | filled _ | failed _ | leave _ | abandon _ => cases hk
    · rw [move_gets_of_ne hkg] at hk
      have hv := h.returned k t hk
      by_cases hc : (s.gets k).cell = (s.gets g).cell
      · rw [State.cellOf, hc] at hv
        rw [hc, move_cells_self]
        rcases h.move_value hm with he | ⟨hn, -⟩
        · exact he.trans hv
        · rw [State.cellOf, hv] at hn
          cases hn
      · rw [move_cells_of_ne hc]
        exact hv
  · rw [move_cell, move_path]
    by_cases hcg : c = (s.gets g).cell
    · subst hcg
      rw [move_cells_self] at hc
      rcases h.move_value hm with he | ⟨-, he⟩
      · exact h.value _ t (he.symm.trans hc)
      · obtain rfl := Option.some.inj (he.symm.trans hc)
        exact ⟨hg, rfl, rfl⟩
    · rw [move_cells_of_ne hcg] at hc
      exact h.value c t hc

/-- Every step keeps the calls and the cells consistent. -/
theorem Consistent.step {a : Action} (h : Consistent env s) (hst : Step env s a s') :
    Consistent env s' := by
  cases hst with
  | hit hc => exact h.start (h.mapped _ _ hc)
  | @miss parsed hc => exact (h.create parsed.hex).start ⟨Nat.lt_succ_self _, by simp [Cell.fresh]⟩
  | move hm => exact h.move hm

/-- The calls and the cells are always consistent. -/
theorem consistent (hs : env.system.Reachable s) : Consistent env s := by
  refine hs.invariant (P := Consistent env) ?_ fun _ _ _ _ h _ hst => h.step (step_cases hst)
  exact
    { absent := fun _ _ => rfl
      unused := fun _ _ => rfl
      cell := fun g hg => absurd hg (Nat.not_lt_zero g)
      mapped := fun _ _ hk => by cases hk
      building := fun _ hg => by cases hg
      builder := fun _ _ hc => by cases hc
      returned := fun _ _ hg => by cases hg
      value := fun _ _ hc => by cases hc }

end Outlay.Shim.TransportCache

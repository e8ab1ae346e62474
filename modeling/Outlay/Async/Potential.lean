import Outlay.Async.System

/-!
# The potential method

How long a system can run is bounded by a potential of its states: every step pays its
cost out of the potential, apart from what the environment adds by its own actions
(the `gain` of an action). So a run costs no more than the potential it starts with, and
what is added on the way (`Amortized.sum_cost_le`), whatever the interleaving; and where
nothing is added, the run ends.

As with any bound on steps, this says nothing about a system that is stuck; that a state
is not is to be shown beside.
-/

namespace Async.System

variable {S A : Type*} {M : System S A}

/-- From the states of `P`, which no step leaves, every step pays its cost out of the
    potential, and what its action adds to it. -/
structure Amortized (M : System S A) (P : S → Prop) (potential : S → ℕ) (cost gain : A → ℕ) :
    Prop where
  /-- No step leaves the states of `P`. -/
  closed : ∀ {s a s'}, P s → M.step s a = some s' → P s'
  /-- A step is paid for. -/
  pays : ∀ {s a s'}, P s → M.step s a = some s' → potential s' + cost a ≤ potential s + gain a

/-- A run costs no more than the potential it starts with, and what is added on the way. -/
theorem Amortized.sum_cost_le {P : S → Prop} {potential : S → ℕ} {cost gain : A → ℕ}
    (h : Amortized M P potential cost gain) {s s' : S} {l : List A} (hs : P s)
    (hl : M.runBy (fun _ _ => True) s l = some s') :
    potential s' + (l.map cost).sum ≤ potential s + (l.map gain).sum := by
  induction l generalizing s with
  | nil =>
    obtain rfl := Option.some.inj hl
    exact le_rfl
  | cons a l ih =>
    rw [runBy, if_pos trivial] at hl
    obtain ⟨s₁, hst, hl⟩ := Option.bind_eq_some_iff.1 hl
    have hrest := ih (h.closed hs hst) hl
    have hfirst := h.pays hs hst
    simp only [List.map_cons, List.sum_cons]
    omega

/-- When one of several parties moves, the sum of their potentials changes by its own. -/
theorem sum_update {ι α : Type*} [DecidableEq ι] {I : Finset ι} {i : ι} (hi : i ∈ I)
    (potential : α → ℕ) (f : ι → α) (v : α) :
    ∑ j ∈ I, potential (Function.update f i v j) + potential (f i) =
      ∑ j ∈ I, potential (f j) + potential v := by
  have hnew := Finset.add_sum_erase I (fun j => potential (Function.update f i v j)) hi
  have hold := Finset.add_sum_erase I (fun j => potential (f j)) hi
  have hrest : ∑ j ∈ I.erase i, potential (Function.update f i v j) =
      ∑ j ∈ I.erase i, potential (f j) :=
    Finset.sum_congr rfl fun j hj => by rw [Function.update_of_ne (Finset.ne_of_mem_erase hj)]
  simp only [Function.update_self] at hnew
  omega

end Async.System

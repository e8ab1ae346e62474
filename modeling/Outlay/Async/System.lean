import Mathlib

/-!
# Systems of concurrent parties

A `System` is an initial state and a partial, executable step function: `step s a`
is the state after the action `a`, or `none` where `a` is not enabled. An action
is one atomic step of one party (or of the environment), so that the runs of a
system are the interleavings of its parties.

* `System.Reachable`: the states some run reaches; `System.ReachableBy C`: those
  reached by a run *all of whose steps meet* the condition `C`, a condition on
  the state before the step and the action.
* `ReachableBy.invariant`: what holds initially, and every step preserves, holds
  in every state reached. The only induction over runs of the library.
* `System.Leads`: a state leads to another by some continuation of its run.
* `System.runBy`: the run along a list of actions, to evaluate concrete runs.
-/

namespace Async

/-- An initial state, and a step function that is `none` where the action is
    not enabled. -/
structure System (S A : Type*) where
  /-- The initial state. -/
  init : S
  /-- The state after an action, if it is enabled. -/
  step : S → A → Option S

namespace System

variable {S A : Type*} (M : System S A)

/-- The states reached by a run whose steps all meet the condition `C`. -/
inductive ReachableBy (C : S → A → Prop) : S → Prop
  | init : ReachableBy C M.init
  | step {s s' : S} {a : A} : ReachableBy C s → C s a → M.step s a = some s' → ReachableBy C s'

/-- The states reached by some run. -/
abbrev Reachable : S → Prop := M.ReachableBy fun _ _ => True

/-- `s` leads to `s'`: some continuation of a run in `s` reaches `s'`. -/
abbrev Leads : S → S → Prop := Relation.ReflTransGen fun s s' => ∃ a, M.step s a = some s'

variable {M} {C : S → A → Prop}

/-- A condition that asks for less lets more runs through. -/
theorem ReachableBy.mono {C' : S → A → Prop} (hC : ∀ s a, C s a → C' s a) {s : S}
    (hs : M.ReachableBy C s) : M.ReachableBy C' s := by
  induction hs with
  | init => exact .init
  | step _ ha hst ih => exact .step ih (hC _ _ ha) hst

/-- A state reached under a condition is reached. -/
theorem ReachableBy.reachable {s : S} (hs : M.ReachableBy C s) : M.Reachable s :=
  hs.mono fun _ _ _ => trivial

/-- The step of an unconditional run. -/
theorem Reachable.next {s s' : S} {a : A} (hs : M.Reachable s) (hst : M.step s a = some s') :
    M.Reachable s' := .step hs trivial hst

/-- What holds initially and is preserved by every step (that meets the
    condition, from a state reached) holds in every state reached. -/
theorem ReachableBy.invariant {P : S → Prop} (h₀ : P M.init)
    (h₁ : ∀ s a s', M.ReachableBy C s → P s → C s a → M.step s a = some s' → P s') {s : S}
    (hs : M.ReachableBy C s) : P s := by
  -- The state before the step is kept as one reached, which `h₁` may use.
  induction hs with
  | init => exact h₀
  | step hs ha hst ih => exact h₁ _ _ _ hs ih ha hst

/-- A reached state leads to reached states. -/
theorem Reachable.leads {s s' : S} (hs : M.Reachable s) (hl : M.Leads s s') :
    M.Reachable s' := by
  induction hl with
  | refl => exact hs
  | tail _ hst ih =>
    obtain ⟨a, ha⟩ := hst
    exact ih.next ha

/-- A system whose steps are, seen through `f`, steps of another one or nothing,
    reaches what is, seen through `f`, reached there. -/
theorem ReachableBy.project {S' A' : Type*} {N : System S' A'} {f : S → S'}
    (h₀ : f M.init = N.init)
    (h₁ : ∀ s a s', M.step s a = some s' → f s' = f s ∨ ∃ b, N.step (f s) b = some (f s')) {s : S}
    (hs : M.ReachableBy C s) : N.Reachable (f s) := by
  refine hs.invariant (P := fun s => N.Reachable (f s)) (h₀ ▸ .init) fun s a s' _ hf _ hst => ?_
  obtain heq | ⟨b, hb⟩ := h₁ s a s' hst
  · exact heq ▸ hf
  · exact hf.next hb

/-- The same under a condition, if the steps seen through `f` meet one there. -/
theorem ReachableBy.projectBy {S' A' : Type*} {N : System S' A'} {C' : S' → A' → Prop}
    {f : S → S'} (h₀ : f M.init = N.init)
    (h₁ : ∀ s a s', C s a → M.step s a = some s' →
      f s' = f s ∨ ∃ b, C' (f s) b ∧ N.step (f s) b = some (f s')) {s : S}
    (hs : M.ReachableBy C s) : N.ReachableBy C' (f s) := by
  refine hs.invariant (P := fun s => N.ReachableBy C' (f s)) (h₀ ▸ .init)
    fun s a s' _ hf hC hst => ?_
  obtain heq | ⟨b, hCb, hb⟩ := h₁ s a s' hC hst
  · exact heq ▸ hf
  · exact .step hf hCb hb

/-- What every step from a reached state preserves, continuations preserve. -/
theorem Leads.invariant {P : S → Prop}
    (h₁ : ∀ s a s', M.Reachable s → P s → M.step s a = some s' → P s') {s s' : S}
    (hs : M.Reachable s) (hP : P s) (hl : M.Leads s s') : P s' := by
  induction hl with
  | refl => exact hP
  | tail hl hst ih =>
    obtain ⟨a, ha⟩ := hst
    exact h₁ _ a _ (hs.leads hl) ih ha

/-! ## Concrete runs -/

variable (M) in
/-- The run from `s` along a list of actions, as long as the actions are enabled
    and meet the (decidable) condition. -/
def runBy (C : S → A → Prop) [∀ s a, Decidable (C s a)] : S → List A → Option S
  | s, [] => some s
  | s, a :: l => if C s a then (M.step s a).bind fun s' => runBy C s' l else none

variable (M) in
/-- The run from the initial state along a list of actions. -/
abbrev run (l : List A) : Option S := M.runBy (fun _ _ => True) M.init l

/-- A concrete run reaches the state it evaluates to. -/
theorem reachableBy_of_runBy [∀ s a, Decidable (C s a)] {s s' : S} {l : List A}
    (hs : M.ReachableBy C s) (hl : M.runBy C s l = some s') : M.ReachableBy C s' := by
  induction l generalizing s with
  | nil =>
    rw [runBy, Option.some.injEq] at hl
    exact hl ▸ hs
  | cons a l ih =>
    rw [runBy] at hl
    split_ifs at hl with ha
    obtain ⟨s₁, hst, hl⟩ := Option.bind_eq_some_iff.1 hl
    exact ih (.step hs ha hst) hl

/-- A concrete run that ends, in a state of which `p` is true, gives a reachable such state. -/
theorem exists_reachableBy [∀ s a, Decidable (C s a)] (l : List A) (p : S → Bool)
    (h : (M.runBy C M.init l).any p = true) : ∃ s, M.ReachableBy C s ∧ p s = true := by
  cases hl : M.runBy C M.init l with
  | none => rw [hl] at h; exact absurd h Bool.false_ne_true
  | some s =>
    rw [hl] at h
    exact ⟨s, reachableBy_of_runBy .init hl, h⟩

end System

end Async

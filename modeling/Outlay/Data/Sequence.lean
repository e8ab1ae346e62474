import Mathlib

/-!
# Sequences of steps that may fail

A sequence of steps stops at the first that fails: it succeeds if and only if all of
its steps do (`bind_eq_ok`, `mapM_eq_ok`).
-/

namespace Sequence

universe u

/-- A sequence succeeds if and only if both of its parts do. -/
theorem bind_eq_ok {ε : Type*} {α β : Type u} {x : Except ε α} {f : α → Except ε β} {b : β} :
    x >>= f = .ok b ↔ ∃ a, x = .ok a ∧ f a = .ok b := by
  cases x with
  | error e =>
    constructor
    · intro h; cases h
    · rintro ⟨_, h, _⟩; cases h
  | ok a => exact ⟨fun h => ⟨a, rfl, h⟩, fun ⟨_, h, hf⟩ => Except.ok.inj h ▸ hf⟩

/-- Decoding a list succeeds if and only if all of its elements decode. -/
theorem mapM_eq_ok {ε α β : Type*} {f : α → Except ε β} {l : List α} {bs : List β} :
    l.mapM f = .ok bs ↔ List.Forall₂ (fun a b => f a = .ok b) l bs := by
  induction l generalizing bs with
  | nil =>
    rw [List.mapM_nil, List.forall₂_nil_left_iff]
    exact ⟨fun h => (Except.ok.inj h).symm, fun h => h ▸ rfl⟩
  | cons a l ih =>
    rw [List.mapM_cons, List.forall₂_cons_left_iff, bind_eq_ok]
    constructor
    · rintro ⟨b, hb, h⟩
      obtain ⟨cs, hcs, h⟩ := bind_eq_ok.1 h
      exact ⟨b, cs, hb, ih.1 hcs, (Except.ok.inj h).symm⟩
    · rintro ⟨b, cs, hb, hcs, rfl⟩
      exact ⟨b, hb, bind_eq_ok.2 ⟨cs, ih.2 hcs, rfl⟩⟩

end Sequence

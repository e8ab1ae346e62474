import Mathlib

/-!
# Streams cut at a final element

A stream that ends with its first *final* element: `through p l` is the part of
`l` up to and including the first element satisfying `p`, all of `l` if there is
none. Extending a stream extends what comes through (`through_append_of_forall`)
until a final element has come through, and then changes nothing any more
(`through_append_of_exists`).
-/

namespace Async

variable {α : Type*} (p : α → Bool)

/-- The elements up to and including the first one satisfying `p`. -/
def through : List α → List α
  | [] => []
  | a :: l => if p a then [a] else a :: through l

variable {p}

/-- What comes through is a prefix of the stream. -/
theorem through_isPrefix (l : List α) : through p l <+: l := by
  induction l with
  | nil => exact List.prefix_rfl
  | cons a l ih =>
    rw [through]
    split_ifs
    · exact ⟨l, rfl⟩
    · exact List.cons_prefix_cons.2 ⟨rfl, ih⟩

/-- Without a final element, a stream is only extended. -/
theorem through_append_of_forall {l : List α} (h : ∀ a ∈ l, p a = false) (m : List α) :
    through p (l ++ m) = l ++ through p m := by
  induction l with
  | nil => rfl
  | cons a l ih =>
    rw [List.cons_append, through, if_neg (by simp [h a]),
      ih fun b hb => h b (List.mem_cons_of_mem _ hb), List.cons_append]

/-- Without a final element, all of a stream comes through. -/
theorem through_eq_self {l : List α} (h : ∀ a ∈ l, p a = false) : through p l = l := by
  simpa [through] using through_append_of_forall h []

/-- After a final element nothing more comes through. -/
theorem through_append_of_exists {l : List α} (h : ∃ a ∈ l, p a = true) (m : List α) :
    through p (l ++ m) = through p l := by
  induction l with
  | nil => obtain ⟨a, ha, _⟩ := h; exact absurd ha List.not_mem_nil
  | cons a l ih =>
    rw [List.cons_append, through, through]
    split_ifs with hp
    · rfl
    · obtain ⟨b, hb, hpb⟩ := h
      rcases List.mem_cons.1 hb with rfl | hb
      · exact absurd hpb hp
      · rw [ih ⟨b, hb, hpb⟩]

end Async

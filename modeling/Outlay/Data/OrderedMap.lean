import Mathlib

/-!
# Ordered maps

A map kept as the list of its entries in the order of their keys. Inserting an
entry replaces the one of its key, or else puts it at its place; removing a key
takes away all of its entries. What a key is mapped to after that is given by
`lookup_insert` and `lookup_remove`, which do not depend on the list being in
order; `Ordered.insert` and `Ordered.remove` say that it stays so.
-/

namespace OrderedMap

variable {K V : Type*} [LinearOrder K]

/-- Mapping the key `k` to `v`. -/
def insert (k : K) (v : V) : List (K × V) → List (K × V)
  | [] => [(k, v)]
  | e :: l =>
    if k < e.1 then (k, v) :: e :: l
    else if k = e.1 then (k, v) :: l
    else e :: insert k v l

/-- Removing the key `k`. -/
def remove (k : K) (l : List (K × V)) : List (K × V) := l.filter fun e => e.1 ≠ k

/-- The entries are in the order of their keys, which are distinct. -/
def Ordered (l : List (K × V)) : Prop := l.Pairwise fun e f => e.1 < f.1

section Lookup

variable [BEq K] [LawfulBEq K]

theorem lookup_cons_eq (j : K) (e : K × V) (l : List (K × V)) :
    (e :: l).lookup j = if j = e.1 then some e.2 else l.lookup j := by
  obtain ⟨k, v⟩ := e
  rw [List.lookup_cons]
  by_cases h : j = k
  · simp [h]
  · simp [h, beq_eq_false_iff_ne.2 h]

/-- Inserting an entry changes what its key is mapped to, and nothing else. -/
theorem lookup_insert (j k : K) (v : V) (l : List (K × V)) :
    (insert k v l).lookup j = if j = k then some v else l.lookup j := by
  induction l with
  | nil => rw [insert, lookup_cons_eq, List.lookup_nil]
  | cons e l ih =>
    rw [insert]
    by_cases hlt : k < e.1
    · rw [if_pos hlt, lookup_cons_eq]
    · rw [if_neg hlt]
      by_cases heq : k = e.1
      · -- The entry of the key is replaced.
        rw [if_pos heq, lookup_cons_eq, lookup_cons_eq, ← heq]
        by_cases hj : j = k <;> simp [hj]
      · rw [if_neg heq, lookup_cons_eq, ih, lookup_cons_eq]
        by_cases hj : j = e.1
        · have hne : j ≠ k := fun hk => heq (hk ▸ hj)
          rw [if_pos hj, if_pos hj, if_neg hne]
        · rw [if_neg hj, if_neg hj]

/-- Removing a key changes what it is mapped to, and nothing else. -/
theorem lookup_remove (j k : K) (l : List (K × V)) :
    (remove k l).lookup j = if j = k then none else l.lookup j := by
  induction l with
  | nil => simp [remove]
  | cons e l ih =>
    rw [remove] at ih
    rw [remove, List.filter_cons]
    by_cases he : e.1 = k
    · rw [if_neg (by simp [he]), ih, lookup_cons_eq, he]
      by_cases hj : j = k <;> simp [hj]
    · rw [if_pos (by simp [he]), lookup_cons_eq, ih, lookup_cons_eq]
      by_cases hj : j = e.1
      · have hne : j ≠ k := fun hk => he (hj ▸ hk)
        rw [if_pos hj, if_pos hj, if_neg hne]
      · rw [if_neg hj, if_neg hj]

end Lookup

/-! ## Order -/

/-- The keys after inserting an entry. -/
theorem mem_insert {k : K} {v : V} {l : List (K × V)} {e : K × V} (h : e ∈ insert k v l) :
    e.1 = k ∨ e ∈ l := by
  induction l with
  | nil => exact .inl (congrArg Prod.fst (List.mem_singleton.1 h))
  | cons f l ih =>
    rw [insert] at h
    split_ifs at h with hlt heq
    · rcases List.mem_cons.1 h with rfl | h
      exacts [.inl rfl, .inr h]
    · rcases List.mem_cons.1 h with rfl | h
      exacts [.inl rfl, .inr (List.mem_cons_of_mem _ h)]
    · rcases List.mem_cons.1 h with rfl | h
      · exact .inr List.mem_cons_self
      · exact (ih h).imp id (List.mem_cons_of_mem _)

/-- Inserting an entry keeps the order. -/
theorem Ordered.insert {l : List (K × V)} (h : Ordered l) (k : K) (v : V) :
    Ordered (OrderedMap.insert k v l) := by
  induction l with
  | nil => exact List.pairwise_singleton _ _
  | cons e l ih =>
    obtain ⟨he, hl⟩ := List.pairwise_cons.1 h
    rw [OrderedMap.insert]
    split_ifs with hlt heq
    · refine List.pairwise_cons.2 ⟨fun f hf => ?_, h⟩
      rcases List.mem_cons.1 hf with rfl | hf
      exacts [hlt, hlt.trans (he f hf)]
    · exact List.pairwise_cons.2 ⟨fun f hf => heq ▸ he f hf, hl⟩
    · -- The entry comes after `e`, and so do all others.
      have hgt : e.1 < k := lt_of_le_of_ne (not_lt.1 hlt) (Ne.symm heq)
      refine List.pairwise_cons.2 ⟨fun f hf => ?_, ih hl⟩
      rcases mem_insert hf with hf | hf
      exacts [hf ▸ hgt, he f hf]

/-- Removing a key keeps the order. -/
theorem Ordered.remove {l : List (K × V)} (h : Ordered l) (k : K) :
    Ordered (OrderedMap.remove k l) :=
  List.Pairwise.filter _ h

/-- The entries after inserting one. -/
theorem eq_or_mem_of_mem_insert {k : K} {v : V} {l : List (K × V)} {e : K × V}
    (h : e ∈ insert k v l) : e = (k, v) ∨ e ∈ l := by
  induction l with
  | nil => exact .inl (List.mem_singleton.1 h)
  | cons f l ih =>
    rw [OrderedMap.insert] at h
    split_ifs at h with hlt heq
    · exact List.mem_cons.1 h
    · exact (List.mem_cons.1 h).imp id (List.mem_cons_of_mem _)
    · rcases List.mem_cons.1 h with rfl | h
      · exact .inr List.mem_cons_self
      · exact (ih h).imp id (List.mem_cons_of_mem _)

/-- An entry whose key comes after all others is put at the end. -/
theorem insert_of_forall_lt {k : K} (v : V) {l : List (K × V)} (h : ∀ e ∈ l, e.1 < k) :
    insert k v l = l ++ [(k, v)] := by
  induction l with
  | nil => rfl
  | cons e l ih =>
    have he := h e List.mem_cons_self
    rw [OrderedMap.insert, if_neg he.not_gt, if_neg he.ne',
      ih fun f hf => h f (List.mem_cons_of_mem _ hf), List.cons_append]

/-- Inserting entries in order, one after the other, gives the list of them. -/
theorem foldl_insert {l m : List (K × V)} (h : Ordered (l ++ m)) :
    m.foldl (fun l e => OrderedMap.insert e.1 e.2 l) l = l ++ m := by
  induction m generalizing l with
  | nil => rw [List.foldl_nil, List.append_nil]
  | cons e m ih =>
    have hlt : ∀ f ∈ l, f.1 < e.1 := fun f hf =>
      (List.pairwise_append.1 h).2.2 f hf e List.mem_cons_self
    rw [List.append_cons] at h ⊢
    rw [List.foldl_cons, insert_of_forall_lt e.2 hlt, ih h]

end OrderedMap

import Mathlib

/-!
# Separated texts

A text is trimmed by dropping the blanks on either side of it (`trim`). It is read
as a list of items by cutting it at every separator, trimming every field, and
leaving out the fields that are empty then (`items`).

The items read have no blank on either side and no separator, and are not empty
(`isItem_of_mem_items`). A list of such items is read back from every text that
writes it, whatever the blanks around its items and wherever its blank fields
(`Writes.items_eq`).
-/

namespace Separated

variable {α : Type*} (p : α → Bool)

/-- The text is blank. -/
def Blank (l : List α) : Prop := ∀ a ∈ l, p a

/-- Dropping the blanks on either side. -/
def trim (l : List α) : List α := (l.dropWhile p).rdropWhile p

/-! ## Trimming -/

section Trim

variable {p} {l w w' : List α}

theorem Blank.append (h : Blank p w) (h' : Blank p w') : Blank p (w ++ w') :=
  List.forall_mem_append.2 ⟨h, h'⟩

/-- A blank text has no separators. -/
theorem Blank.sep_not_mem {sep : α} (hsep : p sep = false) (h : Blank p w) : sep ∉ w := fun hs =>
  Bool.false_ne_true (hsep.symm.trans (h sep hs))

/-- Blanks in front do not matter. -/
theorem trim_blank_append (h : Blank p w) (l : List α) : trim p (w ++ l) = trim p l := by
  rw [trim, List.dropWhile_append_of_pos h, trim]

/-- A blank text is trimmed to nothing. -/
theorem trim_blank (h : Blank p w) : trim p w = [] := by
  rw [trim, List.dropWhile_eq_nil_iff.2 h, List.rdropWhile_nil]

theorem rdropWhile_append_blank (h : Blank p w) (l : List α) :
    (l ++ w).rdropWhile p = l.rdropWhile p := by
  induction w using List.reverseRecOn with
  | nil => rw [List.append_nil]
  | append_singleton w a ih =>
    obtain ⟨hw, ha⟩ := List.forall_mem_append.1 h
    rw [← List.append_assoc, List.rdropWhile_concat_pos _ _ _ (ha a List.mem_cons_self), ih hw]

/-- Blanks at the end do not matter. -/
theorem trim_append_blank (h : Blank p w) (l : List α) : trim p (l ++ w) = trim p l := by
  by_cases hl : Blank p l
  · rw [trim_blank (hl.append h), trim_blank hl]
  · have hne : ¬(l.dropWhile p).isEmpty := fun he =>
      hl (List.dropWhile_eq_nil_iff.1 (List.isEmpty_iff.1 he))
    rw [trim, List.dropWhile_append, if_neg hne, rdropWhile_append_blank h, trim]

/-- A text is what it is trimmed to, with blanks around it. -/
theorem exists_trim (p : α → Bool) (l : List α) :
    ∃ w w', Blank p w ∧ Blank p w' ∧ l = w ++ trim p l ++ w' := by
  refine ⟨l.takeWhile p, (l.dropWhile p).rtakeWhile p, fun a ha => List.mem_takeWhile_imp ha,
    fun a ha => List.mem_rtakeWhile_imp ha, ?_⟩
  rw [List.append_assoc, trim, List.rdropWhile_append_rtakeWhile, List.takeWhile_append_dropWhile]

/-- Trimming twice is trimming once. -/
theorem trim_trim (p : α → Bool) (l : List α) : trim p (trim p l) = trim p l := by
  obtain ⟨w, w', hw, hw', hl⟩ := exists_trim p l
  conv_rhs => rw [hl, trim_append_blank hw', trim_blank_append hw]

/-- What a text is trimmed to is part of it. -/
theorem mem_of_mem_trim {a : α} (h : a ∈ trim p l) : a ∈ l := by
  obtain ⟨w, w', -, -, hl⟩ := exists_trim p l
  rw [hl]
  exact List.mem_append_left _ (List.mem_append_right _ h)

/-- A text without blanks stays as it is. -/
theorem trim_of_not_blank (h : ∀ a ∈ l, ¬p a) : trim p l = l := by
  have hd : l.dropWhile p = l :=
    List.dropWhile_eq_self_iff.2 fun hl => h _ (List.getElem_mem hl)
  have hr : l.rdropWhile p = l :=
    List.rdropWhile_eq_self_iff.2 fun hl => h _ (List.getLast_mem hl)
  rw [trim, hd, hr]

end Trim

/-! ## Items -/

variable (sep : α)

/-- What an item is: not empty, trimmed, and without separators. -/
structure IsItem (x : List α) : Prop where
  ne_nil : x ≠ []
  trimmed : trim p x = x
  sep_not_mem : sep ∉ x

/-- The fields write the items, each with blanks around it, and blank fields
    anywhere. -/
inductive Writes : List (List α) → List (List α) → Prop
  | nil : Writes [] []
  | blank {w : List α} {fields xs : List (List α)} : Blank p w → Writes fields xs →
      Writes (w :: fields) xs
  | item {w x w' : List α} {fields xs : List (List α)} : Blank p w → Blank p w' →
      Writes fields xs → Writes ((w ++ x ++ w') :: fields) (x :: xs)

section Writes

variable {p sep} {fields xs : List (List α)}

/-- The fields that write items have no separators. -/
theorem Writes.sep_not_mem (hsep : p sep = false) (h : Writes p fields xs)
    (hxs : ∀ x ∈ xs, IsItem p sep x) : ∀ f ∈ fields, sep ∉ f := by
  induction h with
  | nil => exact fun f hf => nomatch hf
  | blank hw _ ih => exact List.forall_mem_cons.2 ⟨hw.sep_not_mem hsep, ih hxs⟩
  | item hw hw' _ ih =>
    obtain ⟨hx, hxs⟩ := List.forall_mem_cons.1 hxs
    refine List.forall_mem_cons.2 ⟨fun hs => ?_, ih hxs⟩
    rcases List.mem_append.1 hs with hs | hs
    · rcases List.mem_append.1 hs with hs | hs
      · exact hw.sep_not_mem hsep hs
      · exact hx.sep_not_mem hs
    · exact hw'.sep_not_mem hsep hs

/-- Trimming the fields that write items, and leaving out the empty ones. -/
theorem Writes.filter_map (h : Writes p fields xs) (hxs : ∀ x ∈ xs, IsItem p sep x) :
    (fields.map (trim p)).filter (fun x => !x.isEmpty) = xs := by
  induction h with
  | nil => rfl
  | blank hw _ ih =>
    rw [List.map_cons, trim_blank hw, List.filter_cons_of_neg (by simp), ih hxs]
  | item hw hw' _ ih =>
    obtain ⟨hx, hxs⟩ := List.forall_mem_cons.1 hxs
    rw [List.map_cons, trim_append_blank hw', trim_blank_append hw, hx.trimmed,
      List.filter_cons_of_pos (by simpa using hx.ne_nil), ih hxs]

end Writes

variable [DecidableEq α]

/-- The items of a text. -/
def items (l : List α) : List (List α) :=
  ((l.splitOn sep).map (trim p)).filter fun x => !x.isEmpty

section Items

variable {p sep} {fields xs : List (List α)} {x l w : List α}

/-- No field of a text has a separator. -/
theorem sep_not_mem_of_mem_splitOn (h : x ∈ l.splitOn sep) : sep ∉ x := by
  induction l generalizing x with
  | nil =>
    rw [List.splitOn_nil, List.mem_singleton] at h
    exact h ▸ List.not_mem_nil
  | cons a l ih =>
    rw [List.splitOn_cons_eq_if_modifyHead] at h
    by_cases ha : a = sep
    · rw [if_pos (beq_iff_eq.2 ha)] at h
      rcases List.mem_cons.1 h with rfl | h
      · exact List.not_mem_nil
      · exact ih h
    · rw [if_neg (mt beq_iff_eq.1 ha)] at h
      cases hs : l.splitOn sep with
      | nil => exact absurd hs (List.splitOn_ne_nil sep l)
      | cons y ys =>
        rw [hs] at h ih
        rcases List.mem_cons.1 h with rfl | h
        · exact List.not_mem_cons_of_ne_of_not_mem (Ne.symm ha) (ih List.mem_cons_self)
        · exact ih (List.mem_cons_of_mem _ h)

/-- Every item read is one. -/
theorem isItem_of_mem_items (h : x ∈ items p sep l) : IsItem p sep x := by
  obtain ⟨hx, hne⟩ := List.mem_filter.1 h
  obtain ⟨y, hy, rfl⟩ := List.mem_map.1 hx
  refine ⟨fun he => ?_, trim_trim p y, fun hs => ?_⟩
  · rw [he, List.isEmpty_nil] at hne
    exact Bool.false_ne_true hne
  · exact sep_not_mem_of_mem_splitOn hy (mem_of_mem_trim hs)

/-- Items are read back from every text that writes them. -/
theorem Writes.items_eq (hsep : p sep = false) (h : Writes p fields xs)
    (hxs : ∀ x ∈ xs, IsItem p sep x) : items p sep ([sep].intercalate fields) = xs := by
  by_cases hf : fields = []
  · subst hf
    cases h
    rfl
  · rw [items, List.splitOn_intercalate sep (h.sep_not_mem hsep hxs) hf, h.filter_map hxs]

/-- The items of a text without separators. -/
theorem items_of_not_mem (h : sep ∉ l) :
    items p sep l = [trim p l].filter fun x => !x.isEmpty := by
  rw [items, List.splitOn_eq_singleton h, List.map_singleton]

/-- The items on either side of a separator. -/
theorem items_append_cons (l m : List α) :
    items p sep (l ++ sep :: m) = items p sep l ++ items p sep m := by
  rw [items, List.splitOn_append_cons_self, List.map_append, List.filter_append, items, items]

/-- Blanks in front of a text do not matter to its items. -/
theorem items_blank_append (hsep : p sep = false) (hw : Blank p w) (l : List α) :
    items p sep (w ++ l) = items p sep l := by
  have hfirst : ∀ m, sep ∉ m → items p sep (w ++ m) = items p sep m := fun m hm => by
    have hwm : sep ∉ w ++ m := List.not_mem_append (hw.sep_not_mem hsep) hm
    rw [items_of_not_mem hwm, items_of_not_mem hm, trim_blank_append hw]
  by_cases hl : sep ∈ l
  · -- Only the first field sees them.
    obtain ⟨m, n, rfl, hm⟩ := List.eq_append_cons_of_mem hl
    rw [← List.append_assoc, items_append_cons, hfirst m hm, items_append_cons]
  · exact hfirst l hl

/-- Blanks at the end of a text do not matter to its items. -/
theorem items_append_blank (hsep : p sep = false) (hw : Blank p w) (l : List α) :
    items p sep (l ++ w) = items p sep l := by
  have hlast : ∀ m, sep ∉ m → items p sep (m ++ w) = items p sep m := fun m hm => by
    have hmw : sep ∉ m ++ w := List.not_mem_append hm (hw.sep_not_mem hsep)
    rw [items_of_not_mem hmw, items_of_not_mem hm, trim_append_blank hw]
  by_cases hl : sep ∈ l
  · -- Only the last field sees them.
    obtain ⟨n, m, hnm, hn⟩ := List.eq_append_cons_of_mem (List.mem_reverse.2 hl)
    have hl : l = m.reverse ++ sep :: n.reverse := by
      rw [← List.reverse_reverse l, hnm, List.reverse_append, List.reverse_cons,
        List.append_assoc, List.singleton_append]
    rw [hl, List.append_assoc, List.cons_append, items_append_cons,
      hlast n.reverse (mt List.mem_reverse.1 hn), items_append_cons]
  · exact hlast l hl

/-- Trimming a text does not change its items. -/
theorem items_trim (hsep : p sep = false) (l : List α) :
    items p sep (trim p l) = items p sep l := by
  obtain ⟨w, w', hw, hw', hl⟩ := exists_trim p l
  conv_rhs => rw [hl, items_append_blank hsep hw', items_blank_append hsep hw]

end Items

end Separated

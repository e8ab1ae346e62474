import Mathlib

/-!
# Escaping

A text is escaped by putting an entity in the place of every reserved letter.
Entities start with a marker, which is itself reserved, so that they can be told
from the text (`Table`).

The replacements can be made one letter after another, over the whole text, if no
letter occurs in an entity put in before its turn: this is the same as a single
pass (`replaceAll_eq_escape`). An escaped text has no reserved letter but for the
markers of its entities (`Table.not_mem_escape`, `Table.marker_escape`), and is
decoded to the text (`Table.decode_escape`).
-/

namespace Escape

variable {α : Type*} [DecidableEq α]

/-- Every occurrence of the letter `a`, replaced by the text `r`. -/
def replace (a : α) (r l : List α) : List α := l.flatMap fun b => if b = a then r else [b]

/-- The replacements of a table, one after another. -/
def replaceAll : List (α × List α) → List α → List α
  | [], l => l
  | (a, r) :: es, l => replaceAll es (replace a r l)

/-- What a letter becomes in a single pass. -/
def single (es : List (α × List α)) (b : α) : List α := (es.lookup b).getD [b]

/-- The replacements of a table, in a single pass. -/
def escape (es : List (α × List α)) (l : List α) : List α := l.flatMap (single es)

/-! ## The single pass -/

section

variable {es : List (α × List α)}

theorem lookup_mem {b : α} {r : List α} (h : es.lookup b = some r) : (b, r) ∈ es := by
  obtain ⟨l₁, l₂, rfl, -⟩ := List.lookup_eq_some_iff.1 h
  simp

theorem lookup_ne_none {e : α × List α} (he : e ∈ es) : es.lookup e.1 ≠ none := by
  intro h
  simpa using List.lookup_eq_none_iff.1 h e he

/-- A letter is replaced by its entity, or else is not reserved and stays. -/
theorem single_cases (es : List (α × List α)) (b : α) :
    (b, single es b) ∈ es ∨ single es b = [b] ∧ ∀ e ∈ es, e.1 ≠ b := by
  cases h : es.lookup b with
  | some r =>
    have hr : single es b = r := by rw [single, h, Option.getD_some]
    exact .inl (hr ▸ lookup_mem h)
  | none =>
    refine .inr ⟨by rw [single, h, Option.getD_none], fun e he hb => ?_⟩
    exact lookup_ne_none he (hb ▸ h)

@[simp] theorem escape_nil : escape es [] = [] := rfl

@[simp] theorem escape_cons (b : α) (l : List α) :
    escape es (b :: l) = single es b ++ escape es l := rfl

/-- Escaping a text is escaping its parts. -/
theorem escape_append (l m : List α) : escape es (l ++ m) = escape es l ++ escape es m :=
  List.flatMap_append

/-- A text without reserved letters stays as it is. -/
theorem escape_of_not_mem {l : List α} (h : ∀ e ∈ es, e.1 ∉ l) : escape es l = l := by
  induction l with
  | nil => rfl
  | cons b l ih =>
    rw [escape_cons, ih fun e he hl => h e he (List.mem_cons_of_mem _ hl)]
    rcases single_cases es b with hb | ⟨hb, -⟩
    · exact absurd List.mem_cons_self (h _ hb)
    · rw [hb, List.singleton_append]

/-- Replacing one letter after another is a single pass, if no letter occurs in an
    entity put in before its turn. -/
theorem replaceAll_eq_escape (h : es.Pairwise fun e f => f.1 ≠ e.1 ∧ f.1 ∉ e.2) (l : List α) :
    replaceAll es l = escape es l := by
  induction es generalizing l with
  | nil => exact (List.flatMap_singleton' l).symm
  | cons e es ih =>
    obtain ⟨a, r⟩ := e
    obtain ⟨he, hes⟩ := List.pairwise_cons.1 h
    rw [replaceAll, ih hes, escape, replace, List.flatMap_assoc]
    refine List.flatMap_congr fun b _ => ?_
    by_cases hb : b = a
    · -- The entity just put in is not touched by the later replacements.
      subst hb
      rw [if_pos rfl]
      refine (escape_of_not_mem fun f hf => (he f hf).2).trans ?_
      simp [single]
    · rw [if_neg hb, List.flatMap_singleton, single, single, List.lookup_cons,
        beq_eq_false_iff_ne.2 hb]

end

/-! ## Tables of entities -/

/-- A table of entities, in the order of their replacement. -/
structure Table (α : Type*) where
  entries : List (α × List α)
  marker : α
  /-- The marker is reserved itself. -/
  reserved : marker ∈ entries.map Prod.fst
  /-- The marker starts every entity, and does not occur in it again. -/
  marked : ∀ e ∈ entries, ∃ body, e.2 = marker :: body ∧ marker ∉ body
  /-- No other reserved letter occurs in an entity. -/
  clean : ∀ e ∈ entries, ∀ f ∈ entries, f.1 ∈ e.2 → f.1 = marker
  /-- No letter occurs in an entity put in before its turn. -/
  ordered : entries.Pairwise fun e f => f.1 ≠ e.1 ∧ f.1 ∉ e.2
  /-- No entity is the start of another one. -/
  prefixFree : ∀ e ∈ entries, ∀ f ∈ entries, e.2 <+: f.2 → e = f

namespace Table

variable (T : Table α) {l : List α}

/-- Decoding, with `n` letters of the last entity still to be skipped. -/
def decodeFrom : Nat → List α → List α
  | _, [] => []
  | n + 1, _ :: l => decodeFrom n l
  | 0, b :: l =>
    match T.entries.find? fun e => e.2.isPrefixOf (b :: l) with
    | some e => e.1 :: decodeFrom (e.2.length - 1) l
    | none => b :: decodeFrom 0 l

/-- Every entity of a text, read from left to right, replaced by its letter. -/
def decode (l : List α) : List α := T.decodeFrom 0 l

/-- The only reserved letters of an escaped text are markers. -/
theorem not_mem_escape {e : α × List α} (he : e ∈ T.entries) (hne : e.1 ≠ T.marker) :
    e.1 ∉ escape T.entries l := by
  intro h
  obtain ⟨b, -, hb⟩ := List.mem_flatMap.1 h
  rcases single_cases T.entries b with hmem | ⟨hb', hres⟩
  · exact hne (T.clean _ hmem e he hb)
  · rw [hb'] at hb
    exact hres e he (List.mem_singleton.1 hb)

/-- Of reserved letters other than the marker, an escaped text has none. -/
theorem filter_escape {p : α → Bool}
    (hp : ∀ b, p b = true → b ≠ T.marker ∧ ∃ e ∈ T.entries, e.1 = b) :
    (escape T.entries l).filter p = [] := by
  refine List.filter_eq_nil_iff.2 fun b hb hpb => ?_
  obtain ⟨hne, e, he, rfl⟩ := hp b hpb
  exact T.not_mem_escape he hne hb

omit [DecidableEq α] in
/-- A letter that is not reserved is not the marker. -/
theorem ne_marker {b : α} (h : ∀ e ∈ T.entries, e.1 ≠ b) : b ≠ T.marker := by
  obtain ⟨e, he, hm⟩ := List.mem_map.1 T.reserved
  exact fun hb => h e he (hm.trans hb.symm)

/-- A marker in an escaped text starts the entity of a letter of the text. -/
theorem marker_escape {p q : List α} (h : escape T.entries l = p ++ T.marker :: q) :
    ∃ l₁ e l₂, e ∈ T.entries ∧ l = l₁ ++ e.1 :: l₂ ∧
      p = escape T.entries l₁ ∧ T.marker :: q = e.2 ++ escape T.entries l₂ := by
  induction l generalizing p with
  | nil => exact absurd h.symm (by simp)
  | cons b l ih =>
    rw [escape_cons] at h
    rcases List.append_eq_append_iff.1 h with ⟨p', rfl, hl⟩ | ⟨r, hb, hq⟩
    · -- The marker comes after what `b` has become.
      obtain ⟨l₁, e, l₂, he, rfl, rfl, hq⟩ := ih hl
      exact ⟨b :: l₁, e, l₂, he, rfl, rfl, hq⟩
    · cases r with
      | nil =>
        obtain ⟨l₁, e, l₂, he, rfl, hp, hq⟩ := ih (p := []) (by simpa using hq.symm)
        refine ⟨b :: l₁, e, l₂, he, rfl, ?_, hq⟩
        rw [escape_cons, ← hp, List.append_nil, hb, List.append_nil]
      | cons c r =>
        -- The marker is in what `b` has become: this is an entity, at its start.
        obtain ⟨rfl, rfl⟩ := List.cons.inj hq
        rcases single_cases T.entries b with hmem | ⟨hsingle, hres⟩
        · obtain ⟨body, hbody, hnot⟩ := T.marked _ hmem
          have hp : p = [] := by
            cases p with
            | nil => rfl
            | cons d p =>
              have htail : body = p ++ T.marker :: r := (List.cons.inj (hbody.symm.trans hb)).2
              exact absurd (htail ▸ by simp) hnot
          refine ⟨[], _, l, hmem, rfl, hp, ?_⟩
          rw [hb, hp]
          rfl
        · -- A letter that stays is not the marker.
          have hmark : T.marker ∈ single T.entries b := hb ▸ by simp
          rw [hsingle] at hmark
          exact absurd (List.mem_singleton.1 hmark).symm (T.ne_marker hres)

/-! ## Decoding -/

/-- The letters to be skipped are skipped. -/
theorem decodeFrom_append (r l : List α) : T.decodeFrom r.length (r ++ l) = T.decode l := by
  induction r with
  | nil => rfl
  | cons b r ih => exact ih

/-- A text that starts with an entity starts with no other one. -/
theorem find_entity {e : α × List α} (he : e ∈ T.entries) (l : List α) :
    T.entries.find? (fun f => f.2.isPrefixOf (e.2 ++ l)) = some e := by
  cases h : T.entries.find? (fun f => f.2.isPrefixOf (e.2 ++ l)) with
  | none =>
    have hnot := List.find?_eq_none.1 h e he
    simp at hnot
  | some f =>
    have hf := List.mem_of_find?_eq_some h
    have hpre : f.2 <+: e.2 ++ l := by simpa using List.find?_some h
    rcases List.prefix_or_prefix_of_prefix hpre (List.prefix_append e.2 l) with hfe | hef
    · rw [T.prefixFree f hf e he hfe]
    · rw [T.prefixFree e he f hf hef]

/-- An entity is decoded to its letter. -/
theorem decode_entity {e : α × List α} (he : e ∈ T.entries) (l : List α) :
    T.decode (e.2 ++ l) = e.1 :: T.decode l := by
  obtain ⟨body, hbody, -⟩ := T.marked e he
  have hfind := T.find_entity he l
  rw [hbody, List.cons_append] at hfind ⊢
  rw [decode, decodeFrom, hfind]
  have hlen : e.2.length - 1 = body.length := by rw [hbody, List.length_cons, Nat.add_sub_cancel]
  exact congrArg (e.1 :: ·) (hlen ▸ T.decodeFrom_append body l)

/-- A letter other than the marker stays. -/
theorem decode_cons {b : α} (hb : b ≠ T.marker) (l : List α) :
    T.decode (b :: l) = b :: T.decode l := by
  have hfind : T.entries.find? (fun f => f.2.isPrefixOf (b :: l)) = none := by
    refine List.find?_eq_none.2 fun f hf hpre => ?_
    obtain ⟨body, hbody, -⟩ := T.marked f hf
    rw [List.isPrefixOf_iff_prefix, hbody] at hpre
    exact hb (List.cons_prefix_cons.1 hpre).1.symm
  rw [decode, decodeFrom, hfind]
  rfl

/-- An escaped text is decoded to the text. -/
theorem decode_escape (l : List α) : T.decode (escape T.entries l) = l := by
  induction l with
  | nil => rfl
  | cons b l ih =>
    rw [escape_cons]
    rcases single_cases T.entries b with hmem | ⟨hsingle, hres⟩
    · exact (T.decode_entity hmem _).trans (by rw [ih])
    · rw [hsingle, List.singleton_append, T.decode_cons (T.ne_marker hres), ih]

end Table

end Escape

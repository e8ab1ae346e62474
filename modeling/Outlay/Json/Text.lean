import Outlay.Json.Read

/-!
# The texts of a value

A text spells a value (`Text`) if it is printed character by character as the value
is, but for white space, of which there may be any amount between the tokens. Both
prints of a value spell it (`Valid.text_render`, `Valid.text_renderPretty`), and
whatever spells a value is read as that value (`parse_of_text`). So a value is read
back from its prints, and two values with one print are the same
(`render_injective`).

Not every value is read back: the fields of an object have to be in the order of their
keys, as `serde_json` keeps them, its numbers have to be printed as the reader would,
and arrays and objects may only be nested up to its limit (`Valid`).
-/

namespace Outlay.Json

/-- White space only. -/
def Spaces (cs : List Char) : Prop := ∀ c ∈ cs, isSpace c = true

/-- No number goes on here. -/
def Delimited (cs : List Char) : Prop := ∀ c r, cs = c :: r → isNumChar c = false

/-- A value that is read back: numbers are printed as they are, the fields of objects
    are in order, and arrays and objects are nested `depth` times at most. -/
def Valid (fmt : String → Option String) : ℕ → Json → Prop
  | _, .null | _, .bool _ | _, .str _ => True
  | _, .num lit => isNumber lit.toList = true ∧ fmt lit = some lit
  | 0, .arr _ | 0, .obj _ => False
  | d + 1, .arr items => ∀ v ∈ items, Valid fmt d v
  | d + 1, .obj fields => OrderedMap.Ordered fields ∧ ∀ f ∈ fields, Valid fmt d f.2

section Sequences

variable {α : Type} (W : α → List Char → Prop)

/-- The texts of some items with commas between them, each of them a text of an item
    among white space. -/
inductive ItemsText : List α → List Char → Prop
  | one {v : α} {a t b : List Char} (ha : Spaces a) (ht : W v t) (hb : Spaces b) :
      ItemsText [v] (a ++ (t ++ b))
  | cons {v : α} {vs : List α} {a t b cs : List Char} (ha : Spaces a) (ht : W v t)
      (hb : Spaces b) (hcs : ItemsText vs cs) : ItemsText (v :: vs) (a ++ (t ++ (b ++ ',' :: cs)))

/-- The texts of a sequence between its brackets. -/
inductive SequenceText : List α → List Char → Prop
  | empty {a : List Char} (ha : Spaces a) : SequenceText [] a
  | items {vs : List α} {cs : List Char} (h : ItemsText W vs cs) : SequenceText vs cs

end Sequences

/-- The texts of a field. -/
def FieldText (W : Json → List Char → Prop) (f : String × Json) (cs : List Char) : Prop :=
  ∃ a b t, cs = (quote f.1).toList ++ (a ++ ':' :: (b ++ t)) ∧ Spaces a ∧ Spaces b ∧ W f.2 t

/-- The texts of a value that is nested `depth` times at most. -/
def Text (fmt : String → Option String) : ℕ → Json → List Char → Prop
  | _, .null, cs => cs = "null".toList
  | _, .bool b, cs => cs = (if b then "true" else "false").toList
  | _, .num lit, cs => cs = lit.toList ∧ isNumber cs = true ∧ fmt lit = some lit
  | _, .str s, cs => cs = (quote s).toList
  | 0, .arr _, _ | 0, .obj _, _ => False
  | d + 1, .arr items, cs => ∃ inner, cs = '[' :: (inner ++ [']']) ∧
      SequenceText (Text fmt d) items inner
  | d + 1, .obj fields, cs => ∃ inner, cs = '\x7b' :: (inner ++ ['\x7d']) ∧
      OrderedMap.Ordered fields ∧ SequenceText (FieldText (Text fmt d)) fields inner

/-! ## White space -/

theorem Spaces.nil : Spaces [] := fun _ h => absurd h List.not_mem_nil

theorem Spaces.append {a b : List Char} (ha : Spaces a) (hb : Spaces b) : Spaces (a ++ b) :=
  fun c hc => (List.mem_append.1 hc).elim (ha c) (hb c)

theorem Spaces.cons {c : Char} {a : List Char} (hc : isSpace c = true) (ha : Spaces a) :
    Spaces (c :: a) :=
  fun _ hd => (List.mem_cons.1 hd).elim (fun h => h ▸ hc) (ha _)

/-- Skipping white space that is followed by anything else. -/
theorem skipSpace_append {a : List Char} (ha : Spaces a) {c : Char} (hc : isSpace c = false)
    (r : List Char) : skipSpace (a ++ c :: r) = c :: r := by
  rw [skipSpace, List.dropWhile_append_of_pos fun c hc => ha c hc,
    List.dropWhile_cons_of_neg (by simp [hc])]

/-- White space is no number. -/
theorem isNumChar_of_isSpace {c : Char} (h : isSpace c = true) : isNumChar c = false := by
  simp only [isSpace, Bool.or_eq_true, decide_eq_true_eq] at h
  rcases h with ((rfl | rfl) | rfl) | rfl <;> rfl

/-- A delimiter after white space is still one. -/
theorem Delimited.append {a r : List Char} (ha : Spaces a) (hr : Delimited r) :
    Delimited (a ++ r) := by
  cases a with
  | nil => exact hr
  | cons c a =>
    rintro _ _ ⟨⟩
    exact isNumChar_of_isSpace (ha c List.mem_cons_self)

theorem Delimited.cons {c : Char} (h : isNumChar c = false) (r : List Char) :
    Delimited (c :: r) := by
  rintro _ _ ⟨⟩
  exact h

/-! ## Strings -/

theorem toList_quote (s : String) :
    (quote s).toList = '"' :: (s.toList.flatMap (fun c => (escapeChar c).toList) ++ ['"']) := by
  simp [quote, String.toList_join, List.flatMap_map]

theorem hexVal_digitChar : ∀ n < 16, hexVal (Nat.digitChar n) = some n := by decide

/-- An escaped character is read back. -/
theorem readChars_escapeChar (c : Char) (fuel : ℕ) (r : List Char) :
    readChars (fuel + 1) ((escapeChar c).toList ++ r) =
      (readChars fuel r).map fun p => (c :: p.1, p.2) := by
  have hescape : ∀ (e : String) (l : List Char), e.toList = '\\' :: l →
      unescapeChar (l ++ r) = some (c, r) → readChars (fuel + 1) (e.toList ++ r) =
        (readChars fuel r).map fun p => (c :: p.1, p.2) := fun e l he hu => by
    simp [he, readChars, hu]
  have hcode : ∀ n, c.toNat = n → Char.ofNat n = c := fun n h => h ▸ Char.ofNat_toNat c
  simp only [escapeChar]
  split_ifs with h₁ h₂ h₃ h₄ h₅ h₆ h₇ h₈
  · exact hescape _ ['"'] rfl (by simp [unescapeChar, h₁])
  · exact hescape _ ['\\'] rfl (by simp [unescapeChar, h₂])
  · exact hescape _ ['n'] rfl (by simp [unescapeChar, h₃])
  · exact hescape _ ['r'] rfl (by simp [unescapeChar, h₄])
  · exact hescape _ ['t'] rfl (by simp [unescapeChar, h₅])
  · exact hescape _ ['b'] rfl (by simpa [unescapeChar] using hcode 8 h₆)
  · exact hescape _ ['f'] rfl (by simpa [unescapeChar] using hcode 12 h₇)
  · -- The other control characters, by their code.
    have hhi := hexVal_digitChar (c.toNat / 16) (by omega)
    have hlo := hexVal_digitChar (c.toNat % 16) (by omega)
    have hdiv : 16 * (c.toNat / 16) + c.toNat % 16 = c.toNat := Nat.div_add_mod _ _
    have hzero : hexVal '0' = some 0 := by decide
    have hread : readHex4 ('0' :: '0' :: (c.toNat / 16).digitChar :: (c.toNat % 16).digitChar ::
        r) = some (c.toNat, r) := by
      simp [readHex4, hzero, hhi, hlo, hdiv]
    refine hescape _ ['u', '0', '0', (c.toNat / 16).digitChar, (c.toNat % 16).digitChar]
      (by simp [hex4]) ?_
    simp [unescapeChar, readUnicode, hread, show ¬0xD800 ≤ c.toNat by omega,
      show ¬0xDC00 ≤ c.toNat by omega]
  · simp [readChars, h₁, h₂, h₈]

/-- A printed string is read back. -/
theorem readChars_escaped (l : List Char) {fuel : ℕ} (hf : l.length < fuel) (r : List Char) :
    readChars fuel (l.flatMap (fun c => (escapeChar c).toList) ++ '"' :: r) = some (l, r) := by
  induction l generalizing fuel with
  | nil =>
    obtain ⟨f, rfl⟩ := Nat.exists_eq_add_of_lt hf
    simp [readChars]
  | cons c l ih =>
    obtain ⟨f, rfl⟩ := Nat.exists_eq_add_of_lt hf
    rw [List.flatMap_cons, List.append_assoc, readChars_escapeChar, ih (by simp; omega)]
    rfl

/-- No character is printed as nothing. -/
theorem escapeChar_length (c : Char) : 1 ≤ (escapeChar c).toList.length := by
  simp only [escapeChar]
  split_ifs <;> simp

theorem length_le_escaped (l : List Char) :
    l.length ≤ (l.flatMap fun c => (escapeChar c).toList).length := by
  induction l with
  | nil => exact le_rfl
  | cons c l ih =>
    have := escapeChar_length c
    rw [List.flatMap_cons, List.length_append, List.length_cons]
    omega

theorem readString_quote (s : String) (r : List Char) :
    readString (s.toList.flatMap (fun c => (escapeChar c).toList) ++ '"' :: r) = some (s, r) := by
  have hlen := length_le_escaped s.toList
  have hfuel : s.toList.length <
      (s.toList.flatMap (fun c => (escapeChar c).toList) ++ '"' :: r).length := by
    rw [List.length_append, List.length_cons]
    omega
  rw [readString, readChars_escaped s.toList hfuel r]
  simp

/-! ## Sequences -/

section Sequences

variable {α : Type} {W : α → List Char → Prop} {item : List Char → Option (α × List Char)}

/-- The item that a text spells is read from it, after any white space. -/
def Reads (item : List Char → Option (α × List Char)) (W : α → List Char → Prop) : Prop :=
  ∀ v t a r, W v t → Spaces a → Delimited r → item (a ++ (t ++ r)) = some (v, r)

/-- Texts of items do not start with white space, or with the letter that closes the
    sequence. -/
def Opens (close : Char) (W : α → List Char → Prop) : Prop :=
  ∀ v t, W v t → ∃ c r, t = c :: r ∧ isSpace c = false ∧ c ≠ close

/-- White space before the items belongs to the first. -/
theorem ItemsText.prepend {vs : List α} {cs p : List Char} (h : ItemsText W vs cs)
    (hp : Spaces p) : ItemsText W vs (p ++ cs) := by
  cases h with
  | one ha ht hb => rw [← List.append_assoc]; exact .one (hp.append ha) ht hb
  | cons ha ht hb hcs => rw [← List.append_assoc]; exact .cons (hp.append ha) ht hb hcs

/-- White space after the items belongs to the last. -/
theorem ItemsText.append {vs : List α} {cs q : List Char} (h : ItemsText W vs cs)
    (hq : Spaces q) : ItemsText W vs (cs ++ q) := by
  induction h with
  | one ha ht hb =>
    simp only [List.append_assoc]
    exact .one ha ht (hb.append hq)
  | cons ha ht hb _ ih =>
    simp only [List.append_assoc, List.cons_append]
    exact .cons ha ht hb ih

/-- There are no more items than letters. -/
theorem ItemsText.length_le {vs : List α} {cs : List Char} (h : ItemsText W vs cs) :
    vs.length ≤ cs.length + 1 := by
  induction h with
  | one => simp
  | cons _ _ _ _ ih => simp only [List.length_cons, List.length_append]; omega

/-- The items that a text spells are read from it. -/
theorem readItems_text (hitem : Reads item W) {close : Char} (hc : close ≠ ',')
    (hcs : isSpace close = false) (hcn : isNumChar close = false) {vs : List α} {cs : List Char}
    (h : ItemsText W vs cs) {fuel : ℕ} (hf : vs.length ≤ fuel) (r : List Char) :
    readItems item close fuel (cs ++ close :: r) = some (vs, r) := by
  induction h generalizing fuel with
  | @one v a t b ha ht hb =>
    obtain ⟨f, rfl⟩ := Nat.exists_eq_add_of_le' hf
    have hd : Delimited (b ++ close :: r) := (Delimited.cons hcn r).append hb
    have hi := hitem v t a _ ht ha hd
    simp only [List.length_singleton, List.append_assoc, readItems, hi, skipSpace_append hb hcs,
      if_neg hc, if_pos]
  | @cons v vs a t b cs ha ht hb _ ih =>
    obtain ⟨f, rfl⟩ := Nat.exists_eq_add_of_le' (Nat.le_of_lt_succ (Nat.lt_succ_of_le hf))
    have hd : Delimited (b ++ ',' :: (cs ++ close :: r)) := (Delimited.cons rfl _).append hb
    have hi := hitem v t a _ ht ha hd
    have hrest := @ih (f + vs.length) (by omega)
    simp only [List.length_cons, List.append_assoc, List.cons_append, ← Nat.add_assoc, readItems,
      hi, skipSpace_append hb (show isSpace ',' = false from rfl), if_pos, hrest, Option.map_some]

/-- The sequence that a text spells is read from it. -/
theorem readSequence_text (hitem : Reads item W) {close : Char} (hW : Opens close W)
    (hc : close ≠ ',') (hcs : isSpace close = false) (hcn : isNumChar close = false)
    {vs : List α} {cs : List Char} (h : SequenceText W vs cs) (r : List Char) :
    readSequence item close (cs ++ close :: r) = some (vs, r) := by
  cases h with
  | empty ha =>
    rw [readSequence, skipSpace_append ha hcs]
    simp
  | items h =>
    -- The first letter is one of an item, and does not close the sequence.
    obtain ⟨c, r', hskip, hne⟩ : ∃ c r', skipSpace (cs ++ close :: r) = c :: r' ∧ c ≠ close := by
      cases h with
      | one ha ht _ | cons ha ht _ _ =>
        obtain ⟨c, r', rfl, hsp, hne⟩ := hW _ _ ht
        exact ⟨c, _, by simp only [List.append_assoc, List.cons_append]; exact
          skipSpace_append ha hsp _, hne⟩
    have hlen := h.length_le
    rw [readSequence, hskip]
    simp only [if_neg hne]
    exact readItems_text hitem hc hcs hcn h (by rw [List.length_append, List.length_cons]; omega) r

end Sequences

/-! ## Numbers -/

/-- A digit is a character of a number. -/
theorem isNumChar_of_isDigit {c : Char} (h : c.isDigit = true) : isNumChar c = true := by
  simp [isNumChar, h]

theorem isNumChar_of_isExponent {cs : List Char} (h : isExponent cs = true) :
    ∀ c ∈ cs, isNumChar c = true := by
  cases cs with
  | nil => exact fun _ h => absurd h List.not_mem_nil
  | cons e r =>
    simp only [isExponent, Bool.and_eq_true, Bool.or_eq_true, decide_eq_true_eq] at h
    obtain ⟨⟨he, -⟩, hd⟩ := h
    have hr : ∀ c ∈ r, isNumChar c = true := by
      cases r with
      | nil => exact fun _ h => absurd h List.not_mem_nil
      | cons s l =>
        have hall := List.all_eq_true.1 hd
        simp only at hall
        split_ifs at hall with hs
        · refine List.forall_mem_cons.2 ⟨?_, fun c hc => isNumChar_of_isDigit (hall c hc)⟩
          rcases hs with rfl | rfl <;> rfl
        · exact fun c hc => isNumChar_of_isDigit (hall c hc)
    refine List.forall_mem_cons.2 ⟨?_, hr⟩
    rcases he with rfl | rfl <;> rfl

/-- The characters of some digits, and of what follows them. -/
theorem isNumChar_of_digits {cs : List Char}
    (h : ∀ c ∈ cs.dropWhile Char.isDigit, isNumChar c = true) : ∀ c ∈ cs, isNumChar c = true := by
  intro c hc
  rw [← List.takeWhile_append_dropWhile (p := Char.isDigit) (l := cs)] at hc
  rcases List.mem_append.1 hc with hc | hc
  · exact isNumChar_of_isDigit (List.mem_takeWhile_imp hc)
  · exact h c hc

theorem isNumChar_of_isFraction {cs : List Char} (h : isFraction cs = true) :
    ∀ c ∈ cs, isNumChar c = true := by
  rw [isFraction.eq_def] at h
  split at h
  · refine List.forall_mem_cons.2 ⟨rfl, isNumChar_of_digits ?_⟩
    exact isNumChar_of_isExponent (Bool.and_eq_true_iff.1 h).2
  · exact isNumChar_of_isExponent h

/-- A number without a sign starts with a digit. -/
theorem isUnsigned_cases {cs : List Char} (h : isUnsigned cs = true) :
    (∃ c r, cs = c :: r ∧ c.isDigit = true) ∧ ∀ c ∈ cs, isNumChar c = true := by
  rw [isUnsigned.eq_def] at h
  split at h
  · exact ⟨⟨_, _, rfl, rfl⟩, List.forall_mem_cons.2 ⟨rfl, isNumChar_of_isFraction h⟩⟩
  · obtain ⟨hd, hf⟩ := Bool.and_eq_true_iff.1 h
    exact ⟨⟨_, _, rfl, hd⟩, List.forall_mem_cons.2 ⟨isNumChar_of_isDigit hd,
      isNumChar_of_digits (isNumChar_of_isFraction hf)⟩⟩
  · cases h

/-- A number starts with a digit or a sign, and has characters of numbers only. -/
theorem isNumber_cases {cs : List Char} (h : isNumber cs = true) :
    (∃ c r, cs = c :: r ∧ (c = '-' ∨ c.isDigit = true)) ∧ ∀ c ∈ cs, isNumChar c = true := by
  rw [isNumber.eq_def] at h
  split at h
  · exact ⟨⟨_, _, rfl, .inl rfl⟩, List.forall_mem_cons.2 ⟨rfl, (isUnsigned_cases h).2⟩⟩
  · obtain ⟨⟨c, r, rfl, hd⟩, hall⟩ := isUnsigned_cases h
    exact ⟨⟨c, r, rfl, .inr hd⟩, hall⟩

/-! ## Values -/

variable {fmt : String → Option String}

theorem readIdent_append (v : Json) (ident r : List Char) :
    readIdent v ident (ident ++ r) = some (v, r) := by
  simp [readIdent]

/-- A number is read up to what delimits it. -/
theorem readNumber_append {lit : String} (hlit : isNumber lit.toList = true)
    (hfmt : fmt lit = some lit) {r : List Char} (hr : Delimited r) :
    readNumber fmt (lit.toList ++ r) = some (.num lit, r) := by
  have hall := (isNumber_cases hlit).2
  have htake : (lit.toList ++ r).takeWhile isNumChar = lit.toList := by
    rw [List.takeWhile_append_of_pos hall]
    cases r with
    | nil => simp
    | cons c r => simp [hr c r rfl]
  have hdrop : (lit.toList ++ r).dropWhile isNumChar = r := by
    rw [List.dropWhile_append_of_pos hall]
    cases r with
    | nil => rfl
    | cons c r => simp [hr c r rfl]
  simp [readNumber, htake, hdrop, hlit, hfmt]

/-- The first letter of the text of a value is neither white space nor a delimiter. -/
theorem Text.head {d : ℕ} {v : Json} {t : List Char} (h : Text fmt d v t) :
    ∃ c r, t = c :: r ∧ isSpace c = false ∧ c ≠ ']' := by
  cases v with
  | null =>
    rw [Text] at h
    exact ⟨_, _, h, by decide, by decide⟩
  | bool b =>
    rw [Text] at h
    cases b <;> exact ⟨_, _, h, by decide, by decide⟩
  | num lit =>
    rw [Text] at h
    obtain ⟨rfl, hnum, -⟩ := h
    obtain ⟨⟨c, r, hcr, hc⟩, hall⟩ := isNumber_cases hnum
    refine ⟨c, r, hcr, ?_, ?_⟩
    · rw [Bool.eq_false_iff]
      intro hsp
      have := hall c (hcr ▸ List.mem_cons_self)
      rw [isNumChar_of_isSpace hsp] at this
      cases this
    · rintro rfl
      rcases hc with hc | hc <;> cases hc
  | str s =>
    rw [Text, toList_quote] at h
    exact ⟨_, _, h, by decide, by decide⟩
  | arr items =>
    cases d with
    | zero => rw [Text] at h; exact h.elim
    | succ d =>
      rw [Text] at h
      obtain ⟨inner, rfl, -⟩ := h
      exact ⟨_, _, rfl, by decide, by decide⟩
  | obj fields =>
    cases d with
    | zero => rw [Text] at h; exact h.elim
    | succ d =>
      rw [Text] at h
      obtain ⟨inner, rfl, -⟩ := h
      exact ⟨_, _, rfl, by decide, by decide⟩

/-- The field that a text spells is read from it. -/
theorem readField_text {value : List Char → Option (Json × List Char)}
    {W : Json → List Char → Prop} (hvalue : Reads value W) :
    Reads (readField value) (FieldText W) := by
  rintro ⟨k, v⟩ _ p r ⟨a, b, t, rfl, ha, hb, ht⟩ hp hr
  have hskip : skipSpace (p ++ ((quote k).toList ++ (a ++ ':' :: (b ++ t)) ++ r)) =
      '"' :: (k.toList.flatMap (fun c => (escapeChar c).toList) ++
        '"' :: (a ++ ':' :: (b ++ (t ++ r)))) := by
    rw [toList_quote]
    simp only [List.append_assoc, List.cons_append, List.nil_append]
    exact skipSpace_append hp (by decide) _
  have hcolon := skipSpace_append ha (show isSpace ':' = false from rfl) (b ++ (t ++ r))
  rw [readField, hskip]
  simp only [readString_quote, hcolon, hvalue v t b r ht hb hr, Option.map_some]

/-- Fields in order are a map. -/
theorem ofFields_of_ordered {fields : List (String × Json)} (h : OrderedMap.Ordered fields) :
    ofFields fields = fields := OrderedMap.foldl_insert (l := []) h

/-- The value that a text spells is read from it, if the values nested in it are. -/
theorem Reads.readValue {d : ℕ} (ih : ∀ e, d = e + 1 → Reads (readValue fmt e) (Text fmt e)) :
    Reads (readValue fmt d) (Text fmt d) := by
  intro v t a r ht ha hr
  obtain ⟨c, r', rfl, hsp, -⟩ := ht.head
  rw [Json.readValue.eq_def, List.cons_append, skipSpace_append ha hsp]
  cases v with
  | null =>
    rw [Text] at ht
    obtain ⟨rfl, rfl⟩ := List.cons.inj (ht.trans (show _ = 'n' :: "ull".toList from rfl))
    simp only [if_true, readIdent_append]
  | bool b =>
    rw [Text] at ht
    cases b with
    | false =>
      obtain ⟨rfl, rfl⟩ := List.cons.inj (ht.trans (show _ = 'f' :: "alse".toList from rfl))
      simp only [Char.reduceEq, if_false, if_true, readIdent_append]
    | true =>
      obtain ⟨rfl, rfl⟩ := List.cons.inj (ht.trans (show _ = 't' :: "rue".toList from rfl))
      simp only [Char.reduceEq, if_false, if_true, readIdent_append]
  | num lit =>
    rw [Text] at ht
    obtain ⟨hlit, hnum, hfmt⟩ := ht
    have hc := (isNumber_cases hnum).1
    have hread := readNumber_append (hlit ▸ hnum) hfmt hr
    rw [← hlit, List.cons_append] at hread
    have hne : c ≠ 'n' ∧ c ≠ 't' ∧ c ≠ 'f' ∧ c ≠ '"' ∧ c ≠ '[' ∧ c ≠ '\x7b' := by
      obtain ⟨_, _, hcr, hc⟩ := hc
      obtain ⟨rfl, -⟩ := List.cons.inj hcr
      refine ⟨?_, ?_, ?_, ?_, ?_, ?_⟩ <;> rintro rfl <;> rcases hc with hc | hc <;> cases hc
    obtain ⟨h₁, h₂, h₃, h₄, h₅, h₆⟩ := hne
    simp only [h₁, h₂, h₃, h₄, h₅, h₆, if_false]
    exact hread
  | str s =>
    rw [Text, toList_quote] at ht
    obtain ⟨rfl, rfl⟩ := List.cons.inj ht
    simp [readString_quote]
  | arr items =>
    cases d with
    | zero => rw [Text] at ht; exact ht.elim
    | succ d =>
      rw [Text] at ht
      obtain ⟨inner, hin, hseq⟩ := ht
      obtain ⟨rfl, rfl⟩ := List.cons.inj hin
      have hopen : Opens ']' (Text fmt d) := fun _ _ h => h.head
      have := readSequence_text (ih d rfl) hopen (by decide) (by decide) (by decide) hseq r
      simp [this]
  | obj fields =>
    cases d with
    | zero => rw [Text] at ht; exact ht.elim
    | succ d =>
      rw [Text] at ht
      obtain ⟨inner, hin, hord, hseq⟩ := ht
      obtain ⟨rfl, rfl⟩ := List.cons.inj hin
      -- A field starts with the quote of its key.
      have hopen : Opens '\x7d' (FieldText (Text fmt d)) := by
        rintro ⟨k, v⟩ _ ⟨a, b, t, rfl, -⟩
        rw [toList_quote]
        exact ⟨_, _, rfl, by decide, by decide⟩
      have := readSequence_text (readField_text (ih d rfl)) hopen (by decide) (by decide)
        (by decide) hseq r
      simp [this, ofFields_of_ordered hord]

/-- The value that a text spells is read from it. -/
theorem reads_readValue (d : ℕ) : Reads (readValue fmt d) (Text fmt d) := by
  induction d with
  | zero => exact Reads.readValue fun e h => absurd h (Nat.succ_ne_zero e).symm
  | succ d ih => exact Reads.readValue fun e h => Nat.succ.inj h ▸ ih

/-- Whatever spells a value, among white space, is read as that value. -/
theorem parse_of_text {v : Json} {a t b : List Char} (h : Text fmt depthLimit v t)
    (ha : Spaces a) (hb : Spaces b) : parse fmt (.ofList (a ++ (t ++ b))) = some v := by
  have hd : Delimited b := List.append_nil b ▸ Delimited.append hb fun _ _ h => nomatch h
  have hskip : skipSpace b = [] := List.dropWhile_eq_nil_iff.2 hb
  rw [parse, String.toList_ofList, reads_readValue depthLimit v t a b h ha hd]
  simp only [hskip, if_pos]

/-! ## Printing -/

/-- What is printed for the items of an array spells them. -/
theorem itemsText_renderItems {W : Json → List Char → Prop} {items : List Json}
    (hne : items ≠ []) (h : ∀ v ∈ items, W v v.render.toList) :
    ItemsText W items (renderItems items).toList := by
  induction items with
  | nil => exact absurd rfl hne
  | cons v items ih =>
    have hv := h v List.mem_cons_self
    cases items with
    | nil => simpa [renderItems] using ItemsText.one (W := W) Spaces.nil hv Spaces.nil
    | cons w items =>
      have hrest := ih (List.cons_ne_nil _ _) fun u hu => h u (List.mem_cons_of_mem _ hu)
      simpa [renderItems] using ItemsText.cons (W := W) Spaces.nil hv Spaces.nil hrest

/-- What is printed for the fields of an object spells them. -/
theorem itemsText_renderFields {W : Json → List Char → Prop} {fields : List (String × Json)}
    (hne : fields ≠ []) (h : ∀ f ∈ fields, W f.2 f.2.render.toList) :
    ItemsText (FieldText W) fields (renderFields fields).toList := by
  induction fields with
  | nil => exact absurd rfl hne
  | cons f fields ih =>
    obtain ⟨k, v⟩ := f
    have hf : FieldText W (k, v) ((quote k).toList ++ ':' :: v.render.toList) :=
      ⟨[], [], _, rfl, Spaces.nil, Spaces.nil, h _ List.mem_cons_self⟩
    cases fields with
    | nil => simpa [renderFields] using ItemsText.one (W := FieldText W) Spaces.nil hf Spaces.nil
    | cons g fields =>
      have hrest := ih (List.cons_ne_nil _ _) fun u hu => h u (List.mem_cons_of_mem _ hu)
      simpa [renderFields] using
        ItemsText.cons (W := FieldText W) Spaces.nil hf Spaces.nil hrest

/-- The compact print of a value spells it. -/
theorem Valid.text_render {d : ℕ} {v : Json} (h : Valid fmt d v) :
    Text fmt d v v.render.toList := by
  induction d generalizing v with
  | zero => cases v <;> simp_all [Valid, Text, render]
  | succ d ih =>
    cases v with
    | arr items =>
      rw [Valid] at h
      rw [Text]
      refine ⟨(renderItems items).toList, by simp [render], ?_⟩
      cases items with
      | nil => exact .empty Spaces.nil
      | cons v items =>
        exact .items (itemsText_renderItems (List.cons_ne_nil _ _) fun u hu => ih (h u hu))
    | obj fields =>
      rw [Valid] at h
      rw [Text]
      refine ⟨(renderFields fields).toList, by simp [render], h.1, ?_⟩
      cases fields with
      | nil => exact .empty Spaces.nil
      | cons f fields =>
        exact .items (itemsText_renderFields (List.cons_ne_nil _ _) fun u hu => ih (h.2 u hu))
    | null | bool _ | num _ | str _ => simp_all [Valid, Text, render]

/-- An indentation is white space. -/
theorem spaces_indent (n : ℕ) : Spaces (indent n).toList := fun c hc => by
  rw [indent, String.toList_ofList] at hc
  rw [List.eq_of_mem_replicate hc]
  rfl

/-- What is printed for the items of an array, one a line, spells them. -/
theorem itemsText_renderPrettyItems {W : Json → List Char → Prop} (n : ℕ) {items : List Json}
    (hne : items ≠ []) (h : ∀ v ∈ items, W v (v.renderPretty n).toList) :
    ItemsText W items (renderPrettyItems n items).toList := by
  induction items with
  | nil => exact absurd rfl hne
  | cons v items ih =>
    have hv := h v List.mem_cons_self
    cases items with
    | nil =>
      simpa [renderPrettyItems] using ItemsText.one (W := W) (spaces_indent n) hv Spaces.nil
    | cons w items =>
      have hrest := ih (List.cons_ne_nil _ _) fun u hu => h u (List.mem_cons_of_mem _ hu)
      -- The line break after the comma belongs to the next item.
      have hnext := hrest.prepend (Spaces.cons (c := '\n') rfl Spaces.nil)
      simpa [renderPrettyItems] using
        ItemsText.cons (W := W) (spaces_indent n) hv Spaces.nil hnext

/-- What is printed for the fields of an object, one a line, spells them. -/
theorem itemsText_renderPrettyFields {W : Json → List Char → Prop} (n : ℕ)
    {fields : List (String × Json)} (hne : fields ≠ [])
    (h : ∀ f ∈ fields, W f.2 (f.2.renderPretty n).toList) :
    ItemsText (FieldText W) fields (renderPrettyFields n fields).toList := by
  induction fields with
  | nil => exact absurd rfl hne
  | cons f fields ih =>
    obtain ⟨k, v⟩ := f
    have hf : FieldText W (k, v) ((quote k).toList ++ ':' :: ' ' :: (v.renderPretty n).toList) :=
      ⟨[], [' '], _, rfl, Spaces.nil, Spaces.cons rfl Spaces.nil, h _ List.mem_cons_self⟩
    cases fields with
    | nil =>
      simpa [renderPrettyFields] using
        ItemsText.one (W := FieldText W) (spaces_indent n) hf Spaces.nil
    | cons g fields =>
      have hrest := ih (List.cons_ne_nil _ _) fun u hu => h u (List.mem_cons_of_mem _ hu)
      have hnext := hrest.prepend (Spaces.cons (c := '\n') rfl Spaces.nil)
      simpa [renderPrettyFields] using
        ItemsText.cons (W := FieldText W) (spaces_indent n) hf Spaces.nil hnext

/-- The print of a value with line breaks spells it, at any indentation. -/
theorem Valid.text_renderPretty {d : ℕ} {v : Json} (h : Valid fmt d v) (n : ℕ) :
    Text fmt d v (v.renderPretty n).toList := by
  have hbreak : Spaces ['\n'] := Spaces.cons rfl Spaces.nil
  have hlast : Spaces ('\n' :: (indent n).toList) := Spaces.cons rfl (spaces_indent n)
  induction d generalizing v n with
  | zero => cases v <;> simp_all [Valid, Text, renderPretty]
  | succ d ih =>
    have ih' : ∀ {u : Json}, Valid fmt d u → Text fmt d u (u.renderPretty (n + 1)).toList :=
      fun hu => ih hu _ (Spaces.cons rfl (spaces_indent _))
    cases v with
    | arr items =>
      rw [Valid] at h
      rw [Text]
      cases items with
      | nil => exact ⟨[], by simp [renderPretty], .empty Spaces.nil⟩
      | cons v items =>
        have hitems := itemsText_renderPrettyItems (W := Text fmt d) (n + 1)
          (List.cons_ne_nil v items) fun u hu => ih' (h u hu)
        exact ⟨_, by simp [renderPretty], .items ((hitems.prepend hbreak).append hlast)⟩
    | obj fields =>
      rw [Valid] at h
      rw [Text]
      cases fields with
      | nil => exact ⟨[], by simp [renderPretty], h.1, .empty Spaces.nil⟩
      | cons f fields =>
        have hfields := itemsText_renderPrettyFields (W := Text fmt d) (n + 1)
          (List.cons_ne_nil f fields) fun u hu => ih' (h.2 u hu)
        exact ⟨_, by simp [renderPretty], h.1, .items ((hfields.prepend hbreak).append hlast)⟩
    | null | bool _ | num _ | str _ => simp_all [Valid, Text, renderPretty]

/-- A value is read back from its compact print. -/
theorem parse_render {v : Json} (h : Valid fmt depthLimit v) :
    parse fmt v.render = some v := by
  have := parse_of_text h.text_render Spaces.nil Spaces.nil
  simpa using this

/-- A value is read back from its print with line breaks. -/
theorem parse_toStringPretty {v : Json} (h : Valid fmt depthLimit v) :
    parse fmt v.toStringPretty = some v := by
  have := parse_of_text (h.text_renderPretty 0) Spaces.nil Spaces.nil
  simpa [toStringPretty] using this

/-- Two values with one compact print are the same. -/
theorem render_injective {v w : Json} (hv : Valid fmt depthLimit v)
    (hw : Valid fmt depthLimit w) (h : v.render = w.render) : v = w :=
  Option.some.inj ((parse_render hv).symm.trans (h ▸ parse_render hw))

end Outlay.Json

import Outlay.Str

/-!
# The environment

Both binaries read their configuration from environment variables, each of which
counts as unset if it is blank. A variable is read as one of several values
(`oneOf`), or as a list of entries separated by commas (`entries`).

A list is read back from every text that writes it, whatever the whitespace around
its entries and wherever its blank entries (`entries_of_writes`).
-/

namespace Outlay

/-- The variables that are set, and their values. -/
abbrev Env : Type := String → Option String

namespace Env

/-- The value of a variable, unless it is blank. -/
def optString (env : Env) (name : String) : Option String :=
  ((env name).map Str.trim).filter fun s => !s.isEmpty

/-- One of several values, or a default. -/
def oneOf {α ε : Type} (value : Option String) (default : α) (values : List (String × α))
    (err : String → ε) : Except ε α :=
  match value with
  | none => .ok default
  | some s =>
    match values.lookup s with
    | some a => .ok a
    | none => .error (err s)

/-- The values of a boolean variable. -/
def booleans : List (String × Option Bool) :=
  [("true", some true), ("1", some true), ("false", some false), ("0", some false)]

/-- The entries of a text: what is between the commas, trimmed, unless it is blank. -/
def commaEntries (raw : String) : List String :=
  ((Str.split raw ',').map Str.trim).filter fun s => !s.isEmpty

/-- The entries of a variable. -/
def entries (env : Env) (name : String) : List String :=
  match optString env name with
  | some raw => commaEntries raw
  | none => []

/-- The entries of a variable, or a default if there are none. -/
def entriesOr (env : Env) (name : String) (default : List String) : List String :=
  match optString env name with
  | some raw =>
    let urls := commaEntries raw
    if urls.isEmpty then default else urls
  | none => default

/-! ## Values -/

/-- The value is one of those allowed, if there is one. -/
def Allowed {α : Type} (value : Option String) (values : List (String × α)) : Prop :=
  ∀ s, value = some s → s ∈ values.map Prod.fst

theorem allowed_of_eq_none {α : Type} {value : Option String} {values : List (String × α)}
    (h : value = none) : Allowed value values := by
  intro s hs
  rw [h] at hs
  cases hs

/-- Allowed values are read. -/
theorem exists_oneOf_eq_ok {α ε : Type} {value : Option String} {values : List (String × α)}
    (h : Allowed value values) (default : α) (err : String → ε) :
    ∃ a, oneOf value default values err = .ok a := by
  cases value with
  | none => exact ⟨default, rfl⟩
  | some s =>
    cases hs : values.lookup s with
    | some a => exact ⟨a, by simp only [oneOf, hs]⟩
    | none =>
      obtain ⟨e, he, hes⟩ := List.mem_map.1 (h s rfl)
      exact absurd hes.symm (by simpa using List.lookup_eq_none_iff.1 hs e he)

/-! ## Lists -/

/-- What an entry is: not empty, trimmed, and without commas. -/
structure IsEntry (s : String) : Prop where
  ne_empty : s ≠ ""
  trimmed : Str.trim s = s
  comma_not_mem : ',' ∉ s.toList

/-- The text writes the entries between commas, with whitespace around them and
    blank entries anywhere. -/
def Writes (raw : String) (l : List String) : Prop :=
  ∃ fields, Separated.Writes Str.isWhitespace fields (l.map String.toList) ∧
    raw.toList = [','].intercalate fields

variable {env : Env} {name raw s : String} {l : List String}

theorem isEntry_iff : IsEntry s ↔ Separated.IsItem Str.isWhitespace ',' s.toList := by
  constructor
  · intro h
    exact ⟨mt String.toList_eq_nil_iff.1 h.ne_empty, by rw [← Str.toList_trim, h.trimmed],
      h.comma_not_mem⟩
  · intro h
    exact ⟨mt String.toList_eq_nil_iff.2 h.ne_nil,
      by rw [Str.trim, h.trimmed, String.ofList_toList], h.sep_not_mem⟩

/-- The entries of a text, as its items. -/
theorem commaEntries_eq (raw : String) :
    commaEntries raw = (Separated.items Str.isWhitespace ',' raw.toList).map String.ofList := by
  have hempty : (fun l : List Char => !(String.ofList l).isEmpty) = fun l => !l.isEmpty := by
    refine funext fun l => congrArg (!·) (Bool.eq_iff_iff.2 ?_)
    rw [String.isEmpty_iff, List.isEmpty_iff, ← String.toList_eq_nil_iff, String.toList_ofList]
  have hmap : (Str.split raw ',').map Str.trim =
      ((raw.toList.splitOn ',').map (Separated.trim Str.isWhitespace)).map String.ofList := by
    rw [Str.split, List.map_map, List.map_map]
    exact List.map_congr_left fun l _ => by
      rw [Function.comp_apply, Str.trim, String.toList_ofList, Function.comp_apply]
  rw [commaEntries, hmap, List.filter_map, Function.comp_def, hempty, Separated.items]

/-- Trimming a text does not change its entries. -/
theorem commaEntries_trim (raw : String) : commaEntries (Str.trim raw) = commaEntries raw := by
  rw [commaEntries_eq, commaEntries_eq, Str.toList_trim, Separated.items_trim (by decide)]

/-- Every entry read is one. -/
theorem isEntry_of_mem_commaEntries (h : s ∈ commaEntries raw) : IsEntry s := by
  rw [commaEntries_eq] at h
  obtain ⟨x, hx, rfl⟩ := List.mem_map.1 h
  rw [isEntry_iff, String.toList_ofList]
  exact Separated.isItem_of_mem_items hx

/-- Entries are read back from every text that writes them. -/
theorem commaEntries_of_writes (h : Writes raw l) (hl : ∀ s ∈ l, IsEntry s) :
    commaEntries raw = l := by
  obtain ⟨fields, hw, hraw⟩ := h
  have hitems : ∀ x ∈ l.map String.toList, Separated.IsItem Str.isWhitespace ',' x :=
    List.forall_mem_map.2 fun s hs => isEntry_iff.1 (hl s hs)
  rw [commaEntries_eq, hraw, hw.items_eq (by decide) hitems, List.map_map]
  exact (List.map_congr_left fun s _ => String.ofList_toList).trans (List.map_id l)

/-- The entries of a variable that is set. -/
theorem entries_of_some (h : env name = some raw) : entries env name = commaEntries raw := by
  rw [← commaEntries_trim raw, entries, optString, h, Option.map_some, Option.filter_some]
  by_cases hempty : (Str.trim raw).isEmpty
  · rw [if_neg (by simpa using hempty), String.isEmpty_iff.1 hempty]
    decide
  · rw [if_pos (by simpa using hempty)]

/-- The default is read if there are no entries. -/
theorem entriesOr_eq (env : Env) (name : String) (default : List String) :
    entriesOr env name default =
      if (entries env name).isEmpty then default else entries env name := by
  rw [entriesOr, entries]
  split
  · rfl
  · rfl

/-- Every entry of a variable is one. -/
theorem isEntry_of_mem_entries (h : s ∈ entries env name) : IsEntry s := by
  rw [entries] at h
  split at h
  · exact isEntry_of_mem_commaEntries h
  · exact nomatch h

/-- A list is read back from a variable that writes it. -/
theorem entries_of_writes (h : env name = some raw) (hw : Writes raw l)
    (hl : ∀ s ∈ l, IsEntry s) : entries env name = l := by
  rw [entries_of_some h, commaEntries_of_writes hw hl]

theorem entriesOr_of_writes (h : env name = some raw) (hw : Writes raw l)
    (hl : ∀ s ∈ l, IsEntry s) (hne : l ≠ []) (default : List String) :
    entriesOr env name default = l := by
  rw [entriesOr_eq, entries_of_writes h hw hl, if_neg (mt List.isEmpty_iff.1 hne)]

/-- With a default that has entries, there are entries. -/
theorem entriesOr_ne_nil {default : List String} (h : default ≠ []) :
    entriesOr env name default ≠ [] := by
  rw [entriesOr_eq]
  split
  · exact h
  next hne => exact mt List.isEmpty_iff.2 hne

theorem isEntry_of_mem_entriesOr {default : List String} (hd : ∀ s ∈ default, IsEntry s)
    (h : s ∈ entriesOr env name default) : IsEntry s := by
  rw [entriesOr_eq] at h
  split at h
  · exact hd s h
  · exact isEntry_of_mem_entries h

end Env

end Outlay

import Mathlib

/-!
# Least-recently-used maps

A map of bounded capacity that keeps its entries in the order of their last
access, the most recent first. Reading or writing an entry moves it to the front;
where there is no room left, the last one is dropped. That no key has two
entries, and that there are no more than the capacity, is part of the type.

The map is *exact*: after the accesses `f 0, …, f (n - 1)` its keys are the most
recent distinct ones among them (`Recent`, `Recent.put`). So a key stays in the
map as long as fewer distinct other keys than the capacity have been accessed
since (`Recent.mem_keys`).
-/

namespace Async

/-- A least-recently-used map: its entries, the most recently accessed first. -/
structure Lru (κ V : Type*) (cap : ℕ) where
  entries : List (κ × V)
  nodup : (entries.map Prod.fst).Nodup
  length_le : entries.length ≤ cap

namespace Lru

variable {κ V : Type*} [DecidableEq κ] {cap : ℕ}

/-- The empty map. -/
def empty : Lru κ V cap := ⟨[], List.nodup_nil, Nat.zero_le cap⟩

/-- The keys, the most recently accessed first. -/
def keys (m : Lru κ V cap) : List κ := m.entries.map Prod.fst

/-- The entries but the one of `k`, and with that one in front, as far as there is room. -/
def pushed (entries : List (κ × V)) (cap : ℕ) (k : κ) (v : V) : List (κ × V) :=
  ((k, v) :: entries.filter fun e => e.1 ≠ k).take cap

theorem keys_pushed (entries : List (κ × V)) (k : κ) (v : V) :
    (pushed entries cap k v).map Prod.fst =
      (k :: (entries.map Prod.fst).filter fun a => a ≠ k).take cap := by
  rw [pushed, List.map_take, List.map_cons, List.filter_map]
  rfl

/-- Writing the entry of `k`, which becomes the most recent one. -/
def put (m : Lru κ V cap) (k : κ) (v : V) : Lru κ V cap where
  entries := pushed m.entries cap k v
  nodup := by
    rw [keys_pushed]
    refine (List.nodup_cons.2 ⟨fun h => ?_, m.nodup.filter _⟩).sublist (List.take_sublist _ _)
    simp at h
  length_le := by rw [pushed, List.length_take]; exact min_le_left _ _

@[simp] theorem entries_put (m : Lru κ V cap) (k : κ) (v : V) :
    (m.put k v).entries = pushed m.entries cap k v := rfl

/-- The value of a key, which is not an access. -/
def peek (m : Lru κ V cap) (k : κ) : Option V :=
  (m.entries.find? fun e => decide (e.1 = k)).map Prod.snd

/-- Reading the entry of `k`, which becomes the most recent one. -/
def get (m : Lru κ V cap) (k : κ) : Option (V × Lru κ V cap) :=
  (m.peek k).map fun v => (v, m.put k v)

/-- The value of a key is that of its one entry. -/
theorem peek_eq_some {m : Lru κ V cap} {k : κ} {v : V} :
    m.peek k = some v ↔ (k, v) ∈ m.entries := by
  constructor
  · intro h
    obtain ⟨⟨a, w⟩, hf, rfl⟩ := Option.map_eq_some_iff.1 h
    obtain rfl : a = k := by simpa using List.find?_some hf
    exact List.mem_of_find?_eq_some hf
  · intro h
    have hnd := m.nodup
    rw [peek]
    generalize m.entries = l at h hnd ⊢
    -- The first entry found is the only one with this key.
    induction l with
    | nil => cases h
    | cons e l ih =>
      rw [List.map_cons, List.nodup_cons] at hnd
      rcases List.mem_cons.1 h with rfl | h
      · simp
      · have hne : e.1 ≠ k := fun he => hnd.1 (he ▸ List.mem_map_of_mem h)
        rw [List.find?_cons_of_neg (by simpa using hne)]
        exact ih h hnd.2

/-- The keys are those that have a value. -/
theorem mem_keys {m : Lru κ V cap} {k : κ} : k ∈ m.keys ↔ ∃ v, m.peek k = some v := by
  simp [keys, peek_eq_some]

/-- What was written is there. -/
theorem peek_put_self (hcap : 1 ≤ cap) (m : Lru κ V cap) (k : κ) (v : V) :
    (m.put k v).peek k = some v := by
  obtain ⟨c, rfl⟩ := Nat.exists_eq_add_of_le' hcap
  rw [peek_eq_some, entries_put, pushed, List.take_succ_cons]
  exact List.mem_cons_self

/-- What is there was written, or was there. -/
theorem peek_put_cases {m : Lru κ V cap} {k k' : κ} {v w : V}
    (h : (m.put k v).peek k' = some w) :
    (k' = k ∧ w = v) ∨ (k' ≠ k ∧ m.peek k' = some w) := by
  rw [peek_eq_some, entries_put, pushed] at h
  rcases List.mem_cons.1 (List.mem_of_mem_take h) with h | h
  · exact .inl (Prod.mk.inj h)
  · obtain ⟨h, hk⟩ := List.mem_filter.1 h
    exact .inr ⟨of_decide_eq_true hk, peek_eq_some.2 h⟩

/-- The keys after writing an entry do not depend on its value. -/
theorem keys_put (m : Lru κ V cap) (k : κ) (v : V) :
    (m.put k v).keys = (k :: m.keys.filter fun a => a ≠ k).take cap := keys_pushed _ _ _

/-- What was there, and is still a key, is there, unless it was overwritten. -/
theorem peek_put_of_mem {m : Lru κ V cap} {k k' : κ} {v w : V} (hw : m.peek k' = some w)
    (hk : k' ∈ (m.put k v).keys) (hv : k' = k → w = v) : (m.put k v).peek k' = some w := by
  obtain ⟨u, hu⟩ := mem_keys.1 hk
  rcases peek_put_cases hu with ⟨he, rfl⟩ | ⟨-, hu'⟩
  · rw [hu, hv he]
  · rw [hu, ← hu', hw]

/-- Reading gives the value, and leaves every entry as it is. -/
theorem get_eq_some {m m' : Lru κ V cap} {k : κ} {v : V} (h : m.get k = some (v, m')) :
    m.peek k = some v ∧ m' = m.put k v := by
  obtain ⟨_, hv, he⟩ := Option.map_eq_some_iff.1 h
  obtain ⟨rfl, rfl⟩ := Prod.mk.inj he
  exact ⟨hv, rfl⟩

theorem get_eq_none {m : Lru κ V cap} {k : κ} : m.get k = none ↔ m.peek k = none :=
  Option.map_eq_none_iff

/-- No more values than the capacity are there. -/
theorem card_le [DecidableEq V] {m : Lru κ V cap} {F : Finset V}
    (hF : ∀ v ∈ F, ∃ k, m.peek k = some v) : F.card ≤ cap := by
  have hsub : F ⊆ (m.entries.map Prod.snd).toFinset := fun v hv => by
    obtain ⟨k, hk⟩ := hF v hv
    exact List.mem_toFinset.2 (List.mem_map_of_mem (peek_eq_some.1 hk))
  calc F.card ≤ (m.entries.map Prod.snd).toFinset.card := Finset.card_le_card hsub
    _ ≤ (m.entries.map Prod.snd).length := List.toFinset_card_le _
    _ ≤ cap := by rw [List.length_map]; exact m.length_le

/-! ## Recency -/

/-- The distinct keys among `f 0, …, f (n - 1)`, the most recent first. -/
def recent (f : ℕ → κ) : ℕ → List κ
  | 0 => []
  | n + 1 => f n :: (recent f n).filter fun a => a ≠ f n

/-- The recent keys depend on the accesses so far only. -/
theorem recent_congr {f g : ℕ → κ} {n : ℕ} (h : ∀ i < n, f i = g i) : recent f n = recent g n := by
  induction n with
  | zero => rfl
  | succ n ih => rw [recent, recent, ih fun i hi => h i (by omega), h n (by omega)]

theorem mem_recent {f : ℕ → κ} {n i : ℕ} (hi : i < n) : f i ∈ recent f n := by
  induction n with
  | zero => cases hi
  | succ n ih =>
    rw [recent, List.mem_cons]
    by_cases hf : f i = f n
    · exact .inl hf
    · refine .inr (List.mem_filter.2 ⟨ih ?_, by simpa using hf⟩)
      rcases Nat.lt_succ_iff_lt_or_eq.1 hi with h | rfl
      · exact h
      · exact absurd rfl hf

/-- Only what has been accessed is recent. -/
theorem exists_of_mem_recent {f : ℕ → κ} {n : ℕ} {k : κ} (h : k ∈ recent f n) :
    ∃ i < n, f i = k := by
  induction n with
  | zero => cases h
  | succ n ih =>
    rw [recent, List.mem_cons, List.mem_filter] at h
    rcases h with rfl | ⟨h, -⟩
    · exact ⟨n, Nat.lt_succ_self n, rfl⟩
    · obtain ⟨i, hi, hk⟩ := ih h
      exact ⟨i, Nat.lt_succ_of_lt hi, hk⟩

theorem nodup_recent (f : ℕ → κ) (n : ℕ) : (recent f n).Nodup := by
  induction n with
  | zero => exact List.nodup_nil
  | succ n ih =>
    refine List.nodup_cons.2 ⟨fun h => ?_, ih.filter _⟩
    simp at h

omit [DecidableEq κ] in
/-- Dropping an element that stays, before or after the elements up to another one are taken. -/
theorem takeWhile_filter {p q : κ → Bool} (hpq : ∀ a, p a = false → q a = true) (l : List κ) :
    (l.filter q).takeWhile p = (l.takeWhile p).filter q := by
  induction l with
  | nil => rfl
  | cons a l ih =>
    cases hp : p a <;> cases hq : q a
    · exact absurd (hpq a hp) (by simp [hq])
    all_goals simp [hp, hq, ih]

/-- What is more recent than an access has been accessed since. -/
theorem mem_takeWhile_recent {f : ℕ → κ} {n i : ℕ} (hi : i < n) {k : κ}
    (h : k ∈ (recent f n).takeWhile fun a => decide (a ≠ f i)) :
    k ∈ ((Finset.Ioo i n).image f).erase (f i) := by
  induction n with
  | zero => cases hi
  | succ n ih =>
    rw [recent] at h
    by_cases hf : f n = f i
    · simp [hf] at h
    · rw [List.takeWhile_cons_of_pos (by simpa using hf)] at h
      have hin : i < n := (Nat.lt_succ_iff_lt_or_eq.1 hi).resolve_right fun he => hf (he ▸ rfl)
      rcases List.mem_cons.1 h with rfl | h
      · exact Finset.mem_erase.2 ⟨hf, Finset.mem_image_of_mem f (by simp [hin])⟩
      · rw [takeWhile_filter fun a ha => by
          simp only [ne_eq, decide_not, Bool.not_eq_false', decide_eq_true_eq] at ha
          simpa [ha] using Ne.symm hf] at h
        exact Finset.erase_subset_erase _
          (Finset.image_subset_image (Finset.Ioo_subset_Ioo_right n.le_succ))
          (ih hin (List.mem_filter.1 h).1)

/-- An element with fewer than `c` elements before it is among the first `c`. -/
theorem mem_take_of_takeWhile {l : List κ} {k : κ} {c : ℕ} (hk : k ∈ l)
    (h : (l.takeWhile fun a => decide (a ≠ k)).length < c) : k ∈ l.take c := by
  induction l generalizing c with
  | nil => cases hk
  | cons a l ih =>
    obtain ⟨c, rfl⟩ : ∃ c', c = c' + 1 := Nat.exists_eq_add_of_le' (by omega)
    rw [List.take_succ_cons]
    by_cases ha : a = k
    · exact ha ▸ List.mem_cons_self
    · rw [List.takeWhile_cons_of_pos (by simpa using ha), List.length_cons] at h
      refine List.mem_cons_of_mem _ (ih ?_ (by omega))
      exact (List.mem_cons.1 hk).resolve_left (Ne.symm ha)

/-- Taking elements and dropping one of them leaves enough of them. -/
theorem take_filter_take {l : List κ} (hl : l.Nodup) (k : κ) (c : ℕ) :
    ((l.take (c + 1)).filter fun a => a ≠ k).take c = (l.filter fun a => a ≠ k).take c := by
  induction l generalizing c with
  | nil => simp
  | cons a l ih =>
    obtain ⟨hal, hl⟩ := List.nodup_cons.1 hl
    rw [List.take_succ_cons]
    by_cases ha : a = k
    · -- No other element is dropped.
      subst ha
      have hkeep : ∀ m : List κ, m ⊆ l → m.filter (fun b => b ≠ a) = m := fun m hm =>
        List.filter_eq_self.2 fun b hb => by
          simpa using fun hba : b = a => hal (hba ▸ hm hb)
      rw [List.filter_cons_of_neg (by simp), List.filter_cons_of_neg (by simp),
        hkeep _ (List.take_subset _ _), hkeep _ (List.Subset.refl _), List.take_take, min_self]
    · rw [List.filter_cons_of_pos (by simpa using ha), List.filter_cons_of_pos (by simpa using ha)]
      cases c with
      | zero => rfl
      | succ c => rw [List.take_succ_cons, List.take_succ_cons, ih hl]

/-- The map holds the most recent keys of the accesses `f 0, …, f (n - 1)`. -/
def Recent (m : Lru κ V cap) (f : ℕ → κ) (n : ℕ) : Prop := m.keys = (recent f n).take cap

/-- Every access leaves the most recent keys in the map. -/
theorem Recent.put {m : Lru κ V cap} {f : ℕ → κ} {n : ℕ} (h : m.Recent f n) (v : V) :
    (m.put (f n) v).Recent f (n + 1) := by
  rw [Recent, keys_put, h, recent]
  cases cap with
  | zero => rfl
  | succ c =>
    rw [List.take_succ_cons, List.take_succ_cons, take_filter_take (nodup_recent f n)]

/-- A key is in the map as long as fewer distinct other keys than the capacity
    have been accessed since. -/
theorem Recent.mem_keys {m : Lru κ V cap} {f : ℕ → κ} {n i : ℕ} (h : m.Recent f n) (hi : i < n)
    (hc : (((Finset.Ioo i n).image f).erase (f i)).card < cap) : f i ∈ m.keys := by
  rw [h]
  refine mem_take_of_takeWhile (mem_recent hi) (lt_of_le_of_lt ?_ hc)
  have hnd := (nodup_recent f n).sublist (List.takeWhile_sublist fun a => decide (a ≠ f i))
  rw [← List.toFinset_card_of_nodup hnd]
  exact Finset.card_le_card fun k hk => mem_takeWhile_recent hi (List.mem_toFinset.1 hk)

end Lru

end Async

/-!
Maps from names to values, kept as entries in strictly increasing order of their keys.

Strings are ordered by code point, which is the order of their UTF-8 bytes, so listing the entries
of a map gives the order in which answers show them.  The order is part of the type: two maps with
the same look-ups are equal (`SortedMap.ext`), and each operation is described by what it does to
look-ups (`get?_insert`, `get?_erase`, `get?_mapValues`).
-/

namespace FeatureFlags

variable {α β : Type}

/-! ### Entries -/

/-- Puts `value` at the place of `key`, in front of the first larger key, replacing an entry of
the same key. -/
def insertEntry (key : String) (value : α) : List (String × α) → List (String × α)
  | [] => [(key, value)]
  | (k, v) :: rest =>
    if key < k then (key, value) :: (k, v) :: rest
    else if k < key then (k, v) :: insertEntry key value rest
    else (key, value) :: rest

/-- The keys of the entries strictly increase. -/
def Ascending (entries : List (String × α)) : Prop :=
  entries.Pairwise fun a b => a.1 < b.1

instance (entries : List (String × α)) : Decidable (Ascending entries) :=
  inferInstanceAs (Decidable (entries.Pairwise fun a b => a.1 < b.1))

theorem eq_of_not_lt {a b : String} (h₁ : ¬ a < b) (h₂ : ¬ b < a) : a = b :=
  String.le_antisymm (String.not_lt.1 h₂) (String.not_lt.1 h₁)

theorem fst_of_mem_insertEntry {key : String} {value : α} {entries : List (String × α)}
    {e : String × α} (h : e ∈ insertEntry key value entries) : e.1 = key ∨ e ∈ entries := by
  induction entries with
  | nil => exact .inl (by simp_all [insertEntry])
  | cons head rest ih =>
    obtain ⟨k, v⟩ := head
    rw [insertEntry] at h
    split at h
    · rcases List.mem_cons.1 h with rfl | h
      · exact .inl rfl
      · exact .inr h
    · split at h
      · rcases List.mem_cons.1 h with rfl | h
        · exact .inr (List.mem_cons_self ..)
        · exact (ih h).imp id (List.mem_cons_of_mem _)
      · rcases List.mem_cons.1 h with rfl | h
        · exact .inl rfl
        · exact .inr (List.mem_cons_of_mem _ h)

theorem ascending_insertEntry (key : String) (value : α) {entries : List (String × α)}
    (h : Ascending entries) : Ascending (insertEntry key value entries) := by
  induction entries with
  | nil => simp [insertEntry, Ascending]
  | cons head rest ih =>
    obtain ⟨k, v⟩ := head
    obtain ⟨hk, hrest⟩ := List.pairwise_cons.1 h
    rw [insertEntry]
    split
    case isTrue hlt =>
      refine List.pairwise_cons.2 ⟨fun e he => ?_, h⟩
      rcases List.mem_cons.1 he with rfl | he
      · exact hlt
      · exact String.lt_trans hlt (hk e he)
    case isFalse hnlt =>
      split
      case isTrue hgt =>
        refine List.pairwise_cons.2 ⟨fun e he => ?_, ih hrest⟩
        rcases fst_of_mem_insertEntry he with heq | he
        · exact heq ▸ hgt
        · exact hk e he
      case isFalse hngt =>
        obtain rfl := eq_of_not_lt hnlt hngt
        exact List.pairwise_cons.2 ⟨hk, hrest⟩

theorem lookup_cons {κ : Type} [DecidableEq κ] (k k' : κ) (v : α) (rest : List (κ × α)) :
    ((k', v) :: rest).lookup k = if k = k' then some v else rest.lookup k := by
  by_cases h : k = k'
  · simp [h]
  · have : (k == k') = false := by simpa using h
    simp [List.lookup_cons, h, this]

theorem lookup_insertEntry (key k : String) (value : α) (entries : List (String × α)) :
    (insertEntry key value entries).lookup k
      = if k = key then some value else entries.lookup k := by
  induction entries with
  | nil => simp [insertEntry, lookup_cons]
  | cons head rest ih =>
    obtain ⟨k', v⟩ := head
    rw [insertEntry]
    split
    · simp [lookup_cons]
    · split
      case isTrue hgt =>
        have : key ≠ k' := Ne.symm (String.ne_of_lt hgt)
        rw [lookup_cons, lookup_cons, ih]
        split <;> split <;> simp_all
      case isFalse hnlt hngt =>
        obtain rfl := eq_of_not_lt hnlt hngt
        simp only [lookup_cons]
        split <;> rfl

/-- Sorted entries hold their keys at most once, so an entry is what its key looks up. -/
theorem lookup_eq_some_iff {entries : List (String × α)} (h : Ascending entries) {k : String}
    {v : α} : entries.lookup k = some v ↔ (k, v) ∈ entries := by
  induction entries with
  | nil => simp
  | cons head rest ih =>
    obtain ⟨k', v'⟩ := head
    obtain ⟨hk, hrest⟩ := List.pairwise_cons.1 h
    rw [lookup_cons]
    split
    case isTrue hkk =>
      subst hkk
      have hnot : (k, v) ∉ rest := fun hm => String.lt_irrefl k (hk (k, v) hm)
      simp only [Option.some.injEq, List.mem_cons, Prod.mk.injEq, true_and, hnot, or_false]
      exact eq_comm
    case isFalse hkk => simp [hkk, ih hrest]

/-- Sorted entries are determined by their look-ups. -/
theorem eq_of_lookup_eq {xs ys : List (String × α)} (hx : Ascending xs) (hy : Ascending ys)
    (h : ∀ k, xs.lookup k = ys.lookup k) : xs = ys := by
  have mem : ∀ e : String × α, e ∈ xs ↔ e ∈ ys := fun e => by
    rw [← lookup_eq_some_iff hx, ← lookup_eq_some_iff hy, h]
  clear h
  induction xs generalizing ys with
  | nil =>
    cases ys with
    | nil => rfl
    | cons y ys => exact absurd ((mem y).2 (List.mem_cons_self ..)) (by simp)
  | cons x xs ih =>
    cases ys with
    | nil => exact absurd ((mem x).1 (List.mem_cons_self ..)) (by simp)
    | cons y ys =>
      obtain ⟨hx₀, hxs⟩ := List.pairwise_cons.1 hx
      obtain ⟨hy₀, hys⟩ := List.pairwise_cons.1 hy
      have hxy : x = y := by
        rcases List.mem_cons.1 ((mem x).1 (List.mem_cons_self ..)) with h | h
        · exact h
        · rcases List.mem_cons.1 ((mem y).2 (List.mem_cons_self ..)) with h' | h'
          · exact h'.symm
          · exact absurd (String.lt_trans (hx₀ y h') (hy₀ x h)) (String.lt_irrefl _)
      subst hxy
      congr 1
      refine ih hxs hys fun e => ⟨fun he => ?_, fun he => ?_⟩
      · rcases List.mem_cons.1 ((mem e).1 (List.mem_cons_of_mem _ he)) with rfl | h
        · exact absurd (hx₀ e he) (String.lt_irrefl _)
        · exact h
      · rcases List.mem_cons.1 ((mem e).2 (List.mem_cons_of_mem _ he)) with rfl | h
        · exact absurd (hy₀ e he) (String.lt_irrefl _)
        · exact h

/-! ### Maps -/

/-- Entries in strictly increasing order of their keys. -/
structure SortedMap (α : Type) where
  entries : List (String × α)
  ascending : Ascending entries
deriving DecidableEq

namespace SortedMap

/-- The map without entries. -/
def empty : SortedMap α := ⟨[], List.Pairwise.nil⟩

instance : Inhabited (SortedMap α) := ⟨empty⟩

/-- The value of a key, if the map has the key. -/
def get? (m : SortedMap α) (key : String) : Option α := m.entries.lookup key

/-- The map has the key. -/
def contains (m : SortedMap α) (key : String) : Bool := (m.get? key).isSome

/-- Sets the value of a key, whether the map had it or not. -/
def insert (m : SortedMap α) (key : String) (value : α) : SortedMap α :=
  ⟨insertEntry key value m.entries, ascending_insertEntry key value m.ascending⟩

/-- Drops a key, if the map has it. -/
def erase (m : SortedMap α) (key : String) : SortedMap α :=
  ⟨m.entries.filter (·.1 ≠ key), m.ascending.filter _⟩

/-- Replaces each value, given its key. -/
def mapValues (f : String → α → β) (m : SortedMap α) : SortedMap β :=
  ⟨m.entries.map fun e => (e.1, f e.1 e.2), by
    rw [Ascending, List.pairwise_map]; exact m.ascending⟩

/-- Inserts the pairs from left to right, so that of several pairs of one key the last counts. -/
def ofList (pairs : List (String × α)) : SortedMap α :=
  pairs.foldl (fun m e => m.insert e.1 e.2) empty

/-- The keys, in increasing order. -/
def keys (m : SortedMap α) : List String := m.entries.map (·.1)

/-- The values, in the order of their keys. -/
def values (m : SortedMap α) : List α := m.entries.map (·.2)

/-- The number of keys. -/
def size (m : SortedMap α) : Nat := m.entries.length

/-- Maps are determined by their look-ups. -/
theorem ext {m n : SortedMap α} (h : ∀ k, m.get? k = n.get? k) : m = n := by
  obtain ⟨xs, hx⟩ := m
  obtain ⟨ys, hy⟩ := n
  obtain rfl : xs = ys := eq_of_lookup_eq hx hy h
  rfl

@[simp] theorem get?_insert (m : SortedMap α) (key k : String) (value : α) :
    (m.insert key value).get? k = if k = key then some value else m.get? k :=
  lookup_insertEntry key k value m.entries

@[simp] theorem get?_erase (m : SortedMap α) (key k : String) :
    (m.erase key).get? k = if k = key then none else m.get? k := by
  obtain ⟨entries, h⟩ := m
  simp only [erase, get?]
  clear h
  induction entries with
  | nil => simp
  | cons head rest ih =>
    obtain ⟨k', v⟩ := head
    by_cases hk : k' = key
    · subst hk
      rw [List.filter_cons_of_neg (by simp), ih, lookup_cons]
      split <;> rfl
    · rw [List.filter_cons_of_pos (by simpa using hk), lookup_cons, lookup_cons, ih]
      split
      case isTrue h => simp [h, hk]
      case isFalse => rfl

@[simp] theorem get?_mapValues (f : String → α → β) (m : SortedMap α) (k : String) :
    (m.mapValues f).get? k = (m.get? k).map (f k) := by
  obtain ⟨entries, h⟩ := m
  simp only [mapValues, get?]
  clear h
  induction entries with
  | nil => rfl
  | cons head rest ih =>
    obtain ⟨k', v⟩ := head
    rw [List.map_cons, lookup_cons, lookup_cons, ih]
    split
    case isTrue h => simp [h]
    case isFalse => rfl

theorem get?_eq_some_iff {m : SortedMap α} {k : String} {v : α} :
    m.get? k = some v ↔ (k, v) ∈ m.entries :=
  lookup_eq_some_iff m.ascending

end SortedMap

end FeatureFlags

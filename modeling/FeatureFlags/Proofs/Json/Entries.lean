import Mathlib.Data.List.Perm.Subperm
import FeatureFlags.Json.Reader

/-!
Objects hold a key once.

A value is made of parts, and what holds of a value if it holds of its parts holds of every value
(`Json.value_induction`).  An object that holds a key once is determined by what its keys look up,
in whatever order its entries stand (`Json.ofFields_eq_iff`); a value that is read from a text holds
them sorted (`Json.normal_of_read?`).
-/

namespace FeatureFlags

namespace Json

variable {a : Json} {xs : List (String × Json)}

/-! ### Entries by key -/

section Entries

variable {α β : Type} {entries fields : List (String × α)} {k : String} {v : α}

/-- The keys of the entries, in their order. -/
abbrev keys (entries : List (String × α)) : List String := entries.map Prod.fst

theorem nodup_keys (h : Ascending entries) : (keys entries).Nodup :=
  List.pairwise_map.2 (h.imp fun hlt => String.ne_of_lt hlt)

theorem lookup_eq_none : entries.lookup k = none ↔ k ∉ keys entries := by
  rw [List.lookup_eq_none_iff]
  constructor
  · intro h hk
    obtain ⟨e, he, rfl⟩ := List.mem_map.1 hk
    simpa using h e he
  · intro h e he
    rw [bne_iff_ne]
    rintro rfl
    exact h (List.mem_map_of_mem he)

/-- Where a key stands once, an entry is what its key looks up. -/
theorem lookup_eq_some (hkeys : (keys entries).Nodup) :
    entries.lookup k = some v ↔ (k, v) ∈ entries := by
  induction entries with
  | nil => simp
  | cons head rest ih =>
    obtain ⟨k', v'⟩ := head
    obtain ⟨hnot, hrest⟩ := List.nodup_cons.1 hkeys
    rw [lookup_cons, List.mem_cons, Prod.mk.injEq]
    split
    case isTrue heq =>
      subst heq
      have habsent : (k, v) ∉ rest := fun hmem => hnot (List.mem_map.2 ⟨(k, v), hmem, rfl⟩)
      rw [Option.some.injEq]
      simp only [habsent, true_and, or_false]
      exact eq_comm
    case isFalse hne =>
      rw [ih hrest]
      simp only [hne, false_and, false_or]

theorem lookup_map (f : α → β) (entries : List (String × α)) (k : String) :
    (entries.map fun e => (e.1, f e.2)).lookup k = (entries.lookup k).map f := by
  induction entries with
  | nil => rfl
  | cons head rest ih =>
    rw [List.map_cons, lookup_cons, ih, lookup_cons]
    split <;> rfl

/-- The fields sorted by name, as an object lists them. -/
def sortFields (fields : List (String × α)) : List (String × α) :=
  fields.foldl (fun entries field => insertEntry field.1 field.2 entries) []

theorem ofFields_eq (fields : List (String × Json)) :
    ofFields fields = .object (sortFields fields) :=
  rfl

theorem ascending_sortFields (fields : List (String × α)) : Ascending (sortFields fields) := by
  -- the fields are inserted one by one, into entries that are sorted already
  have hfold : ∀ entries : List (String × α), Ascending entries → Ascending
      (fields.foldl (fun entries field => insertEntry field.1 field.2 entries) entries) := by
    induction fields with
    | nil => exact fun _ h => h
    | cons field rest ih =>
      intro entries h
      exact ih _ (ascending_insertEntry field.1 field.2 h)
  exact hfold [] .nil

theorem lookup_sortFields (hkeys : (keys fields).Nodup) (k : String) :
    (sortFields fields).lookup k = fields.lookup k := by
  have hfold : ∀ entries : List (String × α),
      (fields.foldl (fun entries field => insertEntry field.1 field.2 entries) entries).lookup k
        = (fields.lookup k).or (entries.lookup k) := by
    induction fields with
    | nil => exact fun _ => rfl
    | cons field rest ih =>
      intro entries
      obtain ⟨k', v⟩ := field
      obtain ⟨hnot, hrest⟩ := List.nodup_cons.1 hkeys
      rw [List.foldl_cons, ih hrest, lookup_insertEntry, lookup_cons]
      split
      case isTrue heq =>
        -- the key is not among the later fields, which would replace its value
        subst heq
        rw [lookup_eq_none.2 hnot]
        rfl
      case isFalse => rfl
  rw [sortFields, hfold, List.lookup_nil, Option.or_none]

/-- Different lists of fields make the same object if their names look up the same. -/
theorem ofFields_eq_iff {fields fields' : List (String × Json)} (h : (keys fields).Nodup)
    (h' : (keys fields').Nodup) :
    ofFields fields = ofFields fields' ↔ ∀ k, fields.lookup k = fields'.lookup k := by
  rw [ofFields_eq, ofFields_eq, object.injEq]
  constructor
  · intro heq k
    rw [← lookup_sortFields h, heq, lookup_sortFields h']
  · intro hall
    apply eq_of_lookup_eq (ascending_sortFields fields) (ascending_sortFields fields')
    intro k
    rw [lookup_sortFields h, hall, lookup_sortFields h']

theorem ofFields_eq_self {fields : List (String × Json)} (h : Ascending fields) :
    ofFields fields = .object fields := by
  rw [ofFields_eq, object.injEq]
  exact eq_of_lookup_eq (ascending_sortFields fields) h (lookup_sortFields (nodup_keys h))

/-- Entries with as many keys as there are on the other side, all of them found there, have the
same keys. -/
theorem keys_perm {entries' : List (String × β)} (hkeys : (keys entries).Nodup)
    (hsubset : ∀ k ∈ keys entries, k ∈ keys entries') (hlength : entries.length = entries'.length) :
    (keys entries).Perm (keys entries') := by
  apply (hkeys.subperm hsubset).perm_of_length_le
  rw [List.length_map, List.length_map]
  exact Nat.le_of_eq hlength.symm

/-- To look up the same values, as far as `f` tells, it is enough to be of one size and to have a
partner on the other side for each entry on this one. -/
theorem lookup_map_eq_iff (f : α → β) {entries' : List (String × α)}
    (h : (keys entries).Nodup) (h' : (keys entries').Nodup) :
    (∀ k, (entries.lookup k).map f = (entries'.lookup k).map f) ↔
      entries.length = entries'.length ∧
        ∀ e ∈ entries, ∃ v, entries'.lookup e.1 = some v ∧ f e.2 = f v := by
  constructor
  · intro hall
    -- a key that looks up something on one side does so on the other
    have hkeys : ∀ k, k ∈ keys entries ↔ k ∈ keys entries' := by
      intro k
      rw [← not_iff_not, ← lookup_eq_none, ← lookup_eq_none, ← Option.map_eq_none_iff, hall,
        Option.map_eq_none_iff]
    constructor
    · have hperm : (keys entries).Perm (keys entries') := (List.perm_ext_iff_of_nodup h h').2 hkeys
      simpa using hperm.length_eq
    · intro e he
      have hlookup := hall e.1
      rw [(lookup_eq_some h).2 he, Option.map_some] at hlookup
      obtain ⟨v, hv, hequal⟩ := Option.map_eq_some_iff.1 hlookup.symm
      exact ⟨v, hv, hequal.symm⟩
  · rintro ⟨hlength, hfound⟩ k
    cases hk : entries.lookup k with
    | some v =>
      obtain ⟨v', hv', hequal⟩ := hfound (k, v) ((lookup_eq_some h).1 hk)
      rw [hv', Option.map_some, Option.map_some, hequal]
    | none =>
      -- by size there is no key on the other side beside those that were found
      have hsubset : ∀ k ∈ keys entries, k ∈ keys entries' := by
        intro k hk
        obtain ⟨e, he, rfl⟩ := List.mem_map.1 hk
        obtain ⟨v, hv, -⟩ := hfound e he
        exact List.mem_map.2 ⟨(e.1, v), (lookup_eq_some h').1 hv, rfl⟩
      have hperm := keys_perm h hsubset hlength
      have hmissing : k ∉ keys entries' := fun hmem => lookup_eq_none.1 hk (hperm.mem_iff.2 hmem)
      rw [lookup_eq_none.2 hmissing]

end Entries

/-! ### Parts of a value -/

/-- What holds of values without parts, and of arrays and objects if it holds of their parts, holds
of every value. -/
@[elab_as_elim]
theorem value_induction {motive : Json → Prop} (null : motive .null)
    (bool : ∀ b, motive (.bool b)) (number : ∀ n, motive (.number n))
    (string : ∀ s, motive (.string s))
    (array : ∀ items, (∀ item ∈ items, motive item) → motive (.array items))
    (object : ∀ entries, (∀ e ∈ entries, motive e.2) → motive (.object entries))
    (value : Json) : motive value :=
  match value with
  | .null => null
  | .bool b => bool b
  | .number n => number n
  | .string s => string s
  | .array items => array items fun item _ =>
      value_induction null bool number string array object item
  | .object entries => object entries fun (key, part) hmem =>
      -- the part stands in an entry, which stands in the list
      have : sizeOf part < sizeOf entries := by
        have hsize := List.sizeOf_lt_of_mem hmem
        rw [Prod.mk.sizeOf_spec] at hsize
        omega
      value_induction null bool number string array object part
termination_by value

/-! ### Values with each key once -/

/-- Every object in the value holds a key once; the entries may stand in any order. -/
inductive KeysOnce : Json → Prop where
  | null : KeysOnce .null
  | bool (b : Bool) : KeysOnce (.bool b)
  | number (n : Number) : KeysOnce (.number n)
  | string (s : String) : KeysOnce (.string s)
  | array {items : List Json} (h : ∀ item ∈ items, KeysOnce item) : KeysOnce (.array items)
  | object {entries : List (String × Json)} (hkeys : (keys entries).Nodup)
    (h : ∀ e ∈ entries, KeysOnce e.2) : KeysOnce (.object entries)

theorem KeysOnce.nodup_keys (h : (Json.object xs).KeysOnce) : (keys xs).Nodup := by
  cases h with
  | object hkeys => exact hkeys

theorem KeysOnce.perm {ys : List (String × Json)} (h : (Json.object xs).KeysOnce)
    (hperm : xs.Perm ys) : (Json.object ys).KeysOnce := by
  cases h with
  | object hkeys hparts =>
    have hkeys' : (keys ys).Nodup := (hperm.map Prod.fst).nodup_iff.1 hkeys
    exact .object hkeys' fun e he => hparts e (hperm.mem_iff.2 he)

theorem normalItems_iff {items : List Json} :
    NormalItems items ↔ ∀ item ∈ items, item.Normal := by
  induction items with
  | nil => simp [NormalItems]
  | cons item rest ih => rw [NormalItems, ih, List.forall_mem_cons]

theorem normalEntries_iff : NormalEntries xs ↔ ∀ e ∈ xs, e.2.Normal := by
  induction xs with
  | nil => simp [NormalEntries]
  | cons e rest ih => rw [NormalEntries, ih, List.forall_mem_cons]

theorem keysOnce_of_normal (h : a.Normal) : a.KeysOnce := by
  induction a using value_induction with
  | null => exact .null
  | bool b => exact .bool b
  | number n => exact .number n
  | string s => exact .string s
  | array items ih =>
    rw [Normal, normalItems_iff] at h
    exact .array fun item hitem => ih item hitem (h item hitem)
  | object entries ih =>
    rw [Normal, normalEntries_iff] at h
    obtain ⟨hascending, hparts⟩ := h
    exact .object (nodup_keys hascending) fun e he => ih e he (hparts e he)

/-! ### Values that are read -/

theorem mem_insertEntry {α : Type} {key : String} {value : α} {entries : List (String × α)}
    {e : String × α} (h : e ∈ insertEntry key value entries) : e = (key, value) ∨ e ∈ entries := by
  induction entries with
  | nil => exact .inl (List.mem_singleton.1 h)
  | cons head rest ih =>
    obtain ⟨k, v⟩ := head
    rw [insertEntry] at h
    split at h
    · exact List.mem_cons.1 h
    · split at h
      · rcases List.mem_cons.1 h with rfl | h
        · exact .inr List.mem_cons_self
        · exact (ih h).imp_right (List.mem_cons_of_mem _)
      · rcases List.mem_cons.1 h with rfl | h
        · exact .inl rfl
        · exact .inr (List.mem_cons_of_mem _ h)

theorem mem_of_mem_sortFields {α : Type} {fields : List (String × α)} {e : String × α}
    (h : e ∈ sortFields fields) : e ∈ fields := by
  have hfold : ∀ entries : List (String × α),
      e ∈ fields.foldl (fun entries field => insertEntry field.1 field.2 entries) entries →
        e ∈ fields ∨ e ∈ entries := by
    clear h
    induction fields with
    | nil => exact fun _ h => .inr h
    | cons field rest ih =>
      intro entries h
      rcases ih _ h with h | h
      · exact .inl (List.mem_cons_of_mem _ h)
      · rcases mem_insertEntry h with rfl | h
        · exact .inl List.mem_cons_self
        · exact .inr h
  exact (hfold [] h).resolve_right (List.not_mem_nil)

theorem normal_ofFields (h : ∀ e ∈ xs, e.2.Normal) : (ofFields xs).Normal := by
  rw [ofFields_eq, Normal, normalEntries_iff]
  exact ⟨ascending_sortFields xs, fun e he => h e (mem_of_mem_sortFields he)⟩

mutual

theorem normal_of_toJson? {depth : Nat} {document : Document} {value : Json}
    (h : document.toJson? depth = some value) : value.Normal := by
  cases document with
  | null | bool =>
    obtain rfl := Option.some.inj h
    trivial
  | number | string =>
    obtain ⟨_, -, rfl⟩ := Option.map_eq_some_iff.1 h
    trivial
  | array items =>
    rw [Document.toJson?] at h
    split at h
    · cases h
    · obtain ⟨values, hvalues, rfl⟩ := Option.map_eq_some_iff.1 h
      exact normalItems_iff.2 (normal_of_itemValues? hvalues)
  | object entries =>
    rw [Document.toJson?] at h
    split at h
    · cases h
    · obtain ⟨fields, hfields, rfl⟩ := Option.map_eq_some_iff.1 h
      exact normal_ofFields (normal_of_entryValues? hfields)

theorem normal_of_itemValues? {depth : Nat} {items : List Document} {values : List Json}
    (h : Document.itemValues? depth items = some values) : ∀ value ∈ values, value.Normal := by
  cases items with
  | nil =>
    obtain rfl := Option.some.inj h
    simp
  | cons item rest =>
    simp only [Document.itemValues?, Option.bind_eq_bind, Option.bind_eq_some_iff] at h
    obtain ⟨first, hfirst, others, hothers, h⟩ := h
    obtain rfl := Option.some.inj h
    rw [List.forall_mem_cons]
    exact ⟨normal_of_toJson? hfirst, normal_of_itemValues? hothers⟩

theorem normal_of_entryValues? {depth : Nat} {entries : List (Option String × Document)}
    {fields : List (String × Json)} (h : Document.entryValues? depth entries = some fields) :
    ∀ e ∈ fields, e.2.Normal := by
  cases entries with
  | nil =>
    obtain rfl := Option.some.inj h
    simp
  | cons entry rest =>
    simp only [Document.entryValues?, Option.bind_eq_bind, Option.bind_eq_some_iff] at h
    obtain ⟨key, -, first, hfirst, others, hothers, h⟩ := h
    obtain rfl := Option.some.inj h
    rw [List.forall_mem_cons]
    exact ⟨normal_of_toJson? hfirst, normal_of_entryValues? hothers⟩

end

/-- A value that is read from a text lists the entries of its objects by key, each key once. -/
theorem normal_of_read? {bytes : List UInt8} (h : read? bytes = some a) : a.Normal := by
  obtain ⟨document, -, hvalue⟩ := Option.bind_eq_some_iff.1 h
  exact normal_of_toJson? hvalue

end Json

end FeatureFlags

import Mathlib.Data.List.Nodup
import FeatureFlags.Json.Record
import FeatureFlags.Proofs.Json.Entries

/-!
Records read from objects.

A document that spells an object, and no key of it twice, gives a record the fields that the object
has, each as a document that has the value of the entry (`Document.Spells.exists_record`).  So what
a decoder reads from a field is told from the entries, if it looks at nothing of a document but its
value (`Record.withDefault_eq`).  Every object is spelled like this, as far as its nesting goes, by
the document that it is itself (`Document.spells_ofEntries`).
-/

namespace FeatureFlags

namespace Json

/-- Null, or what is read from another value. -/
def nullable {α : Type} (read : Json → Option α) : Json → Option (Option α)
  | .null => some none
  | value => (read value).map some

theorem nullable_of_ne {α : Type} (read : Json → Option α) {value : Json} (h : value ≠ .null) :
    value.nullable read = (read value).map some := by
  cases value with
  | null => exact absurd rfl h
  | _ => rfl

mutual

/-- How many arrays and objects are open at once in the value. -/
def nesting : Json → Nat
  | .null | .bool _ | .number _ | .string _ => 0
  | .array items => nestingItems items + 1
  | .object entries => nestingEntries entries + 1

def nestingItems : List Json → Nat
  | [] => 0
  | item :: rest => max item.nesting (nestingItems rest)

def nestingEntries : List (String × Json) → Nat
  | [] => 0
  | (_, item) :: rest => max item.nesting (nestingEntries rest)

end

theorem nesting_le_of_mem_items {items : List Json} {item : Json} (h : item ∈ items) :
    item.nesting ≤ nestingItems items := by
  induction items with
  | nil => cases h
  | cons first rest ih =>
    rw [nestingItems]
    obtain rfl | h := List.mem_cons.1 h
    · exact Nat.le_max_left _ _
    · exact Nat.le_trans (ih h) (Nat.le_max_right _ _)

theorem nesting_le_of_mem_entries {entries : List (String × Json)} {e : String × Json}
    (h : e ∈ entries) : e.2.nesting ≤ nestingEntries entries := by
  induction entries with
  | nil => cases h
  | cons first rest ih =>
    rw [nestingEntries]
    obtain rfl | h := List.mem_cons.1 h
    · exact Nat.le_max_left _ _
    · exact Nat.le_trans (ih h) (Nat.le_max_right _ _)

end Json

namespace Document

open Json (keys)

variable {depth : Nat} {fields : List (Option String × Document)}
  {entries values : List (String × Json)} {key : String}

/-! ### Documents and their values -/

theorem toJson?_eq_null {document : Document} (h : document.toJson? depth = some .null) :
    document = .null := by
  cases document with
  | null => rfl
  | bool b => cases h
  | number n => cases n <;> cases h
  | string s => cases s <;> cases h
  | array _ | object _ =>
    rw [toJson?] at h
    split at h
    · cases h
    · obtain ⟨_, -, hnull⟩ := Option.map_eq_some_iff.1 h
      cases hnull

theorem entryValues?_cons_eq_some {entry : Option String × Document} :
    entryValues? depth (entry :: fields) = some values ↔
      ∃ key value others, entry.1 = some key ∧ entry.2.toJson? depth = some value ∧
        entryValues? depth fields = some others ∧ values = (key, value) :: others := by
  obtain ⟨key, item⟩ := entry
  simp only [entryValues?, Option.bind_eq_bind, Option.bind_eq_some_iff, Option.some.injEq]
  constructor
  · rintro ⟨key, rfl, value, hvalue, others, hothers, rfl⟩
    exact ⟨key, value, others, rfl, hvalue, hothers, rfl⟩
  · rintro ⟨key, value, others, rfl, hvalue, hothers, rfl⟩
    exact ⟨key, rfl, value, hvalue, others, hothers, rfl⟩

/-- The keys of a document are options, and compared as such. -/
theorem lookup_some_cons (key key' : String) (item : Document)
    (rest : List (Option String × Document)) :
    ((some key', item) :: rest).lookup (some key)
      = if key = key' then some item else rest.lookup (some key) := by
  by_cases h : key = key'
  · simp [h]
  · have hne : (some key == some key') = false := by simpa using h
    rw [List.lookup_cons, hne, if_neg h]

/-- The entries of the value have the keys of the document. -/
theorem keys_of_entryValues? (h : entryValues? depth fields = some values) :
    fields.map Prod.fst = (keys values).map some := by
  induction fields generalizing values with
  | nil =>
    obtain rfl := Option.some.inj h
    rfl
  | cons entry rest ih =>
    obtain ⟨key, value, others, hkey, -, hothers, rfl⟩ := entryValues?_cons_eq_some.1 h
    rw [List.map_cons, hkey, ih hothers]
    rfl

/-- The document has the value. -/
def HasValue (depth : Nat) (document : Document) (value : Json) : Prop :=
  document.toJson? depth = some value

/-- A key looks up the value of what it looks up in the document. -/
theorem lookup_of_entryValues? (h : entryValues? depth fields = some values) (key : String) :
    Option.Rel (HasValue depth) (fields.lookup (some key)) (values.lookup key) := by
  induction fields generalizing values with
  | nil =>
    obtain rfl := Option.some.inj h
    exact .none
  | cons entry rest ih =>
    obtain ⟨key', value, others, hkey, hvalue, hothers, rfl⟩ := entryValues?_cons_eq_some.1 h
    obtain ⟨_, item⟩ := entry
    obtain rfl : _ = some key' := hkey
    rw [lookup_some_cons, lookup_cons]
    split
    case isTrue => exact .some hvalue
    case isFalse => exact ih hothers

/-! ### Objects and their fields -/

/-- The document with these fields spells the object with these entries, and no key twice. -/
structure Spells (depth : Nat) (fields : List (Option String × Document))
    (entries : List (String × Json)) : Prop where
  value : toJson? depth (.object fields) = some (.object entries)
  once : (fields.map Prod.fst).Nodup

/-- The entries are the values of the fields, sorted. -/
theorem Spells.exists_values (h : Spells depth fields entries) :
    ∃ below values, depth = below + 1 ∧ entryValues? below fields = some values ∧
      ∀ key, entries.lookup key = values.lookup key := by
  have hvalue := h.value
  cases depth with
  | zero => cases hvalue
  | succ below =>
    rw [toJson?, if_neg (Nat.succ_ne_zero below), Nat.add_sub_cancel] at hvalue
    obtain ⟨values, hvalues, hsorted⟩ := Option.map_eq_some_iff.1 hvalue
    rw [Json.ofFields_eq, Json.object.injEq] at hsorted
    -- sorting keeps every look-up only because no key is there twice
    have hkeys : (keys values).Nodup := by
      have honce := h.once
      rw [keys_of_entryValues? hvalues] at honce
      exact List.Nodup.of_map some honce
    refine ⟨below, values, rfl, hvalues, fun key => ?_⟩
    rw [← hsorted, Json.lookup_sortFields hkeys]

theorem knownFields_cons (names : List String) (entry : Option String × Document) :
    Record.knownFields names (entry :: fields)
      = entry.1.bind fun key => (Record.knownFields names fields).bind fun known =>
          if key ∈ names then
            if (known.lookup key).isSome then none else some ((key, entry.2) :: known)
          else some known :=
  rfl

/-- The known fields are those that the names look up. -/
theorem lookup_knownFields {names : List String} {known : List (String × Document)}
    (h : Record.knownFields names fields = some known) {name : String} (hname : name ∈ names) :
    known.lookup name = fields.lookup (some name) := by
  induction fields generalizing known with
  | nil =>
    obtain rfl := Option.some.inj h
    rfl
  | cons entry rest ih =>
    rw [knownFields_cons] at h
    obtain ⟨key, hkey, others, hothers, h⟩ := by
      simpa only [Option.bind_eq_some_iff] using h
    obtain ⟨_, item⟩ := entry
    obtain rfl : _ = some key := hkey
    split at h
    case isTrue =>
      split at h
      · cases h
      · obtain rfl := Option.some.inj h
        rw [lookup_cons, lookup_some_cons, ih hothers]
    case isFalse hmem =>
      obtain rfl := Option.some.inj h
      have hne : name ≠ key := fun heq => hmem (heq ▸ hname)
      rw [lookup_some_cons, if_neg hne, ih hothers]

/-- Where no key is repeated, no known field is refused. -/
theorem exists_knownFields (names : List String) {keys : List String}
    (h : fields.map Prod.fst = keys.map some) (hkeys : keys.Nodup) :
    ∃ known, Record.knownFields names fields = some known := by
  induction fields generalizing keys with
  | nil => exact ⟨[], rfl⟩
  | cons entry rest ih =>
    obtain ⟨_, item⟩ := entry
    obtain ⟨key, others, rfl, rfl, hothers⟩ := List.map_eq_cons_iff.1 h.symm
    obtain ⟨hnew, hrest⟩ := List.nodup_cons.1 hkeys
    obtain ⟨known, hknown⟩ := ih hothers.symm hrest
    rw [knownFields_cons, hknown, Option.bind_some, Option.bind_some]
    split
    case isTrue hmem =>
      -- a name that was known already would be refused; this one is new
      have habsent : known.lookup key = none := by
        rw [lookup_knownFields hknown hmem, List.lookup_eq_none_iff]
        intro e he
        rw [bne_iff_ne]
        intro hsame
        have hkey : e.1 ∈ rest.map Prod.fst := List.mem_map_of_mem he
        rw [← hsame, ← hothers] at hkey
        obtain ⟨key', hkey', heq⟩ := List.mem_map.1 hkey
        obtain rfl := Option.some.inj heq
        exact hnew hkey'
      rw [habsent]
      exact ⟨_, rfl⟩
    case isFalse => exact ⟨known, rfl⟩

/-- A record takes its fields from the object, and reads them one level down. -/
theorem Spells.exists_record (h : Spells depth fields entries) (names : List String) :
    ∃ record, Record.read? names depth (.object fields) = some record ∧
      ∀ name ∈ names,
        Option.Rel (HasValue record.depth) (record.fields.lookup name) (entries.lookup name) := by
  obtain ⟨below, values, rfl, hvalues, hlookup⟩ := h.exists_values
  have hkeys := keys_of_entryValues? hvalues
  have honce := h.once
  rw [hkeys] at honce
  obtain ⟨known, hknown⟩ := exists_knownFields names hkeys (List.Nodup.of_map some honce)
  refine ⟨⟨false, known, below⟩, ?_, fun name hname => ?_⟩
  · rw [Record.read?, hknown]
    rfl
  · rw [lookup_knownFields hknown hname, hlookup]
    exact lookup_of_entryValues? hvalues name

/-! ### Values as documents -/

theorem itemValues?_ofItems {items : List Json}
    (h : ∀ item ∈ items, (ofJson item).toJson? depth = some item) :
    itemValues? depth (ofItems items) = some items := by
  induction items with
  | nil => rfl
  | cons item rest ih =>
    rw [List.forall_mem_cons] at h
    rw [ofItems, itemValues?, h.1, ih h.2]
    rfl

theorem entryValues?_ofEntries (h : ∀ e ∈ entries, (ofJson e.2).toJson? depth = some e.2) :
    entryValues? depth (ofEntries entries) = some entries := by
  induction entries with
  | nil => rfl
  | cons e rest ih =>
    rw [List.forall_mem_cons] at h
    rw [ofEntries, entryValues?, h.1, ih h.2]
    rfl

theorem keys_ofEntries (entries : List (String × Json)) :
    (ofEntries entries).map Prod.fst = (keys entries).map some := by
  induction entries with
  | nil => rfl
  | cons e rest ih =>
    rw [ofEntries, List.map_cons, ih]
    rfl

/-- The document of a value has this value. -/
theorem toJson?_ofJson {value : Json} (hnormal : value.Normal) (hdepth : value.nesting ≤ depth) :
    (ofJson value).toJson? depth = some value := by
  induction value using Json.value_induction generalizing depth with
  | null | bool | number | string => rfl
  | array items ih =>
    rw [Json.Normal, Json.normalItems_iff] at hnormal
    rw [Json.nesting] at hdepth
    have hitems : ∀ item ∈ items, (ofJson item).toJson? (depth - 1) = some item := by
      intro item hitem
      have hle := Json.nesting_le_of_mem_items hitem
      exact ih item hitem (hnormal item hitem) (by omega)
    rw [ofJson, toJson?, if_neg (by omega), itemValues?_ofItems hitems]
    rfl
  | object entries ih =>
    rw [Json.Normal, Json.normalEntries_iff] at hnormal
    rw [Json.nesting] at hdepth
    have hentries : ∀ e ∈ entries, (ofJson e.2).toJson? (depth - 1) = some e.2 := by
      intro e he
      have hle := Json.nesting_le_of_mem_entries he
      exact ih e he (hnormal.2 e he) (by omega)
    rw [ofJson, toJson?, if_neg (by omega), entryValues?_ofEntries hentries, Option.map_some,
      Json.ofFields_eq_self hnormal.1]

/-- Every object is spelled by the document that it is. -/
theorem spells_ofEntries (hnormal : (Json.object entries).Normal)
    (hdepth : (Json.object entries).nesting ≤ depth) :
    Spells depth (ofEntries entries) entries where
  value := toJson?_ofJson hnormal hdepth
  once := by
    rw [keys_ofEntries]
    exact (Json.keysOnce_of_normal hnormal).nodup_keys.map fun _ _ => Option.some.inj

end Document

/-! ### Decoders of values -/

namespace Decoder

variable {α : Type} {decode : Decoder α} {read : Json → Option α}

/-- The decoder looks at nothing of a document but its value, and reads this from it. -/
def Reads (decode : Decoder α) (read : Json → Option α) : Prop :=
  ∀ depth document value, Document.HasValue depth document value →
    decode depth document = read value

theorem reads_value : value.Reads some := fun _ _ _ h => h

/-- Null is read as nothing. -/
theorem Reads.nullable (h : decode.Reads read) : decode.nullable.Reads (Json.nullable read) := by
  intro depth document value hvalue
  by_cases hnull : document = .null
  · subst hnull
    obtain rfl := Option.some.inj hvalue
    rfl
  · have hne : value ≠ .null := by
      rintro rfl
      exact hnull (Document.toJson?_eq_null hvalue)
    rw [Json.nullable_of_ne read hne, ← h depth document value hvalue]
    cases document with
    | null => exact absurd rfl hnull
    | _ => rfl

/-- Null is read as no value, and never as the value null. -/
theorem nullable_value_ne (depth : Nat) (document : Document) :
    value.nullable depth document ≠ some (some .null) := by
  intro h
  unfold nullable at h
  split at h
  case h_1 => cases h
  case h_2 hnull =>
    obtain ⟨_, hvalue, hsome⟩ := Option.map_eq_some_iff.1 h
    obtain rfl := Option.some.inj hsome
    exact hnull (Document.toJson?_eq_null hvalue)

theorem Reads.map {β : Type} (h : decode.Reads read) (f : α → β) :
    Reads (fun depth document => (decode depth document).map f) fun value => (read value).map f :=
  fun depth document value hvalue => congrArg (Option.map f) (h depth document value hvalue)

end Decoder

/-- A field that may be left out is what is read from its entry. -/
theorem Record.withDefault_eq {α : Type} {decode : Decoder α} {read : Json → Option α}
    (hdecode : decode.Reads read) {record : Record} {entries : List (String × Json)}
    {field : String}
    (h : Option.Rel (Document.HasValue record.depth) (record.fields.lookup field)
      (entries.lookup field)) (absent : α) :
    record.withDefault field absent decode
      = ((entries.lookup field).map read).getD (some absent) := by
  rw [withDefault]
  generalize record.fields.lookup field = document at h
  generalize entries.lookup field = value at h
  cases h with
  | none => rfl
  | some hvalue => exact hdecode _ _ _ hvalue

end FeatureFlags

import FeatureFlags.Proofs.Json.Record

/-!
Records read back.

A record has more than one layout: an object with its fields, in which some may be missing, or an
array of them; and it is written in one.  What is read from a field is told from the value that
stands there, in whichever layout (`Json.field?`, `Record.lookup_of_read?`), so a record is read
back if each field is.  Most are (`Decoder.ReadsBack`): a value that is read is sorted and not too
deep, and so it is read from itself again, and what is read from another layout is written so that
it can be read.
-/

namespace FeatureFlags

namespace Json

/-! ### Values that are read are not too deep -/

theorem nestingItems_le {items : List Json} {depth : Nat}
    (h : ∀ item ∈ items, item.nesting ≤ depth) : nestingItems items ≤ depth := by
  induction items with
  | nil => exact Nat.zero_le _
  | cons item rest ih =>
    rw [List.forall_mem_cons] at h
    exact Nat.max_le.2 ⟨h.1, ih h.2⟩

theorem nestingEntries_le {entries : List (String × Json)} {depth : Nat}
    (h : ∀ e ∈ entries, e.2.nesting ≤ depth) : nestingEntries entries ≤ depth := by
  induction entries with
  | nil => exact Nat.zero_le _
  | cons e rest ih =>
    rw [List.forall_mem_cons] at h
    exact Nat.max_le.2 ⟨h.1, ih h.2⟩

mutual

theorem nesting_le_of_toJson? {depth : Nat} {document : Document} {value : Json}
    (h : document.toJson? depth = some value) : value.nesting ≤ depth := by
  cases document with
  | null | bool =>
    obtain rfl := Option.some.inj h
    exact Nat.zero_le _
  | number | string =>
    obtain ⟨_, -, rfl⟩ := Option.map_eq_some_iff.1 h
    exact Nat.zero_le _
  | array items =>
    rw [Document.toJson?] at h
    split at h
    · cases h
    · obtain ⟨values, hvalues, rfl⟩ := Option.map_eq_some_iff.1 h
      have hitems := nestingItems_le (nesting_le_of_itemValues? hvalues)
      rw [nesting]
      omega
  | object entries =>
    rw [Document.toJson?] at h
    split at h
    · cases h
    · obtain ⟨fields, hfields, rfl⟩ := Option.map_eq_some_iff.1 h
      have hparts := nesting_le_of_entryValues? hfields
      -- sorting the entries brings in no others
      have hentries : nestingEntries (sortFields fields) ≤ depth - 1 :=
        nestingEntries_le fun e he => hparts e (mem_of_mem_sortFields he)
      rw [ofFields_eq, nesting]
      omega

theorem nesting_le_of_itemValues? {depth : Nat} {items : List Document} {values : List Json}
    (h : Document.itemValues? depth items = some values) :
    ∀ value ∈ values, value.nesting ≤ depth := by
  cases items with
  | nil =>
    obtain rfl := Option.some.inj h
    simp
  | cons item rest =>
    simp only [Document.itemValues?, Option.bind_eq_bind, Option.bind_eq_some_iff] at h
    obtain ⟨first, hfirst, others, hothers, h⟩ := h
    obtain rfl := Option.some.inj h
    rw [List.forall_mem_cons]
    exact ⟨nesting_le_of_toJson? hfirst, nesting_le_of_itemValues? hothers⟩

theorem nesting_le_of_entryValues? {depth : Nat} {entries : List (Option String × Document)}
    {fields : List (String × Json)} (h : Document.entryValues? depth entries = some fields) :
    ∀ e ∈ fields, e.2.nesting ≤ depth := by
  cases entries with
  | nil =>
    obtain rfl := Option.some.inj h
    simp
  | cons entry rest =>
    obtain ⟨key, first, others, -, hfirst, hothers, rfl⟩ :=
      Document.entryValues?_cons_eq_some.1 h
    rw [List.forall_mem_cons]
    exact ⟨nesting_le_of_toJson? hfirst, nesting_le_of_entryValues? hothers⟩

end

/-! ### Fields of a value -/

/-- What a value has in a field of a record with these field names: an object under the name, and an
array at the place of the name. -/
def field? (names : List String) (value : Json) (name : String) : Option Json :=
  match value with
  | .object entries => entries.lookup name
  | .array items => (names.zip items).lookup name
  | _ => none

/-- The value has the form of a record with these field names: an object that has no key twice, or
an array with no more items than there are names. -/
def RecordLike (names : List String) : Json → Prop
  | .object entries => (keys entries).Nodup
  | .array items => items.length ≤ names.length
  | _ => False

theorem mem_of_lookup {α : Type} {entries : List (String × α)} {key : String} {value : α}
    (h : entries.lookup key = some value) : (key, value) ∈ entries := by
  obtain ⟨before, after, rfl, -⟩ := List.lookup_eq_some_iff.1 h
  exact List.mem_append_right _ List.mem_cons_self

theorem normal_of_field? {names : List String} {value part : Json} {name : String}
    (hnormal : value.Normal) (h : value.field? names name = some part) : part.Normal := by
  cases value with
  | null | bool | number | string => cases h
  | array items =>
    have hmem := List.of_mem_zip (mem_of_lookup h)
    exact normalItems_iff.1 hnormal part hmem.2
  | object entries =>
    have hmem := mem_of_lookup h
    exact normalEntries_iff.1 hnormal.2 _ hmem

theorem recordLike_ofFields (names : List String) (fields : List (String × Json)) :
    (ofFields fields).RecordLike names :=
  nodup_keys (ascending_sortFields fields)

theorem field?_ofFields {fields : List (String × Json)} (hkeys : (keys fields).Nodup)
    (names : List String) (name : String) :
    (ofFields fields).field? names name = fields.lookup name :=
  lookup_sortFields hkeys name

theorem sortFields_eq_self {α : Type} {fields : List (String × α)} (h : Ascending fields) :
    sortFields fields = fields :=
  eq_of_lookup_eq (ascending_sortFields fields) h (lookup_sortFields (nodup_keys h))

end Json

namespace SortedMap

variable {α : Type}

theorem entries_ofList (pairs : List (String × α)) :
    (ofList pairs).entries = Json.sortFields pairs := by
  -- both insert the pairs one by one, the map into a map
  have hfold : ∀ m : SortedMap α, (pairs.foldl (fun m e => m.insert e.1 e.2) m).entries
      = pairs.foldl (fun entries field => insertEntry field.1 field.2 entries) m.entries := by
    induction pairs with
    | nil => exact fun _ => rfl
    | cons e rest ih => exact fun m => ih (m.insert e.1 e.2)
  exact hfold empty

/-- A map is made of its own entries. -/
theorem ofList_entries (m : SortedMap α) : ofList m.entries = m := by
  apply ext
  intro key
  rw [get?, entries_ofList, Json.sortFields_eq_self m.ascending, get?]

end SortedMap

/-! ### Values as documents -/

namespace Document

theorem ofItems_eq_map (items : List Json) : ofItems items = items.map ofJson := by
  induction items with
  | nil => rfl
  | cons item rest ih => rw [ofItems, ih, List.map_cons]

theorem lookup_ofEntries (entries : List (String × Json)) (key : String) :
    (ofEntries entries).lookup (some key) = (entries.lookup key).map ofJson := by
  induction entries with
  | nil => rfl
  | cons e rest ih =>
    rw [ofEntries, lookup_some_cons, ih, lookup_cons]
    split <;> rfl

/-- One entry that is null comes from one entry that is null. -/
theorem eq_of_ofEntries_eq {entries : List (String × Json)} {key : String}
    (h : ofEntries entries = [(some key, .null)]) : entries = [(key, .null)] := by
  cases entries with
  | nil => cases h
  | cons e rest =>
    obtain ⟨key', part⟩ := e
    obtain ⟨hentry, hrest⟩ := List.cons.inj h
    cases rest with
    | cons => cases hrest
    | nil =>
      cases part with
      | null =>
        cases hentry
        rfl
      | _ => cases hentry

theorem lookup_zip_ofItems (names : List String) (items : List Json) (name : String) :
    (names.zip (ofItems items)).lookup name = ((names.zip items).lookup name).map ofJson := by
  rw [← Json.lookup_map, ofItems_eq_map, List.zip_map_right]
  rfl

mutual

/-- A sorted value has no other value as a document. -/
theorem eq_of_toJson?_ofJson {depth : Nat} {value read : Json} (hnormal : value.Normal)
    (h : (ofJson value).toJson? depth = some read) : read = value := by
  cases value with
  | null | bool | number | string => exact (Option.some.inj h).symm
  | array items =>
    rw [ofJson, toJson?] at h
    split at h
    · cases h
    · obtain ⟨values, hvalues, rfl⟩ := Option.map_eq_some_iff.1 h
      rw [eq_of_itemValues?_ofItems hnormal hvalues]
  | object entries =>
    rw [ofJson, toJson?] at h
    split at h
    · cases h
    · obtain ⟨fields, hfields, rfl⟩ := Option.map_eq_some_iff.1 h
      rw [eq_of_entryValues?_ofEntries hnormal.2 hfields, Json.ofFields_eq_self hnormal.1]

theorem eq_of_itemValues?_ofItems {depth : Nat} {items values : List Json}
    (hnormal : Json.NormalItems items) (h : itemValues? depth (ofItems items) = some values) :
    values = items := by
  cases items with
  | nil => exact (Option.some.inj h).symm
  | cons item rest =>
    simp only [ofItems, itemValues?, Option.bind_eq_bind, Option.bind_eq_some_iff] at h
    obtain ⟨first, hfirst, others, hothers, h⟩ := h
    obtain rfl := Option.some.inj h
    rw [eq_of_toJson?_ofJson hnormal.1 hfirst, eq_of_itemValues?_ofItems hnormal.2 hothers]

theorem eq_of_entryValues?_ofEntries {depth : Nat} {entries fields : List (String × Json)}
    (hnormal : Json.NormalEntries entries)
    (h : entryValues? depth (ofEntries entries) = some fields) : fields = entries := by
  cases entries with
  | nil => exact (Option.some.inj h).symm
  | cons e rest =>
    obtain ⟨key, first, others, hkey, hfirst, hothers, rfl⟩ := entryValues?_cons_eq_some.1 h
    obtain rfl := Option.some.inj hkey
    rw [eq_of_toJson?_ofJson hnormal.1 hfirst, eq_of_entryValues?_ofEntries hnormal.2 hothers]

end

end Document

/-! ### Records of a value -/

namespace Record

variable {names : List String} {depth : Nat} {record : Record} {value : Json} {field : String}

theorem depth_of_read? {document : Document} (h : read? names depth document = some record) :
    depth = record.depth + 1 := by
  unfold read? at h
  split at h
  · split at h
    · cases h
    · obtain rfl := Option.some.inj h
      rfl
  · obtain ⟨_, -, rfl⟩ := Option.map_eq_some_iff.1 h
    rfl
  · cases h

theorem read?_zero (names : List String) (document : Document) : read? names 0 document = none := by
  cases document <;> rfl

/-- A record has the fields of the value that it is read from. -/
theorem lookup_of_read? (h : read? names depth (Document.ofJson value) = some record)
    (hfield : field ∈ names) :
    record.fields.lookup field = (value.field? names field).map Document.ofJson := by
  cases depth with
  | zero => cases value <;> cases h
  | succ below =>
    cases value with
    | null | bool | number | string => cases h
    | array items =>
      rw [Document.ofJson, read?] at h
      split at h
      · cases h
      · obtain rfl := Option.some.inj h
        exact Document.lookup_zip_ofItems names items field
    | object entries =>
      rw [Document.ofJson, read?] at h
      obtain ⟨known, hknown, rfl⟩ := Option.map_eq_some_iff.1 h
      exact (Document.lookup_knownFields hknown hfield).trans
        (Document.lookup_ofEntries entries field)

/-- What has the form of a record is read as one. -/
theorem exists_read? (h : value.RecordLike names) (below : Nat) :
    ∃ record, read? names (below + 1) (Document.ofJson value) = some record ∧
      record.depth = below := by
  cases value with
  | null | bool | number | string => cases h
  | array items =>
    have hlength : ¬names.length < (Document.ofItems items).length := by
      rw [Document.ofItems_eq_map, List.length_map]
      exact Nat.not_lt.2 h
    refine ⟨⟨true, names.zip (Document.ofItems items), below⟩, ?_, rfl⟩
    rw [Document.ofJson, read?, if_neg hlength]
  | object entries =>
    obtain ⟨known, hknown⟩ :=
      Document.exists_knownFields names (Document.keys_ofEntries entries) h
    refine ⟨⟨false, known, below⟩, ?_, rfl⟩
    rw [Document.ofJson, read?, hknown, Option.map_some]

/-- A written record is read as one with the same fields. -/
theorem exists_read?_ofFields {fields : List (String × Json)} (hkeys : (Json.keys fields).Nodup)
    (names : List String) (below : Nat) :
    ∃ record, read? names (below + 1) (Document.ofJson (Json.ofFields fields)) = some record ∧
      record.depth = below ∧
      ∀ field ∈ names, record.fields.lookup field = (fields.lookup field).map Document.ofJson := by
  obtain ⟨record, hrecord, hdepth⟩ := exists_read? (Json.recordLike_ofFields names fields) below
  refine ⟨record, hrecord, hdepth, fun field hfield => ?_⟩
  rw [lookup_of_read? hrecord hfield, Json.field?_ofFields hkeys]

variable {α : Type} {decode : Decoder α} {given : Option Json}

theorem withDefault_of_lookup {document : Document}
    (h : record.fields.lookup field = some document) (absent : α) :
    record.withDefault field absent decode = decode record.depth document := by
  rw [withDefault, h]

/-- A field that may be left out is what the value has there, if it has it. -/
theorem withDefault_eq_of_lookup (h : record.fields.lookup field = given.map Document.ofJson)
    (absent : α) :
    record.withDefault field absent decode
      = (given.map fun value => decode record.depth (Document.ofJson value)).getD
          (some absent) := by
  rw [withDefault, h]
  cases given <;> rfl

/-- A field that must be given is there, and read from the value. -/
theorem exists_field?_of_required {x : α}
    (hrecord : read? names depth (Document.ofJson value) = some record) (hfield : field ∈ names)
    (h : record.required field decode = some x) :
    ∃ part, value.field? names field = some part ∧
      decode record.depth (Document.ofJson part) = some x := by
  obtain ⟨document, hdocument, hx⟩ := Option.bind_eq_some_iff.1 h
  rw [lookup_of_read? hrecord hfield] at hdocument
  obtain ⟨part, hpart, rfl⟩ := Option.map_eq_some_iff.1 hdocument
  exact ⟨part, hpart, hx⟩

theorem required_of_lookup {document : Document}
    (h : record.fields.lookup field = some document) :
    record.required field decode = decode record.depth document := by
  rw [required, h, Option.bind_some]

end Record

/-! ### Decoders that read back -/

namespace Decoder

variable {α : Type} {decode : Decoder α} {write : α → Json}

/-- What is read from a document is read from what is written for it, and is then written in the
same way again. -/
def Survives (decode : Decoder α) (write : α → Json) : Prop :=
  ∀ depth document x, decode depth document = some x →
    decode depth (Document.ofJson (write x)) = some x ∧
      (decode depth (Document.ofJson (write x))).map write = some (write x)

/-- What is read from a document, whatever its layout, is read from what is written for it. -/
def ReadsBack (decode : Decoder α) (write : α → Json) : Prop :=
  ∀ depth document x, decode depth document = some x →
    decode depth (Document.ofJson (write x)) = some x

theorem ReadsBack.survives (h : decode.ReadsBack write) : decode.Survives write := by
  intro depth document x hx
  have hread := h depth document x hx
  exact ⟨hread, by rw [hread, Option.map_some]⟩

/-- A field that may be left out is read back, whether it was given or not. -/
theorem ReadsBack.withDefault (h : decode.ReadsBack write) {absent x : α}
    (habsent : ∀ depth, decode depth (Document.ofJson (write absent)) = some absent)
    {record : Record} {field : String} (hx : record.withDefault field absent decode = some x) :
    decode record.depth (Document.ofJson (write x)) = some x := by
  rw [Record.withDefault] at hx
  split at hx
  · exact h _ _ _ hx
  · obtain rfl := Option.some.inj hx
    exact habsent _

/-- A value is read from itself. -/
theorem readsBack_value : value.ReadsBack id := fun _ _ _ h =>
  Document.toJson?_ofJson (Json.normal_of_toJson? h) (Json.nesting_le_of_toJson? h)

theorem string_ofJson_eq_some {depth : Nat} {value : Json} {s : String} :
    string depth (Document.ofJson value) = some s ↔ value = .string s := by
  cases value <;> simp [Document.ofJson, string]

theorem nullable_eq_some {depth : Nat} {document : Document} {x : α}
    (h : decode.nullable depth document = some (some x)) : decode depth document = some x := by
  cases document with
  | null => cases h
  | _ =>
    obtain ⟨y, hy, heq⟩ := Option.map_eq_some_iff.1 h
    exact Option.some.inj heq ▸ hy

theorem nullable_ofJson (depth : Nat) {value : Json} (h : value ≠ .null) :
    decode.nullable depth (Document.ofJson value)
      = (decode depth (Document.ofJson value)).map some := by
  cases value with
  | null => exact absurd rfl h
  | _ => rfl

/-- What may be null is written as null where it is missing, and nowhere else. -/
theorem ReadsBack.nullable (h : decode.ReadsBack write)
    (hwrite : ∀ depth document x, decode.nullable depth document = some (some x) →
      write x ≠ .null) :
    decode.nullable.ReadsBack fun x => (x.map write).getD .null := by
  intro depth document x hx
  cases x with
  | none => rfl
  | some x =>
    have hread : decode depth (Document.ofJson (write x)) = some x :=
      h _ _ _ (nullable_eq_some hx)
    have hne : write x ≠ .null := hwrite _ _ _ hx
    exact (nullable_ofJson depth hne).trans (congrArg (Option.map some) hread)

/-! ### Maps -/

theorem exists_mem_of_entries {decode : Document → Option α}
    {fields : List (Option String × Document)} {pairs : List (String × α)}
    (h : entries decode fields = some pairs) :
    ∀ e ∈ pairs, ∃ document, decode document = some e.2 := by
  induction fields generalizing pairs with
  | nil =>
    obtain rfl := Option.some.inj h
    simp
  | cons field rest ih =>
    simp only [entries, Option.bind_eq_bind, Option.bind_eq_some_iff] at h
    obtain ⟨key, -, first, hfirst, others, hothers, h⟩ := h
    obtain rfl := Option.some.inj h
    rw [List.forall_mem_cons]
    exact ⟨⟨_, hfirst⟩, ih hothers⟩

theorem entries_ofEntries {decode : Document → Option α} {pairs : List (String × α)}
    (h : ∀ e ∈ pairs, decode (Document.ofJson (write e.2)) = some e.2) :
    entries decode (Document.ofEntries (pairs.map fun e => (e.1, write e.2))) = some pairs := by
  induction pairs with
  | nil => rfl
  | cons e rest ih =>
    rw [List.forall_mem_cons] at h
    rw [List.map_cons, Document.ofEntries, entries, h.1, ih h.2]
    rfl

/-- A map is read back if its values are: it is written sorted, with each key once. -/
theorem ReadsBack.map (h : decode.ReadsBack write) : decode.map.ReadsBack (Json.ofMap write) := by
  intro depth document m hm
  unfold Decoder.map at hm
  split at hm
  case h_1 below fields =>
    obtain ⟨pairs, hpairs, rfl⟩ := Option.map_eq_some_iff.1 hm
    have hvalues : ∀ e ∈ (SortedMap.ofList pairs).entries,
        decode below (Document.ofJson (write e.2)) = some e.2 := by
      intro e he
      rw [SortedMap.entries_ofList] at he
      obtain ⟨document, hdocument⟩ :=
        exists_mem_of_entries hpairs e (Json.mem_of_mem_sortFields he)
      exact h _ _ _ hdocument
    rw [Json.ofMap, Document.ofJson, Decoder.map, SortedMap.mapValues, entries_ofEntries hvalues,
      Option.map_some, SortedMap.ofList_entries]
  case h_2 => cases hm

/-- What a decoder reads from the value. -/
def ReadsAs (decode : Document → Option α) (value : Json) (x : α) : Prop :=
  decode (Document.ofJson value) = some x

theorem lookup_of_entries_ofEntries {decode : Document → Option α}
    {fields : List (String × Json)} {pairs : List (String × α)}
    (h : entries decode (Document.ofEntries fields) = some pairs) :
    Json.keys pairs = Json.keys fields ∧
      ∀ key, Option.Rel (ReadsAs decode) (fields.lookup key) (pairs.lookup key) := by
  induction fields generalizing pairs with
  | nil =>
    obtain rfl := Option.some.inj h
    exact ⟨rfl, fun _ => .none⟩
  | cons e rest ih =>
    obtain ⟨key', part⟩ := e
    simp only [Document.ofEntries, entries, Option.bind_eq_bind, Option.bind_eq_some_iff] at h
    obtain ⟨key, hkey, first, hfirst, others, hothers, h⟩ := h
    obtain rfl := Option.some.inj hkey
    obtain rfl := Option.some.inj h
    obtain ⟨hkeys, hlookup⟩ := ih hothers
    refine ⟨congrArg (key' :: ·) hkeys, fun key => ?_⟩
    rw [lookup_cons, lookup_cons]
    split
    case isTrue => exact .some hfirst
    case isFalse => exact hlookup key

/-- A map is read from an object, and each of its values from the entry of the key. -/
theorem map_ofJson {depth : Nat} {value : Json} {m : SortedMap α} (hnormal : value.Normal)
    (h : decode.map depth (Document.ofJson value) = some m) :
    ∃ below entries, depth = below + 1 ∧ value = .object entries ∧
      ∀ key, Option.Rel (ReadsAs (decode below)) (entries.lookup key) (m.get? key) := by
  cases depth with
  | zero => cases value <;> cases h
  | succ below =>
    cases value with
    | null | bool | number | string | array => cases h
    | object fields =>
      obtain ⟨pairs, hpairs, rfl⟩ := Option.map_eq_some_iff.1 h
      obtain ⟨hkeys, hlookup⟩ := lookup_of_entries_ofEntries hpairs
      have honce : (Json.keys pairs).Nodup := by
        rw [hkeys]
        exact Json.nodup_keys hnormal.1
      refine ⟨below, fields, rfl, rfl, fun key => ?_⟩
      rw [SortedMap.get?, SortedMap.entries_ofList, Json.lookup_sortFields honce]
      exact hlookup key

end Decoder

end FeatureFlags

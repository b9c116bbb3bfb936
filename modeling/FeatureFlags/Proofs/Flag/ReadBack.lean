import FeatureFlags.Flag.Evaluation
import FeatureFlags.Proofs.Json.ReadBack
import FeatureFlags.Proofs.Patch

/-!
Flag records survive writing and reading.

A flag without rules may be read from a null or from a missing field, and is written with a null; a
patch may be given a null for its rules or none at all, which is not the same, and is written with
those fields only that it carries; a status may be given as a name or as the key of an object.  In
each case the record that is read, from whatever layout, is the one that is read from what is
written for it, and says what the value says in the fields of the record.
-/

namespace FeatureFlags

open Document (ofJson)

variable {depth : Nat} {value : Json}

/-! ### Scalars and rules -/

namespace Scalar

theorem decode_ofJson (depth : Nat) (value : Json) :
    decode depth (ofJson value) = ofJson? value := by
  cases value <;> rfl

/-- A scalar is the value that it is read from. -/
theorem decode_ofJson_eq_some {scalar : Scalar} :
    decode depth (ofJson value) = some scalar ↔ value = scalar.toJson := by
  rw [decode_ofJson]
  constructor
  · exact fun h => (toJson_of_ofJson? h).symm
  · rintro rfl
    exact ofJson?_toJson scalar

theorem toJson_ne_null (scalar : Scalar) : scalar.toJson ≠ .null := by
  cases scalar <;> exact Json.noConfusion

theorem readsBack_decode : Decoder.ReadsBack decode toJson :=
  fun _ _ _ _ => decode_ofJson_eq_some.2 rfl

end Scalar

namespace Decoder

theorem readsBack_nullable_value :
    Decoder.value.nullable.ReadsBack fun rules => rules.getD .null := by
  have hwrite : ∀ depth document x, Decoder.value.nullable depth document = some (some x) →
      id x ≠ .null := by
    rintro depth document x hx rfl
    exact nullable_value_ne depth document hx
  intro depth document rules h
  have hread := readsBack_value.nullable hwrite depth document rules h
  rwa [Option.map_id] at hread

/-- Rules are read from a value that says them, and null says that there are none. -/
theorem nullable_value_ofJson {rules : Option Json} (hnormal : value.Normal)
    (h : Decoder.value.nullable depth (ofJson value) = some rules) : rules = value.nonNull? := by
  by_cases hnull : value = .null
  · subst hnull
    exact (Option.some.inj h).symm
  · rw [nullable_ofJson depth hnull] at h
    obtain ⟨read, hread, rfl⟩ := Option.map_eq_some_iff.1 h
    rw [Document.eq_of_toJson?_ofJson hnormal hread, Json.nonNull?_of_ne hnull]

end Decoder

/-! ### Flag rules -/

namespace FlagRule

variable {record written : Record} {rule : FlagRule} {names : List String}

theorem ofRecord?_eq_some :
    ofRecord? record = some rule ↔
      record.withDefault "rules" none Decoder.value.nullable = some rule.rules ∧
      record.withDefault "default" default Scalar.decode = some rule.defaultValue := by
  obtain ⟨rules, defaultValue⟩ := rule
  simp only [ofRecord?, Option.bind_eq_bind, Option.bind_eq_some_iff, Option.some.injEq, mk.injEq]
  constructor
  · rintro ⟨_, hrules, _, hdefault, rfl, rfl⟩
    exact ⟨hrules, hdefault⟩
  · rintro ⟨hrules, hdefault⟩
    exact ⟨_, hrules, _, hdefault, rfl, rfl⟩

/-- A rule is read back from a record that has its fields. -/
theorem ofRecord?_written (h : ofRecord? record = some rule) (hdepth : written.depth = record.depth)
    (hrules : written.fields.lookup "rules" = some (ofJson (rule.rules.getD .null)))
    (hdefault : written.fields.lookup "default" = some (ofJson rule.defaultValue.toJson)) :
    ofRecord? written = some rule := by
  obtain ⟨hgiven, hscalar⟩ := ofRecord?_eq_some.1 h
  rw [ofRecord?_eq_some, Record.withDefault_of_lookup hrules, Record.withDefault_of_lookup hdefault,
    hdepth]
  exact ⟨Decoder.readsBack_nullable_value.withDefault (fun _ => rfl) hgiven,
    Scalar.readsBack_decode.withDefault (fun _ => rfl) hscalar⟩

theorem readsBack_decode : Decoder.ReadsBack decode toJson := by
  intro depth document rule h
  obtain ⟨record, hrecord, hrule⟩ := Option.bind_eq_some_iff.1 h
  obtain rfl := Record.depth_of_read? hrecord
  have hkeys : (Json.keys rule.fields).Nodup := (by decide : fieldNames.Nodup)
  obtain ⟨written, hwritten, hdepth, hfields⟩ :=
    Record.exists_read?_ofFields hkeys fieldNames record.depth
  rw [decode, toJson, hwritten, Option.bind_some]
  exact ofRecord?_written hrule hdepth (hfields "rules" (by decide)) (hfields "default" (by decide))

/-- The rule says what the value says in the fields of a record with these names: rules that are
null are none, and a missing default is `false`. -/
structure ReadFrom (names : List String) (value : Json) (rule : FlagRule) : Prop where
  rules : rule.rules = (value.field? names "rules").bind Json.nonNull?
  defaultValue : rule.defaultValue.toJson = (value.field? names "default").getD (.bool false)

theorem readFrom_of_ofRecord? (hnormal : value.Normal)
    (hrecord : Record.read? names depth (ofJson value) = some record)
    (hrules : "rules" ∈ names) (hdefault : "default" ∈ names)
    (h : ofRecord? record = some rule) : rule.ReadFrom names value := by
  obtain ⟨hgiven, hscalar⟩ := ofRecord?_eq_some.1 h
  rw [Record.withDefault_eq_of_lookup (Record.lookup_of_read? hrecord hrules)] at hgiven
  rw [Record.withDefault_eq_of_lookup (Record.lookup_of_read? hrecord hdefault)] at hscalar
  constructor
  · cases hfield : value.field? names "rules" with
    | none =>
      rw [hfield] at hgiven
      exact (Option.some.inj hgiven).symm
    | some rules =>
      rw [hfield] at hgiven
      exact Decoder.nullable_value_ofJson (Json.normal_of_field? hnormal hfield) hgiven
  · cases hfield : value.field? names "default" with
    | none =>
      rw [hfield] at hscalar
      rw [← Option.some.inj hscalar]
      rfl
    | some scalar =>
      rw [hfield] at hscalar
      exact (Scalar.decode_ofJson_eq_some.1 hscalar).symm

/-- Rules that are null are as good as none. -/
theorem ofRecord?_congr (hdepth : written.depth = record.depth)
    (hrules : record.fields.lookup "rules" = none)
    (hnull : written.fields.lookup "rules" = some .null)
    (hdefault : written.fields.lookup "default" = record.fields.lookup "default") :
    ofRecord? written = ofRecord? record := by
  have hmissing : record.withDefault "rules" none Decoder.value.nullable = some none := by
    rw [Record.withDefault, hrules]
  have hcleared : written.withDefault "rules" none Decoder.value.nullable = some none :=
    Record.withDefault_of_lookup hnull none
  have hsame : written.withDefault "default" default Scalar.decode
      = record.withDefault "default" default Scalar.decode := by
    rw [Record.withDefault, Record.withDefault, hdefault, hdepth]
  rw [ofRecord?, ofRecord?, hmissing, hcleared, hsame]

end FlagRule

/-! ### Flags and flag maps -/

namespace Flag

variable {flag : Flag} {record : Record}

theorem decode_eq_some {document : Document} :
    decode depth document = some flag ↔
      ∃ record, Record.read? fieldNames depth document = some record ∧
        record.required "name" Decoder.string = some flag.name ∧
        FlagRule.ofRecord? record = some flag.rule := by
  obtain ⟨name, rule⟩ := flag
  simp only [decode, Option.bind_eq_bind, Option.bind_eq_some_iff, Option.some.injEq, mk.injEq]
  constructor
  · rintro ⟨record, hrecord, _, hname, _, hrule, rfl, rfl⟩
    exact ⟨record, hrecord, hname, hrule⟩
  · rintro ⟨record, hrecord, hname, hrule⟩
    exact ⟨record, hrecord, _, hname, _, hrule, rfl, rfl⟩

theorem readsBack_decode : Decoder.ReadsBack decode toJson := by
  intro depth document flag h
  obtain ⟨record, hrecord, hname, hrule⟩ := decode_eq_some.1 h
  obtain rfl := Record.depth_of_read? hrecord
  have hkeys : (Json.keys (("name", .string flag.name) :: flag.rule.fields)).Nodup :=
    (by decide : fieldNames.Nodup)
  obtain ⟨written, hwritten, hdepth, hfields⟩ :=
    Record.exists_read?_ofFields hkeys fieldNames record.depth
  refine decode_eq_some.2 ⟨written, hwritten, ?_, ?_⟩
  · rw [Record.required_of_lookup (hfields "name" (by decide))]
    rfl
  · exact FlagRule.ofRecord?_written hrule hdepth (hfields "rules" (by decide))
      (hfields "default" (by decide))

/-- The flag has the name of the value and its rule. -/
theorem readFrom_of_decode (hnormal : value.Normal) (h : decode depth (ofJson value) = some flag) :
    value.field? fieldNames "name" = some (.string flag.name) ∧
      flag.rule.ReadFrom fieldNames value := by
  obtain ⟨record, hrecord, hname, hrule⟩ := decode_eq_some.1 h
  constructor
  · obtain ⟨document, hdocument, hstring⟩ := Option.bind_eq_some_iff.1 hname
    rw [Record.lookup_of_read? hrecord (by decide)] at hdocument
    obtain ⟨name, hfield, rfl⟩ := Option.map_eq_some_iff.1 hdocument
    rw [hfield, Decoder.string_ofJson_eq_some.1 hstring]
  · exact FlagRule.readFrom_of_ofRecord? hnormal hrecord (by decide) (by decide) hrule

end Flag

theorem FlagMap.readsBack_decode : Decoder.ReadsBack FlagMap.decode FlagMap.toJson :=
  FlagRule.readsBack_decode.map

/-! ### Patches -/

namespace FlagPatch

variable {patch : FlagPatch} {record : Record}

/-- The rules of a patch, where the field is there. -/
def present : Decoder (Option (Option Json)) := fun depth document =>
  (Decoder.value.nullable depth document).map some

theorem decode_eq_some {document : Document} :
    decode depth document = some patch ↔
      ∃ record, Record.read? fieldNames depth document = some record ∧
        record.withDefault "rules" none present = some patch.rules ∧
        record.withDefault "default" none Scalar.decode.nullable = some patch.defaultValue := by
  obtain ⟨rules, defaultValue⟩ := patch
  simp only [decode, Option.bind_eq_bind, Option.bind_eq_some_iff, Option.some.injEq, mk.injEq]
  constructor
  · rintro ⟨record, hrecord, _, hrules, _, hdefault, rfl, rfl⟩
    exact ⟨record, hrecord, hrules, hdefault⟩
  · rintro ⟨record, hrecord, hrules, hdefault⟩
    exact ⟨record, hrecord, _, hrules, _, hdefault, rfl, rfl⟩

/-- The patch is written as the fields that it carries. -/
theorem exists_fields (patch : FlagPatch) :
    ∃ fields, patch.toJson = Json.ofFields fields ∧ (Json.keys fields).Nodup ∧
      fields.lookup "rules" = patch.rules.map (·.getD .null) ∧
      fields.lookup "default" = patch.defaultValue.map Scalar.toJson := by
  obtain ⟨rules, defaultValue⟩ := patch
  refine ⟨_, rfl, ?_⟩
  cases rules <;> cases defaultValue <;> exact ⟨by simp [Json.keys], rfl, rfl⟩

/-- Rules that the patch carries were given, as null or as a value. -/
theorem present_written {rules : Option Json}
    (h : record.withDefault "rules" none present = some (some rules)) :
    present record.depth (ofJson (rules.getD .null)) = some (some rules) := by
  rw [Record.withDefault] at h
  split at h
  · obtain ⟨given, hgiven, hsome⟩ := Option.map_eq_some_iff.1 h
    obtain rfl := Option.some.inj hsome
    exact congrArg (Option.map some) (Decoder.readsBack_nullable_value _ _ _ hgiven)
  · cases h

theorem readsBack_decode : Decoder.ReadsBack decode toJson := by
  intro depth document patch h
  obtain ⟨record, hrecord, hgiven, -⟩ := decode_eq_some.1 h
  obtain rfl := Record.depth_of_read? hrecord
  obtain ⟨fields, hjson, hkeys, hrules, hdefault⟩ := patch.exists_fields
  obtain ⟨written, hwritten, hdepth, hfields⟩ :=
    Record.exists_read?_ofFields hkeys fieldNames record.depth
  rw [hjson]
  refine decode_eq_some.2 ⟨written, hwritten, ?_, ?_⟩
  · rw [Record.withDefault_eq_of_lookup (hfields "rules" (by decide)), hrules, hdepth]
    cases hcarried : patch.rules with
    | none => rfl
    | some rules =>
      rw [hcarried] at hgiven
      exact present_written hgiven
  · rw [Record.withDefault_eq_of_lookup (hfields "default" (by decide)), hdefault]
    cases patch.defaultValue with
    | none => rfl
    | some scalar =>
      have hread : Scalar.decode written.depth (ofJson scalar.toJson) = some scalar :=
        Scalar.decode_ofJson_eq_some.2 rfl
      exact (Decoder.nullable_ofJson _ scalar.toJson_ne_null).trans
        (congrArg (Option.map some) hread)

/-- A patch carries the rules that the value has, null or not, and the default that it has, unless
this is null. -/
structure ReadFrom (value : Json) (patch : FlagPatch) : Prop where
  rules : patch.rules = (value.field? fieldNames "rules").map Json.nonNull?
  defaultValue : patch.defaultValue.map Scalar.toJson
    = (value.field? fieldNames "default").bind Json.nonNull?

theorem readFrom_of_decode (hnormal : value.Normal)
    (h : decode depth (ofJson value) = some patch) : patch.ReadFrom value := by
  obtain ⟨record, hrecord, hgiven, hscalar⟩ := decode_eq_some.1 h
  rw [Record.withDefault_eq_of_lookup (Record.lookup_of_read? hrecord (by decide))]
    at hgiven hscalar
  constructor
  · cases hfield : value.field? fieldNames "rules" with
    | none =>
      rw [hfield] at hgiven
      exact (Option.some.inj hgiven).symm
    | some rules =>
      rw [hfield] at hgiven
      obtain ⟨read, hread, hsome⟩ := Option.map_eq_some_iff.1 hgiven
      rw [← hsome,
        Decoder.nullable_value_ofJson (Json.normal_of_field? hnormal hfield) hread]
      rfl
  · cases hfield : value.field? fieldNames "default" with
    | none =>
      rw [hfield] at hscalar
      rw [← Option.some.inj hscalar]
      rfl
    | some scalar =>
      rw [hfield, Option.map_some, Option.getD_some] at hscalar
      by_cases hnull : scalar = .null
      · subst hnull
        rw [← Option.some.inj hscalar]
        rfl
      · rw [Decoder.nullable_ofJson _ hnull] at hscalar
        obtain ⟨read, hread, hsome⟩ := Option.map_eq_some_iff.1 hscalar
        rw [← hsome, Scalar.decode_ofJson_eq_some.1 hread, Option.map_some, Option.bind_some,
          Json.nonNull?_of_ne read.toJson_ne_null]

theorem isEmpty_iff : patch.isEmpty ↔ patch.rules = none ∧ patch.defaultValue = none := by
  rw [isEmpty, Bool.and_eq_true, Option.isNone_iff_eq_none, Option.isNone_iff_eq_none]

theorem ReadFrom.isEmpty_iff (h : patch.ReadFrom value) :
    patch.isEmpty ↔ value.field? fieldNames "rules" = none ∧
      (value.field? fieldNames "default").bind Json.nonNull? = none := by
  rw [FlagPatch.isEmpty_iff, h.rules, ← h.defaultValue, Option.map_eq_none_iff,
    Option.map_eq_none_iff]

/-- A patch that carries nothing is written without a field, and no other is. -/
theorem isEmpty_iff_toJson : patch.isEmpty ↔ patch.toJson = .object [] := by
  rw [isEmpty_iff]
  constructor
  · obtain ⟨rules, defaultValue⟩ := patch
    rintro ⟨rfl, rfl⟩
    rfl
  · intro hempty
    obtain ⟨fields, hjson, hkeys, hrules, hdefault⟩ := patch.exists_fields
    rw [hjson, Json.ofFields_eq, Json.object.injEq] at hempty
    -- a field that the patch carries would still be there when sorted
    have hmissing : ∀ field, fields.lookup field = none := by
      intro field
      rw [← Json.lookup_sortFields hkeys, hempty, List.lookup_nil]
    rw [hmissing] at hrules hdefault
    exact ⟨Option.map_eq_none_iff.1 hrules.symm, Option.map_eq_none_iff.1 hdefault.symm⟩

end FlagPatch

/-! ### Results -/

namespace EvaluationStatus

theorem decode_ofJson_name (depth : Nat) (status : EvaluationStatus) :
    decode depth (ofJson (.string status.name)) = some status := by
  cases status <;> rfl

theorem eq_name_of_lookup {s : String} {status : EvaluationStatus}
    (h : [("ok", ok), ("error", error)].lookup s = some status) : s = status.name := by
  rw [lookup_cons, lookup_cons] at h
  split at h
  case isTrue heq =>
    obtain rfl := Option.some.inj h
    exact heq
  case isFalse =>
    split at h
    case isTrue heq =>
      obtain rfl := Option.some.inj h
      exact heq
    case isFalse => cases h

/-- A status is given by its name, or by an object with the name for its only key and null under
it. -/
theorem of_decode_ofJson {status : EvaluationStatus}
    (h : decode depth (ofJson value) = some status) :
    value = .string status.name ∨ value = .object [(status.name, .null)] := by
  cases value with
  | null | bool | number | array => cases h
  | string s => exact .inl (congrArg Json.string (eq_name_of_lookup h))
  | object entries =>
    unfold decode Decoder.name at h
    split at h
    case h_1 heq => cases heq
    case h_2 key heq =>
      obtain rfl := Document.eq_of_ofEntries_eq (Document.object.inj heq)
      rw [eq_name_of_lookup h]
      exact .inr rfl
    case h_3 => cases h

end EvaluationStatus

namespace EvaluationResult

variable {result : EvaluationResult}

theorem decode_eq_some {document : Document} :
    decode depth document = some result ↔
      ∃ record, Record.read? fieldNames depth document = some record ∧
        record.required "value" Scalar.decode = some result.value ∧
        record.required "status" EvaluationStatus.decode = some result.status ∧
        record.required "reason" Decoder.string = some result.reason := by
  obtain ⟨scalar, status, reason⟩ := result
  simp only [decode, Option.bind_eq_bind, Option.bind_eq_some_iff, Option.some.injEq, mk.injEq]
  constructor
  · rintro ⟨record, hrecord, _, hscalar, _, hstatus, _, hreason, rfl, rfl, rfl⟩
    exact ⟨record, hrecord, hscalar, hstatus, hreason⟩
  · rintro ⟨record, hrecord, hscalar, hstatus, hreason⟩
    exact ⟨record, hrecord, _, hscalar, _, hstatus, _, hreason, rfl, rfl, rfl⟩

theorem readsBack_decode : Decoder.ReadsBack decode toJson := by
  intro depth document result h
  obtain ⟨record, hrecord, -⟩ := decode_eq_some.1 h
  obtain rfl := Record.depth_of_read? hrecord
  have hkeys : (Json.keys [("value", result.value.toJson), ("status", .string result.status.name),
      ("reason", .string result.reason)]).Nodup := (by decide : fieldNames.Nodup)
  obtain ⟨written, hwritten, -, hfields⟩ :=
    Record.exists_read?_ofFields hkeys fieldNames record.depth
  refine decode_eq_some.2 ⟨written, hwritten, ?_, ?_, ?_⟩
  · rw [Record.required_of_lookup (hfields "value" (by decide)), Scalar.decode_ofJson_eq_some]
  · rw [Record.required_of_lookup (hfields "status" (by decide)),
      EvaluationStatus.decode_ofJson_name]
  · rw [Record.required_of_lookup (hfields "reason" (by decide)), Decoder.string_ofJson_eq_some]

/-- The result has the value, the status and the reason of the value. -/
structure ReadFrom (value : Json) (result : EvaluationResult) : Prop where
  scalar : value.field? fieldNames "value" = some result.value.toJson
  status : ∃ status, value.field? fieldNames "status" = some status ∧
    (status = .string result.status.name ∨ status = .object [(result.status.name, .null)])
  reason : value.field? fieldNames "reason" = some (.string result.reason)

theorem readFrom_of_decode (h : decode depth (ofJson value) = some result) :
    result.ReadFrom value := by
  obtain ⟨record, hrecord, hscalar, hstatus, hreason⟩ := decode_eq_some.1 h
  obtain ⟨scalar, hfield, hscalar⟩ :=
    Record.exists_field?_of_required hrecord (by decide) hscalar
  obtain ⟨status, hfield', hstatus⟩ :=
    Record.exists_field?_of_required hrecord (by decide) hstatus
  obtain ⟨reason, hfield'', hreason⟩ :=
    Record.exists_field?_of_required hrecord (by decide) hreason
  rw [Scalar.decode_ofJson_eq_some] at hscalar
  rw [Decoder.string_ofJson_eq_some] at hreason
  exact ⟨hscalar ▸ hfield, ⟨status, hfield', EvaluationStatus.of_decode_ofJson hstatus⟩,
    hreason ▸ hfield''⟩

end EvaluationResult

/-! ### Rules that are null -/

/-- The values have the same fields but for the rules, which the one does not have and of which the
other says that they are null. -/
structure ClearedBy (names : List String) (value cleared : Json) : Prop where
  recordLike : value.RecordLike names
  recordLike' : cleared.RecordLike names
  missing : value.field? names "rules" = none
  null : cleared.field? names "rules" = some .null
  others : ∀ name ∈ names, name ≠ "rules" → cleared.field? names name = value.field? names name

theorem ClearedBy.exists_read? {names : List String} {cleared : Json}
    (h : ClearedBy names value cleared) (below : Nat) :
    ∃ record written, Record.read? names (below + 1) (ofJson value) = some record ∧
      Record.read? names (below + 1) (ofJson cleared) = some written ∧
      written.depth = record.depth ∧
      (∀ name ∈ names, name ≠ "rules" →
        written.fields.lookup name = record.fields.lookup name) ∧
      ("rules" ∈ names → "default" ∈ names →
        FlagRule.ofRecord? written = FlagRule.ofRecord? record) := by
  obtain ⟨record, hrecord, hdepth⟩ := Record.exists_read? h.recordLike below
  obtain ⟨written, hwritten, hdepth'⟩ := Record.exists_read? h.recordLike' below
  have hsame : ∀ name ∈ names, name ≠ "rules" →
      written.fields.lookup name = record.fields.lookup name := by
    intro name hname hother
    rw [Record.lookup_of_read? hwritten hname, Record.lookup_of_read? hrecord hname,
      h.others name hname hother]
  refine ⟨record, written, hrecord, hwritten, hdepth'.trans hdepth.symm, hsame, ?_⟩
  intro hrules hdefault
  apply FlagRule.ofRecord?_congr (hdepth'.trans hdepth.symm)
  · rw [Record.lookup_of_read? hrecord hrules, h.missing, Option.map_none]
  · rw [Record.lookup_of_read? hwritten hrules, h.null]
    rfl
  · exact hsame "default" hdefault (by decide)

theorem FlagRule.decode_cleared {cleared : Json} (h : ClearedBy fieldNames value cleared)
    (depth : Nat) : decode depth (ofJson cleared) = decode depth (ofJson value) := by
  cases depth with
  | zero => rw [decode, decode, Record.read?_zero, Record.read?_zero]
  | succ below =>
    obtain ⟨record, written, hrecord, hwritten, -, -, hrule⟩ := h.exists_read? below
    rw [decode, decode, hrecord, hwritten, Option.bind_some, Option.bind_some]
    exact hrule (by decide) (by decide)

theorem Flag.decode_cleared {cleared : Json} (h : ClearedBy fieldNames value cleared)
    (depth : Nat) : decode depth (ofJson cleared) = decode depth (ofJson value) := by
  cases depth with
  | zero => rw [decode, decode, Record.read?_zero, Record.read?_zero]
  | succ below =>
    obtain ⟨record, written, hrecord, hwritten, hdepth, hsame, hrule⟩ := h.exists_read? below
    have hname : written.required "name" Decoder.string
        = record.required "name" Decoder.string := by
      rw [Record.required, Record.required, hdepth, hsame "name" (by decide) (by decide)]
    rw [decode, decode, hrecord, hwritten, Option.bind_eq_bind, Option.bind_some,
      Option.bind_eq_bind, Option.bind_some, hname, hrule (by decide) (by decide)]

/-! ### All records -/

namespace Flag

/-- **Flag records survive**: a flag rule, a flag, a map of flags, a patch and a result that are
read from a document are read from what is written for them, and then written in the same way again.
They say what the value says of which they are read: rules that are null or missing are no rules, a
missing default is `false`, a patch carries the rules that are given, even if they are null, and the
default that is given unless it is null, and is empty if it carries neither.  A scalar is the very
value that it is read from.  Null rules of a flag are read like missing ones; a patch with null
rules, one with only a default and one with neither are three patches, of which the last alone is
empty, and stay so. -/
theorem records_survive :
    (Decoder.Survives FlagRule.decode FlagRule.toJson ∧ Decoder.Survives decode toJson ∧
      Decoder.Survives FlagMap.decode FlagMap.toJson ∧
      Decoder.Survives FlagPatch.decode FlagPatch.toJson ∧
      Decoder.Survives EvaluationResult.decode EvaluationResult.toJson) ∧
    (∀ (depth : Nat) (value : Json), value.Normal →
      (∀ rule, FlagRule.decode depth (ofJson value) = some rule →
        rule.ReadFrom FlagRule.fieldNames value) ∧
      (∀ flag, decode depth (ofJson value) = some flag →
        value.field? fieldNames "name" = some (.string flag.name) ∧
          flag.rule.ReadFrom fieldNames value) ∧
      (∀ flags, FlagMap.decode depth (ofJson value) = some flags →
        ∃ below entries, depth = below + 1 ∧ value = .object entries ∧
          ∀ name, Option.Rel (Decoder.ReadsAs (FlagRule.decode below)) (entries.lookup name)
            (flags.get? name)) ∧
      (∀ patch, FlagPatch.decode depth (ofJson value) = some patch →
        patch.ReadFrom value ∧
          (patch.isEmpty ↔ value.field? FlagPatch.fieldNames "rules" = none ∧
            (value.field? FlagPatch.fieldNames "default").bind Json.nonNull? = none)) ∧
      (∀ result, EvaluationResult.decode depth (ofJson value) = some result →
        result.ReadFrom value)) ∧
    (∀ (depth : Nat) (value : Json) (scalar : Scalar),
      Scalar.decode depth (ofJson value) = some scalar ↔ value = scalar.toJson) ∧
    (∀ (depth : Nat) (value cleared : Json),
      (ClearedBy FlagRule.fieldNames value cleared →
        FlagRule.decode depth (ofJson cleared) = FlagRule.decode depth (ofJson value)) ∧
      (ClearedBy fieldNames value cleared →
        decode depth (ofJson cleared) = decode depth (ofJson value))) ∧
    ∀ (depth : Nat) (scalar : Scalar),
      let clear : FlagPatch := ⟨some none, none⟩
      let set : FlagPatch := ⟨none, some scalar⟩
      let neither : FlagPatch := ⟨none, none⟩
      [clear, set, neither].map FlagPatch.toJson
        = [.object [("rules", .null)], .object [("default", scalar.toJson)], .object []] ∧
      (∀ patch ∈ [clear, set, neither],
        FlagPatch.decode (depth + 1) (ofJson patch.toJson) = some patch) ∧
      [clear, set, neither].Nodup ∧
      ∀ patch : FlagPatch,
        (patch.isEmpty ↔ patch = neither) ∧ (patch.isEmpty ↔ patch.toJson = .object []) := by
  refine ⟨?_, ?_, ?_, ?_, ?_⟩
  · exact ⟨FlagRule.readsBack_decode.survives, readsBack_decode.survives,
      FlagMap.readsBack_decode.survives, FlagPatch.readsBack_decode.survives,
      EvaluationResult.readsBack_decode.survives⟩
  · intro depth value hnormal
    refine ⟨fun rule h => ?_, fun flag h => readFrom_of_decode hnormal h,
      fun flags h => Decoder.map_ofJson hnormal h, fun patch h => ?_,
      fun result h => EvaluationResult.readFrom_of_decode h⟩
    · obtain ⟨record, hrecord, hrule⟩ := Option.bind_eq_some_iff.1 h
      exact FlagRule.readFrom_of_ofRecord? hnormal hrecord (by decide) (by decide) hrule
    · have hread := FlagPatch.readFrom_of_decode hnormal h
      exact ⟨hread, hread.isEmpty_iff⟩
  · exact fun depth value scalar => Scalar.decode_ofJson_eq_some
  · exact fun depth value cleared =>
      ⟨fun h => FlagRule.decode_cleared h depth, fun h => decode_cleared h depth⟩
  · intro depth scalar clear set neither
    refine ⟨rfl, ?_, by simp [clear, set, neither], fun patch => ⟨?_, ?_⟩⟩
    · intro patch hpatch
      obtain rfl | rfl | rfl : patch = clear ∨ patch = set ∨ patch = neither := by
        simpa using hpatch
      · rfl
      · cases scalar <;> rfl
      · rfl
    · rw [FlagPatch.isEmpty_iff]
      obtain ⟨rules, defaultValue⟩ := patch
      simp [neither]
    · exact FlagPatch.isEmpty_iff_toJson

/-- A flag given as an array, and two objects of which the second has null rules; a status that is
given as a key; and a patch with null for both fields. -/
theorem records_survive_layouts :
    let tree : Json := .object [("var", .string "plan")]
    let given : Json := .array [.string "beta", tree, .bool true]
    let flag : Flag := ⟨"beta", ⟨some tree, .bool true⟩⟩
    let named : Json := .object [("name", .string "beta")]
    let cleared : Json := .object [("name", .string "beta"), ("rules", .null)]
    let result : Json := .object
      [("reason", .string ""), ("status", .object [("ok", .null)]), ("value", .bool true)]
    let patch : Json := .object [("default", .null), ("rules", .null)]
    (decode 3 (ofJson given) = some flag ∧ decode 3 (ofJson flag.toJson) = some flag) ∧
    decode 1 (ofJson cleared) = decode 1 (ofJson named) ∧
    EvaluationResult.decode 2 (ofJson (EvaluationResult.success (.bool true)).toJson)
      = EvaluationResult.decode 2 (ofJson result) ∧
    ∃ carried, FlagPatch.decode 1 (ofJson patch) = some carried ∧ carried.rules = some none ∧
      ¬carried.isEmpty := by
  intro tree given flag named cleared result patch
  obtain ⟨⟨-, hflag, -, -, hresult⟩, hread, -, hcleared, -⟩ := records_survive
  have hdecoded : decode 3 (ofJson given) = some flag := rfl
  have hsuccess : EvaluationResult.decode 2 (ofJson result) = some (.success (.bool true)) := rfl
  have hpatch : FlagPatch.decode 1 (ofJson patch) = some ⟨some none, none⟩ := rfl
  refine ⟨⟨hdecoded, (hflag 3 _ _ hdecoded).1⟩, ?_, ?_, _, hpatch, rfl, ?_⟩
  · refine (hcleared 1 named cleared).2 ⟨?_, ?_, rfl, rfl, ?_⟩
    · exact (by decide : ["name"].Nodup)
    · exact (by decide : ["name", "rules"].Nodup)
    · intro name hname hother
      obtain rfl | rfl : name = "name" ∨ name = "default" := by
        simpa [fieldNames, hother] using hname
      · rfl
      · rfl
  · rw [hsuccess, (hresult 2 _ _ hsuccess).1]
  · obtain ⟨-, -, -, hpatches, -⟩ := hread 1 patch ⟨by decide, trivial, trivial, trivial⟩
    rw [(hpatches _ hpatch).2]
    rintro ⟨hnone, -⟩
    cases hnone

end Flag

end FeatureFlags

import FeatureFlags.Proofs.Concurrent.Independence
import FeatureFlags.Proofs.Json.Record

/-!
Patches overwrite the fields that they carry.

A patch is read from an object, which may give a field, give it as null, or leave it out.  For the
rules null is a value like others, that of a flag without rules; for the default it is as good as
no field.  `FlagPatch.decode_eq` says which patch the entries of an object make, and with that the
patched record is the record with these entries written over its own.  The patched flag is stored
and handed back, and it is all that changes (`Propagation.run_patch`).
-/

namespace FeatureFlags

namespace Json

/-- The value, unless it is null. -/
def nonNull? : Json → Option Json
  | .null => none
  | value => some value

theorem nonNull?_of_ne {value : Json} (h : value ≠ .null) : value.nonNull? = some value := by
  cases value with
  | null => exact absurd rfl h
  | _ => rfl

theorem nullable_some (value : Json) : value.nullable some = some value.nonNull? := by
  cases value <;> rfl

theorem getD_nonNull? (value : Json) : value.nonNull?.getD .null = value := by
  cases value <;> rfl

/-- The object with a value written to a field, if there is a value. -/
def overwrite (object : Json) (field : String) (value : Option Json) : Json :=
  match object, value with
  | .object entries, some value => .object (insertEntry field value entries)
  | object, _ => object

end Json

namespace Scalar

theorem reads_decode : Decoder.Reads Scalar.decode Scalar.ofJson? := by
  intro depth document value hvalue
  cases document with
  | null | bool =>
    obtain rfl := Option.some.inj hvalue
    rfl
  | number | string =>
    obtain ⟨_, rfl, rfl⟩ := Option.map_eq_some_iff.1 hvalue
    rfl
  | array | object =>
    rw [Document.HasValue, Document.toJson?] at hvalue
    split at hvalue
    · cases hvalue
    · obtain ⟨_, -, rfl⟩ := Option.map_eq_some_iff.1 hvalue
      rfl

theorem toJson_of_ofJson? {value : Json} {scalar : Scalar} (h : ofJson? value = some scalar) :
    scalar.toJson = value := by
  cases value with
  | bool | number | string =>
    obtain rfl := Option.some.inj h
    rfl
  | null | array | object => cases h

end Scalar

/-! ### Written records -/

namespace FlagRule

theorem default_lt_rules : "default" < "rules" := by
  decide

/-- A record, as it is written. -/
def written (rules defaultValue : Json) : Json :=
  .object [("default", defaultValue), ("rules", rules)]

theorem toJson_eq (rule : FlagRule) :
    rule.toJson = written (rule.rules.getD .null) rule.defaultValue.toJson := by
  rw [toJson, fields, Json.ofFields, List.foldl_cons, List.foldl_cons, List.foldl_nil, insertEntry,
    insertEntry, if_pos default_lt_rules, written]

theorem overwrite_rules (rules defaultValue : Json) (value : Option Json) :
    (written rules defaultValue).overwrite "rules" value
      = written (value.getD rules) defaultValue := by
  cases value with
  | none => rfl
  | some value =>
    have hnot : ¬"rules" < "default" := String.lt_asymm default_lt_rules
    rw [written, Json.overwrite, insertEntry, if_neg hnot, if_pos default_lt_rules, insertEntry,
      if_neg (String.lt_irrefl _), if_neg (String.lt_irrefl _), Option.getD_some, written]

theorem overwrite_default (rules defaultValue : Json) (value : Option Json) :
    (written rules defaultValue).overwrite "default" value
      = written rules (value.getD defaultValue) := by
  cases value with
  | none => rfl
  | some value =>
    rw [written, Json.overwrite, insertEntry, if_neg (String.lt_irrefl _),
      if_neg (String.lt_irrefl _), Option.getD_some, written]

end FlagRule

namespace FlagPatch

/-! ### Reading patches -/

variable {depth : Nat} {fields : List (Option String × Document)}
  {entries : List (String × Json)} {patch : FlagPatch}

/-- The default that the entries of an object give; null gives none, as if it were left out. -/
def readDefault (entries : List (String × Json)) : Option (Option Scalar) :=
  ((entries.lookup "default").map (Json.nullable Scalar.ofJson?)).getD (some none)

/-- The rules that the entries give, which are cleared by null. -/
def readRules (entries : List (String × Json)) : Option (Option Json) :=
  (entries.lookup "rules").map Json.nonNull?

/-- A patch is read from the entries of the object. -/
theorem decode_eq (h : Document.Spells depth fields entries) :
    decode depth (.object fields)
      = (readDefault entries).map fun value => ⟨readRules entries, value⟩ := by
  obtain ⟨record, hrecord, hfields⟩ := h.exists_record fieldNames
  have hrules : record.withDefault "rules" none
      (fun depth document => (Decoder.value.nullable depth document).map some)
        = some (readRules entries) := by
    rw [Record.withDefault_eq (Decoder.reads_value.nullable.map some) (hfields "rules" (by decide)),
      readRules]
    cases entries.lookup "rules" with
    | none => rfl
    | some value => exact congrArg (Option.map some) value.nullable_some
  have hdefault : record.withDefault "default" none Scalar.decode.nullable = readDefault entries :=
    Record.withDefault_eq Scalar.reads_decode.nullable (hfields "default" (by decide)) none
  rw [decode, hrecord, Option.bind_eq_bind, Option.bind_some, hrules, Option.bind_eq_bind,
    Option.bind_some, hdefault]
  cases readDefault entries <;> rfl

/-- The kind of the default alone decides whether there is a patch. -/
theorem exists_decode_iff (h : Document.Spells depth fields entries) :
    (∃ patch, decode depth (.object fields) = some patch) ↔
      ∀ value, entries.lookup "default" = some value →
        value.kind ∈ [.null, .boolean, .number, .string] := by
  rw [decode_eq h, readDefault]
  cases entries.lookup "default" with
  | none => simp
  | some value =>
    cases value <;> simp [Json.nullable, Scalar.ofJson?, Json.kind]

theorem toJson_readDefault {value : Option Scalar} (h : readDefault entries = some value)
    (kept : Scalar) :
    (value.getD kept).toJson
      = ((entries.lookup "default").bind Json.nonNull?).getD kept.toJson := by
  rw [readDefault] at h
  cases hlookup : entries.lookup "default" with
  | none =>
    rw [hlookup] at h
    obtain rfl := Option.some.inj h
    rfl
  | some given =>
    rw [hlookup, Option.map_some, Option.getD_some] at h
    rw [Option.bind_some]
    by_cases hnull : given = .null
    · -- null keeps the default, on both sides
      subst hnull
      obtain rfl := Option.some.inj h
      rfl
    · rw [Json.nullable_of_ne _ hnull] at h
      obtain ⟨scalar, hscalar, rfl⟩ := Option.map_eq_some_iff.1 h
      rw [Json.nonNull?_of_ne hnull, Option.getD_some, Option.getD_some,
        Scalar.toJson_of_ofJson? hscalar]

theorem getD_readRules (entries : List (String × Json)) (kept : Option Json) :
    ((readRules entries).getD kept).getD .null
      = (entries.lookup "rules").getD (kept.getD .null) := by
  rw [readRules]
  cases entries.lookup "rules" with
  | none => rfl
  | some value => exact value.getD_nonNull?

/-- The patched record is written as the record with the entries over its own. -/
theorem toJson_apply (h : Document.Spells depth fields entries)
    (hpatch : decode depth (.object fields) = some patch) (rule : FlagRule) :
    (patch.apply rule).toJson
      = (rule.toJson.overwrite "rules" (entries.lookup "rules")).overwrite "default"
          ((entries.lookup "default").bind Json.nonNull?) := by
  rw [decode_eq h] at hpatch
  obtain ⟨value, hvalue, rfl⟩ := Option.map_eq_some_iff.1 hpatch
  rw [FlagRule.toJson_eq, FlagRule.toJson_eq, FlagRule.overwrite_rules, FlagRule.overwrite_default,
    apply, getD_readRules, toJson_readDefault hvalue]

/-! ### Patches one after the other -/

/-- The patch that carries the fields of the later one, and those of the earlier one beside them. -/
def followedBy (first next : FlagPatch) : FlagPatch :=
  ⟨next.rules.or first.rules, next.defaultValue.or first.defaultValue⟩

theorem apply_followedBy (first next : FlagPatch) (rule : FlagRule) :
    (first.followedBy next).apply rule = next.apply (first.apply rule) := by
  rw [apply, apply, apply, followedBy, Option.getD_or, Option.getD_or]

theorem followedBy_self (patch : FlagPatch) : patch.followedBy patch = patch := by
  rw [followedBy, Option.or_self, Option.or_self]

/-- Of a field that both carry the order decides; there is none. -/
theorem Disjoint.followedBy_comm {first next : FlagPatch} (h : first.Disjoint next) :
    first.followedBy next = next.followedBy first := by
  obtain ⟨rules, value⟩ := first
  obtain ⟨rules', value'⟩ := next
  obtain ⟨hrules, hvalue⟩ := h
  cases rules <;> cases rules' <;> cases value <;> cases value' <;> simp_all [followedBy]

end FlagPatch

/-! ### Patches of stored flags -/

namespace Store

variable {s s' : Store} {holder : Holder} {flag : String} {changes : FlagPatch}
  {rule result : FlagRule} {now : Timestamp}

/-- Patches a flag of a project, or of an environment, and returns the new rule. -/
def patchFlag (s : Store) (holder : Holder) (flag : String) (changes : FlagPatch)
    (now : Timestamp) : Except StoreError (FlagRule × Store) :=
  match holder with
  | .project name => s.patchProjectFlag name flag changes now
  | .environment id => s.patchEnvironmentFlag id flag changes now

/-- The flag is patched, and nothing else is changed. -/
theorem assigned_of_patchFlag (h : s.patchFlag holder flag changes now = .ok (result, s')) :
    ∃ rule, s.flag holder flag = some rule ∧ result = changes.apply rule ∧
      Assigned (· = holder) flag (some (changes.apply rule)) s s' := by
  cases holder with
  | project name =>
    obtain ⟨project, rule, hp, hrule, rfl, rfl⟩ := patchProjectFlag_eq_ok.1 h
    exact ⟨rule, (projectFlag_eq hp flag).trans hrule, rfl, assigned_project hp flag _ now⟩
  | environment id =>
    obtain ⟨e, rule, he, hrule, rfl, rfl⟩ := patchEnvironmentFlag_eq_ok.1 h
    exact ⟨rule, (environmentFlag_eq he flag).trans hrule, rfl, assigned_environment he flag _ now⟩

/-- A flag that is there can be patched. -/
theorem exists_patchFlag (h : s.flag holder flag = some rule) (changes : FlagPatch)
    (now : Timestamp) :
    ∃ s', s.patchFlag holder flag changes now = .ok (changes.apply rule, s') := by
  cases holder with
  | project name =>
    obtain ⟨flags, hflags, hrule⟩ := Option.bind_eq_some_iff.1 h
    obtain ⟨project, hp, rfl⟩ := Option.map_eq_some_iff.1 hflags
    exact ⟨_, patchProjectFlag_eq_ok.2 ⟨project, rule, hp, hrule, rfl, rfl⟩⟩
  | environment id =>
    obtain ⟨flags, hflags, hrule⟩ := Option.bind_eq_some_iff.1 h
    obtain ⟨e, he, rfl⟩ := Option.map_eq_some_iff.1 hflags
    exact ⟨_, patchEnvironmentFlag_eq_ok.2 ⟨e, rule, he, hrule, rfl, rfl⟩⟩

/-- Every other flag says what it said. -/
theorem Assigned.flag_eq {holders : Holder → Prop} {rule : Option FlagRule}
    (h : Assigned holders flag rule s s') {other : Holder} {name : String}
    (hother : ¬(holders other ∧ name = flag)) : s'.flag other name = s.flag other name := by
  apply flag_eq_of_read_eq
  intro facet
  apply h.elsewhere
  rintro holder facet' hholder heq
  obtain ⟨rfl, rfl, -⟩ := Field.flag.inj heq
  exact hother ⟨hholder, rfl⟩

end Store

namespace Propagation

open Store

variable (supply : Supply) (p : ServiceState)

/-- Patches a flag of a project, or of an environment. -/
def patch : Holder → String → FlagPatch → Action Flag
  | .project name, flag, changes => Propagation.patchFlag name flag changes
  | .environment id, flag, changes => Propagation.patchEnvironmentFlag id flag changes

/-- A patch is one request to the store. -/
theorem patch_cases (holder : Holder) (flag : String) (changes : FlagPatch) :
    (∃ result s', p.store.patchFlag holder flag changes (supply.reading p.steps 0)
        = .ok (result, s') ∧
      (patch holder flag changes).run supply p = (.ok ⟨flag, result⟩, p.after s')) ∨
    ∃ e, (p.faults = [] → p.store.patchFlag holder flag changes (supply.reading p.steps 0)
        = .error e) ∧
      (patch holder flag changes).run supply p = (.error (.ofStore e), p.after p.store) := by
  cases holder with
  | project name =>
    exact Action.run_store supply (Propagation.patchFlag name flag changes) rfl p
  | environment id =>
    exact Action.run_store supply (Propagation.patchEnvironmentFlag id flag changes) rfl p

/-- The flag is there, and is patched and handed back, or the patch fails and changes nothing. -/
theorem run_patch (holder : Holder) (flag : String) (changes : FlagPatch) :
    (∃ rule s', p.store.flag holder flag = some rule ∧
      (patch holder flag changes).run supply p = (.ok ⟨flag, changes.apply rule⟩, p.after s') ∧
      Assigned (· = holder) flag (some (changes.apply rule)) p.store s') ∨
    ∃ e, (p.faults = [] → p.store.flag holder flag = none) ∧
      (patch holder flag changes).run supply p = (.error (.ofStore e), p.after p.store) := by
  obtain ⟨result, s', hs, hrun⟩ | ⟨e, hs, hrun⟩ := patch_cases supply p holder flag changes
  · obtain ⟨rule, hrule, rfl, hassigned⟩ := assigned_of_patchFlag hs
    exact .inl ⟨rule, s', hrule, hrun, hassigned⟩
  · -- were the flag there, a store without faults would have patched it
    refine .inr ⟨e, fun hfaults => ?_, hrun⟩
    cases hrule : p.store.flag holder flag with
    | none => rfl
    | some rule =>
      obtain ⟨s', hok⟩ := exists_patchFlag hrule changes (supply.reading p.steps 0)
      cases (hs hfaults).symm.trans hok

end Propagation

namespace FlagPatch

/-- **Patches overwrite what they carry**: the object of a patch makes one exactly if its default is
absent, null or a scalar, and a record that is patched with it is written as the record with the
rules of the object, if it has them, and its default, if that is not null, in the place of its own.
A patch that is applied once more changes nothing, two of them are the one with the fields of the
later one and those of the earlier one beside them, and their order does not count if they have no
field in common.  A flag that is patched in a store is handed back as it is then stored, and is all
that changes; and a patch that fails has changed nothing. -/
theorem patches_overwrite :
    (∀ (depth : Nat) (fields : List (Option String × Document)) (entries : List (String × Json)),
      Document.Spells depth fields entries →
      ((∃ patch, decode depth (.object fields) = some patch) ↔
        ∀ value, entries.lookup "default" = some value →
          value.kind ∈ [.null, .boolean, .number, .string]) ∧
      ∀ (patch : FlagPatch) (rule : FlagRule), decode depth (.object fields) = some patch →
        (patch.apply rule).toJson
          = (rule.toJson.overwrite "rules" (entries.lookup "rules")).overwrite "default"
              ((entries.lookup "default").bind Json.nonNull?)) ∧
    (∀ entries : List (String × Json), (Json.object entries).Normal →
      ∀ depth, (Json.object entries).nesting ≤ depth →
        Document.Spells depth (Document.ofEntries entries) entries) ∧
    (∀ (first next : FlagPatch) (rule : FlagRule),
      first.apply (first.apply rule) = first.apply rule ∧
      next.apply (first.apply rule) = (first.followedBy next).apply rule ∧
      (first.Disjoint next → next.apply (first.apply rule) = first.apply (next.apply rule))) ∧
    ∀ (supply : Supply) (p : ServiceState) (holder : Holder) (flag : String)
      (changes : FlagPatch),
      (∃ rule p', p.store.flag holder flag = some rule ∧
        (Propagation.patch holder flag changes).run supply p
          = (.ok ⟨flag, changes.apply rule⟩, p') ∧
        p'.store.flag holder flag = some (changes.apply rule) ∧
        (∀ other name, ¬(other = holder ∧ name = flag) →
          p'.store.flag other name = p.store.flag other name) ∧
        ∀ field, (∀ facet, field ≠ .flag holder flag facet) →
          p'.store.read field = p.store.read field) ∨
      ∃ error p', (p.faults = [] → p.store.flag holder flag = none) ∧
        (Propagation.patch holder flag changes).run supply p = (.error error, p') ∧
        p'.store = p.store := by
  refine ⟨?_, ?_, ?_, ?_⟩
  · exact fun depth fields entries h =>
      ⟨exists_decode_iff h, fun patch rule hpatch => toJson_apply h hpatch rule⟩
  · exact fun entries hnormal depth hdepth => Document.spells_ofEntries hnormal hdepth
  · intro first next rule
    refine ⟨?_, ?_, fun hdisjoint => ?_⟩
    · rw [← apply_followedBy, followedBy_self]
    · rw [apply_followedBy]
    · rw [← apply_followedBy, ← apply_followedBy, hdisjoint.followedBy_comm]
  · intro supply p holder flag changes
    obtain ⟨rule, s', hrule, hrun, hassigned⟩ | ⟨e, hnone, hrun⟩ :=
      Propagation.run_patch supply p holder flag changes
    · refine .inl ⟨rule, p.after s', hrule, hrun, hassigned.there holder rfl, ?_, ?_⟩
      · exact fun other name hother => hassigned.flag_eq hother
      · refine fun field hfield => hassigned.elsewhere field fun other facet hother => ?_
        rw [hother]
        exact hfield facet
    · exact .inr ⟨_, _, hnone, hrun, rfl⟩

/-- An object with both fields null, which clears the rules and keeps the default; one with an array
for its default; and the first patch on a flag of a project, which has an environment with the same
flag. -/
theorem patches_overwrite_null :
    let rule : FlagRule := ⟨some (.string "a"), .bool true⟩
    let clearing : List (String × Json) := [("default", .null), ("rules", .null)]
    let malformed : List (String × Json) := [("default", .array [])]
    let clear : FlagPatch := ⟨some none, none⟩
    let disable : FlagPatch := ⟨none, some (.bool false)⟩
    let service : ServiceState :=
      ((Command.addFlag "shop" ⟨"beta", rule⟩).program.run Supply.counting .shopTest).2
    (∃ patch, decode 1 (.object (Document.ofEntries clearing)) = some patch ∧
      (patch.apply rule).toJson = .object [("default", .bool true), ("rules", .null)]) ∧
    (¬∃ patch, decode 2 (.object (Document.ofEntries malformed)) = some patch) ∧
    disable.apply (clear.apply rule) = clear.apply (disable.apply rule) ∧
    ∃ p', (Propagation.patch (.project "shop") "beta" clear).run Supply.counting service
        = (.ok ⟨"beta", clear.apply rule⟩, p') ∧
      ∀ id, p'.store.flag (.environment id) "beta" =
        service.store.flag (.environment id) "beta" := by
  intro rule clearing malformed clear disable service
  obtain ⟨hread, hspells, hchain, hrun⟩ := patches_overwrite
  have hclearing := hspells clearing ⟨by decide, trivial, trivial, trivial⟩ 1 (by decide)
  have hmalformed := hspells malformed ⟨by decide, trivial, trivial⟩ 2 (by decide)
  have hflag : service.store.flag (.project "shop") "beta" = some rule := rfl
  refine ⟨?_, ?_, ?_, ?_⟩
  · obtain ⟨hdecodes, hwritten⟩ := hread 1 _ _ hclearing
    obtain ⟨patch, hpatch⟩ := hdecodes.2 (by simp [clearing, Json.kind])
    refine ⟨patch, hpatch, ?_⟩
    rw [hwritten patch rule hpatch, FlagRule.toJson_eq, FlagRule.overwrite_rules,
      FlagRule.overwrite_default]
    rfl
  · rw [(hread 2 _ _ hmalformed).1]
    intro h
    exact absurd (h (.array []) rfl) (by decide)
  · exact (hchain clear disable rule).2.2 (by decide)
  · obtain ⟨rule', p', hrule, hpatched, -, hothers, -⟩ | ⟨error, p', hnone, -⟩ :=
      hrun Supply.counting service (.project "shop") "beta" clear
    · obtain rfl : rule = rule' := Option.some.inj (hflag.symm.trans hrule)
      exact ⟨p', hpatched, fun id => hothers _ _ (by simp)⟩
    · cases hflag.symm.trans (hnone rfl)

end FlagPatch

end FeatureFlags

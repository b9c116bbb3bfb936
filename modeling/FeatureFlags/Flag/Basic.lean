import FeatureFlags.Flag.Scalar

/-!
Flags: their records, and the patches that change them.

A flag rule pairs a rule tree with the value that the flag has when there is no rule or the rule
cannot be evaluated.  The same record lives in the flag map of a project and in those of its
environments.
-/

namespace FeatureFlags

/-- A rule tree, if there is one, and a default value. -/
structure FlagRule where
  rules : Option Json
  defaultValue : Scalar

/-- Flag rules by name. -/
abbrev FlagMap := SortedMap FlagRule

/-- A flag rule with its name. -/
structure Flag where
  name : String
  rule : FlagRule

/-- Changes to a flag rule.  `rules` is absent, null (which clears the rule) or a new rule. -/
structure FlagPatch where
  rules : Option (Option Json)
  defaultValue : Option Scalar

namespace FlagRule

instance : Inhabited FlagRule := ⟨⟨none, default⟩⟩

/-- The fields of the record, in the order of their declaration. -/
def fieldNames : List String := ["rules", "default"]

def ofRecord? (record : Record) : Option FlagRule := do
  let rules ← record.withDefault "rules" none Decoder.value.nullable
  let defaultValue ← record.withDefault "default" default Scalar.decode
  some ⟨rules, defaultValue⟩

def decode : Decoder FlagRule := fun depth document =>
  (Record.read? fieldNames depth document).bind ofRecord?

/-- The fields of the record, for an answer. -/
def fields (rule : FlagRule) : List (String × Json) :=
  [("rules", rule.rules.getD .null), ("default", rule.defaultValue.toJson)]

def toJson (rule : FlagRule) : Json := Json.ofFields rule.fields

end FlagRule

namespace FlagMap

def decode : Decoder FlagMap := FlagRule.decode.map

def toJson (flags : FlagMap) : Json := Json.ofMap FlagRule.toJson flags

end FlagMap

namespace Flag

def fieldNames : List String := ["name", "rules", "default"]

def decode : Decoder Flag := fun depth document => do
  let record ← Record.read? fieldNames depth document
  let name ← record.required "name" Decoder.string
  let rule ← FlagRule.ofRecord? record
  some ⟨name, rule⟩

def toJson (flag : Flag) : Json := Json.ofFields (("name", .string flag.name) :: flag.rule.fields)

end Flag

namespace FlagPatch

def fieldNames : List String := ["rules", "default"]

/-- A null for the rules is a present field, a null for the default an absent one. -/
def decode : Decoder FlagPatch := fun depth document => do
  let record ← Record.read? fieldNames depth document
  let rules ← record.withDefault "rules" none fun depth document =>
    (Decoder.value.nullable depth document).map some
  let defaultValue ← record.withDefault "default" none Scalar.decode.nullable
  some ⟨rules, defaultValue⟩

/-- Only the fields that the patch carries are written. -/
def toJson (patch : FlagPatch) : Json :=
  let rules := match patch.rules with
    | some rules => [("rules", rules.getD .null)]
    | none => []
  let defaultValue := match patch.defaultValue with
    | some value => [("default", value.toJson)]
    | none => []
  Json.ofFields (rules ++ defaultValue)

/-- The patch carries no field. -/
def isEmpty (patch : FlagPatch) : Bool := patch.rules.isNone && patch.defaultValue.isNone

/-- Writes the fields that the patch carries and keeps the others. -/
def apply (patch : FlagPatch) (rule : FlagRule) : FlagRule :=
  ⟨patch.rules.getD rule.rules, patch.defaultValue.getD rule.defaultValue⟩

end FlagPatch

end FeatureFlags

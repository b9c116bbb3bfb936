import FeatureFlags.Json.Document

/-!
Reading records from JSON documents.

A record is an object with named fields, or an array of its fields in the order in which they are
declared.  In an object, fields that the record does not know are skipped, whatever they hold, and
a field that it knows stands at most once.  An array may end early if the fields that it leaves out
have a default.
-/

namespace FeatureFlags

/-- Reads a document that may open the given number of arrays and objects. -/
abbrev Decoder (α : Type) := Nat → Document → Option α

namespace Decoder

/-- Reads a whole document. -/
def run {α : Type} (decode : Decoder α) (document : Document) : Option α :=
  decode Document.maxDepth document

/-- Any value. -/
def value : Decoder Json := Document.toJson?

/-- A string. -/
def string : Decoder String
  | _, .string s => s
  | _, _ => none

/-- An integer of 64 bits without sign. -/
def natural : Decoder Nat
  | _, .number (some (.integer n _)) => if 0 ≤ n then some n.toNat else none
  | _, _ => none

/-- Null, or what `decode` reads. -/
def nullable {α : Type} (decode : Decoder α) : Decoder (Option α)
  | _, .null => some none
  | depth, document => (decode depth document).map some

/-- The items of an array. -/
def items {α : Type} (decode : Document → Option α) : List Document → Option (List α)
  | [] => some []
  | item :: rest => do
    let first ← decode item
    let others ← items decode rest
    some (first :: others)

/-- An array. -/
def list {α : Type} (decode : Decoder α) : Decoder (List α)
  | depth + 1, .array documents => items (decode depth) documents
  | _, _ => none

/-- The entries of an object. -/
def entries {α : Type} (decode : Document → Option α) :
    List (Option String × Document) → Option (List (String × α))
  | [] => some []
  | (key, item) :: rest => do
    let key ← key
    let first ← decode item
    let others ← entries decode rest
    some ((key, first) :: others)

/-- An object as a map; of several entries of one key the last counts. -/
def map {α : Type} (decode : Decoder α) : Decoder (SortedMap α)
  | depth + 1, .object documents => (entries (decode depth) documents).map SortedMap.ofList
  | _, _ => none

/-- One of some names, alone or as the key of an object whose value is null. -/
def name {α : Type} (names : List (String × α)) : Decoder α
  | _, .string (some s) => names.lookup s
  | _ + 1, .object [(some s, .null)] => names.lookup s
  | _, _ => none

end Decoder

/-- The fields of a record that a document gives. -/
structure Record where
  /-- The fields were given as an array. -/
  positional : Bool
  /-- The known fields. -/
  fields : List (String × Document)
  /-- How many arrays and objects each field may open. -/
  depth : Nat

namespace Record

/-- The known fields of an object; none if one is repeated. -/
def knownFields (names : List String) :
    List (Option String × Document) → Option (List (String × Document))
  | [] => some []
  | (key, item) :: rest => do
    let key ← key
    let others ← knownFields names rest
    if key ∈ names then
      if (others.lookup key).isSome then none else some ((key, item) :: others)
    else some others

/-- The fields that a document gives to a record with these field names. -/
def read? (names : List String) : Decoder Record
  | depth + 1, .array items =>
    if names.length < items.length then none else some ⟨true, names.zip items, depth⟩
  | depth + 1, .object entries =>
    (knownFields names entries).map fun fields => ⟨false, fields, depth⟩
  | _, _ => none

/-- A field that must be given. -/
def required {α : Type} (record : Record) (field : String) (decode : Decoder α) : Option α :=
  (record.fields.lookup field).bind (decode record.depth)

/-- A field that may be left out. -/
def withDefault {α : Type} (record : Record) (field : String) (absent : α)
    (decode : Decoder α) : Option α :=
  match record.fields.lookup field with
  | some document => decode record.depth document
  | none => some absent

/-- A field that an object may leave out, but not an array. -/
def optional {α : Type} (record : Record) (field : String) (decode : Decoder α) :
    Option (Option α) :=
  match record.fields.lookup field with
  | some document => decode.nullable record.depth document
  | none => if record.positional then none else some none

end Record

end FeatureFlags

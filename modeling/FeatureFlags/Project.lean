import FeatureFlags.Flag.Basic
import FeatureFlags.Timestamp.Text

/-!
Projects, and what operations on them report.
-/

namespace FeatureFlags

/-- A project: a flag map, and the ids of its environments in the order of their creation. -/
structure Project where
  id : String
  name : String
  flags : FlagMap
  environmentIds : List String
  createdAt : Timestamp
  updatedAt : Timestamp

/-- What deleting a project hands back: its environments outlive it. -/
structure ProjectDeletion where
  name : String
  orphanedEnvironmentIds : List String

/-- What a cascade does to one flag of the environments of a project. -/
inductive CascadeOperation where
  | set
  | unset
deriving DecidableEq

/-- What a cascade did, and to how many environments. -/
structure CascadeReport where
  flag : String
  operation : CascadeOperation
  environments : Nat
deriving DecidableEq

namespace Project

/-- A new project, without flags and environments. -/
def new (id name : String) (now : Timestamp) : Project := ⟨id, name, .empty, [], now, now⟩

def fieldNames : List String :=
  ["id", "name", "flags", "environment_ids", "created_at", "updated_at"]

def decode : Decoder Project := fun depth document => do
  let record ← Record.read? fieldNames depth document
  let id ← record.required "id" Decoder.string
  let name ← record.required "name" Decoder.string
  let flags ← record.required "flags" FlagMap.decode
  let environmentIds ← record.required "environment_ids" Decoder.string.list
  let createdAt ← record.required "created_at" Timestamp.decode
  let updatedAt ← record.required "updated_at" Timestamp.decode
  some ⟨id, name, flags, environmentIds, createdAt, updatedAt⟩

def toJson (project : Project) : Json :=
  Json.ofFields [("id", .string project.id), ("name", .string project.name),
    ("flags", FlagMap.toJson project.flags),
    ("environment_ids", .array (project.environmentIds.map .string)),
    ("created_at", project.createdAt.toJson), ("updated_at", project.updatedAt.toJson)]

end Project

namespace ProjectDeletion

def fieldNames : List String := ["name", "orphaned_environment_ids"]

def decode : Decoder ProjectDeletion := fun depth document => do
  let record ← Record.read? fieldNames depth document
  let name ← record.required "name" Decoder.string
  let ids ← record.required "orphaned_environment_ids" Decoder.string.list
  some ⟨name, ids⟩

def toJson (deletion : ProjectDeletion) : Json :=
  Json.ofFields [("name", .string deletion.name),
    ("orphaned_environment_ids", .array (deletion.orphanedEnvironmentIds.map .string))]

end ProjectDeletion

namespace CascadeOperation

def name : CascadeOperation → String
  | set => "set"
  | unset => "unset"

def decode : Decoder CascadeOperation := Decoder.name [("set", .set), ("unset", .unset)]

def toJson (operation : CascadeOperation) : Json := .string operation.name

end CascadeOperation

namespace CascadeReport

def fieldNames : List String := ["flag", "operation", "environments"]

def decode : Decoder CascadeReport := fun depth document => do
  let record ← Record.read? fieldNames depth document
  let flag ← record.required "flag" Decoder.string
  let operation ← record.required "operation" CascadeOperation.decode
  let environments ← record.required "environments" Decoder.natural
  some ⟨flag, operation, environments⟩

def toJson (report : CascadeReport) : Json :=
  Json.ofFields [("flag", .string report.flag), ("operation", report.operation.toJson),
    ("environments", .ofNat report.environments)]

end CascadeReport

end FeatureFlags

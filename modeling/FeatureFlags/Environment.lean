import FeatureFlags.Flag.Basic
import FeatureFlags.Timestamp.Text

/-!
Environments and their API keys.

An environment holds a flag map of its own and two maps of API keys, one for servers and one for
clients.  The keys themselves are only handed out when they are created; the record that answers
show leaves both maps out.
-/

namespace FeatureFlags

/-- What is kept of an API key beside the key itself. -/
structure KeyDescriptor where
  name : String
  createdAt : Timestamp
deriving DecidableEq

/-- Key descriptors by key. -/
abbrev KeyMap := SortedMap KeyDescriptor

/-- The two kinds of API keys. -/
inductive KeyScope where
  | serverSide
  | clientSide
deriving DecidableEq

structure Environment where
  id : String
  name : String
  flags : FlagMap
  serverSideKeys : KeyMap
  clientSideKeys : KeyMap
  createdAt : Timestamp
  updatedAt : Timestamp

/-- An environment without its keys, as answers show it. -/
structure EnvironmentView where
  id : String
  name : String
  flags : FlagMap
  createdAt : Timestamp
  updatedAt : Timestamp

/-- A new API key, as it is handed out once. -/
structure ApiKey where
  key : String
  name : String
  createdAt : Timestamp

namespace KeyDescriptor

def fieldNames : List String := ["name", "created_at"]

def decode : Decoder KeyDescriptor := fun depth document => do
  let record ← Record.read? fieldNames depth document
  let name ← record.required "name" Decoder.string
  let createdAt ← record.required "created_at" Timestamp.decode
  some ⟨name, createdAt⟩

def toJson (descriptor : KeyDescriptor) : Json :=
  Json.ofFields [("name", .string descriptor.name), ("created_at", descriptor.createdAt.toJson)]

end KeyDescriptor

namespace KeyMap

def decode : Decoder KeyMap := KeyDescriptor.decode.map

def toJson (keys : KeyMap) : Json := Json.ofMap KeyDescriptor.toJson keys

end KeyMap

namespace ApiKey

def descriptor (key : ApiKey) : KeyDescriptor := ⟨key.name, key.createdAt⟩

def fieldNames : List String := ["key", "name", "created_at"]

def decode : Decoder ApiKey := fun depth document => do
  let record ← Record.read? fieldNames depth document
  let key ← record.required "key" Decoder.string
  let name ← record.required "name" Decoder.string
  let createdAt ← record.required "created_at" Timestamp.decode
  some ⟨key, name, createdAt⟩

def toJson (key : ApiKey) : Json :=
  Json.ofFields [("key", .string key.key), ("name", .string key.name),
    ("created_at", key.createdAt.toJson)]

end ApiKey

namespace EnvironmentView

def fieldNames : List String := ["id", "name", "flags", "created_at", "updated_at"]

def decode : Decoder EnvironmentView := fun depth document => do
  let record ← Record.read? fieldNames depth document
  let id ← record.required "id" Decoder.string
  let name ← record.required "name" Decoder.string
  let flags ← record.required "flags" FlagMap.decode
  let createdAt ← record.required "created_at" Timestamp.decode
  let updatedAt ← record.required "updated_at" Timestamp.decode
  some ⟨id, name, flags, createdAt, updatedAt⟩

def toJson (view : EnvironmentView) : Json :=
  Json.ofFields [("id", .string view.id), ("name", .string view.name),
    ("flags", FlagMap.toJson view.flags), ("created_at", view.createdAt.toJson),
    ("updated_at", view.updatedAt.toJson)]

end EnvironmentView

namespace Environment

/-- A new environment, without keys. -/
def new (id name : String) (flags : FlagMap) (now : Timestamp) : Environment :=
  ⟨id, name, flags, .empty, .empty, now, now⟩

/-- The keys of one kind. -/
def keys (environment : Environment) : KeyScope → KeyMap
  | .serverSide => environment.serverSideKeys
  | .clientSide => environment.clientSideKeys

/-- Replaces the keys of one kind. -/
def withKeys (environment : Environment) (scope : KeyScope) (keys : KeyMap) : Environment :=
  match scope with
  | .serverSide => { environment with serverSideKeys := keys }
  | .clientSide => { environment with clientSideKeys := keys }

/-- The environment without its keys. -/
def view (environment : Environment) : EnvironmentView :=
  ⟨environment.id, environment.name, environment.flags, environment.createdAt,
    environment.updatedAt⟩

def fieldNames : List String :=
  ["id", "name", "flags", "server_side_keys", "client_side_keys", "created_at", "updated_at"]

def decode : Decoder Environment := fun depth document => do
  let record ← Record.read? fieldNames depth document
  let id ← record.required "id" Decoder.string
  let name ← record.required "name" Decoder.string
  let flags ← record.required "flags" FlagMap.decode
  let serverSideKeys ← record.required "server_side_keys" KeyMap.decode
  let clientSideKeys ← record.required "client_side_keys" KeyMap.decode
  let createdAt ← record.required "created_at" Timestamp.decode
  let updatedAt ← record.required "updated_at" Timestamp.decode
  some ⟨id, name, flags, serverSideKeys, clientSideKeys, createdAt, updatedAt⟩

def toJson (environment : Environment) : Json :=
  Json.ofFields [("id", .string environment.id), ("name", .string environment.name),
    ("flags", FlagMap.toJson environment.flags),
    ("server_side_keys", KeyMap.toJson environment.serverSideKeys),
    ("client_side_keys", KeyMap.toJson environment.clientSideKeys),
    ("created_at", environment.createdAt.toJson), ("updated_at", environment.updatedAt.toJson)]

end Environment

end FeatureFlags

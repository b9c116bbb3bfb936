import FeatureFlags.Text.Digits

/-!
Why a store cannot do what it is asked to.
-/

namespace FeatureFlags

/-- What a store can miss or already have. -/
inductive Entity where
  | project
  | environment
  | flag
deriving DecidableEq

/-- A failure of the database below a store. -/
inductive DatabaseError where
  | poolTimedOut
  | poolClosed
  | io
  | rowNotFound
  | invalidData (text : String)
  /-- The address of the database cannot be read. -/
  | malformedAddress
deriving DecidableEq

/-- A failure to bring the tables of the database up to date. -/
inductive MigrationError where
  | missingVersion (version : Nat)
  | notRun (cause : DatabaseError)
deriving DecidableEq

/-- A failure of a store. -/
inductive StoreError where
  | notFound (entity : Entity)
  | alreadyExists (entity : Entity)
  | database (cause : DatabaseError)
  | migration (cause : MigrationError)
deriving DecidableEq

namespace Entity

def name : Entity → String
  | project => "Project"
  | environment => "Environment"
  | flag => "Flag"

def missingMessage (entity : Entity) : String := entity.name ++ " not found"

def takenMessage (entity : Entity) : String := entity.name ++ " name already exists"

end Entity

def DatabaseError.message : DatabaseError → String
  | poolTimedOut => "pool timed out while waiting for an open connection"
  | poolClosed => "attempted to acquire a connection on a closed pool"
  | io => "error communicating with database: io"
  | rowNotFound => "no rows returned by a query that expected to return at least one row"
  | invalidData text => "encountered unexpected or invalid data: " ++ text
  | malformedAddress => "error with configuration"

def MigrationError.message : MigrationError → String
  | missingVersion version =>
    "migration " ++ String.ofList (Text.decimal version)
      ++ " was previously applied but is missing in the resolved migrations"
  | notRun cause => "while executing migrations: " ++ cause.message

def StoreError.message : StoreError → String
  | notFound entity => entity.missingMessage
  | alreadyExists entity => entity.takenMessage
  | database cause => "database error: " ++ cause.message
  | migration cause => "failed to run migrations: " ++ cause.message

end FeatureFlags

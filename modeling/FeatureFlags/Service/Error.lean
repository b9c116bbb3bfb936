import FeatureFlags.Name
import FeatureFlags.Store.Error

/-!
Why a request to the service fails, and how the answer says so.

Failures of the database that may pass are told apart from the others, whose cause is not shown.
-/

namespace FeatureFlags

/-- A failed request. -/
inductive ApiError where
  /-- The body is not JSON, or does not fit the record that is expected. -/
  | unreadableBody
  | invalidName (entity : Named)
  | missingName
  | notFound (entity : Entity)
  | alreadyExists (entity : Entity)
  | unauthorized
  /-- The flag was written to the project, but not to its environments. -/
  | partialCascade (flag : String)
  | databaseUnavailable
  | internal (cause : String)
deriving DecidableEq

namespace ApiError

/-- A failure of the store as a failure of the request. -/
def ofStore : StoreError → ApiError
  | .notFound entity => .notFound entity
  | .alreadyExists entity => .alreadyExists entity
  | .database .poolTimedOut | .database .poolClosed | .database .io => .databaseUnavailable
  | error => .internal error.message

def message : ApiError → String
  | unreadableBody => "failed to parse request"
  | invalidName entity => entity.lengthMessage
  | missingName => "Name for update is missing"
  | notFound entity => entity.missingMessage
  | alreadyExists entity => entity.takenMessage
  | unauthorized => "unauthorized"
  | partialCascade flag =>
    "Flag " ++ flag
      ++ " was saved on the project but not on every environment, resync it to converge"
  | databaseUnavailable => "database unavailable"
  | internal cause => "Internal error: " ++ cause

/-- The short name of the kind of failure. -/
def code : ApiError → String
  | unreadableBody => "request_parsing_error"
  | invalidName _ => "invalid_name"
  | missingName => "missing_name"
  | notFound _ => "not_found"
  | alreadyExists _ => "already_exists"
  | unauthorized => "unauthorized"
  | partialCascade _ => "partial_cascade"
  | databaseUnavailable => "database_unavailable"
  | internal _ => "internal_error"

/-- The HTTP status of the answer. -/
def status : ApiError → Nat
  | unreadableBody | invalidName _ | missingName | alreadyExists _ => 400
  | unauthorized => 401
  | notFound _ => 404
  | partialCascade _ | internal _ => 500
  | databaseUnavailable => 503

/-- What the answer shows of the failure. -/
def detail : ApiError → String
  | internal _ => "An internal server error occurred"
  | error => error.message

end ApiError

end FeatureFlags

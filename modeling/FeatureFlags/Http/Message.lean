import FeatureFlags.Json.Basic

/-!
HTTP requests and responses, as far as the service looks at them.
-/

namespace FeatureFlags.Http

/-- A request.  The target is the path and, behind a question mark, the query. -/
structure Request where
  method : String
  target : String
  headers : List (String × String)
  body : List UInt8

/-- The content of a response. -/
inductive Content where
  | empty
  | json (value : Json)
  | text (value : String)
  /-- Sample lines of counters, and the bounds of the intervals of durations. -/
  | samples (lines bounds : List String)

/-- A response.  `allow` lists the methods that its route knows, if the method was not one. -/
structure Response where
  status : Nat
  content : Content
  allow : List String

namespace Request

/-- The target up to its fragment. -/
def visibleTarget (request : Request) : List Char := request.target.toList.takeWhile (· ≠ '#')

/-- The path of the target. -/
def path (request : Request) : List Char := request.visibleTarget.takeWhile (· ≠ '?')

/-- The query of the target, empty if there is none. -/
def query (request : Request) : List Char := (request.visibleTarget.dropWhile (· ≠ '?')).drop 1

/-- The values of a header, in order.  Names of headers are compared without regard to case. -/
def headerValues (request : Request) (name : String) : List String :=
  request.headers.filterMap fun (key, value) =>
    if key.toList.map Char.toLower = name.toList.map Char.toLower then some value else none

end Request

namespace Response

/-- A response with a status and nothing else. -/
def ofStatus (status : Nat) : Response := ⟨status, .empty, []⟩

def ofJson (status : Nat) (value : Json) : Response := ⟨status, .json value, []⟩

def ofText (status : Nat) (value : String) : Response := ⟨status, .text value, []⟩

/-- The same response without its content. -/
def withoutContent (response : Response) : Response := { response with content := .empty }

end Response

end FeatureFlags.Http

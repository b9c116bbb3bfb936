import FeatureFlags.Environment
import FeatureFlags.Service.Error

/-!
Access to an environment by API key.

A request carries its key in the `Authorization` header, behind the word `Bearer` and a space.
Headers that are missing or malformed and keys that are unknown or of the wrong kind are all
refused in the same way.
-/

namespace FeatureFlags

/-- The kinds of keys that an operation accepts. -/
inductive Access where
  /-- Reading the rules. -/
  | serverSideOnly
  /-- Evaluating flags. -/
  | serverOrClientSide
deriving DecidableEq

namespace Access

def scopes : Access → List KeyScope
  | serverSideOnly => [.serverSide]
  | serverOrClientSide => [.serverSide, .clientSide]

/-- The key is one of the environment, of a kind that is accepted. -/
def permits (access : Access) (environment : Environment) (key : String) : Bool :=
  access.scopes.any fun scope => (environment.keys scope).contains key

/-- Header values hold visible ASCII characters, spaces and tabs; others cannot be used. -/
def isUsableChar (c : Char) : Bool := c = '\t' || (' ' ≤ c && c ≤ '~')

/-- The word that announces the key, in any case. -/
def isScheme (word : List Char) : Bool := word.map Char.toLower = "bearer".toList

/-- The key in the first of the values of the header. -/
def bearerKey? : List String → Option String
  | [] => none
  | value :: _ =>
    let text := value.toList
    match text.dropWhile (· ≠ ' ') with
    | _ :: key =>
      if text.all isUsableChar ∧ isScheme (text.takeWhile (· ≠ ' ')) ∧ key ≠ [] then
        some (String.ofList key)
      else none
    | [] => none

/-- Lets a request pass if its header holds a key that the environment accepts. -/
def authorize (access : Access) (environment : Environment) (header : List String) :
    Except ApiError Unit :=
  match bearerKey? header with
  | some key => if access.permits environment key then .ok () else .error .unauthorized
  | none => .error .unauthorized

end Access

end FeatureFlags

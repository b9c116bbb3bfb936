import FeatureFlags.Text.Digits

/-!
The lengths of names, counted in characters.
-/

namespace FeatureFlags

/-- What has a name of limited length. -/
inductive Named where
  | project
  | environment
  | flag
  | key
deriving DecidableEq

namespace Named

/-- How messages call it. -/
def text : Named → String
  | project => "project"
  | environment => "environment"
  | flag => "flag"
  | key => "key"

/-- The least length of its name. -/
def minLength : Named → Nat
  | project => 8
  | environment => 3
  | flag => 4
  | key => 4

/-- The greatest length of its name. -/
def maxLength (_ : Named) : Nat := 20

/-- The name has a permitted length. -/
def Permits (entity : Named) (name : String) : Prop :=
  entity.minLength ≤ name.length ∧ name.length ≤ entity.maxLength

instance (entity : Named) (name : String) : Decidable (entity.Permits name) :=
  inferInstanceAs (Decidable (_ ∧ _))

/-- What is said of a name that is too short or too long. -/
def lengthMessage (entity : Named) : String :=
  let number := fun (n : Nat) => String.ofList (Text.decimal n)
  "the " ++ entity.text ++ " name must be from " ++ number entity.minLength ++ " to "
    ++ number entity.maxLength ++ " characters long"

end Named

end FeatureFlags

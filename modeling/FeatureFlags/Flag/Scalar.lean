import FeatureFlags.Json.Record

/-!
Scalars: the values that a flag may have.
-/

namespace FeatureFlags

/-- A boolean, a number or a string. -/
inductive Scalar where
  | bool (value : Bool)
  | number (value : Number)
  | string (value : String)
deriving DecidableEq

namespace Scalar

/-- A flag is off if nothing else is said. -/
instance : Inhabited Scalar := ⟨.bool false⟩

def toJson : Scalar → Json
  | .bool b => .bool b
  | .number n => .number n
  | .string s => .string s

/-- The scalar that a value is. -/
def ofJson? : Json → Option Scalar
  | .bool b => some (.bool b)
  | .number n => some (.number n)
  | .string s => some (.string s)
  | .null | .array _ | .object _ => none

def decode : Decoder Scalar
  | _, .bool b => some (.bool b)
  | _, .number n => n.map .number
  | _, .string s => s.map .string
  | _, _ => none

theorem ofJson?_toJson (s : Scalar) : ofJson? s.toJson = some s := by
  cases s <;> rfl

end Scalar

end FeatureFlags

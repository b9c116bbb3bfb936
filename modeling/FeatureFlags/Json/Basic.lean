import FeatureFlags.Json.Number
import FeatureFlags.SortedMap

/-!
JSON values.

An object lists its entries; those that this library builds are sorted by key and hold a key once
(`Json.Normal`).  Look-ups go by key, so they do not depend on the order of the entries.
-/

namespace FeatureFlags

/-- A JSON value. -/
inductive Json where
  | null
  | bool (value : Bool)
  | number (value : Number)
  | string (value : String)
  | array (items : List Json)
  | object (entries : List (String × Json))

namespace Json

instance : Inhabited Json := ⟨.null⟩

/-- The kinds of JSON values, as messages name them. -/
inductive Kind where
  | null
  | boolean
  | number
  | string
  | array
  | object
deriving DecidableEq

namespace Kind

def name : Kind → String
  | .null => "null"
  | .boolean => "boolean"
  | .number => "number"
  | .string => "string"
  | .array => "array"
  | .object => "object"

end Kind

/-- The kind of a value. -/
def kind : Json → Kind
  | .null => .null
  | .bool _ => .boolean
  | .number _ => .number
  | .string _ => .string
  | .array _ => .array
  | .object _ => .object

/-- The object without entries. -/
def emptyObject : Json := .object []

/-- The object with these fields, sorted by name. -/
def ofFields (fields : List (String × Json)) : Json :=
  .object (fields.foldl (fun entries field => insertEntry field.1 field.2 entries) [])

/-- A map as an object. -/
def ofMap {α : Type} (write : α → Json) (m : SortedMap α) : Json :=
  .object (m.mapValues fun _ value => write value).entries

/-- An integer in the range of signed 64-bit integers as a number. -/
def ofInt64? (n : Int) : Option Json :=
  if h : -0x8000000000000000 ≤ n ∧ n < 0x8000000000000000 then
    some (.number (.integer n ⟨h.1, Int.lt_trans h.2 (by decide)⟩))
  else none

/-- A count as a number; counts stay below 2^64. -/
def ofNat (n : Nat) : Json := ((Number.ofInt? n).map .number).getD .null

/-- Null, false, zero and the empty string, array and object are falsy. -/
def isTruthy : Json → Bool
  | .null => false
  | .bool b => b
  | .number n => !n.toFinite.isZero
  | .string s => s ≠ ""
  | .array items => !items.isEmpty
  | .object entries => !entries.isEmpty

/-! ### Two equalities -/

mutual

/-- The values are of the same form throughout, and numbers of the same kind. -/
def same : Json → Json → Bool
  | .null, .null => true
  | .bool a, .bool b => a = b
  | .number m, .number n => m.same n
  | .string s, .string t => s = t
  | .array xs, .array ys => sameItems xs ys
  | .object xs, .object ys => sameEntries xs ys
  | _, _ => false

def sameItems : List Json → List Json → Bool
  | [], [] => true
  | x :: xs, y :: ys => same x y && sameItems xs ys
  | _, _ => false

def sameEntries : List (String × Json) → List (String × Json) → Bool
  | [], [] => true
  | (k, x) :: xs, (l, y) :: ys => k = l && same x y && sameEntries xs ys
  | _, _ => false

end

mutual

/-- The values are equal where numbers of equal value are one number.  Objects are equal if they
are of one size and each key of the one is in the other with an equal value. -/
def looselyEqual : Json → Json → Bool
  | .null, .null => true
  | .bool a, .bool b => a = b
  | .number m, .number n => m.equal n
  | .string s, .string t => s = t
  | .array xs, .array ys => looselyEqualItems xs ys
  | .object xs, .object ys => xs.length = ys.length && entriesFoundIn xs ys
  | _, _ => false

def looselyEqualItems : List Json → List Json → Bool
  | [], [] => true
  | x :: xs, y :: ys => looselyEqual x y && looselyEqualItems xs ys
  | _, _ => false

/-- Every entry on the left has an equal one on the right. -/
def entriesFoundIn : List (String × Json) → List (String × Json) → Bool
  | [], _ => true
  | (k, x) :: xs, ys =>
    (match ys.lookup k with
      | some y => looselyEqual x y
      | none => false)
    && entriesFoundIn xs ys

end

/-! ### Sorted objects -/

mutual

/-- Every object in the value lists its entries in strictly increasing order of the keys. -/
def Normal : Json → Prop
  | .null | .bool _ | .number _ | .string _ => True
  | .array items => NormalItems items
  | .object entries => Ascending entries ∧ NormalEntries entries

def NormalItems : List Json → Prop
  | [] => True
  | x :: xs => Normal x ∧ NormalItems xs

def NormalEntries : List (String × Json) → Prop
  | [] => True
  | (_, x) :: xs => Normal x ∧ NormalEntries xs

end

end Json

end FeatureFlags

import FeatureFlags.Decimal.Layout

/-!
JSON numbers.

A number is an integer of the joint range of signed and unsigned 64-bit integers, or a finite
binary64 number.  `1` and `1.0` are different numbers with the same numeric value
(`Number.toFinite`); the order of numbers is the order of these values.
-/

namespace FeatureFlags

/-- The integer is in the range of signed or of unsigned 64-bit integers. -/
def Number.InRange (n : Int) : Prop := -0x8000000000000000 ≤ n ∧ n < 0x10000000000000000

instance (n : Int) : Decidable (Number.InRange n) := inferInstanceAs (Decidable (_ ∧ _))

/-- A JSON number. -/
inductive Number where
  | integer (value : Int) (inRange : Number.InRange value)
  | float (value : Finite)
deriving DecidableEq

namespace Number

instance : Inhabited Number := ⟨.float default⟩

theorem natAbs_le_of_inRange {n : Int} (h : InRange n) : n.natAbs ≤ 0x10000000000000000 := by
  unfold InRange at h
  omega

/-- The integer as a number, if it is in range. -/
def ofInt? (n : Int) : Option Number :=
  if h : InRange n then some (.integer n h) else none

/-- The nearest binary64 number. -/
def toFinite : Number → Finite
  | .integer n h => Finite.ofInt n (natAbs_le_of_inRange h)
  | .float x => x

/-- The same integer, or floats of equal value. -/
def same : Number → Number → Bool
  | .integer m _, .integer n _ => m = n
  | .float x, .float y => x.equal y
  | _, _ => false

/-- The order of the numeric values. -/
def compare (x y : Number) : Ordering := x.toFinite.compare y.toFinite

/-- Equal numeric values. -/
def equal (x y : Number) : Bool := x.toFinite.equal y.toFinite

/-- JSON writes floats positionally from 0.00001 up to below 10^16, and otherwise with a signed
exponent; of two equally near decimals the even one is taken. -/
def format : NumberFormat := ⟨-4, 16, true, .even⟩

/-- The digits of an integer, with a minus sign in front if it is negative. -/
def integerText (n : Int) : List Char :=
  if n < 0 then '-' :: Text.decimal n.natAbs else Text.decimal n.natAbs

/-- The number as JSON text. -/
def text : Number → List Char
  | .integer n _ => integerText n
  | .float x => format.finiteText x

end Number

end FeatureFlags

import FeatureFlags.Decimal.Basic

/-!
The shortest decimal that reads back as a given binary64 number.

For 1, 2, … 17 digits, the two neighbours of the number on that decimal grid are tried in exact
arithmetic; the first grid on which one reads back wins, and of two that do the nearer.  If a point
of a grid reads back, so does one of the two neighbours, because the reals that round to a number
form an interval around it.
-/

namespace FeatureFlags

-- Powers of natural numbers are those of the core library, whatever else is imported.
attribute [local instance (2000)] instPowNat

/-- Which of two equally near decimals is taken. -/
inductive TieRule where
  | even
  | up
deriving DecidableEq

namespace Finite

/-- The number without its sign. -/
def abs (x : Finite) : Finite := { x with negative := false }

/-- The power of ten that the leading decimal digit of a number other than zero counts. -/
def leadingExponent (x : Finite) : Int :=
  let shift : Nat := 400
  (Nat.toDigits 10 (x.magnitude * 10 ^ shift / Binary64.unitsPerOne)).length - shift - 1

/-- The decimal reads as this number. -/
def isReadFrom (x : Finite) (d : Decimal) : Bool :=
  Binary64.ofDecimal x.negative d.digits d.exponent = .finite x

/-- Of the two multiples of `10 ^ exponent` around a positive number, the nearer one that reads
back. -/
def nearestOnGrid? (tie : TieRule) (x : Finite) (exponent : Int) : Option Decimal :=
  let numerator := x.magnitude * 10 ^ (-exponent).toNat
  let denominator := Binary64.unitsPerOne * 10 ^ exponent.toNat
  let remainder := numerator % denominator
  let below : Decimal := ⟨numerator / denominator, exponent⟩
  let above : Decimal := ⟨numerator / denominator + 1, exponent⟩
  match x.isReadFrom below, x.isReadFrom above with
  | true, false => some below
  | false, true => some above
  | false, false => none
  | true, true =>
    if 2 * remainder < denominator then some below
    else if denominator < 2 * remainder then some above
    else if tie = .even ∧ below.digits % 2 = 0 then some below
    else some above

/-- All decimal digits of a number: a unit is 5^1074 * 10^-1074. -/
def exactDecimal (x : Finite) : Decimal :=
  ⟨x.magnitude * 5 ^ Binary64.unitExponent, -Binary64.unitExponent⟩

/-- The decimal of fewest digits that reads as the magnitude of a number, and of those of as many
digits the nearest. -/
def shortestDecimal (tie : TieRule) (x : Finite) : Decimal :=
  if x.isZero then ⟨0, 0⟩
  else
    let lead := x.leadingExponent
    let found := (List.range 17).findSome? fun (n : Nat) => x.abs.nearestOnGrid? tie (lead - n)
    (found.getD x.exactDecimal).trim

end Finite

end FeatureFlags

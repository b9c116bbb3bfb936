import FeatureFlags.Decimal.Basic
import FeatureFlags.Text.Digits

/-!
Reading a binary64 number from text.

The text is an optional sign and one of the names `inf`, `infinity` and `nan` in any case, or
decimal digits with an optional point and an optional exponent.  At least one digit stands beside
the point, and at least one in an exponent that is written.  Digits are the ASCII digits.  The
result is rounded once; a number that is too large reads as infinity.
-/

namespace FeatureFlags

namespace Decimal

/-- The sign in front of a text (`true` is minus), and the rest. -/
def splitSign : List Char → Bool × List Char
  | '-' :: rest => (true, rest)
  | '+' :: rest => (false, rest)
  | rest => (false, rest)

/-- The written exponent, 0 where none is written. -/
def readExponent? : List Char → Option Int
  | [] => some 0
  | mark :: rest =>
    let (negative, digits) := splitSign rest
    if (mark = 'e' ∨ mark = 'E') ∧ digits ≠ [] ∧ digits.all Char.isDigit then
      some (if negative then -(Text.digitsValue digits : Int) else Text.digitsValue digits)
    else none

/-- The fraction digits after a point, if there is one, and the rest. -/
def splitFraction : List Char → List Char × List Char
  | '.' :: rest => (rest.takeWhile Char.isDigit, rest.dropWhile Char.isDigit)
  | rest => ([], rest)

/-- A decimal number without sign. -/
def read? (text : List Char) : Option Decimal := do
  let whole := text.takeWhile Char.isDigit
  let (fraction, rest) := splitFraction (text.dropWhile Char.isDigit)
  if whole.isEmpty && fraction.isEmpty then none
  let exponent ← readExponent? rest
  some ⟨Text.digitsValue (whole ++ fraction), exponent - fraction.length⟩

end Decimal

/-- The number that a text names. -/
def Binary64.read? (text : List Char) : Option Binary64 :=
  let (negative, rest) := Decimal.splitSign text
  let word := rest.map Char.toLower
  if word = "inf".toList ∨ word = "infinity".toList then some (.infinite negative)
  else if word = "nan".toList then some .nan
  else (Decimal.read? rest).map fun d => .ofDecimal negative d.digits d.exponent

end FeatureFlags

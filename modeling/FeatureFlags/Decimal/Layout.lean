import FeatureFlags.Decimal.Shortest
import FeatureFlags.Text.Digits

/-!
The text of a number in binary64: its shortest digits, laid out positionally or with an exponent.

The *point* of a decimal is the place of its decimal point counted from its first digit: 1 for
`4.25`, 0 for `0.425`, -1 for `0.0425`.  A format writes numbers whose point lies between two
bounds positionally, always with a digit on both sides of the point, and the others with an
exponent.
-/

namespace FeatureFlags

/-- How numbers are written. -/
structure NumberFormat where
  /-- The least point that is written positionally. -/
  leastPoint : Int
  /-- The greatest point that is written positionally. -/
  greatestPoint : Int
  /-- A positive exponent has a plus sign. -/
  plusSign : Bool
  tie : TieRule

namespace NumberFormat

/-- The digits with the decimal point at its place. -/
def positional (digits : List Char) (point : Int) : List Char :=
  if point ≤ 0 then '0' :: '.' :: (List.replicate (-point).toNat '0' ++ digits)
  else if point < digits.length then
    digits.take point.toNat ++ '.' :: digits.drop point.toNat
  else digits ++ List.replicate (point.toNat - digits.length) '0' ++ ['.', '0']

/-- One digit before the decimal point, the others behind it, and the exponent. -/
def scientific (format : NumberFormat) (digits : List Char) (exponent : Int) : List Char :=
  let fraction := digits.drop 1
  let sign := if exponent < 0 then ['-'] else if format.plusSign then ['+'] else []
  digits.take 1 ++ (if fraction.isEmpty then [] else '.' :: fraction)
    ++ 'e' :: sign ++ Text.decimal exponent.natAbs

/-- A decimal without trailing zeros, as text. -/
def decimalText (format : NumberFormat) (d : Decimal) : List Char :=
  let digits := Text.decimal d.digits
  let point : Int := digits.length + d.exponent
  if format.leastPoint ≤ point ∧ point ≤ format.greatestPoint then positional digits point
  else format.scientific digits (point - 1)

/-- A finite number as text. -/
def finiteText (format : NumberFormat) (x : Finite) : List Char :=
  let text := format.decimalText (x.shortestDecimal format.tie)
  if x.negative then '-' :: text else text

/-- Any number as text. -/
def text (format : NumberFormat) : Binary64 → List Char
  | .finite x => format.finiteText x
  | .infinite false => "inf".toList
  | .infinite true => "-inf".toList
  | .nan => "NaN".toList

end NumberFormat

end FeatureFlags

import FeatureFlags.Json.Number

/-!
Numbers as they are written in JSON, and the numbers that they stand for.

An integer in range stands for itself.  Anything else stands for a float: the leading digits that
fit an unsigned 64-bit integer are kept, their integer is rounded once, and it is then scaled by a
power of ten, rounded again.  So a float of many digits need not be the nearest one, and a number
too large for the format has no value at all.
-/

namespace FeatureFlags

/-- A number as written: its sign and its digits, those of the fraction and of the exponent if it
has them. -/
structure Numeral where
  negative : Bool
  whole : List Nat
  fraction : Option (List Nat)
  exponent : Option (Bool × List Nat)

namespace Numeral

/-- Appends digits to a significand as long as it fits 64 bits; the rest is left over. -/
def appendDigits (significand : Nat) : List Nat → Nat × List Nat
  | [] => (significand, [])
  | d :: ds =>
    if 10 * significand + d ≤ 0xffffffffffffffff then appendDigits (10 * significand + d) ds
    else (significand, d :: ds)

/-- The binary64 number nearest to a power of ten. -/
def powerOfTen (n : Nat) : Binary64 := .ofDecimal false 1 n

/-- Multiplies by `10 ^ exponent`, dividing in steps of `10 ^ 308` where it is too small to do so
at once. -/
def scale? (x : Binary64) (exponent : Int) : Option Finite :=
  if 308 < exponent then
    if x.isZero then x.finite? else none
  else if 0 ≤ exponent then (x.mul (powerOfTen exponent.toNat)).finite?
  else if -308 ≤ exponent then (x.div (powerOfTen (-exponent).toNat)).finite?
  else if x.isZero then x.finite?
  else scale? (x.div (powerOfTen 308)) (exponent + 308)
termination_by exponent.natAbs
decreasing_by omega

/-- The value of a word of digits. -/
def digitsValue (digits : List Nat) : Nat := digits.foldl (fun n d => 10 * n + d) 0

/-- The float that the digits of a number without sign stand for.  A written exponent of more than
31 bits makes it zero or, if it is positive and some kept digit is not zero, too large. -/
def magnitude? (n : Numeral) : Option Finite :=
  let (head, dropped) := appendDigits 0 n.whole
  let fraction := n.fraction.getD []
  let (significand, ignored) := appendDigits head fraction
  let shift : Int := dropped.length - (fraction.length - ignored.length : Nat)
  match n.exponent with
  | none => scale? (.ofNat significand) shift
  | some (negative, digits) =>
    let exponent := digitsValue digits
    if 0x7fffffff < exponent then
      if significand = 0 ∨ negative then some Finite.zero else none
    else scale? (.ofNat significand) (if negative then shift - exponent else shift + exponent)

/-- The float that a number stands for. -/
def float? (n : Numeral) : Option Number :=
  n.magnitude?.map fun x => .float { x with negative := n.negative }

/-- The integer that the digits before the point stand for. -/
def wholeValue (n : Numeral) : Int :=
  if n.negative then -digitsValue n.whole else digitsValue n.whole

/-- The number that the text stands for.  Minus zero is a float, as no integer is. -/
def number? (n : Numeral) : Option Number :=
  if n.fraction.isNone ∧ n.exponent.isNone ∧ ¬(n.negative ∧ n.wholeValue = 0) then
    (Number.ofInt? n.wholeValue).or n.float?
  else n.float?

end Numeral

end FeatureFlags

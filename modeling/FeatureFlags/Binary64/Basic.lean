import FeatureFlags.Binary64.Rounding

/-!
Binary64 numbers and their arithmetic.

A finite number is a sign and a representable magnitude in units of 2^-1074, so comparing two of
them is comparing integers (`Finite.units`), and an operation is the exact operation on integers
followed by one rounding (`Binary64.ofRatio`).  Zero has two signs, which compare equal and are
written apart.
-/

namespace FeatureFlags

-- Powers of natural numbers are those of the core library, whatever else is imported.
attribute [local instance (2000)] instPowNat

/-- A finite binary64 number: a sign, and a magnitude in units of 2^-1074. -/
structure Finite where
  negative : Bool
  magnitude : Nat
  representable : Binary64.Representable magnitude
deriving DecidableEq

/-- A binary64 number. -/
inductive Binary64 where
  | finite (value : Finite)
  | infinite (negative : Bool)
  | nan
deriving DecidableEq

namespace Finite

/-- Positive zero. -/
def zero : Finite := ⟨false, 0, Binary64.representable_zero⟩

instance : Inhabited Finite := ⟨zero⟩

/-- The number as an integer of units of 2^-1074; both zeros are 0. -/
def units (x : Finite) : Int := if x.negative then -x.magnitude else x.magnitude

/-- The number is 0.0 or -0.0. -/
def isZero (x : Finite) : Bool := x.magnitude = 0

/-- Numeric equality, under which the two zeros are one number. -/
def equal (x y : Finite) : Bool := x.units = y.units

/-- The order of the numbers. -/
def compare (x y : Finite) : Ordering := compareOfLessAndEq x.units y.units

/-- The number below zero. -/
def isNegative (x : Finite) : Bool := x.units < 0

/-- The same magnitude with the other sign. -/
def neg (x : Finite) : Finite := { x with negative := !x.negative }

/-- The number nearest to an integer of at most 64 bits. -/
def ofInt (n : Int) (h : n.natAbs ≤ 0x10000000000000000) : Finite where
  negative := n < 0
  magnitude := Binary64.roundMagnitude (n.natAbs * Binary64.unitsPerOne) 1
  representable :=
    Binary64.representable_roundMagnitude Nat.one_pos (Binary64.roundMagnitude_lt_overflow h)

end Finite

namespace Binary64

/-- The number nearest to `n / d` units of the given sign; infinite if the magnitude is too
large. -/
def ofRatio (negative : Bool) (n d : Nat) : Binary64 :=
  if h : Representable (roundMagnitude n d) then .finite ⟨negative, roundMagnitude n d, h⟩
  else .infinite negative

/-- The number nearest to a natural number. -/
def ofNat (n : Nat) : Binary64 := ofRatio false (n * unitsPerOne) 1

def zero : Binary64 := .finite Finite.zero

def one : Binary64 := ofNat 1

/-- Neither infinite nor a NaN. -/
def finite? : Binary64 → Option Finite
  | .finite x => some x
  | .infinite _ | .nan => none

/-- The number is 0.0 or -0.0. -/
def isZero : Binary64 → Bool
  | .finite x => x.isZero
  | .infinite _ | .nan => false

def neg : Binary64 → Binary64
  | .finite x => .finite x.neg
  | .infinite s => .infinite !s
  | .nan => .nan

/-- The sum of two finite numbers.  An exact zero is negative only if both operands are. -/
def addFinite (x y : Finite) : Binary64 :=
  let sum := x.units + y.units
  let negative := if sum = 0 then x.negative && y.negative else sum < 0
  ofRatio negative sum.natAbs 1

def add : Binary64 → Binary64 → Binary64
  | .finite x, .finite y => addFinite x y
  | .infinite s, .infinite t => if s = t then .infinite s else .nan
  | .infinite s, .finite _ => .infinite s
  | .finite _, .infinite t => .infinite t
  | .nan, _ | _, .nan => .nan

def sub (x y : Binary64) : Binary64 := x.add y.neg

def mul : Binary64 → Binary64 → Binary64
  | .finite x, .finite y =>
    ofRatio (x.negative ^^ y.negative) (x.magnitude * y.magnitude) unitsPerOne
  | .infinite s, .infinite t => .infinite (s ^^ t)
  | .infinite s, .finite x | .finite x, .infinite s =>
    if x.isZero then .nan else .infinite (s ^^ x.negative)
  | .nan, _ | _, .nan => .nan

def div : Binary64 → Binary64 → Binary64
  | .finite x, .finite y =>
    if y.isZero then
      if x.isZero then .nan else .infinite (x.negative ^^ y.negative)
    else ofRatio (x.negative ^^ y.negative) (x.magnitude * unitsPerOne) y.magnitude
  | .infinite s, .finite y => .infinite (s ^^ y.negative)
  | .finite x, .infinite t => .finite { Finite.zero with negative := x.negative ^^ t }
  | .infinite _, .infinite _ => .nan
  | .nan, _ | _, .nan => .nan

/-- The remainder of the quotient truncated towards zero, with the sign of the dividend.  It is a
whole number of units that the smaller of the two significands holds, so rounding keeps it. -/
def truncatedRemainder (x y : Finite) : Binary64 :=
  if y.isZero then .nan else ofRatio x.negative (x.magnitude % y.magnitude) 1

/-- The number nearest to `digits * 10 ^ exponent`.  Exponents far outside the range of the
format are settled without computing the power. -/
def ofDecimal (negative : Bool) (digits : Nat) (exponent : Int) : Binary64 :=
  if digits = 0 then .finite { Finite.zero with negative := negative }
  else if 400 < exponent then .infinite negative
  else if exponent < -(400 + digits.log2 : Int) then
    .finite { Finite.zero with negative := negative }
  else if 0 ≤ exponent then ofRatio negative (digits * 10 ^ exponent.toNat * unitsPerOne) 1
  else ofRatio negative (digits * unitsPerOne) (10 ^ (-exponent).toNat)

end Binary64

end FeatureFlags

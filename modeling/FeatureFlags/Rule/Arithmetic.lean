import FeatureFlags.Decimal.Reader
import FeatureFlags.Rule.Error
import FeatureFlags.Text.Blank

/-!
The arithmetic of rules.

Sums, products and quotients are computed in binary64.  Differences and remainders of integers (and
of booleans, as 0 and 1) in the range of signed 64-bit integers are exact; a difference outside of
this range falls back to binary64.  A result that is not finite is an error, and so is a divisor
that is zero.
-/

namespace FeatureFlags.Arithmetic

/-- The range of signed 64-bit integers. -/
def Exact (n : Int) : Prop := -0x8000000000000000 ≤ n ∧ n < 0x8000000000000000

instance (n : Int) : Decidable (Exact n) := inferInstanceAs (Decidable (_ ∧ _))

/-- An operand of a difference or a remainder. -/
inductive Operand where
  | integer (value : Int) (exact : Exact value)
  | float (value : Finite)

theorem natAbs_le_of_exact {n : Int} (h : Exact n) : n.natAbs ≤ 0x10000000000000000 := by
  unfold Exact at h
  omega

namespace Operand

/-- The nearest binary64 number. -/
def toFinite : Operand → Finite
  | .integer n h => Finite.ofInt n (natAbs_le_of_exact h)
  | .float x => x

/-- Numbers count as they are, unless they are integers that only an unsigned 64-bit integer
holds; booleans count as 0 and 1. -/
def read : Json → Except Mismatch Operand
  | .number (.integer n _) =>
    if h : Exact n then .ok (.integer n h)
    else .ok (.float (Number.toFinite (.integer n ‹_›)))
  | .number (.float x) => .ok (.float x)
  | .bool true => .ok (.integer 1 (by decide))
  | .bool false => .ok (.integer 0 (by decide))
  | other => .error (.operand other.kind)

end Operand

/-- A value as a number of a sum, product or quotient.  A string counts as the number that it
names, blanks around it aside. -/
def toFloat : Json → Except Mismatch Binary64
  | .number n => .ok (.finite n.toFinite)
  | .bool b => .ok (if b then .one else .zero)
  | .string s =>
    match Binary64.read? (Text.trim s.toList) with
    | some x => .ok x
    | none => .error (.nonNumeric s)
  | other => .error (.operand other.kind)

/-- A result of binary64 arithmetic, which must be finite. -/
def floatResult (x : Binary64) : Except Mismatch Json :=
  match x with
  | .finite x => .ok (.number (.float x))
  | .infinite _ | .nan => .error .nonFinite

/-- An exact result, or the given float where it is out of the range of signed 64-bit integers. -/
def exactResult (n : Int) (fallback : Binary64) : Except Mismatch Json :=
  match Json.ofInt64? n with
  | some value => .ok value
  | none => floatResult fallback

/-- Adds from left to right, from 0.0. -/
def sum (total : Binary64) : List Json → Except Mismatch Binary64
  | [] => .ok total
  | x :: rest => do
    let x ← toFloat x
    sum (total.add x) rest

/-- Multiplies from left to right, from 1.0. -/
def product (total : Binary64) : List Json → Except Mismatch Binary64
  | [] => .ok total
  | x :: rest => do
    let x ← toFloat x
    product (total.mul x) rest

def negate (a : Json) : Except Mismatch Json := do
  match ← Operand.read a with
  | .integer n h => exactResult (-n) (.finite (Operand.integer n h).toFinite.neg)
  | .float x => floatResult (.finite x.neg)

def subtract (a b : Json) : Except Mismatch Json := do
  let a ← Operand.read a
  let b ← Operand.read b
  let difference := Binary64.sub (.finite a.toFinite) (.finite b.toFinite)
  match a, b with
  | .integer m _, .integer n _ => exactResult (m - n) difference
  | _, _ => floatResult difference

/-! ### Remainders -/

/-- Division by zero, or operands that do not fit. -/
inductive Failure where
  | divisionByZero
  | mismatch (detail : Mismatch)

/-- The remainder of the division that rounds down: the truncated remainder, moved to the side of
the divisor. -/
def flooredRemainder (a b : Int) : Int :=
  let r := a.tmod b
  if r ≠ 0 ∧ (decide (r < 0) != decide (b < 0)) then r + b else r

/-- The remainder of exact operands is exact. -/
theorem exact_flooredRemainder {a b : Int} (ha : Exact a) (hb : Exact b) :
    Exact (flooredRemainder a b) := by
  unfold Exact at *
  unfold flooredRemainder
  dsimp only
  by_cases hz : b = 0
  · subst hz
    simp only [Int.tmod_zero]
    split <;> omega
  · have hlt : (a.tmod b).natAbs < b.natAbs := by
      rw [Int.natAbs_tmod]
      exact Nat.mod_lt _ (Int.natAbs_pos.2 hz)
    split
    case isTrue h =>
      obtain ⟨hr, hs⟩ := h
      by_cases h₁ : a.tmod b < 0 <;> by_cases h₂ : b < 0 <;> simp [h₁, h₂] at hs <;> omega
    case isFalse => omega

/-- The same for floats. -/
def floatRemainder (a b : Finite) : Binary64 :=
  match Binary64.truncatedRemainder a b with
  | .finite r =>
    if !r.isZero && r.isNegative != b.isNegative then Binary64.add (.finite r) (.finite b)
    else .finite r
  | other => other

def modulo (a b : Json) : Except Failure Json := do
  let a ← (Operand.read a).mapError .mismatch
  let b ← (Operand.read b).mapError .mismatch
  match a, b with
  | .integer m hm, .integer n hn =>
    if n = 0 then .error .divisionByZero
    else
      let inRange : Number.InRange (flooredRemainder m n) :=
        have h := exact_flooredRemainder hm hn
        ⟨h.1, Int.lt_trans h.2 (by decide)⟩
      .ok (.number (.integer (flooredRemainder m n) inRange))
  | a, b =>
    if b.toFinite.isZero then .error .divisionByZero
    else (floatResult (floatRemainder a.toFinite b.toFinite)).mapError .mismatch

def divide (a b : Json) : Except Failure Json := do
  let divisor ← (toFloat b).mapError .mismatch
  if divisor.isZero then .error .divisionByZero
  else
    let dividend ← (toFloat a).mapError .mismatch
    (floatResult (dividend.div divisor)).mapError .mismatch

end FeatureFlags.Arithmetic

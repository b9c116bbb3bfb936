import FeatureFlags.Json.Basic

/-!
Zero and the other falsy values.

A number is tested by rounding it to a binary64 number, and rounding makes no integer zero but 0
itself (`Number.isZero_toFinite`).  So what counts as falsy can be listed (`Json.Falsy`).
-/

namespace FeatureFlags

-- Powers of natural numbers are those of the core library, whatever else is imported.
attribute [local instance (2000)] instPowNat

/-! ### Zero -/

namespace Binary64

theorem le_roundQuotient (n d : Nat) : n / d ≤ roundQuotient n d := by
  unfold roundQuotient
  dsimp only
  split
  · exact Nat.le_refl _
  · split
    · exact Nat.le_succ _
    · split
      · exact Nat.le_refl _
      · exact Nat.le_succ _

/-- Rounding keeps the leading bit, so nothing from one unit up becomes zero. -/
theorem roundMagnitude_pos {n : Nat} (h : 0 < n) : 0 < roundMagnitude n 1 := by
  have hbits : 2 ^ excessBits n 1 ≤ n := by
    refine Nat.le_trans (Nat.pow_le_pow_right (by decide) ?_) (Nat.log2_self_le (by omega))
    have := one_le_precision
    rw [excessBits, Nat.div_one]
    omega
  refine Nat.mul_pos ?_ (Nat.two_pow_pos _)
  rw [Nat.one_mul]
  exact Nat.lt_of_lt_of_le (Nat.div_pos hbits (Nat.two_pow_pos _)) (le_roundQuotient _ _)

theorem roundMagnitude_zero : roundMagnitude 0 1 = 0 := by decide

end Binary64

theorem Finite.isZero_iff {x : Finite} : x.isZero = true ↔ x.magnitude = 0 := by
  rw [Finite.isZero, decide_eq_true_eq]

theorem Finite.isZero_ofInt {n : Int} {h : n.natAbs ≤ 0x10000000000000000} :
    (Finite.ofInt n h).isZero = true ↔ n = 0 := by
  rw [Finite.isZero_iff]
  constructor
  · intro hzero
    refine Decidable.byContradiction fun hne => ?_
    have hpos : 0 < n.natAbs * Binary64.unitsPerOne :=
      Nat.mul_pos (Int.natAbs_pos.2 hne) (Nat.two_pow_pos _)
    exact Nat.ne_of_gt (Binary64.roundMagnitude_pos hpos) hzero
  · rintro rfl
    simp only [Finite.ofInt, Int.natAbs_zero, Nat.zero_mul, Binary64.roundMagnitude_zero]

/-- The integer 0, or a float of magnitude zero: 0.0 or -0.0. -/
inductive Number.IsZero : Number → Prop where
  | integer (inRange : Number.InRange 0) : IsZero (.integer 0 inRange)
  | float {x : Finite} (h : x.magnitude = 0) : IsZero (.float x)

theorem Number.isZero_toFinite {n : Number} : n.toFinite.isZero = true ↔ n.IsZero := by
  cases n with
  | integer value inRange =>
    rw [toFinite, Finite.isZero_ofInt]
    constructor
    · rintro rfl
      exact .integer inRange
    · rintro ⟨⟩
      rfl
  | float x =>
    rw [toFinite, Finite.isZero_iff]
    constructor
    · exact .float
    · intro h
      cases h with
      | float h => exact h

/-! ### Falsy values -/

namespace Json

/-- The values that count as no value. -/
inductive Falsy : Json → Prop where
  | null : Falsy .null
  | false : Falsy (.bool Bool.false)
  | zero {n : Number} (h : n.IsZero) : Falsy (.number n)
  | emptyString : Falsy (.string "")
  | emptyArray : Falsy (.array [])
  | emptyObject : Falsy .emptyObject

theorem falsy_iff {value : Json} : value.Falsy ↔ value.isTruthy = Bool.false := by
  constructor
  · intro h
    cases h with
    | zero h => rw [isTruthy, Number.isZero_toFinite.2 h, Bool.not_true]
    | _ => rfl
  · intro h
    cases value with
    | null => exact .null
    | bool b =>
      obtain rfl : b = Bool.false := h
      exact .false
    | number n =>
      rw [isTruthy, Bool.not_eq_false'] at h
      exact .zero (Number.isZero_toFinite.1 h)
    | string s =>
      obtain rfl : s = "" := by simpa [isTruthy] using h
      exact .emptyString
    | array items =>
      obtain rfl : items = [] := by simpa [isTruthy] using h
      exact .emptyArray
    | object entries =>
      obtain rfl : entries = [] := by simpa [isTruthy] using h
      exact .emptyObject

end Json

end FeatureFlags

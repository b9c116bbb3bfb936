import Mathlib.Algebra.Order.Ring.Int
import Mathlib.Order.Compare
import FeatureFlags.Proofs.Json.Falsy

/-!
Integers as binary64 numbers.

An integer is counted as the nearest one that 53 significant bits hold (`Binary64.nearest`,
`Finite.units_ofInt`).  Rounding keeps the order of integers but not all differences between them:
it never turns two integers round (`nearest_le_nearest`) and leaves everything up to 2^53 as it is
(`nearest_eq_self`), so two integers can only be rounded to one number if both are at least 2^53
away from zero, on the same side (`Merged.far`).
-/

namespace FeatureFlags

-- Powers of natural numbers are those of the core library, whatever else is imported.
attribute [local instance (2000)] instPowNat

namespace Binary64

/-! ### Rounded quotients -/

theorem roundQuotient_mul_self (q : Nat) {d : Nat} (hd : 0 < d) : roundQuotient (q * d) d = q := by
  unfold roundQuotient
  simp only [Nat.mul_mod_left, Nat.mul_div_cancel _ hd, Nat.mul_zero, hd, if_true]

theorem roundQuotient_le_succ (n d : Nat) : roundQuotient n d ≤ n / d + 1 := by
  unfold roundQuotient
  dsimp only
  split
  · exact Nat.le_succ _
  · split
    · exact Nat.le_refl _
    · split
      · exact Nat.le_succ _
      · exact Nat.le_refl _

/-- Both numbers of a fraction may be scaled. -/
theorem roundQuotient_mul_mul (n d : Nat) {c : Nat} (hc : 0 < c) :
    roundQuotient (n * c) (d * c) = roundQuotient n d := by
  have hmod : 2 * (n % d * c) = 2 * (n % d) * c := (Nat.mul_assoc ..).symm
  unfold roundQuotient
  simp only [Nat.mul_div_mul_right _ _ hc, Nat.mul_mod_mul_right, hmod, Nat.mul_lt_mul_right hc]

theorem roundQuotient_mono {m n : Nat} (d : Nat) (h : m ≤ n) :
    roundQuotient m d ≤ roundQuotient n d := by
  have hdiv : m / d ≤ n / d := Nat.div_le_div_right h
  rcases Nat.lt_or_eq_of_le hdiv with hlt | heq
  · calc roundQuotient m d ≤ m / d + 1 := roundQuotient_le_succ m d
      _ ≤ n / d := hlt
      _ ≤ roundQuotient n d := le_roundQuotient n d
  · -- of two numbers with one quotient, the larger has the larger remainder
    have hm := Nat.div_add_mod m d
    have hn := Nat.div_add_mod n d
    have hmod : m % d ≤ n % d := by
      rw [heq] at hm
      omega
    unfold roundQuotient
    dsimp only
    rw [heq]
    split_ifs <;> omega

/-! ### Rounded magnitudes -/

theorem excessBits_one (n : Nat) : excessBits n 1 = n.log2 + 1 - precision := by
  rw [excessBits, Nat.div_one]

/-- What 53 significant bits hold is rounded to itself. -/
theorem roundMagnitude_eq_self {n : Nat} (h : 2 ^ excessBits n 1 ∣ n) : roundMagnitude n 1 = n := by
  obtain ⟨q, hq⟩ := h
  have hn : n = q * 2 ^ excessBits n 1 := by rw [Nat.mul_comm, ← hq]
  have hround : roundQuotient n (1 * 2 ^ excessBits n 1) = q :=
    calc roundQuotient n (1 * 2 ^ excessBits n 1)
        = roundQuotient (q * 2 ^ excessBits n 1) (2 ^ excessBits n 1) := by rw [← hn, Nat.one_mul]
      _ = q := roundQuotient_mul_self q (Nat.two_pow_pos _)
  rw [roundMagnitude, hround, ← hn]

theorem roundMagnitude_two_pow (k : Nat) : roundMagnitude (2 ^ k) 1 = 2 ^ k := by
  apply roundMagnitude_eq_self
  rw [excessBits_one, Nat.log2_two_pow]
  have := one_le_precision
  exact Nat.pow_dvd_pow 2 (by omega)

theorem roundMagnitude_of_le {n : Nat} (h : n ≤ 2 ^ precision) : roundMagnitude n 1 = n := by
  rcases Nat.lt_or_eq_of_le h with hlt | rfl
  · apply roundMagnitude_eq_self
    have hbits : excessBits n 1 = 0 := by
      rw [excessBits_one]
      by_cases hz : n = 0
      · subst hz
        decide
      · have := (Nat.log2_lt hz).2 hlt
        omega
    rw [hbits]
    exact Nat.one_dvd n
  · exact roundMagnitude_two_pow precision

theorem log2_mul_two_pow {n : Nat} (hn : n ≠ 0) (k : Nat) : (n * 2 ^ k).log2 = n.log2 + k := by
  have hpos : n * 2 ^ k ≠ 0 := Nat.mul_ne_zero hn (Nat.ne_of_gt (Nat.two_pow_pos k))
  rw [Nat.log2_eq_iff hpos, Nat.pow_add, Nat.add_right_comm, Nat.pow_add]
  exact ⟨Nat.mul_le_mul_right _ (Nat.log2_self_le hn),
    Nat.mul_lt_mul_of_pos_right Nat.lt_log2_self (Nat.two_pow_pos k)⟩

/-- The unit in which magnitudes are counted does not matter. -/
theorem roundMagnitude_mul_two_pow (n k : Nat) :
    roundMagnitude (n * 2 ^ k) 1 = roundMagnitude n 1 * 2 ^ k := by
  by_cases hn : n = 0
  · subst hn
    rw [Nat.zero_mul, roundMagnitude_zero, Nat.zero_mul]
  · have hlog := log2_mul_two_pow hn k
    by_cases hsmall : n.log2 + 1 ≤ precision
    · -- neither of the two has more than 53 significant bits
      have hself : roundMagnitude n 1 = n := by
        apply roundMagnitude_eq_self
        rw [excessBits_one, Nat.sub_eq_zero_of_le hsmall]
        exact Nat.one_dvd n
      rw [hself]
      apply roundMagnitude_eq_self
      rw [excessBits_one, hlog]
      exact Nat.dvd_trans (Nat.pow_dvd_pow 2 (by omega)) (Nat.dvd_mul_left _ n)
    · have hbits : excessBits (n * 2 ^ k) 1 = excessBits n 1 + k := by
        rw [excessBits_one, excessBits_one, hlog]
        omega
      rw [roundMagnitude, roundMagnitude, hbits, Nat.pow_add, Nat.one_mul, Nat.one_mul,
        roundQuotient_mul_mul _ _ (Nat.two_pow_pos k), Nat.mul_assoc]

/-- Rounding does not go below the leading bit. -/
theorem two_pow_log2_le_roundMagnitude {n : Nat} (hn : n ≠ 0) :
    2 ^ n.log2 ≤ roundMagnitude n 1 := by
  have hle : 2 ^ n.log2 ≤ n := Nat.log2_self_le hn
  have hbits : excessBits (2 ^ n.log2) 1 = excessBits n 1 := by
    rw [excessBits_one, excessBits_one, Nat.log2_two_pow]
  calc 2 ^ n.log2 = roundMagnitude (2 ^ n.log2) 1 := (roundMagnitude_two_pow _).symm
    _ ≤ roundMagnitude n 1 := by
      rw [roundMagnitude, roundMagnitude, hbits]
      exact Nat.mul_le_mul_right _ (roundQuotient_mono _ hle)

/-- Rounding does not go beyond the next power of two. -/
theorem roundMagnitude_le_two_pow_log2 (n : Nat) : roundMagnitude n 1 ≤ 2 ^ (n.log2 + 1) := by
  have hlt : n < 2 ^ (n.log2 + 1) := Nat.lt_log2_self
  by_cases hsmall : n.log2 + 1 ≤ precision
  · have hle : n ≤ 2 ^ precision :=
      Nat.le_trans (Nat.le_of_lt hlt) (Nat.pow_le_pow_right (by decide) hsmall)
    rw [roundMagnitude_of_le hle]
    exact Nat.le_of_lt hlt
  · have hexponent : n.log2 + 1 = precision + (n.log2 + 1 - precision) := by omega
    rw [hexponent] at hlt ⊢
    exact roundMagnitude_le_pow hlt

theorem roundMagnitude_mono {m n : Nat} (h : m ≤ n) : roundMagnitude m 1 ≤ roundMagnitude n 1 := by
  by_cases hm : m = 0
  · subst hm
    rw [roundMagnitude_zero]
    exact Nat.zero_le _
  · have hn : n ≠ 0 := by omega
    have hlog : m.log2 ≤ n.log2 :=
      (Nat.le_log2 hn).2 (Nat.le_trans (Nat.log2_self_le hm) h)
    rcases Nat.lt_or_eq_of_le hlog with hlt | heq
    · -- a power of two lies between the two
      calc roundMagnitude m 1 ≤ 2 ^ (m.log2 + 1) := roundMagnitude_le_two_pow_log2 m
        _ ≤ 2 ^ n.log2 := Nat.pow_le_pow_right (by decide) hlt
        _ ≤ roundMagnitude n 1 := two_pow_log2_le_roundMagnitude hn
    · have hbits : excessBits m 1 = excessBits n 1 := by
        rw [excessBits_one, excessBits_one, heq]
      rw [roundMagnitude, roundMagnitude, hbits]
      exact Nat.mul_le_mul_right _ (roundQuotient_mono _ h)

/-! ### Rounded integers -/

/-- The nearest integer that 53 significant bits hold; of two equally near ones the one with the
even significand. -/
def nearest (n : Int) : Int :=
  if n < 0 then -(roundMagnitude n.natAbs 1 : Int) else roundMagnitude n.natAbs 1

theorem nearest_le_nearest {x y : Int} (h : x ≤ y) : nearest x ≤ nearest y := by
  unfold nearest
  split
  case isTrue hx =>
    split
    case isTrue hy =>
      have := roundMagnitude_mono (m := y.natAbs) (n := x.natAbs) (by omega)
      omega
    case isFalse => omega
  case isFalse hx =>
    have := roundMagnitude_mono (m := x.natAbs) (n := y.natAbs) (by omega)
    rw [if_neg (by omega)]
    omega

theorem nearest_eq_self {n : Int} (h : n.natAbs ≤ 0x20000000000000) : nearest n = n := by
  have hself : roundMagnitude n.natAbs 1 = n.natAbs := roundMagnitude_of_le h
  unfold nearest
  rw [hself]
  split <;> omega

/-- Rounding keeps the two integers apart, if there is a small one from the one to the other. -/
theorem nearest_lt_nearest {x y : Int} (hxy : x < y) (hx : x < 0x20000000000000)
    (hy : -0x20000000000000 < y) : nearest x < nearest y := by
  -- the nearest of the small integers to either stays where it is
  let low := max x (-0x20000000000000)
  let high := min y 0x20000000000000
  calc nearest x ≤ nearest low := nearest_le_nearest (by omega)
    _ = low := nearest_eq_self (by omega)
    _ < high := by omega
    _ = nearest high := (nearest_eq_self (by omega)).symm
    _ ≤ nearest y := nearest_le_nearest (by omega)

theorem natAbs_nearest_le {n : Int} (h : n.natAbs ≤ 0x10000000000000000) :
    (nearest n).natAbs ≤ 0x10000000000000000 := by
  have hbound : roundMagnitude n.natAbs 1 ≤ 0x10000000000000000 :=
    calc roundMagnitude n.natAbs 1 ≤ roundMagnitude (2 ^ 64) 1 := roundMagnitude_mono h
      _ = 2 ^ 64 := roundMagnitude_two_pow 64
  unfold nearest
  split <;> omega

/-- Two integers that are rounded to one. -/
def Merged (x y : Int) : Prop := x ≠ y ∧ nearest x = nearest y

instance (x y : Int) : Decidable (Merged x y) := inferInstanceAs (Decidable (_ ∧ _))

namespace Merged

variable {x y : Int}

theorem symm (h : Merged x y) : Merged y x := ⟨h.1.symm, h.2.symm⟩

/-- Integers are only merged far away from zero. -/
theorem far (h : Merged x y) :
    (0x20000000000000 ≤ x ∧ 0x20000000000000 ≤ y) ∨
      (x ≤ -0x20000000000000 ∧ y ≤ -0x20000000000000) := by
  obtain ⟨hne, heq⟩ := h
  by_contra hnear
  rcases Int.lt_or_gt_of_ne hne with hlt | hgt
  · have := nearest_lt_nearest hlt (by omega) (by omega)
    omega
  · have := nearest_lt_nearest hgt (by omega) (by omega)
    omega

end Merged

theorem nearest_eq_iff {x y : Int} : nearest x = nearest y ↔ x = y ∨ Merged x y := by
  constructor
  · intro h
    by_cases hxy : x = y
    · exact .inl hxy
    · exact .inr ⟨hxy, h⟩
  · rintro (rfl | h)
    · rfl
    · exact h.2

theorem nearest_lt_iff {x y : Int} : nearest x < nearest y ↔ x < y ∧ ¬Merged x y := by
  constructor
  · intro h
    refine ⟨?_, fun hmerged => Int.ne_of_lt h hmerged.2⟩
    by_contra hle
    have := nearest_le_nearest (x := y) (y := x) (by omega)
    omega
  · rintro ⟨hlt, hnot⟩
    have hle := nearest_le_nearest (Int.le_of_lt hlt)
    have hne : nearest x ≠ nearest y := fun heq => hnot ⟨Int.ne_of_lt hlt, heq⟩
    omega

theorem nearest_le_iff {x y : Int} : nearest x ≤ nearest y ↔ x ≤ y ∨ Merged x y := by
  rw [← Int.not_lt, nearest_lt_iff]
  constructor
  · intro h
    by_cases hle : x ≤ y
    · exact .inl hle
    · refine .inr (Merged.symm ?_)
      by_contra hnot
      exact h ⟨by omega, hnot⟩
  · rintro (hle | hmerged) ⟨hlt, hnot⟩
    · omega
    · exact hnot hmerged.symm

/-- Rounding keeps the order of two integers unless it merges them. -/
theorem compare_nearest_iff {x y : Int} :
    compare (nearest x) (nearest y) = compare x y ↔ ¬Merged x y := by
  constructor
  · rintro heq ⟨hne, hnearest⟩
    rw [compare_eq_iff_eq.2 hnearest] at heq
    exact hne (compare_eq_iff_eq.1 heq.symm)
  · intro hnot
    rw [compare_iff]
    cases hxy : compare x y with
    | lt => exact nearest_lt_iff.2 ⟨compare_lt_iff_lt.1 hxy, hnot⟩
    | eq => exact congrArg nearest (compare_eq_iff_eq.1 hxy)
    | gt => exact nearest_lt_iff.2 ⟨compare_gt_iff_gt.1 hxy, fun h => hnot h.symm⟩

/-! ### Finite numbers -/

theorem unitsPerOne_pos : (0 : Int) < unitsPerOne := Int.natCast_pos.2 (Nat.two_pow_pos _)

theorem mul_unitsPerOne_lt_zero {n : Int} : n * unitsPerOne < 0 ↔ n < 0 := by
  have h : n * unitsPerOne < 0 * (unitsPerOne : Int) ↔ n < 0 :=
    Int.mul_lt_mul_right unitsPerOne_pos
  rwa [Int.zero_mul] at h

/-- Integers may be rounded as they are or in units. -/
theorem nearest_mul_unitsPerOne (n : Int) :
    nearest (n * unitsPerOne) = nearest n * unitsPerOne := by
  have hmagnitude : roundMagnitude (n * unitsPerOne).natAbs 1
      = roundMagnitude n.natAbs 1 * unitsPerOne := by
    rw [Int.natAbs_mul, Int.natAbs_natCast]
    exact roundMagnitude_mul_two_pow _ _
  unfold nearest
  simp only [hmagnitude, mul_unitsPerOne_lt_zero, Int.natCast_mul]
  split
  · rw [Int.neg_mul]
  · rfl

end Binary64

namespace Finite

open Binary64 (nearest unitsPerOne)

/-- The number nearest to an integer is the nearest integer of 53 significant bits. -/
theorem units_ofInt (n : Int) (h : n.natAbs ≤ 0x10000000000000000) :
    (ofInt n h).units = nearest n * unitsPerOne := by
  rw [← Binary64.nearest_mul_unitsPerOne]
  unfold units nearest
  rw [Int.natAbs_mul, Int.natAbs_natCast]
  simp only [ofInt, decide_eq_true_eq, Binary64.mul_unitsPerOne_lt_zero]

theorem units_neg (x : Finite) : x.neg.units = -x.units := by
  obtain ⟨negative, magnitude, h⟩ := x
  cases negative
  · rfl
  · exact (Int.neg_neg _).symm

end Finite

namespace Binary64

/-- A sum that is not too large is the number nearest to the exact one. -/
theorem exists_addFinite {x y : Finite}
    (h : Representable (roundMagnitude (x.units + y.units).natAbs 1)) :
    ∃ z, addFinite x y = .finite z ∧ z.units = nearest (x.units + y.units) := by
  generalize hsum : x.units + y.units = total at h ⊢
  let negative := if total = 0 then x.negative && y.negative else decide (total < 0)
  refine ⟨⟨negative, roundMagnitude total.natAbs 1, h⟩, ?_, ?_⟩
  · simp only [addFinite, hsum]
    exact dif_pos h
  · show (if negative then -(roundMagnitude total.natAbs 1 : Int)
      else roundMagnitude total.natAbs 1) = nearest total
    by_cases hz : total = 0
    · -- an exact zero may have either sign
      subst hz
      rw [Int.natAbs_zero, roundMagnitude_zero]
      split <;> rfl
    · simp only [negative, if_neg hz, decide_eq_true_eq]
      rfl

/-- The difference of two integers of 64 bits, each rounded or not, is far from too large. -/
theorem exists_sub_of_units {x y : Finite} {a b : Int} (hx : x.units = a * unitsPerOne)
    (hy : y.units = b * unitsPerOne) (ha : a.natAbs ≤ 0x10000000000000000)
    (hb : b.natAbs ≤ 0x10000000000000000) :
    ∃ z : Finite, sub (.finite x) (.finite y) = .finite z ∧
      z.units = nearest (a - b) * unitsPerOne := by
  have hsum : x.units + y.neg.units = (a - b) * unitsPerOne := by
    rw [Finite.units_neg, hx, hy, Int.sub_mul, Int.sub_eq_add_neg]
  have hbound : (a - b).natAbs ≤ 2 ^ 65 := by omega
  have hrepresentable : Representable (roundMagnitude (x.units + y.neg.units).natAbs 1) := by
    apply representable_roundMagnitude Nat.one_pos
    rw [hsum, Int.natAbs_mul, Int.natAbs_natCast]
    have hlt := mul_pow_lt_pow hbound (show 65 + unitExponent < precision + 1087 by decide)
    exact roundMagnitude_lt_overflow_of_lt_pow hlt (by decide)
  obtain ⟨z, hz, hunits⟩ := exists_addFinite hrepresentable
  refine ⟨z, hz, ?_⟩
  rw [hunits, hsum, nearest_mul_unitsPerOne]

end Binary64

end FeatureFlags

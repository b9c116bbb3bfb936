/-!
Rounding to the binary64 grid.

Every finite binary64 number is a whole multiple of the least positive one, 2^-1074, so a
magnitude is a natural number of these units.  A magnitude is *representable* if 53 significant
bits hold it and it stays below 2^1024 (that is 2^2098 units).  `roundMagnitude n d` is the
multiple nearest to `n / d` units among those of 53 significant bits, and of two equally near ones
the one with an even significand.  It can only fail to be representable by being too large
(`representable_roundMagnitude`).
-/

namespace FeatureFlags.Binary64

-- Powers of natural numbers are those of the core library, whatever else is imported.
attribute [local instance (2000)] instPowNat

/-- The integer nearest to `n / d`; a half goes to the even neighbour. -/
def roundQuotient (n d : Nat) : Nat :=
  let q := n / d
  let r := n % d
  if 2 * r < d then q
  else if d < 2 * r then q + 1
  else if q % 2 = 0 then q else q + 1

/-- How many significant bits a number has. -/
def precision : Nat := 53

theorem one_le_precision : 1 ≤ precision := by decide

/-- One is this power of two, in units. -/
def unitExponent : Nat := 1074

/-- Units in one. -/
def unitsPerOne : Nat := 2 ^ unitExponent

/-- The power 2^1024, the least that is too large, is this power of two in units. -/
def overflowExponent : Nat := 2098

/-- Units in 2^1024. -/
def overflowMagnitude : Nat := 2 ^ overflowExponent

/-- A magnitude that 53 significant bits hold and that is not too large. -/
def Representable (magnitude : Nat) : Prop :=
  magnitude < overflowMagnitude ∧ 2 ^ (magnitude.log2 + 1 - precision) ∣ magnitude

instance (magnitude : Nat) : Decidable (Representable magnitude) :=
  inferInstanceAs (Decidable (_ ∧ _))

/-- How many low bits of a magnitude near `n / d` lie below its 53 significant ones. -/
def excessBits (n d : Nat) : Nat := (n / d).log2 + 1 - precision

/-- The magnitude nearest to `n / d` units, with 53 significant bits. -/
def roundMagnitude (n d : Nat) : Nat :=
  roundQuotient n (d * 2 ^ excessBits n d) * 2 ^ excessBits n d

theorem roundQuotient_le {n d k : Nat} (hd : 0 < d) (h : n ≤ k * d) : roundQuotient n d ≤ k := by
  have hmod := Nat.mod_lt n hd
  have hdiv := Nat.div_add_mod n d
  have hq : n / d ≤ k := Nat.div_le_of_le_mul (by rwa [Nat.mul_comm])
  rcases Nat.lt_or_ge (n / d) k with hlt | hge
  · unfold roundQuotient
    dsimp only
    split
    · omega
    · split
      · omega
      · split <;> omega
  · have heq : n / d = k := Nat.le_antisymm hq hge
    have hr : n % d = 0 := by
      rw [heq, Nat.mul_comm] at hdiv
      omega
    simp [roundQuotient, heq, hr, hd]

theorem roundQuotient_le_precision {n d : Nat} (hd : 0 < d) :
    roundQuotient n (d * 2 ^ excessBits n d) ≤ 2 ^ precision := by
  refine roundQuotient_le (Nat.mul_pos hd (Nat.two_pow_pos _)) (Nat.le_of_lt ?_)
  have hlt : n / d < 2 ^ (precision + excessBits n d) := by
    refine Nat.lt_of_lt_of_le Nat.lt_log2_self (Nat.pow_le_pow_right (by decide) ?_)
    unfold excessBits
    omega
  have := (Nat.div_lt_iff_lt_mul hd).1 hlt
  rwa [Nat.pow_add, Nat.mul_assoc, Nat.mul_comm (2 ^ excessBits n d) d] at this

theorem representable_mul_pow {q s : Nat} (hq : q ≤ 2 ^ precision)
    (h : q * 2 ^ s < overflowMagnitude) : Representable (q * 2 ^ s) := by
  refine ⟨h, ?_⟩
  rcases Nat.lt_or_eq_of_le hq with hlt | rfl
  · by_cases hz : q * 2 ^ s = 0
    · simp [hz]
    · have hbound : q * 2 ^ s < 2 ^ (precision + s) := by
        rw [Nat.pow_add]
        exact Nat.mul_lt_mul_of_pos_right hlt (Nat.two_pow_pos s)
      have hlog := (Nat.log2_lt hz).2 hbound
      exact Nat.dvd_trans (Nat.pow_dvd_pow 2 (by omega)) (Nat.dvd_mul_left _ _)
  · rw [← Nat.pow_add, Nat.log2_two_pow]
    have := one_le_precision
    exact Nat.pow_dvd_pow 2 (by omega)

/-- Rounding gives 53 significant bits; only a magnitude that is too large stays out. -/
theorem representable_roundMagnitude {n d : Nat} (hd : 0 < d)
    (h : roundMagnitude n d < overflowMagnitude) : Representable (roundMagnitude n d) :=
  representable_mul_pow (roundQuotient_le_precision hd) h

/-- Rounding carries a number of more than 53 bits at most to the next power of two. -/
theorem roundMagnitude_le_pow {n k : Nat} (h : n < 2 ^ (precision + k)) :
    roundMagnitude n 1 ≤ 2 ^ (precision + k) := by
  have hbits : excessBits n 1 ≤ k := by
    unfold excessBits
    rw [Nat.div_one]
    have := one_le_precision
    by_cases hz : n = 0
    · rw [hz, Nat.log2_zero]
      omega
    · have := (Nat.log2_lt hz).2 h
      omega
  rw [Nat.pow_add]
  exact Nat.mul_le_mul (roundQuotient_le_precision Nat.one_pos)
    (Nat.pow_le_pow_right (by decide) hbits)

theorem mul_pow_lt_pow {n j u k : Nat} (h : n ≤ 2 ^ j) (hk : j + u < k) : n * 2 ^ u < 2 ^ k :=
  calc n * 2 ^ u ≤ 2 ^ j * 2 ^ u := Nat.mul_le_mul_right _ h
    _ = 2 ^ (j + u) := (Nat.pow_add ..).symm
    _ < 2 ^ k := Nat.pow_lt_pow_right (by decide) hk

theorem roundMagnitude_lt_overflow_of_lt_pow {n k : Nat} (h : n < 2 ^ (precision + k))
    (hk : precision + k < overflowExponent) : roundMagnitude n 1 < overflowMagnitude :=
  Nat.lt_of_le_of_lt (roundMagnitude_le_pow h) (Nat.pow_lt_pow_right (by decide) hk)

/-- Integers of 64 bits are far from too large. -/
theorem roundMagnitude_lt_overflow {n : Nat} (h : n ≤ 0x10000000000000000) :
    roundMagnitude (n * unitsPerOne) 1 < overflowMagnitude :=
  roundMagnitude_lt_overflow_of_lt_pow
    (mul_pow_lt_pow h (show 64 + unitExponent < precision + 1086 by decide)) (by decide)

theorem representable_zero : Representable 0 :=
  ⟨Nat.two_pow_pos _, Nat.dvd_zero _⟩

end FeatureFlags.Binary64

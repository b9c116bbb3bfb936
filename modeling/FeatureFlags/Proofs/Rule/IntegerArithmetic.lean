import FeatureFlags.Proofs.Binary64.Nearest
import FeatureFlags.Proofs.Rule.Finiteness

/-!
Differences and remainders of integers.

Booleans count as 0 and 1 here, so the operands are the values that stand for an integer
(`Json.CountsAs`).  Differences are exact as long as the operands and the difference are signed
64-bit integers; an operand that only an unsigned one holds is rounded first, even if the difference
would fit (`Operator.differences_exact`).  Remainders are those of the division that rounds down,
and no step on the way to them leaves the signed 64-bit integers (`Operator.remainders_floored`):
`Word.flooredRemainder?` takes the same steps on words, with each of them checked.
-/

namespace FeatureFlags

open Binary64 (nearest unitsPerOne)

namespace Json

/-- The value stands for the integer: integers for themselves, booleans for 0 and 1. -/
inductive CountsAs : Json → Int → Prop where
  | integer {n : Int} (inRange : Number.InRange n) : CountsAs (.number (.integer n inRange)) n
  | true : CountsAs (.bool Bool.true) 1
  | false : CountsAs (.bool Bool.false) 0

/-- The value is a number or a boolean. -/
def IsNumeric (a : Json) : Prop := a.kind = .number ∨ a.kind = .boolean

instance (a : Json) : Decidable a.IsNumeric := inferInstanceAs (Decidable (_ ∨ _))

theorem CountsAs.inRange {a : Json} {n : Int} (h : a.CountsAs n) : Number.InRange n := by
  cases h with
  | integer inRange => exact inRange
  | true | false => decide

end Json

namespace Arithmetic

/-! ### Operands -/

/-- What is read for an integer: itself if it is a signed one, and else the nearest float. -/
inductive Operand.Reads (n : Int) : Operand → Prop where
  | exact (h : Exact n) : Reads n (.integer n h)
  | rounded {x : Finite} (h : ¬Exact n) (hx : x.units = nearest n * unitsPerOne) :
      Reads n (.float x)

variable {a b : Json} {m n : Int} {left right : Operand}

theorem Operand.Reads.units (h : left.Reads m) : left.toFinite.units = nearest m * unitsPerOne := by
  cases h with
  | exact h => exact Finite.units_ofInt m (natAbs_le_of_exact h)
  | rounded h hx => exact hx

theorem Operand.Reads.exact_of_eq (h : left.Reads m) {k : Int} {hk : Exact k}
    (heq : left = .integer k hk) : k = m := by
  cases h with
  | exact h =>
    cases heq
    rfl
  | rounded h hx => cases heq

theorem exists_reads (h : a.CountsAs m) :
    ∃ operand, Operand.read a = .ok operand ∧ operand.Reads m := by
  cases h with
  | integer inRange =>
    by_cases hexact : Exact m
    · exact ⟨_, dif_pos hexact, .exact hexact⟩
    · have hunits := Finite.units_ofInt m (Number.natAbs_le_of_inRange inRange)
      exact ⟨_, dif_neg hexact, .rounded hexact hunits⟩
  | true | false => exact ⟨_, rfl, .exact (by decide)⟩

theorem read_of_exact (h : a.CountsAs m) (hm : Exact m) : Operand.read a = .ok (.integer m hm) := by
  obtain ⟨operand, hread, hreads⟩ := exists_reads h
  cases hreads with
  | exact => exact hread
  | rounded hnot => exact absurd hm hnot

theorem read_of_not_isNumeric (h : ¬a.IsNumeric) : Operand.read a = .error (.operand a.kind) := by
  cases a with
  | number => exact absurd (.inl rfl) h
  | bool => exact absurd (.inr rfl) h
  | null | string | array | object => rfl

theorem exists_read_of_isNumeric (h : a.IsNumeric) : ∃ operand, Operand.read a = .ok operand := by
  cases a with
  | number n =>
    cases n with
    | integer value inRange =>
      obtain ⟨operand, hread, -⟩ := exists_reads (.integer inRange)
      exact ⟨operand, hread⟩
    | float x => exact ⟨_, rfl⟩
  | bool b => cases b <;> exact ⟨_, rfl⟩
  | null | string | array | object => obtain h | h := h <;> cases h

/-! ### Differences -/

theorem negate_of_exact (ha : a.CountsAs m) (hm : Exact m) (h : Exact (-m)) :
    ∃ inRange, negate a = .ok (.number (.integer (-m) inRange)) := by
  simp only [negate, read_of_exact ha hm]
  exact exactResult_of_exact h _

theorem negate_rounded (ha : a.CountsAs m) (h : ¬(Exact m ∧ Exact (-m))) :
    ∃ x : Finite, negate a = .ok (.number (.float x)) ∧ x.units = -nearest m * unitsPerOne := by
  obtain ⟨left, hread, hreads⟩ := exists_reads ha
  have hinexact : ∀ k hk, left = .integer k hk → ¬Exact (-k) := by
    intro k hk heq hneg
    obtain rfl := hreads.exact_of_eq heq
    exact h ⟨hk, hneg⟩
  refine ⟨left.toFinite.neg, negate_of_not_exact hread hinexact, ?_⟩
  rw [Finite.units_neg, hreads.units, Int.neg_mul]

theorem subtract_of_exact (ha : a.CountsAs m) (hb : b.CountsAs n) (hm : Exact m) (hn : Exact n)
    (h : Exact (m - n)) : ∃ inRange, subtract a b = .ok (.number (.integer (m - n) inRange)) := by
  simp only [subtract, read_of_exact ha hm, read_of_exact hb hn]
  exact exactResult_of_exact h _

theorem subtract_rounded (ha : a.CountsAs m) (hb : b.CountsAs n)
    (h : ¬(Exact m ∧ Exact n ∧ Exact (m - n))) :
    ∃ x : Finite, subtract a b = .ok (.number (.float x)) ∧
      x.units = nearest (nearest m - nearest n) * unitsPerOne := by
  obtain ⟨left, hleft, hreadsLeft⟩ := exists_reads ha
  obtain ⟨right, hright, hreadsRight⟩ := exists_reads hb
  have hinexact : ∀ i hi j hj, left = .integer i hi → right = .integer j hj → ¬Exact (i - j) := by
    intro i hi j hj hi' hj' hdifference
    obtain rfl := hreadsLeft.exact_of_eq hi'
    obtain rfl := hreadsRight.exact_of_eq hj'
    exact h ⟨hi, hj, hdifference⟩
  have hm := Binary64.natAbs_nearest_le (Number.natAbs_le_of_inRange ha.inRange)
  have hn := Binary64.natAbs_nearest_le (Number.natAbs_le_of_inRange hb.inRange)
  obtain ⟨x, hx, hunits⟩ :=
    Binary64.exists_sub_of_units hreadsLeft.units hreadsRight.units hm hn
  refine ⟨x, ?_, hunits⟩
  rw [subtract_of_not_exact hleft hright hinexact, hx]
  rfl

/-! ### Remainders -/

/-- The floored remainder lies between 0 and the divisor, and differs from the dividend by a
multiple of the divisor. -/
theorem flooredRemainder_spec {a b : Int} (hb : b ≠ 0) :
    (∃ q, a = q * b + flooredRemainder a b) ∧ (flooredRemainder a b).natAbs < b.natAbs ∧
      (flooredRemainder a b = 0 ∨ (flooredRemainder a b).sign = b.sign) := by
  have hdivision : a.tdiv b * b + a.tmod b = a := Int.tdiv_mul_add_tmod a b
  have hlt : (a.tmod b).natAbs < b.natAbs := by
    rw [Int.natAbs_tmod]
    exact Nat.mod_lt _ (Int.natAbs_pos.2 hb)
  have hsign : ∀ r : Int, r.natAbs < b.natAbs → (0 < r ∧ 0 < b ∨ r < 0 ∧ b < 0) →
      r.natAbs < b.natAbs ∧ (r = 0 ∨ r.sign = b.sign) := by
    rintro r hr (⟨h, hb⟩ | ⟨h, hb⟩)
    · exact ⟨hr, .inr ((Int.sign_eq_one_of_pos h).trans (Int.sign_eq_one_of_pos hb).symm)⟩
    · exact ⟨hr, .inr ((Int.sign_eq_neg_one_of_neg h).trans (Int.sign_eq_neg_one_of_neg hb).symm)⟩
  unfold flooredRemainder
  dsimp only
  split
  case isTrue h =>
    -- the truncated remainder is on the other side of zero than the divisor
    obtain ⟨hne, hother⟩ := h
    rw [bne_iff_ne, ne_eq, decide_eq_decide] at hother
    refine ⟨⟨a.tdiv b - 1, ?_⟩, hsign _ (by omega) (by omega)⟩
    rw [Int.sub_mul]
    omega
  case isFalse h =>
    refine ⟨⟨a.tdiv b, hdivision.symm⟩, ?_⟩
    by_cases hz : a.tmod b = 0
    · exact ⟨hlt, .inl hz⟩
    · simp only [ne_eq, hz, not_false_eq_true, true_and, Bool.not_eq_true, bne_eq_false_iff_eq,
        decide_eq_decide] at h
      exact hsign _ hlt (by omega)

theorem modulo_of_exact (ha : a.CountsAs m) (hb : b.CountsAs n) (hm : Exact m) (hn : Exact n) :
    (n = 0 → modulo a b = .error .divisionByZero) ∧
    (n ≠ 0 → ∃ inRange, modulo a b = .ok (.number (.integer (flooredRemainder m n) inRange))) := by
  have hresult : modulo a b
      = if n = 0 then .error .divisionByZero
        else .ok (.number (.integer (flooredRemainder m n)
          ⟨(exact_flooredRemainder hm hn).1,
            Int.lt_trans (exact_flooredRemainder hm hn).2 (by decide)⟩)) := by
    simp only [modulo, read_of_exact ha hm, read_of_exact hb hn]
    rfl
  rw [hresult]
  constructor
  · intro hz
    rw [if_pos hz]
  · intro hz
    rw [if_neg hz]
    exact ⟨_, rfl⟩

theorem modulo_of_not_isNumeric_left (b : Json) (ha : ¬a.IsNumeric) :
    modulo a b = .error (.mismatch (.operand a.kind)) := by
  simp only [modulo, read_of_not_isNumeric ha]
  rfl

theorem modulo_of_not_isNumeric_right (ha : a.IsNumeric) (hb : ¬b.IsNumeric) :
    modulo a b = .error (.mismatch (.operand b.kind)) := by
  obtain ⟨operand, hread⟩ := exists_read_of_isNumeric ha
  simp only [modulo, hread, read_of_not_isNumeric hb]
  rfl

end Arithmetic

/-! ### Remainders of words -/

namespace Word

/-- The remainder of two words, if they have a quotient that is a word. -/
def remainder? (a b : Int64) : Option Int64 :=
  if b = 0 ∨ (a = Int64.minValue ∧ b = -1) then none else some (a % b)

/-- The sum of two words, if it is a word. -/
def sum? (a b : Int64) : Option Int64 :=
  if a.toBitVec.saddOverflow b.toBitVec then none else some (a + b)

/-- The remainder of the division of words that rounds down, if no step overflows.  Where the
quotient is no word, the divisor is -1 and the remainder 0. -/
def flooredRemainder? (a b : Int64) : Option Int64 :=
  let r := (remainder? a b).getD 0
  if r ≠ 0 ∧ (decide (r < 0) != decide (b < 0)) then sum? r b else some r

theorem toInt_remainder? (a : Int64) {b : Int64} (hb : b ≠ 0) :
    ((remainder? a b).getD 0).toInt = a.toInt.tmod b.toInt := by
  unfold remainder?
  split
  case isTrue h =>
    obtain hz | ⟨rfl, rfl⟩ := h
    · exact absurd hz hb
    · decide
  case isFalse => exact Int64.toInt_mod a b

theorem toInt_sum? {a b : Int64} (h : Arithmetic.Exact (a.toInt + b.toInt)) :
    (sum? a b).map Int64.toInt = some (a.toInt + b.toInt) := by
  have hfits : ¬a.toBitVec.saddOverflow b.toBitVec = true := by
    rw [BitVec.saddOverflow, Bool.or_eq_true, decide_eq_true_eq, decide_eq_true_eq,
      Int64.toInt_toBitVec, Int64.toInt_toBitVec]
    obtain ⟨hlow, hhigh⟩ := h
    omega
  rw [sum?, if_neg hfits]
  exact congrArg some (BitVec.toInt_add_of_not_saddOverflow hfits)

theorem exact_toInt (a : Int64) : Arithmetic.Exact a.toInt :=
  ⟨a.le_toInt, a.toInt_lt⟩

/-- No step overflows, and the result is the floored remainder of the integers. -/
theorem toInt_flooredRemainder? (a : Int64) {b : Int64} (hb : b ≠ 0) :
    (flooredRemainder? a b).map Int64.toInt
      = some (Arithmetic.flooredRemainder a.toInt b.toInt) := by
  have hexact := Arithmetic.exact_flooredRemainder (exact_toInt a) (exact_toInt b)
  have hremainder := toInt_remainder? a hb
  unfold flooredRemainder?
  unfold Arithmetic.flooredRemainder at hexact ⊢
  dsimp only at hexact ⊢
  generalize (remainder? a b).getD 0 = r at hremainder ⊢
  rw [← hremainder] at hexact ⊢
  have hzero : r ≠ 0 ↔ r.toInt ≠ 0 := (not_congr Int64.toInt_inj).symm
  have hnegative : ∀ x : Int64, x < 0 ↔ x.toInt < 0 := fun x => Int64.lt_iff_toInt_lt
  simp only [hzero, hnegative]
  split
  case isTrue h =>
    rw [if_pos h] at hexact
    exact toInt_sum? hexact
  case isFalse => rfl

end Word

namespace Operator

open Arithmetic (Exact)

variable {a b : Json} {m n : Int}

/-! ### Differences -/

/-- The result shows a difference as it should: an integer in the range of signed 64-bit integers as
it is, and any other as a float. -/
def ShowsDifference (d : Int) (result : Except EvaluationError Json) : Prop :=
  (Exact d → ∃ inRange, result = .ok (.number (.integer d inRange))) ∧
  (¬Exact d → ∃ x, result = .ok (.number (.float x)))

theorem ShowsDifference.exact {d : Int} {result : Except EvaluationError Json}
    (h : ∃ inRange, result = .ok (.number (.integer d inRange))) (hd : Exact d) :
    ShowsDifference d result :=
  ⟨fun _ => h, fun hnot => absurd hd hnot⟩

/-- A float shows a difference exactly if the difference is out of range. -/
theorem showsDifference_float {d : Int} {x : Finite} :
    ShowsDifference d (.ok (.number (.float x))) ↔ ¬Exact d := by
  constructor
  · intro h hd
    obtain ⟨inRange, heq⟩ := h.1 hd
    cases heq
  · intro hd
    exact ⟨fun h => absurd h hd, fun _ => ⟨x, rfl⟩⟩

/-- **Differences are exact if the operands are signed integers**: an operand of `-` is a boolean or
an integer of 64 bits, signed or not.  The result is the difference itself, or a float if that is no
signed 64-bit integer, if and only if the operands are signed whenever the difference is; for the
negation that leaves out 2^63 alone.  In all other cases the result is a float, the rounded
difference of the rounded operands, and there is always a result. -/
theorem differences_exact (context : Json) :
    (∀ (a : Json) (m : Int), a.CountsAs m →
      (ShowsDifference (-m) (subtract.apply [a] context) ↔ m ≠ 2 ^ 63) ∧
      (¬(Exact m ∧ Exact (-m)) → ∃ x : Finite,
        subtract.apply [a] context = .ok (.number (.float x)) ∧
        x.units = -nearest m * unitsPerOne)) ∧
    ∀ (a b : Json) (m n : Int), a.CountsAs m → b.CountsAs n →
      (ShowsDifference (m - n) (subtract.apply [a, b] context) ↔
        (Exact (m - n) → Exact m ∧ Exact n)) ∧
      (¬(Exact m ∧ Exact n ∧ Exact (m - n)) → ∃ x : Finite,
        subtract.apply [a, b] context = .ok (.number (.float x)) ∧
        x.units = nearest (nearest m - nearest n) * unitsPerOne) := by
  refine ⟨fun a m ha => ?_, fun a b m n ha hb => ?_⟩
  · have hresult : subtract.apply [a] context = subtract.blame (Arithmetic.negate a) := rfl
    -- either the operand and its negation are both signed integers, or the result is a float
    by_cases hexact : Exact m ∧ Exact (-m)
    · obtain ⟨inRange, hvalue⟩ := Arithmetic.negate_of_exact ha hexact.1 hexact.2
      rw [hresult, hvalue]
      refine ⟨iff_of_true (.exact ⟨inRange, rfl⟩ hexact.2) ?_, fun h => absurd hexact h⟩
      rintro rfl
      exact absurd hexact.1 (by decide)
    · obtain ⟨x, hvalue, hunits⟩ := Arithmetic.negate_rounded ha hexact
      rw [hresult, hvalue]
      refine ⟨showsDifference_float.trans ?_, fun _ => ⟨x, rfl, hunits⟩⟩
      -- in the range of the operands, 2^63 alone is no signed integer and has a negation that is
      have hrange := ha.inRange
      unfold Exact at hexact ⊢
      unfold Number.InRange at hrange
      omega
  · have hresult : subtract.apply [a, b] context = subtract.blame (Arithmetic.subtract a b) := rfl
    by_cases hexact : Exact m ∧ Exact n ∧ Exact (m - n)
    · obtain ⟨hm, hn, hdifference⟩ := hexact
      obtain ⟨inRange, hvalue⟩ := Arithmetic.subtract_of_exact ha hb hm hn hdifference
      rw [hresult, hvalue]
      exact ⟨iff_of_true (.exact ⟨inRange, rfl⟩ hdifference) fun _ => ⟨hm, hn⟩,
        fun h => absurd ⟨hm, hn, hdifference⟩ h⟩
    · obtain ⟨x, hvalue, hunits⟩ := Arithmetic.subtract_rounded ha hb hexact
      rw [hresult, hvalue]
      refine ⟨showsDifference_float.trans ?_, fun _ => ⟨x, rfl, hunits⟩⟩
      constructor
      · exact fun hnot hdifference => absurd hdifference hnot
      · exact fun h hdifference => hexact ⟨(h hdifference).1, (h hdifference).2, hdifference⟩

/-- At the ends of the ranges: 2^63 - 1 less true is exact and -2^63 less true a float, both as they
should be; the negation of 2^63 and the difference of 2^64 - 1 and 2^64 - 2 are floats although they
would fit, the latter 0.0. -/
theorem differences_exact_limits :
    let integer (n : Int) (inRange : Number.InRange n) : Json := .number (.integer n inRange)
    let context : Json := .emptyObject
    let last := integer (2 ^ 64 - 1) (by decide)
    let previous := integer (2 ^ 64 - 2) (by decide)
    ShowsDifference (2 ^ 63 - 1 - 1)
      (subtract.apply [integer (2 ^ 63 - 1) (by decide), .bool true] context) ∧
    ShowsDifference (-2 ^ 63 - 1)
      (subtract.apply [integer (-2 ^ 63) (by decide), .bool true] context) ∧
    (¬ShowsDifference (-2 ^ 63) (subtract.apply [integer (2 ^ 63) (by decide)] context)) ∧
    ∃ x : Finite, subtract.apply [last, previous] context = .ok (.number (.float x)) ∧
      x.units = 0 := by
  intro integer context last previous
  obtain ⟨hnegation, hdifference⟩ := differences_exact context
  refine ⟨?_, ?_, ?_, ?_⟩
  · exact (hdifference _ _ _ _ (.integer (by decide)) .true).1.2 (by decide)
  · exact (hdifference _ _ _ _ (.integer (by decide)) .true).1.2 (by decide)
  · exact fun h => (hnegation _ _ (.integer (by decide))).1.1 h rfl
  · obtain ⟨x, hvalue, hunits⟩ :=
      (hdifference last previous _ _ (.integer (by decide)) (.integer (by decide))).2 (by decide)
    refine ⟨x, hvalue, hunits.trans ?_⟩
    have hrounded : nearest (nearest (2 ^ 64 - 1) - nearest (2 ^ 64 - 2)) = 0 := by decide +kernel
    rw [hrounded, Int.zero_mul]

/-- Not every difference that would fit is exact: not that of 2^64 - 1 and 2^64 - 2. -/
theorem differences_not_always_exact :
    ¬∀ (context a b : Json) (m n : Int), a.CountsAs m → b.CountsAs n →
      ShowsDifference (m - n) (subtract.apply [a, b] context) := by
  intro h
  have hlast : Number.InRange (2 ^ 64 - 1) := by decide
  have hprevious : Number.InRange (2 ^ 64 - 2) := by decide
  have hone := h .emptyObject _ _ _ _ (.integer hlast) (.integer hprevious)
  obtain ⟨x, hvalue, -⟩ :=
    Arithmetic.subtract_rounded (.integer hlast) (.integer hprevious) (by decide)
  rw [apply, hvalue] at hone
  exact showsDifference_float.1 hone (by decide)

/-! ### Remainders -/

/-- **Remainders are floored**: of two signed 64-bit integers, `%` gives the remainder of the
division that rounds down, which is 0 or has the sign of the divisor, and it does so on words of 64
bits without an overflow.  A divisor of 0 is a division by zero.  An operand that is no number and
no boolean is a type mismatch, and the first one is looked at first. -/
theorem remainders_floored (context : Json) :
    (∀ (a b : Json) (m n : Int), a.CountsAs m → b.CountsAs n → Exact m → Exact n →
      (n = 0 → modulo.apply [a, b] context = .error .divisionByZero) ∧
      (n ≠ 0 → ∃ r inRange,
        modulo.apply [a, b] context = .ok (.number (.integer r inRange)) ∧
        (∃ q, m = q * n + r) ∧ r.natAbs < n.natAbs ∧ (r = 0 ∨ r.sign = n.sign) ∧
        (Word.flooredRemainder? (.ofInt m) (.ofInt n)).map Int64.toInt = some r)) ∧
    (∀ a b : Json, ¬a.IsNumeric →
      modulo.apply [a, b] context = .error (.typeMismatch .modulo (.operand a.kind))) ∧
    ∀ a b : Json, a.IsNumeric → ¬b.IsNumeric →
      modulo.apply [a, b] context = .error (.typeMismatch .modulo (.operand b.kind)) := by
  refine ⟨fun a b m n ha hb hm hn => ?_, fun a b ha => ?_, fun a b ha hb => ?_⟩
  · obtain ⟨hzero, hnonzero⟩ := Arithmetic.modulo_of_exact ha hb hm hn
    constructor
    · intro hz
      rw [apply, hzero hz]
      rfl
    · intro hz
      obtain ⟨inRange, hvalue⟩ := hnonzero hz
      obtain ⟨hdivision, hlt, hsign⟩ := Arithmetic.flooredRemainder_spec (a := m) hz
      -- the words that hold the two operands
      have hdividend : (Int64.ofInt m).toInt = m := Int64.toInt_ofInt_of_le hm.1 hm.2
      have hdivisor : (Int64.ofInt n).toInt = n := Int64.toInt_ofInt_of_le hn.1 hn.2
      have hword : Int64.ofInt n ≠ 0 := by
        intro h
        rw [h] at hdivisor
        exact hz hdivisor.symm
      refine ⟨_, inRange, ?_, hdivision, hlt, hsign, ?_⟩
      · rw [apply, hvalue]
        rfl
      · rw [Word.toInt_flooredRemainder? _ hword, hdividend, hdivisor]
  · rw [apply, Arithmetic.modulo_of_not_isNumeric_left b ha]
    rfl
  · rw [apply, Arithmetic.modulo_of_not_isNumeric_right ha hb]
    rfl

/-- At the ends of the range: -2^63 by -1 has no quotient and leaves 0, and by 2^63 - 1 it leaves
2^63 - 2.  Zero may be written as false; a text in front of it is looked at first. -/
theorem remainders_floored_limits :
    let integer (n : Int) (inRange : Number.InRange n) : Json := .number (.integer n inRange)
    let context : Json := .emptyObject
    let least := integer (-2 ^ 63) (by decide)
    (∃ inRange, modulo.apply [least, integer (-1) (by decide)] context
      = .ok (.number (.integer 0 inRange))) ∧
    (∃ inRange, modulo.apply [least, integer (2 ^ 63 - 1) (by decide)] context
      = .ok (.number (.integer (2 ^ 63 - 2) inRange))) ∧
    modulo.apply [least, .bool false] context = .error .divisionByZero ∧
    modulo.apply [.string "7", .bool false] context
      = .error (.typeMismatch .modulo (.operand .string)) ∧
    modulo.apply [.bool true, .null] context = .error (.typeMismatch .modulo (.operand .null)) := by
  intro integer context least
  obtain ⟨hintegers, hleft, hright⟩ := remainders_floored context
  have hleast : least.CountsAs (-2 ^ 63) := .integer (by decide)
  refine ⟨?_, ?_, ?_, hleft _ _ (by decide), hright _ _ (.inr rfl) (by decide)⟩
  · obtain ⟨r, inRange, hvalue, -, -, -, hword⟩ :=
      (hintegers _ _ _ (-1) hleast (.integer (by decide)) (by decide) (by decide)).2 (by decide)
    obtain rfl : 0 = r := Option.some.inj (Eq.trans (by decide +kernel) hword)
    exact ⟨inRange, hvalue⟩
  · obtain ⟨r, inRange, hvalue, -, -, -, hword⟩ :=
      (hintegers _ _ _ (2 ^ 63 - 1) hleast (.integer (by decide)) (by decide) (by decide)).2
        (by decide)
    obtain rfl : 2 ^ 63 - 2 = r := Option.some.inj (Eq.trans (by decide +kernel) hword)
    exact ⟨inRange, hvalue⟩
  · exact (hintegers _ _ _ _ hleast .false (by decide) (by decide)).1 rfl

end Operator

end FeatureFlags

import FeatureFlags.Decimal.Layout
import FeatureFlags.Decimal.Reader
import FeatureFlags.Proofs.Binary64.Nearest

/-!
The text of a number reads back as that number.

What a decimal is rounded to depends on its value alone, so zeros may be moved between its digits
and its exponent (`Binary64.ofDecimal_mul_pow`); the shortest digits of a number were chosen among
those that read back, and stay so when their trailing zeros are dropped
(`Finite.ofDecimal_shortestDecimal`).  A layout only moves the point, and writes the digits and the
exponent in a way that the reader understands (`Decimal.Spells`).  So the text of a number, in
whatever format, reads as that number (`Binary64.read?_text`), and different numbers have different
texts.
-/

namespace FeatureFlags

-- Powers of natural numbers are those of the core library, whatever else is imported.
attribute [local instance (2000)] instPowNat

/-! ### Decimals of one value -/

namespace Binary64

theorem roundMagnitude_mul_mul (n d : Nat) {c : Nat} (hc : 0 < c) :
    roundMagnitude (n * c) (d * c) = roundMagnitude n d := by
  have hbits : excessBits (n * c) (d * c) = excessBits n d := by
    rw [excessBits, excessBits, Nat.mul_div_mul_right _ _ hc]
  rw [roundMagnitude, roundMagnitude, hbits, Nat.mul_right_comm, roundQuotient_mul_mul _ _ hc]

theorem ofRatio_mul_mul (negative : Bool) (n d : Nat) {c : Nat} (hc : 0 < c) :
    ofRatio negative (n * c) (d * c) = ofRatio negative n d := by
  simp only [ofRatio, roundMagnitude_mul_mul n d hc]

theorem ofRatio_eq_finite_iff {negative : Bool} {n d : Nat} {x : Finite} :
    ofRatio negative n d = .finite x ↔
      x.negative = negative ∧ x.magnitude = roundMagnitude n d := by
  unfold ofRatio
  split
  case isTrue h =>
    rw [finite.injEq]
    constructor
    · rintro rfl
      exact ⟨rfl, rfl⟩
    · rintro ⟨hnegative, hmagnitude⟩
      obtain ⟨negative', magnitude', h'⟩ := x
      obtain rfl : negative' = negative := hnegative
      obtain rfl : magnitude' = roundMagnitude n d := hmagnitude
      rfl
  case isFalse h =>
    constructor
    · rintro ⟨⟩
    · rintro ⟨-, hmagnitude⟩
      exact absurd (hmagnitude ▸ x.representable) h

/-- Less than half a unit is rounded to nothing. -/
theorem roundMagnitude_of_lt_half {n d : Nat} (h : 2 * n < d) : roundMagnitude n d = 0 := by
  have hdiv : n / d = 0 := Nat.div_eq_of_lt (by omega)
  have hmod : n % d = n := Nat.mod_eq_of_lt (by omega)
  have hbits : excessBits n d = 0 := by
    rw [excessBits, hdiv]
    decide
  rw [roundMagnitude, hbits, Nat.pow_zero, Nat.mul_one, Nat.mul_one, roundQuotient]
  simp only [hdiv, hmod, if_pos h]

theorem not_representable_of_overflow {n : Nat} (h : overflowMagnitude ≤ n) :
    ¬Representable (roundMagnitude n 1) := by
  rintro ⟨hlt, -⟩
  have hself : roundMagnitude overflowMagnitude 1 = overflowMagnitude := by
    rw [overflowMagnitude, roundMagnitude_two_pow]
  have hle := roundMagnitude_mono h
  rw [hself] at hle
  exact Nat.not_le_of_lt hlt hle

theorem two_pow_le_ten_pow {j k : Nat} (h : j ≤ 3 * k) : 2 ^ j ≤ 10 ^ k :=
  calc 2 ^ j ≤ 2 ^ (3 * k) := Nat.pow_le_pow_right (by decide) h
    _ = 8 ^ k := Nat.pow_mul 2 3 k
    _ ≤ 10 ^ k := Nat.pow_le_pow_left (by decide) k

/-- From 10^400 on all digits overflow. -/
theorem ofRatio_of_large (negative : Bool) {digits k : Nat} (hdigits : digits ≠ 0) (hk : 400 ≤ k) :
    ofRatio negative (digits * 10 ^ k * unitsPerOne) 1 = .infinite negative := by
  have hexponents : overflowExponent - unitExponent ≤ 3 * 400 := by decide
  have hoverflow : overflowMagnitude ≤ digits * 10 ^ k * unitsPerOne :=
    calc overflowMagnitude = 2 ^ (overflowExponent - unitExponent) * unitsPerOne := by
          rw [unitsPerOne, ← Nat.pow_add, overflowMagnitude, Nat.sub_add_cancel (by decide)]
      _ ≤ 10 ^ k * unitsPerOne :=
        Nat.mul_le_mul_right _ (two_pow_le_ten_pow (Nat.le_trans hexponents (by omega)))
      _ ≤ digits * 10 ^ k * unitsPerOne :=
        Nat.mul_le_mul_right _ (Nat.le_mul_of_pos_left _ (Nat.pos_of_ne_zero hdigits))
  rw [ofRatio, dif_neg (not_representable_of_overflow hoverflow)]

/-- Less than half a unit is rounded to a zero. -/
theorem ofRatio_of_lt_half (negative : Bool) {n d : Nat} (h : 2 * n < d) :
    ofRatio negative n d = .finite { Finite.zero with negative := negative } := by
  rw [ofRatio_eq_finite_iff]
  refine ⟨rfl, ?_⟩
  rw [roundMagnitude_of_lt_half h]
  rfl

/-- With an exponent this far below zero, digits are less than half a unit. -/
theorem two_mul_lt_ten_pow {digits k : Nat} (hk : 400 + digits.log2 ≤ k) :
    2 * (digits * unitsPerOne) < 10 ^ k :=
  calc 2 * (digits * unitsPerOne)
      < 2 * (2 ^ (digits.log2 + 1) * unitsPerOne) :=
        Nat.mul_lt_mul_of_pos_left
          (Nat.mul_lt_mul_of_pos_right Nat.lt_log2_self (Nat.two_pow_pos _)) (by decide)
    _ = 2 ^ (1 + (digits.log2 + 1 + unitExponent)) := by
      rw [unitsPerOne, ← Nat.pow_add, Nat.pow_add 2 1, Nat.pow_one]
    _ ≤ 10 ^ k := two_pow_le_ten_pow (by rw [unitExponent]; omega)

/-- Exponents far outside the range of the format are settled as the power would settle them. -/
theorem ofDecimal_eq_ofRatio (negative : Bool) (digits : Nat) (exponent : Int) :
    ofDecimal negative digits exponent
      = ofRatio negative (digits * 10 ^ exponent.toNat * unitsPerOne)
          (10 ^ (-exponent).toNat) := by
  have hpos : 0 < 10 ^ (-exponent).toNat := Nat.pow_pos (by decide)
  unfold ofDecimal
  split
  case isTrue hzero =>
    rw [hzero, Nat.zero_mul, Nat.zero_mul, ofRatio_of_lt_half negative hpos]
  case isFalse hne =>
    split
    case isTrue hlarge =>
      have hexponent : (-exponent).toNat = 0 := by omega
      rw [hexponent, Nat.pow_zero, ofRatio_of_large negative hne (by omega)]
    case isFalse hsmall =>
      split
      case isTrue htiny =>
        have hexponent : exponent.toNat = 0 := by omega
        rw [hexponent, Nat.pow_zero, Nat.mul_one,
          ofRatio_of_lt_half negative (two_mul_lt_ten_pow (by omega))]
      case isFalse =>
        split
        case isTrue h =>
          have hexponent : (-exponent).toNat = 0 := by omega
          rw [hexponent, Nat.pow_zero]
        case isFalse h =>
          have hexponent : exponent.toNat = 0 := by omega
          rw [hexponent, Nat.pow_zero, Nat.mul_one]

/-- Zeros may be moved from the digits into the exponent. -/
theorem ofDecimal_mul_pow (negative : Bool) (digits k : Nat) (exponent : Int) :
    ofDecimal negative (digits * 10 ^ k) exponent = ofDecimal negative digits (exponent + k) := by
  -- both are one ratio, with a power of ten more on the left where the exponent is negative
  obtain ⟨j, habove, hbelow⟩ :
      ∃ j, k + exponent.toNat = (exponent + k).toNat + j ∧
        (-exponent).toNat = (-(exponent + k)).toNat + j :=
    ⟨(-exponent).toNat - (-(exponent + k)).toNat, by omega, by omega⟩
  have hnumerator : digits * 10 ^ k * 10 ^ exponent.toNat * unitsPerOne
      = digits * 10 ^ (exponent + k).toNat * unitsPerOne * 10 ^ j := by
    rw [Nat.mul_assoc digits, ← Nat.pow_add, habove, Nat.pow_add, ← Nat.mul_assoc,
      Nat.mul_right_comm]
  rw [ofDecimal_eq_ofRatio, ofDecimal_eq_ofRatio, hnumerator, hbelow, Nat.pow_add,
    ofRatio_mul_mul _ _ _ (Nat.pow_pos (by decide))]

end Binary64

namespace Decimal

/-- The two decimals are rounded to the same number. -/
def Reads (d d' : Decimal) : Prop :=
  ∀ negative, Binary64.ofDecimal negative d.digits d.exponent
    = Binary64.ofDecimal negative d'.digits d'.exponent

theorem reads_trim (d : Decimal) : d.trim.Reads d := by
  induction d using trim.induct with
  | case1 d h ih =>
    intro negative
    have hdigits : d.digits / 10 * 10 ^ 1 = d.digits :=
      Nat.div_mul_cancel (Nat.dvd_of_mod_eq_zero h.2)
    rw [trim, dif_pos h]
    calc Binary64.ofDecimal negative _ _
        = Binary64.ofDecimal negative (d.digits / 10) (d.exponent + 1) := ih negative
      _ = Binary64.ofDecimal negative (d.digits / 10 * 10 ^ 1) d.exponent :=
        (Binary64.ofDecimal_mul_pow negative _ 1 _).symm
      _ = Binary64.ofDecimal negative d.digits d.exponent := by rw [hdigits]
  | case2 d h =>
    intro negative
    rw [trim, dif_neg h]

end Decimal

/-! ### Shortest digits -/

namespace Finite

variable {x : Finite} {d : Decimal}

/-- A number is the nearest to itself. -/
theorem ofRatio_self (x : Finite) {c : Nat} (hc : 0 < c) :
    Binary64.ofRatio x.negative (x.magnitude * c) c = .finite x := by
  have hself : Binary64.roundMagnitude x.magnitude 1 = x.magnitude := by
    apply Binary64.roundMagnitude_eq_self
    rw [Binary64.excessBits_one]
    exact x.representable.2
  rw [Binary64.ofRatio_eq_finite_iff]
  refine ⟨rfl, ?_⟩
  calc x.magnitude = Binary64.roundMagnitude x.magnitude 1 := hself.symm
    _ = Binary64.roundMagnitude (x.magnitude * c) (1 * c) :=
      (Binary64.roundMagnitude_mul_mul _ _ hc).symm
    _ = Binary64.roundMagnitude (x.magnitude * c) c := by rw [Nat.one_mul]

theorem five_pow_mul_two_pow (k : Nat) : 5 ^ k * 2 ^ k = 10 ^ k := (Nat.mul_pow 5 2 k).symm

theorem isReadFrom_of_nearestOnGrid? {tie : TieRule} {exponent : Int}
    (h : x.nearestOnGrid? tie exponent = some d) : x.isReadFrom d = true := by
  unfold nearestOnGrid? at h
  dsimp only at h
  split at h
  case h_1 hbelow _ =>
    obtain rfl := Option.some.inj h
    exact hbelow
  case h_2 _ habove =>
    obtain rfl := Option.some.inj h
    exact habove
  case h_3 => cases h
  case h_4 hbelow habove =>
    split at h
    · obtain rfl := Option.some.inj h
      exact hbelow
    · split at h
      · obtain rfl := Option.some.inj h
        exact habove
      · split at h
        · obtain rfl := Option.some.inj h
          exact hbelow
        · obtain rfl := Option.some.inj h
          exact habove

/-- The sign does not take part in rounding. -/
theorem ofDecimal_of_abs (h : x.abs.isReadFrom d = true) :
    Binary64.ofDecimal x.negative d.digits d.exponent = .finite x := by
  have habs : Binary64.ofDecimal false d.digits d.exponent = .finite x.abs :=
    of_decide_eq_true h
  rw [Binary64.ofDecimal_eq_ofRatio, Binary64.ofRatio_eq_finite_iff] at habs ⊢
  exact ⟨rfl, habs.2⟩

/-- All decimal digits of a number name that number: a unit is `5 ^ 1074 / 10 ^ 1074`. -/
theorem ofDecimal_exactDecimal (x : Finite) :
    Binary64.ofDecimal x.negative x.exactDecimal.digits x.exactDecimal.exponent = .finite x := by
  have hexponent : (-x.exactDecimal.exponent).toNat = Binary64.unitExponent := by
    simp [exactDecimal]
  have hexponent' : x.exactDecimal.exponent.toNat = 0 := by
    simp [exactDecimal]
  have hdigits : x.exactDecimal.digits = x.magnitude * 5 ^ Binary64.unitExponent := by
    rw [exactDecimal]
  rw [Binary64.ofDecimal_eq_ofRatio, hexponent, hexponent', Nat.pow_zero, Nat.mul_one, hdigits,
    Nat.mul_assoc, Binary64.unitsPerOne, five_pow_mul_two_pow]
  exact ofRatio_self x (Nat.pow_pos (by decide))

/-- The shortest digits of a number name that number. -/
theorem ofDecimal_shortestDecimal (tie : TieRule) (x : Finite) :
    Binary64.ofDecimal x.negative (x.shortestDecimal tie).digits (x.shortestDecimal tie).exponent
      = .finite x := by
  by_cases hzero : x.isZero = true
  · have hshortest : x.shortestDecimal tie = ⟨0, 0⟩ := if_pos hzero
    rw [hshortest, Binary64.ofDecimal, if_pos rfl, Binary64.finite.injEq]
    obtain ⟨negative, magnitude, h⟩ := x
    obtain rfl : magnitude = 0 := of_decide_eq_true hzero
    rfl
  · -- the digits that were found read back, and all digits do if none were
    obtain ⟨found, hshortest, hfound⟩ :
        ∃ found : Option Decimal, x.shortestDecimal tie = (found.getD x.exactDecimal).trim ∧
          ∀ d, found = some d → x.abs.isReadFrom d = true := by
      refine ⟨_, if_neg hzero, fun d hd => ?_⟩
      obtain ⟨n, -, hn⟩ := List.exists_of_findSome?_eq_some hd
      exact isReadFrom_of_nearestOnGrid? hn
    rw [hshortest, Decimal.reads_trim]
    cases found with
    | none =>
      rw [Option.getD_none]
      exact ofDecimal_exactDecimal x
    | some d =>
      rw [Option.getD_some]
      exact ofDecimal_of_abs (hfound d rfl)

end Finite

/-! ### Digits -/

namespace Text

variable {n : Nat} {c : Char} {digits : List Char}

theorem digitsValue_decimal (n : Nat) : digitsValue (decimal n) = n :=
  Nat.ofDigitChars_ten_toDigits

theorem isDigit_of_mem_decimal (h : c ∈ decimal n) : c.isDigit = true :=
  Nat.isDigit_of_mem_toDigits (by decide) (by decide) h

theorem decimal_ne_nil (n : Nat) : decimal n ≠ [] := Nat.toDigits_ne_nil

theorem digitsValue_zeros_append (k : Nat) (digits : List Char) :
    digitsValue (List.replicate k '0' ++ digits) = digitsValue digits :=
  calc digitsValue (List.replicate k '0' ++ digits)
      = Nat.ofDigitChars 10 digits (Nat.ofDigitChars 10 (List.replicate k '0') 0) :=
        Nat.ofDigitChars_append 0
    _ = digitsValue digits := by
        rw [Nat.ofDigitChars_replicate_zero, Nat.mul_zero]
        rfl

theorem digitsValue_append_zeros (digits : List Char) (k : Nat) :
    digitsValue (digits ++ List.replicate k '0') = digitsValue digits * 10 ^ k :=
  calc digitsValue (digits ++ List.replicate k '0')
      = Nat.ofDigitChars 10 (List.replicate k '0') (digitsValue digits) :=
        Nat.ofDigitChars_append 0
    _ = digitsValue digits * 10 ^ k := by rw [Nat.ofDigitChars_replicate_zero, Nat.mul_comm]

end Text

/-! ### Written decimals -/

namespace Decimal

/-- The text is no exponent, or a mark, a sign or none, and digits. -/
inductive SpellsExponent : List Char → Int → Prop where
  | none : SpellsExponent [] 0
  | plain (n : Nat) : SpellsExponent ('e' :: Text.decimal n) n
  | plus (n : Nat) : SpellsExponent ('e' :: '+' :: Text.decimal n) n
  | minus (n : Nat) : SpellsExponent ('e' :: '-' :: Text.decimal n) (-n)

/-- The text shows the decimal: digits around a point, or digits without a point before an exponent
that is written. -/
inductive Spells : List Char → Decimal → Prop where
  | point {whole fraction mark : List Char} {exponent : Int} (hne : whole ≠ [])
    (hwhole : ∀ c ∈ whole, c.isDigit = true) (hfraction : ∀ c ∈ fraction, c.isDigit = true)
    (hmark : SpellsExponent mark exponent) :
    Spells (whole ++ '.' :: (fraction ++ mark))
      ⟨Text.digitsValue (whole ++ fraction), exponent - fraction.length⟩
  | noPoint {whole mark : List Char} {exponent : Int} (hne : whole ≠ [])
    (hwhole : ∀ c ∈ whole, c.isDigit = true) (hmark : SpellsExponent mark exponent)
    (hwritten : mark ≠ []) : Spells (whole ++ mark) ⟨Text.digitsValue whole, exponent⟩

variable {text mark : List Char} {d : Decimal} {exponent : Int}

/-- Digits around a point, without an exponent. -/
theorem Spells.pointed {whole fraction : List Char} (hne : whole ≠ [])
    (hwhole : ∀ c ∈ whole, c.isDigit = true) (hfraction : ∀ c ∈ fraction, c.isDigit = true) :
    Spells (whole ++ '.' :: fraction) ⟨Text.digitsValue (whole ++ fraction), -fraction.length⟩ := by
  have h := Spells.point hne hwhole hfraction .none
  rwa [List.append_nil, Int.zero_sub] at h

/-- Digits are no sign. -/
theorem splitSign_of_isDigit {c : Char} {rest : List Char} (h : c.isDigit = true) :
    splitSign (c :: rest) = (false, c :: rest) := by
  unfold splitSign
  split
  case h_1 heq =>
    obtain ⟨rfl, -⟩ := List.cons.inj heq
    exact absurd h (by decide)
  case h_2 heq =>
    obtain ⟨rfl, -⟩ := List.cons.inj heq
    exact absurd h (by decide)
  case h_3 => rfl

theorem splitSign_decimal (n : Nat) : splitSign (Text.decimal n) = (false, Text.decimal n) := by
  obtain ⟨c, rest, hdecimal⟩ := List.exists_cons_of_ne_nil (Text.decimal_ne_nil n)
  have hc : c.isDigit = true := Text.isDigit_of_mem_decimal (hdecimal ▸ List.mem_cons_self)
  rw [hdecimal, splitSign_of_isDigit hc]

theorem readExponent?_of_spells (h : SpellsExponent mark exponent) :
    readExponent? mark = some exponent := by
  have hdigits : ∀ n, (Text.decimal n).all Char.isDigit = true := fun n =>
    List.all_eq_true.2 fun c hc => Text.isDigit_of_mem_decimal hc
  cases h with
  | none => rfl
  | plain n =>
    simp [readExponent?, splitSign_decimal, Text.decimal_ne_nil, hdigits, Text.digitsValue_decimal]
  | plus n =>
    simp [readExponent?, splitSign, Text.decimal_ne_nil, hdigits, Text.digitsValue_decimal]
  | minus n =>
    simp [readExponent?, splitSign, Text.decimal_ne_nil, hdigits, Text.digitsValue_decimal]

/-- An exponent starts with its mark, which is no digit. -/
theorem SpellsExponent.head (h : SpellsExponent mark exponent) : ∀ c ∈ mark.head?, c = 'e' := by
  cases h <;> simp

/-- Where the digits end, the text is split. -/
theorem span_digits {digits : List Char} (rest : List Char)
    (hdigits : ∀ c ∈ digits, c.isDigit = true)
    (hrest : ∀ c ∈ rest.head?, c.isDigit = false) :
    (digits ++ rest).takeWhile Char.isDigit = digits ∧
      (digits ++ rest).dropWhile Char.isDigit = rest := by
  have hstop : rest.takeWhile Char.isDigit = [] ∧ rest.dropWhile Char.isDigit = rest := by
    cases rest with
    | nil => exact ⟨rfl, rfl⟩
    | cons c rest =>
      have hc : c.isDigit = false := hrest c rfl
      simp [hc]
  rw [List.takeWhile_append_of_pos hdigits, List.dropWhile_append_of_pos hdigits, hstop.1, hstop.2,
    List.append_nil]
  exact ⟨rfl, rfl⟩

theorem read?_of_spells (h : Spells text d) : read? text = some d := by
  cases h with
  | @point whole fraction mark exponent hne hwhole hfraction hmark =>
    have hstart : ∀ c ∈ mark.head?, c.isDigit = false := fun c hc => by
      rw [hmark.head c hc]
      decide
    obtain ⟨htake, hdrop⟩ := span_digits ('.' :: (fraction ++ mark)) hwhole (by simp)
    obtain ⟨htake', hdrop'⟩ := span_digits mark hfraction hstart
    simp [read?, htake, hdrop, splitFraction, htake', hdrop', hne, readExponent?_of_spells hmark]
  | @noPoint whole mark exponent hne hwhole hmark hwritten =>
    have hstart : ∀ c ∈ mark.head?, c.isDigit = false := fun c hc => by
      rw [hmark.head c hc]
      decide
    obtain ⟨htake, hdrop⟩ := span_digits mark hwhole hstart
    have hsplit : splitFraction mark = ([], mark) := by
      cases hmark <;> rfl
    simp [read?, htake, hdrop, hsplit, hne, readExponent?_of_spells hmark]

end Decimal

/-! ### Layouts -/

namespace NumberFormat

open Decimal (Spells SpellsExponent)

variable {digits : List Char}

theorem isDigit_zeros_append (k : Nat) (hdigits : ∀ c ∈ digits, c.isDigit = true) :
    ∀ c ∈ List.replicate k '0' ++ digits, c.isDigit = true := by
  intro c hc
  rcases List.mem_append.1 hc with hc | hc
  · rw [List.eq_of_mem_replicate hc]
    rfl
  · exact hdigits c hc

/-- A point in front of the digits. -/
theorem exists_spells_of_nonpos (hdigits : ∀ c ∈ digits, c.isDigit = true) {point : Int}
    (hpoint : point ≤ 0) :
    ∃ d, Spells ('0' :: '.' :: (List.replicate (-point).toNat '0' ++ digits)) d ∧
      d.Reads ⟨Text.digitsValue digits, point - digits.length⟩ := by
  have hwhole : ∀ c ∈ ['0'], c.isDigit = true := by simp
  refine ⟨_, .pointed (List.cons_ne_nil _ _) hwhole (isDigit_zeros_append _ hdigits), ?_⟩
  intro negative
  have hvalue : Text.digitsValue (['0'] ++ (List.replicate (-point).toNat '0' ++ digits))
      = Text.digitsValue digits := by
    rw [← List.append_assoc]
    exact Text.digitsValue_zeros_append ((-point).toNat + 1) digits
  have hexponent : -((List.replicate (-point).toNat '0' ++ digits).length : Int)
      = point - digits.length := by
    rw [List.length_append, List.length_replicate]
    omega
  dsimp only
  rw [hvalue, hexponent]

/-- A point among the digits. -/
theorem exists_spells_of_lt_length (hne : digits ≠ []) (hdigits : ∀ c ∈ digits, c.isDigit = true)
    {point : Int} (hpos : 0 < point) (hlt : point < digits.length) :
    ∃ d, Spells (digits.take point.toNat ++ '.' :: digits.drop point.toNat) d ∧
      d.Reads ⟨Text.digitsValue digits, point - digits.length⟩ := by
  have htake : digits.take point.toNat ≠ [] := by
    rw [ne_eq, List.take_eq_nil_iff, not_or]
    exact ⟨by omega, hne⟩
  have hwhole : ∀ c ∈ digits.take point.toNat, c.isDigit = true :=
    fun c hc => hdigits c (List.mem_of_mem_take hc)
  have hfraction : ∀ c ∈ digits.drop point.toNat, c.isDigit = true :=
    fun c hc => hdigits c (List.mem_of_mem_drop hc)
  refine ⟨_, .pointed htake hwhole hfraction, ?_⟩
  intro negative
  have hexponent : -((digits.drop point.toNat).length : Int) = point - digits.length := by
    rw [List.length_drop]
    omega
  dsimp only
  rw [List.take_append_drop, hexponent]

/-- A point behind the digits, and zeros in between. -/
theorem exists_spells_of_length_le (hne : digits ≠ []) (hdigits : ∀ c ∈ digits, c.isDigit = true)
    {point : Int} (hle : digits.length ≤ point) :
    ∃ d, Spells (digits ++ List.replicate (point.toNat - digits.length) '0' ++ ['.', '0']) d ∧
      d.Reads ⟨Text.digitsValue digits, point - digits.length⟩ := by
  let k := point.toNat - digits.length
  have hwhole : ∀ c ∈ digits ++ List.replicate k '0', c.isDigit = true := fun c hc =>
    isDigit_zeros_append k hdigits c (List.mem_append.2 (List.mem_append.1 hc).symm)
  have hfraction : ∀ c ∈ ['0'], c.isDigit = true := by simp
  refine ⟨_, .pointed (List.append_ne_nil_of_left_ne_nil hne _) hwhole hfraction, ?_⟩
  intro negative
  have hvalue : Text.digitsValue (digits ++ List.replicate k '0' ++ ['0'])
      = Text.digitsValue digits * 10 ^ (k + 1) := by
    rw [List.append_assoc, ← List.replicate_succ', Text.digitsValue_append_zeros]
  have hexponent : -((['0'] : List Char).length : Int) + (k + 1 : Nat)
      = point - digits.length := by
    simp only [List.length_singleton, k]
    omega
  dsimp only
  rw [hvalue, Binary64.ofDecimal_mul_pow, hexponent]

/-- Moving the point only moves zeros between the digits and the exponent. -/
theorem exists_spells_positional (hne : digits ≠ []) (hdigits : ∀ c ∈ digits, c.isDigit = true)
    (point : Int) :
    ∃ d, Spells (positional digits point) d ∧
      d.Reads ⟨Text.digitsValue digits, point - digits.length⟩ := by
  unfold positional
  split
  case isTrue hpoint => exact exists_spells_of_nonpos hdigits hpoint
  case isFalse hpoint =>
    split
    case isTrue hinside =>
      exact exists_spells_of_lt_length hne hdigits (Int.not_le.1 hpoint) hinside
    case isFalse houtside => exact exists_spells_of_length_le hne hdigits (Int.not_lt.1 houtside)

theorem spells_scientific (format : NumberFormat) (hne : digits ≠ [])
    (hdigits : ∀ c ∈ digits, c.isDigit = true) (exponent : Int) :
    Spells (format.scientific digits exponent)
      ⟨Text.digitsValue digits, exponent + 1 - digits.length⟩ := by
  obtain ⟨sign, hsign, hmark⟩ : ∃ sign,
      (if exponent < 0 then ['-'] else if format.plusSign then ['+'] else []) = sign ∧
        SpellsExponent ('e' :: (sign ++ Text.decimal exponent.natAbs)) exponent := by
    refine ⟨_, rfl, ?_⟩
    split
    case isTrue h =>
      have hmark := SpellsExponent.minus exponent.natAbs
      rwa [show -(exponent.natAbs : Int) = exponent by omega] at hmark
    case isFalse h =>
      have hexponent : (exponent.natAbs : Int) = exponent := by omega
      split
      · have hmark := SpellsExponent.plus exponent.natAbs
        rwa [hexponent] at hmark
      · have hmark := SpellsExponent.plain exponent.natAbs
        rwa [hexponent] at hmark
  obtain ⟨c, rest, rfl⟩ := List.exists_cons_of_ne_nil hne
  have hc : ∀ c' ∈ [c], c'.isDigit = true := fun c' hc' => by
    obtain rfl := List.mem_singleton.1 hc'
    exact hdigits c' List.mem_cons_self
  have hrest : ∀ c' ∈ rest, c'.isDigit = true := fun c' hc' =>
    hdigits c' (List.mem_cons_of_mem c hc')
  unfold scientific
  dsimp only
  rw [hsign]
  cases rest with
  | nil =>
    have hspells := Spells.noPoint (List.cons_ne_nil c []) hc hmark (List.cons_ne_nil _ _)
    simpa using hspells
  | cons c' rest =>
    have hspells := Spells.point (List.cons_ne_nil c []) hc hrest hmark
    have hexponent : exponent + 1 - ((c :: c' :: rest).length : Int)
        = exponent - (c' :: rest).length := by
      simp only [List.length_cons]
      omega
    rw [hexponent]
    simpa using hspells

/-- The text of a decimal shows a decimal that is rounded to the same number. -/
theorem exists_spells_decimalText (format : NumberFormat) (d : Decimal) :
    ∃ d', Spells (format.decimalText d) d' ∧ d'.Reads d := by
  have hne : Text.decimal d.digits ≠ [] := Text.decimal_ne_nil _
  have hdigits : ∀ c ∈ Text.decimal d.digits, c.isDigit = true :=
    fun c hc => Text.isDigit_of_mem_decimal hc
  unfold decimalText
  dsimp only
  split
  · obtain ⟨d', hspells, hreads⟩ := exists_spells_positional hne hdigits
      ((Text.decimal d.digits).length + d.exponent)
    rw [Text.digitsValue_decimal, add_sub_cancel_left] at hreads
    exact ⟨d', hspells, hreads⟩
  · have hspells := format.spells_scientific hne hdigits
      ((Text.decimal d.digits).length + d.exponent - 1)
    rw [Text.digitsValue_decimal, Int.sub_add_cancel, add_sub_cancel_left] at hspells
    exact ⟨d, hspells, fun _ => rfl⟩

end NumberFormat

/-! ### Numbers -/

namespace Decimal

/-- The text of a decimal starts with a digit. -/
theorem Spells.head {text : List Char} {d : Decimal} (h : Spells text d) :
    ∃ c rest, text = c :: rest ∧ c.isDigit = true := by
  cases h with
  | @point whole _ _ _ hne hwhole _ _ | @noPoint whole _ _ hne hwhole _ _ =>
    obtain ⟨c, rest, rfl⟩ := List.exists_cons_of_ne_nil hne
    exact ⟨c, _, rfl, hwhole c List.mem_cons_self⟩

end Decimal

namespace Binary64

open Decimal (Spells)

/-- Digits stand for themselves in any case. -/
theorem toLower_of_isDigit {c : Char} (h : c.isDigit = true) : c.toLower = c := by
  have hupper : ¬(c.val ≥ 'A'.val ∧ c.val ≤ 'Z'.val) := by
    rintro ⟨hletter, -⟩
    simp only [Char.isDigit, Bool.and_eq_true, decide_eq_true_eq] at h
    have hle : 'A'.val ≤ 57 := UInt32.le_trans hletter h.2
    revert hle
    decide
  exact dif_neg hupper

theorem read?_of_spells (negative : Bool) {text : List Char} {d : Decimal} (h : Spells text d) :
    read? (if negative then '-' :: text else text)
      = some (ofDecimal negative d.digits d.exponent) := by
  obtain ⟨c, rest, rfl, hc⟩ := h.head
  have hsplit : Decimal.splitSign (if negative then '-' :: c :: rest else c :: rest)
      = (negative, c :: rest) := by
    cases negative with
    | false => exact Decimal.splitSign_of_isDigit hc
    | true => rfl
  -- a digit starts none of the names
  have hname : ∀ name : List Char, name.head?.any Char.isDigit = false →
      (c :: rest).map Char.toLower ≠ name := by
    rintro name hhead rfl
    rw [List.map_cons, List.head?_cons, Option.any_some, toLower_of_isDigit hc, hc] at hhead
    cases hhead
  rw [read?, hsplit]
  dsimp only
  rw [if_neg, if_neg, Decimal.read?_of_spells h]
  · rfl
  · exact hname _ (by decide)
  · rw [not_or]
    exact ⟨hname _ (by decide), hname _ (by decide)⟩

/-- A text that shows a finite number. -/
theorem exists_spells_finiteText (format : NumberFormat) (x : Finite) :
    ∃ text d, format.finiteText x = (if x.negative then '-' :: text else text) ∧
      Spells text d ∧ ofDecimal x.negative d.digits d.exponent = .finite x := by
  obtain ⟨d, hspells, hreads⟩ :=
    format.exists_spells_decimalText (x.shortestDecimal format.tie)
  exact ⟨_, d, rfl, hspells, (hreads x.negative).trans (x.ofDecimal_shortestDecimal format.tie)⟩

/-- The text of a number reads back as that number, in every format. -/
theorem read?_text (format : NumberFormat) (x : Binary64) : read? (format.text x) = some x := by
  cases x with
  | finite x =>
    obtain ⟨text, d, htext, hspells, hreads⟩ := exists_spells_finiteText format x
    rw [NumberFormat.text, htext, read?_of_spells x.negative hspells, hreads]
  | infinite negative => cases negative <;> rfl
  | nan => rfl

end Binary64

end FeatureFlags

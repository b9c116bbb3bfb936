import Mathlib.Order.Compare
import Mathlib.Order.Defs.LinearOrder
import Mathlib.Algebra.Order.Ring.Int
import Mathlib.Tactic.Order
import FeatureFlags.Proofs.Binary64.Nearest
import FeatureFlags.Proofs.Rule.Composition

/-!
Comparisons of numbers.

The orderings, the equalities, membership in an array and the extremes all compare numbers by one
rank, their value as binary64 numbers (`Json.numericValue`).  Integers of 64 bits are rounded on the
way, so the comparisons are those of the nearest integers of 53 significant bits: two integers are
told apart unless they are merged (`Operator.integers_compared`).
-/

namespace FeatureFlags

open Binary64 (nearest Merged nearest_eq_iff nearest_le_iff compare_nearest_iff)

namespace Json

/-! ### Numbers by value -/

/-- The value of a number in units of 2^-1074; other values have none that counts. -/
def numericValue : Json → Int
  | .number n => n.toFinite.units
  | _ => 0

theorem order_number (m n : Number) :
    order (.number m) (.number n)
      = .ok (Ord.compare (numericValue (.number m)) (numericValue (.number n))) :=
  rfl

theorem looselyEqual_number (m n : Number) :
    looselyEqual (.number m) (.number n)
      = decide (numericValue (.number m) = numericValue (.number n)) := by
  rw [looselyEqual]
  rfl

/-! ### Extremes -/

section Extremes

variable {α : Type} [LinearOrder α] {rank : Json → α} {direction : Ordering}
variable {best next found : Json} {values : List Json}

/-- To go beyond a value is to be less than it, or else to be greater. -/
theorem beyond_iff (α : Type) [LinearOrder α] (hdirection : direction ≠ .eq) :
    (∀ a b : α, Ord.compare a b = direction ↔ a < b) ∨
    ∀ a b : α, Ord.compare a b = direction ↔ b < a := by
  cases direction with
  | lt => exact .inl fun a b => compare_lt_iff_lt
  | eq => exact absurd rfl hdirection
  | gt => exact .inr fun a b => compare_gt_iff_gt

/-- Of the values, `found` is the first that no other goes beyond: it goes beyond all that come
before it, and none that comes after it goes beyond it. -/
def FirstExtreme (rank : Json → α) (direction : Ordering) (values : List Json) (found : Json) :
    Prop :=
  ∃ front back, values = front ++ found :: back ∧
    (∀ value ∈ front, Ord.compare (rank found) (rank value) = direction) ∧
    ∀ value ∈ back, Ord.compare (rank value) (rank found) ≠ direction

namespace FirstExtreme

theorem mem (h : FirstExtreme rank direction values found) : found ∈ values := by
  obtain ⟨front, back, rfl, -, -⟩ := h
  simp

theorem not_beyond (hdirection : direction ≠ .eq) (h : FirstExtreme rank direction values found) :
    ∀ value ∈ values, Ord.compare (rank value) (rank found) ≠ direction := by
  obtain ⟨front, back, rfl, hfront, hback⟩ := h
  intro value hvalue
  rcases List.mem_append.1 hvalue with hvalue | hvalue
  · have hbeyond := hfront value hvalue
    rcases beyond_iff α hdirection with hiff | hiff <;> rw [hiff] at hbeyond <;>
      rw [ne_eq, hiff] <;> order
  · rcases List.mem_cons.1 hvalue with rfl | hvalue
    · rcases beyond_iff α hdirection with hiff | hiff <;> rw [ne_eq, hiff] <;> order
    · exact hback value hvalue

theorem singleton (best : Json) : FirstExtreme rank direction [best] best :=
  ⟨[], [], rfl, by simp, by simp⟩

/-- A value that the one after it goes beyond is not the extreme. -/
theorem cons_of_beyond (hdirection : direction ≠ .eq)
    (h : FirstExtreme rank direction (next :: values) found)
    (hnext : Ord.compare (rank next) (rank best) = direction) :
    FirstExtreme rank direction (best :: next :: values) found := by
  have hnot := h.not_beyond hdirection next List.mem_cons_self
  obtain ⟨front, back, hvalues, hfront, hback⟩ := h
  refine ⟨best :: front, back, congrArg (best :: ·) hvalues, ?_, hback⟩
  rw [List.forall_mem_cons]
  refine ⟨?_, hfront⟩
  rcases beyond_iff α hdirection with hiff | hiff <;> rw [hiff] at hnext <;>
    rw [ne_eq, hiff] at hnot <;> rw [hiff] <;> order

/-- A value that does not go beyond the one before it is left out without loss. -/
theorem insert_of_not_beyond (hdirection : direction ≠ .eq)
    (h : FirstExtreme rank direction (best :: values) found)
    (hnext : Ord.compare (rank next) (rank best) ≠ direction) :
    FirstExtreme rank direction (best :: next :: values) found := by
  obtain ⟨front, back, hvalues, hfront, hback⟩ := h
  cases front with
  | nil =>
    obtain ⟨rfl, rfl⟩ := List.cons.inj hvalues
    exact ⟨[], next :: values, rfl, hfront, List.forall_mem_cons.2 ⟨hnext, hback⟩⟩
  | cons _ front =>
    obtain ⟨rfl, rfl⟩ := List.cons.inj hvalues
    rw [List.forall_mem_cons] at hfront
    obtain ⟨hbest, hfront⟩ := hfront
    refine ⟨best :: next :: front, back, rfl, ?_, hback⟩
    simp only [List.forall_mem_cons]
    refine ⟨hbest, ?_, hfront⟩
    rcases beyond_iff α hdirection with hiff | hiff <;> rw [hiff] at hbest <;>
      rw [ne_eq, hiff] at hnext <;> rw [hiff] <;> order

end FirstExtreme

/-- Operands that are ordered by a rank have an extreme, and the first one is found. -/
theorem exists_extreme (hdirection : direction ≠ .eq) {best : Json} {values : List Json}
    (hrank : ∀ a ∈ best :: values, ∀ b ∈ best :: values,
      order a b = .ok (Ord.compare (rank a) (rank b))) :
    ∃ found, extreme direction best values = .ok found ∧
      FirstExtreme rank direction (best :: values) found := by
  induction values generalizing best with
  | nil => exact ⟨best, rfl, .singleton best⟩
  | cons next rest ih =>
    have hunfold : extreme direction best (next :: rest)
        = extreme direction
            (if Ord.compare (rank next) (rank best) = direction then next else best) rest := by
      rw [extreme, hrank next (by simp) best (by simp)]
      rfl
    by_cases hbeyond : Ord.compare (rank next) (rank best) = direction
    · rw [if_pos hbeyond] at hunfold
      obtain ⟨found, hfound, hfirst⟩ := ih fun a ha b hb =>
        hrank a (List.mem_cons_of_mem _ ha) b (List.mem_cons_of_mem _ hb)
      exact ⟨found, hunfold.trans hfound, hfirst.cons_of_beyond hdirection hbeyond⟩
    · rw [if_neg hbeyond] at hunfold
      have hsubset : ∀ value ∈ best :: rest, value ∈ best :: next :: rest := by
        intro value hvalue
        rcases List.mem_cons.1 hvalue with rfl | hvalue <;> simp [*]
      obtain ⟨found, hfound, hfirst⟩ := ih fun a ha b hb =>
        hrank a (hsubset a ha) b (hsubset b hb)
      exact ⟨found, hunfold.trans hfound, hfirst.insert_of_not_beyond hdirection hbeyond⟩

end Extremes

/-! ### Integers -/

/-- The integers that JSON numbers hold, from -2^63 up to 2^64 - 1. -/
abbrev Integer : Type := { n : Int // Number.InRange n }

/-- The integer as a value. -/
def ofInteger (n : Integer) : Json := .number (.integer n.1 n.2)

variable {x y : Integer}

theorem numericValue_ofInteger (x : Integer) :
    numericValue (ofInteger x) = nearest x.1 * Binary64.unitsPerOne :=
  Finite.units_ofInt x.1 (Number.natAbs_le_of_inRange x.2)

/-- Integers are ordered by the nearest ones of 53 significant bits. -/
theorem compare_numericValue (x y : Integer) :
    Ord.compare (numericValue (ofInteger x)) (numericValue (ofInteger y))
      = Ord.compare (nearest x.1) (nearest y.1) := by
  have hunit : (0 : Int) < Binary64.unitsPerOne := Binary64.unitsPerOne_pos
  rw [numericValue_ofInteger, numericValue_ofInteger, compare_iff]
  cases hxy : Ord.compare (nearest x.1) (nearest y.1) with
  | lt => exact Int.mul_lt_mul_of_pos_right (compare_lt_iff_lt.1 hxy) hunit
  | eq => exact congrArg (· * (Binary64.unitsPerOne : Int)) (compare_eq_iff_eq.1 hxy)
  | gt => exact Int.mul_lt_mul_of_pos_right (compare_gt_iff_gt.1 hxy) hunit

/-- An extreme of integers is one of them. -/
theorem exists_extreme_integer {direction : Ordering} (hdirection : direction ≠ .eq)
    (first : Integer) (rest : List Integer) :
    ∃ found ∈ first :: rest,
      extreme direction (ofInteger first) (rest.map ofInteger) = .ok (ofInteger found) ∧
      ∀ y ∈ first :: rest, Ord.compare (nearest y.1) (nearest found.1) ≠ direction := by
  have hrank : ∀ a ∈ (first :: rest).map ofInteger, ∀ b ∈ (first :: rest).map ofInteger,
      order a b = .ok (Ord.compare (numericValue a) (numericValue b)) := by
    intro a ha b hb
    obtain ⟨x, -, rfl⟩ := List.mem_map.1 ha
    obtain ⟨y, -, rfl⟩ := List.mem_map.1 hb
    exact order_number _ _
  obtain ⟨value, hextreme, hfirst⟩ := exists_extreme hdirection hrank
  rw [← List.map_cons] at hfirst
  obtain ⟨found, hfound, rfl⟩ := List.mem_map.1 hfirst.mem
  refine ⟨found, hfound, hextreme, fun y hy => ?_⟩
  rw [← compare_numericValue]
  exact hfirst.not_beyond hdirection (ofInteger y) (List.mem_map_of_mem hy)

end Json

namespace Operator

open Json (Integer ofInteger)

/-! ### What the operators say of two values -/

/-- The six comparisons of two operands all answer as the order says. -/
structure Compared (context a b : Json) (o : Ordering) : Prop where
  equal : Operator.equal.apply [a, b] context = .ok (.bool (o = .eq))
  notEqual : Operator.notEqual.apply [a, b] context = .ok (.bool (o ≠ .eq))
  less : Operator.less.apply [a, b] context = .ok (.bool (o = .lt))
  lessOrEqual : Operator.lessOrEqual.apply [a, b] context = .ok (.bool (o ≠ .gt))
  greater : Operator.greater.apply [a, b] context = .ok (.bool (o = .gt))
  greaterOrEqual : Operator.greaterOrEqual.apply [a, b] context = .ok (.bool (o ≠ .lt))

variable {context a b : Json}

theorem compare_of_order {o : Ordering} (horder : Json.order a b = .ok o) (op : Operator) :
    op.compare a b = .ok (op.satisfiedBy o) := by
  rw [compare, horder]
  rfl

/-- Orderings and equalities are two ways to compare, which have to agree. -/
theorem compared_of_order {o : Ordering} (horder : Json.order a b = .ok o)
    (hequal : a.looselyEqual b = decide (o = .eq)) : Compared context a b o where
  equal := by rw [apply, hequal]
  notEqual := by
    rw [apply, hequal]
    simp
  less := by
    rw [apply, compare_of_order horder]
    rfl
  lessOrEqual := by
    rw [apply, compare_of_order horder]
    rfl
  greater := by
    rw [apply, compare_of_order horder]
    rfl
  greaterOrEqual := by
    rw [apply, compare_of_order horder]
    rfl

theorem Compared.unique {o o' : Ordering} (h : Compared context a b o)
    (h' : Compared context a b o') : o = o' := by
  have hless := h.less.symm.trans h'.less
  have hgreater := h.greater.symm.trans h'.greater
  simp only [Except.ok.injEq, Json.bool.injEq, decide_eq_decide] at hless hgreater
  cases o <;> cases o' <;> simp at hless hgreater ⊢

/-- Numbers are compared by their values. -/
theorem compared_numbers (context : Json) (m n : Number) :
    Compared context (.number m) (.number n)
      (Ord.compare (Json.number m).numericValue (Json.number n).numericValue) := by
  apply compared_of_order (Json.order_number m n)
  rw [Json.looselyEqual_number]
  exact decide_eq_decide.2 compare_eq_iff_eq.symm

/-! ### Integers -/

theorem compared_integers (context : Json) (x y : Integer) :
    Compared context (ofInteger x) (ofInteger y) (Ord.compare (nearest x.1) (nearest y.1)) := by
  rw [← Json.compare_numericValue]
  exact compared_numbers context _ _

theorem isIn_integers (context : Json) (x : Integer) (items : List Integer) :
    isIn.apply [ofInteger x, .array (items.map ofInteger)] context
      = .ok (.bool (decide (∃ y ∈ items, x = y ∨ Merged x.1 y.1))) := by
  have hany : (items.map ofInteger).any (fun item => item.looselyEqual (ofInteger x))
      = decide (∃ y ∈ items, x = y ∨ Merged x.1 y.1) := by
    rw [List.any_map, Bool.eq_iff_iff, List.any_eq_true, decide_eq_true_eq]
    refine exists_congr fun y => and_congr_right fun _ => ?_
    have hequal : (ofInteger y).looselyEqual (ofInteger x) = true ↔ nearest y.1 = nearest x.1 := by
      have h := (compared_integers context y x).equal
      simp only [apply, Except.ok.injEq, Json.bool.injEq] at h
      rw [h, decide_eq_true_eq, compare_eq_iff_eq]
    rw [Function.comp_apply, hequal, eq_comm, nearest_eq_iff, Subtype.ext_iff]
  rw [apply, Json.holds, hany]
  rfl

theorem min_integers (context : Json) (first : Integer) (rest : List Integer) :
    ∃ least ∈ first :: rest,
      min.apply ((first :: rest).map ofInteger) context = .ok (ofInteger least) ∧
      ∀ y ∈ first :: rest, least.1 ≤ y.1 ∨ Merged least.1 y.1 := by
  obtain ⟨least, hmem, hleast, hall⟩ :=
    Json.exists_extreme_integer (show Ordering.lt ≠ .eq by decide) first rest
  refine ⟨least, hmem, congrArg (blame .min) hleast, fun y hy => ?_⟩
  have hnot := hall y hy
  rw [ne_eq, compare_lt_iff_lt, not_lt] at hnot
  exact nearest_le_iff.1 hnot

theorem max_integers (context : Json) (first : Integer) (rest : List Integer) :
    ∃ greatest ∈ first :: rest,
      max.apply ((first :: rest).map ofInteger) context = .ok (ofInteger greatest) ∧
      ∀ y ∈ first :: rest, y.1 ≤ greatest.1 ∨ Merged y.1 greatest.1 := by
  obtain ⟨greatest, hmem, hgreatest, hall⟩ :=
    Json.exists_extreme_integer (show Ordering.gt ≠ .eq by decide) first rest
  refine ⟨greatest, hmem, congrArg (blame .max) hgreatest, fun y hy => ?_⟩
  have hnot := hall y hy
  rw [ne_eq, compare_gt_iff_gt, not_lt] at hnot
  exact nearest_le_iff.1 hnot

/-- **Integers are compared exactly unless they are merged**: the equalities and the orderings
answer as the integers stand to each other if and only if rounding to 53 significant bits keeps the
two apart, and else take them for equal.  So an integer is found in an array if it is one of the
items or is merged with one, and the least and the greatest of several integers are so up to merged
ones.  Only integers from 2^53 away from zero, on one side, can be merged. -/
theorem integers_compared (context : Json) :
    (∀ x y : Integer,
      Compared context (ofInteger x) (ofInteger y) (Ord.compare x.1 y.1) ↔ ¬Merged x.1 y.1) ∧
    (∀ x y : Integer, Merged x.1 y.1 → Compared context (ofInteger x) (ofInteger y) .eq) ∧
    (∀ (x : Integer) (items : List Integer),
      isIn.apply [ofInteger x, .array (items.map ofInteger)] context
        = .ok (.bool (decide (∃ y ∈ items, x = y ∨ Merged x.1 y.1)))) ∧
    (∀ (first : Integer) (rest : List Integer),
      (∃ least ∈ first :: rest,
        min.apply ((first :: rest).map ofInteger) context = .ok (ofInteger least) ∧
        ∀ y ∈ first :: rest, least.1 ≤ y.1 ∨ Merged least.1 y.1) ∧
      ∃ greatest ∈ first :: rest,
        max.apply ((first :: rest).map ofInteger) context = .ok (ofInteger greatest) ∧
        ∀ y ∈ first :: rest, y.1 ≤ greatest.1 ∨ Merged y.1 greatest.1) ∧
    ∀ x y : Int, Merged x y →
      (2 ^ 53 ≤ x ∧ 2 ^ 53 ≤ y) ∨ (x ≤ -2 ^ 53 ∧ y ≤ -2 ^ 53) := by
  refine ⟨?_, ?_, isIn_integers context, fun first rest => ?_, fun x y h => h.far⟩
  · intro x y
    -- the comparisons say how the rounded integers stand to each other, and nothing else
    have hnearest := compared_integers context x y
    rw [← compare_nearest_iff]
    constructor
    · intro h
      exact hnearest.unique h
    · intro h
      rwa [h] at hnearest
  · intro x y h
    have hnearest := compared_integers context x y
    rwa [compare_eq_iff_eq.2 h.2] at hnearest
  · exact ⟨min_integers context first rest, max_integers context first rest⟩

/-- Near 2^53 and at the upper end of the range: 2^53 + 1 and 2^53 + 3 are rounded to different
sides and compared exactly; 2^64 - 2 and 2^64 - 1 are taken for one and found in the place of each
other. -/
theorem integers_compared_large :
    let low : Integer := ⟨2 ^ 53 + 1, by decide⟩
    let high : Integer := ⟨2 ^ 53 + 3, by decide⟩
    let last : Integer := ⟨2 ^ 64 - 1, by decide⟩
    let previous : Integer := ⟨2 ^ 64 - 2, by decide⟩
    Compared .emptyObject (ofInteger low) (ofInteger high) .lt ∧
    Compared .emptyObject (ofInteger previous) (ofInteger last) .eq ∧
    isIn.apply [ofInteger last, .array [ofInteger low, ofInteger previous]] .emptyObject
      = .ok (.bool true) ∧
    (∃ least ∈ [last, high, previous],
      min.apply [ofInteger last, ofInteger high, ofInteger previous] .emptyObject
        = .ok (ofInteger least) ∧
      (least.1 ≤ high.1 ∨ Merged least.1 high.1)) ∧
    ((2 ^ 53 : Int) ≤ 2 ^ 64 - 2 ∧ (2 ^ 53 : Int) ≤ 2 ^ 64 - 1 ∨
      (2 ^ 64 - 2 : Int) ≤ -2 ^ 53 ∧ (2 ^ 64 - 1 : Int) ≤ -2 ^ 53) := by
  intro low high last previous
  have hmerged : Merged previous.1 last.1 := by decide +kernel
  obtain ⟨hpairs, htaken, hin, hextremes, hfar⟩ := integers_compared .emptyObject
  refine ⟨?_, htaken previous last hmerged, ?_, ?_, hfar _ _ hmerged⟩
  · exact (hpairs low high).2 (by decide +kernel)
  · rw [show [ofInteger low, ofInteger previous] = [low, previous].map ofInteger from rfl, hin]
    exact congrArg (fun b => Except.ok (Json.bool b)) (by decide +kernel)
  · obtain ⟨least, hmem, hleast, hall⟩ := (hextremes last [high, previous]).1
    exact ⟨least, hmem, hleast, hall high (by simp)⟩

/-- Comparing does not tell all integers apart: not 2^53 from 2^53 + 1. -/
theorem integers_not_always_compared :
    ¬∀ (context : Json) (x y : Integer),
      equal.apply [ofInteger x, ofInteger y] context = .ok (.bool (decide (x.1 = y.1))) := by
  intro h
  let low : Integer := ⟨2 ^ 53, by decide⟩
  let high : Integer := ⟨2 ^ 53 + 1, by decide⟩
  have hmerged : nearest low.1 = nearest high.1 := by decide +kernel
  have htaken := (compared_integers .emptyObject low high).equal
  rw [compare_eq_iff_eq.2 hmerged, h .emptyObject low high] at htaken
  revert htaken
  simp [low, high]

end Operator

end FeatureFlags

import Mathlib.Data.Prod.Lex
import Mathlib.Data.String.Basic
import FeatureFlags.Proofs.Rule.Comparison

/-!
The orderings are one total order for each kind of values that they take.

Numbers, strings and booleans each have a rank among the values of their kind (`Json.rank`), and two
operands of one of these kinds are compared by it, by the orderings and by the equalities alike
(`Operator.compared_of_comparable`).  What a comparison of three operands says follows from what the
two comparisons in it say (`Operator.apply_chain`).
-/

namespace FeatureFlags

namespace Json

variable {a b c : Json}

/-! ### Values that have an order -/

/-- Two numbers, two strings or two booleans. -/
inductive Comparable : Json → Json → Prop where
  | numbers (m n : Number) : Comparable (.number m) (.number n)
  | strings (s t : String) : Comparable (.string s) (.string t)
  | booleans (p q : Bool) : Comparable (.bool p) (.bool q)

theorem Comparable.symm (h : a.Comparable b) : b.Comparable a := by
  cases h with
  | numbers m n => exact .numbers n m
  | strings s t => exact .strings t s
  | booleans p q => exact .booleans q p

theorem Comparable.trans (hab : a.Comparable b) (hbc : b.Comparable c) : a.Comparable c := by
  cases hab <;> cases hbc <;> constructor

theorem Comparable.kind_eq (h : a.Comparable b) : a.kind = b.kind := by
  cases h <;> rfl

/-- Where the value stands among those of its kind: numbers by their values, strings by their
characters, and false before true. -/
def rank : Json → Int ×ₗ String
  | .string s => toLex (0, s)
  | .bool p => toLex (p.toNat, "")
  | value => toLex (value.numericValue, "")

theorem compare_toLex_left (m n : Int) (s : String) :
    Ord.compare (toLex (m, s)) (toLex (n, s)) = Ord.compare m n := by
  rw [Prod.Lex.compare_def]
  simp [compareLex, compareOn]

theorem compare_toLex_right (n : Int) (s t : String) :
    Ord.compare (toLex (n, s)) (toLex (n, t)) = Ord.compare s t := by
  rw [Prod.Lex.compare_def]
  simp [compareLex, compareOn]

theorem order_of_comparable (h : a.Comparable b) :
    order a b = .ok (Ord.compare a.rank b.rank) := by
  cases h with
  | numbers m n =>
    have hrank : Ord.compare (number m).rank (number n).rank
        = Ord.compare (number m).numericValue (number n).numericValue :=
      compare_toLex_left _ _ _
    rw [order_number, hrank]
  | strings s t =>
    rw [rank, rank, compare_toLex_right]
    rfl
  | booleans p q =>
    rw [rank, rank, compare_toLex_left]
    cases p <;> cases q <;> rfl

theorem looselyEqual_of_comparable (h : a.Comparable b) :
    a.looselyEqual b = decide (a.rank = b.rank) := by
  cases h with
  | numbers m n =>
    rw [looselyEqual_number]
    simp [rank]
  | strings s t => simp [looselyEqual, rank]
  | booleans p q => cases p <;> cases q <;> simp [looselyEqual, rank]

theorem isSome_order? : (order? a b).isSome = true ↔ a.Comparable b := by
  constructor
  · intro h
    unfold order? at h
    split at h
    · exact .numbers _ _
    · exact .strings _ _
    · exact .booleans _ _
    · cases h
  · intro h
    cases h <;> rfl

instance : Decidable (a.Comparable b) := decidable_of_iff _ isSome_order?

theorem order_of_not_comparable (h : ¬a.Comparable b) :
    order a b = .error (.pair a.kind b.kind) := by
  rw [← isSome_order?, Option.not_isSome_iff_eq_none] at h
  rw [order, h]

end Json

namespace Operator

variable {context a b c : Json} {op : Operator}

/-! ### Two operands -/

theorem compared_of_comparable (context : Json) (h : a.Comparable b) :
    Compared context a b (Ord.compare a.rank b.rank) := by
  apply compared_of_order (Json.order_of_comparable h)
  rw [Json.looselyEqual_of_comparable h]
  exact decide_eq_decide.2 compare_eq_iff_eq.symm

/-- The orderings among the operators. -/
inductive IsOrdering : Operator → Prop where
  | less : IsOrdering .less
  | lessOrEqual : IsOrdering .lessOrEqual
  | greater : IsOrdering .greater
  | greaterOrEqual : IsOrdering .greaterOrEqual

theorem IsOrdering.apply_two (h : op.IsOrdering) (context a b : Json) :
    op.apply [a, b] context = (op.blame (op.compare a b)).map .bool := by
  cases h <;> rfl

/-- Operands of no one ordered kind are refused, with their kinds in the order in which they
stand. -/
theorem apply_of_not_comparable (hop : op.IsOrdering) (context : Json) (h : ¬a.Comparable b) :
    op.apply [a, b] context = .error (.typeMismatch op (.pair a.kind b.kind)) := by
  rw [hop.apply_two, compare, Json.order_of_not_comparable h]
  rfl

/-- An ordering that answers at all does so by the ranks. -/
theorem apply_eq_ok_iff (hop : op.IsOrdering) {answer : Bool} :
    op.apply [a, b] context = .ok (.bool answer) ↔
      a.Comparable b ∧ op.satisfiedBy (Ord.compare a.rank b.rank) = answer := by
  by_cases h : a.Comparable b
  · rw [hop.apply_two, compare_of_order (Json.order_of_comparable h)]
    simp [h, blame, Except.mapError, Except.map]
  · rw [apply_of_not_comparable hop context h]
    simp [h]

/-! ### Three operands -/

/-- The operators that compare three operands in a chain. -/
inductive IsChaining : Operator → Prop where
  | less : IsChaining .less
  | lessOrEqual : IsChaining .lessOrEqual

theorem IsChaining.isOrdering (h : op.IsChaining) : op.IsOrdering := by
  cases h <;> constructor

theorem IsChaining.apply_three (h : op.IsChaining) (context a b c : Json) :
    op.apply [a, b, c] context = (op.blame (op.compareChain a b c)).map .bool := by
  cases h <;> rfl

/-- A chain answers with its first link if that is false or fails, and else with its second. -/
theorem apply_chain (hop : op.IsChaining) (context a b c : Json) :
    op.apply [a, b, c] context =
      (op.apply [a, b] context).bind fun first =>
        if first.isTruthy then op.apply [b, c] context else .ok first := by
  rw [hop.apply_three, hop.isOrdering.apply_two, hop.isOrdering.apply_two, compareChain]
  cases op.compare a b with
  | error => rfl
  | ok first => cases first <;> rfl

theorem apply_trans (hop : op.IsChaining) (hab : op.apply [a, b] context = .ok (.bool true))
    (hbc : op.apply [b, c] context = .ok (.bool true)) :
    op.apply [a, c] context = .ok (.bool true) := by
  rw [apply_eq_ok_iff hop.isOrdering] at hab hbc ⊢
  refine ⟨hab.1.trans hbc.1, ?_⟩
  cases hop with
  | less =>
    simp only [satisfiedBy, decide_eq_true_eq, compare_lt_iff_lt] at hab hbc ⊢
    exact hab.2.trans hbc.2
  | lessOrEqual =>
    simp only [satisfiedBy, decide_eq_true_eq, ne_eq, compare_gt_iff_gt, not_lt] at hab hbc ⊢
    exact hab.2.trans hbc.2

/-- What a chain of three operands has to do with its links, which are the comparisons of the first
two operands and of the last two. -/
structure Chained (context : Json) (op : Operator) (a b c : Json) : Prop where
  true_iff : op.apply [a, b, c] context = .ok (.bool true) ↔
    op.apply [a, b] context = .ok (.bool true) ∧ op.apply [b, c] context = .ok (.bool true)
  outer : op.apply [a, b, c] context = .ok (.bool true) →
    op.apply [a, c] context = .ok (.bool true)
  first_false : op.apply [a, b] context = .ok (.bool false) →
    op.apply [a, b, c] context = .ok (.bool false)
  first_true : op.apply [a, b] context = .ok (.bool true) →
    op.apply [a, b, c] context = op.apply [b, c] context
  first_failed : ∀ e, op.apply [a, b] context = .error e → op.apply [a, b, c] context = .error e

theorem chained (hop : op.IsChaining) (context a b c : Json) : Chained context op a b c := by
  have hchain := apply_chain hop context a b c
  have htrue : op.apply [a, b, c] context = .ok (.bool true) ↔
      op.apply [a, b] context = .ok (.bool true) ∧ op.apply [b, c] context = .ok (.bool true) := by
    rw [hchain, bind_eq_ok_iff]
    constructor
    · rintro ⟨first, hfirst, hsecond⟩
      split at hsecond
      case isTrue h =>
        -- a link that succeeds is a boolean
        rw [hop.isOrdering.apply_two, map_eq_ok_iff] at hfirst
        obtain ⟨answer, hanswer, rfl⟩ := hfirst
        obtain rfl : answer = true := h
        rw [hop.isOrdering.apply_two, hanswer]
        exact ⟨rfl, hsecond⟩
      case isFalse h =>
        obtain rfl := Except.ok.inj hsecond
        exact absurd rfl h
    · rintro ⟨hab, hbc⟩
      exact ⟨_, hab, hbc⟩
  refine ⟨htrue, ?_, ?_, ?_, ?_⟩
  · intro h
    obtain ⟨hab, hbc⟩ := htrue.1 h
    exact apply_trans hop hab hbc
  · intro hab
    rw [hchain, hab]
    rfl
  · intro hab
    rw [hchain, hab]
    rfl
  · intro e hab
    rw [hchain, hab]
    rfl

/-- **The orderings are one total order for each of the kinds that they take**: two numbers, two
strings or two booleans stand to each other in one of the three ways, and the orderings and the
equalities of the two operands, in either order, all answer by it.  Being less is transitive, and so
is being less or equal; a chain is true if and only if both of its links are, and then the outer two
operands are so compared as well.  Any other two operands are refused. -/
theorem one_order_per_kind (context : Json) :
    (∀ a b : Json, a.Comparable b →
      Compared context a b (Ord.compare a.rank b.rank) ∧
      Compared context b a (Ord.compare a.rank b.rank).swap ∧
      lessOrEqual.apply [a, b] context = greaterOrEqual.apply [b, a] context) ∧
    (∀ op : Operator, op.IsChaining → ∀ a b c : Json,
      op.apply [a, b] context = .ok (.bool true) → op.apply [b, c] context = .ok (.bool true) →
      op.apply [a, c] context = .ok (.bool true)) ∧
    (∀ op : Operator, op.IsChaining → ∀ a b c : Json, Chained context op a b c) ∧
    ∀ op : Operator, op.IsOrdering → ∀ a b : Json, ¬a.Comparable b →
      op.apply [a, b] context = .error (.typeMismatch op (.pair a.kind b.kind)) := by
  refine ⟨?_, ?_, ?_, ?_⟩
  · intro a b h
    have hab := compared_of_comparable context h
    have hba := compared_of_comparable context h.symm
    rw [Std.OrientedOrd.eq_swap] at hba
    refine ⟨hab, hba, ?_⟩
    rw [hab.lessOrEqual, hba.greaterOrEqual]
    cases Ord.compare a.rank b.rank <;> rfl
  · intro op hop a b c hab hbc
    exact apply_trans hop hab hbc
  · intro op hop a b c
    exact chained hop context a b c
  · intro op hop a b h
    exact apply_of_not_comparable hop context h

/-- 1 and 1.0 are equal numbers, and three strings rise.  A boolean and null have no order, so a
chain that comes to them fails, but one whose first link is false does not come to them. -/
theorem one_order_per_kind_links :
    let integer : Json := .number (.integer 1 (by decide))
    let float : Json := .number (.float (.ofInt 1 (by decide)))
    Compared .null integer float .eq ∧
    less.apply [.string "a", .string "b"] .null = .ok (.bool true) ∧
    less.apply [.string "a", .string "ab", .string "b"] .null = .ok (.bool true) ∧
    lessOrEqual.apply [.bool true, .bool false, .null] .null = .ok (.bool false) ∧
    lessOrEqual.apply [.bool false, .bool true, .null] .null
      = .error (.typeMismatch .lessOrEqual (.pair .boolean .null)) := by
  intro integer float
  obtain ⟨hcompared, htrans, hchained, hrefused⟩ := one_order_per_kind .null
  have hequal : Ord.compare integer.rank float.rank = .eq := compare_eq_iff_eq.2 rfl
  have hlow : less.apply [.string "a", .string "ab"] .null = .ok (.bool true) := rfl
  have hhigh : less.apply [.string "ab", .string "b"] .null = .ok (.bool true) := rfl
  refine ⟨?_, ?_, ?_, ?_, ?_⟩
  · have hboth := (hcompared integer float (.numbers _ _)).1
    rwa [hequal] at hboth
  · exact htrans .less .less _ _ _ hlow hhigh
  · exact (hchained .less .less _ _ _).true_iff.2 ⟨hlow, hhigh⟩
  · exact (hchained .lessOrEqual .lessOrEqual _ _ _).first_false rfl
  · rw [(hchained .lessOrEqual .lessOrEqual _ _ _).first_true rfl]
    exact hrefused .lessOrEqual .lessOrEqual _ _ (by rintro ⟨⟩)

end Operator

end FeatureFlags

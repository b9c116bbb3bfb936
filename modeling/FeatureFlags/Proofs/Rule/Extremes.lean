import FeatureFlags.Proofs.Rule.Ordering

/-!
The least and the greatest operand.

Both extremes go over the operands with the best one so far, and compare the others with that one
alone.  This is enough to find the first operand that no other goes beyond
(`Operator.exists_selected`), and to find out whether the operands can be compared at all, as what
is kept is always of the kind of the first (`Json.extreme_of_not_comparable`).
-/

namespace FeatureFlags

namespace Json

variable {operands : List Json} {direction : Ordering}

/-- The operands are all numbers, all strings or all booleans. -/
def OneKind (operands : List Json) : Prop := ∀ a ∈ operands, ∀ b ∈ operands, a.Comparable b

instance : Decidable (OneKind operands) := inferInstanceAs (Decidable (∀ a ∈ operands, _))

theorem OneKind.perm {operands' : List Json} (h : OneKind operands)
    (hperm : operands.Perm operands') : OneKind operands' := fun a ha b hb =>
  h a (hperm.mem_iff.2 ha) b (hperm.mem_iff.2 hb)

/-- Operands are of one kind if all the others can be compared with the first. -/
theorem oneKind_of_first {first second : Json} {rest : List Json}
    (h : ∀ x ∈ second :: rest, first.Comparable x) : OneKind (first :: second :: rest) := by
  have hsecond := h second List.mem_cons_self
  have hall : ∀ x ∈ first :: second :: rest, first.Comparable x :=
    List.forall_mem_cons.2 ⟨hsecond.trans hsecond.symm, h⟩
  intro a ha b hb
  exact (hall a ha).symm.trans (hall b hb)

/-- Operands of several kinds come to a first one that cannot be compared with the one in front. -/
theorem exists_not_comparable (hlength : 2 ≤ operands.length) (h : ¬OneKind operands) :
    ∃ first front other back, operands = first :: (front ++ other :: back) ∧
      (∀ x ∈ front, first.Comparable x) ∧ ¬first.Comparable other := by
  match operands, hlength with
  | first :: second :: rest, _ =>
    cases hfind : (second :: rest).find? fun x => ¬first.Comparable x with
    | none =>
      refine absurd (oneKind_of_first fun x hx => ?_) h
      have hx := List.find?_eq_none.1 hfind x hx
      rwa [decide_eq_true_eq, not_not] at hx
    | some other =>
      obtain ⟨hother, front, back, hsplit, hfront⟩ := List.find?_eq_some_iff_append.1 hfind
      refine ⟨first, front, other, back, congrArg (first :: ·) hsplit, ?_, ?_⟩
      · intro x hx
        have hx := hfront x hx
        rwa [Bool.not_eq_true', decide_eq_false_iff_not, not_not] at hx
      · rwa [decide_eq_true_eq] at hother

/-- The search fails at the first operand that is not of the kind of the others. -/
theorem extreme_of_not_comparable {best other : Json} {front : List Json} (back : List Json)
    (hfront : ∀ x ∈ front, best.Comparable x) (hother : ¬best.Comparable other) :
    extreme direction best (front ++ other :: back) = .error (.pair other.kind best.kind) := by
  induction front generalizing best with
  | nil =>
    rw [List.nil_append, extreme, order_of_not_comparable fun h => hother h.symm]
    rfl
  | cons x front ih =>
    rw [List.forall_mem_cons] at hfront
    obtain ⟨hx, hfront⟩ := hfront
    -- either of the two is of the one kind and can stand for it
    have hnext : ∀ next, next = x ∨ next = best →
        extreme direction next (front ++ other :: back) = .error (.pair other.kind best.kind) := by
      rintro next (rfl | rfl)
      · rw [hx.kind_eq]
        exact ih (fun y hy => hx.symm.trans (hfront y hy)) fun h => hother (hx.trans h)
      · exact ih hfront hother
    rw [List.cons_append, extreme, order_of_comparable hx.symm]
    apply hnext
    split <;> simp

end Json

namespace Operator

open Json (OneKind)

variable {context : Json} {op comparison : Operator} {operands : List Json}

/-- The extremes, each with the comparison in which its result stands to every operand. -/
inductive SelectsBy : Operator → Operator → Prop where
  | min : SelectsBy .min .lessOrEqual
  | max : SelectsBy .max .greaterOrEqual

theorem SelectsBy.isOrdering (h : op.SelectsBy comparison) : comparison.IsOrdering := by
  cases h <;> constructor

theorem SelectsBy.exists_direction (h : op.SelectsBy comparison) :
    ∃ direction ≠ Ordering.eq,
      (∀ first rest context,
        op.apply (first :: rest) context = op.blame (Json.extreme direction first rest)) ∧
      ∀ o : Ordering, comparison.satisfiedBy o.swap = decide (o ≠ direction) := by
  cases h with
  | min => exact ⟨.lt, by decide, fun _ _ _ => rfl, by decide⟩
  | max => exact ⟨.gt, by decide, fun _ _ _ => rfl, by decide⟩

/-- Of the operands, `found` is the first that stands to each of them as the comparison says; those
before it do not, and none of them is equal to it. -/
def Selected (context : Json) (comparison : Operator) (operands : List Json) (found : Json) :
    Prop :=
  ∃ front back, operands = front ++ found :: back ∧
    (∀ x ∈ operands, comparison.apply [found, x] context = .ok (.bool true)) ∧
    ∀ x ∈ front, comparison.apply [x, found] context = .ok (.bool false) ∧
      equal.apply [x, found] context = .ok (.bool false)

theorem exists_selected (h : op.SelectsBy comparison) (context : Json) (hne : operands ≠ [])
    (hkind : OneKind operands) :
    ∃ found, op.apply operands context = .ok found ∧
      Selected context comparison operands found := by
  obtain ⟨first, rest, rfl⟩ := List.exists_cons_of_ne_nil hne
  obtain ⟨direction, hdirection, happly, hsatisfied⟩ := h.exists_direction
  obtain ⟨found, hfound, hextreme⟩ := Json.exists_extreme hdirection fun a ha b hb =>
    Json.order_of_comparable (hkind a ha b hb)
  have hmem := hextreme.mem
  refine ⟨found, by rw [happly, hfound]; rfl, ?_⟩
  have hall := hextreme.not_beyond hdirection
  obtain ⟨front, back, hoperands, hfront, -⟩ := hextreme
  refine ⟨front, back, hoperands, ?_, ?_⟩
  · intro x hx
    -- the search compares `x` with what it has found, the operator the other way round
    rw [apply_eq_ok_iff h.isOrdering, Std.OrientedOrd.eq_swap, hsatisfied, decide_eq_true_eq]
    exact ⟨hkind found hmem x hx, hall x hx⟩
  · intro x hx
    have hbeyond := hfront x hx
    have hcomparable : x.Comparable found := hkind x (by simp [hoperands, hx]) found hmem
    constructor
    · rw [apply_eq_ok_iff h.isOrdering, Std.OrientedOrd.eq_swap, hsatisfied, hbeyond]
      exact ⟨hcomparable, by simp⟩
    · rw [(compared_of_comparable context hcomparable).equal, Std.OrientedOrd.eq_swap, hbeyond]
      cases direction with
      | lt | gt => rfl
      | eq => exact absurd rfl hdirection

/-- Operands of several kinds are refused. -/
theorem exists_refused (h : op.SelectsBy comparison) (context : Json)
    (hlength : 2 ≤ operands.length) (hkind : ¬OneKind operands) :
    ∃ first front other back, operands = first :: (front ++ other :: back) ∧
      (∀ x ∈ front, first.Comparable x) ∧ ¬first.Comparable other ∧
      op.apply operands context = .error (.typeMismatch op (.pair other.kind first.kind)) := by
  obtain ⟨first, front, other, back, rfl, hfront, hother⟩ :=
    Json.exists_not_comparable hlength hkind
  obtain ⟨direction, -, happly, -⟩ := h.exists_direction
  refine ⟨first, front, other, back, rfl, hfront, hother, ?_⟩
  rw [happly, Json.extreme_of_not_comparable back hfront hother]
  rfl

/-- Operands that each stand to the other as the comparison says are equal. -/
theorem SelectsBy.equal_of_both (h : op.SelectsBy comparison) {a b : Json}
    (hab : comparison.apply [a, b] context = .ok (.bool true))
    (hba : comparison.apply [b, a] context = .ok (.bool true)) :
    equal.apply [a, b] context = .ok (.bool true) := by
  rw [apply_eq_ok_iff h.isOrdering] at hab hba
  have hback := hba.2
  rw [Std.OrientedOrd.eq_swap] at hback
  have hboth : ∀ o : Ordering, comparison.satisfiedBy o = true →
      comparison.satisfiedBy o.swap = true → o = .eq := by
    cases h <;> decide
  rw [(compared_of_comparable context hab.1).equal, hboth _ hab.2 hback]
  rfl

theorem Selected.equal {operands' : List Json} {a b : Json} (h : op.SelectsBy comparison)
    (ha : Selected context comparison operands a) (hb : Selected context comparison operands' b)
    (hperm : operands.Perm operands') : equal.apply [a, b] context = .ok (.bool true) := by
  obtain ⟨front, back, rfl, hall, -⟩ := ha
  obtain ⟨front', back', rfl, hall', -⟩ := hb
  apply h.equal_of_both
  · exact hall b (hperm.mem_iff.2 (by simp))
  · exact hall' a (hperm.mem_iff.1 (by simp))

/-- **The extremes are the first operand that no other goes beyond**: of operands of one kind, `min`
gives back the first that is less than or equal to all of them, and `max` the first that is greater
than or equal to all, so no earlier operand is equal to it; in another order the same operands give
an equal result.  A single operand is given back whatever it is, no operands are too few, and two or
more that are not of one kind are refused, for the first one that cannot be compared with the one in
front. -/
theorem extremes_first (context : Json) {op comparison : Operator} (h : op.SelectsBy comparison) :
    op.apply [] context = .error (.arity op 0) ∧
    (∀ a : Json, op.apply [a] context = .ok a) ∧
    (∀ operands : List Json, 2 ≤ operands.length →
      ((∃ value, op.apply operands context = .ok value) ↔ OneKind operands)) ∧
    (∀ operands : List Json, 2 ≤ operands.length → ¬OneKind operands →
      ∃ first front other back, operands = first :: (front ++ other :: back) ∧
        (∀ x ∈ front, first.Comparable x) ∧ ¬first.Comparable other ∧
        op.apply operands context = .error (.typeMismatch op (.pair other.kind first.kind))) ∧
    (∀ operands : List Json, operands ≠ [] → OneKind operands →
      ∃ found, op.apply operands context = .ok found ∧
        Selected context comparison operands found) ∧
    ∀ operands operands' : List Json, operands ≠ [] → OneKind operands →
      operands.Perm operands' →
      ∃ found found', op.apply operands context = .ok found ∧
        op.apply operands' context = .ok found' ∧
        equal.apply [found, found'] context = .ok (.bool true) := by
  refine ⟨?_, ?_, ?_, fun _ => exists_refused h context, fun _ => exists_selected h context, ?_⟩
  · cases h <;> rfl
  · intro a
    cases h <;> rfl
  · intro operands hlength
    constructor
    · rintro ⟨value, hvalue⟩
      by_contra hkind
      obtain ⟨first, front, other, back, -, -, -, hmismatch⟩ :=
        exists_refused h context hlength hkind
      rw [hvalue] at hmismatch
      cases hmismatch
    · intro hkind
      have hne : operands ≠ [] := List.ne_nil_of_length_pos (by omega)
      obtain ⟨found, hfound, -⟩ := exists_selected h context hne hkind
      exact ⟨found, hfound⟩
  · intro operands operands' hne hkind hperm
    have hne' : operands' ≠ [] := by
      rintro rfl
      exact hne hperm.eq_nil
    obtain ⟨found, hfound, hfirst⟩ := exists_selected h context hne hkind
    obtain ⟨found', hfound', hfirst'⟩ := exists_selected h context hne' (hkind.perm hperm)
    exact ⟨found, found', hfound, hfound', hfirst.equal h hfirst' hperm⟩

/-- Of two zeros the first is given back, whichever it is, although they are written apart; a
boolean and null are refused. -/
theorem extremes_first_zeros :
    let zero : Json := .number (.float .zero)
    let negativeZero : Json := .number (.float Finite.zero.neg)
    min.apply [zero, negativeZero] .null = .ok zero ∧
    min.apply [negativeZero, zero] .null = .ok negativeZero ∧
    Selected .null .lessOrEqual [zero, negativeZero] zero ∧
    equal.apply [zero, negativeZero] .null = .ok (.bool true) ∧
    min.apply [.bool true, .null] .null = .error (.typeMismatch .min (.pair .null .boolean)) := by
  intro zero negativeZero
  obtain ⟨-, -, -, hrefused, hselected, hequal⟩ := extremes_first .null .min
  have hkind : OneKind [zero, negativeZero] := by decide
  have hzero : min.apply [zero, negativeZero] .null = .ok zero := rfl
  have hnegative : min.apply [negativeZero, zero] .null = .ok negativeZero := rfl
  refine ⟨hzero, hnegative, ?_, ?_, ?_⟩
  · obtain ⟨found, hfound, hfirst⟩ := hselected [zero, negativeZero] (by simp) hkind
    obtain rfl := Except.ok.inj (hzero.symm.trans hfound)
    exact hfirst
  · obtain ⟨found, found', hfound, hfound', hboth⟩ :=
      hequal [zero, negativeZero] [negativeZero, zero] (by simp) hkind (.swap _ _ _)
    obtain rfl := Except.ok.inj (hzero.symm.trans hfound)
    obtain rfl := Except.ok.inj (hnegative.symm.trans hfound')
    exact hboth
  · obtain ⟨first, front, other, back, hoperands, -, -, hmismatch⟩ :=
      hrefused [.bool true, .null] (by decide) (by decide)
    obtain ⟨rfl, hrest⟩ := List.cons.inj hoperands
    cases front with
    | nil =>
      obtain ⟨rfl, -⟩ := List.cons.inj hrest
      exact hmismatch
    | cons x front => simp at hrest

end Operator

end FeatureFlags

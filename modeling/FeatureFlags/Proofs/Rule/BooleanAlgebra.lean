import FeatureFlags.Proofs.Rule.Finiteness

/-!
Conjunctions and disjunctions of values of all kinds.

A conjunction is decided by a falsy operand and a disjunction by a truthy one, and otherwise the two
are the same search: for the first operand that decides, or else for the last one
(`Json.deciding`).  Each law is proved of this search once, and so the laws of the two are dual.
-/

namespace FeatureFlags

namespace Json

variable {decides : Json → Bool} {total total' x : Json} {xs ys : List Json}

/-! ### The operand that decides -/

/-- The first operand that decides, or else the last operand, or else the given value. -/
def deciding (decides : Json → Bool) (total : Json) (xs : List Json) : Json :=
  ((xs.find? decides).or xs.getLast?).getD total

theorem deciding_cons_of_decides (h : decides x = true) :
    deciding decides total (x :: xs) = x := by
  rw [deciding, List.find?_cons_of_pos h]
  rfl

theorem deciding_cons_of_not (h : decides x = false) :
    deciding decides total (x :: xs) = deciding decides x xs := by
  rw [deciding, deciding, List.find?_cons_of_neg (by simp [h]), List.getLast?_cons]
  cases xs.find? decides <;> rfl

/-- The given value counts only if there are no operands. -/
theorem deciding_of_ne_nil (h : xs ≠ []) :
    deciding decides total xs = deciding decides total' xs := by
  obtain ⟨x, xs, rfl⟩ := List.exists_cons_of_ne_nil h
  cases hx : decides x with
  | true => rw [deciding_cons_of_decides hx, deciding_cons_of_decides hx]
  | false => rw [deciding_cons_of_not hx, deciding_cons_of_not hx]

/-- What is found decides if there is an operand that does. -/
theorem decides_deciding (h : decides total = false) (xs : List Json) :
    decides (deciding decides total xs) = xs.any decides := by
  induction xs generalizing total with
  | nil => exact h
  | cons x xs ih =>
    cases hx : decides x with
    | true => rw [deciding_cons_of_decides hx, List.any_cons, hx, Bool.true_or]
    | false => rw [deciding_cons_of_not hx, ih hx, List.any_cons, hx, Bool.false_or]

/-- Operands can be searched in two parts, of which the second has to have some: if it had none, the
given value would be found in it, and take the place of the last operand of the first part. -/
theorem deciding_append (h : decides total = false) (hys : ys ≠ []) :
    deciding decides total (xs ++ ys) =
      deciding decides total [deciding decides total xs, deciding decides total ys] := by
  induction xs generalizing total with
  | nil =>
    -- the given value stands for the first part, and does not decide
    calc deciding decides total ys
        = deciding decides total [deciding decides total ys] := by
          cases hy : decides (deciding decides total ys) with
          | true => rw [deciding_cons_of_decides hy]
          | false => rw [deciding_cons_of_not hy]; rfl
      _ = deciding decides total [total, deciding decides total ys] :=
          (deciding_cons_of_not h).symm
  | cons x xs ih =>
    rw [List.cons_append]
    cases hx : decides x with
    | true =>
      rw [deciding_cons_of_decides hx, deciding_cons_of_decides hx, deciding_cons_of_decides hx]
    | false =>
      have hback : deciding decides x ys = deciding decides total ys := deciding_of_ne_nil hys
      rw [deciding_cons_of_not hx, deciding_cons_of_not hx, ih hx, hback]
      exact deciding_of_ne_nil (List.cons_ne_nil _ _)

/-! ### Conjunction and disjunction -/

theorem conjunction_of_falsy (h : total.isTruthy = false) : conjunction total xs = total := by
  induction xs with
  | nil => rfl
  | cons x xs ih => rw [conjunction, h, if_neg Bool.false_ne_true, ih]

theorem disjunction_of_truthy (h : total.isTruthy = true) : disjunction total xs = total := by
  induction xs with
  | nil => rfl
  | cons x xs ih => rw [disjunction, if_pos h, ih]

/-- A conjunction is decided by a falsy operand. -/
theorem conjunction_eq_deciding (h : total.isTruthy = true) :
    conjunction total xs = deciding (fun x => !x.isTruthy) total xs := by
  induction xs generalizing total with
  | nil => rfl
  | cons x xs ih =>
    rw [conjunction, if_pos h]
    cases hx : x.isTruthy with
    | true => rw [ih hx, deciding_cons_of_not (by rw [hx]; rfl)]
    | false => rw [conjunction_of_falsy hx, deciding_cons_of_decides (by rw [hx]; rfl)]

/-- A disjunction is decided by a truthy operand. -/
theorem disjunction_eq_deciding (h : total.isTruthy = false) :
    disjunction total xs = deciding isTruthy total xs := by
  induction xs generalizing total with
  | nil => rfl
  | cons x xs ih =>
    rw [disjunction, if_neg (by simp [h])]
    cases hx : x.isTruthy with
    | true => rw [disjunction_of_truthy hx, deciding_cons_of_decides hx]
    | false => rw [ih hx, deciding_cons_of_not hx]

theorem isTruthy_conjunction (xs : List Json) :
    (conjunction (.bool true) xs).isTruthy = xs.all isTruthy := by
  have hfalsy := @decides_deciding (fun x => !x.isTruthy) (.bool true) rfl xs
  rw [← conjunction_eq_deciding rfl] at hfalsy
  rw [← Bool.not_inj_iff, hfalsy, List.not_all_eq_any_not]

theorem isTruthy_disjunction (xs : List Json) :
    (disjunction (.bool false) xs).isTruthy = xs.any isTruthy := by
  rw [disjunction_eq_deciding rfl]
  exact decides_deciding rfl xs

/-! ### Negated operands -/

/-- Whether the value is falsy. -/
def negation (x : Json) : Json := .bool !x.isTruthy

/-- Among booleans the operand that decides is known by its truth. -/
theorem eq_bool_of_mem {p : Bool} (h : x ∈ Json.bool p :: xs.map negation) :
    x = .bool x.isTruthy := by
  rcases List.mem_cons.1 h with rfl | h
  · rfl
  · obtain ⟨y, -, rfl⟩ := List.mem_map.1 h
    rfl

theorem negation_conjunction (xs : List Json) :
    negation (conjunction (.bool true) xs) = disjunction (.bool false) (xs.map negation) := by
  -- both sides are booleans, so it is enough to compare their truth
  rw [eq_bool_of_mem (disjunction_mem _ _), isTruthy_disjunction, negation, isTruthy_conjunction,
    List.not_all_eq_any_not, List.any_map]
  rfl

theorem negation_disjunction (xs : List Json) :
    negation (disjunction (.bool false) xs) = conjunction (.bool true) (xs.map negation) := by
  rw [eq_bool_of_mem (conjunction_mem _ _), isTruthy_conjunction, negation, isTruthy_disjunction,
    List.not_any_eq_all_not, List.all_map]
  rfl

/-- A count below 2^64 is an integer. -/
theorem ofNat_eq_integer {n : Nat} (h : n < 0x10000000000000000) :
    ∃ hn, ofNat n = .number (.integer n hn) := by
  have hn : Number.InRange n := by
    unfold Number.InRange
    omega
  refine ⟨hn, ?_⟩
  rw [ofNat, Number.ofInt?, dif_pos hn]
  rfl

end Json

namespace Operator

variable {context : Json} {xs : List Json}

/-- The operator gives back a value of this truth. -/
def Answers (op : Operator) (context : Json) (xs : List Json) (truth : Bool) : Prop :=
  ∃ value, op.apply xs context = .ok value ∧ value.isTruthy = truth

/-- The operands, each with `!` applied to it. -/
def negateAll (context : Json) (xs : List Json) : Except EvaluationError (List Json) :=
  xs.mapM fun x => Operator.not.apply [x] context

theorem negateAll_eq (context : Json) (xs : List Json) :
    negateAll context xs = .ok (xs.map Json.negation) :=
  List.mapM_pure

theorem answers_iff {op : Operator} {value : Json} {truth : Bool}
    (h : op.apply xs context = .ok value) :
    op.Answers context xs truth ↔ value.isTruthy = truth := by
  constructor
  · rintro ⟨value', hvalue', htruth⟩
    obtain rfl := Except.ok.inj (h.symm.trans hvalue')
    exact htruth
  · intro htruth
    exact ⟨value, h, htruth⟩

theorem and_answers_iff {truth : Bool} :
    and.Answers context xs truth ↔ xs.all Json.isTruthy = truth := by
  rw [← Json.isTruthy_conjunction]
  exact answers_iff rfl

theorem or_answers_iff {truth : Bool} :
    or.Answers context xs truth ↔ xs.any Json.isTruthy = truth := by
  rw [← Json.isTruthy_disjunction]
  exact answers_iff rfl

theorem and_eq (context : Json) (xs : List Json) :
    and.apply xs context = .ok (Json.deciding (fun x => !x.isTruthy) (.bool true) xs) :=
  congrArg Except.ok (Json.conjunction_eq_deciding rfl)

theorem or_eq (context : Json) (xs : List Json) :
    or.apply xs context = .ok (Json.deciding Json.isTruthy (.bool false) xs) :=
  congrArg Except.ok (Json.disjunction_eq_deciding rfl)

/-- Operands of such an operator can be taken together in two parts if the second has some. -/
theorem apply_append {op : Operator} {decides : Json → Bool} {total : Json}
    (happly : ∀ xs, op.apply xs context = .ok (Json.deciding decides total xs))
    (htotal : decides total = false) {ys : List Json} (hys : ys ≠ []) :
    op.apply (xs ++ ys) context
      = (op.apply xs context).bind fun left =>
          (op.apply ys context).bind fun right => op.apply [left, right] context := by
  rw [happly, happly, happly, Json.deciding_append htotal hys, ← happly]
  rfl

/-- How many operands are truthy, how many are once they are negated, and what this says of the
conjunction and the disjunction. -/
structure Counted (context : Json) (xs : List Json) (n m : Nat) : Prop where
  count : Operator.count.apply xs context = .ok (.ofNat n)
  countNegated : (negateAll context xs).bind (fun ys => Operator.count.apply ys context)
    = .ok (.ofNat m)
  add_eq_length : n + m = xs.length
  eq_length_iff : n = xs.length ↔ Operator.and.Answers context xs true
  eq_zero_iff : n = 0 ↔ Operator.or.Answers context xs false

theorem counted (context : Json) (xs : List Json) :
    Counted context xs (xs.countP Json.isTruthy) ((xs.map Json.negation).countP Json.isTruthy) where
  count := rfl
  countNegated := by
    rw [negateAll_eq]
    rfl
  add_eq_length := by
    rw [List.countP_map, List.length_eq_countP_add_countP Json.isTruthy]
    congr 1
    refine List.countP_congr fun x _ => ?_
    simp [Json.negation, Json.isTruthy]
  eq_length_iff := by
    rw [and_answers_iff, List.countP_eq_length, List.all_eq_true]
  eq_zero_iff := by
    rw [or_answers_iff, List.countP_eq_zero, List.any_eq_false]

/-- **The boolean operators obey boolean algebra, on values of all kinds**: a conjunction gives back
its first falsy operand, or else the last one, or else true, and it is truthy if all operands are; a
disjunction gives back its first truthy operand, or else the last one, or else false, and it is
truthy if some operand is.  Negation takes the one to the other.  Operands can be taken together in
two parts if the second has some.  The truthy operands and the falsy ones are all operands, and
their numbers tell the truth of the conjunction and of the disjunction; they are integers, as long
as there are less than 2^64 operands. -/
theorem boolean_algebra (context : Json) :
    (∀ xs : List Json,
      and.apply xs context
        = .ok (((xs.find? fun x => !x.isTruthy).or xs.getLast?).getD (.bool true)) ∧
      or.apply xs context
        = .ok (((xs.find? fun x => x.isTruthy).or xs.getLast?).getD (.bool false))) ∧
    (∀ xs : List Json,
      (and.Answers context xs true ↔ ∀ x ∈ xs, x.isTruthy = true) ∧
      (or.Answers context xs true ↔ ∃ x ∈ xs, x.isTruthy = true)) ∧
    (∀ xs : List Json,
      (and.apply xs context).bind (fun total => not.apply [total] context)
        = (negateAll context xs).bind (fun ys => or.apply ys context) ∧
      (or.apply xs context).bind (fun total => not.apply [total] context)
        = (negateAll context xs).bind (fun ys => and.apply ys context)) ∧
    (∀ op : Operator, op = .and ∨ op = .or → ∀ xs ys : List Json, ys ≠ [] →
      op.apply (xs ++ ys) context
        = (op.apply xs context).bind fun left =>
            (op.apply ys context).bind fun right => op.apply [left, right] context) ∧
    (∀ xs : List Json, ∃ n m : Nat, Counted context xs n m ∧
      (xs.length < 0x10000000000000000 →
        ∃ hn hm, Json.ofNat n = .number (.integer n hn) ∧
          Json.ofNat m = .number (.integer m hm))) := by
  refine ⟨?_, ?_, ?_, ?_, ?_⟩
  · intro xs
    exact ⟨and_eq context xs, or_eq context xs⟩
  · intro xs
    rw [and_answers_iff, or_answers_iff, List.all_eq_true, List.any_eq_true]
    exact ⟨Iff.rfl, Iff.rfl⟩
  · intro xs
    rw [negateAll_eq]
    exact ⟨congrArg Except.ok (Json.negation_conjunction xs),
      congrArg Except.ok (Json.negation_disjunction xs)⟩
  · rintro op (rfl | rfl) xs ys hys
    · exact apply_append (and_eq context) rfl hys
    · exact apply_append (or_eq context) rfl hys
  · intro xs
    have hcounted := counted context xs
    refine ⟨_, _, hcounted, fun hlength => ?_⟩
    have hsum := hcounted.add_eq_length
    obtain ⟨hn, hfound⟩ := Json.ofNat_eq_integer
      (show xs.countP Json.isTruthy < 0x10000000000000000 by omega)
    obtain ⟨hm, hfound'⟩ := Json.ofNat_eq_integer
      (show (xs.map Json.negation).countP Json.isTruthy < 0x10000000000000000 by omega)
    exact ⟨hn, hm, hfound, hfound'⟩

/-- A string, null and an empty array: null decides, also when the first two operands are taken
together, and the string is the one that counts. -/
theorem boolean_algebra_kinds :
    let xs : List Json := [.string "a", .null]
    let ys : List Json := [.array []]
    and.apply (xs ++ ys) .null = .ok .null ∧
    and.apply (xs ++ ys) .null
      = ((and.apply xs .null).bind fun left =>
          (and.apply ys .null).bind fun right => and.apply [left, right] .null) ∧
    ∃ n m : Nat, n + m = 3 ∧
      (∃ hn, count.apply (xs ++ ys) .null = .ok (.number (.integer n hn))) ∧
      ∃ hm, (negateAll .null (xs ++ ys)).bind (fun negated => count.apply negated .null)
        = .ok (.number (.integer m hm)) := by
  intro xs ys
  obtain ⟨hdeciding, -, -, happend, hcounted⟩ := boolean_algebra .null
  refine ⟨(hdeciding (xs ++ ys)).1, happend .and (.inl rfl) xs ys (by simp [ys]), ?_⟩
  obtain ⟨n, m, hcount, hinteger⟩ := hcounted (xs ++ ys)
  obtain ⟨hn, hm, hfound, hfound'⟩ := hinteger (by decide)
  exact ⟨n, m, hcount.add_eq_length, ⟨hn, hfound ▸ hcount.count⟩, hm,
    hfound' ▸ hcount.countNegated⟩

end Operator

end FeatureFlags

import FeatureFlags.Proofs.Rule.Context

/-!
No rule evaluates to an infinity, to NaN, or through a division by zero.

A JSON float is finite, so a result that is not would have to be left out or replaced by another
number.  Neither happens.  `Operator.Computes` lists the ways to a number in binary64 arithmetic,
and each of them ends in the same check: what is not finite is a type mismatch of the operator
(`Operator.apply_of_computes`).  Everything else that an operator gives back is an exact integer, or
was there before (`Operator.Yields`), so every float in a result is one of the context or of the
rule, or was computed and found finite (`RuleTree.Origin`).
-/

namespace FeatureFlags

/-! ### Numbers in a value -/

/-- The number stands somewhere in the value. -/
inductive Number.Occurs (n : Number) : Json → Prop where
  | here : Occurs n (.number n)
  | item {items : List Json} {value : Json} (hmem : value ∈ items) (h : Occurs n value) :
    Occurs n (.array items)
  | entry {entries : List (String × Json)} {key : String} {value : Json}
    (hmem : (key, value) ∈ entries) (h : Occurs n value) : Occurs n (.object entries)

namespace Json

theorem mem_of_item? {items : List Json} {index : Int} {value : Json}
    (h : item? items index = some value) : value ∈ items := by
  unfold item? at h
  split at h
  · exact List.mem_of_getElem? h
  · split at h
    · cases h
    · exact List.mem_of_getElem? h

theorem occurs_of_step {n : Number} {value next : Json} {segment : String}
    (h : value.step segment = .ok next) (hn : n.Occurs next) : n.Occurs value := by
  cases value with
  | object entries =>
    obtain ⟨front, back, rfl, -⟩ := List.lookup_eq_some_iff.1 (step_object_eq_ok.1 h)
    exact .entry (List.mem_append_right _ List.mem_cons_self) hn
  | array items =>
    simp only [step] at h
    split at h
    · cases h
    · split at h
      case h_1 found hfound =>
        obtain rfl := Except.ok.inj h
        exact .item (mem_of_item? hfound) hn
      case h_2 => cases h
  | _ => cases h

/-- A look-up finds nothing but parts of the context. -/
theorem occurs_of_lookup {n : Number} {context value : Json} {path : String}
    (h : context.lookup path = .ok value) (hn : n.Occurs value) : n.Occurs context := by
  unfold lookup at h
  generalize segments path.toList = steps at h
  induction steps generalizing context with
  | nil =>
    obtain rfl := Except.ok.inj h
    exact hn
  | cons segment rest ih =>
    rw [walk_cons, bind_eq_ok_iff] at h
    obtain ⟨next, hnext, hrest⟩ := h
    exact occurs_of_step hnext (ih hrest)

/-- Counts are integers. -/
theorem not_occurs_ofNat {x : Finite} (n : Nat) : ¬(Number.float x).Occurs (ofNat n) := by
  unfold ofNat Number.ofInt?
  split <;> rintro ⟨⟩

/-! ### Operators that give back an operand -/

theorem conjunction_mem (total : Json) (values : List Json) :
    conjunction total values ∈ total :: values := by
  induction values generalizing total with
  | nil => exact List.mem_cons_self
  | cons first rest ih =>
    rw [conjunction]
    split <;> grind

theorem disjunction_mem (total : Json) (values : List Json) :
    disjunction total values ∈ total :: values := by
  induction values generalizing total with
  | nil => exact List.mem_cons_self
  | cons first rest ih =>
    rw [disjunction]
    split <;> grind

theorem extreme_mem {direction : Ordering} {best value : Json} {values : List Json}
    (h : extreme direction best values = .ok value) : value ∈ best :: values := by
  induction values generalizing best with
  | nil =>
    obtain rfl := Except.ok.inj h
    exact List.mem_cons_self
  | cons first rest ih =>
    obtain ⟨o, -, h⟩ := bind_eq_ok_iff.1 h
    have hmem := ih h
    split at hmem <;> grind

/-! ### Zero divisors -/

/-- The values that a division takes for zero. -/
inductive ReadsAsZero : Json → Prop where
  | number {n : Number} (h : n.IsZero) : ReadsAsZero (.number n)
  | false : ReadsAsZero (.bool Bool.false)
  | text {s : String} {x : Finite} (h : Binary64.read? (Text.trim s.toList) = some (.finite x))
    (hx : x.magnitude = 0) : ReadsAsZero (.string s)

end Json

namespace Binary64

theorem isZero_iff {x : Binary64} : x.isZero = true ↔ ∃ y, x = .finite y ∧ y.magnitude = 0 := by
  cases x with
  | finite y => simp [isZero, Finite.isZero_iff]
  | infinite | nan => simp [isZero]

theorem finite_or_finite?_eq_none (x : Binary64) : (∃ y, x = .finite y) ∨ x.finite? = none := by
  cases x with
  | finite y => exact .inl ⟨y, rfl⟩
  | infinite | nan => exact .inr rfl

end Binary64

namespace Arithmetic

open Json (ReadsAsZero)

variable {a b value : Json} {left right : Operand}

theorem readsAsZero_iff : ReadsAsZero a ↔ ∃ x, toFloat a = .ok x ∧ x.isZero = true := by
  constructor
  · intro h
    cases h with
    | number h => exact ⟨_, rfl, Number.isZero_toFinite.2 h⟩
    | false => exact ⟨.zero, rfl, rfl⟩
    | text h hx => exact ⟨_, by rw [toFloat, h], Binary64.isZero_iff.2 ⟨_, rfl, hx⟩⟩
  · rintro ⟨x, hread, hx⟩
    cases a with
    | number n =>
      obtain rfl := Except.ok.inj hread
      exact .number (Number.isZero_toFinite.1 hx)
    | bool b =>
      obtain rfl := Except.ok.inj hread
      cases b with
      | false => exact .false
      | true => exact absurd hx (by decide +kernel)
    | string s =>
      obtain ⟨y, rfl, hy⟩ := Binary64.isZero_iff.1 hx
      simp only [toFloat] at hread
      split at hread
      case h_1 x hs =>
        obtain rfl := Except.ok.inj hread
        exact .text hs hy
      case h_2 => cases hread
    | null | array _ | object _ => cases hread

/-- Differences and remainders take fewer values than quotients do, and take them for the same
numbers. -/
theorem toFloat_of_read (h : Operand.read a = .ok left) :
    toFloat a = .ok (.finite left.toFinite) := by
  cases a with
  | number n =>
    cases n with
    | integer value inRange =>
      simp only [Operand.read] at h
      split at h <;> (obtain rfl := Except.ok.inj h; rfl)
    | float x =>
      obtain rfl := Except.ok.inj h
      rfl
  | bool b =>
    cases b <;> (obtain rfl := Except.ok.inj h; exact congrArg Except.ok (by decide +kernel))
  | null | string _ | array _ | object _ => cases h

theorem readsAsZero_iff_of_read (h : Operand.read a = .ok left) :
    ReadsAsZero a ↔ left.toFinite.isZero = true := by
  rw [readsAsZero_iff, toFloat_of_read h]
  constructor
  · rintro ⟨x, hx, hzero⟩
    obtain rfl := Except.ok.inj hx
    exact hzero
  · exact fun hzero => ⟨_, rfl, hzero⟩

/-! ### The check of a result -/

theorem floatResult_eq_ok_iff {x : Binary64} :
    floatResult x = .ok value ↔ ∃ y, x = .finite y ∧ value = .number (.float y) := by
  cases x <;> simp [floatResult, eq_comm]

theorem floatResult_of_not_finite {x : Binary64} (h : x.finite? = none) :
    floatResult x = .error .nonFinite := by
  cases x with
  | finite y => cases h
  | infinite | nan => rfl

theorem exactResult_of_exact {n : Int} (h : Exact n) (fallback : Binary64) :
    ∃ inRange, exactResult n fallback = .ok (.number (.integer n inRange)) := by
  refine ⟨⟨h.1, Int.lt_trans h.2 (by decide)⟩, ?_⟩
  have hsome : Json.ofInt64? n = some (.number (.integer n _)) := dif_pos h
  rw [exactResult, hsome]

theorem exactResult_of_not_exact {n : Int} (h : ¬Exact n) (fallback : Binary64) :
    exactResult n fallback = floatResult fallback := by
  have hnone : Json.ofInt64? n = none := dif_neg h
  rw [exactResult, hnone]

/-- An exact integer, or the fallback. -/
theorem exactResult_eq_ok {n : Int} {fallback : Binary64} (h : exactResult n fallback = .ok value) :
    (∃ inRange, value = .number (.integer n inRange)) ∨
      ¬Exact n ∧ floatResult fallback = .ok value := by
  by_cases hn : Exact n
  · obtain ⟨inRange, hexact⟩ := exactResult_of_exact hn fallback
    exact .inl ⟨inRange, Except.ok.inj (h.symm.trans hexact)⟩
  · exact .inr ⟨hn, (exactResult_of_not_exact hn fallback).symm.trans h⟩

theorem negate_of_not_exact (ha : Operand.read a = .ok left)
    (hinexact : ∀ n hn, left = .integer n hn → ¬Exact (-n)) :
    negate a = floatResult (.finite left.toFinite.neg) := by
  cases left with
  | integer n hn =>
    simp only [negate, ha, bind, Except.bind]
    exact exactResult_of_not_exact (hinexact n hn rfl) _
  | float x =>
    simp only [negate, ha, bind, Except.bind]
    rfl

theorem negate_eq_ok (h : negate a = .ok value) :
    (∃ n inRange, value = .number (.integer n inRange)) ∨
      ∃ operand, Operand.read a = .ok operand ∧
        (∀ n hn, operand = .integer n hn → ¬Exact (-n)) ∧
        floatResult (.finite operand.toFinite.neg) = .ok value := by
  obtain ⟨operand, ha, h⟩ := bind_eq_ok_iff.1 h
  cases operand with
  | integer n hn =>
    obtain ⟨inRange, hvalue⟩ | ⟨hinexact, hfloat⟩ := exactResult_eq_ok h
    · exact .inl ⟨_, inRange, hvalue⟩
    · refine .inr ⟨_, ha, ?_, hfloat⟩
      rintro _ _ ⟨⟩
      exact hinexact
  | float x =>
    refine .inr ⟨_, ha, ?_, h⟩
    rintro _ _ ⟨⟩

theorem subtract_of_not_exact (ha : Operand.read a = .ok left) (hb : Operand.read b = .ok right)
    (hinexact : ∀ m hm n hn, left = .integer m hm → right = .integer n hn → ¬Exact (m - n)) :
    subtract a b = floatResult (.sub (.finite left.toFinite) (.finite right.toFinite)) := by
  simp only [subtract, ha, hb, bind, Except.bind]
  split
  case h_1 m hm n hn => exact exactResult_of_not_exact (hinexact m hm n hn rfl rfl) _
  case h_2 => rfl

theorem subtract_eq_ok (h : subtract a b = .ok value) :
    (∃ n inRange, value = .number (.integer n inRange)) ∨
      ∃ left right, Operand.read a = .ok left ∧ Operand.read b = .ok right ∧
        (∀ m hm n hn, left = .integer m hm → right = .integer n hn → ¬Exact (m - n)) ∧
        floatResult (.sub (.finite left.toFinite) (.finite right.toFinite)) = .ok value := by
  unfold subtract at h
  obtain ⟨left, ha, h⟩ := bind_eq_ok_iff.1 h
  obtain ⟨right, hb, h⟩ := bind_eq_ok_iff.1 h
  dsimp only at h
  split at h
  case h_1 m hm n hn =>
    obtain ⟨inRange, hvalue⟩ | ⟨hinexact, hfloat⟩ := exactResult_eq_ok h
    · exact .inl ⟨_, inRange, hvalue⟩
    · refine .inr ⟨_, _, ha, hb, ?_, hfloat⟩
      rintro _ _ _ _ ⟨⟩ ⟨⟩
      exact hinexact
  case h_2 hfloats =>
    refine .inr ⟨_, _, ha, hb, ?_, h⟩
    exact fun m hm n hn hleft hright => (hfloats m hm n hn hleft hright).elim

/-! ### Divisions -/

theorem divide_of_readsAsZero (a : Json) (h : ReadsAsZero b) :
    divide a b = .error .divisionByZero := by
  obtain ⟨x, hread, hx⟩ := readsAsZero_iff.1 h
  simp [divide, hread, hx, Except.mapError, bind, Except.bind]

theorem divide_of_not_zero {x y : Binary64} (ha : toFloat a = .ok x) (hb : toFloat b = .ok y)
    (hzero : ¬ReadsAsZero b) : divide a b = (floatResult (x.div y)).mapError .mismatch := by
  have hy : y.isZero = false := by
    rw [← Bool.not_eq_true]
    exact fun hy => hzero (readsAsZero_iff.2 ⟨y, hb, hy⟩)
  simp [divide, ha, hb, hy, Except.mapError, bind, Except.bind]

theorem divide_eq_ok (h : divide a b = .ok value) :
    ¬ReadsAsZero b ∧ ∃ x y, toFloat a = .ok x ∧ toFloat b = .ok y ∧
      floatResult (x.div y) = .ok value := by
  have hzero : ¬ReadsAsZero b := by
    intro hzero
    rw [divide_of_readsAsZero a hzero] at h
    cases h
  unfold divide at h
  obtain ⟨y, hb, h⟩ := bind_eq_ok_iff.1 h
  split at h
  · cases h
  · obtain ⟨x, ha, h⟩ := bind_eq_ok_iff.1 h
    exact ⟨hzero, x, y, mapError_eq_ok_iff.1 ha, mapError_eq_ok_iff.1 hb, mapError_eq_ok_iff.1 h⟩

theorem modulo_of_not_exact (ha : Operand.read a = .ok left) (hb : Operand.read b = .ok right)
    (hinexact : ∀ m hm n hn, left = .integer m hm → right ≠ .integer n hn)
    (hzero : ¬ReadsAsZero b) :
    modulo a b
      = (floatResult (floatRemainder left.toFinite right.toFinite)).mapError .mismatch := by
  rw [readsAsZero_iff_of_read hb] at hzero
  cases left with
  | integer m hm =>
    cases right with
    | integer n hn => exact absurd rfl (hinexact m hm n hn rfl)
    | float y => simp [modulo, ha, hb, hzero, Except.mapError, bind, Except.bind]
  | float x => simp [modulo, ha, hb, hzero, Except.mapError, bind, Except.bind]

theorem modulo_eq_ok (h : modulo a b = .ok value) :
    ¬ReadsAsZero b ∧ ((∃ n inRange, value = .number (.integer n inRange)) ∨
      ∃ left right, Operand.read a = .ok left ∧ Operand.read b = .ok right ∧
        (∀ m hm n hn, left = .integer m hm → right ≠ .integer n hn) ∧
        floatResult (floatRemainder left.toFinite right.toFinite) = .ok value) := by
  unfold modulo at h
  obtain ⟨left, ha, h⟩ := bind_eq_ok_iff.1 h
  obtain ⟨right, hb, h⟩ := bind_eq_ok_iff.1 h
  rw [mapError_eq_ok_iff] at ha hb
  rw [readsAsZero_iff_of_read hb]
  dsimp only at h
  split at h
  case h_1 =>
    split at h
    · cases h
    case isFalse hne =>
      obtain rfl := Except.ok.inj h
      refine ⟨?_, .inl ⟨_, _, rfl⟩⟩
      rwa [Operand.toFinite, Finite.isZero_ofInt]
  case h_2 hfloats =>
    split at h
    · cases h
    case isFalse hzero =>
      refine ⟨hzero, .inr ⟨left, right, ha, hb, ?_, mapError_eq_ok_iff.1 h⟩⟩
      exact fun m hm n hn hleft hright => hfloats m hm n hn hleft hright

end Arithmetic

/-! ### What an operator gives back -/

namespace Operator

open Arithmetic
open Json (ReadsAsZero)

/-- The number that an operator computes from its operands in binary64 arithmetic, if it comes to
that: not with a divisor of zero, and not where the result is an exact integer. -/
inductive Computes : Operator → List Json → Binary64 → Prop where
  | sum {values : List Json} {total : Binary64} (h : Arithmetic.sum .zero values = .ok total) :
    Computes .add values total
  | product {values : List Json} {total : Binary64}
    (h : Arithmetic.product .one values = .ok total) : Computes .multiply values total
  | negation {a : Json} {operand : Operand} (ha : Operand.read a = .ok operand)
    (hinexact : ∀ n hn, operand = .integer n hn → ¬Exact (-n)) :
    Computes .subtract [a] (.finite operand.toFinite.neg)
  | difference {a b : Json} {left right : Operand} (ha : Operand.read a = .ok left)
    (hb : Operand.read b = .ok right)
    (hinexact : ∀ m hm n hn, left = .integer m hm → right = .integer n hn → ¬Exact (m - n)) :
    Computes .subtract [a, b] (.sub (.finite left.toFinite) (.finite right.toFinite))
  | quotient {a b : Json} {x y : Binary64} (ha : toFloat a = .ok x) (hb : toFloat b = .ok y)
    (hzero : ¬ReadsAsZero b) : Computes .divide [a, b] (x.div y)
  | remainder {a b : Json} {left right : Operand} (ha : Operand.read a = .ok left)
    (hb : Operand.read b = .ok right)
    (hinexact : ∀ m hm n hn, left = .integer m hm → right ≠ .integer n hn)
    (hzero : ¬ReadsAsZero b) :
    Computes .modulo [a, b] (floatRemainder left.toFinite right.toFinite)

variable {operator : Operator} {values : List Json} {context value : Json} {x : Binary64}

theorem blame_eq_ok_iff {α : Type} {result : Except Mismatch α} {a : α} :
    operator.blame result = .ok a ↔ result = .ok a :=
  mapError_eq_ok_iff

theorem blameDivision_eq_ok_iff {result : Except Failure Json} :
    operator.blameDivision result = .ok value ↔ result = .ok value :=
  mapError_eq_ok_iff

theorem blameDivision_mismatch (result : Except Mismatch Json) :
    operator.blameDivision (result.mapError .mismatch) = operator.blame result := by
  cases result <;> rfl

/-- Every computed number passes the same check. -/
theorem apply_of_computes (h : operator.Computes values x) (context : Json) :
    operator.apply values context = operator.blame (floatResult x) := by
  cases h with
  | sum h => rw [apply, h, Except.bind]
  | product h => rw [apply, h, Except.bind]
  | negation ha hinexact => rw [apply, negate_of_not_exact ha hinexact]
  | difference ha hb hinexact => rw [apply, subtract_of_not_exact ha hb hinexact]
  | quotient ha hb hzero => rw [apply, divide_of_not_zero ha hb hzero, blameDivision_mismatch]
  | remainder ha hb hinexact hzero =>
    rw [apply, modulo_of_not_exact ha hb hinexact hzero, blameDivision_mismatch]

/-- What an operator can give back: a truth value, a text, a count or another exact integer, one of
its operands, a part of the context, or a finite number that it computes. -/
inductive Yields (operator : Operator) (values : List Json) (context : Json) : Json → Prop where
  | bool (b : Bool) : Yields operator values context (.bool b)
  | text (s : String) : Yields operator values context (.string s)
  | count (n : Nat) : Yields operator values context (.ofNat n)
  | integer (n : Int) (inRange : Number.InRange n) :
    Yields operator values context (.number (.integer n inRange))
  | operand {value : Json} (h : value ∈ values) : Yields operator values context value
  | found {path : String} {value : Json} (h : context.lookup path = .ok value) :
    Yields operator values context value
  | computed {x : Finite} (h : operator.Computes values (.finite x)) :
    Yields operator values context (.number (.float x))

theorem apply_of_not_accepts (h : ¬operator.arity.Accepts values.length) (context : Json) :
    operator.apply values context = .error (.arity operator values.length) := by
  match values, h with
  | [], h | [_], h | [_, _], h | [_, _, _], h | _ :: _ :: _ :: _ :: _, h =>
    cases operator <;> first | (refine absurd ?_ h; simp [arity, Arity.Accepts]; done) | rfl

/-- An operator that succeeds has as many operands as it takes. -/
theorem accepts_of_apply (h : operator.apply values context = .ok value) :
    operator.arity.Accepts values.length := by
  by_contra hnot
  rw [apply_of_not_accepts hnot] at h
  cases h

theorem not_readsAsZero_of_apply {dividend divisor : Json}
    (hoperator : operator = .divide ∨ operator = .modulo)
    (h : operator.apply [dividend, divisor] context = .ok value) : ¬ReadsAsZero divisor := by
  obtain rfl | rfl := hoperator <;> rw [apply, blameDivision_eq_ok_iff] at h
  · exact (divide_eq_ok h).1
  · exact (modulo_eq_ok h).1

theorem Yields.of_map_bool {result : Except EvaluationError Bool}
    (h : result.map .bool = .ok value) : operator.Yields values context value := by
  cases result with
  | error error => cases h
  | ok b =>
    obtain rfl := Except.ok.inj h
    exact .bool b

theorem Yields.of_floatResult (hx : operator.Computes values x) (h : floatResult x = .ok value) :
    operator.Yields values context value := by
  obtain ⟨y, rfl, rfl⟩ := floatResult_eq_ok_iff.1 h
  exact .computed hx

/-- An operator that succeeds gives back one of these. -/
theorem apply_yields (h : operator.apply values context = .ok value) :
    operator.Yields values context value := by
  have harity := accepts_of_apply h
  cases operator with
  | equal | strictEqual | notEqual | strictNotEqual =>
    obtain ⟨a, b, rfl⟩ := List.length_eq_two.1 harity
    obtain rfl := Except.ok.inj h
    exact .bool _
  | greater | greaterOrEqual | isIn =>
    obtain ⟨a, b, rfl⟩ := List.length_eq_two.1 harity
    exact .of_map_bool h
  | less | lessOrEqual =>
    obtain hlength | hlength := harity
    · obtain ⟨a, b, rfl⟩ := List.length_eq_two.1 hlength
      exact .of_map_bool h
    · obtain ⟨a, b, c, rfl⟩ := List.length_eq_three.1 hlength
      exact .of_map_bool h
  | not =>
    obtain ⟨a, rfl⟩ := List.length_eq_one_iff.1 harity
    obtain rfl := Except.ok.inj h
    exact .bool _
  | and =>
    rw [apply] at h
    obtain rfl := Except.ok.inj h
    obtain hfirst | hmem := List.mem_cons.1 (Json.conjunction_mem (.bool true) values)
    · rw [hfirst]
      exact .bool true
    · exact .operand hmem
  | or =>
    rw [apply] at h
    obtain rfl := Except.ok.inj h
    obtain hfirst | hmem := List.mem_cons.1 (Json.disjunction_mem (.bool false) values)
    · rw [hfirst]
      exact .bool false
    · exact .operand hmem
  | conditional =>
    obtain ⟨condition, yes, no, rfl⟩ := List.length_eq_three.1 harity
    obtain rfl := Except.ok.inj h
    refine .operand ?_
    split <;> simp
  | add =>
    rw [apply, blame_eq_ok_iff, bind_eq_ok_iff] at h
    obtain ⟨total, htotal, h⟩ := h
    exact .of_floatResult (.sum htotal) h
  | multiply =>
    rw [apply, blame_eq_ok_iff, bind_eq_ok_iff] at h
    obtain ⟨total, htotal, h⟩ := h
    exact .of_floatResult (.product htotal) h
  | subtract =>
    obtain hlength | hlength := harity
    · obtain ⟨a, rfl⟩ := List.length_eq_one_iff.1 hlength
      rw [apply, blame_eq_ok_iff] at h
      obtain ⟨n, inRange, rfl⟩ | ⟨operand, ha, hinexact, h⟩ := negate_eq_ok h
      · exact .integer n inRange
      · exact .of_floatResult (.negation ha hinexact) h
    · obtain ⟨a, b, rfl⟩ := List.length_eq_two.1 hlength
      rw [apply, blame_eq_ok_iff] at h
      obtain ⟨n, inRange, rfl⟩ | ⟨left, right, ha, hb, hinexact, h⟩ := subtract_eq_ok h
      · exact .integer n inRange
      · exact .of_floatResult (.difference ha hb hinexact) h
  | divide =>
    obtain hlength | hlength := harity
    · obtain ⟨a, rfl⟩ := List.length_eq_one_iff.1 hlength
      rw [apply] at h
      obtain rfl := Except.ok.inj h
      exact .operand List.mem_cons_self
    · obtain ⟨a, b, rfl⟩ := List.length_eq_two.1 hlength
      rw [apply, blameDivision_eq_ok_iff] at h
      obtain ⟨hzero, x, y, ha, hb, h⟩ := divide_eq_ok h
      exact .of_floatResult (.quotient ha hb hzero) h
  | modulo =>
    obtain ⟨a, b, rfl⟩ := List.length_eq_two.1 harity
    rw [apply, blameDivision_eq_ok_iff] at h
    obtain ⟨hzero, ⟨n, inRange, rfl⟩ | ⟨left, right, ha, hb, hinexact, h⟩⟩ := modulo_eq_ok h
    · exact .integer n inRange
    · exact .of_floatResult (.remainder ha hb hinexact hzero) h
  | min | max =>
    obtain ⟨first, rest, rfl⟩ := List.exists_cons_of_length_pos harity
    rw [apply, blame_eq_ok_iff] at h
    exact .operand (Json.extreme_mem h)
  | count =>
    rw [apply] at h
    obtain rfl := Except.ok.inj h
    exact .count _
  | cat =>
    rw [apply] at h
    cases hjoined : cat.blame (Json.concat "" values) with
    | error error =>
      rw [hjoined] at h
      cases h
    | ok joined =>
      rw [hjoined] at h
      obtain rfl := Except.ok.inj h
      exact .text joined
  | var =>
    obtain ⟨operand, path, rfl, -, hlookup⟩ := apply_var_eq_ok_iff.1 h
    exact .found hlookup
  | log =>
    obtain ⟨a, rfl⟩ := List.length_eq_one_iff.1 harity
    obtain rfl := Except.ok.inj h
    exact .operand List.mem_cons_self

end Operator

/-! ### What a tree evaluates to -/

namespace RuleTree

/-- Where a float in a value of a tree comes from: the context, a literal of the tree, or an
operation of the tree that computes it. -/
inductive Origin (context : Json) (tree : RuleTree) (x : Finite) : Prop where
  | context (h : (Number.float x).Occurs context)
  | literal {position : List Nat} {value : Json}
    (hsubtree : tree.subtree? position = some (.literal value)) (h : (Number.float x).Occurs value)
  | computed {position : List Nat} {operator : Operator} {operands : List RuleTree}
    {values : List Json} (hsubtree : tree.subtree? position = some (.operation operator operands))
    (hvalues : evaluateAll context operands = .ok values)
    (h : operator.Computes values (.finite x))

variable {context : Json} {tree subtree : RuleTree} {x : Finite}

theorem Origin.of_subtree {position : List Nat} (hsubtree : tree.subtree? position = some subtree)
    (h : Origin context subtree x) : Origin context tree x := by
  have hbelow : ∀ below, tree.subtree? (position ++ below) = subtree.subtree? below := by
    intro below
    rw [subtree?_append, hsubtree]
    rfl
  cases h with
  | context h => exact .context h
  | literal hliteral h => exact .literal ((hbelow _).trans hliteral) h
  | computed hoperation hvalues h => exact .computed ((hbelow _).trans hoperation) hvalues h

/-- Every float that evaluation gives back has an origin. -/
theorem origin_of_evaluate (tree : RuleTree) {value : Json}
    (hvalue : tree.evaluate context = .ok value) (hx : (Number.float x).Occurs value) :
    Origin context tree x := by
  induction tree using tree_induction generalizing value with
  | literal constant =>
    rw [evaluate] at hvalue
    obtain rfl := Except.ok.inj hvalue
    have hroot : (literal constant).subtree? [] = some (literal constant) := rfl
    exact .literal hroot hx
  | operation operator operands ih =>
    rw [evaluate_operation, bind_eq_ok_iff] at hvalue
    obtain ⟨values, hvalues, happly⟩ := hvalue
    cases Operator.apply_yields happly with
    | bool b => cases hx
    | text s => cases hx
    | count n => exact absurd hx (Json.not_occurs_ofNat n)
    | integer n inRange => cases hx
    | operand hmem =>
      obtain ⟨operand, hoperand, hvalue⟩ := exists_operand_of_mem hvalues hmem
      obtain ⟨index, hsubtree⟩ := exists_subtree?_of_mem operator hoperand
      exact (ih operand hoperand hvalue hx).of_subtree hsubtree
    | found hlookup => exact .context (Json.occurs_of_lookup hlookup hx)
    | computed hcomputes =>
      -- the value is the number that was computed, so `x` is this number
      cases hx
      have hroot : (operation operator operands).subtree? [] = some (operation operator operands) :=
        rfl
      exact .computed hroot hvalues hcomputes

/-- An operation whose operands have values is what its operator gives back for them. -/
theorem evaluate_of_operands {operator : Operator} {operands : List RuleTree}
    {values : List Json} (h : evaluateAll context operands = .ok values) :
    (operation operator operands).evaluate context = operator.apply values context := by
  rw [evaluate_operation, h]
  rfl

/-- **Only finite numbers are results**: a number in a value, of the tree or of one of its operands,
is an integer or a finite number that has an origin.  What an operation computes is its value if it
is finite; else the operation fails with a type mismatch, and the tree does not succeed.  Neither
does it with a divisor of zero. -/
theorem evaluation_finite (context : Json) (tree : RuleTree) :
    (∀ position subtree value, tree.subtree? position = some subtree →
      subtree.evaluate context = .ok value → ∀ n : Number, n.Occurs value →
        (∃ m inRange, n = .integer m inRange) ∨ ∃ x, n = .float x ∧ Origin context tree x) ∧
    ∀ position operator operands values,
      tree.subtree? position = some (.operation operator operands) →
      evaluateAll context operands = .ok values →
      (∀ x, operator.Computes values x →
        (∃ y, x = .finite y ∧
          (operation operator operands).evaluate context = .ok (.number (.float y))) ∨
        x.finite? = none ∧
          (operation operator operands).evaluate context
            = .error (.typeMismatch operator .nonFinite) ∧
          ∀ value, tree.evaluate context ≠ .ok value) ∧
      ∀ dividend divisor, values = [dividend, divisor] → divisor.ReadsAsZero →
        operator = .divide ∨ operator = .modulo →
        ∀ value, (operation operator operands).evaluate context ≠ .ok value ∧
          tree.evaluate context ≠ .ok value := by
  refine ⟨?_, fun position operator operands values hsubtree hvalues => ⟨?_, ?_⟩⟩
  · intro position subtree value hsubtree hvalue n hn
    cases n with
    | integer m inRange => exact .inl ⟨m, inRange, rfl⟩
    | float x => exact .inr ⟨x, rfl, (origin_of_evaluate subtree hvalue hn).of_subtree hsubtree⟩
  · intro x hx
    have hresult := (evaluate_of_operands hvalues).trans (Operator.apply_of_computes hx context)
    obtain ⟨y, rfl⟩ | hnone := x.finite_or_finite?_eq_none
    · exact .inl ⟨y, rfl, hresult⟩
    · -- the check fails, and with this operation every tree that it stands in
      rw [Arithmetic.floatResult_of_not_finite hnone] at hresult
      refine .inr ⟨hnone, hresult, fun value hvalue => ?_⟩
      obtain ⟨_, hok⟩ := exists_evaluate_of_subtree? hsubtree hvalue
      rw [hresult] at hok
      cases hok
  · rintro dividend divisor rfl hzero hoperator
    have hfails : ∀ value, (operation operator operands).evaluate context ≠ .ok value := by
      intro value hvalue
      rw [evaluate_of_operands hvalues] at hvalue
      exact Operator.not_readsAsZero_of_apply hoperator hvalue hzero
    refine fun value => ⟨hfails value, fun hvalue => ?_⟩
    obtain ⟨result, hresult⟩ := exists_evaluate_of_subtree? hsubtree hvalue
    exact hfails result hresult

/-- A sum that is computed; one with a text that reads as infinity, also behind an operand of `or`
that decides already; a divisor that reads as -0.0; and a remainder by false. -/
theorem evaluation_finite_infinity :
    let text (s : String) : RuleTree := .literal (.string s)
    let sum : RuleTree := .operation .add [text "1"]
    let one : Finite := Finite.ofInt 1 (by decide)
    let overflow : RuleTree := .operation .add [text "1", text " inf "]
    let quotient : RuleTree := .operation .divide [text "1", text "-0.0"]
    let remainder : RuleTree := .operation .modulo [.literal (.bool true), .literal (.bool false)]
    (sum.evaluate .emptyObject = .ok (.number (.float one)) ∧ Origin .emptyObject sum one) ∧
    overflow.evaluate .emptyObject = .error (.typeMismatch .add .nonFinite) ∧
    (∀ value, (operation .or [text "a", overflow]).evaluate .emptyObject ≠ .ok value) ∧
    (∀ value, quotient.evaluate .emptyObject ≠ .ok value) ∧
    ∀ value, remainder.evaluate .emptyObject ≠ .ok value := by
  intro text sum one overflow quotient remainder
  have hone : Operator.Computes .add [.string "1"] (.finite one) := .sum (by decide +kernel)
  have hinfinite : Operator.Computes .add [.string "1", .string " inf "] (.infinite false) :=
    .sum (by decide +kernel)
  have hzero : Json.ReadsAsZero (.string "-0.0") :=
    .text (x := { Finite.zero with negative := true }) (by decide +kernel) rfl
  obtain ⟨hnumbers, hcomputed⟩ := evaluation_finite .emptyObject sum
  have hsum : sum.evaluate .emptyObject = .ok (.number (.float one)) := by
    obtain ⟨y, hy, hsum⟩ | ⟨hnone, -⟩ := (hcomputed [] _ _ [.string "1"] rfl rfl).1 _ hone
    · obtain rfl := Binary64.finite.inj hy
      exact hsum
    · cases hnone
  refine ⟨⟨hsum, ?_⟩, ?_, ?_, ?_, ?_⟩
  · obtain ⟨_, _, h⟩ | ⟨x, h, horigin⟩ := hnumbers [] sum _ rfl hsum _ .here
    · cases h
    · obtain rfl := Number.float.inj h
      exact horigin
  · obtain ⟨_, h, -⟩ | ⟨-, h, -⟩ :=
      ((evaluation_finite .emptyObject overflow).2 [] _ _ [.string "1", .string " inf "] rfl rfl).1
        _ hinfinite
    · cases h
    · exact h
  · obtain ⟨_, h, -⟩ | ⟨-, -, h⟩ :=
      ((evaluation_finite .emptyObject (operation .or [text "a", overflow])).2 [1] _ _
        [.string "1", .string " inf "] rfl rfl).1 _ hinfinite
    · cases h
    · exact h
  · intro value
    exact (((evaluation_finite .emptyObject quotient).2 [] _ _
      [.string "1", .string "-0.0"] rfl rfl).2 _ _ rfl hzero (.inl rfl) value).2
  · intro value
    exact (((evaluation_finite .emptyObject remainder).2 [] _ _
      [.bool true, .bool false] rfl rfl).2 _ _ rfl .false (.inr rfl) value).2

end RuleTree

end FeatureFlags

import FeatureFlags.Proofs.Json.Text
import FeatureFlags.Proofs.Rule.Equality

/-!
Strict equality is equality of texts, but for the sign of zero.

Two values are strictly equal if they become one value when 0.0 is put in the place of each -0.0
(`Json.same_iff`), and a text tells its value (`Json.text_injective`).  So values of one text are
equal, and values of different texts are not, unless the texts differ in nothing but the minus signs
of zeros: -0.0 equals 0.0 although the two are written apart.
-/

namespace FeatureFlags

/-! ### One zero -/

namespace Number

/-- The number, or 0.0 in the place of -0.0. -/
def oneZero : Number → Number
  | .integer n h => .integer n h
  | .float x => .float x.oneZero

/-- The zero that is written with a minus sign. -/
def negativeZero : Number := .float Finite.zero.neg

theorem same_iff {m n : Number} : m.same n = true ↔ m.oneZero = n.oneZero := by
  -- an integer is no float, not even one of its value
  cases m <;> cases n <;> simp [same, oneZero, Finite.equal_iff]

theorem oneZero_eq_self {n : Number} (h : n ≠ negativeZero) : n.oneZero = n := by
  cases n with
  | integer => rfl
  | float x =>
    obtain ⟨negative, magnitude, hrepresentable⟩ := x
    by_cases hzero : magnitude = 0
    · subst hzero
      cases negative with
      | false => rfl
      | true => exact absurd rfl h
    · simp [oneZero, Finite.oneZero, Finite.isZero, hzero]

end Number

namespace Json

variable {a b : Json} {xs ys : List (String × Json)}

mutual

/-- The value with 0.0 in the place of each -0.0. -/
def oneZero : Json → Json
  | .null => .null
  | .bool b => .bool b
  | .number n => .number n.oneZero
  | .string s => .string s
  | .array items => .array (itemsOneZero items)
  | .object entries => .object (entriesOneZero entries)

def itemsOneZero : List Json → List Json
  | [] => []
  | x :: xs => oneZero x :: itemsOneZero xs

def entriesOneZero : List (String × Json) → List (String × Json)
  | [] => []
  | (k, x) :: xs => (k, oneZero x) :: entriesOneZero xs

end

theorem sameItems_iff {items items' : List Json}
    (ih : ∀ item ∈ items, ∀ value, item.same value = true ↔ item.oneZero = value.oneZero) :
    sameItems items items' = true ↔ itemsOneZero items = itemsOneZero items' := by
  induction items generalizing items' with
  | nil => cases items' <;> simp [sameItems, itemsOneZero]
  | cons item rest ihrest =>
    cases items' with
    | nil => simp [sameItems, itemsOneZero]
    | cons item' rest' =>
      rw [List.forall_mem_cons] at ih
      rw [sameItems, Bool.and_eq_true, ih.1, ihrest ih.2, itemsOneZero, itemsOneZero,
        List.cons.injEq]

theorem sameEntries_iff
    (ih : ∀ e ∈ xs, ∀ value, e.2.same value = true ↔ e.2.oneZero = value.oneZero) :
    sameEntries xs ys = true ↔ entriesOneZero xs = entriesOneZero ys := by
  induction xs generalizing ys with
  | nil => cases ys <;> simp [sameEntries, entriesOneZero]
  | cons e rest ihrest =>
    cases ys with
    | nil => simp [sameEntries, entriesOneZero]
    | cons e' rest' =>
      rw [List.forall_mem_cons] at ih
      rw [sameEntries, Bool.and_eq_true, Bool.and_eq_true, decide_eq_true_eq, ih.1, ihrest ih.2,
        entriesOneZero, entriesOneZero, List.cons.injEq, Prod.mk.injEq]

/-- Values are strictly equal if they are one value up to the signs of zeros. -/
theorem same_iff : a.same b = true ↔ a.oneZero = b.oneZero := by
  induction a using value_induction generalizing b with
  | null => cases b <;> simp [same, oneZero]
  | bool => cases b <;> simp [same, oneZero]
  | number => cases b <;> simp [same, oneZero, Number.same_iff]
  | string => cases b <;> simp [same, oneZero]
  | array items ih =>
    cases b with
    | array items' =>
      rw [same, sameItems_iff fun item hitem value => ih item hitem, oneZero, oneZero, array.injEq]
    | _ => simp [same, oneZero]
  | object entries ih =>
    cases b with
    | object entries' =>
      rw [same, sameEntries_iff fun e he value => ih e he, oneZero, oneZero, object.injEq]
    | _ => simp [same, oneZero]

theorem oneZero_eq_self (h : ¬Number.negativeZero.Occurs a) : a.oneZero = a := by
  induction a using value_induction with
  | null | bool | string => rw [oneZero]
  | number n =>
    have hne : n ≠ Number.negativeZero := by
      rintro rfl
      exact h .here
    rw [oneZero, Number.oneZero_eq_self hne]
  | array items ih =>
    rw [oneZero, array.injEq]
    induction items with
    | nil => rw [itemsOneZero]
    | cons item rest ihrest =>
      rw [List.forall_mem_cons] at ih
      have hrest : ¬Number.negativeZero.Occurs (array rest) := by
        rintro (_ | ⟨hmem, hn⟩)
        exact h (.item (List.mem_cons_of_mem _ hmem) hn)
      rw [itemsOneZero, ih.1 fun hn => h (.item List.mem_cons_self hn), ihrest ih.2 hrest]
  | object entries ih =>
    rw [oneZero, object.injEq]
    induction entries with
    | nil => rw [entriesOneZero]
    | cons e rest ihrest =>
      rw [List.forall_mem_cons] at ih
      have hrest : ¬Number.negativeZero.Occurs (object rest) := by
        rintro (_ | _ | ⟨hmem, hn⟩)
        exact h (.entry (List.mem_cons_of_mem _ hmem) hn)
      rw [entriesOneZero, ih.1 fun hn => h (.entry List.mem_cons_self hn), ihrest ih.2 hrest]

theorem same_iff_text : a.same b = true ↔ a.oneZero.text = b.oneZero.text := by
  rw [same_iff]
  exact text_injective.eq_iff.symm

end Json

namespace Operator

open Number (negativeZero)

/-- **Strict equality is equality of texts up to the signs of zeros**: two values are strictly
equal if and only if the same compact text is written for them when 0.0 is put in the place of each
-0.0, and strict inequality answers the opposite.  An object is written with its entries in the
order in which it lists them, which is that of the keys in a normal value.  So values of one text
are always strictly equal, and where -0.0 does not occur strict equality is equality of texts. -/
theorem identical_texts (context : Json) :
    (∀ a b : Json, ∃ answer,
      strictEqual.apply [a, b] context = .ok (.bool answer) ∧
      strictNotEqual.apply [a, b] context = .ok (.bool !answer) ∧
      (answer = true ↔ a.oneZero.text = b.oneZero.text)) ∧
    (∀ a b : Json, a.text = b.text →
      strictEqual.apply [a, b] context = .ok (.bool true) ∧
      strictNotEqual.apply [a, b] context = .ok (.bool false)) ∧
    ∀ a b : Json, ¬negativeZero.Occurs a → ¬negativeZero.Occurs b → a.text ≠ b.text →
      strictEqual.apply [a, b] context = .ok (.bool false) ∧
      strictNotEqual.apply [a, b] context = .ok (.bool true) := by
  refine ⟨?_, ?_, ?_⟩
  · intro a b
    exact ⟨a.same b, rfl, rfl, Json.same_iff_text⟩
  · intro a b h
    obtain rfl := Json.text_injective h
    rw [apply, apply, Json.same_self]
    exact ⟨rfl, rfl⟩
  · intro a b ha hb h
    have hsame : a.same b = false := by
      rw [← Bool.not_eq_true, Json.same_iff_text, Json.oneZero_eq_self ha, Json.oneZero_eq_self hb]
      exact h
    rw [apply, apply, hsame]
    exact ⟨rfl, rfl⟩

theorem not_negativeZero_occurs_sizes {n : Number} (h : n ≠ negativeZero) :
    ¬negativeZero.Occurs (.object [("sizes", .array [.number n])]) := by
  rintro (_ | _ | ⟨hmem, hoccurs⟩)
  obtain ⟨-, rfl⟩ := Prod.mk.inj (List.mem_singleton.1 hmem)
  rcases hoccurs with _ | ⟨hmem, hoccurs⟩
  obtain rfl := List.mem_singleton.1 hmem
  cases hoccurs
  exact h rfl

/-- 0 and 0.0, each in an array in an object: written apart, and not equal. -/
theorem identical_texts_zeros :
    let integer : Json := .object [("sizes", .array [.number (.integer 0 (by decide))])]
    let float : Json := .object [("sizes", .array [.number (.float .zero)])]
    ¬negativeZero.Occurs integer ∧ ¬negativeZero.Occurs float ∧
    integer.text = "\x7b\"sizes\":[0]\x7d" ∧ float.text = "\x7b\"sizes\":[0.0]\x7d" ∧
    strictEqual.apply [integer, float] .null = .ok (.bool false) ∧
    strictNotEqual.apply [integer, float] .null = .ok (.bool true) ∧
    strictEqual.apply [float, float] .null = .ok (.bool true) := by
  intro integer float
  obtain ⟨-, hequal, hdifferent⟩ := identical_texts .null
  have hinteger : ¬negativeZero.Occurs integer := not_negativeZero_occurs_sizes (by decide)
  have hfloat : ¬negativeZero.Occurs float := not_negativeZero_occurs_sizes (by decide)
  have htexts : integer.text ≠ float.text := by decide
  obtain ⟨hno, hyes⟩ := hdifferent integer float hinteger hfloat htexts
  exact ⟨hinteger, hfloat, by decide, by decide, hno, hyes, (hequal float float rfl).1⟩

/-- Strict equality does not tell all texts apart: not 0.0 from -0.0. -/
theorem not_always_identical_texts :
    ¬∀ context a b : Json,
      strictEqual.apply [a, b] context = .ok (.bool (decide (a.text = b.text))) := by
  intro h
  have htexts : (Json.number (.float .zero)).text ≠ (Json.number negativeZero).text := by decide
  have hequal := h .null (.number (.float .zero)) (.number negativeZero)
  rw [decide_eq_false htexts] at hequal
  cases hequal

end Operator

end FeatureFlags

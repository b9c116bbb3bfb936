import FeatureFlags.Proofs.Rule.Equality
import FeatureFlags.Proofs.Rule.Failures
import FeatureFlags.Proofs.Rule.Paths

/-!
Membership, in the words of the other operators.

What `in` looks for depends on where it looks: in an array for an item that `==` finds equal, in a
string for a part that `cat` puts between two others, in an object for a key that `var` finds.  Each
of the three answers for every needle that it can compare; which pairs are refused, and which have
no members at all, is a matter of their kinds.
-/

namespace FeatureFlags

namespace Json

/-- The word stands somewhere in the text. -/
theorem occursIn_iff {word text : List Char} : occursIn word text = true ↔ word <:+: text := by
  induction text with
  | nil => rw [occursIn, List.isEmpty_iff, List.infix_nil]
  | cons c rest ih =>
    rw [occursIn, Bool.or_eq_true, ih, List.isPrefixOf_iff_prefix, List.infix_cons_iff]

/-- What is refused for its kind: a needle in a string that is none, or one in an object that is an
array or an object. -/
def Refuses (haystack needle : Json) : Prop :=
  haystack.kind = .string ∧ needle.kind ≠ .string ∨
    haystack.kind = .object ∧ (needle.kind = .array ∨ needle.kind = .object)

instance (haystack needle : Json) : Decidable (haystack.Refuses needle) := by
  unfold Refuses
  infer_instance

end Json

namespace Operator

open Json (KeysOnce keys)

variable {needle haystack context : Json} {error : EvaluationError}

theorem apply_isIn (needle haystack context : Json) :
    isIn.apply [needle, haystack] context = (isIn.blame (haystack.holds needle)).map .bool :=
  rfl

/-! ### The three searches -/

theorem equal_symm {a b : Json} (ha : a.KeysOnce) (hb : b.KeysOnce) :
    equal.apply [a, b] context = .ok (.bool true) ↔
      equal.apply [b, a] context = .ok (.bool true) := by
  rw [equal_eq_true_iff ha hb, equal_eq_true_iff hb ha]
  exact eq_comm

/-- The items stand on the left of the comparison here, and on the right of `==`. -/
theorem any_looselyEqual_iff {items : List Json} (hneedle : needle.KeysOnce)
    (hitems : ∀ item ∈ items, item.KeysOnce) :
    (items.any fun item => item.looselyEqual needle) = true ↔
      ∃ item ∈ items, equal.apply [needle, item] context = .ok (.bool true) := by
  rw [List.any_eq_true]
  refine exists_congr fun item => and_congr_right fun hmem => ?_
  rw [equal_symm hneedle (hitems item hmem), apply, Except.ok.injEq, Json.bool.injEq]

theorem apply_cat_three (front middle back : String) (context : Json) :
    cat.apply [.string front, .string middle, .string back] context
      = .ok (.string (front ++ middle ++ back)) := by
  have hjoined : "" ++ front ++ middle ++ back = front ++ middle ++ back := by
    rw [String.empty_append]
  rw [← hjoined]
  rfl

theorem occursIn_iff_cat {word text : String} :
    Json.occursIn word.toList text.toList = true ↔
      ∃ front back, cat.apply [.string front, .string word, .string back] context
        = .ok (.string text) := by
  simp only [apply_cat_three, Except.ok.injEq, Json.string.injEq]
  rw [Json.occursIn_iff]
  constructor
  · -- what stands around the word is what `cat` is given around it
    rintro ⟨front, back, htext⟩
    refine ⟨String.ofList front, String.ofList back, ?_⟩
    rw [← String.toList_inj]
    simpa using htext
  · rintro ⟨front, back, rfl⟩
    refine ⟨front.toList, back.toList, ?_⟩
    simp

theorem isSome_lookup_iff {entries : List (String × Json)} {key : String} :
    (entries.lookup key).isSome = true ↔ key ∈ keys entries := by
  rw [← not_iff_not, Bool.not_eq_true, Option.isSome_eq_false_iff, Option.isNone_iff_eq_none,
    Json.lookup_eq_none]

/-- A key without dots is a path of one step. -/
theorem mem_keys_iff_var {entries : List (String × Json)} {key : String}
    (hdot : '.' ∉ key.toList) :
    key ∈ keys entries ↔ ∃ found, var.apply [.string key] (.object entries) = .ok found := by
  rw [← isSome_lookup_iff, Option.isSome_iff_exists]
  refine exists_congr fun found => ?_
  have hstep : (Json.object entries).lookup key = .ok found ↔ entries.lookup key = some found := by
    rw [Json.lookup_of_no_dot _ hdot, Json.step_object_eq_ok]
  rw [← hstep]
  exact (lookUp_eq_ok_iff.trans (by simp [Json.path])).symm

/-! ### Answers -/

/-- What is refused is refused for its kind, and nothing else is. -/
theorem holds_eq_error_iff :
    (∃ detail, haystack.holds needle = .error detail) ↔ haystack.Refuses needle := by
  -- six kinds by six, and in none of them does the content matter
  cases haystack <;> cases needle <;> simp [Json.holds, Json.Refuses, Json.kind]

theorem isIn_eq_error_iff :
    (∃ error, isIn.apply [needle, haystack] context = .error error) ↔ haystack.Refuses needle := by
  rw [← holds_eq_error_iff, apply_isIn]
  cases haystack.holds needle <;> simp [blame, Except.mapError, Except.map]

/-- There being two operands, nothing but their kinds can be wrong with them. -/
theorem isIn_eq_error (h : isIn.apply [needle, haystack] context = .error error) :
    ∃ detail, error = .typeMismatch .isIn detail := by
  cases fails_of_apply h with
  | arity hnot => exact absurd rfl hnot
  | typeMismatch _ detail => exact ⟨detail, rfl⟩
  | quotientByZero hoperator | remainderByZero hoperator | contextLookup hoperator =>
    cases hoperator

/-- Where there is nothing to search, nothing is found. -/
theorem isIn_of_nothing (harray : haystack.kind ≠ .array)
    (hstring : haystack.kind = .string → needle.kind ≠ .string)
    (hobject : haystack.kind = .object → needle.kind ≠ .string)
    (hrefuses : ¬haystack.Refuses needle) :
    isIn.apply [needle, haystack] context = .ok (.bool false) := by
  have hholds : haystack.holds needle = .ok false := by
    cases haystack <;> cases needle <;> simp_all [Json.holds, Json.Refuses, Json.kind]
  rw [apply_isIn, hholds]
  rfl

/-- **Membership agrees with the other operators**: an array has a needle if `==` finds it equal to
one of the items, a string has another one if `cat` makes it of that one between two others, and an
object has a string that is one of its keys; without dots, one that `var` finds there.  All of these
succeed.  A needle in a string that is none, and an array or an object in an object, are type
mismatches, and there are no other failures; nothing is a member of anything else. -/
theorem membership_agrees (context : Json) :
    (∀ (needle : Json) (items : List Json), needle.KeysOnce → (Json.array items).KeysOnce →
      ∃ answer, isIn.apply [needle, .array items] context = .ok (.bool answer) ∧
        (answer = true ↔
          ∃ item ∈ items, equal.apply [needle, item] context = .ok (.bool true))) ∧
    (∀ word text : String,
      ∃ answer, isIn.apply [.string word, .string text] context = .ok (.bool answer) ∧
        (answer = true ↔
          ∃ front back, cat.apply [.string front, .string word, .string back] context
            = .ok (.string text))) ∧
    (∀ (key : String) (entries : List (String × Json)),
      ∃ answer, isIn.apply [.string key, .object entries] context = .ok (.bool answer) ∧
        (answer = true ↔ key ∈ keys entries) ∧
        ('.' ∉ key.toList → (answer = true ↔
          ∃ found, var.apply [.string key] (.object entries) = .ok found))) ∧
    ∀ needle haystack : Json,
      ((∃ error, isIn.apply [needle, haystack] context = .error error) ↔
        haystack.Refuses needle) ∧
      (∀ error, isIn.apply [needle, haystack] context = .error error →
        ∃ detail, error = .typeMismatch .isIn detail) ∧
      (haystack.kind ≠ .array → (haystack.kind = .string → needle.kind ≠ .string) →
        (haystack.kind = .object → needle.kind ≠ .string) → ¬haystack.Refuses needle →
        isIn.apply [needle, haystack] context = .ok (.bool false)) := by
  refine ⟨?_, ?_, ?_, ?_⟩
  · intro needle items hneedle hitems
    cases hitems with
    | array hitems => exact ⟨_, rfl, any_looselyEqual_iff hneedle hitems⟩
  · exact fun word text => ⟨_, rfl, occursIn_iff_cat⟩
  · intro key entries
    refine ⟨_, rfl, isSome_lookup_iff, fun hdot => ?_⟩
    rw [isSome_lookup_iff]
    exact mem_keys_iff_var hdot
  · exact fun needle haystack =>
      ⟨isIn_eq_error_iff, fun error => isIn_eq_error, isIn_of_nothing⟩

/-- The integer 1 among floats; a word that begins once before it stands there; a key whose value is
null, and one that is not there; a number in a string, and null in an object. -/
theorem membership_agrees_kinds :
    let one : Number := .integer 1 (by decide)
    let oneFloat : Number := .float (Finite.ofInt 1 (by decide))
    let items : List Json := [.null, .number oneFloat]
    let entries : List (String × Json) := [("plan", .null)]
    isIn.apply [.number one, .array items] .null = .ok (.bool true) ∧
    isIn.apply [.string "aab", .string "aaab"] .null = .ok (.bool true) ∧
    isIn.apply [.string "plan", .object entries] .null = .ok (.bool true) ∧
    (∃ found, var.apply [.string "plan"] (.object entries) = .ok found) ∧
    (¬∃ found, var.apply [.string "beta"] (.object entries) = .ok found) ∧
    (∃ error, isIn.apply [.number one, .string "1"] .null = .error error) ∧
    isIn.apply [.null, .object entries] .null = .ok (.bool false) := by
  intro one oneFloat items entries
  obtain ⟨harray, hstring, hobject, hkinds⟩ := membership_agrees .null
  have hitems : (Json.array items).KeysOnce :=
    .array (by simp [items, KeysOnce.null, KeysOnce.number])
  have hone : equal.apply [.number one, .number oneFloat] .null = .ok (.bool true) := by
    rw [equal_eq_true_iff (.number one) (.number oneFloat), Json.inFloats, Json.inFloats]
    rfl
  obtain ⟨found, hfound, hequal⟩ := harray (.number one) items (.number one) hitems
  obtain ⟨part, hpart, hcat⟩ := hstring "aab" "aaab"
  obtain ⟨plan, hplan, hkey, hvar⟩ := hobject "plan" entries
  obtain ⟨beta, -, hmissing, hnowhere⟩ := hobject "beta" entries
  obtain rfl : found = true := hequal.2 ⟨.number oneFloat, by simp [items], hone⟩
  obtain rfl : part = true := hcat.2 ⟨"a", "", rfl⟩
  obtain rfl : plan = true := hkey.2 List.mem_cons_self
  refine ⟨hfound, hpart, hplan, (hvar (by decide)).1 rfl, ?_, ?_, ?_⟩
  · rw [← hnowhere (by decide), hmissing]
    decide
  · exact (hkinds _ _).1.2 (by decide)
  · exact (hkinds _ _).2.2 (by decide) (by decide) (by decide) (by decide)

end Operator

end FeatureFlags

import FeatureFlags.Flag.Evaluation

/-!
Errors are contained in the flag where they occur.

A flag is evaluated in one of three ways (`FlagRule.evaluate_cases`): it has no rule, its rule gives
a scalar, or its rule fails and the text of the error says why.  There is no fourth way, since a
rule that succeeds always gives a scalar (`Rule.exists_scalar_of_evaluate`), and the failures are
told apart by the reason alone, since no error has an empty text
(`EvaluationError.message_ne_empty`).
-/

namespace FeatureFlags

/-! ### Texts of errors -/

theorem append_ne_empty {front : String} (h : front ≠ "") (rest : String) : front ++ rest ≠ "" :=
  fun happend => h (String.append_eq_empty_iff.1 happend).1

theorem LookupError.message_ne_empty (error : LookupError) : error.message ≠ "" := by
  cases error with
  | keyNotFound | indexOutOfRange =>
    exact append_ne_empty (append_ne_empty (by decide) _) _
  | unresolvable => exact append_ne_empty (append_ne_empty (append_ne_empty (by decide) _) _) _

/-- Every text begins with words of its own, whatever stands in the gaps. -/
theorem EvaluationError.message_ne_empty (error : EvaluationError) : error.message ≠ "" := by
  cases error with
  | contextLookup cause => exact cause.message_ne_empty
  | divisionByZero => exact (by decide : "Division by zero" ≠ "")
  | unrecognizedOperation | malformedRule | nonScalarResult | nestingTooDeep =>
    exact append_ne_empty (by decide) _
  | typeMismatch => exact append_ne_empty (append_ne_empty (append_ne_empty (by decide) _) _) _
  | arity =>
    exact append_ne_empty (append_ne_empty (append_ne_empty
      (append_ne_empty (append_ne_empty (by decide) _) _) _) _) _

/-! ### Results of rules -/

namespace Rule

theorem exists_scalar_of_scalarResult {value result : Json} (h : scalarResult value = .ok result) :
    ∃ scalar : Scalar, scalar.toJson = result := by
  cases value with
  | bool b => exact ⟨.bool b, Except.ok.inj h⟩
  | number n => exact ⟨.number n, Except.ok.inj h⟩
  | string s => exact ⟨.string s, Except.ok.inj h⟩
  | null | array | object => cases h

/-- A rule never succeeds with anything but a scalar. -/
theorem exists_scalar_of_evaluate {rule context result : Json}
    (h : evaluate rule context = .ok result) : ∃ scalar : Scalar, scalar.toJson = result := by
  cases htree : RuleTree.parse rule with
  | error error => simp [evaluate, htree, bind, Except.bind] at h
  | ok tree =>
    cases hvalue : tree.evaluate (effectiveContext context) with
    | error error => simp [evaluate, htree, hvalue, bind, Except.bind] at h
    | ok value =>
      simp only [evaluate, htree, hvalue, bind, Except.bind] at h
      exact exists_scalar_of_scalarResult h

end Rule

/-! ### Results of flags -/

namespace FlagRule

/-- There is no rule, or the rule can be evaluated. -/
def Evaluates (rule : FlagRule) (context : Json) : Prop :=
  rule.rules = none ∨ ∃ tree value, rule.rules = some tree ∧ Rule.evaluate tree context = .ok value

/-- The three ways to evaluate a flag. -/
theorem evaluate_cases (rule : FlagRule) (context : Json) :
    (rule.rules = none ∧ rule.evaluate context = .success rule.defaultValue) ∨
    (∃ tree scalar, rule.rules = some tree ∧ Rule.evaluate tree context = .ok scalar.toJson ∧
      rule.evaluate context = .success scalar) ∨
    ∃ tree error, rule.rules = some tree ∧ Rule.evaluate tree context = .error error ∧
      rule.evaluate context = .failure rule.defaultValue error.message := by
  cases hrules : rule.rules with
  | none => exact .inl ⟨rfl, by rw [evaluate, hrules]⟩
  | some tree =>
    cases hvalue : Rule.evaluate tree context with
    | error error =>
      refine .inr (.inr ⟨tree, error, rfl, hvalue, ?_⟩)
      simp only [evaluate, hrules, hvalue]
    | ok value =>
      obtain ⟨scalar, rfl⟩ := Rule.exists_scalar_of_evaluate hvalue
      refine .inr (.inl ⟨tree, scalar, rfl, hvalue, ?_⟩)
      simp only [evaluate, hrules, hvalue, Scalar.ofJson?_toJson]

/-- What the result of a flag says about its rule, and nothing about any other. -/
structure Explains (rule : FlagRule) (context : Json) (result : EvaluationResult) : Prop where
  status_iff : result.status = .ok ↔ result.reason = ""
  reason_iff : result.reason = "" ↔ rule.Evaluates context
  unruled : rule.rules = none → result.value = rule.defaultValue
  /-- The value of a rule is a scalar, so that it is never replaced by the default. -/
  ruled : ∀ tree value, rule.rules = some tree → Rule.evaluate tree context = .ok value →
    Scalar.ofJson? value = some result.value
  failed : ∀ tree error, rule.rules = some tree → Rule.evaluate tree context = .error error →
    result.value = rule.defaultValue ∧ result.reason = error.message ∧ error.message ≠ ""

theorem evaluate_explains (rule : FlagRule) (context : Json) :
    rule.Explains context (rule.evaluate context) := by
  obtain ⟨hrules, hresult⟩ | ⟨tree, scalar, hrules, hvalue, hresult⟩ |
    ⟨tree, error, hrules, herror, hresult⟩ := rule.evaluate_cases context
  · rw [hresult]
    exact {
      status_iff := iff_of_true rfl rfl
      reason_iff := iff_of_true rfl (.inl hrules)
      unruled := fun _ => rfl
      ruled := fun tree value h => by cases hrules.symm.trans h
      failed := fun tree error h => by cases hrules.symm.trans h }
  · rw [hresult]
    refine {
      status_iff := iff_of_true rfl rfl
      reason_iff := iff_of_true rfl (.inr ⟨tree, _, hrules, hvalue⟩)
      unruled := fun h => by cases hrules.symm.trans h
      ruled := fun tree' value htree hother => ?_
      failed := fun tree' error htree hother => ?_ }
    all_goals obtain rfl := Option.some.inj (hrules.symm.trans htree)
    · obtain rfl := Except.ok.inj (hvalue.symm.trans hother)
      exact Scalar.ofJson?_toJson scalar
    · cases hvalue.symm.trans hother
  · rw [hresult]
    refine {
      status_iff := iff_of_false nofun error.message_ne_empty
      reason_iff := iff_of_false error.message_ne_empty ?_
      unruled := fun _ => rfl
      ruled := fun tree' value htree hother => ?_
      failed := fun tree' error' htree hother => ?_ }
    · rintro (h | ⟨tree', value, htree, hother⟩)
      · cases hrules.symm.trans h
      · obtain rfl := Option.some.inj (hrules.symm.trans htree)
        cases herror.symm.trans hother
    · obtain rfl := Option.some.inj (hrules.symm.trans htree)
      cases herror.symm.trans hother
    · obtain rfl := Option.some.inj (hrules.symm.trans htree)
      obtain rfl := Except.error.inj (herror.symm.trans hother)
      exact ⟨rfl, rfl, error.message_ne_empty⟩

end FlagRule

/-! ### Results of maps of flags -/

theorem SortedMap.keys_mapValues {α β : Type} (f : String → α → β) (m : SortedMap α) :
    (m.mapValues f).keys = m.keys := by
  rw [keys, keys, mapValues, List.map_map]
  rfl

namespace FlagMap

theorem get?_evaluateAll (flags : FlagMap) (context : Json) (name : String) :
    (flags.evaluateAll context).get? name = flags.evaluate? name context :=
  SortedMap.get?_mapValues _ flags name

/-- **Errors are contained**: evaluating all flags of a map gives one result for each flag, under
its name.  The result depends on the flag alone, whatever else the map holds, and it says whether
the flag could be evaluated, to which value, and why not. -/
theorem errors_contained (flags : FlagMap) (context : Json) :
    (flags.evaluateAll context).keys = flags.keys ∧
    (∀ (others : FlagMap) (name : String), others.get? name = flags.get? name →
      (others.evaluateAll context).get? name = (flags.evaluateAll context).get? name) ∧
    ∀ name rule, flags.get? name = some rule →
      ∃ result, (flags.evaluateAll context).get? name = some result ∧
        rule.Explains context result := by
  refine ⟨SortedMap.keys_mapValues _ flags, fun others name hsame => ?_, fun name rule hrule => ?_⟩
  · rw [get?_evaluateAll, get?_evaluateAll, evaluate?, evaluate?, hsame]
  · refine ⟨rule.evaluate context, ?_, rule.evaluate_explains context⟩
    rw [get?_evaluateAll, evaluate?, hrule, Option.map_some]

/-- A flag whose rule is none, beside one whose rule can be evaluated. -/
theorem errors_contained_unrecognized :
    let context : Json := .object [("beta", .bool true)]
    let beta : FlagRule := ⟨some (.object [("var", .string "beta")]), .bool false⟩
    let dark : FlagRule := ⟨some (.object [("nand", .null)]), .string "off"⟩
    let flags : FlagMap := (SortedMap.empty.insert "beta" beta).insert "dark" dark
    (flags.evaluateAll context).get? "beta" = some (.success (.bool true)) ∧
    (flags.evaluateAll context).get? "dark"
      = some (.failure (.string "off") "Unrecognized operation nand") ∧
    (evaluateAll (flags.erase "dark") context).get? "beta" = some (.success (.bool true)) := by
  intro context beta dark flags
  obtain ⟨-, hothers, hresults⟩ := errors_contained flags context
  have hbeta : flags.get? "beta" = some beta := by simp [flags]
  have hdark : flags.get? "dark" = some dark := by simp [flags]
  have hkept : (flags.erase "dark").get? "beta" = flags.get? "beta" := by simp
  have hsuccess : (flags.evaluateAll context).get? "beta" = some (.success (.bool true)) := by
    obtain ⟨⟨value, status, reason⟩, hresult, hexplains⟩ := hresults "beta" beta hbeta
    have hvalue : some (Scalar.bool true) = some value := hexplains.ruled _ (.bool true) rfl rfl
    have hreason : reason = "" := hexplains.reason_iff.2 (.inr ⟨_, .bool true, rfl, rfl⟩)
    have hstatus : status = .ok := hexplains.status_iff.2 hreason
    obtain rfl := Option.some.inj hvalue
    rw [hresult, hreason, hstatus]
    rfl
  refine ⟨hsuccess, ?_, (hothers _ "beta" hkept).trans hsuccess⟩
  obtain ⟨⟨value, status, reason⟩, hresult, hexplains⟩ := hresults "dark" dark hdark
  obtain ⟨hvalue, hreason, hnonempty⟩ := hexplains.failed _ (.unrecognizedOperation "nand") rfl rfl
  have hstatus : status = .error := by
    cases status with
    | error => rfl
    | ok => exact absurd (hreason.symm.trans (hexplains.status_iff.1 rfl)) hnonempty
  obtain rfl : value = .string "off" := hvalue
  obtain rfl : reason = "Unrecognized operation nand" := hreason
  rw [hresult, hstatus]
  rfl

end FlagMap

end FeatureFlags

import FeatureFlags.Proofs.Json.Falsy
import FeatureFlags.Proofs.Rule.Composition

/-!
How the result of a rule depends on the context.

The context is looked at by `var` alone, and there through look-ups of paths.  Which paths these are
may itself be the result of a rule, so it is not known beforehand; but a look-up that succeeds goes
on to succeed in a context that has more (`Json.Within`), so the operands keep their values, and
with them the path that comes next (`RuleTree.evaluate_of_within`).
-/

namespace FeatureFlags

/-! ### Look-ups in two contexts -/

namespace Json

/-- Every path that leads to a value in this context leads to the same value in the other one. -/
def Within (context other : Json) : Prop :=
  ∀ path value, context.lookup path = .ok value → other.lookup path = .ok value

/-- A path has a first segment. -/
theorem segments_ne_nil (path : List Char) : segments path ≠ [] := by
  cases path with
  | nil => exact List.cons_ne_nil _ _
  | cons c rest =>
    rw [segments]
    split
    · exact List.cons_ne_nil _ _
    · split <;> exact List.cons_ne_nil _ _

theorem walk_cons (value : Json) (segment : List Char) (rest : List (List Char)) :
    value.walk (segment :: rest)
      = (value.step (String.ofList segment)).bind fun next => next.walk rest := by
  rw [walk]
  rfl

theorem step_object_eq_ok {entries : List (String × Json)} {key : String} {value : Json} :
    step (.object entries) key = .ok value ↔ entries.lookup key = some value := by
  rw [step]
  cases entries.lookup key <;> simp

/-- Only the first step is one in the context itself. -/
theorem within_of_step {context other : Json}
    (h : ∀ segment next, context.step segment = .ok next → other.step segment = .ok next) :
    context.Within other := by
  intro path value hlookup
  unfold lookup at hlookup ⊢
  cases hpath : segments path.toList with
  | nil => exact absurd hpath (segments_ne_nil _)
  | cons segment rest =>
    rw [hpath, walk_cons, bind_eq_ok_iff] at hlookup
    obtain ⟨next, hnext, hrest⟩ := hlookup
    rw [walk_cons, bind_eq_ok_iff]
    exact ⟨next, h _ _ hnext, hrest⟩

theorem within_of_lookup {entries more : List (String × Json)}
    (h : ∀ key value, entries.lookup key = some value → more.lookup key = some value) :
    Within (.object entries) (.object more) := by
  refine within_of_step fun segment next hnext => ?_
  exact step_object_eq_ok.2 (h _ _ (step_object_eq_ok.1 hnext))

/-- No path leads anywhere in the empty object. -/
theorem emptyObject_within (other : Json) : emptyObject.Within other := by
  refine within_of_step fun segment next hnext => ?_
  cases hnext

end Json

variable {context other : Json}

/-! ### Operators in two contexts -/

namespace Operator

theorem apply_of_ne_var {operator : Operator} (h : operator ≠ .var) (values : List Json)
    (context other : Json) : operator.apply values context = operator.apply values other := by
  match values with
  | [] | [_] | [_, _] | [_, _, _] | _ :: _ :: _ :: _ :: _ =>
    cases operator with
    | var => exact absurd rfl h
    | _ => rfl

theorem lookUp_eq_ok_iff {operand value : Json} :
    lookUp context operand = .ok value ↔
      ∃ path, operand.path = .ok path ∧ context.lookup path = .ok value := by
  unfold lookUp
  cases operand.path with
  | error detail => simp [blame, Except.mapError, bind, Except.bind]
  | ok path =>
    cases hlookup : context.lookup path <;>
      simp [blame, Except.mapError, bind, Except.bind, hlookup]

theorem apply_var_eq_ok_iff {values : List Json} {value : Json} :
    var.apply values context = .ok value ↔
      ∃ operand path, values = [operand] ∧ operand.path = .ok path ∧
        context.lookup path = .ok value := by
  match values with
  | [operand] =>
    refine lookUp_eq_ok_iff.trans ⟨?_, ?_⟩
    · rintro ⟨path, hpath, hlookup⟩
      exact ⟨operand, path, rfl, hpath, hlookup⟩
    · rintro ⟨operand', path, hvalues, hpath, hlookup⟩
      obtain rfl := List.head_eq_of_cons_eq hvalues
      exact ⟨path, hpath, hlookup⟩
  | [] | _ :: _ :: _ => simp [apply]

theorem apply_of_within (h : context.Within other) {operator : Operator} {values : List Json}
    {value : Json} (happly : operator.apply values context = .ok value) :
    operator.apply values other = .ok value := by
  by_cases hvar : operator = .var
  · subst hvar
    obtain ⟨operand, path, hvalues, hpath, hlookup⟩ := apply_var_eq_ok_iff.1 happly
    exact apply_var_eq_ok_iff.2 ⟨operand, path, hvalues, hpath, h path value hlookup⟩
  · rw [← happly]
    exact apply_of_ne_var hvar values other context

end Operator

/-! ### Trees in two contexts -/

namespace RuleTree

/-- More context keeps the result of a tree that has one. -/
theorem evaluate_of_within (h : context.Within other) (tree : RuleTree) {value : Json}
    (hvalue : tree.evaluate context = .ok value) : tree.evaluate other = .ok value := by
  induction tree using tree_induction generalizing value with
  | literal constant => exact hvalue
  | operation operator operands ih =>
    -- the operands keep their values, also those that the path of a `var` is made of
    rw [evaluate_operation, bind_eq_ok_iff] at hvalue ⊢
    obtain ⟨values, hvalues, happly⟩ := hvalue
    refine ⟨values, ?_, Operator.apply_of_within h happly⟩
    rw [evaluateAll_eq_ok_iff, List.forall₂_iff_zip] at hvalues ⊢
    refine ⟨hvalues.1, fun hmem => ?_⟩
    exact ih _ (List.of_mem_zip hmem).1 (hvalues.2 hmem)

/-- No node of the tree looks at the context. -/
def VarFree (tree : RuleTree) : Prop :=
  ∀ position operands, tree.subtree? position ≠ some (.operation .var operands)

theorem varFree_literal (value : Json) : (literal value).VarFree := by
  rintro (_ | ⟨_, _⟩) operands <;> simp [subtree?]

theorem varFree_operation {operator : Operator} {operands : List RuleTree} :
    (operation operator operands).VarFree ↔
      operator ≠ .var ∧ ∀ operand ∈ operands, operand.VarFree := by
  constructor
  · refine fun h => ⟨?_, fun operand hmem position => ?_⟩
    · rintro rfl
      exact h [] operands rfl
    · obtain ⟨index, hoperand⟩ := exists_subtree?_of_mem operator hmem
      intro below hsubtree
      refine h ([index] ++ position) below ?_
      rw [subtree?_append, hoperand]
      exact hsubtree
  · rintro ⟨hoperator, hoperands⟩ (_ | ⟨index, position⟩) below hsubtree
    · obtain ⟨rfl, rfl⟩ := RuleTree.operation.inj (Option.some.inj hsubtree)
      exact hoperator rfl
    · obtain ⟨_, _, operand, htree, hoperand, hsubtree⟩ := exists_operand_of_subtree? hsubtree
      obtain ⟨rfl, rfl⟩ := RuleTree.operation.inj htree
      exact hoperands operand (List.mem_of_getElem? hoperand) position below hsubtree

theorem evaluateAll_congr {operands : List RuleTree}
    (h : ∀ operand ∈ operands, operand.evaluate context = operand.evaluate other) :
    evaluateAll context operands = evaluateAll other operands := by
  induction operands with
  | nil => rfl
  | cons operand rest ih =>
    obtain ⟨hoperand, hrest⟩ := List.forall_mem_cons.1 h
    rw [evaluateAll_cons, evaluateAll_cons, hoperand, ih hrest]

theorem VarFree.evaluate_eq {tree : RuleTree} (h : tree.VarFree) (context other : Json) :
    tree.evaluate context = tree.evaluate other := by
  induction tree using tree_induction with
  | literal value => rfl
  | operation operator operands ih =>
    obtain ⟨hoperator, hoperands⟩ := varFree_operation.1 h
    have hvalues : evaluateAll context operands = evaluateAll other operands :=
      evaluateAll_congr fun operand hmem => ih operand hmem (hoperands operand hmem)
    rw [evaluate_operation, evaluate_operation, hvalues]
    exact congrArg _ (funext fun values => Operator.apply_of_ne_var hoperator values context other)

end RuleTree

/-! ### Rules in two contexts -/

namespace Rule

theorem evaluate_eq_bind (rule context : Json) :
    evaluate rule context
      = (RuleTree.parse rule).bind fun tree =>
          (tree.evaluate (effectiveContext context)).bind scalarResult :=
  rfl

theorem effectiveContext_of_falsy (h : context.Falsy) :
    effectiveContext context = .emptyObject := by
  rw [effectiveContext, Json.falsy_iff.1 h]
  rfl

/-- An object is a context as it stands, also if it is empty. -/
theorem effectiveContext_object (entries : List (String × Json)) :
    effectiveContext (.object entries) = .object entries := by
  cases entries <;> rfl

theorem evaluate_of_within {rule value : Json}
    (h : (effectiveContext context).Within (effectiveContext other))
    (hvalue : evaluate rule context = .ok value) : evaluate rule other = .ok value := by
  rw [evaluate_eq_bind, bind_eq_ok_iff] at hvalue ⊢
  obtain ⟨tree, htree, hresult⟩ := hvalue
  rw [bind_eq_ok_iff] at hresult
  obtain ⟨result, hresult, hscalar⟩ := hresult
  refine ⟨tree, htree, ?_⟩
  rw [bind_eq_ok_iff]
  exact ⟨result, tree.evaluate_of_within h hresult, hscalar⟩

/-- **More context never changes a result**: what a rule evaluates to in an object, it evaluates to
in every object that has the same entries and others.  A falsy context counts as the object without
entries, so what a rule evaluates to there, it evaluates to everywhere.  A rule without `var` does
not depend on the context, and neither does the failure of a rule that cannot be read. -/
theorem evaluate_more_context (rule : Json) :
    (∀ (entries more : List (String × Json)) (value : Json),
      (∀ key found, entries.lookup key = some found → more.lookup key = some found) →
      evaluate rule (.object entries) = .ok value → evaluate rule (.object more) = .ok value) ∧
    (∀ context : Json, context.Falsy →
      evaluate rule context = evaluate rule .emptyObject ∧
      ∀ other value, evaluate rule context = .ok value → evaluate rule other = .ok value) ∧
    (∀ tree, RuleTree.parse rule = .ok tree → tree.VarFree →
      ∀ context other, evaluate rule context = evaluate rule other) ∧
    (∀ error, RuleTree.parse rule = .error error →
      ∀ context, evaluate rule context = .error error) := by
  refine ⟨?_, ?_, ?_, ?_⟩
  · intro entries more value h hvalue
    refine evaluate_of_within ?_ hvalue
    rw [effectiveContext_object, effectiveContext_object]
    exact Json.within_of_lookup h
  · intro context hfalsy
    have heffective := effectiveContext_of_falsy hfalsy
    constructor
    · rw [evaluate_eq_bind, evaluate_eq_bind, heffective]
      rfl
    · intro other value hvalue
      refine evaluate_of_within ?_ hvalue
      rw [heffective]
      exact Json.emptyObject_within _
  · intro tree htree hfree context other
    rw [evaluate_eq_bind, evaluate_eq_bind, htree]
    exact congrArg (·.bind scalarResult) (hfree.evaluate_eq _ _)
  · intro error herror context
    rw [evaluate_eq_bind, herror]
    rfl

/-- A path that is put together by the rule itself, looked up in a context and in a larger one.
Beside it a result that is the same in the context -0.0, a rule without `var`, and one that cannot
be read. -/
theorem evaluate_more_context_computed_path :
    let computed : Json := .object [("==", .array
      [.object [("var", .object [("cat", .array [.string "pl", .string "an"])])], .string "pro"])]
    let small : List (String × Json) := [("plan", .string "pro")]
    let large : List (String × Json) := [("beta", .bool true), ("plan", .string "pro")]
    let negativeZero : Json := .number (.float { Finite.zero with negative := true })
    let constant : Json := .object [("cat", .array [.string "pl", .string "an"])]
    evaluate computed (.object large) = .ok (.bool true) ∧
    evaluate constant (.object small) = .ok (.string "plan") ∧
    evaluate constant negativeZero = evaluate constant (.object large) ∧
    evaluate .emptyObject negativeZero = .error (.malformedRule 0) := by
  intro computed small large negativeZero constant
  have hsmall : evaluate computed (.object small) = .ok (.bool true) := rfl
  have hzero : evaluate constant negativeZero = .ok (.string "plan") := rfl
  have hfalsy : negativeZero.Falsy := .zero (.float rfl)
  have hentries : ∀ key found, small.lookup key = some found → large.lookup key = some found := by
    intro key found h
    by_cases hkey : key = "plan"
    · subst hkey
      exact h
    · simp [small, lookup_cons, hkey] at h
  have htree : RuleTree.parse constant
      = .ok (.operation .cat [.literal (.string "pl"), .literal (.string "an")]) := rfl
  have hfree : (RuleTree.operation .cat
      [.literal (.string "pl"), .literal (.string "an")]).VarFree := by
    simp [RuleTree.varFree_operation, RuleTree.varFree_literal]
  obtain ⟨hmore, -, -, -⟩ := evaluate_more_context computed
  obtain ⟨-, hnothing, hconstant, -⟩ := evaluate_more_context constant
  obtain ⟨-, -, -, hunread⟩ := evaluate_more_context .emptyObject
  refine ⟨hmore small large _ hentries hsmall, ?_, ?_, ?_⟩
  · exact (hnothing negativeZero hfalsy).2 (.object small) _ hzero
  · exact hconstant _ htree hfree negativeZero (.object large)
  · exact hunread _ rfl negativeZero

end Rule

end FeatureFlags

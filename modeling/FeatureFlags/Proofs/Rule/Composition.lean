import Mathlib.Data.List.Forall2
import FeatureFlags.Proofs.Results
import FeatureFlags.Rule.Tree

/-!
A rule tree is evaluated from the results of its subtrees.

A position names a node of a tree by the operands that lead down to it (`RuleTree.subtree?`).  Of a
node only its result counts for the nodes above it: a subtree can be replaced by any tree with the
same result (`evaluate_replace`), such as the literal of its value.  Every operand is evaluated,
whichever of them the operator looks at: a tree that succeeds has no subtree that fails
(`exists_evaluate_of_subtree?`), and the failure that evaluation comes to first is the failure of
the tree (`evaluate_of_reached`).
-/

namespace FeatureFlags

theorem exists_of_forall₂ {α β : Type} {R : α → β → Prop} {as : List α} {bs : List β}
    (h : List.Forall₂ R as bs) {a : α} (ha : a ∈ as) : ∃ b ∈ bs, R a b := by
  induction h with
  | nil => cases ha
  | @cons first b as bs hfirst _ ih =>
    obtain rfl | ha := List.mem_cons.1 ha
    · exact ⟨b, List.mem_cons_self, hfirst⟩
    · obtain ⟨b', hb, hr⟩ := ih ha
      exact ⟨b', List.mem_cons_of_mem _ hb, hr⟩

/-- An operator that gives back its operand where it has only one. -/
theorem Operator.apply_one {operator : Operator}
    (h : operator ∈ [log, divide, and, or, min, max]) (value context : Json) :
    operator.apply [value] context = .ok value := by
  simp only [List.mem_cons, List.not_mem_nil, or_false] at h
  obtain rfl | rfl | rfl | rfl | rfl | rfl := h <;> rfl

namespace RuleTree

/-- What holds of literals, and of an operation if it holds of its operands, holds of every tree. -/
@[elab_as_elim]
theorem tree_induction {motive : RuleTree → Prop} (literal : ∀ value, motive (.literal value))
    (operation : ∀ operator operands, (∀ operand ∈ operands, motive operand) →
      motive (.operation operator operands)) (tree : RuleTree) : motive tree :=
  match tree with
  | .literal value => literal value
  | .operation operator operands =>
    operation operator operands fun operand _ => tree_induction literal operation operand

variable {context : Json}

/-! ### Operands -/

theorem evaluate_operation (context : Json) (operator : Operator) (operands : List RuleTree) :
    (operation operator operands).evaluate context
      = (evaluateAll context operands).bind fun values => operator.apply values context := by
  rw [evaluate]
  rfl

theorem evaluateAll_cons (context : Json) (operand : RuleTree) (rest : List RuleTree) :
    evaluateAll context (operand :: rest)
      = (operand.evaluate context).bind fun value =>
          (evaluateAll context rest).bind fun values => .ok (value :: values) := by
  rw [evaluateAll]
  rfl

/-- Operands have values if each of them has one. -/
theorem evaluateAll_eq_ok_iff {operands : List RuleTree} {values : List Json} :
    evaluateAll context operands = .ok values ↔
      List.Forall₂ (fun operand value => operand.evaluate context = .ok value) operands values := by
  induction operands generalizing values with
  | nil =>
    rw [evaluateAll, List.forall₂_nil_left_iff, Except.ok.injEq]
    exact eq_comm
  | cons operand rest ih =>
    rw [evaluateAll_cons, bind_eq_ok_iff, List.forall₂_cons_left_iff]
    refine exists_congr fun value => ?_
    rw [bind_eq_ok_iff, ← exists_and_left]
    refine exists_congr fun values' => ?_
    rw [ih, Except.ok.injEq, eq_comm (a := values)]

theorem exists_evaluate_of_mem {operands : List RuleTree} {values : List Json}
    (h : evaluateAll context operands = .ok values) {operand : RuleTree}
    (hmem : operand ∈ operands) : ∃ value ∈ values, operand.evaluate context = .ok value :=
  exists_of_forall₂ (evaluateAll_eq_ok_iff.1 h) hmem

theorem exists_operand_of_mem {operands : List RuleTree} {values : List Json}
    (h : evaluateAll context operands = .ok values) {value : Json} (hmem : value ∈ values) :
    ∃ operand ∈ operands, operand.evaluate context = .ok value :=
  exists_of_forall₂ (evaluateAll_eq_ok_iff.1 h).flip hmem

/-- An operand that is changed, but not in its result, makes no difference. -/
theorem evaluateAll_modify {operands : List RuleTree} {index : Nat} {operand : RuleTree}
    (hoperand : operands[index]? = some operand) {change : RuleTree → RuleTree}
    (h : (change operand).evaluate context = operand.evaluate context) :
    evaluateAll context (operands.modify index change) = evaluateAll context operands := by
  induction operands generalizing index with
  | nil => cases hoperand
  | cons first rest ih =>
    cases index with
    | zero =>
      obtain rfl := Option.some.inj hoperand
      rw [List.modify_zero_cons, evaluateAll_cons, evaluateAll_cons, h]
    | succ index =>
      rw [List.modify_succ_cons, evaluateAll_cons, evaluateAll_cons, ih hoperand]

/-- The first operand that fails decides, whatever comes behind it. -/
theorem evaluateAll_of_error {operands : List RuleTree} {index : Nat} {operand : RuleTree}
    {error : EvaluationError} (hoperand : operands[index]? = some operand)
    (hleft : ∀ other ∈ operands.take index, ∃ value, other.evaluate context = .ok value)
    (herror : operand.evaluate context = .error error) :
    evaluateAll context operands = .error error := by
  induction operands generalizing index with
  | nil => cases hoperand
  | cons first rest ih =>
    cases index with
    | zero =>
      obtain rfl := Option.some.inj hoperand
      rw [evaluateAll_cons, herror]
      rfl
    | succ index =>
      rw [List.take_succ_cons, List.forall_mem_cons] at hleft
      obtain ⟨⟨value, hvalue⟩, hleft⟩ := hleft
      rw [evaluateAll_cons, hvalue, ih hoperand hleft]
      rfl

/-! ### Positions -/

/-- The subtree at a position, which says for each node on the way down which operand comes next. -/
def subtree? : RuleTree → List Nat → Option RuleTree
  | tree, [] => some tree
  | .literal _, _ :: _ => none
  | .operation _ operands, index :: position =>
    operands[index]?.bind fun operand => operand.subtree? position

/-- The tree with another subtree at a position. -/
def replace : RuleTree → List Nat → RuleTree → RuleTree
  | _, [], new => new
  | .literal value, _ :: _, _ => .literal value
  | .operation operator operands, index :: position, new =>
    .operation operator (operands.modify index fun operand => operand.replace position new)

/-- Evaluation comes as far as this position: at every node above it, all operands to the left of
the way down have values. -/
def Reached (context : Json) (tree : RuleTree) (position : List Nat) : Prop :=
  ∀ above index below, position = above ++ index :: below →
    ∀ operator operands, tree.subtree? above = some (.operation operator operands) →
      ∀ operand ∈ operands.take index, ∃ value, operand.evaluate context = .ok value

variable {tree subtree new : RuleTree} {position : List Nat}

/-- A position in a subtree, seen from the root. -/
theorem subtree?_append (tree : RuleTree) (above below : List Nat) :
    tree.subtree? (above ++ below) = (tree.subtree? above).bind (·.subtree? below) := by
  induction above generalizing tree with
  | nil => rfl
  | cons index above ih =>
    cases tree with
    | literal value => rfl
    | operation operator operands =>
      rw [List.cons_append, subtree?, subtree?, Option.bind_assoc]
      exact congrArg _ (funext ih)

theorem exists_subtree?_of_mem (operator : Operator) {operands : List RuleTree}
    {operand : RuleTree} (h : operand ∈ operands) :
    ∃ index, (operation operator operands).subtree? [index] = some operand := by
  obtain ⟨index, hoperand⟩ := List.mem_iff_getElem?.1 h
  refine ⟨index, ?_⟩
  rw [subtree?, hoperand]
  rfl

/-- A node below the root is a node of one of the operands. -/
theorem exists_operand_of_subtree? {index : Nat}
    (h : tree.subtree? (index :: position) = some subtree) :
    ∃ operator operands operand, tree = .operation operator operands ∧
      operands[index]? = some operand ∧ operand.subtree? position = some subtree := by
  cases tree with
  | literal value => cases h
  | operation operator operands =>
    obtain ⟨operand, hoperand, hsubtree⟩ := Option.bind_eq_some_iff.1 h
    exact ⟨operator, operands, operand, rfl, hoperand, hsubtree⟩

theorem Reached.left {operator : Operator} {operands : List RuleTree} {index : Nat}
    (h : (operation operator operands).Reached context (index :: position)) :
    ∀ operand ∈ operands.take index, ∃ value, operand.evaluate context = .ok value :=
  h [] index position rfl operator operands rfl

theorem Reached.below {operator : Operator} {operands : List RuleTree} {index : Nat}
    {operand : RuleTree} (h : (operation operator operands).Reached context (index :: position))
    (hoperand : operands[index]? = some operand) : operand.Reached context position := by
  intro above next below hposition operator' operands' hnode
  refine h (index :: above) next below (congrArg (index :: ·) hposition) operator' operands' ?_
  rw [subtree?, hoperand]
  exact hnode

/-- A subtree counts by its result alone. -/
theorem evaluate_replace (hsubtree : tree.subtree? position = some subtree)
    (h : new.evaluate context = subtree.evaluate context) :
    (tree.replace position new).evaluate context = tree.evaluate context := by
  induction position generalizing tree with
  | nil =>
    obtain rfl := Option.some.inj hsubtree
    exact h
  | cons index position ih =>
    obtain ⟨operator, operands, operand, rfl, hoperand, hsubtree⟩ :=
      exists_operand_of_subtree? hsubtree
    rw [replace, evaluate_operation, evaluate_operation, evaluateAll_modify hoperand (ih hsubtree)]

/-- No operator passes over a subtree that fails. -/
theorem exists_evaluate_of_subtree? (hsubtree : tree.subtree? position = some subtree)
    {value : Json} (h : tree.evaluate context = .ok value) :
    ∃ result, subtree.evaluate context = .ok result := by
  induction position generalizing tree value with
  | nil =>
    obtain rfl := Option.some.inj hsubtree
    exact ⟨value, h⟩
  | cons index position ih =>
    obtain ⟨operator, operands, operand, rfl, hoperand, hsubtree⟩ :=
      exists_operand_of_subtree? hsubtree
    rw [evaluate_operation, bind_eq_ok_iff] at h
    obtain ⟨values, hvalues, -⟩ := h
    obtain ⟨value, -, hvalue⟩ := exists_evaluate_of_mem hvalues (List.mem_of_getElem? hoperand)
    exact ih hsubtree hvalue

/-- The failure that evaluation comes to first is the failure of the tree. -/
theorem evaluate_of_reached (hsubtree : tree.subtree? position = some subtree)
    (hreached : tree.Reached context position) {error : EvaluationError}
    (h : subtree.evaluate context = .error error) : tree.evaluate context = .error error := by
  induction position generalizing tree with
  | nil =>
    obtain rfl := Option.some.inj hsubtree
    exact h
  | cons index position ih =>
    obtain ⟨operator, operands, operand, rfl, hoperand, hsubtree⟩ :=
      exists_operand_of_subtree? hsubtree
    have hfails := ih hsubtree (hreached.below hoperand)
    rw [evaluate_operation, evaluateAll_of_error hoperand hreached.left hfails]
    rfl

/-- An operator that gives back its only operand can stand around any tree. -/
theorem evaluate_wrapped {operator : Operator}
    (h : operator ∈ [Operator.log, .divide, .and, .or, .min, .max]) (tree : RuleTree) :
    (operation operator [tree]).evaluate context = tree.evaluate context := by
  rw [evaluate_operation, evaluateAll_cons]
  cases tree.evaluate context with
  | error error => rfl
  | ok value => exact Operator.apply_one h value context

/-- **Evaluation is compositional and strict**: a subtree that has a value can be replaced by the
literal of this value, and operators that give back their only operand can be put around it.  If it
fails and evaluation comes as far, then the tree fails with its error, whatever the operators above
make of the operands that they have already. -/
theorem evaluation_compositional (context : Json) (tree : RuleTree) (position : List Nat)
    (subtree : RuleTree) (hsubtree : tree.subtree? position = some subtree) :
    (∀ value, subtree.evaluate context = .ok value →
      (tree.replace position (.literal value)).evaluate context = tree.evaluate context ∧
      ∀ operator ∈ [Operator.log, .divide, .and, .or, .min, .max],
        (tree.replace position (.operation operator [subtree])).evaluate context
          = tree.evaluate context) ∧
    ∀ error, subtree.evaluate context = .error error → tree.Reached context position →
      tree.evaluate context = .error error := by
  refine ⟨fun value hvalue => ⟨?_, fun operator hoperator => ?_⟩, fun error herror hreached => ?_⟩
  · exact evaluate_replace hsubtree hvalue.symm
  · exact evaluate_replace hsubtree (evaluate_wrapped hoperator subtree)
  · exact evaluate_of_reached hsubtree hreached herror

/-- A path that is missing where its value would not count: in the branch that is not taken, behind
operands that decide already, and behind a comparison that is false already.  Beside it a node that
is folded into its value, and one that is wrapped. -/
theorem evaluation_compositional_unused :
    let context : Json := .object [("beta", .bool true)]
    let text (s : String) : RuleTree := .literal (.string s)
    let missing : RuleTree := .operation .var [text "plan"]
    let failed : Except EvaluationError Json := .error (.contextLookup (.keyNotFound "plan"))
    let beta : RuleTree := .operation .var [text "beta"]
    let negated : RuleTree := .operation .not [beta]
    (RuleTree.operation .conditional [beta, text "on", missing]).evaluate context = failed ∧
    (RuleTree.operation .and [negated, missing]).evaluate context = failed ∧
    (RuleTree.operation .or [beta, missing]).evaluate context = failed ∧
    (RuleTree.operation .less [text "b", text "a", missing]).evaluate context = failed ∧
    (negated.replace [0] (.literal (.bool true))).evaluate context = negated.evaluate context ∧
    (negated.replace [0] (.operation .min [beta])).evaluate context = negated.evaluate context := by
  intro context text missing failed beta negated
  have hmissing : missing.evaluate context = failed := rfl
  have hbeta : beta.evaluate context = .ok (.bool true) := rfl
  have hnegated : negated.evaluate context = .ok (.bool false) := rfl
  -- what stands to the left has a value, and nothing stands above the operation
  have hfails : ∀ (operator : Operator) (front : List RuleTree),
      (∀ operand ∈ front, ∃ value, operand.evaluate context = .ok value) →
      (RuleTree.operation operator (front ++ [missing])).evaluate context = failed := by
    intro operator front hfront
    have hsubtree : (RuleTree.operation operator (front ++ [missing])).subtree? [front.length]
        = some missing := by
      simp [subtree?]
    refine (evaluation_compositional context _ _ _ hsubtree).2 _ hmissing ?_
    rintro (_ | ⟨_, _ | ⟨_, _⟩⟩) index below hposition operator' operands hnode operand hoperand
    · obtain ⟨rfl, rfl⟩ := List.cons.inj hposition
      obtain ⟨rfl, rfl⟩ := RuleTree.operation.inj (Option.some.inj hnode)
      rw [List.take_left] at hoperand
      exact hfront operand hoperand
    · cases hposition
    · cases hposition
  obtain ⟨hfolded, hwrapped⟩ :=
    (evaluation_compositional context negated [0] beta rfl).1 (.bool true) hbeta
  refine ⟨hfails .conditional [beta, text "on"] ?_, hfails .and [negated] ?_,
    hfails .or [beta] ?_, hfails .less [text "b", text "a"] ?_, hfolded,
    hwrapped .min (by decide)⟩
  all_goals simp [hbeta, hnegated, text, evaluate]

end RuleTree

end FeatureFlags

import Mathlib.Data.List.Forall2
import FeatureFlags.Rule.Tree

/-!
The grammar of rules.

A JSON value is a rule where it stands if it is a literal or an operation, not nested too deeply,
and if its operands are rules one step deeper (`Rule.WellFormed`).  The parser accepts these values
and no others.  Of a value that is no rule it reports the first fault that is met when the nodes are
visited in order, each before its operands (`Rule.nodes`, `Rule.fault?`).

The parser is opened once, at one node: it reports the fault of the node (`parseAt_of_fault`), keeps
a literal (`parseAt_of_literal`), or reads the operands (`parseAt_of_operation`).  Everything else
is an induction on operands (`Rule.operands_induction`).
-/

namespace FeatureFlags

/-! ### Symbols -/

namespace Operator

theorem mem_all (operator : Operator) : operator ∈ all := by cases operator <;> decide

/-- The symbol is that of an operator. -/
def IsSymbol (symbol : String) : Prop := symbol ∈ all.map Operator.symbol

instance (symbol : String) : Decidable (IsSymbol symbol) := inferInstanceAs (Decidable (_ ∈ _))

theorem isSymbol_iff {symbol : String} :
    IsSymbol symbol ↔ ∃ operator : Operator, operator.symbol = symbol := by
  rw [IsSymbol, List.mem_map]
  exact exists_congr fun operator => and_iff_right (mem_all operator)

theorem isSymbol_symbol (operator : Operator) : IsSymbol operator.symbol :=
  isSymbol_iff.2 ⟨operator, rfl⟩

theorem ofSymbol?_of_not_isSymbol {symbol : String} (h : ¬ IsSymbol symbol) :
    ofSymbol? symbol = none := by
  cases hsymbol : ofSymbol? symbol with
  | none => rfl
  | some operator => exact absurd (isSymbol_iff.2 ⟨operator, symbol_of_ofSymbol? hsymbol⟩) h

end Operator

namespace Rule

/-! ### Well-formed rules -/

/-- The operands that the value of an operation lists.  What is no array is the list of itself. -/
def listed : Json → List Json
  | .array operands => operands
  | operand => [operand]

/-- The operands of a node. -/
def operands : Json → List Json
  | .object [(_, value)] => listed value
  | _ => []

/-- The value is a rule where it stands at this depth. -/
inductive WellFormed : Nat → Json → Prop where
  | literal {depth : Nat} {value : Json} (hdepth : depth ≤ 100) (hkind : value.kind ≠ .object) :
      WellFormed depth value
  | operation {depth : Nat} (operator : Operator) {value : Json} (hdepth : depth ≤ 100)
      (hoperands : ∀ operand ∈ listed value, WellFormed (depth + 1) operand) :
      WellFormed depth (.object [(operator.symbol, value)])

/-- What is wrong with a node, its operands aside. -/
def fault? (depth : Nat) (node : Json) : Option EvaluationError :=
  if 100 < depth then some .nestingTooDeep
  else match node with
    | .object [(symbol, _)] =>
      if Operator.IsSymbol symbol then none else some (.unrecognizedOperation symbol)
    | .object entries => some (.malformedRule entries.length)
    | _ => none

mutual

/-- The nodes of a rule with their depths, each before its operands, and the operands from left to
right. -/
def nodes (depth : Nat) (rule : Json) : List (Nat × Json) :=
  match rule with
  | .object [(_, .array operands)] => (depth, rule) :: nodesAll (depth + 1) operands
  | .object [(_, operand)] => (depth, rule) :: nodes (depth + 1) operand
  | _ => [(depth, rule)]

def nodesAll (depth : Nat) (rules : List Json) : List (Nat × Json) :=
  match rules with
  | [] => []
  | rule :: rest => nodes depth rule ++ nodesAll depth rest

end

theorem nodesAll_eq (depth : Nat) (rules : List Json) :
    nodesAll depth rules = rules.flatMap (nodes depth) := by
  induction rules with
  | nil => rw [nodesAll, List.flatMap_nil]
  | cons rule rest ih => rw [nodesAll, ih, List.flatMap_cons]

theorem listed_of_kind {value : Json} (h : value.kind ≠ .array) : listed value = [value] := by
  cases value with
  | array => exact absurd rfl h
  | _ => rfl

/-- A value that is no object, an operation with any symbol, or an object of another size. -/
theorem shape_cases (value : Json) :
    value.kind ≠ .object ∨ (∃ symbol operand, value = .object [(symbol, operand)]) ∨
      ∃ entries, value = .object entries ∧ entries.length ≠ 1 := by
  cases value with
  | object entries =>
    match entries with
    | [(symbol, operand)] => exact .inr (.inl ⟨symbol, operand, rfl⟩)
    | [] => exact .inr (.inr ⟨[], rfl, by decide⟩)
    | _ :: _ :: _ => exact .inr (.inr ⟨_, rfl, by simp⟩)
  | _ => exact .inl (by simp [Json.kind])

theorem operands_of_kind {value : Json} (h : value.kind ≠ .object) : operands value = [] := by
  cases value with
  | object => exact absurd rfl h
  | _ => rfl

theorem nodes_eq (depth : Nat) (rule : Json) :
    nodes depth rule = (depth, rule) :: (operands rule).flatMap (nodes (depth + 1)) := by
  obtain hkind | ⟨symbol, operand, rfl⟩ | ⟨entries, rfl, hlength⟩ := shape_cases rule
  · rw [operands_of_kind hkind, List.flatMap_nil]
    cases rule with
    | object => exact absurd rfl hkind
    | _ => rw [nodes] <;> nofun
  · by_cases hkind : operand.kind = .array
    · cases operand with
      | array items => rw [nodes, nodesAll_eq]; rfl
      | _ => cases hkind
    · rw [operands, listed_of_kind hkind, List.flatMap_singleton, nodes]
      rintro items rfl
      exact hkind rfl
  · match entries with
    | [(_, _)] => exact absurd rfl hlength
    | [] | _ :: _ :: _ => rw [nodes] <;> first | rfl | nofun

theorem sizeOf_lt_of_mem_operands {operand rule : Json} (h : operand ∈ operands rule) :
    sizeOf operand < sizeOf rule := by
  obtain hkind | ⟨symbol, value, rfl⟩ | ⟨entries, rfl, hlength⟩ := shape_cases rule
  · rw [operands_of_kind hkind] at h
    cases h
  · have hvalue : sizeOf operand ≤ sizeOf value := by
      by_cases hkind : value.kind = .array
      · cases value with
        | array items =>
          have hitem := List.sizeOf_lt_of_mem (show operand ∈ items from h)
          simp only [Json.array.sizeOf_spec]
          omega
        | _ => cases hkind
      · rw [operands, listed_of_kind hkind, List.mem_singleton] at h
        exact h ▸ Nat.le_refl _
    simp only [Json.object.sizeOf_spec, List.cons.sizeOf_spec, Prod.mk.sizeOf_spec]
    omega
  · match entries with
    | [(_, _)] => exact absurd rfl hlength
    | [] | _ :: _ :: _ => cases h

/-- What holds of a value if it holds of its operands holds of every value. -/
@[elab_as_elim]
theorem operands_induction {motive : Json → Prop}
    (node : ∀ rule, (∀ operand ∈ operands rule, motive operand) → motive rule) (rule : Json) :
    motive rule :=
  node rule fun operand _ => operands_induction node operand
termination_by sizeOf rule
decreasing_by exact sizeOf_lt_of_mem_operands ‹_›

/-! ### One node of the parser -/

variable {depth : Nat} {rule : Json}

/-- A node without a fault is a literal or an operation. -/
theorem fault?_eq_none_iff : fault? depth rule = none ↔
    depth ≤ 100 ∧ (rule.kind ≠ .object ∨
      ∃ (operator : Operator) (value : Json), rule = .object [(operator.symbol, value)]) := by
  rw [fault?.eq_def]
  by_cases hdeep : 100 < depth
  · rw [if_pos hdeep]
    exact iff_of_false nofun fun h => absurd h.1 (Nat.not_le_of_lt hdeep)
  · rw [if_neg hdeep, and_iff_right (Nat.le_of_not_lt hdeep)]
    obtain hkind | ⟨symbol, operand, rfl⟩ | ⟨entries, rfl, hlength⟩ := shape_cases rule
    · refine iff_of_true ?_ (.inl hkind)
      cases rule with
      | object => exact absurd rfl hkind
      | _ => rfl
    · by_cases hsymbol : Operator.IsSymbol symbol
      · obtain ⟨operator, rfl⟩ := Operator.isSymbol_iff.1 hsymbol
        exact iff_of_true (if_pos hsymbol) (.inr ⟨operator, operand, rfl⟩)
      · refine iff_of_false (by simp [hsymbol]) ?_
        rintro (hkind | ⟨operator, value, hrule⟩)
        · exact hkind rfl
        · obtain ⟨rfl, -⟩ : symbol = operator.symbol ∧ operand = value := by simpa using hrule
          exact hsymbol (Operator.isSymbol_symbol operator)
    · match entries with
      | [(_, _)] => exact absurd rfl hlength
      | [] | _ :: _ :: _ => simp [Json.kind]

example : fault? 100 (.object [("and", .array [])]) = none ∧
    fault? 101 .null = some .nestingTooDeep := by
  decide

/-- The parser reports the fault of the node where it stands. -/
theorem parseAt_of_fault {error : EvaluationError} (h : fault? depth rule = some error) :
    RuleTree.parseAt depth rule = .error error := by
  rw [fault?.eq_def] at h
  split at h
  case isTrue hdeep =>
    obtain rfl := Option.some.inj h
    rw [RuleTree.parseAt.eq_def, maxRuleDepth, if_pos hdeep]
  case isFalse hdeep =>
    obtain hkind | ⟨symbol, operand, rfl⟩ | ⟨entries, rfl, hlength⟩ := shape_cases rule
    · cases rule with
      | object => exact absurd rfl hkind
      | _ => cases h
    · by_cases hsymbol : Operator.IsSymbol symbol
      · simp [hsymbol] at h
      · obtain rfl : .unrecognizedOperation symbol = error := by simpa [hsymbol] using h
        have hnone := Operator.ofSymbol?_of_not_isSymbol hsymbol
        rw [RuleTree.parseAt.eq_def, maxRuleDepth, if_neg hdeep]
        cases operand <;> simp [RuleTree.operatorOf, hnone, bind, Except.bind]
    · rw [RuleTree.parseAt.eq_def, maxRuleDepth, if_neg hdeep]
      match entries with
      | [(_, _)] => exact absurd rfl hlength
      | [] =>
        obtain rfl := Option.some.inj h
        rfl
      | (_, value) :: _ :: _ =>
        obtain rfl := Option.some.inj h
        cases value <;> rfl

/-- A literal is read as itself. -/
theorem parseAt_of_literal (hdepth : depth ≤ 100) (hkind : rule.kind ≠ .object) :
    RuleTree.parseAt depth rule = .ok (.literal rule) := by
  rw [RuleTree.parseAt.eq_def, maxRuleDepth, if_neg (Nat.not_lt_of_le hdepth)]
  cases rule with
  | object => exact absurd rfl hkind
  | _ => rfl

/-- An operation is read with its operands. -/
theorem parseAt_of_operation (hdepth : depth ≤ 100) (operator : Operator) (value : Json) :
    RuleTree.parseAt depth (.object [(operator.symbol, value)])
      = (RuleTree.parseAllAt (depth + 1) (listed value)).map (.operation operator) := by
  rw [RuleTree.parseAt.eq_def, maxRuleDepth, if_neg (Nat.not_lt_of_le hdepth)]
  -- the parser has a branch for an array of operands and one for an operand that stands alone
  by_cases hkind : value.kind = .array
  · cases value with
    | array items =>
      simp only [RuleTree.operatorOf, Operator.ofSymbol?_symbol, listed]
      cases RuleTree.parseAllAt (depth + 1) items <;> rfl
    | _ => cases hkind
  · have hlisted : RuleTree.parseAllAt (depth + 1) (listed value)
        = (RuleTree.parseAt (depth + 1) value).map fun tree => [tree] := by
      rw [listed_of_kind hkind, RuleTree.parseAllAt, RuleTree.parseAllAt]
      cases RuleTree.parseAt (depth + 1) value <;> rfl
    rw [hlisted]
    cases value with
    | array => exact absurd rfl hkind
    | _ =>
      simp only [RuleTree.operatorOf, Operator.ofSymbol?_symbol]
      cases RuleTree.parseAt (depth + 1) _ <;> rfl

/-! ### Faults of a rule -/

/-- What the first fault among nodes makes of them. -/
def judged : List (Nat × Json) → Except EvaluationError Unit
  | [] => .ok ()
  | (depth, node) :: rest =>
    match fault? depth node with
    | some error => .error error
    | none => judged rest

theorem judged_append (front rest : List (Nat × Json)) :
    judged (front ++ rest) = (judged front).bind fun _ => judged rest := by
  induction front with
  | nil => rfl
  | cons first front ih =>
    rw [List.cons_append, judged, judged]
    cases fault? first.1 first.2 with
    | some error => rfl
    | none => exact ih

theorem judged_eq_ok_iff {visited : List (Nat × Json)} :
    judged visited = .ok () ↔ ∀ node ∈ visited, fault? node.1 node.2 = none := by
  induction visited with
  | nil => simp [judged]
  | cons first rest ih =>
    rw [judged, List.forall_mem_cons, ← ih]
    cases fault? first.1 first.2 <;> simp

theorem judged_eq_error_iff {visited : List (Nat × Json)} {error : EvaluationError} :
    judged visited = .error error ↔
      ∃ front depth node rest, visited = front ++ (depth, node) :: rest ∧
        (∀ other ∈ front, fault? other.1 other.2 = none) ∧ fault? depth node = some error := by
  constructor
  · intro h
    induction visited with
    | nil => cases h
    | cons first rest ih =>
      rw [judged] at h
      cases hfault : fault? first.1 first.2 with
      | some found =>
        rw [hfault] at h
        obtain rfl := Except.error.inj h
        exact ⟨[], first.1, first.2, rest, rfl, nofun, hfault⟩
      | none =>
        rw [hfault] at h
        obtain ⟨front, depth, node, rest, rfl, hfront, hnode⟩ := ih h
        exact ⟨first :: front, depth, node, rest, rfl, List.forall_mem_cons.2 ⟨hfault, hfront⟩,
          hnode⟩
  · rintro ⟨front, depth, node, rest, rfl, hfront, hnode⟩
    rw [judged_append, judged_eq_ok_iff.2 hfront, Except.bind, judged, hnode]

/-- The parser reads operands one after the other, and stops at the first fault. -/
theorem parseAllAt_verdict {rules : List Json}
    (h : ∀ rule ∈ rules,
      (RuleTree.parseAt depth rule).map (fun _ => ()) = judged (nodes depth rule)) :
    (RuleTree.parseAllAt depth rules).map (fun _ => ()) = judged (rules.flatMap (nodes depth)) := by
  induction rules with
  | nil => rfl
  | cons rule rest ih =>
    obtain ⟨hrule, hrest⟩ := List.forall_mem_cons.1 h
    rw [List.flatMap_cons, judged_append, ← hrule, ← ih hrest, RuleTree.parseAllAt]
    cases RuleTree.parseAt depth rule with
    | error error => rfl
    | ok tree => cases RuleTree.parseAllAt depth rest <;> rfl

/-- The parser succeeds, or reports the first fault of the nodes. -/
theorem parseAt_verdict (depth : Nat) (rule : Json) :
    (RuleTree.parseAt depth rule).map (fun _ => ()) = judged (nodes depth rule) := by
  induction rule using operands_induction generalizing depth with
  | node rule ih =>
    -- the node is judged before its operands; only a node without a fault has operands to read
    rw [nodes_eq, judged]
    cases hfault : fault? depth rule with
    | some error =>
      rw [parseAt_of_fault hfault]
      rfl
    | none =>
      obtain ⟨hdepth, hkind | ⟨operator, value, rfl⟩⟩ := fault?_eq_none_iff.1 hfault
      · rw [parseAt_of_literal hdepth hkind, operands_of_kind hkind]
        rfl
      · have hlisted := parseAllAt_verdict fun operand (h : operand ∈ listed value) =>
          ih operand h (depth + 1)
        rw [parseAt_of_operation hdepth, operands, ← hlisted]
        cases RuleTree.parseAllAt (depth + 1) (listed value) <;> rfl

/-- A well-formed rule is one whose nodes are all without a fault. -/
theorem wellFormed_iff : WellFormed depth rule ↔ judged (nodes depth rule) = .ok () := by
  rw [judged_eq_ok_iff]
  induction rule using operands_induction generalizing depth with
  | node rule ih =>
    rw [nodes_eq, List.forall_mem_cons, fault?_eq_none_iff, List.forall_mem_flatMap]
    have hoperands : (∀ operand ∈ operands rule, ∀ node ∈ nodes (depth + 1) operand,
        fault? node.1 node.2 = none) ↔ ∀ operand ∈ operands rule, WellFormed (depth + 1) operand :=
      forall₂_congr fun operand h => (ih operand h).symm
    rw [hoperands]
    constructor
    · rintro (⟨hdepth, hkind⟩ | ⟨operator, hdepth, h⟩)
      · exact ⟨⟨hdepth, .inl hkind⟩, by rw [operands_of_kind hkind]; nofun⟩
      · exact ⟨⟨hdepth, .inr ⟨operator, _, rfl⟩⟩, h⟩
    · rintro ⟨⟨hdepth, hkind | ⟨operator, value, rfl⟩⟩, h⟩
      · exact .literal hdepth hkind
      · exact .operation operator hdepth h

theorem exists_parseAt_iff :
    (∃ tree, RuleTree.parseAt depth rule = .ok tree) ↔ WellFormed depth rule := by
  rw [wellFormed_iff, ← parseAt_verdict]
  cases RuleTree.parseAt depth rule with
  | ok tree => exact iff_of_true ⟨tree, rfl⟩ rfl
  | error error => exact iff_of_false nofun nofun

theorem parseAt_eq_error_iff {error : EvaluationError} :
    RuleTree.parseAt depth rule = .error error ↔ judged (nodes depth rule) = .error error := by
  rw [← parseAt_verdict]
  cases RuleTree.parseAt depth rule with
  | ok tree => exact iff_of_false nofun nofun
  | error found =>
    show _ ↔ Except.error found = Except.error error
    rw [Except.error.injEq, Except.error.injEq]

/-! ### The trees that are read -/

theorem parseAllAt_eq_ok_iff {rules : List Json} {trees : List RuleTree} :
    RuleTree.parseAllAt depth rules = .ok trees ↔
      List.Forall₂ (fun rule tree => RuleTree.parseAt depth rule = .ok tree) rules trees := by
  induction rules generalizing trees with
  | nil =>
    rw [RuleTree.parseAllAt, List.forall₂_nil_left_iff, Except.ok.injEq]
    exact eq_comm
  | cons rule rest ih =>
    rw [RuleTree.parseAllAt, List.forall₂_cons_left_iff]
    cases hrule : RuleTree.parseAt depth rule with
    | error error => exact iff_of_false nofun nofun
    | ok tree =>
      cases hrest : RuleTree.parseAllAt depth rest with
      | error error =>
        refine iff_of_false nofun ?_
        rintro ⟨_, others, -, hothers, -⟩
        cases hrest.symm.trans (ih.2 hothers)
      | ok others =>
        have hothers := ih.1 hrest
        show Except.ok (tree :: others) = .ok trees ↔ _
        rw [Except.ok.injEq]
        constructor
        · rintro rfl
          exact ⟨tree, others, rfl, hothers, rfl⟩
        · rintro ⟨tree', others', htree, hothers', rfl⟩
          obtain rfl := Except.ok.inj htree
          obtain rfl := Except.ok.inj (hrest.symm.trans (ih.2 hothers'))
          rfl

end Rule

namespace RuleTree

/-- There is this node in the tree, at this depth. -/
inductive HasNode : RuleTree → Nat → RuleTree → Prop where
  | root (tree : RuleTree) : HasNode tree 0 tree
  | operand {operator : Operator} {operands : List RuleTree} {operand node : RuleTree}
      {depth : Nat} (hmem : operand ∈ operands) (hnode : HasNode operand depth node) :
      HasNode (.operation operator operands) (depth + 1) node

theorem toJsonAll_eq (trees : List RuleTree) : toJsonAll trees = trees.map toJson := by
  induction trees with
  | nil => rfl
  | cons tree rest ih => rw [toJsonAll, ih, List.map_cons]

end RuleTree

namespace Rule

/-- Every tree of a list is read from one of the rules. -/
theorem exists_of_mem_read {rules : List Json} {trees : List RuleTree}
    (h : List.Forall₂ (fun rule tree => RuleTree.parseAt depth rule = .ok tree) rules trees)
    {tree : RuleTree} (hmem : tree ∈ trees) :
    ∃ rule ∈ rules, RuleTree.parseAt depth rule = .ok tree := by
  induction h with
  | nil => cases hmem
  | @cons rule first rules trees hfirst _ ih =>
    obtain rfl | hmem := List.mem_cons.1 hmem
    · exact ⟨rule, List.mem_cons_self, hfirst⟩
    · obtain ⟨rule, hrule, hread⟩ := ih hmem
      exact ⟨rule, List.mem_cons_of_mem _ hrule, hread⟩

/-- What is read is a literal as it stands, or an operation with the operands that are read one
deeper. -/
theorem parseAt_cases {tree : RuleTree} (h : RuleTree.parseAt depth rule = .ok tree) :
    depth ≤ 100 ∧ ((rule.kind ≠ .object ∧ tree = .literal rule) ∨
      ∃ (operator : Operator) (value : Json) (trees : List RuleTree),
        rule = .object [(operator.symbol, value)] ∧ tree = .operation operator trees ∧
        List.Forall₂ (fun operand tree => RuleTree.parseAt (depth + 1) operand = .ok tree)
          (listed value) trees) := by
  cases hfault : fault? depth rule with
  | some error => cases (parseAt_of_fault hfault).symm.trans h
  | none =>
    obtain ⟨hdepth, hkind | ⟨operator, value, rfl⟩⟩ := fault?_eq_none_iff.1 hfault
    · rw [parseAt_of_literal hdepth hkind] at h
      exact ⟨hdepth, .inl ⟨hkind, (Except.ok.inj h).symm⟩⟩
    · rw [parseAt_of_operation hdepth] at h
      cases hlisted : RuleTree.parseAllAt (depth + 1) (listed value) with
      | error error => simp [hlisted, Except.map] at h
      | ok trees =>
        rw [hlisted] at h
        obtain rfl := Except.ok.inj h
        exact ⟨hdepth, .inr ⟨operator, value, trees, rfl, rfl, parseAllAt_eq_ok_iff.1 hlisted⟩⟩

/-- No node of a tree that is read lies too deep, and no literal is an object. -/
theorem node_of_parseAt {tree node : RuleTree} {below : Nat}
    (h : RuleTree.parseAt depth rule = .ok tree) (hnode : tree.HasNode below node) :
    depth + below ≤ 100 ∧ ∀ entries, node ≠ .literal (.object entries) := by
  induction hnode generalizing depth rule with
  | root tree =>
    obtain ⟨hdepth, ⟨hkind, rfl⟩ | ⟨operator, value, trees, -, rfl, -⟩⟩ := parseAt_cases h
    · refine ⟨hdepth, fun entries heq => ?_⟩
      obtain rfl := RuleTree.literal.inj heq
      exact hkind rfl
    · exact ⟨hdepth, nofun⟩
  | operand hmem _ ih =>
    obtain ⟨-, ⟨-, htree⟩ | ⟨operator, value, trees, -, htree, hall⟩⟩ := parseAt_cases h
    · cases htree
    · obtain ⟨rfl, rfl⟩ := RuleTree.operation.inj htree
      obtain ⟨operand, -, hoperand⟩ := exists_of_mem_read hall hmem
      obtain ⟨hdepth, hliteral⟩ := ih hoperand
      exact ⟨by omega, hliteral⟩

/-- A tree that is read is read from its canonical form as well. -/
theorem parseAt_toJson {tree : RuleTree} (h : RuleTree.parseAt depth rule = .ok tree) :
    RuleTree.parseAt depth tree.toJson = .ok tree := by
  induction rule using operands_induction generalizing depth tree with
  | node rule ih =>
    obtain ⟨hdepth, ⟨-, rfl⟩ | ⟨operator, value, trees, rfl, rfl, hall⟩⟩ := parseAt_cases h
    · exact h
    · -- the operands are written as an array, whichever way they were listed
      have hwritten : RuleTree.parseAllAt (depth + 1) (trees.map RuleTree.toJson) = .ok trees := by
        rw [parseAllAt_eq_ok_iff, List.forall₂_map_left_iff, List.forall₂_same]
        intro operand hmem
        obtain ⟨value, hvalue, hoperand⟩ := exists_of_mem_read hall hmem
        exact ih value hvalue hoperand
      rw [RuleTree.toJson, RuleTree.toJsonAll_eq, parseAt_of_operation hdepth, listed, hwritten]
      rfl

/-! ### Shorthands -/

/-- A place in a rule: the rule itself, or a place in one of the operands of an operation. -/
inductive Place where
  | here
  /-- In one of the operands that an array lists. -/
  | among (symbol : String) (before : List Json) (place : Place) (after : List Json)
  /-- In the operand that stands alone. -/
  | alone (symbol : String) (place : Place)

/-- The rule that has the given one in this place. -/
def Place.fill : Place → Json → Json
  | here, rule => rule
  | among symbol before place after, rule =>
    .object [(symbol, .array (before ++ place.fill rule :: after))]
  | alone symbol place, rule => .object [(symbol, place.fill rule)]

/-- An operation is read from the operands that its value lists, however the value lists them. -/
theorem parseAt_congr_listed (depth : Nat) (symbol : String) {value value' : Json}
    (h : RuleTree.parseAllAt (depth + 1) (listed value)
      = RuleTree.parseAllAt (depth + 1) (listed value')) :
    RuleTree.parseAt depth (.object [(symbol, value)])
      = RuleTree.parseAt depth (.object [(symbol, value')]) := by
  have hsame : fault? depth (.object [(symbol, value)])
      = fault? depth (.object [(symbol, value')]) := rfl
  cases hfault : fault? depth (.object [(symbol, value)]) with
  | some error => rw [parseAt_of_fault hfault, parseAt_of_fault (hsame.symm.trans hfault)]
  | none =>
    obtain ⟨hdepth, hkind | ⟨operator, _, hrule⟩⟩ := fault?_eq_none_iff.1 hfault
    · exact absurd rfl hkind
    · obtain ⟨rfl, rfl⟩ : symbol = operator.symbol ∧ value = _ := by simpa using hrule
      rw [parseAt_of_operation hdepth, parseAt_of_operation hdepth, h]

/-- An operand that stands alone is read as the list of itself. -/
theorem parseAt_shorthand (depth : Nat) (symbol : String) {operand : Json}
    (h : operand.kind ≠ .array) :
    RuleTree.parseAt depth (.object [(symbol, operand)])
      = RuleTree.parseAt depth (.object [(symbol, .array [operand])]) := by
  apply parseAt_congr_listed
  rw [listed_of_kind h, listed]

theorem parseAllAt_congr {depth : Nat} {rule rule' : Json}
    (h : RuleTree.parseAt depth rule = RuleTree.parseAt depth rule') (before after : List Json) :
    RuleTree.parseAllAt depth (before ++ rule :: after)
      = RuleTree.parseAllAt depth (before ++ rule' :: after) := by
  induction before with
  | nil => rw [List.nil_append, List.nil_append, RuleTree.parseAllAt, RuleTree.parseAllAt, h]
  | cons first before ih =>
    rw [List.cons_append, List.cons_append, RuleTree.parseAllAt, RuleTree.parseAllAt, ih]

/-- Objects that mean the same by themselves mean the same in every place. -/
theorem parseAt_fill {rule rule' : Json} (hkind : rule.kind = .object)
    (hkind' : rule'.kind = .object)
    (h : ∀ depth, RuleTree.parseAt depth rule = RuleTree.parseAt depth rule') (place : Place)
    (depth : Nat) :
    RuleTree.parseAt depth (place.fill rule) = RuleTree.parseAt depth (place.fill rule') := by
  -- what fills an operand that stands alone must be no array, or it would be read as a list
  have hfilled : ∀ {rule : Json}, rule.kind = .object → ∀ place : Place,
      (place.fill rule).kind ≠ .array := by
    intro rule hrule place
    cases place with
    | here => rw [Place.fill, hrule]; nofun
    | among | alone => nofun
  induction place generalizing depth with
  | here => exact h depth
  | among symbol before place after ih =>
    exact parseAt_congr_listed depth symbol (parseAllAt_congr (ih (depth + 1)) before after)
  | alone symbol place ih =>
    apply parseAt_congr_listed
    rw [listed_of_kind (hfilled hkind place), listed_of_kind (hfilled hkind' place)]
    exact parseAllAt_congr (ih (depth + 1)) [] []

/-- **The grammar of rules**: the parser accepts exactly the well-formed rules.  The tree that it
reads has no node below the limit and no object among its literals, and is read again from its
canonical form.  Of any other value the parser reports the first fault of the nodes, and a shorthand
means the same as the list that it stands for, in every place. -/
theorem parse_grammar (rule : Json) :
    ((∃ tree, RuleTree.parse rule = .ok tree) ↔ WellFormed 0 rule) ∧
    (∀ tree, RuleTree.parse rule = .ok tree →
      (∀ depth node, tree.HasNode depth node →
        depth ≤ 100 ∧ ∀ entries, node ≠ .literal (.object entries)) ∧
      RuleTree.parse tree.toJson = .ok tree) ∧
    (∀ error, RuleTree.parse rule = .error error ↔
      ∃ front depth node rest, nodes 0 rule = front ++ (depth, node) :: rest ∧
        (∀ other ∈ front, fault? other.1 other.2 = none) ∧ fault? depth node = some error) ∧
    ∀ (place : Place) (symbol : String) (operand : Json), operand.kind ≠ .array →
      RuleTree.parse (place.fill (.object [(symbol, operand)]))
        = RuleTree.parse (place.fill (.object [(symbol, .array [operand])])) := by
  refine ⟨exists_parseAt_iff, fun tree htree => ⟨fun depth node hnode => ?_, ?_⟩, ?_, ?_⟩
  · obtain ⟨hdepth, hliteral⟩ := node_of_parseAt htree hnode
    exact ⟨Nat.zero_add depth ▸ hdepth, hliteral⟩
  · exact parseAt_toJson htree
  · exact fun error => parseAt_eq_error_iff.trans judged_eq_error_iff
  · intro place symbol operand hkind
    exact parseAt_fill rfl rfl (fun depth => parseAt_shorthand depth symbol hkind) place 0

/-- A shorthand within a shorthand, the tree that is read from it, and an operand that is no rule
after one that is. -/
theorem parse_grammar_shorthand :
    let rule : Json := .object [("!", .object [("var", .string "beta")])]
    let tree : RuleTree := .operation .not [.operation .var [.literal (.string "beta")]]
    let broken : Json := .object [("and", .array [rule, .emptyObject, .object [("nand", .null)]])]
    WellFormed 0 rule ∧ RuleTree.parse tree.toJson = .ok tree ∧
    RuleTree.parse rule
      = RuleTree.parse (.object [("!", .object [("var", .array [.string "beta"])])]) ∧
    RuleTree.parse broken = .error (.malformedRule 0) := by
  intro rule tree broken
  have hread : RuleTree.parse rule = .ok tree := rfl
  refine ⟨(parse_grammar rule).1.1 ⟨tree, hread⟩, ((parse_grammar rule).2.1 tree hread).2,
    (parse_grammar rule).2.2.2 (.alone "!" .here) "var" (.string "beta") nofun, ?_⟩
  refine ((parse_grammar broken).2.2.1 _).2
    ⟨[(0, broken), (1, rule), (2, .object [("var", .string "beta")]), (3, .string "beta")], 1,
      .emptyObject, _, rfl, ?_, rfl⟩
  decide

end Rule

end FeatureFlags

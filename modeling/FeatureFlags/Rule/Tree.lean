import FeatureFlags.Rule.Application

/-!
Rule trees: reading them from JSON, writing them, and evaluating them.

A rule is a literal, or an object of one entry whose key is the symbol of an operator and whose
value lists the operands; a value that is no array stands for the list of itself.  Arrays among the
operands are data.  Operands are evaluated from left to right before their operator is applied, so
the first error ends the evaluation.
-/

namespace FeatureFlags

/-- A rule whose symbols are resolved. -/
inductive RuleTree where
  | literal (value : Json)
  | operation (operator : Operator) (operands : List RuleTree)

namespace RuleTree

instance : Inhabited RuleTree := ⟨.literal .null⟩

/-- The operator of an object with one entry. -/
def operatorOf (symbol : String) : Except EvaluationError Operator :=
  match Operator.ofSymbol? symbol with
  | some operator => .ok operator
  | none => .error (.unrecognizedOperation symbol)

mutual

/-- Reads a rule at the given depth. -/
def parseAt (depth : Nat) (rule : Json) : Except EvaluationError RuleTree :=
  if maxRuleDepth < depth then .error .nestingTooDeep
  else match rule with
    | .object [(symbol, .array operands)] => do
      let operator ← operatorOf symbol
      let operands ← parseAllAt (depth + 1) operands
      .ok (.operation operator operands)
    | .object [(symbol, operand)] => do
      let operator ← operatorOf symbol
      let operand ← parseAt (depth + 1) operand
      .ok (.operation operator [operand])
    | .object entries => .error (.malformedRule entries.length)
    | value => .ok (.literal value)

def parseAllAt (depth : Nat) (rules : List Json) : Except EvaluationError (List RuleTree) :=
  match rules with
  | [] => .ok []
  | rule :: rest => do
    let tree ← parseAt depth rule
    let trees ← parseAllAt depth rest
    .ok (tree :: trees)

end

/-- Reads a rule. -/
def parse (rule : Json) : Except EvaluationError RuleTree := parseAt 0 rule

mutual

/-- Writes a rule in its canonical form, in which every operation lists its operands. -/
def toJson : RuleTree → Json
  | .literal value => value
  | .operation operator operands => .object [(operator.symbol, .array (toJsonAll operands))]

def toJsonAll : List RuleTree → List Json
  | [] => []
  | tree :: rest => toJson tree :: toJsonAll rest

end

mutual

/-- Evaluates the operands, then applies the operator to the results. -/
def evaluate (context : Json) : RuleTree → Except EvaluationError Json
  | .literal value => .ok value
  | .operation operator operands => do
    let values ← evaluateAll context operands
    operator.apply values context

def evaluateAll (context : Json) : List RuleTree → Except EvaluationError (List Json)
  | [] => .ok []
  | tree :: rest => do
    let value ← evaluate context tree
    let values ← evaluateAll context rest
    .ok (value :: values)

end

end RuleTree

namespace Rule

/-- A falsy context counts as the object without entries. -/
def effectiveContext (context : Json) : Json :=
  if context.isTruthy then context else .emptyObject

/-- A result must be a boolean, a number or a string. -/
def scalarResult (value : Json) : Except EvaluationError Json :=
  match value with
  | .bool _ | .number _ | .string _ => .ok value
  | other => .error (.nonScalarResult other.kind)

/-- Reads a rule and evaluates it in a context. -/
def evaluate (rule context : Json) : Except EvaluationError Json := do
  let tree ← RuleTree.parse rule
  let value ← tree.evaluate (effectiveContext context)
  scalarResult value

end Rule

end FeatureFlags

import FeatureFlags.Rule.Lookup
import FeatureFlags.Rule.Operator
import FeatureFlags.Text.Quoted

/-!
What can go wrong when a rule is read or evaluated, and the texts that say so.
-/

namespace FeatureFlags

/-- Operands that an operator cannot be applied to. -/
inductive Mismatch where
  | operand (kind : Json.Kind)
  | pair (left right : Json.Kind)
  | path (kind : Json.Kind)
  | needleInString (kind : Json.Kind)
  | needleInObject (kind : Json.Kind)
  | nonNumeric (text : String)
  | nonFinite
deriving DecidableEq

namespace Mismatch

def message : Mismatch → String
  | operand kind => "a " ++ kind.name ++ " operand"
  | pair left right => "a " ++ left.name ++ " and a " ++ right.name
  | path kind => "a " ++ kind.name ++ " path"
  | needleInString kind => "a " ++ kind.name ++ " needle in a string"
  | needleInObject kind => "a " ++ kind.name ++ " needle in an object"
  | nonNumeric text => "the non-numeric string " ++ String.ofList (Text.quote text.toList)
  | nonFinite => "operands producing a non-finite result"

end Mismatch

/-- A rule that cannot be read or evaluated. -/
inductive EvaluationError where
  | contextLookup (cause : LookupError)
  | unrecognizedOperation (symbol : String)
  /-- An object of some other number of entries than one. -/
  | malformedRule (entries : Nat)
  | arity (operator : Operator) (got : Nat)
  | typeMismatch (operator : Operator) (detail : Mismatch)
  | divisionByZero
  | nonScalarResult (kind : Json.Kind)
  | nestingTooDeep
deriving DecidableEq

/-- Rules nested deeper than this are refused. -/
def maxRuleDepth : Nat := 100

namespace EvaluationError

/-- A number in a message. -/
def numberText (n : Nat) : String := String.ofList (Text.decimal n)

def message : EvaluationError → String
  | contextLookup cause => cause.message
  | unrecognizedOperation symbol => "Unrecognized operation " ++ symbol
  | malformedRule entries =>
    "Malformed rule: an operation needs exactly one operator, found "
      ++ (if entries = 0 then "none" else numberText entries)
  | arity operator got =>
    "Operator '" ++ operator.symbol ++ "' expects " ++ operator.arity.text ++ " operands, got "
      ++ numberText got
  | typeMismatch operator detail =>
    "Operator '" ++ operator.symbol ++ "' cannot be applied to " ++ detail.message
  | divisionByZero => "Division by zero"
  | nonScalarResult kind => "Rule evaluated to a non-scalar value of type " ++ kind.name
  | nestingTooDeep =>
    "Rule nesting exceeds the maximum depth of " ++ numberText maxRuleDepth

end EvaluationError

end FeatureFlags

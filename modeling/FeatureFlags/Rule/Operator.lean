/-!
The operators of rules: their symbols and how many operands they take.

The table of symbols is fixed, and a symbol names one operator (`Operator.ofSymbol?_symbol`).
-/

namespace FeatureFlags

/-- The operators of rules. -/
inductive Operator where
  | equal
  | strictEqual
  | notEqual
  | strictNotEqual
  | greater
  | greaterOrEqual
  | less
  | lessOrEqual
  | not
  | and
  | or
  | conditional
  | add
  | multiply
  | subtract
  | divide
  | modulo
  | min
  | max
  | count
  | cat
  | isIn
  | var
  | log
deriving DecidableEq

/-- How many operands an operator takes. -/
inductive Arity where
  | one
  | two
  | three
  | oneOrTwo
  | twoOrThree
  | atLeastOne
  | any
deriving DecidableEq

namespace Arity

/-- The numbers of operands that are taken. -/
def Accepts : Arity → Nat → Prop
  | one, n => n = 1
  | two, n => n = 2
  | three, n => n = 3
  | oneOrTwo, n => n = 1 ∨ n = 2
  | twoOrThree, n => n = 2 ∨ n = 3
  | atLeastOne, n => 1 ≤ n
  | any, _ => True

instance (a : Arity) (n : Nat) : Decidable (a.Accepts n) := by
  cases a <;> unfold Accepts <;> infer_instance

/-- The numbers, as messages give them. -/
def text : Arity → String
  | one => "1"
  | two => "2"
  | three => "3"
  | oneOrTwo => "1 or 2"
  | twoOrThree => "2 or 3"
  | atLeastOne => "at least 1"
  | any => "any number of"

end Arity

namespace Operator

/-- All operators. -/
def all : List Operator :=
  [equal, strictEqual, notEqual, strictNotEqual, greater, greaterOrEqual, less, lessOrEqual, not,
    and, or, conditional, add, multiply, subtract, divide, modulo, min, max, count, cat, isIn, var,
    log]

/-- The symbol that stands for an operator in a rule. -/
def symbol : Operator → String
  | equal => "=="
  | strictEqual => "==="
  | notEqual => "!="
  | strictNotEqual => "!=="
  | greater => ">"
  | greaterOrEqual => ">="
  | less => "<"
  | lessOrEqual => "<="
  | not => "!"
  | and => "and"
  | or => "or"
  | conditional => "?:"
  | add => "+"
  | multiply => "*"
  | subtract => "-"
  | divide => "/"
  | modulo => "%"
  | min => "min"
  | max => "max"
  | count => "count"
  | cat => "cat"
  | isIn => "in"
  | var => "var"
  | log => "log"

/-- The operator of a symbol. -/
def ofSymbol? (s : String) : Option Operator := all.find? fun op => op.symbol = s

/-- How many operands an operator takes. -/
def arity : Operator → Arity
  | equal | strictEqual | notEqual | strictNotEqual | greater | greaterOrEqual | modulo | isIn =>
    .two
  | less | lessOrEqual => .twoOrThree
  | not | var | log => .one
  | conditional => .three
  | subtract | divide => .oneOrTwo
  | min | max => .atLeastOne
  | and | or | add | multiply | count | cat => .any

theorem ofSymbol?_symbol (op : Operator) : ofSymbol? op.symbol = some op := by
  cases op <;> decide

theorem symbol_of_ofSymbol? {s : String} {op : Operator} (h : ofSymbol? s = some op) :
    op.symbol = s := by
  simpa using List.find?_some h

end Operator

end FeatureFlags

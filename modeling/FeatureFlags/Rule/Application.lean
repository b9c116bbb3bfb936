import FeatureFlags.Rule.Arithmetic

/-!
Applying an operator to evaluated operands.

An operator first looks at how many operands it has, then at what they are.  Only `var` looks at
the context.
-/

namespace FeatureFlags

namespace Json

/-- The order of two numbers, two strings or two booleans. -/
def order? : Json → Json → Option Ordering
  | .number x, .number y => some (x.compare y)
  | .string x, .string y => some (compareOfLessAndEq x y)
  | .bool x, .bool y => some (compareOfLessAndEq x.toNat y.toNat)
  | _, _ => none

/-- The order of two values, or why they have none. -/
def order (a b : Json) : Except Mismatch Ordering :=
  match order? a b with
  | some o => .ok o
  | none => .error (.pair a.kind b.kind)

/-- The first operand that decides a conjunction: the first falsy one, else the last. -/
def conjunction (total : Json) : List Json → Json
  | [] => total
  | x :: rest => conjunction (if total.isTruthy then x else total) rest

/-- The first operand that decides a disjunction: the first truthy one, else the last. -/
def disjunction (total : Json) : List Json → Json
  | [] => total
  | x :: rest => disjunction (if total.isTruthy then total else x) rest

/-- The first of the operands that no other goes beyond in the given direction. -/
def extreme (direction : Ordering) (best : Json) : List Json → Except Mismatch Json
  | [] => .ok best
  | x :: rest => do
    let o ← order x best
    extreme direction (if o = direction then x else best) rest

/-- The strings in one. -/
def concat (joined : String) : List Json → Except Mismatch String
  | [] => .ok joined
  | .string s :: rest => concat (joined ++ s) rest
  | other :: _ => .error (.operand other.kind)

/-- A word stands somewhere in a text. -/
def occursIn (word : List Char) : List Char → Bool
  | [] => word.isEmpty
  | c :: rest => word.isPrefixOf (c :: rest) || occursIn word rest

/-- Membership of `needle` in a string, an array or an object; anything else has no members. -/
def holds (haystack needle : Json) : Except Mismatch Bool :=
  match haystack, needle with
  | .string s, .string n => .ok (occursIn n.toList s.toList)
  | .string _, other => .error (.needleInString other.kind)
  | .array items, _ => .ok (items.any fun item => looselyEqual item needle)
  | .object entries, .string key => .ok (entries.lookup key).isSome
  | .object _, .array _ => .error (.needleInObject .array)
  | .object _, .object _ => .error (.needleInObject .object)
  | _, _ => .ok false

/-- The path that an operand of `var` names. -/
def path : Json → Except Mismatch String
  | .string s => .ok s
  | .number n => .ok (String.ofList n.text)
  | other => .error (.path other.kind)

end Json

namespace Operator

/-- What a comparison asks of an order. -/
def satisfiedBy : Operator → Ordering → Bool
  | greater, o => o = .gt
  | greaterOrEqual, o => o ≠ .lt
  | less, o => o = .lt
  | _, o => o ≠ .gt

/-- A comparison of two operands. -/
def compare (op : Operator) (a b : Json) : Except Mismatch Bool := do
  let o ← Json.order a b
  .ok (op.satisfiedBy o)

/-- A comparison of three operands is one of the first two, and then one of the last two. -/
def compareChain (op : Operator) (a b c : Json) : Except Mismatch Bool := do
  if ← op.compare a b then op.compare b c else .ok false

/-- An operand that does not fit, as an error of the operator. -/
def blame (op : Operator) {α : Type} (result : Except Mismatch α) : Except EvaluationError α :=
  result.mapError (.typeMismatch op)

/-- A failed division, as an error of the operator. -/
def blameDivision (op : Operator) (result : Except Arithmetic.Failure Json) :
    Except EvaluationError Json :=
  result.mapError fun
    | .divisionByZero => .divisionByZero
    | .mismatch detail => .typeMismatch op detail

/-- Looks up the path that an operand names. -/
def lookUp (context path : Json) : Except EvaluationError Json := do
  let path ← var.blame path.path
  (context.lookup path).mapError .contextLookup

/-- Applies the operator to evaluated operands. -/
def apply (op : Operator) (operands : List Json) (context : Json) :
    Except EvaluationError Json :=
  match op, operands with
  | equal, [a, b] => .ok (.bool (a.looselyEqual b))
  | notEqual, [a, b] => .ok (.bool !(a.looselyEqual b))
  | strictEqual, [a, b] => .ok (.bool (a.same b))
  | strictNotEqual, [a, b] => .ok (.bool !(a.same b))
  | greater, [a, b] => (greater.blame (greater.compare a b)).map .bool
  | greaterOrEqual, [a, b] => (greaterOrEqual.blame (greaterOrEqual.compare a b)).map .bool
  | less, [a, b] => (less.blame (less.compare a b)).map .bool
  | less, [a, b, c] => (less.blame (less.compareChain a b c)).map .bool
  | lessOrEqual, [a, b] => (lessOrEqual.blame (lessOrEqual.compare a b)).map .bool
  | lessOrEqual, [a, b, c] => (lessOrEqual.blame (lessOrEqual.compareChain a b c)).map .bool
  | not, [a] => .ok (.bool !a.isTruthy)
  | and, xs => .ok (Json.conjunction (.bool true) xs)
  | or, xs => .ok (Json.disjunction (.bool false) xs)
  | conditional, [condition, yes, no] => .ok (if condition.isTruthy then yes else no)
  | add, xs => add.blame ((Arithmetic.sum .zero xs).bind Arithmetic.floatResult)
  | multiply, xs => multiply.blame ((Arithmetic.product .one xs).bind Arithmetic.floatResult)
  | subtract, [a] => subtract.blame (Arithmetic.negate a)
  | subtract, [a, b] => subtract.blame (Arithmetic.subtract a b)
  | divide, [a] => .ok a
  | divide, [a, b] => divide.blameDivision (Arithmetic.divide a b)
  | modulo, [a, b] => modulo.blameDivision (Arithmetic.modulo a b)
  | min, x :: rest => min.blame (Json.extreme .lt x rest)
  | max, x :: rest => max.blame (Json.extreme .gt x rest)
  | count, xs => .ok (Json.ofNat (xs.countP Json.isTruthy))
  | cat, xs => (cat.blame (Json.concat "" xs)).map .string
  | isIn, [needle, haystack] => (isIn.blame (haystack.holds needle)).map .bool
  | var, [path] => lookUp context path
  | log, [a] => .ok a
  | op, xs => .error (.arity op xs.length)

end Operator

end FeatureFlags

import FeatureFlags.Json.Basic

/-!
Looking up a path in a context.

A path is a text of segments between dots.  A segment steps into an object by key and into an array
by index, counted from the end if it is negative; every other step is an error, which names the
segment that could not be resolved.
-/

namespace FeatureFlags

/-- A path that cannot be resolved. -/
inductive LookupError where
  | keyNotFound (key : String)
  | indexOutOfRange (index : String)
  | unresolvable (segment : String) (kind : Json.Kind)
deriving DecidableEq

def LookupError.message : LookupError → String
  | .keyNotFound key => "Invalid context: key '" ++ key ++ "' not found"
  | .indexOutOfRange index => "Invalid context: key '" ++ index ++ "': list index out of range"
  | .unresolvable segment kind =>
    "Invalid context: key '" ++ segment ++ "' cannot be resolved on a " ++ kind.name

namespace Json

/-- The segments of a path: the texts between its dots, one more than there are dots. -/
def segments : List Char → List (List Char)
  | [] => [[]]
  | c :: rest =>
    if c = '.' then [] :: segments rest
    else match segments rest with
      | [] => [[c]]
      | segment :: others => (c :: segment) :: others

/-- The integer that a segment shows: digits, with or without a minus sign in front. -/
def index? (segment : List Char) : Option Int :=
  let digits := if segment.head? = some '-' then segment.tail else segment
  if digits = [] ∨ ¬digits.all Char.isDigit then none
  else if segment.head? = some '-' then some (-Text.digitsValue digits)
  else some (Text.digitsValue digits)

/-- The item at an index; a negative one counts from the end. -/
def item? (items : List Json) (index : Int) : Option Json :=
  if 0 ≤ index then items[index.toNat]?
  else if (items.length : Int) + index < 0 then none
  else items[((items.length : Int) + index).toNat]?

/-- One step into a value. -/
def step (value : Json) (segment : String) : Except LookupError Json :=
  match value with
  | .object entries =>
    match entries.lookup segment with
    | some found => .ok found
    | none => .error (.keyNotFound segment)
  | .array items =>
    match index? segment.toList with
    | none => .error (.unresolvable segment .array)
    | some index =>
      match item? items index with
      | some found => .ok found
      | none => .error (.indexOutOfRange segment)
  | other => .error (.unresolvable segment other.kind)

/-- Steps along segments. -/
def walk (value : Json) : List (List Char) → Except LookupError Json
  | [] => .ok value
  | segment :: rest => do
    let next ← value.step (String.ofList segment)
    walk next rest

/-- The value at the end of a path. -/
def lookup (context : Json) (path : String) : Except LookupError Json :=
  walk context (segments path.toList)

end Json

end FeatureFlags

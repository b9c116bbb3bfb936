import FeatureFlags.Json.Escaped
import FeatureFlags.Text.Digits

/-!
Percent-encoding, and the queries that are written in it.
-/

namespace FeatureFlags.Http

/-- The value of a hexadecimal digit. -/
def hexValue? (c : Char) : Option Nat :=
  if c.isDigit then some (c.toNat - '0'.toNat)
  else if 'a' ≤ c ∧ c ≤ 'f' then some (c.toNat - 'a'.toNat + 10)
  else if 'A' ≤ c ∧ c ≤ 'F' then some (c.toNat - 'A'.toNat + 10)
  else none

/-- The bytes of a percent-encoded text.  A percent sign without two hexadecimal digits stands for
itself. -/
def percentBytes : List Char → List UInt8
  | [] => []
  | '%' :: a :: b :: rest =>
    match hexValue? a, hexValue? b with
    | some high, some low => (high * 16 + low).toUInt8 :: percentBytes rest
    | _, _ => '%'.toNat.toUInt8 :: percentBytes (a :: b :: rest)
  | c :: rest => String.utf8EncodeChar c ++ percentBytes rest

/-- The text that a percent-encoded one stands for, if its bytes are UTF-8. -/
def percentDecode? (text : List Char) : Option String :=
  StringPiece.decodeUtf8? (percentBytes text)

/-- The parts of a text between separators. -/
def splitOn (separator : Char) : List Char → List (List Char)
  | [] => [[]]
  | c :: rest =>
    if c = separator then [] :: splitOn separator rest
    else match splitOn separator rest with
      | [] => [[c]]
      | part :: parts => (c :: part) :: parts

/-- A key or a value of a query, in which a plus sign stands for a space. -/
def queryText? (text : List Char) : Option String :=
  percentDecode? (text.map fun c => if c = '+' then ' ' else c)

/-- The pairs of a query.  Empty parts are passed over, and a part without an equals sign has the
empty value.  A key or value that is not UTF-8 has no text. -/
def queryPairs (query : List Char) : List (Option String × Option String) :=
  (splitOn '&' query).filterMap fun part =>
    if part.isEmpty then none
    else
      let key := part.takeWhile (· ≠ '=')
      let value := (part.dropWhile (· ≠ '=')).drop 1
      some (queryText? key, queryText? value)

/-- The number that a query gives for a key: nothing if the key is missing, and an error if it
stands there twice or its value is no number up to `greatest`. -/
def queryNatural? (greatest : Nat) (key : String) (pairs : List (Option String × Option String)) :
    Option (Option Nat) :=
  match pairs.filter (·.1 = some key) with
  | [] => some none
  | [(_, some value)] => (Text.natural? greatest value.toList).map some
  | _ => none

end FeatureFlags.Http

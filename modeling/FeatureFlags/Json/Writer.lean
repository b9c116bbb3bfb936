import FeatureFlags.Json.Basic

/-!
The compact text of a JSON value.

No blanks are written; the entries of an object come in the order in which it lists them, so a
normal value is written with sorted keys.  Control characters and the two characters that have a
meaning in strings are escaped, all others stand for themselves.
-/

namespace FeatureFlags.Json

/-- The hexadecimal digits of a code below 256, two of them. -/
def hexPair (n : Nat) : List Char := [Nat.digitChar (n / 16), Nat.digitChar (n % 16)]

/-- One character of a string. -/
def escapeChar (c : Char) : List Char :=
  if c = '"' then ['\\', '"']
  else if c = '\\' then ['\\', '\\']
  else if c = '\x08' then ['\\', 'b']
  else if c = '\t' then ['\\', 't']
  else if c = '\n' then ['\\', 'n']
  else if c = '\x0c' then ['\\', 'f']
  else if c = '\r' then ['\\', 'r']
  else if c.toNat < 0x20 then ['\\', 'u', '0', '0'] ++ hexPair c.toNat
  else [c]

/-- A string in quotes. -/
def stringText (s : String) : List Char := '"' :: s.toList.flatMap escapeChar ++ ['"']

mutual

/-- The characters of the compact text. -/
def chars : Json → List Char
  | .null => "null".toList
  | .bool true => "true".toList
  | .bool false => "false".toList
  | .number n => n.text
  | .string s => stringText s
  | .array items => '[' :: itemChars items ++ [']']
  | .object entries => '\x7b' :: entryChars entries ++ ['\x7d']

def itemChars : List Json → List Char
  | [] => []
  | [x] => chars x
  | x :: rest => chars x ++ ',' :: itemChars rest

def entryChars : List (String × Json) → List Char
  | [] => []
  | [(k, x)] => stringText k ++ ':' :: chars x
  | (k, x) :: rest => stringText k ++ ':' :: (chars x ++ ',' :: entryChars rest)

end

/-- The compact text of a value. -/
def text (value : Json) : String := String.ofList value.chars

end FeatureFlags.Json

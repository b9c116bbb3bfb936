import FeatureFlags.Text.Printable

/-!
Quoted text, as messages show the strings that they complain about.

A quote and a backslash are escaped with a backslash, the most common control characters by their
letter, and every other character that does not stand for itself by its code in braces.
-/

namespace FeatureFlags.Text

/-- The hexadecimal digits of a number in lower case, without leading zeros. -/
def hexText (n : Nat) : List Char := Nat.toDigits 16 n

/-- One character of a quoted text. -/
def quoteChar (c : Char) : List Char :=
  if c = '\x00' then ['\\', '0']
  else if c = '\t' then ['\\', 't']
  else if c = '\n' then ['\\', 'n']
  else if c = '\r' then ['\\', 'r']
  else if c = '"' then ['\\', '"']
  else if c = '\\' then ['\\', '\\']
  else if isPrintable c then [c]
  else "\\u\x7b".toList ++ hexText c.toNat ++ ['\x7d']

/-- The text in quotes. -/
def quote (text : List Char) : List Char := '"' :: text.flatMap quoteChar ++ ['"']

end FeatureFlags.Text

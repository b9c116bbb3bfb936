/-!
Strings as they are written in JSON, and the characters that they stand for.

A string is written in bytes and in UTF-16 units.  The units of a surrogate pair must stand side by
side, and the bytes must be UTF-8 throughout; otherwise the string stands for no characters.
-/

namespace FeatureFlags

/-- A piece of a written string: a byte, or a UTF-16 unit given by its code. -/
inductive StringPiece where
  | byte (value : UInt8)
  | unit (code : Nat)

namespace StringPiece

/-- The unit is the first of a surrogate pair. -/
def isLeading (unit : Nat) : Bool := 0xd800 ≤ unit && unit < 0xdc00

/-- The unit is the second of a surrogate pair. -/
def isTrailing (unit : Nat) : Bool := 0xdc00 ≤ unit && unit < 0xe000

/-- The character of a surrogate pair. -/
def pairChar (leading trailing : Nat) : Char :=
  Char.ofNat (0x10000 + (leading - 0xd800) * 0x400 + (trailing - 0xdc00))

/-- The UTF-8 bytes of a string; none if it has half a surrogate pair. -/
def bytes? : List StringPiece → Option (List UInt8)
  | [] => some []
  | .byte b :: rest => (bytes? rest).map (b :: ·)
  | .unit u :: .unit v :: rest =>
    if isLeading u then
      if isTrailing v then
        (bytes? rest).map (String.utf8EncodeChar (pairChar u v) ++ ·)
      else none
    else if isTrailing u then none
    else (bytes? (.unit v :: rest)).map (String.utf8EncodeChar (Char.ofNat u) ++ ·)
  | .unit u :: rest =>
    if isLeading u || isTrailing u then none
    else (bytes? rest).map (String.utf8EncodeChar (Char.ofNat u) ++ ·)

/-- The characters that bytes in UTF-8 stand for. -/
def decodeUtf8? (bytes : List UInt8) : Option String := String.fromUTF8? ⟨bytes.toArray⟩

/-- The string that the pieces stand for. -/
def string? (pieces : List StringPiece) : Option String :=
  (bytes? pieces).bind decodeUtf8?

end StringPiece

end FeatureFlags

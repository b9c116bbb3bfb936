import FeatureFlags.Json.Document
import FeatureFlags.Json.Escaped
import FeatureFlags.Json.Numeral

/-!
Reading JSON documents from bytes.

The grammar is strict: blanks are the space, the tab, the line feed and the carriage return, and
after the document nothing but blanks may follow.  Bytes above 127 may stand in strings, also where
they are not UTF-8 and the string therefore stands for no characters.

The functions take a bound on the number of steps; `Document.read?` gives them two steps for each
byte, and each two consecutive steps read at least one.
-/

namespace FeatureFlags.Document

/-- The byte of an ASCII character. -/
def ascii (c : Char) : UInt8 := c.toNat.toUInt8

def isDigit (b : UInt8) : Bool := ascii '0' ≤ b && b ≤ ascii '9'

/-- The digit that a byte shows. -/
def digitOf (b : UInt8) : Nat := b.toNat - (ascii '0').toNat

def isBlankByte (b : UInt8) : Bool :=
  b = ascii ' ' || b = ascii '\t' || b = ascii '\n' || b = ascii '\r'

def skipBlanks (s : List UInt8) : List UInt8 := s.dropWhile isBlankByte

/-- The rest behind a byte that must come next. -/
def expect? (c : Char) : List UInt8 → Option (List UInt8)
  | b :: rest => if b = ascii c then some rest else none
  | [] => none

/-- The rest behind a word that must come next. -/
def expectWord? (word : List Char) (s : List UInt8) : Option (List UInt8) :=
  match word with
  | [] => some s
  | c :: word => (expect? c s).bind (expectWord? word)

/-! ### Numbers -/

/-- The digits in front, and the rest. -/
def splitDigits (s : List UInt8) : List Nat × List UInt8 :=
  ((s.takeWhile isDigit).map digitOf, s.dropWhile isDigit)

/-- The fraction, if a point comes next. -/
def readFraction? (s : List UInt8) : Option (Option (List Nat) × List UInt8) :=
  match expect? '.' s with
  | none => some (none, s)
  | some rest =>
    let (digits, rest) := splitDigits rest
    if digits.isEmpty then none else some (some digits, rest)

/-- The exponent, if its mark comes next. -/
def readExponent? (s : List UInt8) : Option (Option (Bool × List Nat) × List UInt8) :=
  match (expect? 'e' s).or (expect? 'E' s) with
  | none => some (none, s)
  | some rest =>
    let negative := (expect? '-' rest).isSome
    let unsigned := ((expect? '-' rest).or (expect? '+' rest)).getD rest
    let (digits, rest) := splitDigits unsigned
    if digits.isEmpty then none else some (some (negative, digits), rest)

/-- A number: a zero in front stands alone. -/
def readNumeral? (s : List UInt8) : Option (Numeral × List UInt8) := do
  let negative := (expect? '-' s).isSome
  let (whole, rest) := splitDigits ((expect? '-' s).getD s)
  if whole.isEmpty || (whole.head? = some 0 && whole.length ≠ 1) then none
  let (fraction, rest) ← readFraction? rest
  let (exponent, rest) ← readExponent? rest
  some (⟨negative, whole, fraction, exponent⟩, rest)

/-! ### Strings -/

/-- The value of a hexadecimal digit. -/
def hexDigit? (b : UInt8) : Option Nat :=
  if isDigit b then some (digitOf b)
  else if ascii 'a' ≤ b && b ≤ ascii 'f' then some (b.toNat - (ascii 'a').toNat + 10)
  else if ascii 'A' ≤ b && b ≤ ascii 'F' then some (b.toNat - (ascii 'A').toNat + 10)
  else none

/-- The UTF-16 unit of four hexadecimal digits. -/
def unitOf? (a b c d : UInt8) : Option Nat := do
  let a ← hexDigit? a
  let b ← hexDigit? b
  let c ← hexDigit? c
  let d ← hexDigit? d
  some (((a * 16 + b) * 16 + c) * 16 + d)

/-- The byte that a backslash and a letter stand for. -/
def escapeOf? (b : UInt8) : Option UInt8 :=
  if b = ascii '"' || b = ascii '\\' || b = ascii '/' then some b
  else if b = ascii 'b' then some 8
  else if b = ascii 'f' then some 12
  else if b = ascii 'n' then some 10
  else if b = ascii 'r' then some 13
  else if b = ascii 't' then some 9
  else none

/-- The pieces of a string whose opening quote has been read, up to its closing quote. -/
def readPieces? : List UInt8 → Option (List StringPiece × List UInt8)
  | [] => none
  | byte :: rest =>
    if byte = ascii '"' then some ([], rest)
    else if byte < 0x20 then none
    else if byte = ascii '\\' then
      match rest with
      | [] => none
      | letter :: rest =>
        if letter = ascii 'u' then
          match rest with
          | a :: b :: c :: d :: rest => do
            let unit ← unitOf? a b c d
            let (pieces, rest) ← readPieces? rest
            some (.unit unit :: pieces, rest)
          | _ => none
        else do
          let byte ← escapeOf? letter
          let (pieces, rest) ← readPieces? rest
          some (.byte byte :: pieces, rest)
    else do
      let (pieces, rest) ← readPieces? rest
      some (.byte byte :: pieces, rest)

/-- The characters of a string whose opening quote has been read. -/
def readCharacters? (s : List UInt8) : Option (Option String × List UInt8) :=
  (readPieces? s).map fun (pieces, rest) => (StringPiece.string? pieces, rest)

/-! ### Documents -/

mutual

/-- The document in front, and the rest. -/
def readValue? : Nat → List UInt8 → Option (Document × List UInt8)
  | 0, _ => none
  | steps + 1, s =>
    let s := skipBlanks s
    match s with
    | [] => none
    | b :: rest =>
      if b = ascii 'n' then (expectWord? "null".toList s).map (.null, ·)
      else if b = ascii 't' then (expectWord? "true".toList s).map (.bool true, ·)
      else if b = ascii 'f' then (expectWord? "false".toList s).map (.bool false, ·)
      else if b = ascii '"' then (readCharacters? rest).map fun (s, rest) => (.string s, rest)
      else if b = ascii '[' then
        match expect? ']' (skipBlanks rest) with
        | some rest => some (.array [], rest)
        | none => (readItems? steps rest).map fun (items, rest) => (.array items, rest)
      else if b = ascii '\x7b' then
        match expect? '\x7d' (skipBlanks rest) with
        | some rest => some (.object [], rest)
        | none => (readEntries? steps rest).map fun (entries, rest) => (.object entries, rest)
      else (readNumeral? s).map fun (n, rest) => (.number n.number?, rest)

/-- The items of an array, at least one, up to its closing bracket. -/
def readItems? : Nat → List UInt8 → Option (List Document × List UInt8)
  | 0, _ => none
  | steps + 1, s => do
    let (item, rest) ← readValue? steps s
    let rest := skipBlanks rest
    match expect? ']' rest with
    | some rest => some ([item], rest)
    | none =>
      let rest ← expect? ',' rest
      let (items, rest) ← readItems? steps rest
      some (item :: items, rest)

/-- The entries of an object, at least one, up to its closing brace. -/
def readEntries? :
    Nat → List UInt8 → Option (List (Option String × Document) × List UInt8)
  | 0, _ => none
  | steps + 1, s => do
    let rest ← expect? '"' (skipBlanks s)
    let (key, rest) ← readCharacters? rest
    let rest ← expect? ':' (skipBlanks rest)
    let (item, rest) ← readValue? steps rest
    let rest := skipBlanks rest
    match expect? '\x7d' rest with
    | some rest => some ([(key, item)], rest)
    | none =>
      let rest ← expect? ',' rest
      let (entries, rest) ← readEntries? steps rest
      some ((key, item) :: entries, rest)

end

/-- The document that the bytes spell. -/
def read? (bytes : List UInt8) : Option Document :=
  match readValue? (2 * bytes.length + 2) bytes with
  | some (document, rest) => if (skipBlanks rest).isEmpty then some document else none
  | none => none

end FeatureFlags.Document

namespace FeatureFlags.Json

/-- The value that the bytes spell. -/
def read? (bytes : List UInt8) : Option Json :=
  (Document.read? bytes).bind (Document.toJson? Document.maxDepth)

end FeatureFlags.Json

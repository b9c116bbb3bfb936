import FeatureFlags.Json.Record
import FeatureFlags.Text.Blank
import FeatureFlags.Text.Digits
import FeatureFlags.Timestamp.Basic

/-!
Timestamps as text.

They are written in RFC 3339 form in universal time, with as many of 0, 3, 6 or 9 digits of a
second as are needed.  Reading is more liberal: a blank may stand for the `T`, blanks may stand
between the parts, leading zeros may be missing, and any offset from universal time may be given.
-/

namespace FeatureFlags.Timestamp

/-! ### Writing -/

/-- Four digits, or a sign and at least four digits for years outside of these. -/
def yearText (year : Int) : List Char :=
  if 0 ≤ year ∧ year ≤ 9999 then Text.padded 4 year.toNat
  else (if year < 0 then '-' else '+') :: Text.padded 4 year.natAbs

/-- The digits of a second that are needed, in threes. -/
def fractionText (nanoseconds : Nat) : List Char :=
  if nanoseconds = 0 then []
  else if nanoseconds % 1000000 = 0 then '.' :: Text.padded 3 (nanoseconds / 1000000)
  else if nanoseconds % 1000 = 0 then '.' :: Text.padded 6 (nanoseconds / 1000)
  else '.' :: Text.padded 9 nanoseconds

/-- The characters of a timestamp. -/
def chars (t : Timestamp) : List Char :=
  let day := CalendarDay.ofDays (t.seconds / 86400)
  let second := (t.seconds % 86400).toNat
  let leap := t.nanoseconds / 1000000000
  yearText day.year ++ '-' :: Text.padded 2 day.month ++ '-' :: Text.padded 2 day.day
    ++ 'T' :: Text.padded 2 (second / 3600) ++ ':' :: Text.padded 2 (second / 60 % 60)
    ++ ':' :: Text.padded 2 (second % 60 + leap)
    ++ fractionText (t.nanoseconds % 1000000000) ++ ['Z']

def text (t : Timestamp) : String := String.ofList t.chars

def toJson (t : Timestamp) : Json := .string t.text

/-! ### Reading -/

/-- At least one digit and at most `width` of them. -/
def readDigits? (width : Nat) (s : List Char) : Option (Nat × List Char) :=
  let digits := (s.take width).takeWhile Char.isDigit
  if digits.isEmpty then none else some (Text.digitsValue digits, s.drop digits.length)

/-- A part of at most two digits, in its range, with blanks in front. -/
def readPart? (least greatest : Nat) (s : List Char) : Option (Nat × List Char) := do
  let (n, rest) ← readDigits? 2 (Text.trimStart s)
  if least ≤ n ∧ n ≤ greatest then some (n, rest) else none

/-- A year: four digits at most, or any number of them behind a sign. -/
def readYear? (s : List Char) : Option (Int × List Char) :=
  match Text.trimStart s with
  | '-' :: rest => (readDigits? rest.length rest).map fun (n, rest) => (-(n : Int), rest)
  | '+' :: rest => (readDigits? rest.length rest).map fun (n, rest) => ((n : Int), rest)
  | rest => (readDigits? 4 rest).map fun (n, rest) => ((n : Int), rest)

/-- A mark, with blanks in front. -/
def readMark? (c : Char) (s : List Char) : Option (List Char) :=
  match Text.trimStart s with
  | d :: rest => if d = c then some rest else none
  | [] => none

/-- The digits of a second behind a point; those after the ninth are dropped. -/
def readFraction? : List Char → Option (Nat × List Char)
  | '.' :: rest => do
    let digits := rest.takeWhile Char.isDigit
    if digits.isEmpty then none
    let kept := digits.take 9
    let nine := kept ++ List.replicate (9 - kept.length) '0'
    some (Text.digitsValue nine, rest.dropWhile Char.isDigit)
  | rest => some (0, rest)

/-- Hours and minutes of an offset, of two digits each, with colons or blanks between them. -/
def readOffsetSize? (s : List Char) : Option (Nat × List Char) :=
  match s with
  | h₁ :: h₂ :: rest =>
    match rest.dropWhile fun c => c = ':' || Text.isBlank c with
    | m₁ :: m₂ :: rest =>
      if [h₁, h₂, m₁, m₂].all Char.isDigit ∧ m₁ < '6' then
        some (Text.digitsValue [h₁, h₂] * 3600 + Text.digitsValue [m₁, m₂] * 60, rest)
      else none
    | _ => none
  | _ => none

/-- An offset from universal time, in seconds; it is less than a day. -/
def readOffset? (s : List Char) : Option (Int × List Char) := do
  let (offset, rest) ← match s with
    | 'Z' :: rest | 'z' :: rest => some (0, rest)
    | '+' :: rest => (readOffsetSize? rest).map fun (n, rest) => ((n : Int), rest)
    | '-' :: rest | '\u2212' :: rest =>
      (readOffsetSize? rest).map fun (n, rest) => (-(n : Int), rest)
    | _ => if (s.take 3).map Char.toUpper = ['U', 'T', 'C'] then some (0, s.drop 3) else none
  if offset.natAbs < 86400 then some (offset, rest) else none

/-- The years that timestamps reach. -/
def YearInRange (year : Int) : Prop := -262143 ≤ year ∧ year ≤ 262142

instance (year : Int) : Decidable (YearInRange year) := inferInstanceAs (Decidable (_ ∧ _))

/-- The timestamp that the characters show. -/
def read? (s : List Char) : Option Timestamp := do
  let (year, s) ← readYear? s
  let s ← readMark? '-' s
  let (month, s) ← readPart? 1 12 s
  let s ← readMark? '-' s
  let (day, s) ← readPart? 1 31 s
  let s ← match s with
    | c :: rest => if c = 'T' ∨ c = 't' ∨ c = ' ' then some rest else none
    | [] => none
  let (hour, s) ← readPart? 0 23 s
  let s ← readMark? ':' s
  let (minute, s) ← readPart? 0 59 s
  let s ← readMark? ':' s
  let (second, s) ← readPart? 0 60 s
  let (fraction, s) ← readFraction? s
  let (offset, s) ← readOffset? (Text.trimStart s)
  let date : CalendarDay := ⟨year, month, day⟩
  let leap := second / 60
  let clock : Int := hour * 3600 + minute * 60 + (second - leap : Nat)
  let seconds := date.toDays * 86400 + clock - offset
  if (Text.trimStart s).isEmpty ∧ date.Exists ∧ YearInRange year
      ∧ YearInRange (CalendarDay.ofDays (seconds / 86400)).year then
    some ⟨seconds, fraction + leap * 1000000000⟩
  else none

def decode : Decoder Timestamp
  | _, .string (some s) => read? s.toList
  | _, _ => none

end FeatureFlags.Timestamp

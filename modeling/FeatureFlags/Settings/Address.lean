import FeatureFlags.Text.Digits
import FeatureFlags.Text.Quoted

/-!
Socket addresses: an IPv4 or IPv6 address and a port, as text.

An IPv6 address stands in brackets, and may name a scope behind a percent sign.  It is eight
groups of hexadecimal digits; two colons stand for groups of zeros, and the last two groups may be
written as an IPv4 address.  It is written in lower case with the longest run of zeros left out,
the first one if several are as long, and one that embeds an IPv4 address shows it.
-/

namespace FeatureFlags

/-- An address and a port. -/
inductive SocketAddress where
  | v4 (octets : List Nat) (port : Nat)
  | v6 (groups : List Nat) (scope port : Nat)
deriving DecidableEq

namespace SocketAddress

/-! ### Reading -/

/-- The value of a digit of a radix up to 16. -/
def digit? (radix : Nat) (c : Char) : Option Nat :=
  let value :=
    if c.isDigit then some (c.toNat - '0'.toNat)
    else if 'a' ≤ c ∧ c ≤ 'f' then some (c.toNat - 'a'.toNat + 10)
    else if 'A' ≤ c ∧ c ≤ 'F' then some (c.toNat - 'A'.toNat + 10)
    else none
  value.filter (· < radix)

/-- A number of so many digits at most and not above `greatest`, and the rest. -/
def readNumber? (radix width greatest : Nat) (s : List Char) : Option (Nat × List Char) :=
  let digits := s.takeWhile fun c => (digit? radix c).isSome
  let value := digits.foldl (fun n c => radix * n + (digit? radix c).getD 0) 0
  if digits.isEmpty ∨ width < digits.length ∨ greatest < value then none
  else some (value, s.drop digits.length)

/-- The rest behind a character that must come next. -/
def expect? (c : Char) : List Char → Option (List Char)
  | d :: rest => if d = c then some rest else none
  | [] => none

/-- An octet: at most three digits, without a zero in front of others. -/
def readOctet? (s : List Char) : Option (Nat × List Char) := do
  let (value, rest) ← readNumber? 10 3 255 s
  if s.head? = some '0' ∧ s.length - rest.length ≠ 1 then none else some (value, rest)

/-- Four octets between dots. -/
def readV4? (s : List Char) : Option (List Nat × List Char) := do
  let (a, s) ← readOctet? s
  let (b, s) ← (expect? '.' s).bind readOctet?
  let (c, s) ← (expect? '.' s).bind readOctet?
  let (d, s) ← (expect? '.' s).bind readOctet?
  some ([a, b, c, d], s)

/-- The two groups that four octets make. -/
def groupsOfV4 : List Nat → List Nat
  | [a, b, c, d] => [256 * a + b, 256 * c + d]
  | _ => []

/-- As many groups as come next, up to a bound; says whether an IPv4 address ended them. -/
def readGroups : (bound : Nat) → (first : Bool) → List Char → List Nat × Bool × List Char
  | 0, _, s => ([], false, s)
  | bound + 1, first, s =>
    let start := if first then some s else expect? ':' s
    match if bound = 0 then none else start.bind readV4? with
    | some (octets, rest) => (groupsOfV4 octets, true, rest)
    | none =>
      match start.bind (readNumber? 16 4 0xffff) with
      | none => ([], false, s)
      | some (group, rest) =>
        let (groups, embedded, rest) := readGroups bound false rest
        (group :: groups, embedded, rest)

/-- Eight groups, of which a run of zeros may be left out. -/
def readV6? (s : List Char) : Option (List Nat × List Char) :=
  let (front, embedded, rest) := readGroups 8 true s
  if front.length = 8 then some (front, rest)
  else if embedded then none
  else do
    let rest ← (expect? ':' rest).bind (expect? ':')
    let (back, _, rest) := readGroups (7 - front.length) true rest
    some (front ++ List.replicate (8 - front.length - back.length) 0 ++ back, rest)

/-- A port behind its colon, with nothing behind it. -/
def readPort? (s : List Char) : Option Nat := do
  let s ← expect? ':' s
  let (port, rest) ← readNumber? 10 s.length 0xffff s
  if rest.isEmpty then some port else none

/-- The scope of an IPv6 address; 0 if none is written. -/
def readScope (s : List Char) : Nat × List Char :=
  ((expect? '%' s).bind fun rest => readNumber? 10 rest.length 0xffffffff rest).getD (0, s)

/-- The address that a text shows. -/
def read? (s : List Char) : Option SocketAddress :=
  match expect? '[' s with
  | some s => do
    let (groups, s) ← readV6? s
    let (scope, s) := readScope s
    let port ← (expect? ']' s).bind readPort?
    some (.v6 groups scope port)
  | none => do
    let (octets, s) ← readV4? s
    let port ← readPort? s
    some (.v4 octets port)

/-! ### Writing -/

/-- Texts with a separator between them. -/
def joined (separator : Char) : List (List Char) → List Char
  | [] => []
  | [part] => part
  | part :: rest => part ++ separator :: joined separator rest

def v4Text (octets : List Nat) : List Char := joined '.' (octets.map Text.decimal)

/-- The number of zeros in front. -/
def leadingZeros (groups : List Nat) : Nat := (groups.takeWhile (· = 0)).length

/-- The place and the length of the first longest run of zeros. -/
def longestZeros : (place : Nat) → List Nat → Nat × Nat
  | _, [] => (0, 0)
  | place, group :: rest =>
    let later := longestZeros (place + 1) rest
    let here := leadingZeros (group :: rest)
    if later.2 ≤ here then (place, here) else later

def v6Text (groups : List Nat) : List Char :=
  if groups.take 6 = [0, 0, 0, 0, 0, 0xffff] then
    "::ffff:".toList
      ++ v4Text ((groups.drop 6).flatMap fun group => [group / 256, group % 256])
  else
    let (place, length) := longestZeros 0 groups
    let shown := fun (part : List Nat) => joined ':' (part.map Text.hexText)
    if 1 < length then
      shown (groups.take place) ++ "::".toList ++ shown (groups.drop (place + length))
    else shown groups

def chars : SocketAddress → List Char
  | v4 octets port => v4Text octets ++ ':' :: Text.decimal port
  | v6 groups scope port =>
    let scopeText := if scope = 0 then [] else '%' :: Text.decimal scope
    '[' :: v6Text groups ++ scopeText ++ "]:".toList ++ Text.decimal port

def text (address : SocketAddress) : String := String.ofList address.chars

end SocketAddress

end FeatureFlags

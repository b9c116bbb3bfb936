import FeatureFlags.Json.Basic

/-!
JSON documents: the tree that a text spells, before it is used as a value.

A document keeps what a value forgets: every entry of a repeated key, numbers that are too large,
and strings that stand for no characters.  Only the parts of a document that are used must have a
value (`Document.toJson?`), and only these are subject to the limit on nesting.  Each value is a
document (`Document.ofJson`).
-/

namespace FeatureFlags

/-- A JSON text as a tree.  A number that is too large has no value, and neither has a string that
stands for no characters. -/
inductive Document where
  | null
  | bool (value : Bool)
  | number (value : Option Number)
  | string (value : Option String)
  | array (items : List Document)
  | object (entries : List (Option String × Document))

namespace Document

instance : Inhabited Document := ⟨.null⟩

/-- How many arrays and objects may be open at once. -/
def maxDepth : Nat := 127

mutual

/-- The value of a document that may open `depth` more arrays and objects.  Of several entries of
one key the last counts.  This is the reading of values as it is documented: no key of an object is
special, so that an object is always read as one, and never as a number or as a text that one of its
entries spells.  All that is read from documents rests on it. -/
def toJson? (depth : Nat) : Document → Option Json
  | .null => some .null
  | .bool b => some (.bool b)
  | .number n => n.map .number
  | .string s => s.map .string
  | .array items => if depth = 0 then none else (itemValues? (depth - 1) items).map .array
  | .object entries =>
    if depth = 0 then none
    else (entryValues? (depth - 1) entries).map Json.ofFields

def itemValues? (depth : Nat) : List Document → Option (List Json)
  | [] => some []
  | item :: rest => do
    let value ← toJson? depth item
    let values ← itemValues? depth rest
    some (value :: values)

def entryValues? (depth : Nat) :
    List (Option String × Document) → Option (List (String × Json))
  | [] => some []
  | (key, item) :: rest => do
    let key ← key
    let value ← toJson? depth item
    let values ← entryValues? depth rest
    some ((key, value) :: values)

end

mutual

/-- A value as a document. -/
def ofJson : Json → Document
  | .null => .null
  | .bool b => .bool b
  | .number n => .number (some n)
  | .string s => .string (some s)
  | .array items => .array (ofItems items)
  | .object entries => .object (ofEntries entries)

def ofItems : List Json → List Document
  | [] => []
  | item :: rest => ofJson item :: ofItems rest

def ofEntries : List (String × Json) → List (Option String × Document)
  | [] => []
  | (key, item) :: rest => (some key, ofJson item) :: ofEntries rest

end

end Document

end FeatureFlags

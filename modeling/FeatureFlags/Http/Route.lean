import FeatureFlags.Http.Encoding

/-!
Routes: patterns of paths with named parameters.

A pattern is a list of segments, and so is a path.  A parameter stands for any segment, but in the
last place not for an empty one.  In a table of routes the first one that matches counts, so a
table lists literal segments before parameters.
-/

namespace FeatureFlags.Http

/-- A segment of a pattern. -/
inductive Segment where
  | literal (text : String)
  | parameter (name : String)
deriving DecidableEq

/-- A pattern and what it leads to. -/
structure Route (α : Type) where
  pattern : List Segment
  target : α

namespace Segment

/-- The segment as it stands in a template. -/
def template : Segment → String
  | literal text => text
  | parameter name => ":" ++ name

/-- The arguments that a path gives to the parameters of a pattern. -/
def arguments? : List Segment → List (List Char) → Option (List (List Char))
  | [], [] => some []
  | [parameter _], [segment] => if segment.isEmpty then none else some [segment]
  | literal text :: pattern, segment :: rest =>
    if text.toList = segment then arguments? pattern rest else none
  | parameter _ :: pattern, segment :: rest => (arguments? pattern rest).map (segment :: ·)
  | _, _ => none

end Segment

/-- A pattern as text. -/
def template (pattern : List Segment) : String :=
  "/" ++ "/".intercalate (pattern.map Segment.template)

/-- The segments of a path, which starts with a slash. -/
def pathSegments? : List Char → Option (List (List Char))
  | '/' :: rest => some (splitOn '/' rest)
  | _ => none

/-- The first route of a table that matches the segments of a path, with the arguments. -/
def findRoute? {α : Type} (segments : List (List Char)) :
    List (Route α) → Option (Route α × List (List Char))
  | [] => none
  | route :: rest =>
    match Segment.arguments? route.pattern segments with
    | some arguments => some (route, arguments)
    | none => findRoute? segments rest

end FeatureFlags.Http

import FeatureFlags.Flag.Evaluation
import FeatureFlags.Project

/-!
Counters, and the text in which they are exposed.

A series is a counter with its labels.  It appears in the text from the first time on that
something is added to it, even if that is nothing.  The text has one line for each sample; what is
escaped in a label already is not escaped again, so different labels can be written alike.
-/

namespace FeatureFlags

/-- The two ways in which an environment is linked to its project. -/
inductive LinkOperation where
  | attach
  | detach
deriving DecidableEq

/-- A counter with its labels. -/
inductive Series where
  | flagEvaluations (status : EvaluationStatus)
  | cascadeEnvironments (operation : CascadeOperation)
  | cascadeFailures (operation : CascadeOperation)
  | projectLinkFailures (operation : LinkOperation)
  | httpRequests (method path : String) (status : Nat)
deriving DecidableEq

/-- The value of each series that has appeared. -/
abbrev Counters := List (Series × Nat)

namespace LinkOperation

def name : LinkOperation → String
  | attach => "attach"
  | detach => "detach"

end LinkOperation

namespace Counters

/-- The value of a series, 0 if it has not appeared. -/
def value (counters : Counters) (series : Series) : Nat := (counters.lookup series).getD 0

/-- Adds to a series. -/
def add (series : Series) (amount : Nat) : Counters → Counters
  | [] => [(series, amount)]
  | (s, n) :: rest =>
    if s = series then (s, n + amount) :: rest else (s, n) :: add series amount rest

theorem value_add (counters : Counters) (series s : Series) (amount : Nat) :
    value (add series amount counters) s
      = value counters s + if s = series then amount else 0 := by
  induction counters with
  | nil => by_cases h : s = series <;> simp [add, value, lookup_cons, h]
  | cons head rest ih =>
    obtain ⟨t, n⟩ := head
    simp only [value] at ih
    by_cases ht : t = series <;> by_cases h : s = t <;> simp_all [add, value, lookup_cons]

/-! ### The text -/

/-- A label value, in which backslashes, quotes and line feeds are escaped.  A backslash or a quote
that is escaped already stays as it is, so a pair of backslashes remains a pair. -/
def labelChars : List Char → List Char
  | [] => []
  | '\\' :: '\\' :: rest => '\\' :: '\\' :: labelChars rest
  | '\\' :: '"' :: rest => '\\' :: '"' :: labelChars rest
  | '\\' :: rest => '\\' :: '\\' :: labelChars rest
  | '"' :: rest => '\\' :: '"' :: labelChars rest
  | '\n' :: rest => '\\' :: 'n' :: labelChars rest
  | c :: rest => c :: labelChars rest

/-- A sample: the name of a counter with its labels. -/
def sampleName (name : String) (labels : List (String × String)) : String :=
  let texts := labels.map fun l => l.1 ++ "=\"" ++ String.ofList (labelChars l.2.toList) ++ "\""
  name ++ "\x7b" ++ ",".intercalate texts ++ "\x7d"

/-- Puts what a series shows among the samples.  Each counted request is also an observation of its
duration.  Labels that differ may be written alike: of such series one value is shown, while the
observations of all of them are counted together. -/
def expose (samples : SortedMap Nat) : Series × Nat → SortedMap Nat
  | (.flagEvaluations status, n) =>
    samples.insert (sampleName "flag_evaluations_total" [("status", status.name)]) n
  | (.cascadeEnvironments operation, n) =>
    samples.insert
      (sampleName "flag_cascade_environments_total" [("operation", operation.name)]) n
  | (.cascadeFailures operation, n) =>
    samples.insert (sampleName "flag_cascade_failures_total" [("operation", operation.name)]) n
  | (.projectLinkFailures operation, n) =>
    samples.insert
      (sampleName "environment_project_link_failures_total" [("operation", operation.name)]) n
  | (.httpRequests method path status, n) =>
    let labels := [("method", method), ("path", path),
      ("status", String.ofList (Text.decimal status))]
    let durations := sampleName "http_requests_duration_seconds_count" labels
    let observed := (samples.get? durations).getD 0
    (samples.insert (sampleName "http_requests_total" labels) n).insert durations (observed + n)

/-- All sample lines, in the order of the samples. -/
def samples (counters : Counters) : List String :=
  (counters.foldl expose .empty).entries.map fun (name, n) =>
    name ++ " " ++ String.ofList (Text.decimal n)

/-- The upper bounds, in seconds, of the intervals in which durations are counted. -/
def durationBounds : List String :=
  ["0.005", "0.01", "0.025", "0.05", "0.1", "0.25", "0.5", "1", "2.5", "5", "10", "+Inf"]

/-- The bounds that the text shows: none before the first request has been counted. -/
def shownBounds (counters : Counters) : List String :=
  if counters.any fun s => s.1 matches .httpRequests .. then durationBounds else []

end Counters

end FeatureFlags

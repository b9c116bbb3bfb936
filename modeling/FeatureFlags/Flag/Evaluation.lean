import FeatureFlags.Flag.Basic
import FeatureFlags.Rule.Tree

/-!
Evaluating flags.

Evaluating a flag never fails: where its rule cannot be evaluated, the result is the default value
with the status `error` and the text of the error as its reason.  Each flag of a map is evaluated
on its own.
-/

namespace FeatureFlags

/-- Whether a flag has the value that its rule gives. -/
inductive EvaluationStatus where
  | ok
  | error
deriving DecidableEq

/-- The result of evaluating a flag. -/
structure EvaluationResult where
  value : Scalar
  status : EvaluationStatus
  reason : String
deriving DecidableEq

namespace EvaluationStatus

def name : EvaluationStatus → String
  | .ok => "ok"
  | .error => "error"

def decode : Decoder EvaluationStatus := Decoder.name [("ok", .ok), ("error", .error)]

end EvaluationStatus

namespace EvaluationResult

/-- A result without a reason. -/
def success (value : Scalar) : EvaluationResult := ⟨value, .ok, ""⟩

/-- The default value, and why it is taken. -/
def failure (value : Scalar) (reason : String) : EvaluationResult := ⟨value, .error, reason⟩

def fieldNames : List String := ["value", "status", "reason"]

def decode : Decoder EvaluationResult := fun depth document => do
  let record ← Record.read? fieldNames depth document
  let value ← record.required "value" Scalar.decode
  let status ← record.required "status" EvaluationStatus.decode
  let reason ← record.required "reason" Decoder.string
  some ⟨value, status, reason⟩

def toJson (result : EvaluationResult) : Json :=
  Json.ofFields [("value", result.value.toJson), ("status", .string result.status.name),
    ("reason", .string result.reason)]

end EvaluationResult

namespace FlagRule

/-- Evaluates a flag in a context. -/
def evaluate (rule : FlagRule) (context : Json) : EvaluationResult :=
  match rule.rules with
  | none => .success rule.defaultValue
  | some tree =>
    match Rule.evaluate tree context with
    | .ok value =>
      match Scalar.ofJson? value with
      | some scalar => .success scalar
      | none => .failure rule.defaultValue "Rule evaluated to a non-scalar value"
    | .error e => .failure rule.defaultValue e.message

end FlagRule

namespace FlagMap

/-- Evaluates one flag of a map, if the map has it. -/
def evaluate? (flags : FlagMap) (name : String) (context : Json) : Option EvaluationResult :=
  (flags.get? name).map fun rule => rule.evaluate context

/-- Evaluates every flag of a map. -/
def evaluateAll (flags : FlagMap) (context : Json) : SortedMap EvaluationResult :=
  flags.mapValues fun _ rule => rule.evaluate context

end FlagMap

end FeatureFlags

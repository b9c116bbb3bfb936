import FeatureFlags.Flag.Evaluation
import FeatureFlags.Http.Message
import FeatureFlags.Json.Reader
import FeatureFlags.Propagation
import FeatureFlags.Service.Access

/-!
Reading and evaluating the flags of an environment, with an API key.

The environment is looked up first, so an unknown one is reported whatever the key; then comes the
key, then the body, and last the flag.
-/

namespace FeatureFlags.Evaluation

open FeatureFlags.Action Http

/-- The blanks that a body without a context may consist of. -/
def isBlankByte (b : UInt8) : Bool := b = 0x20 || b = 0x09 || b = 0x0a || b = 0x0c || b = 0x0d

/-- The context in a body.  A blank body is the null context. -/
def readContext (body : List UInt8) : Except ApiError Json :=
  if body.all isBlankByte then .ok .null
  else match Json.read? body with
    | some context => .ok context
    | none => .error .unreadableBody

/-- Goes on with an environment that the request may use. -/
def authorized (access : Access) (environment : String) (header : List String)
    (resume : Environment → Action Response) : Action Response :=
  store (.getEnvironment environment) fun (found : Environment) =>
  require (access.authorize found header) fun _ => resume found

def getRules (environment : String) (header : List String) : Action Response :=
  authorized .serverSideOnly environment header fun found =>
    ok (.ofJson 200 (FlagMap.toJson found.flags))

/-- The counts of results by status. -/
def countResults {α : Type} (results : List EvaluationResult) (next : Program α) : Program α :=
  Program.countEach (results.map fun result => .flagEvaluations result.status) next

def evaluateFlags (environment : String) (header : List String) (body : List UInt8) :
    Action Response :=
  authorized .serverOrClientSide environment header fun found =>
  require (readContext body) fun context =>
    let results := FlagMap.evaluateAll found.flags context
    countResults results.values (ok (.ofJson 200 (Json.ofMap EvaluationResult.toJson results)))

def evaluateFlag (environment flag : String) (header : List String) (body : List UInt8) :
    Action Response :=
  authorized .serverOrClientSide environment header fun found =>
  require (readContext body) fun context =>
    match FlagMap.evaluate? found.flags flag context with
    | none => fail (.notFound .flag)
    | some result => countResults [result] (ok (.ofJson 200 result.toJson))

end FeatureFlags.Evaluation

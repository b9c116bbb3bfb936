import FeatureFlags.Http.Message
import FeatureFlags.Json.Reader
import FeatureFlags.Propagation

/-!
The administration of projects, environments, flags and API keys.

Bodies are read and names are checked before anything is asked of the store.
-/

namespace FeatureFlags.Admin

open FeatureFlags.Action Http

/-- Reads a body as a record. -/
def readBody {α : Type} (decode : Decoder α) (body : List UInt8) : Except ApiError α :=
  match (Document.read? body).bind decode.run with
  | some value => .ok value
  | none => .error .unreadableBody

/-- Checks the length of a name. -/
def checkName (entity : Named) (name : String) : Except ApiError Unit :=
  if entity.Permits name then .ok () else .error (.invalidName entity)

/-- The body of a request that creates something with a name. -/
def newName : Decoder String := fun depth document => do
  let record ← Record.read? ["name"] depth document
  record.required "name" Decoder.string

/-- The body of a request that changes a name, which it may leave out. -/
def newNameIfGiven : Decoder (Option String) := fun depth document => do
  let record ← Record.read? ["name"] depth document
  record.optional "name" Decoder.string

/-- Reads and checks the name of something new. -/
def requireName {α : Type} (entity : Named) (body : List UInt8)
    (resume : String → Action α) : Action α :=
  require (readBody newName body) fun name =>
  require (checkName entity name) fun _ => resume name

/-! ### Projects -/

def listProjects (offset limit : Nat) : Action Response :=
  store (.listProjects offset limit) fun (projects : List Project) =>
    ok (.ofJson 200 (.array (projects.map Project.toJson)))

def createProject (body : List UInt8) : Action Response :=
  requireName .project body fun name =>
  (Propagation.createProject name).map fun result =>
    result.map fun project => .ofJson 201 project.toJson

def getProject (project : String) : Action Response :=
  store (.getProject project) fun (found : Project) => ok (.ofJson 200 found.toJson)

def deleteProject (project : String) : Action Response :=
  (Propagation.deleteProject project).map fun result =>
    result.map fun deletion => .ofJson 200 deletion.toJson

def addFlag (project : String) (body : List UInt8) : Action Response :=
  require (readBody Flag.decode body) fun flag =>
  require (checkName .flag flag.name) fun _ =>
  (Propagation.addFlag project flag).map fun result =>
    result.map fun flag => .ofJson 201 flag.toJson

def patchFlag (project flag : String) (body : List UInt8) : Action Response :=
  require (readBody FlagPatch.decode body) fun patch =>
  (Propagation.patchFlag project flag patch).map fun result =>
    result.map fun flag => .ofJson 201 flag.toJson

def removeFlag (project flag : String) : Action Response :=
  (Propagation.removeFlag project flag).map fun result =>
    result.map fun _ => .ofStatus 204

def resyncFlag (project flag : String) : Action Response :=
  (Propagation.resyncFlag project flag).map fun result =>
    result.map fun report => .ofJson 200 report.toJson

/-! ### Environments -/

def createEnvironment (project : String) (body : List UInt8) : Action Response :=
  requireName .environment body fun name =>
  (Propagation.createEnvironment project name).map fun result =>
    result.map fun environment => .ofJson 201 environment.view.toJson

def getEnvironment (environment : String) : Action Response :=
  store (.getEnvironment environment) fun (found : Environment) =>
    ok (.ofJson 200 found.view.toJson)

/-- The name that a body gives; an empty body gives none. -/
def givenName (body : List UInt8) : Except ApiError String :=
  if body.isEmpty then .error .missingName
  else match readBody newNameIfGiven body with
    | .ok (some name) => .ok name
    | .ok none => .error .missingName
    | .error e => .error e

def renameEnvironment (environment : String) (body : List UInt8) : Action Response :=
  require (givenName body) fun name =>
  require (checkName .environment name) fun _ =>
  store (.renameEnvironment environment name) fun (renamed : Environment) =>
    ok (.ofJson 200 renamed.view.toJson)

def deleteEnvironment (environment : String) : Action Response :=
  (Propagation.deleteEnvironment environment).map fun result =>
    result.map fun _ => .ofStatus 204

def patchEnvironmentFlag (environment flag : String) (body : List UInt8) : Action Response :=
  require (readBody FlagPatch.decode body) fun patch =>
  (Propagation.patchEnvironmentFlag environment flag patch).map fun result =>
    result.map fun flag => .ofJson 201 flag.toJson

def removeEnvironmentFlag (environment flag : String) : Action Response :=
  (Propagation.removeEnvironmentFlag environment flag).map fun result =>
    result.map fun _ => .ofStatus 204

/-! ### API keys -/

def createKey (scope : KeyScope) (environment : String) (body : List UInt8) : Action Response :=
  requireName .key body fun name =>
  .newKey fun key => .readClock fun now =>
    let created : ApiKey := ⟨key, name, now⟩
    store (.insertApiKey environment scope key created.descriptor) fun _ =>
      ok (.ofJson 201 created.toJson)

/-- Answers the same whether the environment had the key or not. -/
def deleteKey (scope : KeyScope) (environment key : String) : Action Response :=
  store (.deleteApiKey environment scope key) fun _ => ok (.ofStatus 204)

end FeatureFlags.Admin

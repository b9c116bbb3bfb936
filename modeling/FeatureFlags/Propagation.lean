import FeatureFlags.Program
import FeatureFlags.Service.Error

/-!
Operations on projects and environments, and how they propagate.

A new environment starts with a copy of the flags of its project.  Adding a flag to a project sets
it on every environment of the project, removing it removes it there, and a patch stays with the
project.  The write to the project and the write to its environments are two steps; when the second
fails, the caller is told so (`ApiError.partialCascade`), and `resyncFlag` brings the environments
in line again.
-/

namespace FeatureFlags

/-- A program that ends with a value or a failed request. -/
abbrev Action (α : Type) := Program (Except ApiError α)

namespace Action

variable {α : Type}

def ok (value : α) : Action α := .done (.ok value)

def fail (error : ApiError) : Action α := .done (.error error)

/-- Goes on with a result, or ends with its error. -/
def require {β : Type} (result : Except ApiError β) (resume : β → Action α) : Action α :=
  match result with
  | .ok value => resume value
  | .error error => fail error

/-- Sends a request to the store and goes on with the reply, or ends with the failure. -/
def store (request : Store.Request) (resume : request.Reply → Action α) : Action α :=
  .call request fun
    | .ok reply => resume reply
    | .error error => fail (.ofStore error)

end Action

namespace Propagation

open FeatureFlags.Action

/-- The bulk write of a cascade: sets a rule, or removes the flag if there is none. -/
def cascadeRequest (ids : List String) (flag : String) : Option FlagRule → Store.Request
  | some rule => .setEnvironmentsFlag ids flag rule
  | none => .unsetEnvironmentsFlag ids flag

/-- What the write for a rule does. -/
def cascadeOperation : Option FlagRule → CascadeOperation
  | some _ => .set
  | none => .unset

/-- The number of environments that a bulk write reports. -/
def writtenBy (ids : List String) (flag : String) (rule : Option FlagRule) :
    (cascadeRequest ids flag rule).Reply → Nat :=
  match rule with
  | some _ => fun (written : Nat) => written
  | none => fun (written : Nat) => written

/-- Writes one flag to environments and goes on with their number.  Without environments there is
nothing to write. -/
def cascade {α : Type} (ids : List String) (flag : String) (rule : Option FlagRule)
    (resume : Nat → Action α) : Action α :=
  if ids.isEmpty then resume 0
  else .call (cascadeRequest ids flag rule) fun
    | .ok reply =>
      let written := writtenBy ids flag rule reply
      .count (.cascadeEnvironments (cascadeOperation rule)) written (resume written)
    | .error _ =>
      .count (.cascadeFailures (cascadeOperation rule)) 1 (fail (.partialCascade flag))

def createProject (name : String) : Action Project :=
  .readClock fun now => .newId fun id =>
    let project := Project.new id name now
    store (.insertProject project) fun _ => ok project

/-- Creates an environment and lists it in its project.  If it cannot be listed, it is deleted
again. -/
def createEnvironment (project name : String) : Action Environment :=
  store (.getProject project) fun (found : Project) =>
  .readClock fun now => .newId fun id =>
    let environment := Environment.new id name found.flags now
    store (.insertEnvironment environment) fun _ =>
    .call (.attachEnvironment project id) fun
      | .ok _ => ok environment
      | .error error =>
        .count (.projectLinkFailures .attach) 1
          (.call (.deleteEnvironment id) fun _ => fail (.ofStore error))

def addFlag (project : String) (flag : Flag) : Action Flag :=
  store (.insertProjectFlag project flag.name flag.rule) fun (ids : List String) =>
  cascade ids flag.name (some flag.rule) fun _ => ok flag

/-- Patches the flag of the project alone. -/
def patchFlag (project flag : String) (patch : FlagPatch) : Action Flag :=
  store (.patchProjectFlag project flag patch) fun (rule : FlagRule) => ok ⟨flag, rule⟩

def removeFlag (project flag : String) : Action Unit :=
  store (.removeProjectFlag project flag) fun (ids : List String) =>
  cascade ids flag none fun _ => ok ()

/-- Writes what the project says of a flag to all its environments again. -/
def resyncFlag (project flag : String) : Action CascadeReport :=
  store (.getProject project) fun (found : Project) =>
  let rule := found.flags.get? flag
  cascade found.environmentIds flag rule fun written =>
    ok ⟨flag, cascadeOperation rule, written⟩

/-- Patches the flag of one environment alone. -/
def patchEnvironmentFlag (id flag : String) (patch : FlagPatch) : Action Flag :=
  store (.patchEnvironmentFlag id flag patch) fun (rule : FlagRule) => ok ⟨flag, rule⟩

def removeEnvironmentFlag (id flag : String) : Action Unit :=
  store (.removeEnvironmentFlag id flag) fun _ => ok ()

/-- Deletes a project, and hands back the ids of its environments, which stay. -/
def deleteProject (name : String) : Action ProjectDeletion :=
  store (.deleteProject name) fun (project : Project) =>
    ok ⟨project.name, project.environmentIds⟩

/-- Deletes an environment, and then its id in the projects that list it.  If the second fails,
the id stays behind; a cascade passes it over. -/
def deleteEnvironment (id : String) : Action Unit :=
  store (.deleteEnvironment id) fun _ =>
  .call (.detachEnvironment id) fun
    | .ok _ => ok ()
    | .error _ => .count (.projectLinkFailures .detach) 1 (ok ())

end Propagation

end FeatureFlags

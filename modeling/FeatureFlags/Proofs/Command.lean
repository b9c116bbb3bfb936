import FeatureFlags.Service.Basic

/-!
Commands: what the administration of the service can be asked to do.

A command is an operation with its arguments read and checked.  The type of what it returns depends
on it, as the reply of a store depends on the request.  Runs of the service, one command after
another or side by side, are runs of commands.

An operation of the administration is refused before the store is asked anything, or it carries out
one command and shows its result (`adminAction?_eq_attempt`), and a request to its route is answered
with how that ended (`perform_eq_carryOut`); so what holds of every run of commands holds of every
run of such requests.  Listing the projects, which reads its query
instead of a body, is left out there.
-/

namespace FeatureFlags

/-- An operation of the administration, with its arguments. -/
inductive Command where
  | listProjects (offset limit : Nat)
  | createProject (name : String)
  | getProject (name : String)
  | deleteProject (name : String)
  | addFlag (project : String) (flag : Flag)
  | patchFlag (project flag : String) (patch : FlagPatch)
  | removeFlag (project flag : String)
  | resyncFlag (project flag : String)
  | createEnvironment (project name : String)
  | getEnvironment (id : String)
  | renameEnvironment (id name : String)
  | deleteEnvironment (id : String)
  | patchEnvironmentFlag (id flag : String) (patch : FlagPatch)
  | removeEnvironmentFlag (id flag : String)
  | createKey (scope : KeyScope) (id name : String)
  | deleteKey (scope : KeyScope) (id key : String)

namespace Command

/-- Adds a flag with its rule, or removes it if there is none. -/
def writeFlag (project flag : String) : Option FlagRule → Command
  | some rule => .addFlag project ⟨flag, rule⟩
  | none => .removeFlag project flag

/-- What a command returns if it succeeds. -/
def Result : Command → Type
  | listProjects .. => List Project
  | createProject _ | getProject _ => Project
  | deleteProject _ => ProjectDeletion
  | addFlag .. | patchFlag .. | patchEnvironmentFlag .. => Flag
  | resyncFlag .. => CascadeReport
  | createEnvironment .. | getEnvironment _ | renameEnvironment .. => Environment
  | createKey .. => ApiKey
  | removeFlag .. | deleteEnvironment _ | removeEnvironmentFlag .. | deleteKey .. => Unit

/-- What the service does for a command. -/
def program : (command : Command) → Action command.Result
  | listProjects offset limit => .store (.listProjects offset limit) .ok
  | createProject name => Propagation.createProject name
  | getProject name => .store (.getProject name) .ok
  | deleteProject name => Propagation.deleteProject name
  | addFlag project flag => Propagation.addFlag project flag
  | patchFlag project flag patch => Propagation.patchFlag project flag patch
  | removeFlag project flag => Propagation.removeFlag project flag
  | resyncFlag project flag => Propagation.resyncFlag project flag
  | createEnvironment project name => Propagation.createEnvironment project name
  | getEnvironment id => .store (.getEnvironment id) .ok
  | renameEnvironment id name => .store (.renameEnvironment id name) .ok
  | deleteEnvironment id => Propagation.deleteEnvironment id
  | patchEnvironmentFlag id flag patch => Propagation.patchEnvironmentFlag id flag patch
  | removeEnvironmentFlag id flag => Propagation.removeEnvironmentFlag id flag
  | createKey scope id name =>
    .newKey fun key => .readClock fun now =>
      Action.store (.insertApiKey id scope key ⟨name, now⟩) fun _ => Action.ok ⟨key, name, now⟩
  | deleteKey scope id key => .store (.deleteApiKey id scope key) .ok

/-- How the result of a command is shown. -/
def response : (command : Command) → command.Result → Http.Response
  | listProjects .., projects => .ofJson 200 (.array (List.map Project.toJson projects))
  | createProject _, project => .ofJson 201 (Project.toJson project)
  | getProject _, project => .ofJson 200 (Project.toJson project)
  | deleteProject _, deletion => .ofJson 200 (ProjectDeletion.toJson deletion)
  | addFlag .., flag | patchFlag .., flag | patchEnvironmentFlag .., flag =>
    .ofJson 201 (Flag.toJson flag)
  | resyncFlag .., report => .ofJson 200 (CascadeReport.toJson report)
  | createEnvironment .., environment => .ofJson 201 (Environment.view environment).toJson
  | getEnvironment _, environment | renameEnvironment .., environment =>
    .ofJson 200 (Environment.view environment).toJson
  | createKey .., key => .ofJson 201 (ApiKey.toJson key)
  | removeFlag .., _ | deleteEnvironment _, _ | removeEnvironmentFlag .., _ | deleteKey .., _ =>
    .ofStatus 204

end Command

namespace Program

variable {α β γ : Type}

theorem map_map (f : α → β) (g : β → γ) (program : Program α) :
    (program.map f).map g = program.map fun value => g (f value) := by
  induction program with
  | done value => rfl
  | call request resume ih => exact congrArg (call request) (funext ih)
  | readClock resume ih => exact congrArg readClock (funext ih)
  | newId resume ih => exact congrArg newId (funext ih)
  | newKey resume ih => exact congrArg newKey (funext ih)
  | count series amount rest ih => exact congrArg (count series amount) ih

end Program

namespace Service

open Http

/-- The name in a body, checked. -/
def readName (entity : Named) (body : List UInt8) : Except ApiError String :=
  (Admin.readBody Admin.newName body).bind fun name =>
    (Admin.checkName entity name).map fun _ => name

/-- The command that the body of a request asks for, with the arguments of its path. -/
def bodyCommand? (body : List UInt8) : Operation → Option (Except ApiError Command)
  | .createProject => some ((readName .project body).map .createProject)
  | .getProject project => some (.ok (.getProject project))
  | .deleteProject project => some (.ok (.deleteProject project))
  | .addFlag project => some <|
    (Admin.readBody Flag.decode body).bind fun flag =>
      (Admin.checkName .flag flag.name).map fun _ => .addFlag project flag
  | .patchFlag project flag =>
    some ((Admin.readBody FlagPatch.decode body).map (.patchFlag project flag))
  | .removeFlag project flag => some (.ok (.removeFlag project flag))
  | .resyncFlag project flag => some (.ok (.resyncFlag project flag))
  | .createEnvironment project =>
    some ((readName .environment body).map (.createEnvironment project))
  | .getEnvironment id => some (.ok (.getEnvironment id))
  | .renameEnvironment id => some <|
    (Admin.givenName body).bind fun name =>
      (Admin.checkName .environment name).map fun _ => .renameEnvironment id name
  | .deleteEnvironment id => some (.ok (.deleteEnvironment id))
  | .patchEnvironmentFlag id flag =>
    some ((Admin.readBody FlagPatch.decode body).map (.patchEnvironmentFlag id flag))
  | .removeEnvironmentFlag id flag => some (.ok (.removeEnvironmentFlag id flag))
  | .createKey scope id => some ((readName .key body).map (.createKey scope id))
  | .deleteKey scope id key => some (.ok (.deleteKey scope id key))
  | .listProjects | .index | .health | .readiness | .samples | .getRules _ | .evaluateFlags _
  | .evaluateFlag .. => none

/-- A command that may have been refused, with its result as a response. -/
def attempt : Except ApiError Command → Action Response
  | .ok command => command.program.map fun outcome => outcome.map command.response
  | .error error => Action.fail error

/-- What the administration does for an operation, with the body of the request. -/
def adminAction? (body : List UInt8) : Operation → Option (Action Response)
  | .createProject => some (Admin.createProject body)
  | .getProject project => some (Admin.getProject project)
  | .deleteProject project => some (Admin.deleteProject project)
  | .addFlag project => some (Admin.addFlag project body)
  | .patchFlag project flag => some (Admin.patchFlag project flag body)
  | .removeFlag project flag => some (Admin.removeFlag project flag)
  | .resyncFlag project flag => some (Admin.resyncFlag project flag)
  | .createEnvironment project => some (Admin.createEnvironment project body)
  | .getEnvironment id => some (Admin.getEnvironment id)
  | .renameEnvironment id => some (Admin.renameEnvironment id body)
  | .deleteEnvironment id => some (Admin.deleteEnvironment id)
  | .patchEnvironmentFlag id flag => some (Admin.patchEnvironmentFlag id flag body)
  | .removeEnvironmentFlag id flag => some (Admin.removeEnvironmentFlag id flag)
  | .createKey scope id => some (Admin.createKey scope id body)
  | .deleteKey scope id key => some (Admin.deleteKey scope id key)
  | .listProjects | .index | .health | .readiness | .samples | .getRules _ | .evaluateFlags _
  | .evaluateFlag .. => none

/-- The response to how a command ended. -/
def outcomeResponse (command : Command) : Except ApiError command.Result → Response
  | .ok result => command.response result
  | .error error => errorResponse error

/-- What the service does for a command that may have been refused. -/
def carryOut : Except ApiError Command → Program Response
  | .ok command => command.program.map (outcomeResponse command)
  | .error error => .done (errorResponse error)

theorem respond_attempt (command : Except ApiError Command) :
    respond (attempt command) = carryOut command := by
  cases command with
  | error error => rfl
  | ok command =>
    rw [respond, attempt, Program.map_map, carryOut]
    congr 1
    funext outcome
    cases outcome <;> rfl

/-- A name that is read and checked first. -/
theorem requireName_eq (entity : Named) (body : List UInt8) (resume : String → Action Response)
    (command : String → Command) (h : ∀ name, resume name = attempt (.ok (command name))) :
    Admin.requireName entity body resume = attempt ((readName entity body).map command) := by
  rw [Admin.requireName, readName]
  cases Admin.readBody Admin.newName body with
  | error error => rfl
  | ok name =>
    simp only [Action.require, Except.bind]
    cases Admin.checkName entity name with
    | error error => rfl
    | ok _ => exact h name

/-- A command of one request, whose reply is shown. -/
theorem store_eq_attempt (command : Command) (request : Store.Request)
    {result : request.Reply → command.Result}
    (hprogram : command.program = Action.store request fun reply => Action.ok (result reply)) :
    (Action.store request fun reply => Action.ok (command.response (result reply)))
      = attempt (.ok command) := by
  rw [attempt, hprogram]
  refine congrArg (Program.call request) (funext fun reply => ?_)
  cases reply <;> rfl

/-- **Requests are commands**: an operation of the administration is refused, or carries out one
command and shows its result. -/
theorem adminAction?_eq_attempt (body : List UInt8) (operation : Operation) :
    adminAction? body operation = (bodyCommand? body operation).map attempt := by
  cases operation with
  | listProjects | index | health | readiness | samples | getRules | evaluateFlags
  | evaluateFlag => rfl
  | createProject =>
    refine congrArg some ?_
    exact requireName_eq .project body _ .createProject fun _ => rfl
  | createEnvironment project =>
    refine congrArg some ?_
    exact requireName_eq .environment body _ (.createEnvironment project) fun _ => rfl
  | createKey scope id =>
    refine congrArg some (requireName_eq .key body _ (.createKey scope id) fun name => ?_)
    refine congrArg Program.newKey (funext fun key => congrArg Program.readClock ?_)
    refine funext fun now => congrArg (Program.call _) (funext fun reply => ?_)
    cases reply <;> rfl
  | addFlag project =>
    refine congrArg some ?_
    rw [Admin.addFlag]
    cases Admin.readBody Flag.decode body with
    | error error => rfl
    | ok flag =>
      simp only [Action.require, Except.bind]
      cases Admin.checkName .flag flag.name <;> rfl
  | renameEnvironment id =>
    refine congrArg some ?_
    rw [Admin.renameEnvironment]
    cases Admin.givenName body with
    | error error => rfl
    | ok name =>
      simp only [Action.require, Except.bind]
      cases Admin.checkName .environment name with
      | error error => rfl
      | ok _ => exact store_eq_attempt (.renameEnvironment id name) _ rfl
  | patchFlag project flag =>
    refine congrArg some ?_
    rw [Admin.patchFlag]
    cases Admin.readBody FlagPatch.decode body <;> rfl
  | patchEnvironmentFlag id flag =>
    refine congrArg some ?_
    rw [Admin.patchEnvironmentFlag]
    cases Admin.readBody FlagPatch.decode body <;> rfl
  | getProject project =>
    exact congrArg some (store_eq_attempt (.getProject project) _ rfl)
  | getEnvironment id => exact congrArg some (store_eq_attempt (.getEnvironment id) _ rfl)
  | deleteKey scope id key => exact congrArg some (store_eq_attempt (.deleteKey scope id key) _ rfl)
  | deleteProject | removeFlag | resyncFlag | deleteEnvironment | removeEnvironmentFlag => rfl

/-- A request to a route of the administration is answered with what the administration does. -/
theorem perform_eq_respond (options : Options) (request : Request) (operation : Operation)
    {action : Action Response} (h : adminAction? request.body operation = some action) :
    perform options request operation = respond action := by
  cases operation <;> cases h <;> rfl

/-- So a request to such a route is refused, or carries out one command and shows how it ended. -/
theorem perform_eq_carryOut (options : Options) (request : Request) (operation : Operation)
    {command : Except ApiError Command} (h : bodyCommand? request.body operation = some command) :
    perform options request operation = carryOut command := by
  have haction : adminAction? request.body operation = some (attempt command) := by
    rw [adminAction?_eq_attempt, h]
    rfl
  rw [perform_eq_respond options request operation haction, respond_attempt]

end Service

end FeatureFlags

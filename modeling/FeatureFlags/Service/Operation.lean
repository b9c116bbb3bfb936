import FeatureFlags.Environment
import FeatureFlags.Http.Route

/-!
The operations of the service, and the routes that lead to them.

An operation is what a method and a path ask for, with the arguments that the path gives; the body,
the query and the headers of the request are read by the operation itself.
-/

namespace FeatureFlags

/-- An operation of the service. -/
inductive Operation where
  | index
  | health
  | readiness
  | samples
  | listProjects
  | createProject
  | getProject (project : String)
  | createEnvironment (project : String)
  | deleteProject (project : String)
  | addFlag (project : String)
  | patchFlag (project flag : String)
  | removeFlag (project flag : String)
  | resyncFlag (project flag : String)
  | getEnvironment (environment : String)
  | renameEnvironment (environment : String)
  | deleteEnvironment (environment : String)
  | patchEnvironmentFlag (environment flag : String)
  | removeEnvironmentFlag (environment flag : String)
  | createKey (scope : KeyScope) (environment : String)
  | deleteKey (scope : KeyScope) (environment key : String)
  | getRules (environment : String)
  | evaluateFlags (environment : String)
  | evaluateFlag (environment flag : String)
deriving DecidableEq

namespace Operation

open Http Http.Segment

/-- The methods of a route, each with the operation that it makes of the arguments of the path. -/
abbrev Methods := List (String × (List String → Option Operation))

/-- A method of a route without parameters. -/
def plain (method : String) (operation : Operation) :
    String × (List String → Option Operation) :=
  (method, fun
    | [] => some operation
    | _ => none)

/-- A method of a route with one parameter. -/
def withOne (method : String) (operation : String → Operation) :
    String × (List String → Option Operation) :=
  (method, fun
    | [a] => some (operation a)
    | _ => none)

/-- A method of a route with two parameters. -/
def withTwo (method : String) (operation : String → String → Operation) :
    String × (List String → Option Operation) :=
  (method, fun
    | [a, b] => some (operation a b)
    | _ => none)

/-- The name of a flag that is evaluated under the path under which its rules are read. -/
def rulesSegment : String := "get_rules"

/-- The routes of the service, literal segments before parameters. -/
def routes : List (Route Methods) :=
  let project := parameter "project_name"
  let environment := parameter "environment_id"
  let flag := parameter "flag_name"
  let key := parameter "key"
  let admin := literal "admin"
  let projects := literal "projects"
  let flags := literal "flags"
  let serverSide := literal "server_side_key"
  let clientSide := literal "client_side_key"
  [⟨[literal ""], [plain "GET" .index]⟩,
   ⟨[literal "health_check"], [plain "GET" .health]⟩,
   ⟨[literal "_readiness"], [plain "GET" .readiness]⟩,
   ⟨[environment], [withOne "POST" .evaluateFlags]⟩,
   ⟨[admin, projects], [plain "GET" .listProjects, plain "POST" .createProject]⟩,
   ⟨[admin, environment],
     [withOne "GET" .getEnvironment, withOne "PATCH" .renameEnvironment,
      withOne "DELETE" .deleteEnvironment]⟩,
   ⟨[environment, literal rulesSegment],
     [withOne "GET" .getRules,
      withOne "POST" fun environment => .evaluateFlag environment rulesSegment]⟩,
   ⟨[environment, flag], [withTwo "POST" .evaluateFlag]⟩,
   ⟨[admin, projects, project],
     [withOne "GET" .getProject, withOne "POST" .createEnvironment,
      withOne "DELETE" .deleteProject]⟩,
   ⟨[admin, environment, serverSide], [withOne "POST" (.createKey .serverSide)]⟩,
   ⟨[admin, environment, clientSide], [withOne "POST" (.createKey .clientSide)]⟩,
   ⟨[admin, projects, project, flags], [withOne "POST" .addFlag]⟩,
   ⟨[admin, environment, flags, flag],
     [withTwo "PATCH" .patchEnvironmentFlag, withTwo "DELETE" .removeEnvironmentFlag]⟩,
   ⟨[admin, environment, serverSide, key], [withTwo "DELETE" (.deleteKey .serverSide)]⟩,
   ⟨[admin, environment, clientSide, key], [withTwo "DELETE" (.deleteKey .clientSide)]⟩,
   ⟨[admin, projects, project, flags, flag],
     [withTwo "PATCH" .patchFlag, withTwo "DELETE" .removeFlag]⟩,
   ⟨[admin, projects, project, flags, flag, literal "resync"],
     [withTwo "POST" .resyncFlag]⟩]

/-- The route of the counters, which is only there where they are collected. -/
def samplesRoute : Route Methods := ⟨[literal "metrics"], [plain "GET" .samples]⟩

/-- The methods that a route knows, sorted.  What can be read can also be asked for its status. -/
def allowed (methods : Methods) : List String :=
  let names := methods.map (·.1)
  let names := if names.contains "GET" then "HEAD" :: names else names
  names.mergeSort fun a b => decide (a ≤ b)

/-- Where a method and a path lead. -/
inductive Destination where
  | unknownPath
  | unknownMethod (template : String) (allow : List String)
  /-- An argument of the path is not UTF-8. -/
  | unreadablePath (template : String)
  | operation (template : String) (operation : Operation)

/-- Finds the operation that a method and a path ask for. -/
def find (routes : List (Route Methods)) (method : String) (path : List Char) : Destination :=
  match (pathSegments? path).bind (findRoute? · routes) with
  | none => .unknownPath
  | some (route, arguments) =>
    let template := Http.template route.pattern
    match route.target.lookup (if method = "HEAD" then "GET" else method) with
    | none => .unknownMethod template (allowed route.target)
    | some build =>
      match (arguments.mapM percentDecode?).bind build with
      | some operation => .operation template operation
      | none => .unreadablePath template

end Operation

end FeatureFlags

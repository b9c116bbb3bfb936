import FeatureFlags.Environment
import FeatureFlags.Project
import FeatureFlags.Store.Error

/-!
The store: projects by name and environments by id.

Every operation addresses one field of one document, or one field across a set of environments, and
happens at one moment as a whole.  It either fails, and then leaves the store as it is, or returns
what it found together with the new store.  An operation that changes a document sets the time of
its last update to a reading of the clock; `now` lists the readings that an operation takes, one
for each document that it changes.

Two switches make the bulk writes to environments and the links from projects to environments fail.
-/

namespace FeatureFlags

/-- Projects by name, environments by id, and the two failure switches. -/
structure Store where
  projects : SortedMap Project
  environments : SortedMap Environment
  environmentWritesFail : Bool
  projectLinksFail : Bool

namespace Store

/-- The store without documents, in which nothing fails. -/
def empty : Store := ⟨.empty, .empty, false, false⟩

instance : Inhabited Store := ⟨empty⟩

/-- The failure that a switch causes. -/
def switchedOff : StoreError := .database .poolTimedOut

/-- Changes one project. -/
def updateProject {α : Type} (s : Store) (name : String)
    (change : Project → Except StoreError (α × Project)) : Except StoreError (α × Store) :=
  match s.projects.get? name with
  | none => .error (.notFound .project)
  | some project =>
    match change project with
    | .error e => .error e
    | .ok (result, project) =>
      .ok (result, { s with projects := s.projects.insert name project })

/-- Changes one environment. -/
def updateEnvironment {α : Type} (s : Store) (id : String)
    (change : Environment → Except StoreError (α × Environment)) : Except StoreError (α × Store) :=
  match s.environments.get? id with
  | none => .error (.notFound .environment)
  | some environment =>
    match change environment with
    | .error e => .error e
    | .ok (result, environment) =>
      .ok (result, { s with environments := s.environments.insert id environment })

/-! ### Projects -/

/-- The projects from `offset` on, at most `limit` of them, in the order of their names. -/
def listProjects (s : Store) (offset limit : Nat) : List Project :=
  (s.projects.values.drop offset).take limit

def insertProject (s : Store) (project : Project) : Except StoreError Store :=
  if s.projects.contains project.name then .error (.alreadyExists .project)
  else .ok { s with projects := s.projects.insert project.name project }

def getProject (s : Store) (name : String) : Except StoreError Project :=
  match s.projects.get? name with
  | some project => .ok project
  | none => .error (.notFound .project)

/-- Removes the project alone, and returns it as it was. -/
def deleteProject (s : Store) (name : String) : Except StoreError (Project × Store) :=
  match s.projects.get? name with
  | some project => .ok (project, { s with projects := s.projects.erase name })
  | none => .error (.notFound .project)

/-- Adds an id at the end of those that a project lists, unless it lists it already. -/
def attachEnvironment (s : Store) (project id : String) (now : Timestamp) :
    Except StoreError Store :=
  if s.projectLinksFail then .error switchedOff
  else (s.updateProject project fun p =>
    let ids := if id ∈ p.environmentIds then p.environmentIds else p.environmentIds ++ [id]
    .ok ((), { p with environmentIds := ids, updatedAt := now })).map (·.2)

/-- Drops an id from the listed projects, and counts those that listed it. -/
def detachFrom (id : String) (now : Nat → Timestamp) :
    List String → Nat → SortedMap Project → Nat × SortedMap Project
  | [], detached, projects => (detached, projects)
  | name :: rest, detached, projects =>
    match projects.get? name with
    | none => detachFrom id now rest detached projects
    | some p =>
      if id ∈ p.environmentIds then
        let ids := p.environmentIds.filter (· ≠ id)
        let p := { p with environmentIds := ids, updatedAt := now detached }
        detachFrom id now rest (detached + 1) (projects.insert name p)
      else detachFrom id now rest detached projects

/-- Drops an id from every project that lists it, and counts these. -/
def detachEnvironment (s : Store) (id : String) (now : Nat → Timestamp) :
    Except StoreError (Nat × Store) :=
  if s.projectLinksFail then .error switchedOff
  else
    let (detached, projects) := detachFrom id now s.projects.keys 0 s.projects
    .ok (detached, { s with projects })

/-- Adds a flag that the project must not have, and returns the ids that the project lists. -/
def insertProjectFlag (s : Store) (project flag : String) (rule : FlagRule) (now : Timestamp) :
    Except StoreError (List String × Store) :=
  s.updateProject project fun p =>
    if p.flags.contains flag then .error (.alreadyExists .flag)
    else .ok (p.environmentIds, { p with flags := p.flags.insert flag rule, updatedAt := now })

/-- Patches a flag that the project must have, and returns the new rule. -/
def patchProjectFlag (s : Store) (project flag : String) (patch : FlagPatch) (now : Timestamp) :
    Except StoreError (FlagRule × Store) :=
  s.updateProject project fun p =>
    match p.flags.get? flag with
    | none => .error (.notFound .flag)
    | some rule =>
      let rule := patch.apply rule
      .ok (rule, { p with flags := p.flags.insert flag rule, updatedAt := now })

/-- Removes a flag, if the project has it, and returns the ids that the project lists. -/
def removeProjectFlag (s : Store) (project flag : String) (now : Timestamp) :
    Except StoreError (List String × Store) :=
  s.updateProject project fun p =>
    .ok (p.environmentIds, { p with flags := p.flags.erase flag, updatedAt := now })

/-! ### Environments -/

def insertEnvironment (s : Store) (environment : Environment) : Except StoreError Store :=
  if s.environments.contains environment.id then .error (.alreadyExists .environment)
  else .ok { s with environments := s.environments.insert environment.id environment }

def getEnvironment (s : Store) (id : String) : Except StoreError Environment :=
  match s.environments.get? id with
  | some environment => .ok environment
  | none => .error (.notFound .environment)

def renameEnvironment (s : Store) (id name : String) (now : Timestamp) :
    Except StoreError (Environment × Store) :=
  s.updateEnvironment id fun e =>
    let e := { e with name, updatedAt := now }
    .ok (e, e)

def deleteEnvironment (s : Store) (id : String) : Except StoreError Store :=
  match s.environments.get? id with
  | some _ => .ok { s with environments := s.environments.erase id }
  | none => .error (.notFound .environment)

/-- Changes the flags of the listed environments that exist, and counts these. -/
def writeFlags (change : FlagMap → FlagMap) (now : Nat → Timestamp) :
    List String → Nat → SortedMap Environment → Nat × SortedMap Environment
  | [], written, environments => (written, environments)
  | id :: rest, written, environments =>
    match environments.get? id with
    | none => writeFlags change now rest written environments
    | some e =>
      let e := { e with flags := change e.flags, updatedAt := now written }
      writeFlags change now rest (written + 1) (environments.insert id e)

/-- Changes the flags of every listed environment that exists. -/
def updateEnvironmentFlags (s : Store) (ids : List String) (change : FlagMap → FlagMap)
    (now : Nat → Timestamp) : Except StoreError (Nat × Store) :=
  if s.environmentWritesFail then .error switchedOff
  else
    let (written, environments) := writeFlags change now ids 0 s.environments
    .ok (written, { s with environments })

/-- Sets a flag on every listed environment that exists, whether it had it or not. -/
def setEnvironmentsFlag (s : Store) (ids : List String) (flag : String) (rule : FlagRule)
    (now : Nat → Timestamp) : Except StoreError (Nat × Store) :=
  s.updateEnvironmentFlags ids (·.insert flag rule) now

/-- Removes a flag from every listed environment that exists. -/
def unsetEnvironmentsFlag (s : Store) (ids : List String) (flag : String)
    (now : Nat → Timestamp) : Except StoreError (Nat × Store) :=
  s.updateEnvironmentFlags ids (·.erase flag) now

/-- Patches a flag that the environment must have, and returns the new rule. -/
def patchEnvironmentFlag (s : Store) (id flag : String) (patch : FlagPatch) (now : Timestamp) :
    Except StoreError (FlagRule × Store) :=
  s.updateEnvironment id fun e =>
    match e.flags.get? flag with
    | none => .error (.notFound .flag)
    | some rule =>
      let rule := patch.apply rule
      .ok (rule, { e with flags := e.flags.insert flag rule, updatedAt := now })

/-- Removes a flag, if the environment has it. -/
def removeEnvironmentFlag (s : Store) (id flag : String) (now : Timestamp) :
    Except StoreError Store :=
  (s.updateEnvironment id fun e =>
    .ok ((), { e with flags := e.flags.erase flag, updatedAt := now })).map (·.2)

def insertApiKey (s : Store) (id : String) (scope : KeyScope) (key : String)
    (descriptor : KeyDescriptor) (now : Timestamp) : Except StoreError Store :=
  (s.updateEnvironment id fun e =>
    let e := e.withKeys scope ((e.keys scope).insert key descriptor)
    .ok ((), { e with updatedAt := now })).map (·.2)

/-- Deletes a key, if the environment has it. -/
def deleteApiKey (s : Store) (id : String) (scope : KeyScope) (key : String) (now : Timestamp) :
    Except StoreError Store :=
  (s.updateEnvironment id fun e =>
    let e := e.withKeys scope ((e.keys scope).erase key)
    .ok ((), { e with updatedAt := now })).map (·.2)

/-- The number of environments. -/
def environmentCount (s : Store) : Nat := s.environments.size

end Store

end FeatureFlags

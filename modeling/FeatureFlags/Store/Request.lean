import FeatureFlags.Store.Basic

/-!
Requests to a store, as data.

A request names an operation and its arguments, `Request.Reply` is the type of what the operation
returns, and `Store.perform` carries a request out.
-/

namespace FeatureFlags

namespace Store

/-- A request to a store. -/
inductive Request where
  | ping
  | listProjects (offset limit : Nat)
  | insertProject (project : Project)
  | getProject (name : String)
  | deleteProject (name : String)
  | attachEnvironment (project id : String)
  | detachEnvironment (id : String)
  | insertProjectFlag (project flag : String) (rule : FlagRule)
  | patchProjectFlag (project flag : String) (patch : FlagPatch)
  | removeProjectFlag (project flag : String)
  | insertEnvironment (environment : Environment)
  | getEnvironment (id : String)
  | renameEnvironment (id name : String)
  | deleteEnvironment (id : String)
  | setEnvironmentsFlag (ids : List String) (flag : String) (rule : FlagRule)
  | unsetEnvironmentsFlag (ids : List String) (flag : String)
  | patchEnvironmentFlag (id flag : String) (patch : FlagPatch)
  | removeEnvironmentFlag (id flag : String)
  | insertApiKey (id : String) (scope : KeyScope) (key : String) (descriptor : KeyDescriptor)
  | deleteApiKey (id : String) (scope : KeyScope) (key : String)

/-- The operations of a store, without their arguments. -/
inductive Method where
  | ping
  | listProjects
  | insertProject
  | getProject
  | deleteProject
  | attachEnvironment
  | detachEnvironment
  | insertProjectFlag
  | patchProjectFlag
  | removeProjectFlag
  | insertEnvironment
  | getEnvironment
  | renameEnvironment
  | deleteEnvironment
  | setEnvironmentsFlag
  | unsetEnvironmentsFlag
  | patchEnvironmentFlag
  | removeEnvironmentFlag
  | insertApiKey
  | deleteApiKey
deriving DecidableEq

namespace Request

/-- The operation that a request names. -/
def method : Request → Method
  | ping => .ping
  | listProjects .. => .listProjects
  | insertProject .. => .insertProject
  | getProject .. => .getProject
  | deleteProject .. => .deleteProject
  | attachEnvironment .. => .attachEnvironment
  | detachEnvironment .. => .detachEnvironment
  | insertProjectFlag .. => .insertProjectFlag
  | patchProjectFlag .. => .patchProjectFlag
  | removeProjectFlag .. => .removeProjectFlag
  | insertEnvironment .. => .insertEnvironment
  | getEnvironment .. => .getEnvironment
  | renameEnvironment .. => .renameEnvironment
  | deleteEnvironment .. => .deleteEnvironment
  | setEnvironmentsFlag .. => .setEnvironmentsFlag
  | unsetEnvironmentsFlag .. => .unsetEnvironmentsFlag
  | patchEnvironmentFlag .. => .patchEnvironmentFlag
  | removeEnvironmentFlag .. => .removeEnvironmentFlag
  | insertApiKey .. => .insertApiKey
  | deleteApiKey .. => .deleteApiKey

/-- What a successful request returns. -/
def Reply : Request → Type
  | listProjects .. => List Project
  | getProject .. | deleteProject .. => Project
  | getEnvironment .. | renameEnvironment .. => Environment
  | insertProjectFlag .. | removeProjectFlag .. => List String
  | patchProjectFlag .. | patchEnvironmentFlag .. => FlagRule
  | detachEnvironment .. | setEnvironmentsFlag .. | unsetEnvironmentsFlag .. => Nat
  | ping | insertProject .. | attachEnvironment .. | insertEnvironment .. | deleteEnvironment ..
  | removeEnvironmentFlag .. | insertApiKey .. | deleteApiKey .. => Unit

end Request

/-- A result that leaves the store as it is. -/
def unchanged {α : Type} (s : Store) (result : Except StoreError α) :
    Except StoreError (α × Store) :=
  result.map (·, s)

/-- A new store and nothing else. -/
def silent (result : Except StoreError Store) : Except StoreError (Unit × Store) :=
  result.map ((), ·)

/-- Carries a request out, with the clock readings that it takes. -/
def perform (now : Nat → Timestamp) (s : Store) :
    (request : Request) → Except StoreError (request.Reply × Store)
  | .ping => s.unchanged (.ok ())
  | .listProjects offset limit => s.unchanged (.ok (s.listProjects offset limit))
  | .insertProject project => silent (s.insertProject project)
  | .getProject name => s.unchanged (s.getProject name)
  | .deleteProject name => s.deleteProject name
  | .attachEnvironment project id => silent (s.attachEnvironment project id (now 0))
  | .detachEnvironment id => s.detachEnvironment id now
  | .insertProjectFlag project flag rule => s.insertProjectFlag project flag rule (now 0)
  | .patchProjectFlag project flag patch => s.patchProjectFlag project flag patch (now 0)
  | .removeProjectFlag project flag => s.removeProjectFlag project flag (now 0)
  | .insertEnvironment environment => silent (s.insertEnvironment environment)
  | .getEnvironment id => s.unchanged (s.getEnvironment id)
  | .renameEnvironment id name => s.renameEnvironment id name (now 0)
  | .deleteEnvironment id => silent (s.deleteEnvironment id)
  | .setEnvironmentsFlag ids flag rule => s.setEnvironmentsFlag ids flag rule now
  | .unsetEnvironmentsFlag ids flag => s.unsetEnvironmentsFlag ids flag now
  | .patchEnvironmentFlag id flag patch => s.patchEnvironmentFlag id flag patch (now 0)
  | .removeEnvironmentFlag id flag => silent (s.removeEnvironmentFlag id flag (now 0))
  | .insertApiKey id scope key descriptor =>
    silent (s.insertApiKey id scope key descriptor (now 0))
  | .deleteApiKey id scope key => silent (s.deleteApiKey id scope key (now 0))

end Store

end FeatureFlags

import Mathlib.Data.List.Induction
import FeatureFlags.Proofs.Outcome

/-!
Runs of commands, one after another, and what their history says.

A run starts with a new service.  It carries out commands, each to its end, and in between turns the
two switches that make the store fail.  The journal keeps, for each command, the store that it found
and how it ended.

What a history says of an environment, of a project and of the owner of an environment are three
replays.  Each is a fold over the entries, with a table that says what one entry means: an entry
counts only if the command ended in a certain way, and all commands that are not in the table change
nothing.
-/

namespace FeatureFlags

/-- A part of a run: a command that is carried out to its end, or a switch that is turned. -/
inductive Act where
  | command (command : Command)
  | failEnvironmentWrites (fail : Bool)
  | failProjectLinks (fail : Bool)

/-- A command that has ended, with the store that it found. -/
structure Entry where
  before : Store
  command : Command
  outcome : Except ApiError command.Result

/-- A service, and the commands that it has carried out, the latest first. -/
structure Journal where
  service : ServiceState
  entries : List Entry

namespace Journal

/-- A new service, before its first command. -/
def fresh : Journal := ⟨.fresh, []⟩

variable (supply : Supply)

/-- Goes on with one act. -/
def act (j : Journal) : Act → Journal
  | .command command =>
    let ended := command.program.run supply j.service
    ⟨ended.2, ⟨j.service.store, command, ended.1⟩ :: j.entries⟩
  | .failEnvironmentWrites fail => { j with service.store.environmentWritesFail := fail }
  | .failProjectLinks fail => { j with service.store.projectLinksFail := fail }

/-- The journal of a run from a new service. -/
def run (acts : List Act) : Journal := acts.foldl (act supply) fresh

theorem run_concat (acts : List Act) (a : Act) :
    run supply (acts ++ [a]) = (run supply acts).act supply a := by
  rw [run, List.foldl_append]
  rfl

theorem faults_run (acts : List Act) : (run supply acts).service.faults = [] := by
  induction acts using List.reverseRecOn with
  | nil => rfl
  | append_singleton acts a ih =>
    rw [run_concat]
    cases a with
    | command command => exact (Program.run_faults supply _ _).trans ih
    | failEnvironmentWrites fail => exact ih
    | failProjectLinks fail => exact ih

/-- What holds of a new service, and is kept by commands and by turns of the switches, holds at
every point of a run. -/
@[elab_as_elim]
theorem run_induction {motive : Journal → Prop} (new : motive fresh)
    (command : ∀ (j : Journal) (command : Command) (outcome : Except ApiError command.Result)
      (p' : ServiceState), motive j → j.service.faults = [] →
      command.program.run supply j.service = (outcome, p') →
      motive ⟨p', ⟨j.service.store, command, outcome⟩ :: j.entries⟩)
    (switch : ∀ (j : Journal) (s : Store), motive j → s.projects = j.service.store.projects →
      s.environments = j.service.store.environments → motive { j with service.store := s })
    (acts : List Act) : motive (run supply acts) := by
  induction acts using List.reverseRecOn with
  | nil => exact new
  | append_singleton acts a ih =>
    rw [run_concat]
    cases a with
    | command c => exact command _ c _ _ ih (faults_run supply acts) rfl
    | failEnvironmentWrites fail => exact switch _ _ ih rfl rfl
    | failProjectLinks fail => exact switch _ _ ih rfl rfl

end Journal

/-! ### What an entry means -/

namespace Command

/-- What a command that has ended means for the flags of an environment: it starts with the flags of
its project, follows the flags that are written to a project that lists it, and its own. -/
def environmentEffect (before : Store) (id : String) (flags : Option FlagMap) :
    (command : Command) → Except ApiError command.Result → Option FlagMap
  | .createEnvironment project _, .ok (environment : Environment) =>
    if id = environment.id then before.projectFlags project else flags
  | .addFlag project flag, .ok _ =>
    if before.Lists project id then flags.map (·.assign flag.name (some flag.rule)) else flags
  | .removeFlag project flag, .ok _ =>
    if before.Lists project id then flags.map (·.assign flag none) else flags
  | .resyncFlag project flag, .ok _ =>
    if before.Lists project id then
      flags.map (·.assign flag (before.projectFlag project flag))
    else flags
  | .patchEnvironmentFlag target flag patch, .ok _ =>
    if id = target then flags.map fun m => m.assign flag ((m.get? flag).map patch.apply) else flags
  | .removeEnvironmentFlag target flag, .ok _ =>
    if id = target then flags.map (·.assign flag none) else flags
  | .deleteEnvironment target, .ok _ => if id = target then none else flags
  | _, _ => flags

/-- What a command that has ended means for the flags of a project.  A flag whose cascade failed has
been written to the project all the same. -/
def projectEffect (name : String) (flags : Option FlagMap) :
    (command : Command) → Except ApiError command.Result → Option FlagMap
  | .createProject project, .ok _ => if name = project then some .empty else flags
  | .deleteProject project, .ok _ => if name = project then none else flags
  | .addFlag project flag, .ok _ | .addFlag project flag, .error (.partialCascade _) =>
    if name = project then flags.map (·.assign flag.name (some flag.rule)) else flags
  | .patchFlag project flag patch, .ok _ =>
    if name = project then flags.map fun m => m.assign flag ((m.get? flag).map patch.apply)
    else flags
  | .removeFlag project flag, .ok _ | .removeFlag project flag, .error (.partialCascade _) =>
    if name = project then flags.map (·.assign flag none) else flags
  | _, _ => flags

/-- What a command that has ended means for the ids that a project lists.  An environment that was
deleted while links could not be written stays listed. -/
def linksEffect (before : Store) (name : String) (links : Option (List String)) :
    (command : Command) → Except ApiError command.Result → Option (List String)
  | .createProject project, .ok _ => if name = project then some [] else links
  | .deleteProject project, .ok _ => if name = project then none else links
  | .createEnvironment project _, .ok (environment : Environment) =>
    if name = project then
      links.map fun ids => if environment.id ∈ ids then ids else ids ++ [environment.id]
    else links
  | .deleteEnvironment target, .ok _ =>
    if before.projectLinksFail then links else links.map (·.filter (· ≠ target))
  | _, _ => links

/-- What a command that has ended means for the owner of an environment: the project that it was
created in, until that project is deleted. -/
def ownerEffect (id : String) (owner : Option String) :
    (command : Command) → Except ApiError command.Result → Option String
  | .createEnvironment project _, .ok (environment : Environment) =>
    if id = environment.id then some project else owner
  | .deleteProject project, .ok _ => if owner = some project then none else owner
  | _, _ => owner

end Command

/-! ### Replays -/

namespace Journal

/-- The flags of an environment, if it exists, as its history has them. -/
def environmentReplay (id : String) : List Entry → Option FlagMap
  | [] => none
  | entry :: earlier =>
    entry.command.environmentEffect entry.before id (environmentReplay id earlier) entry.outcome

/-- The flags of a project, if it exists, as its history has them. -/
def projectReplay (name : String) : List Entry → Option FlagMap
  | [] => none
  | entry :: earlier =>
    entry.command.projectEffect name (projectReplay name earlier) entry.outcome

/-- The project that an environment was created in, unless it has been deleted since. -/
def ownerReplay (id : String) : List Entry → Option String
  | [] => none
  | entry :: earlier => entry.command.ownerEffect id (ownerReplay id earlier) entry.outcome

end Journal

end FeatureFlags

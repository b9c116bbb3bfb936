import FeatureFlags.Proofs.Outcome
import FeatureFlags.Proofs.Store.Parts

/-!
What a command leaves alone.

A command is addressed to one project or to one environment.  Tables say to which, which part of a
project and which part of an environment it can change, and which flag it sends to the environments
of a project.  Four things can have become of a project and of an environment: it was kept, changed
in the part of the command, created or deleted (`ProjectFate`, `EnvironmentFate`).  Every command
leaves each document to one of these (`Command.Ends.project_fate`, `Command.Ends.environment_fate`),
and the frame conditions of `Command.Isolated` are read off them.
-/

namespace FeatureFlags

open Store

namespace Command

/-! ### Addresses -/

/-- The project that a command is addressed to. -/
def project? : Command → Option String
  | createProject name | getProject name | deleteProject name => some name
  | addFlag project _ | patchFlag project .. | removeFlag project _ | resyncFlag project _
  | createEnvironment project _ => some project
  | _ => none

/-- The environment that a command is addressed to. -/
def environment? : Command → Option String
  | getEnvironment id | renameEnvironment id _ | deleteEnvironment id
  | patchEnvironmentFlag id .. | removeEnvironmentFlag id _ | createKey _ id _
  | deleteKey _ id _ => some id
  | _ => none

/-- The project and the flag of a command that sends a flag to the environments of a project. -/
def cascade? : Command → Option (String × String)
  | addFlag project flag => some (project, flag.name)
  | removeFlag project flag | resyncFlag project flag => some (project, flag)
  | _ => none

/-- What a command can change in a project. -/
def projectPart : (command : Command) → Except ApiError command.Result → Option Project.Part
  | addFlag _ flag, _ => some (.flag flag.name)
  | patchFlag _ flag _, _ | removeFlag _ flag, _ => some (.flag flag)
  | createEnvironment .., .ok (environment : Environment) => some (.link environment.id)
  | deleteEnvironment id, _ => some (.link id)
  | _, _ => none

/-- What a command can change in an environment. -/
def environmentPart :
    (command : Command) → Except ApiError command.Result → Option Environment.Part
  | addFlag _ flag, _ => some (.flag flag.name)
  | removeFlag _ flag, _ | resyncFlag _ flag, _ | patchEnvironmentFlag _ flag _, _
  | removeEnvironmentFlag _ flag, _ => some (.flag flag)
  | renameEnvironment .., _ => some .name
  | createKey scope _ _, .ok (key : ApiKey) => some (.key scope key.key)
  | deleteKey scope _ key, _ => some (.key scope key)
  | _, _ => none

end Command

/-! ### Fates -/

variable {supply : Supply} {m n : Nat} {command : Command}
  {outcome : Except ApiError command.Result} {s s' : Store}

/-- What has become of the project of a name. -/
inductive ProjectFate (command : Command) (outcome : Except ApiError command.Result)
    (name : String) : Option Project → Option Project → Prop where
  | kept (project : Option Project) : ProjectFate command outcome name project project
  | changed {part : Project.Part} {project project' : Project}
      (haddressed : command.project? = some name ∨ ∃ id, command = .deleteEnvironment id)
      (hpart : command.projectPart outcome = some part)
      (hagrees : project.AgreesBut part project') :
      ProjectFate command outcome name (some project) (some project')
  | created {project : Project} (hcommand : command = .createProject name)
      (hname : project.name = name) : ProjectFate command outcome name none (some project)
  | deleted {project : Project} (hcommand : command = .deleteProject name) :
      ProjectFate command outcome name (some project) none

/-- What has become of the environment of an id. -/
inductive EnvironmentFate (command : Command) (outcome : Except ApiError command.Result)
    (s : Store) (id : String) : Option Environment → Option Environment → Prop where
  | kept (e : Option Environment) : EnvironmentFate command outcome s id e e
  | changed {part : Environment.Part} {e e' : Environment}
      (haddressed : command.environment? = some id ∨
        ∃ project flag, command.cascade? = some (project, flag) ∧ s.Lists project id)
      (hpart : command.environmentPart outcome = some part) (hagrees : e.AgreesBut part e') :
      EnvironmentFate command outcome s id (some e) (some e')
  | created {project name : String} {e : Environment}
      (hcommand : command = .createEnvironment project name) (hid : e.id = id) :
      EnvironmentFate command outcome s id none (some e)
  | deleted {e : Environment} (hcommand : command = .deleteEnvironment id) :
      EnvironmentFate command outcome s id (some e) none

/-- One project is replaced by one that agrees with it but for the part of the command. -/
theorem ProjectFate.replaced {part : Project.Part} {projects : SortedMap Project} {key : String}
    {project project' : Project} (hp : projects.get? key = some project)
    (haddressed : command.project? = some key) (hpart : command.projectPart outcome = some part)
    (hagrees : project.AgreesBut part project') (name : String) :
    ProjectFate command outcome name (projects.get? name)
      ((projects.insert key project').get? name) := by
  rw [SortedMap.get?_insert]
  split
  case isTrue hname =>
    rw [hname, hp]
    exact .changed (.inl haddressed) hpart hagrees
  case isFalse => exact .kept _

/-- One environment is replaced by one that agrees with it but for the part of the command. -/
theorem EnvironmentFate.replaced {part : Environment.Part} {key : String} {e e' : Environment}
    (he : s.environments.get? key = some e) (haddressed : command.environment? = some key)
    (hpart : command.environmentPart outcome = some part) (hagrees : e.AgreesBut part e')
    (id : String) :
    EnvironmentFate command outcome s id (s.environments.get? id)
      ((s.environments.insert key e').get? id) := by
  rw [SortedMap.get?_insert]
  split
  case isTrue hid =>
    rw [hid, he]
    exact .changed (.inl haddressed) hpart hagrees
  case isFalse => exact .kept _

/-- One environment is deleted. -/
theorem EnvironmentFate.erased {target : String} {outcome : Except ApiError Unit}
    (hexists : s.environments.contains target = true) (id : String) :
    EnvironmentFate (.deleteEnvironment target) outcome s id (s.environments.get? id)
      ((s.environments.erase target).get? id) := by
  rw [SortedMap.get?_erase]
  split
  case isTrue hid =>
    obtain ⟨e, he⟩ := Option.isSome_iff_exists.1 hexists
    rw [hid, he]
    exact .deleted rfl
  case isFalse => exact .kept _

/-- A cascade reaches the environments that the project lists. -/
theorem EnvironmentFate.cascaded {clock : Timestamp → Prop} {project flag : String}
    {rule : Option FlagRule} {found : Project} {written : Nat} {before : Store}
    (hcascade : command.cascade? = some (project, flag))
    (hpart : command.environmentPart outcome = some (.flag flag))
    (hp : s.projects.get? project = some found)
    (h : Cascaded clock found.environmentIds flag rule before s' written)
    (hbefore : before.environments = s.environments) (id : String) :
    EnvironmentFate command outcome s id (s.environments.get? id) (s'.environments.get? id) := by
  by_cases hid : id ∈ found.environmentIds
  · obtain ⟨time, -, he'⟩ := h.listed id hid
    rw [he', hbefore]
    cases s.environments.get? id with
    | none =>
      -- a listed id without an environment stays without one
      exact .kept none
    | some e =>
      exact .changed (.inr ⟨project, flag, hcascade, (lists_iff hp).2 hid⟩) hpart
        (e.agreesBut_assign flag rule time)
  · rw [h.unlisted id hid, hbefore]
    exact .kept _

namespace Command

/-- A command changes the projects that it is addressed to, in its part, and no other. -/
theorem Ends.project_fate (h : Ends supply m n command outcome s s') (name : String) :
    ProjectFate command outcome name (s.projects.get? name) (s'.projects.get? name) := by
  cases h with
  | failed | listProjects | getProject | getEnvironment | resyncFlagPartly
  | deleteEnvironmentAlone | renameEnvironment | patchEnvironmentFlag | removeEnvironmentFlag
  | createKey | deleteKey => exact .kept _
  | createProject hid htime habsent =>
    rw [SortedMap.get?_insert]
    split
    case isTrue hname =>
      rw [hname, habsent]
      exact .created rfl rfl
    case isFalse => exact .kept _
  | deleteProject hp =>
    rw [SortedMap.get?_erase]
    split
    case isTrue hname =>
      rw [hname, hp]
      exact .deleted rfl
    case isFalse => exact .kept _
  | @addFlag _ flag found time _ _ _ hp htime hcascade =>
    rw [hcascade.projects]
    exact .replaced hp.1 rfl rfl (found.agreesBut_assign flag.name (some flag.rule) time) name
  | @addFlagPartly _ flag found time _ hp =>
    exact .replaced hp.1 rfl rfl (found.agreesBut_assign flag.name (some flag.rule) time) name
  | @removeFlag _ flag found time _ _ _ hp htime hcascade =>
    rw [hcascade.projects]
    exact .replaced hp.1 rfl rfl (found.agreesBut_assign flag none time) name
  | @removeFlagPartly _ flag found time _ hp =>
    exact .replaced hp.1 rfl rfl (found.agreesBut_assign flag none time) name
  | @patchFlag _ flag patch found rule time _ hp =>
    exact .replaced hp rfl rfl (found.agreesBut_assign flag (some (patch.apply rule)) time) name
  | resyncFlag hp hcascade =>
    rw [hcascade.projects]
    exact .kept _
  | @createEnvironment _ _ id found _ time _ hp =>
    exact .replaced hp rfl rfl (found.agreesBut_enlist id time) name
  | @deleteEnvironment id _ _ hid hlinks hdetached =>
    obtain ⟨time, -, hp'⟩ := hdetached.projects name
    rw [hp']
    show ProjectFate _ _ name (s.projects.get? name) ((s.projects.get? name).map _)
    cases s.projects.get? name with
    | none => exact .kept none
    | some found => exact .changed (.inr ⟨id, rfl⟩) rfl (found.agreesBut_detach id time)

/-- A command changes the environment that it is addressed to, or those that its cascade reaches, in
its part, and no other. -/
theorem Ends.environment_fate (h : Ends supply m n command outcome s s') (id : String) :
    EnvironmentFate command outcome s id (s.environments.get? id)
      (s'.environments.get? id) := by
  cases h with
  | failed | listProjects | getProject | getEnvironment | createProject | deleteProject
  | addFlagPartly | removeFlagPartly | patchFlag | resyncFlagPartly => exact .kept _
  | addFlag hp htime hcascade => exact .cascaded rfl rfl hp.1 hcascade rfl id
  | removeFlag hp htime hcascade => exact .cascaded rfl rfl hp.1 hcascade rfl id
  | resyncFlag hp hcascade => exact .cascaded rfl rfl hp hcascade rfl id
  | createEnvironment hp hid hcreated htime habsent =>
    -- the id was free, so the new environment takes no other one's place
    rw [SortedMap.get?_insert]
    split
    case isTrue hid =>
      rw [hid, habsent]
      exact .created rfl rfl
    case isFalse => exact .kept _
  | deleteEnvironment hid hlinks hdetached =>
    rw [hdetached.frame]
    exact .erased hid id
  | deleteEnvironmentAlone hid => exact .erased hid id
  | @renameEnvironment _ name e time _ he =>
    exact .replaced he rfl rfl (e.agreesBut_rename name time) id
  | @patchEnvironmentFlag _ flag patch e rule time _ he =>
    exact .replaced he rfl rfl (e.agreesBut_assign flag (some (patch.apply rule)) time) id
  | @removeEnvironmentFlag _ flag e time _ he =>
    exact .replaced he rfl rfl (e.agreesBut_assign flag none time) id
  | @createKey scope _ name key e created time _ he =>
    exact .replaced he rfl rfl (e.agreesBut_insertKey scope key ⟨name, created⟩ time) id
  | @deleteKey scope _ key e time _ he =>
    exact .replaced he rfl rfl (e.agreesBut_eraseKey scope key time) id

/-! ### Frame conditions -/

/-- What a command leaves alone, and the parts that it changes. -/
structure Isolated (command : Command) (outcome : Except ApiError command.Result)
    (s s' : Store) : Prop where
  /-- A command to a project leaves the other projects exactly as they are. -/
  otherProjects : ∀ project, command.project? = some project →
    ∀ name, name ≠ project → s'.projects.get? name = s.projects.get? name
  /-- It also leaves the environments that the project does not list. -/
  unlisted : ∀ project, command.project? = some project →
    ∀ id, s.environments.contains id = true → ¬ s.Lists project id →
      s'.environments.get? id = s.environments.get? id
  /-- If it sends no flag to environments, as when it creates an environment or deletes the project,
  it leaves every environment that exists. -/
  existing : ∀ project, command.project? = some project → command.cascade? = none →
    ∀ id, s.environments.contains id = true → s'.environments.get? id = s.environments.get? id
  /-- A command to an environment leaves the other environments. -/
  otherEnvironments : ∀ target, command.environment? = some target →
    ∀ id, id ≠ target → s'.environments.get? id = s.environments.get? id
  /-- It also leaves the projects, unless it deletes the environment. -/
  projects : ∀ target, command.environment? = some target →
    command ≠ .deleteEnvironment target → s'.projects = s.projects
  /-- Then it takes the id out of what the projects list, and changes nothing else in them.  It
  leaves them as they are only if links cannot be written or nothing was deleted. -/
  unlinked : ∀ target, command = .deleteEnvironment target →
    (∀ name, ∃ time,
      s'.projects.get? name = (s.projects.get? name).map (·.detach target time)) ∨
    s'.projects = s.projects ∧ (s.projectLinksFail = true ∨ s'.environments = s.environments)
  /-- A project that is changed agrees with what it was but for the part that is addressed. -/
  projectPart : ∀ name project project', s.projects.get? name = some project →
    s'.projects.get? name = some project' → project' = project ∨
      ∃ part, command.projectPart outcome = some part ∧ project.AgreesBut part project'
  /-- So does an environment. -/
  environmentPart : ∀ id e e', s.environments.get? id = some e →
    s'.environments.get? id = some e' → e' = e ∨
      ∃ part, command.environmentPart outcome = some part ∧ e.AgreesBut part e'
  /-- Only the creation of an environment makes one exist, and no cascade does. -/
  created : ∀ id, s.environments.contains id = false → s'.environments.contains id = true →
    ∃ project name, command = .createEnvironment project name
  /-- Only its deletion ends one. -/
  deleted : ∀ id, s.environments.contains id = true → s'.environments.contains id = false →
    command = .deleteEnvironment id

/-- A command is addressed to a project or to an environment. -/
theorem environment?_of_project? {project : String} (h : command.project? = some project) :
    command.environment? = none := by
  cases command <;> first | rfl | cases h

theorem cascade?_of_environment? {target : String} (h : command.environment? = some target) :
    command.cascade? = none := by
  cases command <;> first | rfl | cases h

theorem project?_of_cascade? {project flag : String} (h : command.cascade? = some (project, flag)) :
    command.project? = some project := by
  cases command with
  | addFlag | removeFlag | resyncFlag =>
    obtain ⟨rfl, rfl⟩ := Prod.mk.inj (Option.some.inj h)
    rfl
  | _ => cases h

namespace Ends

/-- An environment is left alone unless it is addressed, itself or by a cascade, or created. -/
theorem environment_kept (h : Ends supply m n command outcome s s') {id : String}
    (haddress : command.environment? ≠ some id)
    (hcascade : ∀ project flag, command.cascade? = some (project, flag) → ¬ s.Lists project id)
    (hcreate : s.environments.contains id = true ∨
      ∀ project name, command ≠ .createEnvironment project name) :
    s'.environments.get? id = s.environments.get? id := by
  have hfate := h.environment_fate id
  rw [SortedMap.contains] at hcreate
  generalize s.environments.get? id = before, s'.environments.get? id = after at hfate hcreate
  cases hfate with
  | kept => rfl
  | changed haddressed =>
    obtain haddressed | ⟨project, flag, hsome, hlists⟩ := haddressed
    · exact absurd haddressed haddress
    · exact absurd hlists (hcascade project flag hsome)
  | created hcommand =>
    obtain hexists | hcreate := hcreate
    · cases hexists
    · exact absurd hcommand (hcreate _ _)
  | deleted hcommand =>
    subst hcommand
    exact absurd rfl haddress

/-- A project is left alone unless it is addressed, or an environment is deleted. -/
theorem project_kept (h : Ends supply m n command outcome s s') {name : String}
    (haddress : command.project? ≠ some name) (hdelete : ∀ id, command ≠ .deleteEnvironment id) :
    s'.projects.get? name = s.projects.get? name := by
  have hfate := h.project_fate name
  generalize s.projects.get? name = before, s'.projects.get? name = after at hfate
  cases hfate with
  | kept => rfl
  | changed haddressed =>
    obtain haddressed | ⟨id, hcommand⟩ := haddressed
    · exact absurd haddressed haddress
    · exact absurd hcommand (hdelete id)
  | created hcommand | deleted hcommand =>
    subst hcommand
    exact absurd rfl haddress

theorem isolated (h : Ends supply m n command outcome s s') :
    Isolated command outcome s s' where
  otherProjects project hproject name hne := by
    refine h.project_kept (fun hname => hne ?_) ?_
    · exact Option.some.inj (hname.symm.trans hproject)
    · rintro id rfl
      cases hproject
  unlisted project hproject id hexists hlists := by
    refine h.environment_kept ?_ ?_ (.inl hexists)
    · rw [environment?_of_project? hproject]
      simp
    · -- the project that a cascade goes out from is the one that is addressed
      intro other flag hcascade
      rwa [Option.some.inj ((project?_of_cascade? hcascade).symm.trans hproject)]
  existing project hproject hcascade id hexists := by
    refine h.environment_kept ?_ ?_ (.inl hexists)
    · rw [environment?_of_project? hproject]
      simp
    · rw [hcascade]
      simp
  otherEnvironments target htarget id hne := by
    refine h.environment_kept (fun hid => hne ?_) ?_ (.inr ?_)
    · exact Option.some.inj (hid.symm.trans htarget)
    · rw [cascade?_of_environment? htarget]
      simp
    · rintro project name rfl
      cases htarget
  projects target htarget hdelete := by
    refine SortedMap.ext fun name => h.project_kept ?_ ?_
    · intro hproject
      cases htarget.symm.trans (environment?_of_project? hproject)
    · rintro id rfl
      exact hdelete (congrArg Command.deleteEnvironment (Option.some.inj htarget))
  unlinked target htarget := by
    subst htarget
    cases h with
    | failed => exact .inr ⟨rfl, .inr rfl⟩
    | deleteEnvironmentAlone hid hlinks => exact .inr ⟨rfl, .inl hlinks⟩
    | deleteEnvironment hid hlinks hdetached =>
      refine .inl fun name => ?_
      obtain ⟨time, -, hp⟩ := hdetached.projects name
      exact ⟨time, hp⟩
  projectPart name project project' hp hp' := by
    have hfate := h.project_fate name
    rw [hp, hp'] at hfate
    cases hfate with
    | kept => exact .inl rfl
    | changed haddressed hpart hagrees => exact .inr ⟨_, hpart, hagrees⟩
  environmentPart id e e' he he' := by
    have hfate := h.environment_fate id
    rw [he, he'] at hfate
    cases hfate with
    | kept => exact .inl rfl
    | changed haddressed hpart hagrees => exact .inr ⟨_, hpart, hagrees⟩
  created id habsent hexists := by
    have hfate := h.environment_fate id
    obtain ⟨e, he⟩ := Option.isSome_iff_exists.1 hexists
    rw [SortedMap.contains_eq_false_iff.1 habsent, he] at hfate
    cases hfate with
    | created hcommand => exact ⟨_, _, hcommand⟩
  deleted id hexists habsent := by
    have hfate := h.environment_fate id
    obtain ⟨e, he⟩ := Option.isSome_iff_exists.1 hexists
    rw [SortedMap.contains_eq_false_iff.1 habsent, he] at hfate
    cases hfate with
    | deleted hcommand => exact hcommand

end Ends

/-- **Isolation**: whatever the store, a command leaves alone what it is not addressed to. -/
theorem isolated_run {p p' : ServiceState} (hfaults : p.faults = [])
    (hrun : command.program.run supply p = (outcome, p')) :
    command.Isolated outcome p.store p'.store :=
  (ends_run hfaults hrun).isolated

/-- A flag that is sent to the environments of a project. -/
theorem isolated_run_addFlag :
    let command : Command := .addFlag "shop" ⟨"dark", default⟩
    let ended := command.program.run Supply.counting .shopTest
    ServiceState.shopTest.faults = [] ∧
      (ended.2.store.environments.get? "iiiii").map (·.flags.keys) = some ["dark"] ∧
      command.Isolated ended.1 ServiceState.shopTest.store ended.2.store := by
  have hfaults : ServiceState.shopTest.faults = [] := by decide +kernel
  exact ⟨hfaults, by decide +kernel, isolated_run hfaults rfl⟩

end Command

end FeatureFlags

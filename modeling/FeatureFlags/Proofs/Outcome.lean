import FeatureFlags.Proofs.Running

/-!
How commands end.

`Command.Ends` has one case for each way in which a command can end: with the store that it found,
what it returned or why it failed, and the store that it left.  Two commands have an end in between.
A flag that is written to a project may not reach the environments of the project, and then the
caller is told so; an environment that is deleted may stay listed, and then the caller is not.
Every other failure leaves the store as it was (`Command.Ends.failed`).

Every run of a command is one of the cases (`Command.ends_run`), if nothing but the two switches
makes the store fail.  The modules that follow look at the cases, and not at the programs.
-/

namespace FeatureFlags

open Store

variable {α : Type} (supply : Supply) (p : ServiceState)

theorem ofStore_ne_partialCascade (e : StoreError) (flag : String) :
    ApiError.ofStore e ≠ .partialCascade flag := by
  cases e with
  | database e => cases e <;> intro h <;> cases h
  | _ => intro h; cases h

theorem Supply.reads_step {m n k index : Nat} (hm : m ≤ k) (hn : k < n) :
    supply.Reads m n (supply.reading k index) := ⟨k, index, hm, hn, rfl⟩

theorem Supply.names_step {m n k : Nat} (hm : m ≤ k) (hn : k < n) :
    supply.Names m n (supply.id k) := ⟨k, hm, hn, rfl⟩

theorem Supply.keys_step {m n k : Nat} (hm : m ≤ k) (hn : k < n) :
    supply.Keys m n (supply.key k) := ⟨k, hm, hn, rfl⟩

/-! ### The cases -/

/-- How a command ends that takes the steps from `m` up to `n`. -/
inductive Command.Ends (supply : Supply) (m n : Nat) :
    (command : Command) → Except ApiError command.Result → Store → Store → Prop where
  | failed {command : Command} {e : ApiError} {s : Store}
      (he : ∀ flag, e ≠ .partialCascade flag) : Ends supply m n command (.error e) s s
  | listProjects {offset limit : Nat} {s : Store} :
      Ends supply m n (.listProjects offset limit) (.ok (s.listProjects offset limit)) s s
  | getProject {name : String} {found : Project} {s : Store}
      (hp : s.projects.get? name = some found) :
      Ends supply m n (.getProject name) (.ok found) s s
  | getEnvironment {id : String} {e : Environment} {s : Store}
      (he : s.environments.get? id = some e) : Ends supply m n (.getEnvironment id) (.ok e) s s
  | createProject {name id : String} {time : Timestamp} {s : Store}
      (hid : supply.Names m n id) (htime : supply.Reads m n time)
      (habsent : s.projects.get? name = none) :
      Ends supply m n (.createProject name) (.ok (Project.new id name time)) s
        { s with projects := s.projects.insert name (Project.new id name time) }
  | deleteProject {name : String} {found : Project} {s : Store}
      (hp : s.projects.get? name = some found) :
      Ends supply m n (.deleteProject name) (.ok ⟨found.name, found.environmentIds⟩) s
        { s with projects := s.projects.erase name }
  | addFlag {project : String} {flag : Flag} {found : Project} {time : Timestamp} {written : Nat}
      {s s' : Store} (hp : Propagation.Accepts s project flag.name (some flag.rule) found)
      (htime : supply.Reads m n time)
      (hcascade : Cascaded (supply.Reads m n) found.environmentIds flag.name (some flag.rule)
        { s with projects :=
          s.projects.insert project (found.assign flag.name (some flag.rule) time) } s' written) :
      Ends supply m n (.addFlag project flag) (.ok flag) s s'
  | addFlagPartly {project : String} {flag : Flag} {found : Project} {time : Timestamp}
      {s : Store} (hp : Propagation.Accepts s project flag.name (some flag.rule) found)
      (htime : supply.Reads m n time) :
      Ends supply m n (.addFlag project flag) (.error (.partialCascade flag.name)) s
        { s with projects :=
          s.projects.insert project (found.assign flag.name (some flag.rule) time) }
  | removeFlag {project flag : String} {found : Project} {time : Timestamp} {written : Nat}
      {s s' : Store} (hp : Propagation.Accepts s project flag none found)
      (htime : supply.Reads m n time)
      (hcascade : Cascaded (supply.Reads m n) found.environmentIds flag none
        { s with projects := s.projects.insert project (found.assign flag none time) } s' written) :
      Ends supply m n (.removeFlag project flag) (.ok ()) s s'
  | removeFlagPartly {project flag : String} {found : Project} {time : Timestamp} {s : Store}
      (hp : Propagation.Accepts s project flag none found) (htime : supply.Reads m n time) :
      Ends supply m n (.removeFlag project flag) (.error (.partialCascade flag)) s
        { s with projects := s.projects.insert project (found.assign flag none time) }
  | patchFlag {project flag : String} {patch : FlagPatch} {found : Project} {rule : FlagRule}
      {time : Timestamp} {s : Store} (hp : s.projects.get? project = some found)
      (hrule : found.flags.get? flag = some rule) (htime : supply.Reads m n time) :
      Ends supply m n (.patchFlag project flag patch) (.ok ⟨flag, patch.apply rule⟩) s
        { s with projects :=
          s.projects.insert project (found.assign flag (some (patch.apply rule)) time) }
  | resyncFlag {project flag : String} {found : Project} {written : Nat} {s s' : Store}
      (hp : s.projects.get? project = some found)
      (hcascade : Cascaded (supply.Reads m n) found.environmentIds flag (found.flags.get? flag)
        s s' written) :
      Ends supply m n (.resyncFlag project flag)
        (.ok ⟨flag, Propagation.cascadeOperation (found.flags.get? flag), written⟩) s s'
  | resyncFlagPartly {project flag : String} {found : Project} {s : Store}
      (hp : s.projects.get? project = some found) :
      Ends supply m n (.resyncFlag project flag) (.error (.partialCascade flag)) s s
  | createEnvironment {project name id : String} {found : Project} {created time : Timestamp}
      {s : Store} (hp : s.projects.get? project = some found) (hid : supply.Names m n id)
      (hcreated : supply.Reads m n created) (htime : supply.Reads m n time)
      (habsent : s.environments.get? id = none) :
      Ends supply m n (.createEnvironment project name)
        (.ok (Environment.new id name found.flags created)) s
        { s with
          environments := s.environments.insert id (Environment.new id name found.flags created)
          projects := s.projects.insert project { found.enlist id with updatedAt := time } }
  | renameEnvironment {id name : String} {e : Environment} {time : Timestamp} {s : Store}
      (he : s.environments.get? id = some e) (htime : supply.Reads m n time) :
      Ends supply m n (.renameEnvironment id name) (.ok { e with name, updatedAt := time }) s
        { s with environments := s.environments.insert id { e with name, updatedAt := time } }
  | deleteEnvironment {id : String} {s s' : Store} (hid : s.environments.contains id = true)
      (hlinks : s.projectLinksFail = false)
      (hdetached : Detached (supply.Reads m n) id
        { s with environments := s.environments.erase id } s') :
      Ends supply m n (.deleteEnvironment id) (.ok ()) s s'
  | deleteEnvironmentAlone {id : String} {s : Store} (hid : s.environments.contains id = true)
      (hlinks : s.projectLinksFail = true) :
      Ends supply m n (.deleteEnvironment id) (.ok ()) s
        { s with environments := s.environments.erase id }
  | patchEnvironmentFlag {id flag : String} {patch : FlagPatch} {e : Environment}
      {rule : FlagRule} {time : Timestamp} {s : Store} (he : s.environments.get? id = some e)
      (hrule : e.flags.get? flag = some rule) (htime : supply.Reads m n time) :
      Ends supply m n (.patchEnvironmentFlag id flag patch) (.ok ⟨flag, patch.apply rule⟩) s
        { s with environments :=
          s.environments.insert id (e.assign flag (some (patch.apply rule)) time) }
  | removeEnvironmentFlag {id flag : String} {e : Environment} {time : Timestamp} {s : Store}
      (he : s.environments.get? id = some e) (htime : supply.Reads m n time) :
      Ends supply m n (.removeEnvironmentFlag id flag) (.ok ()) s
        { s with environments := s.environments.insert id (e.assign flag none time) }
  | createKey {scope : KeyScope} {id name key : String} {e : Environment}
      {created time : Timestamp} {s : Store} (he : s.environments.get? id = some e)
      (hkey : supply.Keys m n key) (hcreated : supply.Reads m n created)
      (htime : supply.Reads m n time) :
      Ends supply m n (.createKey scope id name) (.ok ⟨key, name, created⟩) s
        { s with
          environments := s.environments.insert id
            (e.rekey scope ((e.keys scope).insert key ⟨name, created⟩) time) }
  | deleteKey {scope : KeyScope} {id key : String} {e : Environment} {time : Timestamp}
      {s : Store} (he : s.environments.get? id = some e) (htime : supply.Reads m n time) :
      Ends supply m n (.deleteKey scope id key) (.ok ()) s
        { s with
          environments := s.environments.insert id
            (e.rekey scope ((e.keys scope).erase key) time) }

/-! ### Runs of more than one request -/

namespace Propagation

/-- How a write of a flag to a project ends, with the cascade that follows: it reaches the
environments that the project lists, or the project alone, or there is no project that accepts
it. -/
theorem run_flagWrite (program : Action α) {project flag : String} (rule : Option FlagRule)
    {value : α}
    (hprogram : program = Action.store (projectRequest project flag rule) fun reply =>
      cascade (listedIn reply) flag rule fun _ => Action.ok value) :
    (∃ found written p', program.run supply p = (.ok value, p') ∧ p.steps < p'.steps ∧
      Accepts p.store project flag rule found ∧
      Cascaded (supply.Reads p.steps p'.steps) found.environmentIds flag rule
        { p.store with
          projects := p.store.projects.insert project
            (found.assign flag rule (supply.reading p.steps 0)) } p'.store written) ∨
    (∃ found p', program.run supply p = (.error (.partialCascade flag), p') ∧
      p.steps < p'.steps ∧ Accepts p.store project flag rule found ∧
      p'.store = { p.store with
        projects := p.store.projects.insert project
          (found.assign flag rule (supply.reading p.steps 0)) } ∧
      found.environmentIds ≠ [] ∧ (p.faults = [] → p.store.environmentWritesFail = true)) ∨
    ∃ e, program.run supply p = (.error (.ofStore e), p.after p.store) ∧
      (p.faults = [] → ∀ found, ¬ Accepts p.store project flag rule found) := by
  obtain ⟨reply, s', hs, hrun⟩ | ⟨e, hs, hrun⟩ := Action.run_store supply program hprogram p
  case inr =>
    refine .inr (.inr ⟨e, hrun, fun hfaults found haccepts => ?_⟩)
    obtain ⟨result, hok⟩ := exists_perform_projectRequest haccepts (supply.reading p.steps)
    cases (hs hfaults).symm.trans hok
  obtain ⟨found, hp, hids, rfl⟩ := perform_projectRequest.1 hs
  let q := p.after { p.store with
    projects := p.store.projects.insert project
      (found.assign flag rule (supply.reading p.steps 0)) }
  obtain ⟨written, p', hcascade, hsteps, -, hcascaded⟩ | ⟨p', hcascade, hstore, hlisted, hfail⟩ :=
    run_cascade supply (congrArg (cascade · flag rule fun _ => Action.ok value) hids) q
  · exact .inl ⟨found, written, p', hrun.trans hcascade, hsteps, hp,
      hcascaded.mono fun time h => h.mono (Nat.le_succ _) (Nat.le_refl _)⟩
  · refine .inr (.inl ⟨found, p', hrun.trans hcascade, ?_, hp, hstore, hlisted, hfail⟩)
    have hsteps := Program.steps_le_run supply
      (cascade (listedIn reply) flag rule fun _ => Action.ok value) q
    rwa [hcascade] at hsteps

/-- A resync of a project that exists writes what the project says to the environments that it
lists.  It fails, and then changes nothing, only where there is something listed and the switch is
on. -/
theorem run_resyncFlag {project : String} {found : Project}
    (hp : p.store.projects.get? project = some found) (hfaults : p.faults = []) (flag : String) :
    (∃ written p', (resyncFlag project flag).run supply p
        = (.ok ⟨flag, cascadeOperation (found.flags.get? flag), written⟩, p') ∧
      (found.environmentIds ≠ [] → p.store.environmentWritesFail = false) ∧
      Cascaded (supply.Reads p.steps p'.steps) found.environmentIds flag (found.flags.get? flag)
        p.store p'.store written) ∨
    ∃ p', (resyncFlag project flag).run supply p = (.error (.partialCascade flag), p') ∧
      p'.store = p.store ∧ found.environmentIds ≠ [] ∧ p.store.environmentWritesFail = true := by
  have hget := getProject_eq_ok.2 hp
  obtain ⟨reply, s', hs, hrun⟩ | ⟨e, hs, hrun⟩ :=
    Action.run_store supply (resyncFlag project flag) rfl p
  case inr =>
    have hfail : p.store.unchanged (p.store.getProject project) = .error e := hs hfaults
    rw [hget] at hfail
    cases hfail
  obtain ⟨hfound, rfl⟩ := unchanged_eq_ok.1 hs
  obtain rfl : found = reply := Except.ok.inj (hget.symm.trans hfound)
  obtain ⟨written, p', hcascade, hsteps, hworks, hcascaded⟩ |
      ⟨p', hcascade, hstore, hlisted, hfail⟩ := run_cascade supply rfl (p.after p.store)
  · exact .inl ⟨written, p', hrun.trans hcascade, hworks,
      hcascaded.mono fun time h => h.mono (Nat.le_succ _) (Nat.le_refl _)⟩
  · exact .inr ⟨p', hrun.trans hcascade, hstore, hlisted, hfail hfaults⟩

/-- The end of a creation whose environment could not be listed. -/
def withdraw (id : String) (error : StoreError) : Action Environment :=
  .count (.projectLinkFailures .attach) 1
    (.call (.deleteEnvironment id) fun _ => Action.fail (.ofStore error))

/-- The writes of a creation: inserts an environment and lists it, or takes it back. -/
def place (project : String) (e : Environment) : Action Environment :=
  Action.store (.insertEnvironment e) fun _ =>
  .call (.attachEnvironment project e.id) fun
    | .ok _ => Action.ok e
    | .error error => withdraw e.id error

theorem createEnvironment_eq_place (project name : String) :
    createEnvironment project name
      = Action.store (.getProject project) fun (found : Project) =>
        .readClock fun now => .newId fun id =>
          place project (Environment.new id name found.flags now) := by
  refine congrArg (Action.store _) (funext fun found => ?_)
  refine congrArg Program.readClock (funext fun now => congrArg Program.newId (funext fun id => ?_))
  refine congrArg (Action.store _) (funext fun _ => congrArg (Program.call _) ?_)
  funext reply
  cases reply <;> rfl

/-- An environment that was there is taken back. -/
theorem run_withdraw (hfaults : p.faults = []) {id : String}
    (hid : p.store.environments.contains id = true) (error : StoreError) :
    ∃ p', (withdraw id error).run supply p = (.error (.ofStore error), p') ∧
      p'.store = { p.store with environments := p.store.environments.erase id } := by
  let counted : ServiceState :=
    { p with counters := p.counters.add (.projectLinkFailures .attach) 1 }
  have hdelete := deleteEnvironment_eq_ok.2 ⟨hid, rfl⟩
  obtain ⟨reply, s', hs, hcall⟩ | ⟨e, hs, -⟩ := counted.call_cases supply (.deleteEnvironment id)
  · have hs' : s' = _ := Except.ok.inj ((silent_eq_ok.1 hs).symm.trans hdelete)
    refine ⟨counted.after s', ?_, hs'⟩
    show (Action.fail (.ofStore error)).run supply
      (counted.call supply (.deleteEnvironment id)).2 = _
    rw [hcall]
    rfl
  · have hfail : silent (p.store.deleteEnvironment id) = .error e := hs hfaults
    rw [hdelete] at hfail
    cases hfail

/-- An environment is inserted and listed, or the store stays as it was. -/
theorem run_place (hfaults : p.faults = []) {project : String} {found : Project}
    (hp : p.store.projects.get? project = some found) (e : Environment) :
    (∃ p', (place project e).run supply p = (.ok e, p') ∧ p'.steps = p.steps + 2 ∧
      p.store.environments.get? e.id = none ∧
      p'.store = { p.store with
        environments := p.store.environments.insert e.id e
        projects := p.store.projects.insert project
          { found.enlist e.id with updatedAt := supply.reading (p.steps + 1) 0 } }) ∨
    ∃ error p', (place project e).run supply p = (.error (.ofStore error), p') ∧
      p'.store = p.store := by
  obtain ⟨_, s', hs, hinsert⟩ | ⟨error, -, hinsert⟩ :=
    Action.run_store supply (place project e) rfl p
  case inr => exact .inr ⟨_, _, hinsert, rfl⟩
  obtain ⟨habsent, rfl⟩ := insertEnvironment_eq_ok.1 (silent_eq_ok.1 hs)
  let inserted := p.after { p.store with environments := p.store.environments.insert e.id e }
  obtain ⟨_, s', hs, hattach⟩ | ⟨error, -, hattach⟩ :=
    Program.run_call supply (.attachEnvironment project e.id) rfl inserted
  case inl =>
    obtain ⟨-, doc, hdoc, hs'⟩ := attachEnvironment_eq_ok.1 (silent_eq_ok.1 hs)
    obtain rfl : found = doc := Option.some.inj (hp.symm.trans hdoc)
    exact .inl ⟨inserted.after s', hinsert.trans hattach, rfl, habsent, hs'⟩
  case inr =>
    -- the id was free before, so taking the environment back restores the store
    have hcontains : (inserted.after inserted.store).store.environments.contains e.id = true := by
      show ((p.store.environments.insert e.id e).get? e.id).isSome = true
      rw [SortedMap.get?_insert, if_pos rfl]
      rfl
    obtain ⟨p', hrun, hstore⟩ :=
      run_withdraw supply (inserted.after inserted.store) hfaults hcontains error
    refine .inr ⟨error, p', hinsert.trans (hattach.trans hrun), hstore.trans ?_⟩
    show { p.store with environments := (p.store.environments.insert e.id e).erase e.id } = p.store
    rw [SortedMap.erase_insert habsent]

/-- An environment that exists can be deleted, whether or not its id can be detached. -/
theorem run_deleteEnvironment (hfaults : p.faults = []) {id : String}
    (hid : p.store.environments.contains id = true) :
    ∃ p', (deleteEnvironment id).run supply p = (.ok (), p') := by
  obtain ⟨_, s', -, hrun⟩ | ⟨e, hs, -⟩ := Action.run_store supply (deleteEnvironment id) rfl p
  · obtain ⟨_, _, -, hdetach⟩ | ⟨_, -, hdetach⟩ :=
      Program.run_call supply (.detachEnvironment id) rfl (p.after s')
    · exact ⟨_, hrun.trans hdetach⟩
    · exact ⟨_, hrun.trans hdetach⟩
  · have hfail : silent (p.store.deleteEnvironment id) = .error e := hs hfaults
    rw [deleteEnvironment_eq_ok.2 ⟨hid, rfl⟩] at hfail
    cases hfail

end Propagation

/-! ### Every run is one of the cases -/

namespace Command

open Propagation

variable {supply p} {p' : ServiceState} {command : Command}
  {outcome : Except ApiError command.Result}

/-- A command that comes to one request, with the store as it found it, ends as the request does. -/
theorem ends_request (request : Store.Request) {result : request.Reply → command.Result}
    (ready : ServiceState) (hstore : ready.store = p.store)
    (hprogram : command.program.run supply p
      = (Action.store request fun reply => Action.ok (result reply)).run supply ready)
    (hok : ∀ reply s', p.store.perform (supply.reading ready.steps) request = .ok (reply, s') →
      Ends supply p.steps (ready.steps + 1) command (.ok (result reply)) p.store s')
    (h : command.program.run supply p = (outcome, p')) :
    Ends supply p.steps p'.steps command outcome p.store p'.store := by
  obtain ⟨reply, s', hs, hrun⟩ | ⟨e, -, hrun⟩ :=
    Action.run_store supply (Action.store request fun reply => Action.ok (result reply)) rfl ready
  · obtain ⟨rfl, rfl⟩ := Prod.mk.inj (h.symm.trans (hprogram.trans hrun))
    exact hok reply s' (hstore ▸ hs)
  · obtain ⟨rfl, rfl⟩ := Prod.mk.inj (h.symm.trans (hprogram.trans hrun))
    rw [ServiceState.after_store, hstore]
    exact .failed (ofStore_ne_partialCascade e)

theorem ends_createEnvironment (hfaults : p.faults = []) {project name : String}
    {outcome : Except ApiError Environment}
    (h : (createEnvironment project name).program.run supply p = (outcome, p')) :
    Ends supply p.steps p'.steps (createEnvironment project name) outcome p.store p'.store := by
  obtain ⟨found, s', hs, hrun⟩ | ⟨e, -, hrun⟩ :=
    Action.run_store supply _ (createEnvironment_eq_place project name) p
  case inr =>
    obtain ⟨rfl, rfl⟩ := Prod.mk.inj (h.symm.trans hrun)
    exact .failed (ofStore_ne_partialCascade e)
  obtain ⟨hfound, rfl⟩ := unchanged_eq_ok.1 hs
  have hp := getProject_eq_ok.1 hfound
  -- the clock and the id are read before the environment is inserted
  let e := Environment.new (supply.id (p.steps + 2)) name found.flags
    (supply.reading (p.steps + 1) 0)
  let ready : ServiceState := { p with steps := p.steps + 3 }
  have hready : ready.steps = p.steps + 3 := rfl
  obtain ⟨q, hplace, hsteps, habsent, hstore⟩ | ⟨error, q, hplace, hstore⟩ :=
    run_place supply ready hfaults hp e
  · obtain ⟨rfl, rfl⟩ := Prod.mk.inj (h.symm.trans (hrun.trans hplace))
    rw [hstore]
    exact .createEnvironment hp (supply.names_step (by omega) (by omega))
      (supply.reads_step (by omega) (by omega)) (supply.reads_step (by omega) (by omega)) habsent
  · obtain ⟨rfl, rfl⟩ := Prod.mk.inj (h.symm.trans (hrun.trans hplace))
    rw [hstore]
    exact .failed (ofStore_ne_partialCascade error)

theorem ends_deleteEnvironment (hfaults : p.faults = []) {id : String}
    {outcome : Except ApiError Unit}
    (h : (deleteEnvironment id).program.run supply p = (outcome, p')) :
    Ends supply p.steps p'.steps (deleteEnvironment id) outcome p.store p'.store := by
  obtain ⟨_, s', hs, hrun⟩ | ⟨e, -, hrun⟩ :=
    Action.run_store supply (Propagation.deleteEnvironment id) rfl p
  case inr =>
    obtain ⟨rfl, rfl⟩ := Prod.mk.inj (h.symm.trans hrun)
    exact .failed (ofStore_ne_partialCascade e)
  obtain ⟨hid, rfl⟩ := deleteEnvironment_eq_ok.1 (silent_eq_ok.1 hs)
  let erased := p.after { p.store with environments := p.store.environments.erase id }
  obtain ⟨n, s', hs, hdetach⟩ | ⟨e, hs, hdetach⟩ :=
    Program.run_call supply (.detachEnvironment id) rfl erased
  · obtain ⟨rfl, rfl⟩ := Prod.mk.inj (h.symm.trans (hrun.trans hdetach))
    obtain ⟨hlinks, hdetached⟩ := detachEnvironment_eq_ok hs
    refine .deleteEnvironment hid hlinks (hdetached.mono ?_)
    rintro time ⟨index, rfl⟩
    exact supply.reads_step (Nat.le_succ _) (Nat.lt_succ_self _)
  · obtain ⟨rfl, rfl⟩ := Prod.mk.inj (h.symm.trans (hrun.trans hdetach))
    have hlinks : erased.store.projectLinksFail = true :=
      projectLinksFail_of_detachEnvironment (hs hfaults)
    exact .deleteEnvironmentAlone hid hlinks

theorem ends_resyncFlag (hfaults : p.faults = []) {project flag : String}
    {outcome : Except ApiError CascadeReport}
    (h : (resyncFlag project flag).program.run supply p = (outcome, p')) :
    Ends supply p.steps p'.steps (resyncFlag project flag) outcome p.store p'.store := by
  cases hp : p.store.projects.get? project with
  | none =>
    obtain ⟨found, s', hs, -⟩ | ⟨e, -, hrun⟩ :=
      Action.run_store supply (Propagation.resyncFlag project flag) rfl p
    · obtain ⟨hfound, -⟩ := unchanged_eq_ok.1 hs
      cases hp.symm.trans (getProject_eq_ok.1 hfound)
    · obtain ⟨rfl, rfl⟩ := Prod.mk.inj (h.symm.trans hrun)
      exact .failed (ofStore_ne_partialCascade e)
  | some found =>
    obtain ⟨written, q, hrun, -, hcascaded⟩ | ⟨q, hrun, hstore, -⟩ :=
      run_resyncFlag supply p hp hfaults flag
    · obtain ⟨rfl, rfl⟩ := Prod.mk.inj (h.symm.trans hrun)
      exact .resyncFlag hp hcascaded
    · obtain ⟨rfl, rfl⟩ := Prod.mk.inj (h.symm.trans hrun)
      rw [hstore]
      exact .resyncFlagPartly hp

/-- **How commands end**: every run of a command is one of the cases. -/
theorem ends_run (hfaults : p.faults = []) (h : command.program.run supply p = (outcome, p')) :
    Ends supply p.steps p'.steps command outcome p.store p'.store := by
  have hnow : supply.Reads p.steps (p.steps + 1) (supply.reading p.steps 0) :=
    supply.reads_step (Nat.le_refl _) (Nat.lt_succ_self _)
  cases command with
  | createEnvironment project name => exact ends_createEnvironment hfaults h
  | deleteEnvironment id => exact ends_deleteEnvironment hfaults h
  | resyncFlag project flag => exact ends_resyncFlag hfaults h
  | addFlag project flag =>
    obtain ⟨found, written, q, hrun, hsteps, hp, hcascaded⟩ |
        ⟨found, q, hrun, hsteps, hp, hstore, -⟩ | ⟨e, hrun, -⟩ :=
      run_flagWrite supply p (Propagation.addFlag project flag) (some flag.rule) rfl
    · obtain ⟨rfl, rfl⟩ := Prod.mk.inj (h.symm.trans hrun)
      exact .addFlag hp (supply.reads_step (Nat.le_refl _) hsteps) hcascaded
    · obtain ⟨rfl, rfl⟩ := Prod.mk.inj (h.symm.trans hrun)
      rw [hstore]
      exact .addFlagPartly hp (supply.reads_step (Nat.le_refl _) hsteps)
    · obtain ⟨rfl, rfl⟩ := Prod.mk.inj (h.symm.trans hrun)
      exact .failed (ofStore_ne_partialCascade e)
  | removeFlag project flag =>
    obtain ⟨found, written, q, hrun, hsteps, hp, hcascaded⟩ |
        ⟨found, q, hrun, hsteps, hp, hstore, -⟩ | ⟨e, hrun, -⟩ :=
      run_flagWrite supply p (Propagation.removeFlag project flag) none rfl
    · obtain ⟨rfl, rfl⟩ := Prod.mk.inj (h.symm.trans hrun)
      exact .removeFlag hp (supply.reads_step (Nat.le_refl _) hsteps) hcascaded
    · obtain ⟨rfl, rfl⟩ := Prod.mk.inj (h.symm.trans hrun)
      rw [hstore]
      exact .removeFlagPartly hp (supply.reads_step (Nat.le_refl _) hsteps)
    · obtain ⟨rfl, rfl⟩ := Prod.mk.inj (h.symm.trans hrun)
      exact .failed (ofStore_ne_partialCascade e)
  | createProject name =>
    -- the clock and the id are read before the request
    let ready : ServiceState := { p with steps := p.steps + 2 }
    have hready : ready.steps = p.steps + 2 := rfl
    refine ends_request (.insertProject (Project.new (supply.id (p.steps + 1)) name
      (supply.reading p.steps 0))) ready rfl rfl (fun _ s' hs => ?_) h
    obtain ⟨habsent, rfl⟩ := insertProject_eq_ok.1 (silent_eq_ok.1 hs)
    exact .createProject (supply.names_step (k := p.steps + 1) (by omega) (by omega))
      (supply.reads_step (k := p.steps) (by omega) (by omega)) habsent
  | createKey scope id name =>
    let ready : ServiceState := { p with steps := p.steps + 2 }
    have hready : ready.steps = p.steps + 2 := rfl
    refine ends_request (.insertApiKey id scope (supply.key p.steps)
      ⟨name, supply.reading (p.steps + 1) 0⟩) ready rfl rfl (fun _ s' hs => ?_) h
    obtain ⟨e, he, rfl⟩ := insertApiKey_eq_ok.1 (silent_eq_ok.1 hs)
    exact .createKey he (supply.keys_step (k := p.steps) (by omega) (by omega))
      (supply.reads_step (k := p.steps + 1) (by omega) (by omega))
      (supply.reads_step (by omega) (by omega))
  | listProjects offset limit =>
    refine ends_request (.listProjects offset limit) p rfl rfl (fun reply s' hs => ?_) h
    obtain ⟨hreply, rfl⟩ := unchanged_eq_ok.1 hs
    obtain rfl := Except.ok.inj hreply
    exact .listProjects
  | getProject name =>
    refine ends_request (.getProject name) p rfl rfl (fun reply s' hs => ?_) h
    obtain ⟨hreply, rfl⟩ := unchanged_eq_ok.1 hs
    exact .getProject (getProject_eq_ok.1 hreply)
  | getEnvironment id =>
    refine ends_request (.getEnvironment id) p rfl rfl (fun reply s' hs => ?_) h
    obtain ⟨hreply, rfl⟩ := unchanged_eq_ok.1 hs
    exact .getEnvironment (getEnvironment_eq_ok.1 hreply)
  | deleteProject name =>
    refine ends_request (.deleteProject name) p rfl rfl (fun reply s' hs => ?_) h
    obtain ⟨hp, rfl⟩ := deleteProject_eq_ok.1 hs
    exact .deleteProject hp
  | patchFlag project flag patch =>
    refine ends_request (.patchProjectFlag project flag patch) p rfl rfl (fun reply s' hs => ?_) h
    obtain ⟨found, rule, hp, hrule, rfl, rfl⟩ := patchProjectFlag_eq_ok.1 hs
    exact .patchFlag hp hrule hnow
  | renameEnvironment id name =>
    refine ends_request (.renameEnvironment id name) p rfl rfl (fun reply s' hs => ?_) h
    obtain ⟨e, he, rfl, rfl⟩ := renameEnvironment_eq_ok.1 hs
    exact .renameEnvironment he hnow
  | patchEnvironmentFlag id flag patch =>
    refine ends_request (.patchEnvironmentFlag id flag patch) p rfl rfl (fun reply s' hs => ?_) h
    obtain ⟨e, rule, he, hrule, rfl, rfl⟩ := patchEnvironmentFlag_eq_ok.1 hs
    exact .patchEnvironmentFlag he hrule hnow
  | removeEnvironmentFlag id flag =>
    refine ends_request (.removeEnvironmentFlag id flag) p rfl rfl (fun _ s' hs => ?_) h
    obtain ⟨e, he, rfl⟩ := removeEnvironmentFlag_eq_ok.1 (silent_eq_ok.1 hs)
    exact .removeEnvironmentFlag he hnow
  | deleteKey scope id key =>
    refine ends_request (.deleteApiKey id scope key) p rfl rfl (fun _ s' hs => ?_) h
    obtain ⟨e, he, rfl⟩ := deleteApiKey_eq_ok.1 (silent_eq_ok.1 hs)
    exact .deleteKey he hnow

end Command

end FeatureFlags

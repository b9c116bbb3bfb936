import FeatureFlags.Proofs.Outcome

/-!
What a failed operation leaves behind.

An operation of the administration that fails has changed nothing, with one exception: a flag that
was written to a project, but could not be sent to the environments of the project.  Then the
environments are as they were, and the project is what it would be had the operation succeeded.
Whatever else can fail, such as a body that cannot be read, a name that is taken or a store that is
out of reach, fails before the first write, or the write is taken back.
-/

namespace FeatureFlags

open Store

variable {supply : Supply} {p p' : ServiceState}

/-- The same service, with bulk writes to environments that work. -/
def ServiceState.repaired (p : ServiceState) : ServiceState :=
  { p with store.environmentWritesFail := false }

/-- A failed command has changed nothing, unless it was its cascade that failed. -/
theorem Command.Ends.store_of_error {m n : Nat} {command : Command} {error : ApiError}
    {s s' : Store} (h : Ends supply m n command (.error error) s s')
    (herror : ∀ flag, error ≠ .partialCascade flag) : s' = s := by
  cases h with
  | failed => rfl
  | addFlagPartly | removeFlagPartly | resyncFlagPartly => exact absurd rfl (herror _)

namespace Propagation

/-- A flag that was written to a project alone: the write is the one of the operation that
succeeds. -/
theorem run_flagWrite_partly {α : Type} (program : Action α) {project flag name : String}
    (rule : Option FlagRule) {value : α}
    (hprogram : program = Action.store (projectRequest project flag rule) fun reply =>
      cascade (listedIn reply) flag rule fun _ => Action.ok value)
    (hfaults : p.faults = []) (hrun : program.run supply p = (.error (.partialCascade name), p')) :
    p'.store = { p.store with projects := p'.store.projects } ∧
      ∃ q, program.run supply p.repaired = (.ok value, q) ∧
        q.store.projects = p'.store.projects := by
  obtain ⟨found, written, q, hq, -⟩ | ⟨found, q, hq, -, haccepts, hstore, -⟩ | ⟨e, hq, -⟩ :=
    run_flagWrite supply p program rule hprogram
  case inl => cases hrun.symm.trans hq
  case inr.inr =>
    obtain ⟨herror, -⟩ := Prod.mk.inj (hrun.symm.trans hq)
    exact absurd (Except.error.inj herror).symm (ofStore_ne_partialCascade e name)
  obtain ⟨-, rfl⟩ := Prod.mk.inj (hrun.symm.trans hq)
  refine ⟨by rw [hstore], ?_⟩
  -- the same run with the switch off can only succeed
  obtain ⟨found', written, q, hq', -, haccepts', hcascaded⟩ | ⟨_, _, -, -, -, -, -, hfail⟩ |
      ⟨_, -, hnone⟩ := run_flagWrite supply p.repaired program rule hprogram
  · obtain rfl : found = found' := Option.some.inj (haccepts.1.symm.trans haccepts'.1)
    refine ⟨q, hq', ?_⟩
    rw [hcascaded.projects, hstore]
    rfl
  · cases hfail hfaults
  · exact absurd haccepts (hnone hfaults found)

theorem run_resyncFlag_repaired {project : String} {found : Project}
    (hp : p.store.projects.get? project = some found) (hfaults : p.faults = []) (flag : String) :
    ∃ report q, (resyncFlag project flag).run supply p.repaired = (.ok report, q) ∧
      q.store.projects = p.store.projects := by
  obtain ⟨written, q, hq, -, hcascaded⟩ | ⟨_, -, -, -, hfail⟩ :=
    run_resyncFlag supply p.repaired hp hfaults flag
  · exact ⟨_, q, hq, hcascaded.projects⟩
  · cases hfail

end Propagation

/-- After a failed cascade the environments are as they were, and the projects as after the command
that succeeds. -/
theorem Command.run_partly {command : Command} {flag : String} (hfaults : p.faults = [])
    (hrun : command.program.run supply p = (.error (.partialCascade flag), p')) :
    p'.store = { p.store with projects := p'.store.projects } ∧
      ∃ result q, command.program.run supply p.repaired = (.ok result, q) ∧
        q.store.projects = p'.store.projects := by
  have hends := ends_run hfaults hrun
  cases command with
  | addFlag project added =>
    obtain ⟨hstore, q, hq, hprojects⟩ := Propagation.run_flagWrite_partly
      (Propagation.addFlag project added) (some added.rule) rfl hfaults hrun
    exact ⟨hstore, added, q, hq, hprojects⟩
  | removeFlag project removed =>
    obtain ⟨hstore, q, hq, hprojects⟩ := Propagation.run_flagWrite_partly
      (Propagation.removeFlag project removed) none rfl hfaults hrun
    exact ⟨hstore, (), q, hq, hprojects⟩
  | resyncFlag project =>
    generalize hs : p.store = s, hs' : p'.store = s' at hends
    cases hends with
    | failed herror => exact absurd rfl (herror flag)
    | resyncFlagPartly hp =>
      subst hs
      obtain ⟨report, q, hq, hprojects⟩ :=
        Propagation.run_resyncFlag_repaired hp hfaults flag
      exact ⟨rfl, report, q, hq, hprojects⟩
  | _ =>
    generalize p.store = s, p'.store = s' at hends
    cases hends with
    | failed herror => exact absurd rfl (herror flag)

/-! ### Refusals -/

/-- The request itself is at fault, whatever the store holds. -/
def ApiError.blamesRequest : ApiError → Bool
  | unreadableBody | invalidName _ | missingName => true
  | _ => false

/-- If there is no result, then the request is at fault. -/
def Checks {α : Type} (result : Except ApiError α) : Prop :=
  ∀ error, result = .error error → error.blamesRequest = true

namespace Checks

variable {α β : Type}

theorem ok (value : α) : Checks (.ok value : Except ApiError α) := by
  intro error h
  cases h

theorem error {e : ApiError} (h : e.blamesRequest = true) :
    Checks (.error e : Except ApiError α) := by
  intro error herror
  exact Except.error.inj herror ▸ h

theorem bind {result : Except ApiError α} {next : α → Except ApiError β} (h : Checks result)
    (hnext : ∀ value, Checks (next value)) : Checks (result.bind next) := by
  cases result with
  | error e => exact error (h e rfl)
  | ok value => exact hnext value

theorem map {result : Except ApiError α} (f : α → β) (h : Checks result) :
    Checks (result.map f) := by
  cases result with
  | error e => exact error (h e rfl)
  | ok value => exact ok (f value)

theorem readBody (decode : Decoder α) (body : List UInt8) :
    Checks (Admin.readBody decode body) := by
  rw [Admin.readBody]
  split
  · exact ok _
  · exact error rfl

theorem checkName (entity : Named) (name : String) : Checks (Admin.checkName entity name) := by
  rw [Admin.checkName]
  split
  · exact ok _
  · exact error rfl

theorem readName (entity : Named) (body : List UInt8) : Checks (Service.readName entity body) :=
  (readBody _ body).bind fun name => (checkName entity name).map _

theorem givenName (body : List UInt8) : Checks (Admin.givenName body) := by
  rw [Admin.givenName]
  split
  · exact error rfl
  · split
    · exact ok _
    · exact error rfl
    case h_3 e he => exact error (readBody _ body e he)

end Checks

namespace Service

open Http

/-- A request is refused for nothing but what is in it. -/
theorem checks_bodyCommand? {body : List UInt8} {operation : Operation}
    {command : Except ApiError Command} (h : bodyCommand? body operation = some command) :
    Checks command := by
  cases operation with
  | createProject | createEnvironment | createKey =>
    obtain rfl := Option.some.inj h
    exact (Checks.readName _ body).map _
  | addFlag =>
    obtain rfl := Option.some.inj h
    exact (Checks.readBody _ body).bind fun flag => (Checks.checkName _ _).map _
  | patchFlag | patchEnvironmentFlag =>
    obtain rfl := Option.some.inj h
    exact (Checks.readBody _ body).map _
  | renameEnvironment =>
    obtain rfl := Option.some.inj h
    exact (Checks.givenName body).bind fun name => (Checks.checkName _ _).map _
  | getProject | deleteProject | removeFlag | resyncFlag | getEnvironment | deleteEnvironment
  | removeEnvironmentFlag | deleteKey =>
    obtain rfl := Option.some.inj h
    exact .ok _
  | listProjects | index | health | readiness | samples | getRules | evaluateFlags
  | evaluateFlag => cases h

/-- A command whose result is shown fails as the command does. -/
theorem run_attempt (command : Command) (p : ServiceState) :
    (attempt (.ok command)).run supply p
      = (((command.program.run supply p).1).map command.response,
        (command.program.run supply p).2) := by
  rw [attempt, Program.map, Program.run_bind]
  rfl

/-- **Failed operations leave the store intact**: if an operation of the administration fails, the
store is as it was, unless it was its cascade that failed.  Then the environments are as they were,
and the projects are what they are after the same operation with the bulk writes working. -/
theorem failed_action_keeps_store {body : List UInt8} {operation : Operation}
    {action : Action Response} {error : ApiError} (hfaults : p.faults = [])
    (haction : adminAction? body operation = some action)
    (hrun : action.run supply p = (.error error, p')) :
    ((∀ flag, error ≠ .partialCascade flag) → p'.store = p.store) ∧
      ((∃ flag, error = .partialCascade flag) →
        p'.store = { p.store with projects := p'.store.projects } ∧
        ∃ response q, action.run supply p.repaired = (.ok response, q) ∧
          q.store.projects = p'.store.projects) := by
  rw [adminAction?_eq_attempt] at haction
  obtain ⟨attempted, hcommand, rfl⟩ := Option.map_eq_some_iff.1 haction
  cases attempted with
  | error refused =>
    -- the operation ends before it asks the store for anything
    obtain ⟨herror, rfl⟩ := Prod.mk.inj hrun
    obtain rfl := Except.error.inj herror
    refine ⟨fun _ => rfl, ?_⟩
    rintro ⟨flag, rfl⟩
    cases checks_bodyCommand? hcommand _ rfl
  | ok command =>
    rw [run_attempt] at hrun
    obtain ⟨houtcome, rfl⟩ := Prod.mk.inj hrun
    cases hended : (command.program.run supply p).1 with
    | ok result =>
      rw [hended] at houtcome
      cases houtcome
    | error failed =>
      rw [hended] at houtcome
      obtain rfl : failed = error := Except.error.inj houtcome
      have hcommandRun : command.program.run supply p
          = (.error failed, (command.program.run supply p).2) := by rw [← hended]
      refine ⟨(Command.ends_run hfaults hcommandRun).store_of_error, ?_⟩
      rintro ⟨flag, rfl⟩
      obtain ⟨hstore, result, q, hq, hprojects⟩ := Command.run_partly hfaults hcommandRun
      refine ⟨hstore, command.response result, q, ?_, hprojects⟩
      rw [run_attempt, hq]
      rfl

/-- A flag that is removed from a project while its environment cannot be written. -/
theorem failed_action_keeps_store_removeFlag :
    let p : ServiceState := { ServiceState.shopTest with store.environmentWritesFail := true }
    let action := Admin.removeFlag "shop" "dark"
    let ended := action.run Supply.counting p
    p.faults = [] ∧ adminAction? [] (.removeFlag "shop" "dark") = some action ∧
      ended.1 = .error (.partialCascade "dark") ∧
      ended.2.store = { p.store with projects := ended.2.store.projects } ∧
      ∃ response q, action.run Supply.counting p.repaired = (.ok response, q) ∧
        q.store.projects = ended.2.store.projects := by
  intro p action ended
  have hpartly : ended.1 = .error (.partialCascade "dark") := by rfl
  have hrun : action.run Supply.counting p = (.error (.partialCascade "dark"), ended.2) := by
    rw [← hpartly]
  have haction : adminAction? [] (.removeFlag "shop" "dark") = some action := rfl
  have hkept := failed_action_keeps_store rfl haction hrun
  exact ⟨rfl, haction, hpartly, hkept.2 ⟨_, rfl⟩⟩

end Service

end FeatureFlags

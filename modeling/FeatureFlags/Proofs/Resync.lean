import FeatureFlags.Proofs.History.Representation

/-!
What a resync repairs.

Whatever cascades have failed before and however environments have been patched on their own, a
resync that succeeds leaves every environment of the project with the entry that the project has,
and counts them; a second one repeats the report and changes no document but in its time
(`Resynced`).  The count is right because no project lists an id twice.  A resync that fails has
changed nothing.
-/

namespace FeatureFlags

open Store

/-- The environment at another time of its last update. -/
def Environment.touch (e : Environment) (now : Timestamp) : Environment :=
  { e with updatedAt := now }

theorem Environment.assign_assign (e : Environment) (flag : String) (rule : Option FlagRule)
    (first second : Timestamp) :
    (e.assign flag rule first).assign flag rule second
      = (e.assign flag rule first).touch second := by
  simp only [assign, touch, FlagMap.assign_assign]

namespace Store

variable {s s' s'' : Store} {clock clock' : Timestamp → Prop} {ids : List String} {flag : String}
  {rule : Option FlagRule} {written written' : Nat}

/-- Nothing has changed but the times at which environments were updated. -/
structure Touched (s s' : Store) : Prop where
  frame : s' = { s with environments := s'.environments }
  environments : ∀ id, ∃ time,
    s'.environments.get? id = (s.environments.get? id).map (·.touch time)

/-- A bulk write after the same bulk write only touches what the first one wrote. -/
theorem Cascaded.touched (h : Cascaded clock ids flag rule s s' written)
    (hagain : Cascaded clock' ids flag rule s' s'' written') : Touched s' s'' where
  frame := hagain.frame
  environments id := by
    by_cases hid : id ∈ ids
    · obtain ⟨first, -, he'⟩ := h.listed id hid
      obtain ⟨second, -, he''⟩ := hagain.listed id hid
      refine ⟨second, ?_⟩
      rw [he'', he', Option.map_map, Option.map_map]
      exact congrArg (Option.map · _)
        (funext fun e => e.assign_assign flag rule first second)
    · rw [hagain.unlisted id hid]
      cases he : s'.environments.get? id with
      | none => exact ⟨default, rfl⟩
      | some e => exact ⟨e.updatedAt, rfl⟩

/-- It also reaches as many environments. -/
theorem Cascaded.count_eq (h : Cascaded clock ids flag rule s s' written)
    (hagain : Cascaded clock' ids flag rule s' s'' written') : written' = written := by
  have hcontains : s'.environments.contains = s.environments.contains := funext h.contains
  rw [hagain.count, h.count, hcontains]

end Store

variable {supply : Supply}

/-- What a resync of a flag has done that succeeded, from the project as it was found. -/
structure Resynced (supply : Supply) (project flag : String) (found : Project)
    (p p' : ServiceState) (report : CascadeReport) : Prop where
  /-- Every environment that is listed and exists has the entry of the project. -/
  converged : ∀ id ∈ found.environmentIds, ∀ e', p'.store.environments.get? id = some e' →
    e'.flags.get? flag = found.flags.get? flag
  reportedFlag : report.flag = flag
  reportedOperation : report.operation = .set ↔ (found.flags.get? flag).isSome
  /-- The report counts the environments that exist and are listed. -/
  reportedCount : report.environments
    = (p.store.environments.keys.filter (· ∈ found.environmentIds)).length
  /-- Projects and switches are as they were. -/
  frame : p'.store = { p.store with environments := p'.store.environments }
  /-- Environments that are not listed are exactly as they were. -/
  unlisted : ∀ id, id ∉ found.environmentIds →
    p'.store.environments.get? id = p.store.environments.get? id
  /-- No environment has come or gone, and those that are listed agree with what they were but for
  the flag. -/
  listed : ∀ id ∈ found.environmentIds,
    Option.Rel (Environment.AgreesBut (.flag flag)) (p.store.environments.get? id)
      (p'.store.environments.get? id)
  /-- The same resync again returns the same report and only touches environments. -/
  again : ∃ p'', (Command.resyncFlag project flag).program.run supply p' = (.ok report, p'') ∧
    Touched p'.store p''.store

/-- A resync of a project that lists no id twice succeeds, unless it lists something and the switch
is on. -/
theorem resynced_or_unchanged {p : ServiceState} (hfaults : p.faults = []) {project : String}
    {found : Project} (hp : p.store.projects.get? project = some found)
    (hnodup : found.environmentIds.Nodup) (flag : String) :
    (∃ report p', (Command.resyncFlag project flag).program.run supply p = (.ok report, p') ∧
      Resynced supply project flag found p p' report) ∨
    ∃ p', (Command.resyncFlag project flag).program.run supply p
        = (.error (.partialCascade flag), p') ∧ p'.store = p.store ∧
      found.environmentIds ≠ [] ∧ p.store.environmentWritesFail = true := by
  obtain ⟨written, p', hrun, hworks, hcascaded⟩ | hfailed :=
    Propagation.run_resyncFlag supply p hp hfaults flag
  case inr => exact .inr hfailed
  refine .inl ⟨_, p', hrun, ?_⟩
  constructor
  case reportedFlag => rfl
  case frame => exact hcascaded.frame
  case unlisted => exact hcascaded.unlisted
  case converged =>
    -- what exists afterwards existed before, with the flag written to it
    intro id hid e' he'
    obtain ⟨time, -, hlisted⟩ := hcascaded.listed id hid
    obtain ⟨e, -, rfl⟩ := Option.map_eq_some_iff.1 (hlisted.symm.trans he')
    rw [Environment.assign, FlagMap.get?_assign, if_pos rfl]
  case reportedOperation => cases found.flags.get? flag <;> simp [Propagation.cascadeOperation]
  case reportedCount => rw [hcascaded.count, p.store.environments.length_filter_contains hnodup]
  case listed =>
    intro id hid
    obtain ⟨time, -, hlisted⟩ := hcascaded.listed id hid
    rw [hlisted]
    cases p.store.environments.get? id with
    | none => exact .none
    | some e => exact .some (e.agreesBut_assign flag _ time)
  case again =>
    -- the second run finds the same project, and what it writes is there already
    have hfaults' : p'.faults = [] := by
      have := Program.run_faults supply (Propagation.resyncFlag project flag) p
      rwa [hrun, hfaults] at this
    have hp' : p'.store.projects.get? project = some found := by rw [hcascaded.projects, hp]
    obtain ⟨written', p'', hrun', -, hagain⟩ | ⟨p'', -, -, hlisted, hfail⟩ :=
      Propagation.run_resyncFlag supply p' hp' hfaults' flag
    · rw [← hcascaded.count_eq hagain]
      exact ⟨p'', hrun', hcascaded.touched hagain⟩
    · -- the switch is as it was when the first resync went through
      have hswitch : p'.store.environmentWritesFail = p.store.environmentWritesFail := by
        rw [hcascaded.frame]
      rw [hswitch, hworks hlisted] at hfail
      cases hfail

namespace Journal

/-- **Resync repairs any divergence**: at every point of a run, a resync of a flag of a project that
exists brings the environments in line with the project, or it fails and changes nothing because
there is something to write and environments cannot be written. -/
theorem resynced_run (acts : List Act) {project : String} {found : Project}
    (hp : (run supply acts).service.store.projects.get? project = some found) (flag : String) :
    let p := (run supply acts).service
    (∃ report p', (Command.resyncFlag project flag).program.run supply p = (.ok report, p') ∧
      Resynced supply project flag found p p' report) ∨
    ∃ p', (Command.resyncFlag project flag).program.run supply p
        = (.error (.partialCascade flag), p') ∧ p'.store = p.store ∧
      found.environmentIds ≠ [] ∧ p.store.environmentWritesFail = true := by
  have hlinks : (run supply acts).service.store.links project = some found.environmentIds := by
    rw [links, hp]
    rfl
  exact resynced_or_unchanged (faults_run supply acts) hp ((filed_run acts).nodup hlinks) flag

/-- A flag that was added while its environment could not be written, and is sent again. -/
theorem resynced_run_partly :
    let acts : List Act :=
      [.command (.createProject "shop"), .command (.createEnvironment "shop" "test"),
        .failEnvironmentWrites true, .command (.addFlag "shop" ⟨"dark", default⟩),
        .failEnvironmentWrites false]
    let p := (run Supply.counting acts).service
    p.store.environmentFlag "iiiii" "dark" = none ∧
      ∃ found, p.store.projects.get? "shop" = some found ∧
        (found.flags.get? "dark").isSome = true ∧
        ((∃ report p', (Command.resyncFlag "shop" "dark").program.run Supply.counting p
            = (.ok report, p') ∧ Resynced Supply.counting "shop" "dark" found p p' report) ∨
          ∃ p', (Command.resyncFlag "shop" "dark").program.run Supply.counting p
              = (.error (.partialCascade "dark"), p') ∧ p'.store = p.store ∧
            found.environmentIds ≠ [] ∧ p.store.environmentWritesFail = true) := by
  intro acts p
  have hhas : (p.store.projectFlag "shop" "dark").isSome = true := by decide +kernel
  have hdiverges : (p.store.environmentFlag "iiiii" "dark").isSome = false := by decide +kernel
  obtain ⟨found, hp⟩ := Option.isSome_iff_exists.1
    (by decide +kernel : (p.store.projects.get? "shop").isSome = true)
  rw [projectFlag_eq hp] at hhas
  exact ⟨by simpa using hdiverges, found, hp, hhas, resynced_run acts hp "dark"⟩

end Journal

end FeatureFlags

import FeatureFlags.Proofs.History.Effects

/-!
Propagation equals its history.

After every run, the flags of an environment and of a project are what the replays of the journal
make of it, and an environment is listed by its owner and by no other project.  The first two follow
entry by entry from the tables of effects.  The third needs an invariant, `Owned`: ids that are
listed have been issued, so that a new environment is not listed by a project already, neither by
one that lists an id which was deleted but could not be detached, nor by a project that was deleted
and created again.
-/

namespace FeatureFlags

open Store

variable {supply : Supply} {p p' : ServiceState}

/-! ### Owners -/

/-- The projects list what they own: every id that is listed, and each environment that exists. -/
structure Owned (supply : Supply) (p : ServiceState) (owner : String → Option String) : Prop where
  owner_of_lists : ∀ {name id}, p.store.Lists name id → owner id = some name
  lists_of_owner : ∀ {name id}, p.store.environments.contains id = true → owner id = some name →
    p.store.Lists name id
  issued_of_lists : ∀ {name id}, p.store.Lists name id → supply.Issued p.steps id

namespace Owned

variable {owner : String → Option String}

theorem fresh : Owned supply .fresh fun _ => none where
  owner_of_lists := by
    rintro name id ⟨ids, h, -⟩
    cases h
  lists_of_owner := by
    intro name id h
    cases h
  issued_of_lists := by
    rintro name id ⟨ids, h, -⟩
    cases h

/-- A part of a run that changes neither lists nor which environments there are. -/
theorem frame (h : Owned supply p owner)
    (hlists : ∀ name id, p'.store.Lists name id ↔ p.store.Lists name id)
    (hcontains : ∀ id, p'.store.environments.contains id = p.store.environments.contains id)
    (hsteps : p.steps ≤ p'.steps) : Owned supply p' owner where
  owner_of_lists hl := h.owner_of_lists ((hlists _ _).1 hl)
  lists_of_owner hc ho := (hlists _ _).2 (h.lists_of_owner (hcontains _ ▸ hc) ho)
  issued_of_lists hl := (h.issued_of_lists ((hlists _ _).1 hl)).mono hsteps

/-- A new project lists nothing, and owned nothing that exists. -/
theorem insertProject (h : Owned supply p owner) {project : Project}
    (habsent : p.store.projects.get? project.name = none)
    (hempty : project.environmentIds = [])
    (hstore : p'.store = { p.store with
      projects := p.store.projects.insert project.name project })
    (hsteps : p.steps ≤ p'.steps) : Owned supply p' owner := by
  refine h.frame (fun name id => ?_) (fun id => by rw [hstore]) hsteps
  rw [Store.Lists, hstore, links_insert, hempty]
  split
  case isTrue hname => simp [hname, Store.Lists, links, habsent]
  case isFalse => rfl

/-- A deleted project owns nothing any more. -/
theorem eraseProject (h : Owned supply p owner) {project : String}
    (hstore : p'.store = { p.store with projects := p.store.projects.erase project })
    (hsteps : p.steps ≤ p'.steps) :
    Owned supply p' fun id => if owner id = some project then none else owner id := by
  have hlists : ∀ name id,
      p'.store.Lists name id ↔ name ≠ project ∧ p.store.Lists name id := by
    intro name id
    rw [Store.Lists, hstore, links_erase]
    split
    case isTrue hname => simp [hname]
    case isFalse hname => simp [hname, Store.Lists]
  constructor
  · intro name id hl
    obtain ⟨hne, hl⟩ := (hlists name id).1 hl
    have howner := h.owner_of_lists hl
    rw [if_neg (by simpa [howner] using hne), howner]
  · intro name id hc ho
    split at ho
    case isTrue => cases ho
    case isFalse hne =>
      refine (hlists name id).2 ⟨?_, h.lists_of_owner ?_ ho⟩
      · rintro rfl
        exact hne ho
      · rw [hstore] at hc
        exact hc
  · intro name id hl
    exact (h.issued_of_lists ((hlists name id).1 hl).2).mono hsteps

/-- A new environment is owned by the project that lists it.  Its id is new, so no other project
lists it. -/
theorem insertEnvironment (h : Owned supply p owner) (hids : Function.Injective supply.id)
    {project : String} {found : Project} {e : Environment} {k : Nat} {time : Timestamp}
    (hk : p.steps ≤ k) (hid : e.id = supply.id k)
    (hp : p.store.projects.get? project = some found)
    (henvs : p'.store.environments = p.store.environments.insert e.id e)
    (hprojects : p'.store.projects
      = p.store.projects.insert project { found.enlist e.id with updatedAt := time })
    (hsteps : k < p'.steps) :
    Owned supply p' fun id => if id = e.id then some project else owner id := by
  -- a project may list ids of environments that are gone, but not one that has just been issued
  have hunlisted : ∀ name, ¬ p.store.Lists name e.id := by
    intro name hl
    exact Supply.not_issued hids hk (hid ▸ h.issued_of_lists hl)
  have hlists := lists_enlist hp hprojects
  constructor
  · intro name id hl
    obtain hl | ⟨rfl, rfl⟩ := (hlists name id).1 hl
    · have hne : id ≠ e.id := fun heq => hunlisted name (heq ▸ hl)
      rw [if_neg hne, h.owner_of_lists hl]
    · rw [if_pos rfl]
  · intro name id hc ho
    rw [SortedMap.contains, henvs, SortedMap.get?_insert] at hc
    split at ho
    case isTrue heq => exact (hlists name id).2 (.inr ⟨(Option.some.inj ho).symm, heq⟩)
    case isFalse hne =>
      rw [if_neg hne] at hc
      exact (hlists name id).2 (.inl (h.lists_of_owner hc ho))
  · intro name id hl
    obtain hl | ⟨-, rfl⟩ := (hlists name id).1 hl
    · exact (h.issued_of_lists hl).mono (by omega)
    · exact ⟨k, hsteps, hid.symm⟩

/-- A deleted environment need not be listed any more. -/
theorem eraseEnvironment (h : Owned supply p owner) {target : String}
    (henvs : p'.store.environments = p.store.environments.erase target)
    (hlists : ∀ name id, (p'.store.Lists name id → p.store.Lists name id) ∧
      (id ≠ target → p.store.Lists name id → p'.store.Lists name id))
    (hsteps : p.steps ≤ p'.steps) : Owned supply p' owner := by
  constructor
  · intro name id hl
    exact h.owner_of_lists ((hlists name id).1 hl)
  · intro name id hc ho
    rw [SortedMap.contains, henvs, SortedMap.get?_erase] at hc
    split at hc
    case isTrue => cases hc
    case isFalse hne => exact (hlists name id).2 hne (h.lists_of_owner hc ho)
  · intro name id hl
    exact (h.issued_of_lists ((hlists name id).1 hl)).mono hsteps

/-- Every command keeps the lists in line with the owners. -/
theorem command (h : Owned supply p owner) (hids : Function.Injective supply.id)
    (hfaults : p.faults = []) {command : Command} {outcome : Except ApiError command.Result}
    (hrun : command.program.run supply p = (outcome, p')) :
    Owned supply p' fun id => command.ownerEffect id (owner id) outcome := by
  have hsteps : p.steps ≤ p'.steps := by
    have := Program.steps_le_run supply command.program p
    rwa [hrun] at this
  have hfail : p'.store = p.store → Owned supply p' owner := fun hstore =>
    h.frame (fun _ _ => by rw [hstore]) (fun _ => by rw [hstore]) hsteps
  have hends := Command.ends_run hfaults hrun
  generalize hs : p.store = s, hs' : p'.store = s' at hends
  cases command with
  | createProject name =>
    cases hends with
    | failed => exact hfail (hs'.trans hs.symm)
    | @createProject _ id time _ hid htime habsent =>
      subst hs
      have hempty : (Project.new id name time).environmentIds = [] := rfl
      refine h.insertProject ?_ hempty hs' hsteps
      exact habsent
  | deleteProject name =>
    cases hends with
    | failed => exact hfail (hs'.trans hs.symm)
    | deleteProject hp =>
      subst hs
      exact h.eraseProject hs' hsteps
  | createEnvironment project name =>
    cases hends with
    | failed => exact hfail (hs'.trans hs.symm)
    | createEnvironment hp hid =>
      subst hs
      obtain ⟨k, hk, hlt, rfl⟩ := hid
      exact h.insertEnvironment hids hk rfl hp (congrArg Store.environments hs')
        (congrArg Store.projects hs') hlt
  | deleteEnvironment id =>
    cases hends with
    | failed => exact hfail (hs'.trans hs.symm)
    | deleteEnvironment hid hlinks hdetached =>
      subst hs hs'
      refine h.eraseEnvironment (by rw [hdetached.frame]) (fun name other => ?_) hsteps
      have hlists := hdetached.lists name other
      exact ⟨fun hl => (hlists.1 hl).1, fun hne hl => hlists.2 ⟨hl, hne⟩⟩
    | deleteEnvironmentAlone =>
      subst hs
      exact h.eraseEnvironment (by rw [hs']) (fun name other => by simp [hs', Store.Lists, links])
        hsteps
  | _ =>
    have hlinks := fun name => Command.run_keeps (·.links name)
      (fun hs hm => links_perform hs hm name) hrun (by simp [Command.methods, Method.relinks])
    have hcontains := fun id => Command.run_keeps (·.environments.contains id)
      (fun hs hm => contains_perform hs hm id) hrun
      (by simp [Command.methods, Method.placesEnvironments])
    exact h.frame (fun name id => by rw [Store.Lists, hlinks, Store.Lists]) hcontains hsteps

end Owned

/-! ### Runs -/

namespace Journal

theorem owned_run (hids : Function.Injective supply.id) (acts : List Act) :
    Owned supply (run supply acts).service fun id => ownerReplay id (run supply acts).entries := by
  refine run_induction supply Owned.fresh (fun j command outcome p' ih hfaults hrun => ?_)
    (fun j s ih hprojects henvs => ?_) acts
  · exact ih.command hids hfaults hrun
  · exact ih.frame (fun name id => by simp [Store.Lists, links, hprojects])
      (fun id => by rw [henvs]) (Nat.le_refl _)

theorem environmentFlags_run (acts : List Act) (id : String) :
    (run supply acts).service.store.environmentFlags id
      = environmentReplay id (run supply acts).entries := by
  refine run_induction supply rfl (fun j command outcome p' ih hfaults hrun => ?_)
    (fun j s ih _ henvs => ?_) acts
  · rw [(Command.ends_run hfaults hrun).environmentFlags id, ih]
    rfl
  · rw [← ih, environmentFlags, environmentFlags, henvs]

theorem projectFlags_run (acts : List Act) (name : String) :
    (run supply acts).service.store.projectFlags name
      = projectReplay name (run supply acts).entries := by
  refine run_induction supply rfl (fun j command outcome p' ih hfaults hrun => ?_)
    (fun j s ih hprojects _ => ?_) acts
  · rw [(Command.ends_run hfaults hrun).projectFlags name, ih]
    rfl
  · rw [← ih, projectFlags, projectFlags, hprojects]

/-- **Propagation equals its history.**  If ids never repeat, then at every point of a run the flags
of each environment and of each project are the replays of what has happened to them, and the
environments that exist are listed by the projects that own them and by no others. -/
theorem propagation_eq_replay (hids : Function.Injective supply.id) (acts : List Act) :
    let j := run supply acts
    (∀ id, j.service.store.environmentFlags id = environmentReplay id j.entries) ∧
      (∀ name, j.service.store.projectFlags name = projectReplay name j.entries) ∧
      ∀ name id, j.service.store.environments.contains id = true →
        (j.service.store.Lists name id ↔ ownerReplay id j.entries = some name) := by
  have howned := owned_run hids acts
  refine ⟨environmentFlags_run acts, projectFlags_run acts, fun name id hexists => ?_⟩
  constructor
  · intro hlists
    exact howned.owner_of_lists hlists
  · intro howner
    exact howned.lists_of_owner hexists howner

/-- A run in which a project is deleted and created again: the environment of the first one keeps
its flags, and the second one neither lists it nor sends it a flag. -/
theorem propagation_eq_replay_recreated :
    let acts : List Act :=
      [.command (.createProject "shop"), .command (.createEnvironment "shop" "test"),
        .command (.addFlag "shop" ⟨"dark", default⟩), .failProjectLinks true,
        .command (.deleteProject "shop"), .command (.createProject "shop"),
        .command (.addFlag "shop" ⟨"beta", default⟩)]
    let j := run Supply.counting acts
    Function.Injective Supply.counting.id ∧
      j.service.store.environments.contains "iiiii" = true ∧
      j.service.store.environmentFlags "iiiii" = environmentReplay "iiiii" j.entries ∧
      (environmentReplay "iiiii" j.entries).map (·.keys) = some ["dark"] ∧
      (j.service.store.projectFlags "shop" = projectReplay "shop" j.entries) ∧
      (j.service.store.Lists "shop" "iiiii" ↔ ownerReplay "iiiii" j.entries = some "shop") ∧
      ownerReplay "iiiii" j.entries = none := by
  intro acts j
  have hexists : j.service.store.environments.contains "iiiii" = true := by decide +kernel
  obtain ⟨henvironment, hproject, hlists⟩ :=
    propagation_eq_replay Supply.counting_id_injective acts
  exact ⟨Supply.counting_id_injective, hexists, henvironment _, by decide +kernel, hproject _,
    hlists _ _ hexists, by decide +kernel⟩

end Journal

end FeatureFlags

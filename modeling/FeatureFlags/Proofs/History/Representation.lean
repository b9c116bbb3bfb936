import FeatureFlags.Proofs.History.Replay
import FeatureFlags.Proofs.Isolation

/-!
What every store looks like that a run can lead to.

Documents are kept under their own names and ids, and no project lists an id twice; for this ids may
repeat (`Filed`).  If they do not repeat, then the journal says in which order the environments were
created, every project lists its ids in this order, and an environment that is gone but still listed
was deleted while links could not be written (`Ordered`).  Together with the owners of environments
this is the invariant that the two collections of documents keep (`Represented`).
-/

namespace FeatureFlags

open Store

variable {supply : Supply} {m n : Nat} {command : Command}
  {outcome : Except ApiError command.Result} {s s' : Store}

/-! ### Creations -/

/-- The id of the environment that a command has created. -/
def Command.createdId : (command : Command) → Except ApiError command.Result → Option String
  | .createEnvironment .., .ok (environment : Environment) => some environment.id
  | _, _ => none

/-- The ids of the environments that have been created, the first one first. -/
def Journal.created : List Entry → List String
  | [] => []
  | entry :: earlier => created earlier ++ (entry.command.createdId entry.outcome).toList

/-- Where the ids come from that a project lists after a command: a project that is new lists none,
another one lists some of those that it listed before, or these and the one of a new environment. -/
inductive Relinked (created : Option String) (before : Option (List String)) :
    List String → Prop where
  | new : Relinked created before []
  | sublist {ids ids' : List String} (hids : before = some ids) (hsublist : ids'.Sublist ids) :
      Relinked created before ids'
  | enlisted {ids : List String} {id : String} (hids : before = some ids)
      (hcreated : created = some id) (hid : id ∉ ids) : Relinked created before (ids ++ [id])

namespace Command

theorem relinked_linksEffect {name : String} {before : Option (List String)} {ids' : List String}
    (h : command.linksEffect s name before outcome = some ids') :
    Relinked (command.createdId outcome) before ids' := by
  have hkept : before = some ids' → Relinked (command.createdId outcome) before ids' :=
    fun hids => .sublist hids (List.Sublist.refl _)
  cases outcome with
  | error error =>
    rw [linksEffect_error] at h
    exact hkept h
  | ok result =>
    cases command with
    | createProject project =>
      simp only [linksEffect] at h
      split at h
      · obtain rfl := Option.some.inj h
        exact .new
      · exact hkept h
    | deleteProject project =>
      simp only [linksEffect] at h
      split at h
      · cases h
      · exact hkept h
    | createEnvironment project name =>
      simp only [linksEffect] at h
      split at h
      · obtain ⟨ids, hids, rfl⟩ := Option.map_eq_some_iff.1 h
        split
        case isTrue => exact .sublist hids (List.Sublist.refl _)
        case isFalse hid => exact .enlisted hids rfl hid
      · exact hkept h
    | deleteEnvironment target =>
      simp only [linksEffect] at h
      split at h
      · exact hkept h
      · obtain ⟨ids, hids, rfl⟩ := Option.map_eq_some_iff.1 h
        exact .sublist hids (List.filter_sublist ..)
    | _ => exact hkept h

theorem Ends.relinked (h : Ends supply m n command outcome s s') {name : String}
    {ids' : List String} (hids' : s'.links name = some ids') :
    Relinked (command.createdId outcome) (s.links name) ids' :=
  relinked_linksEffect ((h.links name).symm.trans hids')

/-- An id that is listed after a command was listed before, or is the one of a new environment. -/
theorem Ends.lists (h : Ends supply m n command outcome s s') {name id : String}
    (hlists : s'.Lists name id) : s.Lists name id ∨ command.createdId outcome = some id := by
  obtain ⟨ids', hids', hmem⟩ := hlists
  cases h.relinked hids' with
  | new => cases hmem
  | sublist hids hsublist => exact .inl ⟨_, hids, hsublist.subset hmem⟩
  | enlisted hids hcreated =>
    obtain hmem | hmem := List.mem_append.1 hmem
    · exact .inl ⟨_, hids, hmem⟩
    · exact .inr (List.mem_singleton.1 hmem ▸ hcreated)

/-- An environment that goes but stays listed was deleted while links could not be written. -/
theorem Ends.deleted_alone (h : Ends supply m n command outcome s s') {name id : String}
    (hexists : s.environments.contains id = true) (hgone : s'.environments.contains id = false)
    (hlists : s'.Lists name id) :
    s.projectLinksFail = true ∧
      (⟨s, command, outcome⟩ : Entry) = ⟨s, .deleteEnvironment id, .ok ()⟩ := by
  obtain rfl := h.isolated.deleted id hexists hgone
  cases h with
  | failed => exact absurd (hgone.symm.trans hexists) Bool.false_ne_true
  | deleteEnvironment hid hlinks hdetached =>
    exact absurd rfl ((hdetached.lists name id).1 hlists).2
  | deleteEnvironmentAlone hid hlinks => exact ⟨hlinks, rfl⟩

/-- While links can be written, a deletion takes the id out of every list. -/
theorem Ends.unlinked {id : String}
    (h : Ends supply m n (.deleteEnvironment id) (.ok ()) s s')
    (hlinks : s.projectLinksFail = false) :
    (∀ name, s'.links name = (s.links name).map (·.filter (· ≠ id))) ∧
      ∀ name, ¬ s'.Lists name id := by
  cases h with
  | deleteEnvironment hid _ hdetached =>
    exact ⟨hdetached.links, fun name hlists => ((hdetached.lists name id).1 hlists).2 rfl⟩
  | deleteEnvironmentAlone hid hfail => exact absurd (hlinks.symm.trans hfail) Bool.false_ne_true

/-- An environment that does not exist cannot be deleted. -/
theorem Ends.undeletable {id : String} {outcome : Except ApiError Unit}
    (h : Ends supply m n (.deleteEnvironment id) outcome s s')
    (habsent : s.environments.contains id = false) : (∃ e, outcome = .error e) ∧ s' = s := by
  cases h with
  | failed => exact ⟨⟨_, rfl⟩, rfl⟩
  | deleteEnvironment hid | deleteEnvironmentAlone hid =>
    exact absurd (habsent.symm.trans hid) Bool.false_ne_true

/-- The id of a new environment is one that the run has taken, and the environment exists. -/
theorem Ends.createdId (h : Ends supply m n command outcome s s') {id : String}
    (hid : command.createdId outcome = some id) :
    supply.Names m n id ∧ s'.environments.contains id = true := by
  cases h with
  | createEnvironment hp hnames =>
    obtain rfl := Option.some.inj hid
    refine ⟨hnames, ?_⟩
    rw [SortedMap.contains, SortedMap.get?_insert]
    exact if_pos rfl ▸ rfl
  | failed => cases command <;> cases hid
  | _ => cases hid

end Command

/-! ### Documents under their own names -/

/-- Documents are kept under their own names and ids, and no project lists an id twice. -/
structure Filed (s : Store) : Prop where
  name : ∀ {name project}, s.projects.get? name = some project → project.name = name
  id : ∀ {id e}, s.environments.get? id = some e → e.id = id
  nodup : ∀ {name ids}, s.links name = some ids → ids.Nodup

theorem Filed.ends (h : Filed s) (hends : command.Ends supply m n outcome s s') : Filed s' where
  name {name project} hp := by
    have hfate := hends.project_fate name
    rw [hp] at hfate
    generalize hbefore : s.projects.get? name = before at hfate
    cases hfate with
    | kept => exact h.name hbefore
    | changed haddressed hpart hagrees => exact hagrees.name.trans (h.name hbefore)
    | created hcommand hname => exact hname
  id {id e} he := by
    have hfate := hends.environment_fate id
    rw [he] at hfate
    generalize hbefore : s.environments.get? id = before at hfate
    cases hfate with
    | kept => exact h.id hbefore
    | changed haddressed hpart hagrees => exact hagrees.id.trans (h.id hbefore)
    | created hcommand hid => exact hid
  nodup {name ids'} hids' := by
    cases hends.relinked hids' with
    | new => exact List.nodup_nil
    | sublist hids hsublist => exact hsublist.nodup (h.nodup hids)
    | enlisted hids hcreated hid =>
      refine List.nodup_append.2 ⟨h.nodup hids, by simp, ?_⟩
      rintro old hold new hnew rfl
      exact hid (List.mem_singleton.1 hnew ▸ hold)

theorem Journal.filed_run (acts : List Act) : Filed (run supply acts).service.store := by
  refine run_induction supply ?_ (fun j command outcome p' ih hfaults hrun => ?_)
    (fun j s ih hprojects henvs => ?_) acts
  · constructor <;> intro _ _ h <;> cases h
  · exact ih.ends (Command.ends_run hfaults hrun)
  · exact ⟨fun h => ih.name (hprojects ▸ h), fun h => ih.id (henvs ▸ h),
      fun h => ih.nodup (by rwa [links, hprojects] at h)⟩

/-! ### The order of creation -/

/-- Every project lists its ids in the order of their creation, and an environment that is gone but
still listed was deleted while links could not be written. -/
structure Ordered (supply : Supply) (p : ServiceState) (entries : List Entry) : Prop where
  issued : ∀ id ∈ Journal.created entries, supply.Issued p.steps id
  nodup : (Journal.created entries).Nodup
  sublist : ∀ {name ids}, p.store.links name = some ids →
    ids.Sublist (Journal.created entries)
  dangling : ∀ {name id}, p.store.Lists name id → p.store.environments.contains id = false →
    ∃ before : Store, before.projectLinksFail = true ∧
      ⟨before, .deleteEnvironment id, .ok ()⟩ ∈ entries

namespace Ordered

variable {p p' : ServiceState} {entries : List Entry}

theorem ends (h : Ordered supply p entries) (hids : Function.Injective supply.id)
    (hsteps : p.steps ≤ p'.steps)
    (hends : command.Ends supply p.steps p'.steps outcome p.store p'.store) :
    Ordered supply p' (⟨p.store, command, outcome⟩ :: entries) where
  issued id hid := by
    obtain hid | hid := List.mem_append.1 hid
    · exact (h.issued id hid).mono hsteps
    · obtain ⟨⟨k, -, hk, hid⟩, -⟩ := hends.createdId (Option.mem_toList.1 hid)
      exact ⟨k, hk, hid⟩
  nodup := by
    refine List.nodup_append.2 ⟨h.nodup, ?_, ?_⟩
    · cases command.createdId outcome <;> simp
    · -- the new id is one that no step before has taken
      rintro old hold new hnew rfl
      obtain ⟨⟨k, hk, -, rfl⟩, -⟩ := hends.createdId (Option.mem_toList.1 hnew)
      exact Supply.not_issued hids hk (h.issued _ hold)
  sublist {name ids'} hids' := by
    cases hends.relinked hids' with
    | new => exact List.nil_sublist _
    | sublist hids hsublist =>
      exact (hsublist.trans (h.sublist hids)).trans (List.sublist_append_left ..)
    | enlisted hids hcreated =>
      rw [Journal.created, hcreated]
      exact (h.sublist hids).append (List.Sublist.refl _)
  dangling {name id} hlists habsent := by
    cases hbefore : p.store.environments.contains id with
    | true =>
      obtain ⟨hlinks, hentry⟩ := hends.deleted_alone hbefore habsent hlists
      exact ⟨p.store, hlinks, hentry ▸ List.mem_cons_self ..⟩
    | false =>
      obtain hlisted | hnew := hends.lists hlists
      · obtain ⟨before, hlinks, hentry⟩ := h.dangling hlisted hbefore
        exact ⟨before, hlinks, List.mem_cons_of_mem _ hentry⟩
      · exact absurd (habsent.symm.trans (hends.createdId hnew).2) Bool.false_ne_true

end Ordered

namespace Journal

theorem ordered_run (hids : Function.Injective supply.id) (acts : List Act) :
    Ordered supply (run supply acts).service (run supply acts).entries := by
  refine run_induction supply ?_ (fun j command outcome p' ih hfaults hrun => ?_)
    (fun j s ih hprojects henvs => ?_) acts
  · refine ⟨by simp [fresh, created], List.nodup_nil, ?_, ?_⟩
    · intro name ids h
      cases h
    · rintro name id ⟨ids, h, -⟩
      cases h
  · have hsteps := Program.steps_le_run supply command.program j.service
    rw [hrun] at hsteps
    exact ih.ends hids hsteps (Command.ends_run hfaults hrun)
  · refine ⟨ih.issued, ih.nodup, fun h => ih.sublist (by rwa [links, hprojects] at h), ?_⟩
    intro name id hlists habsent
    rw [henvs] at habsent
    exact ih.dangling (by simpa [Store.Lists, links, hprojects] using hlists) habsent

/-! ### The representation of every store -/

/-- What holds of the store of a journal, and what deleting an environment does to it. -/
structure Represented (supply : Supply) (j : Journal) : Prop where
  /-- Every project is stored under its own name. -/
  projectName : ∀ name project, j.service.store.projects.get? name = some project →
    project.name = name
  /-- Every environment is stored under its own id. -/
  environmentId : ∀ id e, j.service.store.environments.get? id = some e → e.id = id
  /-- No project lists an id twice. -/
  nodup : ∀ name ids, j.service.store.links name = some ids → ids.Nodup
  /-- No id is listed by two projects. -/
  unique : ∀ name other id, j.service.store.Lists name id → j.service.store.Lists other id →
    name = other
  /-- No id was given to two environments. -/
  createdNodup : (created j.entries).Nodup
  /-- A project lists its ids in the order in which the environments were created. -/
  inOrder : ∀ name ids, j.service.store.links name = some ids → ids.Sublist (created j.entries)
  /-- An id that is listed without an environment was deleted while links could not be written. -/
  dangling : ∀ name id, j.service.store.Lists name id →
    j.service.store.environments.contains id = false →
    ∃ before : Store, before.projectLinksFail = true ∧
      ⟨before, .deleteEnvironment id, .ok ()⟩ ∈ j.entries
  /-- While links can be written, an environment that exists can be deleted, and then every project
  lists what it listed before without its id, in the same order. -/
  unlinked : ∀ id, j.service.store.projectLinksFail = false →
    j.service.store.environments.contains id = true →
    ∃ p', (Command.deleteEnvironment id).program.run supply j.service = (.ok (), p') ∧
      (∀ name, p'.store.links name = (j.service.store.links name).map (·.filter (· ≠ id))) ∧
      ∀ name, ¬ p'.store.Lists name id
  /-- An environment that does not exist cannot be deleted, and nothing changes. -/
  undeletable : ∀ id, j.service.store.environments.contains id = false →
    ∃ e p', (Command.deleteEnvironment id).program.run supply j.service = (.error e, p') ∧
      p'.store = j.service.store

/-- **Representation invariant**: if ids never repeat, then at every point of a run documents are
stored under their own names, and projects list ids once, in one place and in order. -/
theorem represented_run (hids : Function.Injective supply.id) (acts : List Act) :
    (run supply acts).Represented supply where
  projectName name project := (filed_run acts).name
  environmentId id e := (filed_run acts).id
  nodup name ids := (filed_run acts).nodup
  unique name other id hname hother :=
    Option.some.inj (((owned_run hids acts).owner_of_lists hname).symm.trans
      ((owned_run hids acts).owner_of_lists hother))
  createdNodup := (ordered_run hids acts).nodup
  inOrder name ids := (ordered_run hids acts).sublist
  dangling name id := (ordered_run hids acts).dangling
  unlinked id hlinks hexists := by
    have hfaults := faults_run supply acts
    obtain ⟨p', hrun⟩ := Propagation.run_deleteEnvironment supply _ hfaults hexists
    have hended : (Command.deleteEnvironment id).program.run supply (run supply acts).service
        = (.ok (), p') := hrun
    exact ⟨p', hrun, (Command.ends_run hfaults hended).unlinked hlinks⟩
  undeletable id habsent := by
    have hended : (Command.deleteEnvironment id).program.run supply (run supply acts).service
        = (_, _) := rfl
    obtain ⟨⟨e, he⟩, hstore⟩ :=
      (Command.ends_run (faults_run supply acts) hended).undeletable habsent
    exact ⟨e, _, Prod.ext he rfl, hstore⟩

/-- A run in which one environment is deleted while links cannot be written, and another one while
they can. -/
theorem represented_run_dangling :
    let acts : List Act :=
      [.command (.createProject "shop"), .command (.createEnvironment "shop" "test"),
        .command (.createEnvironment "shop" "live"), .failProjectLinks true,
        .command (.deleteEnvironment "iiiii"), .failProjectLinks false]
    let j := run Supply.counting acts
    Function.Injective Supply.counting.id ∧
      j.service.store.links "shop" = some ["iiiii", "iiiiiiiiii"] ∧
      created j.entries = ["iiiii", "iiiiiiiiii"] ∧
      j.service.store.environments.contains "iiiii" = false ∧
      j.Represented Supply.counting := by
  intro acts j
  exact ⟨Supply.counting_id_injective, by decide +kernel, by decide +kernel, by decide +kernel,
    represented_run Supply.counting_id_injective acts⟩

end Journal

end FeatureFlags

import FeatureFlags.Proofs.Store.Operations

/-!
Stores whose keys are taken away.

Nothing that the store is asked to do looks at keys but to change them.  So it makes no difference
whether the keys are taken away before or only after a request has been carried out: the reply and
the store that it leaves are the same up to keys (`Store.erased_perform`).
-/

namespace FeatureFlags

namespace SortedMap

variable {α β γ : Type}

theorem mapValues_insert (f : String → α → β) (m : SortedMap α) (key : String) (value : α) :
    (m.insert key value).mapValues f = (m.mapValues f).insert key (f key value) := by
  apply SortedMap.ext
  intro k
  rw [get?_mapValues, get?_insert, get?_insert, get?_mapValues]
  split
  case isTrue hk => rw [hk, Option.map_some]
  case isFalse => rfl

theorem mapValues_erase (f : String → α → β) (m : SortedMap α) (key : String) :
    (m.erase key).mapValues f = (m.mapValues f).erase key := by
  apply SortedMap.ext
  intro k
  rw [get?_mapValues, get?_erase, get?_erase, get?_mapValues]
  split <;> rfl

theorem mapValues_mapValues (f : String → α → β) (g : String → β → γ) (m : SortedMap α) :
    (m.mapValues f).mapValues g = m.mapValues fun k value => g k (f k value) := by
  apply SortedMap.ext
  intro k
  rw [get?_mapValues, get?_mapValues, get?_mapValues, Option.map_map]
  rfl

theorem contains_mapValues (f : String → α → β) (m : SortedMap α) (key : String) :
    (m.mapValues f).contains key = m.contains key := by
  rw [contains, contains, get?_mapValues, Option.isSome_map]

end SortedMap

/-! ### Taking keys away -/

/-- The environment without its keys. -/
def Environment.keyless (e : Environment) : Environment :=
  { e with serverSideKeys := .empty, clientSideKeys := .empty }

@[simp] theorem Environment.flags_keyless (e : Environment) : e.keyless.flags = e.flags := rfl

namespace Store

/-- The store without the keys of its environments. -/
def keyless (s : Store) : Store :=
  { s with environments := s.environments.mapValues fun _ e => e.keyless }

theorem get?_keyless (s : Store) (id : String) :
    s.keyless.environments.get? id = (s.environments.get? id).map Environment.keyless :=
  SortedMap.get?_mapValues _ _ _

@[simp] theorem keyless_environmentWritesFail (s : Store) :
    s.keyless.environmentWritesFail = s.environmentWritesFail := rfl

@[simp] theorem keyless_projectLinksFail (s : Store) :
    s.keyless.projectLinksFail = s.projectLinksFail := rfl

@[simp] theorem projects_keyless (s : Store) : s.keyless.projects = s.projects := rfl

theorem keyless_keyless (s : Store) : s.keyless.keyless = s.keyless := by
  rw [keyless, keyless, SortedMap.mapValues_mapValues]
  rfl

/-- Whatever happens to the projects, happens to them without keys. -/
theorem keyless_projects (s : Store) (projects : SortedMap Project) :
    ({ s.keyless with projects } : Store).keyless = ({ s with projects } : Store).keyless :=
  congrArg (fun t : Store => { t with projects }) s.keyless_keyless

theorem keyless_environments (s : Store) {environments environments' : SortedMap Environment}
    (h : environments'.mapValues (fun _ e => e.keyless)
      = environments.mapValues fun _ e => e.keyless) :
    ({ s.keyless with environments := environments' } : Store).keyless
      = ({ s with environments } : Store).keyless :=
  congrArg (fun environments => { s with environments }) h

/-- A reply without the keys of the environment that it shows. -/
def Request.keyless : (request : Request) → request.Reply → request.Reply
  | .getEnvironment _, environment => Environment.keyless environment
  | .renameEnvironment .., environment => Environment.keyless environment
  | .ping, reply | .listProjects .., reply | .insertProject _, reply | .getProject _, reply
  | .deleteProject _, reply | .attachEnvironment .., reply | .detachEnvironment _, reply
  | .insertProjectFlag .., reply | .patchProjectFlag .., reply | .removeProjectFlag .., reply
  | .insertEnvironment _, reply | .deleteEnvironment _, reply | .setEnvironmentsFlag .., reply
  | .unsetEnvironmentsFlag .., reply | .patchEnvironmentFlag .., reply
  | .removeEnvironmentFlag .., reply | .insertApiKey .., reply | .deleteApiKey .., reply => reply

theorem Request.keyless_eq_id {request : Request} (hget : request.method ≠ .getEnvironment)
    (hrename : request.method ≠ .renameEnvironment) : request.keyless = id := by
  cases request with
  | getEnvironment => exact absurd rfl hget
  | renameEnvironment => exact absurd rfl hrename
  | _ => rfl

/-- A result up to keys. -/
def erased {α : Type} (hide : α → α) (result : Except StoreError (α × Store)) :
    Except StoreError (α × Store) :=
  result.map fun (reply, s) => (hide reply, s.keyless)

/-- Results that are the same up to keys: the same error, or replies and stores that are the same
up to keys. -/
theorem erased_cases {α : Type} {hide : α → α} {result result' : Except StoreError (α × Store)}
    (h : erased hide result = erased hide result') :
    (∃ error, result = .error error ∧ result' = .error error) ∨
      ∃ reply reply' s s', result = .ok (reply, s) ∧ result' = .ok (reply', s') ∧
        hide reply = hide reply' ∧ s.keyless = s'.keyless := by
  cases result with
  | error error =>
    cases result' with
    | error error' =>
      obtain rfl : error = error' := Except.error.inj h
      exact .inl ⟨error, rfl, rfl⟩
    | ok => cases h
  | ok =>
    cases result' with
    | error => cases h
    | ok =>
      obtain ⟨hreply, hstore⟩ := Prod.mk.inj (Except.ok.inj h)
      exact .inr ⟨_, _, _, _, rfl, rfl, hreply, hstore⟩

/-! ### Changes without keys -/

section

variable {α : Type} {hide : α → α}

theorem erased_unchanged {result result' : Except StoreError α}
    (h : result'.map hide = result.map hide) (s : Store) :
    erased hide (s.keyless.unchanged result') = erased hide (s.unchanged result) := by
  cases result with
  | error error =>
    cases result' with
    | error error' => exact congrArg Except.error (Except.error.inj h)
    | ok reply' => cases h
  | ok reply =>
    cases result' with
    | error error' => cases h
    | ok reply' =>
      have hreply : hide reply' = hide reply := Except.ok.inj h
      show Except.ok (hide reply', s.keyless.keyless) = .ok (hide reply, s.keyless)
      rw [hreply, keyless_keyless]

theorem erased_silent {result result' : Except StoreError Store}
    (h : result'.map keyless = result.map keyless) :
    erased id (silent result') = erased id (silent result) := by
  have hsilent : ∀ result : Except StoreError Store,
      erased id (silent result) = (result.map keyless).map ((), ·) := by
    intro result
    cases result <;> rfl
  rw [hsilent, hsilent, h]

/-- Changing an environment, seen without keys. -/
theorem erased_updateEnvironment_eq (change : Environment → Except StoreError (α × Environment))
    (s : Store) (id : String) :
    erased hide (s.updateEnvironment id change)
      = match s.environments.get? id with
        | none => .error (.notFound .environment)
        | some e => ((change e).map (Prod.map hide Environment.keyless)).map fun changed =>
          (changed.1, { s.keyless with
            environments := s.keyless.environments.insert id changed.2 }) := by
  rw [updateEnvironment]
  cases s.environments.get? id with
  | none => rfl
  | some e =>
    simp only
    cases change e with
    | error error => rfl
    | ok changed =>
      refine congrArg (fun environments => Except.ok (hide changed.1, { s with environments })) ?_
      exact SortedMap.mapValues_insert _ s.environments id changed.2

/-- A change of one environment that is the same without keys. -/
theorem erased_updateEnvironment {change : Environment → Except StoreError (α × Environment)}
    (h : ∀ e, (change e.keyless).map (Prod.map hide Environment.keyless)
      = (change e).map (Prod.map hide Environment.keyless)) (s : Store) (id : String) :
    erased hide (s.keyless.updateEnvironment id change)
      = erased hide (s.updateEnvironment id change) := by
  rw [erased_updateEnvironment_eq, erased_updateEnvironment_eq, get?_keyless, keyless_keyless]
  cases s.environments.get? id with
  | none => rfl
  | some e =>
    simp only [Option.map_some]
    rw [h e]

theorem erased_updateProject (change : Project → Except StoreError (α × Project)) (s : Store)
    (name : String) :
    erased id (s.keyless.updateProject name change)
      = erased id (s.updateProject name change) := by
  rw [updateProject, updateProject, projects_keyless]
  cases s.projects.get? name with
  | none => rfl
  | some project =>
    simp only
    cases change project with
    | error error => rfl
    | ok changed => exact congrArg (fun t => Except.ok (changed.1, t)) (keyless_projects s _)

end

theorem silent_map_snd (result : Except StoreError (Unit × Store)) :
    silent (result.map (·.2)) = result := by
  cases result <;> rfl

theorem erased_silent_updateEnvironment
    {change : Environment → Except StoreError (Unit × Environment)}
    (h : ∀ e, (change e.keyless).map (Prod.map id Environment.keyless)
      = (change e).map (Prod.map id Environment.keyless)) (s : Store) (environment : String) :
    erased id (silent ((s.keyless.updateEnvironment environment change).map (·.2)))
      = erased id (silent ((s.updateEnvironment environment change).map (·.2))) := by
  rw [silent_map_snd, silent_map_snd]
  exact erased_updateEnvironment h s environment

/-- Writing flags of environments goes past their keys. -/
theorem writeFlags_keyless (change : FlagMap → FlagMap) (now : Nat → Timestamp)
    (ids : List String) (written : Nat) (environments : SortedMap Environment) :
    writeFlags change now ids written (environments.mapValues fun _ e => e.keyless)
      = ((writeFlags change now ids written environments).1,
          (writeFlags change now ids written environments).2.mapValues fun _ e => e.keyless) := by
  induction ids generalizing written environments with
  | nil => rfl
  | cons id rest ih =>
    rw [writeFlags, writeFlags, SortedMap.get?_mapValues]
    cases environments.get? id with
    | none => exact ih written environments
    | some e =>
      simp only [Option.map_some]
      rw [← ih, SortedMap.mapValues_insert]
      rfl

theorem erased_updateEnvironmentFlags (ids : List String) (change : FlagMap → FlagMap)
    (now : Nat → Timestamp) (s : Store) :
    erased id (s.keyless.updateEnvironmentFlags ids change now)
      = erased id (s.updateEnvironmentFlags ids change now) := by
  rw [updateEnvironmentFlags, updateEnvironmentFlags, keyless_environmentWritesFail]
  split
  case isTrue => rfl
  case isFalse =>
    have hwritten : writeFlags change now ids 0 s.keyless.environments = _ :=
      writeFlags_keyless change now ids 0 s.environments
    rw [hwritten]
    refine congrArg (fun t => Except.ok ((writeFlags change now ids 0 s.environments).1, t)) ?_
    refine keyless_environments s ?_
    rw [SortedMap.mapValues_mapValues]
    rfl

/-! ### Requests without keys -/

theorem keyless_insertProject (s : Store) (project : Project) :
    (s.keyless.insertProject project).map keyless = (s.insertProject project).map keyless := by
  rw [insertProject, insertProject, projects_keyless]
  split
  case isTrue => rfl
  case isFalse => exact congrArg Except.ok (keyless_projects s _)

theorem keyless_insertEnvironment (s : Store) (environment : Environment) :
    (s.keyless.insertEnvironment environment).map keyless
      = (s.insertEnvironment environment).map keyless := by
  have hcontains : s.keyless.environments.contains environment.id
      = s.environments.contains environment.id := SortedMap.contains_mapValues _ _ _
  rw [insertEnvironment, insertEnvironment, hcontains]
  split
  case isTrue => rfl
  case isFalse =>
    refine congrArg Except.ok (keyless_environments s ?_)
    rw [keyless, SortedMap.mapValues_insert, SortedMap.mapValues_insert,
      SortedMap.mapValues_mapValues]
    rfl

theorem keyless_deleteEnvironment (s : Store) (id : String) :
    (s.keyless.deleteEnvironment id).map keyless = (s.deleteEnvironment id).map keyless := by
  rw [deleteEnvironment, deleteEnvironment, get?_keyless]
  cases s.environments.get? id with
  | none => rfl
  | some e =>
    refine congrArg Except.ok (keyless_environments s ?_)
    rw [keyless, SortedMap.mapValues_erase, SortedMap.mapValues_erase,
      SortedMap.mapValues_mapValues]
    rfl

theorem keyless_getEnvironment (s : Store) (id : String) :
    (s.keyless.getEnvironment id).map Environment.keyless
      = (s.getEnvironment id).map Environment.keyless := by
  rw [getEnvironment, getEnvironment, get?_keyless]
  cases s.environments.get? id <;> rfl

theorem erased_deleteProject (s : Store) (name : String) :
    erased id (s.keyless.deleteProject name) = erased id (s.deleteProject name) := by
  rw [deleteProject, deleteProject, projects_keyless]
  cases s.projects.get? name with
  | none => rfl
  | some project => exact congrArg (fun t => Except.ok (project, t)) (keyless_projects s _)

theorem erased_attachEnvironment (s : Store) (project environment : String) (now : Timestamp) :
    erased id (silent (s.keyless.attachEnvironment project environment now))
      = erased id (silent (s.attachEnvironment project environment now)) := by
  rw [attachEnvironment, attachEnvironment, keyless_projectLinksFail]
  split
  case isTrue => rfl
  case isFalse =>
    rw [silent_map_snd, silent_map_snd]
    exact erased_updateProject _ s project

theorem erased_detachEnvironment (s : Store) (environment : String) (now : Nat → Timestamp) :
    erased id (s.keyless.detachEnvironment environment now)
      = erased id (s.detachEnvironment environment now) := by
  rw [detachEnvironment, detachEnvironment, keyless_projectLinksFail, projects_keyless]
  split
  case isTrue => rfl
  case isFalse =>
    let detached := detachFrom environment now s.projects.keys 0 s.projects
    exact congrArg (fun t => Except.ok (detached.1, t)) (keyless_projects s detached.2)

/-- **Nothing depends on keys**: a request to the store without keys has the reply, and leaves the
store, that it has and leaves with them, up to keys. -/
theorem erased_perform (now : Nat → Timestamp) (s : Store) (request : Request) :
    erased request.keyless (s.keyless.perform now request)
      = erased request.keyless (s.perform now request) := by
  cases request with
  | ping => exact erased_unchanged rfl s
  | listProjects offset limit => exact erased_unchanged rfl s
  | getProject name => exact erased_unchanged rfl s
  | getEnvironment id => exact erased_unchanged (keyless_getEnvironment s id) s
  | insertProject project => exact erased_silent (keyless_insertProject s project)
  | insertEnvironment environment => exact erased_silent (keyless_insertEnvironment s environment)
  | deleteEnvironment id => exact erased_silent (keyless_deleteEnvironment s id)
  | deleteProject name => exact erased_deleteProject s name
  | attachEnvironment project id => exact erased_attachEnvironment s project id (now 0)
  | detachEnvironment id => exact erased_detachEnvironment s id now
  | insertProjectFlag project flag rule => exact erased_updateProject _ s project
  | patchProjectFlag project flag patch => exact erased_updateProject _ s project
  | removeProjectFlag project flag =>
    show erased id (s.keyless.removeProjectFlag project flag (now 0)) = _
    exact erased_updateProject _ s project
  | setEnvironmentsFlag ids flag rule => exact erased_updateEnvironmentFlags ids _ now s
  | unsetEnvironmentsFlag ids flag => exact erased_updateEnvironmentFlags ids _ now s
  | renameEnvironment id name =>
    show erased Environment.keyless (s.keyless.renameEnvironment id name (now 0)) = _
    exact erased_updateEnvironment (fun e => rfl) s id
  | patchEnvironmentFlag environment flag patch =>
    show erased id (s.keyless.patchEnvironmentFlag environment flag patch (now 0)) = _
    refine erased_updateEnvironment (fun e => ?_) s environment
    rw [e.flags_keyless]
    cases e.flags.get? flag <;> rfl
  | removeEnvironmentFlag environment flag =>
    exact erased_silent_updateEnvironment (fun _ => rfl) s environment
  | insertApiKey environment scope key descriptor =>
    exact erased_silent_updateEnvironment (fun e => by cases scope <;> rfl) s environment
  | deleteApiKey environment scope key =>
    exact erased_silent_updateEnvironment (fun e => by cases scope <;> rfl) s environment

end Store

end FeatureFlags

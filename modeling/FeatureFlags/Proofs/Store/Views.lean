import FeatureFlags.Proofs.Store.Operations

/-!
Views of a store, and which operations change them.

Four views say all that propagation is about: the flags of an environment, the flags of a project,
the ids that a project lists, and which environments there are.  For each view there is a table of
the operations that can change it; a request to any other operation leaves the view as it is
(`environmentFlags_perform`, `projectFlags_perform`, `links_perform`, `contains_perform`).
-/

namespace FeatureFlags

namespace Store

/-- The flags of an environment, if the store has it. -/
def environmentFlags (s : Store) (id : String) : Option FlagMap :=
  (s.environments.get? id).map (·.flags)

/-- The flags of a project, if the store has it. -/
def projectFlags (s : Store) (name : String) : Option FlagMap :=
  (s.projects.get? name).map (·.flags)

/-- What an environment says of a flag, if the store has it and it has the flag. -/
def environmentFlag (s : Store) (id flag : String) : Option FlagRule :=
  (s.environmentFlags id).bind (·.get? flag)

/-- What a project says of a flag, if the store has it and it has the flag. -/
def projectFlag (s : Store) (name flag : String) : Option FlagRule :=
  (s.projectFlags name).bind (·.get? flag)

/-- The ids that a project lists, if the store has it. -/
def links (s : Store) (name : String) : Option (List String) :=
  (s.projects.get? name).map (·.environmentIds)

/-- The store has the project, and it lists the id. -/
def Lists (s : Store) (name id : String) : Prop :=
  ∃ ids, s.links name = some ids ∧ id ∈ ids

instance (s : Store) (name id : String) : Decidable (s.Lists name id) :=
  match h : s.links name with
  | some ids => decidable_of_iff (id ∈ ids) (by simp [Lists, h])
  | none => isFalse (by simp [Lists, h])

namespace Method

/-- The operations that write to projects. -/
def writesProjects : Method → Bool
  | insertProject | deleteProject | attachEnvironment | detachEnvironment | insertProjectFlag
  | patchProjectFlag | removeProjectFlag => true
  | _ => false

/-- The operations that write to environments. -/
def writesEnvironments : Method → Bool
  | insertEnvironment | renameEnvironment | deleteEnvironment | setEnvironmentsFlag
  | unsetEnvironmentsFlag | patchEnvironmentFlag | removeEnvironmentFlag | insertApiKey
  | deleteApiKey => true
  | _ => false

/-- The operations after which an environment may have other flags. -/
def setsEnvironmentFlags : Method → Bool
  | insertEnvironment | deleteEnvironment | setEnvironmentsFlag | unsetEnvironmentsFlag
  | patchEnvironmentFlag | removeEnvironmentFlag => true
  | _ => false

/-- The operations after which a project may have other flags. -/
def setsProjectFlags : Method → Bool
  | insertProject | deleteProject | insertProjectFlag | patchProjectFlag | removeProjectFlag =>
    true
  | _ => false

/-- The operations after which a project may list other ids. -/
def relinks : Method → Bool
  | insertProject | deleteProject | attachEnvironment | detachEnvironment => true
  | _ => false

/-- The operations after which there may be other environments. -/
def placesEnvironments : Method → Bool
  | insertEnvironment | deleteEnvironment => true
  | _ => false

end Method

variable {s s' : Store} {now : Nat → Timestamp} {request : Request} {reply : request.Reply}

theorem unchanged_eq_ok {α : Type} {result : Except StoreError α} {a : α} :
    s.unchanged result = .ok (a, s') ↔ result = .ok a ∧ s' = s := by
  cases result <;> simp [unchanged, Except.map, eq_comm]

theorem silent_eq_ok {result : Except StoreError Store} {u : Unit} :
    silent result = .ok (u, s') ↔ result = .ok s' := by
  cases result <;> simp [silent, Except.map]

/-- A document that is replaced by one of the same view keeps the view of every key. -/
theorem map_get?_insert {α β : Type} {m : SortedMap α} {key : String} {old new : α} (f : α → β)
    (hold : m.get? key = some old) (hf : f new = f old) (k : String) :
    ((m.insert key new).get? k).map f = (m.get? k).map f := by
  rw [SortedMap.get?_insert]
  split
  case isTrue hk => rw [hk, hold, Option.map_some, Option.map_some, hf]
  case isFalse => rfl

/-! ### What the writes do to the views -/

@[simp] theorem environmentFlags_insert (s : Store) (key : String) (e : Environment) (id : String) :
    ({ s with environments := s.environments.insert key e } : Store).environmentFlags id
      = if id = key then some e.flags else s.environmentFlags id := by
  rw [environmentFlags, SortedMap.get?_insert, apply_ite (Option.map _)]
  rfl

@[simp] theorem environmentFlags_erase (s : Store) (key id : String) :
    ({ s with environments := s.environments.erase key } : Store).environmentFlags id
      = if id = key then none else s.environmentFlags id := by
  rw [environmentFlags, SortedMap.get?_erase, apply_ite (Option.map _)]
  rfl

@[simp] theorem projectFlags_insert (s : Store) (key : String) (p : Project) (name : String) :
    ({ s with projects := s.projects.insert key p } : Store).projectFlags name
      = if name = key then some p.flags else s.projectFlags name := by
  rw [projectFlags, SortedMap.get?_insert, apply_ite (Option.map _)]
  rfl

@[simp] theorem projectFlags_erase (s : Store) (key name : String) :
    ({ s with projects := s.projects.erase key } : Store).projectFlags name
      = if name = key then none else s.projectFlags name := by
  rw [projectFlags, SortedMap.get?_erase, apply_ite (Option.map _)]
  rfl

@[simp] theorem links_insert (s : Store) (key : String) (p : Project) (name : String) :
    ({ s with projects := s.projects.insert key p } : Store).links name
      = if name = key then some p.environmentIds else s.links name := by
  rw [links, SortedMap.get?_insert, apply_ite (Option.map _)]
  rfl

@[simp] theorem links_erase (s : Store) (key name : String) :
    ({ s with projects := s.projects.erase key } : Store).links name
      = if name = key then none else s.links name := by
  rw [links, SortedMap.get?_erase, apply_ite (Option.map _)]
  rfl

/-- Detaching takes the id from every list. -/
theorem Detached.links {clock : Timestamp → Prop} {id : String} (h : Detached clock id s s')
    (name : String) : s'.links name = (s.links name).map (·.filter (· ≠ id)) := by
  obtain ⟨time, -, hp⟩ := h.projects name
  rw [Store.links, hp, Option.map_map, Store.links, Option.map_map]
  exact congrArg (Option.map · _) (funext fun p => p.environmentIds_detach id time)

/-- After detaching an id, the projects list what they listed, without the id. -/
theorem Detached.lists {clock : Timestamp → Prop} {id : String} (h : Detached clock id s s')
    (name other : String) : s'.Lists name other ↔ s.Lists name other ∧ other ≠ id := by
  simp only [Lists, h.links]
  cases s.links name <;> simp

theorem Detached.projectFlags {clock : Timestamp → Prop} {id : String} (h : Detached clock id s s')
    (name : String) : s'.projectFlags name = s.projectFlags name := by
  obtain ⟨time, -, hp⟩ := h.projects name
  rw [Store.projectFlags, hp, Option.map_map, Store.projectFlags]
  exact congrArg (Option.map · _) (funext fun p => p.flags_detach id time)

theorem lists_detachEnvironment {id : String} {n : Nat}
    (h : s.detachEnvironment id now = .ok (n, s')) (name other : String) :
    s'.Lists name other ↔ s.Lists name other ∧ other ≠ id :=
  (detachEnvironment_eq_ok h).2.lists name other

theorem projectFlags_assign {key : String} {project : Project}
    (hp : s.projects.get? key = some project) (flag : String) (rule : Option FlagRule)
    (time : Timestamp) (name : String) :
    ({ s with projects := s.projects.insert key (project.assign flag rule time) } :
      Store).projectFlags name = if name = key then (s.projectFlags name).map (·.assign flag rule)
        else s.projectFlags name := by
  rw [projectFlags_insert]
  split
  case isTrue h =>
    subst h
    rw [projectFlags, hp]
    rfl
  case isFalse => rfl

theorem environmentFlags_assign {key : String} {e : Environment}
    (he : s.environments.get? key = some e) (flag : String) (rule : Option FlagRule)
    (time : Timestamp) (id : String) :
    ({ s with environments := s.environments.insert key (e.assign flag rule time) } :
      Store).environmentFlags id = if id = key then (s.environmentFlags id).map (·.assign flag rule)
        else s.environmentFlags id := by
  rw [environmentFlags_insert]
  split
  case isTrue h =>
    subst h
    rw [environmentFlags, he]
    rfl
  case isFalse => rfl

theorem lists_iff {name id : String} {project : Project}
    (hp : s.projects.get? name = some project) :
    s.Lists name id ↔ id ∈ project.environmentIds := by
  simp [Lists, links, hp]

/-- A project that has an id enlisted lists it beside what was listed before. -/
theorem lists_enlist {name id : String} {project : Project} {time : Timestamp}
    (hp : s.projects.get? name = some project)
    (hs : s'.projects = s.projects.insert name { project.enlist id with updatedAt := time })
    (other one : String) : s'.Lists other one ↔ s.Lists other one ∨ other = name ∧ one = id := by
  by_cases hother : other = name
  · subst hother
    rw [lists_iff hp, lists_iff (by rw [hs, SortedMap.get?_insert, if_pos rfl]),
      Project.mem_enlist]
    simp
  · rw [Lists, links, hs, SortedMap.get?_insert, if_neg hother]
    simp [hother, Lists, links]

theorem contains_eq_isSome (s : Store) (id : String) :
    s.environments.contains id = (s.environmentFlags id).isSome := by
  rw [environmentFlags, Option.isSome_map, SortedMap.contains]

/-- A bulk write assigns the flag in the listed environments, and in no other. -/
theorem Cascaded.environmentFlags {clock : Timestamp → Prop} {ids : List String} {flag : String}
    {rule : Option FlagRule} {n : Nat} (h : Cascaded clock ids flag rule s s' n) (id : String) :
    s'.environmentFlags id = if id ∈ ids then (s.environmentFlags id).map (·.assign flag rule)
      else s.environmentFlags id := by
  split
  case isTrue hid =>
    obtain ⟨time, -, he⟩ := h.listed id hid
    rw [Store.environmentFlags, he, Option.map_map, Store.environmentFlags, Option.map_map]
    rfl
  case isFalse hid => rw [Store.environmentFlags, h.unlisted id hid, Store.environmentFlags]

/-- A bulk write neither creates nor deletes an environment. -/
theorem Cascaded.contains {clock : Timestamp → Prop} {ids : List String} {flag : String}
    {rule : Option FlagRule} {n : Nat} (h : Cascaded clock ids flag rule s s' n) (id : String) :
    s'.environments.contains id = s.environments.contains id := by
  rw [contains_eq_isSome, h.environmentFlags, contains_eq_isSome]
  split
  · exact Option.isSome_map ..
  · rfl

theorem Cascaded.projects {clock : Timestamp → Prop} {ids : List String} {flag : String}
    {rule : Option FlagRule} {n : Nat} (h : Cascaded clock ids flag rule s s' n) :
    s'.projects = s.projects := by
  rw [h.frame]

theorem contains_updateEnvironmentFlags {ids : List String} {flag : String}
    {rule : Option FlagRule} {n : Nat}
    (h : s.updateEnvironmentFlags ids (·.assign flag rule) now = .ok (n, s')) (id : String) :
    s'.environments.contains id = s.environments.contains id :=
  (updateEnvironmentFlags_eq_ok h).2.contains id

theorem projectFlag_eq {name : String} {project : Project}
    (hp : s.projects.get? name = some project) (flag : String) :
    s.projectFlag name flag = project.flags.get? flag := by
  rw [projectFlag, projectFlags, hp]
  rfl

theorem environmentFlag_eq {id : String} {e : Environment}
    (he : s.environments.get? id = some e) (flag : String) :
    s.environmentFlag id flag = e.flags.get? flag := by
  rw [environmentFlag, environmentFlags, he]
  rfl

/-- What a project says of the flag that is written to it. -/
theorem projectFlag_assign (s : Store) (key : String) (project : Project) (flag : String)
    (rule : Option FlagRule) (time : Timestamp) :
    ({ s with projects := s.projects.insert key (project.assign flag rule time) } :
      Store).projectFlag key flag = rule := by
  rw [projectFlag_eq (by rw [SortedMap.get?_insert, if_pos rfl]), Project.assign,
    FlagMap.get?_assign, if_pos rfl]

/-- What an environment says of the flag of a bulk write that it is listed in. -/
theorem environmentFlag_updateEnvironmentFlags {ids : List String} {flag : String}
    {rule : Option FlagRule} {n : Nat}
    (h : s.updateEnvironmentFlags ids (·.assign flag rule) now = .ok (n, s')) {id : String}
    (hexists : s.environments.contains id = true) :
    s'.environmentFlag id flag = if id ∈ ids then rule else s.environmentFlag id flag := by
  rw [environmentFlag, (updateEnvironmentFlags_eq_ok h).2.environmentFlags]
  split
  case isTrue =>
    rw [contains_eq_isSome] at hexists
    obtain ⟨flags, hflags⟩ := Option.isSome_iff_exists.1 hexists
    rw [hflags, Option.map_some, Option.bind_some, FlagMap.get?_assign, if_pos rfl]
  case isFalse => rfl

/-! ### Which collections a request writes to -/

theorem projects_perform (h : s.perform now request = .ok (reply, s'))
    (hm : request.method.writesProjects = false) : s'.projects = s.projects := by
  cases request with
  | ping | listProjects | getProject | getEnvironment =>
    obtain ⟨-, rfl⟩ := unchanged_eq_ok.1 h
    rfl
  | insertEnvironment =>
    obtain ⟨-, rfl⟩ := insertEnvironment_eq_ok.1 (silent_eq_ok.1 h)
    rfl
  | renameEnvironment =>
    obtain ⟨_, -, -, rfl⟩ := renameEnvironment_eq_ok.1 h
    rfl
  | deleteEnvironment =>
    obtain ⟨-, rfl⟩ := deleteEnvironment_eq_ok.1 (silent_eq_ok.1 h)
    rfl
  | setEnvironmentsFlag ids flag rule =>
    have hn : s.updateEnvironmentFlags ids (·.assign flag (some rule)) now = .ok (reply, s') := h
    exact (updateEnvironmentFlags_eq_ok hn).2.projects
  | unsetEnvironmentsFlag ids flag =>
    have hn : s.updateEnvironmentFlags ids (·.assign flag none) now = .ok (reply, s') := h
    exact (updateEnvironmentFlags_eq_ok hn).2.projects
  | patchEnvironmentFlag =>
    obtain ⟨_, _, -, -, -, rfl⟩ := patchEnvironmentFlag_eq_ok.1 h
    rfl
  | removeEnvironmentFlag =>
    obtain ⟨_, -, rfl⟩ := removeEnvironmentFlag_eq_ok.1 (silent_eq_ok.1 h)
    rfl
  | insertApiKey =>
    obtain ⟨_, -, rfl⟩ := insertApiKey_eq_ok.1 (silent_eq_ok.1 h)
    rfl
  | deleteApiKey =>
    obtain ⟨_, -, rfl⟩ := deleteApiKey_eq_ok.1 (silent_eq_ok.1 h)
    rfl
  | insertProject | deleteProject | attachEnvironment | detachEnvironment | insertProjectFlag
  | patchProjectFlag | removeProjectFlag => cases hm

theorem environments_perform (h : s.perform now request = .ok (reply, s'))
    (hm : request.method.writesEnvironments = false) : s'.environments = s.environments := by
  cases request with
  | ping | listProjects | getProject | getEnvironment =>
    obtain ⟨-, rfl⟩ := unchanged_eq_ok.1 h
    rfl
  | insertProject =>
    obtain ⟨-, rfl⟩ := insertProject_eq_ok.1 (silent_eq_ok.1 h)
    rfl
  | deleteProject =>
    obtain ⟨-, rfl⟩ := deleteProject_eq_ok.1 h
    rfl
  | attachEnvironment =>
    obtain ⟨-, _, -, rfl⟩ := attachEnvironment_eq_ok.1 (silent_eq_ok.1 h)
    rfl
  | detachEnvironment =>
    rw [(detachEnvironment_eq_ok h).2.frame]
  | insertProjectFlag =>
    obtain ⟨_, -, -, -, rfl⟩ := insertProjectFlag_eq_ok.1 h
    rfl
  | patchProjectFlag =>
    obtain ⟨_, _, -, -, -, rfl⟩ := patchProjectFlag_eq_ok.1 h
    rfl
  | removeProjectFlag =>
    obtain ⟨_, -, -, rfl⟩ := removeProjectFlag_eq_ok.1 h
    rfl
  | insertEnvironment | renameEnvironment | deleteEnvironment | setEnvironmentsFlag
  | unsetEnvironmentsFlag | patchEnvironmentFlag | removeEnvironmentFlag | insertApiKey
  | deleteApiKey => cases hm

/-! ### Which views a request can change -/

theorem environmentFlags_perform (h : s.perform now request = .ok (reply, s'))
    (hm : request.method.setsEnvironmentFlags = false) (id : String) :
    s'.environmentFlags id = s.environmentFlags id := by
  by_cases hw : request.method.writesEnvironments = false
  case pos => rw [environmentFlags, environments_perform h hw, environmentFlags]
  -- what is left are writes to the other fields of an environment
  cases request with
  | renameEnvironment =>
    obtain ⟨e, he, rfl, rfl⟩ := renameEnvironment_eq_ok.1 h
    exact map_get?_insert (fun e : Environment => e.flags) he (by rfl) id
  | insertApiKey _ scope =>
    obtain ⟨e, he, rfl⟩ := insertApiKey_eq_ok.1 (silent_eq_ok.1 h)
    exact map_get?_insert (fun e : Environment => e.flags) he (by cases scope <;> rfl) id
  | deleteApiKey _ scope =>
    obtain ⟨e, he, rfl⟩ := deleteApiKey_eq_ok.1 (silent_eq_ok.1 h)
    exact map_get?_insert (fun e : Environment => e.flags) he (by cases scope <;> rfl) id
  | _ => first | exact absurd rfl hw | cases hm

theorem projectFlags_perform (h : s.perform now request = .ok (reply, s'))
    (hm : request.method.setsProjectFlags = false) (name : String) :
    s'.projectFlags name = s.projectFlags name := by
  by_cases hw : request.method.writesProjects = false
  case pos => rw [projectFlags, projects_perform h hw, projectFlags]
  cases request with
  | attachEnvironment =>
    obtain ⟨-, p, hp, rfl⟩ := attachEnvironment_eq_ok.1 (silent_eq_ok.1 h)
    exact map_get?_insert (fun p : Project => p.flags) hp (by rfl) name
  | detachEnvironment =>
    exact (detachEnvironment_eq_ok h).2.projectFlags name
  | _ => first | exact absurd rfl hw | cases hm

theorem links_perform (h : s.perform now request = .ok (reply, s'))
    (hm : request.method.relinks = false) (name : String) : s'.links name = s.links name := by
  by_cases hw : request.method.writesProjects = false
  case pos => rw [links, projects_perform h hw, links]
  -- what is left are writes to the flags of a project
  cases request with
  | insertProjectFlag =>
    obtain ⟨p, hp, -, -, rfl⟩ := insertProjectFlag_eq_ok.1 h
    exact map_get?_insert (fun p : Project => p.environmentIds) hp (by rfl) name
  | patchProjectFlag =>
    obtain ⟨p, _, hp, -, -, rfl⟩ := patchProjectFlag_eq_ok.1 h
    exact map_get?_insert (fun p : Project => p.environmentIds) hp (by rfl) name
  | removeProjectFlag =>
    obtain ⟨p, hp, -, rfl⟩ := removeProjectFlag_eq_ok.1 h
    exact map_get?_insert (fun p : Project => p.environmentIds) hp (by rfl) name
  | _ => first | exact absurd rfl hw | cases hm

theorem contains_perform (h : s.perform now request = .ok (reply, s'))
    (hm : request.method.placesEnvironments = false) (id : String) :
    s'.environments.contains id = s.environments.contains id := by
  by_cases hw : request.method.writesEnvironments = false
  case pos => rw [environments_perform h hw]
  cases request with
  | renameEnvironment =>
    obtain ⟨e, he, rfl, rfl⟩ := renameEnvironment_eq_ok.1 h
    exact SortedMap.contains_insert_of_get? he id
  | setEnvironmentsFlag ids flag rule =>
    have hn : s.updateEnvironmentFlags ids (·.assign flag (some rule)) now = .ok (reply, s') := h
    exact contains_updateEnvironmentFlags hn id
  | unsetEnvironmentsFlag ids flag =>
    have hn : s.updateEnvironmentFlags ids (·.assign flag none) now = .ok (reply, s') := h
    exact contains_updateEnvironmentFlags hn id
  | patchEnvironmentFlag =>
    obtain ⟨e, _, he, -, -, rfl⟩ := patchEnvironmentFlag_eq_ok.1 h
    exact SortedMap.contains_insert_of_get? he id
  | removeEnvironmentFlag =>
    obtain ⟨e, he, rfl⟩ := removeEnvironmentFlag_eq_ok.1 (silent_eq_ok.1 h)
    exact SortedMap.contains_insert_of_get? he id
  | insertApiKey =>
    obtain ⟨e, he, rfl⟩ := insertApiKey_eq_ok.1 (silent_eq_ok.1 h)
    exact SortedMap.contains_insert_of_get? he id
  | deleteApiKey =>
    obtain ⟨e, he, rfl⟩ := deleteApiKey_eq_ok.1 (silent_eq_ok.1 h)
    exact SortedMap.contains_insert_of_get? he id
  | _ => first | exact absurd rfl hw | cases hm

end Store

end FeatureFlags

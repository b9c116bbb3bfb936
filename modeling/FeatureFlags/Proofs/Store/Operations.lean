import FeatureFlags.Proofs.Results
import FeatureFlags.Store.Request

/-!
What each operation of the store does, said once.

An operation that may fail comes with an equivalence (`insertProject_eq_ok`, …): it succeeds exactly
on the stores that have what it needs, and then returns this and leaves that.  The two loops over
documents (`writeFlags`, `detachFrom`) are described by what they do to look-ups: documents that are
not addressed stay exactly as they are, and in the others only the addressed field and the time of
the last update differ (`Cascaded`, `Detached`).  Later modules use these and do not open the
operations again.
-/

namespace FeatureFlags

namespace SortedMap

variable {α : Type}

theorem contains_eq_false_iff {m : SortedMap α} {key : String} :
    m.contains key = false ↔ m.get? key = none := by
  rw [contains, Option.isSome_eq_false_iff, Option.isNone_iff_eq_none]

theorem mem_keys_iff {m : SortedMap α} {key : String} :
    key ∈ m.keys ↔ ∃ value, m.get? key = some value := by
  simp only [keys, List.mem_map, get?_eq_some_iff]
  constructor
  · rintro ⟨⟨k, value⟩, h, rfl⟩
    exact ⟨value, h⟩
  · rintro ⟨value, h⟩
    exact ⟨(key, value), h, rfl⟩

theorem nodup_keys (m : SortedMap α) : m.keys.Nodup := by
  have hkeys : m.keys.Pairwise (· < ·) := List.pairwise_map.2 m.ascending
  exact hkeys.imp String.ne_of_lt

/-- Keys that are listed once each are counted from either side. -/
theorem length_filter_contains (m : SortedMap α) {ids : List String} (hids : ids.Nodup) :
    (ids.filter m.contains).length = (m.keys.filter (· ∈ ids)).length := by
  refine List.Perm.length_eq ((List.perm_ext_iff_of_nodup (hids.filter _)
    (m.nodup_keys.filter _)).2 fun id => ?_)
  rw [List.mem_filter, List.mem_filter, mem_keys_iff, contains, Option.isSome_iff_exists,
    decide_eq_true_iff, and_comm]

/-- A key whose value is replaced is there before and after. -/
theorem contains_insert_of_get? {m : SortedMap α} {key : String} {old new : α}
    (hold : m.get? key = some old) (k : String) :
    (m.insert key new).contains k = m.contains k := by
  rw [contains, get?_insert]
  split
  case isTrue hk =>
    rw [hk, contains, hold]
    rfl
  case isFalse => rfl

/-- A key that is set twice has the second value. -/
theorem insert_insert (m : SortedMap α) (key : String) (first second : α) :
    (m.insert key first).insert key second = m.insert key second := by
  apply SortedMap.ext
  intro k
  rw [get?_insert, get?_insert, get?_insert]
  split <;> rfl

theorem erase_erase (m : SortedMap α) (key : String) : (m.erase key).erase key = m.erase key := by
  apply SortedMap.ext
  intro k
  rw [get?_erase, get?_erase]
  split <;> rfl

/-- A key that was not there is gone again. -/
theorem erase_insert {m : SortedMap α} {key : String} (h : m.get? key = none) (value : α) :
    (m.insert key value).erase key = m := by
  apply SortedMap.ext
  intro k
  rw [get?_erase, get?_insert]
  split
  case isTrue hk => rw [hk, h]
  case isFalse => rfl

end SortedMap

namespace FlagMap

/-- Sets a flag, or drops it if there is no rule. -/
def assign (flags : FlagMap) (flag : String) : Option FlagRule → FlagMap
  | some rule => flags.insert flag rule
  | none => flags.erase flag

@[simp] theorem get?_assign (flags : FlagMap) (flag name : String) (rule : Option FlagRule) :
    (flags.assign flag rule).get? name = if name = flag then rule else flags.get? name := by
  cases rule with
  | none => exact SortedMap.get?_erase flags flag name
  | some rule => exact SortedMap.get?_insert flags flag name rule

theorem assign_assign (flags : FlagMap) (flag : String) (rule : Option FlagRule) :
    (flags.assign flag rule).assign flag rule = flags.assign flag rule := by
  cases rule with
  | none => exact SortedMap.erase_erase flags flag
  | some rule => exact SortedMap.insert_insert flags flag rule rule

end FlagMap

namespace Project

/-- The project without an id among those that it lists. -/
def unlist (project : Project) (id : String) : Project :=
  { project with environmentIds := project.environmentIds.filter (· ≠ id) }

/-- The project with a flag set, or dropped if there is no rule, at a time. -/
def assign (project : Project) (flag : String) (rule : Option FlagRule) (now : Timestamp) :
    Project :=
  { project with flags := project.flags.assign flag rule, updatedAt := now }

/-- The project with an id among those that it lists. -/
def enlist (project : Project) (id : String) : Project :=
  { project with
    environmentIds :=
      if id ∈ project.environmentIds then project.environmentIds
      else project.environmentIds ++ [id] }

theorem unlist_of_notMem {project : Project} {id : String} (h : id ∉ project.environmentIds) :
    project.unlist id = project := by
  have hids : project.environmentIds.filter (· ≠ id) = project.environmentIds := by
    rw [List.filter_eq_self]
    intro other hother
    have hne : other ≠ id := fun heq => h (heq ▸ hother)
    simpa using hne
  rw [unlist, hids]

@[simp] theorem mem_unlist {project : Project} {id other : String} :
    other ∈ (project.unlist id).environmentIds ↔ other ∈ project.environmentIds ∧ other ≠ id := by
  simp [unlist]

/-- The project without an id among those that it lists, at a time.  A project that does not list
the id stays as it is. -/
def detach (project : Project) (id : String) (now : Timestamp) : Project :=
  if id ∈ project.environmentIds then { project.unlist id with updatedAt := now } else project

theorem detach_of_notMem {project : Project} {id : String} {now : Timestamp}
    (h : id ∉ project.environmentIds) : project.detach id now = project := if_neg h

theorem environmentIds_detach (project : Project) (id : String) (now : Timestamp) :
    (project.detach id now).environmentIds = project.environmentIds.filter (· ≠ id) := by
  rw [detach]
  split
  case isTrue => rfl
  case isFalse h => exact congrArg environmentIds (unlist_of_notMem h).symm

@[simp] theorem flags_detach (project : Project) (id : String) (now : Timestamp) :
    (project.detach id now).flags = project.flags := by
  rw [detach]
  split <;> rfl

@[simp] theorem mem_enlist {project : Project} {id other : String} :
    other ∈ (project.enlist id).environmentIds ↔ other ∈ project.environmentIds ∨ other = id := by
  rw [enlist]
  split
  case isTrue h =>
    constructor
    · exact Or.inl
    · rintro (hother | rfl)
      · exact hother
      · exact h
  case isFalse => simp

end Project

/-- The environment with a flag set, or dropped if there is no rule, at a time. -/
def Environment.assign (environment : Environment) (flag : String) (rule : Option FlagRule)
    (now : Timestamp) : Environment :=
  { environment with flags := environment.flags.assign flag rule, updatedAt := now }

/-- The environment with other keys of one kind, at a time. -/
def Environment.rekey (environment : Environment) (scope : KeyScope) (keys : KeyMap)
    (now : Timestamp) : Environment :=
  { environment.withKeys scope keys with updatedAt := now }

namespace Store

variable {s s' : Store} {now : Timestamp}

/-! ### Changing one document -/

theorem updateProject_eq_ok {α : Type} {name : String} {result : α}
    {change : Project → Except StoreError (α × Project)} :
    s.updateProject name change = .ok (result, s') ↔
      ∃ project project', s.projects.get? name = some project ∧
        change project = .ok (result, project') ∧
        s' = { s with projects := s.projects.insert name project' } := by
  rw [updateProject]
  constructor
  · intro h
    split at h
    case h_1 => cases h
    case h_2 project hp =>
      split at h
      case h_1 => cases h
      case h_2 result' project' hc =>
        obtain ⟨rfl, rfl⟩ := Prod.mk.inj (Except.ok.inj h)
        exact ⟨project, project', hp, hc, rfl⟩
  · rintro ⟨project, project', hp, hc, rfl⟩
    simp only [hp, hc]

theorem updateEnvironment_eq_ok {α : Type} {id : String} {result : α}
    {change : Environment → Except StoreError (α × Environment)} :
    s.updateEnvironment id change = .ok (result, s') ↔
      ∃ environment environment', s.environments.get? id = some environment ∧
        change environment = .ok (result, environment') ∧
        s' = { s with environments := s.environments.insert id environment' } := by
  rw [updateEnvironment]
  constructor
  · intro h
    split at h
    case h_1 => cases h
    case h_2 environment he =>
      split at h
      case h_1 => cases h
      case h_2 result' environment' hc =>
        obtain ⟨rfl, rfl⟩ := Prod.mk.inj (Except.ok.inj h)
        exact ⟨environment, environment', he, hc, rfl⟩
  · rintro ⟨environment, environment', he, hc, rfl⟩
    simp only [he, hc]

/-- A change of an environment that cannot fail and returns nothing. -/
theorem updateEnvironment_map_eq_ok {id : String} {change : Environment → Environment} :
    (s.updateEnvironment id fun e => .ok ((), change e)).map (·.2) = .ok s' ↔
      ∃ e, s.environments.get? id = some e ∧
        s' = { s with environments := s.environments.insert id (change e) } := by
  rw [map_eq_ok_iff]
  constructor
  · rintro ⟨⟨_, store⟩, h, rfl⟩
    obtain ⟨e, e', he, hc, rfl⟩ := updateEnvironment_eq_ok.1 h
    obtain ⟨-, rfl⟩ := Prod.mk.inj (Except.ok.inj hc)
    exact ⟨e, he, rfl⟩
  · rintro ⟨e, he, rfl⟩
    exact ⟨((), _), updateEnvironment_eq_ok.2 ⟨e, _, he, rfl, rfl⟩, rfl⟩

/-! ### Projects -/

theorem insertProject_eq_ok {project : Project} :
    s.insertProject project = .ok s' ↔
      s.projects.get? project.name = none ∧
        s' = { s with projects := s.projects.insert project.name project } := by
  rw [insertProject, ← SortedMap.contains_eq_false_iff]
  cases s.projects.contains project.name <;> simp [eq_comm]

theorem getProject_eq_ok {name : String} {project : Project} :
    s.getProject name = .ok project ↔ s.projects.get? name = some project := by
  rw [getProject]
  cases s.projects.get? name <;> simp

theorem deleteProject_eq_ok {name : String} {project : Project} :
    s.deleteProject name = .ok (project, s') ↔
      s.projects.get? name = some project ∧
        s' = { s with projects := s.projects.erase name } := by
  rw [deleteProject]
  cases s.projects.get? name <;> simp [eq_comm]

theorem attachEnvironment_eq_ok {name id : String} :
    s.attachEnvironment name id now = .ok s' ↔
      s.projectLinksFail = false ∧ ∃ project, s.projects.get? name = some project ∧
        s' = { s with projects :=
          s.projects.insert name { project.enlist id with updatedAt := now } } := by
  rw [attachEnvironment]
  split
  case isTrue hfail => simp [hfail]
  case isFalse hfail =>
    rw [map_eq_ok_iff]
    constructor
    · rintro ⟨⟨_, store⟩, h, rfl⟩
      obtain ⟨project, project', hp, hc, rfl⟩ := updateProject_eq_ok.1 h
      obtain ⟨-, rfl⟩ := Prod.mk.inj (Except.ok.inj hc)
      exact ⟨by simpa using hfail, project, hp, rfl⟩
    · rintro ⟨-, project, hp, rfl⟩
      exact ⟨((), _), updateProject_eq_ok.2 ⟨project, _, hp, rfl, rfl⟩, rfl⟩

theorem insertProjectFlag_eq_ok {name flag : String} {rule : FlagRule} {ids : List String} :
    s.insertProjectFlag name flag rule now = .ok (ids, s') ↔
      ∃ project, s.projects.get? name = some project ∧ project.flags.get? flag = none ∧
        ids = project.environmentIds ∧
        s' = { s with projects :=
          s.projects.insert name (project.assign flag (some rule) now) } := by
  rw [insertProjectFlag, updateProject_eq_ok]
  constructor
  · rintro ⟨project, project', hp, hc, rfl⟩
    split at hc
    case isTrue => cases hc
    case isFalse hf =>
      obtain ⟨rfl, rfl⟩ := Prod.mk.inj (Except.ok.inj hc)
      exact ⟨project, hp, SortedMap.contains_eq_false_iff.1 (by simpa using hf), rfl, rfl⟩
  · rintro ⟨project, hp, hf, rfl, rfl⟩
    have hc : project.flags.contains flag = false := SortedMap.contains_eq_false_iff.2 hf
    exact ⟨project, _, hp, by rw [hc]; rfl, rfl⟩

theorem patchProjectFlag_eq_ok {name flag : String} {patch : FlagPatch} {result : FlagRule} :
    s.patchProjectFlag name flag patch now = .ok (result, s') ↔
      ∃ project rule, s.projects.get? name = some project ∧ project.flags.get? flag = some rule ∧
        result = patch.apply rule ∧
        s' = { s with projects :=
          s.projects.insert name (project.assign flag (some (patch.apply rule)) now) } := by
  rw [patchProjectFlag, updateProject_eq_ok]
  constructor
  · rintro ⟨project, project', hp, hc, rfl⟩
    split at hc
    case h_1 => cases hc
    case h_2 rule hf =>
      obtain ⟨rfl, rfl⟩ := Prod.mk.inj (Except.ok.inj hc)
      exact ⟨project, rule, hp, hf, rfl, rfl⟩
  · rintro ⟨project, rule, hp, hf, rfl, rfl⟩
    exact ⟨project, _, hp, by rw [hf]; rfl, rfl⟩

theorem removeProjectFlag_eq_ok {name flag : String} {ids : List String} :
    s.removeProjectFlag name flag now = .ok (ids, s') ↔
      ∃ project, s.projects.get? name = some project ∧ ids = project.environmentIds ∧
        s' = { s with projects := s.projects.insert name (project.assign flag none now) } := by
  rw [removeProjectFlag, updateProject_eq_ok]
  constructor
  · rintro ⟨project, project', hp, hc, rfl⟩
    obtain ⟨rfl, rfl⟩ := Prod.mk.inj (Except.ok.inj hc)
    exact ⟨project, hp, rfl, rfl⟩
  · rintro ⟨project, hp, rfl, rfl⟩
    exact ⟨project, _, hp, rfl, rfl⟩

/-! ### Loops over documents -/

/-- A project that does not list the id stays as it is. -/
theorem get?_detachFrom_of_unlisted {id : String} {now : Nat → Timestamp} {names : List String}
    {n : Nat} {projects : SortedMap Project} {name : String}
    (h : ∀ p, projects.get? name = some p → id ∉ p.environmentIds) :
    (detachFrom id now names n projects).2.get? name = projects.get? name := by
  induction names generalizing n projects with
  | nil => rfl
  | cons first rest ih =>
    rw [detachFrom]
    split
    case h_1 => exact ih h
    case h_2 p hp =>
      split
      case isFalse => exact ih h
      case isTrue hmem =>
        -- the project that loses the id here is another one
        have hne : name ≠ first := fun heq => h p (heq ▸ hp) hmem
        rw [ih (by simpa [hne] using h), SortedMap.get?_insert, if_neg hne]

/-- A project that is gone through has the id detached, at one of the times. -/
theorem get?_detachFrom_of_mem {id : String} {now : Nat → Timestamp} {names : List String}
    {n : Nat} {projects : SortedMap Project} {name : String} {p : Project}
    (hname : name ∈ names) (hp : projects.get? name = some p) :
    ∃ k, (detachFrom id now names n projects).2.get? name = some (p.detach id (now k)) := by
  by_cases hid : id ∈ p.environmentIds
  case neg =>
    refine ⟨0, ?_⟩
    rw [get?_detachFrom_of_unlisted (by simpa [hp] using hid), hp, Project.detach_of_notMem hid]
  simp only [Project.detach, if_pos hid]
  induction names generalizing n projects with
  | nil => cases hname
  | cons first rest ih =>
    by_cases hne : name = first
    · -- the project loses the id here, and the rest of the loop leaves it alone
      subst hne
      refine ⟨n, ?_⟩
      rw [detachFrom]
      simp only [hp, hid, if_true]
      rw [get?_detachFrom_of_unlisted, SortedMap.get?_insert, if_pos rfl]
      · rfl
      · intro q hq
        rw [SortedMap.get?_insert, if_pos rfl] at hq
        obtain rfl := Option.some.inj hq
        simp
    · have hrest : name ∈ rest := (List.mem_cons.1 hname).resolve_left hne
      rw [detachFrom]
      split
      case h_1 => exact ih hrest hp
      case h_2 q hq =>
        split
        case isTrue => exact ih hrest (by rw [SortedMap.get?_insert, if_neg hne, hp])
        case isFalse => exact ih hrest hp

/-- An id has been detached from the projects that listed it, at times of the clock, and nothing
else has changed. -/
structure Detached (clock : Timestamp → Prop) (id : String) (s s' : Store) : Prop where
  frame : s' = { s with projects := s'.projects }
  projects : ∀ name, ∃ time, clock time ∧
    s'.projects.get? name = (s.projects.get? name).map (·.detach id time)

theorem detachEnvironment_eq_ok {id : String} {now : Nat → Timestamp} {n : Nat}
    (h : s.detachEnvironment id now = .ok (n, s')) :
    s.projectLinksFail = false ∧ Detached (fun time => ∃ k, now k = time) id s s' := by
  rw [detachEnvironment] at h
  split at h
  case isTrue => cases h
  case isFalse hfail =>
    obtain ⟨rfl, rfl⟩ := Prod.mk.inj (Except.ok.inj h)
    refine ⟨by simpa using hfail, rfl, fun name => ?_⟩
    cases hp : s.projects.get? name with
    | none =>
      refine ⟨now 0, ⟨0, rfl⟩, ?_⟩
      rw [get?_detachFrom_of_unlisted (by simp [hp]), hp]
      rfl
    | some p =>
      obtain ⟨k, hk⟩ := get?_detachFrom_of_mem (SortedMap.mem_keys_iff.2 ⟨p, hp⟩) hp
      exact ⟨now k, ⟨k, rfl⟩, hk⟩

/-- Nothing but the switch makes a detachment fail. -/
theorem projectLinksFail_of_detachEnvironment {id : String} {now : Nat → Timestamp}
    {e : StoreError} (h : s.detachEnvironment id now = .error e) : s.projectLinksFail = true := by
  rw [detachEnvironment] at h
  split at h
  case isTrue hfail => exact hfail
  case isFalse => cases h

/-- Environments that are not listed stay as they are. -/
theorem get?_writeFlags_of_notMem {change : FlagMap → FlagMap} {now : Nat → Timestamp}
    {ids : List String} {n : Nat} {environments : SortedMap Environment} {id : String}
    (h : id ∉ ids) :
    (writeFlags change now ids n environments).2.get? id = environments.get? id := by
  induction ids generalizing n environments with
  | nil => rfl
  | cons first rest ih =>
    obtain ⟨hne, hrest⟩ := not_or.1 (mt List.mem_cons.2 h)
    rw [writeFlags]
    split
    · exact ih hrest
    · rw [ih hrest, SortedMap.get?_insert, if_neg hne]

/-- What does not exist is not created. -/
theorem get?_writeFlags_of_absent {change : FlagMap → FlagMap} {now : Nat → Timestamp}
    {ids : List String} {n : Nat} {environments : SortedMap Environment} {id : String}
    (h : environments.get? id = none) :
    (writeFlags change now ids n environments).2.get? id = none := by
  induction ids generalizing n environments with
  | nil => exact h
  | cons first rest ih =>
    rw [writeFlags]
    split
    case h_1 => exact ih h
    case h_2 e he =>
      have hne : id ≠ first := fun heq => by simp [heq, he] at h
      exact ih (by rw [SortedMap.get?_insert, if_neg hne, h])

/-- A listed environment has its flags changed, and changes in nothing else but its time.  An id
that is listed twice makes no difference, as the change is one that can be repeated. -/
theorem get?_writeFlags_of_mem {change : FlagMap → FlagMap}
    (hchange : ∀ flags, change (change flags) = change flags) {now : Nat → Timestamp}
    {ids : List String} {n : Nat} {environments : SortedMap Environment} {id : String}
    {e : Environment} (hid : id ∈ ids) (he : environments.get? id = some e) :
    ∃ k, (writeFlags change now ids n environments).2.get? id
      = some { e with flags := change e.flags, updatedAt := now k } := by
  induction ids generalizing n environments e with
  | nil => cases hid
  | cons first rest ih =>
    rw [writeFlags]
    by_cases hne : id = first
    · subst hne
      simp only [he]
      -- the rest of the list may name the environment again
      by_cases hrest : id ∈ rest
      · obtain ⟨k, h⟩ := ih (n := n + 1) hrest
          (by rw [SortedMap.get?_insert, if_pos rfl] :
            (environments.insert id
              { e with flags := change e.flags, updatedAt := now n }).get? id = some _)
        exact ⟨k, by rw [h, hchange]⟩
      · exact ⟨n, by rw [get?_writeFlags_of_notMem hrest, SortedMap.get?_insert, if_pos rfl]⟩
    · have hrest : id ∈ rest := (List.mem_cons.1 hid).resolve_left hne
      split
      · exact ih hrest he
      · exact ih hrest (by rw [SortedMap.get?_insert, if_neg hne, he])

/-- A bulk write counts the listed environments that exist. -/
theorem writeFlags_count (change : FlagMap → FlagMap) (now : Nat → Timestamp) (ids : List String)
    (n : Nat) (environments : SortedMap Environment) :
    (writeFlags change now ids n environments).1
      = n + (ids.filter environments.contains).length := by
  induction ids generalizing n environments with
  | nil => rfl
  | cons first rest ih =>
    rw [writeFlags]
    split
    case h_1 habsent =>
      have hfirst : environments.contains first = false :=
        SortedMap.contains_eq_false_iff.2 habsent
      rw [ih, List.filter_cons_of_neg (by simp [hfirst])]
    case h_2 e he =>
      have hfirst : environments.contains first = true := by rw [SortedMap.contains, he]; rfl
      -- what the write replaces exists before and after
      have hsame : (environments.insert first
          { e with flags := change e.flags, updatedAt := now n }).contains
            = environments.contains := funext (SortedMap.contains_insert_of_get? he)
      rw [ih, hsame, List.filter_cons_of_pos hfirst, List.length_cons]
      omega

/-- A flag has been written to the listed environments that exist, so many of them, at times of the
clock, and nothing else has changed. -/
structure Cascaded (clock : Timestamp → Prop) (ids : List String) (flag : String)
    (rule : Option FlagRule) (s s' : Store) (written : Nat) : Prop where
  frame : s' = { s with environments := s'.environments }
  unlisted : ∀ id, id ∉ ids → s'.environments.get? id = s.environments.get? id
  listed : ∀ id, id ∈ ids → ∃ time, clock time ∧
    s'.environments.get? id = (s.environments.get? id).map (·.assign flag rule time)
  count : written = (ids.filter s.environments.contains).length

theorem updateEnvironmentFlags_eq_ok {ids : List String} {flag : String}
    {rule : Option FlagRule} {now : Nat → Timestamp} {n : Nat}
    (h : s.updateEnvironmentFlags ids (·.assign flag rule) now = .ok (n, s')) :
    s.environmentWritesFail = false ∧
      Cascaded (fun time => ∃ k, now k = time) ids flag rule s s' n := by
  rw [updateEnvironmentFlags] at h
  split at h
  case isTrue => cases h
  case isFalse hfail =>
    obtain ⟨rfl, rfl⟩ := Prod.mk.inj (Except.ok.inj h)
    refine ⟨by simpa using hfail, rfl, fun id hid => get?_writeFlags_of_notMem hid,
      fun id hid => ?_, ?_⟩
    · cases he : s.environments.get? id with
      | none =>
        refine ⟨now 0, ⟨0, rfl⟩, ?_⟩
        rw [Option.map_none, get?_writeFlags_of_absent he]
      | some e =>
        have hwritten : ∃ k,
            (writeFlags (·.assign flag rule) now ids 0 s.environments).2.get? id
              = some (e.assign flag rule (now k)) :=
          get?_writeFlags_of_mem (fun flags => flags.assign_assign flag rule) hid he
        obtain ⟨k, hk⟩ := hwritten
        exact ⟨now k, ⟨k, rfl⟩, hk⟩
    · rw [writeFlags_count, Nat.zero_add]

/-- Where nothing is listed there is nothing to write. -/
theorem Cascaded.nil (clock : Timestamp → Prop) (flag : String) (rule : Option FlagRule)
    (s : Store) : Cascaded clock [] flag rule s s 0 where
  frame := rfl
  unlisted _ _ := rfl
  listed _ hid := nomatch hid
  count := rfl

theorem Cascaded.mono {clock clock' : Timestamp → Prop} {ids : List String} {flag : String}
    {rule : Option FlagRule} {written : Nat} (h : Cascaded clock ids flag rule s s' written)
    (hclock : ∀ time, clock time → clock' time) :
    Cascaded clock' ids flag rule s s' written :=
  { h with listed := fun id hid =>
      let ⟨time, htime, he⟩ := h.listed id hid
      ⟨time, hclock time htime, he⟩ }

theorem Detached.mono {clock clock' : Timestamp → Prop} {id : String}
    (h : Detached clock id s s') (hclock : ∀ time, clock time → clock' time) :
    Detached clock' id s s' :=
  { h with projects := fun name =>
      let ⟨time, htime, hp⟩ := h.projects name
      ⟨time, hclock time htime, hp⟩ }

/-- Nothing but the switch makes a bulk write fail. -/
theorem exists_updateEnvironmentFlags (h : s.environmentWritesFail = false) (ids : List String)
    (change : FlagMap → FlagMap) (now : Nat → Timestamp) :
    ∃ result, s.updateEnvironmentFlags ids change now = .ok result := by
  rw [updateEnvironmentFlags, h]
  exact ⟨_, rfl⟩

/-! ### Environments -/

theorem insertEnvironment_eq_ok {environment : Environment} :
    s.insertEnvironment environment = .ok s' ↔
      s.environments.get? environment.id = none ∧
        s' = { s with environments := s.environments.insert environment.id environment } := by
  rw [insertEnvironment, ← SortedMap.contains_eq_false_iff]
  cases s.environments.contains environment.id <;> simp [eq_comm]

theorem getEnvironment_eq_ok {id : String} {environment : Environment} :
    s.getEnvironment id = .ok environment ↔ s.environments.get? id = some environment := by
  rw [getEnvironment]
  cases s.environments.get? id <;> simp

theorem renameEnvironment_eq_ok {id name : String} {renamed : Environment} :
    s.renameEnvironment id name now = .ok (renamed, s') ↔
      ∃ e, s.environments.get? id = some e ∧ renamed = { e with name, updatedAt := now } ∧
        s' = { s with environments := s.environments.insert id renamed } := by
  rw [renameEnvironment, updateEnvironment_eq_ok]
  constructor
  · rintro ⟨e, e', he, hc, rfl⟩
    obtain ⟨rfl, rfl⟩ := Prod.mk.inj (Except.ok.inj hc)
    exact ⟨e, he, rfl, rfl⟩
  · rintro ⟨e, he, rfl, rfl⟩
    exact ⟨e, _, he, rfl, rfl⟩

theorem deleteEnvironment_eq_ok {id : String} :
    s.deleteEnvironment id = .ok s' ↔
      s.environments.contains id = true ∧
        s' = { s with environments := s.environments.erase id } := by
  rw [deleteEnvironment, SortedMap.contains]
  cases s.environments.get? id <;> simp [eq_comm]

theorem patchEnvironmentFlag_eq_ok {id flag : String} {patch : FlagPatch} {result : FlagRule} :
    s.patchEnvironmentFlag id flag patch now = .ok (result, s') ↔
      ∃ e rule, s.environments.get? id = some e ∧ e.flags.get? flag = some rule ∧
        result = patch.apply rule ∧
        s' = { s with environments :=
          s.environments.insert id (e.assign flag (some (patch.apply rule)) now) } := by
  rw [patchEnvironmentFlag, updateEnvironment_eq_ok]
  constructor
  · rintro ⟨e, e', he, hc, rfl⟩
    split at hc
    case h_1 => cases hc
    case h_2 rule hf =>
      obtain ⟨rfl, rfl⟩ := Prod.mk.inj (Except.ok.inj hc)
      exact ⟨e, rule, he, hf, rfl, rfl⟩
  · rintro ⟨e, rule, he, hf, rfl, rfl⟩
    exact ⟨e, _, he, by rw [hf]; rfl, rfl⟩

theorem removeEnvironmentFlag_eq_ok {id flag : String} :
    s.removeEnvironmentFlag id flag now = .ok s' ↔
      ∃ e, s.environments.get? id = some e ∧
        s' = { s with environments := s.environments.insert id (e.assign flag none now) } :=
  updateEnvironment_map_eq_ok

theorem insertApiKey_eq_ok {id key : String} {scope : KeyScope} {descriptor : KeyDescriptor} :
    s.insertApiKey id scope key descriptor now = .ok s' ↔
      ∃ e, s.environments.get? id = some e ∧
        s' = { s with environments :=
          s.environments.insert id (e.rekey scope ((e.keys scope).insert key descriptor) now) } :=
  updateEnvironment_map_eq_ok

theorem deleteApiKey_eq_ok {id key : String} {scope : KeyScope} :
    s.deleteApiKey id scope key now = .ok s' ↔
      ∃ e, s.environments.get? id = some e ∧
        s' = { s with environments :=
          s.environments.insert id (e.rekey scope ((e.keys scope).erase key) now) } :=
  updateEnvironment_map_eq_ok

end Store

end FeatureFlags

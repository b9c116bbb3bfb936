import FeatureFlags.Proofs.Store.Parts
import FeatureFlags.Proofs.Store.Views

/-!
Fields of a store.

A field is the least that an edit of a store can be about: what a holder says of one facet of a
flag, the name of an environment, or one key.  What no edit of these changes, such as which
documents there are and which ids a project lists, makes up fields of its own.  A store is its
fields, up to the times of the last updates (`Store.untimed_eq`).

Each operation that edits documents is described by the fields that it leaves alone and by what the
others say after it.  The operations on one flag of one holder are a family: they look at nothing
of the holder but the flag, and what they find decides what they write (`Store.perform_flagWrite`).
-/

namespace FeatureFlags

/-! ### Flags -/

/-- Who can hold a flag. -/
inductive Holder where
  | project (name : String)
  | environment (id : String)
deriving DecidableEq

/-- What can be written of a flag without the rest: that it is there, its rule tree and its default
value. -/
inductive Facet where
  | presence
  | rules
  | defaultValue
deriving DecidableEq

namespace Facet

def Value : Facet → Type
  | presence => Bool
  | rules => Option (Option Json)
  | defaultValue => Option Scalar

/-- What a flag that may be absent says. -/
def read : (facet : Facet) → Option FlagRule → facet.Value
  | presence, rule => rule.isSome
  | rules, rule => rule.map (·.rules)
  | defaultValue, rule => rule.map (·.defaultValue)

/-- A flag is what it says. -/
theorem ext {a b : Option FlagRule} (h : ∀ facet : Facet, facet.read a = facet.read b) : a = b := by
  have hrules : a.map (·.rules) = b.map (·.rules) := h .rules
  have hdefault : a.map (·.defaultValue) = b.map (·.defaultValue) := h .defaultValue
  cases a with
  | none => cases b <;> first | rfl | cases hrules
  | some a =>
    cases b with
    | none => cases hrules
    | some b =>
      obtain ⟨rules, value⟩ := a
      obtain ⟨rules', value'⟩ := b
      obtain rfl : rules = rules' := Option.some.inj hrules
      obtain rfl : value = value' := Option.some.inj hdefault
      rfl

end Facet

/-- The patch writes this facet. -/
def FlagPatch.Carries (patch : FlagPatch) : Facet → Prop
  | .presence => False
  | .rules => patch.rules.isSome
  | .defaultValue => patch.defaultValue.isSome

/-- What an operation can do to one flag of one holder. -/
inductive FlagWrite where
  | add (rule : FlagRule)
  | patch (patch : FlagPatch)
  | remove

namespace FlagWrite

/-- What becomes of a flag that may be absent. -/
def apply : FlagWrite → Option FlagRule → Except StoreError (Option FlagRule)
  | add rule, none => .ok (some rule)
  | add _, some _ => .error (.alreadyExists .flag)
  | .patch _, none => .error (.notFound .flag)
  | .patch changes, some rule => .ok (some (changes.apply rule))
  | remove, _ => .ok none

/-- The write sets this facet, if it succeeds. -/
def Carries : FlagWrite → Facet → Prop
  | add _, _ | remove, _ => True
  | .patch changes, facet => changes.Carries facet

/-- Whether there is a flag decides whether the write succeeds, and then what the facets that it
carries say. -/
theorem apply_congr (write : FlagWrite) {a b : Option FlagRule} (h : a.isSome = b.isSome) :
    (∃ e, write.apply a = .error e ∧ write.apply b = .error e) ∨
    ∃ a' b', write.apply a = .ok a' ∧ write.apply b = .ok b' ∧
      ∀ facet, write.Carries facet → facet.read a' = facet.read b' := by
  cases write with
  | remove => exact .inr ⟨none, none, rfl, rfl, fun _ _ => rfl⟩
  | add rule =>
    cases a with
    | none =>
      obtain rfl := Option.not_isSome_iff_eq_none.1 (Bool.not_eq_true _ ▸ h.symm)
      exact .inr ⟨some rule, some rule, rfl, rfl, fun _ _ => rfl⟩
    | some a =>
      obtain ⟨b, rfl⟩ := Option.isSome_iff_exists.1 h.symm
      exact .inl ⟨.alreadyExists .flag, rfl, rfl⟩
  | patch patch =>
    cases a with
    | none =>
      obtain rfl := Option.not_isSome_iff_eq_none.1 (Bool.not_eq_true _ ▸ h.symm)
      exact .inl ⟨.notFound .flag, rfl, rfl⟩
    | some a =>
      obtain ⟨b, rfl⟩ := Option.isSome_iff_exists.1 h.symm
      refine .inr ⟨some (patch.apply a), some (patch.apply b), rfl, rfl, fun facet hcarries => ?_⟩
      cases facet with
      | presence => rfl
      | rules =>
        obtain ⟨rules, hrules⟩ := Option.isSome_iff_exists.1 hcarries
        show some (patch.rules.getD a.rules) = some (patch.rules.getD b.rules)
        rw [hrules, Option.getD_some, Option.getD_some]
      | defaultValue =>
        obtain ⟨value, hvalue⟩ := Option.isSome_iff_exists.1 hcarries
        show some (patch.defaultValue.getD a.defaultValue)
          = some (patch.defaultValue.getD b.defaultValue)
        rw [hvalue, Option.getD_some, Option.getD_some]

/-- A facet that the write does not carry stays as it is. -/
theorem read_of_apply {write : FlagWrite} {a a' : Option FlagRule} (h : write.apply a = .ok a')
    {facet : Facet} (hcarries : ¬ write.Carries facet) : facet.read a' = facet.read a := by
  cases write with
  | add | remove => exact absurd trivial hcarries
  | patch patch =>
    cases a with
    | none => cases h
    | some rule =>
      obtain rfl := Except.ok.inj h
      cases facet with
      | presence => rfl
      | rules =>
        have hrules : patch.rules = none := Option.not_isSome_iff_eq_none.1 hcarries
        show some (patch.rules.getD rule.rules) = some rule.rules
        rw [hrules, Option.getD_none]
      | defaultValue =>
        have hvalue : patch.defaultValue = none := Option.not_isSome_iff_eq_none.1 hcarries
        show some (patch.defaultValue.getD rule.defaultValue) = some rule.defaultValue
        rw [hvalue, Option.getD_none]

end FlagWrite

/-! ### Fields -/

/-- A field of a store. -/
inductive Field where
  /-- The two failure switches. -/
  | switches
  /-- A project without its flags. -/
  | project (name : String)
  /-- An environment without its name, its flags and its keys. -/
  | environment (id : String)
  | flag (holder : Holder) (name : String) (facet : Facet)
  /-- The name of an environment. -/
  | name (id : String)
  | key (id : String) (scope : KeyScope) (key : String)

namespace Field

def Value : Field → Type
  | switches => Bool × Bool
  | project _ => Option Project
  | environment _ => Option Environment
  | flag _ _ facet => facet.Value
  | name _ => Option String
  | key .. => Option KeyDescriptor

/-- The field belongs to this part of this environment. -/
def Within (id : String) : Environment.Part → Field → Prop
  | .name, field => field = .name id
  | .flag flagName, field => ∃ facet, field = .flag (.environment id) flagName facet
  | .key scope apiKey, field => field = .key id scope apiKey

end Field

namespace Holder

/-- The field that says whether there is the holder. -/
def document : Holder → Field
  | project name => .project name
  | environment id => .environment id

def entity : Holder → Entity
  | project _ => .project
  | environment _ => .environment

end Holder

/-- The project without its flags and the time of its last update. -/
def Project.frame (project : Project) : Project :=
  { project with flags := .empty, updatedAt := project.createdAt }

/-- The environment without its name, its flags, its keys and the time of its last update. -/
def Environment.frame (environment : Environment) : Environment :=
  .new environment.id "" .empty environment.createdAt

namespace Store

variable {s s' t : Store} {now : Nat → Timestamp}

/-- What a holder says of a flag, if there are both. -/
def flag (s : Store) : Holder → String → Option FlagRule
  | .project name, flag => s.projectFlag name flag
  | .environment id, flag => s.environmentFlag id flag

def read (s : Store) : (field : Field) → field.Value
  | .switches => (s.environmentWritesFail, s.projectLinksFail)
  | .project name => (s.projects.get? name).map Project.frame
  | .environment id => (s.environments.get? id).map Environment.frame
  | .flag holder name facet => facet.read (s.flag holder name)
  | .name id => (s.environments.get? id).map (·.name)
  | .key id scope key => (s.environments.get? id).bind fun e => (e.keys scope).get? key

/-- There is the holder. -/
def Has (s : Store) : Holder → Prop
  | .project name => (s.projects.get? name).isSome
  | .environment id => (s.environments.get? id).isSome

/-- Two stores say the same of these fields. -/
def AgreeOn (fields : Field → Prop) (s t : Store) : Prop :=
  ∀ field, fields field → s.read field = t.read field

theorem flag_eq_of_read_eq (holder : Holder) (name : String)
    (h : ∀ facet, s.read (.flag holder name facet) = t.read (.flag holder name facet)) :
    s.flag holder name = t.flag holder name := Facet.ext h

/-- The document of a holder says whether there is the holder. -/
theorem has_congr (holder : Holder) (h : s.read holder.document = t.read holder.document) :
    s.Has holder ↔ t.Has holder := by
  cases holder with
  | project name =>
    have hdocument : (s.projects.get? name).map Project.frame
        = (t.projects.get? name).map Project.frame := h
    have hisSome := congrArg Option.isSome hdocument
    rw [Option.isSome_map, Option.isSome_map] at hisSome
    rw [Has, Has, hisSome]
  | environment id =>
    have hdocument : (s.environments.get? id).map Environment.frame
        = (t.environments.get? id).map Environment.frame := h
    have hisSome := congrArg Option.isSome hdocument
    rw [Option.isSome_map, Option.isSome_map] at hisSome
    rw [Has, Has, hisSome]

/-- The document of a project says which ids it lists. -/
theorem environmentIds_eq {name : String} {p q : Project}
    (h : s.read (.project name) = t.read (.project name)) (hs : s.projects.get? name = some p)
    (ht : t.projects.get? name = some q) : p.environmentIds = q.environmentIds := by
  have hdocument : (s.projects.get? name).map Project.frame
      = (t.projects.get? name).map Project.frame := h
  rw [hs, ht, Option.map_some, Option.map_some, Option.some.injEq] at hdocument
  have hids : p.frame.environmentIds = q.frame.environmentIds := by rw [hdocument]
  exact hids

/-! ### A store is its fields -/

/-- The store with every document as if it had not been updated since its creation. -/
def untimed (s : Store) : Store :=
  { s with
    projects := s.projects.mapValues fun _ p => { p with updatedAt := p.createdAt }
    environments := s.environments.mapValues fun _ e => { e with updatedAt := e.createdAt } }

theorem project_untimed_eq (h : ∀ field, s.read field = t.read field) (name : String) :
    (s.projects.get? name).map (fun p => { p with updatedAt := p.createdAt })
      = (t.projects.get? name).map fun p => { p with updatedAt := p.createdAt } := by
  have hframe : (s.projects.get? name).map Project.frame
      = (t.projects.get? name).map Project.frame := h (.project name)
  cases hs : s.projects.get? name with
  | none =>
    rw [hs] at hframe
    rw [Option.map_eq_none_iff.1 hframe.symm]
  | some p =>
    rw [hs] at hframe
    obtain ⟨q, ht, hpq⟩ := Option.map_eq_some_iff.1 hframe.symm
    have hflags : p.flags = q.flags := by
      apply SortedMap.ext
      intro flag
      rw [← projectFlag_eq hs, ← projectFlag_eq ht]
      exact flag_eq_of_read_eq (.project name) flag fun facet => h _
    rw [ht, Option.map_some, Option.map_some]
    cases p
    cases q
    simp_all [Project.frame]

theorem environment_untimed_eq (h : ∀ field, s.read field = t.read field) (id : String) :
    (s.environments.get? id).map (fun e => { e with updatedAt := e.createdAt })
      = (t.environments.get? id).map fun e => { e with updatedAt := e.createdAt } := by
  have hframe : (s.environments.get? id).map Environment.frame
      = (t.environments.get? id).map Environment.frame := h (.environment id)
  have hname : (s.environments.get? id).map (·.name) = (t.environments.get? id).map (·.name) :=
    h (.name id)
  cases hs : s.environments.get? id with
  | none =>
    rw [hs] at hframe
    rw [Option.map_eq_none_iff.1 hframe.symm]
  | some e =>
    rw [hs] at hframe
    obtain ⟨e', ht, hee'⟩ := Option.map_eq_some_iff.1 hframe.symm
    have hflags : e.flags = e'.flags := by
      apply SortedMap.ext
      intro flag
      rw [← environmentFlag_eq hs, ← environmentFlag_eq ht]
      exact flag_eq_of_read_eq (.environment id) flag fun facet => h _
    have hkeys : ∀ scope, e.keys scope = e'.keys scope := by
      intro scope
      apply SortedMap.ext
      intro key
      have hkey : (s.environments.get? id).bind (fun e => (e.keys scope).get? key)
          = (t.environments.get? id).bind fun e => (e.keys scope).get? key := h (.key id scope key)
      rwa [hs, ht, Option.bind_some, Option.bind_some] at hkey
    have hserver : e.serverSideKeys = e'.serverSideKeys := hkeys .serverSide
    have hclient : e.clientSideKeys = e'.clientSideKeys := hkeys .clientSide
    rw [hs, ht, Option.map_some, Option.map_some] at hname
    rw [ht, Option.map_some, Option.map_some]
    cases e
    cases e'
    simp_all [Environment.frame, Environment.new]

/-- Stores that say the same of every field are the same up to the times of the last updates. -/
theorem untimed_eq (h : ∀ field, s.read field = t.read field) : s.untimed = t.untimed := by
  obtain ⟨hwrites, hlinks⟩ := Prod.mk.inj (h .switches)
  have hprojects : s.untimed.projects = t.untimed.projects := by
    apply SortedMap.ext
    intro name
    rw [untimed, SortedMap.get?_mapValues, untimed, SortedMap.get?_mapValues]
    exact project_untimed_eq h name
  have henvironments : s.untimed.environments = t.untimed.environments := by
    apply SortedMap.ext
    intro id
    rw [untimed, SortedMap.get?_mapValues, untimed, SortedMap.get?_mapValues]
    exact environment_untimed_eq h id
  rw [untimed, untimed] at hprojects henvironments ⊢
  simp only [Store.mk.injEq]
  exact ⟨hprojects, henvironments, hwrites, hlinks⟩

/-! ### Writes of flags -/

/-- The documents of some environments have changed in one part.  The fields outside of it say what
they said. -/
theorem read_of_agreesBut (ids : String → Prop) (part : Environment.Part)
    (hframe : s' = { s with environments := s'.environments })
    (h : ∀ id, s'.environments.get? id = s.environments.get? id ∨
      ids id ∧ ∃ e e', s.environments.get? id = some e ∧ s'.environments.get? id = some e' ∧
        e.AgreesBut part e')
    {field : Field} (hfield : ∀ id, ids id → ¬ field.Within id part) :
    s'.read field = s.read field := by
  cases field with
  | switches | project => rw [hframe]; rfl
  | environment id =>
    show (s'.environments.get? id).map _ = (s.environments.get? id).map _
    obtain heq | ⟨-, e, e', hs, hs', hagrees⟩ := h id
    · rw [heq]
    · rw [hs, hs', Option.map_some, Option.map_some, Environment.frame, Environment.frame,
        hagrees.id, hagrees.createdAt]
  | name id =>
    show (s'.environments.get? id).map _ = (s.environments.get? id).map _
    obtain heq | ⟨hid, e, e', hs, hs', hagrees⟩ := h id
    · rw [heq]
    · have hne : part ≠ .name := by
        rintro rfl
        exact hfield id hid rfl
      rw [hs, hs', Option.map_some, Option.map_some, hagrees.name hne]
  | key id scope key =>
    show (s'.environments.get? id).bind _ = (s.environments.get? id).bind _
    obtain heq | ⟨hid, e, e', hs, hs', hagrees⟩ := h id
    · rw [heq]
    · have hne : part ≠ .key scope key := by
        rintro rfl
        exact hfield id hid rfl
      rw [hs, hs', Option.bind_some, Option.bind_some, hagrees.keys scope key hne]
  | flag holder flag facet =>
    cases holder with
    | project => rw [hframe]; rfl
    | environment id =>
      show facet.read (s'.environmentFlag id flag) = facet.read (s.environmentFlag id flag)
      obtain heq | ⟨hid, e, e', hs, hs', hagrees⟩ := h id
      · rw [environmentFlag, environmentFlags, heq, environmentFlag, environmentFlags]
      · have hne : part ≠ .flag flag := by
          rintro rfl
          exact hfield id hid ⟨facet, rfl⟩
        rw [environmentFlag_eq hs, environmentFlag_eq hs', hagrees.flags flag hne]

/-- The document of one environment has changed in one part. -/
theorem read_replaced {id : String} {e e' : Environment} {part : Environment.Part}
    (he : s.environments.get? id = some e) (hagrees : e.AgreesBut part e') {field : Field}
    (hfield : ¬ field.Within id part) :
    ({ s with environments := s.environments.insert id e' } : Store).read field
      = s.read field := by
  apply read_of_agreesBut (· = id) part rfl
  · intro other
    rw [SortedMap.get?_insert]
    split
    case isTrue hother => exact .inr ⟨hother, e, e', hother ▸ he, rfl, hagrees⟩
    case isFalse => exact .inl rfl
  · rintro other rfl
    exact hfield

/-- One flag has been set for these holders, or dropped if there is no rule, and nothing else has
changed. -/
structure Assigned (holders : Holder → Prop) (flag : String) (rule : Option FlagRule)
    (s s' : Store) : Prop where
  there : ∀ holder, holders holder → s'.flag holder flag = rule
  elsewhere : ∀ field, (∀ holder facet, holders holder → field ≠ .flag holder flag facet) →
    s'.read field = s.read field

theorem assigned_project {name : String} {project : Project}
    (hp : s.projects.get? name = some project) (flag : String) (rule : Option FlagRule)
    (time : Timestamp) :
    Assigned (· = .project name) flag rule s
      { s with projects := s.projects.insert name (project.assign flag rule time) } where
  there := by
    rintro holder rfl
    exact projectFlag_assign s name project flag rule time
  elsewhere field hfield := by
    cases field with
    | switches | environment | name | key => rfl
    | project other => exact map_get?_insert Project.frame hp (by rfl) other
    | flag holder other facet =>
      cases holder with
      | environment => rfl
      | project holder =>
        have hne : ¬ (holder = name ∧ other = flag) := by
          rintro ⟨rfl, rfl⟩
          exact hfield _ facet rfl rfl
        show facet.read (projectFlag _ holder other) = facet.read (s.projectFlag holder other)
        rw [projectFlag, projectFlags_assign hp, projectFlag]
        split
        case isTrue hholder =>
          subst hholder
          have hother : other ≠ flag := fun heq => hne ⟨rfl, heq⟩
          cases s.projectFlags holder with
          | none => rfl
          | some flags =>
            rw [Option.map_some, Option.bind_some, Option.bind_some, FlagMap.get?_assign,
              if_neg hother]
        case isFalse => rfl

theorem assigned_environment {id : String} {e : Environment}
    (he : s.environments.get? id = some e) (flag : String) (rule : Option FlagRule)
    (time : Timestamp) :
    Assigned (· = .environment id) flag rule s
      { s with environments := s.environments.insert id (e.assign flag rule time) } where
  there := by
    rintro holder rfl
    show environmentFlag _ id flag = rule
    rw [environmentFlag_eq (by rw [SortedMap.get?_insert, if_pos rfl]), Environment.assign,
      FlagMap.get?_assign, if_pos rfl]
  elsewhere field hfield := by
    apply read_replaced he (e.agreesBut_assign flag rule time)
    rintro ⟨facet, rfl⟩
    exact hfield _ facet rfl rfl

/-- A bulk write sets the flag in the listed environments that exist. -/
theorem Cascaded.assigned {clock : Timestamp → Prop} {ids : List String} {flag : String}
    {rule : Option FlagRule} {n : Nat} (h : Cascaded clock ids flag rule s s' n) :
    Assigned (fun holder => ∃ id ∈ ids, s.Has (.environment id) ∧ holder = .environment id) flag
      rule s s' where
  there := by
    rintro holder ⟨id, hid, hhas, rfl⟩
    obtain ⟨e, he⟩ := Option.isSome_iff_exists.1 hhas
    obtain ⟨time, -, he'⟩ := h.listed id hid
    rw [he, Option.map_some] at he'
    show s'.environmentFlag id flag = rule
    rw [environmentFlag_eq he', Environment.assign, FlagMap.get?_assign, if_pos rfl]
  elsewhere field hfield := by
    apply read_of_agreesBut (fun id => id ∈ ids ∧ s.Has (.environment id)) (.flag flag) h.frame
    · intro id
      by_cases hid : id ∈ ids
      · obtain ⟨time, -, he'⟩ := h.listed id hid
        cases he : s.environments.get? id with
        | none => exact .inl (by rw [he', he]; rfl)
        | some e =>
          rw [he, Option.map_some] at he'
          exact .inr ⟨⟨hid, Option.isSome_iff_exists.2 ⟨e, he⟩⟩, e, _, rfl, he',
            e.agreesBut_assign flag rule time⟩
      · exact .inl (h.unlisted id hid)
    · rintro id ⟨hid, hhas⟩ ⟨facet, rfl⟩
      exact hfield _ facet ⟨id, hid, hhas, rfl⟩ rfl

/-- How a write to one flag of one holder ends: there is no such holder, what it says of the flag
does not allow the write, or the flag has been written. -/
inductive Wrote {β : Type} (s : Store) (holder : Holder) (flag : String) (write : FlagWrite) :
    Except StoreError (β × Store) → Prop where
  | absent (h : ¬ s.Has holder) : Wrote s holder flag write (.error (.notFound holder.entity))
  | refused {e : StoreError} (hhas : s.Has holder)
      (happly : write.apply (s.flag holder flag) = .error e) : Wrote s holder flag write (.error e)
  | written {rule : Option FlagRule} {result : β} {s' : Store} (hhas : s.Has holder)
      (happly : write.apply (s.flag holder flag) = .ok rule)
      (h : Assigned (· = holder) flag rule s s') : Wrote s holder flag write (.ok (result, s'))

theorem wrote_updateProject {β : Type} {name flag : String} {write : FlagWrite}
    (time : Timestamp) (result : Project → Option FlagRule → β)
    {change : Project → Except StoreError (β × Project)}
    (hchange : ∀ project, change project = (write.apply (project.flags.get? flag)).map
      fun rule => (result project rule, project.assign flag rule time)) :
    Wrote s (.project name) flag write (s.updateProject name change) := by
  rw [updateProject]
  cases hp : s.projects.get? name with
  | none => exact .absent (by simp [Has, hp])
  | some project =>
    have hhas : s.Has (.project name) := by simp [Has, hp]
    have hflag : s.flag (.project name) flag = project.flags.get? flag := projectFlag_eq hp flag
    simp only [hchange]
    rw [← hflag]
    cases happly : write.apply (s.flag (.project name) flag) with
    | error e => exact .refused hhas happly
    | ok rule => exact .written hhas happly (assigned_project hp flag rule time)

theorem wrote_updateEnvironment {β : Type} {id flag : String} {write : FlagWrite}
    (time : Timestamp) (result : Environment → Option FlagRule → β)
    {change : Environment → Except StoreError (β × Environment)}
    (hchange : ∀ e, change e = (write.apply (e.flags.get? flag)).map
      fun rule => (result e rule, e.assign flag rule time)) :
    Wrote s (.environment id) flag write (s.updateEnvironment id change) := by
  rw [updateEnvironment]
  cases he : s.environments.get? id with
  | none => exact .absent (by simp [Has, he])
  | some e =>
    have hhas : s.Has (.environment id) := by simp [Has, he]
    have hflag : s.flag (.environment id) flag = e.flags.get? flag := environmentFlag_eq he flag
    simp only [hchange]
    rw [← hflag]
    cases happly : write.apply (s.flag (.environment id) flag) with
    | error e => exact .refused hhas happly
    | ok rule => exact .written hhas happly (assigned_environment he flag rule time)

theorem Wrote.silent {β : Type} {holder : Holder} {flag : String} {write : FlagWrite}
    {result : Except StoreError (β × Store)} (h : Wrote s holder flag write result) :
    Wrote s holder flag write (Store.silent (result.map (·.2))) := by
  cases h with
  | absent h => exact .absent h
  | refused hhas happly => exact .refused hhas happly
  | written hhas happly h => exact .written hhas happly h

/-- The holder, the flag and the write of a request that writes to one flag of one holder. -/
def Request.flagWrite? : Request → Option (Holder × String × FlagWrite)
  | insertProjectFlag project flag rule => some (.project project, flag, .add rule)
  | patchProjectFlag project flag patch => some (.project project, flag, .patch patch)
  | removeProjectFlag project flag => some (.project project, flag, .remove)
  | patchEnvironmentFlag id flag patch => some (.environment id, flag, .patch patch)
  | removeEnvironmentFlag id flag => some (.environment id, flag, .remove)
  | _ => none

/-- **Writes of flags**: a request to one flag of one holder looks at nothing of it but the flag,
and changes nothing else. -/
theorem perform_flagWrite {request : Request} {holder : Holder} {flag : String} {write : FlagWrite}
    (h : request.flagWrite? = some (holder, flag, write)) :
    Wrote s holder flag write (s.perform now request) := by
  cases request with
  | insertProjectFlag project flag rule =>
    cases h
    apply wrote_updateProject (now 0) fun p _ => p.environmentIds
    intro p
    rw [SortedMap.contains]
    cases p.flags.get? flag <;> rfl
  | patchProjectFlag project flag patch =>
    cases h
    apply wrote_updateProject (now 0) fun _ rule => rule.getD default
    intro p
    cases p.flags.get? flag <;> rfl
  | removeProjectFlag project flag =>
    cases h
    exact wrote_updateProject (now 0) (fun p _ => p.environmentIds) fun p => rfl
  | patchEnvironmentFlag id flag patch =>
    cases h
    apply wrote_updateEnvironment (now 0) fun _ rule => rule.getD default
    intro e
    cases e.flags.get? flag <;> rfl
  | removeEnvironmentFlag id flag =>
    cases h
    exact Wrote.silent (wrote_updateEnvironment (now 0) (fun _ _ => ()) fun e => rfl)
  | _ => cases h

end Store

end FeatureFlags

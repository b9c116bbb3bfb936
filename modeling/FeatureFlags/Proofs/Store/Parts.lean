import FeatureFlags.Proofs.Store.Operations

/-!
Parts of documents.

What an operation addresses in a document is one part of it: the name, one flag or one key of an
environment; one flag or one of the listed ids of a project.  Two documents agree but for a part
(`Environment.AgreesBut`, `Project.AgreesBut`) if all their other parts are the same; the time of
the last update may always differ.  Each change that the store makes to a document is of one part.
-/

namespace FeatureFlags

/-! ### Environments -/

/-- What an operation can address in an environment. -/
inductive Environment.Part where
  | name
  | flag (flag : String)
  | key (scope : KeyScope) (key : String)

namespace Environment

/-- Nothing but this part and the time of the last update has changed. -/
structure AgreesBut (part : Part) (e e' : Environment) : Prop where
  id : e'.id = e.id
  createdAt : e'.createdAt = e.createdAt
  name : part ≠ .name → e'.name = e.name
  flags : ∀ flag, part ≠ .flag flag → e'.flags.get? flag = e.flags.get? flag
  keys : ∀ scope key, part ≠ .key scope key →
    (e'.keys scope).get? key = (e.keys scope).get? key

variable (e : Environment)

theorem keys_rekey (scope other : KeyScope) (keys : KeyMap) (now : Timestamp) :
    (e.rekey scope keys now).keys other = if other = scope then keys else e.keys other := by
  cases scope <;> cases other <;> rfl

theorem agreesBut_assign (flag : String) (rule : Option FlagRule) (now : Timestamp) :
    e.AgreesBut (.flag flag) (e.assign flag rule now) where
  id := rfl
  createdAt := rfl
  name _ := rfl
  flags other hne := by
    have hother : other ≠ flag := fun h => hne (congrArg Part.flag h.symm)
    rw [assign, FlagMap.get?_assign, if_neg hother]
  keys scope key _ := by cases scope <;> rfl

theorem agreesBut_rename (name : String) (now : Timestamp) :
    e.AgreesBut .name { e with name, updatedAt := now } where
  id := rfl
  createdAt := rfl
  name hne := absurd rfl hne
  flags _ _ := rfl
  keys scope _ _ := by cases scope <;> rfl

/-- Keys of one kind that differ in one key at most. -/
theorem agreesBut_rekey (scope : KeyScope) {key : String} {keys : KeyMap} (now : Timestamp)
    (hkeys : ∀ other, other ≠ key → keys.get? other = (e.keys scope).get? other) :
    e.AgreesBut (.key scope key) (e.rekey scope keys now) where
  id := by cases scope <;> rfl
  createdAt := by cases scope <;> rfl
  name _ := by cases scope <;> rfl
  flags _ _ := by cases scope <;> rfl
  keys scope' other hne := by
    rw [keys_rekey]
    split
    case isTrue hscope =>
      subst hscope
      exact hkeys other fun h => hne (congrArg (Part.key scope') h.symm)
    case isFalse => rfl

theorem agreesBut_insertKey (scope : KeyScope) (key : String) (descriptor : KeyDescriptor)
    (now : Timestamp) :
    e.AgreesBut (.key scope key) (e.rekey scope ((e.keys scope).insert key descriptor) now) :=
  e.agreesBut_rekey scope now fun other hne => by rw [SortedMap.get?_insert, if_neg hne]

theorem agreesBut_eraseKey (scope : KeyScope) (key : String) (now : Timestamp) :
    e.AgreesBut (.key scope key) (e.rekey scope ((e.keys scope).erase key) now) :=
  e.agreesBut_rekey scope now fun other hne => by rw [SortedMap.get?_erase, if_neg hne]

end Environment

/-! ### Projects -/

/-- What an operation can address in a project. -/
inductive Project.Part where
  | flag (flag : String)
  | link (id : String)

namespace Project

/-- The ids that a project lists, without the one that the part is. -/
def linksBut (project : Project) : Part → List String
  | .flag _ => project.environmentIds
  | .link id => project.environmentIds.filter (· ≠ id)

/-- Nothing but this part and the time of the last update has changed. -/
structure AgreesBut (part : Part) (p p' : Project) : Prop where
  id : p'.id = p.id
  name : p'.name = p.name
  createdAt : p'.createdAt = p.createdAt
  flags : ∀ flag, part ≠ .flag flag → p'.flags.get? flag = p.flags.get? flag
  links : p'.linksBut part = p.linksBut part

variable (p : Project)

theorem agreesBut_assign (flag : String) (rule : Option FlagRule) (now : Timestamp) :
    p.AgreesBut (.flag flag) (p.assign flag rule now) where
  id := rfl
  name := rfl
  createdAt := rfl
  flags other hne := by
    have hother : other ≠ flag := fun h => hne (congrArg Part.flag h.symm)
    rw [assign, FlagMap.get?_assign, if_neg hother]
  links := rfl

theorem agreesBut_enlist (id : String) (now : Timestamp) :
    p.AgreesBut (.link id) { p.enlist id with updatedAt := now } where
  id := rfl
  name := rfl
  createdAt := rfl
  flags _ _ := rfl
  links := by
    rw [linksBut, linksBut, enlist]
    split
    case isTrue => rfl
    case isFalse => simp

theorem agreesBut_detach (id : String) (now : Timestamp) :
    p.AgreesBut (.link id) (p.detach id now) := by
  rw [detach]
  split
  case isTrue =>
    refine ⟨rfl, rfl, rfl, fun _ _ => rfl, ?_⟩
    simp [linksBut, unlist]
  case isFalse => exact ⟨rfl, rfl, rfl, fun _ _ => rfl, rfl⟩

end Project

end FeatureFlags

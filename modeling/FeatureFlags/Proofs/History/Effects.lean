import FeatureFlags.Proofs.History.Journal

/-!
What each command does to the views of the store, by how it ends.

The tables of effects are right: after a command, the flags of an environment, the flags of a
project and the ids that it lists are what the tables make of those before
(`Command.Ends.environmentFlags`, `Command.Ends.projectFlags`, `Command.Ends.links`).  Commands that
have no entry in a table write to other fields only.
-/

namespace FeatureFlags

open Store

variable {supply : Supply} {m n : Nat} {command : Command}
  {outcome : Except ApiError command.Result} {s s' : Store}

namespace Command

/-! ### Failures -/

theorem environmentEffect_error (command : Command) (before : Store) (id : String)
    (flags : Option FlagMap) (error : ApiError) :
    command.environmentEffect before id flags (.error error) = flags := by
  cases command <;> rfl

theorem linksEffect_error (command : Command) (before : Store) (name : String)
    (links : Option (List String)) (error : ApiError) :
    command.linksEffect before name links (.error error) = links := by
  cases command <;> rfl

/-- Another failure than that of a cascade means nothing for the flags of a project. -/
theorem projectEffect_of_ne {command : Command} {name : String} {flags : Option FlagMap}
    {error : ApiError} (h : ∀ flag, error ≠ .partialCascade flag) :
    command.projectEffect name flags (.error error) = flags := by
  cases command with
  | addFlag | removeFlag =>
    cases error with
    | partialCascade flag => exact absurd rfl (h flag)
    | _ => rfl
  | _ => rfl

/-! ### The tables are right -/

namespace Ends

/-- After a command, the flags of an environment are what the table makes of those before. -/
theorem environmentFlags (h : Ends supply m n command outcome s s') (id : String) :
    s'.environmentFlags id
      = command.environmentEffect s id (s.environmentFlags id) outcome := by
  cases h with
  | failed => exact (environmentEffect_error command s id _ _).symm
  | listProjects | getProject | getEnvironment | createProject | deleteProject | addFlagPartly
  | removeFlagPartly | patchFlag | resyncFlagPartly => rfl
  | addFlag hp htime hcascade | removeFlag hp htime hcascade =>
    refine (hcascade.environmentFlags id).trans ?_
    simp only [environmentEffect, lists_iff hp.1]
    rfl
  | resyncFlag hp hcascade =>
    refine (hcascade.environmentFlags id).trans ?_
    simp only [environmentEffect, lists_iff hp, projectFlag_eq hp]
  | createEnvironment hp =>
    refine (environmentFlags_insert s _ _ id).trans ?_
    simp only [environmentEffect, projectFlags, hp]
    rfl
  | deleteEnvironment hid hlinks hdetached =>
    rw [hdetached.frame]
    exact environmentFlags_erase s _ id
  | deleteEnvironmentAlone => exact environmentFlags_erase s _ id
  | renameEnvironment he =>
    exact map_get?_insert (fun e : Environment => e.flags) he (by rfl) id
  | @createKey scope _ _ _ _ _ _ _ he =>
    exact map_get?_insert (fun e : Environment => e.flags) he (by cases scope <;> rfl) id
  | @deleteKey scope _ _ _ _ _ he =>
    exact map_get?_insert (fun e : Environment => e.flags) he (by cases scope <;> rfl) id
  | removeEnvironmentFlag he => exact environmentFlags_assign he _ none _ id
  | @patchEnvironmentFlag target flag patch e rule time _ he hrule =>
    -- the table patches the rule that it finds in the flags, which is the old one
    refine (environmentFlags_assign he flag _ time id).trans ?_
    simp only [environmentEffect]
    split
    case isTrue hid =>
      subst hid
      rw [Store.environmentFlags, he, Option.map_some, Option.map_some, Option.map_some, hrule]
      rfl
    case isFalse => rfl

/-- After a command, the flags of a project are what the table makes of those before. -/
theorem projectFlags (h : Ends supply m n command outcome s s') (name : String) :
    s'.projectFlags name = command.projectEffect name (s.projectFlags name) outcome := by
  cases h with
  | failed he => exact (projectEffect_of_ne he).symm
  | listProjects | getProject | getEnvironment | resyncFlagPartly | deleteEnvironmentAlone
  | renameEnvironment | patchEnvironmentFlag | removeEnvironmentFlag | createKey | deleteKey => rfl
  | createProject => exact projectFlags_insert s _ _ name
  | deleteProject => exact projectFlags_erase s _ name
  | addFlag hp htime hcascade =>
    rw [Store.projectFlags, hcascade.projects]
    exact projectFlags_assign hp.1 _ (some _) _ name
  | removeFlag hp htime hcascade =>
    rw [Store.projectFlags, hcascade.projects]
    exact projectFlags_assign hp.1 _ none _ name
  | addFlagPartly hp => exact projectFlags_assign hp.1 _ (some _) _ name
  | removeFlagPartly hp => exact projectFlags_assign hp.1 _ none _ name
  | resyncFlag hp hcascade =>
    rw [Store.projectFlags, hcascade.projects]
    rfl
  | createEnvironment hp =>
    exact map_get?_insert (fun p : Project => p.flags) hp (by rfl) name
  | deleteEnvironment hid hlinks hdetached => exact hdetached.projectFlags name
  | @patchFlag project flag patch found rule time _ hp hrule =>
    refine (projectFlags_assign hp flag _ time name).trans ?_
    simp only [projectEffect]
    split
    case isTrue hname =>
      subst hname
      rw [Store.projectFlags, hp, Option.map_some, Option.map_some, Option.map_some, hrule]
      rfl
    case isFalse => rfl

/-- After a command, a project lists what the table makes of what it listed before. -/
theorem links (h : Ends supply m n command outcome s s') (name : String) :
    s'.links name = command.linksEffect s name (s.links name) outcome := by
  cases h with
  | failed => exact (linksEffect_error command s name _ _).symm
  | listProjects | getProject | getEnvironment | resyncFlagPartly | renameEnvironment
  | patchEnvironmentFlag | removeEnvironmentFlag | createKey | deleteKey => rfl
  | createProject => exact links_insert s _ _ name
  | deleteProject => exact links_erase s _ name
  | addFlag hp htime hcascade | removeFlag hp htime hcascade =>
    rw [Store.links, hcascade.projects]
    exact map_get?_insert (fun p : Project => p.environmentIds) hp.1 (by rfl) name
  | addFlagPartly hp | removeFlagPartly hp =>
    exact map_get?_insert (fun p : Project => p.environmentIds) hp.1 (by rfl) name
  | patchFlag hp => exact map_get?_insert (fun p : Project => p.environmentIds) hp (by rfl) name
  | resyncFlag hp hcascade =>
    rw [Store.links, hcascade.projects]
    rfl
  | createEnvironment hp =>
    refine (links_insert s _ _ name).trans ?_
    simp only [linksEffect, Environment.new]
    split
    case isTrue hname =>
      rw [hname, Store.links, hp]
      rfl
    case isFalse => rfl
  | deleteEnvironment hid hlinks hdetached =>
    rw [hdetached.links]
    simp only [linksEffect, hlinks]
    rfl
  | deleteEnvironmentAlone hid hlinks =>
    simp only [linksEffect, hlinks]
    rfl

end Ends

end Command

end FeatureFlags

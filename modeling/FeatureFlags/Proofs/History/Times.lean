import FeatureFlags.Proofs.History.Journal
import FeatureFlags.Proofs.Store.Parts

/-!
What the times of documents say.

A document is created with two equal times.  From then on a command that finds it either leaves it
exactly as it is, or keeps what it has from its creation and sets the time of its last update to a
reading of the clock (`Passes`).  Every command does one of these to each document, also to all
those that a bulk write goes through, and this is shown once for projects and once for environments
(`Command.Ends.project_passes`, `Command.Ends.environment_passes`).

What follows is the same for both (`Clocked`).  If the clock never goes back, then a reading is not
later than what any later step reads, so that the times of a document never go back either.
-/

namespace FeatureFlags

open Store

/-! ### Clocks -/

namespace Timestamp

theorem le_refl (t : Timestamp) : t ≤ t := .inr ⟨rfl, Nat.le_refl _⟩

theorem le_trans {s t u : Timestamp} (hst : s ≤ t) (htu : t ≤ u) : s ≤ u := by
  show s.seconds < u.seconds ∨ _
  obtain hst | ⟨hst, hst'⟩ := hst <;> obtain htu | ⟨htu, htu'⟩ := htu
  · exact .inl (by omega)
  · exact .inl (by omega)
  · exact .inl (by omega)
  · exact .inr ⟨hst.trans htu, Nat.le_trans hst' htu'⟩

end Timestamp

namespace Supply

/-- The clock never goes back: no step reads less than an earlier one, and neither does a later
reading of one step. -/
def Forward (supply : Supply) : Prop :=
  ∀ k i l j, k < l ∨ k = l ∧ i ≤ j → supply.reading k i ≤ supply.reading l j

theorem Forward.le_reading {supply : Supply} (h : supply.Forward) {m n : Nat} {time : Timestamp}
    (htime : supply.Reads m n time) {k : Nat} (hk : n ≤ k) (index : Nat) :
    time ≤ supply.reading k index := by
  obtain ⟨l, j, -, hl, rfl⟩ := htime
  exact h l j k index (.inl (Nat.lt_of_lt_of_le hl hk))

theorem forward_counting : counting.Forward := by
  rintro k i l j (h | ⟨rfl, h⟩)
  · exact .inl (Int.ofNat_lt.2 h)
  · exact .inr ⟨rfl, h⟩

end Supply

/-! ### Documents with times -/

/-- What a document has from its creation: its id, its time, and its name if that is for good. -/
structure Origin where
  id : String
  name : Option String
  createdAt : Timestamp
deriving DecidableEq

/-- A document that says when it was created and when it was updated last. -/
class Dated (δ : Type) where
  origin : δ → Origin
  updatedAt : δ → Timestamp

open Dated

/-- Projects keep their names. -/
instance : Dated Project where
  origin project := ⟨project.id, some project.name, project.createdAt⟩
  updatedAt := Project.updatedAt

/-- Environments can be renamed. -/
instance : Dated Environment where
  origin e := ⟨e.id, none, e.createdAt⟩
  updatedAt := Environment.updatedAt

theorem Project.AgreesBut.origin {part : Part} {p p' : Project} (h : p.AgreesBut part p') :
    origin p' = origin p := by
  show Origin.mk p'.id (some p'.name) p'.createdAt = Origin.mk p.id (some p.name) p.createdAt
  rw [h.id, h.name, h.createdAt]

theorem Environment.AgreesBut.origin {part : Part} {e e' : Environment}
    (h : e.AgreesBut part e') : origin e' = origin e := by
  show Origin.mk e'.id none e'.createdAt = Origin.mk e.id none e.createdAt
  rw [h.id, h.createdAt]

variable {δ : Type} [Dated δ]

/-- What becomes of the document of a key while the clock reads these times. -/
inductive Passes (clock : Timestamp → Prop) : Option δ → Option δ → Prop where
  | kept (d : Option δ) : Passes clock d d
  | updated {d d' : δ} (horigin : origin d' = origin d) (htime : clock (updatedAt d')) :
      Passes clock (some d) (some d')
  | created {d : δ} (hcreated : (origin d).createdAt = updatedAt d)
      (htime : clock (updatedAt d)) : Passes clock none (some d)
  | deleted (d : δ) : Passes clock (some d) none

namespace Passes

variable {clock : Timestamp → Prop} {m : SortedMap δ} {key : String}

theorem inserted {d : δ} (h : Passes clock (m.get? key) (some d)) (k : String) :
    Passes clock (m.get? k) ((m.insert key d).get? k) := by
  rw [SortedMap.get?_insert]
  split
  case isTrue hk => exact hk ▸ h
  case isFalse => exact .kept _

/-- One document is replaced. -/
theorem replaced {d d' : δ} (hd : m.get? key = some d) (horigin : origin d' = origin d)
    (htime : clock (updatedAt d')) (k : String) :
    Passes clock (m.get? k) ((m.insert key d').get? k) :=
  inserted (hd ▸ .updated horigin htime) k

/-- A document is created where there was none. -/
theorem placed {d : δ} (habsent : m.get? key = none)
    (hcreated : (origin d).createdAt = updatedAt d) (htime : clock (updatedAt d)) (k : String) :
    Passes clock (m.get? k) ((m.insert key d).get? k) :=
  inserted (habsent ▸ .created hcreated htime) k

theorem erased (m : SortedMap δ) (key k : String) :
    Passes clock (m.get? k) ((m.erase key).get? k) := by
  rw [SortedMap.get?_erase]
  split
  case isTrue =>
    cases m.get? k with
    | none => exact .kept none
    | some d => exact .deleted d
  case isFalse => exact .kept _

variable {d' : δ} {before : Option δ}

/-- A document that was there keeps what it has from its creation, and is updated if it changes. -/
theorem found {d : δ} (h : Passes clock (some d) (some d')) :
    origin d' = origin d ∧ (d' = d ∨ clock (updatedAt d')) := by
  cases h with
  | kept => exact ⟨rfl, .inl rfl⟩
  | updated horigin htime => exact ⟨horigin, .inr htime⟩

/-- A document was there, or has the time of an update or of its creation. -/
theorem left (h : Passes clock before (some d')) : before = some d' ∨ clock (updatedAt d') := by
  cases h with
  | kept => exact .inl rfl
  | updated _ htime | created _ htime => exact .inr htime

end Passes

/-! ### What commands do -/

namespace Command.Ends

variable {supply : Supply} {m n : Nat} {command : Command}
  {outcome : Except ApiError command.Result} {s s' : Store}

/-- A cascade updates the environments that are listed, each by a reading of its own. -/
theorem passes_cascaded {clock : Timestamp → Prop} {ids : List String} {flag : String}
    {rule : Option FlagRule} {written : Nat} (h : Cascaded clock ids flag rule s s' written)
    (id : String) : Passes clock (s.environments.get? id) (s'.environments.get? id) := by
  by_cases hid : id ∈ ids
  · obtain ⟨time, htime, he'⟩ := h.listed id hid
    rw [he']
    cases s.environments.get? id with
    | none => exact .kept none
    | some e => exact .updated (e.agreesBut_assign flag rule time).origin htime
  · rw [h.unlisted id hid]
    exact .kept _

/-- Detaching an id updates the projects that list it. -/
theorem passes_detached {clock : Timestamp → Prop} {id : String} (h : Detached clock id s s')
    (name : String) : Passes clock (s.projects.get? name) (s'.projects.get? name) := by
  obtain ⟨time, htime, hp'⟩ := h.projects name
  rw [hp']
  cases s.projects.get? name with
  | none => exact .kept none
  | some p =>
    rw [Option.map_some, Project.detach]
    split
    case isTrue hlisted =>
      have horigin := (p.agreesBut_detach id time).origin
      rw [Project.detach, if_pos hlisted] at horigin
      exact .updated horigin htime
    case isFalse => exact .kept _

theorem project_passes (h : Ends supply m n command outcome s s') (name : String) :
    Passes (supply.Reads m n) (s.projects.get? name) (s'.projects.get? name) := by
  cases h with
  | failed | listProjects | getProject | getEnvironment | resyncFlagPartly
  | deleteEnvironmentAlone | renameEnvironment | patchEnvironmentFlag | removeEnvironmentFlag
  | createKey | deleteKey => exact .kept _
  | createProject hid htime habsent => exact .placed habsent rfl htime name
  | deleteProject => exact .erased ..
  | @addFlag _ flag found time _ _ _ hp htime hcascade =>
    rw [hcascade.projects]
    exact .replaced hp.1 (found.agreesBut_assign flag.name (some flag.rule) time).origin htime name
  | @addFlagPartly _ flag found time _ hp htime =>
    exact .replaced hp.1 (found.agreesBut_assign flag.name (some flag.rule) time).origin htime name
  | @removeFlag _ flag found time _ _ _ hp htime hcascade =>
    rw [hcascade.projects]
    exact .replaced hp.1 (found.agreesBut_assign flag none time).origin htime name
  | @removeFlagPartly _ flag found time _ hp htime =>
    exact .replaced hp.1 (found.agreesBut_assign flag none time).origin htime name
  | @patchFlag _ flag patch found rule time _ hp _ htime =>
    exact .replaced hp (found.agreesBut_assign flag (some (patch.apply rule)) time).origin htime
      name
  | resyncFlag _ hcascade =>
    rw [hcascade.projects]
    exact .kept _
  | @createEnvironment _ _ id found _ time _ hp _ _ htime =>
    exact .replaced hp (found.agreesBut_enlist id time).origin htime name
  | deleteEnvironment _ _ hdetached => exact passes_detached hdetached name

theorem environment_passes (h : Ends supply m n command outcome s s') (id : String) :
    Passes (supply.Reads m n) (s.environments.get? id) (s'.environments.get? id) := by
  cases h with
  | failed | listProjects | getProject | getEnvironment | createProject | deleteProject
  | addFlagPartly | removeFlagPartly | patchFlag | resyncFlagPartly => exact .kept _
  | addFlag _ _ hcascade => exact passes_cascaded hcascade id
  | removeFlag _ _ hcascade => exact passes_cascaded hcascade id
  | resyncFlag _ hcascade => exact passes_cascaded hcascade id
  | createEnvironment _ _ hcreated _ habsent => exact .placed habsent rfl hcreated id
  | deleteEnvironment _ _ hdetached =>
    rw [hdetached.frame]
    exact .erased ..
  | deleteEnvironmentAlone => exact .erased ..
  | @renameEnvironment _ name e time _ he htime =>
    exact .replaced he (e.agreesBut_rename name time).origin htime id
  | @patchEnvironmentFlag _ flag patch e rule time _ he _ htime =>
    exact .replaced he (e.agreesBut_assign flag (some (patch.apply rule)) time).origin htime id
  | @removeEnvironmentFlag _ flag e time _ he htime =>
    exact .replaced he (e.agreesBut_assign flag none time).origin htime id
  | @createKey scope _ name key e created time _ he _ _ htime =>
    refine .replaced he (e.agreesBut_insertKey scope key ⟨name, created⟩ time).origin ?_ id
    cases scope <;> exact htime
  | @deleteKey scope _ key e time _ he htime =>
    refine .replaced he (e.agreesBut_eraseKey scope key time).origin ?_ id
    cases scope <;> exact htime

end Command.Ends

/-- A collection of documents that commands update by the clock, and nothing else changes. -/
structure Clocked (documents : Store → SortedMap δ) : Prop where
  empty : documents .empty = .empty
  passes : ∀ {supply : Supply} {m n : Nat} {command : Command}
    {outcome : Except ApiError command.Result} {s s' : Store},
    command.Ends supply m n outcome s s' → ∀ key,
      Passes (supply.Reads m n) ((documents s).get? key) ((documents s').get? key)
  switched : ∀ {s s' : Store}, s'.projects = s.projects → s'.environments = s.environments →
    documents s' = documents s

theorem clocked_projects : Clocked Store.projects where
  empty := rfl
  passes := Command.Ends.project_passes
  switched hprojects _ := hprojects

theorem clocked_environments : Clocked Store.environments where
  empty := rfl
  passes := Command.Ends.environment_passes
  switched _ henvironments := henvironments

/-! ### Runs -/

namespace Journal

variable {supply : Supply} {documents : Store → SortedMap δ}

/-- The document of a key at the end of a run. -/
def document (supply : Supply) (documents : Store → SortedMap δ) (acts : List Act) (key : String) :
    Option δ :=
  (documents (run supply acts).service.store).get? key

/-- The times that the clock reads in the course of some acts that follow on others. -/
def ReadsDuring (supply : Supply) (acts more : List Act) : Timestamp → Prop :=
  supply.Reads (run supply acts).service.steps (run supply (acts ++ more)).service.steps

/-- What one more act does to a document. -/
theorem passes_act (supply : Supply) (h : Clocked documents) (acts : List Act) (a : Act)
    (key : String) :
    Passes (ReadsDuring supply acts [a]) (document supply documents acts key)
      (document supply documents (acts ++ [a]) key) := by
  have hfaults := faults_run supply acts
  have hswitched (clock : Timestamp → Prop) {s : Store}
      (hprojects : s.projects = (run supply acts).service.store.projects)
      (henvironments : s.environments = (run supply acts).service.store.environments) :
      Passes clock (document supply documents acts key) ((documents s).get? key) := by
    rw [document, h.switched hprojects henvironments]
    exact .kept _
  rw [ReadsDuring, document, document, run_concat]
  cases a with
  | command command => exact h.passes (Command.ends_run hfaults rfl) key
  | failEnvironmentWrites fail => exact hswitched _ rfl rfl
  | failProjectLinks fail => exact hswitched _ rfl rfl

theorem steps_le_run_append (acts more : List Act) :
    (run supply acts).service.steps ≤ (run supply (acts ++ more)).service.steps := by
  induction more using List.reverseRecOn with
  | nil => exact Nat.le_of_eq (by rw [List.append_nil])
  | append_singleton more a ih =>
    rw [← List.append_assoc, run_concat]
    refine Nat.le_trans ih ?_
    cases a with
    | command command => exact Program.steps_le_run supply command.program _
    | failEnvironmentWrites | failProjectLinks => exact Nat.le_refl _

/-- A document at the end of more acts was there before them, or has a time that was read in their
course: it was updated since, or created. -/
theorem left_run (supply : Supply) (h : Clocked documents) (acts more : List Act) {key : String}
    {d' : δ} (hd' : document supply documents (acts ++ more) key = some d') :
    document supply documents acts key = some d' ∨ ReadsDuring supply acts more (updatedAt d') := by
  induction more using List.reverseRecOn generalizing d' with
  | nil =>
    rw [List.append_nil] at hd'
    exact .inl hd'
  | append_singleton more a ih =>
    rw [← List.append_assoc] at hd'
    have hpasses := passes_act supply h (acts ++ more) a key
    rw [hd'] at hpasses
    obtain hbefore | htime := hpasses.left
    · refine (ih hbefore).imp id fun htime => htime.mono (Nat.le_refl _) ?_
      rw [← List.append_assoc]
      exact steps_le_run_append _ _
    · refine .inr ?_
      rw [ReadsDuring, ← List.append_assoc]
      exact htime.mono (steps_le_run_append _ _) (Nat.le_refl _)

/-- No time of a document is later than what the next step reads. -/
theorem le_reading_run (hclock : supply.Forward) (h : Clocked documents) (acts : List Act)
    {key : String} {d : δ} (hd : document supply documents acts key = some d) {k : Nat}
    (hk : (run supply acts).service.steps ≤ k) (index : Nat) :
    updatedAt d ≤ supply.reading k index := by
  obtain hfresh | htime := left_run supply h [] acts hd
  · -- a new service has no documents
    rw [document, show (run supply []).service.store = .empty from rfl, h.empty] at hfresh
    cases hfresh
  · exact hclock.le_reading htime hk index

/-- The time of the last update does not go back, whatever becomes of the document in between. -/
theorem updatedAt_le_run (hclock : supply.Forward) (h : Clocked documents) (acts more : List Act)
    {key : String} {d d' : δ} (hd : document supply documents acts key = some d)
    (hd' : document supply documents (acts ++ more) key = some d') :
    updatedAt d ≤ updatedAt d' := by
  obtain hbefore | ⟨k, index, hk, -, htime⟩ := left_run supply h acts more hd'
  · cases hd.symm.trans hbefore
    exact Timestamp.le_refl _
  · exact htime ▸ le_reading_run hclock h acts hd hk index

theorem createdAt_le_run (hclock : supply.Forward) (h : Clocked documents) (acts : List Act)
    {key : String} {d : δ} (hd : document supply documents acts key = some d) :
    (origin d).createdAt ≤ updatedAt d := by
  induction acts using List.reverseRecOn generalizing d with
  | nil =>
    rw [document, show (run supply []).service.store = .empty from rfl, h.empty] at hd
    cases hd
  | append_singleton acts a ih =>
    have hpasses := passes_act supply h acts a key
    rw [hd] at hpasses
    generalize hbefore : document supply documents acts key = before at hpasses
    cases hpasses with
    | kept => exact ih hbefore
    | created hcreated => exact hcreated ▸ Timestamp.le_refl _
    | updated horigin =>
      rw [horigin]
      exact Timestamp.le_trans (ih hbefore) (updatedAt_le_run hclock h acts [a] hbefore hd)

/-- A document that is never deleted keeps what it has from its creation. -/
theorem origin_run (h : Clocked documents) (acts more : List Act) {key : String} {d d' : δ}
    (hd : document supply documents acts key = some d)
    (hstays : ∀ part, part <+: more → (document supply documents (acts ++ part) key).isSome)
    (hd' : document supply documents (acts ++ more) key = some d') : origin d' = origin d := by
  induction more using List.reverseRecOn generalizing d' with
  | nil =>
    rw [List.append_nil] at hd'
    cases hd.symm.trans hd'
    rfl
  | append_singleton more a ih =>
    obtain ⟨middle, hmiddle⟩ :=
      Option.isSome_iff_exists.1 (hstays more (List.prefix_append more [a]))
    rw [← List.append_assoc] at hd'
    have hpasses := passes_act supply h (acts ++ more) a key
    rw [hmiddle, hd'] at hpasses
    have hearlier := ih (fun part hpart => hstays part (hpart.trans (List.prefix_append more [a])))
      hmiddle
    exact hpasses.found.1.trans hearlier

/-- How the times of one kind of document follow what happens to it, after some acts. -/
structure Timely (supply : Supply) (documents : Store → SortedMap δ) (acts : List Act) : Prop where
  /-- No document was updated before it was created. -/
  ordered : ∀ key d, document supply documents acts key = some d →
    (origin d).createdAt ≤ updatedAt d
  /-- One more act keeps what a document has from its creation. -/
  origin : ∀ a key d d', document supply documents acts key = some d →
    document supply documents (acts ++ [a]) key = some d' → origin d' = origin d
  /-- If the act changes anything else in it, then the time of the last update is one that the clock
  read in the course of the act. -/
  stamped : ∀ a key d d', document supply documents acts key = some d →
    document supply documents (acts ++ [a]) key = some d' → d' ≠ d →
      ReadsDuring supply acts [a] (updatedAt d')
  /-- Over any number of further acts, a document that is never deleted keeps what it has from its
  creation. -/
  lasting : ∀ more key d d', document supply documents acts key = some d →
    (∀ part, part <+: more → (document supply documents (acts ++ part) key).isSome) →
    document supply documents (acts ++ more) key = some d' → Dated.origin d' = Dated.origin d
  /-- The time of the last update never goes back, and not even if the document is deleted and
  another one takes its key. -/
  forward : ∀ more key d d', document supply documents acts key = some d →
    document supply documents (acts ++ more) key = some d' → updatedAt d ≤ updatedAt d'

theorem timely_run_of_clocked (hclock : supply.Forward) (h : Clocked documents) (acts : List Act) :
    Timely supply documents acts where
  ordered _ _ := createdAt_le_run hclock h acts
  origin a key d d' hd hd' := by
    have hpasses := passes_act supply h acts a key
    rw [hd, hd'] at hpasses
    exact hpasses.found.1
  stamped a key d d' hd hd' hne := by
    have hpasses := passes_act supply h acts a key
    rw [hd, hd'] at hpasses
    exact hpasses.found.2.resolve_left hne
  lasting more _ _ _ := origin_run h acts more
  forward more _ _ _ := updatedAt_le_run hclock h acts more

/-- **Times track changes**: with a clock that never goes back, at every point of every run, for
projects and for environments. -/
theorem timely_run (hclock : supply.Forward) (acts : List Act) :
    Timely supply Store.projects acts ∧ Timely supply Store.environments acts :=
  ⟨timely_run_of_clocked hclock clocked_projects acts,
    timely_run_of_clocked hclock clocked_environments acts⟩

/-- A flag that is sent to two environments, and updates the second of them by a second reading. -/
theorem timely_run_cascade :
    let acts : List Act :=
      [.command (.createProject "shop"), .command (.createEnvironment "shop" "test"),
        .command (.createEnvironment "shop" "live")]
    let a : Act := .command (.addFlag "shop" ⟨"dark", default⟩)
    let live (acts : List Act) :=
      (document Supply.counting Store.environments acts "iiiiiiiiii").map updatedAt
    Supply.counting.Forward ∧ live acts = some ⟨9, 0⟩ ∧ live (acts ++ [a]) = some ⟨14, 1⟩ ∧
      Timely Supply.counting Store.projects acts ∧
      Timely Supply.counting Store.environments acts := by
  intro acts a live
  exact ⟨Supply.forward_counting, by decide +kernel, by decide +kernel,
    timely_run Supply.forward_counting acts⟩

end Journal

end FeatureFlags

import FeatureFlags.Proofs.Concurrent.Footprint
import FeatureFlags.Proofs.Concurrent.Pool

/-!
Edits of different fields.

An edit is a command that changes a field of a document, with the key that it creates if it creates
one.  Edits are apart if they have no field in common: no two of them are about one flag, unless
they are patches that carry different fields of it, and no two of them create or delete one key or
rename one environment.  Each edit is confined to a footprint (`Edit.confined`), and what one of
them writes is outside of the footprints of those that it is apart from (`Edit.Apart.not_touches`).

Hence edits that are apart do not notice each other.  While they go on side by side, each of them
is where it would be alone (`Pool.Shadowed`), so that it ends as it does alone; and in the end each
field is as the edit that writes it leaves it alone (`Settled`).  That does not depend on the order
in which the steps came.
-/

namespace FeatureFlags

/-! ### Edits -/

/-- A command that changes a field of a document.  A key is created under a name at a time, as the
drawing of a key and the reading of the clock are no steps of the store. -/
inductive Edit where
  | addFlag (project : String) (flag : Flag)
  | patchFlag (project flag : String) (patch : FlagPatch)
  | removeFlag (project flag : String)
  | resyncFlag (project flag : String)
  | patchEnvironmentFlag (id flag : String) (patch : FlagPatch)
  | removeEnvironmentFlag (id flag : String)
  | createKey (scope : KeyScope) (id : String) (created : ApiKey)
  | deleteKey (scope : KeyScope) (id key : String)
  | renameEnvironment (id name : String)

namespace Edit

/-- The call that makes the edit. -/
def call : Edit → Call
  | addFlag project flag => .new (.addFlag project flag)
  | patchFlag project flag patch => .new (.patchFlag project flag patch)
  | removeFlag project flag => .new (.removeFlag project flag)
  | resyncFlag project flag => .new (.resyncFlag project flag)
  | patchEnvironmentFlag id flag patch => .new (.patchEnvironmentFlag id flag patch)
  | removeEnvironmentFlag id flag => .new (.removeEnvironmentFlag id flag)
  | createKey scope id created =>
    ⟨.createKey scope id created.name,
      .store (.insertApiKey id scope created.key created.descriptor) fun _ => .ok created⟩
  | deleteKey scope id key => .new (.deleteKey scope id key)
  | renameEnvironment id name => .new (.renameEnvironment id name)

/-- The first two steps of a call that creates a key draw the key and read the clock. -/
theorem call_createKey (supply : Supply) (scope : KeyScope) (id name : String) (p : ServiceState) :
    let first := (Call.new (.createKey scope id name)).rest.step supply p
    first.1.step supply first.2
      = ((createKey scope id ⟨supply.key p.steps, name, supply.reading (p.steps + 1) 0⟩).call.rest,
        { p with steps := p.steps + 2 }) := rfl

/-- The flag that the edit is about. -/
def flag? : Edit → Option String
  | addFlag _ flag => some flag.name
  | patchFlag _ flag _ | removeFlag _ flag | resyncFlag _ flag | patchEnvironmentFlag _ flag _
  | removeEnvironmentFlag _ flag => some flag
  | _ => none

/-- The patch, if that is what the edit makes of its flag. -/
def patch? : Edit → Option FlagPatch
  | patchFlag _ _ patch | patchEnvironmentFlag _ _ patch => some patch
  | _ => none

/-- The environment, the kind and the key that the edit is about. -/
def key? : Edit → Option (String × KeyScope × String)
  | createKey scope id created => some (id, scope, created.key)
  | deleteKey scope id key => some (id, scope, key)
  | _ => none

/-- The environment that the edit renames. -/
def renamed? : Edit → Option String
  | renameEnvironment id _ => some id
  | _ => none

/-- The edit writes this facet of its flag. -/
def Carries (edit : Edit) (facet : Facet) : Prop :=
  match edit.patch? with
  | some patch => patch.Carries facet
  | none => True

/-- The fields that the edit writes: its flag wherever that is held, its key, or the name. -/
def Writes (edit : Edit) : Field → Prop
  | .flag _ name facet => edit.flag? = some name ∧ edit.Carries facet
  | .name id => edit.renamed? = some id
  | .key id scope key => edit.key? = some (id, scope, key)
  | .switches | .project _ | .environment _ => False

/-- The fields that the edit looks at: beside what it writes, whether its flag is there, and what no
edit writes. -/
def Touches (edit : Edit) (field : Field) : Prop :=
  edit.Writes field ∨
  match field with
  | .switches | .project _ | .environment _ => True
  | .flag _ name .presence => edit.flag? = some name
  | _ => False

end Edit

/-- No field is carried by both patches. -/
def FlagPatch.Disjoint (a b : FlagPatch) : Prop :=
  ¬ (a.rules.isSome ∧ b.rules.isSome) ∧ ¬ (a.defaultValue.isSome ∧ b.defaultValue.isSome)

instance (a b : FlagPatch) : Decidable (a.Disjoint b) :=
  inferInstanceAs (Decidable (¬ (a.rules.isSome ∧ b.rules.isSome) ∧
    ¬ (a.defaultValue.isSome ∧ b.defaultValue.isSome)))

theorem FlagPatch.Disjoint.symm {a b : FlagPatch} (h : a.Disjoint b) : b.Disjoint a :=
  ⟨fun hboth => h.1 hboth.symm, fun hboth => h.2 hboth.symm⟩

theorem FlagPatch.Disjoint.not_carries {a b : FlagPatch} (h : a.Disjoint b) {facet : Facet}
    (hcarries : a.Carries facet) : ¬ b.Carries facet := by
  intro hcarries'
  cases facet with
  | presence => exact hcarries
  | rules => exact h.1 ⟨hcarries, hcarries'⟩
  | defaultValue => exact h.2 ⟨hcarries, hcarries'⟩

/-- The edits have no field in common. -/
structure Edit.Apart (a b : Edit) : Prop where
  /-- Of one flag they are patches that carry different fields. -/
  flags : ∀ flag ∈ a.flag?, flag ∈ b.flag? →
    ∃ patch ∈ a.patch?, ∃ patch' ∈ b.patch?, patch.Disjoint patch'
  keys : ∀ key ∈ a.key?, key ∉ b.key?
  names : ∀ id ∈ a.renamed?, id ∉ b.renamed?

instance (a b : Edit) : Decidable (a.Apart b) :=
  decidable_of_iff
    ((∀ flag ∈ a.flag?, flag ∈ b.flag? →
        ∃ patch ∈ a.patch?, ∃ patch' ∈ b.patch?, patch.Disjoint patch') ∧
      (∀ key ∈ a.key?, key ∉ b.key?) ∧ ∀ id ∈ a.renamed?, id ∉ b.renamed?)
    ⟨fun ⟨hflags, hkeys, hnames⟩ => ⟨hflags, hkeys, hnames⟩,
      fun h => ⟨h.flags, h.keys, h.names⟩⟩

namespace Edit

theorem Apart.symm {a b : Edit} (h : a.Apart b) : b.Apart a where
  flags flag hb ha := by
    obtain ⟨patch, hpatch, patch', hpatch', hdisjoint⟩ := h.flags flag ha hb
    exact ⟨patch', hpatch', patch, hpatch, hdisjoint.symm⟩
  keys key hb ha := h.keys key ha hb
  names id hb ha := h.names id ha hb

/-- What an edit writes is outside of the footprints of those that it is apart from. -/
theorem Apart.not_touches {a b : Edit} (h : a.Apart b) {field : Field} (hwrites : a.Writes field) :
    ¬ b.Touches field := by
  cases field with
  | switches | project | environment => exact hwrites.elim
  | name id => exact not_or.2 ⟨h.names id hwrites, not_false⟩
  | key id scope key => exact not_or.2 ⟨h.keys _ hwrites, not_false⟩
  | flag holder name facet =>
    obtain ⟨hflag, hcarries⟩ := hwrites
    intro htouches
    have hflag' : b.flag? = some name := by
      cases facet <;> first | exact htouches.elim (·.1) id | exact htouches.elim (·.1) False.elim
    obtain ⟨patch, hpatch, patch', hpatch', hdisjoint⟩ := h.flags name hflag hflag'
    rw [Carries, hpatch] at hcarries
    -- a patch does not write whether the flag is there, so what is touched here is written
    have hcarries' : b.Carries facet := by
      cases facet with
      | presence => exact hcarries.elim
      | rules | defaultValue => exact htouches.elim (·.2) False.elim
    rw [Carries, hpatch'] at hcarries'
    exact hdisjoint.not_carries hcarries hcarries'

theorem Writes.touches {edit : Edit} {field : Field} (h : edit.Writes field) :
    edit.Touches field := .inl h

theorem touches_document (edit : Edit) (holder : Holder) : edit.Touches holder.document := by
  cases holder <;> exact .inr trivial

theorem writes_flag {edit : Edit} {flag : String} (hflag : edit.flag? = some flag)
    (hpatch : edit.patch? = none) (holder : Holder) (facet : Facet) :
    edit.Writes (.flag holder flag facet) := by
  refine ⟨hflag, ?_⟩
  rw [Carries, hpatch]
  trivial

theorem confined_cascade {edit : Edit} {ids : List String} {flag : String} {rule : Option FlagRule}
    {resume : Nat → Action α} (hflag : edit.flag? = some flag) (hpatch : edit.patch? = none)
    (hresume : ∀ count, (resume count).bare.Confined edit.Touches edit.Writes) :
    (Propagation.cascade ids flag rule resume).bare.Confined edit.Touches edit.Writes :=
  Action.confined_cascade (.inr trivial) (fun id => edit.touches_document (.environment id))
    (fun id => writes_flag hflag hpatch (.environment id)) hresume

/-- A flag that is written to a project and then to the environments that it lists. -/
theorem confined_projectRequest {edit : Edit} {project flag : String} (rule : Option FlagRule)
    {resume : Nat → Action α} (hflag : edit.flag? = some flag) (hpatch : edit.patch? = none)
    (hresume : ∀ count, (resume count).bare.Confined edit.Touches edit.Writes) :
    (Action.store (Propagation.projectRequest project flag rule) fun reply =>
      Propagation.cascade (Propagation.listedIn reply) flag rule resume).bare.Confined
        edit.Touches edit.Writes := by
  have hwrite : ∃ write, (Propagation.projectRequest project flag rule).flagWrite?
      = some (.project project, flag, write) := by
    cases rule <;> exact ⟨_, rfl⟩
  obtain ⟨write, hwrite⟩ := hwrite
  refine Action.confined_store (Store.Request.confined_of_flagWrite? hwrite
    (edit.touches_document _) (.inr hflag) fun facet _ => writes_flag hflag hpatch _ facet) ?_
    fun _ => confined_cascade hflag hpatch hresume
  -- the ids that the reply lists are part of the document
  intro s t s' t' now now' reply reply' hst hs ht
  obtain ⟨p, hp, hids, -⟩ := Propagation.perform_projectRequest.1 hs
  obtain ⟨q, hq, hids', -⟩ := Propagation.perform_projectRequest.1 ht
  have hsame : p.environmentIds = q.environmentIds :=
    Store.environmentIds_eq (hst _ (edit.touches_document (.project project))) hp.1 hq.1
  rw [hids, hids', hsame]

/-- An edit is confined to its footprint. -/
theorem confined (edit : Edit) : edit.call.rest.bare.Confined edit.Touches edit.Writes := by
  have hdocument := edit.touches_document
  cases edit with
  | addFlag project flag =>
    exact confined_projectRequest (some flag.rule) rfl rfl fun _ => trivial
  | removeFlag project flag =>
    exact confined_projectRequest none rfl rfl fun _ => trivial
  | resyncFlag project flag =>
    refine Action.confined_store (Store.Request.confined_getProject (hdocument (.project project)))
      ?_ fun found => confined_cascade rfl rfl fun _ => trivial
    intro s t s' t' now now' found found' hst hs ht
    have hp := Store.getProject_eq_ok.1 (Store.unchanged_eq_ok.1 hs).1
    have hq := Store.getProject_eq_ok.1 (Store.unchanged_eq_ok.1 ht).1
    have hflag : s.flag (.project project) flag = t.flag (.project project) flag :=
      Store.flag_eq_of_read_eq _ _ fun facet => hst _ (writes_flag rfl rfl _ facet).touches
    have hrule : found.flags.get? flag = found'.flags.get? flag := by
      rw [← Store.projectFlag_eq hp, ← Store.projectFlag_eq hq]
      exact hflag
    rw [Store.environmentIds_eq (hst _ (hdocument (.project project))) hp hq, hrule]
  | patchFlag project flag patch =>
    exact Action.confined_last (Store.Request.confined_of_flagWrite? rfl (hdocument _) (.inr rfl)
      fun facet hcarries => ⟨rfl, hcarries⟩)
  | patchEnvironmentFlag id flag patch =>
    exact Action.confined_last (Store.Request.confined_of_flagWrite? rfl (hdocument _) (.inr rfl)
      fun facet hcarries => ⟨rfl, hcarries⟩)
  | removeEnvironmentFlag id flag =>
    exact Action.confined_last (Store.Request.confined_of_flagWrite? rfl (hdocument _) (.inr rfl)
      fun facet _ => ⟨rfl, trivial⟩)
  | createKey scope id created =>
    exact Action.confined_last
      (Store.Request.confined_insertApiKey (hdocument (.environment id)) rfl)
  | deleteKey scope id key =>
    exact Action.confined_last
      (Store.Request.confined_deleteApiKey (hdocument (.environment id)) rfl)
  | renameEnvironment id name =>
    exact Action.confined_last
      (Store.Request.confined_renameEnvironment (hdocument (.environment id)) rfl)

/-! ### Alone, and one after another -/

variable {supply : Supply} {p : ServiceState}

/-- How the edit ends if it is made alone, and the service after it. -/
def run (supply : Supply) (p : ServiceState) (edit : Edit) : Except ApiError Unit × ServiceState :=
  edit.call.rest.bare.run supply p

/-- How the edits end if they are made one after another, and the service after them. -/
def runAll (supply : Supply) : ServiceState → List Edit → List (Except ApiError Unit) × ServiceState
  | p, [] => ([], p)
  | p, edit :: rest =>
    let first := edit.run supply p
    let others := runAll supply first.2 rest
    (first.1 :: others.1, others.2)

/-- An edit that is apart does not notice a run of another. -/
theorem Apart.run_agreeOn {a b : Edit} (h : a.Apart b) :
    p.AgreeOn b.Touches (a.run supply p).2 where
  store field htouches := by
    have hwrites : ¬ a.Writes field := fun hwrites => h.not_touches hwrites htouches
    exact (a.confined.run_kept supply p hwrites).symm
  faults := (Program.run_faults supply _ p).symm

end Edit

/-- Each field is as the edit that writes it leaves it alone, or as it was. -/
structure Settled (alone : Supply) (p : ServiceState) (edits : List Edit) (s : Store) : Prop where
  written : ∀ edit ∈ edits, ∀ field, edit.Writes field →
    s.read field = (edit.run alone p).2.store.read field
  kept : ∀ field, (∀ edit ∈ edits, ¬ edit.Writes field) → s.read field = p.store.read field

namespace Settled

variable {alone : Supply} {p : ServiceState} {edits order : List Edit} {s t : Store}

theorem perm (h : Settled alone p edits s) (horder : order.Perm edits) :
    Settled alone p order s where
  written edit hedit := h.written edit (horder.mem_iff.1 hedit)
  kept field hfield := h.kept field fun edit hedit => hfield edit (horder.mem_iff.2 hedit)

/-- There is one way to settle, up to the times of the last updates. -/
theorem untimed_eq (hs : Settled alone p edits s) (ht : Settled alone p edits t) :
    s.untimed = t.untimed := by
  apply Store.untimed_eq
  intro field
  by_cases hfield : ∃ edit ∈ edits, edit.Writes field
  · obtain ⟨edit, hedit, hwrites⟩ := hfield
    rw [hs.written edit hedit field hwrites, ht.written edit hedit field hwrites]
  · have hnone : ∀ edit ∈ edits, ¬ edit.Writes field :=
      fun edit hedit hwrites => hfield ⟨edit, hedit, hwrites⟩
    rw [hs.kept field hnone, ht.kept field hnone]

end Settled

namespace Edit

variable {edits : List Edit}

/-- Edits that are apart end as they do alone, and settle, if they are made one after another. -/
theorem settled_runAll (supply alone : Supply) (hapart : edits.Pairwise Apart) (p : ServiceState) :
    (runAll supply p edits).1 = edits.map (fun edit => (edit.run alone p).1) ∧
      Settled alone p edits (runAll supply p edits).2.store := by
  induction edits generalizing p with
  | nil => exact ⟨rfl, fun _ hedit => (List.not_mem_nil hedit).elim, fun _ _ => rfl⟩
  | cons edit rest ih =>
    obtain ⟨hfirst, hrest⟩ := List.pairwise_cons.1 hapart
    obtain ⟨hverdicts, hsettled⟩ := ih hrest (edit.run supply p).2
    -- the first edit ends as it does alone, whatever the supply
    have hsame : p.AgreeOn edit.Touches p := ⟨fun _ _ => rfl, rfl⟩
    obtain ⟨hverdict, halone⟩ := edit.confined.run supply alone hsame
    -- and so do the others after it
    have hothers : ∀ later ∈ rest,
        (later.run alone p).1 = (later.run alone (edit.run supply p).2).1 ∧
        (later.run alone p).2.AgreeOn later.Touches
          (later.run alone (edit.run supply p).2).2 :=
      fun later hlater => later.confined.run alone alone (hfirst later hlater).run_agreeOn
    refine ⟨?_, ?_, ?_⟩
    · rw [runAll, hverdicts, List.map_cons, List.cons.injEq]
      exact ⟨hverdict, List.map_congr_left fun later hlater => (hothers later hlater).1.symm⟩
    · intro other hother field hwrites
      obtain rfl | hlater := List.mem_cons.1 hother
      · rw [runAll, hsettled.kept field]
        · exact halone.store field hwrites.touches
        · intro later hlater hwrites'
          exact (hfirst later hlater).not_touches hwrites hwrites'.touches
      · rw [runAll, hsettled.written other hlater field hwrites]
        exact ((hothers other hlater).2.store field hwrites.touches).symm
    · intro field hfield
      rw [runAll, hsettled.kept field]
      · exact edit.confined.run_kept supply p (hfield edit List.mem_cons_self)
      · exact fun later hlater => hfield later (List.mem_cons_of_mem _ hlater)

end Edit

/-! ### Side by side -/

namespace Edit

variable {alone : Supply} {edit : Edit} {p service service' : ServiceState}

/-- What is left of an edit ends, from the service as it is, as the edit does alone: there is a
service with the same in all fields that the edit touches from which it does. -/
structure OnCourse (alone : Supply) (p : ServiceState) (edit : Edit) (service : ServiceState)
    (rest : Action Unit) : Prop where
  confined : rest.Confined edit.Touches edit.Writes
  shadow : ∃ q, service.AgreeOn edit.Touches q ∧ rest.run alone q = edit.run alone p

/-- A step of the edit moves the service alone as it moves the service. -/
theorem OnCourse.step (supply : Supply) {rest : Action Unit}
    (h : edit.OnCourse alone p service rest) :
    edit.OnCourse alone p (rest.step supply service).2 (rest.step supply service).1 := by
  obtain ⟨hconfined, q, hagree, hrun⟩ := h
  obtain ⟨hnext, hagree'⟩ := hconfined.step supply alone hagree
  refine ⟨hconfined.step_confined supply, (rest.step alone q).2, hagree', ?_⟩
  rw [hnext, Program.run_step, hrun]

/-- What happens outside of its footprint does not bring an edit off its course. -/
theorem OnCourse.beside {rest : Action Unit} (h : edit.OnCourse alone p service rest)
    (hstore : service'.store.AgreeOn edit.Touches service.store)
    (hfaults : service'.faults = service.faults) : edit.OnCourse alone p service' rest := by
  obtain ⟨hconfined, q, hagree, hrun⟩ := h
  refine ⟨hconfined, q, ⟨fun field htouches => ?_, hfaults.trans hagree.faults⟩, hrun⟩
  rw [hstore field htouches, hagree.store field htouches]

theorem apart_of_ne {edits : List Edit} {i j : Nat} {a b : Edit} (h : edits.Pairwise Apart)
    (hi : edits[i]? = some a) (hj : edits[j]? = some b) (hne : i ≠ j) : a.Apart b := by
  obtain ⟨hilt, rfl⟩ := List.getElem?_eq_some_iff.1 hi
  obtain ⟨hjlt, rfl⟩ := List.getElem?_eq_some_iff.1 hj
  obtain hlt | hlt := Nat.lt_or_gt_of_ne hne
  · exact List.pairwise_iff_getElem.1 h i j hilt hjlt hlt
  · exact (List.pairwise_iff_getElem.1 h j i hjlt hilt hlt).symm

end Edit

/-- How a call that has nothing left to do ended. -/
def Call.verdict? (call : Call) : Option (Except ApiError Unit) :=
  match call.rest with
  | .done outcome => some (Action.verdict outcome)
  | _ => none

theorem Call.exists_verdict? {call : Call} (h : call.rest.ended = true) :
    ∃ verdict, call.verdict? = some verdict ∧ call.rest.bare = .done verdict := by
  obtain ⟨command, outcome, rfl⟩ := Call.eq_done h
  exact ⟨_, rfl, rfl⟩

namespace Pool

variable {supply alone : Supply} {p : ServiceState} {edits : List Edit} {pool : Pool}

/-- The calls of edits that are made to a service at once. -/
def ofEdits (p : ServiceState) (edits : List Edit) : Pool := ⟨p, edits.map Edit.call, []⟩

/-- Each call is on its course, and the fields that no edit writes are as they were. -/
structure Shadowed (alone : Supply) (p : ServiceState) (edits : List Edit) (pool : Pool) :
    Prop where
  length : pool.calls.length = edits.length
  calls : ∀ {i : Nat} {call : Call} {edit : Edit}, pool.calls[i]? = some call →
    edits[i]? = some edit → edit.OnCourse alone p pool.service call.rest.bare
  kept : ∀ field, (∀ edit ∈ edits, ¬ edit.Writes field) →
    pool.service.store.read field = p.store.read field

theorem shadowed_ofEdits (alone : Supply) (p : ServiceState) (edits : List Edit) :
    (ofEdits p edits).Shadowed alone p edits where
  length := List.length_map _
  calls := by
    intro i call edit hcall hedit
    rw [ofEdits, List.getElem?_map, hedit] at hcall
    obtain rfl := Option.some.inj hcall
    exact ⟨edit.confined, p, ⟨fun _ _ => rfl, rfl⟩, rfl⟩
  kept _ _ := rfl

/-- A step of one call moves it along its course, and leaves the others where they are. -/
theorem Shadowed.step (h : pool.Shadowed alone p edits) (hapart : edits.Pairwise Edit.Apart)
    (caller : Nat) : (pool.step supply caller).Shadowed alone p edits := by
  rw [Pool.step]
  cases hcall : pool.calls[caller]? with
  | none => exact h
  | some call =>
    have hlt : caller < pool.calls.length := (List.getElem?_eq_some_iff.1 hcall).1
    obtain ⟨edit, hedit⟩ : ∃ edit, edits[caller]? = some edit :=
      ⟨_, List.getElem?_eq_getElem (h.length ▸ hlt)⟩
    have hcourse := h.calls hcall hedit
    have hbare : call.rest.bare.step supply pool.service
        = (Action.bare (call.rest.step supply pool.service).1,
          (call.rest.step supply pool.service).2) :=
      Program.step_map supply Action.verdict call.rest pool.service
    -- the step writes what the edit writes
    have hkept : ∀ field, ¬ edit.Writes field →
        (call.rest.step supply pool.service).2.store.read field
          = pool.service.store.read field := by
      intro field hfield
      have hstep := hcourse.confined.step_kept supply pool.service hfield
      rwa [hbare] at hstep
    refine ⟨(List.length_set ..).trans h.length, ?_, fun field hfield => ?_⟩
    · intro i other edit' hother hedit'
      by_cases hi : caller = i
      · subst hi
        rw [List.getElem?_set_self hlt] at hother
        obtain rfl := Option.some.inj hother
        obtain rfl := Option.some.inj (hedit.symm.trans hedit')
        have hnext := hcourse.step supply
        rwa [hbare] at hnext
      · rw [List.getElem?_set_ne hi] at hother
        refine (h.calls hother hedit').beside (fun field htouches => hkept field fun hwrites => ?_)
          (Program.step_faults supply _ _)
        exact (Edit.apart_of_ne hapart hedit hedit' hi).not_touches hwrites htouches
    · rw [← h.kept field hfield]
      exact hkept field (hfield edit (List.mem_of_getElem? hedit))

theorem Shadowed.steps (h : pool.Shadowed alone p edits) (hapart : edits.Pairwise Edit.Apart)
    (schedule : List Nat) : (pool.steps supply schedule).Shadowed alone p edits := by
  induction schedule generalizing pool with
  | nil => exact h
  | cons caller rest ih => exact ih (h.step hapart caller)

/-- Calls that have nothing left to do have ended as their edits do alone, and have settled. -/
theorem Shadowed.settled (h : pool.Shadowed alone p edits) (hquiet : pool.Quiet) :
    pool.calls.map Call.verdict? = edits.map (fun edit => some (edit.run alone p).1) ∧
      Settled alone p edits pool.service.store := by
  -- where a call has ended, its edit alone ends in a service that agrees with this one
  have hended : ∀ (i : Nat) (call : Call) (edit : Edit), pool.calls[i]? = some call →
      edits[i]? = some edit → call.verdict? = some (edit.run alone p).1 ∧
        pool.service.AgreeOn edit.Touches (edit.run alone p).2 := by
    intro i call edit hcall hedit
    obtain ⟨verdict, hverdict, hdone⟩ :=
      Call.exists_verdict? (hquiet call (List.mem_of_getElem? hcall))
    obtain ⟨-, q, hagree, hrun⟩ := h.calls hcall hedit
    rw [hdone] at hrun
    rw [hverdict, ← hrun]
    exact ⟨rfl, hagree⟩
  refine ⟨List.ext_getElem? fun i => ?_, fun edit hedit field hwrites => ?_, h.kept⟩
  · rw [List.getElem?_map, List.getElem?_map]
    by_cases hi : i < edits.length
    · have hlt : i < pool.calls.length := h.length ▸ hi
      have hcall : pool.calls[i]? = some pool.calls[i] := List.getElem?_eq_getElem hlt
      have hedit : edits[i]? = some edits[i] := List.getElem?_eq_getElem hi
      rw [hcall, hedit, Option.map_some, Option.map_some, (hended i _ _ hcall hedit).1]
    · rw [List.getElem?_eq_none (Nat.le_of_not_lt hi),
        List.getElem?_eq_none (h.length ▸ Nat.le_of_not_lt hi)]
      rfl
  · obtain ⟨i, hi⟩ := List.mem_iff_getElem?.1 hedit
    have hlt : i < pool.calls.length := h.length ▸ (List.getElem?_eq_some_iff.1 hi).1
    exact (hended i _ edit (List.getElem?_eq_getElem hlt) hi).2.store field hwrites.touches

/-- **Edits of different fields never clobber each other**: however the steps of edits that are
apart come between each other, each of them succeeds or fails with the error that it ends with
alone, and the store is the same in the end, up to the times of the last updates, as if the edits
had been made one after another, in any order. -/
theorem apart_edits_order_free (hapart : edits.Pairwise Edit.Apart) (p : ServiceState)
    (schedule : List Nat) (hquiet : ((ofEdits p edits).steps supply schedule).Quiet)
    (alone : Supply) :
    ((ofEdits p edits).steps supply schedule).calls.map Call.verdict?
      = edits.map (fun edit => some (edit.run alone p).1) ∧
    ∀ (other : Supply) (order : List Edit), order.Perm edits →
      (Edit.runAll other p order).1 = order.map (fun edit => (edit.run alone p).1) ∧
      (Edit.runAll other p order).2.store.untimed
        = ((ofEdits p edits).steps supply schedule).service.store.untimed := by
  obtain ⟨hverdicts, hsettled⟩ :=
    ((shadowed_ofEdits alone p edits).steps hapart schedule).settled hquiet
  refine ⟨hverdicts, fun other order horder => ?_⟩
  have hapart' : order.Pairwise Edit.Apart := horder.symm.pairwise hapart fun h => h.symm
  obtain ⟨hverdicts', hsettled'⟩ :=
    Edit.settled_runAll other alone hapart' p
  exact ⟨hverdicts', hsettled'.untimed_eq (hsettled.perm horder)⟩

/-- Two patches of one flag, a new flag, a new key and a new name for the environment, side by side
and in the opposite order. -/
theorem apart_edits_order_free_shopTest :
    let p := (Edit.run .counting .shopTest (.addFlag "shop" ⟨"dark", default⟩)).2
    let edits : List Edit := [.patchFlag "shop" "dark" ⟨some none, none⟩,
      .addFlag "shop" ⟨"beta", default⟩, .patchFlag "shop" "dark" ⟨none, some (.bool true)⟩,
      .createKey .serverSide "iiiii" ⟨"secret", "ci", ⟨0, 0⟩⟩, .renameEnvironment "iiiii" "live"]
    let pool := (ofEdits p edits).steps .counting [1, 0, 2, 3, 4, 1, 1]
    edits.Pairwise Edit.Apart ∧ pool.Quiet ∧
      pool.calls.map Call.verdict? = edits.map (fun edit => some (edit.run .counting p).1) ∧
      (Edit.runAll .counting p edits.reverse).2.store.untimed = pool.service.store.untimed := by
  intro p edits pool
  have hapart : edits.Pairwise Edit.Apart := by
    unfold edits
    decide
  have hquiet : pool.Quiet := by
    unfold pool edits p
    decide +kernel
  obtain ⟨hverdicts, horder⟩ :=
    apart_edits_order_free hapart p [1, 0, 2, 3, 4, 1, 1] hquiet .counting
  obtain ⟨-, hstore⟩ := horder .counting edits.reverse (List.reverse_perm edits)
  unfold pool
  exact ⟨hapart, hquiet, hverdicts, hstore⟩

end Pool

end FeatureFlags

import Mathlib.Data.List.Induction
import FeatureFlags.Proofs.Concurrent.Pool

/-!
No environment is left without an owner.

A creation inserts its environment before a project lists it, and a deletion of a project takes away
the list; in between another call can do anything.  So an environment that no project lists must be
in the hands of a call: of the creation that has inserted it and has yet to list it or to take it
back, or of the deletion that has its id among those that it hands back.  Phases say what a call
holds (`Custody`), a discipline what it may do with it, and the invariant `Accounted` that every
environment is listed or held.  When all calls have ended, no creation holds one any more.

The ids must not repeat: an id that has been taken back or deleted is then never inserted again, so
that detaching it leaves no environment unlisted.
-/

namespace FeatureFlags

open Store

variable {supply : Supply}

/-- What a call holds. -/
inductive Custody where
  /-- Nothing. -/
  | idle
  /-- An id for an environment that it has not inserted. -/
  | named (id : String)
  /-- An environment that it has inserted and that may not be listed. -/
  | placed (id : String)
  /-- Nothing, as its environment has been listed. -/
  | linked
  /-- The id of an environment that it has deleted. -/
  | gone (id : String)
  /-- The ids that a project listed which it has deleted. -/
  | released (ids : List String)

/-- The ids that a command hands back as those of environments without a project. -/
def Command.orphans : (command : Command) → Except ApiError command.Result → List String
  | .deleteProject _, .ok (deletion : ProjectDeletion) => deletion.orphanedEnvironmentIds
  | _, _ => []

namespace Custody

/-- A request that neither changes what a project lists nor which environments there are. -/
def Harmless (request : Request) : Prop :=
  request.method.relinks = false ∧ request.method.placesEnvironments = false

def permits : Custody → Request → Prop
  | idle, .insertProject _ | named _, .insertProject _ => True
  | idle, .deleteProject _ => True
  | idle, .deleteEnvironment _ => True
  | named id, .insertEnvironment e => e.id = id
  | placed id, .attachEnvironment _ other => other = id
  | placed id, .deleteEnvironment other => other = id
  | gone id, .detachEnvironment other => other = id
  | _, request => Harmless request

def after : Custody → (request : Request) → Except StoreError request.Reply → Custody
  | named id, .insertEnvironment _, .ok _ => placed id
  | placed _, .attachEnvironment .., .ok _ => linked
  | placed id, .deleteEnvironment _, _ => gone id
  | idle, .deleteEnvironment id, .ok _ => gone id
  | idle, .deleteProject _, .ok (project : Project) => released project.environmentIds
  | phase, _, _ => phase

/-- How a command may end: with nothing in its hands but what it hands back. -/
def ends : Custody → (command : Command) → Except ApiError command.Result → Prop
  | placed _, _, _ => False
  | linked, _, outcome => ∃ result, outcome = .ok result
  | released ids, command, outcome => command.orphans outcome = ids
  | _, _, _ => True

def discipline : Discipline Custody where
  start := idle
  permits := permits
  after := after
  names phase := phase = idle
  named _ := named

end Custody

open Custody in
/-- Every command keeps to the discipline. -/
theorem Command.obeys_custody (command : Command) :
    command.program.Obeys discipline (fun phase => ends phase command) idle := by
  cases command with
  | createProject name =>
    intro now
    refine ⟨rfl, fun id => ?_⟩
    exact Action.obeys_store trivial (fun _ => trivial) (fun _ => trivial)
  | deleteProject name =>
    exact Action.obeys_store trivial (fun _ => rfl) (fun _ => trivial)
  | createEnvironment project name =>
    refine Action.obeys_store ⟨rfl, rfl⟩ (fun found => ?_) (fun _ => trivial)
    intro now
    refine ⟨rfl, fun id => ?_⟩
    refine Action.obeys_store rfl (fun _ => ?_) (fun _ => trivial)
    refine ⟨rfl, fun reply => ?_⟩
    cases reply with
    | ok _ => exact ⟨_, rfl⟩
    | error e => exact ⟨rfl, fun _ => trivial⟩
  | deleteEnvironment id =>
    refine Action.obeys_store trivial (fun _ => ?_) (fun _ => trivial)
    refine ⟨rfl, fun reply => ?_⟩
    cases reply <;> exact trivial
  | createKey scope id name =>
    intro key now
    exact Action.obeys_store ⟨rfl, rfl⟩ (fun _ => trivial) (fun _ => trivial)
  | addFlag project flag =>
    refine Action.obeys_store ⟨rfl, rfl⟩ (fun ids => ?_) (fun _ => trivial)
    exact Propagation.obeys_cascade (fun _ => trivial) ⟨rfl, rfl⟩ (fun _ _ => trivial)
      (fun _ => trivial)
  | removeFlag project flag =>
    refine Action.obeys_store ⟨rfl, rfl⟩ (fun ids => ?_) (fun _ => trivial)
    exact Propagation.obeys_cascade (fun _ => trivial) ⟨rfl, rfl⟩ (fun _ _ => trivial)
      (fun _ => trivial)
  | resyncFlag project flag =>
    refine Action.obeys_store ⟨rfl, rfl⟩ (fun found => ?_) (fun _ => trivial)
    cases SortedMap.get? found.flags flag <;>
      exact Propagation.obeys_cascade (fun _ => trivial) ⟨rfl, rfl⟩ (fun _ _ => trivial)
        (fun _ => trivial)
  | listProjects | getProject | patchFlag | getEnvironment | renameEnvironment
  | patchEnvironmentFlag | removeEnvironmentFlag | deleteKey =>
    exact Action.obeys_store ⟨rfl, rfl⟩ (fun _ => trivial) (fun _ => trivial)

/-- The id of an environment that a call has named itself or deleted. -/
def Custody.id? : Custody → Option String
  | named id | placed id | gone id => some id
  | _ => none

/-! ### The invariant -/

/-- Every environment is listed or held.  An id that a call has named is new to everybody else, and
one that is gone does not come back. -/
structure Accounted (supply : Supply) (p : ServiceState) (trace : List Exchange)
    (phases : Nat → Custody) : Prop where
  faults : p.faults = []
  issued : ∀ {id}, p.store.environments.contains id = true → supply.Issued p.steps id
  used : ∀ {i id}, (phases i).id? = some id → supply.Issued p.steps id
  named : ∀ {i id}, phases i = .named id → p.store.environments.contains id = false ∧
    ∀ j, (phases j).id? = some id → j = i
  gone : ∀ {i id}, phases i = .gone id → p.store.environments.contains id = false
  held : ∀ {id}, p.store.environments.contains id = true → (∃ name, p.store.Lists name id) ∨
    (∃ i, phases i = .placed id) ∨ ∃ i ids, phases i = .released ids ∧ id ∈ ids
  inserted : ∀ x ∈ trace, ∀ e, x.request = .insertEnvironment e →
    (phases x.caller).id? = some e.id ∨ phases x.caller = .linked

theorem Custody.after_harmless {phase : Custody} {request : Request} (h : Harmless request)
    (reply : Except StoreError request.Reply) : phase.after request reply = phase := by
  obtain ⟨hlinks, hplaces⟩ := h
  cases request with
  | insertProject | deleteProject | attachEnvironment | detachEnvironment => cases hlinks
  | insertEnvironment | deleteEnvironment => cases hplaces
  | _ => cases phase <;> rfl

namespace Accounted

variable {p p' : ServiceState} {trace : List Exchange} {phases : Nat → Custody} {caller : Nat}

/-- What the trace says of an exchange that is new. -/
theorem log (h : Accounted supply p trace phases) {x : Exchange}
    (hx : ∀ e, x.request = .insertEnvironment e →
      (phases x.caller).id? = some e.id ∨ phases x.caller = .linked) :
    Accounted supply p (trace ++ [x]) phases := by
  refine { h with inserted := fun y hy => ?_ }
  rcases List.mem_append.1 hy with hy | hy
  · exact h.inserted y hy
  · obtain rfl := List.mem_singleton.1 hy
    exact hx

/-- A step that inserts no environment, while the phases stay as they are.  An environment that is
no longer listed must be held. -/
theorem keep (h : Accounted supply p trace phases) (hfaults : p'.faults = p.faults)
    (hsteps : p.steps ≤ p'.steps)
    (hcontains : ∀ id, p'.store.environments.contains id = true →
      p.store.environments.contains id = true)
    (hlists : ∀ name id, p'.store.environments.contains id = true → p.store.Lists name id →
      (∃ name, p'.store.Lists name id) ∨ ∃ i ids, phases i = .released ids ∧ id ∈ ids) :
    Accounted supply p' trace phases := by
  have habsent : ∀ {id}, p.store.environments.contains id = false →
      p'.store.environments.contains id = false := fun hc => by
    rw [← Bool.not_eq_true] at hc ⊢
    exact mt (hcontains _) hc
  constructor
  · exact hfaults.trans h.faults
  · intro id hc
    exact (h.issued (hcontains id hc)).mono hsteps
  · intro i id hi
    exact (h.used hi).mono hsteps
  · intro i id hi
    obtain ⟨hc, huniq⟩ := h.named hi
    exact ⟨habsent hc, huniq⟩
  · intro i id hi
    exact habsent (h.gone hi)
  · intro id hc
    obtain ⟨name, hl⟩ | hheld := h.held (hcontains id hc)
    · exact (hlists name id hc hl).imp_right .inr
    · exact .inr hheld
  · exact h.inserted

/-- A call comes to another phase.  It lets go of what it held only if that is listed or does not
exist, and it takes hold of an id that nobody else has named. -/
theorem rephase (h : Accounted supply p trace phases) {new : Custody}
    (hused : ∀ id, new.id? = some id → supply.Issued p.steps id ∧
      ∀ j, j ≠ caller → phases j ≠ .named id)
    (hnamed : ∀ id, new = .named id → p.store.environments.contains id = false ∧
      ∀ j, (phases j).id? ≠ some id)
    (hgone : ∀ id, new = .gone id → p.store.environments.contains id = false)
    (hheld : ∀ id, p.store.environments.contains id = true →
      phases caller = .placed id ∨ (∃ ids, phases caller = .released ids) →
      ∃ name, p.store.Lists name id)
    (hinserted : ∀ id, (phases caller).id? = some id ∨ phases caller = .linked →
      new.id? = some id ∨ new = .linked) :
    Accounted supply p trace (Function.update phases caller new) := by
  -- an index is the caller, which has the new phase, or it keeps its own
  have hcases : ∀ i, i = caller ∧ Function.update phases caller new i = new ∨
      i ≠ caller ∧ Function.update phases caller new i = phases i := by
    intro i
    by_cases hi : i = caller
    · exact .inl ⟨hi, by rw [hi, Function.update_self]⟩
    · exact .inr ⟨hi, Function.update_of_ne hi ..⟩
  constructor
  · exact h.faults
  · exact h.issued
  · intro i id hi
    obtain ⟨-, heq⟩ | ⟨-, heq⟩ := hcases i <;> rw [heq] at hi
    · exact (hused id hi).1
    · exact h.used hi
  · intro i id hi
    obtain ⟨hic, heq⟩ | ⟨hic, heq⟩ := hcases i <;> rw [heq] at hi
    · obtain ⟨hc, hothers⟩ := hnamed id hi
      refine ⟨hc, fun j hj => ?_⟩
      obtain ⟨hjc, -⟩ | ⟨-, heq'⟩ := hcases j
      · exact hjc.trans hic.symm
      · rw [heq'] at hj
        exact absurd hj (hothers j)
    · obtain ⟨hc, huniq⟩ := h.named hi
      refine ⟨hc, fun j hj => ?_⟩
      obtain ⟨-, heq'⟩ | ⟨-, heq'⟩ := hcases j <;> rw [heq'] at hj
      · exact absurd hi ((hused id hj).2 i hic)
      · exact huniq j hj
  · intro i id hi
    obtain ⟨-, heq⟩ | ⟨-, heq⟩ := hcases i <;> rw [heq] at hi
    · exact hgone id hi
    · exact h.gone hi
  · intro id hc
    obtain hl | ⟨i, hi⟩ | ⟨i, ids, hi, hmem⟩ := h.held hc
    · exact .inl hl
    · obtain ⟨hic, -⟩ | ⟨-, heq⟩ := hcases i
      · exact .inl (hheld id hc (.inl (hic ▸ hi)))
      · exact .inr (.inl ⟨i, heq.trans hi⟩)
    · obtain ⟨hic, -⟩ | ⟨-, heq⟩ := hcases i
      · exact .inl (hheld id hc (.inr ⟨ids, hic ▸ hi⟩))
      · exact .inr (.inr ⟨i, ids, heq.trans hi, hmem⟩)
  · intro x hx e hrequest
    have hbefore := h.inserted x hx e hrequest
    obtain ⟨hxc, heq⟩ | ⟨-, heq⟩ := hcases x.caller <;> rw [heq]
    · exact hinserted e.id (hxc ▸ hbefore)
    · exact hbefore

/-- A call that has nothing to let go of comes to another phase. -/
theorem rephase_of_idle (h : Accounted supply p trace phases) (hidle : phases caller = .idle)
    {new : Custody}
    (hused : ∀ id, new.id? = some id → supply.Issued p.steps id ∧
      ∀ j, j ≠ caller → phases j ≠ .named id)
    (hnamed : ∀ id, new = .named id → p.store.environments.contains id = false ∧
      ∀ j, (phases j).id? ≠ some id)
    (hgone : ∀ id, new = .gone id → p.store.environments.contains id = false) :
    Accounted supply p trace (Function.update phases caller new) := by
  refine h.rephase hused hnamed hgone (fun id _ hold => ?_) (fun id hold => ?_)
  · rw [hidle] at hold
    rcases hold with hold | ⟨_, hold⟩ <;> cases hold
  · rw [hidle] at hold
    rcases hold with hold | hold <;> cases hold

/-- A call inserts the environment that it has come to hold, whose id nobody else uses. -/
theorem insert (h : Accounted supply p trace phases) {e : Environment}
    (hplaced : phases caller = .placed e.id)
    (hothers : ∀ j, (phases j).id? = some e.id → j = caller)
    (hstore : p'.store = { p.store with environments := p.store.environments.insert e.id e })
    (hfaults : p'.faults = p.faults) (hsteps : p.steps ≤ p'.steps) :
    Accounted supply p' trace phases := by
  have hcontains : ∀ id, p'.store.environments.contains id = true →
      id = e.id ∨ p.store.environments.contains id = true := by
    intro id hc
    rw [hstore, SortedMap.contains, SortedMap.get?_insert] at hc
    split at hc
    case isTrue heq => exact .inl heq
    case isFalse => exact .inr hc
  -- the caller alone uses the new id, and for the caller it is neither named nor gone
  have habsent : ∀ {i id}, phases i = .named id ∨ phases i = .gone id →
      p.store.environments.contains id = false → p'.store.environments.contains id = false := by
    intro i id hi hc
    rw [← Bool.not_eq_true] at hc ⊢
    intro hc'
    obtain rfl | hc' := hcontains id hc'
    · have hic : i = caller := hothers i (by rcases hi with hi | hi <;> rw [hi] <;> rfl)
      rw [hic, hplaced] at hi
      rcases hi with hi | hi <;> cases hi
    · exact hc hc'
  constructor
  · exact hfaults.trans h.faults
  · intro id hc
    obtain rfl | hc := hcontains id hc
    · exact (h.used (i := caller) (by rw [hplaced]; rfl)).mono hsteps
    · exact (h.issued hc).mono hsteps
  · intro i id hi
    exact (h.used hi).mono hsteps
  · intro i id hi
    obtain ⟨hc, huniq⟩ := h.named hi
    exact ⟨habsent (.inl hi) hc, huniq⟩
  · intro i id hi
    exact habsent (.inr hi) (h.gone hi)
  · intro id hc
    obtain rfl | hc := hcontains id hc
    · exact .inr (.inl ⟨caller, hplaced⟩)
    · rw [hstore]
      exact h.held hc
  · exact h.inserted

/-! ### Requests keep it -/

/-- A step that leaves the store as it is. -/
theorem idle (h : Accounted supply p trace phases) (hfaults : p'.faults = p.faults)
    (hsteps : p.steps ≤ p'.steps) (hstore : p'.store = p.store) :
    Accounted supply p' trace phases :=
  h.keep hfaults hsteps (fun _ hc => hstore ▸ hc) fun name _ _ hl => .inl ⟨name, hstore ▸ hl⟩

/-- A step that changes neither lists nor which environments there are. -/
theorem harmless (h : Accounted supply p trace phases) {request : Request} {reply : request.Reply}
    {s' : Store} (hharmless : Custody.Harmless request)
    (hs : p.store.perform (supply.reading p.steps) request = .ok (reply, s')) :
    Accounted supply (p.after s') trace phases := by
  refine h.keep rfl (Nat.le_succ _) (fun id hc => ?_) (fun name id _ hl => .inl ⟨name, ?_⟩)
  · exact (contains_perform hs hharmless.2 id).symm.trans hc
  · show s'.Lists name id
    rw [Store.Lists, links_perform hs hharmless.1]
    exact hl

theorem insertProject (h : Accounted supply p trace phases) {project : Project} {s' : Store}
    (hs : p.store.insertProject project = .ok s') : Accounted supply (p.after s') trace phases := by
  obtain ⟨habsent, rfl⟩ := insertProject_eq_ok.1 hs
  refine h.keep rfl (Nat.le_succ _) (fun _ hc => hc) (fun name id _ hl => .inl ⟨name, ?_⟩)
  obtain ⟨ids, hlinks, hid⟩ := hl
  have hne : name ≠ project.name := by
    rintro rfl
    rw [links, habsent] at hlinks
    cases hlinks
  exact ⟨ids, by rw [ServiceState.after_store, links_insert, if_neg hne, hlinks], hid⟩

/-- A deleted project leaves its environments to the call that deleted it. -/
theorem deleteProject (h : Accounted supply p trace phases) (hidle : phases caller = .idle)
    {name : String} {project : Project} {s' : Store}
    (hs : p.store.deleteProject name = .ok (project, s')) :
    Accounted supply (p.after s') trace
      (Function.update phases caller (.released project.environmentIds)) := by
  obtain ⟨hp, rfl⟩ := deleteProject_eq_ok.1 hs
  have hreleased : Accounted supply p trace
      (Function.update phases caller (.released project.environmentIds)) :=
    h.rephase_of_idle hidle nofun nofun nofun
  refine hreleased.keep rfl (Nat.le_succ _) (fun _ hc => hc) (fun other id _ hl => ?_)
  by_cases hother : other = name
  · subst hother
    exact .inr ⟨caller, _, Function.update_self .., (lists_iff hp).1 hl⟩
  · obtain ⟨ids, hlinks, hid⟩ := hl
    refine .inl ⟨other, ids, ?_, hid⟩
    rw [ServiceState.after_store, links_erase, if_neg hother, hlinks]

theorem insertEnvironment (h : Accounted supply p trace phases) {e : Environment} {s' : Store}
    (hnamed : phases caller = .named e.id) (hs : p.store.insertEnvironment e = .ok s') :
    Accounted supply (p.after s') trace (Function.update phases caller (.placed e.id)) := by
  obtain ⟨-, hstore⟩ := insertEnvironment_eq_ok.1 hs
  obtain ⟨-, huniq⟩ := h.named hnamed
  have hplaced : Accounted supply p trace (Function.update phases caller (.placed e.id)) := by
    refine h.rephase (fun id hid => ?_) nofun nofun (fun id _ hold => ?_) (fun id hold => ?_)
    · obtain rfl := Option.some.inj hid
      refine ⟨h.used (i := caller) (by rw [hnamed]; rfl), fun j hj hjn => hj (huniq j ?_)⟩
      rw [hjn]
      rfl
    · rw [hnamed] at hold
      rcases hold with hold | ⟨_, hold⟩ <;> cases hold
    · rw [hnamed] at hold
      rcases hold with hold | hold
      · exact .inl hold
      · cases hold
  refine hplaced.insert (Function.update_self ..) (fun j hj => ?_) hstore rfl (Nat.le_succ _)
  by_contra hjc
  rw [Function.update_of_ne hjc] at hj
  exact hjc (huniq j hj)

theorem attachEnvironment (h : Accounted supply p trace phases) {name id : String} {s' : Store}
    (hplaced : phases caller = .placed id) {now : Timestamp}
    (hs : p.store.attachEnvironment name id now = .ok s') :
    Accounted supply (p.after s') trace (Function.update phases caller .linked) := by
  obtain ⟨-, project, hp, hs'⟩ := attachEnvironment_eq_ok.1 hs
  have hlists := lists_enlist hp (congrArg Store.projects hs')
  have hkept : Accounted supply (p.after s') trace phases := by
    refine h.keep rfl (Nat.le_succ _) (fun one hc => ?_) fun other one _ hl =>
      .inl ⟨other, (hlists other one).2 (.inl hl)⟩
    rw [hs'] at hc
    exact hc
  refine hkept.rephase nofun nofun nofun (fun one _ hold => ?_) (fun _ _ => .inr rfl)
  rw [hplaced] at hold
  rcases hold with hold | ⟨_, hold⟩
  · obtain rfl := Custody.placed.inj hold
    exact ⟨name, (hlists name id).2 (.inr ⟨rfl, rfl⟩)⟩
  · cases hold

/-- An environment that does not exist any more is gone for the call that saw to it. -/
theorem lose (h : Accounted supply p trace phases) {id : String}
    (habsent : p.store.environments.contains id = false) (hissued : supply.Issued p.steps id)
    (hnamed : ∀ j, phases j ≠ .named id)
    (hphase : phases caller = .idle ∨ phases caller = .placed id) :
    Accounted supply p trace (Function.update phases caller (.gone id)) := by
  refine h.rephase (fun one hid => ?_) nofun (fun one hid => ?_) (fun one hc hold => ?_)
    (fun one hold => ?_)
  · obtain rfl := Option.some.inj hid
    exact ⟨hissued, fun j _ => hnamed j⟩
  · obtain rfl := Custody.gone.inj hid
    exact habsent
  · rcases hphase with hphase | hphase <;> rw [hphase] at hold
    · rcases hold with hold | ⟨_, hold⟩ <;> cases hold
    · rcases hold with hold | ⟨_, hold⟩
      · obtain rfl := Custody.placed.inj hold
        rw [habsent] at hc
        cases hc
      · cases hold
  · rcases hphase with hphase | hphase <;> rw [hphase] at hold
    · rcases hold with hold | hold <;> cases hold
    · rcases hold with hold | hold
      · exact .inl hold
      · cases hold

theorem eraseEnvironment (h : Accounted supply p trace phases) {id : String} {s' : Store}
    (hs : p.store.deleteEnvironment id = .ok s') : Accounted supply (p.after s') trace phases ∧
      s'.environments.contains id = false := by
  obtain ⟨-, rfl⟩ := deleteEnvironment_eq_ok.1 hs
  have hcontains : ∀ one, (p.store.environments.erase id).contains one = true →
      p.store.environments.contains one = true ∧ one ≠ id := by
    intro one hc
    rw [SortedMap.contains, SortedMap.get?_erase] at hc
    split at hc
    case isTrue => cases hc
    case isFalse hne => exact ⟨hc, hne⟩
  refine ⟨h.keep rfl (Nat.le_succ _) (fun one hc => (hcontains one hc).1)
    (fun name one _ hl => .inl ⟨name, hl⟩), ?_⟩
  rw [← Bool.not_eq_true]
  exact fun hc => (hcontains id hc).2 rfl

/-- Detaching an environment that is gone leaves every other one listed. -/
theorem detachEnvironment (h : Accounted supply p trace phases) {id : String} {s' : Store} {n : Nat}
    {now : Nat → Timestamp} (hgone : phases caller = .gone id)
    (hs : p.store.detachEnvironment id now = .ok (n, s')) :
    Accounted supply (p.after s') trace phases := by
  have hs' := (detachEnvironment_eq_ok hs).2.frame
  have hcontains : ∀ one, s'.environments.contains one = p.store.environments.contains one := by
    intro one
    rw [hs']
  refine h.keep rfl (Nat.le_succ _) (fun one hc => hcontains one ▸ hc)
    (fun name one hc hl => .inl ⟨name, (lists_detachEnvironment hs name one).2 ⟨hl, ?_⟩⟩)
  rintro rfl
  have habsent : s'.environments.contains one = false := (hcontains one).trans (h.gone hgone)
  exact Bool.false_ne_true (habsent.symm.trans hc)

/-- A request that goes through keeps the accounts. -/
theorem reply (h : Accounted supply p trace phases) {request : Request} {reply : request.Reply}
    {s' : Store} (hpermits : Custody.permits (phases caller) request)
    (hs : p.store.perform (supply.reading p.steps) request = .ok (reply, s')) :
    Accounted supply (p.after s') trace
      (Function.update phases caller (Custody.after (phases caller) request (.ok reply))) := by
  by_cases hharmless : Custody.Harmless request
  case pos =>
    rw [Custody.after_harmless hharmless, Function.update_eq_self]
    exact h.harmless hharmless hs
  cases request with
  | insertProject project =>
    have hafter : Custody.after (phases caller) (.insertProject project) (.ok reply)
        = phases caller := by cases phases caller <;> rfl
    rw [hafter, Function.update_eq_self]
    exact h.insertProject (silent_eq_ok.1 hs)
  | deleteProject name =>
    cases hphase : phases caller with
    | idle => exact h.deleteProject hphase hs
    | _ =>
      rw [hphase] at hpermits
      exact absurd hpermits hharmless
  | insertEnvironment e =>
    cases hphase : phases caller with
    | named id =>
      have hid : e.id = id := by rwa [hphase] at hpermits
      subst hid
      exact h.insertEnvironment hphase (silent_eq_ok.1 hs)
    | _ =>
      rw [hphase] at hpermits
      exact absurd hpermits hharmless
  | attachEnvironment name one =>
    cases hphase : phases caller with
    | placed id =>
      have hid : one = id := by rwa [hphase] at hpermits
      subst hid
      exact h.attachEnvironment hphase (silent_eq_ok.1 hs)
    | _ =>
      rw [hphase] at hpermits
      exact absurd hpermits hharmless
  | detachEnvironment one =>
    cases hphase : phases caller with
    | gone id =>
      have hid : one = id := by rwa [hphase] at hpermits
      subst hid
      rw [show Custody.after (.gone one) (.detachEnvironment one) (.ok reply) = phases caller from
        hphase.symm, Function.update_eq_self]
      exact h.detachEnvironment hphase hs
    | _ =>
      rw [hphase] at hpermits
      exact absurd hpermits hharmless
  | deleteEnvironment one =>
    -- a deletion that was asked for, or a creation that takes its environment back
    obtain ⟨herased, habsent⟩ := h.eraseEnvironment (silent_eq_ok.1 hs)
    obtain ⟨hexists, -⟩ := deleteEnvironment_eq_ok.1 (silent_eq_ok.1 hs)
    have hnamed : ∀ j, phases j ≠ .named one := fun j hj =>
      Bool.false_ne_true ((h.named hj).1.symm.trans hexists)
    have hissued : supply.Issued (p.steps + 1) one := (h.issued hexists).mono (Nat.le_succ _)
    cases hphase : phases caller with
    | idle => exact herased.lose habsent hissued hnamed (.inl hphase)
    | placed id =>
      have hid : one = id := by rwa [hphase] at hpermits
      subst hid
      exact herased.lose habsent hissued hnamed (.inr hphase)
    | _ =>
      rw [hphase] at hpermits
      exact absurd hpermits hharmless
  | _ => exact absurd ⟨rfl, rfl⟩ hharmless

/-- A request that fails keeps the accounts. -/
theorem failure (h : Accounted supply p trace phases) {request : Request} {e : StoreError}
    (hpermits : Custody.permits (phases caller) request)
    (hs : p.store.perform (supply.reading p.steps) request = .error e) :
    Accounted supply (p.after p.store) trace
      (Function.update phases caller (Custody.after (phases caller) request (.error e))) := by
  have hidle : Accounted supply (p.after p.store) trace phases := h.idle rfl (Nat.le_succ _) rfl
  by_cases hafter : Custody.after (phases caller) request (.error e) = phases caller
  case pos =>
    rw [hafter, Function.update_eq_self]
    exact hidle
  -- what is left is an environment that could not be taken back, as it does not exist
  cases hphase : phases caller with
  | placed id =>
    rw [hphase] at hafter hpermits
    cases request with
    | deleteEnvironment one =>
      obtain rfl : one = id := hpermits
      have habsent : p.store.environments.contains one = false := by
        rw [← Bool.not_eq_true]
        intro hc
        have hdelete := deleteEnvironment_eq_ok.2 ⟨hc, rfl⟩
        rw [perform, hdelete] at hs
        cases hs
      refine hidle.lose habsent (hidle.used (i := caller) (by rw [hphase]; rfl)) (fun j hj => ?_)
        (.inr hphase)
      obtain rfl := (h.named hj).2 caller (by rw [hphase]; rfl)
      rw [hphase] at hj
      cases hj
    | _ => exact absurd rfl hafter
  | _ =>
    rw [hphase] at hafter
    cases request <;> exact absurd rfl hafter

/-- Every request that the discipline permits keeps the accounts. -/
theorem call (h : Accounted supply p trace phases) {request : Request}
    (hpermits : Custody.permits (phases caller) request) :
    Accounted supply (p.call supply request).2
      (trace ++ [⟨caller, request, (p.call supply request).1⟩])
      (Function.update phases caller
        (Custody.after (phases caller) request (p.call supply request).1)) := by
  have hcalled : Accounted supply (p.call supply request).2 trace
      (Function.update phases caller
        (Custody.after (phases caller) request (p.call supply request).1)) := by
    obtain ⟨reply, s', hs, hcall⟩ | ⟨e, hs, hcall⟩ := p.call_cases supply request
    · rw [hcall]
      exact h.reply hpermits hs
    · rw [hcall]
      exact h.failure hpermits (hs h.faults)
  refine hcalled.log fun e hrequest => ?_
  rw [Function.update_self]
  obtain rfl : request = .insertEnvironment e := hrequest
  left
  cases hphase : phases caller with
  | named id =>
    have hid : e.id = id := by rwa [hphase] at hpermits
    cases (p.call supply (.insertEnvironment e)).1 <;> exact congrArg some hid.symm
  | _ =>
    rw [hphase] at hpermits
    cases hpermits.2

/-- A call takes an id, which nobody has and nothing uses. -/
theorem name (h : Accounted supply p trace phases) (hids : Function.Injective supply.id)
    (hidle : phases caller = .idle) :
    Accounted supply { p with steps := p.steps + 1 } trace
      (Function.update phases caller (.named (supply.id p.steps))) := by
  have hnew : ¬ supply.Issued p.steps (supply.id p.steps) :=
    Supply.not_issued hids (Nat.le_refl _)
  have hticked : Accounted supply { p with steps := p.steps + 1 } trace phases :=
    h.idle rfl (Nat.le_succ _) rfl
  refine hticked.rephase_of_idle hidle (fun id hid => ?_) (fun id hid => ?_) nofun
  · obtain rfl := Option.some.inj hid
    refine ⟨⟨p.steps, Nat.lt_succ_self _, rfl⟩, fun j _ hj => hnew (h.used (i := j) ?_)⟩
    rw [hj]
    rfl
  · obtain rfl := Custody.named.inj hid
    refine ⟨?_, fun j hj => hnew (h.used hj)⟩
    rw [← Bool.not_eq_true]
    exact fun hc => hnew (h.issued hc)

theorem invariant (hids : Function.Injective supply.id) :
    Custody.discipline.Invariant supply (Accounted supply) where
  call h hpermits := h.call hpermits
  name h hidle := h.name hids hidle
  tick h := h.idle rfl (Nat.le_succ _) rfl
  count h := h.idle rfl (Nat.le_refl _) rfl

end Accounted

/-! ### Runs -/

theorem Accounted.fresh : Accounted supply .fresh [] fun _ => .idle := by
  constructor
  · rfl
  · intro id hc
    cases hc
  · intro i id hi
    cases hi
  · intro i id hi
    cases hi
  · intro i id hi
    cases hi
  · intro id hc
    cases hc
  · intro x hx
    cases hx

namespace Pool

open Custody (discipline ends)

theorem follows_custody (hids : Function.Injective supply.id) (moves : List Move) :
    (fresh.run supply moves).Follows discipline ends (Accounted supply) := by
  induction moves using List.reverseRecOn with
  | nil =>
    refine ⟨fun _ => .idle, fun _ _ => rfl, fun _ _ hcall => ?_, Accounted.fresh⟩
    cases hcall
  | append_singleton moves m ih =>
    rw [run_concat]
    cases m with
    | start command => exact ih.start command.obeys_custody
    | step caller => exact ih.step (Accounted.invariant hids) caller
    | failEnvironmentWrites fail | failProjectLinks fail =>
      obtain ⟨phases, hbeyond, hobeys, hinv⟩ := ih
      exact ⟨phases, hbeyond, hobeys, hinv.keep rfl (Nat.le_refl _) (fun _ hc => hc)
        fun name _ _ hl => .inl ⟨name, hl⟩⟩

variable {pool : Pool}

/-- When no call is in flight, nothing is held but what deletions have handed back. -/
theorem Follows.listed_or_orphaned (h : pool.Follows discipline ends (Accounted supply))
    (hquiet : pool.Quiet) {id : String}
    (hexists : pool.service.store.environments.contains id = true) :
    (∃ name, pool.service.store.Lists name id) ∨
      ∃ project deletion, ⟨.deleteProject project, .done (.ok deletion)⟩ ∈ pool.calls ∧
        id ∈ ProjectDeletion.orphanedEnvironmentIds deletion := by
  obtain ⟨phases, hbeyond, hobeys, hinv⟩ := h
  have hended : ∀ {i phase}, phases i = phase → phase ≠ .idle →
      ∃ command outcome, ⟨command, .done outcome⟩ ∈ pool.calls ∧ ends phase command outcome := by
    rintro i phase rfl hphase
    exact hquiet.exists_ended hbeyond hobeys hphase
  obtain hl | ⟨i, hi⟩ | ⟨i, ids, hi, hmem⟩ := hinv.held hexists
  · exact .inl hl
  · -- a call that still holds an environment has not ended
    obtain ⟨command, outcome, -, hends⟩ := hended hi nofun
    exact hends.elim
  · obtain ⟨command, outcome, hcall, hends⟩ := hended hi nofun
    have horphan : id ∈ command.orphans outcome := by
      rw [show command.orphans outcome = ids from hends]
      exact hmem
    cases command with
    | deleteProject project =>
      cases outcome with
      | ok deletion => exact .inr ⟨project, deletion, hcall, horphan⟩
      | error e => cases horphan
    | _ => cases horphan

/-- A call that has failed has left no environment behind. -/
theorem Follows.absent_of_error (h : pool.Follows discipline ends (Accounted supply)) {x : Exchange}
    (hx : x ∈ pool.trace) {command : Command} {error : ApiError}
    (hcall : pool.calls[x.caller]? = some ⟨command, .done (.error error)⟩) {e : Environment}
    (hrequest : x.request = .insertEnvironment e) :
    pool.service.store.environments.contains e.id = false := by
  obtain ⟨phases, -, hobeys, hinv⟩ := h
  have hends : ends (phases x.caller) command (.error error) := hobeys _ _ hcall
  have hphase := hinv.inserted x hx e hrequest
  cases hp : phases x.caller with
  | named id =>
    rw [hp] at hphase
    obtain rfl : id = e.id := by simpa [Custody.id?] using hphase
    exact (hinv.named hp).1
  | gone id =>
    rw [hp] at hphase
    obtain rfl : id = e.id := by simpa [Custody.id?] using hphase
    exact hinv.gone hp
  | placed id =>
    rw [hp] at hends
    exact hends.elim
  | linked =>
    rw [hp] at hends
    obtain ⟨result, hresult⟩ := hends
    cases hresult
  | idle | released ids =>
    rw [hp] at hphase
    rcases hphase with hphase | hphase <;> cases hphase

/-- **No environment is leaked.**  If ids never repeat, then whenever no call is in flight, every
environment is listed by a project or was handed back by a deletion of its project; and a creation
that failed has left no environment behind. -/
theorem no_environment_leaked (hids : Function.Injective supply.id) (moves : List Move) :
    let pool := fresh.run supply moves
    (pool.Quiet → ∀ id, pool.service.store.environments.contains id = true →
      (∃ name, pool.service.store.Lists name id) ∨
        ∃ project deletion, ⟨.deleteProject project, .done (.ok deletion)⟩ ∈ pool.calls ∧
          id ∈ ProjectDeletion.orphanedEnvironmentIds deletion) ∧
      ∀ x ∈ pool.trace, ∀ project name error,
        pool.calls[x.caller]? = some ⟨.createEnvironment project name, .done (.error error)⟩ →
        ∀ e, x.request = .insertEnvironment e →
          pool.service.store.environments.contains e.id = false := by
  have hfollows := follows_custody hids moves
  constructor
  · intro hquiet id hexists
    exact hfollows.listed_or_orphaned hquiet hexists
  · intro x hx project name error hcall e hrequest
    exact hfollows.absent_of_error hx hcall hrequest

/-- A run in which a project is deleted while one of its two environments is inserted and not yet
listed: the creation fails and takes the environment back, the other one is handed back. -/
theorem no_environment_leaked_deleted :
    let moves : List Move :=
      .start (.createProject "shop") :: List.replicate 3 (.step 0)
        ++ .start (.createEnvironment "shop" "test") :: List.replicate 5 (.step 1)
        ++ .start (.createEnvironment "shop" "live") :: List.replicate 4 (.step 2)
        ++ .start (.deleteProject "shop") :: .step 3 :: List.replicate 3 (.step 2)
    let pool := fresh.run Supply.counting moves
    Function.Injective Supply.counting.id ∧ pool.Quiet ∧
      pool.service.store.environments.keys = [Supply.counting.id 5] ∧
      ((∃ name, pool.service.store.Lists name (Supply.counting.id 5)) ∨
        ∃ project deletion, ⟨.deleteProject project, .done (.ok deletion)⟩ ∈ pool.calls ∧
          Supply.counting.id 5 ∈ ProjectDeletion.orphanedEnvironmentIds deletion) := by
  intro moves pool
  have hquiet : pool.Quiet := by decide +kernel
  have hkeys : pool.service.store.environments.keys = [Supply.counting.id 5] := by decide +kernel
  have hexists : pool.service.store.environments.contains (Supply.counting.id 5) = true := by
    decide +kernel
  refine ⟨Supply.counting_id_injective, hquiet, hkeys, ?_⟩
  exact (no_environment_leaked Supply.counting_id_injective moves).1 hquiet _ hexists

end Pool

end FeatureFlags

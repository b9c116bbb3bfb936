import Mathlib.Data.List.Induction
import FeatureFlags.Proofs.Concurrent.Pool

/-!
Cascades of one flag beside each other.

Calls that add, remove or resync one flag of a project each write to the environments what they saw
of the project a step before.  The environments that the project lists therefore agree among
themselves at every moment: they have the flag as the bulk write that came last carried it.  They
agree with the project too, unless it was written to after that last bulk write was decided on
(`Overtaken`); as the two writes of a cascade are no transaction, nothing prevents this
(`Pool.cascades_not_always_converge`).
-/

namespace FeatureFlags

open Store

variable {supply : Supply}

namespace Command

/-- The command adds, removes or resyncs this flag of this project. -/
def Cascades (project flag : String) : Command → Prop
  | .addFlag name added => name = project ∧ added.name = flag
  | .removeFlag name removed => name = project ∧ removed = flag
  | .resyncFlag name resynced => name = project ∧ resynced = flag
  | _ => False

end Command

/-! ### Traces -/

namespace Exchange

/-- The rule that a request has written to a project, if it has: none if it removed the flag. -/
def written? : Exchange → Option (Option FlagRule)
  | ⟨_, .insertProjectFlag _ _ rule, .ok _⟩ => some (some rule)
  | ⟨_, .removeProjectFlag .., .ok _⟩ => some none
  | _ => none

/-- The rule that a bulk write has carried to environments, if it has: none if it removed the
flag. -/
def carried? : Exchange → Option (Option FlagRule)
  | ⟨_, .setEnvironmentsFlag _ _ rule, .ok _⟩ => some (some rule)
  | ⟨_, .unsetEnvironmentsFlag .., .ok _⟩ => some none
  | _ => none

theorem written?_of_carried? {x : Exchange} (h : x.carried? ≠ none) : x.written? = none := by
  obtain ⟨caller, request, reply⟩ := x
  cases request with
  | insertProjectFlag | removeProjectFlag => exact absurd rfl h
  | _ => rfl

end Exchange

section Trace

variable {β : Type} (what : Exchange → Option β) (start : β)

/-- What the exchange says that came last of those that say anything. -/
def lastOf (trace : List Exchange) : β := trace.foldl (fun value x => (what x).getD value) start

theorem lastOf_append (first rest : List Exchange) :
    lastOf what start (first ++ rest) = lastOf what (lastOf what start first) rest := by
  rw [lastOf, List.foldl_append, lastOf, lastOf]

theorem lastOf_concat (trace : List Exchange) (x : Exchange) :
    lastOf what start (trace ++ [x]) = (what x).getD (lastOf what start trace) := by
  rw [lastOf_append]
  rfl

theorem lastOf_of_silent {trace : List Exchange} (h : ∀ x ∈ trace, what x = none) :
    lastOf what start trace = start := by
  induction trace with
  | nil => rfl
  | cons x rest ih =>
    rw [lastOf, List.foldl_cons, h x (List.mem_cons_self ..)]
    exact ih fun y hy => h y (List.mem_cons_of_mem x hy)

theorem lastOf_last {pre rest : List Exchange} {x : Exchange} {value : β}
    (hx : what x = some value) (h : ∀ y ∈ rest, what y = none) :
    lastOf what start (pre ++ x :: rest) = value := by
  rw [lastOf_append, lastOf, List.foldl_cons, hx]
  exact lastOf_of_silent what value h

/-- Where an exchange can stand in a trace that has become longer. -/
theorem split_concat {trace pre rest : List Exchange} {x y : Exchange}
    (h : trace ++ [x] = pre ++ y :: rest) :
    (pre = trace ∧ y = x ∧ rest = []) ∨
      ∃ rest', rest = rest' ++ [x] ∧ trace = pre ++ y :: rest' := by
  obtain rfl | ⟨rest', z, rfl⟩ := List.eq_nil_or_concat rest
  · obtain ⟨hpre, hy⟩ := List.append_inj' h rfl
    exact .inl ⟨hpre.symm, (List.cons.inj hy).1.symm, rfl⟩
  · rw [List.concat_eq_append] at h ⊢
    rw [← List.cons_append, ← List.append_assoc] at h
    obtain ⟨htrace, hz⟩ := List.append_inj' h rfl
    exact .inr ⟨rest', by rw [(List.cons.inj hz).1], htrace⟩

/-- If anything is said, there is a last exchange that says it. -/
theorem exists_last {trace : List Exchange} (h : ∃ x ∈ trace, what x ≠ none) :
    ∃ first x rest, trace = first ++ x :: rest ∧ what x ≠ none ∧ ∀ y ∈ rest, what y = none := by
  induction trace using List.reverseRecOn with
  | nil =>
    obtain ⟨x, hx, -⟩ := h
    cases hx
  | append_singleton trace y ih =>
    by_cases hy : what y = none
    · obtain ⟨x, hx, hwhat⟩ := h
      have hmem : x ∈ trace := by
        rcases List.mem_append.1 hx with hx | hx
        · exact hx
        · obtain rfl := List.mem_singleton.1 hx
          exact absurd hy hwhat
      obtain ⟨first, z, rest, rfl, hz, hrest⟩ := ih ⟨x, hmem, hwhat⟩
      refine ⟨first, z, rest ++ [y], by simp, hz, fun w hw => ?_⟩
      rcases List.mem_append.1 hw with hw | hw
      · exact hrest w hw
      · rw [List.mem_singleton.1 hw, hy]
    · exact ⟨trace, y, [], rfl, hy, fun z hz => (by cases hz)⟩

end Trace

/-- A project was written to after the first request of the call whose bulk write came last. -/
def Overtaken (trace : List Exchange) : Prop :=
  ∃ first x between y rest, trace = first ++ x :: between ++ y :: rest ∧ x.caller = y.caller ∧
    y.carried? ≠ none ∧ (∀ z ∈ rest, z.carried? = none) ∧ ∃ z ∈ between ++ rest, z.written? ≠ none

/-! ### The discipline -/

/-- How far a cascade has come. -/
inductive CascadeStage where
  /-- It has not asked the project. -/
  | pending
  /-- It is to write this rule to these environments. -/
  | carrying (rule : Option FlagRule) (ids : List String)
  /-- It has written to them. -/
  | spread
  /-- Its request to the project has failed. -/
  | failed

namespace CascadeStage

variable (project flag : String)

/-- What a call may ask for. -/
def permits : CascadeStage → Request → Prop
  | pending, request =>
    request = .getProject project ∨ ∃ rule, request = Propagation.projectRequest project flag rule
  | carrying rule ids, request => request = Propagation.cascadeRequest ids flag rule
  | _, _ => False

def after : CascadeStage → (request : Request) → Except StoreError request.Reply → CascadeStage
  | _, _, .error _ => failed
  | pending, .getProject _, .ok (found : Project) =>
    carrying (found.flags.get? flag) found.environmentIds
  | pending, .insertProjectFlag _ _ rule, .ok (ids : List String) => carrying (some rule) ids
  | pending, .removeProjectFlag _ _, .ok (ids : List String) => carrying none ids
  | carrying _ _, _, .ok _ => spread
  | stage, _, _ => stage

/-- A call ends before it has written to environments only if there are none. -/
def ends : CascadeStage → (command : Command) → Except ApiError command.Result → Prop
  | carrying _ ids, _, _ => ids = []
  | _, _, _ => True

def discipline : Discipline CascadeStage where
  start := pending
  permits := permits project flag
  after := after flag
  names _ := False
  named stage _ := stage

variable {project flag : String}

/-- The second half of a call. -/
theorem obeys_carrying (command : Command) {rule : Option FlagRule} {ids : List String}
    (result : Nat → command.Result) :
    (Propagation.cascade ids flag rule fun written => Action.ok (result written)).Obeys
      (discipline project flag) (fun stage => ends stage command) (carrying rule ids) := by
  cases rule <;>
    exact Propagation.obeys_cascade (fun hnil => hnil) rfl (fun _ _ => trivial) (fun _ => trivial)

/-- The commands of one flag keep to the discipline. -/
theorem obeys {command : Command} (h : command.Cascades project flag) :
    command.program.Obeys (discipline project flag) (fun stage => ends stage command) pending := by
  cases command with
  | addFlag name added =>
    obtain ⟨rfl, rfl⟩ := h
    refine Action.obeys_store (.inr ⟨some added.rule, rfl⟩) (fun ids => ?_) (fun _ => trivial)
    exact obeys_carrying (.addFlag name added) fun _ => added
  | removeFlag name removed =>
    obtain ⟨rfl, rfl⟩ := h
    refine Action.obeys_store (.inr ⟨none, rfl⟩) (fun ids => ?_) (fun _ => trivial)
    exact obeys_carrying (.removeFlag name removed) fun _ => ()
  | resyncFlag name resynced =>
    obtain ⟨rfl, rfl⟩ := h
    refine Action.obeys_store (.inl rfl) (fun found => ?_) (fun _ => trivial)
    exact obeys_carrying (.resyncFlag name resynced) _
  | _ => exact h.elim

end CascadeStage

/-! ### The invariant -/

/-- The environments have what was carried last, the project has what was written last, and what is
carried was the last that was written when a request of the same call was answered. -/
structure Converging (project flag : String) (before : Option FlagRule) (p : ServiceState)
    (trace : List Exchange) (stages : Nat → CascadeStage) : Prop where
  faults : p.faults = []
  writes : p.store.environmentWritesFail = false
  projectFlag : p.store.projectFlag project flag = lastOf Exchange.written? before trace
  environmentFlag : ∀ {id}, p.store.Lists project id → p.store.environments.contains id = true →
    p.store.environmentFlag id flag = lastOf Exchange.carried? before trace
  carrying : ∀ {i rule ids}, stages i = .carrying rule ids → p.store.links project = some ids ∧
    ∃ first x between, trace = first ++ x :: between ∧ x.caller = i ∧
      rule = lastOf Exchange.written? before (first ++ [x])
  sourced : ∀ {pre y rest rule}, trace = pre ++ y :: rest → y.carried? = some rule →
    ∃ first x between, pre = first ++ x :: between ∧ x.caller = y.caller ∧
      rule = lastOf Exchange.written? before (first ++ [x])
  spread : ∀ {x}, x ∈ trace → x.written? ≠ none →
    (∃ rule ids, stages x.caller = .carrying rule ids) ∨ ∃ y ∈ trace, y.carried? ≠ none

namespace Converging

variable {project flag : String} {before : Option FlagRule} {p p' : ServiceState}
  {trace : List Exchange} {stages : Nat → CascadeStage} {caller : Nat}

theorem of_store (h : Converging project flag before p trace stages)
    (hfaults : p'.faults = p.faults) (hstore : p'.store = p.store) :
    Converging project flag before p' trace stages where
  faults := hfaults.trans h.faults
  writes := hstore ▸ h.writes
  projectFlag := hstore ▸ h.projectFlag
  environmentFlag := hstore ▸ h.environmentFlag
  carrying := hstore ▸ h.carrying
  sourced := h.sourced
  spread := h.spread

/-- A request of a call is answered. -/
theorem advance (h : Converging project flag before p trace stages) (p' : ServiceState)
    (x : Exchange) {new : CascadeStage} (hfaults : p'.faults = p.faults)
    (hwrites : p'.store.environmentWritesFail = p.store.environmentWritesFail)
    (hlinks : p'.store.links project = p.store.links project)
    (hproject : p'.store.projectFlag project flag
      = lastOf Exchange.written? before (trace ++ [x]))
    (henvironment : ∀ {id}, p'.store.Lists project id → p'.store.environments.contains id = true →
      p'.store.environmentFlag id flag = lastOf Exchange.carried? before (trace ++ [x]))
    (hnew : ∀ {rule ids}, new = .carrying rule ids → p'.store.links project = some ids ∧
      rule = lastOf Exchange.written? before (trace ++ [x]))
    (hwritten : x.written? ≠ none → ∃ rule ids, new = .carrying rule ids)
    (hcarried : ∀ {rule}, x.carried? = some rule → ∃ ids, stages x.caller = .carrying rule ids)
    (hspread : ∀ {rule ids}, stages x.caller = .carrying rule ids → x.carried? ≠ none) :
    Converging project flag before p' (trace ++ [x]) (Function.update stages x.caller new) where
  faults := hfaults.trans h.faults
  writes := hwrites.trans h.writes
  projectFlag := hproject
  environmentFlag := henvironment
  carrying {i rule ids} hi := by
    by_cases hic : i = x.caller
    · rw [hic, Function.update_self] at hi
      obtain ⟨hids, hrule⟩ := hnew hi
      exact ⟨hids, trace, x, [], rfl, hic.symm, hrule⟩
    · rw [Function.update_of_ne hic] at hi
      obtain ⟨hids, first, y, between, htrace, hcaller, hrule⟩ := h.carrying hi
      exact ⟨hlinks.trans hids, first, y, between ++ [x], by rw [htrace]; simp, hcaller, hrule⟩
  sourced {pre y rest rule} htrace hy := by
    -- the bulk write is the new exchange, or stood in the trace before
    obtain ⟨rfl, rfl, -⟩ | ⟨rest', -, htrace⟩ := split_concat htrace
    · obtain ⟨ids, hstage⟩ := hcarried hy
      exact (h.carrying hstage).2
    · exact h.sourced htrace hy
  spread {y} hy hw := by
    rcases List.mem_append.1 hy with hy | hy
    · obtain ⟨rule, ids, hstage⟩ | ⟨z, hz, hbulk⟩ := h.spread hy hw
      · by_cases hyx : y.caller = x.caller
        · exact .inr ⟨x, by simp, hspread (hyx ▸ hstage)⟩
        · exact .inl ⟨rule, ids, by rw [Function.update_of_ne hyx, hstage]⟩
      · exact .inr ⟨z, List.mem_append_left _ hz, hbulk⟩
    · obtain rfl := List.mem_singleton.1 hy
      obtain ⟨rule, ids, hstage⟩ := hwritten hw
      exact .inl ⟨rule, ids, by rw [Function.update_self, hstage]⟩

/-- A request to the project fails. -/
theorem fail_step (h : Converging project flag before p trace stages)
    (hpending : stages caller = .pending) {request : Request} (e : StoreError) :
    Converging project flag before (p.after p.store) (trace ++ [⟨caller, request, .error e⟩])
      (Function.update stages caller .failed) := by
  have hwritten : Exchange.written? ⟨caller, request, .error e⟩ = none := by cases request <;> rfl
  have hcarried : Exchange.carried? ⟨caller, request, .error e⟩ = none := by cases request <;> rfl
  refine h.advance (p.after p.store) ⟨caller, request, .error e⟩ rfl rfl rfl ?_ ?_
    (fun hnew => by cases hnew) (fun hw => absurd hwritten hw) ?_ ?_
  · rw [lastOf_concat, hwritten]
    exact h.projectFlag
  · rw [lastOf_concat, hcarried]
    exact h.environmentFlag
  · intro rule hrule
    rw [hcarried] at hrule
    cases hrule
  · intro rule ids hstage
    rw [hpending] at hstage
    cases hstage

/-- The project is read, and the caller is to write what it says to the environments. -/
theorem read_step (h : Converging project flag before p trace stages)
    (hpending : stages caller = .pending) {found : Project}
    (hp : p.store.projects.get? project = some found) :
    Converging project flag before (p.after p.store)
      (trace ++ [⟨caller, .getProject project, .ok found⟩])
      (Function.update stages caller (.carrying (found.flags.get? flag) found.environmentIds)) := by
  refine h.advance (p.after p.store) ⟨caller, .getProject project, .ok found⟩ rfl rfl rfl ?_ ?_ ?_
    (fun hw => absurd rfl hw) (fun hrule => by cases hrule) ?_
  · rw [lastOf_concat]
    exact h.projectFlag
  · rw [lastOf_concat]
    exact h.environmentFlag
  · intro rule ids hnew
    obtain ⟨rfl, rfl⟩ := CascadeStage.carrying.inj hnew
    refine ⟨?_, ?_⟩
    · show p.store.links project = some found.environmentIds
      rw [links, hp]
      rfl
    · rw [lastOf_concat, ← projectFlag_eq hp]
      exact h.projectFlag
  · intro rule ids hstage
    rw [hpending] at hstage
    cases hstage

/-- The project is written to, and the caller is to write the same to the environments. -/
theorem project_step (h : Converging project flag before p trace stages)
    (hpending : stages caller = .pending) {rule : Option FlagRule} {now : Nat → Timestamp}
    {s' : Store} {reply : (Propagation.projectRequest project flag rule).Reply}
    (hs : p.store.perform now (Propagation.projectRequest project flag rule) = .ok (reply, s')) :
    Converging project flag before (p.after s')
      (trace ++ [⟨caller, Propagation.projectRequest project flag rule, .ok reply⟩])
      (Function.update stages caller (.carrying rule (Propagation.listedIn reply))) := by
  let x : Exchange := ⟨caller, Propagation.projectRequest project flag rule, .ok reply⟩
  have hwritten : x.written? = some rule := by cases rule <;> rfl
  have hcarried : x.carried? = none := by cases rule <;> rfl
  have hlinks : s'.links project = p.store.links project :=
    links_perform hs (by cases rule <;> rfl) project
  have hlast : lastOf Exchange.written? before (trace ++ [x]) = rule := by
    rw [lastOf_concat, hwritten]
    rfl
  obtain ⟨found, ⟨hp, -⟩, hids, hs'⟩ := Propagation.perform_projectRequest.1 hs
  refine h.advance (p.after s') x rfl (by rw [hs']; rfl) hlinks ?_ ?_ ?_
    (fun _ => ⟨_, _, rfl⟩) ?_ ?_
  · rw [hlast, hs']
    exact projectFlag_assign ..
  · intro id hlists hexists
    rw [lastOf_concat, hcarried]
    rw [hs'] at hexists
    have hlists' : p.store.Lists project id := by
      rw [Store.Lists, ← hlinks]
      exact hlists
    rw [← h.environmentFlag hlists' hexists, hs']
    rfl
  · intro rule' ids hnew
    obtain ⟨rfl, rfl⟩ := CascadeStage.carrying.inj hnew
    refine ⟨hlinks.trans ?_, hlast.symm⟩
    rw [links, hp, hids]
    rfl
  · intro rule' hrule
    rw [hcarried] at hrule
    cases hrule
  · intro rule' ids hstage
    rw [hpending] at hstage
    cases hstage

/-- The environments are written to. -/
theorem cascade_step (h : Converging project flag before p trace stages)
    {rule : Option FlagRule} {ids : List String} (hstage : stages caller = .carrying rule ids)
    {now : Nat → Timestamp} {s' : Store}
    {reply : (Propagation.cascadeRequest ids flag rule).Reply}
    (hs : p.store.perform now (Propagation.cascadeRequest ids flag rule) = .ok (reply, s')) :
    Converging project flag before (p.after s')
      (trace ++ [⟨caller, Propagation.cascadeRequest ids flag rule, .ok reply⟩])
      (Function.update stages caller .spread) := by
  let x : Exchange := ⟨caller, Propagation.cascadeRequest ids flag rule, .ok reply⟩
  have hwritten : x.written? = none := by cases rule <;> rfl
  have hcarried : x.carried? = some rule := by cases rule <;> rfl
  have hn := Propagation.perform_cascadeRequest hs
  have hs' := (updateEnvironmentFlags_eq_ok hn).2.frame
  refine h.advance (p.after s') x rfl (by rw [hs']; rfl) (by rw [hs']; rfl) ?_ ?_
    (fun hnew => by cases hnew) (fun hw => absurd hwritten hw) ?_ ?_
  · rw [lastOf_concat, hwritten, hs']
    exact h.projectFlag
  · intro id hlists hexists
    have hids := (h.carrying hstage).1
    obtain ⟨listed, hlisted, hmem⟩ := hlists
    have hlisted' : p.store.links project = some listed := by
      rw [← hlisted, ServiceState.after_store, hs']
      rfl
    obtain rfl := Option.some.inj (hids.symm.trans hlisted')
    rw [ServiceState.after_store, contains_updateEnvironmentFlags hn] at hexists
    rw [ServiceState.after_store, environmentFlag_updateEnvironmentFlags hn hexists, if_pos hmem,
      lastOf_concat, hcarried]
    rfl
  · intro rule' hrule
    obtain rfl := Option.some.inj (hcarried.symm.trans hrule)
    exact ⟨ids, hstage⟩
  · intro rule' ids' _ hnone
    rw [hcarried] at hnone
    cases hnone

/-- Every request that the discipline permits keeps the invariant. -/
theorem call (h : Converging project flag before p trace stages) {request : Request}
    (hpermits : CascadeStage.permits project flag (stages caller) request) :
    Converging project flag before (p.call supply request).2
      (trace ++ [⟨caller, request, (p.call supply request).1⟩])
      (Function.update stages caller
        (CascadeStage.after flag (stages caller) request (p.call supply request).1)) := by
  obtain ⟨reply, s', hs, hcall⟩ | ⟨e, hs, hcall⟩ := p.call_cases supply request
  · rw [hcall]
    cases hstage : stages caller with
    | pending =>
      rw [hstage] at hpermits
      obtain rfl | ⟨rule, rfl⟩ := hpermits
      · obtain ⟨hfound, rfl⟩ := unchanged_eq_ok.1 hs
        exact h.read_step hstage (getProject_eq_ok.1 hfound)
      · have hstep := h.project_step hstage hs
        cases rule <;> exact hstep
    | carrying rule ids =>
      rw [hstage] at hpermits
      obtain rfl : request = Propagation.cascadeRequest ids flag rule := hpermits
      have hstep := h.cascade_step hstage hs
      cases rule <;> exact hstep
    | spread | failed =>
      rw [hstage] at hpermits
      exact hpermits.elim
  · rw [hcall]
    cases hstage : stages caller with
    | pending => exact h.fail_step hstage e
    | carrying rule ids =>
      rw [hstage] at hpermits
      obtain rfl : request = Propagation.cascadeRequest ids flag rule := hpermits
      obtain ⟨reply, s', hok⟩ :=
        Propagation.exists_perform_cascadeRequest h.writes ids flag rule (supply.reading p.steps)
      have herror := hs h.faults
      rw [hok] at herror
      cases herror
    | spread | failed =>
      rw [hstage] at hpermits
      exact hpermits.elim

theorem invariant :
    (CascadeStage.discipline project flag).Invariant supply (Converging project flag before) where
  call h hpermits := h.call hpermits
  name _ hnames := hnames.elim
  tick h := h.of_store rfl rfl
  count h := h.of_store rfl rfl

end Converging

/-! ### Runs -/

namespace Pool

variable {project flag : String} {before : Option FlagRule} {pool : Pool}

/-- Calls that are made at once to a service whose environments agree with the project. -/
theorem follows_cascades {p : ServiceState} (hfaults : p.faults = [])
    (hwrites : p.store.environmentWritesFail = false)
    (hagree : ∀ id, p.store.Lists project id → p.store.environments.contains id = true →
      p.store.environmentFlag id flag = p.store.projectFlag project flag)
    {commands : List Command} (hcommands : ∀ c ∈ commands, c.Cascades project flag) :
    (ofCommands p commands).Follows (CascadeStage.discipline project flag) CascadeStage.ends
      (Converging project flag (p.store.projectFlag project flag)) := by
  refine ⟨fun _ => .pending, fun _ _ => rfl, fun i call hcall => ?_, ?_⟩
  · obtain ⟨command, hmem, rfl⟩ := List.mem_map.1 (List.mem_of_getElem? hcall)
    exact CascadeStage.obeys (hcommands command hmem)
  · exact
      { faults := hfaults
        writes := hwrites
        projectFlag := rfl
        environmentFlag := fun hlists hexists => hagree _ hlists hexists
        carrying := fun hstage => by cases hstage
        sourced := fun htrace => absurd htrace (by simp [ofCommands])
        spread := fun hx => absurd hx (by simp [ofCommands]) }

/-- When no call is in flight and something is listed, whatever has been written to the project has
been followed by a bulk write. -/
theorem Follows.agrees_or_overtaken
    (h : pool.Follows (CascadeStage.discipline project flag) CascadeStage.ends
      (Converging project flag before))
    (hquiet : pool.Quiet) {id : String} (hlists : pool.service.store.Lists project id)
    (hexists : pool.service.store.environments.contains id = true) :
    pool.service.store.environmentFlag id flag = pool.service.store.projectFlag project flag ∨
      Overtaken pool.trace := by
  obtain ⟨stages, hbeyond, hobeys, hinv⟩ := h
  rw [hinv.environmentFlag hlists hexists, hinv.projectFlag]
  by_cases hbulk : ∃ y ∈ pool.trace, y.carried? ≠ none
  · -- the last bulk write carried what its call had seen, so only a later write can differ
    obtain ⟨pre, y, rest, htrace, hy, hrest⟩ := exists_last Exchange.carried? hbulk
    obtain ⟨rule, hrule⟩ := Option.ne_none_iff_exists'.1 hy
    obtain ⟨first, x, between, rfl, hcaller, hsource⟩ := hinv.sourced htrace hrule
    by_cases hlater : ∃ z ∈ between ++ rest, z.written? ≠ none
    · exact .inr ⟨first, x, between, y, rest, by rw [htrace], hcaller, hy, hrest, hlater⟩
    · left
      have hsilent : ∀ z ∈ between ++ y :: rest, z.written? = none := by
        intro z hz
        by_contra hw
        rcases List.mem_append.1 hz with hz | hz
        · exact hlater ⟨z, List.mem_append_left _ hz, hw⟩
        · rcases List.mem_cons.1 hz with rfl | hz
          · exact hw (Exchange.written?_of_carried? hy)
          · exact hlater ⟨z, List.mem_append_right _ hz, hw⟩
      have hcarried : lastOf Exchange.carried? before pool.trace = rule := by
        rw [htrace]
        exact lastOf_last _ _ hrule hrest
      have hwritten : lastOf Exchange.written? before pool.trace = rule := by
        rw [htrace, show first ++ x :: between ++ y :: rest
          = first ++ [x] ++ (between ++ y :: rest) by simp, lastOf_append, ← hsource]
        exact lastOf_of_silent _ _ hsilent
      rw [hcarried, hwritten]
  · -- every write would have been followed by a bulk write, so there was none
    left
    have hcarried : ∀ y ∈ pool.trace, y.carried? = none := by
      intro y hy
      by_contra hc
      exact hbulk ⟨y, hy, hc⟩
    have hwritten : ∀ x ∈ pool.trace, x.written? = none := by
      intro x hx
      by_contra hw
      obtain ⟨rule, ids, hstage⟩ | hsome := hinv.spread hx hw
      · have hstarted : stages x.caller ≠ .pending := by
          rw [hstage]
          intro hpending
          cases hpending
        obtain ⟨command, outcome, -, hends⟩ := hquiet.exists_ended hbeyond hobeys hstarted
        rw [hstage] at hends
        obtain ⟨listed, hlisted, hid⟩ := hlists
        obtain rfl := Option.some.inj ((hinv.carrying hstage).1.symm.trans hlisted)
        rw [show ids = [] from hends] at hid
        cases hid
      · exact hbulk hsome
    rw [lastOf_of_silent _ _ hcarried, lastOf_of_silent _ _ hwritten]

/-- **Cascades of one flag beside each other.**  If the environments agree with the project on a
flag, then after calls that add, remove or resync this flag, in whatever order their steps came,
each environment that the project lists has the flag as the bulk write that came last carried it,
and the project has it as it was written last.  So they agree again, unless a write to the project
has succeeded after the first request of the call whose bulk write came last. -/
theorem cascades_agree_unless_overtaken {p : ServiceState} (hfaults : p.faults = [])
    (hwrites : p.store.environmentWritesFail = false)
    (hagree : ∀ id, p.store.Lists project id → p.store.environments.contains id = true →
      p.store.environmentFlag id flag = p.store.projectFlag project flag)
    {commands : List Command} (hcommands : ∀ c ∈ commands, c.Cascades project flag)
    (schedule : List Nat) :
    let pool := (ofCommands p commands).steps supply schedule
    let before := p.store.projectFlag project flag
    pool.Quiet →
      pool.service.store.projectFlag project flag
          = lastOf Exchange.written? before pool.trace ∧
        ∀ id, pool.service.store.Lists project id →
          pool.service.store.environments.contains id = true →
          pool.service.store.environmentFlag id flag
              = lastOf Exchange.carried? before pool.trace ∧
            (¬ Overtaken pool.trace → pool.service.store.environmentFlag id flag
              = pool.service.store.projectFlag project flag) := by
  intro pool before hquiet
  have hstart := follows_cascades hfaults hwrites hagree hcommands
  have hfollows : pool.Follows _ _ _ := hstart.steps Converging.invariant schedule
  obtain ⟨stages, -, -, hinv⟩ := id hfollows
  refine ⟨hinv.projectFlag, fun id hlists hexists => ⟨hinv.environmentFlag hlists hexists, ?_⟩⟩
  intro hnot
  exact (hfollows.agrees_or_overtaken hquiet hlists hexists).resolve_right hnot

theorem shopTest_agrees (id : String) (hlists : ServiceState.shopTest.store.Lists "shop" id) :
    ServiceState.shopTest.store.environmentFlag id "dark"
      = ServiceState.shopTest.store.projectFlag "shop" "dark" := by
  have hlinks : ServiceState.shopTest.store.links "shop" = some [Supply.counting.id 5] := by
    decide +kernel
  obtain ⟨ids, hids, hid⟩ := hlists
  obtain rfl := Option.some.inj (hlinks.symm.trans hids)
  obtain rfl := List.mem_singleton.1 hid
  have henvironment : ServiceState.shopTest.store.environmentFlag (Supply.counting.id 5) "dark"
      = none := Option.isNone_iff_eq_none.1 (by decide +kernel)
  have hproject : ServiceState.shopTest.store.projectFlag "shop" "dark" = none :=
    Option.isNone_iff_eq_none.1 (by decide +kernel)
  rw [henvironment, hproject]

/-- A run in which a flag is added and resynced at once. -/
theorem cascades_agree_added_resynced :
    let commands : List Command :=
      [.addFlag "shop" ⟨"dark", default⟩, .resyncFlag "shop" "dark"]
    let pool := (ofCommands .shopTest commands).steps Supply.counting [0, 1, 1, 0, 0, 1]
    (∀ c ∈ commands, c.Cascades "shop" "dark") ∧ pool.Quiet ∧
      pool.service.store.projectFlag "shop" "dark"
          = lastOf Exchange.written? (ServiceState.shopTest.store.projectFlag "shop" "dark")
            pool.trace ∧
      ∀ id, pool.service.store.Lists "shop" id →
        pool.service.store.environments.contains id = true →
        pool.service.store.environmentFlag id "dark"
            = lastOf Exchange.carried? (ServiceState.shopTest.store.projectFlag "shop" "dark")
              pool.trace ∧
          (¬ Overtaken pool.trace → pool.service.store.environmentFlag id "dark"
            = pool.service.store.projectFlag "shop" "dark") := by
  have hcommands : ∀ c ∈ [Command.addFlag "shop" ⟨"dark", default⟩, .resyncFlag "shop" "dark"],
      c.Cascades "shop" "dark" := by
    simp [Command.Cascades]
  have hquiet : ((ofCommands .shopTest [.addFlag "shop" ⟨"dark", default⟩,
      .resyncFlag "shop" "dark"]).steps Supply.counting [0, 1, 1, 0, 0, 1]).Quiet := by
    decide +kernel
  exact ⟨hcommands, hquiet, cascades_agree_unless_overtaken rfl rfl
    (fun id hlists _ => shopTest_agrees id hlists) hcommands _ hquiet⟩

/-- Without the exception the statement fails: in this run a flag is added to the project and
removed from it again, but comes to the environment after it has been removed there. -/
theorem cascades_not_always_converge :
    ¬ ∀ (supply : Supply) (p : ServiceState) (project flag : String) (commands : List Command)
      (schedule : List Nat),
      p.faults = [] → p.store.environmentWritesFail = false → p.store.projectLinksFail = false →
      p.store.projects.contains project = true →
      (∀ id, p.store.Lists project id → p.store.environments.contains id = true →
        p.store.environmentFlag id flag = p.store.projectFlag project flag) →
      (∀ c ∈ commands, c.Cascades project flag) →
      let pool := (ofCommands p commands).steps supply schedule
      pool.Quiet → ∀ id, pool.service.store.Lists project id →
        pool.service.store.environments.contains id = true →
        pool.service.store.environmentFlag id flag
          = pool.service.store.projectFlag project flag := by
  intro h
  have hagrees := h Supply.counting .shopTest "shop" "dark"
    [.addFlag "shop" ⟨"dark", default⟩, .removeFlag "shop" "dark"] [0, 1, 1, 0, 0, 1] rfl rfl rfl
    rfl (fun id hlists _ => shopTest_agrees id hlists) (by simp [Command.Cascades])
    (by decide +kernel) (Supply.counting.id 5) (by decide +kernel) (by decide +kernel)
  have hholds := congrArg Option.isSome hagrees
  revert hholds
  decide +kernel

end Pool

end FeatureFlags

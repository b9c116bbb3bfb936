import FeatureFlags.Proofs.Concurrent.Pool

/-!
Calls that want the same name.

A name is taken in one request, which fails where the name is taken already.  So of several calls
that want one name, whatever the order of their steps, exactly one gets it: the first whose request
reaches the store.  `Race` is where a call stands, `Race.Standing` that at most one has won and the
others can only lose to it; both races, for the flags of a project and for projects, are instances.
The winner of a flag goes on to write it to the environments, while the losers never get so far, and
so nothing else is written there (`Pool.names_have_one_winner`).
-/

namespace FeatureFlags

open Store

variable {β : Type} {supply : Supply}

/-- Where a call stands that wants a name: it has not asked, it has got the name and with it a
prize, or it was refused. -/
inductive Race (β : Type) where
  | running
  | won (prize : β)
  | lost (error : StoreError)

namespace Race

/-- Either nobody has asked yet and the name is free, or one call has won and all others either have
not asked or have been refused because the name is taken. -/
inductive Standing (taken : StoreError) (free : Prop) (held : β → Prop) (calls : Nat → Race β) :
    Prop
  | undecided (hfree : free) (hrunning : ∀ i, calls i = .running)
  | decided (winner : Nat) (prize : β) (hheld : held prize) (hwinner : calls winner = .won prize)
      (hothers : ∀ i, i ≠ winner → calls i = .running ∨ calls i = .lost taken)

namespace Standing

variable {taken : StoreError} {free free' : Prop} {held held' : β → Prop} {calls : Nat → Race β}
  {caller : Nat} {prize : β}

/-- Where a name is free, nobody has it, and the one who asks gets it. -/
theorem win (h : Standing taken free held calls) (hopen : ∀ prize, ¬ held prize)
    (hheld : held' prize) :
    Standing taken free' held' (Function.update calls caller (.won prize)) := by
  cases h with
  | undecided hfree hrunning =>
    refine .decided caller prize hheld (Function.update_self ..) fun i hi => .inl ?_
    rw [Function.update_of_ne hi]
    exact hrunning i
  | decided winner other hother => exact absurd hother (hopen other)

theorem exists_held (h : Standing taken free held calls) (hclosed : ¬ free) :
    ∃ prize, held prize := by
  cases h with
  | undecided hfree hrunning => exact absurd hfree hclosed
  | decided winner prize hheld hwinner hothers => exact ⟨prize, hheld⟩

/-- Where a name is taken, the one who asks loses. -/
theorem lose (h : Standing taken free held calls) (hclosed : ¬ free)
    (hcaller : calls caller = .running) :
    Standing taken free held (Function.update calls caller (.lost taken)) := by
  cases h with
  | undecided hfree hrunning => exact absurd hfree hclosed
  | decided winner prize hheld hwinner hothers =>
    have hne : winner ≠ caller := by
      rintro rfl
      cases hwinner.symm.trans hcaller
    refine .decided winner prize hheld ?_ fun i hi => ?_
    · rw [Function.update_of_ne hne, hwinner]
    · by_cases hic : i = caller
      · exact .inr (by rw [hic, Function.update_self])
      · rw [Function.update_of_ne hic]
        exact hothers i hi

/-- Whoever has won is the one winner. -/
theorem held_of_won (h : Standing taken free held calls) (hcaller : calls caller = .won prize) :
    held prize ∧ ∀ i, i ≠ caller → calls i = .running ∨ calls i = .lost taken := by
  cases h with
  | undecided hfree hrunning => cases (hrunning caller).symm.trans hcaller
  | decided winner other hheld hwinner hothers =>
    by_cases heq : caller = winner
    · subst heq
      obtain rfl := Race.won.inj (hwinner.symm.trans hcaller)
      exact ⟨hheld, hothers⟩
    · rcases hothers caller heq with hrunning | hlost
      · cases hrunning.symm.trans hcaller
      · cases hlost.symm.trans hcaller

/-- The winner goes on. -/
theorem advance (h : Standing taken free held calls) (hcaller : calls caller = .won prize)
    {prize' : β} (hheld : held' prize') :
    Standing taken free' held' (Function.update calls caller (.won prize')) := by
  refine .decided caller prize' hheld (Function.update_self ..) fun i hi => ?_
  rw [Function.update_of_ne hi]
  exact (h.held_of_won hcaller).2 i hi

end Standing

end Race

/-- When no call is in flight, one has won, and all others have been refused. -/
theorem Pool.Quiet.one_winner {pool : Pool} (hquiet : pool.Quiet) (hcalls : pool.calls ≠ [])
    {d : Discipline (Race β)}
    {ends : Race β → (command : Command) → Except ApiError command.Result → Prop}
    {calls : Nat → Race β}
    (hobeys : ∀ i (call : Call), pool.calls[i]? = some call →
      call.rest.Obeys d (fun phase => ends phase call.command) (calls i))
    (hbeyond : ∀ i, pool.calls.length ≤ i → calls i = .running)
    (hrunning : ∀ {command outcome}, ¬ ends .running command outcome)
    (hlost : ∀ {e command outcome}, ends (.lost e) command outcome → outcome = .error (.ofStore e))
    {taken : StoreError} {free : Prop} {held : β → Prop}
    (h : Race.Standing taken free held calls) :
    ∃ (i : Nat) (prize : β) (command : Command) (outcome : Except ApiError command.Result),
      held prize ∧ pool.calls[i]? = some ⟨command, .done outcome⟩ ∧
        ends (.won prize) command outcome ∧
        ∀ j (call : Call), j ≠ i → pool.calls[j]? = some call →
          call.rest = .done (.error (.ofStore taken)) := by
  -- a call ends in a phase that fits its result, so it does not still run
  have hended : ∀ i (call : Call), pool.calls[i]? = some call →
      ∃ (command : Command) (outcome : Except ApiError command.Result),
        call = ⟨command, .done outcome⟩ ∧ ends (calls i) command outcome := by
    intro i call hcall
    obtain ⟨command, outcome, rfl⟩ := Call.eq_done (hquiet call (List.mem_of_getElem? hcall))
    exact ⟨command, outcome, rfl, hobeys i _ hcall⟩
  cases h with
  | undecided hfree hall =>
    obtain ⟨call, rest, hcons⟩ := List.exists_cons_of_ne_nil hcalls
    obtain ⟨command, outcome, -, hends⟩ := hended 0 call (by rw [hcons]; rfl)
    rw [hall 0] at hends
    exact absurd hends hrunning
  | decided winner prize hheld hwinner hothers =>
    have hlt : winner < pool.calls.length := by
      by_contra hge
      cases hwinner.symm.trans (hbeyond winner (Nat.le_of_not_lt hge))
    obtain ⟨command, outcome, hcall, hends⟩ := hended winner _ (List.getElem?_eq_getElem hlt)
    rw [hwinner] at hends
    refine ⟨winner, prize, command, outcome, hheld, ?_, hends, fun j call hj hother => ?_⟩
    · rw [List.getElem?_eq_getElem hlt, hcall]
    · obtain ⟨_, outcome', rfl, hends'⟩ := hended j call hother
      rcases hothers j hj with hphase | hphase
      · rw [hphase] at hends'
        exact absurd hends' hrunning
      · rw [hphase] at hends'
        exact congrArg Program.done (hlost hends')

/-! ### A flag of a project -/

/-- How far the write of a flag has come. -/
inductive Spreading where
  /-- The flag is to be written to these environments. -/
  | towards (ids : List String)
  | complete
  | failed

namespace FlagRace

variable (project flag : String)

/-- What a call may ask for. -/
def permits : Race (FlagRule × Spreading) → Request → Prop
  | .running, request => ∃ rule, request = .insertProjectFlag project flag rule
  | .won (rule, .towards ids), request => request = .setEnvironmentsFlag ids flag rule
  | _, _ => False

def after : Race (FlagRule × Spreading) → (request : Request) →
    Except StoreError request.Reply → Race (FlagRule × Spreading)
  | .running, .insertProjectFlag _ _ rule, .ok (ids : List String) => .won (rule, .towards ids)
  | .running, _, .error e => .lost e
  | .won (rule, _), _, .ok _ => .won (rule, .complete)
  | .won (rule, _), _, .error _ => .won (rule, .failed)
  | phase, _, _ => phase

/-- A call ends with its flag if it has won and the flag has come to all environments. -/
def ends : Race (FlagRule × Spreading) → (command : Command) →
    Except ApiError command.Result → Prop
  | .won (rule, stage), .addFlag _ added, outcome =>
    stage = .failed ∨
      (stage = .complete ∨ stage = .towards []) ∧ added.rule = rule ∧ outcome = .ok added
  | .lost e, _, outcome => outcome = .error (.ofStore e)
  | _, _, _ => False

def discipline : Discipline (Race (FlagRule × Spreading)) where
  start := .running
  permits := permits project flag
  after := after
  names _ := False
  named phase _ := phase

variable {project flag : String}

theorem obeys (rule : FlagRule) :
    (Command.addFlag project ⟨flag, rule⟩).program.Obeys (discipline project flag)
      (fun phase => ends phase (.addFlag project ⟨flag, rule⟩)) .running := by
  refine Action.obeys_store ⟨rule, rfl⟩ (fun ids => ?_) (fun _ => rfl)
  have hpermits : permits project flag (.won (rule, .towards ids))
      (Propagation.cascadeRequest ids flag (some rule)) := rfl
  refine Propagation.obeys_cascade (fun hnil => ?_) hpermits (fun _ _ => ?_) (fun _ => .inl rfl)
  · exact .inr ⟨.inr (congrArg Spreading.towards hnil), rfl, rfl⟩
  · exact .inr ⟨.inl rfl, rfl, rfl⟩

/-- The project exists and does not have the flag. -/
def Free (project flag : String) (s : Store) : Prop :=
  ∃ found, s.projects.get? project = some found ∧ found.flags.get? flag = none

/-- The project has the flag as the winner wrote it, and so have its environments when the winner is
through. -/
def Held (project flag : String) (s : Store) : FlagRule × Spreading → Prop
  | (rule, stage) => ∃ found, s.projects.get? project = some found ∧
      found.flags.get? flag = some rule ∧
      match stage with
      | .towards ids => ids = found.environmentIds
      | .complete => ∀ id ∈ found.environmentIds, s.environments.contains id = true →
          s.environmentFlag id flag = some rule
      | .failed => False

theorem not_held_of_free {s : Store} (h : Free project flag s) (prize : FlagRule × Spreading) :
    ¬ Held project flag s prize := by
  rintro ⟨found, hp, hflag, -⟩
  obtain ⟨found', hp', hnone⟩ := h
  obtain rfl := Option.some.inj (hp.symm.trans hp')
  cases hnone.symm.trans hflag

theorem insertProjectFlag_of_taken {s : Store} {found : Project} {old : FlagRule}
    (hp : s.projects.get? project = some found) (hflag : found.flags.get? flag = some old)
    (rule : FlagRule) (now : Timestamp) :
    s.insertProjectFlag project flag rule now = .error (.alreadyExists .flag) := by
  have hcontains : found.flags.contains flag = true := by
    rw [SortedMap.contains, hflag]
    rfl
  simp only [insertProjectFlag, updateProject, hp, hcontains, if_true]

/-- The invariant of the race. -/
structure Contested (project flag : String) (p : ServiceState)
    (calls : Nat → Race (FlagRule × Spreading)) : Prop where
  faults : p.faults = []
  writes : p.store.environmentWritesFail = false
  standing : Race.Standing (.alreadyExists .flag) (Free project flag p.store)
    (Held project flag p.store) calls

namespace Contested

variable {p : ServiceState} {calls : Nat → Race (FlagRule × Spreading)} {caller : Nat}

/-- A call asks for the flag. -/
theorem ask (h : Contested project flag p calls) (hcaller : calls caller = .running)
    (rule : FlagRule) :
    let sent := Request.insertProjectFlag project flag rule
    Contested project flag (p.call supply sent).2
      (Function.update calls caller (after .running sent (p.call supply sent).1)) := by
  intro sent
  obtain ⟨ids, s', hs, hcall⟩ | ⟨e, hs, hcall⟩ := p.call_cases supply sent
  · -- the flag was not there, so the caller has won
    obtain ⟨found, hp, hnone, rfl, rfl⟩ := insertProjectFlag_eq_ok.1 hs
    rw [hcall]
    refine ⟨h.faults, h.writes, h.standing.win (not_held_of_free ⟨found, hp, hnone⟩) ?_⟩
    let now := supply.reading p.steps 0
    refine ⟨found.assign flag (some rule) now, ?_, ?_, rfl⟩
    · exact (SortedMap.get?_insert ..).trans (if_pos rfl)
    · rw [Project.assign, FlagMap.get?_assign, if_pos rfl]
  · have herror : p.store.insertProjectFlag project flag rule (supply.reading p.steps 0)
        = .error e := hs h.faults
    have hclosed : ¬ Free project flag p.store := by
      rintro ⟨found, hp, hnone⟩
      cases herror.symm.trans (insertProjectFlag_eq_ok.2 ⟨found, hp, hnone, rfl, rfl⟩)
    obtain ⟨_, found, hp, hflag, -⟩ := h.standing.exists_held hclosed
    cases herror.symm.trans (insertProjectFlag_of_taken hp hflag rule _)
    rw [hcall]
    exact ⟨h.faults, h.writes, h.standing.lose hclosed hcaller⟩

/-- The winner writes its flag to the environments. -/
theorem spread (h : Contested project flag p calls) {rule : FlagRule} {ids : List String}
    (hcaller : calls caller = .won (rule, .towards ids)) :
    let sent := Request.setEnvironmentsFlag ids flag rule
    Contested project flag (p.call supply sent).2
      (Function.update calls caller
        (after (.won (rule, .towards ids)) sent (p.call supply sent).1)) := by
  intro sent
  obtain ⟨n, s', hs, hcall⟩ | ⟨e, hs, hcall⟩ := p.call_cases supply sent
  · have hn : p.store.updateEnvironmentFlags ids (·.assign flag (some rule))
        (supply.reading p.steps) = .ok (n, s') := hs
    have hframe := (updateEnvironmentFlags_eq_ok hn).2.frame
    obtain ⟨found, hp, hflag, hids⟩ := (h.standing.held_of_won hcaller).1
    rw [hcall]
    refine ⟨h.faults, ?_, h.standing.advance hcaller ⟨found, ?_, hflag, fun id hid hexists => ?_⟩⟩
    · rw [ServiceState.after_store, hframe]
      exact h.writes
    · rw [ServiceState.after_store, hframe]
      exact hp
    · rw [ServiceState.after_store, contains_updateEnvironmentFlags hn] at hexists
      rw [ServiceState.after_store, environmentFlag_updateEnvironmentFlags hn hexists, hids,
        if_pos hid]
  · -- nothing makes the write fail
    obtain ⟨result, hok⟩ := exists_updateEnvironmentFlags h.writes ids
      (·.insert flag rule) (supply.reading p.steps)
    have herror : p.store.updateEnvironmentFlags ids (·.insert flag rule)
        (supply.reading p.steps) = .error e := hs h.faults
    cases herror.symm.trans hok

theorem call (h : Contested project flag p calls) {request : Request}
    (hpermits : permits project flag (calls caller) request) :
    Contested project flag (p.call supply request).2
      (Function.update calls caller (after (calls caller) request (p.call supply request).1)) := by
  cases hcaller : calls caller with
  | running =>
    rw [hcaller] at hpermits
    obtain ⟨rule, rfl⟩ := hpermits
    exact h.ask hcaller rule
  | lost e =>
    rw [hcaller] at hpermits
    exact hpermits.elim
  | won prize =>
    rw [hcaller] at hpermits
    obtain ⟨rule, _ | _ | _⟩ := prize
    · obtain rfl : request = _ := hpermits
      exact h.spread hcaller
    · exact hpermits.elim
    · exact hpermits.elim

theorem invariant : (discipline project flag).Invariant supply
    (fun p _ calls => Contested project flag p calls) where
  call h hpermits := h.call hpermits
  name _ hnames := hnames.elim
  tick h := ⟨h.faults, h.writes, h.standing⟩
  count h := ⟨h.faults, h.writes, h.standing⟩

end Contested

end FlagRace

/-! ### A project -/

namespace ProjectRace

variable (name : String)

/-- What a call may ask for. -/
def permits : Race Project → Request → Prop
  | .running, request => ∃ project, request = .insertProject project ∧ project.name = name
  | _, _ => False

def after : Race Project → (request : Request) → Except StoreError request.Reply → Race Project
  | .running, .insertProject project, .ok _ => .won project
  | .running, _, .error e => .lost e
  | phase, _, _ => phase

/-- A call ends with the project that it has inserted. -/
def ends : Race Project → (command : Command) → Except ApiError command.Result → Prop
  | .won project, .createProject _, outcome => outcome = .ok project
  | .lost e, _, outcome => outcome = .error (.ofStore e)
  | _, _, _ => False

def discipline : Discipline (Race Project) where
  start := .running
  permits := permits name
  after := after
  names _ := True
  named phase _ := phase

theorem obeys : (Command.createProject name).program.Obeys (discipline name)
    (fun phase => ends phase (.createProject name)) .running := by
  intro now
  refine ⟨trivial, fun id => ?_⟩
  exact Action.obeys_store ⟨_, rfl, rfl⟩ (fun _ => rfl) (fun _ => rfl)

/-- Nothing but a project of the name makes its insertion fail. -/
theorem perform_insertProject_eq_error {s : Store} {now : Nat → Timestamp} {project : Project}
    {e : StoreError} (h : s.perform now (.insertProject project) = .error e) :
    e = .alreadyExists .project ∧ s.projects.get? project.name ≠ none := by
  rw [perform, insertProject] at h
  split at h
  case isTrue htaken =>
    refine ⟨(Except.error.inj h).symm, fun hnone => ?_⟩
    rw [SortedMap.contains_eq_false_iff.2 hnone] at htaken
    cases htaken
  case isFalse => cases h

/-- The invariant of the race. -/
structure Contested (p : ServiceState) (calls : Nat → Race Project) : Prop where
  faults : p.faults = []
  standing : Race.Standing (.alreadyExists .project) (p.store.projects.get? name = none)
    (fun project => p.store.projects.get? name = some project) calls

namespace Contested

variable {name : String} {p : ServiceState} {calls : Nat → Race Project} {caller : Nat}

/-- A call asks for the name. -/
theorem ask (h : Contested name p calls) (hcaller : calls caller = .running) {project : Project}
    (hname : project.name = name) :
    let sent := Request.insertProject project
    Contested name (p.call supply sent).2
      (Function.update calls caller (after .running sent (p.call supply sent).1)) := by
  intro sent
  subst hname
  obtain ⟨_, s', hs, hcall⟩ | ⟨e, hs, hcall⟩ := p.call_cases supply sent
  · obtain ⟨hnone, rfl⟩ := insertProject_eq_ok.1 (silent_eq_ok.1 hs)
    rw [hcall]
    refine ⟨h.faults, h.standing.win (fun other hother => ?_) ?_⟩
    · cases hnone.symm.trans hother
    · exact (SortedMap.get?_insert ..).trans (if_pos rfl)
  · obtain ⟨rfl, htaken⟩ := perform_insertProject_eq_error (hs h.faults)
    rw [hcall]
    exact ⟨h.faults, h.standing.lose htaken hcaller⟩

theorem call (h : Contested name p calls) {request : Request}
    (hpermits : permits name (calls caller) request) :
    Contested name (p.call supply request).2
      (Function.update calls caller (after (calls caller) request (p.call supply request).1)) := by
  cases hcaller : calls caller with
  | running =>
    rw [hcaller] at hpermits
    obtain ⟨project, rfl, hname⟩ := hpermits
    exact h.ask hcaller hname
  | won | lost =>
    rw [hcaller] at hpermits
    exact hpermits.elim

theorem invariant : (discipline name).Invariant supply
    (fun p _ calls => Contested name p calls) where
  call h hpermits := h.call hpermits
  name {p trace calls caller} h _ := by
    show Contested name _ (Function.update calls caller (calls caller))
    rw [Function.update_eq_self]
    exact ⟨h.faults, h.standing⟩
  tick h := ⟨h.faults, h.standing⟩
  count h := ⟨h.faults, h.standing⟩

end Contested

end ProjectRace

/-! ### Runs -/

namespace Pool

variable {p : ServiceState}

theorem calls_steps_ne_nil {commands : List Command} (h : commands ≠ []) (schedule : List Nat) :
    ((ofCommands p commands).steps supply schedule).calls ≠ [] := by
  intro hnil
  have hfirst := command_steps supply (ofCommands p commands) schedule 0
  rw [hnil] at hfirst
  cases commands with
  | nil => exact h rfl
  | cons command rest => cases hfirst

/-- The calls of a pool are of the commands that it was made of. -/
theorem command_of_steps {commands : List Command} {schedule : List Nat} {i : Nat} {call : Call}
    (h : ((ofCommands p commands).steps supply schedule).calls[i]? = some call) :
    commands[i]? = some call.command := by
  have hsame := command_steps supply (ofCommands p commands) schedule i
  rw [h, ofCommands, List.getElem?_map, Option.map_map] at hsame
  have hid : (Call.command ∘ Call.new) = id := rfl
  rw [hid, Option.map_id] at hsame
  exact hsame.symm

/-- Of the calls that add one flag, one succeeds, and its rule is the one that stays. -/
theorem one_adds_flag (hfaults : p.faults = []) (hwrites : p.store.environmentWritesFail = false)
    {project flag : String} (hfree : FlagRace.Free project flag p.store) {rules : List FlagRule}
    (hrules : rules ≠ []) (schedule : List Nat) :
    let commands := rules.map fun rule => Command.addFlag project ⟨flag, rule⟩
    let pool := (ofCommands p commands).steps supply schedule
    pool.Quiet → ∃ (i : Nat) (rule : FlagRule), rules[i]? = some rule ∧
      pool.calls[i]? = some ⟨.addFlag project ⟨flag, rule⟩, .done (.ok ⟨flag, rule⟩)⟩ ∧
      (∀ (j : Nat) (call : Call), j ≠ i → pool.calls[j]? = some call →
        call.rest = .done (.error (.alreadyExists .flag))) ∧
      pool.service.store.projectFlag project flag = some rule ∧
      ∀ id, pool.service.store.Lists project id →
        pool.service.store.environments.contains id = true →
        pool.service.store.environmentFlag id flag = some rule := by
  intro commands pool hquiet
  have hstart : (ofCommands p commands).Follows (FlagRace.discipline project flag) FlagRace.ends
      (fun p _ calls => FlagRace.Contested project flag p calls) := by
    refine ⟨fun _ => .running, fun _ _ => rfl, fun i call hcall => ?_, hfaults, hwrites,
      .undecided hfree fun _ => rfl⟩
    obtain ⟨command, hmem, rfl⟩ := List.mem_map.1 (List.mem_of_getElem? hcall)
    obtain ⟨rule, -, rfl⟩ := List.mem_map.1 hmem
    exact FlagRace.obeys rule
  obtain ⟨calls, hbeyond, hobeys, hcontested⟩ :=
    hstart.steps FlagRace.Contested.invariant schedule
  have hcalls : pool.calls ≠ [] := calls_steps_ne_nil (by simpa [commands] using hrules) schedule
  obtain ⟨i, ⟨rule, stage⟩, command, outcome, ⟨found, hp, hflag, hstage⟩, hcall, hends, hothers⟩ :=
    hquiet.one_winner hcalls hobeys hbeyond (fun h => h) (fun h => h) hcontested.standing
  have hcommand := command_of_steps hcall
  rw [List.getElem?_map] at hcommand
  obtain ⟨rule', hrule, rfl⟩ := Option.map_eq_some_iff.1 hcommand
  obtain rfl | ⟨hthrough, rfl, rfl⟩ := hends
  case inl => exact hstage.elim
  refine ⟨i, rule', hrule, hcall, hothers, (projectFlag_eq hp flag).trans hflag,
    fun id hlists hexists => ?_⟩
  have hid : id ∈ found.environmentIds := (lists_iff hp).1 hlists
  rcases hthrough with rfl | rfl
  · exact hstage id hid hexists
  · have hnil : [] = found.environmentIds := hstage
    rw [← hnil] at hid
    cases hid

/-- Of the calls that create one project, one succeeds, and its project is the one that stays. -/
theorem one_creates_project (hfaults : p.faults = []) {name : String}
    (hfree : p.store.projects.get? name = none) {n : Nat} (hn : 1 ≤ n) (schedule : List Nat) :
    let commands := List.replicate n (Command.createProject name)
    let pool := (ofCommands p commands).steps supply schedule
    pool.Quiet → ∃ (i : Nat) (project : Project),
      pool.calls[i]? = some ⟨.createProject name, .done (.ok project)⟩ ∧
      (∀ (j : Nat) (call : Call), j ≠ i → pool.calls[j]? = some call →
        call.rest = .done (.error (.alreadyExists .project))) ∧
      pool.service.store.projects.get? name = some project := by
  intro commands pool hquiet
  have hstart : (ofCommands p commands).Follows (ProjectRace.discipline name) ProjectRace.ends
      (fun p _ calls => ProjectRace.Contested name p calls) := by
    refine ⟨fun _ => .running, fun _ _ => rfl, fun i call hcall => ?_, hfaults,
      .undecided hfree fun _ => rfl⟩
    obtain ⟨command, hmem, rfl⟩ := List.mem_map.1 (List.mem_of_getElem? hcall)
    obtain rfl := List.eq_of_mem_replicate hmem
    exact ProjectRace.obeys name
  obtain ⟨calls, hbeyond, hobeys, hcontested⟩ :=
    hstart.steps ProjectRace.Contested.invariant schedule
  have hcommands : commands ≠ [] := by
    rw [Ne, List.replicate_eq_nil_iff]
    omega
  obtain ⟨i, project, command, outcome, hheld, hcall, hends, hothers⟩ :=
    hquiet.one_winner (calls_steps_ne_nil hcommands schedule) hobeys hbeyond (fun h => h)
      (fun h => h) hcontested.standing
  obtain rfl := List.eq_of_mem_replicate (List.mem_of_getElem? (command_of_steps hcall))
  obtain rfl : outcome = .ok project := hends
  exact ⟨i, project, hcall, hothers, hheld⟩

/-- **Names have one winner**: of any number of calls that add one flag to a project that does not
have it, whatever the order of their steps, exactly one succeeds and the others are told that the
flag exists; and when all are through, the project and the environments that it lists have the rule
of the one that succeeded.  In the same way exactly one of the calls that create a project of an
unused name succeeds, and its project is the one in the store. -/
theorem names_have_one_winner (supply : Supply) (p : ServiceState) (hfaults : p.faults = []) :
    (∀ (project flag : String) (rules : List FlagRule) (schedule : List Nat),
      p.store.environmentWritesFail = false → p.store.projects.contains project = true →
      p.store.projectFlag project flag = none → rules ≠ [] →
      let commands := rules.map fun rule => Command.addFlag project ⟨flag, rule⟩
      let pool := (ofCommands p commands).steps supply schedule
      pool.Quiet → ∃ (i : Nat) (rule : FlagRule), rules[i]? = some rule ∧
        pool.calls[i]? = some ⟨.addFlag project ⟨flag, rule⟩, .done (.ok ⟨flag, rule⟩)⟩ ∧
        (∀ (j : Nat) (call : Call), j ≠ i → pool.calls[j]? = some call →
          call.rest = .done (.error (.alreadyExists .flag))) ∧
        pool.service.store.projectFlag project flag = some rule ∧
        ∀ id, pool.service.store.Lists project id →
          pool.service.store.environments.contains id = true →
          pool.service.store.environmentFlag id flag = some rule) ∧
    ∀ (name : String) (n : Nat) (schedule : List Nat),
      p.store.projects.contains name = false → 1 ≤ n →
      let commands := List.replicate n (Command.createProject name)
      let pool := (ofCommands p commands).steps supply schedule
      pool.Quiet → ∃ (i : Nat) (project : Project),
        pool.calls[i]? = some ⟨.createProject name, .done (.ok project)⟩ ∧
        (∀ (j : Nat) (call : Call), j ≠ i → pool.calls[j]? = some call →
          call.rest = .done (.error (.alreadyExists .project))) ∧
        pool.service.store.projects.get? name = some project := by
  refine ⟨fun project flag rules schedule hwrites hexists hflag hrules => ?_,
    fun name n schedule hunused hn => ?_⟩
  · obtain ⟨found, hp⟩ := Option.isSome_iff_exists.1 hexists
    have hfree : FlagRace.Free project flag p.store :=
      ⟨found, hp, (projectFlag_eq hp flag).symm.trans hflag⟩
    exact one_adds_flag hfaults hwrites hfree hrules schedule
  · exact one_creates_project hfaults (SortedMap.contains_eq_false_iff.1 hunused) hn schedule

/-- Two calls that add one flag, of which the second comes first and the other fails before the
flag has come to the environment; and two that create one project. -/
theorem names_have_one_winner_overtaken :
    let rules : List FlagRule := [default, ⟨some (.bool true), default⟩]
    let adding := rules.map fun rule => Command.addFlag "shop" ⟨"dark", rule⟩
    let added := (ofCommands .shopTest adding).steps Supply.counting [1, 0, 1, 1]
    let creating := List.replicate 2 (Command.createProject "depot")
    let created := (ofCommands .shopTest creating).steps Supply.counting [0, 1, 0, 1, 1, 0]
    added.Quiet ∧ created.Quiet ∧
      (∃ (i : Nat) (rule : FlagRule), rules[i]? = some rule ∧
        added.calls[i]? = some ⟨.addFlag "shop" ⟨"dark", rule⟩, .done (.ok ⟨"dark", rule⟩)⟩ ∧
        (∀ (j : Nat) (call : Call), j ≠ i → added.calls[j]? = some call →
          call.rest = .done (.error (.alreadyExists .flag))) ∧
        added.service.store.projectFlag "shop" "dark" = some rule ∧
        ∀ id, added.service.store.Lists "shop" id →
          added.service.store.environments.contains id = true →
          added.service.store.environmentFlag id "dark" = some rule) ∧
      ∃ (i : Nat) (project : Project),
        created.calls[i]? = some ⟨.createProject "depot", .done (.ok project)⟩ ∧
        (∀ (j : Nat) (call : Call), j ≠ i → created.calls[j]? = some call →
          call.rest = .done (.error (.alreadyExists .project))) ∧
        created.service.store.projects.get? "depot" = some project := by
  obtain ⟨hflags, hprojects⟩ := names_have_one_winner Supply.counting .shopTest rfl
  have hflag : ServiceState.shopTest.store.projectFlag "shop" "dark" = none :=
    Option.isNone_iff_eq_none.1 (by decide +kernel)
  have hadded : ((ofCommands .shopTest [.addFlag "shop" ⟨"dark", default⟩,
      .addFlag "shop" ⟨"dark", ⟨some (.bool true), default⟩⟩]).steps Supply.counting
        [1, 0, 1, 1]).Quiet := by
    decide +kernel
  have hcreated : ((ofCommands .shopTest [.createProject "depot", .createProject "depot"]).steps
      Supply.counting [0, 1, 0, 1, 1, 0]).Quiet := by
    decide +kernel
  exact ⟨hadded, hcreated,
    hflags "shop" "dark" [default, ⟨some (.bool true), default⟩] _ rfl (by decide +kernel) hflag
      (by simp) hadded,
    hprojects "depot" 2 _ (by decide +kernel) (by decide) hcreated⟩

end Pool

end FeatureFlags

import Mathlib.Algebra.Ring.Nat
import FeatureFlags.Proofs.Answering
import FeatureFlags.Proofs.Outcome

/-!
Marks: what a run leaves behind beside its result.

A run leaves a mark for each request that fails and for each count that it makes (`Program.marks`),
and the counters after a run are those before it with what the marks add (`Program.value_run`).  In
which series a command can count is in a table (`Command.series`), beside the one of the operations
that it asks for; what is not in the tables leaves no marks, so that for each counter only the
commands are left to be looked at that have something to do with it.

The creation and the deletion of an environment count a link that failed exactly where they leave
the mark of the request (`Command.linksCounted`).  A command that sends a flag to environments
counts what it has reached, or that it failed there, and ends accordingly
(`Command.cascadeEnd_run`).
-/

namespace FeatureFlags

open Store

variable {α β : Type} {supply : Supply}

/-- A request that failed, or something that was counted. -/
inductive Mark where
  | failed (method : Store.Method)
  | counted (series : Series) (amount : Nat)
deriving DecidableEq

namespace Mark

/-- What a mark adds to a series. -/
def amount (series : Series) : Mark → Nat
  | failed _ => 0
  | counted s n => if series = s then n else 0

/-- What all the marks add to a series. -/
def total (series : Series) (marks : List Mark) : Nat := (marks.map (amount series)).sum

variable (series : Series)

@[simp] theorem total_append (marks marks' : List Mark) :
    total series (marks ++ marks') = total series marks + total series marks' := by
  rw [total, List.map_append, List.sum_append, total, total]

@[simp] theorem total_failed (method : Store.Method) (marks : List Mark) :
    total series (.failed method :: marks) = total series marks :=
  Nat.zero_add _

@[simp] theorem total_counted (s : Series) (n : Nat) (marks : List Mark) :
    total series (.counted s n :: marks) = (if series = s then n else 0) + total series marks :=
  rfl

/-- What nothing was counted in, nothing was added to. -/
theorem total_eq_zero {series : Series} {marks : List Mark}
    (h : ∀ n, .counted series n ∉ marks) : total series marks = 0 := by
  induction marks with
  | nil => rfl
  | cons mark rest ih =>
    have hrest := ih fun n hn => h n (List.mem_cons_of_mem _ hn)
    cases mark with
    | failed method => rw [total_failed, hrest]
    | counted s n =>
      have hne : series ≠ s := fun heq => h n (heq ▸ List.mem_cons_self ..)
      rw [total_counted, if_neg hne, hrest]

end Mark

/-! ### Marks of programs -/

namespace Program

/-- The mark of a request, if it failed. -/
def callMarks (method : Store.Method) : Except StoreError β → List Mark
  | .ok _ => []
  | .error _ => [.failed method]

/-- The marks of a run, in their order. -/
def marks (supply : Supply) : Program α → ServiceState → List Mark
  | done _, _ => []
  | call request resume, p =>
    callMarks request.method (p.call supply request).1
      ++ (resume (p.call supply request).1).marks supply (p.call supply request).2
  | readClock resume, p =>
    (resume (supply.reading p.steps 0)).marks supply { p with steps := p.steps + 1 }
  | newId resume, p => (resume (supply.id p.steps)).marks supply { p with steps := p.steps + 1 }
  | newKey resume, p => (resume (supply.key p.steps)).marks supply { p with steps := p.steps + 1 }
  | count series amount next, p =>
    .counted series amount :: next.marks supply { p with counters := p.counters.add series amount }

theorem total_callMarks (series : Series) (method : Store.Method) (reply : Except StoreError β) :
    Mark.total series (callMarks method reply) = 0 := by
  cases reply <;> rfl

/-- The counters after a run are those before it and what its marks add. -/
theorem value_run (program : Program α) (p : ServiceState) (series : Series) :
    (program.run supply p).2.counters.value series
      = p.counters.value series + Mark.total series (program.marks supply p) := by
  induction program generalizing p with
  | done value => rfl
  | call request resume ih =>
    have hcounters : (p.call supply request).2.counters = p.counters := by
      obtain ⟨reply, s', -, hcall⟩ | ⟨e, -, hcall⟩ := p.call_cases supply request <;> rw [hcall] <;>
        rfl
    rw [run, ih, marks, Mark.total_append, total_callMarks, hcounters, Nat.zero_add]
  | readClock resume ih => exact ih _ _
  | newId resume ih => exact ih _ _
  | newKey resume ih => exact ih _ _
  | count s amount next ih =>
    rw [run, ih, marks, Mark.total_counted, Counters.value_add, Nat.add_assoc]

theorem marks_bind (program : Program α) (next : α → Program β) (p : ServiceState) :
    (program.bind next).marks supply p = program.marks supply p
      ++ (next (program.run supply p).1).marks supply (program.run supply p).2 := by
  induction program generalizing p with
  | done value => rfl
  | call request resume ih =>
    rw [bind, marks, ih, marks, List.append_assoc]
    rfl
  | readClock resume ih => exact ih _ _
  | newId resume ih => exact ih _ _
  | newKey resume ih => exact ih _ _
  | count series amount rest ih => exact congrArg (List.cons _) (ih _)

@[simp] theorem marks_map (f : α → β) (program : Program α) (p : ServiceState) :
    (program.map f).marks supply p = program.marks supply p := by
  rw [map, marks_bind]
  exact List.append_nil _

/-- A program that starts with a request leaves a mark for it if it fails. -/
theorem marks_call (supply : Supply) {program : Program α} (request : Store.Request)
    {resume : Except StoreError request.Reply → Program α}
    (hprogram : program = .call request resume) (p : ServiceState) :
    (∃ reply s', p.store.perform (supply.reading p.steps) request = .ok (reply, s') ∧
      program.run supply p = (resume (.ok reply)).run supply (p.after s') ∧
      program.marks supply p = (resume (.ok reply)).marks supply (p.after s')) ∨
    ∃ e, program.run supply p = (resume (.error e)).run supply (p.after p.store) ∧
      program.marks supply p
        = .failed request.method :: (resume (.error e)).marks supply (p.after p.store) := by
  rw [hprogram, run, marks]
  obtain ⟨reply, s', hs, hcall⟩ | ⟨e, -, hcall⟩ := p.call_cases supply request
  · rw [hcall]
    exact .inl ⟨reply, s', hs, rfl, rfl⟩
  · rw [hcall]
    exact .inr ⟨e, rfl, rfl⟩

/-- The requests that fail are among those that the program asks for. -/
theorem Uses.of_mem_marks {allowed : Store.Method → Prop} {program : Program α}
    (h : program.Uses allowed) {p : ServiceState} {method : Store.Method}
    (hmem : .failed method ∈ program.marks supply p) : allowed method := by
  induction program generalizing p with
  | done value => cases hmem
  | call request resume ih =>
    obtain ⟨hallowed, hresume⟩ := h
    obtain ⟨reply, s', -, -, hmarks⟩ | ⟨e, -, hmarks⟩ := marks_call supply request rfl p
    · exact ih _ (hresume _) (hmarks ▸ hmem)
    · rw [hmarks] at hmem
      obtain heq | hmem := List.mem_cons.1 hmem
      · exact Mark.failed.inj heq ▸ hallowed
      · exact ih _ (hresume _) hmem
  | readClock resume ih => exact ih _ (h _) hmem
  | newId resume ih => exact ih _ (h _) hmem
  | newKey resume ih => exact ih _ (h _) hmem
  | count series amount next ih =>
    obtain heq | hmem := List.mem_cons.1 hmem
    · cases heq
    · exact ih h hmem

theorem Uses.count_failed {allowed : Store.Method → Prop} {program : Program α}
    (h : program.Uses allowed) {method : Store.Method} (hmethod : ¬ allowed method)
    (p : ServiceState) : (program.marks supply p).count (.failed method) = 0 :=
  List.count_eq_zero.2 fun hmem => hmethod (h.of_mem_marks hmem)

/-- The program counts in these series alone, whatever it is answered. -/
def Counts (allowed : Series → Prop) : Program α → Prop
  | done _ => True
  | call _ resume => ∀ reply, (resume reply).Counts allowed
  | readClock resume => ∀ now, (resume now).Counts allowed
  | newId resume => ∀ id, (resume id).Counts allowed
  | newKey resume => ∀ key, (resume key).Counts allowed
  | count series _ next => allowed series ∧ next.Counts allowed

variable {allowed : Series → Prop} {program : Program α}

theorem Counts.of_mem_marks (h : program.Counts allowed) {p : ServiceState} {series : Series}
    {amount : Nat} (hmem : .counted series amount ∈ program.marks supply p) : allowed series := by
  induction program generalizing p with
  | done value => cases hmem
  | call request resume ih =>
    obtain ⟨reply, s', -, -, hmarks⟩ | ⟨e, -, hmarks⟩ := marks_call supply request rfl p
    · exact ih _ (h _) (hmarks ▸ hmem)
    · rw [hmarks] at hmem
      obtain heq | hmem := List.mem_cons.1 hmem
      · cases heq
      · exact ih _ (h _) hmem
  | readClock resume ih => exact ih _ (h _) hmem
  | newId resume ih => exact ih _ (h _) hmem
  | newKey resume ih => exact ih _ (h _) hmem
  | count s n next ih =>
    obtain ⟨hallowed, hnext⟩ := h
    obtain heq | hmem := List.mem_cons.1 hmem
    · exact (Mark.counted.inj heq).1 ▸ hallowed
    · exact ih hnext hmem

theorem Counts.total_eq_zero (h : program.Counts allowed) {series : Series}
    (hseries : ¬ allowed series) (p : ServiceState) :
    Mark.total series (program.marks supply p) = 0 :=
  Mark.total_eq_zero fun _ hmem => hseries (h.of_mem_marks hmem)

theorem Counts.map (h : program.Counts allowed) (f : α → β) : (program.map f).Counts allowed := by
  induction program with
  | done value => exact trivial
  | call request resume ih => exact fun reply => ih reply (h reply)
  | readClock resume ih => exact fun now => ih now (h now)
  | newId resume ih => exact fun id => ih id (h id)
  | newKey resume ih => exact fun key => ih key (h key)
  | count series amount next ih => exact ⟨h.1, ih h.2⟩

theorem Counts.countEach (h : program.Counts allowed) {all : List Series}
    (hall : ∀ series ∈ all, allowed series) : (countEach all program).Counts allowed := by
  induction all with
  | nil => exact h
  | cons series rest ih =>
    exact ⟨hall series (List.mem_cons_self ..),
      ih fun other hother => hall other (List.mem_cons_of_mem _ hother)⟩

end Program

/-! ### What commands count -/

namespace Action

open Program

variable {allowed : Series → Prop}

theorem counts_store {request : Store.Request} {resume : request.Reply → Action α}
    (h : ∀ reply, (resume reply).Counts allowed) :
    (Action.store request resume).Counts allowed := by
  intro reply
  cases reply with
  | ok reply => exact h reply
  | error e => exact trivial

theorem counts_cascade {ids : List String} {flag : String} {rule : Option FlagRule}
    {resume : Nat → Action α}
    (hwritten : allowed (.cascadeEnvironments (Propagation.cascadeOperation rule)))
    (hfailed : allowed (.cascadeFailures (Propagation.cascadeOperation rule)))
    (h : ∀ written, (resume written).Counts allowed) :
    (Propagation.cascade ids flag rule resume).Counts allowed := by
  rw [Propagation.cascade]
  split
  case isTrue => exact h 0
  case isFalse =>
    intro reply
    cases reply with
    | ok reply => exact ⟨hwritten, h _⟩
    | error e => exact ⟨hfailed, trivial⟩

/-- An action that starts with a request leaves the marks of what follows, or the one mark of its
failure. -/
theorem marks_store (supply : Supply) (program : Action α) {request : Store.Request}
    {resume : request.Reply → Action α} (hprogram : program = Action.store request resume)
    (p : ServiceState) :
    (∃ reply s', p.store.perform (supply.reading p.steps) request = .ok (reply, s') ∧
      program.run supply p = (resume reply).run supply (p.after s') ∧
      program.marks supply p = (resume reply).marks supply (p.after s')) ∨
    ∃ e, program.run supply p = (.error (.ofStore e), p.after p.store) ∧
      program.marks supply p = [.failed request.method] :=
  Program.marks_call supply request (hprogram.trans (Action.store.eq_1 request resume)) p

end Action

namespace Command

/-- The series that a command can count in. -/
def series : Command → List Series
  | .addFlag .. => [.cascadeEnvironments .set, .cascadeFailures .set]
  | .removeFlag .. => [.cascadeEnvironments .unset, .cascadeFailures .unset]
  | .resyncFlag .. => [.cascadeEnvironments .set, .cascadeFailures .set,
      .cascadeEnvironments .unset, .cascadeFailures .unset]
  | .createEnvironment .. => [.projectLinkFailures .attach]
  | .deleteEnvironment _ => [.projectLinkFailures .detach]
  | _ => []

theorem program_counts (command : Command) : command.program.Counts (· ∈ command.series) := by
  cases command with
  | createProject name => exact fun now id => Action.counts_store fun _ => trivial
  | createKey scope id name => exact fun key now => Action.counts_store fun _ => trivial
  | addFlag project flag =>
    refine Action.counts_store fun ids => ?_
    exact Action.counts_cascade (by simp [series, Propagation.cascadeOperation])
      (by simp [series, Propagation.cascadeOperation]) fun _ => trivial
  | removeFlag project flag =>
    refine Action.counts_store fun ids => ?_
    exact Action.counts_cascade (by simp [series, Propagation.cascadeOperation])
      (by simp [series, Propagation.cascadeOperation]) fun _ => trivial
  | resyncFlag project flag =>
    refine Action.counts_store fun (found : Project) => ?_
    -- the project decides whether the flag is set or removed
    refine Action.counts_cascade ?_ ?_ fun _ => trivial <;>
      cases found.flags.get? flag <;> simp [series, Propagation.cascadeOperation]
  | createEnvironment project name =>
    refine Action.counts_store fun found => fun now id => Action.counts_store fun _ => ?_
    intro reply
    cases reply with
    | ok _ => exact trivial
    | error e => exact ⟨by simp [series], fun _ => trivial⟩
  | deleteEnvironment id =>
    refine Action.counts_store fun _ => fun reply => ?_
    cases reply with
    | ok _ => exact trivial
    | error e => exact ⟨by simp [series], trivial⟩
  | listProjects | getProject | deleteProject | patchFlag | getEnvironment | renameEnvironment
  | patchEnvironmentFlag | removeEnvironmentFlag | deleteKey =>
    exact Action.counts_store fun _ => trivial

end Command

/-! ### Links -/

/-- The operation of the store that makes a link or ends it. -/
def LinkOperation.method : LinkOperation → Store.Method
  | attach => .attachEnvironment
  | detach => .detachEnvironment

/-- As many links were counted as failed as requests for them have failed. -/
def Mark.LinksCounted (operation : LinkOperation) (marks : List Mark) : Prop :=
  total (.projectLinkFailures operation) marks = marks.count (.failed operation.method)

namespace Propagation

/-- Whether the environment could be deleted does not matter. -/
theorem linksCounted_withdraw (id : String) (error : StoreError) (p : ServiceState) :
    Mark.LinksCounted .attach
      (.failed .attachEnvironment :: (withdraw id error).marks supply p) := by
  rw [withdraw, Program.marks]
  obtain ⟨_, s, -, -, hmarks⟩ | ⟨error', -, hmarks⟩ :=
    Program.marks_call supply (.deleteEnvironment id) rfl
      { p with counters := p.counters.add (.projectLinkFailures .attach) 1 } <;>
    rw [hmarks] <;> rfl

/-- An environment that cannot be listed is counted, and then taken back. -/
theorem linksCounted_place (project : String) (e : Environment) (p : ServiceState) :
    Mark.LinksCounted .attach ((place project e).marks supply p) := by
  obtain ⟨_, s, -, -, hmarks⟩ | ⟨error, -, hmarks⟩ :=
    Action.marks_store supply (place project e) rfl p
  case inr =>
    rw [hmarks]
    rfl
  rw [hmarks]
  obtain ⟨_, s', -, -, hmarks⟩ | ⟨error, -, hmarks⟩ :=
    Program.marks_call supply (.attachEnvironment project e.id) rfl (p.after s)
  · rw [hmarks]
    rfl
  · rw [hmarks]
    exact linksCounted_withdraw e.id error _

theorem linksCounted_createEnvironment (project name : String) (p : ServiceState) :
    Mark.LinksCounted .attach ((createEnvironment project name).marks supply p) := by
  obtain ⟨found, s, -, -, hmarks⟩ | ⟨error, -, hmarks⟩ := Action.marks_store supply
    _ (createEnvironment_eq_place project name) p
  · rw [hmarks]
    -- the clock and the id leave no marks
    exact linksCounted_place project _ _
  · rw [hmarks]
    rfl

/-- A deletion counts an id that stays listed. -/
theorem linksCounted_deleteEnvironment (id : String) (p : ServiceState) :
    Mark.LinksCounted .detach ((deleteEnvironment id).marks supply p) := by
  obtain ⟨_, s, -, -, hmarks⟩ | ⟨error, -, hmarks⟩ :=
    Action.marks_store supply (deleteEnvironment id) rfl p
  case inr =>
    rw [hmarks]
    rfl
  rw [hmarks]
  obtain ⟨_, s', -, -, hmarks⟩ | ⟨error, -, hmarks⟩ :=
    Program.marks_call supply (.detachEnvironment id) rfl (p.after s) <;>
    rw [hmarks] <;> rfl

end Propagation

/-- What a command has in neither table, it leaves no marks of. -/
theorem Program.Counts.linksCounted {program : Program α} {allowed : Series → Prop}
    {asked : Store.Method → Prop} {operation : LinkOperation} (h : program.Counts allowed)
    (huses : program.Uses asked) (hseries : ¬ allowed (.projectLinkFailures operation))
    (hmethod : ¬ asked operation.method) (p : ServiceState) :
    Mark.LinksCounted operation (program.marks supply p) := by
  rw [Mark.LinksCounted, h.total_eq_zero hseries, huses.count_failed hmethod]

/-- Every command counts the links that fail in it. -/
theorem Command.linksCounted (command : Command) (operation : LinkOperation) (p : ServiceState) :
    Mark.LinksCounted operation (command.program.marks supply p) := by
  have hquiet (hseries : .projectLinkFailures operation ∉ command.series)
      (hmethod : operation.method ∉ command.methods) :
      Mark.LinksCounted operation (command.program.marks supply p) :=
    command.program_counts.linksCounted command.program_uses hseries hmethod p
  cases command with
  | createEnvironment project name =>
    cases operation with
    | attach => exact Propagation.linksCounted_createEnvironment project name p
    | detach => exact hquiet (by simp [series]) (by simp [methods, LinkOperation.method])
  | deleteEnvironment id =>
    cases operation with
    | attach => exact hquiet (by simp [series]) (by simp [methods, LinkOperation.method])
    | detach => exact Propagation.linksCounted_deleteEnvironment id p
  | _ =>
    exact hquiet (by simp [series]) (by cases operation <;> simp [methods, LinkOperation.method])

/-! ### Cascades -/

namespace Store

/-- No project lists an id twice. -/
def Unrepeated (s : Store) : Prop := ∀ name ids, s.links name = some ids → ids.Nodup

/-- The number of environments that exist and that the project lists. -/
def reached (s : Store) (project : String) : Nat :=
  (s.environments.keys.filter (s.Lists project ·)).length

theorem Unrepeated.reached_eq {s : Store} (h : s.Unrepeated) {project : String} {found : Project}
    (hp : s.projects.get? project = some found) :
    s.reached project = (found.environmentIds.filter s.environments.contains).length := by
  have hids := h project found.environmentIds (by rw [links, hp, Option.map_some])
  rw [SortedMap.length_filter_contains _ hids, reached]
  exact congrArg List.length (List.filter_congr fun id _ => decide_eq_decide.2 (lists_iff hp))

end Store

/-- How an action ends that writes a flag to as many environments as it reaches, and what it has
counted by then. -/
inductive CascadeEnd (operation : CascadeOperation) (reached : Nat) :
    Except ApiError α → List Mark → Prop where
  | written {value : α} {marks : List Mark} (htotal : ∀ series, Mark.total series marks
      = if series = .cascadeEnvironments operation then reached else 0) :
      CascadeEnd operation reached (.ok value) marks
  | partly {flag : String} {marks : List Mark} (htotal : ∀ series, Mark.total series marks
      = if series = .cascadeFailures operation then 1 else 0) :
      CascadeEnd operation reached (.error (.partialCascade flag)) marks
  | failed {error : ApiError} {marks : List Mark} (herror : ∀ flag, error ≠ .partialCascade flag)
      (htotal : ∀ series, Mark.total series marks = 0) :
      CascadeEnd operation reached (.error error) marks

namespace Propagation

/-- A cascade that is the end of an action. -/
theorem cascadeEnd_cascade {program : Action α} {ids : List String} {flag : String}
    {rule : Option FlagRule} {result : Nat → α}
    (hprogram : program = cascade ids flag rule fun written => Action.ok (result written))
    (p : ServiceState) :
    CascadeEnd (cascadeOperation rule) (ids.filter p.store.environments.contains).length
      (program.run supply p).1 (program.marks supply p) := by
  rw [hprogram, cascade]
  split
  case isTrue hnil =>
    obtain rfl := List.isEmpty_iff.1 hnil
    refine .written fun series => ?_
    split <;> rfl
  case isFalse hids =>
    obtain ⟨reply, s', hs, hrun, hmarks⟩ | ⟨e, hrun, hmarks⟩ :=
      Program.marks_call supply (cascadeRequest ids flag rule) rfl p
    · have hcount := (updateEnvironmentFlags_eq_ok (perform_cascadeRequest hs)).2.count
      rw [hrun, hmarks, ← hcount]
      exact .written fun series => rfl
    · rw [hrun, hmarks]
      exact .partly fun series => Mark.total_failed ..

/-- A write of a flag to a project, with the cascade that follows. -/
theorem cascadeEnd_flagWrite {program : Action α} {project flag : String}
    (rule : Option FlagRule) {value : α}
    (hprogram : program = Action.store (projectRequest project flag rule) fun reply =>
      cascade (listedIn reply) flag rule fun _ => Action.ok value)
    {p : ServiceState} (hs : p.store.Unrepeated) :
    CascadeEnd (cascadeOperation rule) (p.store.reached project) (program.run supply p).1
      (program.marks supply p) := by
  obtain ⟨reply, s', hperform, hrun, hmarks⟩ | ⟨e, hrun, hmarks⟩ :=
    Action.marks_store supply program hprogram p
  case inr =>
    rw [hrun, hmarks]
    exact .failed (ofStore_ne_partialCascade e) fun series => rfl
  obtain ⟨found, haccepts, hids, rfl⟩ := perform_projectRequest.1 hperform
  rw [hrun, hmarks, hs.reached_eq haccepts.1]
  -- the write to the project has left the environments as they were
  exact cascadeEnd_cascade (congrArg (cascade · flag rule fun _ => Action.ok value) hids)
    (p.after { p.store with projects := p.store.projects.insert project _ })

theorem cascadeEnd_resyncFlag (project flag : String) {p : ServiceState}
    (hs : p.store.Unrepeated) :
    CascadeEnd (cascadeOperation (p.store.projectFlag project flag)) (p.store.reached project)
      ((resyncFlag project flag).run supply p).1 ((resyncFlag project flag).marks supply p) := by
  obtain ⟨found, s', hperform, hrun, hmarks⟩ | ⟨e, hrun, hmarks⟩ :=
    Action.marks_store supply (resyncFlag project flag) rfl p
  case inr =>
    rw [hrun, hmarks]
    exact .failed (ofStore_ne_partialCascade e) fun series => rfl
  obtain ⟨hget, rfl⟩ := unchanged_eq_ok.1 hperform
  have hp := getProject_eq_ok.1 hget
  rw [hrun, hmarks, hs.reached_eq hp, projectFlag_eq hp]
  exact cascadeEnd_cascade rfl (p.after _)

end Propagation

/-- The project to whose environments an operation sends a flag, and what it does there.  A resync
does what the project says. -/
def Operation.cascade? (s : Store) : Operation → Option (String × CascadeOperation)
  | .addFlag project => some (project, .set)
  | .removeFlag project _ => some (project, .unset)
  | .resyncFlag project flag =>
    some (project, Propagation.cascadeOperation (s.projectFlag project flag))
  | _ => none

/-- A command that sends a flag to environments counts in the series of what it does there. -/
theorem Command.cascadeEnd_run {command : Command} {p : ServiceState} (hs : p.store.Unrepeated)
    {project : String} {operation : CascadeOperation}
    (h : (Service.commandOperation command).cascade? p.store = some (project, operation)) :
    CascadeEnd operation (p.store.reached project) (command.program.run supply p).1
      (command.program.marks supply p) := by
  cases command with
  | addFlag project' flag =>
    obtain ⟨rfl, rfl⟩ := Prod.mk.inj (Option.some.inj h)
    exact Propagation.cascadeEnd_flagWrite (some flag.rule) rfl hs
  | removeFlag project' flag =>
    obtain ⟨rfl, rfl⟩ := Prod.mk.inj (Option.some.inj h)
    exact Propagation.cascadeEnd_flagWrite none rfl hs
  | resyncFlag project' flag =>
    obtain ⟨rfl, rfl⟩ := Prod.mk.inj (Option.some.inj h)
    exact Propagation.cascadeEnd_resyncFlag project' flag hs
  | _ => cases h

end FeatureFlags

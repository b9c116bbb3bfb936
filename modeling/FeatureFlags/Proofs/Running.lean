import FeatureFlags.Proofs.Command
import FeatureFlags.Proofs.Store.Views

/-!
Runs of programs, opened request by request.

A request either goes through, and then the run continues from the store that it left, or it fails
and leaves the store as it was (`ServiceState.call_cases`).  A run can only change what its requests
can change: `Program.Uses` says which operations a program asks for, whatever it is answered, and
`Program.run_keeps` that a view which these operations keep is kept by the run.  Which operations a
command asks for is in a table (`Command.methods`), so that for each view only the commands that
have something to do with it are left to be looked at.
-/

namespace FeatureFlags

variable {α : Type} (supply : Supply)

namespace Supply

/-- One of the first steps has taken this id. -/
def Issued (supply : Supply) (steps : Nat) (id : String) : Prop := ∃ k < steps, supply.id k = id

theorem Issued.mono {supply : Supply} {m n : Nat} {id : String} (h : supply.Issued m id)
    (hmn : m ≤ n) : supply.Issued n id := by
  obtain ⟨k, hk, hid⟩ := h
  exact ⟨k, Nat.lt_of_lt_of_le hk hmn, hid⟩

/-- If ids never repeat, a later step takes an id that is new. -/
theorem not_issued {supply : Supply} (hids : Function.Injective supply.id) {m n : Nat}
    (hmn : m ≤ n) : ¬ supply.Issued m (supply.id n) := by
  rintro ⟨k, hk, hid⟩
  have : k = n := hids hid
  omega

/-- One of the steps from `m` up to `n` reads this time. -/
def Reads (supply : Supply) (m n : Nat) (time : Timestamp) : Prop :=
  ∃ k index, m ≤ k ∧ k < n ∧ supply.reading k index = time

/-- One of the steps from `m` up to `n` takes this id. -/
def Names (supply : Supply) (m n : Nat) (id : String) : Prop :=
  ∃ k, m ≤ k ∧ k < n ∧ supply.id k = id

/-- One of the steps from `m` up to `n` takes this key. -/
def Keys (supply : Supply) (m n : Nat) (key : String) : Prop :=
  ∃ k, m ≤ k ∧ k < n ∧ supply.key k = key

theorem Reads.mono {supply : Supply} {m m' n n' : Nat} {time : Timestamp}
    (h : supply.Reads m n time) (hm : m' ≤ m) (hn : n ≤ n') : supply.Reads m' n' time := by
  obtain ⟨k, index, hmk, hkn, hk⟩ := h
  exact ⟨k, index, Nat.le_trans hm hmk, Nat.lt_of_lt_of_le hkn hn, hk⟩

/-- The supply whose ids and keys count the steps. -/
def counting : Supply :=
  ⟨fun step index => ⟨step, index⟩, fun step => String.ofList (List.replicate step 'i'),
    fun step => String.ofList (List.replicate step 'k')⟩

theorem counting_id_injective : Function.Injective counting.id := by
  intro m n h
  have hlength := congrArg List.length (String.ofList_injective h)
  rwa [List.length_replicate, List.length_replicate] at hlength

end Supply

namespace ServiceState

/-- The service after a step that left this store. -/
def after (p : ServiceState) (s : Store) : ServiceState :=
  { p with store := s, steps := p.steps + 1 }

@[simp] theorem after_store (p : ServiceState) (s : Store) : (p.after s).store = s := rfl

/-- A request goes through, or it fails and leaves the store as it was. -/
theorem call_cases (p : ServiceState) (request : Store.Request) :
    (∃ reply s', p.store.perform (supply.reading p.steps) request = .ok (reply, s') ∧
      p.call supply request = (.ok reply, p.after s')) ∨
    ∃ e, (p.faults = [] → p.store.perform (supply.reading p.steps) request = .error e) ∧
      p.call supply request = (.error e, p.after p.store) := by
  rw [call]
  cases hf : p.faults.lookup request.method with
  | some e =>
    refine .inr ⟨e, ?_, rfl⟩
    intro hnil
    rw [hnil] at hf
    cases hf
  | none =>
    cases hr : p.store.perform (supply.reading p.steps) request with
    | ok result => exact .inl ⟨result.1, result.2, rfl, rfl⟩
    | error e => exact .inr ⟨e, fun _ => rfl, rfl⟩

end ServiceState

namespace Program

/-- The program asks for these operations alone, whatever it is answered. -/
def Uses (allowed : Store.Method → Prop) : Program α → Prop
  | done _ => True
  | call request resume => allowed request.method ∧ ∀ reply, (resume reply).Uses allowed
  | readClock resume => ∀ now, (resume now).Uses allowed
  | newId resume => ∀ id, (resume id).Uses allowed
  | newKey resume => ∀ key, (resume key).Uses allowed
  | count _ _ next => next.Uses allowed

/-- A view of the store that is kept by the operations which a program asks for is the same after
its run. -/
theorem run_keeps {β : Type} (view : Store → β) {allowed : Store.Method → Prop}
    (hview : ∀ {s now request reply s'}, Store.perform now s request = .ok (reply, s') →
      allowed request.method → view s' = view s)
    {program : Program α} (h : program.Uses allowed) (p : ServiceState) :
    view (program.run supply p).2.store = view p.store := by
  induction program generalizing p with
  | done value => rfl
  | call request resume ih =>
    obtain ⟨hm, hresume⟩ := h
    rw [run, ih _ (hresume _)]
    -- what is left is that the request itself keeps the view
    obtain ⟨reply, s', hs, hcall⟩ | ⟨e, -, hcall⟩ := p.call_cases supply request
    · rw [hcall]
      exact hview hs hm
    · rw [hcall]
      rfl
  | readClock resume ih => exact ih _ (h _) _
  | newId resume ih => exact ih _ (h _) _
  | newKey resume ih => exact ih _ (h _) _
  | count series amount next ih => exact ih h _

/-- A run makes no operation fail that did not fail before. -/
theorem run_faults (program : Program α) (p : ServiceState) :
    (program.run supply p).2.faults = p.faults := by
  induction program generalizing p with
  | done value => rfl
  | call request resume ih =>
    rw [run, ih]
    obtain ⟨reply, s', -, hcall⟩ | ⟨e, -, hcall⟩ := p.call_cases supply request <;> rw [hcall] <;>
      rfl
  | readClock resume ih => exact ih _ _
  | newId resume ih => exact ih _ _
  | newKey resume ih => exact ih _ _
  | count series amount next ih => exact ih _

/-- A run takes no step back. -/
theorem steps_le_run (program : Program α) (p : ServiceState) :
    p.steps ≤ (program.run supply p).2.steps := by
  induction program generalizing p with
  | done value => exact Nat.le_refl _
  | call request resume ih =>
    refine Nat.le_trans ?_ (ih _ _)
    obtain ⟨reply, s', -, hcall⟩ | ⟨e, -, hcall⟩ := p.call_cases supply request <;> rw [hcall] <;>
      exact Nat.le_succ _
  | readClock resume ih => exact Nat.le_trans (Nat.le_succ p.steps) (ih _ { p with steps := _ })
  | newId resume ih => exact Nat.le_trans (Nat.le_succ p.steps) (ih _ { p with steps := _ })
  | newKey resume ih => exact Nat.le_trans (Nat.le_succ p.steps) (ih _ { p with steps := _ })
  | count series amount next ih => exact ih { p with counters := p.counters.add series amount }

end Program

/-- A service with one project, which has no flags and no environments. -/
def ServiceState.shop : ServiceState :=
  ((Command.createProject "shop").program.run Supply.counting .fresh).2

/-- The same service with one environment in the project. -/
def ServiceState.shopTest : ServiceState :=
  ((Command.createEnvironment "shop" "test").program.run Supply.counting .shop).2

/-! ### What commands ask for -/

namespace Action

open Program

variable {allowed : Store.Method → Prop}

theorem uses_store {request : Store.Request} {resume : request.Reply → Action α}
    (hm : allowed request.method) (h : ∀ reply, (resume reply).Uses allowed) :
    (Action.store request resume).Uses allowed := by
  refine ⟨hm, fun reply => ?_⟩
  cases reply with
  | ok reply => exact h reply
  | error e => exact trivial

theorem uses_cascade {ids : List String} {flag : String} {rule : Option FlagRule}
    {resume : Nat → Action α} (hset : allowed .setEnvironmentsFlag)
    (hunset : allowed .unsetEnvironmentsFlag) (h : ∀ written, (resume written).Uses allowed) :
    (Propagation.cascade ids flag rule resume).Uses allowed := by
  rw [Propagation.cascade]
  split
  case isTrue => exact h 0
  case isFalse =>
    refine ⟨?_, fun reply => ?_⟩
    · cases rule with
      | some rule => exact hset
      | none => exact hunset
    · cases reply with
      | ok reply => exact h _
      | error e => exact trivial

end Action

namespace Command

/-- The operations that a command can ask a store for. -/
def methods : Command → List Store.Method
  | .listProjects .. => [.listProjects]
  | .createProject _ => [.insertProject]
  | .getProject _ => [.getProject]
  | .deleteProject _ => [.deleteProject]
  | .addFlag .. => [.insertProjectFlag, .setEnvironmentsFlag, .unsetEnvironmentsFlag]
  | .patchFlag .. => [.patchProjectFlag]
  | .removeFlag .. => [.removeProjectFlag, .setEnvironmentsFlag, .unsetEnvironmentsFlag]
  | .resyncFlag .. => [.getProject, .setEnvironmentsFlag, .unsetEnvironmentsFlag]
  | .createEnvironment .. =>
    [.getProject, .insertEnvironment, .attachEnvironment, .deleteEnvironment]
  | .getEnvironment _ => [.getEnvironment]
  | .renameEnvironment .. => [.renameEnvironment]
  | .deleteEnvironment _ => [.deleteEnvironment, .detachEnvironment]
  | .patchEnvironmentFlag .. => [.patchEnvironmentFlag]
  | .removeEnvironmentFlag .. => [.removeEnvironmentFlag]
  | .createKey .. => [.insertApiKey]
  | .deleteKey .. => [.deleteApiKey]

theorem program_uses (command : Command) : command.program.Uses (· ∈ command.methods) := by
  cases command with
  | createProject name =>
    intro now id
    exact Action.uses_store (by simp [methods, Store.Request.method]) fun _ => trivial
  | createKey scope id name =>
    intro key now
    exact Action.uses_store (by simp [methods, Store.Request.method]) fun _ => trivial
  | addFlag project flag =>
    refine Action.uses_store (by simp [methods, Store.Request.method]) fun ids => ?_
    exact Action.uses_cascade (by simp [methods]) (by simp [methods]) fun _ => trivial
  | removeFlag project flag =>
    refine Action.uses_store (by simp [methods, Store.Request.method]) fun ids => ?_
    exact Action.uses_cascade (by simp [methods]) (by simp [methods]) fun _ => trivial
  | resyncFlag project flag =>
    refine Action.uses_store (by simp [methods, Store.Request.method]) fun found => ?_
    exact Action.uses_cascade (by simp [methods]) (by simp [methods]) fun _ => trivial
  | createEnvironment project name =>
    refine Action.uses_store (by simp [methods, Store.Request.method]) fun found => ?_
    intro now id
    refine Action.uses_store (by simp [methods, Store.Request.method]) fun _ => ?_
    refine ⟨by simp [methods, Store.Request.method], fun reply => ?_⟩
    cases reply with
    | ok _ => exact trivial
    | error e => exact ⟨by simp [methods, Store.Request.method], fun _ => trivial⟩
  | deleteEnvironment id =>
    refine Action.uses_store (by simp [methods, Store.Request.method]) fun _ => ?_
    refine ⟨by simp [methods, Store.Request.method], fun reply => ?_⟩
    cases reply <;> exact trivial
  | listProjects | getProject | deleteProject | patchFlag | getEnvironment | renameEnvironment
  | patchEnvironmentFlag | removeEnvironmentFlag | deleteKey =>
    exact Action.uses_store (by simp [methods, Store.Request.method]) fun _ => trivial

/-- A view that no operation of a command can change is the same after the command. -/
theorem run_keeps {supply : Supply} {β : Type} (view : Store → β) {changes : Store.Method → Bool}
    (hview : ∀ {s now request reply s'}, Store.perform now s request = .ok (reply, s') →
      changes request.method = false → view s' = view s)
    {command : Command} {outcome : Except ApiError command.Result} {p p' : ServiceState}
    (h : command.program.run supply p = (outcome, p'))
    (hm : ∀ m ∈ command.methods, changes m = false) : view p'.store = view p.store := by
  have hkeeps := Program.run_keeps supply view
    (fun hs hmem => hview hs (hm _ hmem)) command.program_uses p
  rw [h] at hkeeps
  exact hkeeps

end Command

/-! ### Runs of actions -/

/-- A program that starts with a request goes on with the reply or the failure. -/
theorem Program.run_call {program : Program α} (request : Store.Request)
    {resume : Except StoreError request.Reply → Program α}
    (hprogram : program = .call request resume) (p : ServiceState) :
    (∃ reply s', p.store.perform (supply.reading p.steps) request = .ok (reply, s') ∧
      program.run supply p = (resume (.ok reply)).run supply (p.after s')) ∨
    ∃ e, (p.faults = [] → p.store.perform (supply.reading p.steps) request = .error e) ∧
      program.run supply p = (resume (.error e)).run supply (p.after p.store) := by
  rw [hprogram, run]
  obtain ⟨reply, s', hs, hcall⟩ | ⟨e, hs, hcall⟩ := p.call_cases supply request
  · rw [hcall]
    exact .inl ⟨reply, s', hs, rfl⟩
  · rw [hcall]
    exact .inr ⟨e, hs, rfl⟩

/-- An action that starts with a request goes on with the reply, or ends with the failure. -/
theorem Action.run_store (program : Action α) {request : Store.Request}
    {resume : request.Reply → Action α} (hprogram : program = Action.store request resume)
    (p : ServiceState) :
    (∃ reply s', p.store.perform (supply.reading p.steps) request = .ok (reply, s') ∧
      program.run supply p = (resume reply).run supply (p.after s')) ∨
    ∃ e, (p.faults = [] → p.store.perform (supply.reading p.steps) request = .error e) ∧
      program.run supply p = (.error (.ofStore e), p.after p.store) :=
  Program.run_call supply request (hprogram.trans (Action.store.eq_1 request resume)) p

namespace Propagation

open Store

/-- The write of a flag to a project: adds it with its rule, or removes it if there is none. -/
def projectRequest (project flag : String) : Option FlagRule → Store.Request
  | some rule => .insertProjectFlag project flag rule
  | none => .removeProjectFlag project flag

/-- The ids of environments that the reply to such a write lists. -/
def listedIn {project flag : String} {rule : Option FlagRule} :
    (projectRequest project flag rule).Reply → List String :=
  match rule with
  | some _ => fun (ids : List String) => ids
  | none => fun (ids : List String) => ids

/-- The project takes the write: it exists, and if a flag is to be added, it does not have it. -/
def Accepts (s : Store) (project flag : String) (rule : Option FlagRule) (found : Project) : Prop :=
  s.projects.get? project = some found ∧ (rule.isSome → found.flags.get? flag = none)

/-- A write of a flag to a project succeeds on the projects that accept it. -/
theorem perform_projectRequest {project flag : String} {rule : Option FlagRule}
    {now : Nat → Timestamp} {s s' : Store} {reply : (projectRequest project flag rule).Reply} :
    s.perform now (projectRequest project flag rule) = .ok (reply, s') ↔
      ∃ found, Accepts s project flag rule found ∧ listedIn reply = found.environmentIds ∧
        s' = { s with projects :=
          s.projects.insert project (found.assign flag rule (now 0)) } := by
  cases rule with
  | some rule =>
    refine insertProjectFlag_eq_ok.trans (exists_congr fun found => ?_)
    exact ⟨fun ⟨hp, hf, hrest⟩ => ⟨⟨hp, fun _ => hf⟩, hrest⟩,
      fun ⟨⟨hp, hf⟩, hrest⟩ => ⟨hp, hf rfl, hrest⟩⟩
  | none =>
    refine removeProjectFlag_eq_ok.trans (exists_congr fun found => ?_)
    exact ⟨fun ⟨hp, hrest⟩ => ⟨⟨hp, fun h => by cases h⟩, hrest⟩,
      fun ⟨⟨hp, _⟩, hrest⟩ => ⟨hp, hrest⟩⟩

theorem exists_perform_projectRequest {project flag : String} {rule : Option FlagRule}
    {s : Store} {found : Project} (h : Accepts s project flag rule found)
    (now : Nat → Timestamp) :
    ∃ result, s.perform now (projectRequest project flag rule) = .ok result := by
  cases rule with
  | some rule => exact ⟨_, insertProjectFlag_eq_ok.2 ⟨found, h.1, h.2 rfl, rfl, rfl⟩⟩
  | none => exact ⟨_, removeProjectFlag_eq_ok.2 ⟨found, h.1, rfl, rfl⟩⟩

/-- A successful bulk write of a cascade. -/
theorem perform_cascadeRequest {ids : List String} {flag : String} {rule : Option FlagRule}
    {now : Nat → Timestamp} {s s' : Store} {reply : (cascadeRequest ids flag rule).Reply}
    (h : s.perform now (cascadeRequest ids flag rule) = .ok (reply, s')) :
    s.updateEnvironmentFlags ids (·.assign flag rule) now
      = .ok (writtenBy ids flag rule reply, s') := by
  cases rule <;> exact h

theorem exists_perform_cascadeRequest {s : Store} (h : s.environmentWritesFail = false)
    (ids : List String) (flag : String) (rule : Option FlagRule) (now : Nat → Timestamp) :
    ∃ reply s', s.perform now (cascadeRequest ids flag rule) = .ok (reply, s') := by
  obtain ⟨result, hresult⟩ := exists_updateEnvironmentFlags h ids (·.assign flag rule) now
  cases rule <;> exact ⟨result.1, result.2, hresult⟩

theorem perform_cascadeRequest_of_fails {s : Store} (h : s.environmentWritesFail = true)
    (ids : List String) (flag : String) (rule : Option FlagRule) (now : Nat → Timestamp) :
    s.perform now (cascadeRequest ids flag rule) = .error switchedOff := by
  have hupdate : s.updateEnvironmentFlags ids (·.assign flag rule) now = .error switchedOff := by
    rw [updateEnvironmentFlags, h]
    rfl
  cases rule <;> exact hupdate

/-- A cascade writes the flag to the listed environments and goes on.  It fails, and then changes
nothing, only where there is something listed and the switch is on. -/
theorem run_cascade {program : Action α} {ids : List String} {flag : String}
    {rule : Option FlagRule} {resume : Nat → Action α}
    (hprogram : program = cascade ids flag rule resume) (p : ServiceState) :
    (∃ written p', program.run supply p = (resume written).run supply p' ∧
      p.steps ≤ p'.steps ∧ (ids ≠ [] → p.store.environmentWritesFail = false) ∧
      Cascaded (supply.Reads p.steps p'.steps) ids flag rule p.store p'.store written) ∨
    ∃ p', program.run supply p = (.error (.partialCascade flag), p') ∧ p'.store = p.store ∧
      ids ≠ [] ∧ (p.faults = [] → p.store.environmentWritesFail = true) := by
  rw [hprogram, cascade]
  split
  case isTrue hnil =>
    -- without ids there is no request, and nothing to write
    obtain rfl := List.isEmpty_iff.1 hnil
    exact .inl ⟨0, p, rfl, Nat.le_refl _, fun h => absurd rfl h, Cascaded.nil _ flag rule p.store⟩
  case isFalse hids =>
    obtain ⟨reply, s', hs, hcall⟩ | ⟨e, hs, hcall⟩ :=
      Program.run_call supply (cascadeRequest ids flag rule) rfl p
    · obtain ⟨hworks, hcascaded⟩ := updateEnvironmentFlags_eq_ok (perform_cascadeRequest hs)
      let written := writtenBy ids flag rule reply
      let series := Series.cascadeEnvironments (cascadeOperation rule)
      refine .inl ⟨written, { p.after s' with counters := p.counters.add series written }, hcall,
        Nat.le_succ _, fun _ => hworks, hcascaded.mono ?_⟩
      rintro time ⟨index, hindex⟩
      exact ⟨p.steps, index, Nat.le_refl _, Nat.lt_succ_self _, hindex⟩
    · let series := Series.cascadeFailures (cascadeOperation rule)
      refine .inr ⟨{ p.after p.store with counters := p.counters.add series 1 }, hcall, rfl,
        fun hnil => hids (List.isEmpty_iff.2 hnil), fun hfaults => ?_⟩
      -- nothing but the switch makes the request fail
      cases hswitch : p.store.environmentWritesFail with
      | true => rfl
      | false =>
        obtain ⟨reply, s', hok⟩ :=
          exists_perform_cascadeRequest hswitch ids flag rule (supply.reading p.steps)
        cases (hs hfaults).symm.trans hok

end Propagation

end FeatureFlags

import Mathlib.Logic.Function.Basic
import FeatureFlags.Proofs.Running

/-!
Calls side by side.

A pool is a service with the calls of commands that have been made to it.  A move takes the next
step of one call, so that a run of a pool is one order in which the steps of the calls can come;
each request to the store is a step of its own.  The trace keeps every request, with the caller and
the reply.

What holds of every such run is shown call by call.  A discipline gives each call a phase, which
moves on with the replies and the ids that the call receives, and says what a call may ask for in
which phase.  `Program.Obeys` says that a program keeps to a discipline whatever it is answered;
nothing else about the programs is needed.  An invariant relates the service, the trace and the
phases, and has to be shown for one step at a time (`Discipline.Invariant`); then it holds after
every move (`Pool.Follows`).
-/

namespace FeatureFlags

variable {α φ : Type} {supply : Supply}

/-- A call of a command, with what is left of its program. -/
structure Call where
  command : Command
  rest : Action command.Result

/-- A call before its first step. -/
def Call.new (command : Command) : Call := ⟨command, command.program⟩

/-- The program has nothing left to do. -/
def Program.ended : Program α → Bool
  | .done _ => true
  | _ => false

theorem Call.eq_done {call : Call} (h : call.rest.ended = true) :
    ∃ command outcome, call = ⟨command, .done outcome⟩ := by
  obtain ⟨command, rest⟩ := call
  cases rest with
  | done outcome => exact ⟨command, outcome, rfl⟩
  | _ => cases h

/-- A request that a call has sent, with the reply. -/
structure Exchange where
  caller : Nat
  request : Store.Request
  reply : Except StoreError request.Reply

/-- A service, the calls that have been made to it, and what they have asked the store. -/
structure Pool where
  service : ServiceState
  calls : List Call
  trace : List Exchange

/-- What can happen in a pool: a command is called, a call takes a step, a switch is turned. -/
inductive Move where
  | start (command : Command)
  | step (caller : Nat)
  | failEnvironmentWrites (fail : Bool)
  | failProjectLinks (fail : Bool)

/-- The request of the first step of a program, if it is one. -/
def Program.exchanges (supply : Supply) (caller : Nat) (p : ServiceState) :
    Program α → List Exchange
  | .call request _ => [⟨caller, request, (p.call supply request).1⟩]
  | _ => []

namespace Pool

variable (supply : Supply)

/-- The next step of a call, if there is such a call. -/
def step (pool : Pool) (caller : Nat) : Pool :=
  match pool.calls[caller]? with
  | none => pool
  | some call =>
    let next := call.rest.step supply pool.service
    { service := next.2
      calls := pool.calls.set caller ⟨call.command, next.1⟩
      trace := pool.trace ++ call.rest.exchanges supply caller pool.service }

def move (pool : Pool) : Move → Pool
  | .start command => { pool with calls := pool.calls ++ [Call.new command] }
  | .step caller => pool.step supply caller
  | .failEnvironmentWrites fail => { pool with service.store.environmentWritesFail := fail }
  | .failProjectLinks fail => { pool with service.store.projectLinksFail := fail }

/-- A new service, to which no calls have been made. -/
def fresh : Pool := ⟨.fresh, [], []⟩

/-- Calls that are made to a service at once. -/
def ofCommands (p : ServiceState) (commands : List Command) : Pool :=
  ⟨p, commands.map Call.new, []⟩

/-- The calls take steps in this order. -/
def steps (pool : Pool) (schedule : List Nat) : Pool := schedule.foldl (step supply) pool

/-- The pool after these moves. -/
def run (pool : Pool) (moves : List Move) : Pool := moves.foldl (move supply) pool

theorem run_concat (pool : Pool) (moves : List Move) (m : Move) :
    pool.run supply (moves ++ [m]) = (pool.run supply moves).move supply m := by
  rw [run, List.foldl_append]
  rfl

/-- A step leaves every call the command that it is of. -/
theorem command_step (pool : Pool) (caller i : Nat) :
    (pool.step supply caller).calls[i]?.map Call.command = pool.calls[i]?.map Call.command := by
  rw [step]
  split
  case h_1 => rfl
  case h_2 call hcall =>
    rw [List.getElem?_set]
    split
    case isTrue heq =>
      subst heq
      rw [if_pos (List.getElem?_eq_some_iff.1 hcall).1, hcall]
      rfl
    case isFalse => rfl

theorem command_steps (pool : Pool) (schedule : List Nat) (i : Nat) :
    (pool.steps supply schedule).calls[i]?.map Call.command
      = pool.calls[i]?.map Call.command := by
  induction schedule generalizing pool with
  | nil => rfl
  | cons caller rest ih => exact (ih (pool.step supply caller)).trans (command_step ..)

/-- No call is in flight. -/
def Quiet (pool : Pool) : Prop := ∀ call ∈ pool.calls, call.rest.ended = true

instance (pool : Pool) : Decidable pool.Quiet :=
  inferInstanceAs (Decidable (∀ call ∈ pool.calls, call.rest.ended = true))

end Pool

/-! ### Disciplines -/

/-- Phases of calls, and what a call may do in which phase. -/
structure Discipline (φ : Type) where
  /-- The phase of a call before its first step. -/
  start : φ
  /-- A call in this phase may send this request. -/
  permits : φ → Store.Request → Prop
  /-- The phase after a reply. -/
  after : φ → (request : Store.Request) → Except StoreError request.Reply → φ
  /-- A call in this phase may take a new id. -/
  names : φ → Prop
  /-- The phase after a new id. -/
  named : φ → String → φ

/-- A program keeps to a discipline from a phase on, whatever it is answered, and ends in a phase
that fits its result. -/
def Program.Obeys (d : Discipline φ) (ends : φ → α → Prop) : Program α → φ → Prop
  | .done value, phase => ends phase value
  | .call request resume, phase =>
    d.permits phase request ∧ ∀ reply, (resume reply).Obeys d ends (d.after phase request reply)
  | .readClock resume, phase => ∀ now, (resume now).Obeys d ends phase
  | .newId resume, phase => d.names phase ∧ ∀ id, (resume id).Obeys d ends (d.named phase id)
  | .newKey resume, phase => ∀ key, (resume key).Obeys d ends phase
  | .count _ _ next, phase => next.Obeys d ends phase

section Obeys

variable {d : Discipline φ} {phase : φ} {ends : φ → Except ApiError α → Prop}

theorem Action.obeys_store {request : Store.Request} {resume : request.Reply → Action α}
    (hpermits : d.permits phase request)
    (hok : ∀ reply, (resume reply).Obeys d ends (d.after phase request (.ok reply)))
    (herror : ∀ e, ends (d.after phase request (.error e)) (.error (.ofStore e))) :
    (Action.store request resume).Obeys d ends phase := by
  refine ⟨hpermits, fun reply => ?_⟩
  cases reply with
  | ok reply => exact hok reply
  | error e => exact herror e

theorem Propagation.obeys_cascade {ids : List String} {flag : String} {rule : Option FlagRule}
    {resume : Nat → Action α} (hnil : ids = [] → (resume 0).Obeys d ends phase)
    (hpermits : d.permits phase (cascadeRequest ids flag rule))
    (hok : ∀ reply written,
      (resume written).Obeys d ends (d.after phase (cascadeRequest ids flag rule) (.ok reply)))
    (herror : ∀ e, ends (d.after phase (cascadeRequest ids flag rule) (.error e))
      (.error (.partialCascade flag))) :
    (cascade ids flag rule resume).Obeys d ends phase := by
  rw [cascade]
  split
  case isTrue hempty => exact hnil (List.isEmpty_iff.1 hempty)
  case isFalse =>
    refine ⟨hpermits, fun reply => ?_⟩
    cases reply with
    | ok reply => exact hok reply _
    | error e => exact herror e

end Obeys

namespace Discipline

/-- A relation between a service, a trace and the phases of the calls that is kept by everything
that a discipline permits. -/
structure Invariant (d : Discipline φ) (supply : Supply)
    (I : ServiceState → List Exchange → (Nat → φ) → Prop) : Prop where
  call : ∀ {p trace phases caller request}, I p trace phases →
    d.permits (phases caller) request →
    I (p.call supply request).2 (trace ++ [⟨caller, request, (p.call supply request).1⟩])
      (Function.update phases caller
        (d.after (phases caller) request (p.call supply request).1))
  name : ∀ {p trace phases caller}, I p trace phases → d.names (phases caller) →
    I { p with steps := p.steps + 1 } trace
      (Function.update phases caller (d.named (phases caller) (supply.id p.steps)))
  tick : ∀ {p trace phases}, I p trace phases → I { p with steps := p.steps + 1 } trace phases
  count : ∀ {p trace phases counters}, I p trace phases → I { p with counters } trace phases

end Discipline

namespace Pool

variable {d : Discipline φ} {ends : φ → (command : Command) → Except ApiError command.Result → Prop}
  {I : ServiceState → List Exchange → (Nat → φ) → Prop} {pool : Pool}

/-- The calls of a pool have phases that they keep to and that satisfy an invariant. -/
def Follows (d : Discipline φ)
    (ends : φ → (command : Command) → Except ApiError command.Result → Prop)
    (I : ServiceState → List Exchange → (Nat → φ) → Prop) (pool : Pool) : Prop :=
  ∃ phases : Nat → φ, (∀ i, pool.calls.length ≤ i → phases i = d.start) ∧
    (∀ i (call : Call), pool.calls[i]? = some call →
      call.rest.Obeys d (fun phase => ends phase call.command) (phases i)) ∧
    I pool.service pool.trace phases

/-- When no call is in flight, a call that has left the first phase has ended in one that fits its
result. -/
theorem Quiet.exists_ended (hquiet : pool.Quiet) {phases : Nat → φ}
    (hbeyond : ∀ i, pool.calls.length ≤ i → phases i = d.start)
    (hobeys : ∀ i (call : Call), pool.calls[i]? = some call →
      call.rest.Obeys d (fun phase => ends phase call.command) (phases i))
    {i : Nat} (hphase : phases i ≠ d.start) :
    ∃ command outcome, ⟨command, .done outcome⟩ ∈ pool.calls ∧
      ends (phases i) command outcome := by
  have hlt : i < pool.calls.length := by
    by_contra hge
    exact hphase (hbeyond i (Nat.le_of_not_lt hge))
  have hmem : pool.calls[i] ∈ pool.calls := List.getElem_mem hlt
  obtain ⟨command, outcome, hcall⟩ := Call.eq_done (hquiet _ hmem)
  have hends := hobeys i _ (List.getElem?_eq_getElem hlt)
  rw [hcall] at hends hmem
  exact ⟨command, outcome, hmem, hends⟩

/-- A call goes on with the rest of its program, in a phase that fits it.  The other calls keep
their phases. -/
theorem Follows.resume {phases : Nat → φ}
    (hbeyond : ∀ i, pool.calls.length ≤ i → phases i = d.start)
    (hobeys : ∀ i (call : Call), pool.calls[i]? = some call →
      call.rest.Obeys d (fun phase => ends phase call.command) (phases i))
    {caller : Nat} {command : Command} {old rest : Action command.Result} {phase : φ}
    {p : ServiceState} {trace : List Exchange} (hcall : pool.calls[caller]? = some ⟨command, old⟩)
    (hrest : rest.Obeys d (fun phase => ends phase command) phase)
    (hinv : I p trace (Function.update phases caller phase)) :
    Follows d ends I ⟨p, pool.calls.set caller ⟨command, rest⟩, trace⟩ := by
  have hlt : caller < pool.calls.length := (List.getElem?_eq_some_iff.1 hcall).1
  refine ⟨Function.update phases caller phase, fun i hi => ?_, fun i other hother => ?_, hinv⟩
  · rw [List.length_set] at hi
    have hne : i ≠ caller := by omega
    rw [Function.update_of_ne hne]
    exact hbeyond i hi
  · by_cases hne : i = caller
    · subst hne
      rw [List.getElem?_set_self hlt] at hother
      obtain rfl := Option.some.inj hother
      rw [Function.update_self]
      exact hrest
    · rw [List.getElem?_set_ne (Ne.symm hne)] at hother
      rw [Function.update_of_ne hne]
      exact hobeys i other hother

/-- A step keeps a pool to its discipline. -/
theorem Follows.step (h : pool.Follows d ends I) (hI : d.Invariant supply I) (caller : Nat) :
    (pool.step supply caller).Follows d ends I := by
  obtain ⟨phases, hbeyond, hobeys, hinv⟩ := h
  rw [Pool.step]
  cases hcall : pool.calls[caller]? with
  | none => exact ⟨phases, hbeyond, hobeys, hinv⟩
  | some call =>
    have hrest := hobeys caller call hcall
    -- a step that is no request leaves the trace, and most of them the phase
    have same : ∀ {p}, I p pool.trace phases →
        I p (pool.trace ++ []) (Function.update phases caller (phases caller)) := by
      intro p hp
      rwa [List.append_nil, Function.update_eq_self]
    obtain ⟨command, rest⟩ := call
    cases rest with
    | done value => exact Follows.resume hbeyond hobeys hcall hrest (same hinv)
    | call request resume =>
      exact Follows.resume hbeyond hobeys hcall (hrest.2 _) (hI.call hinv hrest.1)
    | readClock resume =>
      exact Follows.resume hbeyond hobeys hcall (hrest _) (same (hI.tick hinv))
    | newId resume =>
      refine Follows.resume hbeyond hobeys hcall (hrest.2 _) ?_
      show I _ (pool.trace ++ []) _
      rw [List.append_nil]
      exact hI.name hinv hrest.1
    | newKey resume =>
      exact Follows.resume hbeyond hobeys hcall (hrest _) (same (hI.tick hinv))
    | count series amount next =>
      exact Follows.resume hbeyond hobeys hcall hrest (same (hI.count hinv))

/-- Steps in any order keep a pool to its discipline. -/
theorem Follows.steps (h : pool.Follows d ends I) (hI : d.Invariant supply I)
    (schedule : List Nat) : (pool.steps supply schedule).Follows d ends I := by
  induction schedule generalizing pool with
  | nil => exact h
  | cons caller rest ih => exact ih (h.step hI caller)

/-- A new call starts in the phase before the first step. -/
theorem Follows.start (h : pool.Follows d ends I) {command : Command}
    (hobeys : command.program.Obeys d (fun phase => ends phase command) d.start) :
    Follows d ends I { pool with calls := pool.calls ++ [Call.new command] } := by
  obtain ⟨phases, hbeyond, hall, hinv⟩ := h
  -- the phases stay: an index past the end is in the first phase already
  refine ⟨phases, fun i hi => ?_, fun i call hcall => ?_, hinv⟩
  · rw [List.length_append] at hi
    exact hbeyond i (by omega)
  · by_cases hlt : i < pool.calls.length
    · rw [List.getElem?_append_left hlt] at hcall
      exact hall i call hcall
    · rw [List.getElem?_append_right (by omega)] at hcall
      obtain rfl := List.mem_singleton.1 (List.mem_of_getElem? hcall)
      rw [hbeyond i (by omega)]
      exact hobeys

end Pool

end FeatureFlags

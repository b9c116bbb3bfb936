import FeatureFlags.Metrics
import FeatureFlags.Store.Request

/-!
Programs over a store.

A program is what the service does for one request: a sequence of store requests, each an atomic
step, with readings of the clock, new ids, new keys and counts in between.  What comes next may
depend on the replies.  As programs are data, they can be run one after another (`Program.run`) or
step by step beside each other (`Program.step`); a run goes step by step (`Program.run_step`), and a
program that goes on with another is run by running both (`Program.run_bind`).
-/

namespace FeatureFlags

/-- A computation that talks to a store and ends with a value. -/
inductive Program (α : Type) where
  | done (value : α)
  | call (request : Store.Request) (resume : Except StoreError request.Reply → Program α)
  | readClock (resume : Timestamp → Program α)
  | newId (resume : String → Program α)
  | newKey (resume : String → Program α)
  | count (series : Series) (amount : Nat) (next : Program α)

namespace Program

variable {α β : Type}

/-- One program after another. -/
def bind : Program α → (α → Program β) → Program β
  | done value, next => next value
  | call request resume, next => call request fun reply => (resume reply).bind next
  | readClock resume, next => readClock fun now => (resume now).bind next
  | newId resume, next => newId fun id => (resume id).bind next
  | newKey resume, next => newKey fun key => (resume key).bind next
  | count series amount rest, next => count series amount (rest.bind next)

/-- Changes the result. -/
def map (f : α → β) (program : Program α) : Program β := program.bind fun value => done (f value)

/-- Adds one to a list of series. -/
def countEach (all : List Series) (next : Program α) : Program α :=
  all.foldr (fun series rest => count series 1 rest) next

end Program

/-- Where the readings of the clock and the new ids and keys come from.  A step of a run takes the
readings, the id or the key of its number. -/
structure Supply where
  /-- The reading of this index that the step of this number takes. -/
  reading : (step index : Nat) → Timestamp
  id : (step : Nat) → String
  key : (step : Nat) → String

/-- A service while it runs: its store, the store operations that are made to fail, its counters,
and the number of steps that it has taken. -/
structure ServiceState where
  store : Store
  faults : List (Store.Method × StoreError)
  counters : Counters
  steps : Nat

namespace ServiceState

/-- A new service with an empty store. -/
def fresh : ServiceState := ⟨.empty, [], [], 0⟩

instance : Inhabited ServiceState := ⟨fresh⟩

/-- Sends a request to the store.  An operation that is made to fail does nothing else. -/
def call (supply : Supply) (p : ServiceState) (request : Store.Request) :
    Except StoreError request.Reply × ServiceState :=
  match p.faults.lookup request.method with
  | some error => (.error error, { p with steps := p.steps + 1 })
  | none =>
    match p.store.perform (supply.reading p.steps) request with
    | .ok (reply, store) => (.ok reply, { p with store, steps := p.steps + 1 })
    | .error error => (.error error, { p with steps := p.steps + 1 })

/-- Makes an operation fail from now on, or work again. -/
def setFault (p : ServiceState) (method : Store.Method) (fault : Option StoreError) :
    ServiceState :=
  let others := p.faults.filter (·.1 ≠ method)
  { p with faults := match fault with
      | some error => (method, error) :: others
      | none => others }

end ServiceState

namespace Program

variable {α : Type}

/-- Runs a program to its end, with nothing beside it. -/
def run (supply : Supply) : Program α → ServiceState → α × ServiceState
  | done value, p => (value, p)
  | call request resume, p =>
    (resume (p.call supply request).1).run supply (p.call supply request).2
  | readClock resume, p =>
    (resume (supply.reading p.steps 0)).run supply { p with steps := p.steps + 1 }
  | newId resume, p => (resume (supply.id p.steps)).run supply { p with steps := p.steps + 1 }
  | newKey resume, p => (resume (supply.key p.steps)).run supply { p with steps := p.steps + 1 }
  | count series amount next, p =>
    next.run supply { p with counters := p.counters.add series amount }

/-- Takes the first step of a program, between whose steps those of others may come. -/
def step (supply : Supply) : Program α → ServiceState → Program α × ServiceState
  | done value, p => (done value, p)
  | call request resume, p => (resume (p.call supply request).1, (p.call supply request).2)
  | readClock resume, p => (resume (supply.reading p.steps 0), { p with steps := p.steps + 1 })
  | newId resume, p => (resume (supply.id p.steps), { p with steps := p.steps + 1 })
  | newKey resume, p => (resume (supply.key p.steps), { p with steps := p.steps + 1 })
  | count series amount next, p => (next, { p with counters := p.counters.add series amount })

/-- A run goes step by step. -/
theorem run_step (supply : Supply) (program : Program α) (p : ServiceState) :
    (program.step supply p).1.run supply (program.step supply p).2 = program.run supply p := by
  cases program <;> rfl

/-- One program after another is one run after another. -/
theorem run_bind {β : Type} (supply : Supply) (program : Program α) (next : α → Program β)
    (p : ServiceState) :
    (program.bind next).run supply p
      = (next (program.run supply p).1).run supply (program.run supply p).2 := by
  induction program generalizing p with
  | done value => rfl
  | call request resume ih => exact ih _ _
  | readClock resume ih => exact ih _ _
  | newId resume ih => exact ih _ _
  | newKey resume ih => exact ih _ _
  | count series amount rest ih => exact ih _

end Program

end FeatureFlags

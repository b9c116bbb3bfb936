import Mathlib.Data.List.Induction
import FeatureFlags.Proofs.Answering

/-!
Sessions: requests to a service, one after another, while parts of it fail and work again.

A session starts with a new service.  Between two requests a switch of the store may be turned, or
an operation of the store be made to fail.  What holds of the store throughout a session is shown
request by request (`Session.kept`), and for a request command by command.

A command hands on what the store has told it, so what it asks for may be in order only because the
replies were.  `Program.Asks` says so: the requests have a property, as long as the replies have
theirs, and then a run keeps whatever a request with the one property keeps while its reply has the
other (`Program.Asks.run`).
-/

namespace FeatureFlags

variable {α : Type}

/-! ### Programs that ask for something in return -/

namespace Program

/-- Every request that the program makes is one that may be asked, as long as every reply that it
is given is one that may be given. -/
def Asks (asked : Store.Request → Prop) (given : (request : Store.Request) → request.Reply → Prop) :
    Program α → Prop
  | done _ => True
  | call request resume => asked request ∧
      ∀ reply, (∀ value, reply = .ok value → given request value) → (resume reply).Asks asked given
  | readClock resume => ∀ now, (resume now).Asks asked given
  | newId resume => ∀ id, (resume id).Asks asked given
  | newKey resume => ∀ key, (resume key).Asks asked given
  | count _ _ next => next.Asks asked given

variable {asked : Store.Request → Prop}
  {given : (request : Store.Request) → request.Reply → Prop}

/-- What a request keeps that may be asked is kept by a run of such requests, if the replies are
those that may be given. -/
theorem Asks.run {supply : Supply} {kept : Store → Prop}
    (hstep : ∀ {s now request reply s'}, kept s → asked request →
      Store.perform now s request = .ok (reply, s') → kept s' ∧ given request reply)
    {program : Program α} (h : program.Asks asked given) {p : ServiceState} (hp : kept p.store) :
    kept (program.run supply p).2.store := by
  induction program generalizing p with
  | done value => exact hp
  | call request resume ih =>
    obtain ⟨hasked, hresume⟩ := h
    rw [Program.run]
    obtain ⟨reply, s', hs, hcall⟩ | ⟨e, -, hcall⟩ := p.call_cases supply request
    · obtain ⟨hkept, hgiven⟩ := hstep hp hasked hs
      rw [hcall]
      refine ih _ (hresume _ ?_) hkept
      rintro value ⟨⟩
      exact hgiven
    · -- a request that fails leaves the store as it is, and no reply is given
      rw [hcall]
      refine ih _ (hresume _ ?_) hp
      rintro value ⟨⟩
  | readClock resume ih => exact ih _ (h _) hp
  | newId resume ih => exact ih _ (h _) hp
  | newKey resume ih => exact ih _ (h _) hp
  | count series amount next ih => exact ih h hp

end Program

section Asks

variable {asked : Store.Request → Prop}
  {given : (request : Store.Request) → request.Reply → Prop}

theorem Action.asks_store {request : Store.Request} {resume : request.Reply → Action α}
    (hasked : asked request)
    (h : ∀ reply, given request reply → (resume reply).Asks asked given) :
    (Action.store request resume).Asks asked given := by
  refine ⟨hasked, fun reply hgiven => ?_⟩
  cases reply with
  | ok reply => exact h reply (hgiven reply rfl)
  | error e => exact trivial

theorem Propagation.asks_cascade {ids : List String} {flag : String} {rule : Option FlagRule}
    {resume : Nat → Action α} (hasked : asked (cascadeRequest ids flag rule))
    (h : ∀ written, (resume written).Asks asked given) :
    (cascade ids flag rule resume).Asks asked given := by
  rw [cascade]
  split
  case isTrue => exact h 0
  case isFalse =>
    refine ⟨hasked, fun reply _ => ?_⟩
    cases reply with
    | ok reply => exact h _
    | error e => exact trivial

end Asks

/-! ### Sessions -/

/-- A part of a session: a request that is answered, a switch of the store that is turned, or an
operation of the store that is made to fail or to work again. -/
inductive Event where
  | request (request : Http.Request)
  | failEnvironmentWrites (fail : Bool)
  | failProjectLinks (fail : Bool)
  | failOperation (method : Store.Method) (fault : Option StoreError)

namespace Session

variable (options : Service.Options) (supply : Supply)

/-- Goes on with one event. -/
def meet (p : ServiceState) : Event → ServiceState
  | .request request => (Service.answer options supply request p).2
  | .failEnvironmentWrites fail => { p with store.environmentWritesFail := fail }
  | .failProjectLinks fail => { p with store.projectLinksFail := fail }
  | .failOperation method fault => p.setFault method fault

/-- The service after a session. -/
def run (events : List Event) : ServiceState := events.foldl (meet options supply) .fresh

theorem run_concat (events : List Event) (event : Event) :
    run options supply (events ++ [event])
      = meet options supply (run options supply events) event := by
  rw [run, List.foldl_append]
  rfl

variable {options supply}

/-- What holds of the empty store, and is kept by the commands that requests ask for and by turns of
the switches, holds of the store throughout a session. -/
theorem kept {motive : Store → Prop} (new : motive .empty)
    (command : ∀ {request command p}, Service.requested? options request = some (.ok command) →
      motive p.store → motive (command.program.run supply p).2.store)
    (switch : ∀ {s} (environmentWritesFail projectLinksFail : Bool), motive s →
      motive { s with environmentWritesFail, projectLinksFail }) (events : List Event) :
    motive (run options supply events).store := by
  induction events using List.reverseRecOn with
  | nil => exact new
  | append_singleton events event ih =>
    rw [run_concat]
    cases event with
    | request request =>
      have hanswered := Service.answered options supply request (run options supply events)
      generalize hanswer : Service.answer options supply request (run options supply events)
        = answer at hanswered
      show motive (Service.answer options supply request (run options supply events)).2.store
      rw [hanswer]
      cases hanswered with
      | aside hrequested hstore => rwa [hstore]
      | refused hrouted hreads hstatus hstore => rwa [hstore]
      | carriedOut hrequested hrun =>
        have hkept := command hrequested ih
        rwa [hrun] at hkept
    | failEnvironmentWrites fail => exact switch fail _ ih
    | failProjectLinks fail => exact switch _ fail ih
    | failOperation method fault => exact ih

end Session

end FeatureFlags

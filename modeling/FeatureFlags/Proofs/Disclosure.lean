import FeatureFlags.Proofs.History.Keys
import FeatureFlags.Proofs.Http.Paths
import FeatureFlags.Proofs.Store.Keyless

/-!
The administration discloses no keys.

A program is blind to keys if it goes on with a reply as it goes on with the reply whose keys are
taken away (`Program.Blind`).  Two runs of a blind program that start from services which are the
same up to keys end alike, and leave services which are the same up to keys
(`Program.Blind.run_eq`).  What a request to a path of the administration comes to is blind
(`Service.blind_handle`): only two operations are answered with keys at all, and what is shown of
their environment leaves them out.
-/

namespace FeatureFlags

variable {α β : Type} {supply : Supply} {p q : ServiceState}

/-! ### Services without keys -/

namespace ServiceState

/-- The service without the keys of its environments. -/
def keyless (p : ServiceState) : ServiceState := { p with store := p.store.keyless }

theorem steps_eq (h : p.keyless = q.keyless) : p.steps = q.steps := (congrArg steps h :)

theorem keyless_tick (h : p.keyless = q.keyless) :
    ({ p with steps := p.steps + 1 } : ServiceState).keyless
      = ({ q with steps := q.steps + 1 } : ServiceState).keyless :=
  (congrArg (fun r : ServiceState => { r with steps := r.steps + 1 }) h :)

theorem keyless_count (h : p.keyless = q.keyless) (series : Series) (amount : Nat) :
    ({ p with counters := p.counters.add series amount } : ServiceState).keyless
      = ({ q with counters := q.counters.add series amount } : ServiceState).keyless :=
  (congrArg (fun r : ServiceState => { r with counters := r.counters.add series amount }) h :)

theorem keyless_after {s t : Store} (h : p.keyless = q.keyless) (hstore : s.keyless = t.keyless) :
    (p.after s).keyless = (q.after t).keyless := by
  show { p.keyless with store := s.keyless, steps := p.keyless.steps + 1 }
    = { q.keyless with store := t.keyless, steps := q.keyless.steps + 1 }
  rw [h, hstore]

/-- Services that are the same up to keys get replies, and are left in states, that are the same up
to keys. -/
theorem call_eq (supply : Supply) (h : p.keyless = q.keyless) (request : Store.Request) :
    (p.call supply request).1.map request.keyless = (q.call supply request).1.map request.keyless ∧
      (p.call supply request).2.keyless = (q.call supply request).2.keyless := by
  have hstore : p.store.keyless = q.store.keyless := congrArg store h
  have hfaults : p.faults = q.faults := (congrArg faults h :)
  -- both stores are compared with the one that is left when the keys are taken away first
  have hperform : Store.erased request.keyless
        (p.store.perform (supply.reading p.steps) request)
      = Store.erased request.keyless (q.store.perform (supply.reading q.steps) request) := by
    rw [← Store.erased_perform, ← Store.erased_perform _ q.store, hstore, steps_eq h]
  rw [call, call]
  cases hfault : q.faults.lookup request.method with
  | some error =>
    rw [show p.faults.lookup request.method = some error from hfaults ▸ hfault]
    exact ⟨rfl, keyless_after h hstore⟩
  | none =>
    rw [show p.faults.lookup request.method = none from hfaults ▸ hfault]
    obtain ⟨error, hp, hq⟩ | ⟨reply, reply', s, t, hp, hq, hreply, hleft⟩ :=
      Store.erased_cases hperform
    · rw [hp, hq]
      exact ⟨rfl, keyless_after h hstore⟩
    · rw [hp, hq]
      exact ⟨congrArg Except.ok hreply, keyless_after h hleft⟩

end ServiceState

/-! ### Programs that are blind to keys -/

namespace Program

/-- Whatever a reply says of keys, the program goes on in the same way. -/
def Blind : Program α → Prop
  | done _ => True
  | call request resume =>
    (∀ reply, resume (.ok reply) = resume (.ok (request.keyless reply))) ∧
      ∀ reply, (resume reply).Blind
  | readClock resume => ∀ now, (resume now).Blind
  | newId resume => ∀ id, (resume id).Blind
  | newKey resume => ∀ key, (resume key).Blind
  | count _ _ next => next.Blind

namespace Blind

theorem bind {program : Program α} {next : α → Program β} (h : program.Blind)
    (hnext : ∀ value, (next value).Blind) : (program.bind next).Blind := by
  induction program with
  | done value => exact hnext value
  | call request resume ih =>
    exact ⟨fun reply => congrArg (·.bind next) (h.1 reply), fun reply => ih reply (h.2 reply)⟩
  | readClock resume ih => exact fun now => ih now (h now)
  | newId resume ih => exact fun id => ih id (h id)
  | newKey resume ih => exact fun key => ih key (h key)
  | count series amount rest ih => exact ih h

theorem map {program : Program α} (h : program.Blind) (f : α → β) : (program.map f).Blind :=
  h.bind fun _ => trivial

/-- A program that is never replied with an environment is blind. -/
theorem of_uses {program : Program α}
    (h : program.Uses fun m => m ≠ .getEnvironment ∧ m ≠ .renameEnvironment) : program.Blind := by
  induction program with
  | done value => exact trivial
  | call request resume ih =>
    refine ⟨fun reply => ?_, fun reply => ih reply (h.2 reply)⟩
    rw [Store.Request.keyless_eq_id h.1.1 h.1.2, id]
  | readClock resume ih => exact fun now => ih now (h now)
  | newId resume ih => exact fun id => ih id (h id)
  | newKey resume ih => exact fun key => ih key (h key)
  | count series amount next ih => exact ih h

/-- A program that is blind to keys runs alike on services that are the same up to keys. -/
theorem run_eq {program : Program α} (hblind : program.Blind) (h : p.keyless = q.keyless) :
    (program.run supply p).1 = (program.run supply q).1 ∧
      (program.run supply p).2.keyless = (program.run supply q).2.keyless := by
  induction program generalizing p q with
  | done value => exact ⟨rfl, h⟩
  | call request resume ih =>
    obtain ⟨hreply, hafter⟩ := ServiceState.call_eq supply h request
    -- the replies may differ in keys, but the program goes on as if both showed none
    have hresume : ∀ reply, resume reply = resume (reply.map request.keyless) := by
      rintro (error | reply)
      · rfl
      · exact hblind.1 reply
    rw [run, run, hresume (p.call supply request).1, hreply, ← hresume]
    exact ih _ (hblind.2 _) hafter
  | readClock resume ih =>
    rw [run, run, ServiceState.steps_eq h]
    exact ih _ (hblind _) (ServiceState.steps_eq h ▸ ServiceState.keyless_tick h)
  | newId resume ih =>
    rw [run, run, ServiceState.steps_eq h]
    exact ih _ (hblind _) (ServiceState.steps_eq h ▸ ServiceState.keyless_tick h)
  | newKey resume ih =>
    rw [run, run, ServiceState.steps_eq h]
    exact ih _ (hblind _) (ServiceState.steps_eq h ▸ ServiceState.keyless_tick h)
  | count series amount next ih =>
    rw [run, run]
    exact ih hblind (ServiceState.keyless_count h series amount)

end Blind

end Program

/-! ### The administration is blind -/

namespace Service

open Http Program

/-- Only two commands are replied with keys, and what is shown of the environment leaves them
out. -/
theorem blind_carryOut (command : Except ApiError Command) : (carryOut command).Blind := by
  cases command with
  | error error => exact trivial
  | ok command =>
    have hmethods : (∀ m ∈ command.methods, m ≠ .getEnvironment ∧ m ≠ .renameEnvironment) →
        (carryOut (.ok command)).Blind := by
      intro h
      rw [carryOut]
      exact (Blind.of_uses (command.program_uses.mono h)).map _
    cases command with
    | getEnvironment id =>
      refine ⟨fun _ => rfl, fun reply => ?_⟩
      cases reply <;> exact trivial
    | renameEnvironment id name =>
      refine ⟨fun _ => rfl, fun reply => ?_⟩
      cases reply <;> exact trivial
    | _ => exact hmethods (by simp [Command.methods])

theorem blind_listProjects (options : Options) (query : List Char) :
    (listProjects options query).Blind := by
  rw [listProjects]
  split
  · refine Blind.map (Blind.of_uses ?_) _
    exact Action.uses_store (by simp [Store.Request.method]) fun _ => trivial
  · exact trivial

theorem blind_perform {options : Options} {request : Request} {operation : Operation}
    (h : operation.administers = true) : (perform options request operation).Blind := by
  cases hcommand : bodyCommand? request.body operation with
  | some command =>
    rw [perform_eq_carryOut options request operation hcommand]
    exact blind_carryOut command
  | none =>
    cases operation with
    | listProjects => exact blind_listProjects options request.query
    | index | health | readiness | samples | getRules | evaluateFlags | evaluateFlag => cases h
    | _ => cases hcommand

theorem blind_counted {request : Request} {path : String} {response : Program Response}
    (h : response.Blind) : (counted request path response).Blind :=
  h.bind fun _ => trivial

/-- What a request to a path of the administration comes to is blind to keys. -/
theorem blind_handle (options : Options) {request : Request}
    (h : "/admin/".toList <+: request.path) : (handle options request).Blind := by
  rw [handle]
  cases hfind : Operation.find (routes options) request.method request.path with
  | unknownPath => exact blind_counted trivial
  | unreadablePath template => exact blind_counted trivial
  | unknownMethod template allow =>
    simp only
    split
    · exact trivial
    · exact blind_counted trivial
  | operation template operation =>
    have hadministers := Operation.administers_of_find hfind h
    have hperformed : (performWithin options request operation).Blind := by
      rw [performWithin]
      split
      · exact trivial
      · exact blind_perform hadministers
    cases operation with
    | samples => cases hadministers
    | _ => exact blind_counted (hperformed.map _)

/-- A request to a path of the administration is never answered with the counters, and so with what
it comes to. -/
theorem answer_eq_handle (options : Options) (supply : Supply) {request : Request}
    (h : "/admin/".toList <+: request.path) (p : ServiceState) :
    answer options supply request p = (handle options request).run supply p := by
  rw [answer]
  split
  case h_1 template hfind => cases Operation.administers_of_find hfind h
  case h_2 => rfl

end Service

/-! ### Runs of requests -/

namespace Ledger

/-- The same requests have been answered in the same way, by services that are the same up to
keys. -/
structure SameButKeys (a b : Ledger) : Prop where
  visits : a.visits = b.visits
  service : a.service.keyless = b.service.keyless

variable {a b : Ledger} {request : Http.Request} {requests : List Http.Request}

/-- One more request to the administration. -/
theorem SameButKeys.serve (h : SameButKeys a b) (options : Service.Options) (supply : Supply)
    (hpath : "/admin/".toList <+: request.path) :
    SameButKeys (a.serve options supply request) (b.serve options supply request) := by
  obtain ⟨hresponse, hservice⟩ : (Service.answer options supply request a.service).1
        = (Service.answer options supply request b.service).1 ∧
      (Service.answer options supply request a.service).2.keyless
        = (Service.answer options supply request b.service).2.keyless := by
    rw [Service.answer_eq_handle options supply hpath,
      Service.answer_eq_handle options supply hpath]
    exact (Service.blind_handle options hpath).run_eq h.service
  refine ⟨?_, hservice⟩
  rw [Ledger.serve, Ledger.serve, hresponse, h.visits]

/-- Any requests to the administration, one after the other. -/
theorem SameButKeys.run (h : SameButKeys a b) (options : Service.Options) (supply : Supply)
    (hadmin : ∀ request ∈ requests, "/admin/".toList <+: request.path) :
    SameButKeys (requests.foldl (Ledger.serve options supply) a)
      (requests.foldl (Ledger.serve options supply) b) := by
  induction requests generalizing a b with
  | nil => exact h
  | cons request rest ih =>
    obtain ⟨hpath, hrest⟩ := List.forall_mem_cons.1 hadmin
    exact ih (h.serve options supply hpath) hrest

/-- **The administration discloses no keys**: two services that are the same up to keys answer any
requests to paths of the administration alike, one after the other, and are the same up to keys
afterwards. -/
theorem keys_undisclosed (options : Service.Options) (supply : Supply)
    (h : p.keyless = q.keyless) (hadmin : ∀ request ∈ requests, "/admin/".toList <+: request.path) :
    SameButKeys (requests.foldl (Ledger.serve options supply) ⟨p, []⟩)
      (requests.foldl (Ledger.serve options supply) ⟨q, []⟩) := by
  have hstart : SameButKeys ⟨p, []⟩ ⟨q, []⟩ := ⟨rfl, h⟩
  exact hstart.run options supply hadmin

/-- An environment with a key and the same without it are shown alike, and the key is deleted
alike. -/
theorem keys_undisclosed_deleteKey :
    let options : Service.Options := ⟨10, true⟩
    let keys : KeyMap := SortedMap.empty.insert "k" ⟨"web", ⟨0, 0⟩⟩
    let environments := ServiceState.shopTest.store.environments.mapValues fun _ e =>
      { e with clientSideKeys := keys }
    let keyed : ServiceState := { ServiceState.shopTest with store.environments := environments }
    let requests : List Http.Request :=
      [⟨"GET", "/admin/iiiii", [], []⟩, ⟨"DELETE", "/admin/iiiii/client_side_key/k", [], []⟩,
        ⟨"GET", "/admin/iiiii?verbose", [], []⟩]
    (environments.get? "iiiii").map (fun e => e.clientSideKeys.contains "k") = some true ∧
      keyed.keyless = ServiceState.shopTest.keyless ∧
      SameButKeys (requests.foldl (Ledger.serve options Supply.counting) ⟨keyed, []⟩)
        (requests.foldl (Ledger.serve options Supply.counting) ⟨.shopTest, []⟩) := by
  intro options keys environments keyed requests
  have hkeyless : keyed.keyless = ServiceState.shopTest.keyless := by
    rw [ServiceState.keyless, Store.keyless, SortedMap.mapValues_mapValues]
    rfl
  have hadmin : ∀ request ∈ requests, "/admin/".toList <+: request.path := by decide +kernel
  exact ⟨by decide +kernel, hkeyless, keys_undisclosed options Supply.counting hkeyless hadmin⟩

end Ledger

end FeatureFlags

import Mathlib.Data.List.Induction
import Mathlib.Data.List.Pairwise
import FeatureFlags.Proofs.Access
import FeatureFlags.Proofs.Isolation

/-!
Keys over the requests that a service has answered.

A response hands a key out once, and only the log of requests and responses says which keys are in
force: those that were handed out for an environment and have not been deleted since
(`Ledger.Issued`).  One request changes the keys of an environment as its response says, and a new
environment has none (`Turnover`).  As ids and keys do not repeat, the log and the store then agree
at every point of a run (`Ledger.Kept`), so that a key lets a request in exactly while it is issued,
and nowhere but where it was issued (`Ledger.keys_follow_log`).
-/

namespace FeatureFlags

open Store

variable {supply : Supply}

theorem Supply.counting_key_injective : Function.Injective counting.key := by
  intro m n h
  have hlength := congrArg List.length (String.ofList_injective h)
  rwa [List.length_replicate, List.length_replicate] at hlength

/-! ### What a command does to keys -/

namespace Command

/-- The key that a command has created, with its kind and its environment. -/
def grants? : (command : Command) → Except ApiError command.Result →
    Option (KeyScope × String × String)
  | createKey scope id _, .ok (key : ApiKey) => some (scope, id, key.key)
  | _, _ => none

variable {m n : Nat} {command : Command} {outcome : Except ApiError command.Result} {s s' : Store}
  {id key : String} {scope : KeyScope} {e e' : Environment}

/-- Only the creation or the deletion of a key of an environment is addressed to it. -/
theorem key_of_part (hpart : command.environmentPart outcome = some (.key scope key))
    (hid : command.environment? = some id) :
    command.grants? outcome = some (scope, id, key) ∨ command = .deleteKey scope id key := by
  cases command with
  | createKey =>
    cases outcome with
    | error e => cases hpart
    | ok created =>
      cases hid
      cases hpart
      exact .inl rfl
  | deleteKey =>
    cases hid
    cases hpart
    exact .inr rfl
  | _ => cases hpart

namespace Ends

/-- Other commands leave the keys of an environment as they are. -/
theorem keys_kept (h : Ends supply m n command outcome s s')
    (he : s.environments.get? id = some e) (he' : s'.environments.get? id = some e')
    (hgrants : command.grants? outcome ≠ some (scope, id, key))
    (hrevokes : command ≠ .deleteKey scope id key) :
    (e'.keys scope).get? key = (e.keys scope).get? key := by
  have hfate := h.environment_fate id
  rw [he, he'] at hfate
  cases hfate with
  | kept => rfl
  | @changed part _ _ haddressed hpart hagrees =>
    refine hagrees.keys scope key fun hkey => ?_
    subst hkey
    -- a cascade writes flags only
    have hid : command.environment? = some id := by
      refine haddressed.resolve_right fun ⟨project, flag, hcascade, _⟩ => ?_
      cases command with
      | addFlag | removeFlag | resyncFlag => cases hpart
      | _ => cases hcascade
    rcases key_of_part hpart hid with hgranted | hrevoked
    · exact hgrants hgranted
    · exact hrevokes hrevoked

theorem contains_of_grants (h : Ends supply m n command outcome s s')
    (hgrants : command.grants? outcome = some (scope, id, key))
    (he' : s'.environments.get? id = some e') : (e'.keys scope).contains key = true := by
  cases h with
  | createKey =>
    cases hgrants
    rw [SortedMap.get?_insert, if_pos rfl] at he'
    obtain rfl := Option.some.inj he'
    rw [Environment.keys_rekey, if_pos rfl, SortedMap.contains, SortedMap.get?_insert, if_pos rfl]
    rfl
  | failed => cases command <;> cases hgrants
  | _ => cases hgrants

/-- A key that is created is a new one, of an environment that exists. -/
theorem of_grants (h : Ends supply m n command outcome s s')
    (hgrants : command.grants? outcome = some (scope, id, key)) :
    s.environments.contains id = true ∧ supply.Keys m n key := by
  cases h with
  | createKey he hkey =>
    cases hgrants
    exact ⟨by rw [SortedMap.contains, he]; rfl, hkey⟩
  | failed => cases command <;> cases hgrants
  | _ => cases hgrants

theorem not_contains_of_deleteKey {outcome : Except ApiError Unit}
    (h : Ends supply m n (.deleteKey scope id key) outcome s s') (hok : outcome = .ok ())
    (he' : s'.environments.get? id = some e') : ¬ (e'.keys scope).contains key = true := by
  cases h with
  | failed => cases hok
  | deleteKey he =>
    rw [SortedMap.get?_insert, if_pos rfl] at he'
    obtain rfl := Option.some.inj he'
    rw [Environment.keys_rekey, if_pos rfl, SortedMap.contains, SortedMap.get?_erase, if_pos rfl]
    exact Bool.false_ne_true

/-- A new environment has a new id, and no keys. -/
theorem of_created (h : Ends supply m n command outcome s s')
    (habsent : s.environments.get? id = none) (he' : s'.environments.get? id = some e') :
    supply.Names m n id ∧ ∀ scope, e'.keys scope = .empty := by
  have hfate := h.environment_fate id
  rw [habsent, he'] at hfate
  cases hfate with
  | created hcommand hid =>
    subst hcommand
    cases h with
    | failed => cases habsent.symm.trans he'
    | createEnvironment hp hnames =>
      rw [SortedMap.get?_insert] at he'
      split at he'
      case isTrue heq =>
        subst heq
        obtain rfl := Option.some.inj he'
        exact ⟨hnames, fun scope => by cases scope <;> rfl⟩
      case isFalse => cases habsent.symm.trans he'

end Ends

/-- A key of an environment that exists can be deleted, whether or not it is there. -/
theorem run_deleteKey {p p' : ServiceState} (hfaults : p.faults = [])
    (he : p.store.environments.get? id = some e) {outcome : Except ApiError Unit}
    (hrun : (deleteKey scope id key).program.run supply p = (outcome, p')) : outcome = .ok () := by
  obtain ⟨_, s', -, hok⟩ | ⟨error, hs, -⟩ :=
    Action.run_store supply (deleteKey scope id key).program rfl p
  · exact (Prod.mk.inj (hrun.symm.trans hok)).1
  · have hfail : silent (p.store.deleteApiKey id scope key (supply.reading p.steps 0))
        = .error error := hs hfaults
    rw [deleteApiKey_eq_ok.2 ⟨e, he, rfl⟩] at hfail
    cases hfail

end Command

/-! ### Visits -/

/-- The key that a response hands out. -/
def Http.Response.handsOut? (response : Http.Response) : Option String :=
  match response.status, response.content with
  | 201, .json (.object fields) =>
    match fields.lookup "key" with
    | some (.string key) => some key
    | _ => none
  | _, _ => none

theorem Http.Response.handsOut?_of_status {response : Http.Response} (h : 400 ≤ response.status) :
    response.handsOut? = none := by
  rw [handsOut?]
  split
  case h_1 hstatus _ => omega
  case h_2 => rfl

theorem Command.handsOut?_createKey (scope : KeyScope) (id name : String) (created : ApiKey) :
    Http.Response.handsOut? ((Command.createKey scope id name).response created)
      = some created.key := by
  have hfields : ([("key", Json.string created.key), ("name", .string created.name),
      ("created_at", created.createdAt.toJson)].foldl
        (fun entries field => insertEntry field.1 field.2 entries) []).lookup "key"
      = some (.string created.key) := by
    simp [lookup_insertEntry]
  simp only [Command.response, Http.Response.handsOut?, Http.Response.ofJson, ApiKey.toJson,
    Json.ofFields, hfields]

/-- A request that has been answered. -/
structure Visit where
  request : Http.Request
  response : Http.Response

namespace Visit

variable (options : Service.Options) (visit : Visit) (scope : KeyScope) (id key : String)

/-- A key of this kind was asked for and handed out for the environment. -/
def Grants : Prop :=
  Service.routed? options visit.request = some (.createKey scope id) ∧
    visit.response.handsOut? = some key

/-- The deletion of the key of this kind was asked for. -/
def Revokes : Prop := Service.routed? options visit.request = some (.deleteKey scope id key)

/-- No key was handed out by both. -/
def Distinct (a b : Visit) : Prop :=
  ∀ scope id scope' id' key, a.Grants options scope id key → ¬ b.Grants options scope' id' key

instance : Std.Symm (Distinct options) where
  symm _ _ h scope id scope' id' key hb ha := h scope' id' scope id key ha hb

variable {options visit scope id key}

theorem not_grants_of_status (hstatus : 400 ≤ visit.response.status) :
    ¬ visit.Grants options scope id key := by
  rintro ⟨-, hkey⟩
  rw [Http.Response.handsOut?_of_status hstatus] at hkey
  cases hkey

variable {request : Http.Request} {command : Command} {outcome : Except ApiError command.Result}

/-- The response to a command hands out what the command has created. -/
theorem grants_iff (hrequested : Service.requested? options request = some (.ok command)) :
    (⟨request, Service.trimmed request (Service.outcomeResponse command outcome)⟩ :
      Visit).Grants options scope id key ↔ command.grants? outcome = some (scope, id, key) := by
  have hrouted := Service.routed?_of_requested? hrequested
  cases command with
  | createKey scope' id' name =>
    rw [Service.trimmed_of_readsBody hrouted rfl]
    cases outcome with
    | error error =>
      refine iff_of_false (not_grants_of_status (Service.errorResponse_status error)) nofun
    | ok created =>
      have hkey := Command.handsOut?_createKey scope' id' name created
      show (Service.routed? options request = _ ∧
          Http.Response.handsOut? ((Command.createKey scope' id' name).response created) = _) ↔
        some (scope', id', ApiKey.key created) = _
      rw [hrouted, hkey]
      simp [Service.commandOperation, and_assoc]
  | _ =>
    refine iff_of_false (fun ⟨hcreate, _⟩ => ?_) nofun
    cases hrouted.symm.trans hcreate

theorem revokes_iff {response : Http.Response}
    (hrequested : Service.requested? options request = some (.ok command)) :
    (⟨request, response⟩ : Visit).Revokes options scope id key
      ↔ command = .deleteKey scope id key := by
  have hrouted := Service.routed?_of_requested? hrequested
  rw [Revokes, hrouted]
  cases command <;> simp [Service.commandOperation]

end Visit

/-- What a request does to the keys of the environments, as its response says. -/
structure Turnover (options : Service.Options) (supply : Supply) (visit : Visit)
    (p p' : ServiceState) : Prop where
  keys : ∀ {id e e'}, p.store.environments.get? id = some e →
    p'.store.environments.get? id = some e' → ∀ scope key,
      (e'.keys scope).contains key = true ↔ visit.Grants options scope id key ∨
        (e.keys scope).contains key = true ∧ ¬ visit.Revokes options scope id key
  created : ∀ {id e'}, p.store.environments.get? id = none →
    p'.store.environments.get? id = some e' →
      supply.Names p.steps p'.steps id ∧ ∀ scope, e'.keys scope = .empty
  granted : ∀ {scope id key}, visit.Grants options scope id key →
    p.store.environments.contains id = true ∧ supply.Keys p.steps p'.steps key

namespace Turnover

variable {options : Service.Options} {request : Http.Request} {visit : Visit}
  {p p' : ServiceState}

theorem of_store (hstore : p'.store = p.store)
    (hgrants : ∀ scope id key, ¬ visit.Grants options scope id key)
    (hrevokes : ∀ scope id key, ¬ visit.Revokes options scope id key) :
    Turnover options supply visit p p' where
  keys {id e e'} he he' scope key := by
    rw [hstore, he] at he'
    obtain rfl := Option.some.inj he'
    simp [hgrants, hrevokes]
  created habsent he' := by
    rw [hstore, habsent] at he'
    cases he'
  granted h := absurd h (hgrants _ _ _)

theorem of_ends {command : Command} {outcome : Except ApiError command.Result}
    (hfaults : p.faults = [])
    (hrequested : Service.requested? options request = some (.ok command))
    (hrun : command.program.run supply p = (outcome, p')) :
    Turnover options supply
      ⟨request, Service.trimmed request (Service.outcomeResponse command outcome)⟩ p p' where
  keys {id e e'} he he' scope key := by
    have hends := Command.ends_run hfaults hrun
    rw [Visit.grants_iff hrequested, Visit.revokes_iff hrequested]
    by_cases hgrants : command.grants? outcome = some (scope, id, key)
    · exact iff_of_true (hends.contains_of_grants hgrants he') (.inl hgrants)
    by_cases hrevokes : command = .deleteKey scope id key
    · subst hrevokes
      have hok := Command.run_deleteKey hfaults he hrun
      refine iff_of_false (hends.not_contains_of_deleteKey hok he') ?_
      rintro (hgranted | ⟨-, hkept⟩)
      · exact hgrants hgranted
      · exact hkept rfl
    · rw [SortedMap.contains, hends.keys_kept he he' hgrants hrevokes, ← SortedMap.contains]
      simp [hgrants, hrevokes]
  created habsent he' := (Command.ends_run hfaults hrun).of_created habsent he'
  granted h := (Command.ends_run hfaults hrun).of_grants ((Visit.grants_iff hrequested).1 h)

/-- Every request that is answered changes the keys in this way. -/
theorem answer (hfaults : p.faults = []) (options : Service.Options) (request : Http.Request) :
    Turnover options supply ⟨request, (Service.answer options supply request p).1⟩ p
      (Service.answer options supply request p).2 := by
  have hanswered := Service.answered options supply request p
  generalize Service.answer options supply request p = answer at hanswered
  cases hanswered with
  | aside hrequested hstore =>
    have hrouted : ∀ operation, Service.routed? options request = some operation →
        Service.bodyCommand? request.body operation = none := by
      intro operation hrouted
      rwa [Service.requested?, hrouted] at hrequested
    refine of_store hstore (fun scope id key hgrants => ?_) fun scope id key hrevokes => ?_
    · cases hrouted _ hgrants.1
    · cases hrouted _ hrevokes
  | refused hrouted hreads hstatus hstore =>
    refine of_store hstore (fun scope id key => Visit.not_grants_of_status hstatus) ?_
    intro scope id key hrevokes
    obtain rfl := Option.some.inj (hrouted.symm.trans hrevokes)
    cases hreads
  | carriedOut hrequested hrun =>
    have hturnover : Turnover options supply ⟨request, _⟩ p _ := of_ends hfaults hrequested hrun
    exact ⟨hturnover.keys, hturnover.created, hturnover.granted⟩

end Turnover

/-! ### Runs of requests -/

/-- A service and the requests that it has answered, the latest first. -/
structure Ledger where
  service : ServiceState
  visits : List Visit

namespace Ledger

/-- A new service, before its first request. -/
def fresh : Ledger := ⟨.fresh, []⟩

variable (options : Service.Options) (supply : Supply)

/-- Answers one more request. -/
def serve (ledger : Ledger) (request : Http.Request) : Ledger :=
  let answer := Service.answer options supply request ledger.service
  ⟨answer.2, ⟨request, answer.1⟩ :: ledger.visits⟩

/-- The ledger of a run from a new service. -/
def run (requests : List Http.Request) : Ledger := requests.foldl (serve options supply) fresh

/-- The key was handed out for the environment, and its deletion has not been asked for since. -/
def Issued (visits : List Visit) (scope : KeyScope) (id key : String) : Prop :=
  ∃ later visit earlier, visits = later ++ visit :: earlier ∧ visit.Grants options scope id key ∧
    ∀ other ∈ later, ¬ Visit.Revokes options other scope id key

variable {options supply}

theorem issued_cons {visit : Visit} {visits : List Visit} {scope : KeyScope} {id key : String} :
    Issued options (visit :: visits) scope id key ↔ visit.Grants options scope id key ∨
      Issued options visits scope id key ∧ ¬ visit.Revokes options scope id key := by
  constructor
  · rintro ⟨later, granted, earlier, hvisits, hgrants, hlater⟩
    cases later with
    | nil =>
      obtain ⟨rfl, -⟩ := List.cons.inj hvisits
      exact .inl hgrants
    | cons first later =>
      obtain ⟨rfl, rfl⟩ := List.cons.inj hvisits
      refine .inr ⟨⟨later, granted, earlier, rfl, hgrants, fun other hother => ?_⟩, ?_⟩
      · exact hlater other (List.mem_cons_of_mem _ hother)
      · exact hlater visit (List.mem_cons_self ..)
  · rintro (hgrants | ⟨⟨later, granted, earlier, rfl, hgrants, hlater⟩, hkept⟩)
    · exact ⟨[], visit, visits, rfl, hgrants, nofun⟩
    · refine ⟨visit :: later, granted, earlier, rfl, hgrants, fun other hother => ?_⟩
      rcases List.mem_cons.1 hother with rfl | hother
      · exact hkept
      · exact hlater other hother

theorem Issued.exists_grants {visits : List Visit} {scope : KeyScope} {id key : String}
    (h : Issued options visits scope id key) :
    ∃ visit ∈ visits, visit.Grants options scope id key := by
  obtain ⟨later, visit, earlier, rfl, hgrants, -⟩ := h
  exact ⟨visit, by simp, hgrants⟩

/-- The store agrees with the log, which names ids and keys that the run has taken, and each key
once. -/
structure Kept (options : Service.Options) (supply : Supply) (ledger : Ledger) : Prop where
  faults : ledger.service.faults = []
  issued : ∀ {id}, ledger.service.store.environments.contains id = true →
    supply.Issued ledger.service.steps id
  granted : ∀ {visit}, visit ∈ ledger.visits → ∀ {scope id key}, visit.Grants options scope id key →
    supply.Issued ledger.service.steps id ∧ ∃ k < ledger.service.steps, supply.key k = key
  once : ledger.visits.Pairwise (Visit.Distinct options)
  holds : ∀ {id e}, ledger.service.store.environments.get? id = some e → ∀ scope key,
    (e.keys scope).contains key = true ↔ Issued options ledger.visits scope id key

theorem kept_fresh : Kept options supply fresh where
  faults := rfl
  issued h := by cases h
  granted h := by cases h
  once := List.Pairwise.nil
  holds h := by cases h

theorem Kept.serve {ledger : Ledger} (h : Kept options supply ledger)
    (hids : Function.Injective supply.id) (hkeys : Function.Injective supply.key)
    (request : Http.Request) : Kept options supply (ledger.serve options supply request) := by
  have hturn : Turnover options supply _ ledger.service _ :=
    Turnover.answer h.faults options request
  have hsteps := Service.steps_le_answer options supply request ledger.service
  refine ⟨?_, ?_, ?_, ?_, ?_⟩
  · exact (Service.answer_faults options supply request ledger.service).trans h.faults
  · intro id hexists
    obtain ⟨e', he'⟩ := Option.isSome_iff_exists.1 hexists
    cases hbefore : ledger.service.store.environments.get? id with
    | none =>
      obtain ⟨k, -, hk, hid⟩ := (hturn.created hbefore he').1
      exact ⟨k, hk, hid⟩
    | some e =>
      have hissued : supply.Issued ledger.service.steps id :=
        h.issued (by rw [SortedMap.contains, hbefore]; rfl)
      exact hissued.mono hsteps
  · intro visit hvisit scope id key hgrants
    rcases List.mem_cons.1 hvisit with rfl | hvisit
    · obtain ⟨hexists, k, -, hk, hkey⟩ := hturn.granted hgrants
      exact ⟨(h.issued hexists).mono hsteps, k, hk, hkey⟩
    · obtain ⟨hissued, k, hk, hkey⟩ := h.granted hvisit hgrants
      exact ⟨hissued.mono hsteps, k, Nat.lt_of_lt_of_le hk hsteps, hkey⟩
  · -- a key that is handed out now is one that no step before has taken
    refine List.pairwise_cons.2 ⟨fun earlier hearlier => ?_, h.once⟩
    intro scope id scope' id' key hgrants hgranted
    obtain ⟨-, k, hk, -, hkey⟩ := hturn.granted hgrants
    obtain ⟨-, k', hk', hkey'⟩ := h.granted hearlier hgranted
    have hkk : k = k' := hkeys (hkey.trans hkey'.symm)
    omega
  · intro id e' he' scope key
    show _ ↔ Issued options (_ :: ledger.visits) scope id key
    rw [issued_cons]
    cases hbefore : ledger.service.store.environments.get? id with
    | some e => rw [hturn.keys hbefore he', h.holds hbefore]
    | none =>
      -- a new environment has no keys, and there are none in the log under its id
      obtain ⟨⟨k, hk, -, rfl⟩, hempty⟩ := hturn.created hbefore he'
      rw [hempty]
      refine iff_of_false Bool.false_ne_true ?_
      rintro (hgrants | ⟨hissued, -⟩)
      · have hexists := (hturn.granted hgrants).1
        rw [SortedMap.contains, hbefore] at hexists
        cases hexists
      · obtain ⟨visit, hvisit, hgrants⟩ := hissued.exists_grants
        exact Supply.not_issued hids hk (h.granted hvisit hgrants).1

theorem kept_run (hids : Function.Injective supply.id) (hkeys : Function.Injective supply.key)
    (requests : List Http.Request) : Kept options supply (run options supply requests) := by
  induction requests using List.reverseRecOn with
  | nil => exact kept_fresh
  | append_singleton requests request ih =>
    rw [run, List.foldl_append]
    exact ih.serve hids hkeys request

/-- A key that the log says was handed out for one environment was not for another, nor as one of
the other kind. -/
theorem Kept.grants_unique {ledger : Ledger} (h : Kept options supply ledger) {a b : Visit}
    (ha : a ∈ ledger.visits) (hb : b ∈ ledger.visits) {scope scope' : KeyScope}
    {id id' key : String} (hgrants : a.Grants options scope id key)
    (hgrants' : b.Grants options scope' id' key) : id' = id ∧ scope' = scope := by
  by_cases hab : a = b
  · subst hab
    obtain ⟨rfl, rfl⟩ := Operation.createKey.inj
      (Option.some.inj (hgrants.1.symm.trans hgrants'.1))
    exact ⟨rfl, rfl⟩
  · exact absurd hgrants' (h.once.forall ha hb hab _ _ _ _ _ hgrants)

/-- **Keys follow the log**: at every point of a run of requests, a key lets requests for an
environment in if and only if it was handed out for this environment, as one of an accepted kind,
and its deletion has not been asked for since.  So a key that was handed out lets requests in
nowhere but at its environment and where its kind is accepted, and no request but the creation or
the deletion of a key of this kind for this environment makes the environment have it or lose it. -/
theorem keys_follow_log (options : Service.Options) (hids : Function.Injective supply.id)
    (hkeys : Function.Injective supply.key) (requests : List Http.Request) :
    let ledger := run options supply requests
    let environment? := ledger.service.store.environments.get?
    (∀ id e, environment? id = some e → ∀ (access : Access) (key : String),
      access.permits e key = true ↔
        ∃ scope ∈ access.scopes, Issued options ledger.visits scope id key) ∧
    (∀ visit ∈ ledger.visits, ∀ scope id key, visit.Grants options scope id key →
      ∀ id' e', environment? id' = some e' → ∀ access : Access, access.permits e' key = true →
        id' = id ∧ scope ∈ access.scopes) ∧
    ∀ request id e e', environment? id = some e →
      (ledger.serve options supply request).service.store.environments.get? id = some e' →
      ∀ scope key, (e'.keys scope).contains key ≠ (e.keys scope).contains key →
        Service.routed? options request = some (.createKey scope id) ∨
          Service.routed? options request = some (.deleteKey scope id key) := by
  intro ledger environment?
  have hkept : Kept options supply ledger := kept_run hids hkeys requests
  have hpermits : ∀ id e, environment? id = some e → ∀ (access : Access) (key : String),
      access.permits e key = true ↔
        ∃ scope ∈ access.scopes, Issued options ledger.visits scope id key := by
    intro id e he access key
    rw [Access.permits_iff]
    exact exists_congr fun scope => and_congr_right fun _ => hkept.holds he scope key
  refine ⟨hpermits, ?_, ?_⟩
  · intro visit hvisit scope id key hgrants id' e' he' access hpermitted
    obtain ⟨scope', hscope', hissued⟩ := (hpermits id' e' he' access key).1 hpermitted
    obtain ⟨visit', hvisit', hgrants'⟩ := hissued.exists_grants
    obtain ⟨rfl, rfl⟩ := hkept.grants_unique hvisit hvisit' hgrants hgrants'
    exact ⟨rfl, hscope'⟩
  · intro request id e e' he he' scope key hchanged
    have hturn : Turnover options supply _ ledger.service _ :=
      Turnover.answer hkept.faults options request
    by_contra hneither
    obtain ⟨hcreate, hdelete⟩ := not_or.1 hneither
    refine hchanged (Bool.eq_iff_iff.2 ((hturn.keys he he' scope key).trans ?_))
    constructor
    · rintro (hgrants | ⟨hcontains, -⟩)
      · exact absurd hgrants.1 hcreate
      · exact hcontains
    · exact fun hcontains => .inr ⟨hcontains, hdelete⟩

/-- A run in which a key for servers is created, and then deleted as one for clients, where it stays
in force. -/
theorem keys_follow_log_other_kind :
    let options : Service.Options := ⟨10, true⟩
    let named (name : String) : List UInt8 :=
      ("\x7b\"name\":\"" ++ name ++ "\"\x7d").toList.map fun c => c.toNat.toUInt8
    let ledger := run options Supply.counting
      [⟨"POST", "/admin/projects", [], named "storefront"⟩,
        ⟨"POST", "/admin/projects/storefront", [], named "test"⟩,
        ⟨"POST", "/admin/iiiii/server_side_key", [], named "backend"⟩,
        ⟨"DELETE", "/admin/iiiii/client_side_key/kkkkkkkk", [], []⟩]
    Function.Injective Supply.counting.id ∧ Function.Injective Supply.counting.key ∧
      ∃ e, ledger.service.store.environments.get? "iiiii" = some e ∧
        Access.permits .serverSideOnly e "kkkkkkkk" = true ∧
        ∃ scope ∈ Access.scopes .serverSideOnly,
          Issued options ledger.visits scope "iiiii" "kkkkkkkk" := by
  intro options named ledger
  have hpermits : (ledger.service.store.environments.get? "iiiii").map
      (Access.permits .serverSideOnly · "kkkkkkkk") = some true := by
    decide +kernel
  obtain ⟨e, he, hpermitted⟩ := Option.map_eq_some_iff.1 hpermits
  have hlog := keys_follow_log options Supply.counting_id_injective Supply.counting_key_injective
    [⟨"POST", "/admin/projects", [], named "storefront"⟩,
      ⟨"POST", "/admin/projects/storefront", [], named "test"⟩,
      ⟨"POST", "/admin/iiiii/server_side_key", [], named "backend"⟩,
      ⟨"DELETE", "/admin/iiiii/client_side_key/kkkkkkkk", [], []⟩]
  exact ⟨Supply.counting_id_injective, Supply.counting_key_injective, e, he, hpermitted,
    (hlog.1 "iiiii" e he .serverSideOnly "kkkkkkkk").1 hpermitted⟩

end Ledger

end FeatureFlags

import FeatureFlags.Proofs.Running

/-!
Answers of the service.

A request that is routed to an operation runs it within the limit for bodies; counting the request
and trimming the response change neither the store nor the status (`Service.answer_of_routed`).  For
the store, a request comes to one of three things (`Service.Answered`): it only reads, it is refused
before the store is asked anything, or it carries out one command and shows how that ended.
-/

namespace FeatureFlags

variable {α β : Type} {supply : Supply} {p : ServiceState}

/-! ### Programs that only read -/

/-- The operations that change nothing. -/
def Store.Method.reads : Store.Method → Bool
  | ping | listProjects | getProject | getEnvironment => true
  | _ => false

theorem Store.perform_reads {s s' : Store} {now : Nat → Timestamp} {request : Request}
    {reply : request.Reply} (h : s.perform now request = .ok (reply, s'))
    (hm : request.method.reads = true) : s' = s := by
  cases request with
  | ping | listProjects | getProject | getEnvironment => exact (unchanged_eq_ok.1 h).2
  | _ => cases hm

namespace Program

theorem run_map (supply : Supply) (f : α → β) (program : Program α) (p : ServiceState) :
    (program.map f).run supply p
      = (f (program.run supply p).1, (program.run supply p).2) :=
  run_bind supply program _ p

variable {allowed : Store.Method → Prop} {program : Program α}

theorem Uses.mono {allowed' : Store.Method → Prop} (h : program.Uses allowed)
    (hsub : ∀ m, allowed m → allowed' m) : program.Uses allowed' := by
  induction program with
  | done value => exact trivial
  | call request resume ih => exact ⟨hsub _ h.1, fun reply => ih reply (h.2 reply)⟩
  | readClock resume ih => exact fun now => ih now (h now)
  | newId resume ih => exact fun id => ih id (h id)
  | newKey resume ih => exact fun key => ih key (h key)
  | count series amount next ih => exact ih h

theorem Uses.map (h : program.Uses allowed) (f : α → β) : (program.map f).Uses allowed := by
  induction program with
  | done value => exact trivial
  | call request resume ih => exact ⟨h.1, fun reply => ih reply (h.2 reply)⟩
  | readClock resume ih => exact fun now => ih now (h now)
  | newId resume ih => exact fun id => ih id (h id)
  | newKey resume ih => exact fun key => ih key (h key)
  | count series amount next ih => exact ih h

theorem Uses.countEach (h : program.Uses allowed) (all : List Series) :
    (countEach all program).Uses allowed := by
  induction all with
  | nil => exact h
  | cons series rest ih => exact ih

end Program

theorem Evaluation.uses_authorized {access : Access} {id : String} {header : List String}
    {resume : Environment → Action Http.Response}
    (h : ∀ found, (resume found).Uses fun m => m.reads = true) :
    (authorized access id header resume).Uses fun m => m.reads = true := by
  refine Action.uses_store rfl fun (found : Environment) => ?_
  cases access.authorize found header with
  | ok _ => exact h found
  | error e => exact trivial

theorem Evaluation.uses_readContext {body : List UInt8} {resume : Json → Action Http.Response}
    (h : ∀ context, (resume context).Uses fun m => m.reads = true) :
    (Action.require (readContext body) resume).Uses fun m => m.reads = true := by
  cases readContext body with
  | ok context => exact h context
  | error e => exact trivial

theorem Evaluation.uses_countResults {allowed : Store.Method → Prop} {next : Program α}
    (results : List EvaluationResult) (h : next.Uses allowed) :
    (countResults results next).Uses allowed := h.countEach _

/-! ### What routes lead to -/

namespace Operation

/-- The operations that can be asked for with `GET`. -/
def isRead : Operation → Bool
  | index | health | readiness | samples | listProjects | getProject _ | getEnvironment _
  | getRules _ => true
  | _ => false

/-- Whatever the arguments of the path, what the method makes of them has the property. -/
def LeadsTo (property : Operation → Prop) (method : String × (List String → Option Operation)) :
    Prop :=
  ∀ arguments operation, method.2 arguments = some operation → property operation

theorem leadsTo_plain {property : Operation → Prop} {operation : Operation} (method : String)
    (h : property operation) : LeadsTo property (plain method operation) := by
  rintro (_ | ⟨_, _⟩) other hbuild
  · exact Option.some.inj hbuild ▸ h
  · cases hbuild

theorem leadsTo_withOne {property : Operation → Prop} {operation : String → Operation}
    (method : String) (h : ∀ a, property (operation a)) :
    LeadsTo property (withOne method operation) := by
  rintro (_ | ⟨a, _ | ⟨_, _⟩⟩) other hbuild
  · cases hbuild
  · exact Option.some.inj hbuild ▸ h a
  · cases hbuild

theorem leadsTo_withTwo {property : Operation → Prop} {operation : String → String → Operation}
    (method : String) (h : ∀ a b, property (operation a b)) :
    LeadsTo property (withTwo method operation) := by
  rintro (_ | ⟨a, _ | ⟨b, _ | ⟨_, _⟩⟩⟩) other hbuild
  · cases hbuild
  · cases hbuild
  · exact Option.some.inj hbuild ▸ h a b
  · cases hbuild

end Operation

namespace Service

open Http

variable {options : Options} {request : Request} {operation : Operation}

/-- The operation that a request is routed to. -/
def routed? (options : Options) (request : Request) : Option Operation :=
  match Operation.find (routes options) request.method request.path with
  | .operation _ operation => some operation
  | _ => none

/-- The command that a request asks for, unless it is refused. -/
def requested? (options : Options) (request : Request) : Option (Except ApiError Command) :=
  (routed? options request).bind (bodyCommand? request.body)

theorem routed?_eq_some : routed? options request = some operation ↔
    ∃ template, Operation.find (routes options) request.method request.path
      = .operation template operation := by
  rw [routed?]
  cases Operation.find (routes options) request.method request.path <;> simp

theorem uses_listProjects (query : List Char) :
    (listProjects options query).Uses fun m => m.reads = true := by
  rw [listProjects]
  split
  · refine Program.Uses.map ?_ _
    exact Action.uses_store rfl fun _ => trivial
  · exact trivial

/-- What is nothing for the administration only reads. -/
theorem uses_perform (h : bodyCommand? request.body operation = none) :
    (perform options request operation).Uses fun m => m.reads = true := by
  cases operation with
  | index | health | samples => exact trivial
  | readiness => exact ⟨rfl, fun reply => by cases reply <;> exact trivial⟩
  | listProjects => exact uses_listProjects request.query
  | getRules id =>
    refine Program.Uses.map ?_ _
    exact Evaluation.uses_authorized fun _ => trivial
  | evaluateFlags id =>
    refine Program.Uses.map (Evaluation.uses_authorized fun found => ?_) _
    refine Evaluation.uses_readContext fun context => ?_
    exact Evaluation.uses_countResults _ trivial
  | evaluateFlag id flag =>
    refine Program.Uses.map (Evaluation.uses_authorized fun found => ?_) _
    refine Evaluation.uses_readContext fun context => ?_
    cases FlagMap.evaluate? found.flags flag context <;> exact trivial
  | _ => cases h

/-! ### The way back to the operation -/

/-- The operation that a command is asked for with. -/
def commandOperation : Command → Operation
  | .listProjects .. => .listProjects
  | .createProject _ => .createProject
  | .getProject project => .getProject project
  | .deleteProject project => .deleteProject project
  | .addFlag project _ => .addFlag project
  | .patchFlag project flag _ => .patchFlag project flag
  | .removeFlag project flag => .removeFlag project flag
  | .resyncFlag project flag => .resyncFlag project flag
  | .createEnvironment project _ => .createEnvironment project
  | .getEnvironment id => .getEnvironment id
  | .renameEnvironment id _ => .renameEnvironment id
  | .deleteEnvironment id => .deleteEnvironment id
  | .patchEnvironmentFlag id flag _ => .patchEnvironmentFlag id flag
  | .removeEnvironmentFlag id flag => .removeEnvironmentFlag id flag
  | .createKey scope id _ => .createKey scope id
  | .deleteKey scope id key => .deleteKey scope id key

/-- The operation that a command has been asked for with is the one that was routed to. -/
theorem commandOperation_of_bodyCommand? {body : List UInt8} {command : Command}
    (h : bodyCommand? body operation = some (.ok command)) :
    commandOperation command = operation := by
  cases operation with
  | createProject | createEnvironment | patchFlag | patchEnvironmentFlag | createKey =>
    obtain ⟨_, -, rfl⟩ := map_eq_ok_iff.1 (Option.some.inj h)
    rfl
  | addFlag | renameEnvironment =>
    obtain ⟨_, -, hchecked⟩ := bind_eq_ok_iff.1 (Option.some.inj h)
    obtain ⟨_, -, rfl⟩ := map_eq_ok_iff.1 hchecked
    rfl
  | getProject | deleteProject | removeFlag | resyncFlag | getEnvironment | deleteEnvironment
  | removeEnvironmentFlag | deleteKey =>
    obtain rfl := Except.ok.inj (Option.some.inj h)
    rfl
  | listProjects | index | health | readiness | samples | getRules | evaluateFlags
  | evaluateFlag => cases h

theorem routed?_of_requested? {command : Command}
    (h : requested? options request = some (.ok command)) :
    routed? options request = some (commandOperation command) := by
  obtain ⟨operation, hrouted, hcommand⟩ := Option.bind_eq_some_iff.1 h
  rw [commandOperation_of_bodyCommand? hcommand, hrouted]

/-! ### Counting and trimming -/

theorem mem_of_findRoute? {segments : List (List Char)} {table : List (Route α)} {route : Route α}
    {arguments : List (List Char)} (h : findRoute? segments table = some (route, arguments)) :
    route ∈ table := by
  induction table with
  | nil => cases h
  | cons first rest ih =>
    rw [findRoute?] at h
    split at h
    · obtain ⟨rfl, -⟩ := Prod.mk.inj (Option.some.inj h)
      exact List.mem_cons_self ..
    · exact List.mem_cons_of_mem _ (ih h)

theorem mem_of_mem_routes {route : Route Operation.Methods} (h : route ∈ routes options) :
    route ∈ Operation.samplesRoute :: Operation.routes := by
  rw [routes] at h
  split at h
  · exact h
  · exact List.mem_cons_of_mem _ h

/-- What can be asked for its status alone is among what only reads. -/
theorem isRead_of_get {route : Route Operation.Methods}
    (hroute : route ∈ Operation.samplesRoute :: Operation.routes)
    {build : List String → Option Operation} (hget : route.target.lookup "GET" = some build)
    {arguments : List String} (hbuild : build arguments = some operation) :
    operation.isRead = true := by
  simp only [Operation.routes, List.mem_cons, List.not_mem_nil, or_false] at hroute
  rcases hroute with rfl | rfl | rfl | rfl | rfl | rfl | rfl | rfl | rfl | rfl | rfl | rfl | rfl |
    rfl | rfl | rfl | rfl | rfl
  all_goals
    cases hget <;> first
      | exact @Operation.leadsTo_plain (·.isRead = true) _ "GET" rfl _ _ hbuild
      | exact @Operation.leadsTo_withOne (·.isRead = true) _ "GET" (fun _ => rfl) _ _ hbuild

/-- A path leads to an operation if its segments match a route that knows the method, and what
stands for the arguments can be decoded. -/
theorem find_eq_operation {table : List (Route Operation.Methods)} {method template : String}
    {path : List Char} : Operation.find table method path = .operation template operation ↔
      ∃ segments route arguments build decoded, pathSegments? path = some segments ∧
        findRoute? segments table = some (route, arguments) ∧
        route.target.lookup (if method = "HEAD" then "GET" else method) = some build ∧
        arguments.mapM percentDecode? = some decoded ∧ build decoded = some operation ∧
        Http.template route.pattern = template := by
  constructor
  · intro h
    rw [Operation.find] at h
    cases hroute : (pathSegments? path).bind (findRoute? · table) with
    | none => simp [hroute] at h
    | some found =>
      obtain ⟨route, arguments⟩ := found
      simp only [hroute] at h
      cases hbuild : route.target.lookup (if method = "HEAD" then "GET" else method) with
      | none => simp [hbuild] at h
      | some build =>
        simp only [hbuild] at h
        cases hmade : (arguments.mapM percentDecode?).bind build with
        | none => simp [hmade] at h
        | some other =>
          obtain ⟨htemplate, rfl⟩ : _ = template ∧ other = operation := by simpa [hmade] using h
          obtain ⟨segments, hsegments, hroute⟩ := Option.bind_eq_some_iff.1 hroute
          obtain ⟨decoded, hdecoded, hmade⟩ := Option.bind_eq_some_iff.1 hmade
          exact ⟨segments, route, arguments, build, decoded, hsegments, hroute, hbuild, hdecoded,
            hmade, htemplate⟩
  · rintro ⟨segments, route, arguments, build, decoded, hsegments, hroute, hbuild, hdecoded, hmade,
      rfl⟩
    simp only [Operation.find, hsegments, Option.bind_some, hroute, hbuild, hdecoded, hmade]

/-- The response to a request that does more than read is not trimmed. -/
theorem trimmed_of_isRead (hrouted : routed? options request = some operation)
    (hreads : operation.isRead = false) (response : Response) :
    trimmed request response = response := by
  refine if_neg fun hhead => ?_
  obtain ⟨template, hfind⟩ := routed?_eq_some.1 hrouted
  obtain ⟨segments, route, arguments, build, decoded, -, hroute, hget, -, hmade, -⟩ :=
    find_eq_operation.1 hfind
  rw [hhead, if_pos rfl] at hget
  have hmem := mem_of_mem_routes (mem_of_findRoute? hroute)
  exact absurd (hreads.symm.trans (isRead_of_get hmem hget hmade)) (by decide)

/-- Neither is the response to a request that comes with a body. -/
theorem trimmed_of_readsBody (hrouted : routed? options request = some operation)
    (hreads : readsBody operation = true) (response : Response) :
    trimmed request response = response := by
  refine trimmed_of_isRead hrouted ?_ response
  cases operation <;> first | rfl | cases hreads

theorem run_counted (supply : Supply) (request : Request) (path : String)
    (response : Program Response) (p : ServiceState) :
    ∃ counters, (counted request path response).run supply p
      = ((response.run supply p).1, { (response.run supply p).2 with counters }) :=
  ⟨_, Program.run_bind supply response _ p⟩

/-- A request that is routed to an operation is counted under its route. -/
theorem handle_of_find {template : String}
    (hfind : Operation.find (routes options) request.method request.path
      = .operation template operation) (hop : operation ≠ .samples) :
    handle options request
      = counted request template ((performWithin options request operation).map
          (trimmed request)) := by
  rw [handle, hfind]
  cases operation <;> first | rfl | exact absurd rfl hop

/-- A request that is routed to an operation is answered with what the operation ends with. -/
theorem answer_of_routed (supply : Supply) (p : ServiceState)
    (hrouted : routed? options request = some operation) (hop : operation ≠ .samples) :
    ∃ counters, answer options supply request p
      = (trimmed request ((performWithin options request operation).run supply p).1,
          { ((performWithin options request operation).run supply p).2 with counters }) := by
  obtain ⟨template, hfind⟩ := routed?_eq_some.1 hrouted
  have hhandle : answer options supply request p = (handle options request).run supply p := by
    rw [answer, hfind]
    cases operation <;> first | rfl | exact absurd rfl hop
  obtain ⟨counters, hrun⟩ := run_counted supply request template
    ((performWithin options request operation).map (trimmed request)) p
  refine ⟨counters, ?_⟩
  rw [hhandle, handle_of_find hfind hop, hrun, Program.run_map]

theorem performWithin_eq (h : readsBody operation = true → request.body.length ≤ bodyLimit) :
    performWithin options request operation = perform options request operation := by
  rw [performWithin, if_neg]
  rintro ⟨hreads, hlarge⟩
  have := h hreads
  omega

/-- Answering makes no operation fail that did not fail before. -/
theorem answer_faults (options : Options) (supply : Supply) (request : Request)
    (p : ServiceState) : (answer options supply request p).2.faults = p.faults := by
  rw [answer]
  split
  · rfl
  · exact Program.run_faults supply _ p

theorem steps_le_answer (options : Options) (supply : Supply) (request : Request)
    (p : ServiceState) : p.steps ≤ (answer options supply request p).2.steps := by
  rw [answer]
  split
  · exact Nat.le_refl _
  · exact Program.steps_le_run supply _ p

/-! ### What a request comes to -/

theorem errorResponse_status (error : ApiError) : 400 ≤ (errorResponse error).status := by
  show 400 ≤ error.status
  cases error <;> simp [ApiError.status]

theorem trimmed_status (request : Request) (response : Response) :
    (trimmed request response).status = response.status := by
  rw [trimmed]
  split <;> rfl

/-- Only a body can make the service refuse a command. -/
theorem readsBody_of_refused {body : List UInt8} {error : ApiError}
    (h : bodyCommand? body operation = some (.error error)) : readsBody operation = true := by
  cases operation <;> first | rfl | cases h

/-- What a request comes to for the store. -/
inductive Answered (options : Options) (supply : Supply) (request : Request) (p : ServiceState) :
    Response × ServiceState → Prop
  /-- It asks for nothing that is a command. -/
  | aside {answer : Response × ServiceState} (hrequested : requested? options request = none)
      (hstore : answer.2.store = p.store) : Answered options supply request p answer
  /-- Its body is too large, or no command can be made of it. -/
  | refused {answer : Response × ServiceState} {operation : Operation}
      (hrouted : routed? options request = some operation) (hreads : readsBody operation = true)
      (hstatus : 400 ≤ answer.1.status) (hstore : answer.2.store = p.store) :
      Answered options supply request p answer
  | carriedOut {command : Command} {outcome : Except ApiError command.Result} {p' : ServiceState}
      {counters : Counters} (hrequested : requested? options request = some (.ok command))
      (hrun : command.program.run supply p = (outcome, p')) :
      Answered options supply request p
        (trimmed request (outcomeResponse command outcome), { p' with counters })

/-- What is not routed to an operation is answered without the store. -/
theorem answer_store_of_not_routed (supply : Supply) (p : ServiceState)
    (h : routed? options request = none) : (answer options supply request p).2.store = p.store := by
  rw [routed?] at h
  rw [answer, handle]
  cases hfind : Operation.find (routes options) request.method request.path with
  | operation template operation => simp [hfind] at h
  | unknownMethod template allow =>
    simp only
    split <;> rfl
  | unknownPath | unreadablePath => rfl

/-- Every request is answered in one of these ways. -/
theorem answered (options : Options) (supply : Supply) (request : Request) (p : ServiceState) :
    Answered options supply request p (answer options supply request p) := by
  cases hrouted : routed? options request with
  | none =>
    exact .aside (by rw [requested?, hrouted]; rfl) (answer_store_of_not_routed supply p hrouted)
  | some operation =>
    have hrequested : requested? options request = bodyCommand? request.body operation := by
      rw [requested?, hrouted, Option.bind_some]
    by_cases hsamples : operation = .samples
    case pos =>
      subst hsamples
      obtain ⟨template, hfind⟩ := routed?_eq_some.1 hrouted
      exact .aside hrequested (by rw [answer, hfind])
    obtain ⟨counters, hanswer⟩ := answer_of_routed supply p hrouted hsamples
    by_cases hlarge : readsBody operation = true ∧ bodyLimit < request.body.length
    case pos =>
      rw [performWithin, if_pos hlarge] at hanswer
      refine .refused hrouted hlarge.1 ?_ (by rw [hanswer]; rfl)
      rw [hanswer, trimmed_status]
      show 400 ≤ 413
      decide
    rw [performWithin, if_neg hlarge] at hanswer
    cases hcommand : bodyCommand? request.body operation with
    | none =>
      refine .aside (hrequested.trans hcommand) ?_
      rw [hanswer]
      exact Program.run_keeps supply (fun s => s) Store.perform_reads (uses_perform hcommand) p
    | some command =>
      rw [perform_eq_carryOut options request operation hcommand] at hanswer
      cases command with
      | error error =>
        refine .refused hrouted (readsBody_of_refused hcommand) ?_ (by rw [hanswer]; rfl)
        rw [hanswer, trimmed_status]
        exact errorResponse_status error
      | ok command =>
        rw [carryOut, Program.run_map] at hanswer
        rw [hanswer]
        exact .carriedOut (hrequested.trans hcommand) rfl

end Service

end FeatureFlags

import FeatureFlags.Proofs.Agreement
import FeatureFlags.Proofs.Failure
import FeatureFlags.Proofs.Json.ReadBack
import FeatureFlags.Proofs.Marks

/-!
Turns: a request, the service that it found, and its answer.

What a request adds to the counters of the domain can be read off its turn: off the results that the
answer shows, off the environments that the project listed that a flag was sent to, off the failure
that the answer reports, and off the requests to the store that failed meanwhile.  The marks of what
the service has done say the same (`Service.accounts_answer`).  A turn either evaluates flags, and
shows the results that it counts (`Service.total_perform`), or it carries out a command
(`Service.accounts_command`), or it adds nothing.
-/

namespace FeatureFlags

open Store

/-! ### What answers say -/

/-- The text says that a flag was not written to every environment. -/
def ApiError.ReportsPartialCascade (text : String) : Prop :=
  ∃ flag, text = (ApiError.partialCascade flag).detail

/-- What stands between a beginning and an end is left if both are taken away. -/
theorem exists_between_iff {α : Type} {front back whole : List α} :
    (∃ middle, whole = front ++ middle ++ back) ↔
      front <+: whole ∧ back <:+ whole.drop front.length := by
  constructor
  · rintro ⟨middle, rfl⟩
    rw [List.append_assoc, List.drop_left]
    exact ⟨List.prefix_append .., List.suffix_append ..⟩
  · rintro ⟨⟨rest, rfl⟩, hback⟩
    rw [List.drop_left] at hback
    obtain ⟨middle, rfl⟩ := hback
    exact ⟨middle, (List.append_assoc ..).symm⟩

theorem exists_text_between_iff {front back whole : String} :
    (∃ middle, whole = front ++ middle ++ back) ↔
      front.toList <+: whole.toList ∧ back.toList <:+ whole.toList.drop front.toList.length := by
  rw [← exists_between_iff]
  constructor
  · rintro ⟨middle, rfl⟩
    exact ⟨middle.toList, by rw [String.toList_append, String.toList_append]⟩
  · rintro ⟨middle, h⟩
    refine ⟨String.ofList middle, String.toList_injective ?_⟩
    rw [h, String.toList_append, String.toList_append, String.toList_ofList]

instance (text : String) : Decidable (ApiError.ReportsPartialCascade text) :=
  decidable_of_iff _ (@exists_text_between_iff "Flag "
    " was saved on the project but not on every environment, resync it to converge" text).symm

namespace Json

/-- The text that a value has in a field of a record with these field names. -/
def text? (names : List String) (value : Json) (name : String) : Option String :=
  match value.field? names name with
  | some (.string text) => some text
  | _ => none

/-- The value shows a result of this status. -/
def ShowsStatus (status : EvaluationStatus) (value : Json) : Prop :=
  value.text? EvaluationResult.fieldNames "status" = some status.name

instance (status : EvaluationStatus) (value : Json) : Decidable (value.ShowsStatus status) :=
  inferInstanceAs (Decidable (_ = _))

theorem showsStatus_toJson {status : EvaluationStatus} {result : EvaluationResult} :
    result.toJson.ShowsStatus status ↔ result.status = status := by
  have hkeys : (keys [("value", result.value.toJson), ("status", .string result.status.name),
      ("reason", .string result.reason)]).Nodup := (by decide : EvaluationResult.fieldNames.Nodup)
  have hstatus : result.toJson.text? EvaluationResult.fieldNames "status"
      = some result.status.name := by
    rw [text?, EvaluationResult.toJson, field?_ofFields hkeys]
    rfl
  rw [ShowsStatus, hstatus, Option.some.injEq]
  constructor
  · cases result.status <;> cases status <;> simp [EvaluationStatus.name]
  · rintro rfl
    rfl

end Json

namespace Http.Response

/-- The request has done what it was for. -/
def Succeeds (response : Response) : Prop := response.status < 300

instance (response : Response) : Decidable response.Succeeds :=
  inferInstanceAs (Decidable (_ < _))

/-- What the answer says of its failure. -/
def detail? (response : Response) : Option String :=
  match response.content with
  | .json value => value.text? ["detail"] "detail"
  | _ => none

/-- The request has failed because a flag was not written to every environment. -/
def PartlyCascaded (response : Response) : Prop :=
  response.status = 500 ∧ ∃ text ∈ response.detail?, ApiError.ReportsPartialCascade text

instance (response : Response) : Decidable response.PartlyCascaded :=
  inferInstanceAs (Decidable (_ ∧ _))

theorem not_succeeds {response : Response} (h : 400 ≤ response.status) : ¬ response.Succeeds := by
  show ¬ response.status < 300
  omega

theorem PartlyCascaded.not_succeeds {response : Response} (h : response.PartlyCascaded) :
    ¬ response.Succeeds :=
  Response.not_succeeds (by rw [h.1]; decide)

end Http.Response

namespace Service

/-- The answer tells a partial cascade from every other failure. -/
theorem partlyCascaded_errorResponse {error : ApiError} :
    (errorResponse error).PartlyCascaded ↔ ∃ flag, error = .partialCascade flag := by
  constructor
  · rintro ⟨hstatus, text, htext, hreports⟩
    obtain rfl := Option.some.inj htext
    cases error with
    | partialCascade flag => exact ⟨flag, rfl⟩
    | internal cause =>
      have hother : ¬ ApiError.ReportsPartialCascade "An internal server error occurred" := by
        decide
      exact absurd hreports hother
    | _ => cases hstatus
  · rintro ⟨flag, rfl⟩
    exact ⟨rfl, _, rfl, flag, rfl⟩

theorem response_succeeds (command : Command) (result : command.Result) :
    (command.response result).Succeeds := by
  show (command.response result).status < 300
  cases command <;> first
    | exact (by decide : 200 < 300)
    | exact (by decide : 201 < 300)
    | exact (by decide : 204 < 300)

end Service

/-! ### Turns -/

/-- The operations that evaluate flags. -/
def Operation.isEvaluation : Operation → Bool
  | evaluateFlags _ | evaluateFlag .. => true
  | _ => false

/-- A request that was answered, with the service that it found. -/
structure Turn where
  before : ServiceState
  request : Http.Request
  response : Http.Response

namespace Turn

variable (options : Service.Options) (turn : Turn)

/-- The number of results of a status that the answer shows, if it is an evaluation that has
succeeded. -/
def results (status : EvaluationStatus) : Nat :=
  match Service.routed? options turn.request, turn.response with
  | some (.evaluateFlags _), ⟨200, .json (.object shown), _⟩ =>
    shown.countP fun entry => entry.2.ShowsStatus status
  | some (.evaluateFlag ..), ⟨200, .json shown, _⟩ => if shown.ShowsStatus status then 1 else 0
  | _, _ => 0

/-- The project to whose environments the request sends a flag, and what it does there. -/
def cascade? : Option (String × CascadeOperation) :=
  (Service.routed? options turn.request).bind (·.cascade? turn.before.store)

/-- The number of environments that the request wrote a flag to, if it has succeeded. -/
def written (operation : CascadeOperation) : Nat :=
  match turn.cascade? options with
  | some (project, done) =>
    if done = operation ∧ turn.response.Succeeds then turn.before.store.reached project else 0
  | none => 0

/-- The answer says that this cascade has failed. -/
def FailsCascade (operation : CascadeOperation) : Prop :=
  (turn.cascade? options).map Prod.snd = some operation ∧ turn.response.PartlyCascaded

instance (operation : CascadeOperation) : Decidable (turn.FailsCascade options operation) :=
  inferInstanceAs (Decidable (_ ∧ _))

/-- The number of requests for this operation of the store that failed in the turn. -/
def failures (supply : Supply) (method : Store.Method) : Nat :=
  ((Service.handle options turn.request).marks supply turn.before).count (.failed method)

/-- What the marks add to the counters of the domain is what the answer says. -/
structure Accounts (marks : List Mark) : Prop where
  results : ∀ status, Mark.total (.flagEvaluations status) marks = turn.results options status
  written : ∀ operation,
    Mark.total (.cascadeEnvironments operation) marks = turn.written options operation
  failures : ∀ operation, Mark.total (.cascadeFailures operation) marks
    = if turn.FailsCascade options operation then 1 else 0
  links : ∀ operation, Mark.LinksCounted operation marks

variable {options turn} {marks : List Mark}

theorem written_of_cascade? {project : String} {done operation : CascadeOperation}
    (h : turn.cascade? options = some (project, done)) : turn.written options operation
      = if done = operation ∧ turn.response.Succeeds then turn.before.store.reached project
        else 0 := by
  rw [Turn.written, h]

theorem failsCascade_iff {project : String} {done operation : CascadeOperation}
    (h : turn.cascade? options = some (project, done)) :
    turn.FailsCascade options operation ↔ done = operation ∧ turn.response.PartlyCascaded := by
  rw [FailsCascade, h, Option.map_some, Option.some.injEq]

/-- Without an evaluation that has succeeded, the answer shows no results. -/
theorem results_eq_zero (h : turn.response.status ≠ 200 ∨
      ∀ operation, Service.routed? options turn.request = some operation →
        operation.isEvaluation = false) (status : EvaluationStatus) :
    turn.results options status = 0 := by
  rw [Turn.results]
  split
  case h_1 id shown allow hrouted hresponse =>
    obtain hstatus | hother := h
    · exact absurd (congrArg Http.Response.status hresponse) hstatus
    · cases hother _ hrouted
  case h_2 id flag shown allow hrouted hresponse =>
    obtain hstatus | hother := h
    · exact absurd (congrArg Http.Response.status hresponse) hstatus
    · cases hother _ hrouted
  case h_3 => rfl

section Shown

variable {before : ServiceState} {request : Http.Request} {id : String}

theorem results_errorResponse (error : ApiError) (status : EvaluationStatus) :
    (Turn.mk before request (Service.errorResponse error)).results options status = 0 := by
  refine results_eq_zero (.inl fun h => ?_) status
  have hstatus := Service.errorResponse_status error
  rw [h] at hstatus
  omega

theorem results_evaluateFlags
    (hrouted : Service.routed? options request = some (.evaluateFlags id))
    (results : SortedMap EvaluationResult) (status : EvaluationStatus) :
    (Turn.mk before request
      (.ofJson 200 (Json.ofMap EvaluationResult.toJson results))).results options status
        = results.values.countP (·.status = status) := by
  rw [Turn.results, hrouted, SortedMap.values, List.countP_map]
  show List.countP _ (List.map _ results.entries) = _
  rw [List.countP_map]
  exact List.countP_congr fun entry _ => by simp [Json.showsStatus_toJson]

theorem results_evaluateFlag {flag : String}
    (hrouted : Service.routed? options request = some (.evaluateFlag id flag))
    (result : EvaluationResult) (status : EvaluationStatus) :
    (Turn.mk before request (.ofJson 200 result.toJson)).results options status
      = [result].countP (·.status = status) := by
  rw [Turn.results, hrouted]
  show (if result.toJson.ShowsStatus status then 1 else 0) = _
  simp [Json.showsStatus_toJson]

end Shown

/-- A request that has failed, though not in a cascade, adds nothing. -/
theorem Accounts.of_failure (hstatus : 400 ≤ turn.response.status)
    (hpartly : ¬ turn.response.PartlyCascaded) (htotal : ∀ series, Mark.total series marks = 0)
    (hlinks : ∀ operation, Mark.LinksCounted operation marks) : turn.Accounts options marks where
  results status := by
    rw [htotal, results_eq_zero (.inl (by omega))]
  written operation := by
    rw [htotal, Turn.written]
    split
    · rw [if_neg fun h => Http.Response.not_succeeds hstatus h.2]
    · rfl
  failures operation := by
    rw [htotal, if_neg fun h => hpartly h.2]
  links := hlinks

/-- A request that sends no flag to environments adds the results that it shows. -/
theorem Accounts.of_cascade? (hcascade : turn.cascade? options = none)
    (htotal : ∀ operation, Mark.total (.cascadeEnvironments operation) marks = 0 ∧
      Mark.total (.cascadeFailures operation) marks = 0)
    (hresults : ∀ status, Mark.total (.flagEvaluations status) marks = turn.results options status)
    (hlinks : ∀ operation, Mark.LinksCounted operation marks) : turn.Accounts options marks where
  results := hresults
  written operation := by
    rw [(htotal operation).1, Turn.written, hcascade]
  failures operation := by
    rw [(htotal operation).2, if_neg]
    rw [FailsCascade, hcascade]
    rintro ⟨⟨⟩, -⟩
  links := hlinks

/-- A request that sends a flag to environments adds what it has reached, or that it has failed. -/
theorem Accounts.of_cascadeEnd {command : Command} {outcome : Except ApiError command.Result}
    {project : String} {done : CascadeOperation}
    (hcascade : turn.cascade? options = some (project, done))
    (hresponse : turn.response = Service.outcomeResponse command outcome)
    (hend : CascadeEnd done (turn.before.store.reached project) outcome marks)
    (hresults : ∀ status, Mark.total (.flagEvaluations status) marks = turn.results options status)
    (hlinks : ∀ operation, Mark.LinksCounted operation marks) : turn.Accounts options marks := by
  cases hend with
  | @written value _ htotal =>
    have hsucceeds : turn.response.Succeeds := by
      rw [hresponse]
      exact Service.response_succeeds command value
    refine ⟨hresults, fun operation => ?_, fun operation => ?_, hlinks⟩
    · rw [htotal, written_of_cascade? hcascade]
      simp [hsucceeds, eq_comm]
    · rw [htotal, if_neg (by simp), if_neg fun h => h.2.not_succeeds hsucceeds]
  | @partly flag _ htotal =>
    have hpartly : turn.response.PartlyCascaded := by
      rw [hresponse]
      exact Service.partlyCascaded_errorResponse.2 ⟨flag, rfl⟩
    refine ⟨hresults, fun operation => ?_, fun operation => ?_, hlinks⟩
    · rw [htotal, if_neg (by simp), written_of_cascade? hcascade,
        if_neg fun h => hpartly.not_succeeds h.2]
    · rw [htotal]
      simp [failsCascade_iff hcascade, hpartly, eq_comm]
  | @failed error _ herror htotal =>
    refine .of_failure ?_ ?_ htotal hlinks
    · rw [hresponse]
      exact Service.errorResponse_status error
    · rw [hresponse]
      intro h
      obtain ⟨flag, hflag⟩ := Service.partlyCascaded_errorResponse.1 h
      exact herror flag hflag

/-- Counting the request itself adds nothing to the counters of the domain. -/
theorem Accounts.append_request (h : turn.Accounts options marks) (method path : String)
    (status amount : Nat) :
    turn.Accounts options (marks ++ [.counted (.httpRequests method path status) amount]) where
  results status := by
    rw [Mark.total_append, h.results]
    rfl
  written operation := by
    rw [Mark.total_append, h.written]
    rfl
  failures operation := by
    rw [Mark.total_append, h.failures]
    rfl
  links operation := by
    rw [Mark.LinksCounted, Mark.total_append, h.links operation, List.count_append]
    rfl

end Turn

/-! ### Evaluations -/

namespace Evaluation

open Http

variable {supply : Supply} {id : String} {header : List String} {body : List UInt8}

/-- Each result is counted once, by its status. -/
theorem total_countResults (results : List EvaluationResult) (response : Response)
    (status : EvaluationStatus) (p : ServiceState) :
    Mark.total (.flagEvaluations status)
        ((countResults results (Action.ok response)).marks supply p)
      = results.countP (·.status = status) := by
  induction results generalizing p with
  | nil => rfl
  | cons result rest ih =>
    rw [countResults, List.map_cons, Program.countEach, List.foldr_cons, Program.marks,
      Mark.total_counted, List.countP_cons, Nat.add_comm]
    refine congrArg₂ (· + ·) (ih _) ?_
    by_cases h : result.status = status
    · simp [h]
    · simp [h, Ne.symm h]

/-- An evaluation fails and counts nothing, or it goes on as its beginning has found it. -/
theorem marks_authorized (supply : Supply) {resume : Environment → Json → Action Response}
    (start : Action Response)
    (hstart : start = authorized .serverOrClientSide id header fun found =>
      Action.require (readContext body) fun context => resume found context) (p : ServiceState) :
    (∃ environment context q,
      ((Service.respond start).run supply p).1
          = ((Service.respond (resume environment context)).run supply q).1 ∧
        start.marks supply p = (resume environment context).marks supply q) ∨
    ∃ error, ((Service.respond start).run supply p).1 = Service.errorResponse error ∧
      ∀ series, Mark.total series (start.marks supply p) = 0 := by
  rw [Service.respond, Program.run_map]
  obtain ⟨environment, s, -, hrun, hmarks⟩ | ⟨error, hrun, hmarks⟩ :=
    Action.marks_store supply start hstart p
  case inr =>
    rw [hrun, hmarks]
    exact .inr ⟨_, rfl, fun series => rfl⟩
  rw [hrun, hmarks]
  cases Access.authorize .serverOrClientSide environment header with
  | error error => exact .inr ⟨error, rfl, fun series => rfl⟩
  | ok _ =>
    cases readContext body with
    | error error => exact .inr ⟨error, rfl, fun series => rfl⟩
    | ok context =>
      refine .inl ⟨environment, context, p.after s, ?_, rfl⟩
      rw [Service.respond, Program.run_map]
      rfl

/-- What an evaluation of all flags counts, it shows. -/
theorem total_evaluateFlags (supply : Supply) (id : String) (header : List String)
    (body : List UInt8) (p : ServiceState) :
    (∃ results : SortedMap EvaluationResult,
      ((Service.respond (evaluateFlags id header body)).run supply p).1
        = .ofJson 200 (Json.ofMap EvaluationResult.toJson results) ∧
      ∀ status, Mark.total (.flagEvaluations status) ((evaluateFlags id header body).marks supply p)
        = results.values.countP (·.status = status)) ∨
    ∃ error, ((Service.respond (evaluateFlags id header body)).run supply p).1
        = Service.errorResponse error ∧
      ∀ series, Mark.total series ((evaluateFlags id header body).marks supply p) = 0 := by
  obtain ⟨environment, context, q, hresponse, hmarks⟩ | hfailed :=
    marks_authorized supply (evaluateFlags id header body) rfl p
  case inr => exact .inr hfailed
  refine .inl ⟨environment.flags.evaluateAll context, ?_, fun status => ?_⟩
  · rw [hresponse, run_countResults]
  · rw [hmarks, total_countResults]

/-- What an evaluation of one flag counts, it shows. -/
theorem total_evaluateFlag (supply : Supply) (id flag : String) (header : List String)
    (body : List UInt8) (p : ServiceState) :
    (∃ result : EvaluationResult,
      ((Service.respond (evaluateFlag id flag header body)).run supply p).1
        = .ofJson 200 result.toJson ∧
      ∀ status, Mark.total (.flagEvaluations status)
        ((evaluateFlag id flag header body).marks supply p) = [result].countP (·.status = status)) ∨
    ∃ error, ((Service.respond (evaluateFlag id flag header body)).run supply p).1
        = Service.errorResponse error ∧
      ∀ series, Mark.total series ((evaluateFlag id flag header body).marks supply p) = 0 := by
  obtain ⟨environment, context, q, hresponse, hmarks⟩ | hfailed :=
    marks_authorized supply (evaluateFlag id flag header body) rfl p
  case inr => exact .inr hfailed
  rw [hresponse, hmarks]
  cases FlagMap.evaluate? environment.flags flag context with
  | none => exact .inr ⟨_, rfl, fun series => rfl⟩
  | some result =>
    refine .inl ⟨result, ?_, fun status => ?_⟩
    · exact run_countResults supply [result] _ q
    · exact total_countResults [result] _ status q

end Evaluation

/-! ### What a turn adds -/

namespace Evaluation

open Http

variable {allowed : Series → Prop}

theorem counts_authorized {access : Access} {id : String} {header : List String}
    {resume : Environment → Action Response} (h : ∀ found, (resume found).Counts allowed) :
    (authorized access id header resume).Counts allowed := by
  rw [authorized]
  refine Action.counts_store fun found => ?_
  cases access.authorize found header with
  | ok _ => exact h found
  | error e => exact trivial

theorem counts_readContext {body : List UInt8} {resume : Json → Action Response}
    (h : ∀ context, (resume context).Counts allowed) :
    (Action.require (readContext body) resume).Counts allowed := by
  cases readContext body with
  | ok context => exact h context
  | error e => exact trivial

theorem counts_countResults {results : List EvaluationResult} {next : Action Response}
    (hallowed : ∀ status, allowed (.flagEvaluations status)) (h : next.Counts allowed) :
    (countResults results next).Counts allowed := by
  refine h.countEach fun series hseries => ?_
  obtain ⟨result, -, rfl⟩ := List.mem_map.1 hseries
  exact hallowed result.status

end Evaluation

namespace Service

open Http

variable {options : Options} {supply : Supply} {request : Http.Request} {operation : Operation}
  {p : ServiceState}

/-- What is nothing for the administration counts the results of evaluations alone. -/
theorem counts_perform (h : bodyCommand? request.body operation = none) :
    (perform options request operation).Counts fun series =>
      operation.isEvaluation = true ∧ ∃ status, series = .flagEvaluations status := by
  cases operation with
  | index | health | samples => exact trivial
  | readiness =>
    intro reply
    cases reply <;> exact trivial
  | listProjects =>
    rw [perform, listProjects]
    split
    · refine Program.Counts.map ?_ _
      exact Action.counts_store fun _ => trivial
    · exact trivial
  | getRules id =>
    refine Program.Counts.map ?_ _
    exact Evaluation.counts_authorized fun _ => trivial
  | evaluateFlags id =>
    refine Program.Counts.map (Evaluation.counts_authorized fun found => ?_) _
    refine Evaluation.counts_readContext fun context => ?_
    exact Evaluation.counts_countResults (fun status => ⟨rfl, status, rfl⟩) trivial
  | evaluateFlag id flag =>
    refine Program.Counts.map (Evaluation.counts_authorized fun found => ?_) _
    refine Evaluation.counts_readContext fun context => ?_
    cases FlagMap.evaluate? found.flags flag context with
    | none => exact trivial
    | some result => exact Evaluation.counts_countResults (fun status => ⟨rfl, status, rfl⟩) trivial
  | _ => cases h

/-- A turn that carries out a command. -/
theorem accounts_command (hs : p.store.Unrepeated) {command : Command}
    (hrequested : requested? options request = some (.ok command)) :
    (Turn.mk p request (trimmed request
      (outcomeResponse command (command.program.run supply p).1))).Accounts options
        (command.program.marks supply p) := by
  have hrouted := routed?_of_requested? hrequested
  generalize hresponse : trimmed request _ = response
  have hcascade : (Turn.mk p request response).cascade? options
      = (commandOperation command).cascade? p.store := by
    rw [Turn.cascade?, hrouted, Option.bind_some]
  have hresults (status : EvaluationStatus) :
      Mark.total (.flagEvaluations status) (command.program.marks supply p)
        = (Turn.mk p request response).results options status := by
    rw [Turn.results_eq_zero (.inr ?_)]
    · refine command.program_counts.total_eq_zero ?_ p
      cases command <;> simp [Command.series]
    · intro operation hoperation
      obtain rfl := Option.some.inj (hrouted.symm.trans hoperation)
      cases command <;> rfl
  cases hdone : (commandOperation command).cascade? p.store with
  | none =>
    refine .of_cascade? (hcascade.trans hdone) (fun operation => ?_) hresults
      (command.linksCounted · p)
    constructor <;>
    · refine command.program_counts.total_eq_zero ?_ p
      cases command with
      | addFlag | removeFlag | resyncFlag => cases hdone
      | _ => simp [Command.series]
  | some done =>
    obtain ⟨project, done⟩ := done
    have hread : (commandOperation command).isRead = false := by
      cases command with
      | addFlag | removeFlag | resyncFlag => rfl
      | _ => cases hdone
    refine .of_cascadeEnd (hcascade.trans hdone) ?_ (Command.cascadeEnd_run hs hdone) hresults
      (command.linksCounted · p)
    exact hresponse.symm.trans (trimmed_of_isRead hrouted hread _)

theorem marks_respond (action : Action Response) (p : ServiceState) :
    (respond action).marks supply p = action.marks supply p :=
  Program.marks_map _ action p

/-- An evaluation shows the results that it counts. -/
theorem total_perform (hrouted : routed? options request = some operation)
    (hcommand : bodyCommand? request.body operation = none) (status : EvaluationStatus) :
    Mark.total (.flagEvaluations status) ((perform options request operation).marks supply p)
      = (Turn.mk p request (trimmed request
        ((perform options request operation).run supply p).1)).results options status := by
  cases operation with
  | evaluateFlags id =>
    rw [trimmed_of_isRead hrouted rfl, perform, marks_respond]
    have hevaluated := Evaluation.total_evaluateFlags supply id
      (request.headerValues "authorization") request.body p
    generalize Prod.fst _ = response at hevaluated ⊢
    obtain ⟨results, rfl, htotal⟩ | ⟨error, rfl, htotal⟩ := hevaluated
    · rw [htotal]
      exact (Turn.results_evaluateFlags hrouted results status).symm
    · rw [htotal]
      exact (Turn.results_errorResponse error status).symm
  | evaluateFlag id flag =>
    rw [trimmed_of_isRead hrouted rfl, perform, marks_respond]
    have hevaluated := Evaluation.total_evaluateFlag supply id flag
      (request.headerValues "authorization") request.body p
    generalize Prod.fst _ = response at hevaluated ⊢
    obtain ⟨result, rfl, htotal⟩ | ⟨error, rfl, htotal⟩ := hevaluated
    · rw [htotal]
      exact (Turn.results_evaluateFlag hrouted result status).symm
    · rw [htotal]
      exact (Turn.results_errorResponse error status).symm
  | _ =>
    rw [(counts_perform hcommand).total_eq_zero (by simp [Operation.isEvaluation]),
      Turn.results_eq_zero (.inr ?_)]
    rintro operation hother
    cases hrouted.symm.trans hother
    rfl

/-- A turn that has nothing to do with the administration. -/
theorem accounts_aside (hrouted : routed? options request = some operation)
    (hcommand : bodyCommand? request.body operation = none) :
    (Turn.mk p request (trimmed request
      ((perform options request operation).run supply p).1)).Accounts options
        ((perform options request operation).marks supply p) := by
  have hcounts : (perform options request operation).Counts _ := counts_perform hcommand
  refine .of_cascade? ?_ (fun done => ?_) (total_perform hrouted hcommand) fun link => ?_
  · rw [Turn.cascade?, hrouted]
    cases operation <;> first | rfl | cases hcommand
  · exact ⟨hcounts.total_eq_zero (by simp) p, hcounts.total_eq_zero (by simp) p⟩
  · refine hcounts.linksCounted (uses_perform hcommand) (by simp) ?_ p
    cases link <;> simp [LinkOperation.method, Store.Method.reads]

/-- A turn that is refused before the store is asked anything. -/
theorem accounts_refused {response : Response} (hstatus : 400 ≤ response.status)
    (hpartly : ¬ response.PartlyCascaded) : (Turn.mk p request response).Accounts options [] :=
  .of_failure hstatus hpartly (fun _ => rfl) fun _ => rfl

theorem accounts_performWithin (hs : p.store.Unrepeated)
    (hrouted : routed? options request = some operation) :
    (Turn.mk p request (trimmed request
      ((performWithin options request operation).run supply p).1)).Accounts options
        ((performWithin options request operation).marks supply p) := by
  rw [performWithin]
  split
  case isTrue hlarge =>
    rw [trimmed_of_readsBody hrouted hlarge.1]
    exact accounts_refused (show 400 ≤ 413 by decide) fun h => absurd h.1 (by decide : ¬ 413 = 500)
  case isFalse =>
    cases hcommand : bodyCommand? request.body operation with
    | none => exact accounts_aside hrouted hcommand
    | some command =>
      rw [perform_eq_carryOut options request operation hcommand]
      cases command with
      | error error =>
        rw [trimmed_of_readsBody hrouted (readsBody_of_refused hcommand)]
        refine accounts_refused (errorResponse_status error) fun h => ?_
        -- what is wrong with the request is never that a cascade has failed
        obtain ⟨flag, rfl⟩ := partlyCascaded_errorResponse.1 h
        cases checks_bodyCommand? hcommand _ rfl
      | ok command =>
        rw [carryOut, Program.run_map, Program.marks_map]
        refine accounts_command hs ?_
        rw [requested?, hrouted, Option.bind_some, hcommand]

/-- A turn in which no operation is carried out adds nothing. -/
theorem accounts_idle {response : Response}
    (hrouted : ∀ operation, routed? options request = some operation → operation = .samples) :
    (Turn.mk p request response).Accounts options [] := by
  refine .of_cascade? ?_ (fun _ => ⟨rfl, rfl⟩) (fun status => ?_) fun _ => rfl
  · rw [Turn.cascade?]
    cases h : routed? options request with
    | none => rfl
    | some operation =>
      obtain rfl := hrouted operation h
      rfl
  · refine (Turn.results_eq_zero (.inr fun operation h => ?_) status).symm
    obtain rfl := hrouted operation h
    rfl

theorem marks_counted (path : String) (response : Program Response) :
    (counted request path response).marks supply p = response.marks supply p
      ++ [.counted (.httpRequests request.method path (response.run supply p).1.status) 1] :=
  Program.marks_bind response _ p

/-- **Every turn is accounted for** by the marks of what the service has done. -/
theorem accounts_answer (options : Options) (supply : Supply) (request : Http.Request)
    (hs : p.store.Unrepeated) :
    (Turn.mk p request (answer options supply request p).1).Accounts options
      ((handle options request).marks supply p) := by
  cases hrouted : routed? options request with
  | none =>
    have hidle (response : Response) : (Turn.mk p request response).Accounts options [] :=
      accounts_idle fun operation h => by cases hrouted.symm.trans h
    rw [routed?] at hrouted
    generalize (answer options supply request p).1 = response
    rw [handle]
    cases hfind : Operation.find (routes options) request.method request.path with
    | operation template operation => simp [hfind] at hrouted
    | unknownPath | unreadablePath =>
      rw [marks_counted]
      exact (hidle response).append_request _ _ _ _
    | unknownMethod template allow =>
      simp only
      split
      · exact hidle response
      · rw [marks_counted]
        exact (hidle response).append_request _ _ _ _
  | some operation =>
    obtain ⟨template, hfind⟩ := routed?_eq_some.1 hrouted
    by_cases hsamples : operation = .samples
    case pos =>
      subst hsamples
      rw [handle, hfind]
      exact accounts_idle fun operation h => Option.some.inj (h.symm.trans hrouted)
    obtain ⟨counters, hanswer⟩ := answer_of_routed supply p hrouted hsamples
    rw [hanswer, handle_of_find hfind hsamples, marks_counted, Program.marks_map]
    exact (accounts_performWithin hs hrouted).append_request _ _ _ _

/-- Answering adds to a counter what its marks say. -/
theorem value_answer (options : Options) (supply : Supply) (request : Http.Request)
    (p : ServiceState) (series : Series) :
    (answer options supply request p).2.counters.value series
      = p.counters.value series + Mark.total series ((handle options request).marks supply p) := by
  rw [answer]
  split
  case h_1 template hfind =>
    -- the counters are read, and the request is not counted
    rw [handle, hfind]
    rfl
  case h_2 => exact Program.value_run _ p series

end Service

end FeatureFlags

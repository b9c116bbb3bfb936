import FeatureFlags.Proofs.Access
import FeatureFlags.Proofs.Containment
import FeatureFlags.Proofs.Http.Paths

/-!
Evaluating one flag agrees with evaluating all.

Both begin in the same way, with the environment, the key and the body (`Evaluation.admitted`), and
only then part: the one shows a result for each flag, the other the result of one.  So the second
response can be told from the first (`Service.one_agrees_with_all`).  That holds for the flag whose
name is the segment under which rules are read as for any other.
-/

namespace FeatureFlags

open Http

variable {supply : Supply} {p q : ServiceState}

/-! ### What both begin with -/

namespace Evaluation

/-- What the store says about an environment. -/
def found (p : ServiceState) (id : String) : Except StoreError Environment :=
  match p.faults.lookup .getEnvironment with
  | some error => .error error
  | none => p.store.getEnvironment id

/-- The environment and the context, if the environment exists, the key is one of its keys and the
body can be read; else the first of these that fails. -/
def admitted (p : ServiceState) (id : String) (header : List String) (body : List UInt8) :
    Except ApiError (Environment × Json) := do
  let environment ← (found p id).mapError ApiError.ofStore
  Access.authorize .serverOrClientSide environment header
  let context ← readContext body
  .ok (environment, context)

theorem admitted_congr (hstore : q.store = p.store) (hfaults : q.faults = p.faults) :
    admitted q = admitted p := by
  have hfound : found q = found p := by
    funext id
    rw [found, found, hstore, hfaults]
  funext id header body
  rw [admitted, admitted, hfound]

theorem call_getEnvironment (supply : Supply) (p : ServiceState) (id : String) :
    (p.call supply (.getEnvironment id)).1 = found p id := by
  rw [ServiceState.call, Store.Request.method, found]
  cases p.faults.lookup .getEnvironment with
  | some error => rfl
  | none =>
    simp only [Store.perform, Store.unchanged]
    cases p.store.getEnvironment id <;> rfl

/-- Counting results changes nothing about the response. -/
theorem run_countResults (supply : Supply) (results : List EvaluationResult) (response : Response)
    (p : ServiceState) :
    ((Service.respond (countResults results (Action.ok response))).run supply p).1 = response := by
  rw [Service.respond, Program.run_map, countResults]
  generalize results.map (fun result => Series.flagEvaluations result.status) = all
  induction all generalizing p with
  | nil => rfl
  | cons series rest ih => exact ih _

variable {id : String} {header : List String} {body : List UInt8}

/-- An action that starts with a request ends with it if the request fails. -/
theorem run_store_of_failure {α : Type} {sent : Store.Request} {error : StoreError}
    (hreply : (p.call supply sent).1 = .error error) (resume : sent.Reply → Action α) :
    (Action.store sent resume).run supply p
      = (.error (.ofStore error), (p.call supply sent).2) := by
  rw [Action.store, Program.run, hreply]
  rfl

/-- What comes after the beginning decides the response, unless the beginning fails. -/
theorem run_authorized (supply : Supply) (p : ServiceState)
    {resume : Environment → Json → Action Response} {response : Environment → Json → Response}
    (h : ∀ environment context p,
      ((Service.respond (resume environment context)).run supply p).1
        = response environment context) :
    ((Service.respond (authorized .serverOrClientSide id header fun found =>
      Action.require (readContext body) fun context => resume found context)).run supply p).1
      = match admitted p id header body with
        | .ok (environment, context) => response environment context
        | .error error => Service.errorResponse error := by
  -- the environment is all that is asked of the store; the checks that follow only read
  have hreply := call_getEnvironment supply p id
  let checks (found : Environment) : Action Response :=
    Action.require (Access.authorize .serverOrClientSide found header) fun _ =>
      Action.require (readContext body) fun context => resume found context
  have hstart : authorized .serverOrClientSide id header (fun found =>
      Action.require (readContext body) fun context => resume found context)
      = Action.store (.getEnvironment id) checks := rfl
  rw [Service.respond, Program.run_map, hstart]
  cases hfound : found p id with
  | error error =>
    rw [run_store_of_failure (hreply.trans hfound) checks]
    simp only [admitted, hfound, Except.mapError, bind, Except.bind]
  | ok environment =>
    rw [Service.run_store_of_reply (hreply.trans hfound) checks]
    simp only [admitted, hfound, Except.mapError, bind, Except.bind, checks]
    cases Access.authorize .serverOrClientSide environment header with
    | error error => rfl
    | ok _ =>
      cases readContext body with
      | error error => rfl
      | ok context =>
        have hresponse := h environment context (p.call supply (.getEnvironment id)).2
        rwa [Service.respond, Program.run_map] at hresponse

/-- Evaluating all flags shows a result for each. -/
theorem run_evaluateFlags (supply : Supply) (p : ServiceState) :
    ((Service.respond (evaluateFlags id header body)).run supply p).1
      = match admitted p id header body with
        | .ok (environment, context) =>
          .ofJson 200 (Json.ofMap EvaluationResult.toJson
            (FlagMap.evaluateAll environment.flags context))
        | .error error => Service.errorResponse error :=
  run_authorized supply p fun _ _ _ => run_countResults supply _ _ _

/-- Evaluating one flag shows its result, if there is such a flag. -/
theorem run_evaluateFlag (supply : Supply) (p : ServiceState) (name : String) :
    ((Service.respond (evaluateFlag id name header body)).run supply p).1
      = match admitted p id header body with
        | .ok (environment, context) =>
          match FlagMap.evaluate? environment.flags name context with
          | some result => .ofJson 200 result.toJson
          | none => Service.errorResponse (.notFound .flag)
        | .error error => Service.errorResponse error := by
  refine run_authorized supply p fun environment context p => ?_
  cases FlagMap.evaluate? environment.flags name context with
  | none => rfl
  | some result => exact run_countResults supply _ _ _

end Evaluation

/-! ### Ids -/

/-- An id of the form of those that are made: 32 hexadecimal digits. -/
structure GeneratedId (id : String) : Prop where
  length_eq : id.toList.length = 32
  digits : ∀ c ∈ id.toList, (hexValue? c).isSome

namespace GeneratedId

variable {id : String}

theorem free (h : GeneratedId id) : ∀ text ∈ Operation.fixedSegments, text.toList ≠ id.toList := by
  have hlengths : ∀ text ∈ Operation.fixedSegments, text.toList.length ≠ 32 := by decide
  intro text htext heq
  exact hlengths text htext (heq ▸ h.length_eq)

theorem spells (h : GeneratedId id) : Spells id id := by
  have hsigns : ∀ c ∈ ['%', '/', '?', '#'], (hexValue? c).isSome = false := by simp [hexValue?]
  refine spells_self fun c hc hsign => ?_
  have hdigit := h.digits c hc
  rw [hsigns c hsign] at hdigit
  cases hdigit

end GeneratedId

namespace Service

variable {options : Options} {request : Request} {operation : Operation}

/-- The first response of an operation that reads the body. -/
theorem answer_of_readsBody (supply : Supply) (p : ServiceState)
    (hrouted : routed? options request = some operation) (hreads : readsBody operation = true) :
    (answer options supply request p).1
      = if bodyLimit < request.body.length then
          .ofText 413 "Failed to buffer the request body: length limit exceeded"
        else ((perform options request operation).run supply p).1 := by
  -- the counters are shown without being counted, by an operation that reads no body
  have hop : operation ≠ .samples := by
    rintro rfl
    cases hreads
  obtain ⟨counters, hanswer⟩ := answer_of_routed supply p hrouted hop
  rw [hanswer, trimmed_of_readsBody hrouted hreads, performWithin]
  split
  case isTrue hlarge => rw [if_pos hlarge.2]; rfl
  case isFalse hsmall => rw [if_neg fun hlarge => hsmall ⟨hreads, hlarge⟩]

/-- The path of one segment is routed to the evaluation of all flags. -/
theorem routed?_evaluateFlags (options : Options) {segment id : String}
    (hfree : ∀ text ∈ Operation.fixedSegments, text.toList ≠ segment.toList)
    (hid : Spells segment id) (headers : List (String × String)) (body : List UInt8) :
    routed? options ⟨"POST", "/" ++ segment, headers, body⟩ = some (.evaluateFlags id) := by
  obtain ⟨template, hfind⟩ := Operation.find_evaluateFlags options hfree hid
  refine routed?_eq_some.2 ⟨template, ?_⟩
  rwa [Request.path_of_plain]
  intro c hc
  rw [String.toList_append, List.mem_append] at hc
  obtain hc | hc := hc
  · obtain rfl : c = '/' := List.mem_singleton.1 hc
    decide
  · exact (hid.plain c hc).2

/-- The path of two segments is routed to the evaluation of one flag. -/
theorem routed?_evaluateFlag (options : Options) {first second id name : String}
    (hfree : ∀ text ∈ Operation.fixedSegments, text.toList ≠ first.toList)
    (hid : Spells first id) (hname : Spells second name) (hne : name ≠ "")
    (headers : List (String × String)) (body : List UInt8) :
    routed? options ⟨"POST", "/" ++ first ++ "/" ++ second, headers, body⟩
      = some (.evaluateFlag id name) := by
  obtain ⟨template, hfind⟩ := Operation.find_evaluateFlag options hfree hid hname hne
  refine routed?_eq_some.2 ⟨template, ?_⟩
  rwa [Request.path_of_plain]
  intro c hc
  simp only [String.toList_append, List.mem_append] at hc
  obtain ((hc | hc) | hc) | hc := hc
  · obtain rfl : c = '/' := List.mem_singleton.1 hc
    decide
  · exact (hid.plain c hc).2
  · obtain rfl : c = '/' := List.mem_singleton.1 hc
    decide
  · exact (hname.plain c hc).2

/-- What is shown of one flag, if these are the results of all. -/
def resultOf (results : List (String × Json)) (name : String) : Response :=
  match results.lookup name with
  | some result => .ofJson 200 result
  | none => .ofJson 404 (Json.ofFields [("detail", .string "Flag not found")])

/-- The second response is for one flag what the first is for all. -/
structure Agrees (name : String) (all one : Response) : Prop where
  shown : all.status = 200 →
    ∃ results, all = .ofJson 200 (.object results) ∧ one = resultOf results name
  failed : all.status ≠ 200 → one = all

/-- A failure is the same for one flag and for all. -/
theorem Agrees.of_failure (name : String) {response : Response} (h : response.status ≠ 200) :
    Agrees name response response :=
  ⟨fun hstatus => absurd hstatus h, fun _ => rfl⟩

/-- The results are looked up by name as the flags are. -/
theorem resultOf_evaluateAll (flags : FlagMap) (context : Json) (name : String) :
    resultOf ((flags.evaluateAll context).mapValues fun _ result => result.toJson).entries name
      = match flags.evaluate? name context with
        | some result => .ofJson 200 result.toJson
        | none => errorResponse (.notFound .flag) := by
  have hlookup := SortedMap.get?_mapValues (fun _ result => EvaluationResult.toJson result)
    (flags.evaluateAll context) name
  rw [FlagMap.get?_evaluateAll] at hlookup
  rw [resultOf, show List.lookup name _ = _ from hlookup]
  cases flags.evaluate? name context <;> rfl

/-- On the same store, the two operations agree. -/
theorem run_agrees (hstore : q.store = p.store) (hfaults : q.faults = p.faults)
    (supply supply' : Supply) (id name : String) (header : List String) (body : List UInt8) :
    Agrees name ((respond (Evaluation.evaluateFlags id header body)).run supply p).1
      ((respond (Evaluation.evaluateFlag id name header body)).run supply' q).1 := by
  rw [Evaluation.run_evaluateFlags, Evaluation.run_evaluateFlag,
    Evaluation.admitted_congr hstore hfaults]
  cases Evaluation.admitted p id header body with
  | error error =>
    have hstatus : (errorResponse error).status ≠ 200 := by
      have hleast := errorResponse_status error
      omega
    exact .of_failure name hstatus
  | ok granted =>
    exact ⟨fun _ => ⟨_, rfl, (resultOf_evaluateAll granted.1.flags granted.2 name).symm⟩,
      fun hstatus => absurd rfl hstatus⟩

/-- **Evaluating one flag agrees with evaluating all**: if the flags of an environment are shown,
then one flag is shown as it is among them, or is said not to be there; and if not, then the request
for one flag gets the same response as that for all. -/
theorem one_agrees_with_all (options : Options) {id name : String} (hid : GeneratedId id)
    (hname : name ≠ "") (headers : List (String × String)) (body : List UInt8)
    (supply supply' : Supply) {p q : ServiceState} (hstore : q.store = p.store)
    (hfaults : q.faults = p.faults) :
    (∃ segment, Spells segment name) ∧
    ∀ segment, Spells segment name →
      Agrees name (answer options supply ⟨"POST", "/" ++ id, headers, body⟩ p).1
        (answer options supply' ⟨"POST", "/" ++ id ++ "/" ++ segment, headers, body⟩ q).1 := by
  refine ⟨⟨_, spells_percentEncode (fun _ _ => rfl) name⟩, fun segment hsegment => ?_⟩
  have hall := routed?_evaluateFlags options hid.free hid.spells headers body
  have hone := routed?_evaluateFlag options hid.free hid.spells hsegment hname headers body
  rw [answer_of_readsBody supply p hall rfl, answer_of_readsBody supply' q hone rfl]
  by_cases hlarge : bodyLimit < body.length
  · rw [if_pos hlarge, if_pos hlarge]
    exact .of_failure name (by decide)
  · rw [if_neg hlarge, if_neg hlarge]
    exact run_agrees hstore hfaults supply supply' id name _ body

/-- A flag under the name of the segment of the rules, asked for in two spellings. -/
theorem one_agrees_with_all_rules :
    let options : Options := ⟨10, true⟩
    let id := "0123456789abcdef0123456789abcdef"
    let flags : FlagMap := SortedMap.empty.insert "get_rules" ⟨none, .bool true⟩
    let environment : Environment := { Environment.new id "prod" flags ⟨0, 0⟩ with
      clientSideKeys := SortedMap.empty.insert "k" ⟨"web", ⟨0, 0⟩⟩ }
    let p : ServiceState := { ServiceState.fresh with
      store.environments := SortedMap.empty.insert id environment }
    let respond (target : String) : Response :=
      (answer options Supply.counting ⟨"POST", target, [("Authorization", "Bearer k")], []⟩ p).1
    (respond ("/" ++ id)).status = 200 ∧
      Agrees "get_rules" (respond ("/" ++ id)) (respond ("/" ++ id ++ "/" ++ "get_rules")) ∧
      Agrees "get_rules" (respond ("/" ++ id)) (respond ("/" ++ id ++ "/" ++ "get%5Frules")) := by
  intro options id flags environment p respond
  have hid : GeneratedId id := ⟨by decide, List.all_eq_true.1 (by decide)⟩
  have hname : "get_rules" ≠ "" := by decide
  have hstore : p.store = p.store := rfl
  have hagrees := (one_agrees_with_all options hid hname [("Authorization", "Bearer k")] []
    Supply.counting Supply.counting hstore rfl).2
  have hplain : Spells "get_rules" "get_rules" := ⟨by simp, by decide⟩
  have hencoded : Spells "get%5Frules" "get_rules" := ⟨by simp, by decide⟩
  exact ⟨by decide +kernel, hagrees "get_rules" hplain, hagrees "get%5Frules" hencoded⟩

end Service

end FeatureFlags

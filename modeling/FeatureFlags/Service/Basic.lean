import FeatureFlags.Service.Admin
import FeatureFlags.Service.Evaluation
import FeatureFlags.Service.Operation

/-!
The service: from requests to responses.

A request is routed to an operation, the operation is a program over the store, and its result or
its failure is the response.  Each request is counted by method, route and status, except those for
the counters themselves.
-/

namespace FeatureFlags

namespace Service

open Http

/-- What the service is told when it starts. -/
structure Options where
  /-- How many projects are listed if the request does not say. -/
  defaultPageSize : Nat
  /-- Whether the counters can be read. -/
  exposesSamples : Bool

/-- The greatest number that a query can give for a page. -/
def greatestPageNumber : Nat := 0xffffffff

/-- The number of bytes that a body may have. -/
def bodyLimit : Nat := 2097152

/-- The operation reads the body of its request. -/
def readsBody : Operation → Bool
  | .createProject | .createEnvironment _ | .addFlag _ | .patchFlag .. | .renameEnvironment _
  | .patchEnvironmentFlag .. | .createKey .. | .evaluateFlags _ | .evaluateFlag .. => true
  | _ => false

/-- The response to a failed request. -/
def errorResponse (error : ApiError) : Response :=
  .ofJson error.status (Json.ofFields [("detail", .string error.detail)])

/-- The result of an operation as a response. -/
def respond (action : Action Response) : Program Response :=
  action.map fun
    | .ok response => response
    | .error error => errorResponse error

/-- Says whether the store can be reached. -/
def readiness : Program Response :=
  .call .ping fun
    | .ok _ => .done (.ofText 200 "ready")
    | .error error => .done (.ofText 503 ("store unavailable: " ++ error.message))

/-- Lists a page of the projects. -/
def listProjects (options : Options) (query : List Char) : Program Response :=
  let pairs := queryPairs query
  match queryNatural? greatestPageNumber "page_size" pairs,
    queryNatural? greatestPageNumber "page_start" pairs with
  | some size, some start =>
    respond (Admin.listProjects (start.getD 0) (size.getD options.defaultPageSize))
  | _, _ => .done (.ofText 400 "Failed to deserialize query string")

/-- Carries an operation out. -/
def perform (options : Options) (request : Request) : Operation → Program Response
  | .index => .done (.ofText 200 "remote flags")
  | .health => .done (.ofText 200 "Healthy")
  | .readiness => readiness
  | .samples => .done (.ofStatus 200)
  | .listProjects => listProjects options request.query
  | .createProject => respond (Admin.createProject request.body)
  | .getProject project => respond (Admin.getProject project)
  | .createEnvironment project => respond (Admin.createEnvironment project request.body)
  | .deleteProject project => respond (Admin.deleteProject project)
  | .addFlag project => respond (Admin.addFlag project request.body)
  | .patchFlag project flag => respond (Admin.patchFlag project flag request.body)
  | .removeFlag project flag => respond (Admin.removeFlag project flag)
  | .resyncFlag project flag => respond (Admin.resyncFlag project flag)
  | .getEnvironment environment => respond (Admin.getEnvironment environment)
  | .renameEnvironment environment =>
    respond (Admin.renameEnvironment environment request.body)
  | .deleteEnvironment environment => respond (Admin.deleteEnvironment environment)
  | .patchEnvironmentFlag environment flag =>
    respond (Admin.patchEnvironmentFlag environment flag request.body)
  | .removeEnvironmentFlag environment flag =>
    respond (Admin.removeEnvironmentFlag environment flag)
  | .createKey scope environment => respond (Admin.createKey scope environment request.body)
  | .deleteKey scope environment key => respond (Admin.deleteKey scope environment key)
  | .getRules environment =>
    respond (Evaluation.getRules environment (request.headerValues "authorization"))
  | .evaluateFlags environment =>
    respond (Evaluation.evaluateFlags environment (request.headerValues "authorization")
      request.body)
  | .evaluateFlag environment flag =>
    respond (Evaluation.evaluateFlag environment flag (request.headerValues "authorization")
      request.body)

/-- Carries an operation out, unless the body that it reads is too large. -/
def performWithin (options : Options) (request : Request) (operation : Operation) :
    Program Response :=
  if readsBody operation ∧ bodyLimit < request.body.length then
    .done (.ofText 413 "Failed to buffer the request body: length limit exceeded")
  else perform options request operation

/-- Counts a request under a path once its response is there. -/
def counted (request : Request) (path : String) (response : Program Response) :
    Program Response :=
  response.bind fun response =>
    .count (.httpRequests request.method path response.status) 1 (.done response)

/-- The routes that the options ask for. -/
def routes (options : Options) : List (Route Operation.Methods) :=
  if options.exposesSamples then Operation.samplesRoute :: Operation.routes
  else Operation.routes

/-- A response to a request for the status alone has no content. -/
def trimmed (request : Request) (response : Response) : Response :=
  if request.method = "HEAD" then response.withoutContent else response

/-- The template under which the counters can be read. -/
def samplesTemplate : String := template Operation.samplesRoute.pattern

/-- What the service does for a request. -/
def handle (options : Options) (request : Request) : Program Response :=
  match Operation.find (routes options) request.method request.path with
  | .unknownPath => counted request (String.ofList request.path) (.done (.ofStatus 404))
  | .unknownMethod template allow =>
    let response : Response := { Response.ofStatus 405 with allow }
    if options.exposesSamples ∧ template = samplesTemplate then .done response
    else counted request template (.done response)
  | .unreadablePath template =>
    counted request template (.done (trimmed request (.ofText 400 "Invalid URL")))
  | .operation _ .samples => .done (.ofStatus 200)
  | .operation template operation =>
    counted request template ((performWithin options request operation).map (trimmed request))

/-- Answers a request.  The counters are shown as they are at the time of the request. -/
def answer (options : Options) (supply : Supply) (request : Request) (p : ServiceState) :
    Response × ServiceState :=
  match Operation.find (routes options) request.method request.path with
  | .operation _ .samples =>
    (trimmed request ⟨200, .samples p.counters.samples p.counters.shownBounds, []⟩, p)
  | _ => (handle options request).run supply p

end Service

end FeatureFlags

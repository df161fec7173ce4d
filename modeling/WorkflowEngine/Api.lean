import WorkflowEngine.Management
import WorkflowEngine.RateLimit
import WorkflowEngine.Tenants

/-!
# The API

The application of `src/main.py`.  A request comes to `AuthMiddleware` first, then to
`RateLimitMiddleware`, and then to its route.  What the route raises becomes a response by the
handlers of `src/api/middleware/errors.py`; the headers of the rate limit are added to every
response but that of an exception that nobody expects.

A route has the path of its decorator, in which the client writes an id in any way that FastAPI
reads.  Pydantic has read the body.
-/

namespace WorkflowEngine

open Py Orm Interact

/-! ## Requests -/

/-- The routes that read `request.state.tenant`, with what a request hands to them. -/
inductive TenantCall where
  | getCurrentTenant
  | manage (request : ManagementRequest)
  | manualExecute (workflowId : Uuid) (triggerData : Dict String Json)
  | replayExecution (executionId : Uuid) (overrideData : Dict String Json)
  | streamExecution (executionId : Uuid)

/-- The routes. -/
inductive RouteCall where
  | healthCheck
  | registerTenant (name : String)
  | receiveWebhook (request : WebhookRequest)
  | ofTenant (call : TenantCall)

/-- The method and the path of a decorator: a parameter stands between the parts of the
path, unless there is only one. -/
structure RoutePath where
  method : String
  front : String
  back : Option String := none
  deriving DecidableEq

/-- The path with the text of the parameter. -/
def RoutePath.path (route : RoutePath) (text : String) : String :=
  match route.back with
  | none => route.front
  | some back => route.front ++ (text ++ back)

/-- The decorator of a route of the management API. -/
def ManagementRequest.routePath : ManagementRequest → RoutePath
  | .listWorkflows _ _ _ => ⟨"GET", "/api/workflows", none⟩
  | .getWorkflow _ => ⟨"GET", "/api/workflows/", some ""⟩
  | .createWorkflow _ => ⟨"POST", "/api/workflows", none⟩
  | .updateWorkflow _ _ => ⟨"PUT", "/api/workflows/", some ""⟩
  | .deleteWorkflow _ => ⟨"DELETE", "/api/workflows/", some ""⟩
  | .listExecutions _ _ _ => ⟨"GET", "/api/executions", none⟩
  | .getExecution _ => ⟨"GET", "/api/executions/", some ""⟩
  | .cancelExecution _ => ⟨"POST", "/api/executions/", some "/cancel"⟩
  | .getExecutionLogs _ _ => ⟨"GET", "/api/executions/", some "/logs"⟩
  | .getExecutionMetrics => ⟨"GET", "/api/metrics/executions", none⟩

/-- The decorator of a route that reads the tenant. -/
def TenantCall.routePath : TenantCall → RoutePath
  | getCurrentTenant => ⟨"GET", "/api/tenants/me", none⟩
  | manage request => request.routePath
  | manualExecute _ _ => ⟨"POST", "/api/workflows/", some "/execute"⟩
  | replayExecution _ _ => ⟨"POST", "/api/executions/", some "/replay"⟩
  | streamExecution _ => ⟨"GET", "/api/executions/", some "/stream"⟩

namespace RouteCall

/-- The decorator of the route. -/
def routePath : RouteCall → RoutePath
  | healthCheck => ⟨"GET", "/api/health", none⟩
  | registerTenant _ => ⟨"POST", "/api/tenants/register", none⟩
  | receiveWebhook _ => ⟨"POST", "/webhooks/", some ""⟩
  | ofTenant call => call.routePath

/-- The text in the path: the client may write an id in several ways. -/
def text (idText : String) : RouteCall → String
  | receiveWebhook request => request.path
  | _ => idText

/-- The path of the request. -/
def path (idText : String) (call : RouteCall) : String := call.routePath.path (call.text idText)

end RouteCall

/-- The decorators of the routes that read the tenant. -/
def tenantRoutes : List RoutePath :=
  [⟨"GET", "/api/workflows", none⟩, ⟨"GET", "/api/workflows/", some ""⟩,
    ⟨"POST", "/api/workflows", none⟩, ⟨"PUT", "/api/workflows/", some ""⟩,
    ⟨"DELETE", "/api/workflows/", some ""⟩, ⟨"GET", "/api/executions", none⟩,
    ⟨"GET", "/api/executions/", some ""⟩, ⟨"POST", "/api/executions/", some "/cancel"⟩,
    ⟨"GET", "/api/executions/", some "/logs"⟩, ⟨"GET", "/api/metrics/executions", none⟩,
    ⟨"GET", "/api/tenants/me", none⟩, ⟨"POST", "/api/workflows/", some "/execute"⟩,
    ⟨"POST", "/api/executions/", some "/replay"⟩, ⟨"GET", "/api/executions/", some "/stream"⟩]

/-- The decorators of the other routes. -/
def publicRoutes : List RoutePath :=
  [⟨"GET", "/api/health", none⟩, ⟨"POST", "/api/tenants/register", none⟩,
    ⟨"POST", "/webhooks/", some ""⟩]

theorem TenantCall.routePath_mem (call : TenantCall) : call.routePath ∈ tenantRoutes := by
  cases call with
  | manage request =>
    cases request <;> simp [tenantRoutes, TenantCall.routePath, ManagementRequest.routePath]
  | _ => simp [tenantRoutes, TenantCall.routePath]

theorem RouteCall.routePath_public {call : RouteCall} (h : ∀ tenantCall, call ≠ .ofTenant tenantCall) :
    call.routePath ∈ publicRoutes := by
  cases call with
  | ofTenant call => exact absurd rfl (h call)
  | _ => simp [publicRoutes, RouteCall.routePath]

theorem RouteCall.routePath_mem (call : RouteCall) : call.routePath ∈ publicRoutes ++ tenantRoutes := by
  by_cases h : ∃ tenantCall, call = .ofTenant tenantCall
  · rcases h with ⟨tenantCall, rfl⟩
    exact List.mem_append_right _ tenantCall.routePath_mem
  · exact List.mem_append_left _ (RouteCall.routePath_public (not_exists.mp h))

/-- A path begins as its decorator says. -/
theorem RoutePath.toList_path (route : RoutePath) (text : String) :
    ∃ rest, (route.path text).toList = route.front.toList ++ rest := by
  unfold RoutePath.path
  cases route.back with
  | none => exact ⟨[], (List.append_nil _).symm⟩
  | some back => exact ⟨_, String.toList_append⟩

theorem RouteCall.method_plain (call : RouteCall) :
    '/' ∉ call.routePath.method.toList ∧ ':' ∉ call.routePath.method.toList := by
  have hall : ∀ route ∈ publicRoutes ++ tenantRoutes,
      '/' ∉ route.method.toList ∧ ':' ∉ route.method.toList := by decide
  exact hall _ call.routePath_mem

theorem RouteCall.path_absolute (call : RouteCall) (idText : String) :
    ∀ c ∈ (call.path idText).toList.head?, c = '/' := by
  have hall : ∀ route ∈ publicRoutes ++ tenantRoutes, route.front.toList.head? = some '/' := by
    decide
  rcases call.routePath.toList_path (call.text idText) with ⟨rest, hpath⟩
  intro c hc
  rw [RouteCall.path, hpath, List.head?_append, hall _ call.routePath_mem] at hc
  exact (Option.some.inj hc).symm

/-- A request: the address of the client or "unknown", and `X-API-Key`. -/
structure ApiRequest where
  client : String
  client_plain : '/' ∉ client.toList
  apiKey : Option String
  idText : String
  call : RouteCall

/-- `request.url.path`. -/
def ApiRequest.path (request : ApiRequest) : String := request.call.path request.idText

/-- What the rate limit reads of it. -/
def ApiRequest.limited (request : ApiRequest) : RateLimit.Request where
  client := request.client
  method := request.call.routePath.method
  path := request.path
  client_plain := request.client_plain
  method_plain := request.call.method_plain
  path_absolute := request.call.path_absolute request.idText

/-- A request, and what it finds: the clocks, what Redis fails at, what the checks of the
health route find, the session that nested executions are handed, and what is drawn for a new
tenant. -/
structure Incoming where
  request : ApiRequest
  surroundings : Surroundings
  session : SessionRef
  fuel : Nat
  time : Redis.Time
  clock : Int
  faults : RateLimit.Faults
  postgres : Bool
  redis : Bool
  workers : Nat
  tenantId : Uuid
  token : Nat
  salt : Nat

/-- The request as it comes to the rate limit. -/
def Incoming.arrival (incoming : Incoming) : RateLimit.Arrival where
  time := incoming.time
  clock := incoming.clock
  request := incoming.request.limited
  faults := incoming.faults

/-! ## Responses -/

/-- What a route returns. -/
inductive ApiAnswer where
  | health (status : String) (postgres redis : Bool) (workers : Nat)
  | registered (tenant : TenantWithKey)
  | tenant (id : Uuid) (name : String) (isActive : Bool) (createdAt : Time)
  | managed (response : ManagementResponse)
  | accepted (execution : Uuid)
  | stream (execution : Uuid)

/-- The body of a response: what a route has returned, or a `JSONResponse`. -/
inductive ApiReply where
  | answer (answer : ApiAnswer)
  | json (statusCode : Nat) (content : Json)

/-- A response with the headers that the middleware has added. -/
structure ApiResponse where
  reply : ApiReply
  headers : List (String × String)

/-- The text of the code. -/
def ErrorCode.text : ErrorCode → String
  | noSteps => "NO_STEPS"
  | tooManySteps => "TOO_MANY_STEPS"
  | unknownStepType => "UNKNOWN_STEP_TYPE"
  | duplicateStepId => "DUPLICATE_STEP_ID"
  | invalidDependency => "INVALID_DEPENDENCY"
  | cycleDetected => "CYCLE_DETECTED"
  | maxDepthExceeded => "MAX_DEPTH_EXCEEDED"
  | expressionError => "EXPRESSION_ERROR"
  | validationError => "VALIDATION_ERROR"
  | invalidTransition => "INVALID_TRANSITION"
  | notFound => "NOT_FOUND"
  | workflowInactive => "WORKFLOW_INACTIVE"
  | stepConfigError => "STEP_CONFIG_ERROR"
  | httpStepError => "HTTP_STEP_ERROR"
  | httpStepTimeout => "HTTP_STEP_TIMEOUT"
  | invalidSignature => "INVALID_SIGNATURE"
  | replayDisabled => "REPLAY_DISABLED"
  | payloadTooLarge => "PAYLOAD_TOO_LARGE"
  | unsupportedStepType => "UNSUPPORTED_STEP_TYPE"
  | invalidCursor => "INVALID_CURSOR"
  | registrationDisabled => "REGISTRATION_DISABLED"

/-- The text of the code. -/
def ApiKeyCode.text : ApiKeyCode → String
  | invalidApiKey => "INVALID_API_KEY"
  | tenantDisabled => "TENANT_DISABLED"

/-- A `JSONResponse` with `create_error_response`. -/
def errorReply (statusCode : Nat) (code message : String) (details : List Json) : ApiReply :=
  .json statusCode (RateLimit.createErrorResponse code message details)

/-- `app_error_handler`. -/
def appErrorHandler (exc : AppError) : ApiReply :=
  errorReply exc.statusCode exc.code.text exc.message (exc.details.map .obj)

/-- `unhandled_exception_handler`, and the last resort of the middleware. -/
def unexpectedError : ApiReply :=
  errorReply 500 "INTERNAL_ERROR" "An unexpected error occurred." []

/-- The response of a webhook. -/
def ApiReply.ofResponse : Response → ApiReply
  | .accepted execution => .answer (.accepted execution)
  | .error statusCode code message => errorReply statusCode code.text message []

/-! ## Authentication -/

/-- `PUBLIC_PATH_PREFIXES`. -/
def publicPathPrefixes : List String :=
  ["/api/health", "/webhooks/", "/api/tenants/register", "/docs", "/openapi.json", "/redoc"]

/-- `_is_public_path`. -/
def isPublicPath (path : String) : Bool :=
  publicPathPrefixes.any (fun front => front.toList.isPrefixOf path.toList)

/-- The `try` block of `AuthMiddleware.dispatch`. -/
def authenticate (bcrypt : Bcrypt) (tenants : TenantTable) (apiKey : Option String) :
    Except ApiReply TenantContext :=
  if apiKey.getD "" = "" then
    .error (errorReply 401 "INVALID_API_KEY" "Missing X-API-Key header." [])
  else
    match validateApiKey bcrypt tenants (apiKey.getD "") with
    | .ok tenant => .ok tenant
    | .error (.app code message statusCode) => .error (errorReply statusCode code.text message [])
    | .error .multipleResultsFound => .error unexpectedError

/-! ## The routes -/

/-- The state of the application: the tables, what the process remembers, the keys that were
issued, and the counters on Redis. -/
structure Api where
  engine : Engine
  details : Uuid → WorkflowDetails
  createdAt : RowId → Time
  logs : AList (fun _ : Uuid => ExecutionLog)
  tenants : Tenants
  counters : Redis.Store String

namespace Api

/-- Nothing is stored. -/
def initial : Api := ⟨Engine.initial, fun _ => ⟨none, [], 0, 0⟩, fun _ => 0, ∅, ⟨∅, []⟩, .empty⟩

/-- The tables. -/
def database (s : Api) : Database := ⟨s.engine.rows, s.details, s.createdAt, s.logs, s.tenants.table⟩

/-- The state with these rows. -/
def setRows (s : Api) (rows : Rows Row) : Api := { s with engine := { s.engine with rows := rows } }

/-- What a route of the management API leaves of the tables. -/
def setDatabase (s : Api) (d : Database) : Api :=
  { s.setRows d.rows with details := d.details, logs := d.logs }

end Api

/-- `_compute_status`. -/
def computeStatus (postgres redis : Bool) : String :=
  if postgres && redis then "ok" else if postgres || redis then "degraded" else "error"

section

variable (bcrypt : Bcrypt) (libs : Libraries) (settings : Settings) (wire : Wire)
  (fromisoformat : String → Option Time) (rate : Nat → Nat → Json) (selfRegistrationEnabled : Bool)

/-- A route that starts executions commits the rows of its session. -/
def Api.session (s : Api) (incoming : Incoming) (m : Prog Response) :
    Except Raised ApiReply × Api :=
  let ended := m.run ⟨⟨s.engine.rows, Session.fresh⟩, incoming.surroundings.env⟩
  (ended.1.map .ofResponse, s.setRows ended.2.db.committed)

/-- The error of a registration that the configuration does not allow. -/
def registrationDisabled : AppError :=
  ⟨.registrationDisabled, "Tenant self-registration is disabled.", 403, []⟩

/-- `register_tenant_endpoint`. -/
def registerTenantEndpoint (s : Api) (incoming : Incoming) (name : String) :
    Except Raised ApiReply × Api :=
  if selfRegistrationEnabled then
    match registerTenant bcrypt s.tenants.table incoming.tenantId incoming.surroundings.now name
      incoming.token incoming.salt with
    | .ok (table, tenant) =>
      (.ok (.answer (.registered tenant)), { s with tenants := ⟨table, tenant :: s.tenants.issued⟩ })
    | .error exc => (.error (.exception exc), s)
  else (.error (.exception (.app registrationDisabled)), s)

/-- `get_current_tenant`. -/
def getCurrentTenant (s : Api) (tenant : TenantContext) : Except Raised ApiReply :=
  match s.tenants.table.lookup tenant.id with
  | some row => .ok (.answer (.tenant tenant.id row.name row.isActive row.createdAt))
  | none => .error (.exception (.other "NoResultFound" "No row was found when one was required"))

/-- A route that reads the tenant. -/
def Api.routeOf (s : Api) (incoming : Incoming) (tenant : TenantContext) :
    TenantCall → Except Raised ApiReply × Api
  | .getCurrentTenant => (getCurrentTenant s tenant, s)
  | .manage request =>
    let ended := WorkflowEngine.manage libs settings fromisoformat rate incoming.surroundings
      s.database tenant.id request
    (ended.1.map (fun response => .answer (.managed response)), s.setDatabase ended.2)
  | .manualExecute workflowId triggerData =>
    s.session incoming (WorkflowEngine.manualExecute (nesting libs settings performer
      incoming.session incoming.fuel) incoming.session libs settings workflowId tenant.id triggerData)
  | .replayExecution executionId overrideData =>
    s.session incoming (replayExecutionEndpoint (nesting libs settings performer
      incoming.session incoming.fuel) incoming.session libs settings executionId tenant.id overrideData)
  | .streamExecution executionId =>
    ((tenantExecution s.database executionId tenant.id).map
      (fun _ => .answer (.stream executionId)), s)

/-- A route, with `request.state.tenant` if the middleware has set it. -/
def Api.route (s : Api) (incoming : Incoming) (tenant : Option TenantContext) :
    RouteCall → Except Raised ApiReply × Api
  | .healthCheck =>
    (.ok (.answer (.health (computeStatus incoming.postgres incoming.redis) incoming.postgres
      incoming.redis incoming.workers)), s)
  | .registerTenant name => registerTenantEndpoint bcrypt selfRegistrationEnabled s incoming name
  | .receiveWebhook request =>
    s.session incoming (WorkflowEngine.receiveWebhook (nesting libs settings performer
      incoming.session incoming.fuel) incoming.session libs settings wire request)
  | .ofTenant call =>
    match tenant with
    | some tenant => s.routeOf libs settings fromisoformat rate incoming tenant call
    | none =>
      (.error (.exception (.other "AttributeError" "'State' object has no attribute 'tenant'")), s)

/-- `RateLimitMiddleware.dispatch`, with the handlers of the errors inside it.  The exception
that nobody expects goes through it, and gets its response outside. -/
def Api.limited (s : Api) (incoming : Incoming) (tenant : Option TenantContext) :
    ApiResponse × Api :=
  match RateLimit.dispatch incoming.arrival s.counters with
  | (.response statusCode content headers, counters) =>
    (⟨.json statusCode content, headers⟩, { s with counters := counters })
  | (.callNext headers, counters) =>
    let ended := Api.route bcrypt libs settings wire fromisoformat rate selfRegistrationEnabled
      { s with counters := counters } incoming tenant incoming.request.call
    match ended.1 with
    | .ok reply => (⟨reply, headers⟩, ended.2)
    | .error (.exception (.app exc)) => (⟨appErrorHandler exc, headers⟩, ended.2)
    | .error _ => (⟨unexpectedError, []⟩, ended.2)

/-- The response to a request, and the state that it leaves: `AuthMiddleware.dispatch`, and
what is inside it. -/
def Api.respond (s : Api) (incoming : Incoming) : ApiResponse × Api :=
  if isPublicPath incoming.request.path then
    s.limited bcrypt libs settings wire fromisoformat rate selfRegistrationEnabled incoming none
  else
    match authenticate bcrypt s.tenants.table incoming.request.apiKey with
    | .error reply => (⟨reply, []⟩, s)
    | .ok tenant =>
      s.limited bcrypt libs settings wire fromisoformat rate selfRegistrationEnabled incoming
        (some tenant)

end

end WorkflowEngine

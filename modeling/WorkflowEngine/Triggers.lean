import WorkflowEngine.Orchestrator

/-!
# The trigger paths

The four callers of `start_execution`: `manual_execute` and
`replay_execution_endpoint` of `src/api/executions.py`, `receive_webhook` of
`src/api/webhooks.py`, and `_execute_cron_workflow` of `src/triggers/cron.py`.
Each opens a session, starts an execution in it and commits.

The parser of JSON bodies and HMAC-SHA256 are parameters, `Wire`.  The cache of
workflow definitions is an input of a webhook request: what it holds for the
path.  What the request leaves in the cache is not modelled.
-/

namespace WorkflowEngine

open Py Orm Interact

/-- The answer of an endpoint: the new execution, or an error object. -/
inductive Response where
  | accepted (execution : Uuid)
  | error (statusCode : Nat) (code : ErrorCode) (message : String)

/-- `JSONResponse(exc.status_code, create_error_response(exc.code, exc.message))`. -/
def Response.ofError (e : AppError) : Response := .error e.statusCode e.code e.message

/-- The error of a missing workflow. -/
def workflowNotFound : AppError := ⟨.notFound, "Workflow not found.", 404, []⟩

/-- `get_tenant_workflow`. -/
def getTenantWorkflow (workflowId tenantId : Uuid) : Prog Workflow := do
  match ← selectWorkflow workflowId (fun workflow => workflow.tenantId = tenantId) with
  | none => raiseApp workflowNotFound
  | some workflow => return workflow

/-- `validate_workflow_active`. -/
def validateWorkflowActive (workflow : Workflow) : Except PyError Unit :=
  if workflow.isActive then .ok ()
  else .error (.app ⟨.workflowInactive, "Workflow is not active.", 400, []⟩)

/-- The functions on bytes that the code takes from elsewhere. -/
structure Wire where
  /-- `json.loads(body)`; `none` is a `ValueError`. -/
  loads : List UInt8 → Option Json
  /-- `hmac.new(secret, body, sha256).hexdigest()`. -/
  hexdigest : String → List UInt8 → String

/-! ## The text of numbers and times -/

/-- The digits of `int(text)`: single underscores may stand between them. -/
def intDigits : List Char → Option Nat → Option Nat
  | [], acc => acc
  | '_' :: c :: cs, some acc => if c.isDigit then intDigits (c :: cs) (some acc) else none
  | c :: cs, acc =>
    if c.isDigit then intDigits cs (some (acc.getD 0 * 10 + (c.toNat - '0'.toNat))) else none

/-- `int(text)`; `none` is a `ValueError`. -/
def parseInt (text : String) : Option Int :=
  match (strip text).toList with
  | '-' :: cs => (intDigits cs none).map (fun n => -(n : Int))
  | '+' :: cs => (intDigits cs none).map Int.ofNat
  | cs => (intDigits cs none).map Int.ofNat

/-- A number in decimal digits, filled with zeros from the left. -/
def padded (width n : Nat) : String :=
  let digits := toString n
  "".pushn '0' (width - digits.length) ++ digits

/-- The year, the month and the day of a number of days since 1970-01-01. -/
def civilDate (days : Int) : Int × Int × Int :=
  let z := days + 719468
  let era := z.fdiv 146097
  let dayOfEra := z - era * 146097
  let yearOfEra := (dayOfEra - dayOfEra / 1460 + dayOfEra / 36524 - dayOfEra / 146096) / 365
  let dayOfYear := dayOfEra - (365 * yearOfEra + yearOfEra / 4 - yearOfEra / 100)
  let shifted := (5 * dayOfYear + 2) / 153
  let month := if shifted < 10 then shifted + 3 else shifted - 9
  (yearOfEra + era * 400 + (if month ≤ 2 then 1 else 0), month,
    dayOfYear - (153 * shifted + 2) / 5 + 1)

/-- `datetime.isoformat()` of a time in UTC. -/
def isoformat (t : Time) : String :=
  let (year, month, day) := civilDate (t.fdiv 86400000000)
  let micros := (t.fmod 86400000000).toNat
  let seconds := micros / 1000000
  let fraction := micros % 1000000
  padded 4 year.toNat ++ "-" ++ padded 2 month.toNat ++ "-" ++ padded 2 day.toNat ++ "T" ++
    padded 2 (seconds / 3600) ++ ":" ++ padded 2 (seconds / 60 % 60) ++ ":" ++
    padded 2 (seconds % 60) ++ (if fraction = 0 then "" else "." ++ padded 6 fraction) ++ "+00:00"

example : isoformat 1709210096123456 = "2024-02-29T12:34:56.123456+00:00" := by decide +kernel

/-! ## Webhooks -/

/-- An inbound webhook request, and what the cache holds for its path. -/
structure WebhookRequest where
  path : String
  method : String
  headers : Dict String String
  body : List UInt8
  sourceIp : Option String
  cached : Option (Uuid × Workflow)

/-- `dict(request.headers)` as JSON. -/
def WebhookRequest.requestHeaders (request : WebhookRequest) : Dict String Json :=
  request.headers.map (fun header => (header.1, .str header.2))

/-- `json.loads(body) if body else {}`, and `{}` for a body that is not JSON. -/
def WebhookRequest.payload (request : WebhookRequest) (wire : Wire) : Json :=
  if request.body.isEmpty then .obj [] else (wire.loads request.body).getD (.obj [])

/-- The response to a request that is too large. -/
def payloadTooLarge : Response :=
  .error 413 .payloadTooLarge "Request payload exceeds maximum allowed size."

/-- `content_length and int(content_length) > settings.max_payload_size`. -/
def contentTooLong (settings : Settings) (request : WebhookRequest) : Except PyError Bool :=
  match Dict.get? request.headers "content-length" with
  | none => .ok false
  | some text =>
    if text = "" then .ok false
    else
      match parseInt text with
      | some length => .ok (decide (length > (settings.maxPayloadSize : Int)))
      | none => .error (.other "ValueError" "invalid literal for int() with base 10")

/-- The error of a path without a workflow. -/
def webhookNotFound : AppError := ⟨.notFound, "Webhook path not found.", 404, []⟩

/-- `lookup_workflow_by_path`. -/
def lookupWorkflowByPath (path : String) : Prog (Uuid × Workflow) := do
  let found ← selectWhere (fun k =>
    match k with
    | .workflow _ => fun row => decide (row.webhookPath = some path)
    | _ => fun _ => false)
  match found with
  | [] => raiseApp webhookNotFound
  | [.workflow id] => do
    let workflow ← mapped (← Script.send (S := engineSignature)
      (.db (.touch (.workflow id) (fun attrs memo => ((attrs, memo), none)))))
    return (id, workflow)
  | _ => Script.raise (.exception (.other "MultipleResultsFound" "Multiple rows were found"))

/-- The error of a webhook signature. -/
def invalidSignature (message : String) : PyError := .app ⟨.invalidSignature, message, 401, []⟩

/-- `validate_hmac_signature`. -/
def validateHmacSignature (wire : Wire) (secret : String) (body : List UInt8)
    (signatureHeader : Option String) : Except PyError Unit :=
  let signature := signatureHeader.getD ""
  if signature = "" then .error (invalidSignature "Missing X-Hub-Signature-256 header.")
  else if signature.toList.all (fun c => c.toNat < 128) then
    if signature = "sha256=" ++ wire.hexdigest secret body then .ok ()
    else .error (invalidSignature "Invalid webhook signature.")
  else .error (.other "TypeError" "comparing strings with non-ASCII characters is not supported")

/-- The error of an insert that refers to a row that is not there. -/
def foreignKeyViolation (table : String) : PyError :=
  .other "IntegrityError"
    ("insert or update on table \"" ++ table ++ "\" violates foreign key constraint")

/-- `log_webhook_delivery`.  A workflow that was taken from the cache may be deleted: then
the insert breaks the foreign key of `workflow_id`. -/
def logWebhookDelivery (wire : Wire) (request : WebhookRequest) (workflowId tenantId : Uuid)
    (status : DeliveryStatus) (rejectionReason : Option String) : Prog Uuid := do
  let id ← newUuid
  if ← rowExists (.workflow workflowId) then
    insertRow (.delivery id)
      { tenantId := tenantId
        workflowId := workflowId
        executionId := none
        method := request.method
        headers := request.requestHeaders
        payload := request.payload wire
        sourceIp := request.sourceIp
        status := status
        rejectionReason := rejectionReason }
    return id
  else Script.raise (.exception (foreignKeyViolation "webhook_deliveries"))

section

variable (runner : Runner) (session : SessionRef) (libs : Libraries) (settings : Settings)
  (wire : Wire)

/-- The end of `receive_webhook`: the delivery is logged and the execution is
started.  The handler commits whatever the session has written. -/
def startFromWebhook (request : WebhookRequest) (workflowId : Uuid) (workflow : Workflow) :
    Prog Response := do
  let delivery ← logWebhookDelivery wire request workflowId workflow.tenantId .received none
  let triggerData := [("payload", request.payload wire), ("headers", .obj request.requestHeaders)]
  let started : Except Raised Uuid ← Script.attempt do
    let (id, _) ← startExecution runner session libs settings none workflowId workflow triggerData
      workflow.tenantId none 0
    let _ ← assignDelivery delivery (fun row =>
      { row with status := .accepted, executionId := some id })
    commit
    return id
  match started with
  | .ok id => return .accepted id
  | .error .outOfFuel => Script.raise .outOfFuel
  | .error (.exception exc) =>
    let _ ← assignDelivery delivery (fun row =>
      { row with status := .error, rejectionReason := some exc.str })
    commit
    Script.raise (.exception exc)

/-- `receive_webhook` from the point where the workflow is known. -/
def receiveForWorkflow (request : WebhookRequest) (workflowId : Uuid) (workflow : Workflow) :
    Prog Response := do
  if workflow.isActive then
    match workflow.webhookSecret.filter (· != "") with
    | none => startFromWebhook runner session libs settings wire request workflowId workflow
    | some secret =>
      match validateHmacSignature wire secret request.body
          (Dict.get? request.headers "x-hub-signature-256") with
      | .ok () => startFromWebhook runner session libs settings wire request workflowId workflow
      | .error (.app exc) =>
        let _ ← logWebhookDelivery wire request workflowId workflow.tenantId .rejected
          (some exc.message)
        commit
        return .ofError exc
      | .error exc => Script.raise (.exception exc)
  else
    let _ ← logWebhookDelivery wire request workflowId workflow.tenantId .rejected
      (some "Workflow is not active.")
    commit
    return .ofError webhookNotFound

/-- `receive_webhook`. -/
def receiveWebhook (request : WebhookRequest) : Prog Response := do
  if ← liftExcept (contentTooLong settings request) then return payloadTooLarge
  else if request.body.length > settings.maxPayloadSize then return payloadTooLarge
  else
    match request.cached with
    | some (workflowId, workflow) =>
      receiveForWorkflow runner session libs settings wire request workflowId workflow
    | none =>
      match ← Script.attempt (lookupWorkflowByPath request.path) with
      | .ok (workflowId, workflow) =>
        receiveForWorkflow runner session libs settings wire request workflowId workflow
      | .error (.exception (.app exc)) => return .ofError exc
      | .error raised => Script.raise raised

/-! ## Manual, scheduled and replayed executions -/

/-- `manual_execute`. -/
def manualExecute (workflowId tenantId : Uuid) (data : Dict String Json) : Prog Response := do
  let workflow ← getTenantWorkflow workflowId tenantId
  liftExcept (validateWorkflowActive workflow)
  let (id, _) ← startExecution runner session libs settings none workflowId workflow
    [("source", .str "manual"), ("data", .obj data)] tenantId none 0
  commit
  return .accepted id

/-- `build_trigger_data`. -/
def cronTriggerData (now : Time) : Dict String Json :=
  [("triggered_by", .str "cron"), ("scheduled_time", .str (isoformat now))]

/-- The `try` block of `_execute_cron_workflow`. -/
def runCronWorkflow (workflowId tenantId : String) (triggerData : Dict String Json) :
    Prog Unit := do
  let id ← liftExcept (uuidOf (.str workflowId))
  match ← selectWorkflow id (fun _ => true) with
  | none => return
  | some workflow =>
    if workflow.isActive then
      let tenant ← liftExcept (uuidOf (.str tenantId))
      let _ ← startExecution runner session libs settings none id workflow triggerData tenant
        none 0
      commit
    else return

/-- `_execute_cron_workflow`.  Every exception is logged and dropped. -/
def executeCronWorkflow (workflowId tenantId : String) : Prog Unit := do
  let now ← utcNow
  let ended ← Script.attempt
    (runCronWorkflow runner session libs settings workflowId tenantId (cronTriggerData now))
  match ended with
  | .ok _ => return
  | .error .outOfFuel => Script.raise .outOfFuel
  | .error (.exception _) => return

/-- The trigger data of a replay: the overrides go into the `data` section. -/
def replayTriggerData (original : Dict String Json) (overrideData : Dict String Json) :
    Except PyError (Dict String Json) :=
  if overrideData.isEmpty then .ok original
  else do
    let section' ← dictOf (Dict.getD original "data" (.obj []))
    let updated := overrideData.foldl (fun d item => Dict.set d item.1 item.2) section'
    return Dict.set original "data" (.obj updated)

/-- `replay_execution`. -/
def replayExecution (executionId tenantId : Uuid) (overrideData : Dict String Json) :
    Prog (Uuid × Execution) := do
  match ← selectExecution executionId (fun execution => execution.tenantId = tenantId) with
  | none => raiseApp executionNotFound
  | some original =>
    let workflow ← getTenantWorkflow original.workflowId tenantId
    liftExcept (validateWorkflowActive workflow)
    let triggerData ← liftExcept (replayTriggerData original.triggerData overrideData)
    startExecution runner session libs settings none original.workflowId workflow triggerData
      tenantId (some executionId) 0

/-- `replay_execution_endpoint`. -/
def replayExecutionEndpoint (executionId tenantId : Uuid) (overrideData : Dict String Json) :
    Prog Response := do
  if settings.webhookReplayEnabled then
    let (id, _) ← replayExecution runner session libs settings executionId tenantId overrideData
    commit
    return .accepted id
  else raiseApp ⟨.replayDisabled, "Execution replay is disabled.", 403, []⟩

end

/-! ## One request -/

/-- A trigger and what it was called with. -/
inductive Trigger where
  | manual (workflowId tenantId : Uuid) (data : Dict String Json)
  | webhook (request : WebhookRequest)
  | cron (workflowId tenantId : String)
  | replay (executionId tenantId : Uuid) (overrideData : Dict String Json)

/-- What a trigger runs in its session. -/
def Trigger.handle (libs : Libraries) (settings : Settings) (wire : Wire) (runner : Runner)
    (session : SessionRef) : Trigger → Prog Unit
  | .manual workflowId tenantId data => do
    let _ ← manualExecute runner session libs settings workflowId tenantId data
  | .webhook request => do
    let _ ← receiveWebhook runner session libs settings wire request
  | .cron workflowId tenantId =>
    executeCronWorkflow runner session libs settings workflowId tenantId
  | .replay executionId tenantId overrideData => do
    let _ ← replayExecutionEndpoint runner session libs settings executionId tenantId overrideData

/-- `async with async_session_factory() as session`: the body runs in a new
session, which is closed in the end. -/
def World.opened (w : World) : World := { w with db := ⟨w.db.committed, Session.fresh⟩ }

/-- The world after a trigger was handled. -/
def Trigger.after (libs : Libraries) (settings : Settings) (wire : Wire) (runner : Runner)
    (session : SessionRef) (trigger : Trigger) (w : World) : World :=
  let w' := ((trigger.handle libs settings wire runner session).run w.opened).2
  { w' with db := w'.db.close }

end WorkflowEngine

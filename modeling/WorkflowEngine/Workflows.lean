import WorkflowEngine.Bulk
import WorkflowEngine.Triggers

/-!
# The workflow routes and the pruning job

`create_workflow`, `update_workflow` and `delete_workflow` of
`src/api/workflows.py`, with the request bodies of `src/api/workflow_models.py`,
and `prune_webhook_deliveries` of `src/queue/jobs.py`.

The bounds that Pydantic checks are fields of the request bodies.  The `DELETE`
of a workflow is written out with what the foreign keys of the tables do:
`ON DELETE CASCADE` and `ON DELETE SET NULL`.
-/

namespace WorkflowEngine

open Py Orm Interact

/-! ## The request bodies -/

/-- The pattern of `trigger_type`. -/
def triggerTypes : List String := ["webhook", "cron", "manual"]

/-- `WorkflowCreateRequest`. -/
structure WorkflowCreateRequest where
  name : String
  description : Option String := none
  triggerType : String
  triggerConfig : Dict String Json := []
  steps : List (Dict String Json)
  isActive : Bool := true
  webhookSecret : Option String := none
  name_nonempty : 1 ≤ name.length
  name_short : name.length ≤ 200
  triggerType_known : triggerType ∈ triggerTypes
  steps_nonempty : 1 ≤ steps.length

/-- `WorkflowUpdateRequest`. -/
structure WorkflowUpdateRequest where
  name : Option String := none
  description : Option String := none
  triggerType : Option String := none
  triggerConfig : Option (Dict String Json) := none
  steps : Option (List (Dict String Json)) := none
  isActive : Option Bool := none
  webhookSecret : Option String := none
  name_nonempty : ∀ text ∈ name, 1 ≤ text.length := by simp
  name_short : ∀ text ∈ name, text.length ≤ 200 := by simp
  triggerType_known : ∀ text ∈ triggerType, text ∈ triggerTypes := by simp

/-- `generate_webhook_path`, from the UUID that was generated. -/
def generateWebhookPath (generated : Uuid) : String :=
  "wh_" ++ String.ofList (generated.hexDigits.take 24)

/-- The columns of the workflow that `create_workflow` adds. -/
def WorkflowCreateRequest.row (body : WorkflowCreateRequest) (tenantId generated : Uuid) :
    Workflow where
  tenantId := tenantId
  name := body.name
  triggerType := body.triggerType
  steps := body.steps.map .obj
  isActive := body.isActive
  webhookPath := if body.triggerType = "webhook" then some (generateWebhookPath generated) else none
  webhookSecret := body.webhookSecret

/-- `workflow.webhook_path` after an update of the loaded workflow. -/
def WorkflowUpdateRequest.path (body : WorkflowUpdateRequest) (generated : Uuid)
    (loaded : Workflow) (path : Option String) : Option String :=
  match body.triggerType with
  | none => path
  | some triggerType =>
    if triggerType = "webhook" then
      if (loaded.webhookPath.filter (· ≠ "")).isNone then some (generateWebhookPath generated)
      else path
    else none

/-- The columns that `update_workflow` assigns. -/
def WorkflowUpdateRequest.assign (body : WorkflowUpdateRequest) (generated : Uuid)
    (loaded row : Workflow) : Workflow :=
  { row with
    name := body.name.getD row.name
    triggerType := body.triggerType.getD row.triggerType
    steps := (body.steps.map (fun steps => steps.map Json.obj)).getD row.steps
    isActive := body.isActive.getD row.isActive
    webhookPath := body.path generated loaded row.webhookPath
    webhookSecret := body.webhookSecret.or row.webhookSecret }

section

variable (libs : Libraries) (settings : Settings)

/-- The validation of the steps in `update_workflow`. -/
def WorkflowUpdateRequest.check (body : WorkflowUpdateRequest) (workflow : Workflow) :
    Except PyError Unit :=
  match body.steps with
  | none => .ok ()
  | some steps => do
    let _ ← parseWorkflowDefinition libs settings
      ⟨body.name.getD workflow.name, body.triggerType.getD workflow.triggerType, steps.map .obj⟩
    return

/-! ## The routes -/

/-- `create_workflow`. -/
def createWorkflow (body : WorkflowCreateRequest) (tenantId generated : Uuid) :
    Prog (Uuid × Workflow) := do
  let _ ← liftExcept (parseWorkflowDefinition libs settings
    ⟨body.name, body.triggerType, body.steps.map .obj⟩)
  let id ← newUuid
  insertRow (.workflow id) (body.row tenantId generated)
  commit
  let workflow ← mapped (← Script.send (S := engineSignature) (.db (.refresh (.workflow id))))
  return (id, workflow)

/-- `update_workflow`. -/
def updateWorkflow (body : WorkflowUpdateRequest) (workflowId tenantId generated : Uuid) :
    Prog Workflow := do
  let workflow ← getTenantWorkflow workflowId tenantId
  liftExcept (body.check libs settings workflow)
  let _ ← Script.send (S := engineSignature) (.db (.touch (.workflow workflowId)
    (fun attrs memo =>
      ((body.assign generated attrs attrs, memo), some (body.assign generated attrs)))))
  commit
  mapped (← Script.send (S := engineSignature) (.db (.refresh (.workflow workflowId))))

end

/-- The executions of a workflow. -/
def executionsOf (workflowId : Uuid) : (k : RowId) → Row k → Bool
  | .execution _, row => decide (row.workflowId = workflowId)
  | _, _ => false

/-- The row goes with the workflow: it is the workflow, or `ON DELETE CASCADE`
removes it.  `executions` are the executions of the workflow. -/
def cascades (workflowId : Uuid) (executions : List RowId) : (k : RowId) → Row k → Bool
  | .workflow id, _ => decide (id = workflowId)
  | .execution _, row => decide (row.workflowId = workflowId)
  | .step _, row => decide (.execution row.executionId ∈ executions)
  | .delivery _, row => decide (row.workflowId = workflowId)

/-- A column that refers to an execution, after `ON DELETE SET NULL`. -/
def setNull (executions : List RowId) (executionId : Option Uuid) : Option Uuid :=
  executionId.filter (fun id => decide (.execution id ∉ executions))

/-- The row after `ON DELETE SET NULL`. -/
def forget (executions : List RowId) : (k : RowId) → Row k → Row k
  | .workflow _, row => row
  | .execution _, row => { row with replayedFrom := setNull executions row.replayedFrom }
  | .step _, row => row
  | .delivery _, row => { row with executionId := setNull executions row.executionId }

/-- `delete_workflow`. -/
def deleteWorkflow (workflowId tenantId : Uuid) : Prog Unit := do
  let _ ← getTenantWorkflow workflowId tenantId
  let executions ← Script.send (S := engineSignature) (.db (.scan (executionsOf workflowId)))
  updateWhere (fun _ _ => true) (forget executions)
  let _ ← deleteWhere (cascades workflowId executions)
  commit

/-! ## Pruning -/

/-- `WEBHOOK_RETENTION`, in microseconds. -/
def webhookRetention : Time := 604800000000

/-- `WebhookDelivery.created_at < cutoff`, by the times at which the rows were
created. -/
def isOldDelivery (createdAt : RowId → Time) (cutoff : Time) : (k : RowId) → Row k → Bool
  | .delivery id, _ => decide (createdAt (.delivery id) < cutoff)
  | _, _ => false

/-- `prune_webhook_deliveries`. -/
def pruneWebhookDeliveries (createdAt : RowId → Time) : Prog Nat := do
  let now ← utcNow
  let deleted ← deleteWhere (isOldDelivery createdAt (now - webhookRetention))
  commit
  return deleted

end WorkflowEngine

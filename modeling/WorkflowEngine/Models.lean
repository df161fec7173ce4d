import WorkflowEngine.Errors
import WorkflowEngine.Lib.Session
import WorkflowEngine.Lib.Tracked
import WorkflowEngine.Lib.Uuid

/-!
# Step definitions and database rows

The Pydantic models of `src/engine/models.py` and the ORM models of
`src/db/models`.  The bounds that Pydantic checks are fields of the
structures, so that a `StepDefinition` out of bounds cannot be built.

A row is identified by its table and its primary key, `RowId`, and `Row k` is
the type of the row under `k`.  The primary key is not repeated in the row.
Columns that no modelled function reads are left out.

A mapped execution remembers the assignments to its `context` column, which
holds a mutable dictionary (`WorkflowEngine.Lib.Tracked`).  Every other column
holds an immutable value that is assigned and flushed in one place, so nothing
has to be remembered of it.
-/

namespace WorkflowEngine

open Py Orm

/-! ## Step definitions -/

/-- `StepType`. -/
inductive StepType where
  | http
  | transform
  | condition
  | delay
  | subWorkflow
  deriving DecidableEq, Repr

/-- The value of a `StepType` member. -/
def StepType.value : StepType → String
  | http => "http"
  | transform => "transform"
  | condition => "condition"
  | delay => "delay"
  | subWorkflow => "sub_workflow"

/-- `StepType(value)`; `none` is a `ValueError`. -/
def StepType.ofValue? (value : String) : Option StepType :=
  [StepType.http, .transform, .condition, .delay, .subWorkflow].find? (fun t => t.value = value)

/-- `RetryConfig`. -/
structure RetryConfig where
  maxAttempts : Nat
  delaySeconds : Nat
  maxAttempts_pos : 1 ≤ maxAttempts
  maxAttempts_le : maxAttempts ≤ 10
  delaySeconds_le : delaySeconds ≤ 300

/-- `StepDefinition`. -/
structure StepDefinition where
  id : String
  type : StepType
  config : Dict String Json
  dependsOn : List String
  retry : Option RetryConfig
  id_nonempty : 1 ≤ id.length
  id_short : id.length ≤ 100

/-- `step_def.retry.max_attempts if step_def.retry else 3`. -/
def StepDefinition.maxAttempts (step : StepDefinition) : Nat :=
  match step.retry with
  | some retry => retry.maxAttempts
  | none => 3

theorem StepDefinition.maxAttempts_pos (step : StepDefinition) : 1 ≤ step.maxAttempts := by
  unfold maxAttempts
  split
  · rename_i retry _
    exact retry.maxAttempts_pos
  · decide

/-- `WorkflowDefinition`. -/
structure WorkflowDefinition where
  name : String
  triggerType : String
  steps : List StepDefinition
  dependencyGraph : Dict String (List String)

/-! ## Statuses -/

/-- The statuses of an execution. -/
inductive ExecutionStatus where
  | pending
  | running
  | completed
  | failed
  | cancelled
  deriving DecidableEq, Repr

/-- The statuses of a step execution. -/
inductive StepStatus where
  | pending
  | queued
  | running
  | completed
  | failed
  | skipped
  deriving DecidableEq, Repr

/-- The text stored in the database. -/
def ExecutionStatus.text : ExecutionStatus → String
  | pending => "pending"
  | running => "running"
  | completed => "completed"
  | failed => "failed"
  | cancelled => "cancelled"

/-- The text stored in the database. -/
def StepStatus.text : StepStatus → String
  | pending => "pending"
  | queued => "queued"
  | running => "running"
  | completed => "completed"
  | failed => "failed"
  | skipped => "skipped"

/-- The statuses of a webhook delivery. -/
inductive DeliveryStatus where
  | received
  | accepted
  | rejected
  | error
  deriving DecidableEq, Repr

/-! ## Rows -/

/-- A point in time, in microseconds. -/
abbrev Time := Int

/-- `Workflow`.  `steps` is the raw JSON that the parser reads. -/
structure Workflow where
  tenantId : Uuid
  name : String
  triggerType : String
  steps : List Json
  isActive : Bool
  webhookPath : Option String
  webhookSecret : Option String

/-- `Execution`. -/
structure Execution where
  tenantId : Uuid
  workflowId : Uuid
  status : ExecutionStatus
  triggerData : Dict String Json
  context : Dict String Json
  replayedFrom : Option Uuid
  startedAt : Option Time
  completedAt : Option Time
  error : Option String
  durationMs : Option Int

/-- `StepExecution`. -/
structure StepExecution where
  tenantId : Uuid
  executionId : Uuid
  stepId : String
  stepType : String
  status : StepStatus
  inputData : Dict String Json
  outputData : Option (Dict String Json)
  error : Option String
  attempt : Nat
  maxAttempts : Nat
  startedAt : Option Time
  completedAt : Option Time
  durationMs : Option Int

/-- `WebhookDelivery`. -/
structure WebhookDelivery where
  tenantId : Uuid
  workflowId : Uuid
  executionId : Option Uuid
  method : String
  headers : Dict String Json
  payload : Json
  sourceIp : Option String
  status : DeliveryStatus
  rejectionReason : Option String

/-- A table and a primary key in it. -/
inductive RowId where
  | workflow (id : Uuid)
  | execution (id : Uuid)
  | step (id : Uuid)
  | delivery (id : Uuid)
  deriving DecidableEq, Repr

/-- The primary key. -/
def RowId.uuid : RowId → Uuid
  | workflow id => id
  | execution id => id
  | step id => id
  | delivery id => id

/-- The rows of the table of `k`. -/
@[reducible] def Row : RowId → Type
  | .workflow _ => Workflow
  | .execution _ => Execution
  | .step _ => StepExecution
  | .delivery _ => WebhookDelivery

/-- What the mapper keeps of an object besides its attributes. -/
@[reducible] def Memo : RowId → Type
  | .execution _ => Remembered (Dict String Json)
  | _ => Unit

instance : ∀ k : RowId, Inhabited (Memo k)
  | .execution _ => ⟨.nothing⟩
  | .workflow _ => ⟨()⟩
  | .step _ => ⟨()⟩
  | .delivery _ => ⟨()⟩

/-- The UUIDs that a row refers to. -/
def Row.references : (k : RowId) → Row k → List Uuid
  | .workflow _, row => [row.tenantId]
  | .execution _, row => row.tenantId :: row.workflowId :: row.replayedFrom.toList
  | .step _, row => [row.tenantId, row.executionId]
  | .delivery _, row => row.tenantId :: row.workflowId :: row.executionId.toList

/-- The committed rows and one session. -/
abbrev Db := DbState Row Memo

namespace Db

/-- The UUIDs that occur in the database. -/
def usedUuids (db : Db) : List Uuid :=
  db.keys.flatMap (fun k =>
    k.uuid :: match db.view k with
      | some row => Row.references k row
      | none => [])

/-- `gen_random_uuid()`: a UUID that does not occur in the database. -/
def newUuid (db : Db) : Uuid := db.usedUuids.foldr max 0 + 1

theorem lt_newUuid {db : Db} {id : Uuid} (h : id ∈ db.usedUuids) : id < db.newUuid := by
  unfold newUuid
  have hle : ∀ l : List Uuid, id ∈ l → id ≤ l.foldr max 0 := by
    intro l hl
    induction l with
    | nil => simp at hl
    | cons x l ih =>
      rcases List.mem_cons.mp hl with rfl | ht
      · exact Nat.le_max_left _ _
      · exact Nat.le_trans (ih ht) (Nat.le_max_right _ _)
  exact Nat.lt_succ_of_le (hle _ h)

/-- The UUIDs of a row that the session sees are in use. -/
theorem uuid_mem_usedUuids {db : Db} {k : RowId} {row : Row k} (h : db.view k = some row) :
    k.uuid ∈ db.usedUuids := by
  refine List.mem_flatMap.mpr ⟨k, DbState.mem_keys_of_view h, ?_⟩
  exact List.mem_cons_self

theorem references_subset_usedUuids {db : Db} {k : RowId} {row : Row k}
    (h : db.view k = some row) : Row.references k row ⊆ db.usedUuids := by
  intro id hid
  refine List.mem_flatMap.mpr ⟨k, DbState.mem_keys_of_view h, ?_⟩
  simp [h, hid]

/-- No row has the new UUID as its primary key. -/
theorem view_newUuid {db : Db} {k : RowId} (hk : k.uuid = db.newUuid) : db.view k = none := by
  cases hview : db.view k with
  | none => rfl
  | some row =>
    have hlt := lt_newUuid (uuid_mem_usedUuids hview)
    rw [hk] at hlt
    exact absurd hlt (Nat.lt_irrefl _)

/-- No step execution belongs to an execution with the new UUID. -/
theorem executionId_ne_newUuid {db : Db} {id : Uuid} {row : StepExecution}
    (h : db.view (.step id) = some row) : row.executionId ≠ db.newUuid := by
  have hmem : row.executionId ∈ db.usedUuids :=
    references_subset_usedUuids h (by simp [Row.references])
  exact Nat.ne_of_lt (lt_newUuid hmem)

end Db

end WorkflowEngine

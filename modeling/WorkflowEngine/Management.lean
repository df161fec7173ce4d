import Mathlib.Algebra.BigOperators.Group.Multiset.Basic
import WorkflowEngine.Cancel
import WorkflowEngine.Engine
import WorkflowEngine.Pagination

/-!
# The management API

The routes of `src/api/workflows.py`, `src/api/executions.py` and `src/api/metrics.py`
that list, read and change the rows of a tenant, on the tables with all their columns.
`manage` is one request of a tenant: its response, and the database that it leaves.

A response has the rows of a query without `ORDER BY` as a multiset.
-/

namespace WorkflowEngine

open Py Orm Interact

/-! ## Responses -/

/-- `StepExecutionResponse`. -/
structure StepExecutionResponse where
  id : Uuid
  stepId : String
  stepType : String
  status : String
  inputData : Dict String Json
  outputData : Option (Dict String Json)
  error : Option String
  attempt : Nat
  maxAttempts : Nat
  startedAt : Option Time
  completedAt : Option Time
  durationMs : Option Int
  createdAt : Time

/-- `step_execution_to_response`. -/
def stepExecutionToResponse (id : Uuid) (row : StepExecution × Time) : StepExecutionResponse where
  id
  stepId := row.1.stepId
  stepType := row.1.stepType
  status := row.1.status.text
  inputData := row.1.inputData
  outputData := row.1.outputData
  error := row.1.error
  attempt := row.1.attempt
  maxAttempts := row.1.maxAttempts
  startedAt := row.1.startedAt
  completedAt := row.1.completedAt
  durationMs := row.1.durationMs
  createdAt := row.2

/-- `ExecutionDetailResponse`. -/
structure ExecutionDetailResponse where
  execution : ExecutionResponse
  steps : Multiset StepExecutionResponse

/-- `ExecutionLogResponse`. -/
structure ExecutionLogResponse where
  id : Uuid
  stepId : Option String
  level : String
  message : String
  data : Dict String Json
  createdAt : Time

/-- `execution_log_to_response`. -/
def executionLogToResponse (id : Uuid) (log : ExecutionLog) : ExecutionLogResponse where
  id
  stepId := log.stepId
  level := log.level
  message := log.message
  data := log.data
  createdAt := log.createdAt

/-- An entry of `by_workflow`. -/
structure WorkflowMetrics where
  workflowId : Uuid
  workflowName : String
  count : Nat
  avgDurationMs : Int

/-- An entry of `step_failure_rates`. -/
structure StepFailureRate where
  stepType : String
  total : Nat
  failed : Nat
  rate : Json

/-- `webhook_delivery_stats`. -/
structure WebhookDeliveryStats where
  total : Nat
  accepted : Nat
  rejected : Nat
  error : Nat

/-- The response of `get_execution_metrics`. -/
structure ExecutionMetrics where
  total : Nat
  byStatus : Multiset (String × Nat)
  avgDurationMs : Int
  byWorkflow : Multiset WorkflowMetrics
  stepFailureRates : Multiset StepFailureRate
  webhookDeliveryStats : WebhookDeliveryStats

/-- What a request answers when it raises nothing. -/
inductive ManagementResponse where
  | workflows (response : WorkflowListResponse)
  | workflow (response : WorkflowResponse)
  | created (response : WorkflowResponse)
  | deleted
  | executions (response : ExecutionListResponse)
  | execution (response : ExecutionDetailResponse)
  | cancelled
  | logs (response : List ExecutionLogResponse)
  | metrics (response : ExecutionMetrics)

/-! ## Queries -/

/-- `execution_id == ... and tenant_id == ...`. -/
def tenantExecution (d : Database) (executionId tenantId : Uuid) :
    Except Raised (Execution × Time) :=
  match d.row .executions executionId with
  | some row =>
    if Execution.tenantId row.1 = tenantId then .ok row else .error (.app executionNotFound)
  | none => .error (.app executionNotFound)

/-- `get_execution`. -/
def getExecution (d : Database) (executionId tenantId : Uuid) :
    Except Raised ExecutionDetailResponse := do
  let row ← tenantExecution d executionId tenantId
  let steps := d.select .stepExecutions (fun item => item.2.1.executionId = executionId)
  return ⟨executionToResponse executionId row,
    steps.map (fun item => stepExecutionToResponse item.1 item.2)⟩

/-- `get_execution_logs`.  Entries of the same time come in the order of their ids. -/
def getExecutionLogs (d : Database) (executionId tenantId : Uuid) (stepId : Option String) :
    Except Raised (List ExecutionLogResponse) := do
  let _ ← tenantExecution d executionId tenantId
  let logs := d.select .executionLogs (fun item =>
    decide (ExecutionLog.executionId item.2 = executionId) &&
      decide (ExecutionLog.tenantId item.2 = tenantId) &&
      stepId.all (fun step => ExecutionLog.stepId item.2 == some step))
  return (d.ordered .executionLogs ExecutionLog.createdAt logs).map
    (fun item => executionLogToResponse item.1 item.2)

/-- `int(avg) if avg else 0` for the average of a column. -/
def averageMs (durations : Multiset Int) : Int := durations.sum.tdiv durations.card

/-- `group_by(key)` with `count()`. -/
def groupCounts {κ : Type} [DecidableEq κ] (keys : Multiset κ) : Multiset (κ × Nat) :=
  keys.dedup.map (fun key => (key, keys.count key))

/-- The rows of the tenant. -/
def Database.ofTenant (d : Database) (table : Table) (tenantId : Uuid) :
    Multiset (Uuid × FullRow table) :=
  d.select table (fun item => FullRow.tenantId table item.1 item.2 = tenantId)

/-- The executions of the tenant, joined with their workflows: the workflow, its name
and the duration. -/
def workflowDurations (d : Database) (tenantId : Uuid) :
    Multiset ((Uuid × String) × Option Int) :=
  (d.ofTenant .executions tenantId).filterMap (fun item =>
    (d.row .workflows item.2.1.workflowId).map (fun workflow =>
      ((item.2.1.workflowId, workflow.1.name), item.2.1.durationMs)))

/-- `get_execution_metrics`.  `rate failed total` is `round(failed / total, 3)`. -/
def getExecutionMetrics (rate : Nat → Nat → Json) (d : Database) (tenantId : Uuid) :
    ExecutionMetrics :=
  let executions := d.ofTenant .executions tenantId
  let joined := workflowDurations d tenantId
  let steps := (d.ofTenant .stepExecutions tenantId).map (fun item =>
    (item.2.1.stepType, item.2.1.status))
  let deliveries := (d.ofTenant .webhookDeliveries tenantId).map (fun item => item.2.1.status)
  { total := executions.card
    byStatus := groupCounts (executions.map (fun item => item.2.1.status.text))
    avgDurationMs := averageMs (executions.filterMap (fun item => item.2.1.durationMs))
    byWorkflow := (joined.map Prod.fst).dedup.map (fun key =>
      let group := joined.filter (fun item => item.1 = key)
      ⟨key.1, key.2, group.card, averageMs (group.filterMap Prod.snd)⟩)
    stepFailureRates := (steps.map Prod.fst).dedup.map (fun stepType =>
      let total := steps.countP (fun item => item.1 = stepType)
      let failed := steps.count (stepType, .failed)
      ⟨stepType, total, failed, rate failed total⟩)
    webhookDeliveryStats :=
      ⟨deliveries.card, deliveries.count .accepted, deliveries.count .rejected,
        deliveries.count .error⟩ }

/-! ## Changes -/

/-- A route runs in a session of its own, and what it commits stays. -/
def Database.session {α : Type} (d : Database) (env : Environment) (m : Prog α) :
    Except Raised α × Rows Row :=
  let ended := m.run ⟨⟨d.rows, Session.fresh⟩, env⟩
  (ended.1, ended.2.db.committed)

/-- The other columns of the workflow that `create_workflow` adds. -/
def WorkflowCreateRequest.details (body : WorkflowCreateRequest) (now : Time) : WorkflowDetails :=
  ⟨body.description, body.triggerConfig, now, now⟩

/-- The other columns that `update_workflow` assigns. -/
def WorkflowUpdateRequest.details (body : WorkflowUpdateRequest) (details : WorkflowDetails) :
    WorkflowDetails :=
  { details with
    description := body.description.or details.description
    triggerConfig := body.triggerConfig.getD details.triggerConfig }

/-- `ON DELETE CASCADE` from the executions of a workflow to their log entries. -/
def Database.logsWithout (d : Database) (workflowId : Uuid) :
    AList (fun _ : Uuid => ExecutionLog) :=
  ⟨d.logs.entries.filter (fun entry =>
      !(Rows.row d.rows (.execution entry.2.executionId)).any (fun execution : Execution =>
        execution.workflowId = workflowId)),
    d.logs.nodupKeys.sublist List.filter_sublist⟩

/-- What a request finds around the database: the clock and what else the session asks
for, the time of the database, and the UUID that a webhook path is generated from. -/
structure Surroundings where
  env : Environment
  now : Time
  generated : Uuid

section

variable (libs : Libraries) (settings : Settings) (s : Surroundings) (d : Database)
  (tenantId : Uuid)

/-- `POST /api/workflows`. -/
def manageCreate (body : WorkflowCreateRequest) : Except Raised ManagementResponse × Database :=
  let ended := d.session s.env (createWorkflow libs settings body tenantId s.generated)
  match ended.1 with
  | .error e => (.error e, { d with rows := ended.2 })
  | .ok (id, row) =>
    (.ok (.created (workflowToResponse id (row, body.details s.now))),
      { d with rows := ended.2, details := Function.update d.details id (body.details s.now) })

/-- `GET /api/workflows/:id`. -/
def manageGet (workflowId : Uuid) : Except Raised ManagementResponse × Database :=
  let ended := d.session s.env (getTenantWorkflow workflowId tenantId)
  (ended.1.map (fun row => .workflow (workflowToResponse workflowId (row, d.details workflowId))),
    { d with rows := ended.2 })

/-- `PUT /api/workflows/:id`. -/
def manageUpdate (workflowId : Uuid) (body : WorkflowUpdateRequest) :
    Except Raised ManagementResponse × Database :=
  let ended := d.session s.env
    (updateWorkflow libs settings body workflowId tenantId s.generated)
  match ended.1 with
  | .error e => (.error e, { d with rows := ended.2 })
  | .ok row =>
    let details := body.details (d.details workflowId)
    (.ok (.workflow (workflowToResponse workflowId (row, details))),
      { d with rows := ended.2, details := Function.update d.details workflowId details })

/-- `DELETE /api/workflows/:id`. -/
def manageDelete (workflowId : Uuid) : Except Raised ManagementResponse × Database :=
  let ended := d.session s.env (deleteWorkflow workflowId tenantId)
  match ended.1 with
  | .error e => (.error e, { d with rows := ended.2 })
  | .ok _ => (.ok .deleted, { d with rows := ended.2, logs := d.logsWithout workflowId })

/-- `POST /api/executions/:id/cancel`. -/
def manageCancel (executionId : Uuid) : Except Raised ManagementResponse × Database :=
  let ended := d.session s.env (cancelExecution executionId tenantId)
  (ended.1.map (fun _ => .cancelled), { d with rows := ended.2 })

end

/-! ## Requests -/

/-- A request of a tenant. -/
inductive ManagementRequest where
  | listWorkflows (cursor : Option String) (limit : PageLimit) (filters : WorkflowFilters)
  | getWorkflow (workflowId : Uuid)
  | createWorkflow (body : WorkflowCreateRequest)
  | updateWorkflow (workflowId : Uuid) (body : WorkflowUpdateRequest)
  | deleteWorkflow (workflowId : Uuid)
  | listExecutions (cursor : Option String) (limit : PageLimit) (filters : ExecutionFilters)
  | getExecution (executionId : Uuid)
  | cancelExecution (executionId : Uuid)
  | getExecutionLogs (executionId : Uuid) (stepId : Option String)
  | getExecutionMetrics

section

variable (libs : Libraries) (settings : Settings) (fromisoformat : String → Option Time)
  (rate : Nat → Nat → Json)

/-- The response to a request of the tenant, and the database that it leaves. -/
def manage (s : Surroundings) (d : Database) (tenantId : Uuid) :
    ManagementRequest → Except Raised ManagementResponse × Database
  | .listWorkflows cursor limit filters =>
    (((listWorkflows fromisoformat d tenantId cursor limit filters).mapError
      Raised.exception).map .workflows, d)
  | .getWorkflow workflowId => manageGet s d tenantId workflowId
  | .createWorkflow body => manageCreate libs settings s d tenantId body
  | .updateWorkflow workflowId body => manageUpdate libs settings s d tenantId workflowId body
  | .deleteWorkflow workflowId => manageDelete s d tenantId workflowId
  | .listExecutions cursor limit filters =>
    (((listExecutions fromisoformat d tenantId cursor limit filters).mapError
      Raised.exception).map .executions, d)
  | .getExecution executionId => ((getExecution d executionId tenantId).map .execution, d)
  | .cancelExecution executionId => manageCancel s d tenantId executionId
  | .getExecutionLogs executionId stepId =>
    ((getExecutionLogs d executionId tenantId stepId).map .logs, d)
  | .getExecutionMetrics => (.ok (.metrics (getExecutionMetrics rate d tenantId)), d)

end

/-! ## What the sessions commit -/

/-- One row is another one, or is new. -/
structure Puts (t t' : Rows Row) (k : RowId) (row : Row k) : Prop where
  row : Rows.row t' k = some row
  others : ∀ k', k' ≠ k → Rows.row t' k' = Rows.row t k'

namespace Database

variable {libs : Libraries} {settings : Settings} {tenantId generated workflowId : Uuid}

theorem session_of_run {α : Type} {d : Database} {env : Environment} {m : Prog α}
    {result : Except Raised α} {w : World}
    (h : m.run ⟨⟨d.rows, Session.fresh⟩, env⟩ = (result, w)) :
    d.session env m = (result, w.db.committed) := by
  rw [session, h]

/-- The id of the next row. -/
def nextUuid (d : Database) : Uuid := Db.newUuid ⟨d.rows, Session.fresh⟩

theorem row_nextUuid (d : Database) {k : RowId} (hk : k.uuid = d.nextUuid) :
    Rows.row d.rows k = none := (congrFun (view_opened d.rows) k).symm.trans (Db.view_newUuid hk)

/-- A definition that the parser takes is stored. -/
theorem session_createWorkflow_ok (d : Database) (env : Environment) {body : WorkflowCreateRequest}
    {definition : WorkflowDefinition}
    (hparse : parseWorkflowDefinition libs settings
      ⟨body.name, body.triggerType, body.steps.map .obj⟩ = .ok definition) :
    ∃ t', d.session env (createWorkflow libs settings body tenantId generated) =
        (.ok (d.nextUuid, body.row tenantId generated), t') ∧
      Puts d.rows t' (.workflow d.nextUuid) (body.row tenantId generated) := by
  let k : RowId := .workflow d.nextUuid
  let db₁ : Db := inserted ⟨d.rows, Session.fresh⟩ k (body.row tenantId generated)
  have hview : db₁.commit.view k = some (body.row tenantId generated) := by
    rw [DbState.view_commit]
    exact DbState.view_write_self _ _ _
  have hid : newUuid.run ⟨⟨d.rows, Session.fresh⟩, env⟩ =
      (.ok d.nextUuid, ⟨⟨d.rows, Session.fresh⟩, env⟩) := rfl
  have hinsert : (insertRow k (body.row tenantId generated)).run ⟨⟨d.rows, Session.fresh⟩, env⟩ =
      (.ok (), ⟨db₁, env⟩) := rfl
  have hcommit : commit.run ⟨db₁, env⟩ = (.ok (), ⟨db₁.commit, env⟩) := rfl
  have hread : Prog.run (Script.send (S := engineSignature) (.db (.refresh k))) ⟨db₁.commit, env⟩ =
      (.ok (some (body.row tenantId generated)),
        ⟨db₁.commit.load k (body.row tenantId generated) default, env⟩) := by
    rw [run_db, DbState.answer_refresh hview]
  have hrun : (createWorkflow libs settings body tenantId generated).run
      ⟨⟨d.rows, Session.fresh⟩, env⟩ = (.ok (d.nextUuid, body.row tenantId generated),
        ⟨db₁.commit.load k (body.row tenantId generated) default, env⟩) := by
    rw [createWorkflow, hparse, Prog.run_bind_ok (Prog.run_liftExcept _ _), Prog.run_bind_ok hid,
      Prog.run_bind_ok hinsert, Prog.run_bind_ok hcommit, Prog.run_bind_ok hread]
    rfl
  refine ⟨db₁.commit.committed, session_of_run hrun, ?_, fun k' hk' => ?_⟩
  · exact (DbState.row_committed_commit _ _).trans (DbState.view_write_self _ _ _)
  · rw [DbState.row_committed_commit, ← view_opened d.rows]
    exact DbState.view_answer_ne rfl hk' _

/-- Nothing is stored of one that it refuses. -/
theorem session_createWorkflow_error (d : Database) (env : Environment)
    {body : WorkflowCreateRequest} {exc : PyError}
    (hparse : parseWorkflowDefinition libs settings
      ⟨body.name, body.triggerType, body.steps.map .obj⟩ = .error exc) :
    d.session env (createWorkflow libs settings body tenantId generated) =
      (.error (.exception exc), d.rows) := by
  have hrun : (createWorkflow libs settings body tenantId generated).run
      ⟨⟨d.rows, Session.fresh⟩, env⟩ =
        (.error (.exception exc), ⟨⟨d.rows, Session.fresh⟩, env⟩) := by
    rw [createWorkflow, hparse]
    exact Prog.run_bind_error (Prog.run_liftExcept _ _)
  exact session_of_run hrun

/-- The workflow of the tenant with this id. -/
def tenantWorkflow (d : Database) (workflowId tenantId : Uuid) : Option Workflow :=
  (Rows.row d.rows (.workflow workflowId)).filter (fun workflow : Workflow =>
    workflow.tenantId = tenantId)

theorem run_tenantWorkflow {d : Database} {workflow : Workflow}
    (hfound : d.tenantWorkflow workflowId tenantId = some workflow) (env : Environment) :
    (getTenantWorkflow workflowId tenantId).run ⟨⟨d.rows, Session.fresh⟩, env⟩ = (.ok workflow,
      ⟨DbState.load ⟨d.rows, Session.fresh⟩ (.workflow workflowId) workflow default, env⟩) := by
  obtain ⟨hrow, htenant⟩ := Option.filter_eq_some_iff.mp hfound
  exact run_getTenantWorkflow ((congrFun (view_opened d.rows) _).trans hrow) rfl
    (of_decide_eq_true htenant) env

theorem run_tenantWorkflow_missing {d : Database}
    (hmissing : d.tenantWorkflow workflowId tenantId = none) (env : Environment) :
    (getTenantWorkflow workflowId tenantId).run ⟨⟨d.rows, Session.fresh⟩, env⟩ =
      (.error (.app workflowNotFound), ⟨⟨d.rows, Session.fresh⟩, env⟩) := by
  refine run_getTenantWorkflow_missing (fun workflow hrow htenant => ?_) env
  rw [view_opened] at hrow
  rw [tenantWorkflow, hrow] at hmissing
  simp [htenant] at hmissing

theorem session_getTenantWorkflow (d : Database) (env : Environment) :
    d.session env (getTenantWorkflow workflowId tenantId) =
      ((d.tenantWorkflow workflowId tenantId).elim (.error (.app workflowNotFound)) .ok,
        d.rows) := by
  cases hfound : d.tenantWorkflow workflowId tenantId with
  | none => exact session_of_run (run_tenantWorkflow_missing hfound env)
  | some workflow => exact session_of_run (run_tenantWorkflow hfound env)

theorem session_updateWorkflow_missing {d : Database}
    (hmissing : d.tenantWorkflow workflowId tenantId = none) (env : Environment)
    (body : WorkflowUpdateRequest) :
    d.session env (updateWorkflow libs settings body workflowId tenantId generated) =
      (.error (.app workflowNotFound), d.rows) :=
  session_of_run (Prog.run_bind_error (run_tenantWorkflow_missing hmissing env))

/-- Nothing is assigned where the parser refuses the new steps. -/
theorem session_updateWorkflow_error {d : Database} {workflow : Workflow}
    (hfound : d.tenantWorkflow workflowId tenantId = some workflow) (env : Environment)
    {body : WorkflowUpdateRequest} {exc : PyError}
    (hcheck : body.check libs settings workflow = .error exc) :
    d.session env (updateWorkflow libs settings body workflowId tenantId generated) =
      (.error (.exception exc), d.rows) := by
  have hrun : (updateWorkflow libs settings body workflowId tenantId generated).run
      ⟨⟨d.rows, Session.fresh⟩, env⟩ = (.error (.exception exc),
        ⟨DbState.load ⟨d.rows, Session.fresh⟩ (.workflow workflowId) workflow default, env⟩) := by
    rw [updateWorkflow, Prog.run_bind_ok (run_tenantWorkflow hfound env), hcheck]
    exact Prog.run_bind_error (Prog.run_liftExcept _ _)
  exact session_of_run hrun

/-- The columns of a workflow of the tenant are assigned. -/
theorem session_updateWorkflow_ok {d : Database} {workflow : Workflow}
    (hfound : d.tenantWorkflow workflowId tenantId = some workflow) (env : Environment)
    {body : WorkflowUpdateRequest} (hcheck : body.check libs settings workflow = .ok ()) :
    ∃ t', d.session env (updateWorkflow libs settings body workflowId tenantId generated) =
        (.ok (body.assign generated workflow workflow), t') ∧
      Puts d.rows t' (.workflow workflowId) (body.assign generated workflow workflow) := by
  let k : RowId := .workflow workflowId
  let new : Workflow := body.assign generated workflow workflow
  let db₁ : Db := DbState.load ⟨d.rows, Session.fresh⟩ k workflow default
  let db₂ : Db := (db₁.load k new default).write k (some new)
  have hrow : db₁.view k = some workflow :=
    (congrFun (view_opened d.rows) k).trans (Option.filter_eq_some_iff.mp hfound).1
  have htouch : Prog.run (Script.send (S := engineSignature) (.db (.touch k (fun attrs memo =>
      ((body.assign generated attrs attrs, memo), some (body.assign generated attrs))))))
        ⟨db₁, env⟩ = (.ok (some new), ⟨db₂, env⟩) := by
    rw [run_db, DbState.answer_touch (DbState.loaded_load_self _ _ _ _) hrow rfl]
  have hcommit : commit.run ⟨db₂, env⟩ = (.ok (), ⟨db₂.commit, env⟩) := rfl
  have hview : db₂.commit.view k = some new := by
    rw [DbState.view_commit]
    exact DbState.view_write_self _ _ _
  have hread : Prog.run (Script.send (S := engineSignature) (.db (.refresh k))) ⟨db₂.commit, env⟩ =
      (.ok (some new), ⟨db₂.commit.load k new default, env⟩) := by
    rw [run_db, DbState.answer_refresh hview]
  have hrun : (updateWorkflow libs settings body workflowId tenantId generated).run
      ⟨⟨d.rows, Session.fresh⟩, env⟩ = (.ok new, ⟨db₂.commit.load k new default, env⟩) := by
    rw [updateWorkflow, Prog.run_bind_ok (run_tenantWorkflow hfound env), hcheck,
      Prog.run_bind_ok (Prog.run_liftExcept _ _), Prog.run_bind_ok htouch,
      Prog.run_bind_ok hcommit, Prog.run_bind_ok hread]
    rfl
  refine ⟨db₂.commit.committed, session_of_run hrun, ?_, fun k' hk' => ?_⟩
  · exact (DbState.row_committed_commit _ _).trans (DbState.view_write_self _ _ _)
  · rw [DbState.row_committed_commit, DbState.view_write_ne _ _ hk', DbState.view_load,
      DbState.view_load, view_opened]

theorem session_deleteWorkflow_missing {d : Database}
    (hmissing : d.tenantWorkflow workflowId tenantId = none) (env : Environment) :
    d.session env (deleteWorkflow workflowId tenantId) =
      (.error (.app workflowNotFound), d.rows) :=
  session_of_run (Prog.run_bind_error (run_tenantWorkflow_missing hmissing env))

/-- The workflow of the tenant goes with the rows that refer to it, and references to its
executions are forgotten. -/
theorem session_deleteWorkflow_ok {d : Database} {workflow : Workflow}
    (hfound : d.tenantWorkflow workflowId tenantId = some workflow) (env : Environment) :
    ∃ executions t', ListsExecutions d.rows workflowId executions ∧
      d.session env (deleteWorkflow workflowId tenantId) = (.ok (), t') ∧
      ∀ k, Rows.row t' k = (Rows.row d.rows k).bind (forgottenRow workflowId executions k) := by
  obtain ⟨hrow, htenant⟩ := Option.filter_eq_some_iff.mp hfound
  obtain ⟨executions, db, db', hlists, hview, -, hrewrites, hrun⟩ :=
    run_deleteWorkflow d.rows workflowId tenantId env hrow (of_decide_eq_true htenant)
  refine ⟨executions, db'.commit.committed, hlists, session_of_run hrun, fun k => ?_⟩
  rw [DbState.row_committed_commit, hrewrites.view, hview]

end Database

end WorkflowEngine

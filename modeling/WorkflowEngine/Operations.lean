import WorkflowEngine.Lib.Pool
import WorkflowEngine.Orchestrator

/-!
# The operations that change an execution from outside

`cancel_execution` of `src/api/executions.py`, `cleanup_stale_executions` of
`src/queue/jobs.py` and `execute_step` of `src/queue/tasks.py`.  Each of them
works in a session of its own and ends with a commit, as does a caller of
`transition_execution` or `transition_step`.

Every member of `StepType` has an executor in `STEP_REGISTRY`, so the branch of
`execute_step` for a type without one is not reached and is left out.
-/

namespace WorkflowEngine

open Py Orm Interact

/-! ## Cancelling -/

/-- The loop of `cancel_execution` over the step executions. -/
def skipSteps : List RowId → Prog Unit
  | [] => return
  | .step id :: ks => do
    let stepExec ← readStep id
    if stepExec.status ∈ [StepStatus.pending, .queued, .running] then
      let _ ← transitionStep id .skipped none
    skipSteps ks
  | _ :: ks => skipSteps ks

/-- The step executions of an execution. -/
def stepsOf (executionId : Uuid) : (k : RowId) → Row k → Bool
  | .step _, row => decide (row.executionId = executionId)
  | _, _ => false

/-- `cancel_execution`.  An execution may have been running for longer than the column
of its duration can say. -/
def cancelExecution (executionId tenantId : Uuid) : Prog Unit := do
  match ← selectExecution executionId (fun execution => execution.tenantId = tenantId) with
  | none => raiseApp executionNotFound
  | some _ =>
    let steps ← selectWhere (stepsOf executionId)
    let _ ← transitionExecutionWith flushColumns executionId .cancelled
    skipSteps steps
    commit

/-! ## Cleaning up -/

/-- `STALE_THRESHOLD`, in microseconds. -/
def staleThreshold : Time := 3600000000

/-- `STALE_ERROR_MSG`. -/
def staleErrorMsg : String := "Execution timed out (stale)"

/-- `STALE_STEP_ERROR_MSG`. -/
def staleStepErrorMsg : String := "Parent execution timed out (stale)"

/-- The condition of the `select` on executions. -/
def isStale (cutoff : Time) : (k : RowId) → Row k → Bool
  | .execution _, row => decide (row.status = .running) && row.startedAt.any (· < cutoff)
  | _, _ => false

/-- `Execution.id.in_(stale_ids)`. -/
def isListed (stale : List RowId) : (k : RowId) → Row k → Bool
  | .execution id, _ => decide (.execution id ∈ stale)
  | _, _ => false

/-- The values of the update of the executions. -/
def failExecution (now : Time) : (k : RowId) → Row k → Row k
  | .execution _, row =>
    { row with status := .failed, error := some staleErrorMsg, completedAt := some now }
  | .workflow _, row => row
  | .step _, row => row
  | .delivery _, row => row

/-- The condition of the update of the step executions. -/
def isUnfinished (stale : List RowId) : (k : RowId) → Row k → Bool
  | .step _, row => decide (.execution row.executionId ∈ stale) &&
      decide (row.status ∈ [StepStatus.pending, .running, .queued])
  | _, _ => false

/-- The values of the update of the step executions. -/
def failStep (now : Time) : (k : RowId) → Row k → Row k
  | .step _, row =>
    { row with status := .failed, error := some staleStepErrorMsg, completedAt := some now }
  | .workflow _, row => row
  | .execution _, row => row
  | .delivery _, row => row

/-- `cleanup_stale_executions`; it returns how many executions were stale. -/
def cleanupStaleExecutions : Prog Nat := do
  let before ← utcNow
  let now ← utcNow
  let stale ← selectWhere (isStale (before - staleThreshold))
  if stale.isEmpty then return 0
  else
    updateWhere (isListed stale) (failExecution now)
    updateWhere (isUnfinished stale) (failStep now)
    commit
    return stale.length

/-! ## The step task -/

/-- `STEP_REGISTRY`: what `executor_class().execute(config, context)` does. -/
abbrev Executors := Caller → StepType → Dict String Json → Vars → Prog (Dict String Json)

/-- `(step_exec.attempt or 1) + 1`. -/
def nextAttempt (attempt : Nat) : Nat := (if attempt = 0 then 1 else attempt) + 1

section

variable (executors : Executors)

/-- The `try` block of `execute_step`. -/
def finishStepWith (stepExecId executionId : Uuid) (type : StepType) (stepExec : StepExecution)
    (execution : Execution) : Prog (Dict String Json) := do
  let output ← executors ⟨executionId, stepExec.stepId⟩ type stepExec.inputData
    (getStepInput execution.context)
  let _ ← transitionStep stepExecId .completed none
  let _ ← assignStep stepExecId (fun row => { row with outputData := some output })
  mergeStepOutput executionId stepExec.stepId output
  commit
  return output

/-- The handler of `execute_step`. -/
def failStepTask (stepExecId : Uuid) (attempt : Nat) (exc : PyError) :
    Prog (Dict String Json) := do
  let _ ← assignStep stepExecId (fun row => { row with attempt := nextAttempt attempt })
  let _ ← transitionStep stepExecId .failed (some exc.str)
  commit
  Script.raise (.exception exc)

/-- What follows the `try` block of `execute_step`. -/
def endStepTask (stepExecId : Uuid) (attempt : Nat) :
    Except Raised (Dict String Json) → Prog (Dict String Json)
  | .ok output => return output
  | .error .outOfFuel => Script.raise .outOfFuel
  | .error (.exception exc) => failStepTask stepExecId attempt exc

/-- `execute_step` with both rows loaded. -/
def runStepTaskWith (stepExecId executionId : Uuid) (stepExec : StepExecution)
    (execution : Execution) : Prog (Dict String Json) := do
  let _ ← transitionStep stepExecId .running none
  match StepType.ofValue? stepExec.stepType with
  | none => Script.raise (.exception (.other "ValueError" "not a valid StepType"))
  | some type =>
    let ended ← Script.attempt
      (finishStepWith executors stepExecId executionId type stepExec execution)
    endStepTask stepExecId stepExec.attempt ended

/-- `execute_step`.  Its argument `tenant_id` is not read. -/
def executeStepWith (stepExecutionId executionId : String) : Prog (Dict String Json) := do
  let seUuid ← liftExcept (uuidOf (.str stepExecutionId))
  let exUuid ← liftExcept (uuidOf (.str executionId))
  match ← selectStep seUuid with
  | none => raiseApp ⟨.notFound, "Step execution " ++ stepExecutionId ++ " not found.", 404, []⟩
  | some stepExec =>
    match ← selectExecution exUuid (fun _ => true) with
    | none => raiseApp ⟨.notFound, "Execution " ++ executionId ++ " not found.", 404, []⟩
    | some execution => runStepTaskWith executors seUuid exUuid stepExec execution

end

section

variable (libs : Libraries) (settings : Settings) (start : Start)

/-- The `try` block of `execute_step`, with the executors of the registry. -/
def finishStep (stepExecId executionId : Uuid) (type : StepType) (stepExec : StepExecution)
    (execution : Execution) : Prog (Dict String Json) :=
  finishStepWith (stepRegistry libs settings start) stepExecId executionId type stepExec execution

/-- `execute_step` with both rows loaded, with the executors of the registry. -/
def runStepTask (stepExecId executionId : Uuid) (stepExec : StepExecution)
    (execution : Execution) : Prog (Dict String Json) :=
  runStepTaskWith (stepRegistry libs settings start) stepExecId executionId stepExec execution

/-- `execute_step`, with the executors of the registry. -/
def executeStep (stepExecutionId executionId : String) : Prog (Dict String Json) :=
  executeStepWith (stepRegistry libs settings start) stepExecutionId executionId

end

/-! ## Several operations at once -/

/-- An operation and its arguments. -/
inductive Operation where
  | cancelExecution (executionId tenantId : Uuid)
  | cleanupStaleExecutions
  | executeStep (stepExecutionId executionId : String)
  | transitionExecution (executionId : Uuid) (new : ExecutionStatus)
  | transitionStep (stepExecId : Uuid) (new : StepStatus) (error : Option String)

/-- What an operation runs in its session. -/
def Operation.program (libs : Libraries) (settings : Settings) (start : Start) :
    Operation → Prog Unit
  | .cancelExecution executionId tenantId => WorkflowEngine.cancelExecution executionId tenantId
  | .cleanupStaleExecutions => do
    let _ ← WorkflowEngine.cleanupStaleExecutions
  | .executeStep stepExecutionId executionId => do
    let _ ← WorkflowEngine.executeStep libs settings start stepExecutionId executionId
  | .transitionExecution executionId new => do
    let _ ← WorkflowEngine.transitionExecution executionId new
    commit
  | .transitionStep stepExecId new error => do
    let _ ← WorkflowEngine.transitionStep stepExecId new error
    commit

/-- Programs of the engine that run at the same time. -/
abbrev EnginePool (ι : Type) := Pool ι Row Memo envSignature Raised Unit

/-- Operations that begin on the committed rows `t`. -/
def operationPool {ι : Type} (libs : Libraries) (settings : Settings) (start : Start)
    (operations : ι → Operation) (t : Rows Row) : EnginePool ι :=
  ⟨t, fun i => ⟨(operations i).program libs settings start, Session.fresh⟩⟩

end WorkflowEngine

import WorkflowEngine.Parser
import WorkflowEngine.Steps

/-!
# The execution orchestrator

`src/engine/orchestrator.py`, with the `sub_workflow` executor, which starts
an execution of its own.

The functions take the executors as a parameter, a `Runner`.  `performer` is
an arbitrary executor: the outside world says what each call returns or
raises.  `stepRegistry` is `STEP_REGISTRY` of `src/queue/tasks.py`, and
`nesting` starts the nested executions of `sub_workflow` steps; its fuel bounds
how deep they nest.
-/

namespace WorkflowEngine

open Py Orm Interact

/-- What `_run_step` dispatches to. -/
abbrev Runner := Caller → StepDefinition → Vars → Prog (Dict String Json)

/-- An attribute of an object that the code holds. -/
def mapped {α : Type} : Option α → Prog α
  | some obj => return obj
  | none => Script.raise (.exception (.other "InvalidRequestError" "Could not refresh instance"))

/-- The attributes of a step execution that the code holds. -/
def readStep (id : Uuid) : Prog StepExecution := do
  mapped (← Script.send (S := engineSignature)
    (.db (.touch (.step id) (fun attrs memo => ((attrs, memo), none)))))

/-! ## One attempt -/

/-- The input of an executor: what templates may use, and the session and the
metadata for `sub_workflow` steps. -/
def stepInput (session : SessionRef) (context : Dict String Json) : Vars :=
  let input := getStepInput context
  let input := Dict.set input "_session" (.session session)
  let input := Dict.set input "_depth" (.json (Dict.getD context "_depth" (.int 0)))
  Dict.set input "_tenant_id" (.json (Dict.getD context "_tenant_id" (.str "")))

section

variable (runner : Runner) (session : SessionRef)

/-- `_run_step`. -/
def runStep (caller : Caller) (step : StepDefinition) (input : Vars) :
    Prog (Dict String Json) := do
  observeInvoke caller ⟨step, input⟩
  runner caller step input

/-- The `try` block of `_execute_step_with_retry`. -/
def attemptStep (id : Uuid) (step : StepDefinition) (stepExecId : Uuid) : Prog Unit := do
  let execution ← mapped (← refreshExecution id)
  let output ← runStep runner ⟨id, step.id⟩ step (stepInput session execution.context)
  let _ ← transitionStep stepExecId .completed none
  let _ ← assignStep stepExecId (fun row => { row with outputData := some output })
  mergeStepOutput id step.id output

/-- The `while` loop of `_execute_step_with_retry`, with the number of
attempts that are left. -/
def retryLoop (id : Uuid) (step : StepDefinition) (stepExecId : Uuid) (maxAttempts : Nat) :
    Nat → Nat → Prog Bool
  | 0, _ => return false
  | remaining + 1, attempts => do
    let attempt := attempts + 1
    let stepExec ← mapped (← assignStep stepExecId (fun row => { row with attempt := attempt }))
    if stepExec.status = .pending ∨ stepExec.status = .failed then
      let _ ← transitionStep stepExecId .queued none
    let _ ← transitionStep stepExecId .running none
    match ← Script.attempt (attemptStep runner session id step stepExecId) with
    | .ok _ => return true
    | .error .outOfFuel => Script.raise .outOfFuel
    | .error (.exception exc) =>
      let _ ← transitionStep stepExecId .failed (some exc.str)
      if attempt ≥ maxAttempts then return false
      else retryLoop id step stepExecId maxAttempts remaining attempt

/-- `_execute_step_with_retry`. -/
def executeStepWithRetry (id : Uuid) (step : StepDefinition) (stepExecId : Uuid) :
    Prog Bool := do
  let stepExec ← readStep stepExecId
  retryLoop runner session id step stepExecId stepExec.maxAttempts stepExec.maxAttempts 0

/-! ## Branches -/

/-- The texts that are falsy in `_resolve_condition_branches`. -/
def falsyResults : List String := ["false", "0", "none", ""]

/-- The truth of the result of a condition step. -/
def resultIsTruthy : Json → Bool
  | .bool b => b
  | value => value.pyStr != "" && lower value.pyStr ∉ falsyResults

/-- The result that a condition step left in its output. -/
def conditionResult (outputData : Option (Dict String Json)) : Bool :=
  resultIsTruthy (Dict.getD (outputData.getD []) "result" (.bool false))

/-- The value of a branch key of a config. -/
def branchOf (step : StepDefinition) (taken : Bool) : Json :=
  Dict.getD step.config (if taken then "true_branch" else "false_branch") (.arr [])

/-- `set(branch)`.  Only the strings of the set can equal a step id. -/
def branchSet (branch : Json) : Except PyError (List String) :=
  match branch.setMembers with
  | .ok members => .ok (members.filterMap Json.asStr?)
  | .error text => .error (.other "TypeError" text)

/-- `_resolve_condition_branches`: the steps of the branch not taken. -/
def resolveConditionBranches (step : StepDefinition) (stepExec : StepExecution) :
    Except PyError (List String) :=
  branchSet (branchOf step (!conditionResult stepExec.outputData))

/-! ## The walk -/

/-- The error text of an execution whose step failed. -/
def exhaustedText (stepId : String) : String :=
  "Step '" ++ stepId ++ "' failed after exhausting retries."

/-- The loop of `_execute_dag` over the topological order. -/
def executeDagFrom (id : Uuid) (stepDefs : Dict String StepDefinition)
    (stepMap : Dict String Uuid) : List String → List String → Prog Unit
  | [], _ => do
    let _ ← transitionExecution id .completed
  | stepId :: order, skipped => do
    match Dict.get? stepDefs stepId, Dict.get? stepMap stepId with
    | some step, some stepExecId =>
      if stepId ∈ skipped then
        let _ ← transitionStep stepExecId .skipped none
        executeDagFrom id stepDefs stepMap order skipped
      else
        let success ← executeStepWithRetry runner session id step stepExecId
        if success then
          if step.type = .condition then
            let stepExec ← readStep stepExecId
            let newlySkipped ← liftExcept (resolveConditionBranches step stepExec)
            executeDagFrom id stepDefs stepMap order (skipped ++ newlySkipped)
          else executeDagFrom id stepDefs stepMap order skipped
        else
          let _ ← assignExecution id (fun row =>
            { row with status := .failed, error := some (exhaustedText stepId) })
    | _, _ => Script.raise (.exception (.other "KeyError" stepId))

/-- `_execute_dag`. -/
def executeDag (id : Uuid) (parsed : WorkflowDefinition) (stepMap : Dict String Uuid) :
    Prog Unit :=
  executeDagFrom runner session id (Dict.ofItems (parsed.steps.map (fun step => (step.id, step))))
    stepMap (topologicalSort parsed.steps) []

/-! ## The start of an execution -/

/-- The row of a new execution. -/
def newExecution (workflowId tenantId : Uuid) (triggerData : Dict String Json)
    (replayedFrom : Option Uuid) : Execution where
  tenantId := tenantId
  workflowId := workflowId
  status := .pending
  triggerData := triggerData
  context := [("trigger", .obj triggerData), ("steps", .obj [])]
  replayedFrom := replayedFrom
  startedAt := none
  completedAt := none
  error := none
  durationMs := none

/-- The row of a new step execution, with the defaults of the columns. -/
def newStepExecution (tenantId executionId : Uuid) (step : StepDefinition) : StepExecution where
  tenantId := tenantId
  executionId := executionId
  stepId := step.id
  stepType := step.type.value
  status := .pending
  inputData := []
  outputData := none
  error := none
  attempt := 1
  maxAttempts := step.maxAttempts
  startedAt := none
  completedAt := none
  durationMs := none

/-- The loop that creates the step executions; it returns `step_map`. -/
def createStepExecutions (tenantId executionId : Uuid) :
    List StepDefinition → Dict String Uuid → Prog (Dict String Uuid)
  | [], stepMap => return stepMap
  | step :: rest, stepMap => do
    let id ← newUuid
    insertRow (.step id) (newStepExecution tenantId executionId step)
    createStepExecutions tenantId executionId rest (Dict.set stepMap step.id id)

/-- `ctx["_depth"] = depth` and `ctx["_tenant_id"] = str(tenant_id)`. -/
def withMetadata (depth : Int) (tenantId : Uuid) (ctx : Dict String Json) : Dict String Json :=
  Dict.set (Dict.set ctx "_depth" (.int depth)) "_tenant_id" (.str tenantId.toText)

/-- Store the metadata.  `execution.context or {}` is the context object
itself, unless it is empty: it is changed in place and assigned again. -/
def storeMetadata (id : Uuid) (depth : Int) (tenantId : Uuid) : Prog Unit := do
  let _ ← touchContext id (fun ctx =>
    if ctx.value.isEmpty then ctx.assign (withMetadata depth tenantId [])
    else (ctx.mutate (withMetadata depth tenantId)).reassign)
  let _ ← flushContext id

/-- `start_execution`. -/
def startExecution (libs : Libraries) (settings : Settings) (parent : Option Caller)
    (workflowId : Uuid) (workflow : Workflow) (triggerData : Dict String Json) (tenantId : Uuid)
    (replayedFrom : Option Uuid) (depth : Int) : Prog (Uuid × Execution) := do
  let parsed ← liftExcept (parseWorkflowDefinition libs settings
    ⟨workflow.name, workflow.triggerType, workflow.steps⟩)
  let id ← newUuid
  insertRow (.execution id) (newExecution workflowId tenantId triggerData replayedFrom)
  observeStart id parent
  let _ ← transitionExecution id .running
  let stepMap ← createStepExecutions tenantId id parsed.steps []
  storeMetadata id depth tenantId
  executeDag runner session id parsed stepMap
  let execution ← mapped (← refreshExecution id)
  return (id, execution)

end

/-! ## The sub-workflow executor -/

/-- A nested `start_execution`: the caller, the workflow and its id, the
trigger data, the tenant and the depth. -/
abbrev Start :=
  Caller → Uuid → Workflow → Dict String Json → Uuid → Int → Prog (Uuid × Execution)

/-- The loop of `_build_trigger_data` over the mapping. -/
def mapInputs (libs : Libraries) (vars : Vars) :
    List (String × Json) → Except PyError (Dict String Json)
  | [] => .ok []
  | (key, expression) :: rest => do
    let value ←
      match expression with
      | .str text =>
        if containsText "\x7b\x7b" text then
          (evaluateExpression libs expression vars).map Json.str
        else pure expression
      | _ => pure expression
    let rest ← mapInputs libs vars rest
    return (key, value) :: rest

/-- `_build_trigger_data`. -/
def buildTriggerData (libs : Libraries) (config : Dict String Json) (vars : Vars) :
    Except PyError (Dict String Json) := do
  let inputMapping := Dict.getD config "input_mapping" (.obj [])
  if inputMapping.truthy then
    match inputMapping with
    | .obj fields =>
      let evalContext : Vars :=
        [("steps", Dict.getD vars "steps" (.json (.obj []))),
          ("trigger", Dict.getD vars "trigger" (.json (.obj [])))]
      let mappedData ← mapInputs libs evalContext fields
      return [("source", .str "sub_workflow"), ("data", .obj mappedData)]
    | _ => throw (noAttribute inputMapping "items")
  else return [("source", .str "sub_workflow"), ("data", .obj [])]

/-- `context.get("_depth", 0)`, as an integer. -/
def depthVar (vars : Vars) : Except PyError Int :=
  match Dict.getD vars "_depth" (.json (.int 0)) with
  | .json (.int depth) => .ok depth
  | .json (.bool b) => .ok (if b then 1 else 0)
  | .json value => .error (.other "TypeError"
      ("'>=' not supported between instances of '" ++ value.typeName ++ "' and 'int'"))
  | .session _ => .error (.other "TypeError"
      "'>=' not supported between instances of 'AsyncSession' and 'int'")

/-- `uuid.UUID(value)` for a JSON value. -/
def uuidOf : Json → Except PyError Uuid
  | .str text =>
    match Uuid.parse text with
    | some id => .ok id
    | none => .error (.other "ValueError" (Uuid.refusal text))
  | value => .error (noAttribute value "replace")

/-- `uuid.UUID(context["_tenant_id"])`. -/
def tenantVar (vars : Vars) : Except PyError Uuid :=
  match Dict.get? vars "_tenant_id" with
  | some (.json value) => uuidOf value
  | some (.session _) =>
    .error (.other "AttributeError" "'AsyncSession' object has no attribute 'replace'")
  | none => .error (.other "KeyError" "_tenant_id")

/-- The checks of `SubWorkflowExecutor.execute` before it reads the database:
the depth, and the ids of the workflow and of the tenant. -/
def SubWorkflowExecutor.target (settings : Settings) (config : Dict String Json) (vars : Vars) :
    Except PyError (Int × Uuid × Uuid) := do
  match Dict.get? config "workflow_id" with
  | none => throw (stepConfigError "Sub_workflow step requires 'workflow_id' in config.")
  | some rawWorkflowId =>
    let currentDepth ← depthVar vars
    if currentDepth ≥ settings.maxSubWorkflowDepth then
      throw (.app ⟨.maxDepthExceeded, "Sub-workflow depth " ++ toString (currentDepth + 1) ++
        " exceeds maximum of " ++ toString settings.maxSubWorkflowDepth ++ ".", 400, []⟩)
    let workflowId ← uuidOf rawWorkflowId
    let tenantId ← tenantVar vars
    if (Dict.get? vars "_session").isNone then throw (.other "KeyError" "_session")
    return (currentDepth, workflowId, tenantId)

/-- `SubWorkflowExecutor.execute`. -/
def SubWorkflowExecutor.execute (libs : Libraries) (settings : Settings) (start : Start)
    (caller : Caller) (config : Dict String Json) (vars : Vars) : Prog (Dict String Json) := do
  let (currentDepth, workflowId, tenantId) ←
    liftExcept (SubWorkflowExecutor.target settings config vars)
  match ← selectWorkflow workflowId (fun workflow => workflow.tenantId = tenantId) with
  | none =>
    raiseApp ⟨.notFound, "Sub-workflow " ++ workflowId.toText ++ " not found.", 404, []⟩
  | some workflow =>
    if workflow.isActive then
      let triggerData ← liftExcept (buildTriggerData libs config vars)
      let (_, execution) ←
        start caller workflowId workflow triggerData tenantId (currentDepth + 1)
      return [("status", .str execution.status.text), ("context", .obj execution.context)]
    else raiseApp ⟨.workflowInactive, "Sub-workflow is not active.", 400, []⟩

private theorem exists_error_bind {ε α β : Type} {x : Except ε α} {f : α → Except ε β}
    (h : ∀ a, ∃ e, f a = .error e) : ∃ e, x >>= f = .error e := by
  cases x with
  | error e => exact ⟨e, rfl⟩
  | ok a => exact h a

/-- Without the id of a tenant the executor raises before it sends a request. -/
theorem SubWorkflowExecutor.execute_of_tenantVar {vars : Vars} {e : PyError}
    (h : tenantVar vars = .error e) (libs : Libraries) (settings : Settings) (start : Start)
    (caller : Caller) (config : Dict String Json) :
    ∃ e, SubWorkflowExecutor.execute libs settings start caller config vars =
      liftExcept (.error e) := by
  have htarget : ∃ e, SubWorkflowExecutor.target settings config vars = .error e := by
    unfold SubWorkflowExecutor.target
    rw [h]
    split
    · exact ⟨_, rfl⟩
    · apply exists_error_bind
      intro depth
      show ∃ e, ite _ _ _ = Except.error e
      split
      · exact ⟨_, rfl⟩
      · -- whatever the workflow id is, the tenant id is refused
        apply exists_error_bind
        intro workflowId
        exact ⟨_, rfl⟩
  obtain ⟨e, he⟩ := htarget
  refine ⟨e, ?_⟩
  unfold SubWorkflowExecutor.execute
  rw [he]
  rfl

/-! ## The executors -/

/-- An arbitrary executor. -/
def performer : Runner := fun _ step vars => do
  liftExcept (← perform ⟨step, vars⟩)

section

variable (libs : Libraries) (settings : Settings)

/-- `STEP_REGISTRY[step_type]().execute(config, context)`, with a given way to
start a nested execution. -/
def stepRegistry (start : Start) (caller : Caller) :
    StepType → Dict String Json → Vars → Prog (Dict String Json)
  | .http, config, vars => HttpExecutor.execute libs config vars
  | .transform, config, vars => liftExcept (TransformExecutor.execute libs config vars)
  | .condition, config, vars => liftExcept (ConditionExecutor.execute libs config vars)
  | .delay, config, _ => DelayExecutor.execute config
  | .subWorkflow, config, vars =>
    SubWorkflowExecutor.execute libs settings start caller config vars

/-- `SubWorkflowExecutor` for the `sub_workflow` steps, and `others` for every
other step. -/
def nestingWith (others : Runner) (start : Start) : Runner := fun caller step vars =>
  match step.type with
  | .subWorkflow => SubWorkflowExecutor.execute libs settings start caller step.config vars
  | _ => others caller step vars

/-- Executions nested in one another.  A nested execution runs with less fuel. -/
def nesting (others : Runner) (session : SessionRef) : Nat → Runner
  | 0 => nestingWith libs settings others (fun _ _ _ _ _ _ => Script.raise .outOfFuel)
  | fuel + 1 => nestingWith libs settings others
      (fun caller workflowId workflow triggerData tenantId depth =>
        startExecution (nesting others session fuel) session libs settings (some caller)
          workflowId workflow triggerData tenantId none depth)

end

end WorkflowEngine

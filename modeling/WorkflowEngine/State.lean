import WorkflowEngine.Lib.Binary64
import WorkflowEngine.Requests

/-!
# The state machine of executions and steps

`src/engine/state.py`: the transition tables, and the functions that validate
a transition against the loaded status and write it.
-/

namespace WorkflowEngine

/-- `ALLOWED_EXECUTION_TRANSITIONS`. -/
def allowedExecutionTransitions : ExecutionStatus → List ExecutionStatus
  | .pending => [.running, .cancelled]
  | .running => [.completed, .failed, .cancelled]
  | .completed => []
  | .failed => []
  | .cancelled => []

/-- `ALLOWED_STEP_TRANSITIONS`. -/
def allowedStepTransitions : StepStatus → List StepStatus
  | .pending => [.queued, .skipped]
  | .queued => [.running, .skipped]
  | .running => [.completed, .failed, .skipped]
  | .completed => []
  | .failed => [.queued]
  | .skipped => []

/-- `validate_execution_transition`. -/
def validateExecutionTransition (current new : ExecutionStatus) : Except PyError Unit :=
  if new ∈ allowedExecutionTransitions current then .ok ()
  else .error (.app ⟨.invalidTransition,
    "Invalid execution transition: '" ++ current.text ++ "' -> '" ++ new.text ++ "'", 409, []⟩)

/-- `validate_step_transition`. -/
def validateStepTransition (current new : StepStatus) : Except PyError Unit :=
  if new ∈ allowedStepTransitions current then .ok ()
  else .error (.app ⟨.invalidTransition,
    "Invalid step transition: '" ++ current.text ++ "' -> '" ++ new.text ++ "'", 409, []⟩)

theorem validateExecutionTransition_ok {current new : ExecutionStatus}
    (h : new ∈ allowedExecutionTransitions current) :
    validateExecutionTransition current new = .ok () := by
  simp [validateExecutionTransition, h]

theorem validateStepTransition_ok {current new : StepStatus}
    (h : new ∈ allowedStepTransitions current) :
    validateStepTransition current new = .ok () := by
  simp [validateStepTransition, h]

theorem allowed_of_validateExecutionTransition {current new : ExecutionStatus} {u : Unit}
    (h : validateExecutionTransition current new = .ok u) :
    new ∈ allowedExecutionTransitions current := by
  unfold validateExecutionTransition at h
  split at h
  · assumption
  · cases h

theorem allowed_of_validateStepTransition {current new : StepStatus} {u : Unit}
    (h : validateStepTransition current new = .ok u) : new ∈ allowedStepTransitions current := by
  unfold validateStepTransition at h
  split at h
  · assumption
  · cases h

/-- `int(delta.total_seconds() * 1000)` for a delta of so many microseconds.  The
seconds and the product are numbers in double precision. -/
def millisecondsOf (microseconds : Nat) : Nat :=
  ((Binary64.ofRatio microseconds 1000000).mulNat 1000).trunc

/-- `int(delta.total_seconds() * 1000)` for the time between two moments. -/
def wholeMilliseconds (started now : Time) : Int :=
  (now - started).sign * millisecondsOf (now - started).natAbs

-- 1.001 * 1000 is 1000.9999999999999
example : wholeMilliseconds 0 1001000 = 1000 ∧ wholeMilliseconds 0 1002000 = 1002 := by
  decide +kernel

/-- `duration_ms` at the end of a run: it is assigned where the loaded object
has a start time. -/
def durationAt (startedAt : Option Time) (now : Time) (durationMs : Option Int) : Option Int :=
  match startedAt with
  | some started => some (wholeMilliseconds started now)
  | none => durationMs

/-- The statuses that end an execution. -/
def ExecutionStatus.terminal : ExecutionStatus → Bool
  | completed | failed | cancelled => true
  | pending | running => false

/-- The statuses with which an attempt of a step ends. -/
def StepStatus.ended : StepStatus → Bool
  | completed | failed => true
  | pending | queued | running | skipped => false

/-- The columns that `transition_execution` assigns.  The duration is computed
from the attributes of the loaded object. -/
def executionTransition (loaded : Execution) (new : ExecutionStatus) (now : Time)
    (row : Execution) : Execution :=
  { row with
    status := new
    startedAt := if new = .running then some now else row.startedAt
    completedAt := if new.terminal then some now else row.completedAt
    durationMs :=
      if new.terminal then durationAt loaded.startedAt now row.durationMs else row.durationMs }

/-- The columns that `transition_step` assigns. -/
def stepTransition (loaded : StepExecution) (new : StepStatus) (now : Time)
    (error : Option String) (row : StepExecution) : StepExecution :=
  { row with
    status := new
    startedAt := if new = .running then some now else row.startedAt
    completedAt := if new.ended then some now else row.completedAt
    durationMs :=
      if new.ended then durationAt loaded.startedAt now row.durationMs else row.durationMs
    error := error.or row.error }

/-- The error of a missing execution. -/
def executionNotFound : AppError := ⟨.notFound, "Execution not found.", 404, []⟩

/-- The error of a missing step execution. -/
def stepExecutionNotFound : AppError := ⟨.notFound, "Step execution not found.", 404, []⟩

/-- The values that an `Integer` column can hold. -/
def isInteger (value : Int) : Bool := decide (-2147483648 ≤ value) && decide (value < 2147483648)

/-- The error of the driver for another value. -/
def integerOutOfRange : PyError := .other "DBAPIError" "value out of int32 range"

/-- What the flush of a transition says to the assigned columns. -/
abbrev Flush := Execution → ExecutionStatus → Time → Except PyError Unit

/-- Every statement succeeds. -/
def flushAccepts : Flush := fun _ _ _ => .ok ()

/-- The flush writes `duration_ms`, where the transition assigns it, into its column. -/
def flushColumns : Flush := fun loaded new now =>
  if new.terminal ∧ loaded.startedAt.any (fun started => !isInteger (wholeMilliseconds started now))
  then .error integerOutOfRange
  else .ok ()

/-- `transition_execution`.  The row is not changed if the flush fails. -/
def transitionExecutionWith (flush : Flush) (id : Uuid) (new : ExecutionStatus) :
    Prog Execution := do
  match ← selectExecution id (fun _ => true) with
  | none => raiseApp executionNotFound
  | some execution =>
    liftExcept (validateExecutionTransition execution.status new)
    let now ← utcNow
    liftExcept (flush execution new now)
    let assigned ← assignExecution id (executionTransition execution new now)
    return assigned.getD execution

/-- `transition_execution` where every statement succeeds. -/
def transitionExecution : Uuid → ExecutionStatus → Prog Execution :=
  transitionExecutionWith flushAccepts

/-- `transition_step`. -/
def transitionStep (id : Uuid) (new : StepStatus) (error : Option String) :
    Prog StepExecution := do
  match ← selectStep id with
  | none => raiseApp stepExecutionNotFound
  | some stepExec =>
    liftExcept (validateStepTransition stepExec.status new)
    let now ← utcNow
    let assigned ← assignStep id (stepTransition stepExec new now error)
    return assigned.getD stepExec

end WorkflowEngine

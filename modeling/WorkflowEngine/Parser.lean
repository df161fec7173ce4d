import Mathlib.Data.List.Infix
import WorkflowEngine.Graph
import WorkflowEngine.Libraries

/-!
# The workflow parser

`src/engine/parser.py`.  The parser raises `AppError`, with one exception that
the model keeps: a step type that is an unhashable JSON value makes the set
membership test inside the handler of the `ValidationError` raise `TypeError`.
-/

namespace WorkflowEngine

open Py

/-- The raw definition that `parse_workflow_definition` reads. -/
structure RawDefinition where
  name : String
  triggerType : String
  steps : List Json

/-- `VALID_STEP_TYPES`. -/
def validStepTypes : List String :=
  [StepType.http, .transform, .condition, .delay, .subWorkflow].map StepType.value

/-- The step count check of `_validate_step_count`. -/
def validateStepCount (settings : Settings) (rawSteps : List Json) : Except AppError Unit :=
  if rawSteps.isEmpty then
    .error ⟨.noSteps, "Workflow must contain at least one step.", 400, []⟩
  else if rawSteps.length > settings.maxStepsPerWorkflow then
    .error ⟨.tooManySteps, "Workflow has " ++ toString rawSteps.length ++
      " steps, exceeding the maximum of " ++ toString settings.maxStepsPerWorkflow ++ ".", 400, []⟩
  else .ok ()

/-- `raw_step.get("type", "") if isinstance(raw_step, dict) else ""`. -/
def rawStepType : Json → Json
  | .obj fields => Dict.getD fields "type" (.str "")
  | _ => .str ""

/-- The handlers of `_parse_steps`. -/
def stepError (rawStep : Json) (index : Nat) : DecodeFailure → PyError
  | .validationError text =>
    let stepType := rawStepType rawStep
    if stepType.truthy then
      match stepType with
      | .arr _ => .other "TypeError" "unhashable type: 'list'"
      | .obj _ => .other "TypeError" "unhashable type: 'dict'"
      | _ =>
        if validStepTypes.any (fun value => stepType.eq (.str value)) then
          .app ⟨.validationError, "Invalid step at index " ++ toString index ++ ": " ++ text,
            400, []⟩
        else
          .app ⟨.unknownStepType, "Unknown step type '" ++ stepType.pyStr ++
            "' on step at index " ++ toString index ++ ".", 400,
            [[("step_index", .int index), ("step_type", stepType)]]⟩
    else
      .app ⟨.validationError, "Invalid step at index " ++ toString index ++ ": " ++ text, 400, []⟩
  | .typeError text =>
    .app ⟨.validationError, "Invalid step at index " ++ toString index ++ ": " ++ text, 400, []⟩

/-- `_parse_steps`, from a given index on. -/
def parseStepsFrom (libs : Libraries) : Nat → List Json → Except PyError (List StepDefinition)
  | _, [] => .ok []
  | index, rawStep :: rest =>
    match libs.decodeStep rawStep with
    | .error failure => .error (stepError rawStep index failure)
    | .ok step =>
      match parseStepsFrom libs (index + 1) rest with
      | .error e => .error e
      | .ok steps => .ok (step :: steps)

/-- `_parse_steps`. -/
def parseSteps (libs : Libraries) (rawSteps : List Json) : Except PyError (List StepDefinition) :=
  parseStepsFrom libs 0 rawSteps

/-- The loop of `_validate_unique_ids`. -/
def validateUniqueFrom : List String → List StepDefinition → Except AppError Unit
  | _, [] => .ok ()
  | seen, step :: rest =>
    if step.id ∈ seen then
      .error ⟨.duplicateStepId, "Duplicate step ID: '" ++ step.id ++ "'.", 400,
        [[("step_id", .str step.id)]]⟩
    else validateUniqueFrom (step.id :: seen) rest

/-- `_validate_unique_ids`. -/
def validateUniqueIds (steps : List StepDefinition) : Except AppError Unit :=
  validateUniqueFrom [] steps

/-- `_validate_step_types`. -/
def validateStepTypes : List StepDefinition → Except AppError Unit
  | [] => .ok ()
  | step :: rest =>
    if step.type.value ∉ validStepTypes then
      .error ⟨.unknownStepType, "Unknown step type '" ++ step.type.value ++ "' on step '" ++
        step.id ++ "'.", 400, [[("step_id", .str step.id), ("step_type", .str step.type.value)]]⟩
    else validateStepTypes rest

/-- The first dependency of `step` that is not among the step ids. -/
def validateStepDependencies (stepIds : List String) (step : StepDefinition) :
    Except AppError Unit :=
  match step.dependsOn.find? (fun dep => dep ∉ stepIds) with
  | some dep =>
    .error ⟨.invalidDependency, "Step '" ++ step.id ++ "' depends on '" ++ dep ++
      "', which does not exist.", 400, [[("step_id", .str step.id), ("dependency", .str dep)]]⟩
  | none => .ok ()

/-- `_validate_dependencies`. -/
def validateDependencies (steps : List StepDefinition) : Except AppError Unit :=
  steps.forM (validateStepDependencies (steps.map (·.id)))

/-- `part in value`. -/
def containsText (part value : String) : Bool := decide (part.toList <:+: value.toList)

/-- `_has_jinja2`. -/
def hasJinja2 (value : String) : Bool :=
  containsText "\x7b\x7b" value || containsText "\x7b%" value

/-- `_parse_expression`. -/
def parseExpression (libs : Libraries) (stepId key value : String) : Except AppError Unit :=
  match libs.parseTemplate value with
  | .ok _ => .ok ()
  | .error text =>
    .error ⟨.expressionError, "Invalid Jinja2 expression in step '" ++ stepId ++
      "' config key '" ++ key ++ "': " ++ text, 400,
      [[("step_id", .str stepId), ("key", .str key)]]⟩

/-- The check of one string. -/
def checkText (libs : Libraries) (stepId key value : String) : Except AppError Unit :=
  if hasJinja2 value then parseExpression libs stepId key value else .ok ()

mutual

/-- `_validate_config_expressions`. -/
def validateConfigExpressions (libs : Libraries) (stepId : String) :
    List (String × Json) → Except AppError Unit
  | [] => .ok ()
  | (key, value) :: rest =>
    match validateConfigValue libs stepId key value with
    | .error e => .error e
    | .ok _ => validateConfigExpressions libs stepId rest

/-- The branches of `_validate_config_expressions` on one value.  The items
of a list are checked only where they are strings. -/
def validateConfigValue (libs : Libraries) (stepId key : String) : Json → Except AppError Unit
  | .str value => checkText libs stepId key value
  | .obj fields => validateConfigExpressions libs stepId fields
  | .arr items => items.forM (fun item =>
      match item with
      | .str value => checkText libs stepId key value
      | _ => .ok ())
  | _ => .ok ()

end

/-- `_validate_jinja2_expressions`. -/
def validateJinja2Expressions (libs : Libraries) (steps : List StepDefinition) :
    Except AppError Unit :=
  steps.forM (fun step => validateConfigExpressions libs step.id step.config)

/-- The checks of `parse_workflow_definition` on the decoded steps. -/
def validateSteps (libs : Libraries) (steps : List StepDefinition) : Except AppError Unit := do
  validateUniqueIds steps
  validateStepTypes steps
  validateDependencies steps
  detectCycles (buildDependencyGraph steps)
  validateMaxDepth (buildDependencyGraph steps)
  validateJinja2Expressions libs steps

/-- `parse_workflow_definition`. -/
def parseWorkflowDefinition (libs : Libraries) (settings : Settings) (raw : RawDefinition) :
    Except PyError WorkflowDefinition := do
  (validateStepCount settings raw.steps).mapError PyError.app
  let steps ← parseSteps libs raw.steps
  (validateSteps libs steps).mapError PyError.app
  return {
    name := raw.name
    triggerType := raw.triggerType
    steps := steps
    dependencyGraph := buildDependencyGraph steps }

end WorkflowEngine

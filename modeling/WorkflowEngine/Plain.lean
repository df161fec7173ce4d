import WorkflowEngine.Parser
import WorkflowEngine.Requests

/-!
# The third-party functions on plain inputs

One instance of `Libraries`, for concrete runs.  `plainDecode` decodes a step
object without a retry policy as Pydantic does.  `plainRender` renders a text
that is one variable in double braces as the value of the variable, and any
text without braces as itself.

The module ends with what a concrete run starts from: step objects, a workflow,
a world with an empty database, and answers for sessions that run at once.
-/

namespace WorkflowEngine

open Py Orm

/-- `StepDefinition(**raw_step)` for an object without `retry`. -/
def plainDecode : Json → Except DecodeFailure StepDefinition
  | .obj fields =>
    match Dict.get? fields "id", (Dict.get? fields "type").bind Json.asStr? with
    | some (.str id), some value =>
      match StepType.ofValue? value with
      | some type =>
        if h : 1 ≤ id.length ∧ id.length ≤ 100 then
          .ok {
            id := id
            type := type
            config :=
              match Dict.getD fields "config" .null with
              | .obj config => config
              | _ => []
            dependsOn :=
              match Dict.getD fields "depends_on" .null with
              | .arr items => items.filterMap Json.asStr?
              | _ => []
            retry := none
            id_nonempty := h.1
            id_short := h.2 }
        else .error (.validationError "id")
      | none => .error (.validationError "type")
    | _, _ => .error (.validationError "Field required")
  | _ => .error (.typeError "argument after ** must be a mapping")

/-- `str(value)` of a variable. -/
def Val.text : Val → String
  | .json value => value.pyStr
  | .session ref => "<sqlalchemy.ext.asyncio.session.AsyncSession object at " ++ toString ref ++ ">"

/-- The name in a template that is one variable in double braces. -/
def variableName? (template : String) : Option String :=
  match template.toList with
  | '\x7b' :: '\x7b' :: rest =>
    match rest.reverse with
    | '\x7d' :: '\x7d' :: name => some (String.ofList (name.reverse.filter (· != ' ')))
    | _ => none
  | _ => none

/-- `env.from_string(template).render(**variables)`. -/
def plainRender (template : String) (vars : Vars) : Except RenderFailure String :=
  match variableName? template with
  | some name =>
    match Dict.get? vars name with
    | some value => .ok value.text
    | none => .error (.undefinedError ("'" ++ name ++ "' is undefined"))
  | none => .ok template

/-- The third-party functions on plain inputs. -/
def plainLibraries : Libraries where
  decodeStep := plainDecode
  parseTemplate := fun _ => .ok ()
  render := plainRender

/-! ## Concrete runs -/

/-- A step object of a definition. -/
def rawStep (id : String) (type : StepType) (config : Dict String Json)
    (dependsOn : List String) : Json :=
  .obj [("id", .str id), ("type", .str type.value), ("config", .obj config),
    ("depends_on", .arr (dependsOn.map .str))]

/-- What `plainDecode` makes of a step object. -/
def plainStep (id : String) (type : StepType) (config : Dict String Json)
    (dependsOn : List String) (h : 1 ≤ id.length ∧ id.length ≤ 100) : StepDefinition :=
  ⟨id, type, config, dependsOn, none, h.1, h.2⟩

/-- The id of the condition steps in the runs below is within the bounds. -/
theorem check_length : 1 ≤ "check".length ∧ "check".length ≤ 100 := by decide

/-- An active workflow with a manual trigger. -/
def plainWorkflow (steps : List Json) : Workflow where
  tenantId := 1
  name := "workflow"
  triggerType := "manual"
  steps := steps
  isActive := true
  webhookPath := none
  webhookSecret := none

/-- A workflow with one transform step. -/
def oneStepWorkflow : Workflow :=
  plainWorkflow [rawStep "only" .transform [("expression", .str "a")] []]

/-- An outside world without HTTP servers, whose clock stands still. -/
def plainEnvironment (behaviour : List Event → ExecutorCall → Except PyError (Dict String Json)) :
    Environment where
  clock := fun _ => 0
  readings := 0
  behaviour := behaviour
  server := fun _ _ => .error (.httpError "no route to host")
  events := []

/-- A new session on an empty database. -/
def plainWorld (behaviour : List Event → ExecutorCall → Except PyError (Dict String Json)) :
    World :=
  ⟨⟨∅, Session.fresh⟩, plainEnvironment behaviour⟩

/-- Answers for what is outside, by a clock that stands still. -/
def stillAnswer : (req : EnvReq) → req.Resp
  | .utcNow => (0 : Int)
  | .newUuid => (0 : Nat)
  | .observeStart _ _ => ()
  | .observeInvoke _ _ => ()
  | .perform _ => .ok []
  | .http _ => .error (.httpError "no route to host")
  | .sleep _ => ()

end WorkflowEngine

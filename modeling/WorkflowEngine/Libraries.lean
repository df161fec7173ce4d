import WorkflowEngine.Models

/-!
# What the code takes from third-party packages

The functions below are not part of the repository.  They are parameters of
the model: Pydantic's decoding of one step, the Jinja2 parser, and rendering
in Jinja2's sandbox.

A template is rendered with keyword variables.  A variable is a JSON value,
or the database session that the orchestrator hands to the executors, which
is a Python object and not data.
-/

namespace WorkflowEngine

open Py

/-- A live `AsyncSession` object; only its identity matters. -/
abbrev SessionRef := Nat

/-- The value of a template variable. -/
inductive Val where
  | json (value : Json)
  | session (ref : SessionRef)

/-- Keyword variables. -/
abbrev Vars := Dict String Val

/-- The exceptions of `StepDefinition(**raw_step)`. -/
inductive DecodeFailure where
  | validationError (text : String)
  | typeError (text : String)

/-- The exceptions of rendering a template, in the groups that
`evaluate_expression` tells apart. -/
inductive RenderFailure where
  | templateSyntaxError (text : String)
  | undefinedError (text : String)
  | securityError (text : String)
  | other (text : String)

/-- The third-party functions. -/
structure Libraries where
  /-- `StepDefinition(**raw_step)`. -/
  decodeStep : Json → Except DecodeFailure StepDefinition
  /-- `SandboxedEnvironment().parse(source)`, with the text of its exception. -/
  parseTemplate : String → Except String Unit
  /-- `env.from_string(template).render(**variables)`. -/
  render : String → Vars → Except RenderFailure String

/-- The settings that the modelled functions read, with their defaults. -/
structure Settings where
  maxStepsPerWorkflow : Nat := 50
  maxSubWorkflowDepth : Int := 3
  maxPayloadSize : Nat := 1048576
  webhookReplayEnabled : Bool := true

end WorkflowEngine

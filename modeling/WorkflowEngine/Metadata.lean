import WorkflowEngine.Plain
import WorkflowEngine.Run

/-!
# The metadata of a run

`start_execution` stores the nesting depth and the tenant id in the context of
the mapped execution only.  The refresh before every attempt reads the row,
which does not have them, so every executor gets the defaults: depth 0 and an
empty tenant id.
-/

namespace WorkflowEngine

open Py Orm Interact SkipWalk

/-- The executor receives the depth and the tenant id of the run. -/
def ReceivesMetadata (depth : Int) (tenantId : Uuid) (inv : Invocation) : Prop :=
  Dict.get? inv.call.input "_depth" = some (.json (.int depth)) ∧
    Dict.get? inv.call.input "_tenant_id" = some (.json (.str tenantId.toText))

/-- Every executor invocation of the run receives its metadata. -/
def MetadataReaches (libs : Libraries) (settings : Settings) (workflow : Workflow)
    (session : SessionRef) (parent : Option Caller) (workflowId : Uuid)
    (triggerData : Dict String Json) (tenantId : Uuid) (replayedFrom : Option Uuid) (depth : Int)
    (w : World) : Prop :=
  ∀ inv, Invokes w ((startExecution performer session libs settings parent workflowId workflow
    triggerData tenantId replayedFrom depth).run w).2 inv → ReceivesMetadata depth tenantId inv

/-- An invocation of a run has no tenant id in its input. -/
theorem Moment.not_receivesMetadata {p : RunPlan} {front : StepLog} {step : StepDefinition}
    {inv : Invocation} (h : Moment p front step inv) (depth : Int) (tenantId : Uuid) :
    ¬ ReceivesMetadata depth tenantId inv := by
  rintro ⟨-, htenant⟩
  rw [h.input_eq] at htenant
  simp only [Dict.get?_cons] at htenant
  simp only [String.reduceEq, if_false, if_true, Option.some.injEq, Val.json.injEq,
    Json.str.injEq] at htenant
  exact Uuid.toText_ne_empty tenantId htenant.symm

section

variable {libs : Libraries} {settings : Settings} {workflow : Workflow}
  {parsed : WorkflowDefinition}

private theorem exists_without_metadata
    (hparse : parseWorkflowDefinition libs settings
      ⟨workflow.name, workflow.triggerType, workflow.steps⟩ = .ok parsed)
    (session : SessionRef) (parent : Option Caller) (workflowId : Uuid)
    (triggerData : Dict String Json) (tenantId : Uuid) (replayedFrom : Option Uuid) (depth : Int)
    (w : World) :
    ∃ inv, Invokes w ((startExecution performer session libs settings parent workflowId workflow
      triggerData tenantId replayedFrom depth).run w).2 inv ∧
      ¬ ReceivesMetadata depth tenantId inv := by
  obtain ⟨p, log, invs, b, result, db', env', -, -, -, -, -, -, -, -, hrun, hlater, -, h⟩ :=
    run_startExecution performer_quiet hparse session parent workflowId triggerData tenantId
      replayedFrom depth w
  obtain ⟨inv, rest, hinvs⟩ := List.exists_cons_of_ne_nil h.invs_ne_nil
  have hinv : inv ∈ invs := by simp [hinvs]
  obtain ⟨pre, step, ending, post, -, -, -, hmoment⟩ := h.visits.moment hinv
  refine ⟨inv, ?_, hmoment.not_receivesMetadata depth tenantId⟩
  rw [hrun]
  exact (invokes_iff hlater).mpr hinv

/-- In no run of an accepted workflow does the metadata reach every executor. -/
theorem not_metadataReaches
    (hparse : parseWorkflowDefinition libs settings
      ⟨workflow.name, workflow.triggerType, workflow.steps⟩ = .ok parsed)
    (session : SessionRef) (parent : Option Caller) (workflowId : Uuid)
    (triggerData : Dict String Json) (tenantId : Uuid) (replayedFrom : Option Uuid) (depth : Int)
    (w : World) :
    ¬ MetadataReaches libs settings workflow session parent workflowId triggerData tenantId
      replayedFrom depth w := by
  obtain ⟨inv, hinvokes, hnot⟩ := exists_without_metadata hparse session parent workflowId
    triggerData tenantId replayedFrom depth w
  exact fun h => hnot (h inv hinvokes)

end

/-- The definition of the step of `oneStepWorkflow`. -/
def oneStepParsed : WorkflowDefinition :=
  ⟨"workflow", "manual", [plainStep "only" .transform [("expression", .str "a")] [] (by decide)],
    [("only", [])]⟩

theorem not_metadataReaches_oneStep :
    ¬ MetadataReaches plainLibraries {} oneStepWorkflow 0 none 1 [] 1 none 0
      (plainWorld (fun _ _ => .ok [])) := by
  have hparse : parseWorkflowDefinition plainLibraries {} ⟨oneStepWorkflow.name,
      oneStepWorkflow.triggerType, oneStepWorkflow.steps⟩ = .ok oneStepParsed := rfl
  exact not_metadataReaches hparse 0 none 1 [] 1 none 0 _

/-- A run for tenant 7 at depth 2: its executor is told depth 0 and no tenant. -/
theorem not_metadataReaches_nested :
    parseWorkflowDefinition plainLibraries {} ⟨oneStepWorkflow.name, oneStepWorkflow.triggerType,
      oneStepWorkflow.steps⟩ = .ok oneStepParsed ∧
    ¬ MetadataReaches plainLibraries {} oneStepWorkflow 0 none 1 [] 7 none 2
      (plainWorld (fun _ _ => .ok [])) := by
  have hparse : parseWorkflowDefinition plainLibraries {} ⟨oneStepWorkflow.name,
      oneStepWorkflow.triggerType, oneStepWorkflow.steps⟩ = .ok oneStepParsed := rfl
  obtain ⟨inv, hinvokes, hnot⟩ := exists_without_metadata hparse 0 none 1 [] 7 none 2
    (plainWorld (fun _ _ => .ok []))
  exact ⟨hparse, fun h => hnot (h inv hinvokes)⟩

end WorkflowEngine

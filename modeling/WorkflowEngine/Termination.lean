import WorkflowEngine.Plain
import WorkflowEngine.Route

/-!
# Which workflows always reach a terminal state

Nothing in a run of an accepted workflow can raise but `set(branch)` on the
branch that a completed condition step does not take.  So a run ends in a
terminal state exactly if no route executes a condition step whose branch is
not a set of steps.
-/

namespace WorkflowEngine

open Py Orm Interact SkipWalk

/-- Every run of the workflow returns an execution in a terminal state,
whatever the executors do. -/
def RunsEndTerminal (libs : Libraries) (settings : Settings) (workflow : Workflow) : Prop :=
  ∀ (session : SessionRef) (parent : Option Caller) (workflowId : Uuid)
    (triggerData : Dict String Json) (tenantId : Uuid) (replayedFrom : Option Uuid) (depth : Int)
    (w : World), ∃ id e w',
      (startExecution performer session libs settings parent workflowId workflow triggerData
        tenantId replayedFrom depth).run w = (.ok (id, e), w') ∧
      (e.status = .completed ∨ e.status = .failed)

/-- On no route is a condition step executed whose branch not taken is refused
by `set`. -/
def BranchesSettable (steps : List StepDefinition) : Prop :=
  ∀ choice, ∀ step ∈ steps, step.type = .condition → Executes steps choice step.id →
    ∃ members, branchSet (branchOf step (!choice step.id)) = .ok members

section

variable {p : RunPlan} {log : StepLog} {invs : List Invocation} {b : Board}
  {result : Except Raised Unit}

/-- A walk that returns leaves a terminal status. -/
theorem Run.terminal {value : Unit} (h : Run p log invs b (.ok value)) :
    b.execution.status = .completed ∨ b.execution.status = .failed := by
  cases h.ends with
  | completed _ _ _ status => exact .inl status
  | failed _ _ _ _ status => exact .inr status

/-- A walk over settable branches returns. -/
theorem Run.returns (h : Run p log invs b result) (hset : BranchesSettable p.steps) :
    result = .ok () := by
  cases h.ends with
  | completed _ _ _ _ => rfl
  | failed _ _ _ _ _ => rfl
  | stuck front step output e last mem condition unset settles status =>
    -- The route of the results of this run executes the condition step.
    have hmem : (step.id, Ending.completed output) ∈ log := by simp [last]
    have hagrees := agrees_choiceOf h.keys_nodup
    have hexecutes : Executes p.steps (choiceOf log) step.id :=
      h.executes hmem (by simp) hagrees
    obtain ⟨members, hok⟩ := hset (choiceOf log) step mem condition hexecutes
    rw [hagrees step.id output hmem, ← nonTakenBranch, unset] at hok
    cases hok

/-- Where a steered run returns, the branches on the route of the choice are
settable. -/
theorem Run.settable_of_steered {choice : String → Bool} {value : Unit}
    (h : Run p log invs b (.ok value)) (hrunner : p.runner = performer)
    (hbehaviour : p.behaviour = steer choice) {step : StepDefinition} (hstep : step ∈ p.steps)
    (hcondition : step.type = .condition) (hexecutes : Executes p.steps choice step.id) :
    ∃ members, branchSet (branchOf step (!choice step.id)) = .ok members := by
  have hmem := h.completed_of_executes hrunner hbehaviour hexecutes
  cases h.ends with
  | failed front s last _ _ =>
    exact absurd rfl ((h.steered hrunner hbehaviour).1 (s, .failed) (by simp [last]))
  | completed all _ settles _ =>
    obtain ⟨members, hset⟩ := settles _ hmem step hstep rfl hcondition _ rfl
    exact ⟨members, hset⟩

end

section

variable {libs : Libraries} {settings : Settings} {workflow : Workflow}
  {parsed : WorkflowDefinition}

/-- Every run of an accepted workflow ends in a terminal state, if and only if
the branches on its routes are settable. -/
theorem runsEndTerminal_iff
    (hparse : parseWorkflowDefinition libs settings
      ⟨workflow.name, workflow.triggerType, workflow.steps⟩ = .ok parsed) :
    RunsEndTerminal libs settings workflow ↔ BranchesSettable parsed.steps := by
  constructor
  · intro hterminal choice step hstep hcondition hexecutes
    let w := plainWorld (steer choice)
    obtain ⟨id, e, w', hrun, -⟩ := hterminal 0 none 0 [] 0 none 0 w
    obtain ⟨p, log, invs, b, result, db', env', hrunner, -, hbehaviour, hsteps, -, -, -, -, hrun',
      -, -, h⟩ := run_startExecution performer_quiet hparse 0 none 0 [] 0 none 0 w
    rw [hrun] at hrun'
    cases result with
    | error raised => cases hrun'
    | ok value =>
      rw [← hsteps] at hstep hexecutes
      exact h.settable_of_steered hrunner hbehaviour hstep hcondition hexecutes
  · intro hset session parent workflowId triggerData tenantId replayedFrom depth w
    obtain ⟨p, log, invs, b, result, db', env', -, -, -, hsteps, -, -, -, -, hrun, -, -, h⟩ :=
      run_startExecution performer_quiet hparse session parent workflowId triggerData tenantId
        replayedFrom depth w
    obtain rfl := h.returns (hsteps ▸ hset)
    exact ⟨_, _, _, hrun, h.terminal⟩

end

/-- A condition step whose `false_branch` is `null`. -/
def nullBranchSteps : List StepDefinition :=
  [plainStep "check" .condition [("expression", .str "true"), ("false_branch", .null)] []
    check_length]

/-- The workflow of that step. -/
def nullBranchWorkflow : Workflow :=
  plainWorkflow [rawStep "check" .condition
    [("expression", .str "true"), ("false_branch", .null)] []]

/-- The parser accepts the step with the null branch, so the equivalence speaks
about it. -/
theorem runsEndTerminal_iff_nullBranch :
    RunsEndTerminal plainLibraries {} nullBranchWorkflow ↔ BranchesSettable nullBranchSteps := by
  have hparse : parseWorkflowDefinition plainLibraries {} ⟨nullBranchWorkflow.name,
      nullBranchWorkflow.triggerType, nullBranchWorkflow.steps⟩ =
      .ok ⟨"workflow", "manual", nullBranchSteps, [("check", [])]⟩ := rfl
  exact runsEndTerminal_iff hparse

/-- When the condition of this accepted workflow is true, `set(None)` raises in
the middle of the run. -/
theorem not_runsEndTerminal_nullBranch :
    (∃ parsed, parseWorkflowDefinition plainLibraries {} ⟨nullBranchWorkflow.name,
      nullBranchWorkflow.triggerType, nullBranchWorkflow.steps⟩ = .ok parsed) ∧
    ¬ RunsEndTerminal plainLibraries {} nullBranchWorkflow := by
  refine ⟨⟨_, rfl⟩, fun h => ?_⟩
  obtain ⟨id, e, w', hrun, -⟩ := h 0 none 0 [] 0 none 0 (plainWorld (steer (fun _ => true)))
  have hraise : ((startExecution performer 0 plainLibraries {} none 0 nullBranchWorkflow [] 0 none
      0).run (plainWorld (steer (fun _ => true)))).1 =
      .error (.exception (.other "TypeError" "'NoneType' object is not iterable")) := rfl
  rw [hrun] at hraise
  cases hraise

end WorkflowEngine

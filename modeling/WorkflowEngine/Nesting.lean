import Mathlib.Logic.Relation
import WorkflowEngine.Dependencies
import WorkflowEngine.Outcome

/-!
# Nested executions

A `sub_workflow` step needs the id of its tenant, and the orchestrator hands it
the one of the context, where there is none (`WorkflowEngine.Metadata`).  So
`uuid.UUID("")` is raised before a nested execution is started, whatever the
config says, and the step fails with its last attempt.

With this the executors of nested executions are quiet ones, and a run with
them is a `Run` like any other.
-/

namespace WorkflowEngine

open Py Orm Interact SkipWalk

section

variable {libs : Libraries} {settings : Settings}

/-- The tenant id that reaches an executor is the empty text. -/
theorem tenantVar_stepInput (session : SessionRef) {ctx : Dict String Json}
    (h : Dict.get? ctx "_tenant_id" = none) :
    tenantVar (stepInput session ctx) =
      .error (.other "ValueError" "badly formed hexadecimal UUID string") := by
  have htenant : Dict.get? (stepInput session ctx) "_tenant_id" = some (.json (.str "")) := by
    unfold stepInput
    simp [Dict.getD, h]
  unfold tenantVar
  rw [htenant]
  show uuidOf (.str "") = _
  simp [uuidOf, Uuid.parse_empty.1, Uuid.parse_empty.2]

/-- With quiet executors for the other steps, the executors are quiet, however
nested executions are started. -/
theorem nestingWith_quiet {others : Runner} (hothers : others.Quiet) (start : Start) :
    (nestingWith libs settings others start).Quiet := by
  intro caller step session ctx w htenant
  unfold nestingWith
  split
  · obtain ⟨e, he⟩ := SubWorkflowExecutor.execute_of_tenantVar
      (tenantVar_stepInput session htenant) libs settings start caller step.config
    refine ⟨.error e, w.env, ?_, Environment.Later.refl _⟩
    rw [he]
    rfl
  · exact hothers caller step session ctx w htenant

theorem nesting_eq (libs : Libraries) (settings : Settings) (others : Runner) (session : SessionRef) (fuel : Nat) :
    ∃ start, nesting libs settings others session fuel =
      nestingWith libs settings others start := by
  cases fuel with
  | zero => exact ⟨_, rfl⟩
  | succ fuel => exact ⟨_, rfl⟩

/-- The executor of a `sub_workflow` step ends with no output. -/
theorem not_yields_subWorkflow {others : Runner} {start : Start} {session : SessionRef}
    {behaviour : Behaviour} {step : StepDefinition} {ctx : Dict String Json}
    (htype : step.type = .subWorkflow) (htenant : Dict.get? ctx "_tenant_id" = none)
    (output : Dict String Json) :
    ¬ Yields (nestingWith libs settings others start) session behaviour step ctx (.ok output) := by
  intro hyields
  obtain ⟨caller, w, -, hrun⟩ := hyields
  obtain ⟨e, he⟩ := SubWorkflowExecutor.execute_of_tenantVar
    (tenantVar_stepInput session htenant) libs settings start caller step.config
  unfold nestingWith at hrun
  rw [htype] at hrun
  simp only at hrun
  rw [he] at hrun
  cases hrun

end

/-! ## What a run says about nested executions -/

/-- The execution has a row with this status. -/
def Ended (w : World) (id : Uuid) (status : ExecutionStatus) : Prop :=
  ∃ e, w.db.view (.execution id) = some e ∧ e.status = status

/-- Between `w` and `w'` the execution `child` was started by a step of
`parent` that is completed in `w'`. -/
def StartedByCompleted (w w' : World) (child parent : Uuid) : Prop :=
  ∃ s row, .started child (some ⟨parent, s⟩) ∈ w.env.since w'.env ∧
    HasRow w'.db.view parent s row ∧ row.status = .completed

/-- What a run from `w` to `w'` says about the nested executions. -/
structure NestedCompleted (libs : Libraries) (settings : Settings) (workflow : Workflow)
    (w w' : World) (result : Except Raised (Uuid × Execution)) : Prop where
  /-- A completed `sub_workflow` step has started an execution that completed. -/
  step : ∀ parsed, parseWorkflowDefinition libs settings
      ⟨workflow.name, workflow.triggerType, workflow.steps⟩ = .ok parsed →
    ∀ step ∈ parsed.steps, step.type = .subWorkflow →
      ∀ row, HasRow w'.db.view w.db.newUuid step.id row → row.status = .completed →
        ∃ child, .started child (some ⟨w.db.newUuid, step.id⟩) ∈ w.env.since w'.env ∧
          Ended w' child .completed
  /-- Below a completed execution, everything started by completed steps has
  completed. -/
  below : ∀ id e, result = .ok (id, e) → e.status = .completed →
    ∀ child, Relation.TransGen (StartedByCompleted w w') child id → Ended w' child .completed
  /-- The bound on the nesting is never met. -/
  bounded : result ≠ .error .outOfFuel

section

variable {libs : Libraries} {settings : Settings} {workflow : Workflow}

/-- What is started in a run with one start is that start. -/
private theorem eq_of_startedByCompleted {w w' : World} {id child above : Uuid}
    {parent : Option Caller} {invs : List Invocation}
    (hlater : w.env.Later (.started id parent :: invs.map .invoked) w'.env)
    (h : StartedByCompleted w w' child above) : child = id := by
  obtain ⟨s, row, hstarted, -⟩ := h
  rw [hlater.since_eq] at hstarted
  simp at hstarted
  exact hstarted.1

/-- A `sub_workflow` step is not completed in a run. -/
theorem Run.status_ne_completed {p : RunPlan} {log : StepLog} {invs : List Invocation} {b : Board}
    {result : Except Raised Unit} (h : Run p log invs b result) {others : Runner}
    {start : Start} (hrunner : p.runner = nestingWith libs settings others start)
    {step : StepDefinition} (hstep : step ∈ p.steps) (htype : step.type = .subWorkflow) :
    (b.row step.id).status ≠ .completed := by
  intro hstatus
  obtain ⟨output, hmem, -⟩ := h.output_of_completed hstep hstatus
  obtain ⟨front, back, hlog⟩ := List.append_of_mem hmem
  have hvisits := h.visits
  rw [hlog] at hvisits
  obtain ⟨step', invs', hid, hvisit, -⟩ := hvisits.visit
  obtain rfl : step' = step := p.accepted.eq_of_id_eq hvisit.mem hstep hid
  have hyields := hvisit.completed output rfl
  rw [hrunner] at hyields
  exact not_yields_subWorkflow htype (tenantId_runContext _ _) output hyields

/-- No run starts a nested execution, and no `sub_workflow` step completes in
it. -/
theorem nestedCompleted_of_quiet {others : Runner} (hothers : others.Quiet) (session : SessionRef)
    (fuel : Nat) (parent : Option Caller) (workflowId : Uuid) (triggerData : Dict String Json)
    (tenantId : Uuid) (replayedFrom : Option Uuid) (depth : Int) (w : World) :
    let ended := (startExecution (nesting libs settings others session fuel) session libs settings
      parent workflowId workflow triggerData tenantId replayedFrom depth).run w
    NestedCompleted libs settings workflow w ended.2 ended.1 := by
  obtain ⟨start, hstart⟩ := nesting_eq libs settings others session fuel
  rw [hstart]
  intro ended
  cases hparse : parseWorkflowDefinition libs settings
      ⟨workflow.name, workflow.triggerType, workflow.steps⟩ with
  | error e =>
    have hended : ended = (.error (.exception e), w) := by
      show Prog.run _ w = _
      unfold startExecution
      rw [hparse]
      rfl
    rw [hended]
    refine ⟨fun parsed hparsed => ?_, fun id e' hresult => ?_, ?_⟩
    · rw [hparse] at hparsed
      cases hparsed
    · cases hresult
    · simp
  | ok parsed =>
    obtain ⟨p, log, invs, b, result, db', env', hrunner, -, -, hsteps, -, hid, -, -, hrun, hlater,
      hshows, h⟩ := run_startExecution (nestingWith_quiet hothers start) hparse session parent
        workflowId triggerData tenantId replayedFrom depth w
    have hended : ended = (result.map (fun _ => (p.ids.id, b.execution)), ⟨db', env'⟩) := hrun
    rw [hended]
    refine ⟨fun parsed' hparsed step hstep htype row hrow hstatus => ?_,
      fun id e hresult hstatus child hchild => ?_, ?_⟩
    · rw [hparse] at hparsed
      obtain rfl := Except.ok.inj hparsed
      obtain ⟨sid, hview, hexecution, hname⟩ := hrow
      rw [← hid] at hexecution
      obtain ⟨step', hstep', rfl⟩ := (h.stepRows hshows).only hview hexecution
      have hcolumns := (h.stepRows hshows).columns step' hstep'
      rw [hcolumns.2.1] at hname
      rw [← hsteps] at hstep
      obtain rfl := p.accepted.eq_of_id_eq hstep' hstep hname
      exact absurd hstatus (h.status_ne_completed hrunner hstep htype)
    · cases result with
      | error e => cases hresult
      | ok value =>
        cases hresult
        -- the only execution started since `w` is the run's own
        have hchild' : child = w.db.newUuid := by
          rcases Relation.TransGen.head'_iff.mp hchild with ⟨above, hstarted, -⟩
          exact eq_of_startedByCompleted hlater hstarted
        refine ⟨b.execution, ?_, hstatus⟩
        rw [hchild', ← hid]
        exact hshows.seen.execution
    · cases h.ends <;> simp [Except.map]

end

/-- Nested executions, with an arbitrary behaviour of the executors of all
other steps: a `sub_workflow` step is completed only over a completed nested
execution, and below a completed execution everything has completed. -/
theorem startExecution_nestedCompleted (libs : Libraries) (settings : Settings)
    (workflow : Workflow) (session : SessionRef) (fuel : Nat) (parent : Option Caller)
    (workflowId : Uuid) (triggerData : Dict String Json) (tenantId : Uuid)
    (replayedFrom : Option Uuid) (depth : Int) (w : World) :
    let ended := (startExecution (nesting libs settings performer session fuel) session libs
      settings parent workflowId workflow triggerData tenantId replayedFrom depth).run w
    NestedCompleted libs settings workflow w ended.2 ended.1 :=
  nestedCompleted_of_quiet performer_quiet session fuel parent workflowId triggerData tenantId
    replayedFrom depth w

/-! ## The bound on the nesting -/

/-- Executions started between `w` and `w'`, each but the first by a step of the
one before it. -/
structure NestedChain (w w' : World) (chain : List Uuid) : Prop where
  started : ∀ id ∈ chain, ∃ parent, .started id parent ∈ w.env.since w'.env
  nested : chain.IsChain (fun parent child =>
    ∃ step, .started child (some ⟨parent, step⟩) ∈ w.env.since w'.env)

/-- A run with quiet executors notes no start but its own. -/
theorem started_of_quiet {libs : Libraries} {settings : Settings} {workflow : Workflow}
    {others : Runner} (hothers : others.Quiet) (session : SessionRef) (fuel : Nat)
    (parent : Option Caller) (workflowId : Uuid) (triggerData : Dict String Json)
    (tenantId : Uuid) (replayedFrom : Option Uuid) (depth : Int) (w : World) {id : Uuid}
    {above : Option Caller}
    (h : .started id above ∈ w.env.since ((startExecution (nesting libs settings others session fuel)
      session libs settings parent workflowId workflow triggerData tenantId replayedFrom
      depth).run w).2.env) : above = parent := by
  rcases nesting_eq libs settings others session fuel with ⟨start, hstart⟩
  rw [hstart] at h
  cases hparse : parseWorkflowDefinition libs settings
      ⟨workflow.name, workflow.triggerType, workflow.steps⟩ with
  | error e =>
    unfold startExecution at h
    rw [hparse] at h
    change .started id above ∈ w.env.since w.env at h
    rw [(Environment.Later.refl w.env).since_eq] at h
    cases h
  | ok parsed =>
    rcases run_startExecution (nestingWith_quiet hothers start) hparse session parent workflowId
      triggerData tenantId replayedFrom depth w with
      ⟨p, log, invs, b, result, db', env', -, -, -, -, -, -, -, -, hrun, hlater, -, -⟩
    rw [hrun] at h
    rw [hlater.since_eq] at h
    simp at h
    exact h.2

/-- Executions nest no deeper than the limit, and every run of an execution
ends: whatever the workflows refer to and however the other executors behave,
the bound of the model on the nesting is never met. -/
theorem startExecution_nesting_bounded (libs : Libraries) (settings : Settings)
    (workflow : Workflow) (session : SessionRef) (fuel : Nat) (workflowId : Uuid)
    (triggerData : Dict String Json) (tenantId : Uuid) (replayedFrom : Option Uuid) (w : World) :
    let ended := (startExecution (nesting libs settings performer session fuel) session libs
      settings none workflowId workflow triggerData tenantId replayedFrom 0).run w
    ended.1 ≠ .error .outOfFuel ∧
      ∀ chain, NestedChain w ended.2 chain →
        (chain.length : Int) ≤ max settings.maxSubWorkflowDepth 0 + 1 := by
  intro ended
  refine ⟨(startExecution_nestedCompleted libs settings workflow session fuel none workflowId
    triggerData tenantId replayedFrom 0 w).bounded, fun chain hchain => ?_⟩
  have hlength : chain.length ≤ 1 := by
    match chain, hchain.nested with
    | [], _ => exact Nat.zero_le 1
    | [_], _ => exact Nat.le_refl 1
    | _ :: _ :: _, .cons_cons hstarted _ =>
      -- a start by a step is not the start of the run
      rcases hstarted with ⟨step, hstarted⟩
      have hnone := started_of_quiet performer_quiet session fuel none workflowId triggerData
        tenantId replayedFrom 0 w hstarted
      cases hnone
  omega

end WorkflowEngine

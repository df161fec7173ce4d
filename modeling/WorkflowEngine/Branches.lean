import WorkflowEngine.Dependencies
import WorkflowEngine.Outcome
import WorkflowEngine.Route

/-!
# When the non-taken branch never executes

A branch can list a step that stands before the condition step in the
topological order.  Such a step has run already when the condition is
evaluated, and nothing takes that back.  The branch that is not taken never
executes exactly if no route executes a step and then a condition step that
lists it in the branch not taken only.
-/

namespace WorkflowEngine

open Py Orm Interact SkipWalk

/-- The branch that a condition step with this output takes. -/
def takenBranch (step : StepDefinition) (output : Dict String Json) : Json :=
  branchOf step (conditionResult (some output))

/-- In a run from `w` to `w'`, no executor was invoked for a step that a
completed condition step lists in the branch not taken only. -/
def NonTakenNeverRuns (steps : List StepDefinition) (w w' : World) : Prop :=
  ∀ step ∈ steps, step.type = .condition → ∀ row output,
    HasRow w'.db.view w.db.newUuid step.id row → row.status = .completed →
    row.outputData = some output → ∀ s, Lists (nonTakenBranch step output) s →
    ¬ Lists (takenBranch step output) s →
    ∀ inv, Invokes w w' inv → inv.caller ≠ ⟨w.db.newUuid, s⟩

/-- In every run of the workflow, the branch that is not taken never executes. -/
def NonTakenNeverExecutes (libs : Libraries) (settings : Settings) (workflow : Workflow)
    (steps : List StepDefinition) : Prop :=
  ∀ (session : SessionRef) (parent : Option Caller) (workflowId : Uuid)
    (triggerData : Dict String Json) (tenantId : Uuid) (replayedFrom : Option Uuid) (depth : Int)
    (w : World), NonTakenNeverRuns steps w ((startExecution performer session libs settings parent
      workflowId workflow triggerData tenantId replayedFrom depth).run w).2

/-- No route executes a step and then, or with it, a condition step that lists
it in the branch not taken only. -/
def BranchesAhead (steps : List StepDefinition) : Prop :=
  ∀ choice, ∀ step ∈ steps, step.type = .condition → Executes steps choice step.id →
    ∀ pre post, topologicalSort steps = pre ++ step.id :: post →
    ∀ s ∈ pre ++ [step.id], Executes steps choice s →
    Lists (branchOf step (!choice step.id)) s → Lists (branchOf step (choice step.id)) s

section

variable {p : RunPlan} {log : StepLog} {invs : List Invocation} {b : Board}
  {result : Except Raised Unit} {db : Db}

/-- The row of a step is a row of the database. -/
theorem Run.hasRow (hshows : Shows p.ids db b) (h : Run p log invs b result)
    {step : StepDefinition} (hstep : step ∈ p.steps) :
    HasRow db.view p.ids.id step.id (b.row step.id) := by
  obtain ⟨sid, hs⟩ := p.mapped step hstep
  have hfits := h.follows.rows step hstep
  exact ⟨sid, hshows.seen.step hs, hfits.executionId, hfits.stepId⟩

/-- The only row of a step in the database is the one on the board. -/
theorem Run.eq_of_hasRow (hshows : Shows p.ids db b) (h : Run p log invs b result)
    {step : StepDefinition} {row : StepExecution}
    (hrow : HasRow db.view p.ids.id step.id row) : row = b.row step.id := by
  obtain ⟨sid, hview, hexecution, hid⟩ := hrow
  obtain ⟨step', hstep', rfl⟩ := (h.stepRows hshows).only hview hexecution
  rw [(h.follows.rows step' hstep').stepId] at hid
  rw [hid]

/-- A run over branches that lie ahead invokes no executor of a branch not
taken. -/
theorem Run.nonTaken (h : Run p log invs b result)
    (hahead : BranchesAhead p.steps) {step : StepDefinition} (hstep : step ∈ p.steps)
    (hcondition : step.type = .condition) {output : Dict String Json}
    (hstatus : (b.row step.id).status = .completed)
    (houtput : (b.row step.id).outputData = some output) {s : String}
    (hlists : Lists (nonTakenBranch step output) s) (hnot : ¬ Lists (takenBranch step output) s)
    {inv : Invocation} (hinv : inv ∈ invs) : inv.caller ≠ ⟨p.ids.id, s⟩ := by
  intro hcaller
  obtain ⟨pre, other, ending, post, hlog, hother, hran, b', -, -, hinvoked⟩ :=
    h.visits.moment hinv
  rw [List.nil_append] at hlog
  rw [hinvoked.caller] at hcaller
  obtain rfl : other.id = s := congrArg Caller.step hcaller
  obtain ⟨output', hcompleted, houtput'⟩ := h.output_of_completed hstep hstatus
  rw [houtput] at houtput'
  obtain rfl := Option.some.inj houtput'
  have hagrees := agrees_choiceOf h.keys_nodup
  have hchoice := hagrees step.id output hcompleted
  have hotherMem : (other.id, ending) ∈ log := by simp [hlog]
  by_cases hbefore : (step.id, Ending.completed output) ∈ pre
  · -- The condition step completed before: it has dropped the step.
    obtain ⟨-, hsettles⟩ := h.front_settled hlog
    obtain ⟨members, hset⟩ := hsettles _ hbefore step hstep rfl hcondition output rfl
    obtain ⟨items, hitems, hmem⟩ := hlists
    have hdrops : other.id ∈ branchDrops p.steps step.id output := by
      rw [branchDrops_step hstep, if_pos hcondition, hset]
      rw [hitems] at hset
      exact (mem_branchSet hset).mpr ⟨items, rfl, hmem⟩
    have hwalk : Walk (branchDrops p.steps) (pre ++ (other.id, ending) :: post) := hlog ▸ h.walk
    exact hran (hwalk.skipped_iff.mpr (mem_dropped.mpr ⟨step.id, output, hbefore, hdrops⟩))
  · -- The step ran before the condition step, or it is the condition step.
    obtain ⟨later, horder⟩ := h.order
    have hposition : ∃ front back, topologicalSort p.steps = front ++ step.id :: back ∧
        other.id ∈ front ++ [step.id] := by
      rw [hlog, List.mem_append, List.mem_cons] at hcompleted
      rcases hcompleted with hpre | hself | hpost
      · exact absurd hpre hbefore
      · have hid : step.id = other.id := congrArg Prod.fst hself
        refine ⟨Dict.keys pre, Dict.keys post ++ later, ?_, by simp [hid]⟩
        simp [horder, hlog, Dict.keys, hid]
      · obtain ⟨mid, back, rfl⟩ := List.append_of_mem hpost
        refine ⟨Dict.keys (pre ++ (other.id, ending) :: mid), Dict.keys back ++ later, ?_,
          by simp [Dict.keys]⟩
        simp [horder, hlog, Dict.keys]
    obtain ⟨front, back, hsplit, hmem⟩ := hposition
    have htaken := hahead (choiceOf log) step hstep hcondition
      (h.executes hcompleted (by simp) hagrees) front back hsplit other.id hmem
      (h.executes hotherMem hran hagrees)
    rw [hchoice] at htaken
    exact hnot (htaken hlists)

end

section

variable {libs : Libraries} {settings : Settings} {workflow : Workflow}
  {parsed : WorkflowDefinition}

/-- The non-taken branch never executes, if and only if on every route the
steps of the branches not taken lie ahead. -/
theorem nonTakenNeverExecutes_iff
    (hparse : parseWorkflowDefinition libs settings
      ⟨workflow.name, workflow.triggerType, workflow.steps⟩ = .ok parsed) :
    NonTakenNeverExecutes libs settings workflow parsed.steps ↔ BranchesAhead parsed.steps := by
  constructor
  · intro hnever choice step hstep hcondition hexecutes pre post _ s _ hexecutes' hlists
    let w := plainWorld (steer choice)
    have hruns := hnever 0 none 0 [] 0 none 0 w
    obtain ⟨p, log, invs, b, result, db', env', hrunner, -, hbehaviour, hsteps, -, hid, -, -,
      hrun, hlater, hshows, h⟩ := run_startExecution performer_quiet hparse 0 none 0 [] 0 none 0 w
    rw [hrun] at hruns
    rw [← hsteps] at hruns hstep hexecutes hexecutes'
    have hcompleted := h.completed_of_executes hrunner hbehaviour hexecutes
    obtain ⟨_, _, _, hfits⟩ := h.fits_of_mem hcompleted
    obtain ⟨hstatus, houtput⟩ := hfits.status
    by_contra hnot
    -- The step has run, so its executor was invoked.
    obtain ⟨mid, back, hlog⟩ :=
      List.append_of_mem (h.completed_of_executes hrunner hbehaviour hexecutes')
    have hvisits : Visits p [] (mid ++ _ :: back) invs := hlog ▸ h.visits
    obtain ⟨other, invs', rfl, hvisit, hsub⟩ := hvisits.visit
    obtain ⟨inv, rest, hinvs⟩ := List.exists_cons_of_ne_nil (hvisit.ran.mp (by simp))
    have hinv : inv ∈ invs' := by simp [hinvs]
    obtain ⟨b', -, -, hinvoked⟩ := hvisit.moment inv hinv
    have hresult := conditionResult_steer (choice step.id)
    refine hruns step hstep hcondition _ _ (hid ▸ h.hasRow hshows hstep) hstatus houtput other.id
      ?_ ?_ inv ((invokes_iff hlater).mpr (hsub hinv)) (hid ▸ hinvoked.caller)
    · rwa [nonTakenBranch, hresult]
    · rwa [takenBranch, hresult]
  · intro hahead session parent workflowId triggerData tenantId replayedFrom depth w
    obtain ⟨p, log, invs, b, result, db', env', -, -, -, hsteps, -, hid, -, -, hrun, hlater,
      hshows, h⟩ := run_startExecution performer_quiet hparse session parent workflowId triggerData tenantId
        replayedFrom depth w
    rw [hrun]
    intro step hstep hcondition row output hrow hstatus houtput s hlists hnot inv hinv
    rw [← hsteps] at hahead hstep
    rw [← hid] at hrow ⊢
    obtain rfl := h.eq_of_hasRow hshows hrow
    exact h.nonTaken hahead hstep hcondition hstatus houtput hlists hnot
      ((invokes_iff hlater).mp hinv)

end

/-- A step, and a condition step that lists it but stands behind it. -/
def lateConditionWorkflow : Workflow :=
  plainWorkflow [rawStep "notify" .transform [("expression", .str "a")] [],
    rawStep "check" .condition
      [("expression", .str "true"), ("false_branch", .arr [.str "notify"])] []]

/-- Its steps. -/
def lateConditionSteps : List StepDefinition :=
  [plainStep "notify" .transform [("expression", .str "a")] [] (by decide),
    plainStep "check" .condition
      [("expression", .str "true"), ("false_branch", .arr [.str "notify"])] [] check_length]

/-- What the parser makes of it. -/
def lateConditionParsed : WorkflowDefinition :=
  ⟨"workflow", "manual", lateConditionSteps, [("notify", []), ("check", [])]⟩

/-- The equivalence on the workflow with the late condition. -/
theorem nonTakenNeverExecutes_iff_lateCondition :
    NonTakenNeverExecutes plainLibraries {} lateConditionWorkflow lateConditionSteps ↔
      BranchesAhead lateConditionSteps := by
  have hparse : parseWorkflowDefinition plainLibraries {} ⟨lateConditionWorkflow.name,
      lateConditionWorkflow.triggerType, lateConditionWorkflow.steps⟩ =
      .ok lateConditionParsed := rfl
  exact nonTakenNeverExecutes_iff hparse

/-- The condition is true, so `notify` is in the branch not taken, but its
executor was invoked before. -/
theorem not_nonTakenNeverExecutes_lateCondition :
    parseWorkflowDefinition plainLibraries {} ⟨lateConditionWorkflow.name,
      lateConditionWorkflow.triggerType, lateConditionWorkflow.steps⟩ = .ok lateConditionParsed ∧
    ¬ NonTakenNeverExecutes plainLibraries {} lateConditionWorkflow lateConditionSteps := by
  refine ⟨rfl, fun h => ?_⟩
  let w := plainWorld (steer (fun _ => true))
  let w' := ((startExecution performer 0 plainLibraries {} none 0 lateConditionWorkflow [] 0 none
    0).run w).2
  have hid : w.db.newUuid = 1 := rfl
  have hinvoked : ⟨1, "notify"⟩ ∈ invokedCallers (w.env.since w'.env) := by decide +kernel
  obtain ⟨inv, hinv, hcaller⟩ := mem_invokedCallers.mp hinvoked
  have hrow : (w'.db.view (.step 3)).any (fun row => row.executionId = 1 ∧ row.stepId = "check" ∧
      row.status = .completed ∧ row.outputData.isSome ∧ conditionResult row.outputData) = true := by
    decide +kernel
  obtain ⟨row, hview, hrow⟩ := (Option.any_eq_true _ _).mp hrow
  obtain ⟨hexecution, hstep, hstatus, hsome, hresult⟩ := of_decide_eq_true hrow
  obtain ⟨output, houtput⟩ := Option.isSome_iff_exists.mp hsome
  rw [houtput] at hresult
  have hruns : NonTakenNeverRuns lateConditionSteps w w' := h 0 none 0 [] 0 none 0 w
  clear_value w' w
  have hcheck := hruns _ (List.mem_cons_of_mem _ List.mem_cons_self) rfl row output
    ⟨3, hview, hexecution.trans hid.symm, hstep⟩ hstatus houtput "notify"
  refine hcheck ?_ ?_ inv hinv (hcaller.trans (by rw [hid]))
  · rw [nonTakenBranch, hresult]
    exact ⟨_, rfl, List.mem_cons_self⟩
  · rw [takenBranch, hresult]
    rintro ⟨items, hitems, hmem⟩
    cases hitems
    simp at hmem

end WorkflowEngine

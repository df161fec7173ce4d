import WorkflowEngine.Branches

/-!
# Steps below skipped steps

A branch may be a chain of steps of which the condition lists only the first.  The
others depend on it, and with it skipped nothing is left that they could wait for.
`_execute_dag` looks at the listed steps alone, so such a step is executed.

The law that a step below skipped steps is skipped holds for a workflow exactly if
no route executes a step all of whose dependencies it skips.
-/

namespace WorkflowEngine

open Py Orm Interact SkipWalk

/-- In a run from `w` to `w'`, a step whose dependencies were all skipped was not
executed, and is skipped where the walk has reached it. -/
def OrphansSkipped (steps : List StepDefinition) (w w' : World) : Prop :=
  ∀ step ∈ steps, step.dependsOn ≠ [] →
    (∀ d ∈ step.dependsOn, ∃ row, HasRow w'.db.view w.db.newUuid d row ∧ row.status = .skipped) →
    (∀ inv, Invokes w w' inv → inv.caller ≠ ⟨w.db.newUuid, step.id⟩) ∧
      ∀ row, HasRow w'.db.view w.db.newUuid step.id row → row.status ≠ .pending →
        row.status = .skipped

/-- In every run of the workflow, steps below skipped steps are skipped. -/
def OrphansAlwaysSkipped (libs : Libraries) (settings : Settings) (workflow : Workflow)
    (steps : List StepDefinition) : Prop :=
  ∀ (session : SessionRef) (parent : Option Caller) (workflowId : Uuid)
    (triggerData : Dict String Json) (tenantId : Uuid) (replayedFrom : Option Uuid) (depth : Int)
    (w : World), OrphansSkipped steps w ((startExecution performer session libs settings parent
      workflowId workflow triggerData tenantId replayedFrom depth).run w).2

/-- No route executes a step all of whose dependencies it skips. -/
def SkipsPropagate (steps : List StepDefinition) : Prop :=
  ∀ choice, ∀ step ∈ steps, step.dependsOn ≠ [] →
    (∀ d ∈ step.dependsOn, (d, false) ∈ route steps choice) → ¬ Executes steps choice step.id

section

variable {p : RunPlan} {log : StepLog} {invs : List Invocation} {b : Board}
  {result : Except Raised Unit} {choice : String → Bool}

/-- A step that a run skips is skipped by the route of its results. -/
theorem Run.skips (h : Run p log invs b result) {s : String} (hmem : (s, .skipped) ∈ log)
    (hagrees : Agrees choice log) : (s, false) ∈ route p.steps choice := by
  rcases List.append_of_mem hmem with ⟨front, back, hlog⟩
  rcases h.front_settled hlog with ⟨halive, hsettles⟩
  rcases h.route_eq hlog halive hsettles
    (fun s' output hs' => hagrees s' output (by simp [hlog, hs'])) with ⟨later, -, hroute⟩
  have hdropped : s ∈ dropped (branchDrops p.steps) front := (hlog ▸ h.walk).skipped_iff.mp rfl
  have hkeys : Dict.keys ((s, Ending.skipped) :: back) ++ later =
      s :: (Dict.keys back ++ later) := rfl
  rw [hroute, hkeys, routeFrom, if_pos hdropped]
  exact List.mem_append_right _ List.mem_cons_self

/-- In a steered run, the steps that the route skips are skipped. -/
theorem Run.skipped_of_route (h : Run p log invs b result) (hrunner : p.runner = performer)
    (hbehaviour : p.behaviour = steer choice) {s : String} (hs : (s, false) ∈ route p.steps choice) :
    (s, .skipped) ∈ log := by
  rw [h.route_steered hrunner hbehaviour] at hs
  rcases List.mem_map.mp hs with ⟨⟨s', ending⟩, hmem, heq⟩
  cases ending with
  | skipped =>
    have hid : s' = s := congrArg Prod.fst heq
    rwa [hid] at hmem
  | completed output => cases congrArg Prod.snd heq
  | failed => cases congrArg Prod.snd heq

/-- A step that is no longer pending was visited, and is skipped if the visit has
skipped it. -/
theorem Run.ending_of_status (h : Run p log invs b result) {step : StepDefinition}
    (hstep : step ∈ p.steps) (hpending : (b.row step.id).status ≠ .pending) :
    ∃ ending, (step.id, ending) ∈ log ∧
      ((b.row step.id).status = .skipped ↔ ending = .skipped) := by
  have hvisited : step.id ∈ Dict.keys log := by
    by_contra hnot
    exact hpending (h.pending_of_not_mem hstep hnot)
  rcases List.mem_map.mp hvisited with ⟨⟨s, ending⟩, hmem, hs⟩
  have hid : s = step.id := hs
  subst hid
  refine ⟨ending, hmem, ?_⟩
  rw [h.status_of_mem hmem]
  cases ending <;> simp

end

section

variable {libs : Libraries} {settings : Settings} {workflow : Workflow}
  {parsed : WorkflowDefinition}

/-- Steps below skipped steps are always skipped, if and only if no route executes
one of them. -/
theorem orphansAlwaysSkipped_iff
    (hparse : parseWorkflowDefinition libs settings
      ⟨workflow.name, workflow.triggerType, workflow.steps⟩ = .ok parsed) :
    OrphansAlwaysSkipped libs settings workflow parsed.steps ↔ SkipsPropagate parsed.steps := by
  constructor
  · intro halways choice step hstep hdeps hskips hexecutes
    let w := plainWorld (steer choice)
    have horphans := halways 0 none 0 [] 0 none 0 w
    rcases run_startExecution performer_quiet hparse 0 none 0 [] 0 none 0 w with
      ⟨p, log, invs, b, result, db', env', hrunner, -, hbehaviour, hsteps, -, hid, -, -, hrun, hlater,
        hshows, h⟩
    rw [hrun, ← hsteps] at horphans
    rw [← hsteps] at hstep hskips hexecutes
    have hstatus : ∀ d ∈ step.dependsOn, ∃ row, HasRow db'.view w.db.newUuid d row ∧
        row.status = .skipped := by
      intro d hd
      rcases h.fits_of_mem (h.skipped_of_route hrunner hbehaviour (hskips d hd)) with
        ⟨other, hother, rfl, hfits⟩
      exact ⟨_, hid ▸ h.hasRow hshows hother, hfits.status⟩
    -- the step is executed, so its executor was invoked
    rcases List.append_of_mem (h.completed_of_executes hrunner hbehaviour hexecutes) with
      ⟨mid, back, hlog⟩
    have hvisits : Visits p [] (mid ++ _ :: back) invs := hlog ▸ h.visits
    rcases hvisits.visit with ⟨other, invs', hother, hvisit, hsub⟩
    rcases List.exists_cons_of_ne_nil (hvisit.ran.mp (by simp)) with ⟨inv, rest, hinvs⟩
    have hinv : inv ∈ invs' := by simp [hinvs]
    rcases hvisit.moment inv hinv with ⟨b', -, -, hinvoked⟩
    refine (horphans step hstep hdeps hstatus).1 inv ((invokes_iff hlater).mpr (hsub hinv)) ?_
    rw [hinvoked.caller, hid, hother]
  · intro hpropagate session parent workflowId triggerData tenantId replayedFrom depth w
    rcases run_startExecution performer_quiet hparse session parent workflowId triggerData tenantId
      replayedFrom depth w with
      ⟨p, log, invs, b, result, db', env', -, -, -, hsteps, -, hid, -, -, hrun, hlater, hshows, h⟩
    rw [hrun]
    intro step hstep hdeps hskipped
    rw [← hsteps] at hpropagate hstep
    rw [← hid] at hskipped ⊢
    have hagrees := agrees_choiceOf h.keys_nodup
    have hroute : ∀ d ∈ step.dependsOn, (d, false) ∈ route p.steps (choiceOf log) := by
      intro d hd
      rcases hskipped d hd with ⟨row, hrow, hstatus⟩
      rcases List.mem_map.mp (p.accepted.dependsOn_subset step hstep hd) with ⟨other, hother, rfl⟩
      rw [h.eq_of_hasRow hshows hrow] at hstatus
      rcases h.ending_of_status hother (by simp [hstatus]) with ⟨ending, hmem, hending⟩
      rw [hending.mp hstatus] at hmem
      exact h.skips hmem hagrees
    have hnot := hpropagate (choiceOf log) step hstep hdeps hroute
    refine ⟨fun inv hinv hcaller => ?_, fun row hrow hpending => ?_⟩
    · rcases h.visits.moment ((invokes_iff hlater).mp hinv) with
        ⟨pre, other, ending, post, hlog, hother, hran, b', -, -, hinvoked⟩
      rw [hinvoked.caller] at hcaller
      have hsame : other.id = step.id := congrArg Caller.step hcaller
      have hmem : (step.id, ending) ∈ log := by
        rw [← hsame, ← List.nil_append log, hlog]
        simp
      exact hnot (h.executes hmem hran hagrees)
    · rw [h.eq_of_hasRow hshows hrow] at hpending ⊢
      rcases h.ending_of_status hstep hpending with ⟨ending, hmem, hending⟩
      rw [hending]
      by_contra hran
      exact hnot (h.executes hmem hran hagrees)

end

/-- A condition whose false branch is a chain of two steps, of which it lists the
first. -/
def chainedBranchWorkflow : Workflow :=
  plainWorkflow [rawStep "check" .condition
      [("expression", .str "true"), ("false_branch", .arr [.str "warn"])] [],
    rawStep "warn" .transform [("expression", .str "a")] ["check"],
    rawStep "retry" .transform [("expression", .str "b")] ["warn"]]

/-- Its steps. -/
def chainedBranchSteps : List StepDefinition :=
  [plainStep "check" .condition
      [("expression", .str "true"), ("false_branch", .arr [.str "warn"])] [] check_length,
    plainStep "warn" .transform [("expression", .str "a")] ["check"] (by decide),
    plainStep "retry" .transform [("expression", .str "b")] ["warn"] (by decide)]

/-- What the parser makes of it. -/
def chainedBranchParsed : WorkflowDefinition :=
  ⟨"workflow", "manual", chainedBranchSteps, [("check", []), ("warn", ["check"]),
    ("retry", ["warn"])]⟩

theorem parse_chainedBranch : parseWorkflowDefinition plainLibraries {}
    ⟨chainedBranchWorkflow.name, chainedBranchWorkflow.triggerType, chainedBranchWorkflow.steps⟩ =
      .ok chainedBranchParsed := rfl

/-- The equivalence on this workflow. -/
theorem orphansAlwaysSkipped_iff_chainedBranch :
    OrphansAlwaysSkipped plainLibraries {} chainedBranchWorkflow chainedBranchSteps ↔
      SkipsPropagate chainedBranchSteps := orphansAlwaysSkipped_iff parse_chainedBranch

/-- The condition is true, so `warn` is skipped, and `retry`, which depends on
`warn` alone, is executed. -/
theorem not_orphansAlwaysSkipped_chainedBranch :
    parseWorkflowDefinition plainLibraries {} ⟨chainedBranchWorkflow.name,
      chainedBranchWorkflow.triggerType, chainedBranchWorkflow.steps⟩ = .ok chainedBranchParsed ∧
    ¬ OrphansAlwaysSkipped plainLibraries {} chainedBranchWorkflow chainedBranchSteps := by
  refine ⟨rfl, fun halways => ?_⟩
  let w := plainWorld (steer (fun _ => true))
  let w' := ((startExecution performer 0 plainLibraries {} none 0 chainedBranchWorkflow [] 0 none
    0).run w).2
  have hid : w.db.newUuid = 1 := rfl
  have hinvoked : ⟨1, "retry"⟩ ∈ invokedCallers (w.env.since w'.env) := by decide +kernel
  rcases mem_invokedCallers.mp hinvoked with ⟨inv, hinv, hcaller⟩
  have hwarn : (w'.db.view (.step 3)).any (fun row => row.executionId = 1 ∧ row.stepId = "warn" ∧
      row.status = .skipped) = true := by
    decide +kernel
  rcases (Option.any_eq_true _ _).mp hwarn with ⟨row, hview, hrow⟩
  rcases of_decide_eq_true hrow with ⟨hexecution, hstep, hstatus⟩
  have horphans : OrphansSkipped chainedBranchSteps w w' := halways 0 none 0 [] 0 none 0 w
  clear_value w' w
  have hretry : plainStep "retry" .transform [("expression", .str "b")] ["warn"] (by decide) ∈
      chainedBranchSteps := by
    simp [chainedBranchSteps]
  refine (horphans _ hretry (by simp [plainStep]) ?_).1 inv hinv (hcaller.trans (by rw [hid]; rfl))
  intro d hd
  cases List.mem_singleton.mp hd
  exact ⟨row, ⟨3, hview, hexecution.trans hid.symm, hstep⟩, hstatus⟩

end WorkflowEngine

import WorkflowEngine.Plain
import WorkflowEngine.Run

/-!
# Dependencies are settled before a step runs

At every executor invocation, each dependency of the step has completed or was
skipped, the output of a completed dependency is in the input of the executor,
and no other step of the execution is in flight.
-/

namespace WorkflowEngine

open Py Orm Interact SkipWalk

/-- `step_input["steps"][d]["output"]`. -/
def inputOutput (input : Vars) (d : String) : Option Json :=
  match Dict.get? input "steps" with
  | some (.json (.obj steps)) =>
    match Dict.get? steps d with
    | some (.obj entry) => Dict.get? entry "output"
    | _ => none
  | _ => none

/-- A row of the step in the execution, in a view of the database. -/
def HasRow (view : (k : RowId) → Option (Row k)) (execution : Uuid) (s : String)
    (row : StepExecution) : Prop :=
  ∃ sid, view (.step sid) = some row ∧ row.executionId = execution ∧ row.stepId = s

/-- What holds when the executor of `step` is invoked. -/
structure DependenciesSettled (execution : Uuid) (step : StepDefinition) (inv : Invocation) :
    Prop where
  present : ∀ d ∈ step.dependsOn, ∃ row, HasRow inv.view execution d row
  settled : ∀ d ∈ step.dependsOn, ∀ row, HasRow inv.view execution d row →
    row.status = .completed ∨ row.status = .skipped
  output : ∀ d ∈ step.dependsOn, ∀ row, HasRow inv.view execution d row →
    row.status = .completed → ∃ output, row.outputData = some output ∧
      inputOutput inv.call.input d = some (.obj output)
  alone : ∀ s row, HasRow inv.view execution s row → s ≠ step.id →
    row.status ≠ .running ∧ row.status ≠ .queued

section

variable {p : RunPlan} {log : StepLog} {invs : List Invocation} {b : Board}
  {result : Except Raised Unit}

/-- The rows of the other steps, at an invocation, are those of the walk. -/
theorem Moment.rows {front : StepLog} {step : StepDefinition} {inv : Invocation}
    (h : Moment p front step inv) :
    (∀ other ∈ p.steps, other.id ≠ step.id → ∃ row, HasRow inv.view p.ids.id other.id row) ∧
    ∀ s row, HasRow inv.view p.ids.id s row → s ≠ step.id →
      ∃ other ∈ p.steps, other.id = s ∧ Fits p.ids.id other (Dict.get? front s) row := by
  obtain ⟨b, hfollows, -, hinvoked⟩ := h
  obtain ⟨running, -, hsame, hseen⟩ := hinvoked.seen
  constructor
  · intro other hother hne
    obtain ⟨sid, hs⟩ := p.mapped other hother
    have hfits := hfollows.rows other hother
    refine ⟨b.row other.id, sid, ?_, hfits.executionId, hfits.stepId⟩
    rw [hseen.step hs, Board.setRow_row_ne _ _ hne]
  · rintro s row ⟨sid, hview, hexecution, hstep⟩ hne
    obtain ⟨s', hs'⟩ := hseen.only hview hexecution
    obtain ⟨other, hother, rfl⟩ := List.mem_map.mp (p.mapped_only hs')
    have hfits := hfollows.rows other hother
    rw [hseen.step hs'] at hview
    obtain rfl := Option.some.inj hview
    by_cases hself : other.id = step.id
    · rw [hself, Board.setRow_row_self, hsame.2.1, ← hself, hfits.stepId, hself] at hstep
      exact absurd hstep.symm hne
    · rw [Board.setRow_row_ne _ _ hself] at hstep ⊢
      rw [hfits.stepId] at hstep
      subst hstep
      exact ⟨other, hother, rfl, hfits⟩

/-- Every invocation of a run finds the dependencies of its step settled. -/
theorem Run.dependenciesSettled (h : Run p log invs b result) {inv : Invocation}
    (hinv : inv ∈ invs) :
    ∃ step ∈ p.steps, inv.caller = ⟨p.ids.id, step.id⟩ ∧ inv.call.step = step ∧
      DependenciesSettled p.ids.id step inv := by
  obtain ⟨pre, step, ending, post, hlog, hstep, -, hmoment⟩ := h.visits.moment hinv
  rw [List.nil_append] at hlog
  obtain ⟨later, hsplit⟩ := h.order_split hlog
  have hbefore : step.dependsOn ⊆ Dict.keys pre := p.accepted.dependsOn_before hstep hsplit
  have hself : step.id ∉ Dict.keys pre := by
    have hnodup := p.accepted.order_nodup
    rw [hsplit, List.nodup_append] at hnodup
    exact fun hmem => hnodup.2.2 step.id hmem step.id (by simp) rfl
  have hwalk : Walk (branchDrops p.steps) (pre ++ [(step.id, ending)]) := by
    have hwhole : Walk (branchDrops p.steps) ((pre ++ [(step.id, ending)]) ++ post) := by
      simpa [← hlog] using h.walk
    exact hwhole.of_append
  have hprekeys : (Dict.keys pre).Nodup := Dict.nodup_keys_front hlog h.keys_nodup
  obtain ⟨hpresent, hrows⟩ := hmoment.rows
  have hcases : ∀ d ∈ step.dependsOn, ∀ row, HasRow inv.view p.ids.id d row →
      ∃ ending, (d, ending) ∈ pre ∧ ending ≠ .failed ∧
        ∃ other, Fits p.ids.id other (some ending) row := by
    intro d hd row hrow
    obtain ⟨⟨s, e⟩, hmem, hs⟩ := List.mem_map.mp (hbefore hd)
    obtain rfl : s = d := hs
    have hne : s ≠ step.id := fun heq => hself (heq ▸ hbefore hd)
    obtain ⟨other, -, -, hfits⟩ := hrows s row hrow hne
    rw [Dict.get?_of_mem hprekeys hmem] at hfits
    exact ⟨e, hmem, hwalk.alive_front _ hmem, other, hfits⟩
  have hcall : inv.caller = ⟨p.ids.id, step.id⟩ ∧ inv.call.step = step := by
    obtain ⟨b', -, -, hinvoked⟩ := hmoment
    exact ⟨hinvoked.caller, by rw [hinvoked.call]⟩
  refine ⟨step, hstep, hcall.1, hcall.2, fun d hd => ?_, fun d hd row hrow => ?_,
    fun d hd row hrow hstatus => ?_, fun s row hrow hne => ?_⟩
  · obtain ⟨other, hother, rfl⟩ := List.mem_map.mp (p.accepted.dependsOn_subset step hstep hd)
    exact hpresent other hother (fun heq => hself (heq ▸ hbefore hd))
  · obtain ⟨ending, -, halive, other, hfits⟩ := hcases d hd row hrow
    have hstatus := hfits.status
    cases ending with
    | completed output => exact .inl hstatus.1
    | skipped => exact .inr hstatus
    | failed => exact absurd rfl halive
  · obtain ⟨ending, hmem, -, other, hfits⟩ := hcases d hd row hrow
    have hfit := hfits.status
    cases ending with
    | completed output =>
      have hentry : (d, stepEntry output) ∈ entries pre :=
        List.mem_map.mpr ⟨(d, output), mem_outputs.mpr hmem, rfl⟩
      have hnodup : (Dict.keys (entries pre)).Nodup := by
        rw [keys_entries]
        exact (keys_outputs_sublist pre).nodup hprekeys
      refine ⟨output, hfit.2, ?_⟩
      rw [inputOutput, hmoment.input_eq]
      simp only [Dict.get?_cons, if_true, Dict.get?_of_mem hnodup hentry, stepEntry]
    | skipped => simp [hstatus] at hfit
    | failed => simp [hstatus] at hfit
  · obtain ⟨other, -, -, hfits⟩ := hrows s row hrow hne
    have hstatus := hfits.status
    cases hget : Dict.get? pre s with
    | none => simp_all
    | some ending =>
      rw [hget] at hstatus
      cases ending <;> simp_all

end

/-- In every run of an accepted workflow, every executor invocation is one of a
step of the execution whose dependencies are settled. -/
theorem startExecution_dependencies {libs : Libraries} {settings : Settings} {workflow : Workflow}
    {parsed : WorkflowDefinition}
    (hparse : parseWorkflowDefinition libs settings
      ⟨workflow.name, workflow.triggerType, workflow.steps⟩ = .ok parsed)
    (session : SessionRef) (parent : Option Caller) (workflowId : Uuid)
    (triggerData : Dict String Json) (tenantId : Uuid) (replayedFrom : Option Uuid) (depth : Int)
    (w : World) (inv : Invocation)
    (hinv : Invokes w ((startExecution performer session libs settings parent workflowId workflow
      triggerData tenantId replayedFrom depth).run w).2 inv) :
    ∃ step ∈ parsed.steps, inv.caller = ⟨w.db.newUuid, step.id⟩ ∧ inv.call.step = step ∧
      DependenciesSettled w.db.newUuid step inv := by
  obtain ⟨p, log, invs, b, result, db', env', -, -, -, hsteps, -, hid, -, -, hrun, hlater, -, h⟩ :=
    run_startExecution performer_quiet hparse session parent workflowId triggerData tenantId
      replayedFrom depth w
  rw [hrun] at hinv
  rw [← hsteps, ← hid]
  exact h.dependenciesSettled ((invokes_iff hlater).mp hinv)

/-- A step and another one that depends on it. -/
def chainWorkflow : Workflow :=
  plainWorkflow [rawStep "first" .transform [("expression", .str "a")] [],
    rawStep "second" .transform [("expression", .str "b")] ["first"]]

/-- What the parser makes of it. -/
def chainParsed : WorkflowDefinition :=
  ⟨"workflow", "manual", [plainStep "first" .transform [("expression", .str "a")] [] (by decide),
    plainStep "second" .transform [("expression", .str "b")] ["first"] (by decide)],
    [("first", []), ("second", ["first"])]⟩

/-- The result on the invocation of the second step of the chain. -/
theorem startExecution_dependencies_chain :
    let w := plainWorld (fun _ _ => .ok [("result", .str "a")])
    ∃ inv, Invokes w ((startExecution performer 0 plainLibraries {} none 0 chainWorkflow [] 0 none
        0).run w).2 inv ∧ inv.caller.step = "second" ∧
      ∃ step ∈ chainParsed.steps, inv.caller = ⟨w.db.newUuid, step.id⟩ ∧ inv.call.step = step ∧
        DependenciesSettled w.db.newUuid step inv := by
  intro w
  have hparse : parseWorkflowDefinition plainLibraries {} ⟨chainWorkflow.name,
      chainWorkflow.triggerType, chainWorkflow.steps⟩ = .ok chainParsed := rfl
  let w' := ((startExecution performer 0 plainLibraries {} none 0 chainWorkflow [] 0 none 0).run
    w).2
  have hsecond : ⟨1, "second"⟩ ∈ invokedCallers (w.env.since w'.env) := by decide +kernel
  obtain ⟨inv, hinvokes, hcaller⟩ := mem_invokedCallers.mp hsecond
  exact ⟨inv, hinvokes, congrArg Caller.step hcaller,
    startExecution_dependencies hparse 0 none 0 [] 0 none 0 w inv hinvokes⟩

end WorkflowEngine

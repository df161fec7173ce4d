import WorkflowEngine.Plain
import WorkflowEngine.Run

/-!
# The outcome of a run

When `start_execution` returns, the rows of the execution tell the whole walk:
which steps were reached, how each of them ended, and what the context holds.
-/

namespace WorkflowEngine

open Py Orm Interact SkipWalk

/-- The step rows of an execution: one for each step, and no others. -/
structure StepRows (db : Db) (execution : Uuid) (steps : List StepDefinition)
    (row : String → StepExecution) : Prop where
  present : ∀ step ∈ steps, ∃ sid, db.view (.step sid) = some (row step.id)
  columns : ∀ step ∈ steps, (row step.id).executionId = execution ∧
    (row step.id).stepId = step.id ∧ (row step.id).maxAttempts = step.maxAttempts
  only : ∀ {sid} {r : StepExecution}, db.view (.step sid) = some r → r.executionId = execution →
    ∃ step ∈ steps, r = row step.id
  unique : ∀ {sid sid'} {r r' : StepExecution}, db.view (.step sid) = some r →
    db.view (.step sid') = some r' → r.executionId = execution → r'.executionId = execution →
    r.stepId = r'.stepId → sid = sid'

/-- How a run has ended, and the steps that its walk has reached. -/
inductive RunOutcome (order : List String) (e : Execution) (row : String → StepExecution) :
    List String → Prop where
  | completed (status : e.status = .completed)
      (settled : ∀ s ∈ order, (row s).status = .completed ∨ (row s).status = .skipped) :
      RunOutcome order e row order
  | failed {pre post : List String} {f : String} (split : order = pre ++ f :: post)
      (status : e.status = .failed) (failed : (row f).status = .failed)
      (exhausted : (row f).attempt = (row f).maxAttempts)
      (before : ∀ s ∈ pre, (row s).status = .completed ∨ (row s).status = .skipped)
      (after : ∀ s ∈ post, (row s).status = .pending) :
      RunOutcome order e row (pre ++ [f])

/-- The context of an execution holds the trigger data and the outputs of the
completed steps, and nothing under the id of any other step. -/
structure ContextHolds (triggerData : Dict String Json) (steps : List StepDefinition)
    (row : String → StepExecution) (context : Dict String Json) : Prop where
  trigger : Dict.get? context "trigger" = some (.obj triggerData)
  outputs : ∃ outs : Dict String Json, Dict.get? context "steps" = some (.obj outs) ∧
    (Dict.keys outs).Nodup ∧
    (∀ s, s ∈ Dict.keys outs ↔ ∃ step ∈ steps, step.id = s ∧ (row s).status = .completed) ∧
    ∀ step ∈ steps, (row step.id).status = .completed → ∃ output,
      (row step.id).outputData = some output ∧ Dict.get? outs step.id = some (stepEntry output)

/-- A branch is a list that names the step. -/
def Lists (branch : Json) (s : String) : Prop := ∃ items, branch = .arr items ∧ .str s ∈ items

/-- Both branches of a step are lists of step ids. -/
def BranchLists (step : StepDefinition) : Prop :=
  ∀ taken, ∃ members : List String, branchOf step taken = .arr (members.map .str)

/-- A condition step among `steps` completed and lists `s` in the branch that
it does not take. -/
def ListedBy (steps : List StepDefinition) (row : String → StepExecution) (c s : String) : Prop :=
  ∃ step ∈ steps, step.id = c ∧ step.type = .condition ∧ (row c).status = .completed ∧
    ∃ output, (row c).outputData = some output ∧ Lists (nonTakenBranch step output) s

/-- A step that was reached is skipped exactly if a condition step before it
lists it in the branch not taken. -/
def SkipRule (steps : List StepDefinition) (row : String → StepExecution)
    (walked : List String) : Prop :=
  ∀ pre s post, walked = pre ++ s :: post →
    ((row s).status = .skipped ↔ ∃ c ∈ pre, ListedBy steps row c s)

theorem branchSet_of_strings (members : List String) :
    branchSet (.arr (members.map .str)) = .ok members := by
  have hall : (members.map Json.str).all Json.hashable = true := by
    simp [Json.hashable]
  have hstr : ∀ l : List String, (l.map Json.str).filterMap Json.asStr? = l := by
    intro l
    induction l with
    | nil => rfl
    | cons s l ih => simp [Json.asStr?, ih]
  simp [branchSet, Json.setMembers, hall, hstr]

/-- The set of a branch that is a list holds the steps that the list names. -/
theorem mem_branchSet {items : List Json} {members : List String} {s : String}
    (h : branchSet (.arr items) = .ok members) : s ∈ members ↔ Lists (.arr items) s := by
  have hmembers : members = items.filterMap Json.asStr? := by
    simp only [branchSet, Json.setMembers] at h
    split at h
    · rename_i found heq
      split at heq
      · cases heq
        cases h
        rfl
      · cases heq
    · cases h
  rw [hmembers, List.mem_filterMap]
  constructor
  · rintro ⟨item, hitem, hs⟩
    cases item with
    | str t =>
      cases hs
      exact ⟨items, rfl, hitem⟩
    | _ => cases hs
  · rintro ⟨items', heq, hmem⟩
    cases heq
    exact ⟨.str s, hmem, rfl⟩

section

variable {p : RunPlan} {log : StepLog} {invs : List Invocation} {b : Board}
  {result : Except Raised Unit}

/-- The rows of a run are those of its board. -/
theorem Run.stepRows (h : Run p log invs b result) {db : Db} (hshows : Shows p.ids db b) :
    StepRows db p.ids.id p.steps b.row := by
  have hcolumns : ∀ step ∈ p.steps, (b.row step.id).executionId = p.ids.id ∧
      (b.row step.id).stepId = step.id ∧ (b.row step.id).maxAttempts = step.maxAttempts :=
    fun step hstep =>
      have hfits := h.follows.rows step hstep
      ⟨hfits.executionId, hfits.stepId, hfits.maxAttempts⟩
  have honly : ∀ {sid} {r : StepExecution}, db.view (.step sid) = some r →
      r.executionId = p.ids.id → ∃ step ∈ p.steps, r = b.row step.id ∧
        Dict.get? p.ids.stepMap step.id = some sid := by
    intro sid r hr hid
    obtain ⟨s, hs⟩ := hshows.seen.only hr hid
    obtain ⟨step, hstep, rfl⟩ := List.mem_map.mp (p.mapped_only hs)
    have hview := hshows.seen.step hs
    rw [hr] at hview
    exact ⟨step, hstep, Option.some.inj hview, hs⟩
  refine ⟨fun step hstep => ?_, hcolumns, fun hr hid => ?_, fun hr hr' hid hid' heq => ?_⟩
  · obtain ⟨sid, hs⟩ := p.mapped step hstep
    exact ⟨sid, hshows.seen.step hs⟩
  · obtain ⟨step, hstep, hrow, -⟩ := honly hr hid
    exact ⟨step, hstep, hrow⟩
  · obtain ⟨step, hstep, rfl, hs⟩ := honly hr hid
    obtain ⟨step', hstep', rfl, hs'⟩ := honly hr' hid'
    rw [(hcolumns step hstep).2.1, (hcolumns step' hstep').2.1] at heq
    rw [heq, hs'] at hs
    exact (Option.some.inj hs).symm

/-- The status of a visited step is the one of its visit. -/
theorem Run.status_of_mem (h : Run p log invs b result) {s : String}
    {ending : Ending (Dict String Json)} (hmem : (s, ending) ∈ log) :
    (b.row s).status = match ending with
      | .completed _ => .completed
      | .skipped => .skipped
      | .failed => .failed := by
  obtain ⟨step, hstep, rfl, hfits⟩ := h.fits_of_mem hmem
  have hstatus := hfits.status
  cases ending with
  | completed output => exact hstatus.1
  | skipped => exact hstatus
  | failed => exact hstatus.1

/-- A completed step was visited, and its row holds the output of the visit. -/
theorem Run.output_of_completed (h : Run p log invs b result) {step : StepDefinition}
    (hstep : step ∈ p.steps) (hstatus : (b.row step.id).status = .completed) :
    ∃ output, (step.id, Ending.completed output) ∈ log ∧
      (b.row step.id).outputData = some output := by
  by_cases hkey : step.id ∈ Dict.keys log
  · obtain ⟨⟨s, ending⟩, hmem, hs⟩ := List.mem_map.mp hkey
    subst hs
    have hsame := h.status_of_mem hmem
    cases ending with
    | completed output =>
      obtain ⟨_, _, _, hfits⟩ := h.fits_of_mem hmem
      exact ⟨output, hmem, hfits.status.2⟩
    | skipped => simp [hstatus] at hsame
    | failed => simp [hstatus] at hsame
  · rw [h.pending_of_not_mem hstep hkey] at hstatus
    cases hstatus

/-- The context of a run holds what its rows say. -/
theorem Run.contextHolds (h : Run p log invs b result) :
    ContextHolds p.triggerData p.steps b.row b.execution.context := by
  have hnodup : (Dict.keys (entries log)).Nodup := by
    rw [keys_entries]
    exact (keys_outputs_sublist log).nodup h.keys_nodup
  have hentry : ∀ {s : String} {output : Dict String Json}, (s, Ending.completed output) ∈ log →
      (s, stepEntry output) ∈ entries log := by
    intro s output hmem
    exact List.mem_map.mpr ⟨(s, output), mem_outputs.mpr hmem, rfl⟩
  refine ⟨by rw [h.follows.context]; rfl, entries log, by rw [h.follows.context]; rfl, hnodup,
    fun s => ⟨fun hs => ?_, ?_⟩, fun step hstep hstatus => ?_⟩
  · obtain ⟨⟨s', entry⟩, hmem, rfl⟩ := List.mem_map.mp hs
    obtain ⟨⟨s'', output⟩, hout, heq⟩ := List.mem_map.mp hmem
    cases heq
    obtain ⟨step, hstep, rfl, hfits⟩ := h.fits_of_mem (mem_outputs.mp hout)
    exact ⟨step, hstep, rfl, hfits.status.1⟩
  · rintro ⟨step, hstep, rfl, hstatus⟩
    obtain ⟨output, hmem, -⟩ := h.output_of_completed hstep hstatus
    exact List.mem_map.mpr ⟨_, hentry hmem, rfl⟩
  · obtain ⟨output, hmem, houtput⟩ := h.output_of_completed hstep hstatus
    exact ⟨output, houtput, Dict.get?_of_mem hnodup (hentry hmem)⟩

/-- Where a walk returns, it has reached every step or its last step failed. -/
theorem Run.outcome {value : Unit} (h : Run p log invs b (.ok value)) :
    RunOutcome (topologicalSort p.steps) b.execution b.row (Dict.keys log) := by
  have hsettled : ∀ {front : StepLog} {s : String}, front ⊆ log → Alive front →
      s ∈ Dict.keys front → (b.row s).status = .completed ∨ (b.row s).status = .skipped := by
    intro front s hsub halive hs
    obtain ⟨⟨s', ending⟩, hmem, rfl⟩ := List.mem_map.mp hs
    have hstatus := h.status_of_mem (hsub hmem)
    cases ending with
    | completed output => exact .inl hstatus
    | skipped => exact .inr hstatus
    | failed => exact absurd rfl (halive _ hmem)
  cases h.ends with
  | completed all alive _ status =>
    rw [← all]
    exact .completed status (fun s hs => hsettled (List.Subset.refl _) (by simpa using alive) hs)
  | failed front f last _ status =>
    subst last
    obtain ⟨later, horder⟩ := h.order
    have hsplit : topologicalSort p.steps = Dict.keys front ++ f :: later := by
      simp [horder, Dict.keys]
    have hlast : (f, Ending.failed) ∈ front ++ [(f, Ending.failed)] := by simp
    obtain ⟨step, hstep, hid, hfits⟩ := h.fits_of_mem hlast
    have hkeys : Dict.keys (front ++ [(f, Ending.failed)]) = Dict.keys front ++ [f] := by
      simp [Dict.keys]
    rw [hkeys]
    refine .failed hsplit status (h.status_of_mem hlast) hfits.status.2
      (fun s hs => hsettled (List.subset_append_left _ _) h.walk.alive_front hs)
      (fun s hs => ?_)
    have hs' : s ∈ topologicalSort p.steps := by simp [hsplit, hs]
    obtain ⟨step', hstep', rfl⟩ := List.mem_map.mp (p.accepted.mem_order.mp hs')
    refine h.pending_of_not_mem hstep' (fun hkey => ?_)
    have hnodup := p.accepted.order_nodup
    rw [horder, List.nodup_append] at hnodup
    exact hnodup.2.2 step'.id hkey step'.id hs rfl

/-- In a run of a workflow whose branches are lists, the steps that are skipped
are those that a condition step before them lists in the branch not taken. -/
theorem Run.skipRule (h : Run p log invs b result)
    (hbranches : ∀ step ∈ p.steps, step.type = .condition → BranchLists step) :
    SkipRule p.steps b.row (Dict.keys log) := by
  intro pre s post hwalked
  obtain ⟨front, rest, rfl, rfl, hrest⟩ := List.map_eq_append_iff.mp hwalked
  obtain ⟨⟨s', ending⟩, back, rfl, hs, -⟩ := List.map_eq_cons_iff.mp hrest
  obtain rfl : s' = s := hs
  have hmem : (s', ending) ∈ front ++ (s', ending) :: back := by simp
  have hending : (b.row s').status = .skipped ↔ ending = .skipped := by
    rw [h.status_of_mem hmem]
    cases ending <;> simp
  rw [hending, h.walk.skipped_iff, mem_dropped]
  have hdrops : ∀ {step : StepDefinition} {output : Dict String Json}, step ∈ p.steps →
      (s' ∈ branchDrops p.steps step.id output ↔
        step.type = .condition ∧ Lists (nonTakenBranch step output) s') := by
    intro step output hstep
    rw [branchDrops_step hstep]
    by_cases hcondition : step.type = .condition
    · obtain ⟨members, hlist⟩ := hbranches step hstep hcondition (!conditionResult (some output))
      have hset : branchSet (nonTakenBranch step output) = .ok members := by
        rw [nonTakenBranch, hlist]
        exact branchSet_of_strings members
      rw [if_pos hcondition, hset]
      simp only [hcondition, true_and]
      rw [nonTakenBranch, hlist] at hset ⊢
      exact mem_branchSet hset
    · simp [hcondition]
  constructor
  · rintro ⟨c, output, hc, hs'⟩
    obtain ⟨step, hstep, rfl, hfits⟩ := h.fits_of_mem (List.mem_append_left _ hc)
    obtain ⟨hcondition, hlists⟩ := (hdrops hstep).mp hs'
    exact ⟨step.id, List.mem_map.mpr ⟨_, hc, rfl⟩, step, hstep, rfl, hcondition, hfits.status.1,
      output, hfits.status.2, hlists⟩
  · rintro ⟨_, hc, step, hstep, rfl, hcondition, hstatus, output, houtput, hlists⟩
    obtain ⟨⟨c, cending⟩, hcmem, hid⟩ := List.mem_map.mp hc
    subst hid
    obtain ⟨output', hcompleted, houtput'⟩ := h.output_of_completed hstep hstatus
    rw [houtput] at houtput'
    obtain rfl := Option.some.inj houtput'
    -- A step has one entry in the log, so the one in `front` is this one.
    have hget := Dict.get?_of_mem h.keys_nodup hcompleted
    rw [Dict.get?_of_mem h.keys_nodup (List.mem_append_left _ hcmem)] at hget
    cases hget
    exact ⟨step.id, output, hcmem, (hdrops hstep).mpr ⟨hcondition, hlists⟩⟩

end

/-- Whenever `start_execution` returns, the rows of the execution show one of
the two outcomes, the context holds the outputs of the completed steps, and the
skipped steps are those of the branches not taken. -/
theorem startExecution_outcome {libs : Libraries} {settings : Settings} {session : SessionRef}
    {workflow : Workflow} {parsed : WorkflowDefinition}
    (hparse : parseWorkflowDefinition libs settings
      ⟨workflow.name, workflow.triggerType, workflow.steps⟩ = .ok parsed)
    (hbranches : ∀ step ∈ parsed.steps, step.type = .condition → BranchLists step)
    {parent : Option Caller} {workflowId : Uuid} {triggerData : Dict String Json}
    {tenantId : Uuid} {replayedFrom : Option Uuid} {depth : Int} {w w' : World} {id : Uuid}
    {e : Execution}
    (hrun : (startExecution performer session libs settings parent workflowId workflow triggerData
      tenantId replayedFrom depth).run w = (.ok (id, e), w')) :
    ∃ row walked, w'.db.view (.execution id) = some e ∧ StepRows w'.db id parsed.steps row ∧
      RunOutcome (topologicalSort parsed.steps) e row walked ∧
      ContextHolds triggerData parsed.steps row e.context ∧
      SkipRule parsed.steps row walked := by
  obtain ⟨p, log, invs, b, result, db', env', -, -, -, hsteps, htrigger, -, -, -, hrun', -,
    hshows, h⟩ := run_startExecution performer_quiet hparse session parent workflowId triggerData tenantId
      replayedFrom depth w
  rw [hrun] at hrun'
  cases result with
  | error raised => cases hrun'
  | ok value =>
    cases hrun'
    rw [← hsteps] at hbranches ⊢
    rw [← htrigger]
    exact ⟨b.row, Dict.keys log, hshows.seen.execution, h.stepRows hshows, h.outcome,
      h.contextHolds, h.skipRule hbranches⟩

/-- A condition step and the two steps of its branches. -/
def branchingSteps : List StepDefinition :=
  [plainStep "check" .condition [("expression", .str "true"),
      ("true_branch", .arr [.str "yes"]), ("false_branch", .arr [.str "no"])] [] check_length,
    plainStep "yes" .transform [("expression", .str "a")] ["check"] (by decide),
    plainStep "no" .transform [("expression", .str "b")] ["check"] (by decide)]

/-- The workflow of these steps. -/
def branchingWorkflow : Workflow :=
  plainWorkflow [rawStep "check" .condition [("expression", .str "true"),
      ("true_branch", .arr [.str "yes"]), ("false_branch", .arr [.str "no"])] [],
    rawStep "yes" .transform [("expression", .str "a")] ["check"],
    rawStep "no" .transform [("expression", .str "b")] ["check"]]

/-- What the parser makes of it. -/
def branchingParsed : WorkflowDefinition :=
  ⟨"workflow", "manual", branchingSteps, [("check", []), ("yes", ["check"]), ("no", ["check"])]⟩

/-- A run of the branching workflow whose condition is true. -/
def branchingRun : Except Raised (Uuid × Execution) × World :=
  (startExecution performer 0 plainLibraries {} none 0 branchingWorkflow [] 0 none 0).run
    (plainWorld (fun _ _ => .ok [("result", .bool true)]))

/-- The result on the run of the branching workflow. -/
theorem startExecution_outcome_branching :
    ∃ id e w' row walked, branchingRun = (.ok (id, e), w') ∧
      w'.db.view (.execution id) = some e ∧ StepRows w'.db id branchingSteps row ∧
      RunOutcome (topologicalSort branchingSteps) e row walked ∧
      ContextHolds [] branchingSteps row e.context ∧ SkipRule branchingSteps row walked := by
  have hbranches : ∀ step ∈ branchingParsed.steps, step.type = .condition → BranchLists step := by
    intro step hstep hcondition
    simp only [branchingParsed, branchingSteps, List.mem_cons, List.not_mem_nil, or_false] at hstep
    rcases hstep with rfl | rfl | rfl
    · rintro (_ | _)
      · exact ⟨["no"], rfl⟩
      · exact ⟨["yes"], rfl⟩
    · cases hcondition
    · cases hcondition
  obtain ⟨row, walked, h⟩ := startExecution_outcome
    (show parseWorkflowDefinition plainLibraries {} ⟨branchingWorkflow.name,
      branchingWorkflow.triggerType, branchingWorkflow.steps⟩ = .ok branchingParsed from rfl)
    hbranches
    (show branchingRun = (.ok _, _) from rfl)
  exact ⟨_, _, _, row, walked, rfl, h⟩

end WorkflowEngine

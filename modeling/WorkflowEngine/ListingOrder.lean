import WorkflowEngine.Outcome
import WorkflowEngine.Termination
import WorkflowEngine.WellFormed

/-!
# The listing order of the steps

`parse_workflow_definition` gets the steps as a list, and `_topological_sort`
breaks ties by the place in that list.  Another listing of the same steps is
accepted as well, but its walk can visit the steps in another order and find
other skip sets on the way.

Under two assumptions the end of the run is the same.  `BranchesBelow` says that
the branches of a condition step name only steps that depend on it, and
`ResultsOwn` that the output of a step is decided by what it depends on.  The two
walks then give every step the same ending (`Walk.confluent`).

This takes walks that come to an end.  One that is stopped by `set(branch)` leaves
the steps it has not visited, and these are others in another listing:
`listingIrrelevant_iff`.
-/

namespace WorkflowEngine

open Py Orm Interact SkipWalk

/-! ## The assumptions -/

/-- The step `v` depends on the step `d`, directly or through other steps. -/
abbrev Below (steps : List StepDefinition) : String → String → Prop :=
  Relation.TransGen (DependsOn steps)

/-- The steps that a branch of a condition step names depend on the condition step. -/
def BranchesBelow (steps : List StepDefinition) : Prop :=
  ∀ step ∈ steps, step.type = .condition → ∀ taken members,
    branchSet (branchOf step taken) = .ok members →
    ∀ s ∈ members, s ∈ steps.map (·.id) → Below steps step.id s

/-- The output of the step `d` in the input of an executor. -/
def outputIn (input : Vars) (d : String) : Option Json :=
  match Dict.get? input "steps" with
  | some (.json (.obj outs)) => Dict.get? outs d
  | _ => none

/-- Two inputs of a step hold the same trigger data and the same outputs of the
steps that it depends on. -/
structure SeesSame (steps : List StepDefinition) (step : StepDefinition) (input input' : Vars) :
    Prop where
  trigger : Dict.get? input "trigger" = Dict.get? input' "trigger"
  outputs : ∀ d, Below steps d step.id → outputIn input d = outputIn input' d

/-- The output of a step is decided by its definition, the trigger data and the
outputs of the steps that it depends on.  Attempts may fail on the way. -/
def ResultsOwn (steps : List StepDefinition) (behaviour : Behaviour) : Prop :=
  ∀ step ∈ steps, ∀ events events' input input', SeesSame steps step input input' →
    ∀ output output', behaviour events ⟨step, input⟩ = .ok output →
      behaviour events' ⟨step, input'⟩ = .ok output' → output = output'

/-- A step of the execution has failed in its last attempt. -/
def Exhausted (db : Db) (execution : Uuid) : Prop :=
  ∃ sid row, db.view (.step sid) = some row ∧ row.executionId = execution ∧
    row.status = .failed ∧ row.attempt = row.maxAttempts

/-! ## The same end -/

/-- Two executions of the same steps have ended alike.  The `steps` object of a
context is a dictionary: the order of its items says nothing. -/
structure SameOutcome (steps : List StepDefinition) (db db' : Db) (id id' : Uuid)
    (e e' : Execution) : Prop where
  stored : db.view (.execution id) = some e ∧ db'.view (.execution id') = some e'
  status : e.status = e'.status
  rows : ∃ row row', StepRows db id steps row ∧ StepRows db' id' steps row' ∧
    ∀ step ∈ steps, (row step.id).status = (row' step.id).status ∧
      (row step.id).outputData = (row' step.id).outputData
  context : ∃ outs outs' : Dict String Json, Dict.get? e.context "steps" = some (.obj outs) ∧
    Dict.get? e'.context "steps" = some (.obj outs') ∧ (Dict.keys outs).Nodup ∧ outs.Perm outs'

/-- Two calls of `start_execution` for the same steps both return, and the executions
have ended alike. -/
inductive EndAlike (steps : List StepDefinition) :
    Except Raised (Uuid × Execution) × World → Except Raised (Uuid × Execution) × World →
      Prop where
  | returned {id id' : Uuid} {e e' : Execution} {w w' : World}
      (same : SameOutcome steps w.db w'.db id id' e e') :
      EndAlike steps (.ok (id, e), w) (.ok (id', e'), w')

theorem EndAlike.returns {steps : List StepDefinition}
    {ended ended' : Except Raised (Uuid × Execution) × World} (h : EndAlike steps ended ended') :
    ∃ returned, ended.1 = .ok returned ∧ ∃ returned', ended'.1 = .ok returned' := by
  cases h with
  | returned same => exact ⟨_, rfl, _, rfl⟩

/-! ## Another listing is accepted too -/

theorem DependsOn.mono {steps steps' : List StepDefinition} (h : steps ⊆ steps') {d v : String}
    (hd : DependsOn steps d v) : DependsOn steps' d v := by
  obtain ⟨step, hstep, hid, hdep⟩ := hd
  exact ⟨step, h hstep, hid, hdep⟩

theorem dependsOn_perm {steps steps' : List StepDefinition} (h : steps.Perm steps') :
    DependsOn steps = DependsOn steps' := by
  funext d v
  exact propext ⟨.mono h.subset, .mono h.symm.subset⟩

theorem validateJinja2Expressions_perm {libs : Libraries} {steps steps' : List StepDefinition}
    (h : steps.Perm steps') (hvalid : validateJinja2Expressions libs steps = .ok ()) :
    validateJinja2Expressions libs steps' = .ok () := by
  rw [validateJinja2Expressions, forM_eq_ok_iff] at hvalid ⊢
  exact fun step hstep => hvalid step (h.mem_iff.mpr hstep)

/-- A listing of the step objects in another order is parsed to the steps in
another order. -/
theorem parseWorkflowDefinition_perm {libs : Libraries} {settings : Settings} {name type : String}
    {raws raws' : List Json} {parsed : WorkflowDefinition}
    (hparse : parseWorkflowDefinition libs settings ⟨name, type, raws⟩ = .ok parsed)
    (h : raws'.Perm raws) :
    ∃ parsed', parseWorkflowDefinition libs settings ⟨name, type, raws'⟩ = .ok parsed' ∧
      parsed'.steps.Perm parsed.steps := by
  obtain ⟨hwf, -, -, -⟩ := (parseWorkflowDefinition_iff _ _ _ _).mp hparse
  obtain ⟨steps, hdecoded, hperm⟩ := List.perm_comp_forall₂ h hwf.decoded
  have hids : (steps.map (·.id)).Perm (parsed.steps.map (·.id)) := hperm.map _
  have hdepends := dependsOn_perm hperm
  refine ⟨⟨name, type, steps, steps.map (fun step => (step.id, step.dependsOn))⟩,
    (parseWorkflowDefinition_iff _ _ _ _).mpr
      ⟨⟨?_, ?_, hdecoded, ?_, ?_, ?_, ?_, ?_⟩, rfl, rfl, rfl⟩, hperm⟩
  · exact h.length_eq ▸ hwf.count_pos
  · exact h.length_eq ▸ hwf.count_le
  · exact hids.nodup_iff.mpr hwf.ids_distinct
  · intro d v hd
    exact hids.mem_iff.mpr (hwf.dependencies_exist d v (hdepends ▸ hd))
  · rw [hdepends]
    exact hwf.acyclic
  · rw [hdepends]
    exact hwf.chains_short
  · exact validateJinja2Expressions_perm hperm.symm hwf.templates_valid

/-! ## What one walk says -/

/-- The rows do not depend on the order in which the steps are listed. -/
theorem StepRows.perm {db : Db} {execution : Uuid} {steps steps' : List StepDefinition}
    {row : String → StepExecution} (h : StepRows db execution steps row)
    (hperm : steps.Perm steps') : StepRows db execution steps' row where
  present step hstep := h.present step (hperm.mem_iff.mpr hstep)
  columns step hstep := h.columns step (hperm.mem_iff.mpr hstep)
  only hrow hid := by
    obtain ⟨step, hstep, heq⟩ := h.only hrow hid
    exact ⟨step, hperm.mem_iff.mp hstep, heq⟩
  unique := h.unique

/-- The output of a completed node, if it has completed. -/
theorem get?_entries {log : StepLog} (hnodup : (Dict.keys log).Nodup) (d : String) :
    Dict.get? (entries log) d =
      match Dict.get? log d with
      | some (.completed output) => some (stepEntry output)
      | _ => none := by
  induction log with
  | nil => rfl
  | cons entry log ih =>
    obtain ⟨s, ending⟩ := entry
    obtain ⟨hs, hnodup'⟩ := List.nodup_cons.mp hnodup
    have hfront : entries ((s, ending) :: log) = entries [(s, ending)] ++ entries log :=
      entries_append [(s, ending)] log
    have hnone : Dict.get? (entries log) s = none :=
      (Dict.get?_eq_none_iff _ _).mpr (not_mem_keys_entries hs)
    rw [hfront, Dict.get?_append, Dict.get?_cons]
    by_cases hd : s = d
    · subst hd
      rw [if_pos rfl, hnone]
      cases ending with
      | completed output => simp [Dict.get?_cons]
      | skipped => rfl
      | failed => rfl
    · rw [if_neg hd, ih hnodup']
      cases ending with
      | completed output => simp [Dict.get?_cons, hd]
      | skipped => rfl
      | failed => rfl

/-- An arbitrary executor ends as the outside world says. -/
theorem yields_performer {session : SessionRef} {behaviour : Behaviour} {step : StepDefinition}
    {ctx : Dict String Json} {result : Except PyError (Dict String Json)}
    (h : Yields performer session behaviour step ctx result) :
    ∃ events, behaviour events ⟨step, stepInput session ctx⟩ = result := by
  obtain ⟨caller, w, rfl, hrun⟩ := h
  refine ⟨w.env.events, ?_⟩
  rw [performer, Prog.run_bind_ok (run_perform _ _)] at hrun
  cases hended : w.env.behaviour w.env.events ⟨step, stepInput session ctx⟩ <;>
    rw [hended] at hrun <;> cases result <;> cases hrun <;> rfl

namespace Run

variable {p : RunPlan} {log : StepLog} {invs : List Invocation} {b : Board}
  {result : Except Raised Unit}

/-- The steps that a visited step depends on were visited before it. -/
theorem climbs (h : Run p log invs b result) : Walk.Climbs (Below p.steps) log := by
  intro front v ending post hlog d hd
  induction hd generalizing front ending post with
  | single hd =>
    obtain ⟨step, hstep, rfl, hdep⟩ := hd
    obtain ⟨later, hsplit⟩ := h.order_split hlog
    exact p.accepted.dependsOn_before hstep hsplit hdep
  | tail _ hd ih =>
    -- The step in between was visited, and what it depends on before it.
    obtain ⟨step, hstep, rfl, hdep⟩ := hd
    obtain ⟨later, hsplit⟩ := h.order_split hlog
    have hmem := p.accepted.dependsOn_before hstep hsplit hdep
    obtain ⟨ending', hfront⟩ := Dict.mem_keys.mp hmem
    obtain ⟨pre, mid, rfl⟩ := List.append_of_mem hfront
    rw [Dict.keys_append]
    refine List.mem_append_left _ (ih pre ending' (mid ++ (step.id, ending) :: post) ?_)
    simp [hlog]

/-- Where no step has used up its attempts, no visited step has failed. -/
theorem alive (h : Run p log invs b result) {db : Db} (hshows : Shows p.ids db b)
    (hne : ¬ Exhausted db p.ids.id) : Alive log := by
  rintro ⟨s, ending⟩ hmem rfl
  obtain ⟨step, hstep, rfl, hfits⟩ := h.fits_of_mem hmem
  obtain ⟨sid, hrow⟩ := (h.stepRows hshows).present step hstep
  exact hne ⟨sid, b.row step.id, hrow, hfits.executionId, hfits.status⟩

/-- A completed visit, by the step that was visited and the call that returned. -/
theorem visit_completed (h : Run p log invs b result) (hrunner : p.runner = performer)
    {front post : StepLog} {s : String} {output : Dict String Json}
    (hlog : log = front ++ (s, .completed output) :: post) :
    ∃ step ∈ p.steps, step.id = s ∧ ∃ events, p.behaviour events
      ⟨step, stepInput p.session (runContext p.triggerData (entries front))⟩ = .ok output := by
  have hvisits : Visits p [] (front ++ (s, .completed output) :: post) invs := hlog ▸ h.visits
  obtain ⟨step, _, hid, hvisit, -⟩ := hvisits.visit
  refine ⟨step, hvisit.mem, hid, yields_performer ?_⟩
  simpa [hrunner] using hvisit.completed output rfl

end Run

/-! ## Two walks over the same steps -/

/-- Two plans for listings of the same steps, with the same executor. -/
structure Reordered (p p' : RunPlan) : Prop where
  steps : p.steps.Perm p'.steps
  triggerData : p.triggerData = p'.triggerData
  behaviour : p.behaviour = p'.behaviour
  runner : p.runner = performer
  runner' : p'.runner = performer

namespace Reordered

variable {p p' : RunPlan}

theorem symm (h : Reordered p p') : Reordered p' p :=
  ⟨h.steps.symm, h.triggerData.symm, h.behaviour.symm, h.runner', h.runner⟩

theorem below (h : Reordered p p') : Below p.steps = Below p'.steps := by
  rw [Below, Below, dependsOn_perm h.steps]

/-- A step drops the same steps in both walks. -/
theorem branchDrops_eq (h : Reordered p p') : branchDrops p.steps = branchDrops p'.steps := by
  funext s output
  have hget : Dict.get? (stepDefs p.steps) s = Dict.get? (stepDefs p'.steps) s := by
    rw [stepDefs, p.accepted.stepDefs_eq, stepDefs, p'.accepted.stepDefs_eq]
    exact Dict.get?_perm p.accepted.keys_stepItems_nodup (h.steps.map _) s
  rw [branchDrops, branchDrops, hget]

end Reordered

theorem BranchesBelow.perm {steps steps' : List StepDefinition} (h : BranchesBelow steps)
    (hperm : steps.Perm steps') : BranchesBelow steps' := by
  intro step hstep hcondition taken members hset s hs hid
  rw [Below, ← dependsOn_perm hperm]
  exact h step (hperm.mem_iff.mpr hstep) hcondition taken members hset s hs
    ((hperm.map _).mem_iff.mpr hid)

theorem ResultsOwn.perm {steps steps' : List StepDefinition} {behaviour : Behaviour}
    (h : ResultsOwn steps behaviour) (hperm : steps.Perm steps') : ResultsOwn steps' behaviour := by
  intro step hstep events events' input input' hsees
  refine h step (hperm.mem_iff.mpr hstep) events events' input input' ⟨hsees.trigger, ?_⟩
  intro d hd
  rw [Below, dependsOn_perm hperm] at hd
  exact hsees.outputs d hd

/-- Two plans for listings of the same steps, with logs without a failed step, under the
two assumptions. -/
structure Matched (p p' : RunPlan) (log log' : StepLog) : Prop where
  reordered : Reordered p p'
  alive : Alive log
  alive' : Alive log'
  branches : BranchesBelow p.steps
  own : ResultsOwn p.steps p.behaviour

theorem Matched.symm {p p' : RunPlan} {log log' : StepLog} (h : Matched p p' log log') :
    Matched p' p log' log where
  reordered := h.reordered.symm
  alive := h.alive'
  alive' := h.alive
  branches := h.branches.perm h.reordered.steps
  own := h.reordered.behaviour ▸ h.own.perm h.reordered.steps

section

variable {p p' : RunPlan} {log log' : StepLog} {invs invs' : List Invocation} {b b' : Board}
  {result result' : Except Raised Unit}

/-- A step is dropped only by condition steps that it depends on. -/
theorem Run.below_of_branchDrops (h : Run p log invs b result) (hbranches : BranchesBelow p.steps)
    {c s : String} {output : Dict String Json} (hs : s ∈ Dict.keys log)
    (hdrops : s ∈ branchDrops p.steps c output) : Below p.steps c s := by
  have hid := h.mem_ids hs
  rw [branchDrops] at hdrops
  split at hdrops
  · rename_i step hget
    split at hdrops
    · rename_i hcondition
      split at hdrops
      · rename_i members hset
        have hitem := Dict.mem_of_get? hget
        rw [stepDefs, p.accepted.stepDefs_eq] at hitem
        obtain ⟨_, hstep, heq⟩ := List.mem_map.mp hitem
        cases heq
        exact hbranches step hstep hcondition _ members hset s hdrops hid
      · cases hdrops
    · cases hdrops
  · cases hdrops

/-- Two runs give a step that both visit the same ending. -/
theorem Matched.ending_eq (hm : Matched p p' log log') (h : Run p log invs b result)
    (h' : Run p' log' invs' b' result') {s : String} {ending ending' : Ending (Dict String Json)}
    (hmem : (s, ending) ∈ log) (hmem' : (s, ending') ∈ log') : ending = ending' := by
  have hp := hm.reordered
  refine Walk.confluent h.walk (hp.branchDrops_eq ▸ h'.walk) hm.alive hm.alive' h.keys_nodup
    h'.keys_nodup h.climbs (hp.below ▸ h'.climbs)
    (fun c o v hv hdrops => h.below_of_branchDrops hm.branches hv hdrops) ?_ hmem hmem'
  intro front front' v output output' post post' hlog hlog' hsame
  obtain ⟨step, hstep, rfl, events, hcall⟩ := h.visit_completed hp.runner hlog
  obtain ⟨step', hstep', hid, events', hcall'⟩ := h'.visit_completed hp.runner' hlog'
  obtain rfl := p.accepted.eq_of_id_eq hstep (hp.steps.mem_iff.mpr hstep') hid.symm
  rw [← hp.behaviour, ← hp.triggerData] at hcall'
  have hnodup := Dict.nodup_keys_front hlog h.keys_nodup
  have hnodup' := Dict.nodup_keys_front hlog' h'.keys_nodup
  have hsees : SeesSame p.steps step
      (stepInput p.session (runContext p.triggerData (entries front)))
      (stepInput p'.session (runContext p.triggerData (entries front'))) := by
    refine ⟨rfl, fun d hd => ?_⟩
    show Dict.get? (entries front) d = Dict.get? (entries front') d
    rw [get?_entries hnodup, get?_entries hnodup', hsame d hd]
  exact hm.own step hstep events events' _ _ hsees output output' hcall hcall'

/-- A run that returns without a failed step has visited all steps. -/
theorem Run.all_of_alive {value : Unit} (h : Run p log invs b (.ok value)) (halive : Alive log) :
    Dict.keys log = topologicalSort p.steps ∧ (∀ entry ∈ log, Settles p entry) ∧
      b.execution.status = .completed := by
  cases h.ends with
  | completed all _ settles status => exact ⟨all, settles, status⟩
  | failed front s last _ _ => exact absurd rfl (halive (s, .failed) (by simp [last]))

/-- If one run returns then the other one does not get stuck. -/
theorem Matched.not_stuck (hm : Matched p p' log log') {value : Unit} {raised : Raised}
    (h : Run p log invs b (.ok value)) (h' : Run p' log' invs' b' (.error raised)) : False := by
  obtain ⟨hall, hsettles, -⟩ := h.all_of_alive hm.alive
  cases h'.ends with
  | stuck front step output e last mem condition unset _ _ =>
    have hstep : step ∈ p.steps := hm.reordered.steps.mem_iff.mpr mem
    have hvisited : step.id ∈ Dict.keys log := by
      rw [hall, p.accepted.mem_order]
      exact List.mem_map.mpr ⟨step, hstep, rfl⟩
    obtain ⟨ending, hmem⟩ := Dict.mem_keys.mp hvisited
    have hmem' : (step.id, Ending.completed output) ∈ log' := by simp [last]
    obtain rfl := hm.ending_eq h h' hmem hmem'
    obtain ⟨members, hset⟩ := hsettles _ hmem step hstep rfl condition output rfl
    rw [unset] at hset
    cases hset

/-- If both runs return then their logs differ in the order only. -/
theorem Matched.log_perm (hm : Matched p p' log log') {value value' : Unit}
    (h : Run p log invs b (.ok value)) (h' : Run p' log' invs' b' (.ok value')) :
    log.Perm log' := by
  refine Dict.perm_of_values_eq h.keys_nodup h'.keys_nodup (fun s => ?_)
    (fun s ending ending' hmem hmem' => hm.ending_eq h h' hmem hmem')
  rw [(h.all_of_alive hm.alive).1, (h'.all_of_alive hm.alive').1, p.accepted.mem_order,
    p'.accepted.mem_order]
  exact (hm.reordered.steps.map _).mem_iff

/-- Rows that fit the same ending have the same status and the same output. -/
theorem Fits.same {id id' : Uuid} {step : StepDefinition}
    {ending : Option (Ending (Dict String Json))} {row row' : StepExecution}
    (h : Fits id step ending row) (h' : Fits id' step ending row') (hne : ending ≠ some .failed) :
    row.status = row'.status ∧ row.outputData = row'.outputData := by
  have hstatus := h.status
  have hstatus' := h'.status
  cases ending with
  | none =>
    exact ⟨hstatus.trans hstatus'.symm, (h.blank (.inl rfl)).trans (h'.blank (.inl rfl)).symm⟩
  | some ending =>
    cases ending with
    | completed output =>
      exact ⟨hstatus.1.trans hstatus'.1.symm, hstatus.2.trans hstatus'.2.symm⟩
    | skipped =>
      exact ⟨hstatus.trans hstatus'.symm, (h.blank (.inr rfl)).trans (h'.blank (.inr rfl)).symm⟩
    | failed => exact absurd rfl hne

/-- If both runs return then the executions have ended alike. -/
theorem Matched.sameOutcome (hm : Matched p p' log log') {value value' : Unit} {db db' : Db}
    {steps : List StepDefinition} (h : Run p log invs b (.ok value))
    (h' : Run p' log' invs' b' (.ok value')) (hshows : Shows p.ids db b)
    (hshows' : Shows p'.ids db' b') (hsteps : p.steps.Perm steps) :
    SameOutcome steps db db' p.ids.id p'.ids.id b.execution b'.execution := by
  have hsteps' : p'.steps.Perm steps := hm.reordered.steps.symm.trans hsteps
  have hperm := hm.log_perm h h'
  refine ⟨⟨hshows.seen.execution, hshows'.seen.execution⟩, ?_, ?_, ?_⟩
  · rw [(h.all_of_alive hm.alive).2.2, (h'.all_of_alive hm.alive').2.2]
  · refine ⟨b.row, b'.row, (h.stepRows hshows).perm hsteps, (h'.stepRows hshows').perm hsteps',
      fun step hstep => ?_⟩
    have hfits := h.follows.rows step (hsteps.mem_iff.mpr hstep)
    have hfits' := h'.follows.rows step (hsteps'.mem_iff.mpr hstep)
    rw [← Dict.get?_perm h.keys_nodup hperm] at hfits'
    exact hfits.same hfits' (fun hfailed => hm.alive _ (Dict.mem_of_get? hfailed) rfl)
  · refine ⟨entries log, entries log', by rw [h.follows.context]; rfl,
      by rw [h'.follows.context]; rfl, ?_, (hperm.filterMap _).map _⟩
    rw [keys_entries]
    exact (keys_outputs_sublist log).nodup h.keys_nodup

end

/-- Where the executor always returns, no step uses up its attempts. -/
theorem not_exhausted {libs : Libraries} {settings : Settings} {session : SessionRef}
    {workflow : Workflow} {parsed : WorkflowDefinition}
    (hparse : parseWorkflowDefinition libs settings
      ⟨workflow.name, workflow.triggerType, workflow.steps⟩ = .ok parsed) {w : World}
    (hreturns : ∀ events call, ∃ output, w.env.behaviour events call = .ok output)
    (parent : Option Caller) (workflowId : Uuid) (triggerData : Dict String Json)
    (tenantId : Uuid) (replayedFrom : Option Uuid) (depth : Int) :
    ¬ Exhausted ((startExecution performer session libs settings parent workflowId workflow
      triggerData tenantId replayedFrom depth).run w).2.db w.db.newUuid := by
  obtain ⟨p, log, invs, b, result, db, env, hrunner, -, hbehaviour, -, -, hid, -, -, hrun, -,
    hshows, h⟩ := run_startExecution performer_quiet hparse session parent workflowId triggerData
      tenantId replayedFrom depth w
  rw [hrun, ← hid]
  rintro ⟨sid, row, hview, hexecution, hstatus, -⟩
  obtain ⟨step, hstep, rfl⟩ := (h.stepRows hshows).only hview hexecution
  by_cases hkey : step.id ∈ Dict.keys log
  · obtain ⟨ending, hmem⟩ := Dict.mem_keys.mp hkey
    have hvisited := h.status_of_mem hmem
    rw [hstatus] at hvisited
    cases ending with
    | completed output => cases hvisited
    | skipped => cases hvisited
    | failed =>
      obtain ⟨front, post, rfl⟩ := List.append_of_mem hmem
      have hvisits : Visits p [] (front ++ (step.id, .failed) :: post) invs := h.visits
      obtain ⟨_, _, _, hvisit, -⟩ := hvisits.visit
      obtain ⟨e, hyields⟩ := hvisit.failed rfl
      rw [hrunner, hbehaviour] at hyields
      obtain ⟨events, hraised⟩ := yields_performer hyields
      obtain ⟨output, hreturned⟩ := hreturns events _
      rw [hraised] at hreturned
      cases hreturned
  · rw [h.pending_of_not_mem hstep hkey] at hstatus
    cases hstatus

/-- Two permutations of the steps of an accepted workflow give calls of `start_execution`
that end alike, or that both raise. -/
theorem startExecution_perm {libs : Libraries} {settings : Settings} {session : SessionRef}
    {workflow : Workflow} {parsed : WorkflowDefinition} {raws raws' : List Json}
    (hparse : parseWorkflowDefinition libs settings
      ⟨workflow.name, workflow.triggerType, workflow.steps⟩ = .ok parsed)
    (hbranches : BranchesBelow parsed.steps) {w w' : World}
    (hown : ResultsOwn parsed.steps w.env.behaviour) (hsame : w.env.behaviour = w'.env.behaviour)
    (hraws : raws.Perm workflow.steps) (hraws' : raws'.Perm workflow.steps)
    {parent : Option Caller} {workflowId : Uuid} {triggerData : Dict String Json}
    {tenantId : Uuid} {replayedFrom : Option Uuid} {depth : Int}
    (hleft : ¬ Exhausted ((startExecution performer session libs settings parent workflowId
      { workflow with steps := raws } triggerData tenantId replayedFrom depth).run w).2.db
      w.db.newUuid)
    (hleft' : ¬ Exhausted ((startExecution performer session libs settings parent workflowId
      { workflow with steps := raws' } triggerData tenantId replayedFrom depth).run w').2.db
      w'.db.newUuid) :
    EndAlike parsed.steps
      ((startExecution performer session libs settings parent workflowId
        { workflow with steps := raws } triggerData tenantId replayedFrom depth).run w)
      ((startExecution performer session libs settings parent workflowId
        { workflow with steps := raws' } triggerData tenantId replayedFrom depth).run w') ∨
    (∃ r, ((startExecution performer session libs settings parent workflowId
      { workflow with steps := raws } triggerData tenantId replayedFrom depth).run w).1 = .error r) ∧
    ∃ r', ((startExecution performer session libs settings parent workflowId
      { workflow with steps := raws' } triggerData tenantId replayedFrom depth).run w').1 =
        .error r' := by
  obtain ⟨parsed₁, hparse₁, hperm₁⟩ := parseWorkflowDefinition_perm hparse hraws
  obtain ⟨parsed₂, hparse₂, hperm₂⟩ := parseWorkflowDefinition_perm hparse hraws'
  obtain ⟨p, log, invs, b, result, db, env, hrunner, -, hbehaviour, hsteps, htrigger, hid, hkept,
    -, hrun, -, hshows, h⟩ := @run_startExecution _ _ _ { workflow with steps := raws } _
      performer_quiet hparse₁ session parent workflowId triggerData tenantId replayedFrom depth w
  obtain ⟨p', log', invs', b', result', db', env', hrunner', -, hbehaviour', hsteps', htrigger',
    hid', hkept', -, hrun', -, hshows', h'⟩ := @run_startExecution _ _ _
      { workflow with steps := raws' } _ performer_quiet hparse₂ session parent workflowId
      triggerData tenantId replayedFrom depth w'
  rw [hrun, ← hid] at hleft
  rw [hrun', ← hid'] at hleft'
  rw [hrun, hrun']
  have hlisted : p.steps.Perm parsed.steps := hsteps ▸ hperm₁
  have hlisted' : p'.steps.Perm parsed.steps := hsteps' ▸ hperm₂
  have hm : Matched p p' log log' :=
    ⟨⟨hlisted.trans hlisted'.symm, htrigger.trans htrigger'.symm,
        hbehaviour.trans (hsame.trans hbehaviour'.symm), hrunner, hrunner'⟩,
      h.alive hshows hleft, h'.alive hshows' hleft', hbranches.perm hlisted.symm,
      hbehaviour ▸ hown.perm hlisted.symm⟩
  cases result with
  | ok value =>
    cases result' with
    | ok value' => exact .inl (.returned (hm.sameOutcome h h' hshows hshows' hlisted))
    | error raised' => exact absurd (hm.not_stuck h h') id
  | error raised =>
    cases result' with
    | ok value' => exact absurd (hm.symm.not_stuck h' h) id
    | error raised' => exact .inr ⟨⟨raised, rfl⟩, raised', rfl⟩

/-! ## Which listings end alike -/

/-- The listing order of the steps does not matter: for two permutations of the steps,
from any two worlds with the same executor, for which no step exhausts its retries,
`start_execution` ends with the same status, the same outputs and the same context. -/
def ListingIrrelevant (libs : Libraries) (settings : Settings) (workflow : Workflow)
    (steps : List StepDefinition) : Prop :=
  ∀ (session : SessionRef) (parent : Option Caller) (workflowId : Uuid)
    (triggerData : Dict String Json) (tenantId : Uuid) (replayedFrom : Option Uuid) (depth : Int)
    (raws raws' : List Json) (w w' : World),
    raws.Perm workflow.steps → raws'.Perm workflow.steps →
    ResultsOwn steps w.env.behaviour → w.env.behaviour = w'.env.behaviour →
    ¬ Exhausted ((startExecution performer session libs settings parent workflowId
      { workflow with steps := raws } triggerData tenantId replayedFrom depth).run w).2.db
      w.db.newUuid →
    ¬ Exhausted ((startExecution performer session libs settings parent workflowId
      { workflow with steps := raws' } triggerData tenantId replayedFrom depth).run w').2.db
      w'.db.newUuid →
    EndAlike steps
      ((startExecution performer session libs settings parent workflowId
        { workflow with steps := raws } triggerData tenantId replayedFrom depth).run w)
      ((startExecution performer session libs settings parent workflowId
        { workflow with steps := raws' } triggerData tenantId replayedFrom depth).run w')

/-- A steered executor does not look at its input. -/
theorem resultsOwn_steer (steps : List StepDefinition) (choice : String → Bool) :
    ResultsOwn steps (steer choice) := by
  intro step _ events events' input input' _ output output' h h'
  cases h
  cases h'
  rfl

theorem returns_steer (choice : String → Bool) :
    ∀ events call, ∃ output, (plainWorld (steer choice)).env.behaviour events call = .ok output :=
  fun _ _ => ⟨_, rfl⟩

section

variable {libs : Libraries} {settings : Settings} {workflow : Workflow}
  {parsed : WorkflowDefinition}

/-- Whether the branches on all routes can be set does not depend on the listing. -/
theorem BranchesSettable.listed {raws : List Json} {parsed' : WorkflowDefinition}
    (hset : BranchesSettable parsed.steps)
    (hparse : parseWorkflowDefinition libs settings
      ⟨workflow.name, workflow.triggerType, workflow.steps⟩ = .ok parsed)
    (hbranches : BranchesBelow parsed.steps) (hraws : raws.Perm workflow.steps)
    (hparse' : parseWorkflowDefinition libs settings ⟨workflow.name, workflow.triggerType, raws⟩ =
      .ok parsed') : BranchesSettable parsed'.steps := by
  intro choice step hstep hcondition hexecutes
  let w := plainWorld (steer choice)
  have hreturned := (runsEndTerminal_iff hparse).mpr hset 0 none 0 [] 0 none 0 w
  obtain ⟨id, e, w', hrun, -⟩ := hreturned
  -- the steered run of the other listing returns, because this one does
  rcases startExecution_perm hparse hbranches (resultsOwn_steer _ choice) rfl (List.Perm.refl _)
    hraws (not_exhausted hparse (returns_steer choice) none 0 [] 0 none 0)
    (@not_exhausted _ _ _ { workflow with steps := raws } _ hparse' _ (returns_steer choice) none 0
      [] 0 none 0) with halike | ⟨⟨r, hraised⟩, -⟩
  · obtain ⟨p, log, invs, b, result, db', env', hrunner, -, hbehaviour, hsteps, -, -, -, -, hrun',
      -, -, h⟩ := @run_startExecution _ _ _ { workflow with steps := raws } _ performer_quiet
        hparse' 0 none 0 [] 0 none 0 w
    obtain ⟨-, -, returned, hok⟩ := halike.returns
    rw [hrun'] at hok
    cases result with
    | error raised => cases hok
    | ok value =>
      rw [← hsteps] at hstep hexecutes
      exact h.settable_of_steered hrunner hbehaviour hstep hcondition hexecutes
  · have hok : ((startExecution performer 0 libs settings none 0 workflow [] 0 none 0).run w).1 =
        .error r := hraised
    rw [hrun] at hok
    cases hok

/-- The listing order does not matter for an accepted workflow, if and only if the branches
on its routes are settable. -/
theorem listingIrrelevant_iff
    (hparse : parseWorkflowDefinition libs settings
      ⟨workflow.name, workflow.triggerType, workflow.steps⟩ = .ok parsed)
    (hbranches : BranchesBelow parsed.steps) :
    ListingIrrelevant libs settings workflow parsed.steps ↔ BranchesSettable parsed.steps := by
  constructor
  · intro hirrelevant choice step hstep hcondition hexecutes
    let w := plainWorld (steer choice)
    have halike := hirrelevant 0 none 0 [] 0 none 0 workflow.steps workflow.steps w w
      (List.Perm.refl _) (List.Perm.refl _) (resultsOwn_steer _ choice) rfl
      (not_exhausted hparse (returns_steer choice) none 0 [] 0 none 0)
      (not_exhausted hparse (returns_steer choice) none 0 [] 0 none 0)
    obtain ⟨p, log, invs, b, result, db', env', hrunner, -, hbehaviour, hsteps, -, -, -, -, hrun,
      -, -, h⟩ := run_startExecution performer_quiet hparse 0 none 0 [] 0 none 0 w
    obtain ⟨returned, hreturned, -⟩ := halike.returns
    have hok : ((startExecution performer 0 libs settings none 0 workflow [] 0 none 0).run w).1 =
        .ok returned := hreturned
    rw [hrun] at hok
    cases result with
    | error raised => cases hok
    | ok value =>
      rw [← hsteps] at hstep hexecutes
      exact h.settable_of_steered hrunner hbehaviour hstep hcondition hexecutes
  · intro hset session parent workflowId triggerData tenantId replayedFrom depth raws raws' w w'
      hraws hraws' hown hsame hleft hleft'
    rcases startExecution_perm hparse hbranches hown hsame hraws hraws' hleft hleft' with
      halike | ⟨⟨r, hraised⟩, -⟩
    · exact halike
    · obtain ⟨parsed', hparse', -⟩ := parseWorkflowDefinition_perm hparse hraws
      have hreturned := (@runsEndTerminal_iff _ _ { workflow with steps := raws } _ hparse').mpr
        (hset.listed hparse hbranches hraws hparse') session parent workflowId triggerData tenantId
          replayedFrom depth w
      obtain ⟨id, e, v, hrun, -⟩ := hreturned
      rw [hrun] at hraised
      cases hraised

end

theorem branchesBelow_branching : BranchesBelow branchingSteps := by
  have hbelow : ∀ s, s = "yes" ∨ s = "no" → Below branchingSteps "check" s := by
    rintro s (rfl | rfl)
    · exact .single ⟨_, List.mem_cons_of_mem _ List.mem_cons_self, rfl, List.mem_cons_self⟩
    · exact .single ⟨_, List.mem_cons_of_mem _ (List.mem_cons_of_mem _ List.mem_cons_self), rfl,
        List.mem_cons_self⟩
  intro step hstep hcondition taken members hset s hs _
  simp only [branchingSteps, List.mem_cons, List.not_mem_nil, or_false] at hstep
  rcases hstep with rfl | rfl | rfl
  · cases taken with
    | true =>
      cases hset
      exact hbelow s (.inl (List.mem_singleton.mp hs))
    | false =>
      cases hset
      exact hbelow s (.inr (List.mem_singleton.mp hs))
  · cases hcondition
  · cases hcondition

/-- The order in which the branching workflow lists its steps does not matter. -/
theorem listingIrrelevant_branching :
    ListingIrrelevant plainLibraries {} branchingWorkflow branchingSteps := by
  have hparse : parseWorkflowDefinition plainLibraries {} ⟨branchingWorkflow.name,
      branchingWorkflow.triggerType, branchingWorkflow.steps⟩ = .ok branchingParsed := rfl
  refine (listingIrrelevant_iff hparse branchesBelow_branching).mpr ?_
  intro choice step hstep hcondition _
  simp only [branchingParsed, branchingSteps, List.mem_cons, List.not_mem_nil, or_false] at hstep
  rcases hstep with rfl | rfl | rfl
  · show ∃ members, branchSet (branchOf _ (!choice "check")) = .ok members
    cases choice "check" with
    | true => exact ⟨["no"], rfl⟩
    | false => exact ⟨["yes"], rfl⟩
  · cases hcondition
  · cases hcondition

/-- Two condition steps whose `false_branch` is `null`. -/
def nullBranchesSteps : List StepDefinition :=
  [plainStep "check" .condition [("expression", .str "true"), ("false_branch", .null)] []
      check_length,
    plainStep "again" .condition [("expression", .str "true"), ("false_branch", .null)] []
      (by decide)]

/-- The workflow of these steps. -/
def nullBranchesWorkflow : Workflow :=
  plainWorkflow [
    rawStep "check" .condition [("expression", .str "true"), ("false_branch", .null)] [],
    rawStep "again" .condition [("expression", .str "true"), ("false_branch", .null)] []]

/-- A run in which both conditions are true, with the steps in the given order. -/
def nullBranchesRun (raws : List Json) : Except Raised (Uuid × Execution) × World :=
  (startExecution performer 0 plainLibraries {} none 0 { nullBranchesWorkflow with steps := raws }
    [] 0 none 0).run (plainWorld (steer (fun _ => true)))

/-- No branch of these steps names a step. -/
theorem branchesBelow_nullBranches : BranchesBelow nullBranchesSteps := by
  intro step hstep hcondition taken members hset s hs _
  simp only [nullBranchesSteps, List.mem_cons, List.not_mem_nil, or_false] at hstep
  rcases hstep with rfl | rfl <;> cases taken <;> cases hset <;> cases hs

/-- The two listings of this accepted workflow both raise.  In the one run `check` has
completed and `again` is pending, in the other one it is the other way round. -/
theorem not_listingIrrelevant_nullBranches :
    parseWorkflowDefinition plainLibraries {} ⟨nullBranchesWorkflow.name,
      nullBranchesWorkflow.triggerType, nullBranchesWorkflow.steps⟩ =
        .ok ⟨"workflow", "manual", nullBranchesSteps, [("check", []), ("again", [])]⟩ ∧
    BranchesBelow nullBranchesSteps ∧
    (nullBranchesRun nullBranchesWorkflow.steps).1 =
      .error (.exception (.other "TypeError" "'NoneType' object is not iterable")) ∧
    (nullBranchesRun nullBranchesWorkflow.steps.reverse).1 =
      .error (.exception (.other "TypeError" "'NoneType' object is not iterable")) ∧
    ((nullBranchesRun nullBranchesWorkflow.steps).2.db.view (.step 2)).map
      (fun row => (row.stepId, row.status)) = some ("check", .completed) ∧
    ((nullBranchesRun nullBranchesWorkflow.steps.reverse).2.db.view (.step 3)).map
      (fun row => (row.stepId, row.status)) = some ("check", .pending) ∧
    ¬ ListingIrrelevant plainLibraries {} nullBranchesWorkflow nullBranchesSteps := by
  have hparse : parseWorkflowDefinition plainLibraries {} ⟨nullBranchesWorkflow.name,
      nullBranchesWorkflow.triggerType, nullBranchesWorkflow.steps⟩ =
        .ok ⟨"workflow", "manual", nullBranchesSteps, [("check", []), ("again", [])]⟩ := rfl
  refine ⟨hparse, branchesBelow_nullBranches, rfl, rfl, by decide +kernel, by decide +kernel,
    fun hirrelevant => ?_⟩
  obtain ⟨parsed', hparse', -⟩ := parseWorkflowDefinition_perm hparse
    (List.reverse_perm nullBranchesWorkflow.steps)
  have halike := hirrelevant 0 none 0 [] 0 none 0 _ _ (plainWorld (steer (fun _ => true)))
    (plainWorld (steer (fun _ => true))) (List.Perm.refl _)
    (List.reverse_perm nullBranchesWorkflow.steps) (resultsOwn_steer _ fun _ => true) rfl
    (not_exhausted hparse (returns_steer _) none 0 [] 0 none 0)
    (@not_exhausted _ _ _ { nullBranchesWorkflow with steps := nullBranchesWorkflow.steps.reverse }
      parsed' hparse' _ (returns_steer _) none 0 [] 0 none 0)
  have hraised : (nullBranchesRun nullBranchesWorkflow.steps).1 =
      .error (.exception (.other "TypeError" "'NoneType' object is not iterable")) := rfl
  obtain ⟨returned, hreturned, -⟩ := halike.returns
  cases hraised.symm.trans hreturned

end WorkflowEngine

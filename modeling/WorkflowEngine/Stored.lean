import WorkflowEngine.EntryEffects
import WorkflowEngine.Termination

/-!
# Stored workflows

The management routes store what the parser has accepted, and change the name, the trigger
type and the steps of a workflow one by one.  In every state that the engine reaches all
stored workflows are accepted by the parser again, and so are those in the cache.  So an
execution of an active workflow is never refused.
-/

namespace WorkflowEngine

open Py Orm Interact

section

variable {libs : Libraries} {settings : Settings}

/-- The parser copies the name and the trigger type, and looks at the steps only. -/
theorem parse_of_steps {steps : List Json} {name triggerType : String}
    {definition : WorkflowDefinition}
    (h : parseWorkflowDefinition libs settings ⟨name, triggerType, steps⟩ = .ok definition)
    (name' triggerType' : String) :
    parseWorkflowDefinition libs settings ⟨name', triggerType', steps⟩ =
      .ok { definition with name := name', triggerType := triggerType' } := by
  unfold parseWorkflowDefinition at h
  rcases bind_eq_ok_iff.mp h with ⟨_, hcount, h⟩
  rcases bind_eq_ok_iff.mp h with ⟨parsed, hparsed, h⟩
  rcases bind_eq_ok_iff.mp h with ⟨_, hvalid, h⟩
  cases h
  unfold parseWorkflowDefinition
  exact bind_eq_ok_iff.mpr ⟨_, hcount, bind_eq_ok_iff.mpr ⟨parsed, hparsed,
    bind_eq_ok_iff.mpr ⟨_, hvalid, rfl⟩⟩⟩

/-- The columns of a workflow that a start relies on. -/
structure Defined (libs : Libraries) (settings : Settings) (workflow : Workflow) : Prop where
  name : 1 ≤ workflow.name.length ∧ workflow.name.length ≤ 200
  triggerType : workflow.triggerType ∈ triggerTypes
  /-- A workflow can be found by its path if it is a webhook workflow, and only then. -/
  webhookPath : if workflow.triggerType = "webhook" then
      ∃ path, workflow.webhookPath = some path ∧ path ≠ ""
    else workflow.webhookPath = none
  parse : ∃ definition, parseWorkflowDefinition libs settings
    ⟨workflow.name, workflow.triggerType, workflow.steps⟩ = .ok definition

theorem generateWebhookPath_ne_empty (generated : Uuid) : generateWebhookPath generated ≠ "" := by
  intro h
  have hlength := congrArg String.length h
  rw [generateWebhookPath, String.length_append] at hlength
  have hprefix : "wh_".length = 3 := rfl
  have hempty : "".length = 0 := rfl
  omega

theorem defined_created (body : WorkflowCreateRequest) (tenantId generated : Uuid)
    {definition : WorkflowDefinition} (hparse : parseWorkflowDefinition libs settings
      ⟨body.name, body.triggerType, body.steps.map .obj⟩ = .ok definition) :
    Defined libs settings (body.row tenantId generated) := by
  refine ⟨⟨body.name_nonempty, body.name_short⟩, body.triggerType_known, ?_, definition, hparse⟩
  show if body.triggerType = "webhook" then
      ∃ path, (if body.triggerType = "webhook" then some (generateWebhookPath generated) else none) =
        some path ∧ path ≠ ""
    else (if body.triggerType = "webhook" then some (generateWebhookPath generated) else none) = none
  split
  · exact ⟨_, rfl, generateWebhookPath_ne_empty generated⟩
  · rfl

/-- What `update_workflow` assigns keeps the path with the trigger type. -/
theorem webhookPath_assign {body : WorkflowUpdateRequest} {workflow : Workflow}
    (h : Defined libs settings workflow) (generated : Uuid) :
    if (body.assign generated workflow workflow).triggerType = "webhook" then
      ∃ path, (body.assign generated workflow workflow).webhookPath = some path ∧ path ≠ ""
    else (body.assign generated workflow workflow).webhookPath = none := by
  show if body.triggerType.getD workflow.triggerType = "webhook" then
      ∃ path, body.path generated workflow workflow.webhookPath = some path ∧ path ≠ ""
    else body.path generated workflow workflow.webhookPath = none
  cases htype : body.triggerType with
  | none =>
    simp only [WorkflowUpdateRequest.path, htype, Option.getD_none]
    exact h.webhookPath
  | some triggerType =>
    simp only [WorkflowUpdateRequest.path, htype, Option.getD_some]
    split
    · split
      · exact ⟨_, rfl, generateWebhookPath_ne_empty generated⟩
      · rename_i hpath
        cases hfound : workflow.webhookPath.filter (· ≠ "") with
        | none =>
          rw [hfound] at hpath
          exact absurd rfl hpath
        | some path =>
          obtain ⟨hsome, hne⟩ := Option.filter_eq_some_iff.mp hfound
          exact ⟨path, hsome, of_decide_eq_true hne⟩
    · rfl

theorem defined_updated {body : WorkflowUpdateRequest} {workflow : Workflow}
    (h : Defined libs settings workflow) (hcheck : body.check libs settings workflow = .ok ())
    (generated : Uuid) : Defined libs settings (body.assign generated workflow workflow) := by
  refine ⟨?_, ?_, webhookPath_assign h generated, ?_⟩
  · show 1 ≤ (body.name.getD workflow.name).length ∧ (body.name.getD workflow.name).length ≤ 200
    cases hname : body.name with
    | none => exact h.name
    | some name => exact ⟨body.name_nonempty name hname, body.name_short name hname⟩
  · show body.triggerType.getD workflow.triggerType ∈ triggerTypes
    cases htype : body.triggerType with
    | none => exact h.triggerType
    | some triggerType => exact body.triggerType_known triggerType htype
  · show ∃ definition, parseWorkflowDefinition libs settings ⟨body.name.getD workflow.name,
      body.triggerType.getD workflow.triggerType,
      (body.steps.map (fun steps => steps.map Json.obj)).getD workflow.steps⟩ = .ok definition
    cases hsteps : body.steps with
    | none =>
      -- the steps are not sent again, and were accepted under the old name
      rcases h.parse with ⟨definition, hparse⟩
      exact ⟨_, parse_of_steps hparse _ _⟩
    | some steps =>
      simp only [WorkflowUpdateRequest.check, hsteps] at hcheck
      rcases bind_eq_ok_iff.mp hcheck with ⟨definition, hparse, -⟩
      exact ⟨definition, hparse⟩

/-- All stored workflows are accepted by the parser. -/
def AllDefined (libs : Libraries) (settings : Settings) (v : View) : Prop :=
  ∀ id row, v (.workflow id) = some row → Defined libs settings row

theorem AllDefined.effect {copies : Uuid → Workflow → Prop} {v v' : View}
    (h : AllDefined libs settings v) (heffect : Effect libs settings copies v v') :
    AllDefined libs settings v' := by
  intro id row hrow
  rcases heffect.workflow id row hrow with hold | hstores
  · exact h id row hold
  · cases hstores with
    | created body tenantId generated hparse => exact defined_created body tenantId generated hparse
    | updated body generated hstored hcheck => exact defined_updated (h id _ hstored) hcheck generated

variable {wire : Wire} {s : Engine}

theorem Engine.Reachable.allDefined (h : Engine.Reachable libs settings wire s) :
    AllDefined libs settings (Rows.row s.rows) :=
  h.holds (fun _ _ hrow => by simp [Rows.row] at hrow) fun _ _ _ _ heffect hold =>
    hold.effect heffect

/-- In every state that the engine reaches, one request after another, the parser accepts every
workflow that is stored and every workflow that is in the cache; its trigger type is one of the
three, and it has a webhook path if and only if that is `webhook`. -/
theorem defined_of_reachable (h : Engine.Reachable libs settings wire s) :
    AllDefined libs settings (Rows.row s.rows) ∧
      ∀ found ∈ s.cached, Defined libs settings found.2 := by
  refine ⟨h.allDefined, ?_⟩
  unfold Engine.Reachable at h
  induction h with
  | refl => exact fun found hfound => absurd hfound List.not_mem_nil
  | tail hreached hstep hcached =>
    cases hstep with
    | entry entry session fuel env hoffers => exact hcached
    | schedule => exact hcached
    | cache id workflow hrow =>
      -- the copy is of the row as it stands
      intro found hfound
      rcases List.mem_cons.mp hfound with rfl | hold
      · exact Engine.Reachable.allDefined hreached id workflow hrow
      · exact hcached found hold
    | drop jobs cached hjobs hsubset => exact fun found hfound => hcached found (hsubset hfound)

theorem defined_replayedEngine :
    AllDefined plainLibraries {} (Rows.row Engine.replayedEngine.rows) ∧
      ∀ found ∈ Engine.replayedEngine.cached, Defined plainLibraries {} found.2 :=
  defined_of_reachable Engine.reachable_replayedEngine

end

/-! ## Executing a stored workflow -/

section

variable {libs : Libraries} {settings : Settings} {wire : Wire} {s : Engine}

/-- What the request to execute a workflow answers and leaves. -/
structure Executed (t t' : Rows Row) (workflowId : Uuid) (workflow : Workflow)
    (triggerData : Dict String Json) (id : Uuid) (e : Execution) : Prop where
  added : AddsRun (Rows.row t) (Rows.row t') id e
  terminal : e.status.terminal = true
  workflowId : e.workflowId = workflowId
  tenantId : e.tenantId = workflow.tenantId
  triggerData : e.triggerData = triggerData
  original : e.replayedFrom = none

/-- In every state that the engine reaches, one request after another, an active workflow whose
condition steps can set their branches is executed, as long as no statement fails: the request is
accepted with the id of a new execution, which is committed in a terminal status, and nothing that
was there has changed. -/
theorem manualExecute_of_reachable (h : Engine.Reachable libs settings wire s) {workflowId : Uuid}
    {workflow : Workflow} (hrow : Rows.row s.rows (.workflow workflowId) = some workflow)
    (hactive : workflow.isActive = true)
    (hset : ∀ definition, parseWorkflowDefinition libs settings
      ⟨workflow.name, workflow.triggerType, workflow.steps⟩ = .ok definition →
        BranchesSettable definition.steps)
    (data : Dict String Json) (session : SessionRef) (fuel : Nat) (env : Environment) :
    ∃ id e w, (manualExecute (nesting libs settings performer session fuel) session libs settings
        workflowId workflow.tenantId data).run ⟨⟨s.rows, Session.fresh⟩, env⟩ =
          (.ok (.accepted id), w) ∧
      Executed s.rows w.db.committed workflowId workflow
        [("source", .str "manual"), ("data", .obj data)] id e := by
  rcases (h.allDefined workflowId workflow hrow).parse with ⟨definition, hparse⟩
  let w : World := ⟨DbState.load ⟨s.rows, Session.fresh⟩ (.workflow workflowId) workflow default, env⟩
  have hfound : (getTenantWorkflow workflowId workflow.tenantId).run
      ⟨⟨s.rows, Session.fresh⟩, env⟩ = (.ok workflow, w) :=
    run_getTenantWorkflow ((congrFun (view_opened s.rows) _).trans hrow) rfl rfl env
  have hread : Reading s.rows w.db := (reading_opened s.rows).load hrow default
  have hvalid : validateWorkflowActive workflow = .ok () := by rw [validateWorkflowActive, if_pos hactive]
  rcases startEffect libs settings session fuel none workflowId workflow
    [("source", .str "manual"), ("data", .obj data)] workflow.tenantId none 0 hread.synced with
    ⟨result, db', env', hrun, -, -, heffect⟩
  cases heffect with
  | refused parse => simp [hparse] at parse
  | raised added origin running unset =>
    rcases unset with ⟨parsed, hparsed, hnot⟩
    exact absurd (hset parsed hparsed) hnot
  | returned added origin terminal =>
    rename_i id e
    obtain ⟨htenant, hworkflow, hdata, hreplayed⟩ := columns_of_origin origin
    refine ⟨id, e, ⟨db'.commit, env'⟩, ?_, ?_, terminal, hworkflow, htenant, hdata, hreplayed⟩
    · rw [manualExecute, Prog.run_bind_ok hfound, hvalid, Prog.run_bind_ok (Prog.run_liftExcept _ _),
        Prog.run_bind_ok hrun]
      rfl
    · rw [hread.view] at added
      exact added

/-- The workflow of the webhook can be executed, too. -/
theorem manualExecute_replayedEngine : ∃ workflow : Workflow,
    Rows.row Engine.replayedEngine.rows (.workflow 1) = some workflow ∧
      ∃ id e w, (manualExecute (nesting plainLibraries {} performer 0 0) 0 plainLibraries {} 1
          workflow.tenantId []).run
          ⟨⟨Engine.replayedEngine.rows, Session.fresh⟩, Engine.quietEnvironment⟩ =
        (.ok (.accepted id), w) ∧
      Executed Engine.replayedEngine.rows w.db.committed 1 workflow
        [("source", .str "manual"), ("data", .obj [])] id e := by
  have hstored : (Rows.row Engine.replayedEngine.rows (.workflow 1)).any
      (fun workflow : Workflow => workflow.isActive &&
        (parseWorkflowDefinition plainLibraries {}
          ⟨workflow.name, workflow.triggerType, workflow.steps⟩).toOption.all (fun definition =>
            definition.steps.all (fun step => decide (step.type ≠ .condition)))) = true := by
    decide +kernel
  rcases (Option.any_eq_true _ _).mp hstored with ⟨workflow, hrow, hchecked⟩
  obtain ⟨hactive, hsteps⟩ := Bool.and_eq_true_iff.mp hchecked
  refine ⟨workflow, hrow, manualExecute_of_reachable Engine.reachable_replayedEngine hrow hactive
    (fun definition hparse choice step hmem hcondition => ?_) [] 0 0 _⟩
  rw [hparse] at hsteps
  exact absurd hcondition (of_decide_eq_true (List.all_eq_true.mp hsteps step hmem))

end

end WorkflowEngine

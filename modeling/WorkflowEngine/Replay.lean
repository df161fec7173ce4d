import WorkflowEngine.Accepted
import WorkflowEngine.Attempts
import WorkflowEngine.Callers
import WorkflowEngine.Plain
import WorkflowEngine.Triggers

/-!
# Overrides in a replay

A manual execution and a sub-workflow put the data of the caller under `data`, a
webhook puts it under `payload`.  `replay_execution` merges the overrides under
`data` in any case: `replayOverrides_iff`.
-/

namespace WorkflowEngine

open Py Orm Interact

/-- How an execution was started, with the data of its caller: by `manual_execute`,
by `receive_webhook` with a payload that is an object, or by a sub-workflow step. -/
inductive Source where
  | manual (data : Dict String Json)
  | webhook (payload headers : Dict String Json)
  | subWorkflow (data : Dict String Json)

namespace Source

/-- The trigger data. -/
def triggerData : Source → Dict String Json
  | manual data => [("source", .str "manual"), ("data", .obj data)]
  | webhook payload headers => [("payload", .obj payload), ("headers", .obj headers)]
  | subWorkflow data => [("source", .str "sub_workflow"), ("data", .obj data)]

/-- Where the data of the caller is. -/
def dataKey : Source → String
  | manual _ => "data"
  | webhook _ _ => "payload"
  | subWorkflow _ => "data"

/-- Whether it was a webhook. -/
def isWebhook : Source → Bool
  | webhook _ _ => true
  | _ => false

end Source

/-- A sub-workflow step hands over what its input mapping gives. -/
theorem buildTriggerData_source {libs : Libraries} {config : Dict String Json} {vars : Vars}
    {triggerData : Dict String Json} (h : buildTriggerData libs config vars = .ok triggerData) :
    ∃ data, triggerData = (Source.subWorkflow data).triggerData := by
  unfold buildTriggerData at h
  dsimp only at h
  split at h
  · split at h
    · obtain ⟨data, -, h⟩ := bind_eq_ok_iff.mp h
      cases h
      exact ⟨data, rfl⟩
    · cases h
  · cases h
    exact ⟨[], rfl⟩

/-- What a template finds under a path of names. -/
def dotted : Json → List String → Option Json
  | value, [] => some value
  | .obj fields, name :: rest => (Dict.get? fields name).bind (fun value => dotted value rest)
  | _, _ :: _ => none

theorem dotted_trigger (triggerData steps : Dict String Json) (name : String)
    (rest : List String) :
    dotted (.obj (runContext triggerData steps)) ("trigger" :: name :: rest) =
      (Dict.get? triggerData name).bind (fun value => dotted value rest) := rfl

theorem dotted_field (fields : Dict String Json) (k : String) :
    dotted (.obj fields) [k] = Dict.get? fields k := by
  rw [dotted]
  cases Dict.get? fields k <;> rfl

/-- The run on the new trigger data exposes the overrides in the place of the
caller's data, whatever steps have completed, and everything else as it was. -/
structure Exposes (source : Source) (overrideData triggerData : Dict String Json) : Prop where
  overridden : ∀ steps k v, Dict.get? overrideData k = some v →
    dotted (.obj (runContext triggerData steps)) ["trigger", source.dataKey, k] = some v
  kept : ∀ steps k, k ∉ Dict.keys overrideData →
    dotted (.obj (runContext triggerData steps)) ["trigger", source.dataKey, k] =
      dotted (.obj (runContext source.triggerData steps)) ["trigger", source.dataKey, k]
  others : ∀ steps name, name ≠ source.dataKey →
    dotted (.obj (runContext triggerData steps)) ["trigger", name] =
      dotted (.obj (runContext source.triggerData steps)) ["trigger", name]

/-- The overrides over the data of the caller. -/
theorem get?_updated {overrideData : Dict String Json} (hkeys : (Dict.keys overrideData).Nodup)
    (data : Dict String Json) (k : String) :
    Dict.get? (overrideData.foldl (fun d item => Dict.set d item.1 item.2) data) k =
      (Dict.get? overrideData k).or (Dict.get? data k) := Dict.get?_foldl_set hkeys data k

theorem replayTriggerData_data {original overrideData data : Dict String Json}
    (hne : overrideData ≠ []) (hdata : Dict.getD original "data" (.obj []) = .obj data) :
    replayTriggerData original overrideData = .ok (Dict.set original "data"
      (.obj (overrideData.foldl (fun d item => Dict.set d item.1 item.2) data))) := by
  rw [replayTriggerData, if_neg (by simpa using hne), hdata]
  rfl

/-- Under `data` the overrides are where the caller's data is. -/
theorem exposes_of_data {source : Source} {overrideData data : Dict String Json}
    (hkeys : (Dict.keys overrideData).Nodup) (hkey : source.dataKey = "data")
    (hdata : Dict.get? source.triggerData "data" = some (.obj data)) :
    Exposes source overrideData (Dict.set source.triggerData "data"
      (.obj (overrideData.foldl (fun d item => Dict.set d item.1 item.2) data))) := by
  constructor
  case overridden =>
    intro steps k v hv
    rw [dotted_trigger, hkey, Dict.get?_set_self, Option.bind_some, dotted_field,
      get?_updated hkeys, hv]
    rfl
  case kept =>
    intro steps k hk
    rw [dotted_trigger, dotted_trigger, hkey, Dict.get?_set_self, hdata, Option.bind_some,
      Option.bind_some, dotted_field, dotted_field, get?_updated hkeys,
      (Dict.get?_eq_none_iff overrideData k).mpr hk, Option.none_or]
  case others =>
    intro steps name hname
    rw [hkey] at hname
    rw [dotted_trigger, dotted_trigger, Dict.get?_set_ne _ _ hname.symm]

/-- Beside `payload` the overrides are new trigger data. -/
theorem not_exposes_webhook {payload headers overrideData : Dict String Json} {data : Json} :
    ¬ Exposes (.webhook payload headers) overrideData
      (Dict.set (Source.webhook payload headers).triggerData "data" data) := by
  intro h
  have hother : "data" ≠ (Source.webhook payload headers).dataKey := by
    show "data" ≠ "payload"
    decide
  have hdata := h.others [] "data" hother
  rw [dotted_trigger, dotted_trigger, Dict.get?_set_self] at hdata
  cases hdata

/-- `replay_execution` goes on with `start_execution` on the merged trigger data. -/
theorem run_replayExecution {runner : Runner} {session : SessionRef} {libs : Libraries}
    {settings : Settings} {executionId tenantId : Uuid}
    {overrideData triggerData : Dict String Json} {w w₁ w₂ : World} {original : Execution}
    {workflow : Workflow}
    (hfound : (selectExecution executionId (fun execution => execution.tenantId = tenantId)).run w =
      (.ok (some original), w₁))
    (hworkflow : (getTenantWorkflow original.workflowId tenantId).run w₁ = (.ok workflow, w₂))
    (hactive : workflow.isActive = true)
    (hdata : replayTriggerData original.triggerData overrideData = .ok triggerData) :
    (replayExecution runner session libs settings executionId tenantId overrideData).run w =
      (startExecution runner session libs settings none original.workflowId workflow triggerData
        tenantId (some executionId) 0).run w₂ := by
  have hvalid : validateWorkflowActive workflow = .ok () := by
    rw [validateWorkflowActive, if_pos hactive]
  rw [replayExecution, Prog.run_bind_ok hfound]
  refine (Prog.run_bind_ok hworkflow).trans ?_
  rw [hvalid, hdata]
  refine (Prog.run_bind_ok (Prog.run_liftExcept _ _)).trans ?_
  exact (Prog.run_bind_ok (Prog.run_liftExcept _ _)).trans rfl

/-- For an execution that was started with a caller's data, a replay with overrides
runs on trigger data that expose them, exactly if it was not a webhook. -/
theorem replayOverrides_iff {runner : Runner} {session : SessionRef} {libs : Libraries}
    {settings : Settings} {executionId tenantId : Uuid} {overrideData : Dict String Json}
    {w w₁ w₂ : World} {original : Execution} {workflow : Workflow} {source : Source}
    (hfound : (selectExecution executionId (fun execution => execution.tenantId = tenantId)).run w =
      (.ok (some original), w₁))
    (hworkflow : (getTenantWorkflow original.workflowId tenantId).run w₁ = (.ok workflow, w₂))
    (hactive : workflow.isActive = true) (hsource : original.triggerData = source.triggerData)
    (hkeys : (Dict.keys overrideData).Nodup) (hne : overrideData ≠ []) :
    (∃ triggerData, replayTriggerData original.triggerData overrideData = .ok triggerData ∧
      (replayExecution runner session libs settings executionId tenantId overrideData).run w =
        (startExecution runner session libs settings none original.workflowId workflow triggerData
          tenantId (some executionId) 0).run w₂ ∧
      Exposes source overrideData triggerData) ↔ source.isWebhook = false := by
  rw [hsource]
  have hrun : ∀ triggerData, replayTriggerData source.triggerData overrideData = .ok triggerData →
      (replayExecution runner session libs settings executionId tenantId overrideData).run w =
        (startExecution runner session libs settings none original.workflowId workflow triggerData
          tenantId (some executionId) 0).run w₂ := by
    rw [← hsource]
    exact fun triggerData => run_replayExecution hfound hworkflow hactive
  cases source with
  | manual data =>
    have hmerged := replayTriggerData_data hne
      (show Dict.getD (Source.manual data).triggerData "data" (.obj []) = .obj data from rfl)
    exact iff_of_true ⟨_, hmerged, hrun _ hmerged, exposes_of_data hkeys rfl rfl⟩ rfl
  | webhook payload headers =>
    have hmerged := replayTriggerData_data hne
      (show Dict.getD (Source.webhook payload headers).triggerData "data" (.obj []) = .obj []
        from rfl)
    refine iff_of_false ?_ (fun h => nomatch h)
    rintro ⟨triggerData, hdata, -, hexposes⟩
    cases hdata.symm.trans hmerged
    exact not_exposes_webhook hexposes
  | subWorkflow data =>
    have hmerged := replayTriggerData_data hne
      (show Dict.getD (Source.subWorkflow data).triggerData "data" (.obj []) = .obj data from rfl)
    exact iff_of_true ⟨_, hmerged, hrun _ hmerged, exposes_of_data hkeys rfl rfl⟩ rfl

/-! ## Replays of one execution -/

/-- A session that has loaded nothing gets the execution and its workflow. -/
theorem run_lookups {db : Db} {executionId tenantId : Uuid} {original : Execution}
    {workflow : Workflow} (hview : db.view (.execution executionId) = some original)
    (hloaded : db.loaded (.execution executionId) = none) (htenant : original.tenantId = tenantId)
    (hview' : db.view (.workflow original.workflowId) = some workflow)
    (hloaded' : db.loaded (.workflow original.workflowId) = none)
    (htenant' : workflow.tenantId = tenantId) (env : Environment) :
    ∃ w₁ w₂, (selectExecution executionId (fun execution => execution.tenantId = tenantId)).run
        ⟨db, env⟩ = (.ok (some original), w₁) ∧
      (getTenantWorkflow original.workflowId tenantId).run w₁ = (.ok workflow, w₂) := by
  have hp : decide (original.tenantId = tenantId) = true := decide_eq_true htenant
  let db₁ : Db := db.load (.execution executionId) original .nothing
  have hselect : (selectExecution executionId (fun execution => execution.tenantId = tenantId)).run
      ⟨db, env⟩ = (.ok (some original), ⟨db₁, env⟩) := by
    rw [selectExecution, run_db, DbState.answer_select_new hview hp hloaded]
    rfl
  have hne : (.workflow original.workflowId : RowId) ≠ .execution executionId := by simp
  have hkept : db₁.loaded (.workflow original.workflowId) = none :=
    (DbState.loaded_load_ne db _ _ hne).trans hloaded'
  have hseen : db₁.view (.workflow original.workflowId) = some workflow := hview'
  exact ⟨_, _, hselect, run_getTenantWorkflow hseen hkept htenant' _⟩

/-- An execution that was started so, of an active workflow. -/
def sourceExecution (source : Source) : Execution :=
  { newExecution 2 1 source.triggerData none with status := .completed }

/-- A new session on a database with it. -/
def sourceWorld (source : Source) : World where
  db := ⟨Rows.ofList [⟨.execution 1, sourceExecution source⟩, ⟨.workflow 2, plainWorkflow []⟩],
    Session.fresh⟩
  env := plainEnvironment (fun _ _ => .ok [])

theorem view_sourceWorld (source : Source) :
    (sourceWorld source).db.view (.execution 1) = some (sourceExecution source) ∧
      (sourceWorld source).db.view (.workflow 2) = some (plainWorkflow []) := by
  have hne : (.workflow 2 : RowId) ≠ .execution 1 := nofun
  constructor
  · exact Rows.row_ofList_self _ _ _
  · exact (Rows.row_ofList_ne hne _ _).trans (Rows.row_ofList_self _ _ _)

theorem run_sourceWorld (source : Source) : ∃ w₁ w₂,
    (selectExecution 1 (fun execution => execution.tenantId = 1)).run (sourceWorld source) =
      (.ok (some (sourceExecution source)), w₁) ∧
    (getTenantWorkflow 2 1).run w₁ = (.ok (plainWorkflow []), w₂) := by
  obtain ⟨hexecution, hworkflow⟩ := view_sourceWorld source
  exact run_lookups hexecution rfl rfl hworkflow rfl rfl _

/-- A manual execution with an override. -/
theorem replayOverrides_iff_manual :
    ∃ triggerData w₂, replayTriggerData (Source.manual [("key", .str "val")]).triggerData
        [("key", .str "new")] = .ok triggerData ∧
      (replayExecution performer 0 plainLibraries {} 1 1 [("key", .str "new")]).run
          (sourceWorld (.manual [("key", .str "val")])) =
        (startExecution performer 0 plainLibraries {} none 2 (plainWorkflow []) triggerData
          1 (some 1) 0).run w₂ ∧
      Exposes (.manual [("key", .str "val")]) [("key", .str "new")] triggerData := by
  obtain ⟨w₁, w₂, hfound, hworkflow⟩ := run_sourceWorld (.manual [("key", .str "val")])
  have hkeys : (Dict.keys [("key", Json.str "new")]).Nodup := by decide
  obtain ⟨triggerData, hdata, hrun, hexposes⟩ :=
    (replayOverrides_iff hfound hworkflow rfl
      (show _ = (Source.manual [("key", .str "val")]).triggerData from rfl) hkeys
      (List.cons_ne_nil _ _)).mpr rfl
  exact ⟨triggerData, w₂, hdata, hrun, hexposes⟩

/-- The payload of a webhook is not overridden. -/
theorem not_replayOverrides :
    ¬ ∀ (runner : Runner) (session : SessionRef) (libs : Libraries) (settings : Settings)
      (executionId tenantId : Uuid) (overrideData : Dict String Json) (w w₁ w₂ : World)
      (original : Execution) (workflow : Workflow) (source : Source),
      (selectExecution executionId (fun execution => execution.tenantId = tenantId)).run w =
        (.ok (some original), w₁) →
      (getTenantWorkflow original.workflowId tenantId).run w₁ = (.ok workflow, w₂) →
      workflow.isActive = true → original.triggerData = source.triggerData →
      (Dict.keys overrideData).Nodup → overrideData ≠ [] →
      ∃ triggerData, replayTriggerData original.triggerData overrideData = .ok triggerData ∧
        (replayExecution runner session libs settings executionId tenantId overrideData).run w =
          (startExecution runner session libs settings none original.workflowId workflow
            triggerData tenantId (some executionId) 0).run w₂ ∧
        Exposes source overrideData triggerData := by
  intro hall
  let source : Source := .webhook [("key", .str "val")] []
  obtain ⟨w₁, w₂, hfound, hworkflow⟩ := run_sourceWorld source
  obtain ⟨triggerData, hdata, -, hexposes⟩ :=
    hall performer 0 plainLibraries {} 1 1 [("key", .str "new")] _ _ _ _ _ source hfound hworkflow
      rfl rfl (by decide) (List.cons_ne_nil _ _)
  have hmerged : replayTriggerData (sourceExecution source).triggerData [("key", .str "new")] =
      .ok (Dict.set source.triggerData "data" (.obj [("key", .str "new")])) := by rfl
  cases hdata.symm.trans hmerged
  exact not_exposes_webhook hexposes

end WorkflowEngine

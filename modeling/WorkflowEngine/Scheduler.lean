import WorkflowEngine.Cron
import WorkflowEngine.Management

/-!
# The jobs of the scheduler

`start_scheduler` of `src/triggers/cron.py` adds a job for each active workflow with a cron
trigger.  The module says that the scheduler is updated when a workflow is changed or
deleted, but nothing calls `add_cron_job` and `remove_cron_job`: the routes leave the jobs
as they are.

`scheduler_mirrors` says for which runs the jobs are those of the stored workflows in every
state, and `not_scheduler_mirrors` has a run where they are not.
-/

namespace WorkflowEngine

open Py Orm Interact

/-! ## Starting the scheduler -/

/-- A job of the scheduler: the fields of its trigger and its arguments. -/
structure CronJob where
  fields : Cron.CronFields
  workflowId : String
  tenantId : String

/-- `f"cron_{wf.id}"`. -/
def cronJobId (workflowId : Uuid) : String := "cron_" ++ workflowId.toText

/-- The condition of `load_cron_workflows`. -/
def isCronWorkflow (item : Uuid × FullRow .workflows) : Bool :=
  decide (Workflow.triggerType item.2.1 = "cron") && Workflow.isActive item.2.1

/-- What `load_cron_workflows` can answer: there is a limit and no order. -/
structure LoadsCronWorkflows (d : Database) (maxCronWorkflows : Nat)
    (workflows : List (Uuid × FullRow .workflows)) : Prop where
  stored : (workflows : Multiset _) ≤ d.select .workflows isCronWorkflow
  length : workflows.length = min maxCronWorkflows (d.select .workflows isCronWorkflow).card

/-- `(wf.trigger_config or {}).get("cron_expression", "")`. -/
def cronExpression (triggerConfig : Dict String Json) : Json :=
  Dict.getD triggerConfig "cron_expression" (.str "")

section

variable (trigger : Cron.CronTrigger)

/-- One round of the loop in `start_scheduler`. -/
def scheduleWorkflow (jobs : Dict String CronJob) (item : Uuid × FullRow .workflows) :
    Except PyError (Dict String CronJob) :=
  let cronExpr := cronExpression item.2.2.triggerConfig
  if !cronExpr.truthy then .ok jobs
  else
    match cronExpr with
    | .str expression =>
      match Cron.parseCronExpression trigger expression with
      | .ok fields => .ok (Dict.set jobs (cronJobId item.1)
          ⟨fields, item.1.toText, (Workflow.tenantId item.2.1).toText⟩)
      | .error _ => .ok jobs
    | _ => .error (noAttribute cronExpr "strip")

/-- `start_scheduler`, with the workflows that were loaded. -/
def startScheduler (workflows : List (Uuid × FullRow .workflows)) :
    Except PyError (Dict String CronJob) :=
  workflows.foldlM (scheduleWorkflow trigger) []

end

/-! ## The server -/

/-- The database and the jobs of the scheduler. -/
structure Server where
  database : Database
  jobs : Dict String CronJob

/-- The startup.  Where `start_scheduler` raises, the server goes on without jobs. -/
def Server.start (trigger : Cron.CronTrigger) (d : Database)
    (workflows : List (Uuid × FullRow .workflows)) : Server :=
  ⟨d, (startScheduler trigger workflows).toOption.getD []⟩

/-- A request of a tenant to the management API. -/
structure ApiCall where
  surroundings : Surroundings
  tenantId : Uuid
  request : ManagementRequest

section

variable (libs : Libraries) (settings : Settings) (fromisoformat : String → Option Time)
  (rate : Nat → Nat → Json)

/-- The server after a request. -/
def Server.after (s : Server) (call : ApiCall) : Server :=
  { s with database := (manage libs settings fromisoformat rate call.surroundings s.database
      call.tenantId call.request).2 }

end

/-! ## Jobs and workflows -/

section

variable (trigger : Cron.CronTrigger)

/-- The fields of a valid expression. -/
def expressionFields? : Json → Option Cron.CronFields
  | .str expression => (Cron.parseCronExpression trigger expression).toOption
  | _ => none

/-- The fields for a workflow that is active and has a cron trigger with a valid expression. -/
def cronFields? (isActive : Bool) (triggerType : String) (triggerConfig : Dict String Json) :
    Option Cron.CronFields :=
  if isActive = true ∧ triggerType = "cron" then
    expressionFields? trigger (cronExpression triggerConfig)
  else none

/-- The job that a stored workflow is to have. -/
def Database.cronJob? (d : Database) (id : Uuid) : Option CronJob :=
  (d.row .workflows id).bind fun row =>
    (cronFields? trigger (Workflow.isActive row.1) (Workflow.triggerType row.1)
      row.2.triggerConfig).map fun fields =>
        ⟨fields, id.toText, (Workflow.tenantId row.1).toText⟩

/-- The jobs are those of the stored workflows. -/
def Server.Mirrors (s : Server) : Prop :=
  ∀ jobId job, Dict.get? s.jobs jobId = some job ↔
    ∃ id, s.database.cronJob? trigger id = some job ∧ jobId = cronJobId id

/-- An expression that `start_scheduler` can read: it is empty or a text. -/
def Readable (cronExpr : Json) : Prop := cronExpr.truthy = true → ∃ text, cronExpr = .str text

/-- `start_scheduler` can read the expression of every workflow that it loads, or none of
the workflows is to have a job. -/
def Database.StartsWell (d : Database) : Prop :=
  (∀ id row, d.row .workflows id = some row → isCronWorkflow (id, row) = true →
    Readable (cronExpression row.2.triggerConfig)) ∨
  ∀ id, d.cronJob? trigger id = none

end

section

variable (trigger : Cron.CronTrigger) (libs : Libraries) (settings : Settings)

/-- The request changes nothing that a job depends on. -/
def ManagementRequest.LeavesJobs (d : Database) (tenantId : Uuid) : ManagementRequest → Prop
  | .createWorkflow body =>
    cronFields? trigger body.isActive body.triggerType body.triggerConfig = none ∨
      ∃ exc, parseWorkflowDefinition libs settings
        ⟨body.name, body.triggerType, body.steps.map .obj⟩ = .error exc
  | .updateWorkflow workflowId body => ∀ workflow,
      d.tenantWorkflow workflowId tenantId = some workflow →
      body.check libs settings workflow = .ok () →
        cronFields? trigger (body.isActive.getD workflow.isActive)
            (body.triggerType.getD workflow.triggerType)
            (body.triggerConfig.getD (d.details workflowId).triggerConfig) =
          cronFields? trigger workflow.isActive workflow.triggerType
            (d.details workflowId).triggerConfig
  | .deleteWorkflow workflowId => ∀ workflow,
      d.tenantWorkflow workflowId tenantId = some workflow →
        cronFields? trigger workflow.isActive workflow.triggerType
          (d.details workflowId).triggerConfig = none
  | _ => True

/-- One request that changes nothing that a job depends on. -/
def Server.Leaves (fromisoformat : String → Option Time) (rate : Nat → Nat → Json)
    (s s' : Server) : Prop :=
  ∃ call : ApiCall, call.request.LeavesJobs trigger libs settings s.database call.tenantId ∧
    s' = s.after libs settings fromisoformat rate call

end

/-! ## What the start adds -/

section

variable {trigger : Cron.CronTrigger}

theorem cronJobId_injective {id id' : Uuid} (h : id < 16 ^ 32) (h' : id' < 16 ^ 32)
    (heq : cronJobId id = cronJobId id') : id = id' := by
  have htext : id.toText = id'.toText := String.ext (List.append_cancel_left (by
    have hlist := congrArg String.toList heq
    rwa [cronJobId, cronJobId, String.toList_append, String.toList_append] at hlist))
  have hparse := Uuid.parse_toText h
  rw [htext, Uuid.parse_toText h'] at hparse
  exact (Option.some.inj hparse).symm

/-- The entry that the loop adds for a workflow. -/
def keyedJob? (trigger : Cron.CronTrigger) (d : Database) (item : Uuid × FullRow .workflows) :
    Option (String × CronJob) :=
  (d.cronJob? trigger item.1).map (fun job => (cronJobId item.1, job))

/-- A round of the loop for an expression. -/
theorem scheduleWorkflow_cases (trigger : Cron.CronTrigger)
    (jobs : Dict String CronJob) (item : Uuid × FullRow .workflows) :
    scheduleWorkflow trigger jobs item =
        .ok ((expressionFields? trigger (cronExpression item.2.2.triggerConfig)).elim jobs
          fun fields => Dict.set jobs (cronJobId item.1)
            ⟨fields, item.1.toText, (Workflow.tenantId item.2.1).toText⟩) ∨
      ¬ Readable (cronExpression item.2.2.triggerConfig) ∧
        ∃ e, scheduleWorkflow trigger jobs item = .error e := by
  unfold scheduleWorkflow
  dsimp only
  generalize cronExpression item.2.2.triggerConfig = cronExpr
  cases htruthy : cronExpr.truthy with
  | false =>
    left
    cases cronExpr with
    | str text =>
      obtain rfl : text = "" := by simpa [Json.truthy] using htruthy
      rfl
    | _ => rfl
  | true =>
    cases cronExpr with
    | str text =>
      left
      unfold expressionFields?
      dsimp only
      cases Cron.parseCronExpression trigger text <;> rfl
    | _ => exact .inr ⟨fun h => by simpa using h htruthy, _, rfl⟩

/-- The entry that the loop adds for a workflow that is stored and that the query selects. -/
theorem cronJob?_of_stored (trigger : Cron.CronTrigger)
    {d : Database} {item : Uuid × FullRow .workflows}
    (hitem : item ∈ d.select .workflows isCronWorkflow) :
    d.cronJob? trigger item.1 =
      (expressionFields? trigger (cronExpression item.2.2.triggerConfig)).map fun fields =>
        ⟨fields, item.1.toText, (Workflow.tenantId item.2.1).toText⟩ := by
  obtain ⟨hrow, hcron⟩ := Database.mem_select.mp hitem
  obtain ⟨htype, hactive⟩ := Bool.and_eq_true_iff.mp hcron
  rw [Database.cronJob?, hrow, Option.bind_some, cronFields?,
    if_pos ⟨hactive, of_decide_eq_true htype⟩]

/-- The loop adds the entries one after another, until an expression cannot be read. -/
theorem foldlM_scheduleWorkflow (trigger : Cron.CronTrigger)
    {d : Database} {workflows : List (Uuid × FullRow .workflows)}
    (hstored : ∀ item ∈ workflows, item ∈ d.select .workflows isCronWorkflow)
    (jobs : Dict String CronJob) :
    workflows.foldlM (scheduleWorkflow trigger) jobs =
        .ok ((workflows.filterMap (keyedJob? trigger d)).foldl
          (fun jobs entry => Dict.set jobs entry.1 entry.2) jobs) ∨
      (∃ item ∈ workflows, ¬ Readable (cronExpression item.2.2.triggerConfig)) ∧
        ∃ e, workflows.foldlM (scheduleWorkflow trigger) jobs = .error e := by
  induction workflows generalizing jobs with
  | nil => exact .inl rfl
  | cons item workflows ih =>
    have hjob := cronJob?_of_stored trigger (hstored item List.mem_cons_self)
    rw [List.foldlM_cons]
    rcases scheduleWorkflow_cases trigger jobs item with hround | ⟨hbad, e, hround⟩
    · rw [hround]
      have hentry : (workflows.filterMap (keyedJob? trigger d)).foldl
          (fun jobs entry => Dict.set jobs entry.1 entry.2)
          ((expressionFields? trigger (cronExpression item.2.2.triggerConfig)).elim jobs
            fun fields => Dict.set jobs (cronJobId item.1)
              ⟨fields, item.1.toText, (Workflow.tenantId item.2.1).toText⟩) =
          ((item :: workflows).filterMap (keyedJob? trigger d)).foldl
            (fun jobs entry => Dict.set jobs entry.1 entry.2) jobs := by
        rw [List.filterMap_cons, keyedJob?, hjob]
        cases expressionFields? trigger (cronExpression item.2.2.triggerConfig) <;> rfl
      rw [← hentry]
      rcases ih (fun item hitem => hstored item (List.mem_cons_of_mem _ hitem)) _ with
        hrest | ⟨⟨other, hmem, hbad⟩, e, hrest⟩
      · exact .inl hrest
      · exact .inr ⟨⟨other, List.mem_cons_of_mem _ hmem, hbad⟩, e, hrest⟩
    · rw [hround]
      exact .inr ⟨⟨item, List.mem_cons_self, hbad⟩, e, rfl⟩

/-- Within the limit all of them are loaded. -/
theorem LoadsCronWorkflows.all {d : Database} {maxCronWorkflows : Nat}
    {workflows : List (Uuid × FullRow .workflows)}
    (h : LoadsCronWorkflows d maxCronWorkflows workflows)
    (hlimit : (d.select .workflows isCronWorkflow).card ≤ maxCronWorkflows) :
    (workflows : Multiset _) = d.select .workflows isCronWorkflow := by
  refine Multiset.eq_of_le_of_card_le h.stored ?_
  rw [Multiset.coe_card, h.length, Nat.min_eq_right hlimit]

/-- A workflow that is to have a job is one that the query selects. -/
theorem isCronWorkflow_of_cronJob? {d : Database} {id : Uuid} {job : CronJob}
    (h : d.cronJob? trigger id = some job) :
    ∃ row, (id, row) ∈ d.select .workflows isCronWorkflow := by
  obtain ⟨row, hrow, hjob⟩ := Option.bind_eq_some_iff.mp h
  obtain ⟨fields, hfields, -⟩ := Option.map_eq_some_iff.mp hjob
  refine ⟨row, Database.mem_select.mpr ⟨hrow, ?_⟩⟩
  unfold cronFields? at hfields
  split at hfields
  · rename_i hcron
    exact Bool.and_eq_true_iff.mpr ⟨decide_eq_true hcron.2, hcron.1⟩
  · cases hfields

/-- The ids of the entries are distinct. -/
theorem nodup_keyedJobs (trigger : Cron.CronTrigger)
    {d : Database} {workflows : List (Uuid × FullRow .workflows)}
    (hall : (workflows : Multiset _) = d.select .workflows isCronWorkflow)
    (hids : ∀ id row, d.row .workflows id = some row → id < 16 ^ 32) :
    (Dict.keys (workflows.filterMap (keyedJob? trigger d))).Nodup := by
  have hstored : ∀ item ∈ workflows, d.row .workflows item.1 = some item.2 := fun item hitem =>
    (Database.mem_select.mp (hall ▸ Multiset.mem_coe.mpr hitem)).1
  have hnodup : workflows.Nodup :=
    Multiset.coe_nodup.mp (hall ▸ (d.nodup_scan .workflows).filter _)
  have hmapped : (workflows.map fun item => cronJobId item.1).Nodup := by
    refine hnodup.map_on fun item hitem item' hitem' heq => ?_
    have hid := cronJobId_injective (hids _ _ (hstored item hitem))
      (hids _ _ (hstored item' hitem')) heq
    have hrow := hstored item hitem
    rw [hid, hstored item' hitem'] at hrow
    exact Prod.ext hid (Option.some.inj hrow).symm
  refine List.Nodup.sublist ?_ hmapped
  clear hall hids hstored hnodup hmapped
  induction workflows with
  | nil => exact List.Sublist.slnil
  | cons item workflows ih =>
    rw [List.filterMap_cons, List.map_cons, keyedJob?]
    cases d.cronJob? trigger item.1 with
    | none => exact ih.cons _
    | some job => exact ih.cons_cons _

/-- The jobs of the workflows are there after the start. -/
theorem mirrors_start {d : Database} {maxCronWorkflows : Nat}
    {workflows : List (Uuid × FullRow .workflows)}
    (hloads : LoadsCronWorkflows d maxCronWorkflows workflows)
    (hlimit : (d.select .workflows isCronWorkflow).card ≤ maxCronWorkflows)
    (hids : ∀ id row, d.row .workflows id = some row → id < 16 ^ 32)
    (hstart : d.StartsWell trigger) : (Server.start trigger d workflows).Mirrors trigger := by
  have hall := hloads.all hlimit
  have hmem : ∀ item, item ∈ workflows ↔ item ∈ d.select .workflows isCronWorkflow := fun item => by
    rw [← hall, Multiset.mem_coe]
  intro jobId job
  rcases foldlM_scheduleWorkflow trigger (fun item hitem => (hmem item).mp hitem) []
    with hok | ⟨⟨item, hitem, hbad⟩, e, herror⟩
  · have hjobs : (Server.start trigger d workflows).jobs =
        (workflows.filterMap (keyedJob? trigger d)).foldl
          (fun jobs entry => Dict.set jobs entry.1 entry.2) [] := by
      rw [Server.start, startScheduler, hok]
      rfl
    have hnodup := nodup_keyedJobs trigger hall hids
    rw [hjobs, Dict.get?_foldl_set hnodup, Dict.get?_nil, Option.or_none]
    constructor
    · intro hget
      obtain ⟨item, -, hentry⟩ := List.mem_filterMap.mp (Dict.mem_of_get? hget)
      obtain ⟨job', hjob, heq⟩ := Option.map_eq_some_iff.mp hentry
      cases heq
      exact ⟨item.1, hjob, rfl⟩
    · rintro ⟨id, hjob, rfl⟩
      obtain ⟨row, hrow⟩ := isCronWorkflow_of_cronJob? hjob
      refine Dict.get?_of_mem hnodup (List.mem_filterMap.mpr ⟨(id, row), (hmem _).mpr hrow, ?_⟩)
      exact Option.map_eq_some_iff.mpr ⟨job, hjob, rfl⟩
  · have hjobs : (Server.start trigger d workflows).jobs = [] := by
      rw [Server.start, startScheduler, herror]
      rfl
    rw [hjobs]
    refine iff_of_false (by simp) ?_
    rintro ⟨id, hjob, -⟩
    rcases hstart with hreadable | hnone
    · obtain ⟨hrow, hcron⟩ := Database.mem_select.mp ((hmem item).mp hitem)
      exact hbad (hreadable item.1 item.2 hrow hcron)
    · cases (hnone id).symm.trans hjob

end

/-! ## What the requests leave -/

section

variable {trigger : Cron.CronTrigger} {libs : Libraries} {settings : Settings} {d : Database}
  {tenantId : Uuid} (s : Surroundings)

/-- A workflow is put that is to have the same job as before. -/
theorem cronJob?_of_puts {rows : Rows Row} {details : WorkflowDetails} {id : Uuid} {row : Workflow}
    (hputs : Puts d.rows rows (.workflow id) row)
    (hjob : (cronFields? trigger row.isActive row.triggerType details.triggerConfig).map
      (fun fields => ⟨fields, id.toText, row.tenantId.toText⟩) = d.cronJob? trigger id) :
    ({ d with rows := rows, details := Function.update d.details id details } :
      Database).cronJob? trigger = d.cronJob? trigger := by
  funext id'
  by_cases hid : id' = id
  · subst hid
    rw [← hjob, Database.cronJob?, Database.row, hputs.row]
    show (cronFields? trigger row.isActive row.triggerType
      (Function.update d.details id' details id').triggerConfig).map _ = _
    rw [Function.update_self]
  · rw [Database.cronJob?, Database.cronJob?, Database.row, Database.row,
      hputs.others (.workflow id') (by simpa using hid)]
    dsimp only
    rw [Function.update_of_ne hid]

theorem cronJob?_manageCreate {body : WorkflowCreateRequest}
    (h : (ManagementRequest.createWorkflow body).LeavesJobs trigger libs settings d tenantId) :
    (manageCreate libs settings s d tenantId body).2.cronJob? trigger = d.cronJob? trigger := by
  unfold manageCreate
  cases hparse : parseWorkflowDefinition libs settings
      ⟨body.name, body.triggerType, body.steps.map .obj⟩ with
  | error exc => rw [Database.session_createWorkflow_error d s.env hparse]
  | ok definition =>
    obtain ⟨t, hsession, hputs⟩ := Database.session_createWorkflow_ok d s.env hparse
    rw [hsession]
    apply cronJob?_of_puts hputs
    have hnone : d.cronJob? trigger d.nextUuid = none := by
      rw [Database.cronJob?, Database.row, d.row_nextUuid rfl]
      rfl
    rcases h with hfields | ⟨exc, herror⟩
    · rw [hnone]
      exact congrArg _ hfields
    · cases hparse.symm.trans herror

theorem cronJob?_manageUpdate {workflowId : Uuid} {body : WorkflowUpdateRequest}
    (h : (ManagementRequest.updateWorkflow workflowId body).LeavesJobs trigger libs settings d
      tenantId) :
    (manageUpdate libs settings s d tenantId workflowId body).2.cronJob? trigger =
      d.cronJob? trigger := by
  unfold manageUpdate
  cases hfound : d.tenantWorkflow workflowId tenantId with
  | none => rw [Database.session_updateWorkflow_missing hfound]
  | some workflow =>
    cases hcheck : body.check libs settings workflow with
    | error exc => rw [Database.session_updateWorkflow_error hfound s.env hcheck]
    | ok _ =>
      obtain ⟨t, hsession, hputs⟩ := Database.session_updateWorkflow_ok hfound s.env hcheck
      rw [hsession]
      apply cronJob?_of_puts hputs
      rw [Database.cronJob?, Database.row, (Option.filter_eq_some_iff.mp hfound).1]
      exact congrArg _ (h workflow hfound hcheck)

theorem cronJob?_manageDelete {workflowId : Uuid}
    (h : (ManagementRequest.deleteWorkflow workflowId).LeavesJobs trigger libs settings d
      tenantId) :
    (manageDelete s d tenantId workflowId).2.cronJob? trigger = d.cronJob? trigger := by
  unfold manageDelete
  cases hfound : d.tenantWorkflow workflowId tenantId with
  | none => rw [Database.session_deleteWorkflow_missing hfound]
  | some workflow =>
    obtain ⟨executions, t, -, hsession, hbind⟩ := Database.session_deleteWorkflow_ok hfound s.env
    rw [hsession]
    funext id
    rw [Database.cronJob?, Database.cronJob?, Database.row, Database.row, hbind]
    by_cases hid : id = workflowId
    · subst hid
      -- Its row is gone, and it was to have no job.
      rw [(Option.filter_eq_some_iff.mp hfound).1]
      have hgone : forgottenRow id executions (.workflow id) workflow = none := by
        simp [forgottenRow, remainingRow, cascades]
      have hnone := h workflow hfound
      dsimp only at hnone ⊢
      rw [Option.bind_some, hgone, Option.map_some, Option.bind_some, hnone]
      rfl
    · cases hrow : Rows.row d.rows (.workflow id) with
      | none => rfl
      | some row =>
        have hkept : forgottenRow workflowId executions (.workflow id) row = some row :=
          forgottenRow_eq_some.mpr ⟨rfl, decide_eq_false hid⟩
        rw [Option.bind_some, hkept]

/-- A cancellation leaves the workflows. -/
theorem cronJob?_manageCancel (executionId : Uuid) :
    (manageCancel s d tenantId executionId).2.cronJob? trigger = d.cronJob? trigger := by
  have hrows : ∀ id, Rows.row ((cancelExecution executionId tenantId).run
      ⟨⟨d.rows, Session.fresh⟩, s.env⟩).2.db.committed (.workflow id) =
        Rows.row d.rows (.workflow id) := by
    intro id
    rcases committed_cancelExecution s.env d.rows executionId tenantId with
      ⟨-, hkept⟩ | ⟨-, -, now, hcancelled⟩
    · rw [hkept]
    · rw [hcancelled]
      exact Option.map_id'
  funext id
  show ((Rows.row ((cancelExecution executionId tenantId).run
    ⟨⟨d.rows, Session.fresh⟩, s.env⟩).2.db.committed (RowId.workflow id)).map _).bind _ = _
  rw [hrows id]
  rfl

/-- The workflows are to have the same jobs after the request. -/
theorem cronJob?_manage (fromisoformat : String → Option Time) (rate : Nat → Nat → Json)
    {request : ManagementRequest} (h : request.LeavesJobs trigger libs settings d tenantId) :
    (manage libs settings fromisoformat rate s d tenantId request).2.cronJob? trigger =
      d.cronJob? trigger := by
  cases request with
  | createWorkflow body => exact cronJob?_manageCreate s h
  | updateWorkflow workflowId body => exact cronJob?_manageUpdate s h
  | deleteWorkflow workflowId => exact cronJob?_manageDelete s h
  | cancelExecution executionId => exact cronJob?_manageCancel s executionId
  | getWorkflow workflowId =>
    show Database.cronJob? trigger { d with
      rows := (d.session s.env (getTenantWorkflow workflowId tenantId)).2 } = _
    rw [Database.session_getTenantWorkflow]
  | listWorkflows cursor limit filters => rfl
  | listExecutions cursor limit filters => rfl
  | getExecution executionId => rfl
  | getExecutionLogs executionId stepId => rfl
  | getExecutionMetrics => rfl

theorem Server.Leaves.mirrors {fromisoformat : String → Option Time} {rate : Nat → Nat → Json}
    {server server' : Server} (h : server.Leaves trigger libs settings fromisoformat rate server')
    (hmirrors : server.Mirrors trigger) : server'.Mirrors trigger := by
  obtain ⟨call, hleaves, rfl⟩ := h
  have hjobs := cronJob?_manage call.surroundings fromisoformat rate hleaves
  intro jobId job
  show Dict.get? server.jobs jobId = some job ↔ ∃ id, (manage libs settings fromisoformat rate
    call.surroundings server.database call.tenantId call.request).2.cronJob? trigger id = some job ∧
      jobId = cronJobId id
  rw [hjobs]
  exact hmirrors jobId job

end

/-- The jobs are those of the stored workflows in all runs whose start finds no expression
that it cannot read and whose requests change nothing that a job depends on. -/
theorem scheduler_mirrors {trigger : Cron.CronTrigger} {libs : Libraries} {settings : Settings}
    {fromisoformat : String → Option Time} {rate : Nat → Nat → Json} {d : Database}
    {maxCronWorkflows : Nat} {workflows : List (Uuid × FullRow .workflows)}
    (hloads : LoadsCronWorkflows d maxCronWorkflows workflows)
    (hlimit : (d.select .workflows isCronWorkflow).card ≤ maxCronWorkflows)
    (hids : ∀ id row, d.row .workflows id = some row → id < 16 ^ 32)
    (hstart : d.StartsWell trigger) {server : Server}
    (hrun : Relation.ReflTransGen (Server.Leaves trigger libs settings fromisoformat rate)
      (Server.start trigger d workflows) server) : server.Mirrors trigger := by
  induction hrun with
  | refl => exact mirrors_start hloads hlimit hids hstart
  | tail _ hleaves ih => exact hleaves.mirrors ih

/-! ## A workflow that runs on Mondays -/

/-- It runs at 09:00. -/
def mondayBody : WorkflowCreateRequest :=
  { Engine.hookBody with
    triggerType := "cron"
    triggerConfig := [("cron_expression", .str "0 9 * * 1")]
    triggerType_known := by decide }

/-- The surroundings of the requests below. -/
def mondaySurroundings : Surroundings := ⟨Engine.quietEnvironment, 0, 0⟩

/-- Tenant 7 has created it. -/
def mondayDatabase : Database :=
  (manageCreate plainLibraries {} mondaySurroundings
    ⟨∅, fun _ => ⟨none, [], 0, 0⟩, fun _ => 0, ∅, ∅⟩ 7 mondayBody).2

/-- Its row. -/
def mondayWorkflow : Uuid × FullRow .workflows := (1, mondayBody.row 7 0, mondayBody.details 0)

theorem select_mondayDatabase :
    mondayDatabase.select .workflows isCronWorkflow = ↑[mondayWorkflow] := by rfl

theorem loads_mondayWorkflow : LoadsCronWorkflows mondayDatabase 50 [mondayWorkflow] := by
  constructor
  · rw [select_mondayDatabase]
  · rw [select_mondayDatabase]
    rfl

theorem ids_mondayDatabase (id : Uuid) (row : FullRow .workflows)
    (h : mondayDatabase.row .workflows id = some row) : id < 16 ^ 32 := by
  have hids : ∀ id ∈ mondayDatabase.ids .workflows, id < 16 ^ 32 := by decide +kernel
  exact hids id (Database.mem_ids h)

/-- The requests of tenant 7 to change it. -/
def mondayUpdate (body : WorkflowUpdateRequest) : ApiCall :=
  ⟨mondaySurroundings, 7, .updateWorkflow 1 body⟩

/-- The server after such a request. -/
def mondayServer (body : WorkflowUpdateRequest) : Server :=
  (Server.start Cron.plainTrigger mondayDatabase [mondayWorkflow]).after plainLibraries {}
    (fun _ => none) (fun _ _ => .null) (mondayUpdate body)

/-- A new description changes nothing that the job depends on. -/
theorem scheduler_mirrors_described :
    (mondayServer { description := some "every week" }).Mirrors Cron.plainTrigger := by
  have hreadable : ∀ id row, mondayDatabase.row .workflows id = some row →
      isCronWorkflow (id, row) = true → Readable (cronExpression row.2.triggerConfig) := by
    intro id row hrow hcron
    have hmem := Database.mem_select.mpr ⟨hrow, hcron⟩
    rw [select_mondayDatabase] at hmem
    cases List.mem_singleton.mp (Multiset.mem_coe.mp hmem)
    exact fun _ => ⟨"0 9 * * 1", rfl⟩
  have hrun : Relation.ReflTransGen
      (Server.Leaves Cron.plainTrigger plainLibraries {} (fun _ => none) fun _ _ => .null)
      (Server.start Cron.plainTrigger mondayDatabase [mondayWorkflow])
      (mondayServer { description := some "every week" }) :=
    .single ⟨mondayUpdate { description := some "every week" }, fun _ _ _ => rfl, rfl⟩
  exact scheduler_mirrors loads_mondayWorkflow (by rw [select_mondayDatabase]; decide)
    ids_mondayDatabase (.inl hreadable) hrun

/-- Its trigger is changed, and the job stays. -/
theorem not_scheduler_mirrors :
    ¬ ∀ (trigger : Cron.CronTrigger) (d : Database) (maxCronWorkflows : Nat)
      (workflows : List (Uuid × FullRow .workflows)),
      LoadsCronWorkflows d maxCronWorkflows workflows →
      (d.select .workflows isCronWorkflow).card ≤ maxCronWorkflows →
      (∀ id row, d.row .workflows id = some row → id < 16 ^ 32) → ∀ calls : List ApiCall,
        (calls.foldl (Server.after plainLibraries {} (fun _ => none) fun _ _ => .null)
          (Server.start trigger d workflows)).Mirrors trigger := by
  intro h
  -- The request makes the trigger manual, so that no stored workflow is to have a job.
  obtain ⟨body, hstays, hnone⟩ : ∃ body : WorkflowUpdateRequest,
      Dict.get? (mondayServer body).jobs (cronJobId 1) =
        some ⟨⟨"0", "9", "*", "*", "1"⟩, Uuid.toText 1, Uuid.toText 7⟩ ∧
      (mondayServer body).database.select .workflows isCronWorkflow = 0 :=
    ⟨{ triggerType := some "manual", triggerType_known := by decide }, by rfl, by rfl⟩
  have hmirrors : (mondayServer body).Mirrors Cron.plainTrigger :=
    h Cron.plainTrigger mondayDatabase 50 [mondayWorkflow] loads_mondayWorkflow
      (by rw [select_mondayDatabase]; decide) ids_mondayDatabase [mondayUpdate body]
  obtain ⟨id, hjob, -⟩ := (hmirrors _ _).mp hstays
  obtain ⟨row, hrow⟩ := isCronWorkflow_of_cronJob? hjob
  rw [hnone] at hrow
  exact absurd hrow (Multiset.notMem_zero _)

end WorkflowEngine

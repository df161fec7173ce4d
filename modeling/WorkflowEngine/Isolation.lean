import WorkflowEngine.Management

/-!
# Tenants are kept apart

A request of the management API answers from the rows of its tenant, and it leaves the
rows of every other tenant as they are, also where a `DELETE` cascades.  Both rest on the
invariant that rows which refer to each other have one tenant, since several routes find
rows by a foreign key only.
-/

namespace WorkflowEngine

open Py Orm Interact

/-- A state that the program reaches.  Nothing in it writes log entries; whoever does
writes them for the tenant of the execution. -/
structure Database.Reachable (libs : Libraries) (settings : Settings) (wire : Wire)
    (d : Database) : Prop where
  engine : ∃ s, Engine.Reachable libs settings wire s ∧ s.rows = d.rows
  logs : ∀ id log, d.logs.lookup id = some log → ∃ execution : Execution,
    Rows.row d.rows (.execution log.executionId) = some execution ∧
      execution.tenantId = log.tenantId

/-- The databases have the same rows of the tenant. -/
def AgreeOn (tenantId : Uuid) (d d' : Database) : Prop :=
  ∀ table id row, FullRow.tenantId table id row = tenantId →
    (d.row table id = some row ↔ d'.row table id = some row)

/-- The rows of every other tenant are the same. -/
def OthersKept (tenantId : Uuid) (d d' : Database) : Prop :=
  ∀ table id row, FullRow.tenantId table id row ≠ tenantId →
    (d'.row table id = some row ↔ d.row table id = some row)

/-- The response without the id that was generated for a new workflow. -/
def ManagementResponse.anonymous : ManagementResponse → ManagementResponse
  | .created response => .created { response with id := 0 }
  | response => response

theorem Database.Reachable.oneTenant {libs : Libraries} {settings : Settings} {wire : Wire}
    {d : Database} (h : d.Reachable libs settings wire) : OneTenant (Rows.row d.rows) := by
  obtain ⟨s, hs, hrows⟩ := h.engine
  rw [← hrows]
  exact hs.sound.oneTenant

/-! ## Responses -/

namespace AgreeOn

variable {tenantId : Uuid} {d d' : Database}

/-- A query for rows of the tenant. -/
theorem select_eq (h : AgreeOn tenantId d d') {table : Table} {p p' : Uuid × FullRow table → Bool}
    (hp : ∀ item, d.row table item.1 = some item.2 → p item = true →
      FullRow.tenantId table item.1 item.2 = tenantId ∧ p' item = true)
    (hp' : ∀ item, d'.row table item.1 = some item.2 → p' item = true →
      FullRow.tenantId table item.1 item.2 = tenantId ∧ p item = true) :
    d.select table p = d'.select table p' := by
  apply Database.select_congr
  intro id row
  constructor
  · rintro ⟨hrow, hselected⟩
    obtain ⟨htenant, hselected'⟩ := hp (id, row) hrow hselected
    exact ⟨(h table id row htenant).mp hrow, hselected'⟩
  · rintro ⟨hrow, hselected⟩
    obtain ⟨htenant, hselected'⟩ := hp' (id, row) hrow hselected
    exact ⟨(h table id row htenant).mpr hrow, hselected'⟩

theorem ofTenant_eq (h : AgreeOn tenantId d d') (table : Table) :
    d.ofTenant table tenantId = d'.ofTenant table tenantId :=
  h.select_eq (fun _ _ hp => ⟨of_decide_eq_true hp, hp⟩) (fun _ _ hp => ⟨of_decide_eq_true hp, hp⟩)

/-- A query with an order. -/
theorem query_eq (h : AgreeOn tenantId d d') {table : Table} {p : Uuid × FullRow table → Bool}
    (hp : ∀ item, p item = true → FullRow.tenantId table item.1 item.2 = tenantId)
    (createdAt : FullRow table → Time) :
    d.ordered table createdAt (d.select table p) =
      d'.ordered table createdAt (d'.select table p) := by
  rw [h.select_eq (fun item _ hitem => ⟨hp item hitem, hitem⟩)
    (fun item _ hitem => ⟨hp item hitem, hitem⟩)]
  apply Database.ordered_congr
  intro item hitem
  obtain ⟨hrow, hselected⟩ := Database.mem_select.mp hitem
  rw [hrow]
  exact (h table item.1 item.2 (hp item hselected)).mpr hrow

/-- A page of rows of the tenant. -/
theorem listRows_eq (h : AgreeOn tenantId d d') {table : Table} {createdAt : FullRow table → Time}
    {p : FullRow table → Bool}
    (hp : ∀ id row, p row = true → FullRow.tenantId table id row = tenantId)
    (decode : String → Except PyError (Time × Uuid)) (encode : Time → Uuid → String)
    (cursor : Option String) (limit : Nat) :
    listRows table createdAt decode encode p d cursor limit =
      listRows table createdAt decode encode p d' cursor limit := by
  unfold listRows
  refine congrArg _ (funext fun after => ?_)
  have hquery := h.query_eq (p := fun item => p item.2 && behind after (createdAt item.2) item.1)
    (fun item hitem => hp item.1 item.2 (Bool.and_eq_true_iff.mp hitem).1) createdAt
  dsimp only
  rw [hquery]

theorem symm (h : AgreeOn tenantId d d') : AgreeOn tenantId d' d :=
  fun table id row htenant => (h table id row htenant).symm

/-- A workflow of the tenant, with all its columns. -/
theorem tenantWorkflow_of_some (h : AgreeOn tenantId d d') {workflowId : Uuid} {workflow : Workflow}
    (hfound : d.tenantWorkflow workflowId tenantId = some workflow) :
    d'.tenantWorkflow workflowId tenantId = some workflow ∧
      d'.details workflowId = d.details workflowId := by
  obtain ⟨hrow, htenant⟩ := Option.filter_eq_some_iff.mp hfound
  have hfull : d.row .workflows workflowId = some (workflow, d.details workflowId) :=
    Option.map_eq_some_iff.mpr ⟨workflow, hrow, rfl⟩
  have hsame : workflow.tenantId = tenantId := of_decide_eq_true htenant
  have hfull' := (h .workflows workflowId (workflow, d.details workflowId) hsame).mp hfull
  obtain ⟨row, hrow', heq⟩ := Option.map_eq_some_iff.mp hfull'
  obtain ⟨rfl, hdetails⟩ := Prod.mk.inj heq
  exact ⟨Option.filter_eq_some_iff.mpr ⟨hrow', htenant⟩, hdetails⟩

theorem tenantWorkflow_eq (h : AgreeOn tenantId d d') (workflowId : Uuid) :
    d.tenantWorkflow workflowId tenantId = d'.tenantWorkflow workflowId tenantId := by
  cases hfound : d.tenantWorkflow workflowId tenantId with
  | some workflow => exact (h.tenantWorkflow_of_some hfound).1.symm
  | none =>
    cases hfound' : d'.tenantWorkflow workflowId tenantId with
    | none => rfl
    | some workflow => exact hfound.symm.trans (h.symm.tenantWorkflow_of_some hfound').1

theorem tenantExecution_of_ok {executionId : Uuid} {row : Execution × Time}
    (hfound : tenantExecution d executionId tenantId = .ok row) :
    d.row .executions executionId = some row ∧ Execution.tenantId row.1 = tenantId := by
  unfold tenantExecution at hfound
  split at hfound
  · split at hfound
    · rename_i htenant
      cases hfound
      exact ⟨by assumption, htenant⟩
    · cases hfound
  · cases hfound

theorem tenantExecution_eq (h : AgreeOn tenantId d d') (executionId : Uuid) :
    tenantExecution d executionId tenantId = tenantExecution d' executionId tenantId := by
  have hmissing : ∀ {d : Database}, (∀ row, d.row .executions executionId = some row →
      Execution.tenantId row.1 ≠ tenantId) →
      tenantExecution d executionId tenantId = .error (.app executionNotFound) := by
    intro d hne
    unfold tenantExecution
    split
    · rename_i row hrow
      rw [if_neg (hne row hrow)]
    · rfl
  by_cases hfound : ∃ row, d.row .executions executionId = some row ∧
      Execution.tenantId row.1 = tenantId
  · obtain ⟨row, hrow, htenant⟩ := hfound
    have hrow' := (h .executions executionId row htenant).mp hrow
    simp only [tenantExecution, hrow, hrow']
  · rw [hmissing fun row hrow htenant => hfound ⟨row, hrow, htenant⟩,
      hmissing fun row hrow htenant => hfound ⟨row, (h _ _ row htenant).mpr hrow, htenant⟩]

/-- The steps of an execution of the tenant are rows of the tenant. -/
theorem step_tenantId (hone : OneTenant (Rows.row d.rows)) {executionId : Uuid}
    {row : Execution × Time} (hrow : d.row .executions executionId = some row)
    (htenant : Execution.tenantId row.1 = tenantId) {item : Uuid × (StepExecution × Time)}
    (hitem : d.row .stepExecutions item.1 = some item.2)
    (hbelongs : item.2.1.executionId = executionId) : item.2.1.tenantId = tenantId := by
  obtain ⟨execution, hexecution, rfl⟩ := Option.map_eq_some_iff.mp hrow
  obtain ⟨step, hstep, heq⟩ := Option.map_eq_some_iff.mp hitem
  have hsame : item.2.1 = step := (congrArg Prod.fst heq).symm
  rw [hsame] at hbelongs ⊢
  obtain ⟨parent, hparent, hparentTenant⟩ := hone (.step item.1) step hstep
    (.execution step.executionId) List.mem_cons_self
  rw [hbelongs] at hparent
  cases hexecution.symm.trans hparent
  exact hparentTenant.symm.trans htenant

theorem getExecution_eq (h : AgreeOn tenantId d d') (hone : OneTenant (Rows.row d.rows))
    (hone' : OneTenant (Rows.row d'.rows)) (executionId : Uuid) :
    getExecution d executionId tenantId = getExecution d' executionId tenantId := by
  unfold getExecution
  rw [h.tenantExecution_eq]
  cases hfound : tenantExecution d' executionId tenantId with
  | error e => rfl
  | ok row =>
    obtain ⟨hrow', htenant⟩ := tenantExecution_of_ok hfound
    have hrow := (h .executions executionId row htenant).mpr hrow'
    have hsteps : d.select .stepExecutions (fun item => item.2.1.executionId = executionId) =
        d'.select .stepExecutions (fun item => item.2.1.executionId = executionId) :=
      h.select_eq
        (fun item hitem hp => ⟨step_tenantId hone hrow htenant hitem (of_decide_eq_true hp), hp⟩)
        (fun item hitem hp => ⟨step_tenantId hone' hrow' htenant hitem (of_decide_eq_true hp), hp⟩)
    show Except.ok _ = Except.ok _
    rw [hsteps]

theorem getExecutionLogs_eq (h : AgreeOn tenantId d d') (executionId : Uuid)
    (stepId : Option String) :
    getExecutionLogs d executionId tenantId stepId =
      getExecutionLogs d' executionId tenantId stepId := by
  unfold getExecutionLogs
  rw [h.tenantExecution_eq]
  refine congrArg _ (funext fun _ => ?_)
  dsimp only
  rw [h.query_eq fun item hitem => ?_]
  exact of_decide_eq_true (Bool.and_eq_true_iff.mp (Bool.and_eq_true_iff.mp hitem).1).2

/-- An execution of the tenant is joined with the same workflow. -/
theorem workflowDurations_eq (h : AgreeOn tenantId d d') (hone : OneTenant (Rows.row d.rows)) :
    workflowDurations d tenantId = workflowDurations d' tenantId := by
  unfold workflowDurations
  rw [← h.ofTenant_eq, Multiset.filterMap_eq_bind, Multiset.filterMap_eq_bind]
  refine Multiset.bind_congr fun item hitem => ?_
  obtain ⟨hrow, hselected⟩ := Database.mem_select.mp hitem
  have htenant : item.2.1.tenantId = tenantId := of_decide_eq_true hselected
  obtain ⟨execution, hexecution, heq⟩ := Option.map_eq_some_iff.mp hrow
  have hsame : item.2.1 = execution := (congrArg Prod.fst heq).symm
  obtain ⟨workflow, hworkflow, hworkflowTenant⟩ := hone (.execution item.1) execution hexecution
    (.workflow execution.workflowId) List.mem_cons_self
  rw [← hsame] at hworkflow hworkflowTenant
  have hfull : d.row .workflows item.2.1.workflowId =
      some (workflow, d.details item.2.1.workflowId) :=
    Option.map_eq_some_iff.mpr ⟨workflow, hworkflow, rfl⟩
  have hfull' := (h .workflows _ (workflow, d.details item.2.1.workflowId)
    (hworkflowTenant.trans htenant)).mp hfull
  rw [hfull, hfull']

theorem getExecutionMetrics_eq (h : AgreeOn tenantId d d') (hone : OneTenant (Rows.row d.rows))
    (rate : Nat → Nat → Json) :
    getExecutionMetrics rate d tenantId = getExecutionMetrics rate d' tenantId := by
  unfold getExecutionMetrics
  rw [h.ofTenant_eq .executions, h.ofTenant_eq .stepExecutions, h.ofTenant_eq .webhookDeliveries,
    h.workflowDurations_eq hone]

end AgreeOn

section

variable {libs : Libraries} {settings : Settings} {tenantId : Uuid} {d d' : Database}
  (s : Surroundings)

namespace AgreeOn

theorem manageGet_eq (h : AgreeOn tenantId d d') (workflowId : Uuid) :
    (manageGet s d tenantId workflowId).1 = (manageGet s d' tenantId workflowId).1 := by
  unfold manageGet
  rw [Database.session_getTenantWorkflow, Database.session_getTenantWorkflow, h.tenantWorkflow_eq]
  cases hfound : d'.tenantWorkflow workflowId tenantId with
  | none => rfl
  | some workflow =>
    rw [(h.symm.tenantWorkflow_of_some hfound).2]

/-- Only the id of the new workflow can differ. -/
theorem manageCreate_eq (d d' : Database) (tenantId : Uuid) (body : WorkflowCreateRequest) :
    (manageCreate libs settings s d tenantId body).1.map ManagementResponse.anonymous =
      (manageCreate libs settings s d' tenantId body).1.map ManagementResponse.anonymous := by
  unfold manageCreate
  cases hparse : parseWorkflowDefinition libs settings
      ⟨body.name, body.triggerType, body.steps.map .obj⟩ with
  | error exc =>
    rw [Database.session_createWorkflow_error d s.env hparse,
      Database.session_createWorkflow_error d' s.env hparse]
  | ok definition =>
    obtain ⟨t, hsession, -⟩ := Database.session_createWorkflow_ok d s.env hparse
    obtain ⟨t', hsession', -⟩ := Database.session_createWorkflow_ok d' s.env hparse
    rw [hsession, hsession']
    rfl

theorem manageUpdate_eq (h : AgreeOn tenantId d d') (workflowId : Uuid)
    (body : WorkflowUpdateRequest) :
    (manageUpdate libs settings s d tenantId workflowId body).1 =
      (manageUpdate libs settings s d' tenantId workflowId body).1 := by
  unfold manageUpdate
  cases hfound : d.tenantWorkflow workflowId tenantId with
  | none =>
    rw [Database.session_updateWorkflow_missing hfound,
      Database.session_updateWorkflow_missing ((h.tenantWorkflow_eq _).symm.trans hfound)]
  | some workflow =>
    obtain ⟨hfound', hdetails⟩ := h.tenantWorkflow_of_some hfound
    cases hcheck : body.check libs settings workflow with
    | error exc =>
      rw [Database.session_updateWorkflow_error hfound s.env hcheck,
        Database.session_updateWorkflow_error hfound' s.env hcheck]
    | ok _ =>
      obtain ⟨t, hsession, -⟩ := Database.session_updateWorkflow_ok hfound s.env hcheck
      obtain ⟨t', hsession', -⟩ := Database.session_updateWorkflow_ok hfound' s.env hcheck
      rw [hsession, hsession', hdetails]

theorem manageDelete_eq (h : AgreeOn tenantId d d') (workflowId : Uuid) :
    (manageDelete s d tenantId workflowId).1 = (manageDelete s d' tenantId workflowId).1 := by
  unfold manageDelete
  cases hfound : d.tenantWorkflow workflowId tenantId with
  | none =>
    rw [Database.session_deleteWorkflow_missing hfound,
      Database.session_deleteWorkflow_missing ((h.tenantWorkflow_eq _).symm.trans hfound)]
  | some workflow =>
    obtain ⟨-, t, -, hsession, -⟩ := Database.session_deleteWorkflow_ok hfound s.env
    obtain ⟨-, t', -, hsession', -⟩ :=
      Database.session_deleteWorkflow_ok (h.tenantWorkflow_of_some hfound).1 s.env
    rw [hsession, hsession']

theorem manageCancel_eq (h : AgreeOn tenantId d d') (executionId : Uuid) :
    (manageCancel s d tenantId executionId).1 = (manageCancel s d' tenantId executionId).1 := by
  have hrows : ∀ {d d' : Database}, AgreeOn tenantId d d' → ∀ execution : Execution,
      Rows.row d.rows (.execution executionId) = some execution → execution.tenantId = tenantId →
        Rows.row d'.rows (.execution executionId) = some execution := by
    intro d d' h execution hrow htenant
    have hfull := (h .executions executionId (execution, d.createdAt (.execution executionId))
      htenant).mp (Option.map_eq_some_iff.mpr ⟨execution, hrow, rfl⟩)
    obtain ⟨execution', hrow', heq⟩ := Option.map_eq_some_iff.mp hfull
    rw [hrow', (Prod.mk.inj heq).1]
  unfold manageCancel Database.session
  dsimp only
  by_cases hfound : ∃ execution : Execution,
      Rows.row d.rows (.execution executionId) = some execution ∧ execution.tenantId = tenantId
  · obtain ⟨execution, hrow, htenant⟩ := hfound
    have hrow' := hrows h execution hrow htenant
    by_cases hstatus : execution.status ∈ [ExecutionStatus.pending, .running]
    · by_cases hfits : DurationFits execution (s.env.clock s.env.readings)
      · rw [(run_cancelExecution_allowed s.env hrow htenant hstatus hfits).1,
          (run_cancelExecution_allowed s.env hrow' htenant hstatus hfits).1]
      · rw [(run_cancelExecution_overflow s.env hrow htenant hstatus hfits).1,
          (run_cancelExecution_overflow s.env hrow' htenant hstatus hfits).1]
    · rw [(run_cancelExecution_refused s.env hrow htenant hstatus).1,
        (run_cancelExecution_refused s.env hrow' htenant hstatus).1]
  · rw [(run_cancelExecution_missing s.env fun execution hrow htenant =>
        hfound ⟨execution, hrow, htenant⟩).1,
      (run_cancelExecution_missing s.env fun execution hrow htenant =>
        hfound ⟨execution, hrows h.symm execution hrow htenant, htenant⟩).1]

/-- The response to a request depends on the rows of its tenant. -/
theorem response_eq (h : AgreeOn tenantId d d') (hone : OneTenant (Rows.row d.rows))
    (hone' : OneTenant (Rows.row d'.rows)) (fromisoformat : String → Option Time)
    (rate : Nat → Nat → Json) (request : ManagementRequest) :
    (manage libs settings fromisoformat rate s d tenantId request).1.map
        ManagementResponse.anonymous =
      (manage libs settings fromisoformat rate s d' tenantId request).1.map
        ManagementResponse.anonymous := by
  cases request with
  | listWorkflows cursor limit filters =>
    have hselects : ∀ id (row : FullRow .workflows), filters.selects tenantId row = true →
        FullRow.tenantId .workflows id row = tenantId :=
      fun _ _ hp => of_decide_eq_true (Bool.and_eq_true_iff.mp hp).1
    simp only [manage, listWorkflows, h.listRows_eq hselects]
  | listExecutions cursor limit filters =>
    have hselects : ∀ id (row : FullRow .executions), filters.selects tenantId row = true →
        FullRow.tenantId .executions id row = tenantId :=
      fun _ _ hp => of_decide_eq_true (Bool.and_eq_true_iff.mp hp).1
    simp only [manage, listExecutions, h.listRows_eq hselects]
  | getWorkflow workflowId => exact congrArg _ (h.manageGet_eq s workflowId)
  | createWorkflow body => exact manageCreate_eq s d d' tenantId body
  | updateWorkflow workflowId body => exact congrArg _ (h.manageUpdate_eq s workflowId body)
  | deleteWorkflow workflowId => exact congrArg _ (h.manageDelete_eq s workflowId)
  | getExecution executionId => simp only [manage, h.getExecution_eq hone hone']
  | cancelExecution executionId => exact congrArg _ (h.manageCancel_eq s executionId)
  | getExecutionLogs executionId stepId => simp only [manage, h.getExecutionLogs_eq]
  | getExecutionMetrics => simp only [manage, h.getExecutionMetrics_eq hone]

end AgreeOn

end

/-! ## The rows of other tenants -/

/-- The rows of every other tenant are the same. -/
def RowsKept (tenantId : Uuid) (t t' : Rows Row) : Prop :=
  ∀ k row, Row.tenantId k row ≠ tenantId → (Rows.row t' k = some row ↔ Rows.row t k = some row)

section

variable {tenantId : Uuid} {t t' : Rows Row}

/-- A row of the tenant is written. -/
theorem Puts.rowsKept {k : RowId} {row : Row k} (h : Puts t t' k row)
    (htenant : Row.tenantId k row = tenantId)
    (hbefore : ∀ row, Rows.row t k = some row → Row.tenantId k row = tenantId) :
    RowsKept tenantId t t' := by
  intro k' row' hother
  by_cases hk : k' = k
  · subst hk
    constructor
    · intro hrow'
      cases h.row.symm.trans hrow'
      exact absurd htenant hother
    · exact fun hrow => absurd (hbefore row' hrow) hother
  · rw [h.others k' hk]

/-- Rows are rewritten or removed, but not those of another tenant. -/
theorem rowsKept_of_bind {g : (k : RowId) → Row k → Option (Row k)}
    (h : ∀ k, Rows.row t' k = (Rows.row t k).bind (g k))
    (htenant : ∀ k row row', g k row = some row' → Row.tenantId k row' = Row.tenantId k row)
    (hsame : ∀ k row, Rows.row t k = some row → Row.tenantId k row ≠ tenantId →
      g k row = some row) : RowsKept tenantId t t' := by
  intro k row hother
  rw [h k]
  constructor
  · intro hrow'
    obtain ⟨old, hold, hnew⟩ := Option.bind_eq_some_iff.mp hrow'
    have hkept := hsame k old hold (htenant k old row hnew ▸ hother)
    rw [hold, Option.some.inj (hkept.symm.trans hnew)]
  · intro hrow
    rw [hrow]
    exact hsame k row hrow hother

theorem tenantId_forgottenRow {workflowId : Uuid} {executions : List RowId} (k : RowId)
    (row row' : Row k) (h : forgottenRow workflowId executions k row = some row') :
    Row.tenantId k row' = Row.tenantId k row := by
  obtain ⟨rfl, -⟩ := forgottenRow_eq_some.mp h
  cases k <;> rfl

/-- The executions of a workflow have its tenant. -/
theorem ListsExecutions.tenantId_eq {workflowId : Uuid} {executions : List RowId}
    {workflow : Workflow} (hlists : ListsExecutions t workflowId executions)
    (hone : OneTenant (Rows.row t)) (hrow : Rows.row t (.workflow workflowId) = some workflow)
    {id : Uuid} (hmem : (.execution id : RowId) ∈ executions) :
    ∃ execution : Execution, Rows.row t (.execution id) = some execution ∧
      execution.tenantId = workflow.tenantId := by
  obtain ⟨execution, hexecution, hbelongs⟩ := (hlists _).mp hmem
  have hworkflowId : Execution.workflowId execution = workflowId := of_decide_eq_true hbelongs
  obtain ⟨parent, hparent, htenant⟩ := hone (.execution id) execution hexecution
    (.workflow (Execution.workflowId execution)) List.mem_cons_self
  rw [hworkflowId, hrow] at hparent
  cases hparent
  exact ⟨execution, hexecution, htenant.symm⟩

/-- A row that refers to a deleted workflow or to an execution of it has its tenant, so the
foreign keys leave the rows of other tenants alone. -/
theorem forgottenRow_of_other {workflowId : Uuid} {executions : List RowId} {workflow : Workflow}
    (hlists : ListsExecutions t workflowId executions) (hone : OneTenant (Rows.row t))
    (hrow : Rows.row t (.workflow workflowId) = some workflow) (k : RowId) (row : Row k)
    (hk : Rows.row t k = some row) (hother : Row.tenantId k row ≠ workflow.tenantId) :
    forgottenRow workflowId executions k row = some row := by
  have hworkflow : ∀ id, (.workflow id : RowId) ∈ Row.parents k row → id ≠ workflowId := by
    rintro id hmem rfl
    obtain ⟨parent, hparent, htenant⟩ := hone k row hk _ hmem
    cases hrow.symm.trans hparent
    exact hother htenant.symm
  have hexecution : ∀ id, (.execution id : RowId) ∈ Row.parents k row →
      (.execution id : RowId) ∉ executions := by
    intro id hmem hlisted
    obtain ⟨parent, hparent, htenant⟩ := hone k row hk _ hmem
    obtain ⟨execution, hexecution, hsame⟩ := hlists.tenantId_eq hone hrow hlisted
    cases hexecution.symm.trans hparent
    exact hother (htenant.symm.trans hsame)
  have hnull : ∀ executionId : Option Uuid, (∀ id ∈ executionId,
      (.execution id : RowId) ∉ executions) → setNull executions executionId = executionId := by
    intro executionId hnot
    cases executionId with
    | none => rfl
    | some id => simp [setNull, Option.filter, hnot id rfl]
  apply forgottenRow_eq_some.mpr
  cases k with
  | workflow id =>
    refine ⟨rfl, decide_eq_false ?_⟩
    rintro rfl
    cases hrow.symm.trans hk
    exact hother rfl
  | execution id =>
    have hreplayed : setNull executions (Execution.replayedFrom row) = row.replayedFrom :=
      hnull _ fun id hid => hexecution id (List.mem_cons_of_mem _
        (List.mem_map.mpr ⟨id, Option.mem_toList.mpr hid, rfl⟩))
    refine ⟨?_, decide_eq_false (hworkflow _ List.mem_cons_self)⟩
    rw [forget, hreplayed]
  | step id =>
    exact ⟨rfl, decide_eq_false (hexecution _ List.mem_cons_self)⟩
  | delivery id =>
    have hstarted : setNull executions (WebhookDelivery.executionId row) = row.executionId :=
      hnull _ fun id hid => hexecution id (List.mem_cons_of_mem _
        (List.mem_map.mpr ⟨id, Option.mem_toList.mpr hid, rfl⟩))
    refine ⟨?_, decide_eq_false (hworkflow _ List.mem_cons_self)⟩
    rw [forget, hstarted]

/-- The execution that is cancelled and its steps have one tenant. -/
theorem cancelledRow_of_other {executionId : Uuid} {execution : Execution}
    (hone : OneTenant (Rows.row t)) (hrow : Rows.row t (.execution executionId) = some execution)
    (now : Time) (k : RowId) (row : Row k) (hk : Rows.row t k = some row)
    (hother : Row.tenantId k row ≠ execution.tenantId) :
    cancelledRow executionId now k row = row := by
  cases k with
  | workflow id => rfl
  | delivery id => rfl
  | execution id =>
    refine if_neg ?_
    rintro rfl
    cases hrow.symm.trans hk
    exact hother rfl
  | step id =>
    refine if_neg fun hunfinished => ?_
    obtain ⟨parent, hparent, htenant⟩ := hone (.step id) row hk (.execution row.executionId)
      List.mem_cons_self
    rw [hunfinished.1, hrow] at hparent
    cases hparent
    exact hother htenant.symm

theorem tenantId_cancelledRow (executionId : Uuid) (now : Time) (k : RowId) (row : Row k) :
    Row.tenantId k (cancelledRow executionId now k row) = Row.tenantId k row := by
  cases k with
  | workflow id => rfl
  | delivery id => rfl
  | execution id =>
    simp only [cancelledRow]
    split <;> rfl
  | step id =>
    simp only [cancelledRow]
    split <;> rfl

end

section

variable {libs : Libraries} {settings : Settings} {wire : Wire} {tenantId : Uuid}
  {d d' : Database} (s : Surroundings)

/-- A database whose tables are changed for the tenant only. -/
theorem othersKept_of_rows {rows : Rows Row} {details : Uuid → WorkflowDetails}
    {logs : AList (fun _ : Uuid => ExecutionLog)} (hrows : RowsKept tenantId d.rows rows)
    (hdetails : ∀ id (row : Workflow), Rows.row d.rows (.workflow id) = some row →
      row.tenantId ≠ tenantId → details id = d.details id)
    (hlogs : ∀ id log, ExecutionLog.tenantId log ≠ tenantId →
      (logs.lookup id = some log ↔ d.logs.lookup id = some log)) :
    OthersKept tenantId d { d with rows := rows, details := details, logs := logs } := by
  have hmap : ∀ (k : RowId) {β : Type} (f g : Row k → β) (full : β),
      (∀ row, f row = full → Row.tenantId k row ≠ tenantId) →
      (∀ row, g row = full → Row.tenantId k row ≠ tenantId) →
      (∀ row, Rows.row d.rows k = some row → Row.tenantId k row ≠ tenantId → f row = g row) →
      ((Rows.row rows k).map f = some full ↔ (Rows.row d.rows k).map g = some full) := by
    intro k β f g full hf hg hfg
    simp only [Option.map_eq_some_iff]
    constructor
    · rintro ⟨row, hrow, rfl⟩
      have hold := (hrows k row (hf row rfl)).mp hrow
      exact ⟨row, hold, (hfg row hold (hf row rfl)).symm⟩
    · rintro ⟨row, hrow, rfl⟩
      exact ⟨row, (hrows k row (hg row rfl)).mpr hrow, hfg row hrow (hg row rfl)⟩
  intro table id row hother
  cases table with
  | tenants => exact Iff.rfl
  | executionLogs => exact hlogs id row hother
  | workflows =>
    refine hmap (.workflow id) _ _ row ?_ ?_ fun old hold hne => ?_
    · rintro old rfl
      exact hother
    · rintro old rfl
      exact hother
    · exact congrArg (Prod.mk old) (hdetails id old hold hne)
  | executions =>
    refine hmap (.execution id) _ _ row ?_ ?_ fun _ _ _ => rfl
    all_goals
      rintro old rfl
      exact hother
  | stepExecutions =>
    refine hmap (.step id) _ _ row ?_ ?_ fun _ _ _ => rfl
    all_goals
      rintro old rfl
      exact hother
  | webhookDeliveries =>
    refine hmap (.delivery id) _ _ row ?_ ?_ fun _ _ _ => rfl
    all_goals
      rintro old rfl
      exact hother

theorem othersKept_manageCreate (body : WorkflowCreateRequest) :
    OthersKept tenantId d (manageCreate libs settings s d tenantId body).2 := by
  unfold manageCreate
  cases hparse : parseWorkflowDefinition libs settings
      ⟨body.name, body.triggerType, body.steps.map .obj⟩ with
  | error exc =>
    rw [Database.session_createWorkflow_error d s.env hparse]
    exact fun _ _ _ _ => Iff.rfl
  | ok definition =>
    obtain ⟨t, hsession, hputs⟩ := Database.session_createWorkflow_ok d s.env hparse
    have hfree : Rows.row d.rows (.workflow d.nextUuid) = none := d.row_nextUuid rfl
    rw [hsession]
    refine othersKept_of_rows (hputs.rowsKept rfl fun row hrow => ?_) (fun id row hrow _ => ?_)
      fun _ _ _ => Iff.rfl
    · cases hfree.symm.trans hrow
    · have hne : id ≠ d.nextUuid := by
        rintro rfl
        cases hfree.symm.trans hrow
      exact Function.update_of_ne hne _ _

theorem othersKept_manageUpdate (workflowId : Uuid) (body : WorkflowUpdateRequest) :
    OthersKept tenantId d (manageUpdate libs settings s d tenantId workflowId body).2 := by
  unfold manageUpdate
  cases hfound : d.tenantWorkflow workflowId tenantId with
  | none =>
    rw [Database.session_updateWorkflow_missing hfound]
    exact fun _ _ _ _ => Iff.rfl
  | some workflow =>
    obtain ⟨hrow, hmine⟩ := Option.filter_eq_some_iff.mp hfound
    have htenant : workflow.tenantId = tenantId := of_decide_eq_true hmine
    cases hcheck : body.check libs settings workflow with
    | error exc =>
      rw [Database.session_updateWorkflow_error hfound s.env hcheck]
      exact fun _ _ _ _ => Iff.rfl
    | ok _ =>
      obtain ⟨t, hsession, hputs⟩ := Database.session_updateWorkflow_ok hfound s.env hcheck
      rw [hsession]
      refine othersKept_of_rows (hputs.rowsKept htenant fun row hold => ?_)
        (fun id row hold hother => ?_) fun _ _ _ => Iff.rfl
      · cases hrow.symm.trans hold
        exact htenant
      · have hne : id ≠ workflowId := by
          rintro rfl
          cases hrow.symm.trans hold
          exact hother htenant
        exact Function.update_of_ne hne _ _

/-- A log entry goes with the execution of a deleted workflow. -/
theorem lookup_logsWithout {workflowId id : Uuid} {log : ExecutionLog} :
    (d.logsWithout workflowId).lookup id = some log ↔ d.logs.lookup id = some log ∧
      ∀ execution : Execution, Rows.row d.rows (.execution log.executionId) = some execution →
        execution.workflowId ≠ workflowId := by
  rw [← Option.mem_def, ← Option.mem_def, AList.mem_lookup_iff, AList.mem_lookup_iff]
  refine List.mem_filter.trans (and_congr_right fun _ => ?_)
  cases Rows.row d.rows (.execution log.executionId) with
  | none => simp
  | some execution => simp

theorem othersKept_manageDelete (h : d.Reachable libs settings wire) (workflowId : Uuid) :
    OthersKept tenantId d (manageDelete s d tenantId workflowId).2 := by
  unfold manageDelete
  cases hfound : d.tenantWorkflow workflowId tenantId with
  | none =>
    rw [Database.session_deleteWorkflow_missing hfound]
    exact fun _ _ _ _ => Iff.rfl
  | some workflow =>
    obtain ⟨hrow, hmine⟩ := Option.filter_eq_some_iff.mp hfound
    obtain rfl : workflow.tenantId = tenantId := of_decide_eq_true hmine
    obtain ⟨executions, t, hlists, hsession, hbind⟩ :=
      Database.session_deleteWorkflow_ok hfound s.env
    rw [hsession]
    refine othersKept_of_rows (rowsKept_of_bind hbind tenantId_forgottenRow
      (forgottenRow_of_other hlists h.oneTenant hrow)) (fun _ _ _ _ => rfl) fun id log hother => ?_
    refine lookup_logsWithout.trans (and_iff_left_of_imp fun hlog => ?_)
    rintro execution hexecution rfl
    obtain ⟨owner, howner, htenant⟩ := h.logs id log hlog
    cases hexecution.symm.trans howner
    obtain ⟨parent, hparent, hsame⟩ := h.oneTenant (.execution log.executionId) execution hexecution
      (.workflow execution.workflowId) List.mem_cons_self
    cases hrow.symm.trans hparent
    exact hother (htenant.symm.trans hsame.symm)

theorem othersKept_manageCancel (h : d.Reachable libs settings wire) (executionId : Uuid) :
    OthersKept tenantId d (manageCancel s d tenantId executionId).2 := by
  have hkept : ∀ {t : Rows Row}, RowsKept tenantId d.rows t →
      OthersKept tenantId d { d with rows := t } := fun hrows =>
    othersKept_of_rows hrows (fun _ _ _ _ => rfl) fun _ _ _ => Iff.rfl
  refine hkept ?_
  show RowsKept tenantId d.rows ((cancelExecution executionId tenantId).run
    ⟨⟨d.rows, Session.fresh⟩, s.env⟩).2.db.committed
  rcases committed_cancelExecution s.env d.rows executionId tenantId with
    ⟨-, hrefused⟩ | ⟨⟨execution, hrow, rfl, -⟩, -, now, hrows⟩
  · rw [hrefused]
    exact fun _ _ _ => Iff.rfl
  · refine rowsKept_of_bind (fun k => (hrows k).trans Option.map_eq_bind) ?_ ?_
    · intro k row row' hnew
      cases hnew
      exact tenantId_cancelledRow executionId now k row
    · exact fun k row hk hother =>
        congrArg some (cancelledRow_of_other h.oneTenant hrow now k row hk hother)

/-- No request changes a row of another tenant. -/
theorem othersKept_manage (h : d.Reachable libs settings wire)
    (fromisoformat : String → Option Time) (rate : Nat → Nat → Json) (request : ManagementRequest) :
    OthersKept tenantId d (manage libs settings fromisoformat rate s d tenantId request).2 := by
  cases request with
  | createWorkflow body => exact othersKept_manageCreate s body
  | updateWorkflow workflowId body => exact othersKept_manageUpdate s workflowId body
  | deleteWorkflow workflowId => exact othersKept_manageDelete s h workflowId
  | cancelExecution executionId => exact othersKept_manageCancel s h executionId
  | getWorkflow workflowId =>
    show OthersKept tenantId d { d with
      rows := (d.session s.env (getTenantWorkflow workflowId tenantId)).2 }
    rw [Database.session_getTenantWorkflow]
    exact fun _ _ _ _ => Iff.rfl
  | listWorkflows cursor limit filters => exact fun _ _ _ _ => Iff.rfl
  | listExecutions cursor limit filters => exact fun _ _ _ _ => Iff.rfl
  | getExecution executionId => exact fun _ _ _ _ => Iff.rfl
  | getExecutionLogs executionId stepId => exact fun _ _ _ _ => Iff.rfl
  | getExecutionMetrics => exact fun _ _ _ _ => Iff.rfl

/-- What a session of a route commits is a step of the engine. -/
theorem Database.Reachable.engine_session (h : d.Reachable libs settings wire) (env : Environment)
    (entry : Entry) (hoffers : ∀ state : Engine, state.Offers entry) :
    ∃ state, Engine.Reachable libs settings wire state ∧
      state.rows = ((entry.program libs settings wire 0 0).run
        ⟨⟨d.rows, Session.fresh⟩, env⟩).2.db.committed := by
  obtain ⟨state, hstate, hsame⟩ := h.engine
  refine ⟨state.after env (entry.program libs settings wire 0 0),
    hstate.tail (.entry entry 0 0 env (hoffers state)), ?_⟩
  rw [← hsame]
  rfl

/-- Where the session puts a workflow, the log entries keep their executions. -/
theorem Database.Reachable.puts_workflow (h : d.Reachable libs settings wire) {rows : Rows Row}
    {id : Uuid} {row : Workflow} (hputs : Puts d.rows rows (.workflow id) row)
    (hengine : ∃ state, Engine.Reachable libs settings wire state ∧ state.rows = rows)
    (details : Uuid → WorkflowDetails) :
    Database.Reachable libs settings wire { d with rows := rows, details := details } := by
  refine ⟨hengine, fun logId log hlog => ?_⟩
  obtain ⟨execution, hexecution, htenant⟩ := h.logs logId log hlog
  exact ⟨execution, (hputs.others _ (by simp)).trans hexecution, htenant⟩

theorem Database.Reachable.manageCreate (h : d.Reachable libs settings wire)
    (body : WorkflowCreateRequest) :
    (manageCreate libs settings s d tenantId body).2.Reachable libs settings wire := by
  unfold WorkflowEngine.manageCreate
  cases hparse : parseWorkflowDefinition libs settings
      ⟨body.name, body.triggerType, body.steps.map .obj⟩ with
  | error exc =>
    rw [Database.session_createWorkflow_error d s.env hparse]
    exact h
  | ok definition =>
    obtain ⟨t, hsession, hputs⟩ := Database.session_createWorkflow_ok d s.env hparse
    have hengine := h.engine_session s.env (.createWorkflow body tenantId s.generated)
      fun _ => trivial
    rw [Entry.program, Prog.run_discard] at hengine
    have hcommitted : (d.session s.env
        (createWorkflow libs settings body tenantId s.generated)).2 = t :=
      congrArg Prod.snd hsession
    rw [hsession]
    exact h.puts_workflow hputs (hcommitted ▸ hengine) _

theorem Database.Reachable.manageUpdate (h : d.Reachable libs settings wire) (workflowId : Uuid)
    (body : WorkflowUpdateRequest) :
    (manageUpdate libs settings s d tenantId workflowId body).2.Reachable libs settings wire := by
  unfold WorkflowEngine.manageUpdate
  cases hfound : d.tenantWorkflow workflowId tenantId with
  | none =>
    rw [Database.session_updateWorkflow_missing hfound]
    exact h
  | some workflow =>
    cases hcheck : body.check libs settings workflow with
    | error exc =>
      rw [Database.session_updateWorkflow_error hfound s.env hcheck]
      exact h
    | ok _ =>
      obtain ⟨t, hsession, hputs⟩ := Database.session_updateWorkflow_ok hfound s.env hcheck
      have hengine := h.engine_session s.env (.updateWorkflow body workflowId tenantId s.generated)
        fun _ => trivial
      rw [Entry.program, Prog.run_discard] at hengine
      have hcommitted : (d.session s.env
          (updateWorkflow libs settings body workflowId tenantId s.generated)).2 = t :=
        congrArg Prod.snd hsession
      rw [hsession]
      exact h.puts_workflow hputs (hcommitted ▸ hengine) _

/-- The log entries of the executions that go are removed with them. -/
theorem Database.Reachable.manageDelete (h : d.Reachable libs settings wire) (workflowId : Uuid) :
    (manageDelete s d tenantId workflowId).2.Reachable libs settings wire := by
  unfold WorkflowEngine.manageDelete
  cases hfound : d.tenantWorkflow workflowId tenantId with
  | none =>
    rw [Database.session_deleteWorkflow_missing hfound]
    exact h
  | some workflow =>
    obtain ⟨executions, t, hlists, hsession, hbind⟩ :=
      Database.session_deleteWorkflow_ok hfound s.env
    have hengine := h.engine_session s.env (.deleteWorkflow workflowId tenantId) fun _ => trivial
    have hcommitted : (d.session s.env (deleteWorkflow workflowId tenantId)).2 = t :=
      congrArg Prod.snd hsession
    rw [hsession]
    refine ⟨hcommitted ▸ hengine, fun id log hlog => ?_⟩
    obtain ⟨hold, hstays⟩ := lookup_logsWithout.mp hlog
    obtain ⟨execution, hexecution, htenant⟩ := h.logs id log hold
    have hnew : forgottenRow workflowId executions (.execution log.executionId) execution =
        some (forget executions (.execution log.executionId) execution) :=
      forgottenRow_eq_some.mpr ⟨rfl, decide_eq_false (hstays execution hexecution)⟩
    refine ⟨forget executions (.execution log.executionId) execution, ?_, htenant⟩
    rw [hbind, hexecution]
    exact hnew

theorem Database.Reachable.manageCancel (h : d.Reachable libs settings wire) (executionId : Uuid) :
    (manageCancel s d tenantId executionId).2.Reachable libs settings wire := by
  refine ⟨h.engine_session s.env (.operation (.cancelExecution executionId tenantId))
    fun _ => trivial, fun id log hlog => ?_⟩
  obtain ⟨owner, howner, hsame⟩ := h.logs id log hlog
  show ∃ execution : Execution, Rows.row ((cancelExecution executionId tenantId).run
    ⟨⟨d.rows, Session.fresh⟩, s.env⟩).2.db.committed (.execution log.executionId) = some execution ∧
      execution.tenantId = log.tenantId
  rcases committed_cancelExecution s.env d.rows executionId tenantId with
    ⟨-, hrefused⟩ | ⟨-, -, now, hrows⟩
  · rw [hrefused]
    exact ⟨owner, howner, hsame⟩
  · refine ⟨cancelledRow executionId now (.execution log.executionId) owner, ?_, ?_⟩
    · rw [hrows, howner]
      rfl
    · exact (tenantId_cancelledRow executionId now (.execution log.executionId) owner).trans hsame

/-- The requests lead from states that the program reaches to such states. -/
theorem Database.Reachable.manage (h : d.Reachable libs settings wire)
    (fromisoformat : String → Option Time) (rate : Nat → Nat → Json) (request : ManagementRequest) :
    (manage libs settings fromisoformat rate s d tenantId request).2.Reachable libs settings
      wire := by
  cases request with
  | createWorkflow body => exact h.manageCreate s body
  | updateWorkflow workflowId body => exact h.manageUpdate s workflowId body
  | deleteWorkflow workflowId => exact h.manageDelete s workflowId
  | cancelExecution executionId => exact h.manageCancel s executionId
  | getWorkflow workflowId =>
    show Database.Reachable libs settings wire { d with
      rows := (d.session s.env (getTenantWorkflow workflowId tenantId)).2 }
    rw [Database.session_getTenantWorkflow]
    exact h
  | listWorkflows cursor limit filters => exact h
  | listExecutions cursor limit filters => exact h
  | getExecution executionId => exact h
  | getExecutionLogs executionId stepId => exact h
  | getExecutionMetrics => exact h

/-- The response to a request of the management API depends on the rows of its tenant only,
and the rows of every other tenant are unchanged afterwards. -/
theorem management_isolated (h : d.Reachable libs settings wire)
    (h' : d'.Reachable libs settings wire) (fromisoformat : String → Option Time)
    (rate : Nat → Nat → Json) (request : ManagementRequest) :
    (AgreeOn tenantId d d' →
      (manage libs settings fromisoformat rate s d tenantId request).1.map
          ManagementResponse.anonymous =
        (manage libs settings fromisoformat rate s d' tenantId request).1.map
          ManagementResponse.anonymous) ∧
    OthersKept tenantId d (manage libs settings fromisoformat rate s d tenantId request).2 :=
  ⟨fun hagrees => hagrees.response_eq s h.oneTenant h'.oneTenant fromisoformat rate request,
    othersKept_manage s h fromisoformat rate request⟩

end

/-- The surroundings of the requests below. -/
def quietSurroundings : Surroundings := ⟨Engine.quietEnvironment, 0, 0⟩

/-- Tenant 7 has a workflow with two executions. -/
def oneTenantDatabase : Database :=
  ⟨Engine.replayedEngine.rows, fun _ => ⟨none, [], 0, 0⟩, fun _ => 0, ∅, ∅⟩

/-- Tenant 8 has created a workflow too. -/
def twoTenantDatabase : Database :=
  (manageCreate plainLibraries {} quietSurroundings oneTenantDatabase 8 Engine.hookBody).2

theorem reachable_oneTenantDatabase :
    oneTenantDatabase.Reachable plainLibraries {} plainWire := by
  have hlogs : ∀ id, oneTenantDatabase.logs.lookup id = none := fun _ => AList.lookup_empty _
  have hrows : oneTenantDatabase.rows = Engine.replayedEngine.rows := by
    simp only [oneTenantDatabase]
  refine ⟨⟨_, Engine.reachable_replayedEngine, hrows.symm⟩, fun id log hlog => ?_⟩
  rw [hlogs] at hlog
  cases hlog

/-- What tenant 8 did does not show when tenant 7 deletes its workflow, and it stays. -/
theorem management_isolated_delete :
    (manage plainLibraries {} (fun _ => none) (fun _ _ => .null) quietSurroundings
        oneTenantDatabase 7 (.deleteWorkflow 1)).1.map ManagementResponse.anonymous =
      (manage plainLibraries {} (fun _ => none) (fun _ _ => .null) quietSurroundings
        twoTenantDatabase 7 (.deleteWorkflow 1)).1.map ManagementResponse.anonymous ∧
    OthersKept 7 twoTenantDatabase (manage plainLibraries {} (fun _ => none) (fun _ _ => .null)
      quietSurroundings twoTenantDatabase 7 (.deleteWorkflow 1)).2 := by
  have htwo : twoTenantDatabase.Reachable plainLibraries {} plainWire :=
    reachable_oneTenantDatabase.manageCreate quietSurroundings Engine.hookBody
  have hagrees : AgreeOn 7 twoTenantDatabase oneTenantDatabase := fun table id row htenant =>
    othersKept_manageCreate quietSurroundings Engine.hookBody table id row
      (by rw [htenant]; decide)
  obtain ⟨hresponse, hkept⟩ := management_isolated quietSurroundings htwo
    reachable_oneTenantDatabase (fun _ => none) (fun _ _ => .null) (.deleteWorkflow 1)
  exact ⟨(hresponse hagrees).symm, hkept⟩

end WorkflowEngine

import WorkflowEngine.Notes
import WorkflowEngine.Plain
import WorkflowEngine.Run
import WorkflowEngine.Triggers

/-!
# What is committed when an executor is invoked

`start_execution` flushes and leaves the commit to its caller, and every caller
commits after it has returned.  So at the moment an executor is invoked the
execution that it works for is in the open transaction only: no committed row
has its id.  This holds on every trigger path, at every invocation.
-/

namespace WorkflowEngine

open Py Orm Interact

/-- The id that an execution was given does not occur among the committed
rows. -/
theorem row_committed_newUuid {db : Db} {k : RowId} (hk : k.uuid = db.newUuid) :
    Rows.row db.committed k = none := by
  unfold Rows.row
  cases hlookup : db.committed.lookup k with
  | none => rfl
  | some row =>
    exfalso
    have hcommitted : k ∈ db.committed := by
      rw [← AList.lookup_isSome, hlookup]
      rfl
    have hkeys : k ∈ db.keys := by
      show k ∈ (db.session.pending ∪ db.committed).keys
      rw [← AList.mem_keys]
      exact AList.mem_union.mpr (.inr hcommitted)
    have hused : k.uuid ∈ db.usedUuids :=
      List.mem_flatMap.mpr ⟨k, hkeys, List.mem_cons_self⟩
    have hlt := Db.lt_newUuid hused
    rw [hk] at hlt
    exact absurd hlt (Nat.lt_irrefl _)

/-- What the executor's invocation finds committed: the execution and the step
running, and every step that has ended as the session sees it. -/
structure Durable (inv : Invocation) : Prop where
  execution : ∃ e, Rows.row inv.committed (.execution inv.caller.execution) = some e ∧
    e.status = .running
  step : ∃ sid row, Rows.row inv.committed (.step sid) = some row ∧
    row.executionId = inv.caller.execution ∧ row.stepId = inv.caller.step ∧ row.status = .running
  earlier : ∀ sid row, inv.view (.step sid) = some row →
    row.executionId = inv.caller.execution → row.status ∈ [StepStatus.completed, .skipped] →
    ∃ row', Rows.row inv.committed (.step sid) = some row' ∧ row'.status = row.status ∧
      row'.outputData = row.outputData

/-- No invocation finds its execution committed, and an execution that is
started invokes an executor. -/
def uncommitted : NoteRule where
  holds new :=
    (∀ inv, .invoked inv ∈ new →
      Rows.row inv.committed (.execution inv.caller.execution) = none) ∧
    ((∃ id parent, .started id parent ∈ new) → ∃ inv, .invoked inv ∈ new)
  nil := by simp
  append {new new'} h h' := by
    constructor
    · intro inv hinv
      rcases List.mem_append.mp hinv with hleft | hright
      · exact h.1 inv hleft
      · exact h'.1 inv hright
    · rintro ⟨id, parent, hstarted⟩
      rcases List.mem_append.mp hstarted with hleft | hright
      · obtain ⟨inv, hinv⟩ := h.2 ⟨id, parent, hleft⟩
        exact ⟨inv, List.mem_append_left _ hinv⟩
      · obtain ⟨inv, hinv⟩ := h'.2 ⟨id, parent, hright⟩
        exact ⟨inv, List.mem_append_right _ hinv⟩

section

variable {libs : Libraries} {settings : Settings} {wire : Wire} {session : SessionRef}

theorem notes_startExecution (workflowId : Uuid) (workflow : Workflow)
    (triggerData : Dict String Json) (tenantId : Uuid) (replayedFrom : Option Uuid)
    (depth : Int) :
    Notes uncommitted (startExecution performer session libs settings none workflowId workflow
      triggerData tenantId replayedFrom depth) := by
  intro w
  cases hparse : parseWorkflowDefinition libs settings
      ⟨workflow.name, workflow.triggerType, workflow.steps⟩ with
  | error e =>
    unfold startExecution
    rw [hparse]
    exact ⟨[], Environment.Later.refl _, uncommitted.nil⟩
  | ok parsed =>
    obtain ⟨p, log, invs, b, result, db', env', -, -, -, -, -, hid, hcommitted, -, hrun, hlater,
      -, h⟩ := run_startExecution performer_quiet hparse session none workflowId triggerData tenantId
        replayedFrom depth w
    rw [hrun]
    refine ⟨_, hlater, ?_, ?_⟩
    · intro inv hmem
      have hinv : inv ∈ invs := by simpa using hmem
      obtain ⟨pre, step, ending, post, -, -, -, board, -, -, hinvoked⟩ := h.visits.moment hinv
      rw [hinvoked.committed, hcommitted, hinvoked.caller]
      exact row_committed_newUuid hid
    · intro _
      obtain ⟨inv, rest, hinvs⟩ := List.exists_cons_of_ne_nil h.invs_ne_nil
      exact ⟨inv, by simp [hinvs]⟩

theorem notes_getTenantWorkflow (workflowId tenantId : Uuid) :
    Notes uncommitted (getTenantWorkflow workflowId tenantId) := by
  unfold getTenantWorkflow
  apply notes_bind (notes_db _)
  intro found
  cases found with
  | none => exact notes_raise _
  | some workflow => exact notes_pure _

theorem notes_manualExecute (workflowId tenantId : Uuid) (data : Dict String Json) :
    Notes uncommitted
      (manualExecute performer session libs settings workflowId tenantId data) := by
  unfold manualExecute
  apply notes_bind (notes_getTenantWorkflow _ _)
  intro workflow
  apply notes_bind (notes_liftExcept _)
  intro _
  apply notes_bind (notes_startExecution _ _ _ _ _ _)
  intro started
  exact notes_bind (notes_db _) fun _ => notes_pure _

theorem notes_replayExecutionEndpoint (executionId tenantId : Uuid)
    (overrideData : Dict String Json) :
    Notes uncommitted (replayExecutionEndpoint performer session libs settings executionId
      tenantId overrideData) := by
  unfold replayExecutionEndpoint replayExecution
  apply notes_ite
  · apply notes_bind
    · apply notes_bind (notes_db _)
      intro found
      cases found with
      | none => exact notes_raise _
      | some original =>
        apply notes_bind (notes_getTenantWorkflow _ _)
        intro workflow
        apply notes_bind (notes_liftExcept _)
        intro _
        apply notes_bind (notes_liftExcept _)
        intro triggerData
        exact notes_startExecution _ _ _ _ _ _
    · intro started
      exact notes_bind (notes_db _) fun _ => notes_pure _
  · exact notes_raise _

theorem notes_executeCronWorkflow (workflowId tenantId : String) :
    Notes uncommitted
      (executeCronWorkflow performer session libs settings workflowId tenantId) := by
  have hbody : ∀ triggerData, Notes uncommitted
      (runCronWorkflow performer session libs settings workflowId tenantId triggerData) := by
    intro triggerData
    unfold runCronWorkflow
    apply notes_bind (notes_liftExcept _)
    intro id
    apply notes_bind (notes_db _)
    intro found
    cases found with
    | none => exact notes_pure _
    | some workflow =>
      apply notes_ite
      · apply notes_bind (notes_liftExcept _)
        intro tenant
        apply notes_bind (notes_startExecution _ _ _ _ _ _)
        intro started
        exact notes_db _
      · exact notes_pure _
  unfold executeCronWorkflow
  apply notes_bind notes_utcNow
  intro now
  apply notes_bind (notes_attempt (hbody _))
  intro ended
  cases ended with
  | ok _ => exact notes_pure _
  | error raised =>
    cases raised with
    | outOfFuel => exact notes_raise _
    | exception exc => exact notes_pure _

theorem notes_logWebhookDelivery (request : WebhookRequest) (workflowId tenantId : Uuid)
    (status : DeliveryStatus) (rejectionReason : Option String) :
    Notes uncommitted
      (logWebhookDelivery wire request workflowId tenantId status rejectionReason) := by
  unfold logWebhookDelivery
  apply notes_bind
  · exact notes_of_later_nil fun w => Environment.Later.refl w.env
  · intro id
    apply notes_bind (notes_rowExists _)
    intro stored
    apply notes_ite
    · exact notes_bind (notes_db _) fun _ => notes_pure _
    · exact notes_raise _

theorem notes_startFromWebhook (request : WebhookRequest) (workflowId : Uuid)
    (workflow : Workflow) :
    Notes uncommitted
      (startFromWebhook performer session libs settings wire request workflowId workflow) := by
  unfold startFromWebhook
  apply notes_bind (notes_logWebhookDelivery _ _ _ _ _)
  intro delivery
  apply notes_bind
  · apply notes_attempt
    apply notes_bind (notes_startExecution _ _ _ _ _ _)
    intro started
    apply notes_bind (notes_db _)
    intro _
    exact notes_bind (notes_db _) fun _ => notes_pure _
  · intro started
    cases started with
    | ok id => exact notes_pure _
    | error raised =>
      cases raised with
      | outOfFuel => exact notes_raise _
      | exception exc =>
        apply notes_bind (notes_db _)
        intro _
        exact notes_bind (notes_db _) fun _ => notes_raise _

theorem notes_receiveForWorkflow (request : WebhookRequest) (workflowId : Uuid)
    (workflow : Workflow) :
    Notes uncommitted
      (receiveForWorkflow performer session libs settings wire request workflowId workflow) := by
  unfold receiveForWorkflow
  apply notes_ite
  · split
    · exact notes_startFromWebhook _ _ _
    · split
      · exact notes_startFromWebhook _ _ _
      · apply notes_bind (notes_logWebhookDelivery _ _ _ _ _)
        intro _
        exact notes_bind (notes_db _) fun _ => notes_pure _
      · exact notes_raise _
  · apply notes_bind (notes_logWebhookDelivery _ _ _ _ _)
    intro _
    exact notes_bind (notes_db _) fun _ => notes_pure _

theorem notes_lookupWorkflowByPath (path : String) :
    Notes uncommitted (lookupWorkflowByPath path) := by
  unfold lookupWorkflowByPath
  apply notes_bind (notes_db _)
  intro found
  split
  · exact notes_raise _
  · apply notes_bind (notes_db _)
    intro obj
    exact notes_bind (notes_mapped _) fun _ => notes_pure _
  · exact notes_raise _

theorem notes_receiveWebhook (request : WebhookRequest) :
    Notes uncommitted
      (receiveWebhook performer session libs settings wire request) := by
  unfold receiveWebhook
  apply notes_bind (notes_liftExcept _)
  intro tooLong
  apply notes_ite (notes_pure _)
  apply notes_ite (notes_pure _)
  split
  · exact notes_receiveForWorkflow _ _ _
  · apply notes_bind (notes_attempt (notes_lookupWorkflowByPath _))
    intro found
    split
    · exact notes_receiveForWorkflow _ _ _
    · exact notes_pure _
    · exact notes_raise _

/-- On every trigger path nothing of an execution is committed before its
executors are invoked. -/
theorem notes_handle (trigger : Trigger) :
    Notes uncommitted (trigger.handle libs settings wire performer session) := by
  cases trigger with
  | manual workflowId tenantId data =>
    exact notes_bind (notes_manualExecute _ _ _) fun _ => notes_pure _
  | webhook request => exact notes_bind (notes_receiveWebhook _) fun _ => notes_pure _
  | cron workflowId tenantId => exact notes_executeCronWorkflow _ _
  | replay executionId tenantId overrideData =>
    exact notes_bind (notes_replayExecutionEndpoint _ _ _) fun _ => notes_pure _

end

section

variable (libs : Libraries) (settings : Settings) (wire : Wire) (session : SessionRef)
  (trigger : Trigger) (w : World)

/-- The trigger starts an execution. -/
def Trigger.Starts : Prop :=
  ∃ id parent, .started id parent ∈
    w.env.since (trigger.after libs settings wire performer session w).env

/-- Every executor invocation of the trigger finds the state durable. -/
def Trigger.StateDurable : Prop :=
  ∀ inv, Invokes w (trigger.after libs settings wire performer session w) inv → Durable inv

variable {libs settings wire session trigger w}

private theorem exists_not_durable (h : trigger.Starts libs settings wire session w) :
    ∃ inv, Invokes w (trigger.after libs settings wire performer session w) inv ∧
      ¬ Durable inv := by
  obtain ⟨new, hlater, hnew⟩ : ∃ new, w.opened.env.Later new
      ((trigger.handle libs settings wire performer session).run w.opened).2.env ∧
      uncommitted.holds new := notes_handle trigger w.opened
  have hsince : w.env.since (trigger.after libs settings wire performer session w).env = new :=
    hlater.since_eq
  obtain ⟨id, parent, hstarted⟩ := h
  rw [hsince] at hstarted
  obtain ⟨inv, hinv⟩ := hnew.2 ⟨id, parent, hstarted⟩
  refine ⟨inv, ?_, ?_⟩
  · unfold Invokes
    rw [hsince]
    exact hinv
  · intro hdurable
    obtain ⟨e, he, -⟩ := hdurable.execution
    rw [hnew.1 inv hinv] at he
    cases he

/-- No trigger path that starts an execution makes its state durable before the
executors are invoked. -/
theorem not_stateDurable (h : trigger.Starts libs settings wire session w) :
    ¬ trigger.StateDurable libs settings wire session w := by
  intro hdurable
  obtain ⟨inv, hinvokes, hnot⟩ := exists_not_durable h
  exact hnot (hdurable inv hinvokes)

end

/-- Wire functions for requests without a body and without a signature. -/
def plainWire : Wire where
  loads := fun _ => none
  hexdigest := fun _ _ => ""

/-- A database with an active workflow of tenant 1 under the id 1, and an
execution of it under the id 2. -/
def oneWorkflowWorld : World :=
  ⟨⟨Rows.ofList
    [⟨.workflow 1, { oneStepWorkflow with webhookPath := some "hook" }⟩,
      ⟨.execution 2, newExecution 1 1 [] none⟩], Session.fresh⟩,
    plainEnvironment (fun _ _ => .ok [])⟩

/-- The executions that were started, in order. -/
def startedExecutions (events : List Event) : List Uuid :=
  events.filterMap (fun event =>
    match event with
    | .started id _ => some id
    | .invoked _ => none)

theorem starts_of_mem {libs : Libraries} {settings : Settings} {wire : Wire}
    {session : SessionRef} {trigger : Trigger} {w : World} {id : Uuid}
    (h : id ∈ startedExecutions
      (w.env.since (trigger.after libs settings wire performer session w).env)) :
    trigger.Starts libs settings wire session w := by
  obtain ⟨event, hevent, heq⟩ := List.mem_filterMap.mp h
  cases event with
  | started id' parent => exact ⟨id', parent, hevent⟩
  | invoked inv => cases heq

/-- One call of each trigger path in that database. -/
def oneWorkflowTriggers : List Trigger :=
  [.manual 1 1 [],
    .webhook ⟨"hook", "POST", [], [], none, none⟩,
    .cron "00000000-0000-0000-0000-000000000001" "00000000-0000-0000-0000-000000000001",
    .replay 2 1 []]

private theorem starts_oneWorkflow {trigger : Trigger} (h : trigger ∈ oneWorkflowTriggers) :
    trigger.Starts plainLibraries {} plainWire 0 oneWorkflowWorld := by
  simp only [oneWorkflowTriggers, List.mem_cons, List.not_mem_nil, or_false] at h
  rcases h with rfl | rfl | rfl | rfl
  · exact starts_of_mem (show 3 ∈ startedExecutions _ by decide +kernel)
  · exact starts_of_mem (show 4 ∈ startedExecutions _ by decide +kernel)
  · exact starts_of_mem (show 3 ∈ startedExecutions _ by decide +kernel)
  · exact starts_of_mem (show 3 ∈ startedExecutions _ by decide +kernel)

/-- None of the four makes the state durable. -/
theorem not_stateDurable_oneWorkflow :
    oneWorkflowTriggers.Forall
      (fun trigger => ¬ trigger.StateDurable plainLibraries {} plainWire 0 oneWorkflowWorld) :=
  List.forall_iff_forall_mem.mpr fun _ h => not_stateDurable (starts_oneWorkflow h)

/-- A manual execution of a workflow with one step: when the executor of the
step is invoked nothing of the execution is committed. -/
theorem not_stateDurable_manual :
    (Trigger.manual 1 1 []).Starts plainLibraries {} plainWire 0 oneWorkflowWorld ∧
      ¬ (Trigger.manual 1 1 []).StateDurable plainLibraries {} plainWire 0 oneWorkflowWorld := by
  have hstarts : (Trigger.manual 1 1 []).Starts plainLibraries {} plainWire 0 oneWorkflowWorld :=
    starts_oneWorkflow List.mem_cons_self
  refine ⟨hstarts, fun hdurable => ?_⟩
  obtain ⟨inv, hinvokes, hnot⟩ := exists_not_durable hstarts
  exact hnot (hdurable inv hinvokes)

end WorkflowEngine

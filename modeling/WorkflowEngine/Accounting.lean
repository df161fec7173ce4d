import WorkflowEngine.Callers
import WorkflowEngine.Durability
import WorkflowEngine.Outcome
import WorkflowEngine.Termination

/-!
# What a webhook request leaves behind

A webhook request logs a delivery and starts an execution in one transaction,
and commits on four exits: the workflow is not active, the signature is
refused, the execution was started, and `start_execution` has raised.

`DeliveryAccounted` is what the log is for: one delivery for the request, and an
execution if and only if the delivery is accepted.  Three exits break it.  The
comparison of a signature that is not ASCII raises before a delivery is logged, and
so does the log itself where the workflow was found in the cache and its row is gone.
And `start_execution` can raise after it has written the execution and its
steps, which the handler then commits together with the delivery.
-/

namespace WorkflowEngine

open Py Orm Interact

/-! ## A run leaves the other rows -/

/-- The tables that a run of an execution writes. -/
def OfRun : RowId → Prop
  | .execution _ => True
  | .step _ => True
  | .workflow _ => False
  | .delivery _ => False

/-- A row of a run that is not there yet. -/
def NewRow (base : Db) (k : RowId) : Prop := base.view k = none ∧ OfRun k

/-- Since `base` nothing was committed, and only new rows of runs were written
and loaded. -/
structure Grows (base db : Db) : Prop where
  committed : db.committed = base.committed
  kept : ∀ k, ¬ NewRow base k → db.view k = base.view k ∧ db.loaded k = base.loaded k

namespace Grows

variable {base db : Db}

theorem refl (base : Db) : Grows base base := ⟨rfl, fun _ _ => ⟨rfl, rfl⟩⟩

/-- A statement on a new row. -/
theorem answer (h : Grows base db) {req : DbReq Row Memo} {k : RowId}
    (hkey : req.key? = some k) (hcommit : req ≠ .commit) (hk : NewRow base k) :
    Grows base (DbState.answer req db).2 := by
  refine ⟨(DbState.committed_answer hcommit db).trans h.committed, fun k' hk' => ?_⟩
  have hne : k' ≠ k := fun heq => hk' (heq ▸ hk)
  exact ⟨(DbState.view_answer_ne hkey hne db).trans (h.kept k' hk').1,
    (DbState.loaded_answer_ne hkey hne db).trans (h.kept k' hk').2⟩

theorem inserted (h : Grows base db) {k : RowId} (hk : NewRow base k) (row : Row k) :
    Grows base (inserted db k row) := h.answer rfl nofun hk

/-- A UUID that is new is new for the start, too. -/
theorem newRow (h : Grows base db) {k : RowId} (hk : k.uuid = db.newUuid) (hrun : OfRun k) :
    NewRow base k := by
  by_contra hnot
  have hnone : base.view k = none := (h.kept k hnot).1.symm.trans (Db.view_newUuid hk)
  exact hnot ⟨hnone, hrun⟩

theorem respects (base : Db) : Respects (NewRow base) (Grows base) := by
  intro req db hreq h
  rcases hreq.key with ⟨hcommit, k, hkey, hk⟩
  exact h.answer hkey hcommit hk

end Grows

/-- `start_execution` writes new rows only. -/
theorem startExecution_grows (libs : Libraries) (settings : Settings) (session : SessionRef)
    (parent : Option Caller) (workflowId : Uuid) (workflow : Workflow)
    (triggerData : Dict String Json) (tenantId : Uuid) (replayedFrom : Option Uuid) (depth : Int)
    (w : World) :
    Grows w.db ((startExecution performer session libs settings parent workflowId workflow
      triggerData tenantId replayedFrom depth).run w).2.db := by
  cases hparse : parseWorkflowDefinition libs settings
      ⟨workflow.name, workflow.triggerType, workflow.steps⟩ with
  | error exc =>
    rw [run_startExecution_refused hparse]
    exact Grows.refl w.db
  | ok parsed =>
    have hnew : NewRow w.db (.execution w.db.newUuid) := (Grows.refl w.db).newRow rfl trivial
    apply startExecution_maintains hparse (Grows.respects w.db) maintains_performer w hnew
    · exact (Grows.refl w.db).inserted hnew _
    · intro db step h
      have hstep : NewRow w.db (.step db.newUuid) := h.newRow rfl trivial
      exact ⟨h.inserted hstep _, hstep⟩

/-! ## The account of a request -/

/-- From `t` to `t'` the delivery `did` was added.  If it is accepted then its
execution was added, which is terminal, with steps of its own; otherwise
nothing else was. -/
structure AccountedBy (t t' : Rows Row) (did : Uuid) (delivery : WebhookDelivery) : Prop where
  fresh : Rows.row t (.delivery did) = none
  logged : Rows.row t' (.delivery did) = some delivery
  ended : delivery.status ≠ .received
  kept : ∀ k, Rows.row t k ≠ none → Rows.row t' k = Rows.row t k
  only : ∀ k, Rows.row t k = none → Rows.row t' k ≠ none →
    k = .delivery did ∨ (delivery.status = .accepted ∧ OfRun k)
  accepted : delivery.status = .accepted → ∃ id e, delivery.executionId = some id ∧
    Rows.row t (.execution id) = none ∧ Rows.row t' (.execution id) = some e ∧
    e.status.terminal = true ∧
    ∃ sid step, Rows.row t (.step sid) = none ∧ Rows.row t' (.step sid) = some step ∧
      step.executionId = id

/-- What was committed from `t` to `t'` is one delivery and what it accounts
for. -/
def DeliveryAccounted (t t' : Rows Row) : Prop := ∃ did delivery, AccountedBy t t' did delivery

/-- A delivery that is not accepted, and nothing else. -/
theorem AccountedBy.of_alone {t t' : Rows Row} {did : Uuid} {delivery : WebhookDelivery}
    (fresh : Rows.row t (.delivery did) = none)
    (logged : Rows.row t' (.delivery did) = some delivery)
    (hstatus : delivery.status = .rejected ∨ delivery.status = .error)
    (hothers : ∀ k, k ≠ .delivery did → Rows.row t' k = Rows.row t k) :
    AccountedBy t t' did delivery := by
  refine ⟨fresh, logged, ?_, fun k hk => ?_, fun k hnone hk => ?_, fun haccepted => ?_⟩
  · rcases hstatus with h | h <;> simp [h]
  · apply hothers k
    rintro rfl
    exact hk fresh
  · by_contra hnot
    exact hk ((hothers k fun heq => hnot (.inl heq)).trans hnone)
  · rcases hstatus with h | h <;> simp [h] at haccepted

/-- A delivery is added by every request that is accounted for. -/
theorem not_deliveryAccounted_of_eq {t t' : Rows Row}
    (h : ∀ id, Rows.row t' (.delivery id) = Rows.row t (.delivery id)) :
    ¬ DeliveryAccounted t t' := by
  rintro ⟨did, delivery, haccounted⟩
  have hlogged := haccounted.logged
  rw [h did, haccounted.fresh] at hlogged
  cases hlogged

/-- An execution that is added beside the one delivery, which is not accepted, is
not accounted for. -/
theorem not_deliveryAccounted_of_error {t t' : Rows Row} {did id : Uuid}
    {delivery : WebhookDelivery} {e : Execution}
    (hdelivery : Rows.row t' (.delivery did) = some delivery)
    (hstatus : delivery.status ≠ .accepted)
    (honly : ∀ k, k ≠ did → Rows.row t' (.delivery k) = Rows.row t (.delivery k))
    (hnew : Rows.row t (.execution id) = none) (hadded : Rows.row t' (.execution id) = some e) :
    ¬ DeliveryAccounted t t' := by
  rintro ⟨did', delivery', h⟩
  have hsame : did' = did := by
    by_contra hne
    have hlogged := h.logged
    rw [honly did' hne, h.fresh] at hlogged
    cases hlogged
  subst hsame
  have hrow : delivery' = delivery := Option.some.inj (h.logged.symm.trans hdelivery)
  rcases h.only (.execution id) hnew (by simp [hadded]) with heq | haccepted
  · cases heq
  · exact hstatus (hrow ▸ haccepted.1)

/-! ## The statements on the delivery -/

theorem view_inserted_self (db : Db) (k : RowId) (row : Row k) :
    (inserted db k row).view k = some row := DbState.view_write_self _ _ _

theorem view_inserted_ne (db : Db) {k k' : RowId} (row : Row k) (h : k' ≠ k) :
    (inserted db k row).view k' = db.view k' := DbState.view_answer_ne rfl h db

theorem loaded_inserted_self (db : Db) (k : RowId) (row : Row k) :
    (inserted db k row).loaded k = some (row, default) := DbState.loaded_load_self _ _ _ _

/-- The session sees and has loaded this delivery. -/
structure Holds (db : Db) (did : Uuid) (row : WebhookDelivery) : Prop where
  view : db.view (.delivery did) = some row
  loaded : db.loaded (.delivery did) = some (row, ())

theorem holds_inserted (db : Db) (did : Uuid) (row : WebhookDelivery) :
    Holds (inserted db (.delivery did) row) did row :=
  ⟨view_inserted_self db (.delivery did) row, loaded_inserted_self db (.delivery did) row⟩

/-- A run of an execution leaves the delivery. -/
theorem Grows.holds {base db : Db} (h : Grows base db) {did : Uuid} {row : WebhookDelivery}
    (hbase : Holds base did row) : Holds db did row := by
  have hkept := h.kept (.delivery did) fun hnew => hnew.2
  exact ⟨hkept.1.trans hbase.view, hkept.2.trans hbase.loaded⟩

/-- Columns of the delivery are assigned, and the session commits. -/
theorem run_assignDelivery_commit {α : Type} {db : Db} {did : Uuid} {row : WebhookDelivery}
    (h : Holds db did row) (f : WebhookDelivery → WebhookDelivery) (env : Environment) :
    ∃ db' : Db, (∀ rest : Prog α, (do
      let _ ← assignDelivery did f
      commit
      rest).run ⟨db, env⟩ = rest.run ⟨db', env⟩) ∧
      Rows.row db'.committed (.delivery did) = some (f row) ∧
      ∀ k, k ≠ .delivery did → Rows.row db'.committed k = db.view k := by
  let written := (db.load (.delivery did) (f row) ()).write (.delivery did) (some (f row))
  have hassign : (assignDelivery did f).run ⟨db, env⟩ = (.ok (some (f row)), ⟨written, env⟩) := by
    rw [assignDelivery, run_db, DbState.answer_touch h.loaded h.view rfl]
  refine ⟨written.commit, fun rest => ?_, ?_, fun k hk => ?_⟩
  · exact (Prog.run_bind_ok hassign).trans (Prog.run_bind_ok (run_db _ _ _))
  · rw [DbState.row_committed_commit]
    exact DbState.view_write_self _ _ _
  · rw [DbState.row_committed_commit]
    exact DbState.view_write_ne _ _ hk

/-! ## The exits of a request -/

/-- A new delivery that is committed at once is the only change, and accounted for where its
status is final. -/
theorem accountedBy_rejected (db : Db) (hpending : db.session.pending = ∅)
    {row : WebhookDelivery} (hstatus : row.status = .rejected) :
    AccountedBy db.committed (inserted db (.delivery db.newUuid) row).commit.committed db.newUuid
      row := by
  apply AccountedBy.of_alone
  · rw [← DbState.view_of_pending_empty hpending]
    exact Db.view_newUuid rfl
  · rw [DbState.row_committed_commit]
    exact view_inserted_self _ _ _
  · exact .inl hstatus
  · intro k hk
    rw [DbState.row_committed_commit, view_inserted_ne _ _ hk,
      DbState.view_of_pending_empty hpending]

section

variable {libs : Libraries} {settings : Settings} {wire : Wire} {session : SessionRef}
  {request : WebhookRequest} {workflowId : Uuid} {workflow : Workflow}

/-- The start of an execution in a webhook request, in the world in which the
delivery is logged. -/
def webhookStart (libs : Libraries) (settings : Settings) (wire : Wire) (session : SessionRef)
    (request : WebhookRequest) (workflowId : Uuid) (workflow : Workflow) (w : World) :
    Except Raised (Uuid × Execution) × World :=
  (startExecution performer session libs settings none workflowId workflow
    [("payload", request.payload wire), ("headers", .obj request.requestHeaders)]
    workflow.tenantId none 0).run
    ⟨inserted w.db (.delivery w.db.newUuid)
      (loggedDelivery wire request workflowId workflow.tenantId .received none), w.env⟩

/-- The delivery is still at hand when the start has ended. -/
theorem holds_webhookStart (libs : Libraries) (settings : Settings) (wire : Wire)
    (session : SessionRef) (request : WebhookRequest) (workflowId : Uuid) (workflow : Workflow)
    (w : World) :
    Holds (webhookStart libs settings wire session request workflowId workflow w).2.db w.db.newUuid
      (loggedDelivery wire request workflowId workflow.tenantId .received none) :=
  (startExecution_grows libs settings session none workflowId workflow _ workflow.tenantId none 0
    _).holds (holds_inserted w.db w.db.newUuid _)

/-- What a request commits whose start has ended with `result` and left the
database `db`. -/
structure StartEnded (db : Db) (did : Uuid) (result : Except Raised (Uuid × Execution))
    (t' : Rows Row) (row : WebhookDelivery) : Prop where
  logged : Rows.row t' (.delivery did) = some row
  others : ∀ k, k ≠ .delivery did → Rows.row t' k = db.view k
  ok : ∀ id e, result = .ok (id, e) → row.status = .accepted ∧ row.executionId = some id
  error : ∀ raised, result = .error raised → row.status = .error

theorem run_startFromWebhook {w w₂ : World} {result : Except Raised (Uuid × Execution)}
    (hstored : (w.db.view (.workflow workflowId)).isSome = true)
    (hstart : webhookStart libs settings wire session request workflowId workflow w = (result, w₂))
    (hfuel : result ≠ .error .outOfFuel) :
    ∃ row, StartEnded w₂.db w.db.newUuid result
      ((startFromWebhook performer session libs settings wire request workflowId
        workflow).run w).2.db.committed row := by
  have hholds := holds_webhookStart libs settings wire session request workflowId workflow w
  rw [hstart] at hholds
  cases result with
  | ok started =>
    rcases run_assignDelivery_commit (α := Uuid) hholds (fun row =>
      { row with status := .accepted, executionId := some started.1 }) w₂.env with
      ⟨db', hrun, hrow, hothers⟩
    have hend : (startFromWebhook performer session libs settings wire request workflowId
        workflow).run w = (.ok (.accepted started.1), ⟨db', w₂.env⟩) := by
      unfold startFromWebhook
      rw [Prog.run_bind_ok (run_logWebhookDelivery _ _ _ _ _ _ hstored)]
      refine (Prog.run_attempt_bind
        (by exact (Prog.run_bind_ok hstart).trans (hrun (pure started.1)))).trans ?_
      rfl
    rw [hend]
    refine ⟨_, hrow, hothers, fun id e hresult => ?_, fun raised hresult => ?_⟩
    · cases hresult
      exact ⟨rfl, rfl⟩
    · cases hresult
  | error raised =>
    cases raised with
    | outOfFuel => exact absurd rfl hfuel
    | exception exc =>
      rcases run_assignDelivery_commit (α := Response) hholds (fun row =>
        { row with status := .error, rejectionReason := some exc.str }) w₂.env with
        ⟨db', hrun, hrow, hothers⟩
      have hend : (startFromWebhook performer session libs settings wire request workflowId
          workflow).run w = (.error (.exception exc), ⟨db', w₂.env⟩) := by
        unfold startFromWebhook
        rw [Prog.run_bind_ok (run_logWebhookDelivery _ _ _ _ _ _ hstored)]
        refine (Prog.run_attempt_bind (Prog.run_bind_error hstart)).trans ?_
        exact hrun (Script.raise (.exception exc))
      rw [hend]
      refine ⟨_, hrow, hothers, fun id e hresult => ?_, fun raised hresult => rfl⟩
      cases hresult

/-- The rows outside the delivery, before and after the start. -/
theorem webhookStart_view {w w₂ : World} (hpending : w.db.session.pending = ∅)
    {result : Except Raised (Uuid × Execution)}
    (hstart : webhookStart libs settings wire session request workflowId workflow w = (result, w₂))
    {k : RowId} (hk : k ≠ .delivery w.db.newUuid)
    (hkept : Rows.row w.db.committed k ≠ none ∨ ¬ OfRun k) :
    w₂.db.view k = Rows.row w.db.committed k := by
  have hgrows := startExecution_grows libs settings session none workflowId workflow
    [("payload", request.payload wire), ("headers", .obj request.requestHeaders)]
    workflow.tenantId none 0 ⟨inserted w.db (.delivery w.db.newUuid)
      (loggedDelivery wire request workflowId workflow.tenantId .received none), w.env⟩
  have hbase := (view_inserted_ne w.db (loggedDelivery wire request workflowId workflow.tenantId
    .received none) hk).trans (DbState.view_of_pending_empty hpending k)
  unfold webhookStart at hstart
  rw [hstart] at hgrows
  rw [← hbase]
  refine (hgrows.kept k fun hnew => ?_).1
  rcases hkept with hrow | hrun
  · exact hrow (hbase.symm.trans hnew.1)
  · exact hrun hnew.2

/-- What the start of an accepted workflow has added to the rows `t`. -/
structure StartAdded (t : Rows Row) (db : Db) (p : RunPlan) (b : Board) : Prop where
  fresh : Rows.row t (.execution p.ids.id) = none
  execution : db.view (.execution p.ids.id) = some b.execution
  step : ∃ sid row, Rows.row t (.step sid) = none ∧ db.view (.step sid) = some row ∧
    row.executionId = p.ids.id

theorem webhookStart_added {parsed : WorkflowDefinition}
    (hparse : parseWorkflowDefinition libs settings
      ⟨workflow.name, workflow.triggerType, workflow.steps⟩ = .ok parsed)
    {w w₂ : World} (hpending : w.db.session.pending = ∅)
    {result : Except Raised (Uuid × Execution)}
    (hstart : webhookStart libs settings wire session request workflowId workflow w = (result, w₂)) :
    ∃ (p : RunPlan) (log : StepLog) (invs : List Invocation) (b : Board)
      (walked : Except Raised Unit), p.runner = performer ∧ p.behaviour = w.env.behaviour ∧
      p.steps = parsed.steps ∧ result = walked.map (fun _ => (p.ids.id, b.execution)) ∧
      Run p log invs b walked ∧ StartAdded w.db.committed w₂.db p b := by
  let base := inserted w.db (.delivery w.db.newUuid)
    (loggedDelivery wire request workflowId workflow.tenantId .received none)
  have hbase : ∀ k, k ≠ .delivery w.db.newUuid → Rows.row w.db.committed k = base.view k := by
    intro k hk
    rw [view_inserted_ne _ _ hk, DbState.view_of_pending_empty hpending]
  have hview : ∀ {k}, Rows.row w.db.committed k ≠ none → k ≠ .delivery w.db.newUuid →
      w₂.db.view k = base.view k := by
    intro k hrow hk
    rw [← hbase k hk]
    exact webhookStart_view hpending hstart hk (.inl hrow)
  rcases run_startExecution performer_quiet hparse session none workflowId
    [("payload", request.payload wire), ("headers", .obj request.requestHeaders)]
    workflow.tenantId none 0 ⟨base, w.env⟩ with
    ⟨p, log, invs, b, walked, db', env', hrunner, -, hbehaviour, hsteps, -, hid, -, -, hrun, -,
      hshows, h⟩
  have hended := hstart.symm.trans hrun
  cases hended
  refine ⟨p, log, invs, b, walked, hrunner, hbehaviour, hsteps, rfl, h, ?_,
    hshows.seen.execution, ?_⟩
  · rw [hbase _ (by simp), hid]
    exact Db.view_newUuid rfl
  · rcases List.exists_mem_of_ne_nil _ p.accepted.nonempty with ⟨step, hstep⟩
    have hrows := h.stepRows hshows
    rcases hrows.present step hstep with ⟨sid, hsid⟩
    have hexecution := (hrows.columns step hstep).1
    refine ⟨sid, b.row step.id, ?_, hsid, hexecution⟩
    by_contra hrow
    -- a step that was there belongs to another execution
    have hold : base.view (.step sid) = some (b.row step.id) :=
      (hview hrow (by simp)).symm.trans hsid
    exact Db.executionId_ne_newUuid hold (hexecution.trans hid)

/-- Where the start has returned, its execution is on the account. -/
theorem accountedBy_started {parsed : WorkflowDefinition}
    (hparse : parseWorkflowDefinition libs settings
      ⟨workflow.name, workflow.triggerType, workflow.steps⟩ = .ok parsed)
    {w w₂ : World} (hpending : w.db.session.pending = ∅) {id : Uuid} {e : Execution}
    (hstart : webhookStart libs settings wire session request workflowId workflow w =
      (.ok (id, e), w₂)) {t' : Rows Row} {row : WebhookDelivery}
    (hended : StartEnded w₂.db w.db.newUuid (.ok (id, e)) t' row) :
    AccountedBy w.db.committed t' w.db.newUuid row := by
  have hview : ∀ {k}, k ≠ .delivery w.db.newUuid →
      (Rows.row w.db.committed k ≠ none ∨ ¬ OfRun k) →
      Rows.row t' k = Rows.row w.db.committed k := by
    intro k hk hkept
    rw [hended.others k hk]
    exact webhookStart_view hpending hstart hk hkept
  rcases hended.ok id e rfl with ⟨haccepted, hexecution⟩
  have hfresh : Rows.row w.db.committed (.delivery w.db.newUuid) = none := by
    rw [← DbState.view_of_pending_empty hpending]
    exact Db.view_newUuid rfl
  refine ⟨hfresh, hended.logged, by simp [haccepted], fun k hk => ?_, fun k hnone hk => ?_,
    fun _ => ?_⟩
  · apply hview _ (.inl hk)
    rintro rfl
    exact hk hfresh
  · by_cases heq : k = .delivery w.db.newUuid
    · exact .inl heq
    · refine .inr ⟨haccepted, ?_⟩
      by_contra hrun
      rw [hview heq (.inr hrun)] at hk
      exact hk hnone
  · rcases webhookStart_added hparse hpending hstart with
      ⟨p, log, invs, b, walked, -, -, -, hresult, h, hadded⟩
    cases walked with
    | error raised => cases hresult
    | ok value =>
      cases hresult
      have hterminal : b.execution.status.terminal = true := by
        rcases h.terminal with hstatus | hstatus <;> rw [hstatus] <;> rfl
      rcases hadded.step with ⟨sid, step, hnew, hsid, hbelongs⟩
      refine ⟨_, _, hexecution, hadded.fresh, ?_, hterminal, sid, step, hnew, ?_, hbelongs⟩
      · rw [hended.others _ (by simp)]
        exact hadded.execution
      · rw [hended.others _ (by simp)]
        exact hsid

/-- Where the start was refused by the parser, the delivery stands alone. -/
theorem accountedBy_refused {exc : PyError} (hparse : parseWorkflowDefinition libs settings
      ⟨workflow.name, workflow.triggerType, workflow.steps⟩ = .error exc)
    {w w₂ : World} (hpending : w.db.session.pending = ∅)
    {result : Except Raised (Uuid × Execution)}
    (hstart : webhookStart libs settings wire session request workflowId workflow w = (result, w₂))
    {t' : Rows Row} {row : WebhookDelivery}
    (hended : StartEnded w₂.db w.db.newUuid result t' row) :
    AccountedBy w.db.committed t' w.db.newUuid row := by
  unfold webhookStart at hstart
  rw [run_startExecution_refused hparse] at hstart
  cases hstart
  apply AccountedBy.of_alone
  · rw [← DbState.view_of_pending_empty hpending]
    exact Db.view_newUuid rfl
  · exact hended.logged
  · exact .inr (hended.error _ rfl)
  · intro k hk
    rw [hended.others k hk, view_inserted_ne _ _ hk, DbState.view_of_pending_empty hpending]

/-- Where the start has raised after it has written its rows, these are committed
beside a delivery that says `error`. -/
theorem not_accounted_stuck {parsed : WorkflowDefinition}
    (hparse : parseWorkflowDefinition libs settings
      ⟨workflow.name, workflow.triggerType, workflow.steps⟩ = .ok parsed)
    {w w₂ : World} (hpending : w.db.session.pending = ∅) {raised : Raised}
    (hstart : webhookStart libs settings wire session request workflowId workflow w =
      (.error raised, w₂)) {t' : Rows Row} {row : WebhookDelivery}
    (hended : StartEnded w₂.db w.db.newUuid (.error raised) t' row) :
    ¬ DeliveryAccounted w.db.committed t' := by
  rcases webhookStart_added hparse hpending hstart with ⟨p, -, -, b, -, -, -, -, -, -, hadded⟩
  refine not_deliveryAccounted_of_error hended.logged ?_ (fun k hk => ?_) hadded.fresh
    ((hended.others _ (by simp)).trans hadded.execution)
  · simp [hended.error raised rfl]
  · have hne : (.delivery k : RowId) ≠ .delivery w.db.newUuid := by simpa using hk
    rw [hended.others _ hne]
    exact webhookStart_view hpending hstart hne (.inr id)

/-! ## The signature and the workflow of a request -/

/-- The header that `validate_hmac_signature` is handed. -/
def WebhookRequest.signature (request : WebhookRequest) : Option String :=
  Dict.get? request.headers "x-hub-signature-256"

/-- What the validation of the signature says, where the workflow has a secret. -/
def checkSignature (wire : Wire) (request : WebhookRequest) (workflow : Workflow) :
    Except PyError Unit :=
  match workflow.webhookSecret.filter (· != "") with
  | none => .ok ()
  | some secret => validateHmacSignature wire secret request.body request.signature

/-- The condition on an active workflow and a request for it: where there is a
secret the signature is ASCII, and where the signature is right the branches of
an accepted definition are settable. -/
structure Accountable (libs : Libraries) (settings : Settings) (wire : Wire)
    (request : WebhookRequest) (workflow : Workflow) : Prop where
  ascii : workflow.webhookSecret.filter (· != "") ≠ none →
    (request.signature.getD "").toList.all (fun c => c.toNat < 128) = true
  settable : checkSignature wire request workflow = .ok () →
    ∀ parsed, parseWorkflowDefinition libs settings
      ⟨workflow.name, workflow.triggerType, workflow.steps⟩ = .ok parsed →
    BranchesSettable parsed.steps

/-- The validation raises another exception than its own where the signature is
not ASCII. -/
theorem validateHmacSignature_ascii_iff (wire : Wire) (secret : String) (body : List UInt8)
    (header : Option String) :
    (header.getD "").toList.all (fun c => c.toNat < 128) = true ↔
      validateHmacSignature wire secret body header = .ok () ∨
        ∃ e, validateHmacSignature wire secret body header = .error (.app e) := by
  unfold validateHmacSignature
  by_cases hempty : header.getD "" = ""
  · simp [hempty, invalidSignature]
  · by_cases hascii : (header.getD "").toList.all (fun c => c.toNat < 128) = true
    · simp only [hempty, hascii, if_true, if_false]
      split <;> simp [invalidSignature]
    · simp [hempty, hascii]

/-- What the validation raises is an application error or a `TypeError`. -/
theorem checkSignature_ascii_iff (wire : Wire) (request : WebhookRequest) (workflow : Workflow) :
    (workflow.webhookSecret.filter (· != "") ≠ none →
      (request.signature.getD "").toList.all (fun c => c.toNat < 128) = true) ↔
      checkSignature wire request workflow = .ok () ∨
        ∃ e, checkSignature wire request workflow = .error (.app e) := by
  unfold checkSignature
  cases workflow.webhookSecret.filter (· != "") with
  | none => simp
  | some secret =>
    rw [← validateHmacSignature_ascii_iff]
    simp

/-- The condition of `lookup_workflow_by_path`. -/
def hasPath (path : String) : (k : RowId) → Row k → Bool
  | .workflow _, row => decide (row.webhookPath = some path)
  | .execution _, _ => false
  | .step _, _ => false
  | .delivery _, _ => false

/-- The one workflow with this path. -/
def workflowOfPath (t : Rows Row) (path : String) : Option (Uuid × Workflow) :=
  match DbState.matching (⟨t, Session.fresh⟩ : Db) (hasPath path) with
  | [.workflow id] => (Rows.row t (.workflow id)).map (fun workflow => (id, workflow))
  | _ => none

/-- The workflow that a request resolves to: the request is not too large, and
the cache has a workflow for its path or, if not, one workflow has the path. -/
def resolvedWorkflow (settings : Settings) (request : WebhookRequest) (t : Rows Row) :
    Option (Uuid × Workflow) :=
  match contentTooLong settings request with
  | .ok false =>
    if request.body.length > settings.maxPayloadSize then none
    else request.cached.or (workflowOfPath t request.path)
  | _ => none

/-- The lookup finds this workflow, and loads it. -/
theorem run_lookupWorkflowByPath {t : Rows Row} {path : String}
    (h : workflowOfPath t path = some (workflowId, workflow)) (env : Environment) :
    ∃ s : Session Row Memo, s.pending = ∅ ∧
      (lookupWorkflowByPath path).run ⟨⟨t, Session.fresh⟩, env⟩ =
        (.ok (workflowId, workflow), ⟨⟨t, s⟩, env⟩) := by
  let db : Db := ⟨t, Session.fresh⟩
  unfold workflowOfPath at h
  split at h
  · rename_i id hmatching
    obtain ⟨row, hrow, hfound⟩ := Option.map_eq_some_iff.mp h
    cases hfound
    have hview : db.view (.workflow workflowId) = some workflow := by
      rw [DbState.view_of_pending_empty rfl]
      exact hrow
    let found := db.load (.workflow workflowId) workflow ()
    have hload : db.loadAll [.workflow workflowId] = found := by
      unfold DbState.loadAll
      rw [hview]
      rfl
    have hselect : ∀ p, p = hasPath path → (selectWhere p).run ⟨db, env⟩ =
        (.ok [.workflow workflowId], ⟨found, env⟩) := by
      intro p hp
      rw [hp, selectWhere, run_db]
      show (Except.ok (db.matching (hasPath path)), (⟨db.loadAll (db.matching (hasPath path)), env⟩ :
        World)) = _
      rw [hmatching, hload]
    have htouch : Prog.run (Script.send (S := engineSignature)
        (.db (.touch (.workflow workflowId) (fun attrs memo => ((attrs, memo), none)))))
        ⟨found, env⟩ = (.ok (some workflow), ⟨found, env⟩) := by
      rw [run_db, DbState.answer_touch_silent (DbState.loaded_load_self _ _ _ _) rfl,
        DbState.load_load]
    refine ⟨found.session, rfl, ?_⟩
    unfold lookupWorkflowByPath
    refine (Prog.run_bind_ok (hselect _ ?_)).trans ?_
    · funext k
      cases k <;> rfl
    · refine (Prog.run_bind_ok htouch).trans ?_
      rfl
  · cases h

/-- A request that resolves to a workflow is a request for that workflow. -/
theorem run_receiveWebhook (runner : Runner) (libs : Libraries) (wire : Wire) (session : SessionRef)
    {t : Rows Row} (h : resolvedWorkflow settings request t = some (workflowId, workflow))
    (env : Environment) :
    ∃ s : Session Row Memo, s.pending = ∅ ∧
      (receiveWebhook runner session libs settings wire request).run
        ⟨⟨t, Session.fresh⟩, env⟩ =
      (receiveForWorkflow runner session libs settings wire request workflowId workflow).run
        ⟨⟨t, s⟩, env⟩ := by
  unfold resolvedWorkflow at h
  split at h
  · rename_i hlength
    split at h
    · cases h
    · rename_i hbody
      unfold receiveWebhook
      rw [hlength]
      cases hcached : request.cached with
      | some found =>
        rw [hcached] at h
        cases h
        refine ⟨Session.fresh, rfl, ?_⟩
        refine (Prog.run_bind_ok (Prog.run_liftExcept _ _)).trans ?_
        simp only [Bool.false_eq_true, if_false, hbody]
      | none =>
        rw [hcached] at h
        rcases run_lookupWorkflowByPath h env with ⟨s, hpending, hlookup⟩
        refine ⟨s, hpending, ?_⟩
        refine (Prog.run_bind_ok (Prog.run_liftExcept _ _)).trans ?_
        simp only [Bool.false_eq_true, if_false, hbody]
        exact Prog.run_attempt_bind hlookup
  · cases h

/-- How `receive_webhook` goes on for an active workflow. -/
def answerCheck (runner : Runner) (session : SessionRef) (libs : Libraries) (settings : Settings)
    (wire : Wire) (request : WebhookRequest) (workflowId : Uuid) (workflow : Workflow) :
    Except PyError Unit → Prog Response
  | .ok () => startFromWebhook runner session libs settings wire request workflowId workflow
  | .error (.app exc) => do
    let _ ← logWebhookDelivery wire request workflowId workflow.tenantId .rejected
      (some exc.message)
    commit
    return .ofError exc
  | .error exc => Script.raise (.exception exc)

/-- An active workflow is run as the check of the signature says. -/
theorem receiveForWorkflow_active {runner : Runner} (hactive : workflow.isActive = true) :
    receiveForWorkflow runner session libs settings wire request workflowId workflow =
      answerCheck runner session libs settings wire request workflowId workflow
        (checkSignature wire request workflow) := by
  unfold receiveForWorkflow checkSignature WebhookRequest.signature
  rw [if_pos hactive]
  cases workflow.webhookSecret.filter (· != "") with
  | none => rfl
  | some secret =>
    cases hcheck : validateHmacSignature wire secret request.body
        (Dict.get? request.headers "x-hub-signature-256") with
    | ok _ =>
      simp only [hcheck]
      rfl
    | error exc =>
      simp only [hcheck]
      cases exc <;> rfl

/-- What the handler commits, by the exit that it takes. -/
theorem run_receiveForWorkflow_inactive {runner : Runner} (hactive : workflow.isActive = false)
    {w : World} (hstored : (w.db.view (.workflow workflowId)).isSome = true) :
    (receiveForWorkflow runner session libs settings wire request workflowId workflow).run w =
      (.ok (.ofError webhookNotFound), ⟨(inserted w.db (.delivery w.db.newUuid)
        (loggedDelivery wire request workflowId workflow.tenantId .rejected
          (some "Workflow is not active."))).commit, w.env⟩) := by
  rw [receiveForWorkflow, hactive, if_neg Bool.false_ne_true,
    Prog.run_bind_ok (run_logWebhookDelivery _ _ _ _ _ _ hstored)]
  rfl

theorem receiveForWorkflow_ok {runner : Runner} (hactive : workflow.isActive = true)
    (hcheck : checkSignature wire request workflow = .ok ()) :
    receiveForWorkflow runner session libs settings wire request workflowId workflow =
      startFromWebhook runner session libs settings wire request workflowId workflow := by
  rw [receiveForWorkflow_active hactive, hcheck]
  rfl

theorem run_receiveForWorkflow_refused {runner : Runner} (hactive : workflow.isActive = true)
    {exc : AppError} (hcheck : checkSignature wire request workflow = .error (.app exc))
    {w : World} (hstored : (w.db.view (.workflow workflowId)).isSome = true) :
    (receiveForWorkflow runner session libs settings wire request workflowId workflow).run w =
      (.ok (.ofError exc), ⟨(inserted w.db (.delivery w.db.newUuid) (loggedDelivery wire request
        workflowId workflow.tenantId .rejected (some exc.message))).commit, w.env⟩) := by
  rw [receiveForWorkflow_active hactive, hcheck, answerCheck,
    Prog.run_bind_ok (run_logWebhookDelivery _ _ _ _ _ _ hstored)]
  rfl

theorem run_receiveForWorkflow_raised {runner : Runner} (hactive : workflow.isActive = true)
    {cls text : String}
    (hcheck : checkSignature wire request workflow = .error (.other cls text)) (w : World) :
    (receiveForWorkflow runner session libs settings wire request workflowId workflow).run w =
      (.error (.exception (.other cls text)), w) := by
  rw [receiveForWorkflow_active hactive, hcheck]
  rfl

/-- A request for a workflow whose row is gone raises, and writes nothing. -/
theorem run_receiveForWorkflow_orphan {runner : Runner} {w : World}
    (hgone : w.db.view (.workflow workflowId) = none) :
    ∃ exc, (receiveForWorkflow runner session libs settings wire request workflowId workflow).run w =
      (.error (.exception exc), w) := by
  cases hactive : workflow.isActive with
  | false =>
    refine ⟨foreignKeyViolation "webhook_deliveries", ?_⟩
    rw [receiveForWorkflow, hactive, if_neg Bool.false_ne_true]
    exact Prog.run_bind_error (run_logWebhookDelivery_orphan _ _ _ _ _ _ hgone)
  | true =>
    cases hcheck : checkSignature wire request workflow with
    | ok _ =>
      refine ⟨foreignKeyViolation "webhook_deliveries", ?_⟩
      rw [receiveForWorkflow_ok hactive hcheck, startFromWebhook]
      exact Prog.run_bind_error (run_logWebhookDelivery_orphan _ _ _ _ _ _ hgone)
    | error exc =>
      cases exc with
      | app exc =>
        refine ⟨foreignKeyViolation "webhook_deliveries", ?_⟩
        rw [receiveForWorkflow_active hactive, hcheck, answerCheck]
        exact Prog.run_bind_error (run_logWebhookDelivery_orphan _ _ _ _ _ _ hgone)
      | other cls text => exact ⟨_, run_receiveForWorkflow_raised hactive hcheck w⟩

/-- What a request that resolves to the workflow has committed in the end. -/
theorem committed_after_webhook (libs : Libraries) (wire : Wire) (session : SessionRef) {w : World}
    (h : resolvedWorkflow settings request w.db.committed = some (workflowId, workflow)) :
    ∃ s : Session Row Memo, s.pending = ∅ ∧
      ((Trigger.webhook request).after libs settings wire performer session w).db.committed =
        ((receiveForWorkflow performer session libs settings wire request workflowId workflow).run
          ⟨⟨w.db.committed, s⟩, w.env⟩).2.db.committed := by
  rcases run_receiveWebhook performer libs wire session h w.env with
    ⟨s, hpending, hrun⟩
  refine ⟨s, hpending, ?_⟩
  show (Prog.run (receiveWebhook performer session libs settings wire request >>= fun _ => pure ())
    w.opened).2.db.committed = _
  rcases hended : Prog.run (receiveWebhook performer session libs settings wire request) w.opened
    with ⟨result, w'⟩
  have hsame := hrun.symm.trans hended
  rw [hsame]
  cases result with
  | ok response => rw [Prog.run_bind_ok hended, Prog.run_pure]
  | error raised => rw [Prog.run_bind_error hended]

/-! ## When every request is accounted for -/

/-- Every run of the request on the committed rows `t`, whatever the executors
do, is accounted for. -/
def RequestsAccounted (libs : Libraries) (settings : Settings) (wire : Wire)
    (request : WebhookRequest) (t : Rows Row) : Prop :=
  ∀ (session : SessionRef) (w : World), w.db.committed = t →
    DeliveryAccounted t
      ((Trigger.webhook request).after libs settings wire performer session w).db.committed

/-- The row of the workflow is there. -/
def Stored (t : Rows Row) (workflowId : Uuid) : Prop :=
  (Rows.row t (.workflow workflowId)).isSome = true

theorem Stored.view {t : Rows Row} (h : Stored t workflowId) {s : Session Row Memo}
    (hpending : s.pending = ∅) :
    (DbState.view (⟨t, s⟩ : Db) (.workflow workflowId)).isSome = true :=
  (congrArg Option.isSome (DbState.view_of_pending_empty hpending _)).trans h

/-- A request for an active workflow is accounted for under the condition. -/
theorem accounted_of_accountable (hactive : workflow.isActive = true)
    (h : Accountable libs settings wire request workflow) {w : World}
    (hpending : w.db.session.pending = ∅)
    (hstored : (w.db.view (.workflow workflowId)).isSome = true) :
    DeliveryAccounted w.db.committed ((receiveForWorkflow performer session libs settings wire
      request workflowId workflow).run w).2.db.committed := by
  rcases (checkSignature_ascii_iff wire request workflow).mp h.ascii with hcheck | ⟨exc, hcheck⟩
  · rw [receiveForWorkflow_ok hactive hcheck]
    rcases hstart : webhookStart libs settings wire session request workflowId workflow w with
      ⟨result, w₂⟩
    cases hparse : parseWorkflowDefinition libs settings
        ⟨workflow.name, workflow.triggerType, workflow.steps⟩ with
    | error exc =>
      have hresult : result = .error (.exception exc) := by
        unfold webhookStart at hstart
        rw [run_startExecution_refused hparse] at hstart
        cases hstart
        rfl
      rcases run_startFromWebhook hstored hstart (by simp [hresult]) with ⟨row, hended⟩
      exact ⟨_, row, accountedBy_refused hparse hpending hstart hended⟩
    | ok parsed =>
      rcases webhookStart_added hparse hpending hstart with
        ⟨p, log, invs, b, walked, -, -, hsteps, hresult, hrun, -⟩
      have hset : BranchesSettable p.steps := hsteps ▸ h.settable hcheck parsed hparse
      rw [hrun.returns hset] at hresult
      subst hresult
      rcases run_startFromWebhook hstored hstart (by simp [Except.map]) with ⟨row, hended⟩
      exact ⟨_, row, accountedBy_started hparse hpending hstart hended⟩
  · rw [run_receiveForWorkflow_refused hactive hcheck hstored]
    exact ⟨_, _, accountedBy_rejected w.db hpending rfl⟩

/-- Where the signature is right, the branches on every route are settable if
every run is accounted for. -/
theorem RequestsAccounted.settable {t : Rows Row}
    (haccounted : RequestsAccounted libs settings wire request t)
    (hresolves : resolvedWorkflow settings request t = some (workflowId, workflow))
    (hstored : Stored t workflowId) (hactive : workflow.isActive = true)
    (hcheck : checkSignature wire request workflow = .ok ())
    {parsed : WorkflowDefinition} (hparse : parseWorkflowDefinition libs settings
      ⟨workflow.name, workflow.triggerType, workflow.steps⟩ = .ok parsed) :
    BranchesSettable parsed.steps := by
  intro choice step hstep hcondition hexecutes
  let w : World := ⟨⟨t, Session.fresh⟩, plainEnvironment (steer choice)⟩
  have h := haccounted 0 w rfl
  rcases committed_after_webhook libs wire 0 (w := w) hresolves with ⟨s, hpending, hcommitted⟩
  rw [hcommitted, receiveForWorkflow_ok hactive hcheck] at h
  let w₁ : World := ⟨⟨t, s⟩, plainEnvironment (steer choice)⟩
  rcases hstart : webhookStart libs settings wire 0 request workflowId workflow w₁ with
    ⟨result, w₂⟩
  rcases webhookStart_added hparse (w := w₁) hpending hstart with
    ⟨p, log, invs, b, walked, hrunner, hbehaviour, hsteps, hresult, hrun, -⟩
  rw [← hsteps] at hstep hexecutes
  cases walked with
  | ok value => exact hrun.settable_of_steered hrunner hbehaviour hstep hcondition hexecutes
  | error raised =>
    subst hresult
    have hfuel : raised ≠ .outOfFuel := by
      intro heq
      subst heq
      cases hrun.ends
    have hstored₁ : (w₁.db.view (.workflow workflowId)).isSome = true := hstored.view (s := s) hpending
    rcases run_startFromWebhook hstored₁ hstart (by simpa [Except.map] using hfuel) with ⟨row, hended⟩
    exact absurd h (not_accounted_stuck hparse (w := w₁) hpending hstart hended)

/-- Every run is accounted for only where the row of the workflow is there. -/
theorem RequestsAccounted.stored {t : Rows Row}
    (haccounted : RequestsAccounted libs settings wire request t)
    (hresolves : resolvedWorkflow settings request t = some (workflowId, workflow)) :
    Stored t workflowId := by
  let w : World := ⟨⟨t, Session.fresh⟩, plainEnvironment (fun _ _ => .ok [])⟩
  rcases committed_after_webhook libs wire 0 (w := w) hresolves with ⟨s, hpending, hcommitted⟩
  cases hrow : Rows.row t (.workflow workflowId) with
  | some row => simp [Stored, hrow]
  | none =>
    have hgone : DbState.view (⟨t, s⟩ : Db) (.workflow workflowId) = none :=
      (DbState.view_of_pending_empty hpending _).trans hrow
    rcases run_receiveForWorkflow_orphan (w := ⟨⟨t, s⟩, w.env⟩) hgone with ⟨exc, hraised⟩
    have h := haccounted 0 w rfl
    rw [hcommitted, hraised] at h
    exact absurd h (not_deliveryAccounted_of_eq fun id => rfl)

/-- Every request that resolves to the workflow is accounted for, if and only if the row of
the workflow is there, and it is not active or the condition holds. -/
theorem requestsAccounted_iff {t : Rows Row}
    (hresolves : resolvedWorkflow settings request t = some (workflowId, workflow)) :
    RequestsAccounted libs settings wire request t ↔
      Stored t workflowId ∧
        (workflow.isActive = true → Accountable libs settings wire request workflow) := by
  constructor
  · intro haccounted
    have hstored := haccounted.stored hresolves
    refine ⟨hstored, fun hactive => ?_⟩
    constructor
    · rw [checkSignature_ascii_iff wire]
      let w : World := ⟨⟨t, Session.fresh⟩, plainEnvironment (fun _ _ => .ok [])⟩
      rcases committed_after_webhook libs wire 0 (w := w) hresolves with ⟨s, -, hcommitted⟩
      cases hcheck : checkSignature wire request workflow with
      | ok value => exact .inl rfl
      | error raised =>
        cases raised with
        | app exc => exact .inr ⟨exc, rfl⟩
        | other cls text =>
          rw [run_receiveForWorkflow_raised hactive hcheck] at hcommitted
          have h := haccounted 0 w rfl
          rw [hcommitted] at h
          exact absurd h (not_deliveryAccounted_of_eq fun id => rfl)
    · intro hcheck parsed hparse
      exact haccounted.settable hresolves hstored hactive hcheck hparse
  · rintro ⟨hstored, hcondition⟩ session w ht
    subst ht
    rcases committed_after_webhook libs wire session hresolves with ⟨s, hpending, hcommitted⟩
    have hview : (DbState.view (⟨w.db.committed, s⟩ : Db) (.workflow workflowId)).isSome = true :=
      hstored.view hpending
    rw [hcommitted]
    cases hactive : workflow.isActive with
    | false =>
      rw [run_receiveForWorkflow_inactive (w := ⟨⟨w.db.committed, s⟩, w.env⟩) hactive hview]
      exact ⟨_, _, accountedBy_rejected ⟨w.db.committed, s⟩ hpending rfl⟩
    | true =>
      exact accounted_of_accountable (w := ⟨⟨w.db.committed, s⟩, w.env⟩) hactive
        (hcondition hactive) hpending hview

end

/-- The workflow whose `false_branch` is `null`, with a webhook path. -/
def nullBranchHook : Workflow := { nullBranchWorkflow with webhookPath := some "hook" }

/-- A request for that path. -/
def hookRequest : WebhookRequest := ⟨"hook", "POST", [], [], none, none⟩

/-- The request resolves to the one workflow of this database. -/
theorem resolvedWorkflow_nullBranchHook :
    resolvedWorkflow {} hookRequest (Rows.ofList [⟨.workflow 1, nullBranchHook⟩]) =
      some (1, nullBranchHook) := rfl

/-- The equivalence on that request. -/
theorem requestsAccounted_iff_nullBranch :
    RequestsAccounted plainLibraries {} plainWire hookRequest
        (Rows.ofList [⟨.workflow 1, nullBranchHook⟩]) ↔
      Stored (Rows.ofList [⟨.workflow 1, nullBranchHook⟩]) 1 ∧
        (nullBranchHook.isActive = true →
          Accountable plainLibraries {} plainWire hookRequest nullBranchHook) :=
  requestsAccounted_iff resolvedWorkflow_nullBranchHook

/-- When the condition of the workflow is true, `set(None)` raises after the
execution and its step were written, and the handler commits them beside a
delivery that says `error`. -/
theorem not_requestsAccounted_nullBranch :
    resolvedWorkflow {} hookRequest (Rows.ofList [⟨.workflow 1, nullBranchHook⟩]) =
      some (1, nullBranchHook) ∧
    ¬ RequestsAccounted plainLibraries {} plainWire hookRequest
      (Rows.ofList [⟨.workflow 1, nullBranchHook⟩]) := by
  refine ⟨resolvedWorkflow_nullBranchHook, fun haccounted => ?_⟩
  have hcheck : checkSignature plainWire hookRequest nullBranchHook = .ok () := rfl
  have hparse : parseWorkflowDefinition plainLibraries {} ⟨nullBranchHook.name,
      nullBranchHook.triggerType, nullBranchHook.steps⟩ =
      .ok ⟨"workflow", "manual", nullBranchSteps, [("check", [])]⟩ := rfl
  have hset := haccounted.settable resolvedWorkflow_nullBranchHook
    (haccounted.stored resolvedWorkflow_nullBranchHook) rfl hcheck hparse
  have hexecutes : Executes nullBranchSteps (fun _ => true) "check" := by decide +kernel
  rcases hset (fun _ => true) _ List.mem_cons_self rfl hexecutes with ⟨members, hmembers⟩
  cases hmembers

end WorkflowEngine

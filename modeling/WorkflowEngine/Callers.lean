import WorkflowEngine.Tenancy

/-!
# The callers of `start_execution`

`start_execution` takes a workflow and a tenant as separate arguments.  Each
trigger path hands it a pair that belongs together: the row was selected under
the tenant, or the tenant was read from the row, or the pair is one that is
remembered outside the database.  So do the step task and the other operations
on an execution.
-/

namespace WorkflowEngine

open Py Orm Interact

variable {known : Uuid → Uuid → Prop} {α : Type}

/-! ## Statements of the callers -/

theorem Tidy.respects (known : Uuid → Uuid → Prop) : Respects (fun _ => True) (Tidy known) :=
  fun req db hreq h => (Kept.respects known db req db hreq (Kept.refl h)).tidy

theorem Tidy.maintains_commit : Maintains (Tidy known) commit :=
  fun _ h => (Kept.refl h).commit.tidy

/-- Loading rows keeps this. -/
theorem Kept.loadAll {base db : Db} (h : Kept known base db) (ks : List RowId) :
    Kept known base (db.loadAll ks) := by
  induction ks generalizing db with
  | nil => exact h
  | cons k ks ih =>
    unfold DbState.loadAll
    split
    · rename_i row hnone hview
      apply ih
      refine h.load _ fun row' hrow' => ?_
      rw [hview] at hrow'
      cases hrow'
      exact SameRefs.refl row
    · exact ih h

theorem Tidy.maintains_selectWhere (p : (k : RowId) → Row k → Bool) :
    Maintains (Tidy known) (selectWhere p) := fun _ h => ((Kept.refl h).loadAll _).tidy

/-- Columns of a loaded object are assigned, so that the row still refers to rows
of its tenant. -/
theorem Tidy.assign {db : Db} (h : Tidy known db) {k : RowId} {f : Row k → Row k}
    (htenant : ∀ row, Row.tenantId k (f row) = Row.tenantId k row)
    (hsame : ∀ row row', SameRefs row row' → SameRefs (f row) (f row'))
    (hparents : ∀ row, db.view k = some row → ∀ p ∈ Row.parents k (f row),
      Owned db p (Row.tenantId k row)) :
    Tidy known (DbState.answer (.touch k (fun attrs memo => ((f attrs, memo), some f))) db).2 := by
  cases hloaded : db.loaded k with
  | none =>
    simp only [DbState.answer, hloaded]
    exact h
  | some obj =>
    rcases obj with ⟨attrs, memo⟩
    cases hview : db.view k with
    | none =>
      simp only [DbState.answer, hloaded, hview]
      refine ((Kept.refl h).load memo fun row hrow => ?_).tidy
      rw [hview] at hrow
      cases hrow
    | some row =>
      simp only [DbState.answer, hloaded, hview]
      let db' : Db := (db.load k (f attrs) memo).write k (some (f row))
      have hself : db'.view k = some (f row) := DbState.view_write_self _ _ _
      have hother : ∀ {k'}, k' ≠ k → db'.view k' = db.view k' := DbState.view_write_ne _ _
      have hstays : ∀ {p tenantId}, Owned db p tenantId → Owned db' p tenantId := by
        rintro p tenantId ⟨old, hold, rfl⟩
        by_cases heq : p = k
        · subst heq
          have hrow : row = old := Option.some.inj (hview.symm.trans hold)
          subst hrow
          exact ⟨f row, hself, htenant row⟩
        · exact ⟨old, (hother heq).trans hold, rfl⟩
      show Tidy known db'
      refine ⟨fun k' new hnew p hp => hstays ?_, h.committed, fun k' attrs' memo' new hobject hnew => ?_,
        fun id tenantId hknown => ?_⟩
      · by_cases heq : k' = k
        · subst heq
          rw [hself] at hnew
          cases hnew
          rw [htenant]
          exact hparents row hview p hp
        · exact h.view k' new ((hother heq).symm.trans hnew) p hp
      · by_cases heq : k' = k
        · subst heq
          rw [hself] at hnew
          cases hnew
          have hassigned : db'.loaded k' = some (f attrs, memo) := DbState.loaded_load_self _ _ _ _
          rw [hassigned] at hobject
          cases hobject
          exact hsame attrs row (h.loaded k' attrs _ row hloaded hview)
        · refine h.loaded k' attrs' memo' new ?_ ((hother heq).symm.trans hnew)
          exact (DbState.loaded_load_ne _ _ _ heq).symm.trans hobject
      · have hremembers := h.known id tenantId hknown
        refine ⟨hremembers.committed, fun new hnew => ?_, hremembers.row⟩
        by_cases heq : (.workflow id : RowId) = k
        · subst heq
          rw [hself] at hnew
          cases hnew
          exact (htenant row).trans (hremembers.view row hview)
        · exact hremembers.view new ((hother heq).symm.trans hnew)

/-- A session that has loaded nothing gets the workflow of the tenant. -/
theorem run_getTenantWorkflow {db : Db} {workflowId tenantId : Uuid} {workflow : Workflow}
    (hview : db.view (.workflow workflowId) = some workflow)
    (hloaded : db.loaded (.workflow workflowId) = none) (htenant : workflow.tenantId = tenantId)
    (env : Environment) :
    (getTenantWorkflow workflowId tenantId).run ⟨db, env⟩ =
      (.ok workflow, ⟨db.load (.workflow workflowId) workflow default, env⟩) := by
  have hselect : (selectWorkflow workflowId (fun workflow => workflow.tenantId = tenantId)).run
      ⟨db, env⟩ = (.ok (some workflow), ⟨db.load (.workflow workflowId) workflow default, env⟩) := by
    rw [selectWorkflow, run_db, DbState.answer_select_new hview (decide_eq_true htenant) hloaded]
  unfold getTenantWorkflow
  rw [Prog.run_bind_ok hselect]
  rfl

/-- A workflow that is not there, or is not of the tenant, is not found. -/
theorem run_getTenantWorkflow_missing {db : Db} {workflowId tenantId : Uuid}
    (hnone : ∀ workflow : Workflow, db.view (.workflow workflowId) = some workflow →
      workflow.tenantId ≠ tenantId) (env : Environment) :
    (getTenantWorkflow workflowId tenantId).run ⟨db, env⟩ =
      (.error (.app workflowNotFound), ⟨db, env⟩) := by
  have hselect : (selectWorkflow workflowId (fun workflow => workflow.tenantId = tenantId)).run
      ⟨db, env⟩ = (.ok none, ⟨db, env⟩) := by
    rw [selectWorkflow, run_db, DbState.answer_select_none]
    exact fun workflow hview => decide_eq_false (hnone workflow hview)
  unfold getTenantWorkflow
  rw [Prog.run_bind_ok hselect]
  rfl

/-- What follows `get_tenant_workflow` may use that the workflow is of the
tenant. -/
theorem Tidy.getTenantWorkflow_bind {base : Db} {w : World} (h : Kept known base w.db)
    {workflowId tenantId : Uuid} {f : Workflow → Prog α}
    (hf : ∀ (w' : World) workflow, Kept known base w'.db →
      Owned w'.db (.workflow workflowId) tenantId → Tidy known ((f workflow).run w').2.db) :
    Tidy known (Prog.run (getTenantWorkflow workflowId tenantId >>= f) w).2.db := by
  unfold getTenantWorkflow
  rw [Script.bind_assoc]
  refine h.select_bind (P := Tidy known) (fun _ h' => h'.tidy)
    fun w' workflow row h' hview hp _ => ?_
  exact hf w' workflow h' ⟨row, hview, of_decide_eq_true hp⟩

section

variable {libs : Libraries} {settings : Settings} {session : SessionRef} {runner : Runner}

/-- A start and what follows it. -/
theorem Tidy.startExecution_bind (hrunner : RunnerKeeps known runner) {parent : Option Caller}
    {workflowId : Uuid} {workflow : Workflow} {triggerData : Dict String Json} {tenantId : Uuid}
    {replayedFrom : Option Uuid} {depth : Int} {base : Db} {w : World} (h : Kept known base w.db)
    (hworkflow : Owned w.db (.workflow workflowId) tenantId)
    (hreplayed : ∀ id, replayedFrom = some id → Owned w.db (.execution id) tenantId)
    {f : Uuid × Execution → Prog α}
    (hf : ∀ started (w' : World), Kept known base w'.db →
      Owned w'.db (.execution started.1) tenantId → Tidy known ((f started).run w').2.db) :
    Tidy known (Prog.run (startExecution runner session libs settings parent workflowId workflow
      triggerData tenantId replayedFrom depth >>= f) w).2.db := by
  have hstarted : Kept known base ((startExecution runner session libs settings parent workflowId
      workflow triggerData tenantId replayedFrom depth).run w).2.db :=
    startExecution_kept hrunner h hworkflow hreplayed
  refine Script.maintains_bind_at (I := fun w : World => Tidy known w.db) hstarted.tidy ?_
  intro started w' hrun _
  have hrun' : (startExecution runner session libs settings parent workflowId workflow triggerData
      tenantId replayedFrom depth).run w = (.ok started, w') := hrun
  rw [hrun'] at hstarted
  exact hf started w' hstarted (startExecution_owned hrunner h.tidy hworkflow hreplayed hrun')

/-! ## Manual, scheduled and replayed executions -/

theorem tidy_manualExecute (hrunner : RunnerKeeps known runner) (workflowId tenantId : Uuid)
    (data : Dict String Json) :
    Maintains (Tidy known)
      (manualExecute runner session libs settings workflowId tenantId data) := by
  intro w h
  unfold manualExecute
  apply Tidy.getTenantWorkflow_bind (Kept.refl h)
  intro w' workflow h' howned
  apply liftExcept_bind h'.tidy
  intro _ _
  apply Tidy.startExecution_bind hrunner h' howned
  · exact nofun
  · intro started w'' h'' _
    exact h''.commit.tidy

theorem tidy_replayExecutionEndpoint (hrunner : RunnerKeeps known runner)
    (executionId tenantId : Uuid) (overrideData : Dict String Json) :
    Maintains (Tidy known) (replayExecutionEndpoint runner session libs settings executionId
      tenantId overrideData) := by
  unfold replayExecutionEndpoint
  split
  · intro w h
    unfold replayExecution
    rw [Script.bind_assoc]
    refine (Kept.refl h).select_bind (P := Tidy known) (fun _ h' => h'.tidy)
      fun w' original row h' hview hp hsame => ?_
    have hreplayed : Owned w'.db (.execution executionId) tenantId :=
      ⟨row, hview, of_decide_eq_true hp⟩
    simp only [Script.bind_assoc]
    apply Tidy.getTenantWorkflow_bind (Kept.refl h'.tidy)
    intro w₁ workflow h₁ howned
    apply liftExcept_bind h₁.tidy
    intro _ _
    apply liftExcept_bind h₁.tidy
    intro triggerData _
    apply Tidy.startExecution_bind hrunner h₁ howned
    · intro id hid
      cases hid
      exact h₁.extended.owned hreplayed
    · intro started w₂ h₂ _
      exact h₂.commit.tidy
  · exact maintains_done _

/-- The job of a workflow hands on the tenant that it remembers. -/
theorem tidy_executeCronWorkflow (hrunner : RunnerKeeps known runner) {workflowId tenantId : String}
    (hknown : ∀ id tenant, uuidOf (.str workflowId) = .ok id → uuidOf (.str tenantId) = .ok tenant →
      known id tenant) :
    Maintains (Tidy known)
      (executeCronWorkflow runner session libs settings workflowId tenantId) := by
  unfold executeCronWorkflow
  apply maintains_bind (maintains_env _)
  intro now
  apply maintains_bind
  · apply maintains_attempt
    intro w h
    unfold runCronWorkflow
    apply liftExcept_bind h
    intro id hid
    refine (Kept.refl h).select_bind (P := Tidy known) (fun _ h' => h'.tidy)
      fun w' workflow row h' hview _ _ => ?_
    dsimp only
    split
    · apply liftExcept_bind h'.tidy
      intro tenant htenant
      have howned : Owned w'.db (.workflow id) tenant :=
        ⟨row, hview, (h'.tidy.known id tenant (hknown id tenant hid htenant)).view row hview⟩
      apply Tidy.startExecution_bind hrunner h' howned
      · exact nofun
      · intro started w'' h'' _
        exact h''.commit.tidy
    · exact h'.tidy
  · intro ended
    cases ended with
    | ok _ => exact maintains_done _
    | error raised =>
      cases raised with
      | outOfFuel => exact maintains_done _
      | exception exc => exact maintains_done _

/-! ## Webhooks -/

variable {wire : Wire}

/-- The row of a delivery. -/
def loggedDelivery (wire : Wire) (request : WebhookRequest) (workflowId tenantId : Uuid)
    (status : DeliveryStatus) (rejectionReason : Option String) : WebhookDelivery where
  tenantId := tenantId
  workflowId := workflowId
  executionId := none
  method := request.method
  headers := request.requestHeaders
  payload := request.payload wire
  sourceIp := request.sourceIp
  status := status
  rejectionReason := rejectionReason

/-- A delivery is logged where its workflow is there. -/
theorem run_logWebhookDelivery (wire : Wire) (request : WebhookRequest)
    (workflowId tenantId : Uuid) (status : DeliveryStatus) (rejectionReason : Option String)
    {w : World} (hstored : (w.db.view (.workflow workflowId)).isSome = true) :
    (logWebhookDelivery wire request workflowId tenantId status rejectionReason).run w =
      (.ok w.db.newUuid, ⟨inserted w.db (.delivery w.db.newUuid)
        (loggedDelivery wire request workflowId tenantId status rejectionReason), w.env⟩) := by
  rw [logWebhookDelivery, Prog.run_bind_ok (run_newUuid _), Prog.run_bind_ok (run_rowExists _ _),
    hstored]
  rfl

/-- Otherwise the insert is refused. -/
theorem run_logWebhookDelivery_orphan (wire : Wire) (request : WebhookRequest)
    (workflowId tenantId : Uuid) (status : DeliveryStatus) (rejectionReason : Option String)
    {w : World} (hgone : w.db.view (.workflow workflowId) = none) :
    (logWebhookDelivery wire request workflowId tenantId status rejectionReason).run w =
      (.error (.exception (foreignKeyViolation "webhook_deliveries")), w) := by
  rw [logWebhookDelivery, Prog.run_bind_ok (run_newUuid _), Prog.run_bind_ok (run_rowExists _ _),
    hgone]
  rfl

/-- A delivery is logged for a workflow of the tenant, or the insert is refused. -/
theorem Tidy.logWebhookDelivery_bind {base : Db} {w : World} (h : Kept known base w.db)
    {request : WebhookRequest} {workflowId tenantId : Uuid}
    (hright : ∀ row : Workflow, w.db.view (.workflow workflowId) = some row →
      row.tenantId = tenantId) {status : DeliveryStatus} {rejectionReason : Option String}
    {f : Uuid → Prog α}
    (hf : ∀ delivery (w' : World), Kept known base w'.db →
      Owned w'.db (.workflow workflowId) tenantId → Owned w'.db (.delivery delivery) tenantId →
      Tidy known ((f delivery).run w').2.db) :
    Tidy known (Prog.run (logWebhookDelivery wire request workflowId tenantId status
      rejectionReason >>= f) w).2.db := by
  cases hview : w.db.view (.workflow workflowId) with
  | none =>
    rw [Prog.run_bind_error (run_logWebhookDelivery_orphan _ _ _ _ _ _ hview)]
    exact h.tidy
  | some workflow =>
    have howned : Owned w.db (.workflow workflowId) tenantId :=
      ⟨workflow, hview, hright workflow hview⟩
    let row := loggedDelivery wire request workflowId tenantId status rejectionReason
    have hlogged : Kept known w.db (inserted w.db (.delivery w.db.newUuid) row) := by
      refine (Kept.refl h.tidy).inserted rfl fun p hp => ?_
      cases List.mem_singleton.mp hp
      exact howned
    rw [Prog.run_bind_ok (run_logWebhookDelivery _ _ _ _ _ _ (by rw [hview]; rfl))]
    exact hf w.db.newUuid ⟨_, w.env⟩ (h.trans hlogged) (hlogged.extended.owned howned)
      ⟨row, DbState.view_write_self _ _ _, rfl⟩

/-- A delivery that is logged and committed. -/
theorem tidy_rejected {w : World} (h : Tidy known w.db) {request : WebhookRequest}
    {workflowId tenantId : Uuid} (hright : ∀ row : Workflow,
      w.db.view (.workflow workflowId) = some row → row.tenantId = tenantId)
    {status : DeliveryStatus} {rejectionReason : Option String} {response : Response} :
    Tidy known (Prog.run (do
      let _ ← logWebhookDelivery wire request workflowId tenantId status rejectionReason
      commit
      return response) w).2.db := by
  apply Tidy.logWebhookDelivery_bind (Kept.refl h) hright
  intro delivery w' h' _ _
  exact h'.commit.tidy

/-- The delivery refers to the execution that was started for it. -/
theorem tidy_attach {w : World} (h : Tidy known w.db) {delivery id tenantId : Uuid}
    (hdelivery : Owned w.db (.delivery delivery) tenantId)
    (hexecution : Owned w.db (.execution id) tenantId) :
    Tidy known ((assignDelivery delivery (fun row =>
      { row with status := .accepted, executionId := some id })).run w).2.db := by
  refine Tidy.assign (k := .delivery delivery) h (fun _ => rfl) (fun row row' hsame => ?_)
    fun row hrow p hp => ?_
  · simp only [SameRefs, Row.references, List.cons.injEq] at hsame ⊢
    exact ⟨hsame.1, hsame.2.1, trivial⟩
  · rcases hdelivery with ⟨row₁, hrow₁, htenant⟩
    have heq : row₁ = row := Option.some.inj (hrow₁.symm.trans hrow)
    subst heq
    rcases List.mem_cons.mp hp with rfl | hmem
    · exact h.view (.delivery delivery) row₁ hrow _ List.mem_cons_self
    · cases List.mem_singleton.mp hmem
      exact htenant ▸ hexecution

theorem tidy_startFromWebhook (hrunner : RunnerKeeps known runner) {request : WebhookRequest}
    {workflowId : Uuid} {workflow : Workflow} {w : World} (h : Tidy known w.db)
    (hright : ∀ row : Workflow, w.db.view (.workflow workflowId) = some row →
      row.tenantId = workflow.tenantId) :
    Tidy known ((startFromWebhook runner session libs settings wire request workflowId
      workflow).run w).2.db := by
  unfold startFromWebhook
  apply Tidy.logWebhookDelivery_bind (Kept.refl h) hright
  intro delivery w₁ h₁ howned₁ hdelivery
  refine Script.maintains_bind_at (I := fun w : World => Tidy known w.db) ?_ ?_
  · show Tidy known (Prog.run (Script.attempt _) w₁).2.db
    rw [Prog.run_attempt]
    apply Tidy.startExecution_bind hrunner (Kept.refl h₁.tidy) howned₁
    · exact nofun
    · intro started w₂ h₂ hexecution
      have hattached := tidy_attach h₂.tidy (h₂.extended.owned hdelivery) hexecution
      refine Script.maintains_bind_at (I := fun w : World => Tidy known w.db) hattached ?_
      exact fun _ w₃ _ h₃ => (Kept.refl h₃).commit.tidy
  · intro ended w₂ _ h₂
    have hassign : ∀ exc : PyError, Maintains (Tidy known) (assignDelivery delivery (fun row =>
        { row with status := .error, rejectionReason := some exc.str })) := fun exc =>
      maintains_gentle (Tidy.respects known) (gentle_assign trivial fun _ => rfl)
    cases ended with
    | ok id => exact h₂
    | error raised =>
      cases raised with
      | outOfFuel => exact h₂
      | exception exc =>
        apply maintains_bind (hassign exc) _ w₂ h₂
        exact fun _ => maintains_bind Tidy.maintains_commit fun _ => maintains_done _

theorem tidy_receiveForWorkflow (hrunner : RunnerKeeps known runner) {request : WebhookRequest}
    {workflowId : Uuid} {workflow : Workflow} {w : World} (h : Tidy known w.db)
    (hright : ∀ row : Workflow, w.db.view (.workflow workflowId) = some row →
      row.tenantId = workflow.tenantId) :
    Tidy known ((receiveForWorkflow runner session libs settings wire request workflowId
      workflow).run w).2.db := by
  unfold receiveForWorkflow
  split
  · split
    · exact tidy_startFromWebhook hrunner h hright
    · split
      · exact tidy_startFromWebhook hrunner h hright
      · exact tidy_rejected h hright
      · exact h
  · exact tidy_rejected h hright

theorem run_selectWhere_bind (p : (k : RowId) → Row k → Bool) (f : List RowId → Prog α)
    (w : World) : Prog.run (selectWhere p >>= f) w =
      (f (w.db.matching p)).run ⟨w.db.loadAll (w.db.matching p), w.env⟩ := rfl

theorem tidy_lookupWorkflowByPath (path : String) :
    Maintains (Tidy known) (lookupWorkflowByPath path) := by
  unfold lookupWorkflowByPath
  apply maintains_bind (Tidy.maintains_selectWhere _)
  intro found
  split
  · exact maintains_done _
  · apply maintains_bind
    · apply maintains_gentle (Tidy.respects known)
      exact ⟨trivial, fun attrs memo => ⟨rfl, nofun⟩⟩
    · exact fun _ => maintains_bind (maintains_mapped _) fun _ => maintains_done _
  · exact maintains_done _

/-- The workflow that is looked up by its path is there, with the tenant of its
object. -/
theorem lookupWorkflowByPath_owned {path : String} {w w' : World} {found : Uuid × Workflow}
    (h : Tidy known w.db) (hrun : (lookupWorkflowByPath path).run w = (.ok found, w')) :
    Owned w'.db (.workflow found.1) found.2.tenantId := by
  unfold lookupWorkflowByPath at hrun
  rw [run_selectWhere_bind] at hrun
  split at hrun
  · cases hrun
  · rename_i id hmatching
    let db' : Db := w.db.loadAll [.workflow id]
    have hmem : (.workflow id : RowId) ∈ w.db.matching _ := hmatching ▸ List.mem_cons_self
    rcases DbState.mem_matching.mp hmem with ⟨row, hrow, -⟩
    have hview : db'.view (.workflow id) = some row := (DbState.view_loadAll _ _ _).trans hrow
    have hstate : w.db.loadAll (w.db.matching _) = db' := congrArg w.db.loadAll hmatching
    rw [hstate] at hrun
    cases hloaded : db'.loaded (.workflow id) with
    | none =>
      have htouch : Prog.run (Script.send (S := engineSignature) (.db (.touch (.workflow id)
          (fun attrs memo => ((attrs, memo), none))))) ⟨db', w.env⟩ =
            (.ok none, ⟨db', w.env⟩) := by
        rw [run_db]
        simp only [DbState.answer, hloaded]
      rw [Prog.run_bind_ok htouch] at hrun
      cases hrun
    | some obj =>
      have htouch : Prog.run (Script.send (S := engineSignature) (.db (.touch (.workflow id)
          (fun attrs memo => ((attrs, memo), none))))) ⟨db', w.env⟩ =
            (.ok (some obj.1), ⟨db'.load _ obj.1 obj.2, w.env⟩) := by
        rw [run_db, DbState.answer_touch_silent hloaded rfl]
      rw [Prog.run_bind_ok htouch] at hrun
      cases hrun
      have hsame := ((Kept.refl h).loadAll [.workflow id]).tidy.loaded (.workflow id) obj.1 obj.2
        row hloaded hview
      exact ⟨row, hview, hsame.tenantId.symm⟩
  · cases hrun

theorem tidy_receiveWebhook (hrunner : RunnerKeeps known runner) {request : WebhookRequest}
    {w : World} (h : Tidy known w.db)
    (hcached : ∀ found, request.cached = some found → ∀ row : Workflow,
      w.db.view (.workflow found.1) = some row → row.tenantId = found.2.tenantId) :
    Tidy known ((receiveWebhook runner session libs settings wire request).run w).2.db := by
  unfold receiveWebhook
  apply liftExcept_bind h
  intro tooLong _
  split
  · exact h
  · split
    · exact h
    · cases hfound : request.cached with
      | some found => exact tidy_receiveForWorkflow hrunner h (hcached found hfound)
      | none =>
        rcases hlookup : (lookupWorkflowByPath request.path).run w with ⟨result, w'⟩
        show Tidy known (Prog.run (Script.attempt _ >>= _) w).2.db
        rw [Prog.run_attempt_bind hlookup]
        have h' : Tidy known w'.db := by
          have hkept := tidy_lookupWorkflowByPath request.path w h
          rw [show Script.run World.answer _ w = (result, w') from hlookup] at hkept
          exact hkept
        cases result with
        | ok found =>
          refine tidy_receiveForWorkflow hrunner h' fun row hrow => ?_
          obtain ⟨row', hrow', htenant⟩ := lookupWorkflowByPath_owned h hlookup
          cases hrow.symm.trans hrow'
          exact htenant
        | error raised =>
          cases raised with
          | outOfFuel => exact h'
          | exception exc =>
            cases exc with
            | app exc => exact h'
            | other cls text => exact h'

end

/-! ## Operations on an execution -/

theorem tidy_cancelExecution (executionId tenantId : Uuid) :
    Maintains (Tidy known) (cancelExecution executionId tenantId) := by
  unfold cancelExecution
  apply maintains_bind (maintains_selectExecution (Tidy.respects known) trivial _)
  intro found
  cases found with
  | none => exact maintains_done _
  | some execution =>
    apply maintains_bind (Tidy.maintains_selectWhere _)
    intro steps
    apply maintains_bind (maintains_transitionExecutionWith (Tidy.respects known) _ trivial _)
    intro _
    apply maintains_bind (maintains_skipSteps (Tidy.respects known) (fun _ => trivial) steps)
    exact fun _ => Tidy.maintains_commit

section

variable {libs : Libraries} {settings : Settings} {start : Start}

/-- The executors of the registry keep tenants apart. -/
theorem tidy_stepRegistry (hstart : StartKeeps known start) (caller : Caller) (type : StepType)
    (config : Dict String Json) (vars : Vars) :
    Maintains (Tidy known) (stepRegistry libs settings start caller type config vars) := by
  cases type with
  | http =>
    show Maintains (Tidy known) (HttpExecutor.execute libs config vars)
    unfold HttpExecutor.execute
    apply maintains_bind (maintains_liftExcept _)
    intro request
    exact maintains_bind (maintains_env _) fun response => maintains_liftExcept _
  | transform => exact maintains_liftExcept _
  | condition => exact maintains_liftExcept _
  | delay =>
    show Maintains (Tidy known) (DelayExecutor.execute config)
    unfold DelayExecutor.execute
    split
    · exact maintains_liftExcept _
    · split
      · exact maintains_liftExcept _
      · apply maintains_ite (maintains_liftExcept _)
        apply maintains_ite (maintains_liftExcept _)
        exact maintains_bind (maintains_env _) fun _ => maintains_done _
  | subWorkflow =>
    exact fun w h => (maintains_subWorkflow hstart w.db caller config vars w (Kept.refl h)).tidy

theorem tidy_finishStep (hstart : StartKeeps known start) (stepExecId executionId : Uuid)
    (type : StepType) (stepExec : StepExecution) (execution : Execution) :
    Maintains (Tidy known)
      (finishStep libs settings start stepExecId executionId type stepExec execution) := by
  unfold finishStep finishStepWith
  apply maintains_bind (tidy_stepRegistry hstart _ type _ _)
  intro output
  apply maintains_bind (maintains_transitionStep (Tidy.respects known) trivial _ _)
  intro _
  apply maintains_bind
  · exact maintains_assignStep (Tidy.respects known) trivial fun _ => rfl
  · intro _
    apply maintains_bind (maintains_mergeStepOutput (Tidy.respects known) trivial _ _)
    exact fun _ => maintains_bind Tidy.maintains_commit fun _ => maintains_done _

theorem tidy_endStepTask (stepExecId : Uuid) (attempt : Nat)
    (ended : Except Raised (Dict String Json)) :
    Maintains (Tidy known) (endStepTask stepExecId attempt ended) := by
  cases ended with
  | ok output => exact maintains_done _
  | error raised =>
    cases raised with
    | outOfFuel => exact maintains_done _
    | exception exc =>
      show Maintains (Tidy known) (failStepTask stepExecId attempt exc)
      unfold failStepTask
      apply maintains_bind
      · exact maintains_assignStep (Tidy.respects known) trivial fun _ => rfl
      · intro _
        apply maintains_bind (maintains_transitionStep (Tidy.respects known) trivial _ _)
        exact fun _ => maintains_bind Tidy.maintains_commit fun _ => maintains_done _

theorem tidy_executeStep (hstart : StartKeeps known start) (stepExecutionId executionId : String) :
    Maintains (Tidy known) (executeStep libs settings start stepExecutionId executionId) := by
  unfold executeStep executeStepWith
  apply maintains_bind (maintains_liftExcept _)
  intro seUuid
  apply maintains_bind (maintains_liftExcept _)
  intro exUuid
  apply maintains_bind (maintains_selectStep (Tidy.respects known) trivial)
  intro found
  cases found with
  | none => exact maintains_done _
  | some stepExec =>
    apply maintains_bind (maintains_selectExecution (Tidy.respects known) trivial _)
    intro found'
    cases found' with
    | none => exact maintains_done _
    | some execution =>
      apply maintains_bind (maintains_transitionStep (Tidy.respects known) trivial _ _)
      intro _
      split
      · exact maintains_done _
      · apply maintains_bind (maintains_attempt (tidy_finishStep hstart _ _ _ _ _))
        exact fun ended => tidy_endStepTask _ _ ended

end

end WorkflowEngine

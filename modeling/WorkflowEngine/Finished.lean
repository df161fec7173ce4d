import WorkflowEngine.Records
import WorkflowEngine.StepTask

/-!
# The steps of finished executions

An execution is ended by a walk, by `cancel_execution` or by
`cleanup_stale_executions`, and each of them treats the steps that are left in its own
way: a walk leaves them pending when it fails, the cancelling skips them one by one, and
the cleanup fails them in bulk.  `execute_step` would run a step that is queued, but
nothing that is committed is queued.

`Rested` is the invariant of the committed rows.
-/

namespace WorkflowEngine

open Py Orm Interact SkipWalk

/-- No step of a finished execution is queued or running, and none of an execution that
was completed or cancelled is pending. -/
structure FinishedInactive (view : (k : RowId) → Option (Row k)) : Prop where
  ended : ∀ id (e : Execution) sid (row : StepExecution), view (.execution id) = some e →
    view (.step sid) = some row → row.executionId = id → e.status.terminal = true →
    row.status ≠ .queued ∧ row.status ≠ .running
  closed : ∀ id (e : Execution) sid (row : StepExecution), view (.execution id) = some e →
    view (.step sid) = some row → row.executionId = id →
    e.status = .completed ∨ e.status = .cancelled → row.status ≠ .pending

/-- No step at all is queued or running. -/
structure Rested (view : (k : RowId) → Option (Row k)) : Prop where
  rests : ∀ sid (row : StepExecution), view (.step sid) = some row →
    row.status ≠ .queued ∧ row.status ≠ .running
  closed : ∀ id (e : Execution) sid (row : StepExecution), view (.execution id) = some e →
    view (.step sid) = some row → row.executionId = id →
    e.status = .completed ∨ e.status = .cancelled → row.status ≠ .pending

namespace Rested

variable {view view' : (k : RowId) → Option (Row k)}

theorem finishedInactive (h : Rested view) : FinishedInactive view :=
  ⟨fun _ _ sid row _ hrow _ _ => h.rests sid row hrow, h.closed⟩

/-- Only the rows of runs count, and fewer of them will do. -/
theorem of_subset (h : Rested view)
    (hsub : ∀ k, OfRun k → ∀ row, view' k = some row → view k = some row) : Rested view' :=
  ⟨fun sid row hrow => h.rests sid row (hsub (.step sid) trivial row hrow),
    fun id e sid row he hrow => h.closed id e sid row (hsub (.execution id) trivial e he)
      (hsub (.step sid) trivial row hrow)⟩

theorem congr (h : Rested view) (heq : ∀ k, OfRun k → view' k = view k) : Rested view' :=
  h.of_subset fun k hrun _ hrow => (heq k hrun).symm.trans hrow

theorem empty : Rested (Rows.row (∅ : Rows Row)) := by
  have hnone : ∀ k, Rows.row (∅ : Rows Row) k = none := fun _ => rfl
  refine ⟨fun sid row hrow => ?_, fun id e sid row he => ?_⟩
  · rw [hnone] at hrow
    cases hrow
  · rw [hnone] at he
    cases he

end Rested

/-- What the session sees and what is committed. -/
structure Rests (db : Db) : Prop where
  view : Rested db.view
  committed : Rested (Rows.row db.committed)

theorem rests_opened {t : Rows Row} (h : Rested (Rows.row t)) : Rests ⟨t, Session.fresh⟩ :=
  ⟨(view_opened t).symm ▸ h, h⟩

theorem Rests.of_same {db db' : Db} (h : Rests db) (hview : ∀ k, OfRun k → db'.view k = db.view k)
    (hcommitted : db'.committed = db.committed) : Rests db' :=
  ⟨h.view.congr hview, hcommitted ▸ h.committed⟩

/-! ## Triggers -/

section

variable {others : Runner} {session : SessionRef} {libs : Libraries} {settings : Settings}

/-- The rows that a run leaves behind. -/
theorem Run.rested {p : RunPlan} {log : StepLog} {invs : List Invocation} {b : Board}
    {result : Except Raised Unit} (h : Run p log invs b result) {db : Db} (hshows : Shows p.ids db b)
    (hrest : Rested p.ids.rest) : Rested db.view := by
  have hstatus : ∀ {s sid}, Dict.get? p.ids.stepMap s = some sid → ∃ step ∈ p.steps, step.id = s ∧
      (b.row s).status ≠ .queued ∧ (b.row s).status ≠ .running ∧
      ((b.row s).status = .pending → s ∉ Dict.keys log) := by
    intro s sid hs
    rcases List.mem_map.mp (p.mapped_only hs) with ⟨step, hstep, rfl⟩
    refine ⟨step, hstep, rfl, ?_⟩
    by_cases hvisited : step.id ∈ Dict.keys log
    · rcases List.mem_map.mp hvisited with ⟨⟨s, ending⟩, hmem, heq⟩
      have hended := h.status_of_mem hmem
      cases heq
      rw [hended]
      cases ending <;> simp
    · simp [h.pending_of_not_mem hstep hvisited, hvisited]
  have hold : ∀ {sid row}, db.view (.step sid) = some row →
      (∀ s, Dict.get? p.ids.stepMap s ≠ some sid) → p.ids.rest (.step sid) = some row := by
    intro sid row hrow hnone
    refine (hshows.seen.others (.step sid) nofun fun s sid' hs heq => ?_).symm.trans hrow
    cases heq
    exact hnone s hs
  refine ⟨fun sid row hrow => ?_, fun id e sid row he hrow hbelongs hended => ?_⟩
  · by_cases hs : ∃ s, Dict.get? p.ids.stepMap s = some sid
    · rcases hs with ⟨s, hs⟩
      rcases hstatus hs with ⟨-, -, -, hqueued, hrunning, -⟩
      have hview := hshows.seen.step hs
      rw [hrow] at hview
      cases hview
      exact ⟨hqueued, hrunning⟩
    · exact hrest.rests sid row (hold hrow fun s hs' => hs ⟨s, hs'⟩)
  · by_cases hid : id = p.ids.id
    · -- the run itself has ended: every step was visited
      subst hid
      rcases hshows.seen.only hrow hbelongs with ⟨s, hs⟩
      rcases hstatus hs with ⟨step, hstep, rfl, -, -, hpending⟩
      have hview := hshows.seen.step hs
      rw [hrow] at hview
      cases hview
      have hexecution := hshows.seen.execution
      rw [he] at hexecution
      cases hexecution
      intro hstill
      cases h.ends with
      | completed all alive settles status =>
        exact hpending hstill (all ▸ p.accepted.mem_order.mpr (List.mem_map.mpr ⟨step, hstep, rfl⟩))
      | failed front s last settles status => simp [status] at hended
      | stuck front step output e last mem condition unset settles status => simp [status] at hended
    · have hnone : ∀ s, Dict.get? p.ids.stepMap s ≠ some sid := by
        intro s hs
        rcases List.mem_map.mp (p.mapped_only hs) with ⟨step, hstep, rfl⟩
        have hview := hshows.seen.step hs
        rw [hrow] at hview
        cases hview
        exact hid (hbelongs.symm.trans (h.follows.rows step hstep).executionId)
      have hexecution : p.ids.rest (.execution id) = some e :=
        (hshows.seen.others (.execution id) (by simpa using hid) nofun).symm.trans he
      exact hrest.closed id e sid row hexecution (hold hrow hnone) hbelongs hended

theorem rests_startExecution (fuel : Nat) (parent : Option Caller) (workflowId : Uuid)
    (workflow : Workflow) (triggerData : Dict String Json) (tenantId : Uuid)
    (replayedFrom : Option Uuid) (depth : Int) :
    Maintains Rests (startExecution (nesting libs settings performer session fuel) session libs
      settings parent workflowId workflow triggerData tenantId replayedFrom depth) := by
  intro w h
  rcases nesting_eq libs settings performer session fuel with ⟨start, hnesting⟩
  rw [hnesting]
  cases hparse : parseWorkflowDefinition libs settings
      ⟨workflow.name, workflow.triggerType, workflow.steps⟩ with
  | error exc =>
    have hrefused : Prog.run (startExecution (nestingWith libs settings performer start) session libs
        settings parent workflowId workflow triggerData tenantId replayedFrom depth) w =
          (.error (.exception exc), w) :=
      run_startExecution_refused hparse w
    show Rests (Prog.run _ w).2.db
    rw [hrefused]
    exact h
  | ok parsed =>
    rcases run_startExecution (nestingWith_quiet performer_quiet start) hparse session parent
      workflowId triggerData tenantId replayedFrom depth w with
      ⟨p, log, invs, b, result, db', env', -, -, -, -, -, -, hcommitted, hrest, hrun, -, hshows, hended⟩
    show Rests (Prog.run _ w).2.db
    rw [hrun]
    refine ⟨hended.rested hshows (hrest ▸ h.view), ?_⟩
    rw [hshows.committed, hcommitted]
    exact h.committed

theorem rests_elsewhere {req : DbReq Row Memo} {k : RowId} (hkey : req.key? = some k)
    (hrun : ¬ OfRun k) : Maintains Rests (Script.send (S := engineSignature) (.db req)) := by
  intro w h
  refine h.of_same (fun k' hrun' => ?_) ?_
  · refine DbState.view_answer_ne hkey ?_ w.db
    rintro rfl
    exact hrun hrun'
  · refine DbState.committed_answer (fun heq => ?_) w.db
    rw [heq] at hkey
    cases hkey

theorem rests_select (k : RowId) (p : Row k → Bool) :
    Maintains Rests (Script.send (S := engineSignature) (.db (.select k p))) := by
  intro w h
  have hreq : (.select k p : DbReq Row Memo) ≠ .commit := nofun
  exact h.of_same (fun k' _ => DbState.view_answer_select w.db k k' p)
    (DbState.committed_answer hreq w.db)

theorem rests_selectWhere (p : (k : RowId) → Row k → Bool) : Maintains Rests (selectWhere p) :=
  fun _ h => h.of_same (fun k _ => DbState.view_loadAll _ _ k) (DbState.committed_loadAll _ _)

theorem rests_commit : Maintains Rests commit :=
  fun _ h => ⟨h.view.congr fun k _ => DbState.view_commit _ k, h.view⟩

theorem rests_getTenantWorkflow (workflowId tenantId : Uuid) :
    Maintains Rests (getTenantWorkflow workflowId tenantId) := by
  unfold getTenantWorkflow
  apply maintains_bind (rests_select (.workflow workflowId) _)
  intro found
  cases found with
  | none => exact maintains_done _
  | some workflow => exact maintains_done _

theorem rests_manualExecute (fuel : Nat) (workflowId tenantId : Uuid) (data : Dict String Json) :
    Maintains Rests (manualExecute (nesting libs settings performer session fuel) session libs
      settings workflowId tenantId data) := by
  unfold manualExecute
  apply maintains_bind (rests_getTenantWorkflow _ _)
  intro workflow
  apply maintains_bind (maintains_liftExcept _)
  intro _
  apply maintains_bind (rests_startExecution _ _ _ _ _ _ _ _)
  exact fun _ => maintains_bind rests_commit fun _ => maintains_done _

theorem rests_replayExecutionEndpoint (fuel : Nat) (executionId tenantId : Uuid)
    (overrideData : Dict String Json) :
    Maintains Rests (replayExecutionEndpoint (nesting libs settings performer session fuel) session
      libs settings executionId tenantId overrideData) := by
  unfold replayExecutionEndpoint
  split
  · apply maintains_bind
    · unfold replayExecution
      apply maintains_bind (rests_select (.execution executionId) _)
      intro found
      cases found with
      | none => exact maintains_done _
      | some original =>
        apply maintains_bind (rests_getTenantWorkflow _ _)
        intro workflow
        apply maintains_bind (maintains_liftExcept _)
        intro _
        apply maintains_bind (maintains_liftExcept _)
        exact fun _ => rests_startExecution _ _ _ _ _ _ _ _
    · exact fun _ => maintains_bind rests_commit fun _ => maintains_done _
  · exact maintains_done _

theorem rests_executeCronWorkflow (fuel : Nat) (workflowId tenantId : String) :
    Maintains Rests (executeCronWorkflow (nesting libs settings performer session fuel) session libs
      settings workflowId tenantId) := by
  unfold executeCronWorkflow
  apply maintains_bind (maintains_env _)
  intro now
  apply maintains_bind
  · apply maintains_attempt
    unfold runCronWorkflow
    apply maintains_bind (maintains_liftExcept _)
    intro id
    apply maintains_bind (rests_select (.workflow id) _)
    intro found
    cases found with
    | none => exact maintains_done _
    | some workflow =>
      apply maintains_ite
      · apply maintains_bind (maintains_liftExcept _)
        intro tenant
        apply maintains_bind (rests_startExecution _ _ _ _ _ _ _ _)
        exact fun _ => rests_commit
      · exact maintains_done _
  · intro ended
    cases ended with
    | ok _ => exact maintains_done _
    | error raised =>
      cases raised with
      | outOfFuel => exact maintains_done _
      | exception exc => exact maintains_done _

variable {wire : Wire}

theorem rests_logWebhookDelivery (request : WebhookRequest) (workflowId tenantId : Uuid)
    (status : DeliveryStatus) (rejectionReason : Option String) :
    Maintains Rests (logWebhookDelivery wire request workflowId tenantId status rejectionReason) := by
  unfold logWebhookDelivery
  apply maintains_bind (maintains_env _)
  intro id
  apply maintains_bind (maintains_rowExists _)
  intro stored
  refine maintains_ite ?_ (maintains_done _)
  apply maintains_bind (rests_elsewhere (k := .delivery id) rfl fun hrun => hrun)
  exact fun _ => maintains_done _

/-- The webhook commits what the session has written, whether the run has ended or was
left in the middle. -/
theorem rests_startFromWebhook (fuel : Nat) (request : WebhookRequest) (workflowId : Uuid)
    (workflow : Workflow) :
    Maintains Rests (startFromWebhook (nesting libs settings performer session fuel) session libs
      settings wire request workflowId workflow) := by
  have hassign : ∀ delivery f, Maintains Rests (assignDelivery delivery f) :=
    fun delivery f => rests_elsewhere (k := .delivery delivery) rfl fun hrun => hrun
  unfold startFromWebhook
  apply maintains_bind (rests_logWebhookDelivery _ _ _ _ _)
  intro delivery
  apply maintains_bind
  · apply maintains_attempt
    apply maintains_bind (rests_startExecution _ _ _ _ _ _ _ _)
    intro started
    apply maintains_bind (hassign _ _)
    exact fun _ => maintains_bind rests_commit fun _ => maintains_done _
  · intro started
    cases started with
    | ok id => exact maintains_done _
    | error raised =>
      cases raised with
      | outOfFuel => exact maintains_done _
      | exception exc =>
        apply maintains_bind (hassign _ _)
        exact fun _ => maintains_bind rests_commit fun _ => maintains_done _

theorem rests_receiveForWorkflow (fuel : Nat) (request : WebhookRequest) (workflowId : Uuid)
    (workflow : Workflow) :
    Maintains Rests (receiveForWorkflow (nesting libs settings performer session fuel) session libs
      settings wire request workflowId workflow) := by
  have hrejected : ∀ status reason (response : Response), Maintains Rests (do
      let _ ← logWebhookDelivery wire request workflowId workflow.tenantId status reason
      commit
      return response) := by
    intro status reason response
    apply maintains_bind (rests_logWebhookDelivery _ _ _ _ _)
    exact fun _ => maintains_bind rests_commit fun _ => maintains_done _
  unfold receiveForWorkflow
  split
  · split
    · exact rests_startFromWebhook _ _ _ _
    · split
      · exact rests_startFromWebhook _ _ _ _
      · exact hrejected _ _ _
      · exact maintains_done _
  · exact hrejected _ _ _

theorem rests_receiveWebhook (fuel : Nat) (request : WebhookRequest) :
    Maintains Rests (receiveWebhook (nesting libs settings performer session fuel) session libs
      settings wire request) := by
  have hlookup : Maintains Rests (lookupWorkflowByPath request.path) := by
    unfold lookupWorkflowByPath
    apply maintains_bind (rests_selectWhere _)
    intro found
    split
    · exact maintains_done _
    · rename_i id
      apply maintains_bind (rests_elsewhere (k := .workflow id) rfl fun hrun => hrun)
      exact fun _ => maintains_bind (maintains_mapped _) fun _ => maintains_done _
    · exact maintains_done _
  unfold receiveWebhook
  apply maintains_bind (maintains_liftExcept _)
  intro tooLong
  apply maintains_ite (maintains_done _)
  apply maintains_ite (maintains_done _)
  split
  · exact rests_receiveForWorkflow _ _ _ _
  · apply maintains_bind (maintains_attempt hlookup)
    intro found
    split
    · exact rests_receiveForWorkflow _ _ _ _
    · exact maintains_done _
    · exact maintains_done _

theorem rests_handle (fuel : Nat) (trigger : Trigger) :
    Maintains Rests
      (trigger.handle libs settings wire (nesting libs settings performer session fuel) session) := by
  cases trigger with
  | manual workflowId tenantId data =>
    exact maintains_bind (rests_manualExecute _ _ _ _) fun _ => maintains_done _
  | webhook request => exact maintains_bind (rests_receiveWebhook _ _) fun _ => maintains_done _
  | cron workflowId tenantId => exact rests_executeCronWorkflow _ _ _
  | replay executionId tenantId overrideData =>
    exact maintains_bind (rests_replayExecutionEndpoint _ _ _ _) fun _ => maintains_done _

end

/-! ## Cancelling -/

/-- The step may have changed, but not to whom it belongs; nothing else has changed. -/
structure OnlyStep (sid : Uuid) (base db : Db) : Prop where
  committed : db.committed = base.committed
  others : ∀ k, k ≠ .step sid → db.view k = base.view k
  step : ∀ row : StepExecution, db.view (.step sid) = some row →
    ∃ old : StepExecution, base.view (.step sid) = some old ∧ row.executionId = old.executionId

theorem onlyStep_respects (sid : Uuid) (base : Db) :
    Respects (fun k => k = .step sid) (OnlyStep sid base) := by
  intro req db hreq h
  rcases hreq.key with ⟨hcommit, k, hkey, hk⟩
  subst hk
  refine ⟨(DbState.committed_answer hcommit db).trans h.committed,
    fun k' hk' => (DbState.view_answer_ne hkey hk' db).trans (h.others k' hk'), fun row hrow => ?_⟩
  cases req with
  | select k p =>
    rw [DbState.view_answer_select] at hrow
    exact h.step row hrow
  | refresh k =>
    have hview : (DbState.answer (.refresh k) db).2.view (.step sid) = db.view (.step sid) := by
      simp only [DbState.answer]
      split <;> rfl
    rw [hview] at hrow
    exact h.step row hrow
  | touch k change =>
    cases hkey
    cases hloaded : db.loaded (.step sid) with
    | none =>
      simp only [DbState.answer, hloaded] at hrow
      exact h.step row hrow
    | some obj =>
      simp only [DbState.answer, hloaded] at hrow
      split at hrow
      · rename_i f old hf hold
        rw [DbState.view_write_self] at hrow
        cases hrow
        rcases h.step old hold with ⟨first, hfirst, hbelongs⟩
        have hrefs := (hreq.2 obj.1 obj.2).2 f hf old
        simp only [Row.references, List.cons.injEq] at hrefs
        exact ⟨first, hfirst, hrefs.2.1.trans hbelongs⟩
      · exact h.step row hrow
  | insert k row => cases hreq
  | delete k => cases hreq
  | updateIf k p f => cases hreq
  | selectWhere p => cases hreq
  | scan p => cases hreq
  | commit => cases hreq

/-- The attributes of a step are those of its row. -/
theorem view_of_readStep {w w' : World} (h : Synced w.db) {sid : Uuid} {stepExec : StepExecution}
    (hrun : (readStep sid).run w = (.ok stepExec, w')) :
    w'.db.view = w.db.view ∧
      ∀ row : StepExecution, w.db.view (.step sid) = some row → stepExec = row := by
  unfold readStep at hrun
  rcases Prog.exists_of_run_bind hrun with ⟨found, w₁, hfound, hmapped⟩
  cases hloaded : w.db.loaded (.step sid) with
  | none =>
    have hanswer : DbState.answer (.touch (.step sid) fun attrs memo => ((attrs, memo), none)) w.db =
        (none, w.db) := by
      simp only [DbState.answer, hloaded]
    rw [run_db, hanswer] at hfound
    cases hfound
    cases hmapped
  | some obj =>
    rw [run_db, DbState.answer_touch_silent hloaded rfl] at hfound
    cases hfound
    cases hmapped
    refine ⟨rfl, fun row hrow => ?_⟩
    rcases h (.step sid) trivial obj.1 obj.2 hloaded with ⟨row', hrow', hsync⟩
    rw [hrow] at hrow'
    cases hrow'
    exact hsync

/-- The rows of a session that cancels and has still to look at the steps `ks`. -/
structure Skipping (t : Rows Row) (ks : List RowId) (db : Db) : Prop where
  synced : Synced db
  committed : db.committed = t
  rests : ∀ sid (row : StepExecution), db.view (.step sid) = some row →
    row.status ≠ .queued ∧ row.status ≠ .running
  closed : ∀ id (e : Execution) sid (row : StepExecution), db.view (.execution id) = some e →
    db.view (.step sid) = some row → row.executionId = id →
    e.status = .completed ∨ e.status = .cancelled → row.status = .pending → .step sid ∈ ks

theorem skipping_skipSteps {t : Rows Row} (ks : List RowId) {w w' : World} (h : Skipping t ks w.db)
    (hrun : (skipSteps ks).run w = (.ok (), w')) : Skipping t [] w'.db := by
  induction ks generalizing w with
  | nil =>
    cases hrun
    exact h
  | cons k ks ih =>
    have hskip : (∀ sid, k ≠ .step sid) → Skipping t ks w.db := fun hk =>
      ⟨h.synced, h.committed, h.rests, fun id e sid row he hrow hid hended hpending =>
        (List.mem_cons.mp (h.closed id e sid row he hrow hid hended hpending)).resolve_left
          (Ne.symm (hk sid))⟩
    cases k with
    | workflow id => exact ih (hskip nofun) hrun
    | execution id => exact ih (hskip nofun) hrun
    | delivery id => exact ih (hskip nofun) hrun
    | step sid =>
      unfold skipSteps at hrun
      rcases Prog.exists_of_run_bind hrun with ⟨stepExec, w₁, hread, hrest⟩
      rcases view_of_readStep h.synced hread with ⟨hview₁, hattrs⟩
      have hsynced₁ : Synced w₁.db := by
        have hrun₁ := (stepwise_readStep (admits_synced (.step sid)) h.synced).run h.synced
        rwa [hread] at hrun₁
      have hcommitted₁ : w₁.db.committed = t := by
        have honly := maintains_readStep (onlyStep_respects sid w.db) rfl w
          ⟨rfl, fun _ _ => rfl, fun row hrow => ⟨row, hrow, rfl⟩⟩
        rw [show Script.run World.answer (readStep sid) w = (.ok stepExec, w₁) from hread] at honly
        exact honly.committed.trans h.committed
      by_cases hopen : stepExec.status ∈ [StepStatus.pending, .queued, .running]
      · rw [if_pos hopen] at hrest
        rcases Prog.exists_of_run_bind hrest with ⟨_, w₂, htransition, hlast⟩
        have hsynced₂ : Synced w₂.db := by
          have hstepwise : Stepwise Synced (transitionStep sid .skipped none) w₁ :=
            stepwise_transitionStep (admits_synced (.step sid)) hsynced₁ (by simp)
          have hrun₂ := hstepwise.run hsynced₁
          rwa [htransition] at hrun₂
        have honly := maintains_transitionStep (onlyStep_respects sid w₁.db) rfl .skipped none w₁
          ⟨rfl, fun _ _ => rfl, fun row hrow => ⟨row, hrow, rfl⟩⟩
        rw [show Script.run World.answer (transitionStep sid .skipped none) w₁ = (.ok _, w₂)
          from htransition] at honly
        rcases status_of_transitionStep hsynced₁ htransition with ⟨new, hnew, hstatus⟩
        have hold : ∀ {k}, k ≠ .step sid → w₂.db.view k = w.db.view k :=
          fun hk => (honly.others _ hk).trans (congrFun hview₁ _)
        have hskipped : ∀ row : StepExecution, w₂.db.view (.step sid) = some row →
            row.status = .skipped := by
          intro row hrow
          rw [hnew] at hrow
          cases hrow
          exact hstatus
        refine ih ⟨hsynced₂, honly.committed.trans hcommitted₁, fun sid' row hrow => ?_,
          fun id e sid' row he hrow hid hended hpending => ?_⟩ hlast
        · by_cases heq : sid' = sid
          · subst heq
            simp [hskipped row hrow]
          · exact h.rests sid' row ((hold (by simpa using heq)).symm.trans hrow)
        · by_cases heq : sid' = sid
          · subst heq
            rw [hskipped row hrow] at hpending
            cases hpending
          · have hmem := h.closed id e sid' row ((hold (by simp)).symm.trans he)
              ((hold (by simpa using heq)).symm.trans hrow) hid hended hpending
            exact (List.mem_cons.mp hmem).resolve_left (by simpa using heq)
      · rw [if_neg hopen] at hrest
        refine ih ⟨hsynced₁, hcommitted₁, hview₁ ▸ h.rests,
          fun id e sid' row he hrow hid hended hpending => ?_⟩ hrest
        rw [hview₁] at he hrow
        refine (List.mem_cons.mp (h.closed id e sid' row he hrow hid hended hpending)).resolve_left ?_
        -- the step was looked at, and it was not pending
        intro heq
        cases heq
        rw [hattrs row hrow, hpending] at hopen
        simp at hopen

/-- What is committed stays so until the end. -/
theorem committed_respects (t : Rows Row) :
    Respects (fun _ => True) (fun db => db.committed = t) := by
  intro req db hreq h
  rcases hreq.key with ⟨hcommit, -⟩
  exact (DbState.committed_answer hcommit db).trans h

/-- The statements on one row leave the others. -/
theorem others_respects (k₀ : RowId) (view : (k : RowId) → Option (Row k)) :
    Respects (fun k => k = k₀) (fun db => ∀ k, k ≠ k₀ → db.view k = view k) := by
  intro req db hreq h k hk
  rcases hreq.key with ⟨-, k₁, hkey, rfl⟩
  exact (DbState.view_answer_ne hkey hk db).trans (h k hk)

/-- A part of a program that commits nothing either raises, or goes on with the same
committed rows. -/
theorem rested_bind {α β : Type} {t : Rows Row} (h : Rested (Rows.row t)) {m : Prog α} {f : α → Prog β}
    (hm : Maintains (fun db => db.committed = t) m) {w : World} (hw : w.db.committed = t)
    (hf : ∀ a w', m.run w = (.ok a, w') → w'.db.committed = t →
      Rested (Rows.row ((f a).run w').2.db.committed)) :
    Rested (Rows.row (Prog.run (m >>= f) w).2.db.committed) := by
  have hend := hm w hw
  rcases hrun : m.run w with ⟨result, w'⟩
  rw [show Script.run World.answer m w = (result, w') from hrun] at hend
  cases result with
  | ok a =>
    rw [Prog.run_bind_ok hrun]
    exact hf a w' hrun hend
  | error raised =>
    rw [Prog.run_bind_error hrun]
    exact (show w'.db.committed = t from hend) ▸ h

/-- The cancelled execution has no pending step left, and the others are as before. -/
theorem rested_cancelExecution {t : Rows Row} (h : Rested (Rows.row t)) (executionId tenantId : Uuid)
    (env : Environment) :
    Rested (Rows.row ((cancelExecution executionId tenantId).run
      ⟨⟨t, Session.fresh⟩, env⟩).2.db.committed) := by
  have hrespects := committed_respects t
  unfold cancelExecution
  refine rested_bind h (maintains_selectExecution hrespects trivial _) rfl ?_
  intro found w₁ hselect hw₁
  cases found with
  | none => exact hw₁ ▸ h
  | some execution =>
    have hsynced₁ : Synced w₁.db := by
      have hrun := ((admits_synced (.execution executionId)).select
        (w := ⟨⟨t, Session.fresh⟩, env⟩) (synced_opened t) fun execution : Execution =>
          decide (execution.tenantId = tenantId)).run (synced_opened t)
      rw [selectExecution] at hselect
      rwa [hselect] at hrun
    have hview₁ : w₁.db.view = Rows.row t := by
      have hdb : w₁.db = (DbState.answer (.select (.execution executionId) fun execution : Execution =>
          decide (execution.tenantId = tenantId)) ⟨t, Session.fresh⟩).2 :=
        congrArg (fun r => r.2.db) hselect.symm
      rw [hdb]
      funext k
      exact (DbState.view_answer_select _ _ k _).trans (congrFun (view_opened t) k)
    rw [run_selectWhere_bind]
    let steps := DbState.matching w₁.db (stepsOf executionId)
    let db₂ : Db := DbState.loadAll w₁.db steps
    have hsynced₂ : Synced db₂ := hsynced₁.loadAll _
    have hview₂ : db₂.view = Rows.row t :=
      (funext fun k => DbState.view_loadAll _ _ k).trans hview₁
    refine rested_bind h (maintains_transitionExecutionWith hrespects _ trivial _)
      ((DbState.committed_loadAll _ _).trans hw₁) ?_
    intro _ w₃ htransition hw₃
    have hsynced₃ : Synced w₃.db := by
      have hstepwise : Stepwise Synced
          (transitionExecutionWith flushColumns executionId .cancelled) ⟨db₂, w₁.env⟩ :=
        stepwise_transitionExecutionWith (admits_synced (.execution executionId)) hsynced₂ _ (by simp)
      have hrun := hstepwise.run hsynced₂
      rwa [htransition] at hrun
    have hothers := maintains_transitionExecutionWith
      (others_respects (.execution executionId) (Rows.row t)) flushColumns rfl .cancelled ⟨db₂, w₁.env⟩
      fun k _ => congrFun hview₂ k
    have hview₃ : ∀ k, k ≠ .execution executionId → w₃.db.view k = Rows.row t k := by
      rwa [show Script.run World.answer (transitionExecutionWith flushColumns executionId .cancelled)
        ⟨db₂, w₁.env⟩ = (.ok _, w₃) from htransition] at hothers
    have hskipping : Skipping t steps w₃.db := by
      refine ⟨hsynced₃, hw₃, fun sid row hrow => ?_, fun id e sid row he hrow hid hended hpending => ?_⟩
      · exact h.rests sid row ((hview₃ _ (by simp)).symm.trans hrow)
      · have hold : Rows.row t (.step sid) = some row := (hview₃ _ (by simp)).symm.trans hrow
        by_cases heq : id = executionId
        · refine DbState.mem_matching.mpr ⟨row, (congrFun hview₁ _).trans hold, ?_⟩
          exact decide_eq_true (hid.trans heq)
        · have hexecution := (hview₃ (.execution id) (by simpa using heq)).symm.trans he
          exact absurd hpending (h.closed id e sid row hexecution hold hid hended)
    refine rested_bind h (maintains_skipSteps hrespects (fun _ => trivial) steps) hw₃ ?_
    intro _ w₄ hskip _
    have hdone := skipping_skipSteps steps hskipping hskip
    refine ⟨hdone.rests, fun id e sid row he hrow hid hended hpending => ?_⟩
    cases hdone.closed id e sid row he hrow hid hended hpending

/-! ## Cleaning up, and the step task -/

/-- The steps that are left are failed. -/
theorem rested_cleanupStaleExecutions {t : Rows Row} (h : Rested (Rows.row t)) (env : Environment) :
    Rested (Rows.row (cleanupStaleExecutions.run ⟨⟨t, Session.fresh⟩, env⟩).2.db.committed) := by
  unfold cleanupStaleExecutions
  rw [Prog.run_bind_ok (run_utcNow _), Prog.run_bind_ok (run_utcNow _), run_selectWhere_bind]
  split
  · show Rested (Rows.row (DbState.loadAll _ _).committed)
    rw [DbState.committed_loadAll]
    exact h
  · let now := env.clock (env.readings + 1)
    let stale := DbState.matching (⟨t, Session.fresh⟩ : Db)
      (isStale (env.clock env.readings - staleThreshold))
    let db : Db := DbState.loadAll ⟨t, Session.fresh⟩ stale
    rcases run_updateWhere (isListed stale) (failExecution now) db
      { env with readings := env.readings + 1 + 1 } with ⟨db₁, hrun₁, hrewrites₁⟩
    rcases run_updateWhere (isUnfinished stale) (failStep now) db₁
      { env with readings := env.readings + 1 + 1 } with ⟨db₂, hrun₂, hrewrites₂⟩
    rw [Prog.run_bind_ok hrun₁, Prog.run_bind_ok hrun₂]
    show Rested db₂.view
    have hview : ∀ k, db₂.view k = ((Rows.row t k).bind (updatedRow (isListed stale)
        (failExecution now) k)).bind (updatedRow (isUnfinished stale) (failStep now) k) := by
      intro k
      rw [hrewrites₂.view, hrewrites₁.view, DbState.view_loadAll, view_opened]
    have hstep : ∀ {sid} {row : StepExecution}, db₂.view (.step sid) = some row →
        row.status = .failed ∨ Rows.row t (.step sid) = some row := by
      intro sid row hrow
      rw [hview] at hrow
      rcases Option.bind_eq_some_iff.mp hrow with ⟨mid, hmid, hlast⟩
      rcases Option.bind_eq_some_iff.mp hmid with ⟨old, hold, hsame⟩
      have hmid' : old = mid := Option.some.inj hsame
      subst hmid'
      have hrow' := Option.some.inj hlast
      split at hrow'
      · exact .inl (hrow' ▸ rfl)
      · exact .inr (hrow' ▸ hold)
    have hexecution : ∀ {id} {e : Execution}, db₂.view (.execution id) = some e →
        e.status = .failed ∨ Rows.row t (.execution id) = some e := by
      intro id e he
      rw [hview] at he
      rcases Option.bind_eq_some_iff.mp he with ⟨mid, hmid, hlast⟩
      rcases Option.bind_eq_some_iff.mp hmid with ⟨old, hold, hfirst⟩
      have hmid' : mid = e := Option.some.inj hlast
      subst hmid'
      have he' := Option.some.inj hfirst
      split at he'
      · exact .inl (he' ▸ rfl)
      · exact .inr (he' ▸ hold)
    refine ⟨fun sid row hrow => ?_, fun id e sid row he hrow hid hended => ?_⟩
    · rcases hstep hrow with hfailed | hold
      · simp [hfailed]
      · exact h.rests sid row hold
    · rcases hexecution he with hfailed | holdExecution
      · simp [hfailed] at hended
      · rcases hstep hrow with hfailed | hold
        · simp [hfailed]
        · exact h.closed id e sid row holdExecution hold hid hended

/-- No step is queued, so that the task raises. -/
theorem rested_executeStepWith {t : Rows Row} (h : Rested (Rows.row t)) (executors : Executors)
    (stepExecutionId executionId : String) (env : Environment) :
    Rested (Rows.row ((executeStepWith executors stepExecutionId executionId).run
      ⟨⟨t, Session.fresh⟩, env⟩).2.db.committed) := by
  rcases run_executeStepWith_not_ready (fun se ex row e type _ _ hready =>
    (h.rests se row hready.step).1 hready.queued) env with ⟨exc, db', env', hrun, -, hcommitted⟩
  rw [hrun]
  exact hcommitted ▸ h

/-! ## Every entry -/

theorem rested_program {libs : Libraries} {settings : Settings} {wire : Wire} {session : SessionRef}
    {fuel : Nat} {entry : Entry} (hentry : entry.Writes) {t : Rows Row} (h : Rested (Rows.row t))
    (env : Environment) :
    Rested (Rows.row ((entry.program libs settings wire session fuel).run
      ⟨⟨t, Session.fresh⟩, env⟩).2.db.committed) := by
  rcases hentry with htransitions | rfl
  · cases entry with
    | trigger trigger =>
      rw [Entry.program]
      exact (run_of_maintains (rests_handle fuel trigger) (rests_opened h)).committed
    | operation operation =>
      cases operation with
      | cancelExecution executionId tenantId =>
        rw [Entry.program, Operation.program]
        exact rested_cancelExecution h executionId tenantId env
      | executeStep stepExecutionId executionId =>
        rw [Entry.program, Operation.program, Prog.run_discard, executeStep]
        exact rested_executeStepWith h _ _ _ env
      | cleanupStaleExecutions => cases htransitions
      | transitionExecution executionId new => cases htransitions
      | transitionStep stepExecId new error => cases htransitions
    | createWorkflow body tenantId generated => cases htransitions
    | updateWorkflow body workflowId tenantId generated => cases htransitions
    | deleteWorkflow workflowId tenantId => cases htransitions
    | pruneWebhookDeliveries createdAt => cases htransitions
  · rw [Entry.program, Operation.program, Prog.run_discard]
    exact rested_cleanupStaleExecutions h env

/-- In every committed state that is reached by triggers, cancellations, cleanups and step
tasks, one after another, a finished execution has no active step. -/
theorem finished_inactive {libs : Libraries} {settings : Settings} {wire : Wire} {t : Rows Row}
    (hreaches : (machine libs settings wire Entry.Writes).Reaches (fun _ _ => True) (.idle ∅)
      (.idle t)) : FinishedInactive (Rows.row t) := by
  have hrested : Rested (Rows.row t) := by
    refine Serial.holds_idle (I := fun t => Rested (Rows.row t)) ?_ ?_ Rested.empty hreaches
    · rintro t m ⟨db, env⟩ h ⟨⟨entry, session, fuel, hentry, rfl⟩, hopened⟩
      cases hopened
      exact rested_program hentry h env
    · exact fun h hleaves => h.of_subset hleaves
  exact hrested.finishedInactive

/-- The rows after an execution of the workflow with one step, whose step succeeds. -/
def executedRows : Rows Row :=
  ((executeOne.program plainLibraries {} plainWire 0 0).run
    (executeWorld (plainEnvironment fun _ _ => .ok []))).2.db.committed

/-- They are reached, the execution is completed, and its step is not active. -/
theorem finished_inactive_executed :
    FinishedInactive (Rows.row executedRows) ∧
      (Rows.row executedRows (.execution 2)).map (fun row : Execution => row.status) =
        some .completed := by
  have hreaches := (reaches_executeOne (show Entry.Writes executeOne from .inl trivial)
    (plainEnvironment fun _ _ => .ok []) fun _ _ => True).trans
      (Serial.reaches_run (Script.always_of_forall (fun _ _ => trivial) _ _))
  exact ⟨finished_inactive hreaches, by decide +kernel⟩

end WorkflowEngine

import WorkflowEngine.EntryEffects

/-!
# What is recorded of a run

An execution and its steps say the same of a run: the context holds the outputs of the
completed steps and nothing else, and the statuses agree.  The rows are written by several
operations, but only the operation that starts an execution completes a step, and what comes
later leaves the results alone.

No operation leaves a step queued.  So a worker, whose jobs run queued steps only, has nothing
to do.
-/

namespace WorkflowEngine

open Py Orm Interact

/-! ## Rows of steps -/

/-- The result of a step stays, and a step is not taken up again. -/
structure SameResult (row row' : StepExecution) : Prop where
  executionId : row'.executionId = row.executionId
  stepId : row'.stepId = row.stepId
  outputData : row'.outputData = row.outputData
  completed : row'.status = .completed ↔ row.status = .completed
  skipped : row.status = .skipped → row'.status = .skipped
  queued : row'.status = .queued → row.status = .queued
  running : row'.status = .running → row.status = .running

theorem SameResult.refl (row : StepExecution) : SameResult row row :=
  ⟨rfl, rfl, rfl, Iff.rfl, fun h => h, fun h => h, fun h => h⟩

/-- A step that is not over becomes one that is skipped or failed. -/
theorem SameResult.ended {row row' : StepExecution} (hexecution : row'.executionId = row.executionId)
    (hstep : row'.stepId = row.stepId) (houtput : row'.outputData = row.outputData)
    (hactive : row.status ∈ [StepStatus.pending, .queued, .running])
    (hended : row'.status = .skipped ∨ row'.status = .failed) : SameResult row row' := by
  refine ⟨hexecution, hstep, houtput, iff_of_false ?_ ?_, fun hskipped => ?_, fun h => ?_, fun h => ?_⟩
  · rcases hended with h | h <;> simp [h]
  · rintro h
    simp [h] at hactive
  · simp [hskipped] at hactive
  · rcases hended with h' | h' <;> simp [h'] at h
  · rcases hended with h' | h' <;> simp [h'] at h

/-- What an operation other than a start does to the rows of a run. -/
structure KeepsResults (v v' : View) : Prop where
  execution : ∀ id (e e' : Execution), v (.execution id) = some e → v' (.execution id) = some e' →
    e'.context = e.context ∧ (e'.status = .completed → e.status = .completed) ∧
      (e.status = .failed → e'.status = .failed)
  step : ∀ sid (row row' : StepExecution), v (.step sid) = some row → v' (.step sid) = some row' →
    SameResult row row'
  failed : ∀ sid (row row' : StepExecution) (e' : Execution), v (.step sid) = some row →
    v' (.step sid) = some row' → v' (.execution row'.executionId) = some e' →
      row'.status = .failed → row.status = .failed ∨ e'.status = .failed

/-- The rows of runs are the same, or some have gone or come. -/
theorem KeepsResults.of_same {v v' : View}
    (h : ∀ k, OfRun k → ∀ row row', v k = some row → v' k = some row' → row' = row) :
    KeepsResults v v' := by
  refine ⟨fun id e e' hrow hrow' => ?_, fun sid row row' hrow hrow' => ?_,
    fun sid row row' e' hrow hrow' _ hfailed => ?_⟩
  · rw [h (.execution id) trivial e e' hrow hrow']
    exact ⟨rfl, fun h => h, fun h => h⟩
  · rw [h (.step sid) trivial row row' hrow hrow']
    exact SameResult.refl row
  · rw [h (.step sid) trivial row row' hrow hrow'] at hfailed
    exact .inl hfailed

section

variable {libs : Libraries} {settings : Settings} {copies : Uuid → Workflow → Prop} {v v' : View}

/-- What is recorded of a run stays true. -/
theorem RunRecord.kept (heffect : Effect libs settings copies v v') (hkeeps : KeepsResults v v')
    {id : Uuid} {e e' : Execution} (hrow : v (.execution id) = some e) (hrow' : v' (.execution id) = some e')
    (h : RunRecord v id e) : RunRecord v' id e' := by
  have hexecution := heffect.execution id e e' hrow hrow'
  obtain ⟨hcontext, hcompleted, hfailed⟩ := hkeeps.execution id e e' hrow hrow'
  -- the steps of the execution are the same ones before and after
  have hback : ∀ sid (row' : StepExecution), v' (.step sid) = some row' → row'.executionId = id →
      ∃ row : StepExecution, v (.step sid) = some row ∧ row.executionId = id ∧ SameResult row row' := by
    intro sid row' hstep' hid
    cases hstep : v (.step sid) with
    | none =>
      have hfresh := heffect.steps.born sid row' hstep hstep'
      rw [hid, hrow] at hfresh
      cases hfresh
    | some row =>
      have hsame := hkeeps.step sid row row' hstep hstep'
      exact ⟨row, rfl, hsame.executionId.symm.trans hid, hsame⟩
  have hforth : ∀ sid (row : StepExecution), v (.step sid) = some row → row.executionId = id →
      ∃ row' : StepExecution, v' (.step sid) = some row' ∧ SameResult row row' := by
    intro sid row hstep hid
    cases hstep' : v' (.step sid) with
    | none =>
      have hgone := heffect.steps.gone sid row hstep hstep'
      rw [hid, hrow'] at hgone
      cases hgone
    | some row' => exact ⟨row', rfl, hkeeps.step sid row row' hstep hstep'⟩
  refine ⟨?_, fun sid row' hstep' hid => ?_, fun hdone sid row' hstep' hid => ?_,
    fun sid row' hstep' hid hstatus => ?_, hexecution.dated h.dated⟩
  · rcases h.context with ⟨outs, hctx, houts⟩
    refine ⟨outs, by rw [hcontext, hexecution.triggerData, hctx], fun s entry => ?_⟩
    rw [houts]
    constructor
    · rintro ⟨sid, row, output, hstep, hid, rfl, hstatus, houtput, rfl⟩
      rcases hforth sid row hstep hid with ⟨row', hstep', hsame⟩
      exact ⟨sid, row', output, hstep', hsame.executionId.trans hid, hsame.stepId,
        hsame.completed.mpr hstatus, hsame.outputData.trans houtput, rfl⟩
    · rintro ⟨sid, row', output, hstep', hid, rfl, hstatus, houtput, rfl⟩
      rcases hback sid row' hstep' hid with ⟨row, hstep, hid, hsame⟩
      exact ⟨sid, row, output, hstep, hid, hsame.stepId.symm, hsame.completed.mp hstatus,
        hsame.outputData.symm.trans houtput, rfl⟩
  · rcases hback sid row' hstep' hid with ⟨row, hstep, hid, hsame⟩
    obtain ⟨houtput, hqueued, hrunning⟩ := h.settled sid row hstep hid
    refine ⟨fun hstatus => ?_, mt hsame.queued hqueued, mt hsame.running hrunning⟩
    rw [hsame.outputData]
    exact houtput (hsame.completed.mp hstatus)
  · rcases hback sid row' hstep' hid with ⟨row, hstep, hid, hsame⟩
    exact (h.completed (hcompleted hdone) sid row hstep hid).imp hsame.completed.mpr hsame.skipped
  · rcases hback sid row' hstep' hid with ⟨row, hstep, hid', hsame⟩
    rcases hkeeps.failed sid row row' e' hstep hstep' (hid ▸ hrow') hstatus with hold | hnew
    · exact hfailed (h.failed sid row hstep hid' hold)
    · exact hnew

/-- What is recorded of all runs. -/
def RunRecords (v : View) : Prop :=
  ∀ id (e : Execution), v (.execution id) = some e → RunRecord v id e

theorem RunRecords.effect (h : RunRecords v) (heffect : Effect libs settings copies v v')
    (hkeeps : KeepsResults v v') : RunRecords v' := by
  intro id e' hrow'
  cases hrow : v (.execution id) with
  | none => exact heffect.steps.recorded id e' hrow hrow'
  | some e => exact (h id e hrow).kept heffect hkeeps hrow hrow'

/-- No step waits for a worker. -/
theorem RunRecords.not_queued (h : RunRecords v) (hone : OneTenant v) {sid : Uuid}
    {row : StepExecution} (hrow : v (.step sid) = some row) : row.status ≠ .queued := by
  rcases hone (.step sid) row hrow (.execution row.executionId) List.mem_cons_self with ⟨e, he, -⟩
  exact ((h row.executionId e he).settled sid row hrow rfl).2.1

end

/-! ## Operations -/

section

variable {t : Rows Row}

theorem keepsResults_of_rewritten {t' : Rows Row} {g : (k : RowId) → Row k → Row k}
    (hrows : ∀ k, Rows.row t' k = (Rows.row t k).map (g k))
    (hexecution : ∀ id (e : Execution), Rows.row t (.execution id) = some e →
      let e' : Execution := g (.execution id) e
      e'.context = e.context ∧ (e'.status = .completed → e.status = .completed) ∧
        (e.status = .failed → e'.status = .failed))
    (hstep : ∀ sid (row : StepExecution), SameResult row (g (.step sid) row))
    (hfailed : ∀ sid (row : StepExecution) (e : Execution),
      Rows.row t (.execution row.executionId) = some e →
      (g (.step sid) row : StepExecution).status = .failed → row.status = .failed ∨
        (g (.execution row.executionId) e : Execution).status = .failed) :
    KeepsResults (Rows.row t) (Rows.row t') := by
  have hmap : ∀ {k row row'}, Rows.row t k = some row → Rows.row t' k = some row' →
      row' = g k row := by
    intro k row row' hrow hrow'
    rw [hrows, hrow] at hrow'
    exact (Option.some.inj hrow').symm
  refine ⟨fun id e e' hrow hrow' => ?_, fun sid row row' hrow hrow' => ?_,
    fun sid row row' e' hrow hrow' he' hstatus => ?_⟩
  · rw [hmap hrow hrow']
    exact hexecution id e hrow
  · rw [hmap hrow hrow']
    exact hstep sid row
  · obtain rfl := hmap hrow hrow'
    rw [(hstep sid row).executionId, hrows] at he'
    rcases Option.map_eq_some_iff.mp he' with ⟨e, he, rfl⟩
    exact hfailed sid row e he hstatus

theorem keepsResults_refl (v : View) : KeepsResults v v :=
  KeepsResults.of_same fun _ _ _ _ hrow hrow' => Option.some.inj (hrow'.symm.trans hrow)

theorem keepsResults_cancelExecution (executionId tenantId : Uuid) (env : Environment) :
    KeepsResults (Rows.row t) (Rows.row ((cancelExecution executionId tenantId).run
      ⟨⟨t, Session.fresh⟩, env⟩).2.db.committed) := by
  rcases committed_cancelExecution env t executionId tenantId with
    ⟨-, hkept⟩ | ⟨⟨execution, hrow, -, hstatus⟩, -, now, hrows⟩
  · rw [hkept]
    exact keepsResults_refl _
  · refine keepsResults_of_rewritten hrows (fun id e he => ?_) (fun sid row => ?_)
      fun sid row e _ hfailed => ?_
    · simp only [cancelledRow]
      split
      · rename_i hid
        subst hid
        rw [hrow] at he
        cases he
        refine ⟨rfl, fun hcancelled => ?_, fun hfailed => ?_⟩
        · cases hcancelled
        · simp [hfailed] at hstatus
      · exact ⟨rfl, fun h => h, fun h => h⟩
    · simp only [cancelledRow]
      split
      · rename_i hactive
        exact SameResult.ended rfl rfl rfl hactive.2 (.inl rfl)
      · exact SameResult.refl row
    · simp only [cancelledRow] at hfailed
      split at hfailed
      · cases hfailed
      · exact .inl hfailed

theorem keepsResults_cleanupStaleExecutions (env : Environment) :
    KeepsResults (Rows.row t) (Rows.row (cleanupStaleExecutions.run
      ⟨⟨t, Session.fresh⟩, env⟩).2.db.committed) := by
  rcases run_cleanupStaleExecutions t env with ⟨db', env', hrun, hrows⟩
  rw [hrun]
  refine keepsResults_of_rewritten hrows (fun id e _ => ?_) (fun sid row => ?_)
    fun sid row e he hfailed => ?_
  · simp only [cleanedRow]
    split
    · refine ⟨rfl, fun hfailed => ?_, fun _ => rfl⟩
      cases hfailed
    · exact ⟨rfl, fun h => h, fun h => h⟩
  · simp only [cleanedRow]
    split
    · rename_i hactive
      refine SameResult.ended rfl rfl rfl ?_ (.inr rfl)
      simpa [or_comm, or_assoc, or_left_comm] using hactive.2
    · exact SameResult.refl row
  · simp only [cleanedRow] at hfailed ⊢
    split at hfailed
    · rename_i hactive
      rw [he, Option.any_some] at hactive
      rw [if_pos hactive.1]
      exact .inr rfl
    · exact .inl hfailed

/-- A job finds no step that it could run: it raises, whatever the executors are, and commits
nothing. -/
theorem run_executeStepWith_idle
    (hidle : ∀ sid (row : StepExecution), Rows.row t (.step sid) = some row → row.status ≠ .queued)
    (stepExecutionId executionId : String) (env : Environment) :
    ∃ exc db' env', (∀ executors, (executeStepWith executors stepExecutionId executionId).run
        ⟨⟨t, Session.fresh⟩, env⟩ = (.error (.exception exc), ⟨db', env'⟩)) ∧
      env.Later [] env' ∧ db'.committed = t :=
  run_executeStepWith_not_ready
    (fun se _ row _ _ _ _ hready => hidle se row hready.step hready.queued) env

end

/-! ## Management -/

section

variable {libs : Libraries} {settings : Settings} {t t' : Rows Row}

theorem StoresAtMost.keepsResults (h : StoresAtMost libs settings t t') :
    KeepsResults (Rows.row t) (Rows.row t') := by
  rcases h with rfl | ⟨id, row, -, hputs⟩
  · exact keepsResults_refl _
  · refine KeepsResults.of_same fun k hrun row row' hrow hrow' => ?_
    rw [hputs.others k (by rintro rfl; cases hrun), hrow] at hrow'
    exact (Option.some.inj hrow').symm

theorem keepsResults_deleteWorkflow (workflowId tenantId : Uuid) (env : Environment) :
    KeepsResults (Rows.row t) (Rows.row ((deleteWorkflow workflowId tenantId).run
      ⟨⟨t, Session.fresh⟩, env⟩).2.db.committed) := by
  show KeepsResults _ (Rows.row ((bareDatabase t).session env (deleteWorkflow workflowId tenantId)).2)
  cases hfound : (bareDatabase t).tenantWorkflow workflowId tenantId with
  | none =>
    rw [Database.session_deleteWorkflow_missing hfound]
    exact keepsResults_refl _
  | some workflow =>
    rcases Database.session_deleteWorkflow_ok hfound env with ⟨executions, t', -, hsession, hrows⟩
    rw [hsession]
    rw [show (bareDatabase t).rows = t from rfl] at hrows
    have hleft : ∀ {k row row'}, Rows.row t k = some row → Rows.row t' k = some row' →
        row' = forget executions k row := by
      intro k row row' hrow hrow'
      rw [hrows, hrow] at hrow'
      exact (forgottenRow_eq_some.mp hrow').1
    refine ⟨fun id e e' hrow hrow' => ?_, fun sid row row' hrow hrow' => ?_,
      fun sid row row' e' hrow hrow' _ hfailed => ?_⟩
    · rw [hleft hrow hrow']
      exact ⟨rfl, fun h => h, fun h => h⟩
    · rw [hleft hrow hrow']
      exact SameResult.refl row
    · rw [hleft hrow hrow'] at hfailed
      exact .inl hfailed

theorem keepsResults_pruneWebhookDeliveries (createdAt : RowId → Time) (env : Environment) :
    KeepsResults (Rows.row t) (Rows.row ((pruneWebhookDeliveries createdAt).run
      ⟨⟨t, Session.fresh⟩, env⟩).2.db.committed) := by
  let old := isOldDelivery createdAt (env.clock env.readings - webhookRetention)
  unfold pruneWebhookDeliveries
  rw [Prog.run_bind_ok (run_utcNow _)]
  rcases run_deleteWhere old ⟨t, Session.fresh⟩ { env with readings := env.readings + 1 } with
    ⟨db', hrun, hrewrites⟩
  rw [Prog.run_bind_ok hrun]
  show KeepsResults _ db'.view
  refine KeepsResults.of_same fun k _ row row' hrow hrow' => ?_
  rw [hrewrites.view, view_opened, hrow, Option.bind_some] at hrow'
  unfold remainingRow at hrow'
  split at hrow'
  · cases hrow'
  · exact (Option.some.inj hrow').symm

end

/-! ## The runs of the application -/

/-- What the application and its worker run.  The state machine has no route of its own. -/
def Entry.Served : Entry → Prop
  | .operation (.transitionExecution _ _) => False
  | .operation (.transitionStep _ _ _) => False
  | _ => True

/-- A step of the application or of its worker. -/
inductive Engine.Serves (libs : Libraries) (settings : Settings) (wire : Wire) :
    Engine → Engine → Prop
  | entry {s : Engine} (entry : Entry) (session : SessionRef) (fuel : Nat) (env : Environment)
      (hoffers : s.Offers entry) (hserved : entry.Served) :
      Engine.Serves libs settings wire s
        (s.after env (entry.program libs settings wire session fuel))
  /-- The process remembers or forgets something. -/
  | remember {s s' : Engine} (hstep : Engine.Step libs settings wire s s')
      (hrows : s'.rows = s.rows) : Engine.Serves libs settings wire s s'

/-- The executors, with a note of each call before it is carried out.  The worker knows the type
and the config of a step, and not its other columns. -/
def noting (step : StepDefinition) (executors : Executors) : Executors :=
  fun caller type config vars => do
    observeInvoke caller ⟨{ step with type := type, config := config }, vars⟩
    executors caller type config vars

/-- The states that the application and its worker reach from the empty database. -/
def Engine.Served (libs : Libraries) (settings : Settings) (wire : Wire) (s : Engine) : Prop :=
  Relation.ReflTransGen (Engine.Serves libs settings wire) .initial s

section

variable {libs : Libraries} {settings : Settings} {wire : Wire} {s s' : Engine}

theorem Engine.Serves.step (h : Engine.Serves libs settings wire s s') :
    Engine.Step libs settings wire s s' := by
  cases h with
  | entry entry session fuel env hoffers _ => exact .entry entry session fuel env hoffers
  | remember hstep _ => exact hstep

theorem Engine.Served.reachable (h : Engine.Served libs settings wire s) :
    Engine.Reachable libs settings wire s := by
  unfold Engine.Served at h
  induction h with
  | refl => exact .refl
  | tail _ hserves ih => exact ih.tail hserves.step

/-- An entry keeps the results, as long as no step waits for a worker. -/
theorem keepsResults_entry (hsound : s.Sound) (hidle : ∀ sid (row : StepExecution),
      Rows.row s.rows (.step sid) = some row → row.status ≠ .queued) {entry : Entry}
    (hoffers : s.Offers entry) (hserved : entry.Served) (session : SessionRef) (fuel : Nat)
    (env : Environment) :
    KeepsResults (Rows.row s.rows)
      (Rows.row (s.after env (entry.program libs settings wire session fuel)).rows) := by
  show KeepsResults _ (Rows.row ((entry.program libs settings wire session fuel).run
    ⟨⟨s.rows, Session.fresh⟩, env⟩).2.db.committed)
  cases entry with
  | trigger trigger =>
    have htriggered : ∃ owner, Triggered libs settings (s.CopiesFor (.trigger trigger)) owner
        (Rows.row s.rows) (Rows.row
          (s.after env ((Entry.trigger trigger).program libs settings wire session fuel)).rows) :=
      hsound.triggered hoffers session fuel env
    rcases htriggered with ⟨owner, htriggered⟩
    refine KeepsResults.of_same fun k _ row row' hrow hrow' => ?_
    exact Option.some.inj (hrow'.symm.trans (htriggered.appends.kept k row hrow))
  | operation operation =>
    cases operation with
    | cancelExecution executionId tenantId => exact keepsResults_cancelExecution executionId tenantId env
    | cleanupStaleExecutions =>
      rw [Entry.program, Operation.program, Prog.run_discard]
      exact keepsResults_cleanupStaleExecutions env
    | executeStep stepExecutionId executionId =>
      rw [Entry.program, Operation.program, Prog.run_discard]
      rcases run_executeStepWith_idle hidle stepExecutionId executionId env with
        ⟨exc, db', env', hrun, -, hcommitted⟩
      rw [executeStep, hrun, hcommitted]
      exact keepsResults_refl _
    | transitionExecution executionId new => cases hserved
    | transitionStep stepExecId new error => cases hserved
  | createWorkflow body tenantId generated =>
    rw [Entry.program, Prog.run_discard]
    exact (storesAtMost_createWorkflow body tenantId generated env).keepsResults
  | updateWorkflow body workflowId tenantId generated =>
    rw [Entry.program, Prog.run_discard]
    exact (storesAtMost_updateWorkflow body workflowId tenantId generated env).keepsResults
  | deleteWorkflow workflowId tenantId => exact keepsResults_deleteWorkflow workflowId tenantId env
  | pruneWebhookDeliveries createdAt =>
    rw [Entry.program, Prog.run_discard]
    exact keepsResults_pruneWebhookDeliveries createdAt env

theorem Engine.Serves.runRecords (hsound : s.Sound) (h : Engine.Serves libs settings wire s s')
    (hrecords : RunRecords (Rows.row s.rows)) : RunRecords (Rows.row s'.rows) := by
  cases h with
  | entry entry session fuel env hoffers hserved =>
    have hidle : ∀ sid (row : StepExecution), Rows.row s.rows (.step sid) = some row →
        row.status ≠ .queued := fun _ _ hrow => hrecords.not_queued hsound.oneTenant hrow
    exact hrecords.effect (hsound.effect hoffers session fuel env)
      (keepsResults_entry hsound hidle hoffers hserved session fuel env)
  | remember hstep hrows =>
    rw [hrows]
    exact hrecords

theorem Engine.Served.runRecords (h : Engine.Served libs settings wire s) :
    RunRecords (Rows.row s.rows) := by
  unfold Engine.Served at h
  induction h with
  | refl => exact fun _ _ hrow => by simp [Engine.initial, Rows.row] at hrow
  | tail hserved hserves ih =>
    have hreached : Engine.Reachable libs settings wire _ := Engine.Served.reachable hserved
    exact hserves.runRecords (Engine.Reachable.sound hreached) ih

/-- In every state that the application and its worker reach, one operation after another, the
context of an execution consists of its trigger data and, under the step id, the output of each
of its completed steps; all steps of a completed execution are completed or skipped, and only a
failed execution has failed steps. -/
theorem results_of_served (h : Engine.Served libs settings wire s) {id : Uuid} {e : Execution}
    (hrow : Rows.row s.rows (.execution id) = some e) :
    (∃ outs, e.context = [("trigger", .obj e.triggerData), ("steps", .obj outs)] ∧
      ∀ stepId entry, Dict.get? outs stepId = some entry ↔
        ∃ sid, ∃ row : StepExecution, ∃ output, Rows.row s.rows (.step sid) = some row ∧
          row.executionId = id ∧ row.stepId = stepId ∧ row.status = .completed ∧
            row.outputData = some output ∧ entry = .obj [("output", .obj output)]) ∧
    ∀ sid (row : StepExecution), Rows.row s.rows (.step sid) = some row → row.executionId = id →
      (row.status = .completed → row.outputData.isSome = true) ∧
        (e.status = .completed → row.status = .completed ∨ row.status = .skipped) ∧
          (row.status = .failed → e.status = .failed) := by
  have hrecord := h.runRecords id e hrow
  exact ⟨hrecord.context, fun sid row hstep hid => ⟨(hrecord.settled sid row hstep hid).1,
    fun hdone => hrecord.completed hdone sid row hstep hid, hrecord.failed sid row hstep hid⟩⟩

/-- In every state that the application and its worker reach, no step is queued.  So a job of
the worker has nothing to do: whatever step, execution and tenant it names, it raises and commits
nothing, and it ends so too when each call of an executor is noted, with nothing noted. -/
theorem worker_idle_of_served (h : Engine.Served libs settings wire s) (session : SessionRef)
    (fuel : Nat) (step : StepDefinition) (stepExecutionId executionId : String)
    (env : Environment) :
    (∀ sid (row : StepExecution), Rows.row s.rows (.step sid) = some row → row.status ≠ .queued) ∧
    ∃ exc db' env',
      (executeStep libs settings (nestedStart libs settings session fuel) stepExecutionId
        executionId).run ⟨⟨s.rows, Session.fresh⟩, env⟩ = (.error (.exception exc), ⟨db', env'⟩) ∧
      (executeStepWith (noting step (stepRegistry libs settings (nestedStart libs settings session
        fuel))) stepExecutionId executionId).run ⟨⟨s.rows, Session.fresh⟩, env⟩ =
          (.error (.exception exc), ⟨db', env'⟩) ∧
      env.Later [] env' ∧ db'.committed = s.rows := by
  have hone := (Engine.Reachable.sound h.reachable).oneTenant
  have hidle : ∀ sid (row : StepExecution), Rows.row s.rows (.step sid) = some row →
      row.status ≠ .queued := fun _ _ hrow => h.runRecords.not_queued hone hrow
  rcases run_executeStepWith_idle hidle stepExecutionId executionId env with
    ⟨exc, db', env', hrun, hlater, hcommitted⟩
  exact ⟨hidle, exc, db', env', hrun _, hrun _, hlater, hcommitted⟩

end

theorem Engine.Served.afterEntry {s : Engine} (h : Engine.Served plainLibraries {} plainWire s)
    {entry : Entry} (hoffers : s.Offers entry) (hserved : entry.Served) :
    Engine.Served plainLibraries {} plainWire (s.afterEntry entry) :=
  Relation.ReflTransGen.tail h (.entry entry 0 0 Engine.quietEnvironment hoffers hserved)

theorem Engine.served_replayedEngine :
    Engine.Served plainLibraries {} plainWire Engine.replayedEngine := by
  have hempty : Engine.Served plainLibraries {} plainWire .initial := .refl
  unfold Engine.replayedEngine
  apply Engine.Served.afterEntry
  · apply Engine.Served.afterEntry
    · exact hempty.afterEntry trivial trivial
    · exact nofun
    · exact trivial
  · exact trivial
  · exact trivial

/-- The output of the step is in the context of the replay. -/
theorem results_replayedEngine : ∃ e : Execution,
    Rows.row Engine.replayedEngine.rows (.execution 11) = some e ∧
      ∃ outs, e.context = [("trigger", .obj e.triggerData), ("steps", .obj outs)] ∧
        (Dict.get? outs "only").isSome = true := by
  have hfound : (Rows.row Engine.replayedEngine.rows (.execution 11)).isSome = true := by
    decide +kernel
  rcases Option.isSome_iff_exists.mp hfound with ⟨e, hrow⟩
  have hdone : (Rows.row Engine.replayedEngine.rows (.step 12)).any (fun row : StepExecution =>
      row.executionId = 11 && row.stepId = "only" && row.status = .completed &&
        row.outputData.isSome) = true := by
    decide +kernel
  rcases (Option.any_eq_true _ _).mp hdone with ⟨row, hstep, hall⟩
  simp only [Bool.and_eq_true, decide_eq_true_eq] at hall
  obtain ⟨⟨⟨hid, hname⟩, hstatus⟩, houtput⟩ := hall
  rcases Option.isSome_iff_exists.mp houtput with ⟨output, houtput⟩
  rcases (results_of_served Engine.served_replayedEngine hrow).1 with ⟨outs, hcontext, houts⟩
  refine ⟨e, hrow, outs, hcontext, ?_⟩
  rw [(houts "only" _).mpr ⟨12, row, output, hstep, hid, hname, hstatus, houtput, rfl⟩]
  rfl

/-- The step of the replay is not run again. -/
theorem worker_idle_replayedEngine : ∃ exc db' env',
    (executeStepWith (noting (plainStep "only" .transform [] [] (by decide))
        (stepRegistry plainLibraries {} (nestedStart plainLibraries {} 0 0))) (Uuid.toText 12)
        (Uuid.toText 11)).run ⟨⟨Engine.replayedEngine.rows, Session.fresh⟩, Engine.quietEnvironment⟩ =
          (.error (.exception exc), ⟨db', env'⟩) ∧
      Engine.quietEnvironment.Later [] env' ∧ db'.committed = Engine.replayedEngine.rows := by
  rcases (worker_idle_of_served Engine.served_replayedEngine 0 0
    (plainStep "only" .transform [] [] (by decide)) (Uuid.toText 12) (Uuid.toText 11)
    Engine.quietEnvironment).2 with ⟨exc, db', env', -, hnoted, hlater, hcommitted⟩
  exact ⟨exc, db', env', hnoted, hlater, hcommitted⟩

end WorkflowEngine

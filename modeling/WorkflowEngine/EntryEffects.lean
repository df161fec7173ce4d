import WorkflowEngine.Effects
import WorkflowEngine.Management
import WorkflowEngine.StepTask

/-!
# The effect of every entry

The operations and the management routes have effects too, so that each step of the engine
is one.
-/

namespace WorkflowEngine

open Py Orm Interact

section

variable {libs : Libraries} {settings : Settings} {copies : Uuid → Workflow → Prop}
  {t t' : Rows Row}

/-! ## Operations -/

/-- Two rows of one run are rewritten. -/
theorem Effect.of_sameBut {se ex : Uuid} (hsame : SameBut se ex t t')
    (hstep : Rows.row t (.step se) ≠ none) (hexecution : Rows.row t (.execution ex) ≠ none)
    (hdescends : Descends (Rows.row t) (Rows.row t')) :
    Effect libs settings copies (Rows.row t) (Rows.row t') := by
  refine Effect.of_descends (fun k hrun => hsame k ?_ ?_) (fun k _ hnone => ?_) hdescends
  · rintro rfl
    exact hrun trivial
  · rintro rfl
    exact hrun trivial
  · refine (hsame k ?_ ?_).trans hnone
    · rintro rfl
      exact hstep hnone
    · rintro rfl
      exact hexecution hnone

/-- The rows are rewritten, and none comes or goes. -/
theorem Effect.of_rewritten {g : (k : RowId) → Row k → Row k}
    (hrows : ∀ k, Rows.row t' k = (Rows.row t k).map (g k))
    (horigin : ∀ k row, OfRun k → Lasts row (g k row)) (hothers : ∀ k row, ¬ OfRun k → g k row = row) :
    Effect libs settings copies (Rows.row t) (Rows.row t') := by
  refine Effect.of_descends (fun k hrun => ?_) (fun k _ hnone => ?_) (fun k hrun row hrow => ?_)
  · rw [hrows, funext fun row => hothers k row hrun]
    exact Option.map_id'
  · rw [hrows, hnone]
    rfl
  · exact ⟨g k row, by rw [hrows, hrow]; rfl, horigin k row hrun⟩

theorem lasts_cancelledRow (executionId : Uuid) (now : Time) (k : RowId) (row : Row k) :
    Lasts row (cancelledRow executionId now k row) := by
  cases k with
  | execution id =>
    simp only [cancelledRow]
    split
    · exact lasts_ended rfl rfl
    · exact Lasts.refl (k := .execution id) row
  | step id =>
    simp only [cancelledRow]
    split <;> exact lasts_step rfl
  | workflow id => exact Lasts.refl (k := .workflow id) row
  | delivery id => exact Lasts.refl (k := .delivery id) row

theorem effect_cancelExecution (executionId tenantId : Uuid) (env : Environment) :
    Effect libs settings copies (Rows.row t) (Rows.row ((cancelExecution executionId tenantId).run
      ⟨⟨t, Session.fresh⟩, env⟩).2.db.committed) := by
  rcases committed_cancelExecution env t executionId tenantId with ⟨-, hkept⟩ | ⟨-, -, now, hrows⟩
  · rw [hkept]
    exact Effect.refl _
  · refine Effect.of_rewritten hrows (fun k row _ => lasts_cancelledRow executionId now k row) ?_
    intro k row hrun
    cases k with
    | workflow id => rfl
    | delivery id => rfl
    | execution id => exact absurd trivial hrun
    | step id => exact absurd trivial hrun

/-- What a clean-up does to a row: a stale execution fails, and so do its unfinished steps. -/
def cleanedRow (t : Rows Row) (cutoff now : Time) : (k : RowId) → Row k → Row k
  | .execution id, row =>
    if isStale cutoff (.execution id) row then failExecution now (.execution id) row else row
  | .step id, row =>
    if (Rows.row t (.execution row.executionId)).any (isStale cutoff (.execution row.executionId)) ∧
        row.status ∈ [StepStatus.pending, .running, .queued] then
      failStep now (.step id) row
    else row
  | .workflow _, row => row
  | .delivery _, row => row

theorem lasts_cleanedRow (t : Rows Row) (cutoff now : Time) (k : RowId) (row : Row k) :
    Lasts row (cleanedRow t cutoff now k row) := by
  cases k with
  | execution id =>
    simp only [cleanedRow]
    split
    · exact lasts_ended rfl rfl
    · exact Lasts.refl (k := .execution id) row
  | step id =>
    simp only [cleanedRow]
    split
    · exact lasts_step rfl
    · exact Lasts.refl (k := .step id) row
  | workflow id => exact Lasts.refl (k := .workflow id) row
  | delivery id => exact Lasts.refl (k := .delivery id) row

/-- The clean-up returns the number of stale executions, and rewrites them and their steps. -/
theorem run_cleanupStaleExecutions (t : Rows Row) (env : Environment) :
    ∃ db' env', cleanupStaleExecutions.run ⟨⟨t, Session.fresh⟩, env⟩ =
        (.ok (DbState.matching (⟨t, Session.fresh⟩ : Db)
          (isStale (env.clock env.readings - staleThreshold))).length, ⟨db', env'⟩) ∧
      ∀ k, Rows.row db'.committed k = (Rows.row t k).map
        (cleanedRow t (env.clock env.readings - staleThreshold) (env.clock (env.readings + 1)) k) := by
  let now := env.clock (env.readings + 1)
  let cutoff := env.clock env.readings - staleThreshold
  let stale := DbState.matching (⟨t, Session.fresh⟩ : Db) (isStale cutoff)
  have hstale : ∀ k, k ∈ stale ↔ ∃ row, Rows.row t k = some row ∧ isStale cutoff k row = true :=
    fun k => DbState.mem_matching.trans (by rw [view_opened])
  have hrewritten : ∀ k row, Rows.row t k = some row →
      (updatedRow (isListed stale) (failExecution now) k row).bind
        (updatedRow (isUnfinished stale) (failStep now) k) = some (cleanedRow t cutoff now k row) := by
    intro k row hrow
    cases k with
    | workflow id => rfl
    | delivery id => rfl
    | execution id =>
      have hlisted : .execution id ∈ stale ↔ isStale cutoff (.execution id) row = true := by
        rw [hstale]
        constructor
        · rintro ⟨row', hrow', hp⟩
          rw [hrow] at hrow'
          cases hrow'
          exact hp
        · exact fun hp => ⟨row, hrow, hp⟩
      by_cases hp : .execution id ∈ stale
      · simp [updatedRow, isListed, isUnfinished, cleanedRow, hp, hlisted.mp hp]
      · simp [updatedRow, isListed, isUnfinished, cleanedRow, hp, mt hlisted.mpr hp]
    | step id =>
      have hlisted : .execution (StepExecution.executionId row) ∈ stale ↔
          (Rows.row t (.execution (StepExecution.executionId row))).any (isStale cutoff _) = true := by
        rw [hstale, Option.any_eq_true]
      by_cases hp : .execution (StepExecution.executionId row) ∈ stale
      · simp [updatedRow, isListed, isUnfinished, cleanedRow, hp, hlisted.mp hp]
      · simp [updatedRow, isListed, isUnfinished, cleanedRow, hp, mt hlisted.mpr hp]
  unfold cleanupStaleExecutions
  rw [Prog.run_bind_ok (run_utcNow _), Prog.run_bind_ok (run_utcNow _), run_selectWhere_bind]
  split
  · rename_i hempty
    have hnil : stale = [] := List.isEmpty_iff.mp hempty
    refine ⟨_, _, Prod.ext (congrArg (fun l : List RowId => Except.ok l.length) hnil.symm) rfl, ?_⟩
    intro k
    show Rows.row (DbState.loadAll _ _).committed k = _
    rw [DbState.committed_loadAll]
    cases hrow : Rows.row t k with
    | none => rfl
    | some row =>
      have hunlisted : ∀ k row, isListed [] k row = false ∧ isUnfinished [] k row = false := by
        intro k row
        cases k <;> simp [isListed, isUnfinished]
      have hsame := hrewritten k row hrow
      simp only [hnil, updatedRow, hunlisted, Bool.false_eq_true, if_false, Option.bind_some] at hsame
      exact hsame
  · let db : Db := DbState.loadAll ⟨t, Session.fresh⟩ stale
    rcases run_updateWhere (isListed stale) (failExecution now) db
      { env with readings := env.readings + 1 + 1 } with ⟨db₁, hrun₁, hrewrites₁⟩
    rcases run_updateWhere (isUnfinished stale) (failStep now) db₁
      { env with readings := env.readings + 1 + 1 } with ⟨db₂, hrun₂, hrewrites₂⟩
    rw [Prog.run_bind_ok hrun₁, Prog.run_bind_ok hrun₂]
    refine ⟨_, _, rfl, fun k => ?_⟩
    show db₂.view k = _
    rw [hrewrites₂.view, hrewrites₁.view, DbState.view_loadAll, view_opened]
    cases hrow : Rows.row t k with
    | none => rfl
    | some row => exact hrewritten k row hrow

theorem effect_cleanupStaleExecutions (env : Environment) :
    Effect libs settings copies (Rows.row t) (Rows.row (cleanupStaleExecutions.run
      ⟨⟨t, Session.fresh⟩, env⟩).2.db.committed) := by
  rcases run_cleanupStaleExecutions t env with ⟨db', env', hrun, hrows⟩
  rw [hrun]
  refine Effect.of_rewritten hrows (fun k row _ => lasts_cleanedRow t _ _ k row) fun k row hrun => ?_
  cases k with
  | workflow id => rfl
  | delivery id => rfl
  | execution id => exact absurd trivial hrun
  | step id => exact absurd trivial hrun

theorem effect_executeStep (start : Start) (stepExecutionId executionId : String)
    (hdescends : Descends (Rows.row t) (Rows.row ((executeStep libs settings start stepExecutionId
      executionId).run ⟨⟨t, Session.fresh⟩, env⟩).2.db.committed)) :
    Effect libs settings copies (Rows.row t) (Rows.row ((executeStep libs settings start stepExecutionId
      executionId).run ⟨⟨t, Session.fresh⟩, env⟩).2.db.committed) := by
  unfold executeStep at hdescends ⊢
  by_cases hready : ∃ se ex row e type, uuidOf (.str stepExecutionId) = .ok se ∧
      uuidOf (.str executionId) = .ok ex ∧ JobReady t se ex row e type
  · rcases hready with ⟨se, ex, row, e, type, hse, hex, hready⟩
    rcases run_executeStepWith_ready hready hse hex (stepRegistry libs settings start) env with
      ⟨db₁, env₁, -, hrun⟩
    rcases run_stepRegistry libs settings start ⟨ex, row.stepId⟩ type row.inputData e.context
      env₁.server env₁.events with ⟨result, hexecute⟩
    rcases hexecute ⟨db₁, env₁⟩ rfl rfl with ⟨env₂, hexecute, -⟩
    rcases hrun result env₂ hexecute with ⟨ended, db', env', hrun, -, hends⟩
    rw [hrun] at hdescends ⊢
    have hstep : Rows.row t (.step se) ≠ none := by simp [hready.step]
    have hexecution : Rows.row t (.execution ex) ≠ none := by simp [hready.execution]
    cases hends with
    | completed merge step status others => exact Effect.of_sameBut others hstep hexecution hdescends
    | failed step status others => exact Effect.of_sameBut others hstep hexecution hdescends
    | refused merge => exact Effect.refl _
  · rcases run_executeStepWith_not_ready (fun se ex row e type hse hex h =>
      hready ⟨se, ex, row, e, type, hse, hex, h⟩) env with
      ⟨exc, db', env', hrun, -, hcommitted⟩
    rw [hrun, hcommitted]
    exact Effect.refl _

/-- One row of a run is assigned, and committed. -/
theorem Effect.of_assigned {db : Db} {k : RowId} {row row' : Row k} (hrun : OfRun k)
    (hrow : Rows.row t k = some row) (hsame : Lasts row row')
    (h : Assigned ⟨t, Session.fresh⟩ db k row') :
    Effect libs settings copies (Rows.row t) (Rows.row db.commit.committed) := by
  have hothers : ∀ k', k' ≠ k → db.view k' = Rows.row t k' :=
    fun k' hk => (h.others k' hk).trans (congrFun (view_opened t) k')
  show Effect libs settings copies _ db.view
  refine Effect.of_descends (fun k' hnot => hothers k' ?_)
    (fun k' _ hnone => hothers k' ?_ |>.trans hnone) ?_
  · rintro rfl
    exact hnot hrun
  · rintro rfl
    rw [hrow] at hnone
    cases hnone
  · intro k' _ old hold
    by_cases hk : k' = k
    · subst hk
      rw [hrow] at hold
      cases hold
      exact ⟨row', h.row, hsame⟩
    · exact ⟨old, (hothers k' hk).trans hold, Lasts.refl old⟩

theorem effect_transitionExecution (executionId : Uuid) (new : ExecutionStatus) (env : Environment) :
    Effect libs settings copies (Rows.row t) (Rows.row (Prog.run (do
      let _ ← transitionExecution executionId new
      commit : Prog Unit) ⟨⟨t, Session.fresh⟩, env⟩).2.db.committed) := by
  unfold transitionExecution
  cases hrow : Rows.row t (.execution executionId) with
  | none =>
    have hselect : (selectExecution executionId (fun _ => true)).run ⟨⟨t, Session.fresh⟩, env⟩ =
        (.ok none, ⟨⟨t, Session.fresh⟩, env⟩) := by
      rw [selectExecution, run_db, DbState.answer_select_none fun row hsome => ?_]
      rw [view_opened, hrow] at hsome
      cases hsome
    rw [transitionExecutionWith, Script.bind_assoc, Prog.run_bind_ok hselect]
    exact Effect.refl _
  | some execution =>
    have hview : DbState.view ⟨t, Session.fresh⟩ (.execution executionId) = some execution :=
      (congrFun (view_opened t) _).trans hrow
    by_cases hnew : new ∈ allowedExecutionTransitions execution.status
    · rcases (Current.opened t).run_transitionExecutionWith env hview hnew flushAccepts rfl with
        ⟨db', env', e, hrun, hassigned⟩
      rw [Prog.run_bind_ok hrun]
      exact Effect.of_assigned (k := .execution executionId) trivial hrow
        (lasts_executionTransition hnew _) hassigned
    · rcases (Current.opened t).run_transitionExecutionWith_refused env hview hnew flushAccepts with
        ⟨db', hrun, hkept⟩
      rw [Prog.run_bind_error hrun]
      show Effect libs settings copies _ (Rows.row db'.committed)
      rw [hkept]
      exact Effect.refl _

theorem effect_transitionStep (stepExecId : Uuid) (new : StepStatus) (error : Option String)
    (env : Environment) :
    Effect libs settings copies (Rows.row t) (Rows.row (Prog.run (do
      let _ ← transitionStep stepExecId new error
      commit : Prog Unit) ⟨⟨t, Session.fresh⟩, env⟩).2.db.committed) := by
  cases hrow : Rows.row t (.step stepExecId) with
  | none =>
    have hselect : (selectStep stepExecId).run ⟨⟨t, Session.fresh⟩, env⟩ =
        (.ok none, ⟨⟨t, Session.fresh⟩, env⟩) := by
      rw [selectStep, run_db, DbState.answer_select_none fun row hsome => ?_]
      rw [view_opened, hrow] at hsome
      cases hsome
    rw [transitionStep, Script.bind_assoc, Prog.run_bind_ok hselect]
    exact Effect.refl _
  | some stepExec =>
    have hview : DbState.view ⟨t, Session.fresh⟩ (.step stepExecId) = some stepExec :=
      (congrFun (view_opened t) _).trans hrow
    by_cases hnew : new ∈ allowedStepTransitions stepExec.status
    · rcases (Current.opened t).run_transitionStep env hview hnew error with
        ⟨db', env', now, s, hrun, hassigned⟩
      have hlasts : Lasts (k := .step stepExecId) stepExec
          (stepTransition stepExec new now error stepExec) := lasts_step rfl
      rw [Prog.run_bind_ok hrun]
      exact Effect.of_assigned (k := .step stepExecId) trivial hrow hlasts hassigned
    · rcases (Current.opened t).select hview (p := fun _ => true) rfl with ⟨db', hanswer, hfetched⟩
      have hselect : (selectStep stepExecId).run ⟨⟨t, Session.fresh⟩, env⟩ =
          (.ok (some stepExec), ⟨db', env⟩) := by
        rw [selectStep, run_db, hanswer]
      rw [transitionStep, Script.bind_assoc, Prog.run_bind_ok hselect]
      simp only [validateStepTransition, if_neg hnew]
      show Effect libs settings copies _ (Rows.row db'.committed)
      rw [hfetched.committed]
      exact Effect.refl _

/-! ## Management -/

/-- A workflow is stored. -/
theorem Effect.of_puts {id : Uuid} {row : Workflow} (hstores : Stores libs settings (Rows.row t) id row)
    (hputs : Puts t t' (.workflow id) row) : Effect libs settings copies (Rows.row t) (Rows.row t') := by
  have hothers : ∀ k, (∀ id, k ≠ .workflow id) → Rows.row t' k = Rows.row t k :=
    fun k hk => hputs.others k (hk id)
  have hsame : Effect libs settings copies (Rows.row t) (Rows.row t) := Effect.refl _
  refine ⟨fun id' row' hrow => ?_, fun id' e hnone hrow => ?_, fun id' e e' hrow hrow' => ?_,
    fun id' e hrow hactive => ?_, fun id' d hnone hrow => ?_,
    fun id' id'' d d' hnone hnone' hrow hrow' => ?_, fun id' d d' hrow hrow' => ?_,
    fun id' e hrow hgone => ?_,
    StepsEffect.of_same fun k hrun => hothers k fun id heq => by subst heq; cases hrun⟩
  · by_cases hid : id' = id
    · subst hid
      rw [hputs.row] at hrow
      cases hrow
      exact .inr hstores
    · exact .inl ((hputs.others (.workflow id') (by simpa using hid)).symm.trans hrow)
  · rw [hothers (.execution id') nofun, hnone] at hrow
    cases hrow
  · rw [hothers (.execution id') nofun, hrow] at hrow'
    cases hrow'
    exact KeepsExecution.refl _ e
  · rw [hothers (.execution id') nofun] at hrow
    exact .inl ⟨e, hrow, hactive⟩
  · rw [hothers (.delivery id') nofun, hnone] at hrow
    cases hrow
  · rw [hothers (.delivery id') nofun, hnone] at hrow
    cases hrow
  · rw [hothers (.delivery id') nofun, hrow] at hrow'
    cases hrow'
    exact KeepsDelivery.refl _ d
  · rw [hothers (.execution id') nofun, hrow] at hgone
    cases hgone

/-- The database with these rows and no other columns. -/
def bareDatabase (t : Rows Row) : Database := ⟨t, fun _ => ⟨none, [], 0, 0⟩, fun _ => 0, ∅, ∅⟩

/-- A workflow is stored, or nothing happens. -/
def StoresAtMost (libs : Libraries) (settings : Settings) (t t' : Rows Row) : Prop :=
  t' = t ∨ ∃ id row, Stores libs settings (Rows.row t) id row ∧ Puts t t' (.workflow id) row

theorem StoresAtMost.effect (h : StoresAtMost libs settings t t') :
    Effect libs settings copies (Rows.row t) (Rows.row t') := by
  rcases h with rfl | ⟨id, row, hstores, hputs⟩
  · exact Effect.refl _
  · exact Effect.of_puts hstores hputs

theorem storesAtMost_createWorkflow (body : WorkflowCreateRequest) (tenantId generated : Uuid)
    (env : Environment) :
    StoresAtMost libs settings t ((createWorkflow libs settings body tenantId generated).run
      ⟨⟨t, Session.fresh⟩, env⟩).2.db.committed := by
  show StoresAtMost libs settings t ((bareDatabase t).session env
    (createWorkflow libs settings body tenantId generated)).2
  cases hparse : parseWorkflowDefinition libs settings
      ⟨body.name, body.triggerType, body.steps.map .obj⟩ with
  | ok definition =>
    have hcreated : ∃ t', (bareDatabase t).session env (createWorkflow libs settings body tenantId
        generated) = (.ok ((bareDatabase t).nextUuid, body.row tenantId generated), t') ∧
          Puts t t' (.workflow (bareDatabase t).nextUuid) (body.row tenantId generated) :=
      (bareDatabase t).session_createWorkflow_ok env hparse
    rcases hcreated with ⟨t', hsession, hputs⟩
    rw [hsession]
    exact .inr ⟨_, _, .created body tenantId generated hparse, hputs⟩
  | error exc =>
    rw [(bareDatabase t).session_createWorkflow_error env hparse]
    exact .inl rfl

theorem storesAtMost_updateWorkflow (body : WorkflowUpdateRequest)
    (workflowId tenantId generated : Uuid) (env : Environment) :
    StoresAtMost libs settings t ((updateWorkflow libs settings body workflowId tenantId
      generated).run ⟨⟨t, Session.fresh⟩, env⟩).2.db.committed := by
  show StoresAtMost libs settings t ((bareDatabase t).session env
    (updateWorkflow libs settings body workflowId tenantId generated)).2
  cases hfound : (bareDatabase t).tenantWorkflow workflowId tenantId with
  | none =>
    rw [Database.session_updateWorkflow_missing hfound]
    exact .inl rfl
  | some workflow =>
    have hrow : Rows.row t (.workflow workflowId) = some workflow :=
      (Option.filter_eq_some_iff.mp hfound).1
    cases hcheck : body.check libs settings workflow with
    | ok _ =>
      have hupdated : ∃ t', (bareDatabase t).session env (updateWorkflow libs settings body workflowId
          tenantId generated) = (.ok (body.assign generated workflow workflow), t') ∧
            Puts t t' (.workflow workflowId) (body.assign generated workflow workflow) :=
        Database.session_updateWorkflow_ok hfound env hcheck
      rcases hupdated with ⟨t', hsession, hputs⟩
      rw [hsession]
      exact .inr ⟨_, _, .updated body generated hrow hcheck, hputs⟩
    | error exc =>
      rw [Database.session_updateWorkflow_error hfound env hcheck]
      exact .inl rfl

/-- A reference to an execution of the deleted workflow is forgotten with it. -/
theorem keepsReference_setNull {executions : List RowId}
    (hgone : ∀ id, (.execution id : RowId) ∈ executions → Rows.row t' (.execution id) = none)
    (executionId : Option Uuid) :
    KeepsReference (Rows.row t') executionId (setNull executions executionId) := by
  cases executionId with
  | none => exact .inl rfl
  | some id =>
    by_cases hid : (.execution id : RowId) ∈ executions
    · refine .inr ⟨?_, id, rfl, hgone id hid⟩
      simp [setNull, hid]
    · left
      simp [setNull, hid]

theorem effect_deleteWorkflow (workflowId tenantId : Uuid) (env : Environment) :
    Effect libs settings copies (Rows.row t) (Rows.row ((deleteWorkflow workflowId tenantId).run
      ⟨⟨t, Session.fresh⟩, env⟩).2.db.committed) := by
  show Effect libs settings copies _ (Rows.row ((bareDatabase t).session env
    (deleteWorkflow workflowId tenantId)).2)
  cases hfound : (bareDatabase t).tenantWorkflow workflowId tenantId with
  | none =>
    rw [Database.session_deleteWorkflow_missing hfound]
    exact Effect.refl _
  | some workflow =>
    rcases Database.session_deleteWorkflow_ok hfound env with ⟨executions, t', hlists, hsession, hrows⟩
    rw [hsession]
    show Effect libs settings copies (Rows.row t) (Rows.row t')
    rw [show (bareDatabase t).rows = t from rfl] at hrows
    have hleft : ∀ {k row'}, Rows.row t' k = some row' → ∃ row, Rows.row t k = some row ∧
        row' = forget executions k row ∧ cascades workflowId executions k row' = false := by
      intro k row' hrow'
      rw [hrows] at hrow'
      rcases Option.bind_eq_some_iff.mp hrow' with ⟨row, hrow, hforgotten⟩
      exact ⟨row, hrow, forgottenRow_eq_some.mp hforgotten⟩
    have hgone : ∀ id, (.execution id : RowId) ∈ executions → Rows.row t' (.execution id) = none := by
      intro id hid
      rcases (hlists _).mp hid with ⟨row, hrow, hof⟩
      rw [Option.eq_none_iff_forall_not_mem]
      intro row' hrow'
      rcases hleft hrow' with ⟨row'', hrow'', rfl, hkept⟩
      rw [show Rows.row t (.execution id) = some row from hrow] at hrow''
      cases hrow''
      have hworkflow : row.workflowId = workflowId := of_decide_eq_true hof
      exact of_decide_eq_false hkept hworkflow
    refine ⟨fun id row' hrow' => ?_, fun id e hnone hrow' => ?_, fun id e e' hrow hrow' => ?_,
      fun id e' hrow' hactive => ?_, fun id d hnone hrow' => ?_,
      fun id id' d d' hnone hnone' hrow' hrow'' => ?_, fun id d d' hrow hrow' => ?_,
      fun id e hrow hnone => ?_, StepsEffect.of_kept (fun k _ hnone => ?_)
        (fun sid row row' hrow hrow' => ?_) fun sid row hrow hnone => ?_⟩
    · rcases hleft hrow' with ⟨row, hrow, rfl, -⟩
      exact .inl hrow
    · rcases hleft hrow' with ⟨row, hrow, -⟩
      rw [hnone] at hrow
      cases hrow
    · rcases hleft hrow' with ⟨row, hold, rfl, -⟩
      rw [hrow] at hold
      cases hold
      exact ⟨rfl, rfl, rfl, keepsReference_setNull hgone e.replayedFrom, fun h => h, fun h => h⟩
    · rcases hleft hrow' with ⟨row, hrow, rfl, -⟩
      exact .inl ⟨row, hrow, hactive⟩
    · rcases hleft hrow' with ⟨row, hrow, -⟩
      rw [hnone] at hrow
      cases hrow
    · rcases hleft hrow' with ⟨row, hrow, -⟩
      rw [hnone] at hrow
      cases hrow
    · rcases hleft hrow' with ⟨row, hold, rfl, -⟩
      rw [hrow] at hold
      cases hold
      exact ⟨rfl, keepsReference_setNull hgone d.executionId⟩
    · have hworkflow : e.workflowId = workflowId := by
        by_contra hne
        rw [hrows, hrow, Option.bind_some] at hnone
        have hkept : forgottenRow workflowId executions (.execution id) e =
            some (forget executions (.execution id) e) :=
          forgottenRow_eq_some.mpr ⟨rfl, decide_eq_false hne⟩
        rw [hkept] at hnone
        cases hnone
      constructor
      · intro id' e' hrow'
        rcases hleft hrow' with ⟨row, -, -, hkept⟩
        rw [hworkflow]
        exact of_decide_eq_false hkept
      · intro id' d hrow'
        rcases hleft hrow' with ⟨row, -, -, hkept⟩
        rw [hworkflow]
        exact of_decide_eq_false hkept
    · rw [hrows, hnone]
      rfl
    · rcases hleft hrow' with ⟨old, hold, rfl, -⟩
      rw [hrow] at hold
      cases hold
      rfl
    · -- a step goes with its execution
      by_contra hexecution
      have hkept : (.execution row.executionId : RowId) ∉ executions :=
        fun hmem => hexecution (hgone row.executionId hmem)
      rw [hrows, hrow, Option.bind_some] at hnone
      have hforgotten : forgottenRow workflowId executions (.step sid) row =
          some (forget executions (.step sid) row) :=
        forgottenRow_eq_some.mpr ⟨rfl, decide_eq_false hkept⟩
      rw [hforgotten] at hnone
      cases hnone

theorem effect_pruneWebhookDeliveries (createdAt : RowId → Time) (env : Environment) :
    Effect libs settings copies (Rows.row t) (Rows.row ((pruneWebhookDeliveries createdAt).run
      ⟨⟨t, Session.fresh⟩, env⟩).2.db.committed) := by
  let old := isOldDelivery createdAt (env.clock env.readings - webhookRetention)
  unfold pruneWebhookDeliveries
  rw [Prog.run_bind_ok (run_utcNow _)]
  rcases run_deleteWhere old ⟨t, Session.fresh⟩ { env with readings := env.readings + 1 } with
    ⟨db', hrun, hrewrites⟩
  rw [Prog.run_bind_ok hrun]
  show Effect libs settings copies _ db'.view
  have hkept : ∀ k, (∀ id, k ≠ .delivery id) → db'.view k = Rows.row t k := by
    intro k hk
    rw [hrewrites.view, view_opened]
    cases k with
    | delivery id => exact absurd rfl (hk id)
    | workflow id => cases Rows.row t (.workflow id) <;> rfl
    | execution id => cases Rows.row t (.execution id) <;> rfl
    | step id => cases Rows.row t (.step id) <;> rfl
  have hleft : ∀ {id} {d : WebhookDelivery}, db'.view (.delivery id) = some d →
      Rows.row t (.delivery id) = some d := by
    intro id d hrow
    rw [hrewrites.view, view_opened] at hrow
    rcases Option.bind_eq_some_iff.mp hrow with ⟨d', hold, hremains⟩
    unfold remainingRow at hremains
    split at hremains
    · cases hremains
    · cases hremains
      exact hold
  refine ⟨fun id row hrow => .inl ((hkept (.workflow id) nofun).symm.trans hrow),
    fun id e hnone hrow => ?_, fun id e e' hrow hrow' => ?_, fun id e hrow hactive => ?_,
    fun id d hnone hrow => ?_, fun id id' d d' hnone hnone' hrow hrow' => ?_,
    fun id d d' hrow hrow' => ?_, fun id e hrow hnone => ?_,
    StepsEffect.of_same fun k hrun => hkept k fun id => ne_delivery_of_run hrun⟩
  · rw [hkept (.execution id) nofun, hnone] at hrow
    cases hrow
  · rw [hkept (.execution id) nofun, hrow] at hrow'
    cases hrow'
    exact KeepsExecution.refl _ e
  · rw [hkept (.execution id) nofun] at hrow
    exact .inl ⟨e, hrow, hactive⟩
  · rw [hleft hrow] at hnone
    cases hnone
  · rw [hleft hrow] at hnone
    cases hnone
  · rw [hleft hrow'] at hrow
    cases hrow
    exact KeepsDelivery.refl _ d
  · rw [hkept (.execution id) nofun, hrow] at hnone
    cases hnone

end

/-! ## Steps of the engine -/

section

variable {libs : Libraries} {settings : Settings} {copies : Uuid → Workflow → Prop} {wire : Wire}
  {session : SessionRef} {fuel : Nat}

-- Unfolding it would run the programs.
attribute [local irreducible] Script.Always

theorem effect_operation (wire : Wire) {t : Rows Row} (operation : Operation) (env : Environment) :
    Effect libs settings copies (Rows.row t) (Rows.row ((operation.program libs settings
      (nestedStart libs settings session fuel)).run ⟨⟨t, Session.fresh⟩, env⟩).2.db.committed) := by
  cases operation with
  | cancelExecution executionId tenantId =>
    rw [Operation.program]
    exact effect_cancelExecution executionId tenantId env
  | cleanupStaleExecutions =>
    rw [Operation.program, Prog.run_discard]
    exact effect_cleanupStaleExecutions env
  | executeStep stepExecutionId executionId =>
    have hprogram : Entry.program libs settings wire session fuel
        (.operation (.executeStep stepExecutionId executionId)) = (do
          let _ ← executeStep libs settings (nestedStart libs settings session fuel) stepExecutionId
            executionId) := rfl
    have hwrites : Always EngineWrite (Entry.program libs settings wire session fuel
        (.operation (.executeStep stepExecutionId executionId))) ⟨⟨t, Session.fresh⟩, env⟩ :=
      always_engineWrite (.inl trivial) (synced_opened t)
    rw [hprogram] at hwrites
    generalize nestedStart libs settings session fuel = start at hwrites ⊢
    have hdescends := ((descended_opened t).run hwrites).committed
    rw [Prog.run_discard] at hdescends
    rw [Operation.program, Prog.run_discard]
    exact effect_executeStep start stepExecutionId executionId hdescends
  | transitionExecution executionId new =>
    rw [Operation.program]
    exact effect_transitionExecution executionId new env
  | transitionStep stepExecId new error =>
    rw [Operation.program]
    exact effect_transitionStep stepExecId new error env

/-- A trigger that the engine offers. -/
theorem Engine.Sound.triggered {s : Engine} (h : s.Sound) {trigger : Trigger}
    (hoffers : s.Offers (.trigger trigger)) (session : SessionRef) (fuel : Nat) (env : Environment) :
    ∃ owner, Triggered libs settings (s.CopiesFor (.trigger trigger)) owner (Rows.row s.rows) (Rows.row
      (s.after env ((Entry.trigger trigger).program libs settings wire session fuel)).rows) := by
  refine triggered_handle h trigger ?_ ?_ ?_ env
  · rintro workflowId tenantId rfl id tenant hid htenant
    exact .inl ⟨(workflowId, tenantId), hoffers, hid, htenant⟩
  · rintro request rfl found hfound
    have hmem : found ∈ s.cached := hoffers found hfound
    exact ⟨⟨⟨request, rfl⟩, .inr hmem⟩,
      h.known found.1 found.2.tenantId (.inr ⟨found, hmem, rfl, rfl⟩)⟩
  · rintro request rfl id workflow hrow
    exact ⟨⟨request, rfl⟩, .inl hrow⟩

/-- What an entry that the engine offers commits. -/
theorem Engine.Sound.effect {s : Engine} (h : s.Sound) {entry : Entry} (hoffers : s.Offers entry)
    (session : SessionRef) (fuel : Nat) (env : Environment) :
    Effect libs settings (s.CopiesFor entry) (Rows.row s.rows)
      (Rows.row (s.after env (entry.program libs settings wire session fuel)).rows) := by
  show Effect libs settings _ _ (Rows.row ((entry.program libs settings wire session fuel).run
    ⟨⟨s.rows, Session.fresh⟩, env⟩).2.db.committed)
  cases entry with
  | trigger trigger =>
    rcases h.triggered hoffers session fuel env with ⟨owner, htriggered⟩
    exact htriggered.effect
  | operation operation => exact effect_operation wire operation env
  | createWorkflow body tenantId generated =>
    rw [Entry.program, Prog.run_discard]
    exact (storesAtMost_createWorkflow body tenantId generated env).effect
  | updateWorkflow body workflowId tenantId generated =>
    rw [Entry.program, Prog.run_discard]
    exact (storesAtMost_updateWorkflow body workflowId tenantId generated env).effect
  | deleteWorkflow workflowId tenantId => exact effect_deleteWorkflow workflowId tenantId env
  | pruneWebhookDeliveries createdAt =>
    rw [Entry.program, Prog.run_discard]
    exact effect_pruneWebhookDeliveries createdAt env

/-- Every step of the engine has an effect. -/
theorem Engine.Step.effect {s s' : Engine} (hstep : Engine.Step libs settings wire s s')
    (h : s.Sound) : ∃ copies, Effect libs settings copies (Rows.row s.rows) (Rows.row s'.rows) := by
  cases hstep with
  | entry entry session fuel env hoffers => exact ⟨_, h.effect hoffers session fuel env⟩
  | schedule => exact ⟨s.Copies, Effect.refl _⟩
  | cache => exact ⟨s.Copies, Effect.refl _⟩
  | drop => exact ⟨s.Copies, Effect.refl _⟩

/-- A property of the rows that effects keep, from rows whose references agree, holds in
every state that is reached. -/
theorem Engine.Reachable.holds {I : View → Prop} (hempty : I (Rows.row ∅))
    (hkept : ∀ copies v v', OneTenant v → Effect libs settings copies v v' → I v → I v') {s : Engine}
    (h : Engine.Reachable libs settings wire s) : I (Rows.row s.rows) := by
  unfold Engine.Reachable at h
  induction h with
  | refl => exact hempty
  | tail hreached hstep ih =>
    have hsound := Engine.Reachable.sound hreached
    rcases hstep.effect hsound with ⟨copies, heffect⟩
    exact hkept _ _ _ hsound.oneTenant heffect ih

end

end WorkflowEngine

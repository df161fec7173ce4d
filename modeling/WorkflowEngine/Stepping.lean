import WorkflowEngine.Nesting
import WorkflowEngine.Statements

/-!
# Every statement of the engine

The walk, the start of an execution, the operations and the triggers send no
statement that writes a row of a run in another way than `Writes` lists.

The assignment after exhausted retries does not look at the status of the execution.
That it is `running` there is an invariant of the walk, `Walking`.  It needs that the
executors leave the rows alone, which in turn rests on the context: without a tenant
id in it a `sub_workflow` step starts nothing.
-/

namespace WorkflowEngine

open Py Orm Interact

/-! ## Executors that leave the database alone -/

/-- The program sends no statement. -/
def Outside {α : Type} (m : Prog α) : Prop :=
  ∀ w, Script.Always (S := engineSignature) World.answer (fun req _ => ∃ e, req = .env e) m w

section

variable {α β : Type}

theorem outside_done (result : Except Raised α) : Outside (Script.done result) := fun _ => trivial

theorem outside_liftExcept (result : Except PyError α) : Outside (liftExcept result) :=
  fun _ => trivial

theorem outside_env (req : EnvReq) : Outside (Script.send (S := engineSignature) (.env req)) :=
  fun _ => Script.always_send_iff.mpr ⟨req, rfl⟩

theorem outside_bind {m : Prog α} {f : α → Prog β} (hm : Outside m) (hf : ∀ a, Outside (f a)) :
    Outside (m >>= f) := fun w => Script.always_bind (hm w) fun a w' _ => hf a w'

theorem Outside.stepwise {m : Prog α} (h : Outside m) {J : Db → Prop} {w : World} (hw : J w.db) :
    Stepwise J m w := by
  have hleaves : ∀ (req : engineSignature.Req) (w : World), (∃ e, req = .env e) →
      (World.answer req w).2.db = w.db := by
    rintro req w ⟨e, rfl⟩
    rfl
  have hkeeps := (h w).invariant (I := fun w : World => J w.db) hw fun req w hw hreq => by
    rw [hleaves req w hreq]
    exact hw
  refine ⟨(hkeeps.and (h w)).imp fun req w hstep => ⟨.of_view ?_, hstep.1.2⟩⟩
  rw [hleaves req w hstep.2]

end

/-- An executor that sends no statement on the inputs of a run. -/
def Runner.Silent (runner : Runner) : Prop :=
  ∀ caller step session ctx, Dict.get? ctx "_tenant_id" = none →
    Outside (runner caller step (stepInput session ctx))

theorem performer_outside (caller : Caller) (step : StepDefinition) (vars : Vars) :
    Outside (performer caller step vars) :=
  outside_bind (outside_env _) fun _ => outside_liftExcept _

section

variable (libs : Libraries) (settings : Settings)

theorem nestingWith_silent {others : Runner} (hothers : others.Silent) (start : Start) :
    (nestingWith libs settings others start).Silent := by
  intro caller step session ctx htenant
  unfold nestingWith
  split
  · rcases SubWorkflowExecutor.execute_of_tenantVar (tenantVar_stepInput session htenant) libs
      settings start caller step.config with ⟨e, he⟩
    rw [he]
    exact outside_liftExcept _
  · exact hothers caller step session ctx htenant

theorem nesting_silent (session : SessionRef) (fuel : Nat) :
    (nesting libs settings performer session fuel).Silent := by
  have hperformer : performer.Silent := fun caller step _ _ _ => performer_outside caller step _
  cases fuel with
  | zero => exact nestingWith_silent libs settings hperformer _
  | succ fuel => exact nestingWith_silent libs settings hperformer _

/-- On the input that `execute_step` hands to it, an executor of the registry sends
no statement. -/
theorem stepRegistry_outside (start : Start) (caller : Caller) (type : StepType)
    (config ctx : Dict String Json) :
    Outside (stepRegistry libs settings start caller type config (getStepInput ctx)) := by
  cases type with
  | http =>
    apply outside_bind (outside_liftExcept _)
    intro request
    exact outside_bind (outside_env _) fun _ => outside_liftExcept _
  | transform => exact outside_liftExcept _
  | condition => exact outside_liftExcept _
  | delay =>
    show Outside (DelayExecutor.execute config)
    unfold DelayExecutor.execute
    split
    · exact outside_liftExcept _
    · split
      · exact outside_liftExcept _
      · split
        · exact outside_liftExcept _
        · split
          · exact outside_liftExcept _
          · exact outside_bind (outside_env _) fun _ => outside_done _
  | subWorkflow =>
    have htenant : tenantVar (getStepInput ctx) = .error (.other "KeyError" "_tenant_id") := rfl
    rcases SubWorkflowExecutor.execute_of_tenantVar htenant libs settings start caller config with
      ⟨e, he⟩
    show Outside (SubWorkflowExecutor.execute libs settings start caller config (getStepInput ctx))
    rw [he]
    exact outside_liftExcept _

end

/-! ## The walk -/

/-- The execution that a walk works on: it is running, and its row has no tenant id
in the context. -/
structure Walking (id : Uuid) (db : Db) : Prop where
  synced : Synced db
  running : ∃ row : Execution, db.view (.execution id) = some row ∧ row.status = .running ∧
    Dict.get? row.context "_tenant_id" = none

/-- The object of the execution has no tenant id in its context either. -/
structure Refreshed (id : Uuid) (db : Db) : Prop extends Walking id db where
  loaded : ∀ (e : Execution) memo, db.loaded (.execution id) = some (e, memo) →
    Dict.get? e.context "_tenant_id" = none

section

variable {id sid : Uuid} {w : World}

theorem Walking.admits : Admits (Walking id) (.step sid) := by
  refine ⟨fun h => h.synced, fun h hstatement => ⟨hstatement.synced, ?_⟩⟩
  rw [(hstatement.others (.execution id) (by simp)).1]
  exact h.running

theorem Refreshed.admits : Admits (Refreshed id) (.step sid) := by
  refine ⟨fun h => h.synced, fun h hstatement => ⟨Walking.admits.keeps h.toWalking hstatement, ?_⟩⟩
  rw [(hstatement.others (.execution id) (by simp)).2]
  exact h.loaded

/-- After a refresh the object is the row. -/
theorem Walking.refresh (hw : Walking id w.db) :
    ∃ row, (refreshExecution id).run w =
        (.ok (some row), ⟨w.db.load (.execution id) row .nothing, w.env⟩) ∧
      Refreshed id (w.db.load (.execution id) row .nothing) ∧
      Dict.get? row.context "_tenant_id" = none := by
  rcases hw.running with ⟨row, hrow, hrunning, htenant⟩
  have hanswer : DbState.answer (.refresh (.execution id)) w.db =
      (some row, w.db.load (.execution id) row .nothing) := DbState.answer_refresh hrow
  refine ⟨row, ?_, ⟨⟨?_, row, hrow, hrunning, htenant⟩, fun e memo hloaded => ?_⟩, htenant⟩
  · show (Except.ok (DbState.answer _ w.db).1, World.mk (DbState.answer _ w.db).2 w.env) = _
    rw [hanswer]
  · exact hw.synced.load hrow (InSync.refl (.execution id) row) _
  · rw [DbState.loaded_load_self] at hloaded
    cases hloaded
    exact htenant

theorem stepwise_refreshExecution (hw : Walking id w.db) :
    Stepwise (Refreshed id) (refreshExecution id) w := by
  rcases hw.refresh with ⟨row, hrun, hrefreshed, -⟩
  have hdb : (DbState.answer (.refresh (.execution id)) w.db).2 =
      w.db.load (.execution id) row .nothing := congrArg (fun r => r.2.db) hrun
  apply stepwise_db
  rw [hdb]
  exact ⟨.of_view rfl, hrefreshed⟩

/-- The `context` of the object changes, and may be written to the row; none of the
two gets a tenant id. -/
theorem Refreshed.context (hw : Refreshed id w.db)
    {change : Execution → Remembered (Dict String Json) →
      (Execution × Remembered (Dict String Json)) × Option (Execution → Execution)}
    (hstatement : RowStatement (.execution id) (.db (.touch (.execution id) change)) w.db
      (DbState.answer (.touch (.execution id) change) w.db).2)
    (hattrs : ∀ e memo, w.db.loaded (.execution id) = some (e, memo) →
      Dict.get? (change e memo).1.1.context "_tenant_id" = none)
    (hwrite : ∀ e memo f, w.db.loaded (.execution id) = some (e, memo) →
      (change e memo).2 = some f → ∃ ctx, Dict.get? ctx "_tenant_id" = none ∧
        f = fun row => { row with context := ctx }) :
    Stepwise (Refreshed id) (Script.send (S := engineSignature) (.db (.touch (.execution id) change)))
      w := by
  apply stepwise_db
  refine ⟨hstatement.writes, ?_⟩
  have hsynced := hstatement.synced
  rcases hw.running with ⟨row, hrow, hrunning, htenant⟩
  cases hloaded : w.db.loaded (.execution id) with
  | none =>
    have hanswer : (DbState.answer (.touch (.execution id) change) w.db).2 = w.db := by
      simp only [DbState.answer, hloaded]
    rw [hanswer]
    exact hw
  | some obj =>
    rcases obj with ⟨e, memo⟩
    have hnew := hattrs e memo hloaded
    cases hchanged : (change e memo).2 with
    | none =>
      have hchange : change e memo = ((change e memo).1, none) := Prod.ext rfl hchanged
      rw [DbState.answer_touch_silent hloaded hchange] at hsynced ⊢
      refine ⟨⟨hsynced, row, hrow, hrunning, htenant⟩, fun e' memo' hloaded' => ?_⟩
      rw [DbState.loaded_load_self] at hloaded'
      cases hloaded'
      exact hnew
    | some f =>
      rcases hwrite e memo f hloaded hchanged with ⟨ctx, hctx, rfl⟩
      have hchange : change e memo =
          ((change e memo).1, some fun row => { row with context := ctx }) := Prod.ext rfl hchanged
      rw [DbState.answer_touch hloaded hrow hchange] at hsynced ⊢
      refine ⟨⟨hsynced, _, DbState.view_write_self _ _ _, hrunning, hctx⟩, fun e' memo' hloaded' => ?_⟩
      rw [DbState.loaded_write, DbState.loaded_load_self] at hloaded'
      cases hloaded'
      exact hnew

theorem Refreshed.touchContext (hw : Refreshed id w.db) {ctx : Dict String Json}
    (hctx : Dict.get? ctx "_tenant_id" = none) :
    Stepwise (Refreshed id) (touchContext id (Tracked.assign ctx)) w := by
  refine hw.context (rowStatement_touchContext hw.synced _) (fun e memo _ => ?_)
    fun _ _ _ _ hf => nomatch hf
  show Dict.get? ((contextOf e memo).assign ctx).value "_tenant_id" = none
  rw [Tracked.assign_value]
  exact hctx

theorem Refreshed.flushContext (hw : Refreshed id w.db) :
    Stepwise (Refreshed id) (flushContext id) w := by
  refine hw.context (rowStatement_flushContext hw.synced) hw.loaded fun e memo f hloaded hf => ?_
  rcases Option.map_eq_some_iff.mp hf with ⟨ctx, hwritten, rfl⟩
  refine ⟨ctx, ?_, rfl⟩
  rw [Tracked.eq_value_of_written hwritten]
  exact hw.loaded e memo hloaded

theorem tenantId_mergedContext {context ctx output : Dict String Json} {stepId : String}
    (h : Dict.get? context "_tenant_id" = none)
    (hmerged : mergedContext context stepId output = .ok ctx) :
    Dict.get? ctx "_tenant_id" = none := by
  unfold mergedContext at hmerged
  cases hsteps : dictOf (Dict.getD context "steps" (.obj [])) with
  | error exc =>
    rw [hsteps] at hmerged
    cases hmerged
  | ok steps =>
    rw [hsteps] at hmerged
    cases hmerged
    rw [Dict.get?_set_ne _ _ (by decide)]
    exact h

/-- What a `select` finds has no tenant id in its context. -/
theorem Refreshed.selectExecution (hw : Refreshed id w.db) :
    ∃ (execution : Execution) (w' : World),
      (selectExecution id fun _ => true).run w = (.ok (some execution), w') ∧
      w'.db.view = w.db.view ∧ Refreshed id w'.db ∧
      Dict.get? execution.context "_tenant_id" = none := by
  rcases hw.running with ⟨row, hrow, hrunning, htenant⟩
  cases hloaded : w.db.loaded (.execution id) with
  | none =>
    have hanswer : DbState.answer (.select (.execution id) fun _ => true) w.db =
        (some row, w.db.load (.execution id) row .nothing) :=
      DbState.answer_select_new hrow rfl hloaded
    refine ⟨row, ⟨w.db.load (.execution id) row .nothing, w.env⟩, ?_, rfl,
      ⟨⟨?_, row, hrow, hrunning, htenant⟩, fun e memo hloaded' => ?_⟩, htenant⟩
    · show (Except.ok (DbState.answer _ w.db).1, World.mk (DbState.answer _ w.db).2 w.env) = _
      rw [hanswer]
    · exact hw.synced.load hrow (InSync.refl (.execution id) row) _
    · rw [DbState.loaded_load_self] at hloaded'
      cases hloaded'
      exact htenant
  | some obj =>
    have hanswer : DbState.answer (.select (.execution id) fun _ => true) w.db = (some obj.1, w.db) :=
      DbState.answer_select_loaded hrow rfl hloaded
    refine ⟨obj.1, w, ?_, rfl, hw, hw.loaded obj.1 obj.2 hloaded⟩
    show (Except.ok (DbState.answer _ w.db).1, World.mk (DbState.answer _ w.db).2 w.env) = _
    rw [hanswer]

theorem Refreshed.mergeStepOutput (hw : Refreshed id w.db) (stepId : String)
    (output : Dict String Json) :
    Stepwise (Refreshed id) (mergeStepOutput id stepId output) w := by
  rcases hw.selectExecution with ⟨execution, w₁, hselect, hview, hw₁, htenant⟩
  have hdb : (DbState.answer (.select (.execution id) fun _ => true) w.db).2 = w₁.db :=
    congrArg (fun r => r.2.db) hselect
  unfold WorkflowEngine.mergeStepOutput
  refine stepwise_bind hw ?_ fun found w₁' hselect' hw₁' => ?_
  · apply stepwise_db
    rw [hdb]
    exact ⟨.of_view hview, hw₁⟩
  · rw [hselect] at hselect'
    cases hselect'
    apply stepwise_liftExcept_bind
    intro ctx hmerged
    have hctx := tenantId_mergedContext htenant hmerged
    refine stepwise_bind hw₁ (hw₁.touchContext hctx) fun _ w₂ _ hw₂ => ?_
    exact stepwise_bind hw₂ hw₂.flushContext fun _ _ _ _ => stepwise_done _

variable {runner : Runner} {session : SessionRef}

theorem stepwise_attemptStep (hw : Walking id w.db) (hsilent : runner.Silent) (step : StepDefinition) :
    Stepwise (Walking id) (attemptStep runner session id step sid) w := by
  rcases hw.refresh with ⟨row, hrefresh, hrefreshed, htenant⟩
  unfold attemptStep
  refine stepwise_bind hw ((stepwise_refreshExecution hw).imp fun _ h => h.toWalking) ?_
  intro found w₁ hrun _
  rw [hrefresh] at hrun
  cases hrun
  refine stepwise_bind_of (fun _ (h : Refreshed id _) => h.toWalking) hrefreshed
    (stepwise_mapped _) ?_
  intro execution w₁ hrun hw₁
  cases hrun
  refine stepwise_bind_of (fun _ (h : Refreshed id _) => h.toWalking) hw₁ ?_ ?_
  · -- the executor
    refine stepwise_bind hw₁ (stepwise_env hw₁ _) fun _ w₂ _ hw₂ => ?_
    exact (hsilent _ step session row.context htenant).stepwise hw₂
  · intro output w₂ _ hw₂
    refine Stepwise.imp (J := Refreshed id) ?_ fun _ h => h.toWalking
    refine stepwise_bind hw₂ (stepwise_transitionStep Refreshed.admits hw₂ (by simp)) ?_
    intro stepExec w₃ hcompleted hw₃
    rcases status_of_transitionStep hw₂.synced hcompleted with ⟨stepRow, hstepRow, hstatus⟩
    refine stepwise_bind hw₃ ?_ fun _ w₄ _ hw₄ => hw₄.mergeStepOutput step.id output
    apply stepwise_assignStep Refreshed.admits hw₃
    intro stepRow' hstepRow'
    rw [hstepRow] at hstepRow'
    cases hstepRow'
    exact .output _ _ _ hstatus

theorem stepwise_retryLoop (hw : Walking id w.db) (hsilent : runner.Silent) (step : StepDefinition)
    (maxAttempts remaining attempts : Nat) :
    Stepwise (Walking id) (retryLoop runner session id step sid maxAttempts remaining attempts)
      w := by
  induction remaining generalizing attempts w with
  | zero => exact stepwise_done _
  | succ remaining ih =>
    unfold retryLoop
    refine stepwise_bind hw ?_ fun assigned w₁ _ hw₁ => ?_
    · exact stepwise_assignStep Walking.admits hw fun _ _ => .attempt _ _ _
    refine stepwise_bind hw₁ (stepwise_mapped _) fun stepExec w₂ _ hw₂ => ?_
    refine stepwise_when hw₂ (stepwise_transitionStep Walking.admits hw₂ (by simp)) ?_
    intro w₂ hw₂
    refine stepwise_bind hw₂ (stepwise_transitionStep Walking.admits hw₂ (by simp)) ?_
    intro _ w₃ _ hw₃
    refine stepwise_bind hw₃ (stepwise_attempt (stepwise_attemptStep hw₃ hsilent step)) ?_
    intro ended w₄ _ hw₄
    cases ended with
    | ok _ => exact stepwise_done _
    | error raised =>
      cases raised with
      | outOfFuel => exact stepwise_done _
      | exception exc =>
        refine stepwise_bind hw₄ (stepwise_transitionStep Walking.admits hw₄ (by simp)) ?_
        intro _ w₅ _ hw₅
        exact stepwise_ite (stepwise_done _) (ih hw₅ _)

theorem stepwise_executeStepWithRetry (hw : Walking id w.db) (hsilent : runner.Silent)
    (step : StepDefinition) :
    Stepwise (Walking id) (executeStepWithRetry runner session id step sid) w := by
  refine stepwise_bind hw (stepwise_readStep Walking.admits hw) fun stepExec w₁ _ hw₁ => ?_
  exact stepwise_retryLoop hw₁ hsilent step _ _ _

/-- The end of a walk: its last statement ends the execution. -/
theorem stepwise_executeDagFrom (hw : Walking id w.db) (hsilent : runner.Silent)
    (stepDefs : Dict String StepDefinition) (stepMap : Dict String Uuid)
    (order skipped : List String) :
    Stepwise Synced (executeDagFrom runner session id stepDefs stepMap order skipped) w := by
  have hsynced : ∀ db, Walking id db → Synced db := fun _ h => h.synced
  induction order generalizing skipped w with
  | nil =>
    refine stepwise_bind hw.synced ?_ fun _ _ _ _ => stepwise_done _
    exact stepwise_transitionExecution (admits_synced _) hw.synced (by simp)
  | cons stepId order ih =>
    unfold executeDagFrom
    cases Dict.get? stepDefs stepId with
    | none => exact stepwise_done _
    | some step =>
      cases Dict.get? stepMap stepId with
      | none => exact stepwise_done _
      | some stepExecId =>
        apply stepwise_ite
        · refine stepwise_bind_of hsynced hw
            (stepwise_transitionStep Walking.admits hw (by simp)) ?_
          exact fun _ w₁ _ hw₁ => ih hw₁ _
        · refine stepwise_bind_of hsynced hw (stepwise_executeStepWithRetry hw hsilent step) ?_
          intro success w₁ _ hw₁
          apply stepwise_ite
          · apply stepwise_ite
            · refine stepwise_bind_of hsynced hw₁ (stepwise_readStep Walking.admits hw₁) ?_
              intro stepExec w₂ _ hw₂
              apply stepwise_liftExcept_bind
              exact fun _ _ => ih hw₂ _
            · exact ih hw₁ _
          · -- the status is not looked at, but it is `running`
            refine stepwise_bind hw₁.synced ?_ fun _ _ _ _ => stepwise_done _
            refine (admits_synced _).assign (k := .execution id) (f := failExhausted stepId)
              hw₁.synced trivial fun attrs row hrow hsync => ⟨?_, ?_⟩
            · rw [show attrs = _ from hsync]
              rfl
            · rcases hw₁.running with ⟨row', hrow', hrunning, -⟩
              rw [hrow] at hrow'
              cases hrow'
              exact .exhausted _ _ hrunning

end

/-! ## The start -/

section

variable {w : World}

/-- A row of a run is created. -/
theorem stepwise_insertRow (hw : Synced w.db) {k : RowId} {row : Row k} (hrow : Created k row)
    (hnone : w.db.view k = none) : Stepwise Synced (insertRow k row) w := by
  apply stepwise_db
  refine ⟨writesBy_row (k := k) (fun k' hk' => DbState.view_write_ne _ _ hk') fun _ => ?_, ?_⟩
  · rw [hnone]
    show Changes _ _ none (DbState.view (DbState.write _ k (some row)) k)
    rw [DbState.view_write_self]
    exact .create hrow
  · exact hw.put (InSync.refl k row) _

theorem stepwise_createStepExecutions (hw : Synced w.db) (tenantId id : Uuid)
    (steps : List StepDefinition) (stepMap : Dict String Uuid) :
    Stepwise Synced (createStepExecutions tenantId id steps stepMap) w := by
  induction steps generalizing stepMap w with
  | nil => exact stepwise_done _
  | cons step steps ih =>
    unfold createStepExecutions
    refine stepwise_bind hw (stepwise_env hw _) fun sid w₁ hsid hw₁ => ?_
    cases hsid
    refine stepwise_bind hw ?_ fun _ w₂ _ hw₂ => ih hw₂ _
    exact stepwise_insertRow hw ⟨_, _, _, rfl⟩ (Db.view_newUuid rfl)

theorem stepwise_storeMetadata (hw : Synced w.db) (id : Uuid) (depth : Int) (tenantId : Uuid) :
    Stepwise Synced (storeMetadata id depth tenantId) w := by
  refine stepwise_bind hw (stepwise_touchContext (admits_synced _) hw _) fun _ w₁ _ hw₁ => ?_
  exact stepwise_bind hw₁ (stepwise_flushContext (admits_synced _) hw₁) fun _ _ _ _ => stepwise_done _

variable {libs : Libraries} {settings : Settings} {runner : Runner}

theorem stepwise_startExecution (hw : Synced w.db) (hsilent : runner.Silent) (session : SessionRef)
    (parent : Option Caller) (workflowId : Uuid) (workflow : Workflow)
    (triggerData : Dict String Json) (tenantId : Uuid) (replayedFrom : Option Uuid) (depth : Int) :
    Stepwise Synced (startExecution runner session libs settings parent workflowId workflow
      triggerData tenantId replayedFrom depth) w := by
  unfold startExecution
  apply stepwise_liftExcept_bind
  intro parsed hparse
  refine stepwise_bind hw (stepwise_env hw _) fun id w₁ hid hw₁ => ?_
  cases hid
  let e := newExecution workflowId tenantId triggerData replayedFrom
  refine stepwise_bind hw ?_ fun _ w₁ hinsert hw₁ => ?_
  · exact stepwise_insertRow hw ⟨_, _, _, _, rfl⟩ (Db.view_newUuid rfl)
  cases hinsert
  refine stepwise_bind hw₁ (stepwise_env hw₁ _) fun _ w₂ hobserve hw₂ => ?_
  cases hobserve
  refine stepwise_bind hw₂ (stepwise_transitionExecution (admits_synced _) hw₂ (by simp)) ?_
  intro _ w₃ htransition hw₃
  have hallowed : ExecutionStatus.running ∈ allowedExecutionTransitions e.status := by
    simp [e, newExecution, allowedExecutionTransitions]
  rcases run_transitionExecution (shows_newExecution w.db e) hallowed _ with
    ⟨db₃, env₃, now, e₃, hrunning, -, hshows₃⟩
  cases htransition.symm.trans hrunning
  refine stepwise_bind hw₃ (stepwise_createStepExecutions hw₃ _ _ _ _) ?_
  intro stepMap w₄ hcreate hw₄
  rcases run_createStepExecutions tenantId parsed.steps (accepted_of_parse hparse).ids_nodup
    (by simp [Dict.keys]) hshows₃ env₃ with
    ⟨r, db₄, b₄, hcreated, hid, -, -, hshows₄, hexecution, hattrs, -⟩
  cases hcreate.symm.trans hcreated
  refine stepwise_bind hw₄ (stepwise_storeMetadata hw₄ _ _ _) fun _ w₅ hstore hw₅ => ?_
  have hnonempty : b₄.attrs.isEmpty = false := by
    rw [hattrs]
    rfl
  rcases run_storeMetadata hshows₄ hnonempty depth tenantId env₃ with ⟨db₅, hstored, hshows₅⟩
  simp only at hid
  rw [hid] at hstored
  cases hstore.symm.trans hstored
  have hwalking : Walking w.db.newUuid db₅ := by
    refine ⟨hw₅, b₄.execution, hid ▸ hshows₅.seen.execution, ?_, ?_⟩
    · rw [hexecution]
      rfl
    · rw [hexecution]
      rfl
  refine stepwise_bind hw₅ (stepwise_executeDagFrom hwalking hsilent _ _ _ _) fun _ w₆ _ hw₆ => ?_
  refine stepwise_bind hw₆ ((admits_synced _).stepwise hw₆ (rowStatement_refresh hw₆)) ?_
  intro found w₇ _ hw₇
  exact stepwise_bind hw₇ (stepwise_mapped _) fun _ _ _ _ => stepwise_done _

end

/-! ## The operations -/

section

variable {w : World}

theorem stepwise_selectWhere (hw : Synced w.db) (p : (k : RowId) → Row k → Bool) :
    Stepwise Synced (selectWhere p) w := by
  apply stepwise_db
  exact ⟨.of_view (funext fun k => DbState.view_loadAll _ _ k), hw.loadAll _⟩

theorem stepwise_rowExists (hw : Synced w.db) (k : RowId) : Stepwise Synced (rowExists k) w :=
  stepwise_bind hw (stepwise_db ⟨.of_view rfl, hw⟩) fun _ _ _ _ => stepwise_done _

theorem stepwise_synced_commit (hw : Synced w.db) : Stepwise Synced commit w :=
  stepwise_commit (hw.of_same (funext fun k => DbState.view_commit _ k) rfl)

theorem stepwise_skipSteps (hw : Synced w.db) (ks : List RowId) :
    Stepwise Synced (skipSteps ks) w := by
  induction ks generalizing w with
  | nil => exact stepwise_done _
  | cons k ks ih =>
    cases k with
    | step id =>
      unfold skipSteps
      refine stepwise_bind hw (stepwise_readStep (admits_synced _) hw) fun stepExec w₁ _ hw₁ => ?_
      apply stepwise_ite
      · refine stepwise_bind hw₁ (stepwise_transitionStep (admits_synced _) hw₁ (by simp)) ?_
        exact fun _ _ _ hw₂ => ih hw₂
      · exact ih hw₁
    | execution id => exact ih hw
    | workflow id => exact ih hw
    | delivery id => exact ih hw

theorem stepwise_cancelExecution (hw : Synced w.db) (executionId tenantId : Uuid) :
    Stepwise Synced (cancelExecution executionId tenantId) w := by
  refine stepwise_bind hw ((admits_synced _).select hw _) fun found w₁ _ hw₁ => ?_
  cases found with
  | none => exact stepwise_done _
  | some execution =>
    refine stepwise_bind hw₁ (stepwise_selectWhere hw₁ _) fun steps w₂ _ hw₂ => ?_
    refine stepwise_bind hw₂ (stepwise_transitionExecutionWith (admits_synced _) hw₂ _ (by simp)) ?_
    intro _ w₃ _ hw₃
    refine stepwise_bind hw₃ (stepwise_skipSteps hw₃ steps) fun _ w₄ _ hw₄ => ?_
    exact stepwise_synced_commit hw₄

theorem stepwise_finishStepWith (hw : Synced w.db) {executors : Executors}
    (hexecutors : ∀ caller type config ctx, Outside (executors caller type config (getStepInput ctx)))
    (se ex : Uuid) (type : StepType) (stepExec : StepExecution) (execution : Execution) :
    Stepwise Synced (finishStepWith executors se ex type stepExec execution) w := by
  refine stepwise_bind hw ((hexecutors _ _ _ _).stepwise hw) fun output w₁ _ hw₁ => ?_
  refine stepwise_bind hw₁ (stepwise_transitionStep (admits_synced _) hw₁ (by simp)) ?_
  intro _ w₂ hcompleted hw₂
  rcases status_of_transitionStep hw₁ hcompleted with ⟨stepRow, hstepRow, hstatus⟩
  refine stepwise_bind hw₂ ?_ fun _ w₃ _ hw₃ => ?_
  · apply stepwise_assignStep (admits_synced _) hw₂
    intro stepRow' hstepRow'
    rw [hstepRow] at hstepRow'
    cases hstepRow'
    exact .output _ _ _ hstatus
  · refine stepwise_bind hw₃ (stepwise_mergeStepOutput (admits_synced _) hw₃ _ _) ?_
    intro _ w₄ _ hw₄
    exact stepwise_bind hw₄ (stepwise_synced_commit hw₄) fun _ _ _ _ => stepwise_done _

theorem stepwise_failStepTask (hw : Synced w.db) (se : Uuid) (attempt : Nat) (exc : PyError) :
    Stepwise Synced (failStepTask se attempt exc) w := by
  refine stepwise_bind hw ?_ fun _ w₁ _ hw₁ => ?_
  · exact stepwise_assignStep (admits_synced _) hw fun _ _ => .attempt _ _ _
  · refine stepwise_bind hw₁ (stepwise_transitionStep (admits_synced _) hw₁ (by simp)) ?_
    intro _ w₂ _ hw₂
    exact stepwise_bind hw₂ (stepwise_synced_commit hw₂) fun _ _ _ _ => stepwise_done _

theorem stepwise_executeStepWith (hw : Synced w.db) {executors : Executors}
    (hexecutors : ∀ caller type config ctx, Outside (executors caller type config (getStepInput ctx)))
    (stepExecutionId executionId : String) :
    Stepwise Synced (executeStepWith executors stepExecutionId executionId) w := by
  apply stepwise_liftExcept_bind
  intro se _
  apply stepwise_liftExcept_bind
  intro ex _
  refine stepwise_bind hw ((admits_synced _).select hw _) fun found w₁ _ hw₁ => ?_
  cases found with
  | none => exact stepwise_done _
  | some stepExec =>
    refine stepwise_bind hw₁ ((admits_synced _).select hw₁ _) fun found w₂ _ hw₂ => ?_
    cases found with
    | none => exact stepwise_done _
    | some execution =>
      refine stepwise_bind hw₂ (stepwise_transitionStep (admits_synced _) hw₂ (by simp)) ?_
      intro _ w₃ _ hw₃
      cases StepType.ofValue? stepExec.stepType with
      | none => exact stepwise_done _
      | some type =>
        refine stepwise_bind hw₃ (stepwise_attempt
          (stepwise_finishStepWith hw₃ hexecutors se ex type stepExec execution)) ?_
        intro ended w₄ _ hw₄
        cases ended with
        | ok output => exact stepwise_done _
        | error raised =>
          cases raised with
          | outOfFuel => exact stepwise_done _
          | exception exc => exact stepwise_failStepTask hw₄ se _ exc

end

/-! ## Cleaning up -/

/-- What the bulk updates of `cleanup_stale_executions` do to a row: the executions that
are stale are running, and the steps that are failed with them are unfinished. -/
inductive Sweep (stale : List RowId) : Writing
  | execution (id : Uuid) (row : Execution) (p : Execution → Bool) (now : Time)
      (running : row.status = .running) :
      Sweep stale (.execution id) (.db (.updateIf (.execution id) p (failExecution now (.execution id))))
        row (failExecution now (.execution id) row)
  | step (id : Uuid) (row : StepExecution) (p : StepExecution → Bool) (now : Time)
      (listed : .execution row.executionId ∈ stale)
      (unfinished : row.status ∈ [StepStatus.pending, .running, .queued]) :
      Sweep stale (.step id) (.db (.updateIf (.step id) p (failStep now (.step id)))) row
        (failStep now (.step id) row)

section

variable {w : World} {p : (k : RowId) → Row k → Bool} {f : (k : RowId) → Row k → Row k}

/-- Every statement of the program writes as `writing` says. -/
abbrev Always {α : Type} (writing : Writing) (m : Prog α) (w : World) : Prop :=
  Script.Always (S := engineSignature) World.answer
    (fun req w => WritesBy writing req w.db (World.answer req w).2.db) m w

theorem always_updateEach {writing : Writing} {ks : List RowId} (hnodup : ks.Nodup)
    (hwrite : ∀ k ∈ ks, ∀ row, w.db.view k = some row → p k row = true → OfRun k →
      writing k (.db (.updateIf k (p k) (f k))) row (f k row)) :
    Always writing (updateEach p f ks) w := by
  induction ks generalizing w with
  | nil => trivial
  | cons k ks ih =>
    obtain ⟨hk, hnodup'⟩ := List.nodup_cons.mp hnodup
    have hothers : ∀ k', k' ≠ k →
        (DbState.answer (.updateIf k (p k) (f k)) w.db).2.view k' = w.db.view k' :=
      fun k' hk' => DbState.view_answer_ne rfl hk' _
    refine Script.always_bind (Script.always_send_iff.mpr ?_) fun _ w₁ hrun => ih hnodup' ?_
    · refine writesBy_row hothers fun hofRun => ?_
      show Changes _ _ _ ((DbState.answer (.updateIf k (p k) (f k)) w.db).2.view k)
      simp only [DbState.answer]
      cases hview : w.db.view k with
      | none =>
        rw [hview]
        exact .same _
      | some row =>
        by_cases hp : p k row = true
        · simp only [hp, if_true, DbState.view_write_self]
          exact .write (hwrite k (by simp) row hview hp hofRun)
        · have hstays : DbState.view (if p k row = true then
              ((), w.db.write k (some (f k row))) else ((), w.db)).2 k = some row := by
            rw [if_neg hp]
            exact hview
          rw [hstays]
          exact .same _
    · have hdb : w₁.db = (DbState.answer (.updateIf k (p k) (f k)) w.db).2 :=
        congrArg (fun r => r.2.db) hrun.symm
      intro k' hk' row hrow
      rw [hdb, hothers k' (fun heq => hk (heq ▸ hk'))] at hrow
      exact hwrite k' (by simp [hk']) row hrow

theorem always_updateWhere {writing : Writing}
    (hwrite : ∀ k row, w.db.view k = some row → p k row = true → OfRun k →
      writing k (.db (.updateIf k (p k) (f k))) row (f k row)) :
    Always writing (updateWhere p f) w := by
  refine Script.always_bind (Script.always_send_iff.mpr (WritesBy.of_view rfl)) fun ks w₁ hrun => ?_
  cases hrun
  exact always_updateEach (DbState.nodup_matching w.db p) fun k _ => hwrite k

/-- The rows that the cleanup finds stale. -/
def staleRows (w : World) : List RowId :=
  w.db.matching (isStale (w.env.clock w.env.readings - staleThreshold))

theorem always_cleanupStaleExecutions (w : World) :
    Always (Sweep (staleRows w)) cleanupStaleExecutions w := by
  refine Script.always_bind (Script.always_send_iff.mpr (WritesBy.of_view rfl)) ?_
  intro before w₁ hbefore
  cases hbefore
  refine Script.always_bind (Script.always_send_iff.mpr (WritesBy.of_view rfl)) ?_
  intro now w₂ hnow
  cases hnow
  refine Script.always_bind (Script.always_send_iff.mpr ?_) fun stale w₃ hrun => ?_
  · exact WritesBy.of_view (funext fun k => DbState.view_loadAll _ _ k)
  cases hrun
  split
  · trivial
  refine Script.always_bind (always_updateWhere fun k row hrow hp hofRun => ?_) fun _ w₄ _ => ?_
  · cases k with
    | execution id =>
      have hmem : RowId.execution id ∈ staleRows w := of_decide_eq_true hp
      have hview : w.db.view (.execution id) = some row :=
        (DbState.view_loadAll _ _ _).symm.trans hrow
      rcases DbState.mem_matching.mp hmem with ⟨row', hrow', hstale⟩
      rw [hview] at hrow'
      cases hrow'
      exact .execution _ _ _ _ (of_decide_eq_true (Bool.and_eq_true_iff.mp hstale).1)
    | step id => cases hp
    | workflow id => cases hofRun
    | delivery id => cases hofRun
  refine Script.always_bind (always_updateWhere fun k row hrow hp hofRun => ?_) fun _ w₅ _ => ?_
  · cases k with
    | step id =>
      obtain ⟨hlisted, hunfinished⟩ := Bool.and_eq_true_iff.mp hp
      exact .step _ _ _ _ (of_decide_eq_true hlisted) (of_decide_eq_true hunfinished)
    | execution id => cases hp
    | workflow id => cases hofRun
    | delivery id => cases hofRun
  refine Script.always_bind (Script.always_send_iff.mpr ?_) fun _ _ _ => trivial
  exact WritesBy.of_view (funext fun k => DbState.view_commit _ k)

end

/-! ## The triggers -/

section

variable {w : World}

/-- A statement on a row that is not one of a run. -/
theorem stepwise_elsewhere (hw : Synced w.db) {req : DbReq Row Memo} {k : RowId}
    (hkey : req.key? = some k) (hk : ¬ OfRun k) :
    Stepwise Synced (Script.send (S := engineSignature) (.db req)) w := by
  have hothers : ∀ k', OfRun k' → k' ≠ k := fun k' hrun heq => hk (heq ▸ hrun)
  apply stepwise_db
  refine ⟨fun k' hrun => ?_, fun k' hrun attrs memo hloaded => ?_⟩
  · rw [DbState.view_answer_ne hkey (hothers k' hrun)]
    exact .same _
  · rw [DbState.loaded_answer_ne hkey (hothers k' hrun)] at hloaded
    rw [DbState.view_answer_ne hkey (hothers k' hrun)]
    exact hw k' hrun attrs memo hloaded

theorem stepwise_getTenantWorkflow (hw : Synced w.db) (workflowId tenantId : Uuid) :
    Stepwise Synced (getTenantWorkflow workflowId tenantId) w := by
  refine stepwise_bind hw ((admits_synced _).select hw _) fun found _ _ _ => ?_
  cases found with
  | none => exact stepwise_done _
  | some workflow => exact stepwise_done _

theorem stepwise_logWebhookDelivery (hw : Synced w.db) (wire : Wire) (request : WebhookRequest)
    (workflowId tenantId : Uuid) (status : DeliveryStatus) (reason : Option String) :
    Stepwise Synced (logWebhookDelivery wire request workflowId tenantId status reason) w := by
  refine stepwise_bind hw (stepwise_env hw _) fun id w₁ hid hw₁ => ?_
  cases hid
  refine stepwise_bind hw (stepwise_rowExists hw _) fun stored w₂ hstored hw₂ => ?_
  rw [run_rowExists] at hstored
  cases hstored
  refine stepwise_ite ?_ (stepwise_done _)
  refine stepwise_bind hw ?_ fun _ _ _ _ => stepwise_done _
  exact stepwise_insertRow (k := .delivery _) hw trivial (Db.view_newUuid rfl)

variable {runner : Runner} (hsilent : runner.Silent) (session : SessionRef) (libs : Libraries)
  (settings : Settings) (wire : Wire)

include hsilent

theorem stepwise_startFromWebhook (hw : Synced w.db) (request : WebhookRequest) (workflowId : Uuid)
    (workflow : Workflow) :
    Stepwise Synced (startFromWebhook runner session libs settings wire request workflowId workflow)
      w := by
  have hassign : ∀ {w : World} (did : Uuid) (f : WebhookDelivery → WebhookDelivery), Synced w.db →
      Stepwise Synced (assignDelivery did f) w :=
    fun did f hw => stepwise_elsewhere hw (k := .delivery did) rfl fun hrun => hrun
  refine stepwise_bind hw (stepwise_logWebhookDelivery hw _ _ _ _ _ _) fun did w₁ _ hw₁ => ?_
  refine stepwise_bind hw₁ (stepwise_attempt ?_) fun started w₂ _ hw₂ => ?_
  · refine stepwise_bind hw₁ (stepwise_startExecution hw₁ hsilent _ _ _ _ _ _ _ _) ?_
    intro begun w₂ _ hw₂
    refine stepwise_bind hw₂ (hassign did _ hw₂) fun _ w₃ _ hw₃ => ?_
    exact stepwise_bind hw₃ (stepwise_synced_commit hw₃) fun _ _ _ _ => stepwise_done _
  · cases started with
    | ok id => exact stepwise_done _
    | error raised =>
      cases raised with
      | outOfFuel => exact stepwise_done _
      | exception exc =>
        refine stepwise_bind hw₂ (hassign did _ hw₂) fun _ w₃ _ hw₃ => ?_
        exact stepwise_bind hw₃ (stepwise_synced_commit hw₃) fun _ _ _ _ => stepwise_done _

theorem stepwise_receiveForWorkflow (hw : Synced w.db) (request : WebhookRequest)
    (workflowId : Uuid) (workflow : Workflow) :
    Stepwise Synced (receiveForWorkflow runner session libs settings wire request workflowId workflow)
      w := by
  have hrefused : ∀ (reason : Option String) (response : Response), Stepwise Synced (do
      let _ ← logWebhookDelivery wire request workflowId workflow.tenantId .rejected reason
      commit
      return response) w := by
    intro reason response
    refine stepwise_bind hw (stepwise_logWebhookDelivery hw _ _ _ _ _ _) fun _ w₁ _ hw₁ => ?_
    exact stepwise_bind hw₁ (stepwise_synced_commit hw₁) fun _ _ _ _ => stepwise_done _
  have hstart := stepwise_startFromWebhook hsilent session libs settings wire hw request workflowId
    workflow
  unfold receiveForWorkflow
  apply stepwise_ite
  · split
    · exact hstart
    · split
      · exact hstart
      · exact hrefused _ _
      · exact stepwise_done _
  · exact hrefused _ _

theorem stepwise_receiveWebhook (hw : Synced w.db) (request : WebhookRequest) :
    Stepwise Synced (receiveWebhook runner session libs settings wire request) w := by
  unfold receiveWebhook
  apply stepwise_liftExcept_bind
  intro long _
  apply stepwise_ite
  · exact stepwise_done _
  apply stepwise_ite
  · exact stepwise_done _
  cases request.cached with
  | some found => exact stepwise_receiveForWorkflow hsilent session libs settings wire hw request _ _
  | none =>
    have hlookup : Stepwise Synced (lookupWorkflowByPath request.path) w := by
      refine stepwise_bind hw (stepwise_selectWhere hw _) fun found w₁ _ hw₁ => ?_
      split
      · exact stepwise_done _
      · refine stepwise_bind hw₁ (stepwise_elsewhere hw₁ (k := .workflow _) rfl fun h => h) ?_
        intro workflow w₂ _ hw₂
        exact stepwise_bind hw₂ (stepwise_mapped _) fun _ _ _ _ => stepwise_done _
      · exact stepwise_done _
    refine stepwise_bind hw (stepwise_attempt hlookup) fun ended w₁ _ hw₁ => ?_
    split
    · exact stepwise_receiveForWorkflow hsilent session libs settings wire hw₁ request _ _
    · exact stepwise_done _
    · exact stepwise_done _

theorem stepwise_manualExecute (hw : Synced w.db) (workflowId tenantId : Uuid)
    (data : Dict String Json) :
    Stepwise Synced (manualExecute runner session libs settings workflowId tenantId data) w := by
  refine stepwise_bind hw (stepwise_getTenantWorkflow hw _ _) fun workflow w₁ _ hw₁ => ?_
  apply stepwise_liftExcept_bind
  intro _ _
  refine stepwise_bind hw₁ (stepwise_startExecution hw₁ hsilent _ _ _ _ _ _ _ _) ?_
  intro begun w₂ _ hw₂
  exact stepwise_bind hw₂ (stepwise_synced_commit hw₂) fun _ _ _ _ => stepwise_done _

theorem stepwise_runCronWorkflow (hw : Synced w.db) (workflowId tenantId : String)
    (triggerData : Dict String Json) :
    Stepwise Synced (runCronWorkflow runner session libs settings workflowId tenantId triggerData)
      w := by
  apply stepwise_liftExcept_bind
  intro id _
  refine stepwise_bind hw ((admits_synced _).select hw _) fun found w₁ _ hw₁ => ?_
  cases found with
  | none => exact stepwise_done _
  | some workflow =>
    apply stepwise_ite
    · apply stepwise_liftExcept_bind
      intro tenant _
      refine stepwise_bind hw₁ (stepwise_startExecution hw₁ hsilent _ _ _ _ _ _ _ _) ?_
      exact fun _ w₂ _ hw₂ => stepwise_synced_commit hw₂
    · exact stepwise_done _

theorem stepwise_executeCronWorkflow (hw : Synced w.db) (workflowId tenantId : String) :
    Stepwise Synced (executeCronWorkflow runner session libs settings workflowId tenantId) w := by
  unfold executeCronWorkflow
  refine stepwise_bind hw (stepwise_env hw _) fun now w₁ _ hw₁ => ?_
  apply stepwise_bind hw₁
  · apply stepwise_attempt
    exact stepwise_runCronWorkflow hsilent session libs settings hw₁ workflowId tenantId _
  intro ended _ _ _
  cases ended with
  | ok _ => exact stepwise_done _
  | error raised =>
    cases raised with
    | outOfFuel => exact stepwise_done _
    | exception exc => exact stepwise_done _

theorem stepwise_replayExecutionEndpoint (hw : Synced w.db) (executionId tenantId : Uuid)
    (overrideData : Dict String Json) :
    Stepwise Synced (replayExecutionEndpoint runner session libs settings executionId tenantId
      overrideData) w := by
  have hreplay : Stepwise Synced (replayExecution runner session libs settings executionId tenantId
      overrideData) w := by
    refine stepwise_bind hw ((admits_synced _).select hw _) fun found w₁ _ hw₁ => ?_
    cases found with
    | none => exact stepwise_done _
    | some original =>
      refine stepwise_bind hw₁ (stepwise_getTenantWorkflow hw₁ _ _) fun workflow w₂ _ hw₂ => ?_
      apply stepwise_liftExcept_bind
      intro _ _
      apply stepwise_liftExcept_bind
      intro triggerData _
      exact stepwise_startExecution hw₂ hsilent _ _ _ _ _ _ _ _
  unfold replayExecutionEndpoint
  apply stepwise_ite
  · refine stepwise_bind hw hreplay fun begun w₁ _ hw₁ => ?_
    exact stepwise_bind hw₁ (stepwise_synced_commit hw₁) fun _ _ _ _ => stepwise_done _
  · exact stepwise_done _

theorem stepwise_handle (hw : Synced w.db) (trigger : Trigger) :
    Stepwise Synced (trigger.handle libs settings wire runner session) w := by
  have hdiscard : ∀ {α : Type} {m : Prog α}, Stepwise Synced m w →
      Stepwise Synced (do let _ ← m) w :=
    fun hm => stepwise_bind hw hm fun _ _ _ _ => stepwise_done _
  cases trigger with
  | manual workflowId tenantId data =>
    exact hdiscard (stepwise_manualExecute hsilent session libs settings hw _ _ _)
  | webhook request =>
    exact hdiscard (stepwise_receiveWebhook hsilent session libs settings wire hw request)
  | cron workflowId tenantId =>
    exact stepwise_executeCronWorkflow hsilent session libs settings hw workflowId tenantId
  | replay executionId tenantId overrideData =>
    exact hdiscard (stepwise_replayExecutionEndpoint hsilent session libs settings hw _ _ _)

end

end WorkflowEngine

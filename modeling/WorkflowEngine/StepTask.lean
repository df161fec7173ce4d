import WorkflowEngine.Board
import WorkflowEngine.Operations
import WorkflowEngine.Plain
import WorkflowEngine.Triggers

/-!
# One job of the worker

`execute_step` in a session of its own, when no other session runs.  A job is
`JobReady` when both rows are there, the step is queued and its type is known.
It then calls one executor and ends as `JobEnds` says; a job that is not ready
raises and commits nothing.

`JobSession` is what the session of a job sees and has loaded.
-/

namespace WorkflowEngine

open Py Orm Interact

/-- The rows that a job finds, and that let it run. -/
structure JobReady (t : Rows Row) (se ex : Uuid) (row : StepExecution) (e : Execution)
    (type : StepType) : Prop where
  step : Rows.row t (.step se) = some row
  execution : Rows.row t (.execution ex) = some e
  queued : row.status = .queued
  type_eq : StepType.ofValue? row.stepType = some type

/-- Nothing but the two rows of a job differs. -/
def SameBut (se ex : Uuid) (t t' : Rows Row) : Prop :=
  ∀ k, k ≠ .step se → k ≠ .execution ex → Rows.row t' k = Rows.row t k

/-- How a job ends that is ready: what the executor made of it, what the job
makes of this, and what is committed in the end. -/
inductive JobEnds (t : Rows Row) (se ex : Uuid) (row : StepExecution) (e : Execution) :
    Except PyError (Dict String Json) → Except Raised (Dict String Json) → Rows Row → Prop where
  | completed {output ctx : Dict String Json} {row' : StepExecution} {t' : Rows Row}
      (merge : mergedContext e.context row.stepId output = .ok ctx)
      (step : Rows.row t' (.step se) = some row') (status : row'.status = .completed)
      (others : SameBut se ex t t') : JobEnds t se ex row e (.ok output) (.ok output) t'
  | refused {output : Dict String Json} {exc exc' : PyError}
      (merge : mergedContext e.context row.stepId output = .error exc) :
      JobEnds t se ex row e (.ok output) (.error (.exception exc')) t
  | failed {exc : PyError} {row' : StepExecution} {t' : Rows Row}
      (step : Rows.row t' (.step se) = some row') (status : row'.status = .failed)
      (others : SameBut se ex t t') :
      JobEnds t se ex row e (.error exc) (.error (.exception exc)) t'

/-- The session of a job: it sees the rows `row` and `e`, and its objects carry
them; the other rows are as they are committed. -/
structure JobSession (t : Rows Row) (se ex : Uuid) (row : StepExecution) (e : Execution)
    (db : Db) : Prop where
  committed : db.committed = t
  step : db.view (.step se) = some row
  mappedStep : db.loaded (.step se) = some (row, ())
  execution : db.view (.execution ex) = some e
  mapped : db.loaded (.execution ex) = some (e, .nothing)
  others : ∀ k, k ≠ .step se → k ≠ .execution ex → db.view k = Rows.row t k

namespace JobSession

variable {t : Rows Row} {se ex : Uuid} {row : StepExecution} {e : Execution} {db : Db}

theorem run_assignStep (h : JobSession t se ex row e db) (f : StepExecution → StepExecution)
    (env : Environment) :
    ∃ db', (assignStep se f).run ⟨db, env⟩ = (.ok (some (f row)), ⟨db', env⟩) ∧
      JobSession t se ex (f row) e db' := by
  refine ⟨(db.load (.step se) (f row) ()).write (.step se) (some (f row)), ?_, ?_⟩
  · rw [assignStep, run_db, DbState.answer_touch h.mappedStep h.step rfl]
  · refine ⟨h.committed, DbState.view_write_self _ _ _, ?_, ?_, ?_, fun k hk hk' => ?_⟩
    · rw [DbState.loaded_write, DbState.loaded_load_self]
    · rw [DbState.view_write_ne _ _ (by simp), DbState.view_load, h.execution]
    · rw [DbState.loaded_write, DbState.loaded_load_ne _ _ _ (by simp), h.mapped]
    · rw [DbState.view_write_ne _ _ hk, DbState.view_load, h.others k hk hk']

theorem run_selectStep (h : JobSession t se ex row e db) (env : Environment) :
    (selectStep se).run ⟨db, env⟩ = (.ok (some row), ⟨db, env⟩) := by
  rw [selectStep, run_db, DbState.answer_select_loaded h.step rfl h.mappedStep]

/-- A transition that the state machine allows is made. -/
theorem run_transitionStep (h : JobSession t se ex row e db) {new : StepStatus}
    (hnew : new ∈ allowedStepTransitions row.status) (error : Option String) (env : Environment) :
    ∃ db' env' now,
      (transitionStep se new error).run ⟨db, env⟩ =
        (.ok (stepTransition row new now error row), ⟨db', env'⟩) ∧
      env.Later [] env' ∧ JobSession t se ex (stepTransition row new now error row) e db' := by
  rcases h.run_assignStep (stepTransition row new (env.clock env.readings) error)
    { env with readings := env.readings + 1 } with ⟨db', hrun, hsession⟩
  refine ⟨db', _, env.clock env.readings, ?_, (Environment.Later.refl env).tick, hsession⟩
  rw [transitionStep, Prog.run_bind_ok (h.run_selectStep env)]
  simp only [validateStepTransition_ok hnew]
  rw [Prog.run_bind_ok (Prog.run_liftExcept _ _), Prog.run_bind_ok (run_utcNow _),
    Prog.run_bind_ok hrun]
  rfl

/-- A transition that the state machine refuses raises. -/
theorem run_transitionStep_refused (h : JobSession t se ex row e db) {new : StepStatus}
    (hnew : new ∉ allowedStepTransitions row.status) (error : Option String) (env : Environment) :
    ∃ exc, (transitionStep se new error).run ⟨db, env⟩ = (.error (.exception exc), ⟨db, env⟩) := by
  have hrefused : ∃ exc, validateStepTransition row.status new = .error exc := by
    simp [validateStepTransition, hnew]
  rcases hrefused with ⟨exc, hexc⟩
  refine ⟨exc, ?_⟩
  rw [transitionStep, Prog.run_bind_ok (h.run_selectStep env)]
  dsimp only
  rw [hexc]
  rfl

theorem run_selectExecution (h : JobSession t se ex row e db) (env : Environment) :
    (selectExecution ex (fun _ => true)).run ⟨db, env⟩ = (.ok (some e), ⟨db, env⟩) := by
  rw [selectExecution, run_db, DbState.answer_select_loaded h.execution rfl h.mapped]

/-- A context into which the output cannot be merged. -/
theorem run_mergeStepOutput_refused (h : JobSession t se ex row e db) {stepId : String}
    {output : Dict String Json} {exc : PyError}
    (hmerge : mergedContext e.context stepId output = .error exc) (env : Environment) :
    (mergeStepOutput ex stepId output).run ⟨db, env⟩ = (.error (.exception exc), ⟨db, env⟩) := by
  rw [mergeStepOutput, Prog.run_bind_ok (h.run_selectExecution env)]
  dsimp only
  rw [hmerge]
  rfl

/-- Merging the output writes no row but that of the execution. -/
theorem run_mergeStepOutput (h : JobSession t se ex row e db) {stepId : String}
    {output ctx : Dict String Json} (hmerge : mergedContext e.context stepId output = .ok ctx)
    (env : Environment) :
    ∃ db', (mergeStepOutput ex stepId output).run ⟨db, env⟩ = (.ok (), ⟨db', env⟩) ∧
      ∀ k, k ≠ .execution ex → db'.view k = db.view k := by
  let touched := DbState.answer (.touch (.execution ex) (fun e memo =>
    (withContext e (Tracked.assign ctx (contextOf e memo)), none))) db
  let flushed := DbState.answer (.touch (.execution ex) (fun e memo =>
    let changed := contextOf e memo
    (withContext e changed.flush,
      (changed.written contextEq).map (fun v row => { row with context := v })))) touched.2
  have htouch : (touchContext ex (Tracked.assign ctx)).run ⟨db, env⟩ =
      (.ok touched.1, ⟨touched.2, env⟩) := rfl
  have hflush : (flushContext ex).run ⟨touched.2, env⟩ = (.ok flushed.1, ⟨flushed.2, env⟩) := rfl
  refine ⟨flushed.2, ?_, fun k hk => ?_⟩
  · rw [mergeStepOutput, Prog.run_bind_ok (h.run_selectExecution env)]
    dsimp only
    rw [hmerge, Prog.run_bind_ok (Prog.run_liftExcept _ _)]
    exact (Prog.run_bind_ok htouch).trans (Prog.run_bind_ok hflush)
  · rw [DbState.view_answer_touch _ hk, DbState.view_answer_touch _ hk]

end JobSession

section

variable {executors : Executors} {t : Rows Row} {se ex : Uuid} {stepExec row : StepExecution}
  {e : Execution} {type : StepType} {db : Db} {env env₂ : Environment}

/-- The `try` block when the executor raises. -/
theorem run_finishStepWith_error {exc : PyError}
    (hexecute : (executors ⟨ex, stepExec.stepId⟩ type stepExec.inputData
      (getStepInput e.context)).run ⟨db, env⟩ = (.error (.exception exc), ⟨db, env₂⟩)) :
    (finishStepWith executors se ex type stepExec e).run ⟨db, env⟩ =
      (.error (.exception exc), ⟨db, env₂⟩) := Prog.run_bind_error hexecute

/-- The `try` block when the output cannot be merged: the step is completed
already, but nothing is committed. -/
theorem run_finishStepWith_refused (h : JobSession t se ex row e db)
    (hrunning : row.status = .running) {output : Dict String Json} {exc : PyError}
    (hexecute : (executors ⟨ex, stepExec.stepId⟩ type stepExec.inputData
      (getStepInput e.context)).run ⟨db, env⟩ = (.ok output, ⟨db, env₂⟩))
    (hmerge : mergedContext e.context stepExec.stepId output = .error exc) :
    ∃ db' env' row', (finishStepWith executors se ex type stepExec e).run ⟨db, env⟩ =
        (.error (.exception exc), ⟨db', env'⟩) ∧ env₂.Later [] env' ∧
      JobSession t se ex row' e db' ∧ row'.status = .completed := by
  have hallowed : StepStatus.completed ∈ allowedStepTransitions row.status := by
    simp [hrunning, allowedStepTransitions]
  rcases h.run_transitionStep hallowed none env₂ with ⟨db₁, env₁, now, hcompleted, hlater, h₁⟩
  rcases h₁.run_assignStep (fun row => { row with outputData := some output }) env₁ with
    ⟨db₂, houtput, h₂⟩
  refine ⟨db₂, env₁, _, ?_, hlater, h₂, rfl⟩
  rw [finishStepWith, Prog.run_bind_ok hexecute, Prog.run_bind_ok hcompleted,
    Prog.run_bind_ok houtput]
  exact Prog.run_bind_error (h₂.run_mergeStepOutput_refused hmerge env₁)

/-- The `try` block when all goes well. -/
theorem run_finishStepWith_ok (h : JobSession t se ex row e db)
    (hrunning : row.status = .running) {output ctx : Dict String Json}
    (hexecute : (executors ⟨ex, stepExec.stepId⟩ type stepExec.inputData
      (getStepInput e.context)).run ⟨db, env⟩ = (.ok output, ⟨db, env₂⟩))
    (hmerge : mergedContext e.context stepExec.stepId output = .ok ctx) :
    ∃ db' env' row', (finishStepWith executors se ex type stepExec e).run ⟨db, env⟩ =
        (.ok output, ⟨db', env'⟩) ∧ env₂.Later [] env' ∧
      Rows.row db'.committed (.step se) = some row' ∧ row'.status = .completed ∧
      SameBut se ex t db'.committed := by
  have hallowed : StepStatus.completed ∈ allowedStepTransitions row.status := by
    simp [hrunning, allowedStepTransitions]
  rcases h.run_transitionStep hallowed none env₂ with ⟨db₁, env₁, now, hcompleted, hlater, h₁⟩
  rcases h₁.run_assignStep (fun row => { row with outputData := some output }) env₁ with
    ⟨db₂, houtput, h₂⟩
  rcases h₂.run_mergeStepOutput hmerge env₁ with ⟨db₃, hmerged, hothers⟩
  refine ⟨db₃.commit, env₁, { stepTransition row .completed now none row with
    outputData := some output }, ?_, hlater, ?_, rfl, fun k hk hk' => ?_⟩
  · rw [finishStepWith, Prog.run_bind_ok hexecute, Prog.run_bind_ok hcompleted,
      Prog.run_bind_ok houtput, Prog.run_bind_ok hmerged]
    rfl
  · rw [DbState.row_committed_commit, hothers _ (by simp), h₂.step]
  · rw [DbState.row_committed_commit, hothers _ hk', h₂.others k hk hk']

/-- The handler of `execute_step`, for a step that is still running. -/
theorem run_failStepTask (h : JobSession t se ex row e db) (hrunning : row.status = .running)
    (attempt : Nat) (exc : PyError) (env : Environment) :
    ∃ db' env' row', (failStepTask se attempt exc).run ⟨db, env⟩ =
        (.error (.exception exc), ⟨db', env'⟩) ∧ env.Later [] env' ∧
      Rows.row db'.committed (.step se) = some row' ∧ row'.status = .failed ∧
      SameBut se ex t db'.committed := by
  rcases h.run_assignStep (fun row => { row with attempt := nextAttempt attempt }) env with
    ⟨db₁, hattempt, h₁⟩
  have hallowed : StepStatus.failed ∈ allowedStepTransitions row.status := by
    simp [hrunning, allowedStepTransitions]
  rcases h₁.run_transitionStep hallowed (some exc.str) env with
    ⟨db₂, env₂, now, hfailed, hlater, h₂⟩
  refine ⟨db₂.commit, env₂, stepTransition { row with attempt := nextAttempt attempt } .failed now
    (some exc.str) { row with attempt := nextAttempt attempt }, ?_, hlater, ?_, rfl, fun k hk hk' => ?_⟩
  · rw [failStepTask, Prog.run_bind_ok hattempt, Prog.run_bind_ok hfailed]
    rfl
  · rw [DbState.row_committed_commit, h₂.step]
  · rw [DbState.row_committed_commit, h₂.others k hk hk']

/-- The handler of `execute_step`, for a step that is completed. -/
theorem run_failStepTask_refused (h : JobSession t se ex row e db)
    (hcompleted : row.status = .completed) (attempt : Nat) (exc : PyError) (env : Environment) :
    ∃ db' exc', (failStepTask se attempt exc).run ⟨db, env⟩ =
      (.error (.exception exc'), ⟨db', env⟩) ∧ db'.committed = t := by
  rcases h.run_assignStep (fun row => { row with attempt := nextAttempt attempt }) env with
    ⟨db₁, hattempt, h₁⟩
  have hforbidden : StepStatus.failed ∉ allowedStepTransitions row.status := by
    simp [hcompleted, allowedStepTransitions]
  rcases h₁.run_transitionStep_refused hforbidden (some exc.str) env with ⟨exc', hrefused⟩
  refine ⟨db₁, exc', ?_, h₁.committed⟩
  rw [failStepTask, Prog.run_bind_ok hattempt]
  exact Prog.run_bind_error hrefused

/-- A job that is ready, from the point where both rows are loaded. -/
theorem run_runStepTaskWith (h : JobSession t se ex row e db) (hqueued : row.status = .queued)
    (htype : StepType.ofValue? row.stepType = some type) (executors : Executors)
    (env : Environment) :
    ∃ db₁ env₁, env.Later [] env₁ ∧ ∀ (result : Except PyError (Dict String Json)) env₂,
      (executors ⟨ex, row.stepId⟩ type row.inputData (getStepInput e.context)).run ⟨db₁, env₁⟩ =
        (result.mapError Raised.exception, ⟨db₁, env₂⟩) →
      ∃ ended db' env', (runStepTaskWith executors se ex row e).run ⟨db, env⟩ =
          (ended, ⟨db', env'⟩) ∧ env₂.Later [] env' ∧
        JobEnds t se ex row e result ended db'.committed := by
  have hallowed : StepStatus.running ∈ allowedStepTransitions row.status := by
    simp [hqueued, allowedStepTransitions]
  rcases h.run_transitionStep hallowed none env with ⟨db₁, env₁, now, hstarted, hlater, h₁⟩
  have hrunning : (stepTransition row .running now none row).status = .running := rfl
  refine ⟨db₁, env₁, hlater, fun result env₂ hexecute => ?_⟩
  have hstart : ∀ {ended : Except Raised (Dict String Json)} {w' : World},
      (finishStepWith executors se ex type row e).run ⟨db₁, env₁⟩ = (ended, w') →
      (runStepTaskWith executors se ex row e).run ⟨db, env⟩ =
        (endStepTask se row.attempt ended).run w' := by
    intro ended w' hfinish
    have hattempt : Prog.run (Script.attempt (finishStepWith executors se ex type row e) :
        Prog (Except Raised (Dict String Json))) ⟨db₁, env₁⟩ = (.ok ended, w') := by
      rw [Prog.run_attempt, hfinish]
    rw [runStepTaskWith, Prog.run_bind_ok hstarted, htype]
    exact Prog.run_bind_ok hattempt
  cases result with
  | error exc =>
    rcases run_failStepTask h₁ hrunning row.attempt exc env₂ with
      ⟨db', env', row', hfail, hlater', hstep, hstatus, hothers⟩
    exact ⟨_, db', env', (hstart (run_finishStepWith_error hexecute)).trans hfail, hlater',
      .failed hstep hstatus hothers⟩
  | ok output =>
    cases hmerge : mergedContext e.context row.stepId output with
    | ok ctx =>
      rcases run_finishStepWith_ok h₁ hrunning hexecute hmerge with
        ⟨db', env', row', hfinish, hlater', hstep, hstatus, hothers⟩
      exact ⟨_, db', env', hstart hfinish, hlater', .completed hmerge hstep hstatus hothers⟩
    | error exc =>
      -- the step is completed by now, so the handler cannot fail it
      rcases run_finishStepWith_refused h₁ hrunning hexecute hmerge with
        ⟨db₂, env', row', hfinish, hlater', h₂, hcompleted⟩
      rcases run_failStepTask_refused h₂ hcompleted row.attempt exc env' with
        ⟨db', exc', hfail, hcommitted⟩
      refine ⟨_, db', env', (hstart hfinish).trans hfail, hlater', ?_⟩
      rw [hcommitted]
      exact .refused hmerge

/-- A step that is not queued, or of no type, is not begun, whatever the executors are. -/
theorem run_runStepTaskWith_not_ready (h : JobSession t se ex row e db)
    (hnot : ¬ (row.status = .queued ∧ (StepType.ofValue? row.stepType).isSome = true))
    (env : Environment) :
    ∃ exc db' env', (∀ executors, (runStepTaskWith executors se ex row e).run ⟨db, env⟩ =
      (.error (.exception exc), ⟨db', env'⟩)) ∧ env.Later [] env' ∧ db'.committed = t := by
  by_cases hqueued : row.status = .queued
  · cases htype : StepType.ofValue? row.stepType with
    | some type => exact absurd ⟨hqueued, by rw [htype, Option.isSome_some]⟩ hnot
    | none =>
      have hallowed : StepStatus.running ∈ allowedStepTransitions row.status := by
        simp [hqueued, allowedStepTransitions]
      rcases h.run_transitionStep hallowed none env with ⟨db₁, env₁, now, hstarted, hlater, h₁⟩
      refine ⟨.other "ValueError" "not a valid StepType", db₁, env₁, fun executors => ?_, hlater,
        h₁.committed⟩
      rw [runStepTaskWith, Prog.run_bind_ok hstarted, htype]
      rfl
  · have hforbidden : StepStatus.running ∉ allowedStepTransitions row.status := by
      cases hstatus : row.status <;> simp_all [allowedStepTransitions]
    rcases h.run_transitionStep_refused hforbidden none env with ⟨exc, hrefused⟩
    exact ⟨exc, db, env, fun _ => Prog.run_bind_error hrefused, Environment.Later.refl env,
      h.committed⟩

end

/-! ## The task from its arguments -/

section

variable {t : Rows Row} {se ex : Uuid} {row : StepExecution} {e : Execution} {type : StepType}
  {seText exText : String}

/-- A session that has loaded the two rows of a job. -/
theorem jobSession_loaded (hstep : Rows.row t (.step se) = some row)
    (hexecution : Rows.row t (.execution ex) = some e) :
    ∃ db, JobSession t se ex row e db ∧ ∀ env,
      (selectStep se).run ⟨⟨t, Session.fresh⟩, env⟩ =
        (.ok (some row), ⟨DbState.load ⟨t, Session.fresh⟩ (.step se) row (), env⟩) ∧
      (selectExecution ex (fun _ => true)).run
          ⟨DbState.load ⟨t, Session.fresh⟩ (.step se) row (), env⟩ =
        (.ok (some e), ⟨db, env⟩) := by
  have hview : ∀ k, DbState.view (⟨t, Session.fresh⟩ : Db) k = Rows.row t k :=
    fun k => DbState.view_of_not_pending (List.not_mem_nil)
  have hnone : ∀ k, DbState.loaded (⟨t, Session.fresh⟩ : Db) k = none := fun k => rfl
  let db₁ : Db := DbState.load ⟨t, Session.fresh⟩ (.step se) row ()
  refine ⟨db₁.load (.execution ex) e .nothing, ⟨rfl, ?_, ?_, ?_, ?_, fun k _ _ => hview k⟩,
    fun env => ⟨?_, ?_⟩⟩
  · exact (hview _).trans hstep
  · rw [DbState.loaded_load_ne _ _ _ (by simp)]
    exact DbState.loaded_load_self _ _ _ _
  · exact (hview _).trans hexecution
  · exact DbState.loaded_load_self _ _ _ _
  · rw [selectStep, run_db, DbState.answer_select_new ((hview _).trans hstep) rfl (hnone _)]
  · have hloaded : db₁.loaded (.execution ex) = none := by
      rw [DbState.loaded_load_ne _ _ _ (by simp), hnone]
    have hseen : db₁.view (.execution ex) = some e := (hview _).trans hexecution
    show (selectExecution ex (fun _ => true)).run ⟨db₁, env⟩ = _
    rw [selectExecution, run_db, DbState.answer_select_new hseen rfl hloaded]
    rfl

/-- With both rows loaded the task goes on. -/
theorem run_executeStepWith_loaded (hse : uuidOf (.str seText) = .ok se)
    (hex : uuidOf (.str exText) = .ok ex) {w w' w'' : World}
    (hstep : (selectStep se).run w = (.ok (some row), w'))
    (hexecution : (selectExecution ex (fun _ => true)).run w' = (.ok (some e), w''))
    (executors : Executors) :
    (executeStepWith executors seText exText).run w =
      (runStepTaskWith executors se ex row e).run w'' := by
  rw [executeStepWith, hse, hex, Prog.run_bind_ok (Prog.run_liftExcept _ _),
    Prog.run_bind_ok (Prog.run_liftExcept _ _), Prog.run_bind_ok hstep]
  exact Prog.run_bind_ok hexecution

/-- What a job does that is ready. -/
theorem run_executeStepWith_ready (h : JobReady t se ex row e type)
    (hse : uuidOf (.str seText) = .ok se) (hex : uuidOf (.str exText) = .ok ex)
    (executors : Executors) (env : Environment) :
    ∃ db₁ env₁, env.Later [] env₁ ∧ ∀ (result : Except PyError (Dict String Json)) env₂,
      (executors ⟨ex, row.stepId⟩ type row.inputData (getStepInput e.context)).run ⟨db₁, env₁⟩ =
        (result.mapError Raised.exception, ⟨db₁, env₂⟩) →
      ∃ ended db' env', (executeStepWith executors seText exText).run
          ⟨⟨t, Session.fresh⟩, env⟩ = (ended, ⟨db', env'⟩) ∧ env₂.Later [] env' ∧
        JobEnds t se ex row e result ended db'.committed := by
  rcases jobSession_loaded h.step h.execution with ⟨db, hsession, hselects⟩
  rcases run_runStepTaskWith hsession h.queued h.type_eq executors env with
    ⟨db₁, env₁, hlater, hrun⟩
  refine ⟨db₁, env₁, hlater, fun result env₂ hexecute => ?_⟩
  rcases hrun result env₂ hexecute with ⟨ended, db', env', htask, hlater', hends⟩
  refine ⟨ended, db', env', ?_, hlater', hends⟩
  rw [← htask]
  exact run_executeStepWith_loaded hse hex (hselects env).1 (hselects env).2 executors

/-- The step is not there. -/
theorem run_executeStepWith_no_step (hse : uuidOf (.str seText) = .ok se)
    (hex : uuidOf (.str exText) = .ok ex) {w w' : World}
    (hselect : (selectStep se).run w = (.ok none, w')) (executors : Executors) :
    (executeStepWith executors seText exText).run w =
      (.error (.exception (.app ⟨.notFound, "Step execution " ++ seText ++ " not found.", 404, []⟩)),
        w') := by
  rw [executeStepWith, hse, hex, Prog.run_bind_ok (Prog.run_liftExcept _ _),
    Prog.run_bind_ok (Prog.run_liftExcept _ _)]
  exact Prog.run_bind_ok hselect

/-- The execution is not there. -/
theorem run_executeStepWith_no_execution (hse : uuidOf (.str seText) = .ok se)
    (hex : uuidOf (.str exText) = .ok ex) {w w' w'' : World}
    (hstep : (selectStep se).run w = (.ok (some row), w'))
    (hselect : (selectExecution ex (fun _ => true)).run w' = (.ok none, w''))
    (executors : Executors) :
    (executeStepWith executors seText exText).run w =
      (.error (.exception (.app ⟨.notFound, "Execution " ++ exText ++ " not found.", 404, []⟩)),
        w'') := by
  rw [executeStepWith, hse, hex, Prog.run_bind_ok (Prog.run_liftExcept _ _),
    Prog.run_bind_ok (Prog.run_liftExcept _ _), Prog.run_bind_ok hstep]
  exact Prog.run_bind_ok hselect

/-- A job that is not ready raises and commits nothing, whatever the executors are. -/
theorem run_executeStepWith_not_ready
    (h : ∀ se ex row e type, uuidOf (.str seText) = .ok se → uuidOf (.str exText) = .ok ex →
      ¬ JobReady t se ex row e type) (env : Environment) :
    ∃ exc db' env', (∀ executors, (executeStepWith executors seText exText).run
      ⟨⟨t, Session.fresh⟩, env⟩ = (.error (.exception exc), ⟨db', env'⟩)) ∧
        env.Later [] env' ∧ db'.committed = t := by
  have hview : ∀ k, DbState.view (⟨t, Session.fresh⟩ : Db) k = Rows.row t k :=
    fun k => DbState.view_of_not_pending (List.not_mem_nil)
  cases hse : uuidOf (.str seText) with
  | error exc =>
    refine ⟨exc, ⟨t, Session.fresh⟩, env, fun executors => ?_, Environment.Later.refl env, rfl⟩
    rw [executeStepWith, hse]
    rfl
  | ok se =>
  cases hex : uuidOf (.str exText) with
  | error exc =>
    refine ⟨exc, ⟨t, Session.fresh⟩, env, fun executors => ?_, Environment.Later.refl env, rfl⟩
    rw [executeStepWith, hse, hex]
    rfl
  | ok ex =>
  cases hstep : Rows.row t (.step se) with
  | none =>
    have hselect : (selectStep se).run ⟨⟨t, Session.fresh⟩, env⟩ =
        (.ok none, ⟨⟨t, Session.fresh⟩, env⟩) := by
      rw [selectStep, run_db, DbState.answer_select_none fun row hrow => ?_]
      rw [hview, hstep] at hrow
      cases hrow
    exact ⟨_, _, env, run_executeStepWith_no_step hse hex hselect, Environment.Later.refl env, rfl⟩
  | some row =>
  cases hexecution : Rows.row t (.execution ex) with
  | none =>
    have hselect : (selectStep se).run ⟨⟨t, Session.fresh⟩, env⟩ =
        (.ok (some row), ⟨DbState.load ⟨t, Session.fresh⟩ (.step se) row (), env⟩) := by
      rw [selectStep, run_db, DbState.answer_select_new ((hview _).trans hstep) rfl rfl]
    have hselect' : (selectExecution ex (fun _ => true)).run
        ⟨DbState.load ⟨t, Session.fresh⟩ (.step se) row (), env⟩ =
        (.ok none, ⟨DbState.load ⟨t, Session.fresh⟩ (.step se) row (), env⟩) := by
      rw [selectExecution, run_db, DbState.answer_select_none fun e he => ?_]
      rw [DbState.view_load, hview, hexecution] at he
      cases he
    exact ⟨_, _, env, run_executeStepWith_no_execution hse hex hselect hselect',
      Environment.Later.refl env, rfl⟩
  | some e =>
  rcases jobSession_loaded hstep hexecution with ⟨db, hsession, hselects⟩
  have hnot : ¬ (row.status = .queued ∧ (StepType.ofValue? row.stepType).isSome = true) := by
    rintro ⟨hqueued, htype⟩
    rcases Option.isSome_iff_exists.mp htype with ⟨type, htype⟩
    exact h se ex row e type hse hex ⟨hstep, hexecution, hqueued, htype⟩
  rcases run_runStepTaskWith_not_ready hsession hnot env with
    ⟨exc, db', env', hrun, hlater, hcommitted⟩
  refine ⟨exc, db', env', fun executors => ?_, hlater, hcommitted⟩
  rw [run_executeStepWith_loaded hse hex (hselects env).1 (hselects env).2]
  exact hrun executors

end

/-! ## The executors of the registry -/

section

variable (libs : Libraries) (settings : Settings) (start : Start)

/-- On the input that `execute_step` hands to it, an executor of the registry
leaves the database alone, and what it returns or raises depends on the HTTP
servers only. -/
theorem run_stepRegistry (caller : Caller) (type : StepType) (config ctx : Dict String Json)
    (server : List Event → HttpRequest → Except HttpFailure HttpResponse) (events : List Event) :
    ∃ result : Except PyError (Dict String Json), ∀ w : World, w.env.server = server → w.env.events = events →
      ∃ env', (stepRegistry libs settings start caller type config (getStepInput ctx)).run w =
        (result.mapError Raised.exception, ⟨w.db, env'⟩) ∧ w.env.Later [] env' := by
  cases type with
  | http =>
    cases hrequest : HttpExecutor.request libs httpStepTimeout config (getStepInput ctx) with
    | error exc =>
      refine ⟨.error exc, fun w _ _ => ⟨w.env, ?_, Environment.Later.refl _⟩⟩
      show (HttpExecutor.execute libs config (getStepInput ctx)).run w = _
      rw [HttpExecutor.execute, hrequest]
      rfl
    | ok request =>
      refine ⟨HttpExecutor.result request (server events request), fun w hserver hevents =>
        ⟨w.env, ?_, Environment.Later.refl _⟩⟩
      show (HttpExecutor.execute libs config (getStepInput ctx)).run w = _
      have hsend : (httpRequest request).run w = (.ok (w.env.server w.env.events request), w) := rfl
      rw [HttpExecutor.execute, hrequest, Prog.run_bind_ok (Prog.run_liftExcept _ _),
        Prog.run_bind_ok hsend, hserver, hevents]
      rfl
  | transform =>
    exact ⟨TransformExecutor.execute libs config (getStepInput ctx), fun w _ _ =>
      ⟨w.env, rfl, Environment.Later.refl _⟩⟩
  | condition =>
    exact ⟨ConditionExecutor.execute libs config (getStepInput ctx), fun w _ _ =>
      ⟨w.env, rfl, Environment.Later.refl _⟩⟩
  | delay =>
    show ∃ result : Except PyError (Dict String Json), ∀ w : World, w.env.server = server →
      w.env.events = events → ∃ env', (DelayExecutor.execute config).run w =
        (result.mapError Raised.exception, ⟨w.db, env'⟩) ∧ w.env.Later [] env'
    unfold DelayExecutor.execute
    split
    · exact ⟨.error _, fun w _ _ => ⟨w.env, rfl, Environment.Later.refl _⟩⟩
    · split
      · exact ⟨.error _, fun w _ _ => ⟨w.env, rfl, Environment.Later.refl _⟩⟩
      · split
        · exact ⟨.error _, fun w _ _ => ⟨w.env, rfl, Environment.Later.refl _⟩⟩
        · split
          · exact ⟨.error _, fun w _ _ => ⟨w.env, rfl, Environment.Later.refl _⟩⟩
          · exact ⟨.ok _, fun w _ _ => ⟨w.env, rfl, Environment.Later.refl _⟩⟩
  | subWorkflow =>
    -- the input has no tenant id
    have htenant : tenantVar (getStepInput ctx) = .error (.other "KeyError" "_tenant_id") := rfl
    rcases SubWorkflowExecutor.execute_of_tenantVar htenant libs settings start caller config with
      ⟨exc, hexecute⟩
    refine ⟨.error exc, fun w _ _ => ⟨w.env, ?_, Environment.Later.refl _⟩⟩
    show (SubWorkflowExecutor.execute libs settings start caller config (getStepInput ctx)).run w = _
    rw [hexecute]
    rfl

/-! ## The rows that a job changes -/

/-- The three ids of a job name a step, its execution and the tenant of both. -/
def JobBelongs (t : Rows Row) (seText exText tenantText : String) : Prop :=
  ∃ se ex tenant row e, uuidOf (.str seText) = .ok se ∧ uuidOf (.str exText) = .ok ex ∧
    uuidOf (.str tenantText) = .ok tenant ∧ Rows.row t (.step se) = some row ∧
    Rows.row t (.execution ex) = some e ∧ row.executionId = ex ∧ row.tenantId = tenant ∧
    e.tenantId = tenant

/-- A job that ends with `result` and takes the committed rows from `t` to `t'`
has stayed inside its execution and tenant. -/
structure JobContained (t t' : Rows Row) (result : Except Raised (Dict String Json))
    (seText exText tenantText : String) : Prop where
  belongs : JobBelongs t seText exText tenantText →
    ∀ se ex, uuidOf (.str seText) = .ok se → uuidOf (.str exText) = .ok ex → SameBut se ex t t'
  other : ¬ JobBelongs t seText exText tenantText →
    (∃ exc, result = .error (.exception exc)) ∧ ∀ k, Rows.row t' k = Rows.row t k

/-- The context has something under `steps` that `dict` refuses. -/
def StepsRefused (context : Dict String Json) : Prop :=
  ∃ exc, dictOf (Dict.getD context "steps" (.obj [])) = .error exc

theorem stepsRefused_of_mergedContext {context output : Dict String Json} {stepId : String}
    {exc : PyError} (h : mergedContext context stepId output = .error exc) :
    StepsRefused context := by
  unfold mergedContext at h
  cases hsteps : dictOf (Dict.getD context "steps" (.obj [])) with
  | error exc' => exact ⟨exc', hsteps⟩
  | ok steps =>
    rw [hsteps] at h
    cases h

theorem not_stepsRefused {context output ctx : Dict String Json} {stepId : String}
    (h : mergedContext context stepId output = .ok ctx) : ¬ StepsRefused context := by
  rintro ⟨exc, hexc⟩
  unfold mergedContext at h
  rw [hexc] at h
  cases h

/-- Both rows are there, whoever they belong to, the step is queued, its type is
known, and its output can be merged if there is one. -/
def JobWrites (w : World) (seText exText : String) : Prop :=
  ∃ se ex row e type, uuidOf (.str seText) = .ok se ∧ uuidOf (.str exText) = .ok ex ∧
    JobReady w.db.committed se ex row e type ∧
    ¬ (StepsRefused e.context ∧ ∃ output,
      ((stepRegistry libs settings start ⟨ex, row.stepId⟩ type row.inputData
        (getStepInput e.context)).run w).1 = .ok output)

variable {libs settings start}

/-- A job that has changed its step. -/
theorem jobContained_iff_of_changed {t t' : Rows Row} {se ex : Uuid}
    {result : Except Raised (Dict String Json)} {seText exText : String} (tenantText : String)
    (hse : uuidOf (.str seText) = .ok se) (hex : uuidOf (.str exText) = .ok ex)
    (hothers : SameBut se ex t t') (hchanged : Rows.row t' (.step se) ≠ Rows.row t (.step se)) :
    JobContained t t' result seText exText tenantText ↔
      JobBelongs t seText exText tenantText := by
  constructor
  · intro h
    by_contra hnot
    exact hchanged ((h.other hnot).2 (.step se))
  · intro hbelongs
    refine ⟨fun _ se' ex' hse' hex' => ?_, fun hnot => absurd hbelongs hnot⟩
    rw [hse] at hse'
    rw [hex] at hex'
    cases hse'
    cases hex'
    exact hothers

/-- A job stays inside its execution and tenant exactly if its ids belong
together, or if it cannot write at all. -/
theorem executeStep_contained_iff (w : World) (seText exText tenantText : String) :
    let ended := (executeStep libs settings start seText exText).run w.opened
    JobContained w.db.committed ended.2.db.committed ended.1 seText exText tenantText ↔
      JobBelongs w.db.committed seText exText tenantText ∨
        ¬ JobWrites libs settings start w seText exText := by
  intro ended
  by_cases hready : ∃ se ex row e type, uuidOf (.str seText) = .ok se ∧
      uuidOf (.str exText) = .ok ex ∧ JobReady w.db.committed se ex row e type
  · rcases hready with ⟨se, ex, row, e, type, hse, hex, hready⟩
    rcases run_stepRegistry libs settings start ⟨ex, row.stepId⟩ type row.inputData e.context
      w.env.server w.env.events with ⟨result, hresult⟩
    rcases run_executeStepWith_ready hready hse hex (stepRegistry libs settings start) w.env with
      ⟨db₁, env₁, hlater, hrun⟩
    rcases hresult ⟨db₁, env₁⟩ hlater.server (by simpa using hlater.events) with
      ⟨env₂, hexecute, -⟩
    rcases hrun result env₂ hexecute with ⟨result', db', env', hended, -, hends⟩
    have heq : ended = (result', ⟨db', env'⟩) := hended
    rcases hresult w rfl rfl with ⟨_, hexecuteFirst, -⟩
    have hwrites : JobWrites libs settings start w seText exText ↔
        ¬ (StepsRefused e.context ∧ ∃ output, result = .ok output) := by
      have hyields : (∃ output, ((stepRegistry libs settings start ⟨ex, row.stepId⟩ type
          row.inputData (getStepInput e.context)).run w).1 = .ok output) ↔
          ∃ output, result = .ok output := by
        rw [hexecuteFirst]
        cases result <;> simp [Except.mapError]
      constructor
      · rintro ⟨se', ex', row', e', type', hse', hex', hready', hnot⟩
        -- the texts of the ids determine the rows
        rw [hse] at hse'
        rw [hex] at hex'
        cases hse'
        cases hex'
        have hrow := hready'.step
        have hexecution := hready'.execution
        rw [hready.step] at hrow
        rw [hready.execution] at hexecution
        cases hrow
        cases hexecution
        have htype := hready'.type_eq
        rw [hready.type_eq] at htype
        cases htype
        rwa [hyields] at hnot
      · intro hnot
        exact ⟨se, ex, row, e, type, hse, hex, hready, by rwa [hyields]⟩
    have hchanged : ∀ {row' : StepExecution}, Rows.row db'.committed (.step se) = some row' →
        row'.status ≠ .queued →
        Rows.row db'.committed (.step se) ≠ Rows.row w.db.committed (.step se) := by
      intro row' hrow' hstatus hsame
      rw [hrow', hready.step] at hsame
      exact hstatus ((congrArg StepExecution.status (Option.some.inj hsame)).trans hready.queued)
    rw [heq, hwrites, not_not]
    show JobContained w.db.committed db'.committed result' seText exText tenantText ↔ _
    generalize db'.committed = t' at hends hchanged ⊢
    cases hends with
    | completed hmerge hstep hstatus hothers =>
      rw [jobContained_iff_of_changed tenantText hse hex hothers (hchanged hstep (by simp [hstatus]))]
      exact (or_iff_left fun h => not_stepsRefused hmerge h.1).symm
    | failed hstep hstatus hothers =>
      rw [jobContained_iff_of_changed tenantText hse hex hothers (hchanged hstep (by simp [hstatus]))]
      refine (or_iff_left ?_).symm
      rintro ⟨-, output, houtput⟩
      cases houtput
    | refused hmerge =>
      refine iff_of_true ⟨?_, ?_⟩ (.inr ⟨stepsRefused_of_mergedContext hmerge, _, rfl⟩)
      · exact fun _ se ex _ _ k _ _ => rfl
      · exact fun _ => ⟨⟨_, rfl⟩, fun k => rfl⟩
  · have hnot : ¬ JobWrites libs settings start w seText exText := by
      rintro ⟨se, ex, row, e, type, hse, hex, h, -⟩
      exact hready ⟨se, ex, row, e, type, hse, hex, h⟩
    rcases run_executeStepWith_not_ready (fun se ex row e type hse hex h =>
      hready ⟨se, ex, row, e, type, hse, hex, h⟩) w.env with
      ⟨exc, db', env', hended, -, hcommitted⟩
    have heq : ended = (.error (.exception exc), ⟨db', env'⟩) := hended _
    rw [heq]
    refine iff_of_true ⟨fun _ se ex _ _ k _ _ => ?_, fun _ => ⟨⟨exc, rfl⟩, fun k => ?_⟩⟩ (.inr hnot)
    · rw [hcommitted]
    · rw [hcommitted]

end

/-- The execution 1 of the tenant 1 with a queued step 3, and the execution 2 of
the tenant 2. -/
def twoTenants : Rows Row :=
  Rows.ofList
    [⟨.execution 1, newExecution 1 1 [] none⟩, ⟨.execution 2, newExecution 2 2 [] none⟩,
      ⟨.step 3, { newStepExecution 1 1 (plainStep "check" .transform [] [] check_length) with
        status := .queued, inputData := [("expression", .str "a")] }⟩]

/-- A job with the step of one tenant and the execution of another. -/
def mixedJob : Except Raised (Dict String Json) × World :=
  (executeStep plainLibraries {} (fun _ _ _ _ _ _ => Script.raise .outOfFuel)
    "00000000-0000-0000-0000-000000000003" "00000000-0000-0000-0000-000000000002").run
    ⟨⟨twoTenants, Session.fresh⟩, plainEnvironment (fun _ _ => .ok [])⟩

/-- The output of the step of the tenant 1 goes into the execution of the
tenant 2. -/
theorem not_jobContained :
    ¬ JobContained twoTenants mixedJob.2.db.committed mixedJob.1
      "00000000-0000-0000-0000-000000000003" "00000000-0000-0000-0000-000000000002"
      "00000000-0000-0000-0000-000000000002" := by
  intro h
  have hse : uuidOf (.str "00000000-0000-0000-0000-000000000003") = .ok 3 := by rfl
  have hex : uuidOf (.str "00000000-0000-0000-0000-000000000002") = .ok 2 := by rfl
  have hnot : ¬ JobBelongs twoTenants "00000000-0000-0000-0000-000000000003"
      "00000000-0000-0000-0000-000000000002" "00000000-0000-0000-0000-000000000002" := by
    rintro ⟨se, ex, tenant, row, e, hse', hex', -, hrow, -, hid, -⟩
    rw [hse] at hse'
    rw [hex] at hex'
    cases hse'
    cases hex'
    cases hrow
    cases hid
  rcases (h.other hnot).1 with ⟨exc, hexc⟩
  have hok : mixedJob.1.isOk = true := by decide +kernel
  rw [hexc] at hok
  cases hok

end WorkflowEngine

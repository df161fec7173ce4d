import WorkflowEngine.Orchestrator

/-!
# The rows of one execution

A run works on one execution row and on the step rows of its `step_map`.  A
`Board` is the content of these rows, and `Shows` says that the session sees
this content, that its mapped objects carry it, and that nothing was committed
meanwhile.  The one attribute that can differ from its row is the `context` of
the mapped execution, which a board keeps apart.

Each function of the engine that reads or writes these rows has one lemma here
that says what it does to the board.
-/

namespace WorkflowEngine

open Py Orm Interact

/-- What stays the same in a run; `rest` are the rows that the session saw when the run
began. -/
structure RunIds where
  id : Uuid
  committed : Rows Row
  rest : (k : RowId) → Option (Row k)
  stepMap : Dict String Uuid
  stepMap_inj : ∀ {s s' : String} {sid : Uuid}, Dict.get? stepMap s = some sid →
    Dict.get? stepMap s' = some sid → s = s'

/-- The rows of an execution, and the `context` attribute of the mapped
execution. -/
structure Board where
  execution : Execution
  attrs : Dict String Json
  row : String → StepExecution

namespace Board

/-- The board with another row for one step. -/
def setRow (b : Board) (s : String) (row : StepExecution) : Board :=
  { b with row := Function.update b.row s row }

@[simp] theorem setRow_execution (b : Board) (s : String) (row : StepExecution) :
    (b.setRow s row).execution = b.execution := rfl

@[simp] theorem setRow_attrs (b : Board) (s : String) (row : StepExecution) :
    (b.setRow s row).attrs = b.attrs := rfl

@[simp] theorem setRow_row_self (b : Board) (s : String) (row : StepExecution) :
    (b.setRow s row).row s = row := by
  simp [setRow]

theorem setRow_row_ne (b : Board) {s s' : String} (row : StepExecution) (h : s' ≠ s) :
    (b.setRow s row).row s' = b.row s' := by
  simp [setRow, h]

@[simp] theorem setRow_setRow (b : Board) (s : String) (row row' : StepExecution) :
    (b.setRow s row).setRow s row' = b.setRow s row' := by
  simp [setRow]

end Board

/-- A view of the database has the rows of the board, no other step rows of the
execution, and outside the run the rows that were there before. -/
structure Seen (r : RunIds) (view : (k : RowId) → Option (Row k)) (b : Board) : Prop where
  execution : view (.execution r.id) = some b.execution
  step : ∀ {s sid}, Dict.get? r.stepMap s = some sid → view (.step sid) = some (b.row s)
  only : ∀ {sid} {row : StepExecution}, view (.step sid) = some row →
    row.executionId = r.id → ∃ s, Dict.get? r.stepMap s = some sid
  others : ∀ k, k ≠ .execution r.id →
    (∀ s sid, Dict.get? r.stepMap s = some sid → k ≠ .step sid) → view k = r.rest k

/-- The session sees the board, and its mapped objects carry it. -/
structure Shows (r : RunIds) (db : Db) (b : Board) : Prop where
  seen : Seen r db.view b
  committed : db.committed = r.committed
  mapped : db.loaded (.execution r.id) =
    some ({ b.execution with context := b.attrs }, .nothing)
  mappedStep : ∀ {s sid}, Dict.get? r.stepMap s = some sid →
    db.loaded (.step sid) = some (b.row s, ())

namespace Shows

variable {r : RunIds} {db : Db} {b : Board} {s : String} {sid : Uuid}

/-- Loading a step row again changes nothing. -/
theorem load_step (h : Shows r db b) (hs : Dict.get? r.stepMap s = some sid) :
    Shows r (db.load (.step sid) (b.row s) ()) b := by
  refine ⟨h.seen, h.committed, ?_, fun {s' sid'} hs' => ?_⟩
  · rw [DbState.loaded_load_ne _ _ _ (by simp), h.mapped]
  · by_cases heq : sid' = sid
    · subst heq
      obtain rfl := r.stepMap_inj hs hs'
      exact DbState.loaded_load_self _ _ _ _
    · rw [DbState.loaded_load_ne _ _ _ (by simpa using heq), h.mappedStep hs']

/-- A step row is written, and its object is kept in line. -/
theorem write_step (h : Shows r db b) (hs : Dict.get? r.stepMap s = some sid)
    (row : StepExecution) :
    Shows r ((db.load (.step sid) row ()).write (.step sid) (some row)) (b.setRow s row) := by
  have hview : ∀ k, k ≠ .step sid →
      ((db.load (.step sid) row ()).write (.step sid) (some row)).view k = db.view k := by
    intro k hk
    rw [DbState.view_write_ne _ _ hk, DbState.view_load]
  refine ⟨⟨?_, fun {s' sid'} hs' => ?_, fun {sid' row'} hrow hid => ?_, fun k hk hsteps => ?_⟩,
    h.committed, ?_, fun {s' sid'} hs' => ?_⟩
  · rw [hview _ (by simp), h.seen.execution, Board.setRow_execution]
  · by_cases heq : sid' = sid
    · subst heq
      obtain rfl := r.stepMap_inj hs hs'
      simp
    · have hne : s' ≠ s := by
        rintro rfl
        rw [hs] at hs'
        exact heq (Option.some.inj hs').symm
      rw [hview _ (by simpa using heq), h.seen.step hs', Board.setRow_row_ne _ _ hne]
  · by_cases heq : sid' = sid
    · exact ⟨s, heq ▸ hs⟩
    · rw [hview _ (by simpa using heq)] at hrow
      exact h.seen.only hrow hid
  · rw [hview k (hsteps s sid hs)]
    exact h.seen.others k hk hsteps
  · rw [DbState.loaded_write, DbState.loaded_load_ne _ _ _ (by simp), h.mapped]
    simp
  · rw [DbState.loaded_write]
    by_cases heq : sid' = sid
    · subst heq
      obtain rfl := r.stepMap_inj hs hs'
      simp
    · have hne : s' ≠ s := by
        rintro rfl
        rw [hs] at hs'
        exact heq (Option.some.inj hs').symm
      rw [DbState.loaded_load_ne _ _ _ (by simpa using heq), h.mappedStep hs',
        Board.setRow_row_ne _ _ hne]

/-- The `context` attribute of the mapped execution changes. -/
theorem load_execution (h : Shows r db b) (ctx : Dict String Json) :
    Shows r (db.load (.execution r.id) { b.execution with context := ctx } .nothing)
      { b with attrs := ctx } := by
  refine ⟨⟨h.seen.execution, h.seen.step, h.seen.only, h.seen.others⟩, h.committed, ?_,
    fun {s' sid'} hs' => ?_⟩
  · exact DbState.loaded_load_self _ _ _ _
  · rw [DbState.loaded_load_ne _ _ _ (by simp), h.mappedStep hs']

/-- The execution row is written, and the mapped object with it. -/
theorem write_execution (h : Shows r db b) (e : Execution) (ctx : Dict String Json) :
    Shows r ((db.load (.execution r.id) { e with context := ctx } .nothing).write
      (.execution r.id) (some e)) ⟨e, ctx, b.row⟩ := by
  have hview : ∀ k, k ≠ .execution r.id →
      ((db.load (.execution r.id) { e with context := ctx } .nothing).write
        (.execution r.id) (some e)).view k = db.view k := by
    intro k hk
    rw [DbState.view_write_ne _ _ hk, DbState.view_load]
  refine ⟨⟨by simp, fun {s' sid'} hs' => ?_, fun {sid' row'} hrow hid => ?_, fun k hk hsteps => ?_⟩,
    h.committed, ?_, fun {s' sid'} hs' => ?_⟩
  · rw [hview _ (by simp), h.seen.step hs']
  · rw [hview _ (by simp)] at hrow
    exact h.seen.only hrow hid
  · rw [hview k hk]
    exact h.seen.others k hk hsteps
  · rw [DbState.loaded_write]
    exact DbState.loaded_load_self _ _ _ _
  · rw [DbState.loaded_write, DbState.loaded_load_ne _ _ _ (by simp), h.mappedStep hs']

end Shows

/-! ## What the functions of the engine do to a board -/

section

variable {r : RunIds} {db : Db} {b : Board} {s : String} {sid : Uuid} {env : Environment}

/-- One statement of a session that runs alone. -/
theorem run_db (req : DbReq Row Memo) (db : Db) (env : Environment) :
    Prog.run (Script.send (S := engineSignature) (.db req)) ⟨db, env⟩ =
      (.ok (DbState.answer req db).1, ⟨(DbState.answer req db).2, env⟩) := rfl

theorem run_assignStep (h : Shows r db b) (hs : Dict.get? r.stepMap s = some sid)
    (f : StepExecution → StepExecution) (env : Environment) :
    ∃ db', (assignStep sid f).run ⟨db, env⟩ = (.ok (some (f (b.row s))), ⟨db', env⟩) ∧
      Shows r db' (b.setRow s (f (b.row s))) := by
  refine ⟨_, ?_, h.write_step hs (f (b.row s))⟩
  rw [assignStep, run_db, DbState.answer_touch (h.mappedStep hs) (h.seen.step hs) rfl]

theorem run_readStep (h : Shows r db b) (hs : Dict.get? r.stepMap s = some sid)
    (env : Environment) :
    ∃ db', (readStep sid).run ⟨db, env⟩ = (.ok (b.row s), ⟨db', env⟩) ∧ Shows r db' b := by
  refine ⟨_, ?_, h.load_step hs⟩
  rw [readStep, Prog.run_bind_ok (run_db _ _ _),
    DbState.answer_touch_silent (h.mappedStep hs) rfl]
  rfl

/-- A transition that the state machine allows is made. -/
theorem run_transitionStep (h : Shows r db b) (hs : Dict.get? r.stepMap s = some sid)
    {new : StepStatus} (hnew : new ∈ allowedStepTransitions (b.row s).status)
    (error : Option String) (env : Environment) :
    ∃ db' env' now,
      (transitionStep sid new error).run ⟨db, env⟩ =
        (.ok (stepTransition (b.row s) new now error (b.row s)), ⟨db', env'⟩) ∧
      env.Later [] env' ∧
      Shows r db' (b.setRow s (stepTransition (b.row s) new now error (b.row s))) := by
  obtain ⟨db', hrun, hshows⟩ := run_assignStep h hs
    (stepTransition (b.row s) new (env.clock env.readings) error)
    { env with readings := env.readings + 1 }
  refine ⟨db', _, env.clock env.readings, ?_, (Environment.Later.refl env).tick, hshows⟩
  have hselect : (selectStep sid).run ⟨db, env⟩ = (.ok (some (b.row s)), ⟨db, env⟩) := by
    rw [selectStep, run_db, DbState.answer_select_loaded (h.seen.step hs) rfl (h.mappedStep hs)]
  rw [transitionStep, Prog.run_bind_ok hselect]
  simp only [validateStepTransition_ok hnew]
  rw [Prog.run_bind_ok (Prog.run_liftExcept _ _), Prog.run_bind_ok (run_utcNow _),
    Prog.run_bind_ok hrun]
  rfl

theorem run_refreshExecution (h : Shows r db b) (env : Environment) :
    ∃ db', (refreshExecution r.id).run ⟨db, env⟩ = (.ok (some b.execution), ⟨db', env⟩) ∧
      Shows r db' { b with attrs := b.execution.context } := by
  refine ⟨_, ?_, h.load_execution b.execution.context⟩
  rw [refreshExecution, run_db, DbState.answer_refresh h.seen.execution]
  rfl

theorem run_assignExecution (h : Shows r db b) (f : Execution → Execution)
    (hf : ∀ e ctx, f { e with context := ctx } = { f e with context := ctx })
    (env : Environment) :
    ∃ db', (assignExecution r.id f).run ⟨db, env⟩ =
        (.ok (some { f b.execution with context := b.attrs }), ⟨db', env⟩) ∧
      Shows r db' ⟨f b.execution, b.attrs, b.row⟩ := by
  refine ⟨_, ?_, h.write_execution (f b.execution) b.attrs⟩
  rw [assignExecution, run_db, DbState.answer_touch h.mapped h.seen.execution rfl, hf]

theorem run_selectExecution (h : Shows r db b) (env : Environment) :
    (selectExecution r.id (fun _ => true)).run ⟨db, env⟩ =
      (.ok (some { b.execution with context := b.attrs }), ⟨db, env⟩) := by
  rw [selectExecution, run_db, DbState.answer_select_loaded h.seen.execution rfl h.mapped]

/-- A transition that the state machine allows is made. -/
theorem run_transitionExecution (h : Shows r db b) {new : ExecutionStatus}
    (hnew : new ∈ allowedExecutionTransitions b.execution.status) (env : Environment) :
    ∃ db' env' now e,
      (transitionExecution r.id new).run ⟨db, env⟩ = (.ok e, ⟨db', env'⟩) ∧
      env.Later [] env' ∧
      Shows r db' ⟨executionTransition b.execution new now b.execution, b.attrs, b.row⟩ := by
  obtain ⟨db', hrun, hshows⟩ := run_assignExecution h
    (executionTransition b.execution new (env.clock env.readings)) (fun _ _ => rfl)
    { env with readings := env.readings + 1 }
  refine ⟨db', _, env.clock env.readings,
    { executionTransition b.execution new (env.clock env.readings) b.execution with
      context := b.attrs }, ?_, (Environment.Later.refl env).tick, hshows⟩
  rw [transitionExecution, transitionExecutionWith, Prog.run_bind_ok (run_selectExecution h env)]
  simp only [validateExecutionTransition_ok hnew]
  rw [Prog.run_bind_ok (Prog.run_liftExcept _ _), Prog.run_bind_ok (run_utcNow _),
    Prog.run_bind_ok (Prog.run_liftExcept _ _)]
  exact Prog.run_bind_ok hrun

/-- A context that is assigned and differs from the loaded one is written. -/
theorem run_assignContext (h : Shows r db b) {ctx : Dict String Json}
    (hctx : contextEq ctx b.attrs = false) (env : Environment) :
    ∃ db', (do
        let _ ← touchContext r.id (Tracked.assign ctx)
        let _ ← flushContext r.id).run ⟨db, env⟩ = (.ok (), ⟨db', env⟩) ∧
      Shows r db' ⟨{ b.execution with context := ctx }, ctx, b.row⟩ := by
  let changed := db.load (.execution r.id) { b.execution with context := ctx } (.other b.attrs)
  have htouch : (touchContext r.id (Tracked.assign ctx)).run ⟨db, env⟩ =
      (.ok (some { b.execution with context := ctx }), ⟨changed, env⟩) := by
    rw [touchContext, run_db, DbState.answer_touch_silent h.mapped rfl]
    rfl
  have hflush : (flushContext r.id).run ⟨changed, env⟩ =
      (.ok (some { b.execution with context := ctx }),
        ⟨(changed.load (.execution r.id) { b.execution with context := ctx } .nothing).write
          (.execution r.id) (some { b.execution with context := ctx }), env⟩) := by
    have hwritten : (Tracked.written contextEq ⟨ctx, .other b.attrs⟩) = some ctx := by
      simp [Tracked.written, hctx]
    rw [flushContext, run_db, DbState.answer_touch (DbState.loaded_load_self _ _ _ _)
      h.seen.execution (by simp only [contextOf, hwritten]; rfl)]
    rfl
  refine ⟨_, (Prog.run_bind_ok htouch).trans (Prog.run_bind_ok hflush), ?_⟩
  rw [DbState.load_load]
  exact h.write_execution { b.execution with context := ctx } ctx

end

end WorkflowEngine

import WorkflowEngine.Callers
import WorkflowEngine.Operations
import WorkflowEngine.Plain

/-!
# What a cancellation commits

`cancel_execution` in a session of its own.  Its objects are `Current`: each of
them is as the row that it was loaded from, or as it was written.  So the loop over
the steps meets no transition that the state machine refuses, and what is committed
in the end differs from what was there in the rows of this execution only.

What can stop it is the duration.  The column `duration_ms` is a 32-bit integer, and
the flush of the transition fails for an execution that was started more than 24
days ago: `cancelsWhole_iff`.
-/

namespace WorkflowEngine

open Py Orm Interact

/-- Each object of the session is as its row. -/
def Current (db : Db) : Prop :=
  ∀ k attrs memo, db.loaded k = some (attrs, memo) → db.view k = some attrs

namespace Current

variable {db : Db} {env : Environment}

theorem opened (t : Rows Row) : Current ⟨t, Session.fresh⟩ := fun _ _ _ h => nomatch h

theorem load (h : Current db) {k : RowId} {row : Row k} (hview : db.view k = some row)
    (memo : Memo k) : Current (db.load k row memo) := by
  intro k' attrs memo' hloaded
  by_cases hk : k' = k
  · subst hk
    rw [DbState.loaded_load_self] at hloaded
    cases hloaded
    exact hview
  · rw [DbState.loaded_load_ne _ _ _ hk] at hloaded
    exact h k' attrs memo' hloaded

theorem put (h : Current db) (k : RowId) (row : Row k) (memo : Memo k) :
    Current ((db.load k row memo).write k (some row)) := by
  intro k' attrs memo' hloaded
  rw [DbState.loaded_write] at hloaded
  by_cases hk : k' = k
  · subst hk
    rw [DbState.loaded_load_self] at hloaded
    cases hloaded
    exact DbState.view_write_self _ _ _
  · rw [DbState.loaded_load_ne _ _ _ hk] at hloaded
    exact (DbState.view_write_ne _ _ hk).trans (h k' attrs memo' hloaded)

theorem loadAll (h : Current db) (ks : List RowId) : Current (DbState.loadAll db ks) := by
  induction ks generalizing db with
  | nil => exact h
  | cons k ks ih =>
    unfold DbState.loadAll
    split
    · rename_i row _ hview
      exact ih (h.load hview _)
    · exact ih h

end Current

/-- The session has loaded the row, if it had not yet. -/
structure Fetched (db db' : Db) (k : RowId) (row : Row k) : Prop where
  current : Current db'
  committed : db'.committed = db.committed
  view : ∀ k', db'.view k' = db.view k'
  object : ∃ memo, db'.loaded k = some (row, memo)
  loaded : ∀ k', (db.loaded k').isSome = true → (db'.loaded k').isSome = true

/-- The session has written the row, and nothing else. -/
structure Assigned (db db' : Db) (k : RowId) (row : Row k) : Prop where
  current : Current db'
  committed : db'.committed = db.committed
  row : db'.view k = some row
  others : ∀ k', k' ≠ k → db'.view k' = db.view k'
  loaded : ∀ k', (db.loaded k').isSome = true → (db'.loaded k').isSome = true

theorem Fetched.assigned {db db' db'' : Db} {k : RowId} {row row' : Row k}
    (h : Fetched db db' k row) (h' : Assigned db' db'' k row') : Assigned db db'' k row' :=
  ⟨h'.current, h'.committed.trans h.committed, h'.row,
    fun k' hk => (h'.others k' hk).trans (h.view k'), fun k' hk => h'.loaded k' (h.loaded k' hk)⟩

section

variable {db : Db} (env : Environment)

/-- A `select` gives the row. -/
theorem Current.select (h : Current db) {k : RowId} {row : Row k} (hview : db.view k = some row)
    {p : Row k → Bool} (hp : p row = true) :
    ∃ db', DbState.answer (.select k p) db = (some row, db') ∧ Fetched db db' k row := by
  cases hloaded : db.loaded k with
  | some obj =>
    have hattrs := h k obj.1 obj.2 hloaded
    rw [hview] at hattrs
    cases hattrs
    exact ⟨db, DbState.answer_select_loaded hview hp hloaded, h, rfl, fun _ => rfl,
      ⟨obj.2, hloaded⟩, fun _ hk => hk⟩
  | none =>
    refine ⟨_, DbState.answer_select_new hview hp hloaded, h.load hview _, rfl, fun _ => rfl,
      ⟨_, DbState.loaded_load_self _ _ _ _⟩, fun k' hk => ?_⟩
    by_cases heq : k' = k
    · subst heq
      rw [DbState.loaded_load_self]
      rfl
    · rwa [DbState.loaded_load_ne _ _ _ heq]

/-- Columns of a loaded object are assigned, and the row is written. -/
theorem Current.assign (h : Current db) {k : RowId} {row : Row k} {memo : Memo k}
    (hloaded : db.loaded k = some (row, memo)) (f : Row k → Row k) :
    ∃ db', DbState.answer (.touch k (fun attrs memo => ((f attrs, memo), some f))) db =
      (some (f row), db') ∧ Assigned db db' k (f row) := by
  have hview := h k row memo hloaded
  refine ⟨(db.load k (f row) memo).write k (some (f row)), ?_, h.put k _ _, rfl,
    DbState.view_write_self _ _ _, fun k' hk => DbState.view_write_ne _ _ hk, fun k' hk => ?_⟩
  · rw [DbState.answer_touch hloaded hview rfl]
  rw [DbState.loaded_write]
  by_cases heq : k' = k
  · subst heq
    rw [DbState.loaded_load_self]
    rfl
  · rwa [DbState.loaded_load_ne _ _ _ heq]

theorem Current.run_selectExecution (h : Current db) {id : Uuid} {execution : Execution}
    (hview : db.view (.execution id) = some execution) {p : Execution → Bool}
    (hp : p execution = true) :
    ∃ db', (selectExecution id p).run ⟨db, env⟩ = (.ok (some execution), ⟨db', env⟩) ∧
      Fetched db db' (.execution id) execution := by
  obtain ⟨db', hanswer, hfetched⟩ := h.select hview hp
  exact ⟨db', by rw [selectExecution, run_db, hanswer], hfetched⟩

/-- A transition of an execution that the state machine allows, up to the flush. -/
theorem Current.run_validated (h : Current db) {id : Uuid} {execution : Execution}
    (hview : db.view (.execution id) = some execution) {new : ExecutionStatus}
    (hnew : new ∈ allowedExecutionTransitions execution.status) (flush : Flush) :
    ∃ db₁, Fetched db db₁ (.execution id) execution ∧
      (transitionExecutionWith flush id new).run ⟨db, env⟩ =
        (do
          liftExcept (flush execution new (env.clock env.readings))
          let assigned ← assignExecution id
            (executionTransition execution new (env.clock env.readings))
          return assigned.getD execution : Prog Execution).run
            ⟨db₁, { env with readings := env.readings + 1 }⟩ := by
  obtain ⟨db₁, hselect, hfetched⟩ := h.run_selectExecution env hview (p := fun _ => true) rfl
  refine ⟨db₁, hfetched, ?_⟩
  rw [transitionExecutionWith, Prog.run_bind_ok hselect]
  simp only [validateExecutionTransition_ok hnew]
  rw [Prog.run_bind_ok (Prog.run_liftExcept _ _), Prog.run_bind_ok (run_utcNow _)]

/-- The transition is made if the flush succeeds. -/
theorem Current.run_transitionExecutionWith (h : Current db) {id : Uuid} {execution : Execution}
    (hview : db.view (.execution id) = some execution) {new : ExecutionStatus}
    (hnew : new ∈ allowedExecutionTransitions execution.status) (flush : Flush)
    (hflush : flush execution new (env.clock env.readings) = .ok ()) :
    ∃ db' env' e, (transitionExecutionWith flush id new).run ⟨db, env⟩ = (.ok e, ⟨db', env'⟩) ∧
      Assigned db db' (.execution id)
        (executionTransition execution new (env.clock env.readings) execution) := by
  obtain ⟨db₁, hfetched, hrun⟩ := h.run_validated env hview hnew flush
  obtain ⟨memo, hloaded⟩ := hfetched.object
  obtain ⟨db₂, hanswer, hassigned⟩ := hfetched.current.assign hloaded
    (executionTransition execution new (env.clock env.readings))
  refine ⟨db₂, { env with readings := env.readings + 1 },
    executionTransition execution new (env.clock env.readings) execution, ?_,
    hfetched.assigned hassigned⟩
  have hassign : (assignExecution id (executionTransition execution new
      (env.clock env.readings))).run ⟨db₁, { env with readings := env.readings + 1 }⟩ =
        (.ok (some (executionTransition execution new (env.clock env.readings) execution)),
          ⟨db₂, { env with readings := env.readings + 1 }⟩) := by
    rw [assignExecution, run_db, hanswer]
  rw [hrun, hflush, Prog.run_bind_ok (Prog.run_liftExcept _ _)]
  exact Prog.run_bind_ok hassign

/-- Nothing is written if it fails. -/
theorem Current.run_transitionExecutionWith_failed (h : Current db) {id : Uuid}
    {execution : Execution} (hview : db.view (.execution id) = some execution)
    {new : ExecutionStatus} (hnew : new ∈ allowedExecutionTransitions execution.status)
    {flush : Flush} {exc : PyError}
    (hflush : flush execution new (env.clock env.readings) = .error exc) :
    ∃ db' env', (transitionExecutionWith flush id new).run ⟨db, env⟩ =
        (.error (.exception exc), ⟨db', env'⟩) ∧ db'.committed = db.committed := by
  obtain ⟨db₁, hfetched, hrun⟩ := h.run_validated env hview hnew flush
  refine ⟨db₁, { env with readings := env.readings + 1 }, ?_, hfetched.committed⟩
  rw [hrun, hflush]
  exact Prog.run_bind_error (Prog.run_liftExcept _ _)

/-- The error of a transition that is refused. -/
def executionRefusal (current new : ExecutionStatus) : AppError :=
  ⟨.invalidTransition,
    "Invalid execution transition: '" ++ current.text ++ "' -> '" ++ new.text ++ "'", 409, []⟩

/-- One that it refuses. -/
theorem Current.run_transitionExecutionWith_refused (h : Current db) {id : Uuid}
    {execution : Execution} (hview : db.view (.execution id) = some execution)
    {new : ExecutionStatus} (hnew : new ∉ allowedExecutionTransitions execution.status)
    (flush : Flush) :
    ∃ db', (transitionExecutionWith flush id new).run ⟨db, env⟩ =
        (.error (.app (executionRefusal execution.status new)), ⟨db', env⟩) ∧
      db'.committed = db.committed := by
  obtain ⟨db₁, hselect, hfetched⟩ := h.run_selectExecution env hview (p := fun _ => true) rfl
  have hrefused : validateExecutionTransition execution.status new =
      .error (.app (executionRefusal execution.status new)) := by
    rw [validateExecutionTransition, if_neg hnew]
    rfl
  refine ⟨db₁, ?_, hfetched.committed⟩
  rw [transitionExecutionWith, Prog.run_bind_ok hselect]
  simp only [hrefused]
  exact Prog.run_bind_error (Prog.run_liftExcept _ _)

/-- A transition of a step that the state machine allows. -/
theorem Current.run_transitionStep (h : Current db) {id : Uuid} {stepExec : StepExecution}
    (hview : db.view (.step id) = some stepExec) {new : StepStatus}
    (hnew : new ∈ allowedStepTransitions stepExec.status) (error : Option String) :
    ∃ db' env' now s, (transitionStep id new error).run ⟨db, env⟩ = (.ok s, ⟨db', env'⟩) ∧
      Assigned db db' (.step id) (stepTransition stepExec new now error stepExec) := by
  obtain ⟨db₁, hanswer₁, hfetched⟩ := h.select hview (p := fun _ => true) rfl
  obtain ⟨memo, hloaded⟩ := hfetched.object
  obtain ⟨db₂, hanswer₂, hassigned⟩ := hfetched.current.assign hloaded
    (stepTransition stepExec new (env.clock env.readings) error)
  refine ⟨db₂, { env with readings := env.readings + 1 }, env.clock env.readings,
    stepTransition stepExec new (env.clock env.readings) error stepExec, ?_,
    hfetched.assigned hassigned⟩
  have hselect : (selectStep id).run ⟨db, env⟩ = (.ok (some stepExec), ⟨db₁, env⟩) := by
    rw [selectStep, run_db, hanswer₁]
  have hassign : (assignStep id (stepTransition stepExec new (env.clock env.readings) error)).run
      ⟨db₁, { env with readings := env.readings + 1 }⟩ =
        (.ok (some (stepTransition stepExec new (env.clock env.readings) error stepExec)),
          ⟨db₂, { env with readings := env.readings + 1 }⟩) := by
    rw [assignStep, run_db, hanswer₂]
  rw [transitionStep, Prog.run_bind_ok hselect]
  simp only [validateStepTransition_ok hnew]
  rw [Prog.run_bind_ok (Prog.run_liftExcept _ _), Prog.run_bind_ok (run_utcNow _)]
  exact Prog.run_bind_ok hassign

/-- The attributes of a loaded step are read. -/
theorem Current.run_readStep (h : Current db) {id : Uuid}
    (hloaded : (db.loaded (.step id)).isSome = true) :
    ∃ stepExec, db.view (.step id) = some stepExec ∧
      ∃ db', (readStep id).run ⟨db, env⟩ = (.ok stepExec, ⟨db', env⟩) ∧
        Fetched db db' (.step id) stepExec := by
  obtain ⟨⟨stepExec, memo⟩, hobject⟩ := Option.isSome_iff_exists.mp hloaded
  have hview := h (.step id) stepExec memo hobject
  refine ⟨stepExec, hview, db.load (.step id) stepExec memo, ?_, h.load hview memo, rfl,
    fun _ => rfl, ⟨memo, DbState.loaded_load_self _ _ _ _⟩, fun k' hk => ?_⟩
  · have hanswer : DbState.answer (.touch (.step id) fun attrs memo => ((attrs, memo), none)) db =
        (some stepExec, db.load (.step id) stepExec memo) := by
      rw [DbState.answer_touch_silent hobject rfl]
    rw [readStep, Prog.run_bind_ok (by rw [run_db, hanswer])]
    rfl
  · by_cases heq : k' = .step id
    · subst heq
      rw [DbState.loaded_load_self]
      rfl
    · rwa [DbState.loaded_load_ne _ _ _ heq]

end

/-! ## The loop over the steps -/

/-- What the loop does to a row: an unfinished step is skipped. -/
def skippedRow : (k : RowId) → Row k → Row k
  | .step _, row =>
    if row.status ∈ [StepStatus.pending, .queued, .running] then { row with status := .skipped }
    else row
  | .workflow _, row => row
  | .execution _, row => row
  | .delivery _, row => row

theorem skippedRow_skippedRow (k : RowId) (row : Row k) :
    skippedRow k (skippedRow k row) = skippedRow k row := by
  cases k with
  | step id =>
    by_cases hactive : (row : StepExecution).status ∈ [StepStatus.pending, .queued, .running]
    · simp [skippedRow, hactive]
    · simp [skippedRow, hactive]
  | workflow id => rfl
  | execution id => rfl
  | delivery id => rfl

/-- An unfinished step may be skipped, and then nothing else of it changes. -/
theorem stepTransition_skipped {row : StepExecution}
    (hactive : row.status ∈ [StepStatus.pending, .queued, .running]) (now : Time) :
    StepStatus.skipped ∈ allowedStepTransitions row.status ∧
      stepTransition row .skipped now none row = { row with status := .skipped } := by
  constructor
  · revert hactive
    cases row.status <;> decide
  · rfl

/-- The rows of the session after the loop has worked on some of them. -/
structure Skipped (db db' : Db) (ks : List RowId) : Prop where
  current : Current db'
  committed : db'.committed = db.committed
  view : ∀ k, db'.view k = if k ∈ ks then (db.view k).map (skippedRow k) else db.view k

/-- Each loaded step is skipped or left, and no transition is refused. -/
theorem Current.run_skipSteps (ks : List RowId) {db : Db} (h : Current db) (env : Environment)
    (hks : ∀ k ∈ ks, (∃ id, k = .step id) ∧ (db.loaded k).isSome = true) :
    ∃ db' env', (skipSteps ks).run ⟨db, env⟩ = (.ok (), ⟨db', env'⟩) ∧ Skipped db db' ks := by
  induction ks generalizing db env with
  | nil => exact ⟨db, env, rfl, h, rfl, fun k => by simp⟩
  | cons k ks ih =>
    obtain ⟨⟨id, rfl⟩, hloaded⟩ := hks k List.mem_cons_self
    have hrest := fun k hk => hks k (List.mem_cons_of_mem _ hk)
    obtain ⟨stepExec, hview, db₁, hread, hfetched⟩ := h.run_readStep env hloaded
    -- What the first round leaves: the step as in `skippedRow`, and all else.
    have hfirst : ∃ db₂ env₂, (skipSteps (.step id :: ks)).run ⟨db, env⟩ =
        (skipSteps ks).run ⟨db₂, env₂⟩ ∧ Assigned db db₂ (.step id)
          (skippedRow (.step id) stepExec) := by
      rw [skipSteps, Prog.run_bind_ok hread]
      by_cases hactive : stepExec.status ∈ [StepStatus.pending, .queued, .running]
      · obtain ⟨hallowed, -⟩ := stepTransition_skipped hactive 0
        obtain ⟨db₂, env₂, now, s, htransition, hassigned⟩ :=
          hfetched.current.run_transitionStep env ((hfetched.view _).trans hview) hallowed none
        refine ⟨db₂, env₂, ?_, ?_⟩
        · rw [if_pos hactive]
          exact Prog.run_bind_ok htransition
        · rw [(stepTransition_skipped hactive now).2] at hassigned
          rw [skippedRow, if_pos hactive]
          exact hfetched.assigned hassigned
      · refine ⟨db₁, env, by rw [if_neg hactive], ?_⟩
        rw [skippedRow, if_neg hactive]
        exact ⟨hfetched.current, hfetched.committed, (hfetched.view _).trans hview,
          fun k' _ => hfetched.view k', hfetched.loaded⟩
    obtain ⟨db₂, env₂, hrun, hassigned⟩ := hfirst
    obtain ⟨db', env', hloop, hskipped⟩ := ih hassigned.current env₂ fun k hk =>
      ⟨(hrest k hk).1, hassigned.loaded k (hrest k hk).2⟩
    refine ⟨db', env', hrun.trans hloop, hskipped.current,
      hskipped.committed.trans hassigned.committed, fun k => ?_⟩
    rw [hskipped.view]
    by_cases hk : k = .step id
    · subst hk
      rw [hassigned.row, hview, if_pos List.mem_cons_self, Option.map_some, Option.map_some,
        skippedRow_skippedRow, ite_self]
    · rw [hassigned.others k hk]
      simp [hk]

/-! ## Cancelling -/

/-- What a cancellation does to a row: the execution is cancelled, and its
unfinished steps are skipped. -/
def cancelledRow (executionId : Uuid) (now : Time) : (k : RowId) → Row k → Row k
  | .execution id, row =>
    if id = executionId then
      { row with
        status := .cancelled
        completedAt := some now
        durationMs := durationAt row.startedAt now row.durationMs }
    else row
  | .step _, row =>
    if row.executionId = executionId ∧ row.status ∈ [StepStatus.pending, .queued, .running] then
      { row with status := .skipped }
    else row
  | .workflow _, row => row
  | .delivery _, row => row

/-- The duration of the execution until `now` is a value of its column. -/
def DurationFits (execution : Execution) (now : Time) : Prop :=
  ∀ started, execution.startedAt = some started → isInteger (wholeMilliseconds started now) = true

instance (execution : Execution) (now : Time) : Decidable (DurationFits execution now) :=
  inferInstanceAs (Decidable (∀ started, _ = some started → _))

/-- The flush of a cancellation looks at the duration alone. -/
theorem flushColumns_cancelled (execution : Execution) (now : Time) :
    flushColumns execution .cancelled now =
      if DurationFits execution now then .ok () else .error integerOutOfRange := by
  cases hstarted : execution.startedAt with
  | none => simp [flushColumns, DurationFits, hstarted]
  | some started =>
    cases hfits : isInteger (wholeMilliseconds started now) <;>
      simp [flushColumns, DurationFits, hstarted, hfits, ExecutionStatus.terminal]

/-- The objects that the loop works on, once the step executions are loaded. -/
theorem loaded_steps {db : Db} {executionId : Uuid} (k : RowId)
    (hk : k ∈ DbState.matching db (stepsOf executionId)) :
    (∃ id, k = .step id) ∧
      ((DbState.loadAll db (DbState.matching db (stepsOf executionId))).loaded k).isSome = true := by
  obtain ⟨row, hview, hp⟩ := DbState.mem_matching.mp hk
  constructor
  · cases k with
    | step id => exact ⟨id, rfl⟩
    | workflow id => cases hp
    | execution id => cases hp
    | delivery id => cases hp
  · cases hloaded : db.loaded k with
    | none =>
      rw [DbState.loaded_loadAll hloaded hview hk]
      rfl
    | some obj =>
      rw [DbState.loaded_loadAll_of_loaded hloaded]
      rfl

section

variable {t : Rows Row} (env : Environment) {executionId tenantId : Uuid} {execution : Execution}

/-- `cancel_execution` up to the transition. -/
theorem run_cancelExecution_found (hrow : Rows.row t (.execution executionId) = some execution)
    (htenant : execution.tenantId = tenantId) :
    ∃ db ks, (cancelExecution executionId tenantId).run ⟨⟨t, Session.fresh⟩, env⟩ =
        (do
          let _ ← transitionExecutionWith flushColumns executionId .cancelled
          skipSteps ks
          commit : Prog Unit).run ⟨db, env⟩ ∧
      Current db ∧ db.committed = t ∧ (∀ k, db.view k = Rows.row t k) ∧
      (∀ k ∈ ks, (∃ id, k = .step id) ∧ (db.loaded k).isSome = true) ∧
      ∀ k, k ∈ ks ↔ ∃ row, Rows.row t k = some row ∧ stepsOf executionId k row = true := by
  have hopened : ∀ k, DbState.view (⟨t, Session.fresh⟩ : Db) k = Rows.row t k :=
    DbState.view_of_pending_empty rfl
  have hp : decide (execution.tenantId = tenantId) = true := decide_eq_true htenant
  obtain ⟨db₁, hselect, hfetched⟩ :=
    (Current.opened t).run_selectExecution env ((hopened _).trans hrow)
      (p := fun execution => execution.tenantId = tenantId) hp
  have hview : ∀ k, db₁.view k = Rows.row t k :=
    fun k => (hfetched.view k).trans (hopened k)
  refine ⟨DbState.loadAll db₁ (DbState.matching db₁ (stepsOf executionId)),
    DbState.matching db₁ (stepsOf executionId), ?_, hfetched.current.loadAll _,
    (DbState.committed_loadAll _ _).trans hfetched.committed,
    fun k => (DbState.view_loadAll _ _ k).trans (hview k), loaded_steps, fun k => ?_⟩
  · rw [cancelExecution, Prog.run_bind_ok hselect]
    rfl
  · rw [DbState.mem_matching, hview k]

/-- The rows after the transition and the loop. -/
theorem cancelledRow_of_skipped {db₁ db₂ db₃ : Db} {ks : List RowId} {now : Time}
    (hrow : Rows.row t (.execution executionId) = some execution)
    (hview : ∀ k, db₁.view k = Rows.row t k)
    (hks : ∀ k, k ∈ ks ↔ ∃ row, Rows.row t k = some row ∧ stepsOf executionId k row = true)
    (hassigned : Assigned db₁ db₂ (.execution executionId)
      (executionTransition execution .cancelled now execution))
    (hskipped : Skipped db₂ db₃ ks) (k : RowId) :
    db₃.view k = (Rows.row t k).map (cancelledRow executionId now k) := by
  have hothers : ∀ k, k ≠ .execution executionId → db₂.view k = Rows.row t k :=
    fun k hk => (hassigned.others k hk).trans (hview k)
  have hkept : ∀ k, k ∉ ks → k ≠ .execution executionId → db₃.view k = Rows.row t k := by
    intro k hmem hk
    rw [hskipped.view, if_neg hmem, hothers k hk]
  have hnoStep : ∀ k, (∀ id, k ≠ .step id) → k ∉ ks := by
    intro k hk hmem
    obtain ⟨row, -, hp⟩ := (hks k).mp hmem
    cases k with
    | step id => exact hk id rfl
    | workflow id => cases hp
    | execution id => cases hp
    | delivery id => cases hp
  cases k with
  | workflow id =>
    rw [hkept (.workflow id) (hnoStep _ (by simp)) (by simp)]
    cases Rows.row t (.workflow id) <;> rfl
  | delivery id =>
    rw [hkept (.delivery id) (hnoStep _ (by simp)) (by simp)]
    cases Rows.row t (.delivery id) <;> rfl
  | execution id =>
    by_cases hid : id = executionId
    · subst hid
      rw [hskipped.view, if_neg (hnoStep _ (by simp)), hassigned.row, hrow, Option.map_some]
      exact congrArg some (if_pos rfl).symm
    · rw [hkept (.execution id) (hnoStep _ (by simp)) (by simpa using hid)]
      cases Rows.row t (.execution id) with
      | none => rfl
      | some row => exact congrArg some (if_neg hid).symm
  | step id =>
    cases hstep : Rows.row t (.step id) with
    | none =>
      have hmem : (.step id : RowId) ∉ ks := by
        intro hmem
        obtain ⟨row, hsome, -⟩ := (hks _).mp hmem
        cases hstep.symm.trans hsome
      rw [hkept (.step id) hmem (by simp), hstep]
      rfl
    | some row =>
      by_cases hbelongs : (row : StepExecution).executionId = executionId
      · have hmem : (.step id : RowId) ∈ ks :=
          (hks _).mpr ⟨row, hstep, decide_eq_true hbelongs⟩
        rw [hskipped.view, if_pos hmem, hothers (.step id) (by simp), hstep]
        refine congrArg some ?_
        simp only [skippedRow, cancelledRow, hbelongs, true_and]
      · have hmem : (.step id : RowId) ∉ ks := by
          intro hmem
          obtain ⟨row', hsome, hp⟩ := (hks _).mp hmem
          cases hstep.symm.trans hsome
          exact hbelongs (of_decide_eq_true hp)
        rw [hkept (.step id) hmem (by simp), hstep]
        refine congrArg some ?_
        simp only [cancelledRow, hbelongs, false_and, if_false]

theorem cancelled_allowed {status : ExecutionStatus}
    (hstatus : status ∈ [ExecutionStatus.pending, .running]) :
    ExecutionStatus.cancelled ∈ allowedExecutionTransitions status := by
  revert hstatus
  cases status <;> decide

/-- A pending or running execution of the tenant. -/
theorem run_cancelExecution_allowed (hrow : Rows.row t (.execution executionId) = some execution)
    (htenant : execution.tenantId = tenantId)
    (hstatus : execution.status ∈ [ExecutionStatus.pending, .running])
    (hfits : DurationFits execution (env.clock env.readings)) :
    ((cancelExecution executionId tenantId).run ⟨⟨t, Session.fresh⟩, env⟩).1 = .ok () ∧
      ∀ k, Rows.row ((cancelExecution executionId tenantId).run
          ⟨⟨t, Session.fresh⟩, env⟩).2.db.committed k =
        (Rows.row t k).map (cancelledRow executionId (env.clock env.readings) k) := by
  obtain ⟨db₁, ks, hrun, hcurrent, -, hview, hloaded, hks⟩ :=
    run_cancelExecution_found env hrow htenant
  have hflush : flushColumns execution .cancelled (env.clock env.readings) = .ok () :=
    (flushColumns_cancelled _ _).trans (if_pos hfits)
  obtain ⟨db₂, env₂, e, htransition, hassigned⟩ := hcurrent.run_transitionExecutionWith env
    ((hview _).trans hrow) (cancelled_allowed hstatus) flushColumns hflush
  obtain ⟨db₃, env₃, hloop, hskipped⟩ := hassigned.current.run_skipSteps ks env₂
    fun k hk => ⟨(hloaded k hk).1, hassigned.loaded k (hloaded k hk).2⟩
  rw [Prog.run_bind_ok htransition, Prog.run_bind_ok hloop, commit, run_db] at hrun
  rw [hrun]
  exact ⟨rfl, cancelledRow_of_skipped hrow hview hks hassigned hskipped⟩

/-- One that has been running for too long. -/
theorem run_cancelExecution_overflow (hrow : Rows.row t (.execution executionId) = some execution)
    (htenant : execution.tenantId = tenantId)
    (hstatus : execution.status ∈ [ExecutionStatus.pending, .running])
    (hlong : ¬ DurationFits execution (env.clock env.readings)) :
    ((cancelExecution executionId tenantId).run ⟨⟨t, Session.fresh⟩, env⟩).1 =
        .error (.exception integerOutOfRange) ∧
      ((cancelExecution executionId tenantId).run ⟨⟨t, Session.fresh⟩, env⟩).2.db.committed = t := by
  obtain ⟨db₁, ks, hrun, hcurrent, hcommitted, hview, -, -⟩ :=
    run_cancelExecution_found env hrow htenant
  have hflush : flushColumns execution .cancelled (env.clock env.readings) =
      .error integerOutOfRange := (flushColumns_cancelled _ _).trans (if_neg hlong)
  obtain ⟨db₂, env₂, htransition, hkept⟩ := hcurrent.run_transitionExecutionWith_failed env
    ((hview _).trans hrow) (cancelled_allowed hstatus) hflush
  rw [Prog.run_bind_error htransition] at hrun
  rw [hrun]
  exact ⟨rfl, hkept.trans hcommitted⟩

/-- An execution of the tenant that is over. -/
theorem run_cancelExecution_refused (hrow : Rows.row t (.execution executionId) = some execution)
    (htenant : execution.tenantId = tenantId)
    (hstatus : execution.status ∉ [ExecutionStatus.pending, .running]) :
    ((cancelExecution executionId tenantId).run ⟨⟨t, Session.fresh⟩, env⟩).1 =
        .error (.app (executionRefusal execution.status .cancelled)) ∧
      ((cancelExecution executionId tenantId).run ⟨⟨t, Session.fresh⟩, env⟩).2.db.committed = t := by
  obtain ⟨db₁, ks, hrun, hcurrent, hcommitted, hview, -, -⟩ :=
    run_cancelExecution_found env hrow htenant
  have hrefused : ExecutionStatus.cancelled ∉ allowedExecutionTransitions execution.status := by
    revert hstatus
    cases execution.status <;> decide
  obtain ⟨db₂, htransition, hkept⟩ :=
    hcurrent.run_transitionExecutionWith_refused env ((hview _).trans hrow) hrefused flushColumns
  rw [Prog.run_bind_error htransition] at hrun
  rw [hrun]
  exact ⟨rfl, hkept.trans hcommitted⟩

/-- An execution that is not there, or is not of the tenant. -/
theorem run_cancelExecution_missing
    (hmissing : ∀ execution : Execution, Rows.row t (.execution executionId) = some execution →
      execution.tenantId ≠ tenantId) :
    ((cancelExecution executionId tenantId).run ⟨⟨t, Session.fresh⟩, env⟩).1 =
        .error (.app executionNotFound) ∧
      ((cancelExecution executionId tenantId).run ⟨⟨t, Session.fresh⟩, env⟩).2.db.committed = t := by
  have hnone : ∀ execution : Execution, DbState.view (⟨t, Session.fresh⟩ : Db)
      (.execution executionId) = some execution →
        decide (execution.tenantId = tenantId) = false := by
    intro execution hrow
    rw [DbState.view_of_pending_empty rfl] at hrow
    exact decide_eq_false (hmissing execution hrow)
  have hselect : (selectExecution executionId
      (fun execution => execution.tenantId = tenantId)).run ⟨⟨t, Session.fresh⟩, env⟩ =
        (.ok none, ⟨⟨t, Session.fresh⟩, env⟩) := by
    rw [selectExecution, run_db, DbState.answer_select_none hnone]
  rw [cancelExecution, Prog.run_bind_ok hselect]
  exact ⟨rfl, rfl⟩

/-- A cancellation that commits has cancelled an execution of the tenant. -/
theorem committed_cancelExecution (t : Rows Row) (executionId tenantId : Uuid) :
    ((∃ e, ((cancelExecution executionId tenantId).run ⟨⟨t, Session.fresh⟩, env⟩).1 = .error e) ∧
      ((cancelExecution executionId tenantId).run ⟨⟨t, Session.fresh⟩, env⟩).2.db.committed = t) ∨
    (∃ execution : Execution, Rows.row t (.execution executionId) = some execution ∧
      execution.tenantId = tenantId ∧ execution.status ∈ [ExecutionStatus.pending, .running]) ∧
      ((cancelExecution executionId tenantId).run ⟨⟨t, Session.fresh⟩, env⟩).1 = .ok () ∧
      ∃ now, ∀ k, Rows.row ((cancelExecution executionId tenantId).run
          ⟨⟨t, Session.fresh⟩, env⟩).2.db.committed k =
        (Rows.row t k).map (cancelledRow executionId now k) := by
  by_cases hfound : ∃ execution : Execution,
      Rows.row t (.execution executionId) = some execution ∧ execution.tenantId = tenantId
  · obtain ⟨execution, hrow, htenant⟩ := hfound
    by_cases hstatus : execution.status ∈ [ExecutionStatus.pending, .running]
    · by_cases hfits : DurationFits execution (env.clock env.readings)
      · obtain ⟨hok, hrows⟩ := run_cancelExecution_allowed env hrow htenant hstatus hfits
        exact .inr ⟨⟨execution, hrow, htenant, hstatus⟩, hok, _, hrows⟩
      · obtain ⟨hraises, hkept⟩ := run_cancelExecution_overflow env hrow htenant hstatus hfits
        exact .inl ⟨⟨_, hraises⟩, hkept⟩
    · obtain ⟨hraises, hkept⟩ := run_cancelExecution_refused env hrow htenant hstatus
      exact .inl ⟨⟨_, hraises⟩, hkept⟩
  · obtain ⟨hraises, hkept⟩ := run_cancelExecution_missing env (t := t)
      fun execution hrow htenant => hfound ⟨execution, hrow, htenant⟩
    exact .inl ⟨⟨_, hraises⟩, hkept⟩

end

/-- `cancel_execution`, run alone, does all of it or nothing: a pending or running
execution of the tenant is cancelled and its unfinished steps are skipped, and otherwise
it raises and nothing is committed. -/
structure CancelsWhole (t : Rows Row) (env : Environment) (executionId tenantId : Uuid) : Prop where
  cancels : ∀ execution : Execution, Rows.row t (.execution executionId) = some execution →
    execution.tenantId = tenantId → execution.status ∈ [ExecutionStatus.pending, .running] →
      ((cancelExecution executionId tenantId).run ⟨⟨t, Session.fresh⟩, env⟩).1 = .ok () ∧
      ∀ k, Rows.row ((cancelExecution executionId tenantId).run
          ⟨⟨t, Session.fresh⟩, env⟩).2.db.committed k =
        (Rows.row t k).map (cancelledRow executionId (env.clock env.readings) k)
  refuses : ∀ execution : Execution, Rows.row t (.execution executionId) = some execution →
    execution.tenantId = tenantId → execution.status ∉ [ExecutionStatus.pending, .running] →
      ∃ e, ((cancelExecution executionId tenantId).run ⟨⟨t, Session.fresh⟩, env⟩).1 =
          .error (.app e) ∧ e.code = .invalidTransition ∧
        ((cancelExecution executionId tenantId).run ⟨⟨t, Session.fresh⟩, env⟩).2.db.committed = t
  misses : (∀ execution : Execution, Rows.row t (.execution executionId) = some execution →
    execution.tenantId ≠ tenantId) →
      ((cancelExecution executionId tenantId).run ⟨⟨t, Session.fresh⟩, env⟩).1 =
        .error (.app executionNotFound) ∧
      ((cancelExecution executionId tenantId).run ⟨⟨t, Session.fresh⟩, env⟩).2.db.committed = t

/-- On any database, all or nothing is what a cancellation does exactly if the duration of
the execution that it would cancel is a value of its column. -/
theorem cancelsWhole_iff (t : Rows Row) (env : Environment) (executionId tenantId : Uuid) :
    CancelsWhole t env executionId tenantId ↔
      ∀ execution : Execution, Rows.row t (.execution executionId) = some execution →
        execution.tenantId = tenantId → execution.status ∈ [ExecutionStatus.pending, .running] →
          DurationFits execution (env.clock env.readings) := by
  constructor
  · intro hwhole execution hrow htenant hstatus
    by_contra hlong
    have hraises := (run_cancelExecution_overflow env hrow htenant hstatus hlong).1
    rw [(hwhole.cancels execution hrow htenant hstatus).1] at hraises
    cases hraises
  · intro hfits
    refine ⟨fun execution hrow htenant hstatus => ?_, fun execution hrow htenant hstatus => ?_,
      fun hmissing => run_cancelExecution_missing env hmissing⟩
    · exact run_cancelExecution_allowed env hrow htenant hstatus
        (hfits execution hrow htenant hstatus)
    · obtain ⟨hrefused, hcommitted⟩ := run_cancelExecution_refused env hrow htenant hstatus
      exact ⟨_, hrefused, rfl, hcommitted⟩

/-- A running execution. -/
def startedExecution : Execution :=
  { newExecution 2 8 [] none with status := .running, startedAt := some 0 }

-- the last millisecond that the column can hold
example : DurationFits startedExecution 2147483647000 ∧
    ¬ DurationFits startedExecution 2147483648000 := by
  decide +kernel

/-- It has a completed step and a queued one. -/
def halfway : Rows Row :=
  Rows.ofList [⟨.execution 1, startedExecution⟩,
    ⟨.step 3, { newStepExecution 8 1 (plainStep "check" .condition [] [] check_length) with
      status := .completed }⟩,
    ⟨.step 4, { newStepExecution 8 1 (plainStep "check" .condition [] [] check_length) with
      status := .queued }⟩]

/-- An environment in which it is `now`. -/
def environmentAt (now : Time) : Environment :=
  { plainEnvironment (fun _ _ => .ok []) with clock := fun _ => now }

/-- 2147483648 milliseconds after the start the cancellation fails with the error of the
driver, and the execution is still running. -/
theorem not_cancelsWhole_halfway :
    ((cancelExecution 1 8).run ⟨⟨halfway, Session.fresh⟩, environmentAt 2147483648000⟩).1 =
        .error (.exception integerOutOfRange) ∧
      ((cancelExecution 1 8).run
        ⟨⟨halfway, Session.fresh⟩, environmentAt 2147483648000⟩).2.db.committed = halfway ∧
      ¬ CancelsWhole halfway (environmentAt 2147483648000) 1 8 := by
  have hrow : Rows.row halfway (.execution 1) = some startedExecution := Rows.row_ofList_self _ _ _
  have htenant : startedExecution.tenantId = 8 := rfl
  have hlong : ¬ DurationFits startedExecution 2147483648000 := by decide +kernel
  obtain ⟨hraises, hkept⟩ := run_cancelExecution_overflow (environmentAt 2147483648000) hrow htenant
    (by decide) hlong
  refine ⟨hraises, hkept, fun hwhole => ?_⟩
  rw [(hwhole.cancels _ hrow htenant (by decide)).1] at hraises
  cases hraises

end WorkflowEngine

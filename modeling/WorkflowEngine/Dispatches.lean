import WorkflowEngine.Finished
import WorkflowEngine.Queued

/-!
# The dispatches of one step

A step record is run by `_execute_step_with_retry` and by `execute_step`, and both keep
the column `attempt`.  The first sets it before each attempt, counting from one; the
second leaves it for an attempt and increments it after a failure.  So the column counts
the invocations of the executor as long as the record is dispatched once, and an attempt
of `execute_step` does not fail (`attempts_counted`).
-/

namespace WorkflowEngine

open Py Orm Interact

/-! ## The model -/

/-- A run of the step, or what puts it into the queue. -/
inductive Dispatch where
  | retry (session : SessionRef)
  | enqueue
  | job (stepExecutionId executionId : String)

section

variable (step : StepDefinition) (id sid : Uuid)

/-- What a dispatch of the step `sid` of the execution `id` runs in its session. -/
def Dispatch.program : Dispatch → Prog Unit
  | .retry session => do
    let _ ← selectStep sid
    let _ ← selectExecution id (fun _ => true)
    let _ ← executeStepWithRetry performer session id step sid
    commit
  | .enqueue => do
    let _ ← transitionStep sid .queued none
    commit
  | .job stepExecutionId executionId => do
    let _ ← executeStepWith (notedExecutors step) stepExecutionId executionId

/-- The arguments of a job are the ids of the step and of its execution. -/
def Dispatch.Addresses : Dispatch → Prop
  | .job stepExecutionId executionId =>
    uuidOf (.str stepExecutionId) = .ok sid ∧ uuidOf (.str executionId) = .ok id
  | _ => True

/-- The column `attempt` as each invocation of the executor of the step has seen it. -/
def attemptsSeen (events : List Event) : List Nat :=
  events.filterMap fun
    | .started _ _ => none
    | .invoked inv =>
      if inv.caller = ⟨id, step.id⟩ then
        some (((inv.view (.step sid)).map fun row : StepExecution => row.attempt).getD 0)
      else none

/-- Between two dispatches anything may happen, but the executor of the step is not
invoked, its record stays as it is, and outputs can still be merged into the context. -/
structure Meanwhile (w w' : World) : Prop where
  record : Rows.row w'.db.committed (.step sid) = Rows.row w.db.committed (.step sid)
  execution : ∀ e : Execution, Rows.row w.db.committed (.execution id) = some e →
    ∃ e' : Execution, Rows.row w'.db.committed (.execution id) = some e' ∧
      (¬ StepsRefused e.context → ¬ StepsRefused e'.context)
  invocations : attemptsSeen step id sid w'.env.events = attemptsSeen step id sid w.env.events

/-- The dispatches of the step that meet a condition, one after another. -/
@[reducible] def dispatches (meets : Dispatch → World → Prop) :
    Serial engineSignature Raised Unit World World where
  enters w m s := ∃ dispatch : Dispatch, dispatch.Addresses id sid ∧ meets dispatch w ∧
    m = dispatch.program step id sid ∧ s = w.opened
  answer := World.answer
  leave w := w
  between := Meanwhile step id sid

/-- The record is as `start_execution` creates it, and its executor was never invoked. -/
structure Untouched (w : World) : Prop where
  record : ∃ tenantId, Rows.row w.db.committed (.step sid) = some (newStepExecution tenantId id step)
  execution : ∃ e : Execution, Rows.row w.db.committed (.execution id) = some e ∧
    ¬ StepsRefused e.context
  invocations : attemptsSeen step id sid w.env.events = []

/-- The column `attempt` is within its bound and, once the step was started, it is the
number of invocations; they have seen it count from one. -/
structure AttemptsCounted (w : World) : Prop where
  bounded : ∀ row : StepExecution, Rows.row w.db.committed (.step sid) = some row →
    row.attempt ≤ row.maxAttempts
  counted : ∀ row : StepExecution, Rows.row w.db.committed (.step sid) = some row →
    row.startedAt.isSome = true → row.attempt = (attemptsSeen step id sid w.env.events).length
  invoked : ∀ row : StepExecution, Rows.row w.db.committed (.step sid) = some row →
    (attemptsSeen step id sid w.env.events).length ≤ row.maxAttempts
  numbered : attemptsSeen step id sid w.env.events =
    List.range' 1 (attemptsSeen step id sid w.env.events).length

/-- The dispatch does not run the executor again, and where it is a job the executor
does not fail. -/
def Dispatch.RunsOnce : Dispatch → World → Prop
  | .retry _, w => ∀ row : StepExecution, Rows.row w.db.committed (.step sid) = some row →
    row.status ≠ .completed → attemptsSeen step id sid w.env.events = []
  | .enqueue, _ => True
  | .job _ _, w => ∀ (row : StepExecution) (e : Execution),
    Rows.row w.db.committed (.step sid) = some row →
    Rows.row w.db.committed (.execution id) = some e → row.status = .queued →
    attemptsSeen step id sid w.env.events = [] ∧ ∀ inv : Invocation,
      inv.call = ⟨{ step with config := row.inputData }, getStepInput e.context⟩ →
      ∃ output, w.env.behaviour (w.env.events ++ [.invoked inv]) inv.call = .ok output

end

/-! ## One attempt -/

namespace JobSession

variable {t : Rows Row} {se ex : Uuid} {row : StepExecution} {e : Execution} {db : Db}

theorem run_readStep (h : JobSession t se ex row e db) (env : Environment) :
    ∃ db', (readStep se).run ⟨db, env⟩ = (.ok row, ⟨db', env⟩) ∧ JobSession t se ex row e db' := by
  refine ⟨db.load (.step se) row (), ?_, h.committed, h.step, DbState.loaded_load_self _ _ _ _,
    h.execution, ?_, h.others⟩
  · rw [readStep, Prog.run_bind_ok (run_db _ _ _), DbState.answer_touch_silent h.mappedStep rfl]
    rfl
  · rw [DbState.loaded_load_ne _ _ _ (by simp), h.mapped]

theorem run_refreshExecution (h : JobSession t se ex row e db) (env : Environment) :
    ∃ db', (refreshExecution ex).run ⟨db, env⟩ = (.ok (some e), ⟨db', env⟩) ∧
      JobSession t se ex row e db' := by
  refine ⟨db.load (.execution ex) e .nothing, ?_, h.committed, h.step, ?_, h.execution,
    DbState.loaded_load_self _ _ _ _, h.others⟩
  · rw [refreshExecution, run_db, DbState.answer_refresh h.execution]
    rfl
  · rw [DbState.loaded_load_ne _ _ _ (by simp), h.mappedStep]

end JobSession

section

variable {step : StepDefinition} {id sid : Uuid} {t : Rows Row} {row : StepExecution} {e : Execution}
  {db : Db} {env : Environment}

theorem attemptsSeen_append (events later : List Event) :
    attemptsSeen step id sid (events ++ later) =
      attemptsSeen step id sid events ++ attemptsSeen step id sid later := by
  simp [attemptsSeen]

theorem attemptsSeen_later {env' : Environment} {new : List Event} (h : env.Later new env') :
    attemptsSeen step id sid env'.events =
      attemptsSeen step id sid env.events ++ attemptsSeen step id sid new := by
  rw [h.events, attemptsSeen_append]

/-- An invocation sees the record of the step. -/
theorem attemptsSeen_invoked {inv : Invocation} (hcaller : inv.caller = ⟨id, step.id⟩)
    (hview : inv.view (.step sid) = some row) :
    attemptsSeen step id sid [.invoked inv] = [row.attempt] := by
  simp [attemptsSeen, hcaller, hview]

/-- The columns that a run of the step does not change. -/
structure SameRecord (row row' : StepExecution) : Prop where
  stepId : row'.stepId = row.stepId
  stepType : row'.stepType = row.stepType
  maxAttempts : row'.maxAttempts = row.maxAttempts

theorem SameRecord.trans {row row' row'' : StepExecution} (h : SameRecord row row')
    (h' : SameRecord row' row'') : SameRecord row row'' :=
  ⟨h'.stepId.trans h.stepId, h'.stepType.trans h.stepType, h'.maxAttempts.trans h.maxAttempts⟩

/-- The arbitrary executor, with its invocation noted. -/
theorem run_runStep_performer (caller : Caller) (step : StepDefinition) (vars : Vars) (db : Db)
    (env : Environment) :
    (runStep performer caller step vars).run ⟨db, env⟩ =
      ((env.behaviour (env.events ++ [.invoked ⟨caller, ⟨step, vars⟩, db.view, db.committed⟩])
          ⟨step, vars⟩).mapError Raised.exception,
        ⟨db, { env with
          events := env.events ++ [.invoked ⟨caller, ⟨step, vars⟩, db.view, db.committed⟩] }⟩) := rfl

/-- Merging an output keeps the execution. -/
theorem execution_respects (id : Uuid) :
    Respects (fun k => k = .execution id)
      (fun db => ∃ e : Execution, db.view (.execution id) = some e) := by
  intro req db hreq h
  rcases hreq.key with ⟨-, k, hkey, rfl⟩
  rcases h with ⟨e, he⟩
  cases req with
  | select k p => exact ⟨e, (DbState.view_answer_select db _ _ p).trans he⟩
  | refresh k =>
    refine ⟨e, Eq.trans ?_ he⟩
    simp only [DbState.answer]
    split <;> rfl
  | touch k change =>
    cases hkey
    simp only [DbState.answer]
    split
    · exact ⟨e, he⟩
    · split
      · exact ⟨_, DbState.view_write_self _ _ _⟩
      · exact ⟨e, he⟩
  | insert k row => cases hreq
  | delete k => cases hreq
  | updateIf k p f => cases hreq
  | selectWhere p => cases hreq
  | scan p => cases hreq
  | commit => cases hreq

/-- What follows an executor that has returned: the step is completed, and its output can
be merged. -/
theorem run_completeStep (h : JobSession t sid id row e db) (hrunning : row.status = .running)
    (hmergeable : ¬ StepsRefused e.context) (stepId : String) (output : Dict String Json)
    (env : Environment) :
    ∃ db' env' row' e', (do
        let _ ← transitionStep sid .completed none
        let _ ← assignStep sid (fun row => { row with outputData := some output })
        mergeStepOutput id stepId output).run ⟨db, env⟩ = (.ok (), ⟨db', env'⟩) ∧
      env.Later [] env' ∧ db'.view (.step sid) = some row' ∧ db'.view (.execution id) = some e' ∧
      SameRecord row row' ∧ row'.attempt = row.attempt ∧ row'.status = .completed := by
  have hallowed : StepStatus.completed ∈ allowedStepTransitions row.status := by
    simp [hrunning, allowedStepTransitions]
  rcases h.run_transitionStep hallowed none env with ⟨db₁, env₁, now, hcompleted, hlater, h₁⟩
  rcases h₁.run_assignStep (fun row => { row with outputData := some output }) env₁ with
    ⟨db₂, houtput, h₂⟩
  cases hmerge : mergedContext e.context stepId output with
  | error exc => exact absurd (stepsRefused_of_mergedContext hmerge) hmergeable
  | ok ctx =>
    rcases h₂.run_mergeStepOutput hmerge env₁ with ⟨db₃, hmerged, hothers⟩
    have hkept := maintains_mergeStepOutput (execution_respects id) rfl stepId output ⟨db₂, env₁⟩
      ⟨e, h₂.execution⟩
    rw [show Script.run World.answer (mergeStepOutput id stepId output) ⟨db₂, env₁⟩ =
      (.ok (), ⟨db₃, env₁⟩) from hmerged] at hkept
    rcases hkept with ⟨e', he'⟩
    refine ⟨db₃, env₁, _, e', ?_, hlater, (hothers _ (by simp)).trans h₂.step, he',
      ⟨rfl, rfl, rfl⟩, rfl, rfl⟩
    exact (Prog.run_bind_ok hcompleted).trans ((Prog.run_bind_ok houtput).trans hmerged)

/-- What comes before the `try` block: the attempt is counted, and the step is running. -/
theorem run_countAttempt (h : JobSession t sid id row e db)
    (hstart : row.status ∈ [StepStatus.pending, .queued, .failed]) (attempt : Nat)
    (env : Environment) :
    ∃ db' env' row', JobSession t sid id row' e db' ∧ env.Later [] env' ∧ SameRecord row row' ∧
      row'.attempt = attempt ∧ row'.status = .running ∧ ∀ {α : Type} (rest : Prog α),
        Prog.run (do
          let stepExec ← mapped (← assignStep sid (fun row => { row with attempt := attempt }))
          if stepExec.status = .pending ∨ stepExec.status = .failed then
            let _ ← transitionStep sid .queued none
          let _ ← transitionStep sid .running none
          rest) ⟨db, env⟩ = rest.run ⟨db', env'⟩ := by
  rcases h.run_assignStep (fun row => { row with attempt := attempt }) env with ⟨db₁, hassign, h₁⟩
  by_cases hqueued : row.status = .queued
  · have hallowed : StepStatus.running ∈ allowedStepTransitions row.status := by
      simp [hqueued, allowedStepTransitions]
    rcases h₁.run_transitionStep hallowed none env with ⟨db₂, env₂, now, hrunning, hlater, h₂⟩
    refine ⟨db₂, env₂, _, h₂, hlater, ⟨rfl, rfl, rfl⟩, rfl, rfl, fun rest => ?_⟩
    rw [Prog.run_bind_ok hassign, mapped, Prog.run_bind_ok (Prog.run_pure _ _)]
    simp only [hqueued, reduceCtorEq, or_self, if_false]
    exact Prog.run_bind_ok hrunning
  · have hopen : row.status = .pending ∨ row.status = .failed := by
      simpa [hqueued] using hstart
    have hallowed : StepStatus.queued ∈ allowedStepTransitions row.status := by
      rcases hopen with hst | hst <;> simp [hst, allowedStepTransitions]
    rcases h₁.run_transitionStep hallowed none env with ⟨db₂, env₂, now₂, hqueue, hlater₂, h₂⟩
    have hallowed' : StepStatus.running ∈ allowedStepTransitions .queued := by decide
    rcases h₂.run_transitionStep hallowed' none env₂ with ⟨db₃, env₃, now₃, hrunning, hlater₃, h₃⟩
    refine ⟨db₃, env₃, _, h₃, by simpa using hlater₂.trans hlater₃, ⟨rfl, rfl, rfl⟩, rfl, rfl,
      fun rest => ?_⟩
    rw [Prog.run_bind_ok hassign, mapped, Prog.run_bind_ok (Prog.run_pure _ _)]
    simp only [hopen, if_true]
    rw [Prog.run_bind_ok hqueue]
    exact Prog.run_bind_ok hrunning

/-- What the session sees when a run of the step has ended with the attempt `row`. -/
structure Finishes (id sid : Uuid) (row : StepExecution) (db : Db) (row' : StepExecution) : Prop where
  record : db.view (.step sid) = some row'
  execution : ∃ e : Execution, db.view (.execution id) = some e
  same : SameRecord row row'
  attempt : row'.attempt = row.attempt
  status : row'.status = .completed ∨ row'.status = .failed

/-- One attempt invokes the executor once, which sees the record as it is; the step is
completed, or the session is as before. -/
theorem run_attempt_counts (step : StepDefinition) (h : JobSession t sid id row e db)
    (hrunning : row.status = .running) (hmergeable : ¬ StepsRefused e.context)
    (session : SessionRef) (env : Environment) :
    ∃ result db' env', (attemptStep performer session id step sid).run ⟨db, env⟩ =
        (result, ⟨db', env'⟩) ∧
      attemptsSeen step id sid env'.events =
        attemptsSeen step id sid env.events ++ [row.attempt] ∧
      ((result = .ok () ∧ ∃ row', Finishes id sid row db' row') ∨
        ∃ exc, result = .error (.exception exc) ∧ JobSession t sid id row e db') := by
  rcases h.run_refreshExecution env with ⟨db₁, hrefresh, h₁⟩
  let inv : Invocation := ⟨⟨id, step.id⟩, ⟨step, stepInput session e.context⟩,
    DbState.view db₁, db₁.committed⟩
  let noted : Environment := { env with events := env.events ++ [.invoked inv] }
  have hseen : attemptsSeen step id sid noted.events =
      attemptsSeen step id sid env.events ++ [row.attempt] := by
    have hlast : attemptsSeen step id sid [.invoked inv] = [row.attempt] :=
      attemptsSeen_invoked rfl h₁.step
    rw [attemptsSeen_append, hlast]
  have hexecutor := run_runStep_performer ⟨id, step.id⟩ step (stepInput session e.context) db₁ env
  have hopen : (attemptStep performer session id step sid).run ⟨db, env⟩ =
      (do
        let output ← runStep performer ⟨id, step.id⟩ step (stepInput session e.context)
        let _ ← transitionStep sid .completed none
        let _ ← assignStep sid (fun row => { row with outputData := some output })
        mergeStepOutput id step.id output).run ⟨db₁, env⟩ := by
    rw [attemptStep, Prog.run_bind_ok hrefresh]
    exact Prog.run_bind_ok (Prog.run_pure _ _)
  cases hresult : env.behaviour noted.events inv.call with
  | error exc =>
    rw [show env.behaviour _ _ = .error exc from hresult] at hexecutor
    exact ⟨_, db₁, noted, hopen.trans (Prog.run_bind_error hexecutor), hseen,
      .inr ⟨exc, rfl, h₁⟩⟩
  | ok output =>
    rw [show env.behaviour _ _ = .ok output from hresult] at hexecutor
    rcases run_completeStep h₁ hrunning hmergeable step.id output noted with
      ⟨db', env', row', e', hrun, hlater, hrow', he', hsame, hattempt, hcompleted⟩
    refine ⟨.ok (), db', env', hopen.trans ((Prog.run_bind_ok hexecutor).trans hrun), ?_,
      .inl ⟨rfl, row', hrow', ⟨e', he'⟩, hsame, hattempt, .inl hcompleted⟩⟩
    rw [attemptsSeen_later hlater, hseen]
    simp [attemptsSeen]

/-- The loop of `_execute_step_with_retry`, when the executor was invoked once for each
attempt so far. -/
theorem run_retryLoop_counts (session : SessionRef) (maxAttempts remaining attempts : Nat)
    (hpos : 0 < remaining) (hmax : attempts + remaining = maxAttempts)
    (h : JobSession t sid id row e db) (hstart : row.status ∈ [StepStatus.pending, .queued, .failed])
    (hmergeable : ¬ StepsRefused e.context)
    (hseen : attemptsSeen step id sid env.events = List.range' 1 attempts) :
    ∃ success db' env' row' last,
      (retryLoop performer session id step sid maxAttempts remaining attempts).run ⟨db, env⟩ =
        (.ok success, ⟨db', env'⟩) ∧
      SameRecord row last ∧ 1 ≤ last.attempt ∧ last.attempt ≤ maxAttempts ∧
      attemptsSeen step id sid env'.events = List.range' 1 last.attempt ∧
      Finishes id sid last db' row' := by
  induction remaining generalizing attempts row db env with
  | zero => omega
  | succ remaining ih =>
    rcases run_countAttempt h hstart (attempts + 1) env with
      ⟨db₁, env₁, row₁, h₁, hlater₁, hsame₁, hattempt₁, hrunning₁, hbegin⟩
    rcases run_attempt_counts step h₁ hrunning₁ hmergeable session env₁ with
      ⟨result, db₂, env₂, htry, hseen₂, hended⟩
    have hcatch := Prog.run_attempt (attemptStep performer session id step sid) ⟨db₁, env₁⟩
    rw [htry] at hcatch
    have hcounted : attemptsSeen step id sid env₂.events = List.range' 1 row₁.attempt := by
      rw [hseen₂, attemptsSeen_later hlater₁, hseen, hattempt₁, List.range'_1_concat]
      simp [attemptsSeen, Nat.add_comm]
    have hbounds : 1 ≤ row₁.attempt ∧ row₁.attempt ≤ maxAttempts := by omega
    rw [retryLoop, hbegin, Prog.run_bind_ok hcatch]
    rcases hended with ⟨rfl, row', hfinishes⟩ | ⟨exc, rfl, h₂⟩
    · exact ⟨true, db₂, env₂, row', row₁, rfl, hsame₁, hbounds.1, hbounds.2, hcounted, hfinishes⟩
    · have hallowed : StepStatus.failed ∈ allowedStepTransitions row₁.status := by
        simp [hrunning₁, allowedStepTransitions]
      rcases h₂.run_transitionStep hallowed (some exc.str) env₂ with
        ⟨db₃, env₃, now, hfailed, hlater₃, h₃⟩
      have hcounted₃ : attemptsSeen step id sid env₃.events = List.range' 1 row₁.attempt := by
        rw [attemptsSeen_later hlater₃, hcounted]
        simp [attemptsSeen]
      dsimp only
      rw [Prog.run_bind_ok hfailed]
      by_cases hlast : attempts + 1 ≥ maxAttempts
      · rw [if_pos hlast]
        exact ⟨false, db₃, env₃, _, row₁, rfl, hsame₁, hbounds.1, hbounds.2, hcounted₃, h₃.step,
          ⟨e, h₃.execution⟩, ⟨rfl, rfl, rfl⟩, rfl, .inr rfl⟩
      · -- the step is failed now, and the next attempt starts from there
        rw [if_neg hlast]
        rcases ih (attempts + 1) (by omega) (by omega) h₃ (by simp [stepTransition])
          (by rw [hcounted₃, hattempt₁]) with
          ⟨success, db', env', row', last, hloop, hsame, hone, hbound, hcounted', hfinishes⟩
        have hsame₃ : SameRecord row (stepTransition row₁ .failed now (some exc.str) row₁) :=
          hsame₁.trans ⟨rfl, rfl, rfl⟩
        exact ⟨success, db', env', row', last, hloop, hsame₃.trans hsame, hone, hbound, hcounted',
          hfinishes⟩

/-- A transition of the step in a session that has loaded nothing. -/
theorem run_transitionStep_opened (hrow : Rows.row t (.step sid) = some row) {new : StepStatus}
    (hnew : new ∈ allowedStepTransitions row.status) (error : Option String) (env : Environment) :
    ∃ db' env' now, (transitionStep sid new error).run ⟨⟨t, Session.fresh⟩, env⟩ =
        (.ok (stepTransition row new now error row), ⟨db', env'⟩) ∧ env.Later [] env' ∧
      db'.view (.step sid) = some (stepTransition row new now error row) ∧
      ∀ k, k ≠ .step sid → db'.view k = Rows.row t k := by
  have hview := congrFun (view_opened t)
  let now := env.clock env.readings
  let env' : Environment := { env with readings := env.readings + 1 }
  let db₁ : Db := DbState.load ⟨t, Session.fresh⟩ (.step sid) row ()
  let f := stepTransition row new now error
  let db' : Db := (db₁.load (.step sid) (f row) ()).write (.step sid) (some (f row))
  have hselect : (selectStep sid).run ⟨⟨t, Session.fresh⟩, env⟩ = (.ok (some row), ⟨db₁, env⟩) := by
    rw [selectStep, run_db, DbState.answer_select_new ((hview _).trans hrow) rfl rfl]
  have hassign : (assignStep sid f).run ⟨db₁, env'⟩ =
      (.ok (some (f row)), ⟨db', env'⟩) := by
    rw [assignStep, run_db, DbState.answer_touch (DbState.loaded_load_self _ _ _ _)
      ((DbState.view_load _ _ _ _ _).trans ((hview _).trans hrow)) rfl]
  refine ⟨db', env', now, ?_, (Environment.Later.refl env).tick, DbState.view_write_self _ _ _,
    fun k hk => ?_⟩
  · rw [transitionStep, Prog.run_bind_ok hselect]
    simp only [validateStepTransition_ok hnew]
    rw [Prog.run_bind_ok (Prog.run_liftExcept _ _), Prog.run_bind_ok (run_utcNow _),
      Prog.run_bind_ok hassign]
    rfl
  · rw [DbState.view_write_ne _ _ hk, DbState.view_load, DbState.view_load, hview]

theorem run_transitionStep_opened_refused (hrow : Rows.row t (.step sid) = some row)
    {new : StepStatus} (hnew : new ∉ allowedStepTransitions row.status) (error : Option String)
    (env : Environment) :
    ∃ exc db', (transitionStep sid new error).run ⟨⟨t, Session.fresh⟩, env⟩ =
      (.error (.exception exc), ⟨db', env⟩) ∧ db'.committed = t := by
  have hview := congrFun (view_opened t)
  have hselect : (selectStep sid).run ⟨⟨t, Session.fresh⟩, env⟩ =
      (.ok (some row), ⟨DbState.load ⟨t, Session.fresh⟩ (.step sid) row (), env⟩) := by
    rw [selectStep, run_db, DbState.answer_select_new ((hview _).trans hrow) rfl rfl]
  have hrefused : ∃ exc, validateStepTransition row.status new = .error exc := by
    simp [validateStepTransition, hnew]
  rcases hrefused with ⟨exc, hexc⟩
  refine ⟨exc, DbState.load ⟨t, Session.fresh⟩ (.step sid) row (), ?_, rfl⟩
  rw [transitionStep, Prog.run_bind_ok hselect]
  dsimp only
  rw [hexc]
  rfl

end

/-! ## One dispatch -/

/-- The record between two dispatches: it was not started yet, or it was run once. -/
structure Recorded (step : StepDefinition) (id sid : Uuid) (w : World) (row : StepExecution)
    (e : Execution) : Prop where
  record : Rows.row w.db.committed (.step sid) = some row
  execution : Rows.row w.db.committed (.execution id) = some e
  stepId : row.stepId = step.id
  stepType : row.stepType = step.type.value
  maxAttempts : row.maxAttempts = step.maxAttempts
  phase : (attemptsSeen step id sid w.env.events = [] ∧ row.attempt = 1 ∧ row.startedAt = none ∧
      row.status ∈ [StepStatus.pending, .queued] ∧ ¬ StepsRefused e.context) ∨
    (attemptsSeen step id sid w.env.events = List.range' 1 row.attempt ∧ 1 ≤ row.attempt ∧
      row.attempt ≤ row.maxAttempts ∧ row.status ∈ [StepStatus.completed, .failed, .queued])

namespace Recorded

variable {step : StepDefinition} {id sid : Uuid} {w w' : World} {row : StepExecution} {e : Execution}

theorem counted (h : Recorded step id sid w row e) : AttemptsCounted step id sid w := by
  have hsame : ∀ {row' : StepExecution}, Rows.row w.db.committed (.step sid) = some row' →
      row' = row := fun hrow => Option.some.inj (hrow.symm.trans h.record)
  have hpos := step.maxAttempts_pos
  have hmax := h.maxAttempts
  rcases h.phase with ⟨hseen, hattempt, hstarted, -, -⟩ | ⟨hseen, hone, hbound, -⟩
  · refine ⟨fun row' hrow => ?_, fun row' hrow hset => ?_, fun row' hrow => ?_, ?_⟩
    · rw [hsame hrow]
      omega
    · rw [hsame hrow, hstarted] at hset
      cases hset
    · simp [hseen]
    · simp [hseen]
  · refine ⟨fun row' hrow => ?_, fun row' hrow _ => ?_, fun row' hrow => ?_, ?_⟩
    · rwa [hsame hrow]
    · rw [hsame hrow, hseen, List.length_range']
    · rwa [hsame hrow, hseen, List.length_range']
    · rw [hseen, List.length_range']

/-- Nothing was committed, and the executor was not invoked. -/
theorem unchanged (h : Recorded step id sid w row e) (hcommitted : w'.db.committed = w.db.committed)
    (hseen : attemptsSeen step id sid w'.env.events = attemptsSeen step id sid w.env.events) :
    Recorded step id sid w' row e :=
  ⟨hcommitted ▸ h.record, hcommitted ▸ h.execution, h.stepId, h.stepType, h.maxAttempts,
    hseen ▸ h.phase⟩

end Recorded

section

variable {step : StepDefinition} {id sid : Uuid} {w : World} {row : StepExecution} {e : Execution}

/-- The record is put into the queue, or the transition is refused. -/
theorem recorded_enqueue (h : Recorded step id sid w row e) :
    ∃ row' e', Recorded step id sid ((Dispatch.enqueue.program step id sid).run w.opened).2 row' e' := by
  rw [Dispatch.program]
  by_cases hallowed : StepStatus.queued ∈ allowedStepTransitions row.status
  · rcases run_transitionStep_opened h.record hallowed none w.env with
      ⟨db', env', now, hrun, hlater, hrow', hothers⟩
    rw [World.opened, Prog.run_bind_ok hrun]
    have hseen : attemptsSeen step id sid env'.events = attemptsSeen step id sid w.env.events := by
      rw [attemptsSeen_later hlater]
      simp [attemptsSeen]
    refine ⟨stepTransition row .queued now none row, e, hrow',
      (hothers (.execution id) (by simp)).trans h.execution, h.stepId, h.stepType, h.maxAttempts, ?_⟩
    show (attemptsSeen step id sid env'.events = [] ∧ _) ∨ attemptsSeen step id sid env'.events = _ ∧ _
    rw [hseen]
    rcases h.phase with ⟨hnone, hattempt, hstarted, -, hmergeable⟩ | ⟨hcounted, hone, hbound, -⟩
    · exact .inl ⟨hnone, hattempt, by simpa [stepTransition] using hstarted, by simp [stepTransition],
        hmergeable⟩
    · exact .inr ⟨hcounted, hone, hbound, by simp [stepTransition]⟩
  · rcases run_transitionStep_opened_refused h.record hallowed none w.env with
      ⟨exc, db', hrun, hcommitted⟩
    rw [World.opened, Prog.run_bind_error hrun]
    exact ⟨row, e, h.unchanged hcommitted rfl⟩

/-- A run of the record that was not started counts its attempts from one; a run of a
completed record is refused. -/
theorem recorded_retry (h : Recorded step id sid w row e) (session : SessionRef)
    (hgood : (Dispatch.retry session).RunsOnce step id sid w) :
    ∃ row' e', Recorded step id sid
      (((Dispatch.retry session).program step id sid).run w.opened).2 row' e' := by
  rcases jobSession_loaded h.record h.execution with ⟨db, hsession, hselects⟩
  rcases hsession.run_readStep w.env with ⟨db₁, hread, h₁⟩
  have hopen : ((Dispatch.retry session).program step id sid).run w.opened =
      (do
        let _ ← retryLoop performer session id step sid row.maxAttempts row.maxAttempts 0
        commit).run ⟨db₁, w.env⟩ := by
    rw [Dispatch.program, World.opened, Prog.run_bind_ok (hselects w.env).1,
      Prog.run_bind_ok (hselects w.env).2, executeStepWithRetry, Script.bind_assoc,
      Prog.run_bind_ok hread]
  rw [hopen]
  have hpos : 0 < row.maxAttempts := by
    rw [h.maxAttempts]
    exact step.maxAttempts_pos
  by_cases hcompleted : row.status = .completed
  · -- the attempt is set, but the transition to `running` is refused
    rcases h₁.run_assignStep (fun row => { row with attempt := 0 + 1 }) w.env with
      ⟨db₂, hassign, h₂⟩
    have hforbidden : StepStatus.running ∉ allowedStepTransitions row.status := by
      simp [hcompleted, allowedStepTransitions]
    rcases h₂.run_transitionStep_refused hforbidden none w.env with ⟨exc, hrefused⟩
    have hraised : (retryLoop performer session id step sid row.maxAttempts row.maxAttempts 0).run
        ⟨db₁, w.env⟩ = (.error (.exception exc), ⟨db₂, w.env⟩) := by
      cases hmax : row.maxAttempts with
      | zero => omega
      | succ n =>
        rw [retryLoop, Prog.run_bind_ok hassign, mapped, Prog.run_bind_ok (Prog.run_pure _ _)]
        simp only [hcompleted, reduceCtorEq, or_self, if_false]
        exact Prog.run_bind_error hrefused
    rw [Prog.run_bind_error hraised]
    exact ⟨row, e, h.unchanged h₂.committed rfl⟩
  · have hnone := hgood row h.record hcompleted
    have hphase : row.status ∈ [StepStatus.pending, .queued] ∧ ¬ StepsRefused e.context := by
      rcases h.phase with ⟨-, -, -, hstatus, hmergeable⟩ | ⟨hcounted, hone, -, -⟩
      · exact ⟨hstatus, hmergeable⟩
      · rw [hnone] at hcounted
        have hlength := congrArg List.length hcounted
        rw [List.length_range'] at hlength
        exact absurd hlength (by simp; omega)
    have hstart : row.status ∈ [StepStatus.pending, .queued, .failed] := by
      have hstatus := hphase.1
      simp only [List.mem_cons, List.not_mem_nil, or_false] at hstatus ⊢
      rcases hstatus with hst | hst <;> simp [hst]
    rcases run_retryLoop_counts session row.maxAttempts row.maxAttempts 0 hpos
      (Nat.zero_add _) h₁ hstart hphase.2 (by simpa using hnone) with
      ⟨success, db', env', row', last, hrun, hsame, hone, hbound, hcounted, hfinishes⟩
    rw [Prog.run_bind_ok hrun]
    rcases hfinishes.execution with ⟨e', he'⟩
    have hcolumns := hsame.trans hfinishes.same
    refine ⟨row', e', hfinishes.record, he', hcolumns.stepId.trans h.stepId,
      hcolumns.stepType.trans h.stepType, hcolumns.maxAttempts.trans h.maxAttempts,
      .inr ⟨?_, ?_, ?_, ?_⟩⟩
    · rw [hfinishes.attempt]
      exact hcounted
    · rwa [hfinishes.attempt]
    · rwa [hfinishes.attempt, hcolumns.maxAttempts]
    · rcases hfinishes.status with hst | hst <;> simp [hst]

/-- A job whose executor returns leaves `attempt` as it is. -/
theorem recorded_job (h : Recorded step id sid w row e) {stepExecutionId executionId : String}
    (haddresses : (Dispatch.job stepExecutionId executionId).Addresses id sid)
    (hgood : (Dispatch.job stepExecutionId executionId).RunsOnce step id sid w) :
    ∃ row' e', Recorded step id sid
      (((Dispatch.job stepExecutionId executionId).program step id sid).run w.opened).2 row' e' := by
  obtain ⟨hse, hex⟩ := haddresses
  rw [Dispatch.program, Prog.run_discard]
  by_cases hqueued : row.status = .queued
  · obtain ⟨hnone, hanswers⟩ := hgood row e h.record h.execution hqueued
    have hphase : row.attempt = 1 ∧ ¬ StepsRefused e.context := by
      rcases h.phase with ⟨-, hattempt, -, -, hmergeable⟩ | ⟨hcounted, hone, -, -⟩
      · exact ⟨hattempt, hmergeable⟩
      · rw [hnone] at hcounted
        have hlength := congrArg List.length hcounted
        rw [List.length_range'] at hlength
        exact absurd hlength (by simp; omega)
    have htype : StepType.ofValue? row.stepType = some step.type := by
      rw [h.stepType]
      exact ofValue?_value step.type
    rcases jobSession_loaded h.record h.execution with ⟨db, hsession, hselects⟩
    have hallowed : StepStatus.running ∈ allowedStepTransitions row.status := by
      simp [hqueued, allowedStepTransitions]
    rcases hsession.run_transitionStep hallowed none w.env with ⟨db₁, env₁, now, hstarted, hlater₁, h₁⟩
    let called : ExecutorCall := ⟨{ step with config := row.inputData }, getStepInput e.context⟩
    let inv : Invocation := ⟨⟨id, step.id⟩, called, DbState.view db₁, db₁.committed⟩
    let noted : Environment := { env₁ with events := env₁.events ++ [.invoked inv] }
    have hevents : env₁.events = w.env.events := by
      rw [hlater₁.events, List.append_nil]
    rcases hanswers inv rfl with ⟨output, houtput⟩
    have hexecutor : (notedExecutors step ⟨id, row.stepId⟩ step.type row.inputData
        (getStepInput e.context)).run ⟨db₁, env₁⟩ = (.ok output, ⟨db₁, noted⟩) := by
      have houtcome : env₁.behaviour noted.events inv.call = .ok output := by
        rw [← hevents] at houtput
        rw [hlater₁.behaviour]
        exact houtput
      have hrun := run_runStep_performer ⟨id, step.id⟩ { step with config := row.inputData }
        (getStepInput e.context) db₁ env₁
      rw [show env₁.behaviour _ _ = .ok output from houtcome] at hrun
      rw [h.stepId]
      exact hrun
    rcases run_completeStep h₁ rfl hphase.2 row.stepId output noted with
      ⟨db₂, env₂, row', e', hcompleted, hlater₂, hrow', he', hsame, hattempt, hstatus⟩
    have hfinish : (finishStepWith (notedExecutors step) sid id step.type row e).run ⟨db₁, env₁⟩ =
        (.ok output, ⟨db₂.commit, env₂⟩) := by
      rw [finishStepWith, Prog.run_bind_ok hexecutor]
      refine Eq.trans ?_ (Prog.run_bind_ok (f := fun _ => do
        commit
        return output) hcompleted)
      simp only [Script.bind_assoc]
    have hcaught : Prog.run (Script.attempt (finishStepWith (notedExecutors step) sid id step.type
        row e) : Prog (Except Raised (Dict String Json))) ⟨db₁, env₁⟩ =
          (.ok (.ok output), ⟨db₂.commit, env₂⟩) := by
      rw [Prog.run_attempt, hfinish]
    have htask : (runStepTaskWith (notedExecutors step) sid id row e).run ⟨db, w.env⟩ =
        (.ok output, ⟨db₂.commit, env₂⟩) := by
      rw [runStepTaskWith, Prog.run_bind_ok hstarted, htype]
      exact Prog.run_bind_ok hcaught
    have hrun : (executeStepWith (notedExecutors step) stepExecutionId executionId).run w.opened =
        (.ok output, ⟨db₂.commit, env₂⟩) :=
      (run_executeStepWith_loaded hse hex (hselects w.env).1 (hselects w.env).2 _).trans htask
    rw [hrun]
    have hseen : attemptsSeen step id sid env₂.events = [1] := by
      rw [attemptsSeen_later hlater₂]
      show attemptsSeen step id sid (env₁.events ++ [.invoked inv]) ++ _ = _
      rw [attemptsSeen_append, attemptsSeen_invoked (show inv.caller = ⟨id, step.id⟩ from rfl) h₁.step,
        hevents, hnone]
      simp [attemptsSeen, stepTransition, hphase.1]
    have hone : row'.attempt = 1 := hattempt.trans hphase.1
    refine ⟨row', e', hrow', he', hsame.stepId.trans h.stepId, hsame.stepType.trans h.stepType,
      hsame.maxAttempts.trans h.maxAttempts, .inr ⟨?_, ?_, ?_, by simp [hstatus]⟩⟩
    · rw [hone]
      exact hseen
    · omega
    · have hpos := step.maxAttempts_pos
      have hmax := hsame.maxAttempts.trans h.maxAttempts
      omega
  · have hunready : ∀ se ex row' e' type, uuidOf (.str stepExecutionId) = .ok se →
        uuidOf (.str executionId) = .ok ex → ¬ JobReady w.db.committed se ex row' e' type := by
      intro se ex row' e' type hse' _ hready
      cases hse.symm.trans hse'
      cases h.record.symm.trans hready.step
      exact hqueued hready.queued
    rcases run_executeStepWith_not_ready hunready w.env with
      ⟨exc, db', env', hrun, hlater, hcommitted⟩
    rw [World.opened, hrun]
    refine ⟨row, e, h.unchanged hcommitted ?_⟩
    rw [attemptsSeen_later hlater]
    simp [attemptsSeen]

/-- One dispatch that runs the record once. -/
theorem recorded_dispatch (h : Recorded step id sid w row e) {dispatch : Dispatch}
    (haddresses : dispatch.Addresses id sid) (hgood : dispatch.RunsOnce step id sid w) :
    ∃ row' e', Recorded step id sid ((dispatch.program step id sid).run w.opened).2 row' e' := by
  cases dispatch with
  | retry session => exact recorded_retry h session hgood
  | enqueue => exact recorded_enqueue h
  | job stepExecutionId executionId => exact recorded_job h haddresses hgood

end

/-! ## Every sequence of dispatches -/

section

variable {step : StepDefinition} {id sid : Uuid} {w w' : World}

/-- In every sequence of dispatches that run the record once, from the record that
`start_execution` creates, the attempts are counted and bounded. -/
theorem attempts_counted (hw : Untouched step id sid w)
    (hreaches : (dispatches step id sid (Dispatch.RunsOnce step id sid)).Reaches (fun _ _ => True)
      (.idle w) (.idle w')) : AttemptsCounted step id sid w' := by
  have hrecorded : ∃ row e, Recorded step id sid w' row e := by
    refine Serial.holds_idle (I := fun w => ∃ row e, Recorded step id sid w row e) ?_ ?_ ?_ hreaches
    · rintro w m s ⟨row, e, h⟩ ⟨dispatch, haddresses, hgood, rfl, rfl⟩
      exact recorded_dispatch h haddresses hgood
    · rintro w w' ⟨row, e, h⟩ hmeanwhile
      rcases hmeanwhile.execution e h.execution with ⟨e', he', hkept⟩
      refine ⟨row, e', hmeanwhile.record.trans h.record, he', h.stepId, h.stepType, h.maxAttempts, ?_⟩
      rw [hmeanwhile.invocations]
      rcases h.phase with ⟨hnone, hattempt, hstarted, hstatus, hmergeable⟩ | hrun
      · exact .inl ⟨hnone, hattempt, hstarted, hstatus, hkept hmergeable⟩
      · exact .inr hrun
    · rcases hw.record with ⟨tenantId, hrow⟩
      rcases hw.execution with ⟨e, he, hmergeable⟩
      exact ⟨_, e, hrow, he, rfl, rfl, rfl,
        .inl ⟨hw.invocations, rfl, rfl, by simp [newStepExecution], hmergeable⟩⟩
  rcases hrecorded with ⟨row, e, h⟩
  exact h.counted

theorem reaches_dispatch {meets : Dispatch → World → Prop} {dispatch : Dispatch}
    (haddresses : dispatch.Addresses id sid) (hmeets : meets dispatch w) :
    (dispatches step id sid meets).Reaches (fun _ _ => True) (.idle w)
      (.idle ((dispatch.program step id sid).run w.opened).2) :=
  .head (.enter ⟨dispatch, haddresses, hmeets, rfl, rfl⟩)
    (Serial.reaches_run (Script.always_of_forall (fun _ _ => trivial) _ _))

end

/-- A step that may be attempted twice. -/
def twiceStep : StepDefinition :=
  { plainStep "check" .transform [] [] check_length with
    retry := some ⟨2, 0, by decide, by decide, by decide⟩ }

/-- Its record 2 in the execution 1.  Every executor fails. -/
def twiceWorld : World :=
  ⟨⟨Rows.ofList [⟨.execution 1, newExecution 1 1 [] none⟩, ⟨.step 2, newStepExecution 1 1 twiceStep⟩],
    Session.fresh⟩, failingEnvironment⟩

theorem untouched_twiceWorld : Untouched twiceStep 1 2 twiceWorld :=
  ⟨⟨1, rfl⟩, ⟨newExecution 1 1 [] none, rfl, fun ⟨_, h⟩ => nomatch h⟩, rfl⟩

/-- One run of this record uses up its attempts. -/
theorem attempts_counted_twice :
    AttemptsCounted twiceStep 1 2 (((Dispatch.retry 0).program twiceStep 1 2).run twiceWorld).2 ∧
      attemptsSeen twiceStep 1 2
        (((Dispatch.retry 0).program twiceStep 1 2).run twiceWorld).2.env.events = [1, 2] :=
  ⟨attempts_counted untouched_twiceWorld (reaches_dispatch (show (Dispatch.retry 0).Addresses 1 2 from trivial)
    fun _ _ _ => rfl), by decide +kernel⟩

/-- The arguments of a job of this record. -/
def twiceJob : Dispatch :=
  .job "00000000-0000-0000-0000-000000000002" "00000000-0000-0000-0000-000000000001"

/-- This record after some dispatches. -/
def dispatched (dispatchList : List Dispatch) : World :=
  dispatchList.foldl (fun w dispatch => ((dispatch.program twiceStep 1 2).run w.opened).2) twiceWorld

/-- Two jobs that fail, each put into the queue before, leave `attempt` at 3. -/
theorem not_attempts_counted :
    ¬ ∀ w', (dispatches twiceStep 1 2 fun _ _ => True).Reaches (fun _ _ => True)
      (.idle twiceWorld) (.idle w') → AttemptsCounted twiceStep 1 2 w' := by
  intro hall
  have haddresses : twiceJob.Addresses 1 2 := ⟨by rfl, by rfl⟩
  have henqueue : Dispatch.enqueue.Addresses 1 2 := trivial
  have hreaches : (dispatches twiceStep 1 2 fun _ _ => True).Reaches (fun _ _ => True)
      (.idle twiceWorld) (.idle (dispatched [.enqueue, twiceJob, .enqueue, twiceJob])) := by
    refine (reaches_dispatch henqueue trivial).trans ?_
    refine (reaches_dispatch haddresses trivial).trans ?_
    refine (reaches_dispatch henqueue trivial).trans ?_
    exact reaches_dispatch haddresses trivial
  have hcounted := hall _ hreaches
  have hattempts : (Rows.row (dispatched [.enqueue, twiceJob, .enqueue, twiceJob]).db.committed
      (.step 2)).map (fun row : StepExecution => (row.attempt, row.maxAttempts)) = some (3, 2) := by
    decide +kernel
  rcases Option.map_eq_some_iff.mp hattempts with ⟨row, hrow, heq⟩
  obtain ⟨hattempt, hmax⟩ := Prod.mk.inj heq
  have hbound := hcounted.bounded row hrow
  omega

end WorkflowEngine

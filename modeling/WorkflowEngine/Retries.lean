import WorkflowEngine.Lib.Traced
import WorkflowEngine.Dispatches

/-!
# The retry loop, request by request

`_execute_step_with_retry` in a session that holds the record of a step and its
execution.  `note` says what is noted of its requests: that `transition_step` has read
the record, which status the record has then, that the executor is invoked, and that
a context was assigned to the execution.

`Attempts` is what the executor makes of its invocations, the failures one after another
and possibly a success in the end; `executeStepWithRetry_exact` says that the trace of the
loop is the one that belongs to them.
-/

namespace WorkflowEngine

open Py Orm Interact

/-! ## What is noted -/

/-- What is noted of the run of a step. -/
inductive RetryNote where
  | requested
  | status (new : StepStatus)
  | invoked (w : World)
  | merged (context : Dict String Json)

/-- The status of a step, as the session sees it. -/
def statusIn (sid : Uuid) (db : Db) : Option StepStatus :=
  (db.view (.step sid)).map fun row : StepExecution => row.status

/-- The context that was assigned to the mapped execution and is not flushed yet. -/
def assignedIn (id : Uuid) (db : Db) : Option (Dict String Json) :=
  (db.loaded (.execution id)).bind fun obj : Execution × Remembered (Dict String Json) =>
    match obj.2 with
    | .other _ => some obj.1.context
    | _ => none

/-- What a statement changes, of the status of the step and of the context. -/
def changesOf (id sid : Uuid) (db db' : Db) : List RetryNote :=
  (if statusIn sid db' = statusIn sid db then [] else (statusIn sid db').toList.map .status) ++
    if (assignedIn id db).isSome then [] else (assignedIn id db').toList.map .merged

/-- What is noted of a request. -/
def retryNote (id sid : Uuid) (stepId : String) : engineSignature.Req → World → List RetryNote
  | .env (.observeInvoke caller call), w =>
    if caller = ⟨id, stepId⟩ then
      [.invoked (World.answer (.env (.observeInvoke caller call)) w).2]
    else []
  | .env _, _ => []
  | .db (.select k _), _ => if k = .step sid then [.requested] else []
  | .db req, w => changesOf id sid w.db (DbState.answer req w.db).2

/-- The run of a program, with what is noted of it. -/
abbrev Prog.Traced {α : Type} (id sid : Uuid) (stepId : String) (m : Prog α) (w : World)
    (notes : List RetryNote) (result : Except Raised α) (w' : World) : Prop :=
  Script.Traced (S := engineSignature) World.answer (retryNote id sid stepId) m w notes result w'

/-- The wait that a request is. -/
def waitNote : engineSignature.Req → World → List Json
  | .env (.sleep seconds), _ => [seconds]
  | _, _ => []

/-- The run of a program, with what is noted of it and with its waits. -/
abbrev Prog.Timed {α : Type} (id sid : Uuid) (stepId : String) (m : Prog α) (w : World)
    (notes : List (RetryNote ⊕ Json)) (result : Except Raised α) (w' : World) : Prop :=
  Script.Traced (S := engineSignature) World.answer (Script.both (retryNote id sid stepId) waitNote)
    m w notes result w'

/-- No request of the program is a wait. -/
def Prog.NeverWaits {α : Type} (m : Prog α) : Prop :=
  ∀ w, Script.Always (S := engineSignature) World.answer (fun req w => waitNote req w = []) m w

/-- What the executor waits when it is invoked in a world. -/
def waitsOf (runner : Runner) (caller : Caller) (step : StepDefinition) (input : Vars)
    (w : World) : List Json :=
  Script.trace (S := engineSignature) World.answer waitNote (runner caller step input) w

/-- The session holds the record of the step and its execution, whose mapped object is
`attrs`, and no context is waiting for a flush. -/
structure StepSession (id sid : Uuid) (row : StepExecution) (e attrs : Execution) (db : Db) :
    Prop where
  step : db.view (.step sid) = some row
  mappedStep : db.loaded (.step sid) = some (row, ())
  execution : db.view (.execution id) = some e
  mapped : db.loaded (.execution id) = some (attrs, .nothing)

/-- The executor ends with an output or an exception, and works on other rows than the
record of the step and its execution. -/
def Runner.Keeps (runner : Runner) (id sid : Uuid) : Prop :=
  ∀ step session context w row e attrs, StepSession id sid row e attrs w.db →
    ∃ (result : Except PyError (Dict String Json)) (w' : World),
      Prog.Traced id sid step.id (runner ⟨id, step.id⟩ step (stepInput session context)) w []
        (result.mapError Raised.exception) w' ∧ StepSession id sid row e attrs w'.db

/-- The attempts of a step, each with the world in which its executor starts: those that
failed, and the one that succeeded. -/
structure Attempts where
  failures : List (World × PyError)
  success : Option (World × Dict String Json)

namespace Attempts

/-- How many attempts were made. -/
def count (attempts : Attempts) : Nat := attempts.failures.length + attempts.success.toList.length

/-- The executor makes this of its invocations on the context. -/
structure Made (runner : Runner) (session : SessionRef) (step : StepDefinition) (id : Uuid)
    (context : Dict String Json) (attempts : Attempts) : Prop where
  failures : ∀ w exc, (w, exc) ∈ attempts.failures →
    ((runner ⟨id, step.id⟩ step (stepInput session context)).run w).1 = .error (.exception exc)
  success : ∀ w output, attempts.success = some (w, output) →
    ((runner ⟨id, step.id⟩ step (stepInput session context)).run w).1 = .ok output

/-- The loop stops at the first success, and else when all attempts are used. -/
structure Stops (maxAttempts : Nat) (attempts : Attempts) : Prop where
  success : ∀ made, attempts.success = some made → attempts.failures.length < maxAttempts
  exhausted : attempts.success = none → attempts.failures.length = maxAttempts

/-- The trace of one attempt, with the status in which it ends. -/
def notesOf (w : World) (last : StepStatus) : List RetryNote :=
  [.requested, .status .queued, .requested, .status .running, .invoked w, .requested, .status last]

/-- The trace of all attempts: after the successful one its output is merged. -/
def notes (context : Dict String Json) (stepId : String) (attempts : Attempts) : List RetryNote :=
  attempts.failures.flatMap (fun failure => notesOf failure.1 .failed) ++
    attempts.success.toList.flatMap fun made => notesOf made.1 .completed ++
      (mergedContext context stepId made.2).toOption.toList.map .merged

/-- The trace of one attempt with its waits, which are those of the executor. -/
def timedNotesOf (waits : World → List Json) (w : World) (last : StepStatus) :
    List (RetryNote ⊕ Json) :=
  [.inl .requested, .inl (.status .queued), .inl .requested, .inl (.status .running),
    .inl (.invoked w)] ++ (waits w).map .inr ++ [.inl .requested, .inl (.status last)]

/-- The trace of all attempts with their waits. -/
def timedNotes (waits : World → List Json) (context : Dict String Json) (stepId : String)
    (attempts : Attempts) : List (RetryNote ⊕ Json) :=
  attempts.failures.flatMap (fun failure => timedNotesOf waits failure.1 .failed) ++
    attempts.success.toList.flatMap fun made => timedNotesOf waits made.1 .completed ++
      (mergedContext context stepId made.2).toOption.toList.map (.inl ∘ .merged)

/-- What the session sees of the record and of the execution in the end, after `n` earlier
attempts. -/
structure Leaves (stepId : String) (e : Execution) (n : Nat) (attempts : Attempts)
    (row' : StepExecution) (e' : Execution) : Prop where
  attempt : row'.attempt = n + attempts.count
  status : row'.status = if attempts.success.isSome then .completed else .failed
  success : ∀ w output, attempts.success = some (w, output) → row'.outputData = some output ∧
    ∃ ctx, mergedContext e.context stepId output = .ok ctx ∧
      (e' = { e with context := ctx } ∨ contextEq ctx e.context = true ∧ e' = e)
  exhausted : attempts.success = none → e' = e

end Attempts

/-! ## What never waits -/

namespace Prog.NeverWaits

theorem pure {α : Type} (a : α) : NeverWaits (Pure.pure a : Prog α) := fun _ => trivial

theorem lift {α : Type} (result : Except PyError α) : NeverWaits (liftExcept result) :=
  fun _ => trivial

theorem send {req : engineSignature.Req} (h : ∀ w, waitNote req w = []) :
    NeverWaits (Script.send (S := engineSignature) req) := fun w => ⟨h w, trivial⟩

theorem bind {α β : Type} {m : Prog α} {f : α → Prog β} (hm : NeverWaits m)
    (hf : ∀ a, NeverWaits (f a)) : NeverWaits (m >>= f) :=
  fun w => Script.always_bind (hm w) fun a w' _ => hf a w'

theorem transitionStep (sid : Uuid) (new : StepStatus) (error : Option String) :
    NeverWaits (transitionStep sid new error) := by
  refine bind (send fun _ => rfl) fun found => ?_
  cases found with
  | none => exact fun _ => trivial
  | some stepExec =>
    refine bind (lift _) fun _ => bind (send fun _ => rfl) fun now => ?_
    exact bind (send fun _ => rfl) fun _ => pure _

theorem mergeStepOutput (id : Uuid) (stepId : String) (output : Dict String Json) :
    NeverWaits (mergeStepOutput id stepId output) := by
  refine bind (send fun _ => rfl) fun found => ?_
  cases found with
  | none => exact fun _ => trivial
  | some execution =>
    refine bind (lift _) fun ctx => bind (send fun _ => rfl) fun _ => ?_
    exact bind (send fun _ => rfl) fun _ => pure _

theorem readStep (sid : Uuid) : NeverWaits (readStep sid) := by
  refine bind (send fun _ => rfl) fun found => ?_
  cases found with
  | none => exact fun _ => trivial
  | some stepExec => exact pure _

end Prog.NeverWaits

/-! ## The requests of the loop -/

section

variable {id sid : Uuid} {stepId : String} {row row' : StepExecution}
  {e e' attrs attrs' : Execution} {db db' : Db}

/-- Between two moments without a waiting context only the status can differ. -/
theorem changesOf_session (h : StepSession id sid row e attrs db)
    (h' : StepSession id sid row' e' attrs' db') :
    changesOf id sid db db' =
      if row'.status = row.status then [] else [.status row'.status] := by
  have hassigned : assignedIn id db' = none := by
    rw [assignedIn, h'.mapped]
    rfl
  have hstatus : statusIn sid db = some row.status := by
    rw [statusIn, h.step]
    rfl
  have hstatus' : statusIn sid db' = some row'.status := by
    rw [statusIn, h'.step]
    rfl
  simp [changesOf, hassigned, hstatus, hstatus']

/-- No transition leads from a status to itself. -/
theorem ne_of_allowed {old new : StepStatus} (h : new ∈ allowedStepTransitions old) :
    new ≠ old := by
  intro heq
  subst heq
  cases new <;> simp [allowedStepTransitions] at h

/-- A statement of which its changes are noted. -/
theorem traced_statement {req : DbReq Row Memo} {resp : req.Resp}
    (h : DbState.answer req db = (resp, db')) (env : Environment)
    (hnote : retryNote id sid stepId (.db req) ⟨db, env⟩ =
      changesOf id sid db (DbState.answer req db).2) :
    Prog.Traced id sid stepId (Script.send (S := engineSignature) (.db req)) ⟨db, env⟩
      (changesOf id sid db db') (.ok resp) ⟨db', env⟩ := by
  have hanswer : World.answer (.db req) ⟨db, env⟩ = (resp, ⟨db', env⟩) := by
    show ((DbState.answer req db).1, _) = _
    rw [h]
  rw [h] at hnote
  exact hnote ▸ Script.Traced.send hanswer

namespace StepSession

variable (stepId)

/-- Columns of the record are assigned. -/
theorem traced_assignStep (h : StepSession id sid row e attrs db)
    (f : StepExecution → StepExecution) (env : Environment) :
    ∃ db', Prog.Traced id sid stepId (assignStep sid f) ⟨db, env⟩
        (if (f row).status = row.status then [] else [.status (f row).status])
        (.ok (some (f row))) ⟨db', env⟩ ∧ StepSession id sid (f row) e attrs db' := by
  let db' : Db := (db.load (.step sid) (f row) ()).write (.step sid) (some (f row))
  have h' : StepSession id sid (f row) e attrs db' := by
    refine ⟨DbState.view_write_self _ _ _, ?_, ?_, ?_⟩
    · rw [DbState.loaded_write, DbState.loaded_load_self]
    · rw [DbState.view_write_ne _ _ (by simp), DbState.view_load, h.execution]
    · rw [DbState.loaded_write, DbState.loaded_load_ne _ _ _ (by simp), h.mapped]
  have hanswer :
      DbState.answer (.touch (.step sid) fun attrs memo => ((f attrs, memo), some f)) db =
        (some (f row), db') := by
    rw [DbState.answer_touch h.mappedStep h.step rfl]
  refine ⟨db', ?_, h'⟩
  rw [← changesOf_session h h']
  exact traced_statement hanswer env rfl

/-- The record is read. -/
theorem traced_readStep (h : StepSession id sid row e attrs db) (env : Environment) :
    ∃ db', Prog.Traced id sid stepId (readStep sid) ⟨db, env⟩ [] (.ok row) ⟨db', env⟩ ∧
      StepSession id sid row e attrs db' := by
  let db' : Db := db.load (.step sid) row ()
  have h' : StepSession id sid row e attrs db' := by
    refine ⟨h.step, DbState.loaded_load_self _ _ _ _, h.execution, ?_⟩
    rw [DbState.loaded_load_ne _ _ _ (by simp), h.mapped]
  have hanswer : DbState.answer (.touch (.step sid) fun attrs memo => ((attrs, memo), none)) db =
      (some row, db') := by
    rw [DbState.answer_touch_silent h.mappedStep rfl]
  have htouch : Prog.Traced id sid stepId _ ⟨db, env⟩ _ _ _ := traced_statement hanswer env rfl
  rw [changesOf_session h h', if_pos rfl] at htouch
  exact ⟨db', htouch.bind_silent (Script.Traced.pure _ _), h'⟩

/-- A transition that the state machine allows is requested and made. -/
theorem traced_transitionStep (h : StepSession id sid row e attrs db) {new : StepStatus}
    (hnew : new ∈ allowedStepTransitions row.status) (error : Option String) (env : Environment) :
    ∃ db' env' now, Prog.Traced id sid stepId (transitionStep sid new error) ⟨db, env⟩
        [.requested, .status new] (.ok (stepTransition row new now error row)) ⟨db', env'⟩ ∧
      StepSession id sid (stepTransition row new now error row) e attrs db' := by
  let now := env.clock env.readings
  let env' : Environment := { env with readings := env.readings + 1 }
  obtain ⟨db', hassign, h'⟩ := h.traced_assignStep stepId (stepTransition row new now error) env'
  have hne : (stepTransition row new now error row).status ≠ row.status := ne_of_allowed hnew
  rw [if_neg hne] at hassign
  have hselect : Prog.Traced id sid stepId (selectStep sid) ⟨db, env⟩ [.requested] (.ok (some row))
      ⟨db, env⟩ := by
    have hanswer : World.answer (.db (.select (.step sid) fun _ => true)) ⟨db, env⟩ =
        (some row, ⟨db, env⟩) := by
      show ((DbState.answer (.select (.step sid) fun _ => true) db).1, _) = _
      rw [DbState.answer_select_loaded h.step rfl h.mappedStep]
    have hnote : retryNote id sid stepId (.db (.select (.step sid) fun _ => true)) ⟨db, env⟩ =
        [.requested] := if_pos rfl
    exact hnote ▸ Script.Traced.send hanswer
  have hclock : Prog.Traced id sid stepId utcNow ⟨db, env⟩ [] (.ok now) ⟨db, env'⟩ :=
    Script.Traced.send rfl
  refine ⟨db', env', now, ?_, h'⟩
  rw [transitionStep]
  refine hselect.bind ?_
  dsimp only
  rw [validateStepTransition_ok hnew]
  exact (Script.Traced.done _ _).bind_silent (hclock.bind_silent
    (hassign.bind (Script.Traced.pure _ _)))

theorem traced_refreshExecution (h : StepSession id sid row e attrs db) (env : Environment) :
    ∃ db', Prog.Traced id sid stepId (refreshExecution id) ⟨db, env⟩ [] (.ok (some e)) ⟨db', env⟩ ∧
      StepSession id sid row e e db' := by
  let db' : Db := db.load (.execution id) e .nothing
  have h' : StepSession id sid row e e db' := by
    refine ⟨h.step, ?_, h.execution, DbState.loaded_load_self _ _ _ _⟩
    rw [DbState.loaded_load_ne _ _ _ (by simp), h.mappedStep]
  have hanswer : DbState.answer (.refresh (.execution id)) db = (some e, db') := by
    rw [DbState.answer_refresh h.execution]
    rfl
  have hrefresh : Prog.Traced id sid stepId _ ⟨db, env⟩ _ _ _ := traced_statement hanswer env rfl
  rw [changesOf_session h h', if_pos rfl] at hrefresh
  exact ⟨db', hrefresh, h'⟩

variable {stepId} in
/-- The new context is assigned and flushed, which writes it unless it equals the one in
the row. -/
theorem traced_mergeStepOutput (h : StepSession id sid row e e db) {output ctx : Dict String Json}
    (hmerge : mergedContext e.context stepId output = .ok ctx) (env : Environment) :
    ∃ db' e', Prog.Traced id sid stepId (mergeStepOutput id stepId output) ⟨db, env⟩ [.merged ctx]
        (.ok ()) ⟨db', env⟩ ∧ StepSession id sid row e' { e with context := ctx } db' ∧
      (e' = { e with context := ctx } ∨ contextEq ctx e.context = true ∧ e' = e) := by
  let db₁ : Db := db.load (.execution id) { e with context := ctx } (.other e.context)
  let db₂ : Db := db₁.load (.execution id) { e with context := ctx } .nothing
  have hselect : Prog.Traced id sid stepId (selectExecution id fun _ => true) ⟨db, env⟩ []
      (.ok (some e)) ⟨db, env⟩ := by
    have hanswer : World.answer (.db (.select (.execution id) fun _ => true)) ⟨db, env⟩ =
        (some e, ⟨db, env⟩) := by
      show ((DbState.answer (.select (.execution id) fun _ => true) db).1, _) = _
      rw [DbState.answer_select_loaded h.execution rfl h.mapped]
    have hnote : retryNote id sid stepId (.db (.select (.execution id) fun _ => true)) ⟨db, env⟩ =
        [] := by
      simp [retryNote]
    exact hnote ▸ Script.Traced.send hanswer
  have hassigned : assignedIn id db = none := by
    rw [assignedIn, h.mapped]
    rfl
  have hassigned₁ : assignedIn id db₁ = some ctx := by
    rw [assignedIn, DbState.loaded_load_self]
    rfl
  have htouch : Prog.Traced id sid stepId (touchContext id (Tracked.assign ctx)) ⟨db, env⟩
      [.merged ctx] (.ok (some { e with context := ctx })) ⟨db₁, env⟩ := by
    have hanswer : DbState.answer (.touch (.execution id) fun e memo =>
        (withContext e (Tracked.assign ctx (contextOf e memo)), none)) db =
        (some { e with context := ctx }, db₁) := by
      rw [DbState.answer_touch_silent h.mapped rfl]
      rfl
    have hchanges : changesOf id sid db db₁ = [.merged ctx] := by
      have hstatus : statusIn sid db₁ = statusIn sid db := rfl
      simp [changesOf, hassigned, hassigned₁, hstatus]
    exact hchanges ▸ traced_statement hanswer env rfl
  have hflushed : ∀ {db' : Db}, (flushContext id).run ⟨db₁, env⟩ =
      (.ok (some { e with context := ctx }), ⟨db', env⟩) → statusIn sid db' = statusIn sid db₁ →
      Prog.Traced id sid stepId (mergeStepOutput id stepId output) ⟨db, env⟩ [.merged ctx]
        (.ok ()) ⟨db', env⟩ := by
    intro db' hrun hstatus
    have hflush : Prog.Traced id sid stepId (flushContext id) ⟨db₁, env⟩ []
        (.ok (some { e with context := ctx })) ⟨db', env⟩ := by
      refine ⟨hrun, ?_⟩
      have hdb : (World.answer _ ⟨db₁, env⟩).2.db = db' := congrArg (·.2.db) hrun
      have hchanges : changesOf id sid db₁ db' = [] := by
        simp [changesOf, hassigned₁, hstatus]
      rw [← hdb] at hchanges
      exact (List.append_nil _).trans hchanges
    rw [mergeStepOutput]
    refine hselect.bind_silent ?_
    dsimp only
    rw [hmerge]
    exact (Script.Traced.done _ _).bind_silent (htouch.bind (hflush.bind (Script.Traced.pure _ _)))
  have hstep₂ : db₂.view (.step sid) = some row := h.step
  have hmapped₂ : db₂.loaded (.step sid) = some (row, ()) := by
    rw [DbState.loaded_load_ne _ _ _ (by simp), DbState.loaded_load_ne _ _ _ (by simp),
      h.mappedStep]
  by_cases hsame : contextEq ctx e.context = true
  · have hwritten : Tracked.written contextEq ⟨ctx, .other e.context⟩ = none := by
      simp [Tracked.written, hsame]
    have hrun : (flushContext id).run ⟨db₁, env⟩ =
        (.ok (some { e with context := ctx }), ⟨db₂, env⟩) := by
      rw [flushContext, run_db, DbState.answer_touch_silent (DbState.loaded_load_self _ _ _ _)
        (by simp only [contextOf, hwritten]; rfl)]
      rfl
    exact ⟨db₂, e, hflushed hrun rfl,
      ⟨hstep₂, hmapped₂, h.execution, DbState.loaded_load_self _ _ _ _⟩,
      .inr ⟨hsame, rfl⟩⟩
  · have hwritten : Tracked.written contextEq ⟨ctx, .other e.context⟩ = some ctx := by
      simp [Tracked.written, hsame]
    let db₃ : Db := db₂.write (.execution id) (some { e with context := ctx })
    have hrun : (flushContext id).run ⟨db₁, env⟩ =
        (.ok (some { e with context := ctx }), ⟨db₃, env⟩) := by
      rw [flushContext, run_db, DbState.answer_touch (DbState.loaded_load_self _ _ _ _) h.execution
        (by simp only [contextOf, hwritten]; rfl)]
      rfl
    have hstep₃ : db₃.view (.step sid) = some row := by
      rw [DbState.view_write_ne _ _ (by simp), hstep₂]
    refine ⟨db₃, _, hflushed hrun ?_, ⟨hstep₃, ?_, DbState.view_write_self _ _ _, ?_⟩, .inl rfl⟩
    · show (db₃.view (.step sid)).map _ = (db₁.view (.step sid)).map _
      rw [hstep₃]
      exact congrArg _ h.step.symm
    · rw [DbState.loaded_write, hmapped₂]
    · rw [DbState.loaded_write]
      exact DbState.loaded_load_self _ _ _ _

end StepSession

/-! ## The loop -/

/-- What comes before the `try` block. -/
theorem timed_beginAttempt (h : StepSession id sid row e attrs db)
    (hstart : row.status = .pending ∨ row.status = .failed) (attempt : Nat) (env : Environment) :
    ∃ db' env' row', StepSession id sid row' e attrs db' ∧ row'.status = .running ∧
      row'.attempt = attempt ∧ ∀ {α : Type} {rest : Prog α} {notes : List (RetryNote ⊕ Json)}
        {result : Except Raised α} {w' : World},
        Prog.Timed id sid stepId rest ⟨db', env'⟩ notes result w' →
        Prog.Timed id sid stepId (do
          let stepExec ← mapped (← assignStep sid (fun row => { row with attempt := attempt }))
          if stepExec.status = .pending ∨ stepExec.status = .failed then
            let _ ← transitionStep sid .queued none
          let _ ← transitionStep sid .running none
          rest) ⟨db, env⟩ ([.inl .requested, .inl (.status .queued), .inl .requested,
            .inl (.status .running)] ++ notes) result w' := by
  obtain ⟨db₁, hassign, h₁⟩ :=
    h.traced_assignStep stepId (fun row => { row with attempt := attempt }) env
  rw [if_pos rfl] at hassign
  have hqueue : StepStatus.queued ∈ allowedStepTransitions row.status := by
    rcases hstart with hst | hst <;> simp [hst, allowedStepTransitions]
  obtain ⟨db₂, env₂, now₂, hqueued, h₂⟩ := h₁.traced_transitionStep stepId hqueue none env
  have hrun : StepStatus.running ∈ allowedStepTransitions .queued := by decide
  obtain ⟨db₃, env₃, now₃, hrunning, h₃⟩ := h₂.traced_transitionStep stepId hrun none env₂
  refine ⟨db₃, env₃, _, h₃, rfl, rfl, fun hrest => ?_⟩
  have hassigned := hassign.inl (Prog.NeverWaits.send (fun _ => rfl) _)
  refine hassigned.bind_silent ((Script.Traced.pure _ _).bind_silent ?_)
  dsimp only
  rw [if_pos hstart]
  have hqueued := hqueued.inl (Prog.NeverWaits.transitionStep sid .queued none _)
  have hrunning := hrunning.inl (Prog.NeverWaits.transitionStep sid .running none _)
  exact hqueued.bind (hrunning.bind hrest)

/-- One attempt: the executor is invoked once, and where it returns an output the step is
completed and the output is merged. -/
theorem timed_attemptStep {runner : Runner} (hrunner : runner.Keeps id sid)
    (step : StepDefinition) (session : SessionRef) (h : StepSession id sid row e attrs db)
    (hrunning : row.status = .running) (hmergeable : ¬ StepsRefused e.context) (env : Environment) :
    ∃ invoked result w', Prog.Timed id sid step.id (attemptStep runner session id step sid)
        ⟨db, env⟩ (.inl (.invoked invoked) :: (waitsOf runner ⟨id, step.id⟩ step
          (stepInput session e.context) invoked).map .inr ++ result.2.map .inl) result.1 w' ∧
      ((∃ output row' e' ctx, mergedContext e.context step.id output = .ok ctx ∧
          result = (.ok (), [.requested, .status .completed, .merged ctx]) ∧
          ((runner ⟨id, step.id⟩ step (stepInput session e.context)).run invoked).1 = .ok output ∧
          StepSession id sid row' e' { e with context := ctx } w'.db ∧ row'.status = .completed ∧
          row'.attempt = row.attempt ∧ row'.outputData = some output ∧
          (e' = { e with context := ctx } ∨ contextEq ctx e.context = true ∧ e' = e)) ∨
        ∃ exc, result = (.error (.exception exc), []) ∧
          ((runner ⟨id, step.id⟩ step (stepInput session e.context)).run invoked).1 =
            .error (.exception exc) ∧ StepSession id sid row e e w'.db) := by
  obtain ⟨db₁, hrefresh, h₁⟩ := h.traced_refreshExecution step.id env
  let call : ExecutorCall := ⟨step, stepInput session e.context⟩
  let invoked : World := (World.answer (.env (.observeInvoke ⟨id, step.id⟩ call)) ⟨db₁, env⟩).2
  let waits := waitsOf runner ⟨id, step.id⟩ step (stepInput session e.context) invoked
  have hnote : retryNote id sid step.id (.env (.observeInvoke ⟨id, step.id⟩ call)) ⟨db₁, env⟩ =
      [.invoked invoked] := if_pos rfl
  have hobserve : Prog.Traced id sid step.id (observeInvoke ⟨id, step.id⟩ call) ⟨db₁, env⟩
      [.invoked invoked] (.ok ()) invoked := hnote ▸ Script.Traced.send rfl
  have hobserved := hobserve.inl (Prog.NeverWaits.send (fun _ => rfl) _)
  obtain ⟨result, ⟨db₂, env₂⟩, hexecutor, h₂⟩ :=
    hrunner step session e.context invoked row e e h₁
  have hstep : Prog.Timed id sid step.id (runStep runner ⟨id, step.id⟩ step
      (stepInput session e.context)) ⟨db₁, env⟩ (.inl (.invoked invoked) :: waits.map .inr)
      (result.mapError Raised.exception) ⟨db₂, env₂⟩ := hobserved.bind hexecutor.inr
  have hrefreshed := hrefresh.inl (Prog.NeverWaits.send (fun _ => rfl) _)
  have hopen : ∀ {notes : List (RetryNote ⊕ Json)} {ended : Except Raised Unit} {w' : World},
      Prog.Timed id sid step.id (do
        let output ← runStep runner ⟨id, step.id⟩ step (stepInput session e.context)
        let _ ← transitionStep sid .completed none
        let _ ← assignStep sid (fun row => { row with outputData := some output })
        mergeStepOutput id step.id output) ⟨db₁, env⟩ notes ended w' →
      Prog.Timed id sid step.id (attemptStep runner session id step sid) ⟨db, env⟩ notes ended w' :=
    fun hrest => hrefreshed.bind_silent ((Script.Traced.pure _ _).bind_silent hrest)
  cases result with
  | error exc =>
    refine ⟨invoked, (_, []), _, ?_,
      .inr ⟨exc, rfl, congrArg Prod.fst hexecutor.run, h₂⟩⟩
    rw [List.map_nil, List.append_nil]
    exact hopen hstep.bind_error
  | ok output =>
    cases hmerge : mergedContext e.context step.id output with
    | error exc => exact absurd (stepsRefused_of_mergedContext hmerge) hmergeable
    | ok ctx =>
      have hallowed : StepStatus.completed ∈ allowedStepTransitions row.status := by
        simp [hrunning, allowedStepTransitions]
      obtain ⟨db₃, env₃, now, hcompleted, h₃⟩ := h₂.traced_transitionStep step.id hallowed none env₂
      obtain ⟨db₄, houtput, h₄⟩ :=
        h₃.traced_assignStep step.id (fun row => { row with outputData := some output }) env₃
      rw [if_pos rfl] at houtput
      obtain ⟨db₅, e', hmerged, h₅, hwritten⟩ := h₄.traced_mergeStepOutput hmerge env₃
      have hcompleted := hcompleted.inl (Prog.NeverWaits.transitionStep sid .completed none _)
      have houtput := houtput.inl (Prog.NeverWaits.send (fun _ => rfl) _)
      have hmerged := hmerged.inl (Prog.NeverWaits.mergeStepOutput id step.id output _)
      refine ⟨invoked, (.ok (), [.requested, .status .completed, .merged ctx]), _,
        hopen (hstep.bind (hcompleted.bind (houtput.bind_silent hmerged))), .inl ?_⟩
      exact ⟨output, _, e', ctx, hmerge, rfl, congrArg Prod.fst hexecutor.run, h₅, rfl, rfl, rfl,
        hwritten⟩

namespace Attempts

variable {runner : Runner} {session : SessionRef} {step : StepDefinition}
  {context : Dict String Json}
  {attempts : Attempts} {n remaining : Nat} {w : World} {exc : PyError} {output : Dict String Json}

/-- One more failure comes before the others. -/
def cons (w : World) (exc : PyError) (attempts : Attempts) : Attempts :=
  { attempts with failures := (w, exc) :: attempts.failures }

theorem count_cons : (cons w exc attempts).count = attempts.count + 1 := by
  simp [count, cons]
  omega

theorem timedNotes_cons (waits : World → List Json) :
    (cons w exc attempts).timedNotes waits context stepId =
      timedNotesOf waits w .failed ++ attempts.timedNotes waits context stepId := by
  simp [timedNotes, cons]

/-- Without the waits the trace is the one of the attempts. -/
theorem getLeft_timedNotesOf (waits : World → List Json) (last : StepStatus) :
    (timedNotesOf waits w last).filterMap Sum.getLeft? = notesOf w last := by
  have hwaits :
      ((waits w).map (Sum.inr : Json → RetryNote ⊕ Json)).filterMap Sum.getLeft? = [] := by
    rw [List.filterMap_map]
    exact List.filterMap_eq_nil_iff.mpr fun _ _ => rfl
  rw [timedNotesOf, List.filterMap_append, List.filterMap_append, hwaits]
  rfl

theorem getLeft_timedNotes (waits : World → List Json) :
    (attempts.timedNotes waits context stepId).filterMap Sum.getLeft? =
      attempts.notes context stepId := by
  have hmerged : ∀ merged : List (Dict String Json),
      (merged.map ((Sum.inl : RetryNote → RetryNote ⊕ Json) ∘ .merged)).filterMap Sum.getLeft? =
        merged.map .merged := by
    intro merged
    rw [List.filterMap_map, ← List.filterMap_eq_map]
    rfl
  rw [timedNotes, notes, List.filterMap_append, List.filterMap_flatMap, List.filterMap_flatMap]
  simp only [List.filterMap_append, getLeft_timedNotesOf, hmerged]

theorem Made.cons (h : attempts.Made runner session step id context)
    (hexecutor : ((runner ⟨id, step.id⟩ step (stepInput session context)).run w).1 =
      .error (.exception exc)) : (cons w exc attempts).Made runner session step id context := by
  refine ⟨fun w' exc' hmem => ?_, h.success⟩
  rcases List.mem_cons.mp hmem with heq | hlater
  · cases heq
    exact hexecutor
  · exact h.failures w' exc' hlater

theorem Stops.cons (h : attempts.Stops remaining) : (cons w exc attempts).Stops (remaining + 1) :=
  ⟨fun made hmade => Nat.succ_lt_succ (h.success made hmade),
    fun hnone => congrArg Nat.succ (h.exhausted hnone)⟩

theorem Leaves.cons (h : attempts.Leaves stepId e (n + 1) row' e') :
    (cons w exc attempts).Leaves stepId e n row' e' := by
  refine ⟨?_, h.status, h.success, h.exhausted⟩
  rw [h.attempt, count_cons]
  omega

end Attempts

/-- After a failure the loop goes on with the attempts that are left. -/
theorem retryLoop_next (runner : Runner) (session : SessionRef) (step : StepDefinition)
    (id sid : Uuid) {maxAttempts remaining n : Nat} (hmax : n + (remaining + 1) = maxAttempts) :
    (if n + 1 ≥ maxAttempts then return false
      else retryLoop runner session id step sid maxAttempts remaining (n + 1)) =
    retryLoop runner session id step sid maxAttempts remaining (n + 1) := by
  cases remaining with
  | zero => exact if_pos (by omega)
  | succ remaining => exact if_neg (by omega)

/-- The loop over the attempts: the step is pending before the first one, and failed before
any other and in the end. -/
theorem timed_retryLoop {runner : Runner} (hrunner : runner.Keeps id sid) (step : StepDefinition)
    (session : SessionRef) (maxAttempts remaining n : Nat) (hmax : n + remaining = maxAttempts)
    (h : StepSession id sid row e attrs db)
    (hstart : row.status = .pending ∧ 0 < remaining ∨ row.status = .failed ∧ row.attempt = n)
    (hmergeable : ¬ StepsRefused e.context) (env : Environment) :
    ∃ (attempts : Attempts) (w' : World) (row' : StepExecution) (e' : Execution),
      attempts.Made runner session step id e.context ∧ attempts.Stops remaining ∧
      Prog.Timed id sid step.id (retryLoop runner session id step sid maxAttempts remaining n)
        ⟨db, env⟩ (attempts.timedNotes (waitsOf runner ⟨id, step.id⟩ step
          (stepInput session e.context)) e.context step.id) (.ok attempts.success.isSome) w' ∧
      w'.db.view (.step sid) = some row' ∧ w'.db.view (.execution id) = some e' ∧
      attempts.Leaves step.id e n row' e' := by
  let waits := waitsOf runner ⟨id, step.id⟩ step (stepInput session e.context)
  induction remaining generalizing n row attrs db env with
  | zero =>
    obtain ⟨hfailed, hattempt⟩ : row.status = .failed ∧ row.attempt = n := by simpa using hstart
    exact ⟨⟨[], none⟩, ⟨db, env⟩, row, e, ⟨by simp, by simp⟩, ⟨by simp, by simp⟩,
      Script.Traced.pure _ _, h.step, h.execution, ⟨hattempt, hfailed, by simp, by simp⟩⟩
  | succ remaining ih =>
    have hopen : row.status = .pending ∨ row.status = .failed := hstart.imp And.left And.left
    obtain ⟨db₁, env₁, row₁, h₁, hrunning, hattempt, hbegin⟩ :=
      timed_beginAttempt h hopen (n + 1) env
    obtain ⟨invoked, result, ⟨db₂, env₂⟩, htry, hcase⟩ :=
      timed_attemptStep hrunner step session h₁ hrunning hmergeable env₁
    rw [retryLoop]
    rcases hcase with ⟨output, row', e', ctx, hmerge, rfl, hexecutor, h₂, hstatus, hcount, houtput,
      hwritten⟩ | ⟨exc, rfl, hexecutor, h₂⟩
    · refine ⟨⟨[], some (invoked, output)⟩, ⟨db₂, env₂⟩, row', e', ⟨by simp, ?_⟩,
        ⟨fun _ _ => Nat.succ_pos remaining, by simp⟩, ?_, h₂.step, h₂.execution,
        ⟨hcount.trans hattempt, hstatus, ?_, by simp⟩⟩
      · intro w output' heq
        cases heq
        exact hexecutor
      · have hnotes : Attempts.timedNotes waits e.context step.id ⟨[], some (invoked, output)⟩ =
            [.inl .requested, .inl (.status .queued), .inl .requested, .inl (.status .running)] ++
              (.inl (.invoked invoked) :: (waits invoked).map .inr ++
                [RetryNote.requested, .status .completed, .merged ctx].map .inl ++ []) := by
          simp [Attempts.timedNotes, Attempts.timedNotesOf, hmerge, Except.toOption]
        rw [hnotes]
        exact hbegin (htry.attempt.bind (Script.Traced.pure _ _))
      · intro w output' heq
        cases heq
        exact ⟨houtput, ctx, hmerge, hwritten⟩
    · have hallowed : StepStatus.failed ∈ allowedStepTransitions row₁.status := by
        simp [hrunning, allowedStepTransitions]
      obtain ⟨db₃, env₃, now, hfailed, h₃⟩ :=
        h₂.traced_transitionStep step.id hallowed (some exc.str) env₂
      -- the step is failed now, and the loop goes on from there
      obtain ⟨attempts, w', row', e', hmade, hstops, hloop, hrow', he', hleaves⟩ :=
        ih (n + 1) (by omega) h₃ (.inr ⟨rfl, hattempt⟩) env₃
      refine ⟨attempts.cons invoked exc, w', row', e', hmade.cons hexecutor, hstops.cons, ?_, hrow',
        he', hleaves.cons⟩
      have hfailed := hfailed.inl (Prog.NeverWaits.transitionStep sid .failed (some exc.str) _)
      have hnotes : Attempts.timedNotesOf waits invoked .failed =
          [.inl .requested, .inl (.status .queued), .inl .requested, .inl (.status .running)] ++
            (.inl (.invoked invoked) :: (waits invoked).map .inr ++ [] ++
              [RetryNote.requested, .status .failed].map .inl) := by
        simp [Attempts.timedNotesOf]
      rw [Attempts.timedNotes_cons, hnotes, List.append_assoc, List.append_assoc]
      refine hbegin (htry.attempt.bind ?_)
      dsimp only
      rw [retryLoop_next runner session step id sid hmax]
      exact hfailed.bind hloop

/-- The arbitrary executor works without the database. -/
theorem keeps_performer (id sid : Uuid) : Runner.Keeps performer id sid := by
  intro step session context w row e attrs h
  refine ⟨w.env.behaviour w.env.events ⟨step, stepInput session context⟩, w, ?_, h⟩
  rw [performer]
  have hperform : Prog.Traced id sid step.id (perform ⟨step, stepInput session context⟩) w []
      (.ok (w.env.behaviour w.env.events ⟨step, stepInput session context⟩)) w :=
    Script.Traced.send rfl
  exact hperform.bind_silent (Script.Traced.done _ _)

/-- The loop from its start, with its waits. -/
theorem timed_executeStepWithRetry {runner : Runner} (hrunner : runner.Keeps id sid)
    (session : SessionRef) (step : StepDefinition) (w : World)
    (h : StepSession id sid row e attrs w.db) (hpending : row.status = .pending)
    (hmax : 0 < row.maxAttempts) (hmergeable : ¬ StepsRefused e.context) :
    ∃ (attempts : Attempts) (w' : World) (row' : StepExecution) (e' : Execution),
      attempts.Made runner session step id e.context ∧ attempts.Stops row.maxAttempts ∧
      Prog.Timed id sid step.id (executeStepWithRetry runner session id step sid) w
        (attempts.timedNotes (waitsOf runner ⟨id, step.id⟩ step (stepInput session e.context))
          e.context step.id) (.ok attempts.success.isSome) w' ∧
      w'.db.view (.step sid) = some row' ∧ w'.db.view (.execution id) = some e' ∧
      attempts.Leaves step.id e 0 row' e' := by
  obtain ⟨db₁, hread, h₁⟩ := h.traced_readStep step.id w.env
  obtain ⟨attempts, w', row', e', hmade, hstops, hloop, hends⟩ :=
    timed_retryLoop hrunner step session row.maxAttempts row.maxAttempts 0 (Nat.zero_add _) h₁
      (.inl ⟨hpending, hmax⟩) hmergeable w.env
  have hread := hread.inl (Prog.NeverWaits.readStep sid _)
  exact ⟨attempts, w', row', e', hmade, hstops, hread.bind_silent hloop, hends⟩

/-- For each outcome of its attempts `_execute_step_with_retry` invokes the executor up to the
first success or until the attempts are used, requests no transition that is refused, and
merges the output once after a success. -/
theorem executeStepWithRetry_exact {runner : Runner} (hrunner : runner.Keeps id sid)
    (session : SessionRef) (step : StepDefinition) (w : World)
    (h : StepSession id sid row e attrs w.db) (hpending : row.status = .pending)
    (hmax : 0 < row.maxAttempts) (hmergeable : ¬ StepsRefused e.context) :
    ∃ (attempts : Attempts) (w' : World) (row' : StepExecution) (e' : Execution),
      attempts.Made runner session step id e.context ∧ attempts.Stops row.maxAttempts ∧
      Prog.Traced id sid step.id (executeStepWithRetry runner session id step sid) w
        (attempts.notes e.context step.id) (.ok attempts.success.isSome) w' ∧
      w'.db.view (.step sid) = some row' ∧ w'.db.view (.execution id) = some e' ∧
      attempts.Leaves step.id e 0 row' e' := by
  obtain ⟨attempts, w', row', e', hmade, hstops, htimed, hends⟩ :=
    timed_executeStepWithRetry hrunner session step w h hpending hmax hmergeable
  have htraced := htimed.left
  rw [Attempts.getLeft_timedNotes] at htraced
  exact ⟨attempts, w', row', e', hmade, hstops, htraced, hends⟩

end

/-- A session that has loaded the record 2 of a step with two attempts.  The executor fails once and
then returns an output. -/
def flakyWorld : World where
  db :=
    let opened : Db := ⟨Rows.ofList [⟨.execution 1, newExecution 1 1 [] none⟩,
      ⟨.step 2, newStepExecution 1 1 twiceStep⟩], Session.fresh⟩
    (opened.load (.step 2) (newStepExecution 1 1 twiceStep) ()).load (.execution 1)
      (newExecution 1 1 [] none) .nothing
  env := plainEnvironment fun events _ =>
    if events.length ≤ 1 then .error (.other "RuntimeError" "no answer") else .ok []

theorem executeStepWithRetry_exact_flaky :
    ∃ attempts : Attempts, attempts.count = 2 ∧ attempts.success.isSome = true ∧
      attempts.Made performer 0 twiceStep 1 (newExecution 1 1 [] none).context ∧
      Script.trace (S := engineSignature) World.answer (retryNote 1 2 "check")
        (executeStepWithRetry performer 0 1 twiceStep 2) flakyWorld =
          attempts.notes (newExecution 1 1 [] none).context "check" := by
  have hsession : StepSession 1 2 (newStepExecution 1 1 twiceStep) (newExecution 1 1 [] none)
      (newExecution 1 1 [] none) flakyWorld.db := ⟨rfl, rfl, rfl, rfl⟩
  obtain ⟨attempts, w', row', e', hmade, -, htraced, hrow', -, hleaves⟩ :=
    executeStepWithRetry_exact (keeps_performer 1 2) 0 twiceStep flakyWorld hsession rfl (by decide)
      fun ⟨_, h⟩ => by cases h
  have hended : ((executeStepWithRetry performer 0 1 twiceStep 2).run flakyWorld).1.toOption =
      some true := by decide +kernel
  have hattempt : (((executeStepWithRetry performer 0 1 twiceStep 2).run flakyWorld).2.db.view
      (.step 2)).map (fun row : StepExecution => row.attempt) = some 2 := by decide +kernel
  have hrun : (executeStepWithRetry performer 0 1 twiceStep 2).run flakyWorld =
      (.ok attempts.success.isSome, w') := htraced.run
  rw [hrun] at hended hattempt
  rw [hrow'] at hattempt
  have htwo : row'.attempt = 2 := Option.some.inj hattempt
  have hcount : attempts.count = 2 := by
    rw [← htwo, hleaves.attempt, Nat.zero_add]
  exact ⟨attempts, hcount, Option.some.inj hended, hmade, htraced.trace⟩

end WorkflowEngine

import WorkflowEngine.Board

/-!
# The attempts of one step

`_execute_step_with_retry` on a board.  The executor is any `Quiet` one: on the
input that a run hands to it, it does not touch the database and ends with an
output or an exception.

The context of a run is `runContext`: the trigger data, and one entry for each
completed step.  It has no tenant id in it.
-/

namespace WorkflowEngine

open Py Orm Interact

/-- The context of a run. -/
def runContext (triggerData steps : Dict String Json) : Dict String Json :=
  [("trigger", .obj triggerData), ("steps", .obj steps)]

theorem tenantId_runContext (triggerData steps : Dict String Json) :
    Dict.get? (runContext triggerData steps) "_tenant_id" = none := rfl

theorem mergedContext_runContext {triggerData steps : Dict String Json} {s : String}
    (hs : s ∉ Dict.keys steps) (output : Dict String Json) :
    mergedContext (runContext triggerData steps) s output =
      .ok (runContext triggerData (steps ++ [(s, stepEntry output)])) := by
  rw [← Dict.set_of_not_mem steps s _ hs]
  rfl

/-- A context with one more step is not equal to the context without it. -/
theorem contextEq_runContext (triggerData steps : Dict String Json) (entry : String × Json) :
    contextEq (runContext triggerData (steps ++ [entry])) (runContext triggerData steps) =
      false := by
  simp [contextEq, runContext, Json.eq, Json.eqFields, Dict.get?_cons]

/-- An executor that works without the database on the inputs of a run, and
ends with an output or an exception. -/
def Runner.Quiet (runner : Runner) : Prop :=
  ∀ caller step session ctx w, Dict.get? ctx "_tenant_id" = none →
    ∃ (result : Except PyError (Dict String Json)) (env' : Environment),
      (runner caller step (stepInput session ctx)).run w =
        (result.mapError Raised.exception, ⟨w.db, env'⟩) ∧ w.env.Later [] env'

theorem performer_quiet : Runner.Quiet performer := by
  intro caller step session ctx w _
  refine ⟨w.env.behaviour w.env.events ⟨step, stepInput session ctx⟩, w.env, ?_,
    Environment.Later.refl _⟩
  rw [performer, Prog.run_bind_ok (run_perform _ _)]
  rfl

/-- What the outside world makes of the calls of an arbitrary executor. -/
abbrev Behaviour := List Event → ExecutorCall → Except PyError (Dict String Json)

/-- The executor can end so on the step and the context, in a world with the
given behaviour. -/
def Yields (runner : Runner) (session : SessionRef) (behaviour : Behaviour)
    (step : StepDefinition) (ctx : Dict String Json)
    (result : Except PyError (Dict String Json)) : Prop :=
  ∃ caller w, w.env.behaviour = behaviour ∧
    ((runner caller step (stepInput session ctx)).run w).1 = result.mapError Raised.exception

/-- The columns that a run does not change. -/
def StepExecution.SameStep (row row' : StepExecution) : Prop :=
  row'.executionId = row.executionId ∧ row'.stepId = row.stepId ∧
    row'.maxAttempts = row.maxAttempts

theorem StepExecution.SameStep.trans {row row' row'' : StepExecution} (h : row.SameStep row')
    (h' : row'.SameStep row'') : row.SameStep row'' :=
  ⟨h'.1.trans h.1, h'.2.1.trans h.2.1, h'.2.2.trans h.2.2⟩

/-- The invocation of the executor of `step`: the session sees the board `b`,
with the step itself running. -/
structure Invoked (r : RunIds) (session : SessionRef) (step : StepDefinition) (b : Board)
    (inv : Invocation) : Prop where
  caller : inv.caller = ⟨r.id, step.id⟩
  call : inv.call = ⟨step, stepInput session b.execution.context⟩
  committed : inv.committed = r.committed
  seen : ∃ row, row.status = .running ∧ (b.row step.id).SameStep row ∧
    Seen r inv.view (b.setRow step.id row)

/-- An invocation is the same seen from a board on which only the row of the
step itself is another one. -/
theorem Invoked.of_board {r : RunIds} {session : SessionRef} {step : StepDefinition}
    {b b' : Board} {inv : Invocation} (h : Invoked r session step b' inv)
    (hexecution : b'.execution = b.execution) (hothers : ∀ s, s ≠ step.id → b'.row s = b.row s)
    (hsame : (b.row step.id).SameStep (b'.row step.id)) : Invoked r session step b inv := by
  obtain ⟨row, hstatus, hrow, hseen⟩ := h.seen
  have hrows : (b'.setRow step.id row).row = (b.setRow step.id row).row := by
    funext s
    by_cases hs : s = step.id
    · subst hs
      simp
    · rw [Board.setRow_row_ne _ _ hs, Board.setRow_row_ne _ _ hs, hothers s hs]
  refine ⟨h.caller, hexecution ▸ h.call, h.committed, row, hstatus, hsame.trans hrow, ?_, ?_,
    hseen.only, hseen.others⟩
  · rw [hseen.execution, Board.setRow_execution, hexecution, Board.setRow_execution]
  · intro s sid hs
    rw [hseen.step hs, hrows]

/-- What the attempts of a step leave on the board. -/
structure Attempted (runner : Runner) (session : SessionRef) (behaviour : Behaviour)
    (step : StepDefinition) (maxAttempts : Nat) (triggerData steps : Dict String Json)
    (b b' : Board) (success : Bool) : Prop where
  others : ∀ s, s ≠ step.id → b'.row s = b.row s
  same : (b.row step.id).SameStep (b'.row step.id)
  completed : success = true → ∃ output,
    Yields runner session behaviour step b.execution.context (.ok output) ∧
    b'.execution = { b.execution with
      context := runContext triggerData (steps ++ [(step.id, stepEntry output)]) } ∧
    (b'.row step.id).status = .completed ∧ (b'.row step.id).outputData = some output
  failed : success = false → ∃ e,
    Yields runner session behaviour step b.execution.context (.error e) ∧
    b'.execution = b.execution ∧
    (b'.row step.id).status = .failed ∧ (b'.row step.id).attempt = maxAttempts

section

variable {runner : Runner} {r : RunIds} {db : Db} {b : Board} {session : SessionRef}
  {step : StepDefinition} {sid : Uuid} {triggerData steps : Dict String Json}

/-- `merge_step_output` on the context of a run. -/
theorem run_mergeStepOutput (h : Shows r db b)
    (hctx : b.execution.context = runContext triggerData steps)
    (hattrs : b.attrs = b.execution.context) {s : String} (hs : s ∉ Dict.keys steps)
    (output : Dict String Json) (env : Environment) :
    ∃ db', (mergeStepOutput r.id s output).run ⟨db, env⟩ = (.ok (), ⟨db', env⟩) ∧
      Shows r db' ⟨{ b.execution with
        context := runContext triggerData (steps ++ [(s, stepEntry output)]) },
        runContext triggerData (steps ++ [(s, stepEntry output)]), b.row⟩ := by
  have hne : contextEq (runContext triggerData (steps ++ [(s, stepEntry output)])) b.attrs =
      false := by
    rw [hattrs, hctx]
    exact contextEq_runContext _ _ _
  obtain ⟨db', hrun, hshows⟩ := run_assignContext h hne env
  refine ⟨db', ?_, hshows⟩
  rw [mergeStepOutput, Prog.run_bind_ok (run_selectExecution h env)]
  simp only [hattrs, hctx, mergedContext_runContext hs]
  rw [Prog.run_bind_ok (Prog.run_liftExcept _ _)]
  exact hrun

variable (session) in
/-- One attempt: it refreshes the execution, invokes the executor, and where
that returns an output it completes the step and merges the output. -/
theorem run_attemptStep (hquiet : runner.Quiet) (h : Shows r db b)
    (hs : Dict.get? r.stepMap step.id = some sid)
    (hrunning : (b.row step.id).status = .running)
    (hctx : b.execution.context = runContext triggerData steps)
    (hnew : step.id ∉ Dict.keys steps) (env : Environment) :
    ∃ result db' env' inv b',
      (attemptStep runner session r.id step sid).run ⟨db, env⟩ =
        ((Except.mapError Raised.exception result).map (fun _ => ()), ⟨db', env'⟩) ∧
      env.Later [.invoked inv] env' ∧ Shows r db' b' ∧
      Yields runner session env.behaviour step b.execution.context result ∧
      inv.caller = ⟨r.id, step.id⟩ ∧ inv.call = ⟨step, stepInput session b.execution.context⟩ ∧
      inv.committed = r.committed ∧ Seen r inv.view b ∧
      match result with
      | .ok output => ∃ now, b' = ⟨{ b.execution with
          context := runContext triggerData (steps ++ [(step.id, stepEntry output)]) },
          runContext triggerData (steps ++ [(step.id, stepEntry output)]),
          Function.update b.row step.id
            { stepTransition (b.row step.id) .completed now none (b.row step.id) with
              outputData := some output }⟩
      | .error _ => b' = { b with attrs := b.execution.context } := by
  obtain ⟨db₁, hrefresh, hshows₁⟩ := run_refreshExecution h env
  let inv : Invocation := ⟨⟨r.id, step.id⟩, ⟨step, stepInput session b.execution.context⟩,
    DbState.view db₁, db₁.committed⟩
  let env₁ : Environment := { env with events := env.events ++ [.invoked inv] }
  have hlater₁ : env.Later [.invoked inv] env₁ := ⟨rfl, rfl, rfl, rfl⟩
  obtain ⟨result, env₂, hrunner, hlater₂⟩ := hquiet ⟨r.id, step.id⟩ step session
    b.execution.context ⟨db₁, env₁⟩ (by rw [hctx]; rfl)
  have hlater₂' : env.Later [.invoked inv] env₂ := by simpa using hlater₁.trans hlater₂
  have hstep : (runStep runner ⟨r.id, step.id⟩ step (stepInput session b.execution.context)).run
      ⟨db₁, env⟩ = (result.mapError Raised.exception, ⟨db₁, env₂⟩) := by
    rw [runStep, Prog.run_bind_ok (run_observeInvoke _ _ _)]
    exact hrunner
  have hseen : Seen r inv.view b :=
    ⟨hshows₁.seen.execution, hshows₁.seen.step, hshows₁.seen.only, hshows₁.seen.others⟩
  have hyields : Yields runner session env.behaviour step b.execution.context result :=
    ⟨_, ⟨db₁, env₁⟩, rfl, by rw [hrunner]⟩
  have hopen : (attemptStep runner session r.id step sid).run ⟨db, env⟩ =
      (do
        let output ← runStep runner ⟨r.id, step.id⟩ step (stepInput session b.execution.context)
        let _ ← transitionStep sid .completed none
        let _ ← assignStep sid (fun row => { row with outputData := some output })
        mergeStepOutput r.id step.id output).run ⟨db₁, env⟩ := by
    rw [attemptStep, Prog.run_bind_ok hrefresh]
    exact Prog.run_bind_ok (Prog.run_pure _ _)
  cases result with
  | error e =>
    refine ⟨.error e, db₁, env₂, inv, _, ?_, hlater₂', hshows₁, hyields, rfl, rfl,
      hshows₁.committed, hseen, rfl⟩
    rw [hopen, Prog.run_bind_error hstep]
    rfl
  | ok output =>
    have hallowed : StepStatus.completed ∈ allowedStepTransitions (b.row step.id).status := by
      rw [hrunning]
      decide
    obtain ⟨db₃, env₃, now, hcompleted, hlater₃, hshows₃⟩ :=
      run_transitionStep hshows₁ hs hallowed none env₂
    obtain ⟨db₄, houtput, hshows₄⟩ := run_assignStep hshows₃ hs
      (fun row => { row with outputData := some output }) env₃
    obtain ⟨db₅, hmerge, hshows₅⟩ := run_mergeStepOutput hshows₄ hctx rfl hnew output env₃
    refine ⟨.ok output, db₅, env₃, inv, _, ?_, by simpa using hlater₂'.trans hlater₃, hshows₅,
      hyields, rfl, rfl, hshows₁.committed, hseen, now, ?_⟩
    · rw [hopen, Prog.run_bind_ok hstep, Prog.run_bind_ok hcompleted, Prog.run_bind_ok houtput,
        hmerge]
      rfl
    · simp [Board.setRow]

/-- What comes before the `try` block: the attempt is counted, and the step
goes through `queued` to `running`. -/
theorem run_beginAttempt (h : Shows r db b) {s : String}
    (hs : Dict.get? r.stepMap s = some sid)
    (hstart : (b.row s).status = .pending ∨ (b.row s).status = .failed) (attempt : Nat)
    (env : Environment) :
    ∃ db' env' row, row.status = .running ∧ row.attempt = attempt ∧ (b.row s).SameStep row ∧
      env.Later [] env' ∧ Shows r db' (b.setRow s row) ∧
      ∀ {α : Type} (rest : Prog α),
        Prog.run (do
          let stepExec ← mapped (← assignStep sid (fun row => { row with attempt := attempt }))
          if stepExec.status = .pending ∨ stepExec.status = .failed then
            let _ ← transitionStep sid .queued none
          let _ ← transitionStep sid .running none
          rest) ⟨db, env⟩ = rest.run ⟨db', env'⟩ := by
  let row₁ : StepExecution := { b.row s with attempt := attempt }
  obtain ⟨db₁, hassign, hshows₁⟩ := run_assignStep h hs
    (fun row => { row with attempt := attempt }) env
  have hqueue : StepStatus.queued ∈ allowedStepTransitions ((b.setRow s row₁).row s).status := by
    rw [Board.setRow_row_self]
    change _ ∈ allowedStepTransitions (b.row s).status
    rcases hstart with hst | hst <;> simp [hst, allowedStepTransitions]
  obtain ⟨db₂, env₂, now₂, hqueued, hlater₂, hshows₂⟩ :=
    run_transitionStep hshows₁ hs hqueue none env
  have hrun : StepStatus.running ∈ allowedStepTransitions
      (((b.setRow s row₁).setRow s (stepTransition ((b.setRow s row₁).row s) .queued now₂ none
        ((b.setRow s row₁).row s))).row s).status := by
    rw [Board.setRow_row_self]
    simp [stepTransition, allowedStepTransitions]
  obtain ⟨db₃, env₃, now₃, hrunning, hlater₃, hshows₃⟩ :=
    run_transitionStep hshows₂ hs hrun none env₂
  simp only [Board.setRow_row_self, Board.setRow_setRow] at hqueued hrunning hshows₃
  refine ⟨db₃, env₃, _, ?_, ?_, ?_, by simpa using hlater₂.trans hlater₃, hshows₃, ?_⟩
  · rfl
  · rfl
  · exact ⟨rfl, rfl, rfl⟩
  · intro α rest
    rw [Prog.run_bind_ok hassign, mapped, Prog.run_bind_ok (Prog.run_pure _ _)]
    have hcond : (b.row s).status = .pending ∨ (b.row s).status = .failed := hstart
    simp only [hcond, if_true]
    rw [Prog.run_bind_ok hqueued]
    exact Prog.run_bind_ok hrunning

/-- The loop over the attempts.  The step is pending before the first attempt
and failed before any other. -/
theorem run_retryLoop (hquiet : runner.Quiet) (hs : Dict.get? r.stepMap step.id = some sid)
    (hnew : step.id ∉ Dict.keys steps) (maxAttempts remaining attempts : Nat)
    (hpos : 0 < remaining) (hmax : attempts + remaining = maxAttempts)
    (h : Shows r db b)
    (hstart : (b.row step.id).status = .pending ∨ (b.row step.id).status = .failed)
    (hctx : b.execution.context = runContext triggerData steps) (env : Environment) :
    ∃ success db' env' invs b',
      (retryLoop runner session r.id step sid maxAttempts remaining attempts).run ⟨db, env⟩ =
        (.ok success, ⟨db', env'⟩) ∧
      env.Later (invs.map .invoked) env' ∧ invs ≠ [] ∧
      (∀ inv ∈ invs, Invoked r session step b inv) ∧ Shows r db' b' ∧
      Attempted runner session env.behaviour step maxAttempts triggerData steps b b' success := by
  induction remaining generalizing attempts db b env with
  | zero => omega
  | succ remaining ih =>
    obtain ⟨db₁, env₁, row, hrow, hattempt, hsame, hlater₁, hshows₁, hbegin⟩ :=
      run_beginAttempt h hs hstart (attempts + 1) env
    obtain ⟨result, db₂, env₂, inv, b₂, htry, hlater₂, hshows₂, ⟨caller, w, hw, hyields⟩, hcaller,
      hcall, hcommitted, hseen, hb₂⟩ := run_attemptStep session hquiet hshows₁ hs
        (by rw [Board.setRow_row_self, hrow]) hctx hnew env₁
    have hlater : env.Later [.invoked inv] env₂ := hlater₁.trans hlater₂
    have hinv : Invoked r session step b inv :=
      ⟨hcaller, hcall, hcommitted, row, hrow, hsame, hseen⟩
    have hyields' : Yields runner session env.behaviour step b.execution.context result :=
      ⟨caller, w, hw.trans hlater₁.behaviour, hyields⟩
    have hcatch := Prog.run_attempt (attemptStep runner session r.id step sid) ⟨db₁, env₁⟩
    rw [htry] at hcatch
    rw [retryLoop]
    cases result with
    | ok output =>
      obtain ⟨now, rfl⟩ := hb₂
      refine ⟨true, db₂, env₂, [inv], _, ?_, hlater, by simp, by simpa using hinv, hshows₂, ?_⟩
      · rw [hbegin, Prog.run_bind_ok hcatch]
        rfl
      · refine ⟨fun s hne => ?_, ?_, fun _ => ⟨output, hyields', rfl, ?_, ?_⟩, by simp⟩
        · simp [Function.update_of_ne hne, Board.setRow_row_ne _ _ hne]
        · have hkept : row.SameStep { stepTransition row .completed now none row with
              outputData := some output } := ⟨rfl, rfl, rfl⟩
          simpa using hsame.trans hkept
        · simp [stepTransition]
        · simp
    | error e =>
      subst hb₂
      have hallowed : StepStatus.failed ∈ allowedStepTransitions
          ((b.setRow step.id row).row step.id).status := by
        rw [Board.setRow_row_self, hrow]
        decide
      obtain ⟨db₃, env₃, now, hfailed, hlater₃, hshows₃⟩ :=
        run_transitionStep hshows₂ hs hallowed (some e.str) env₂
      let row₃ := stepTransition row .failed now (some e.str) row
      let b₃ : Board := { b.setRow step.id row₃ with attrs := b.execution.context }
      have hb₃ : Shows r db₃ b₃ := by simpa [b₃, Board.setRow, row₃] using hshows₃
      have hothers : ∀ s, s ≠ step.id → b₃.row s = b.row s := by
        intro s hne
        exact Board.setRow_row_ne b row₃ hne
      have hself : b₃.row step.id = row₃ := Board.setRow_row_self b step.id row₃
      have hsame₃ : (b.row step.id).SameStep (b₃.row step.id) := by
        rw [hself]
        exact hsame.trans ⟨rfl, rfl, rfl⟩
      have hlater₃' : env.Later [.invoked inv] env₃ := by simpa using hlater.trans hlater₃
      rw [hbegin, Prog.run_bind_ok hcatch]
      simp only [Except.mapError, Except.map]
      rw [Prog.run_bind_ok hfailed]
      by_cases hlast : attempts + 1 ≥ maxAttempts
      · refine ⟨false, db₃, env₃, [inv], b₃, by rw [if_pos hlast]; rfl, hlater₃', by simp,
          by simpa using hinv, hb₃, hothers, hsame₃, by simp, fun _ => ⟨e, hyields', rfl, ?_, ?_⟩⟩
        · rw [hself]
          rfl
        · rw [hself]
          change row.attempt = maxAttempts
          omega
      · -- The step is failed now, so the next attempt starts like this one.
        obtain ⟨success, db', env', invs, b', hloop, hlater', -, hinvs, hshows', hdone⟩ :=
          ih (attempts + 1) (by omega) (by omega) hb₃ (.inr (by rw [hself]; rfl)) hctx env₃
        have hbehaviour : ∀ {result}, Yields runner session env₃.behaviour step b₃.execution.context result →
            Yields runner session env.behaviour step b.execution.context result := by
          rintro result ⟨caller, w, hw, hresult⟩
          exact ⟨caller, w, hw.trans hlater₃'.behaviour, hresult⟩
        refine ⟨success, db', env', inv :: invs, b', by rw [if_neg hlast, hloop], ?_, by simp,
          ?_, hshows', fun s hne => (hdone.others s hne).trans (hothers s hne),
          hsame₃.trans hdone.same, fun hsuccess => ?_, fun hsuccess => ?_⟩
        · simpa using hlater₃'.trans hlater'
        · intro inv' hinv'
          rcases List.mem_cons.mp hinv' with rfl | hmem
          · exact hinv
          · exact (hinvs inv' hmem).of_board rfl hothers hsame₃
        · obtain ⟨output, hy, hrest⟩ := hdone.completed hsuccess
          exact ⟨output, hbehaviour hy, hrest⟩
        · obtain ⟨e', hy, hrest⟩ := hdone.failed hsuccess
          exact ⟨e', hbehaviour hy, hrest⟩

variable (session) in
/-- `_execute_step_with_retry` on a pending step. -/
theorem run_executeStepWithRetry (hquiet : runner.Quiet)
    (hs : Dict.get? r.stepMap step.id = some sid) (hnew : step.id ∉ Dict.keys steps)
    (h : Shows r db b) (hpending : (b.row step.id).status = .pending)
    (hmax : 0 < (b.row step.id).maxAttempts)
    (hctx : b.execution.context = runContext triggerData steps) (env : Environment) :
    ∃ success db' env' invs b',
      (executeStepWithRetry runner session r.id step sid).run ⟨db, env⟩ =
        (.ok success, ⟨db', env'⟩) ∧
      env.Later (invs.map .invoked) env' ∧ invs ≠ [] ∧
      (∀ inv ∈ invs, Invoked r session step b inv) ∧ Shows r db' b' ∧
      Attempted runner session env.behaviour step (b.row step.id).maxAttempts triggerData steps b b'
        success := by
  obtain ⟨db₁, hread, hshows₁⟩ := run_readStep h hs env
  rw [executeStepWithRetry, Prog.run_bind_ok hread]
  exact run_retryLoop hquiet hs hnew _ _ 0 hmax (Nat.zero_add _) hshows₁ (.inl hpending) hctx env

end

end WorkflowEngine

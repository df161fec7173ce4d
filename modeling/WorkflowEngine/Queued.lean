import WorkflowEngine.StepTask
import WorkflowEngine.Templates

/-!
# The queued path against the inline path

`execute_step` of the worker and one attempt of `_execute_step_with_retry`, on
the same queued step record of the same execution, with the same arbitrary
executors.

They never agree.  The worker takes the config from `input_data`, which
`start_execution` leaves empty, and the context without the session, the depth
and the tenant id that the orchestrator adds.
-/

namespace WorkflowEngine

open Py Orm Interact

/-- The executors of the worker for the record of `step`: each call is noted,
and answered by the outside world. -/
def notedExecutors (step : StepDefinition) : Executors := fun caller type config vars =>
  runStep performer caller { step with type := type, config := config } vars

/-- One attempt of `_execute_step_with_retry`, with both rows loaded. -/
def inlineAttempt (session : SessionRef) (id : Uuid) (step : StepDefinition) (sid : Uuid) :
    Prog Bool := do
  let _ ← selectStep sid
  let _ ← selectExecution id (fun _ => true)
  retryLoop performer session id step sid step.maxAttempts 1 0

/-- A record of `start_execution` that was put into the queue. -/
def queuedRecord (tenantId id : Uuid) (step : StepDefinition) : StepExecution :=
  { newStepExecution tenantId id step with status := .queued }

/-- The two paths, from `w` to `wq` and to `wi`, make the same calls and leave
the same step and the same context. -/
structure QueuedAgrees (w wq wi : World) (sid id : Uuid) : Prop where
  calls : ∀ call, (∃ inv, Invokes w wq inv ∧ inv.call = call) ↔
    ∃ inv, Invokes w wi inv ∧ inv.call = call
  step : (wq.db.view (.step sid)).map (fun row => (row.status, row.outputData)) =
    (wi.db.view (.step sid)).map (fun row => (row.status, row.outputData))
  context : (wq.db.view (.execution id)).map (·.context) =
    (wi.db.view (.execution id)).map (·.context)

section

variable {t : Rows Row} {sid id tenantId : Uuid} {e : Execution} {step : StepDefinition}

theorem ofValue?_value (type : StepType) : StepType.ofValue? type.value = some type := by
  cases type <;> decide

/-- The worker calls the executor with an empty config, and with the context
alone. -/
theorem queued_calls (hstep : Rows.row t (.step sid) = some (queuedRecord tenantId id step))
    (hexecution : Rows.row t (.execution id) = some e) {seText exText : String}
    (hse : uuidOf (.str seText) = .ok sid) (hex : uuidOf (.str exText) = .ok id)
    (env : Environment) {inv : Invocation}
    (h : Invokes ⟨⟨t, Session.fresh⟩, env⟩ ((executeStepWith (notedExecutors step) seText exText).run
      ⟨⟨t, Session.fresh⟩, env⟩).2 inv) :
    inv.call = ⟨{ step with config := [] }, getStepInput e.context⟩ := by
  have hready : JobReady t sid id (queuedRecord tenantId id step) e step.type :=
    ⟨hstep, hexecution, rfl, ofValue?_value step.type⟩
  rcases run_executeStepWith_ready hready hse hex (notedExecutors step) env with
    ⟨db₁, env₁, hlater, hrun⟩
  let called : Invocation := ⟨⟨id, step.id⟩, ⟨{ step with config := [] }, getStepInput e.context⟩,
    db₁.view, db₁.committed⟩
  let noted : Environment := { env₁ with events := env₁.events ++ [.invoked called] }
  have hexecute : (notedExecutors step ⟨id, step.id⟩ step.type [] (getStepInput e.context)).run
      ⟨db₁, env₁⟩ = ((noted.behaviour noted.events called.call).mapError Raised.exception,
        ⟨db₁, noted⟩) := by
    have hnoted : (observeInvoke ⟨id, step.id⟩ called.call).run ⟨db₁, env₁⟩ =
        (.ok (), ⟨db₁, noted⟩) := rfl
    unfold notedExecutors runStep
    exact Prog.run_bind_ok hnoted
  rcases hrun _ noted hexecute with ⟨ended, db', env', hended, hlater', -⟩
  rw [hended] at h
  have hnoted : env₁.Later [.invoked called] noted := ⟨rfl, rfl, rfl, rfl⟩
  have hall : env.Later [.invoked called] env' := (hlater.trans hnoted).trans hlater'
  unfold Invokes at h
  rw [hall.since_eq, List.mem_singleton] at h
  rw [Event.invoked.inj h]

/-- The orchestrator calls it with the config of the step, and with the session
and the metadata in the context. -/
theorem inline_calls (hstep : Rows.row t (.step sid) = some (queuedRecord tenantId id step))
    (hexecution : Rows.row t (.execution id) = some e) (session : SessionRef) (env : Environment) :
    ∃ inv, Invokes ⟨⟨t, Session.fresh⟩, env⟩ ((inlineAttempt session id step sid).run
      ⟨⟨t, Session.fresh⟩, env⟩).2 inv ∧ inv.call = ⟨step, stepInput session e.context⟩ := by
  rcases jobSession_loaded hstep hexecution with ⟨db, hsession, hselects⟩
  rcases hsession.run_assignStep (fun row => { row with attempt := 1 }) env with
    ⟨db₁, hattempt, h₁⟩
  have hallowed : StepStatus.running ∈ allowedStepTransitions
      ({ queuedRecord tenantId id step with attempt := 1 } : StepExecution).status := by
    simp [queuedRecord, allowedStepTransitions]
  rcases h₁.run_transitionStep hallowed none env with ⟨db₂, env₂, now, hrunning, hlater, h₂⟩
  have hview : (⟨db₂, env₂⟩ : World).db.view (.execution id) = some e := h₂.execution
  rcases later_attemptStep session step sid hview with ⟨new, hinvoked, -⟩
  rcases hrun : (attemptStep performer session id step sid).run ⟨db₂, env₂⟩ with ⟨result, w'⟩
  rw [hrun] at hinvoked
  have hcaught : Prog.run (Script.attempt (attemptStep performer session id step sid) :
      Prog (Except Raised Unit)) ⟨db₂, env₂⟩ = (.ok result, w') := by
    rw [Prog.run_attempt, hrun]
  -- what is noted in the attempt stays noted
  have hloop : Notes (.each (MadeFor session id step))
      (retryLoop performer session id step sid step.maxAttempts 0 1) :=
    notes_retryLoop session step sid step.maxAttempts 0 1
  have hrest : ∃ rest : Prog Bool, Notes (.each (MadeFor session id step)) rest ∧
      (inlineAttempt session id step sid).run ⟨⟨t, Session.fresh⟩, env⟩ = rest.run w' := by
    refine ⟨_, notes_afterAttempt session step sid hloop result, ?_⟩
    refine (Prog.run_bind_ok (hselects env).1).trans ?_
    refine (Prog.run_bind_ok (hselects env).2).trans ?_
    refine (Prog.run_bind_ok hattempt).trans ?_
    refine (Prog.run_bind_ok (Prog.run_pure _ _)).trans ?_
    refine (Prog.run_bind_ok hrunning).trans ?_
    refine (Prog.run_bind_ok hcaught).trans ?_
    cases result with
    | ok _ => rfl
    | error raised => cases raised <;> rfl
  rcases hrest with ⟨rest, hnotes, hended⟩
  rcases hnotes w' with ⟨new', hafter, -⟩
  let inv : Invocation := ⟨⟨id, step.id⟩, ⟨step, stepInput session e.context⟩, db₂.view,
    db₂.committed⟩
  have hall : env.Later ([] ++ .invoked inv :: new ++ new') ((inlineAttempt session id step sid).run
      ⟨⟨t, Session.fresh⟩, env⟩).2.env := by
    rw [hended]
    exact (hlater.trans hinvoked).trans hafter
  refine ⟨inv, ?_, rfl⟩
  show Event.invoked inv ∈ env.since _
  rw [hall.since_eq]
  simp

/-- The two inputs differ: only the orchestrator adds the session. -/
theorem getStepInput_ne_stepInput (session : SessionRef) (ctx : Dict String Json) :
    getStepInput ctx ≠ stepInput session ctx := by
  intro h
  have hkeys := congrArg (Dict.get? · "_session") h
  simp [getStepInput, stepInput, Dict.get?_cons, Dict.get?_set] at hkeys

/-- On no input do the two paths agree. -/
theorem not_queuedAgrees (hstep : Rows.row t (.step sid) = some (queuedRecord tenantId id step))
    (hexecution : Rows.row t (.execution id) = some e) {seText exText : String}
    (hse : uuidOf (.str seText) = .ok sid) (hex : uuidOf (.str exText) = .ok id)
    (session : SessionRef) (env : Environment) :
    ¬ QueuedAgrees ⟨⟨t, Session.fresh⟩, env⟩
      ((executeStepWith (notedExecutors step) seText exText).run ⟨⟨t, Session.fresh⟩, env⟩).2
      ((inlineAttempt session id step sid).run ⟨⟨t, Session.fresh⟩, env⟩).2 sid id := by
  intro h
  rcases inline_calls hstep hexecution session env with ⟨inv, hinline, hcall⟩
  rcases (h.calls inv.call).mpr ⟨inv, hinline, rfl⟩ with ⟨inv', hqueued, hsame⟩
  have hinput := congrArg ExecutorCall.input
    ((queued_calls hstep hexecution hse hex env hqueued).symm.trans (hsame.trans hcall))
  exact getStepInput_ne_stepInput session e.context hinput

end

/-! ## One transform step on both paths -/

/-- The execution 1 with a queued record 2 of a transform step. -/
def oneQueued : Rows Row :=
  Rows.ofList
    [⟨.execution 1, newExecution 1 1 [] none⟩,
      ⟨.step 2, queuedRecord 1 1
        (plainStep "check" .transform [("expression", .str "a")] [] check_length)⟩]

/-- The outside world answers as the `transform` executor does. -/
def transforming : World :=
  ⟨⟨oneQueued, Session.fresh⟩, plainEnvironment (fun _ call =>
    TransformExecutor.execute plainLibraries call.step.config call.input)⟩

/-- The worker on this record. -/
def transformQueued : World :=
  ((executeStepWith (notedExecutors
    (plainStep "check" .transform [("expression", .str "a")] [] check_length))
    "00000000-0000-0000-0000-000000000002" "00000000-0000-0000-0000-000000000001").run
    transforming).2

/-- The orchestrator on this record. -/
def transformInline : World :=
  ((inlineAttempt 0 1 (plainStep "check" .transform [("expression", .str "a")] [] check_length)
    2).run transforming).2

/-- The paths disagree on this record. -/
theorem not_queuedAgrees_transform :
    ¬ QueuedAgrees transforming transformQueued transformInline 2 1 := by
  have hstep : Rows.row oneQueued (.step 2) = some (queuedRecord 1 1
      (plainStep "check" .transform [("expression", .str "a")] [] check_length)) := by rfl
  have hexecution : Rows.row oneQueued (.execution 1) = some (newExecution 1 1 [] none) := by rfl
  have hse : uuidOf (.str "00000000-0000-0000-0000-000000000002") = .ok 2 := by rfl
  have hex : uuidOf (.str "00000000-0000-0000-0000-000000000001") = .ok 1 := by rfl
  exact not_queuedAgrees hstep hexecution hse hex 0 _

/-- The worker fails the step, since the record has no config, and the
orchestrator completes it. -/
theorem transform_statuses_differ :
    (transformQueued.db.view (.step 2)).map (fun row => row.status) = some .failed ∧
    (transformInline.db.view (.step 2)).map (fun row => row.status) = some .completed ∧
    ¬ QueuedAgrees transforming transformQueued transformInline 2 1 := by
  have hqueued : (transformQueued.db.view (.step 2)).map (fun row => row.status) =
      some .failed := by decide +kernel
  have hinline : (transformInline.db.view (.step 2)).map (fun row => row.status) =
      some .completed := by decide +kernel
  refine ⟨hqueued, hinline, fun h => ?_⟩
  have hstatus := congrArg (Option.map Prod.fst) h.step
  rw [Option.map_map, Option.map_map] at hstatus
  have hsame : some StepStatus.failed = some .completed :=
    hqueued.symm.trans (Eq.trans hstatus hinline)
  cases hsame

end WorkflowEngine

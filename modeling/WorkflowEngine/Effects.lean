import WorkflowEngine.Records

/-!
# What an entry commits

An entry runs through a session, with objects, flushes and a commit, but what is left of it
are rows.  `Effect` says how the committed rows differ before and after: which rows may
come, which columns of a row may change, and which rows go together.  Every step of the
engine is such an effect, and the invariants of the rows follow from it without a look at
the programs.
-/

namespace WorkflowEngine

open Py Orm Interact SkipWalk

/-! ## Rows of runs descend from each other -/

/-- The rows that a session sees, or the committed rows. -/
abbrev View := (k : RowId) → Option (Row k)

/-- The row as it was created. -/
def Row.origin : (k : RowId) → Row k → Row k
  | .execution _, row =>
    newExecution row.workflowId row.tenantId row.triggerData row.replayedFrom
  | .step _, row =>
    { row with
      status := .pending
      outputData := none
      error := none
      attempt := 1
      startedAt := none
      completedAt := none
      durationMs := none }
  | .workflow _, row => row
  | .delivery _, row => row

/-- An execution that is over. -/
def Row.ended : (k : RowId) → Row k → Bool
  | .execution _, row => row.status.terminal
  | _, _ => false

/-- An execution that has begun. -/
def Row.begun : (k : RowId) → Row k → Prop
  | .execution _, row => row.status ≠ .pending
  | _, _ => True

/-- An execution that is running has a start time. -/
def Row.dated : (k : RowId) → Row k → Prop
  | .execution _, row => row.status = .running → row.startedAt.isSome = true
  | _, _ => True

/-- The columns that are written once are the same, what has begun stays so, and what is over
stays over. -/
structure Lasts {k : RowId} (row row' : Row k) : Prop where
  origin : Row.origin k row' = Row.origin k row
  ended : Row.ended k row = true → Row.ended k row' = true
  begun : Row.begun k row → Row.begun k row'
  dated : Row.dated k row → Row.dated k row'

theorem Lasts.refl {k : RowId} (row : Row k) : Lasts row row :=
  ⟨rfl, fun h => h, fun h => h, fun h => h⟩

theorem Lasts.trans {k : RowId} {row row' row'' : Row k} (h : Lasts row row')
    (h' : Lasts row' row'') : Lasts row row'' :=
  ⟨h'.origin.trans h.origin, fun hended => h'.ended (h.ended hended),
    fun hbegun => h'.begun (h.begun hbegun), fun hdated => h'.dated (h.dated hdated)⟩

/-- Every row of a run is still there, and lasts. -/
def Descends (v v' : View) : Prop :=
  ∀ k, OfRun k → ∀ row, v k = some row → ∃ row', v' k = some row' ∧ Lasts row row'

namespace Descends

variable {v v' v'' : View}

theorem refl (v : View) : Descends v v := fun _ _ row hrow => ⟨row, hrow, Lasts.refl row⟩

theorem trans (h : Descends v v') (h' : Descends v' v'') : Descends v v'' := by
  intro k hrun row hrow
  rcases h k hrun row hrow with ⟨row', hrow', hsame⟩
  rcases h' k hrun row' hrow' with ⟨row'', hrow'', hsame'⟩
  exact ⟨row'', hrow'', hsame.trans hsame'⟩

/-- Where a row was there before, the row that is there now is the same, or later. -/
theorem lasts (h : Descends v v') {k : RowId} (hrun : OfRun k) {row row' : Row k}
    (hrow : v k = some row) (hrow' : v' k = some row') : Lasts row row' := by
  rcases h k hrun row hrow with ⟨found, hfound, hsame⟩
  rw [hrow'] at hfound
  cases hfound
  exact hsame

end Descends

/-- A transition from a status is none from a terminal one. -/
theorem not_terminal_of_allowed {status new : ExecutionStatus}
    (h : new ∈ allowedExecutionTransitions status) : status.terminal = false := by
  cases status with
  | pending => rfl
  | running => rfl
  | completed => exact absurd h List.not_mem_nil
  | failed => exact absurd h List.not_mem_nil
  | cancelled => exact absurd h List.not_mem_nil

/-- No transition leads back to the beginning. -/
theorem not_pending_of_allowed {status : ExecutionStatus} :
    .pending ∉ allowedExecutionTransitions status := by
  cases status <;> decide

theorem lasts_executionTransition {id : Uuid} {row : Execution} {new : ExecutionStatus}
    (hnew : new ∈ allowedExecutionTransitions row.status) (now : Time) :
    Lasts (k := .execution id) row (executionTransition row new now row) := by
  refine ⟨rfl, fun hended => ?_, fun _ hpending => ?_, fun _ hrunning => ?_⟩
  · rw [show Row.ended (.execution id) row = false from not_terminal_of_allowed hnew] at hended
    cases hended
  · rw [show new = .pending from hpending] at hnew
    exact not_pending_of_allowed hnew
  · simp [executionTransition, show new = .running from hrunning]

/-- An execution that is over has begun, and is not running. -/
theorem lasts_ended {id : Uuid} {row row' : Execution}
    (horigin : Row.origin (.execution id) row' = Row.origin (.execution id) row)
    (hended : row'.status.terminal = true) : Lasts (k := .execution id) row row' := by
  refine ⟨horigin, fun _ => hended, fun _ hpending => ?_, fun _ hrunning => ?_⟩
  · rw [hpending] at hended
    cases hended
  · rw [hrunning] at hended
    cases hended

/-- A step execution is never over for good. -/
theorem lasts_step {id : Uuid} {row row' : StepExecution}
    (h : Row.origin (.step id) row' = Row.origin (.step id) row) :
    Lasts (k := .step id) row row' :=
  ⟨h, fun hended => absurd hended Bool.false_ne_true, fun _ => trivial, fun _ => trivial⟩

theorem lasts_of_engineWrite {k : RowId} {req : engineSignature.Req} {row row' : Row k}
    (h : EngineWrite k req row row') (hrun : OfRun k) : Lasts row row' := by
  cases k with
  | execution id =>
    rcases h with hwrite | ⟨stale, hsweep⟩
    · cases (hwrite : ExecutionWrite id req row row') with
      | context _ _ context => exact ⟨rfl, fun hended => hended, fun h => h, fun h => h⟩
      | transition _ new now allowed unfailed => exact lasts_executionTransition allowed now
      | exhausted _ stepId running => exact lasts_ended rfl rfl
    · cases hsweep
      exact lasts_ended rfl rfl
  | step id =>
    rcases h with hwrite | ⟨stale, hsweep⟩
    · cases (hwrite : StepWrite id req row row') <;> exact lasts_step rfl
    · cases hsweep
      exact lasts_step rfl
  | workflow id => cases hrun
  | delivery id => cases hrun

theorem descends_of_writesBy {req : engineSignature.Req} {db db' : Db}
    (h : WritesBy EngineWrite req db db') : Descends db.view db'.view := by
  intro k hrun row hrow
  have hchanges := h k hrun
  rw [hrow] at hchanges
  generalize hafter : db'.view k = after at hchanges
  cases hchanges with
  | same => exact ⟨row, rfl, Lasts.refl row⟩
  | write hwrite => exact ⟨_, rfl, lasts_of_engineWrite hwrite hrun⟩

/-- What is seen after a run whose statements write as the engine does. -/
theorem descends_run {α : Type} {m : Prog α} {w : World} (h : Always EngineWrite m w) :
    Descends w.db.view (m.run w).2.db.view :=
  Script.Always.run_of_invariant (I := fun w' : World => Descends w.db.view w'.db.view) h
    (Descends.refl _) fun _ _ hseen hwritten => hseen.trans (descends_of_writesBy hwritten)

/-- What the session sees, and what is committed, descends from `v`. -/
structure Descended (v : View) (db : Db) : Prop where
  view : Descends v db.view
  committed : Descends v (Rows.row db.committed)

theorem descended_opened (t : Rows Row) : Descended (Rows.row t) ⟨t, Session.fresh⟩ :=
  ⟨(view_opened t).symm ▸ Descends.refl _, Descends.refl _⟩

/-- A run whose statements write as the engine does. -/
theorem Descended.run {α : Type} {v : View} {m : Prog α} {w : World} (h : Descended v w.db)
    (halways : Always EngineWrite m w) : Descended v (m.run w).2.db := by
  refine Script.Always.run_of_invariant (I := fun w : World => Descended v w.db) halways h ?_
  intro req w hw hwritten
  have hview := hw.view.trans (descends_of_writesBy hwritten)
  refine ⟨hview, fun k hrun row hrow => ?_⟩
  have hcommitted : Rows.row (World.answer req w).2.db.committed = Rows.row w.db.committed ∨
      Rows.row (World.answer req w).2.db.committed = w.db.view := by
    cases req with
    | env req => exact .inl rfl
    | db req =>
      by_cases hcommit : req = .commit
      · subst hcommit
        exact .inr rfl
      · exact .inl (congrArg Rows.row (DbState.committed_answer hcommit w.db))
  rcases hcommitted with hsame | hsame
  · rw [hsame]
    exact hw.committed k hrun row hrow
  · rw [hsame]
    exact hw.view k hrun row hrow

/-! ## Starting an execution -/

/-- What the rows of a run record.  The context consists of the trigger data and of the outputs
of the completed steps.  No step is under way, an execution is completed only if each of its
steps is completed or skipped, and a step is failed only in a failed execution. -/
structure RunRecord (v : View) (id : Uuid) (e : Execution) : Prop where
  context : ∃ outs, e.context = runContext e.triggerData outs ∧ ∀ s entry,
    Dict.get? outs s = some entry ↔ ∃ sid, ∃ row : StepExecution, ∃ output,
      v (.step sid) = some row ∧ row.executionId = id ∧ row.stepId = s ∧ row.status = .completed ∧
        row.outputData = some output ∧ entry = stepEntry output
  settled : ∀ sid (row : StepExecution), v (.step sid) = some row → row.executionId = id →
    (row.status = .completed → row.outputData.isSome = true) ∧ row.status ≠ .queued ∧
      row.status ≠ .running
  completed : e.status = .completed → ∀ sid (row : StepExecution), v (.step sid) = some row →
    row.executionId = id → row.status = .completed ∨ row.status = .skipped
  failed : ∀ sid (row : StepExecution), v (.step sid) = some row → row.executionId = id →
    row.status = .failed → e.status = .failed
  dated : Row.dated (.execution id) e

/-- Only the rows of steps matter. -/
theorem RunRecord.congr {v v' : View} {id : Uuid} {e : Execution} (h : RunRecord v id e)
    (hsteps : ∀ sid, v' (.step sid) = v (.step sid)) : RunRecord v' id e := by
  refine ⟨?_, ?_, ?_, ?_, h.dated⟩
  all_goals simp only [hsteps]
  · exact h.context
  · exact h.settled
  · exact h.completed
  · exact h.failed

/-- What the board of a run shows is recorded. -/
theorem Run.runRecord {p : RunPlan} {log : StepLog} {invs : List Invocation} {b : Board}
    {result : Except Raised Unit} (h : Run p log invs b result) {db : Db}
    (hshows : Shows p.ids db b) (htrigger : b.execution.triggerData = p.triggerData)
    (hdated : Row.dated (.execution p.ids.id) b.execution) :
    RunRecord db.view p.ids.id b.execution := by
  have hrows := h.stepRows hshows
  have hnodup : (Dict.keys (entries log)).Nodup := by
    rw [keys_entries]
    exact (keys_outputs_sublist log).nodup h.keys_nodup
  have hstatus : ∀ step ∈ p.steps, (b.row step.id).status = .pending ∧ step.id ∉ Dict.keys log ∨
      ∃ ending, (step.id, ending) ∈ log ∧ Fits p.ids.id step (some ending) (b.row step.id) := by
    intro step hstep
    by_cases hkey : step.id ∈ Dict.keys log
    · rcases Dict.mem_keys.mp hkey with ⟨ending, hmem⟩
      have hfits := h.follows.rows step hstep
      rw [Dict.get?_of_mem h.keys_nodup hmem] at hfits
      exact .inr ⟨ending, hmem, hfits⟩
    · exact .inl ⟨h.pending_of_not_mem hstep hkey, hkey⟩
  refine ⟨⟨entries log, htrigger ▸ h.follows.context, fun s entry => ⟨fun hget => ?_, ?_⟩⟩, ?_, ?_, ?_,
    hdated⟩
  · rcases List.mem_map.mp (Dict.mem_of_get? hget) with ⟨⟨s', output⟩, hout, heq⟩
    cases heq
    rcases h.fits_of_mem (mem_outputs.mp hout) with ⟨step, hstep, rfl, hfits⟩
    rcases p.mapped step hstep with ⟨sid, hsid⟩
    exact ⟨sid, b.row step.id, output, hshows.seen.step hsid, hfits.executionId, hfits.stepId,
      hfits.status.1, hfits.status.2, rfl⟩
  · rintro ⟨sid, row, output, hrow, hid, rfl, hcompleted, houtput, rfl⟩
    rcases hrows.only hrow hid with ⟨step, hstep, rfl⟩
    rcases h.output_of_completed hstep hcompleted with ⟨output', hmem, houtput'⟩
    rw [houtput] at houtput'
    cases houtput'
    rw [(hrows.columns step hstep).2.1]
    exact Dict.get?_of_mem hnodup (List.mem_map.mpr ⟨_, mem_outputs.mpr hmem, rfl⟩)
  · intro sid row hrow hid
    rcases hrows.only hrow hid with ⟨step, hstep, rfl⟩
    rcases hstatus step hstep with ⟨hpending, -⟩ | ⟨ending, -, hfits⟩
    · rw [hpending]
      exact ⟨nofun, nofun, nofun⟩
    · cases ending with
      | completed output =>
        rw [hfits.status.1, hfits.status.2]
        exact ⟨fun _ => rfl, nofun, nofun⟩
      | skipped =>
        have hskipped : (b.row step.id).status = .skipped := hfits.status
        rw [hskipped]
        exact ⟨nofun, nofun, nofun⟩
      | failed =>
        rw [hfits.status.1]
        exact ⟨nofun, nofun, nofun⟩
  · intro hcompleted sid row hrow hid
    rcases hrows.only hrow hid with ⟨step, hstep, rfl⟩
    cases h.ends with
    | completed all alive settles status =>
      rcases hstatus step hstep with ⟨-, hnot⟩ | ⟨ending, hmem, hfits⟩
      · rw [all] at hnot
        exact absurd (p.accepted.mem_order.mpr (List.mem_map_of_mem hstep)) hnot
      · cases ending with
        | completed output => exact .inl hfits.status.1
        | skipped => exact .inr hfits.status
        | failed => exact absurd rfl (alive _ hmem)
    | failed front s last settles status =>
      rw [status] at hcompleted
      cases hcompleted
    | stuck front step output e last mem condition unset settles status =>
      rw [status] at hcompleted
      cases hcompleted
  · intro sid row hrow hid hfailed
    rcases hrows.only hrow hid with ⟨step, hstep, rfl⟩
    -- the walk has stopped at the step
    have hlast : ∃ ending, (step.id, ending) ∈ log ∧ ending = .failed := by
      rcases hstatus step hstep with ⟨hpending, -⟩ | ⟨ending, hmem, hfits⟩
      · rw [hpending] at hfailed
        cases hfailed
      · refine ⟨ending, hmem, ?_⟩
        cases ending with
        | completed output =>
          rw [hfits.status.1] at hfailed
          cases hfailed
        | skipped =>
          rw [show (b.row step.id).status = .skipped from hfits.status] at hfailed
          cases hfailed
        | failed => rfl
    rcases hlast with ⟨ending, hmem, rfl⟩
    cases h.ends with
    | completed all alive settles status => exact absurd rfl (alive _ hmem)
    | failed front s last settles status => exact status
    | stuck front other output e last mem condition unset settles status =>
      subst last
      have halive : SkipWalk.Alive (front ++ [(other.id, .completed output)]) :=
        h.walk.alive_front.concat nofun
      exact absurd rfl (halive _ hmem)

/-- The rows of one more run: an execution, and steps of it. -/
structure AddsRun (v v' : View) (id : Uuid) (e : Execution) : Prop where
  fresh : v (.execution id) = none
  execution : v' (.execution id) = some e
  kept : ∀ k row, v k = some row → v' k = some row
  only : ∀ k, v k = none → v' k ≠ none → k = .execution id ∨ ∃ sid, k = .step sid
  steps : ∀ sid (row : StepExecution), v (.step sid) = none → v' (.step sid) = some row →
    row.executionId = id
  distinct : ∀ sid sid' (row row' : StepExecution), v (.step sid) = none → v (.step sid') = none →
    v' (.step sid) = some row → v' (.step sid') = some row' → row.stepId = row'.stepId → sid = sid'
  nonempty : ∃ sid row, v (.step sid) = none ∧ v' (.step sid) = some row
  recorded : RunRecord v' id e

/-- No execution but the new one has come. -/
theorem AddsRun.execution_of_new {v v' : View} {id id' : Uuid} {e e' : Execution}
    (h : AddsRun v v' id e) (hnone : v (.execution id') = none)
    (hrow : v' (.execution id') = some e') : id' = id ∧ e' = e := by
  rcases h.only (.execution id') hnone (by simp [hrow]) with heq | ⟨sid, heq⟩
  · cases heq
    exact ⟨rfl, Option.some.inj (hrow.symm.trans h.execution)⟩
  · cases heq

section

variable {libs : Libraries} {settings : Settings} {runner : Runner} {workflow : Workflow} {w : World}

/-- The execution that was begun is still there in the end. -/
theorem origin_startExecution (session : SessionRef) (parent : Option Caller) (workflowId : Uuid)
    (triggerData : Dict String Json) (tenantId : Uuid) (replayedFrom : Option Uuid) (depth : Int)
    (hsilent : runner.Silent) (hw : Synced w.db) {parsed : WorkflowDefinition}
    (hparse : parseWorkflowDefinition libs settings
      ⟨workflow.name, workflow.triggerType, workflow.steps⟩ = .ok parsed) :
    ∃ e, ((startExecution runner session libs settings parent workflowId workflow triggerData
        tenantId replayedFrom depth).run w).2.db.view (.execution w.db.newUuid) = some e ∧
      Lasts (k := .execution w.db.newUuid)
        (newExecution workflowId tenantId triggerData replayedFrom) e := by
  let begun : World := ⟨inserted w.db (.execution w.db.newUuid)
    (newExecution workflowId tenantId triggerData replayedFrom), w.env⟩
  have hstepwise : Stepwise Synced (startExecution runner session libs settings parent workflowId
      workflow triggerData tenantId replayedFrom depth) w :=
    stepwise_startExecution hw hsilent session parent workflowId workflow triggerData tenantId
      replayedFrom depth
  have halways := hstepwise.always
  unfold startExecution at halways ⊢
  rw [hparse] at halways ⊢
  -- the statements after the `INSERT`
  have hparsed := (Script.always_bind_iff.mp halways).2 parsed w rfl
  have hnamed := (Script.always_bind_iff.mp hparsed).2 w.db.newUuid w rfl
  have hrest := (Script.always_bind_iff.mp hnamed).2 () begun rfl
  rw [Prog.run_bind_ok (Prog.run_liftExcept _ _), Prog.run_bind_ok (run_newUuid _), insertRow,
    Prog.run_bind_ok (run_db _ _ _)]
  have hwrites : Always EngineWrite _ begun :=
    hrest.imp fun _ _ hstep => hstep.1.imp fun _ _ _ => Or.inl
  exact descends_run hwrites (.execution w.db.newUuid) trivial _ (view_inserted_self w.db _ _)

/-- The object of a delivery is left as it is. -/
def KeepsObject (did : Uuid) (object : Option (WebhookDelivery × Unit)) (db : Db) : Prop :=
  db.loaded (.delivery did) = object

theorem keepsObject_respects (did : Uuid) (object : Option (WebhookDelivery × Unit)) :
    Respects (fun k => k ≠ .delivery did) (KeepsObject did object) := by
  intro req db hreq h
  rcases hreq.key with ⟨-, k, hkey, hk⟩
  exact (DbState.loaded_answer_ne hkey (Ne.symm hk) db).trans h

theorem keepsObject_startExecution {did : Uuid} {object : Option (WebhookDelivery × Unit)}
    {session : SessionRef} {parent : Option Caller} {workflowId : Uuid}
    {triggerData : Dict String Json} {tenantId : Uuid} {replayedFrom : Option Uuid} {depth : Int}
    (hrunner : ∀ caller step vars, Maintains (KeepsObject did object) (runner caller step vars)) :
    Maintains (KeepsObject did object) (startExecution runner session libs settings parent workflowId
      workflow triggerData tenantId replayedFrom depth) := by
  intro w h
  have hinserted : ∀ (db : Db) (k : RowId) (row : Row k), k ≠ .delivery did →
      KeepsObject did object db → KeepsObject did object (inserted db k row) :=
    fun db k row hk hdb => (DbState.loaded_answer_ne rfl (Ne.symm hk) db).trans hdb
  show KeepsObject did object (Prog.run _ w).2.db
  cases hparse : parseWorkflowDefinition libs settings
      ⟨workflow.name, workflow.triggerType, workflow.steps⟩ with
  | error exc =>
    rw [run_startExecution_refused hparse]
    exact h
  | ok parsed =>
    apply startExecution_maintains hparse (keepsObject_respects did object) hrunner w nofun
    · exact hinserted _ _ _ nofun h
    · exact fun db step hdb => ⟨hinserted _ _ _ nofun hdb, nofun⟩

/-- Nested executions leave it, too. -/
theorem keepsObject_nesting (libs : Libraries) (settings : Settings) (session : SessionRef)
    (did : Uuid) (object : Option (WebhookDelivery × Unit)) (fuel : Nat) (caller : Caller)
    (step : StepDefinition) (vars : Vars) : Maintains (KeepsObject did object)
      (nesting libs settings performer session fuel caller step vars) := by
  have hwith : ∀ start : Start,
      (∀ caller workflowId workflow triggerData tenantId depth, Maintains (KeepsObject did object)
        (start caller workflowId workflow triggerData tenantId depth)) →
      ∀ caller step vars, Maintains (KeepsObject did object)
        (nestingWith libs settings performer start caller step vars) := by
    intro start hstart caller step vars
    unfold nestingWith
    split
    · unfold SubWorkflowExecutor.execute
      apply maintains_bind (maintains_liftExcept _)
      rintro ⟨currentDepth, workflowId, tenantId⟩
      apply maintains_bind
      · exact maintains_gentle (keepsObject_respects did object) (show Gentle _ (.select _ _) from nofun)
      · intro found
        cases found with
        | none => exact maintains_done _
        | some workflow =>
          apply maintains_ite
          · apply maintains_bind (maintains_liftExcept _)
            intro data
            exact maintains_bind (hstart _ _ _ _ _ _) fun _ => maintains_done _
          · exact maintains_done _
    · exact maintains_performer _ _ _
  induction fuel generalizing caller step vars with
  | zero => exact hwith _ (fun _ _ _ _ _ _ => maintains_done _) caller step vars
  | succ fuel ih => exact hwith _ (fun _ _ _ _ _ _ => keepsObject_startExecution ih) caller step vars

/-- What `start_execution` leaves of the rows `v`, and how it ends.  Where the run raises,
the rows of the execution are there, and it is still running. -/
inductive StartEffect (libs : Libraries) (settings : Settings) (workflow : Workflow)
    (created : Execution) (v v' : View) : Except PyError (Uuid × Execution) → Prop where
  | refused {exc : PyError} (parse : parseWorkflowDefinition libs settings
      ⟨workflow.name, workflow.triggerType, workflow.steps⟩ = .error exc) (same : v' = v) :
      StartEffect libs settings workflow created v v' (.error exc)
  | returned {id : Uuid} {e : Execution} (added : AddsRun v v' id e)
      (origin : Row.origin (.execution id) e = created) (terminal : e.status.terminal = true) :
      StartEffect libs settings workflow created v v' (.ok (id, e))
  | raised {id : Uuid} {e : Execution} {exc : PyError} (added : AddsRun v v' id e)
      (origin : Row.origin (.execution id) e = created) (running : e.status = .running)
      (unset : ∃ parsed, parseWorkflowDefinition libs settings
        ⟨workflow.name, workflow.triggerType, workflow.steps⟩ = .ok parsed ∧
          ¬ BranchesSettable parsed.steps) :
      StartEffect libs settings workflow created v v' (.error exc)

/-- The rows of a run are added to those that the session has seen. -/
theorem Run.addsRun {p : RunPlan} {log : StepLog} {invs : List Invocation} {b : Board}
    {result : Except Raised Unit} (h : Run p log invs b result) {db db' : Db}
    (hshows : Shows p.ids db' b) (hid : p.ids.id = db.newUuid) (hrest : p.ids.rest = db.view)
    (hdescends : Descends db.view db'.view) (htrigger : b.execution.triggerData = p.triggerData)
    (hdated : Row.dated (.execution p.ids.id) b.execution) :
    AddsRun db.view db'.view p.ids.id b.execution := by
  have hrows := h.stepRows hshows
  have hmapped : ∀ {s sid}, Dict.get? p.ids.stepMap s = some sid →
      db'.view (.step sid) = some (b.row s) ∧ (b.row s).executionId = p.ids.id := by
    intro s sid hs
    rcases List.mem_map.mp (p.mapped_only hs) with ⟨step, hstep, rfl⟩
    exact ⟨hshows.seen.step hs, (hrows.columns step hstep).1⟩
  have hothers : ∀ k, k ≠ .execution p.ids.id →
      (∀ s sid, Dict.get? p.ids.stepMap s = some sid → k ≠ .step sid) → db'.view k = db.view k :=
    fun k hk hsteps => (hshows.seen.others k hk hsteps).trans (congrFun hrest k)
  have hfresh : db.view (.execution p.ids.id) = none := Db.view_newUuid hid
  have hnew : ∀ {sid} {row : StepExecution}, db.view (.step sid) = none →
      db'.view (.step sid) = some row →
      Dict.get? p.ids.stepMap row.stepId = some sid ∧ row.executionId = p.ids.id := by
    intro sid row hnone hrow
    by_cases hs : ∃ s, Dict.get? p.ids.stepMap s = some sid
    · rcases hs with ⟨s, hs⟩
      rcases List.mem_map.mp (p.mapped_only hs) with ⟨step, hstep, rfl⟩
      have hsame := (hmapped hs).1
      rw [hrow] at hsame
      cases hsame
      rw [(h.follows.rows step hstep).stepId]
      exact ⟨hs, (hmapped hs).2⟩
    · rw [hothers (.step sid) nofun fun s sid' hs' heq => hs ⟨s, by cases heq; exact hs'⟩,
        hnone] at hrow
      cases hrow
  have hold : ∀ {s sid} {row : StepExecution}, Dict.get? p.ids.stepMap s = some sid →
      db.view (.step sid) ≠ some row := by
    intro s sid row hs hrow
    -- a step that was there belongs to another execution
    have hlasts : Lasts (k := .step sid) row (b.row s) :=
      hdescends.lasts (k := .step sid) trivial hrow (hmapped hs).1
    have hsame := congrArg StepExecution.executionId hlasts.origin
    exact Db.executionId_ne_newUuid hrow (hsame.symm.trans ((hmapped hs).2.trans hid))
  refine ⟨hfresh, hshows.seen.execution, fun k row hrow => ?_, fun k hnone hsome => ?_,
    fun sid row hnone hrow => (hnew hnone hrow).2,
    fun sid sid' row row' hnone hnone' hrow hrow' hsame => ?_, ?_, h.runRecord hshows htrigger hdated⟩
  · refine (hothers k ?_ ?_).trans hrow
    · rintro rfl
      rw [hfresh] at hrow
      cases hrow
    · rintro s sid hs rfl
      exact hold hs hrow
  · by_contra hnot
    rw [not_or] at hnot
    refine hsome ((hothers k hnot.1 fun s sid _ heq => hnot.2 ⟨sid, heq⟩).trans hnone)
  · have hsid := (hnew hnone hrow).1
    rw [hsame, (hnew hnone' hrow').1] at hsid
    exact (Option.some.inj hsid).symm
  · rcases List.exists_mem_of_ne_nil _ p.accepted.nonempty with ⟨step, hstep⟩
    rcases p.mapped step hstep with ⟨sid, hsid⟩
    refine ⟨sid, b.row step.id, ?_, (hmapped hsid).1⟩
    rw [Option.eq_none_iff_forall_ne_some]
    exact fun row => hold hsid

theorem startEffect (libs : Libraries) (settings : Settings) (session : SessionRef) (fuel : Nat)
    (parent : Option Caller) (workflowId : Uuid) (workflow : Workflow)
    (triggerData : Dict String Json) (tenantId : Uuid) (replayedFrom : Option Uuid) (depth : Int)
    (hw : Synced w.db) :
    ∃ (result : Except PyError (Uuid × Execution)) (db' : Db) (env' : Environment),
      (startExecution (nesting libs settings performer session fuel) session libs settings parent
        workflowId workflow triggerData tenantId replayedFrom depth).run w =
          (result.mapError Raised.exception, ⟨db', env'⟩) ∧
      db'.committed = w.db.committed ∧ Synced db' ∧
      StartEffect libs settings workflow
        (newExecution workflowId tenantId triggerData replayedFrom) w.db.view db'.view result := by
  have hsilent := nesting_silent libs settings session fuel
  have hstepwise : Stepwise Synced (startExecution (nesting libs settings performer session fuel)
      session libs settings parent workflowId workflow triggerData tenantId replayedFrom depth) w :=
    stepwise_startExecution hw hsilent session parent workflowId workflow triggerData tenantId
      replayedFrom depth
  have hdescends := descends_run (hstepwise.always.imp fun _ _ hstep =>
    hstep.1.imp fun _ _ _ => Or.inl)
  have hsynced := hstepwise.run hw
  cases hparse : parseWorkflowDefinition libs settings
      ⟨workflow.name, workflow.triggerType, workflow.steps⟩ with
  | error exc =>
    exact ⟨.error exc, w.db, w.env, run_startExecution_refused hparse w, rfl, hw, .refused hparse rfl⟩
  | ok parsed =>
    rcases origin_startExecution session parent workflowId triggerData tenantId replayedFrom depth
      hsilent hw hparse with ⟨e, he, horigin⟩
    rcases nesting_eq libs settings performer session fuel with ⟨start, hnesting⟩
    rw [hnesting] at hdescends hsynced he ⊢
    rcases run_startExecution (nestingWith_quiet performer_quiet start) hparse session parent
      workflowId triggerData tenantId replayedFrom depth w with
      ⟨p, log, invs, b, ended, db', env', -, -, -, hsteps, htrigger, hid, hcommitted, hrest, hrun, -,
        hshows, h⟩
    rw [hrun] at hdescends hsynced he
    have hexecution : b.execution = e := by
      have hseen := hshows.seen.execution
      rw [hid] at hseen
      exact Option.some.inj (hseen.symm.trans he)
    have hcreated : Row.origin (.execution p.ids.id) b.execution =
        newExecution workflowId tenantId triggerData replayedFrom := by
      rw [hexecution]
      exact horigin.origin
    have hdata : b.execution.triggerData = p.triggerData :=
      (congrArg Execution.triggerData hcreated).trans htrigger.symm
    have hdated : Row.dated (.execution p.ids.id) b.execution := by
      have hnew : Row.dated (.execution w.db.newUuid)
          (newExecution workflowId tenantId triggerData replayedFrom) := nofun
      rw [hexecution]
      exact horigin.dated hnew
    have hadded := h.addsRun hshows hid hrest hdescends hdata hdated
    cases h.ends with
    | completed all alive settles status =>
      exact ⟨.ok (p.ids.id, b.execution), db', env', hrun, hshows.committed.trans hcommitted, hsynced,
        .returned hadded hcreated (by rw [status]; rfl)⟩
    | failed front s last settles status =>
      exact ⟨.ok (p.ids.id, b.execution), db', env', hrun, hshows.committed.trans hcommitted, hsynced,
        .returned hadded hcreated (by rw [status]; rfl)⟩
    | stuck front step output e last mem condition unset settles status =>
      refine ⟨.error e, db', env', hrun, hshows.committed.trans hcommitted, hsynced,
        .raised hadded hcreated status ⟨parsed, hparse, fun hset => ?_⟩⟩
      cases h.returns (hsteps ▸ hset)

end

/-! ## Effects -/

/-- A workflow that is stored under `id`: a created one, or the one that was there with
assigned columns. -/
inductive Stores (libs : Libraries) (settings : Settings) (v : View) (id : Uuid) : Workflow → Prop
    where
  | created (body : WorkflowCreateRequest) (tenantId generated : Uuid)
      {definition : WorkflowDefinition} (parse : parseWorkflowDefinition libs settings
        ⟨body.name, body.triggerType, body.steps.map .obj⟩ = .ok definition) :
      Stores libs settings v id (body.row tenantId generated)
  | updated (body : WorkflowUpdateRequest) (generated : Uuid) {row : Workflow}
      (stored : v (.workflow id) = some row) (check : body.check libs settings row = .ok ()) :
      Stores libs settings v id (body.assign generated row row)

/-- An execution that begins: its workflow is there, and so is the execution that it
replays, whose trigger data it has but for the overrides. -/
structure Begins (v : View) (e : Execution) : Prop where
  workflow : ∃ workflow : Workflow, v (.workflow e.workflowId) = some workflow ∧
    workflow.tenantId = e.tenantId
  replayed : ∀ o, e.replayedFrom = some o → ∃ (original : Execution) (overrideData : Dict String Json),
    v (.execution o) = some original ∧ original.workflowId = e.workflowId ∧
      original.tenantId = e.tenantId ∧
      replayTriggerData original.triggerData overrideData = .ok e.triggerData

/-- A reference to an execution stays, or is null because the execution has gone. -/
def KeepsReference (v' : View) (executionId executionId' : Option Uuid) : Prop :=
  executionId' = executionId ∨
    (executionId' = none ∧ ∃ id, executionId = some id ∧ v' (.execution id) = none)

/-- An execution that was there before and is there afterwards. -/
structure KeepsExecution (v' : View) (e e' : Execution) : Prop where
  tenantId : e'.tenantId = e.tenantId
  workflowId : e'.workflowId = e.workflowId
  triggerData : e'.triggerData = e.triggerData
  replayedFrom : KeepsReference v' e.replayedFrom e'.replayedFrom
  begun : e.status ≠ .pending → e'.status ≠ .pending
  dated : (e.status = .running → e.startedAt.isSome = true) →
    e'.status = .running → e'.startedAt.isSome = true

/-- A delivery that is logged.  If it was accepted then its execution has come with it, and
was handed what the delivery records. -/
structure Logs (v v' : View) (d : WebhookDelivery) : Prop where
  ended : d.status ≠ .received
  accepted : d.status = .accepted → ∃ id e, d.executionId = some id ∧ v (.execution id) = none ∧
    v' (.execution id) = some e ∧ e.workflowId = d.workflowId ∧ e.tenantId = d.tenantId ∧
    e.replayedFrom = none ∧
    e.triggerData = [("payload", d.payload), ("headers", .obj d.headers)] ∧
    e.status.terminal = true
  refused : d.status ≠ .accepted → d.executionId = none ∧ d.rejectionReason.isSome = true

/-- An execution that a webhook has started, with a copy of its workflow in which a condition
step cannot set a branch. -/
structure Stuck (libs : Libraries) (settings : Settings) (copies : Uuid → Workflow → Prop)
    (e : Execution) : Prop where
  original : e.replayedFrom = none
  triggerData : ∃ payload headers, e.triggerData = [("payload", payload), ("headers", headers)]
  unset : ∃ workflow parsed, copies e.workflowId workflow ∧ workflow.tenantId = e.tenantId ∧
    parseWorkflowDefinition libs settings
      ⟨workflow.name, workflow.triggerType, workflow.steps⟩ = .ok parsed ∧
    ¬ BranchesSettable parsed.steps
  begun : e.status ≠ .pending

/-- A delivery that was there before and is there afterwards. -/
structure KeepsDelivery (v' : View) (d d' : WebhookDelivery) : Prop where
  columns : d' = { d with executionId := d'.executionId }
  executionId : KeepsReference v' d.executionId d'.executionId

/-- What an entry does to the rows of steps: they come and go with their execution. -/
structure StepsEffect (v v' : View) : Prop where
  kept : ∀ sid (row row' : StepExecution), v (.step sid) = some row → v' (.step sid) = some row' →
    Row.origin (.step sid) row' = Row.origin (.step sid) row
  born : ∀ sid (row : StepExecution), v (.step sid) = none → v' (.step sid) = some row →
    v (.execution row.executionId) = none
  distinct : ∀ sid sid' (row row' : StepExecution), v (.step sid) = none → v (.step sid') = none →
    v' (.step sid) = some row → v' (.step sid') = some row' → row.executionId = row'.executionId →
      row.stepId = row'.stepId → sid = sid'
  nonempty : ∀ id (e : Execution), v (.execution id) = none → v' (.execution id) = some e →
    ∃ sid, ∃ row : StepExecution, v' (.step sid) = some row ∧ row.executionId = id
  gone : ∀ sid (row : StepExecution), v (.step sid) = some row → v' (.step sid) = none →
    v' (.execution row.executionId) = none
  recorded : ∀ id (e : Execution), v (.execution id) = none → v' (.execution id) = some e →
    RunRecord v' id e

namespace StepsEffect

variable {v v' : View}

/-- Steps are rewritten, and no execution comes. -/
theorem of_kept (hnone : ∀ k, OfRun k → v k = none → v' k = none)
    (hkept : ∀ sid (row row' : StepExecution), v (.step sid) = some row →
      v' (.step sid) = some row' → Row.origin (.step sid) row' = Row.origin (.step sid) row)
    (hgone : ∀ sid (row : StepExecution), v (.step sid) = some row → v' (.step sid) = none →
      v' (.execution row.executionId) = none) : StepsEffect v v' := by
  refine ⟨hkept, fun sid row hfresh hrow => ?_, fun sid _ row _ hfresh _ hrow _ _ _ => ?_,
    fun id e hfresh hrow => ?_, hgone, fun id e hfresh hrow => ?_⟩
  · rw [hnone (.step sid) trivial hfresh] at hrow
    cases hrow
  · rw [hnone (.step sid) trivial hfresh] at hrow
    cases hrow
  · rw [hnone (.execution id) trivial hfresh] at hrow
    cases hrow
  · rw [hnone (.execution id) trivial hfresh] at hrow
    cases hrow

theorem of_same (h : ∀ k, OfRun k → v' k = v k) : StepsEffect v v' := by
  refine of_kept (fun k hrun hnone => (h k hrun).trans hnone) (fun sid row row' hrow hrow' => ?_)
    fun sid row hrow hgone => ?_
  · rw [h (.step sid) trivial, hrow] at hrow'
    cases hrow'
    rfl
  · rw [h (.step sid) trivial, hrow] at hgone
    cases hgone

theorem of_addsRun {id : Uuid} {e : Execution} (h : AddsRun v v' id e) : StepsEffect v v' := by
  refine ⟨fun sid row row' hrow hrow' => ?_, fun sid row hnone hrow => ?_,
    fun sid sid' row row' hnone hnone' hrow hrow' _ hsame =>
      h.distinct sid sid' row row' hnone hnone' hrow hrow' hsame,
    fun id' e' hnone hrow => ?_, fun sid row hrow hgone => ?_, fun id' e' hnone hrow => ?_⟩
  · rw [h.kept _ _ hrow] at hrow'
    cases hrow'
    rfl
  · rw [h.steps sid row hnone hrow]
    exact h.fresh
  · rcases h.nonempty with ⟨sid, row, hfresh, hrow'⟩
    refine ⟨sid, row, hrow', ?_⟩
    rw [h.steps sid row hfresh hrow', (h.execution_of_new hnone hrow).1]
  · rw [h.kept _ _ hrow] at hgone
    cases hgone
  · obtain ⟨rfl, rfl⟩ := h.execution_of_new hnone hrow
    exact h.recorded

/-- Only the rows of runs matter. -/
theorem congr {v₁ v₁' : View} (h : StepsEffect v v') (hv : ∀ k, OfRun k → v₁ k = v k)
    (hv' : ∀ k, OfRun k → v₁' k = v' k) : StepsEffect v₁ v₁' := by
  have hstep : ∀ sid, v₁ (.step sid) = v (.step sid) := fun sid => hv (.step sid) trivial
  have hstep' : ∀ sid, v₁' (.step sid) = v' (.step sid) := fun sid => hv' (.step sid) trivial
  have hexecution : ∀ id, v₁ (.execution id) = v (.execution id) := fun id => hv (.execution id) trivial
  have hexecution' : ∀ id, v₁' (.execution id) = v' (.execution id) :=
    fun id => hv' (.execution id) trivial
  constructor
  all_goals simp only [hstep, hstep', hexecution, hexecution']
  · exact h.kept
  · exact h.born
  · exact h.distinct
  · exact h.nonempty
  · exact h.gone
  · exact fun id e hnone hrow => (h.recorded id e hnone hrow).congr hstep'

end StepsEffect

/-- What an entry does to the committed rows, where `copies` are the copies of workflows that
it may work with. -/
structure Effect (libs : Libraries) (settings : Settings) (copies : Uuid → Workflow → Prop)
    (v v' : View) : Prop where
  workflow : ∀ id row, v' (.workflow id) = some row →
    v (.workflow id) = some row ∨ Stores libs settings v id row
  begins : ∀ id (e : Execution), v (.execution id) = none → v' (.execution id) = some e → Begins v e
  execution : ∀ id (e e' : Execution), v (.execution id) = some e → v' (.execution id) = some e' →
    KeepsExecution v' e e'
  /-- An execution that is not over was there and was not over, or it got stuck. -/
  active : ∀ id (e' : Execution), v' (.execution id) = some e' → e'.status.terminal = false →
    (∃ e : Execution, v (.execution id) = some e ∧ e.status.terminal = false) ∨
      v (.execution id) = none ∧ Stuck libs settings copies e'
  logs : ∀ id d, v (.delivery id) = none → v' (.delivery id) = some d → Logs v v' d
  one : ∀ id id' d d', v (.delivery id) = none → v (.delivery id') = none →
    v' (.delivery id) = some d → v' (.delivery id') = some d' → id = id'
  delivery : ∀ id d d', v (.delivery id) = some d → v' (.delivery id) = some d' →
    KeepsDelivery v' d d'
  /-- Executions go with all that belongs to their workflow. -/
  gone : ∀ id (e : Execution), v (.execution id) = some e → v' (.execution id) = none →
    (∀ id' (e' : Execution), v' (.execution id') = some e' → e'.workflowId ≠ e.workflowId) ∧
      ∀ id' (d : WebhookDelivery), v' (.delivery id') = some d → d.workflowId ≠ e.workflowId
  steps : StepsEffect v v'

theorem KeepsExecution.refl (v : View) (e : Execution) : KeepsExecution v e e :=
  ⟨rfl, rfl, rfl, .inl rfl, fun h => h, fun h => h⟩

theorem KeepsDelivery.refl (v : View) (d : WebhookDelivery) : KeepsDelivery v d d :=
  ⟨rfl, .inl rfl⟩

theorem keepsExecution_of_lasts {v : View} {id : Uuid} {e e' : Execution}
    (h : Lasts (k := .execution id) e e') : KeepsExecution v e e' := by
  have hsame : newExecution e'.workflowId e'.tenantId e'.triggerData e'.replayedFrom =
      newExecution e.workflowId e.tenantId e.triggerData e.replayedFrom := h.origin
  simp only [newExecution, Execution.mk.injEq] at hsame
  exact ⟨hsame.1, hsame.2.1, hsame.2.2.2.1, .inl hsame.2.2.2.2.2.1, h.begun, h.dated⟩

namespace Effect

variable {libs : Libraries} {settings : Settings} {copies : Uuid → Workflow → Prop} {v v' : View}

/-- Executions and steps are rewritten, and none of them comes or goes. -/
theorem of_descends (hothers : ∀ k, ¬ OfRun k → v' k = v k)
    (hnone : ∀ k, OfRun k → v k = none → v' k = none) (hdescends : Descends v v') :
    Effect libs settings copies v v' where
  workflow id row hrow := .inl ((hothers (.workflow id) nofun).symm.trans hrow)
  begins id e hfresh hrow := by
    rw [hnone (.execution id) trivial hfresh] at hrow
    cases hrow
  execution id e e' hrow hrow' :=
    keepsExecution_of_lasts (hdescends.lasts (k := .execution id) trivial hrow hrow')
  active id e' hrow' hactive := by
    cases hrow : v (.execution id) with
    | none =>
      rw [hnone (.execution id) trivial hrow] at hrow'
      cases hrow'
    | some e =>
      have hended : e.status.terminal = true → e'.status.terminal = true :=
        (hdescends.lasts (k := .execution id) trivial hrow hrow').ended
      refine .inl ⟨e, rfl, ?_⟩
      rw [← Bool.not_eq_true] at hactive ⊢
      exact fun hterminal => hactive (hended hterminal)
  logs id d hfresh hrow := by
    rw [hothers (.delivery id) nofun, hfresh] at hrow
    cases hrow
  one id id' d d' hfresh _ hrow _ := by
    rw [hothers (.delivery id) nofun, hfresh] at hrow
    cases hrow
  delivery id d d' hrow hrow' := by
    rw [hothers (.delivery id) nofun, hrow] at hrow'
    cases hrow'
    exact KeepsDelivery.refl v' d
  gone id e hrow hgone := by
    rcases hdescends (.execution id) trivial e hrow with ⟨e', hrow', -⟩
    rw [hgone] at hrow'
    cases hrow'
  steps := by
    refine StepsEffect.of_kept hnone (fun sid row row' hrow hrow' => ?_) fun sid row hrow hgone => ?_
    · exact (hdescends.lasts (k := .step sid) trivial hrow hrow').origin
    · rcases hdescends (.step sid) trivial row hrow with ⟨row', hrow', -⟩
      rw [hgone] at hrow'
      cases hrow'

theorem refl (v : View) : Effect libs settings copies v v :=
  of_descends (fun _ _ => rfl) (fun _ _ h => h) (Descends.refl v)

/-- An execution has come. -/
theorem of_addsRun {id : Uuid} {e : Execution} (h : AddsRun v v' id e) (hbegins : Begins v e)
    (hterminal : e.status.terminal = true) : Effect libs settings copies v v' := by
  have hothers : ∀ k, ¬ OfRun k → v' k = v k := by
    intro k hrun
    cases hrow : v k with
    | some row => exact h.kept k row hrow
    | none =>
      by_contra hsome
      rcases h.only k hrow hsome with rfl | ⟨sid, rfl⟩
      · exact hrun trivial
      · exact hrun trivial
  have hkept : ∀ {id e}, v (.execution id) = some e → v' (.execution id) = some e :=
    fun hrow => h.kept _ _ hrow
  refine ⟨fun id row hrow => .inl ((hothers (.workflow id) nofun).symm.trans hrow),
    fun id' e' hfresh hrow => ?_, fun id' e₁ e₂ hrow hrow' => ?_, fun id' e' hrow hactive => ?_,
    fun id' d hfresh hrow => ?_, fun id₁ id₂ d₁ d₂ hfresh _ hrow _ => ?_,
    fun id' d d' hrow hrow' => ?_, fun id' e' hrow hgone => ?_, StepsEffect.of_addsRun h⟩
  · obtain ⟨rfl, rfl⟩ := h.execution_of_new hfresh hrow
    exact hbegins
  · rw [hkept hrow] at hrow'
    cases hrow'
    exact KeepsExecution.refl v' e₁
  · cases hold : v (.execution id') with
    | none =>
      obtain ⟨rfl, rfl⟩ := h.execution_of_new hold hrow
      rw [hterminal] at hactive
      cases hactive
    | some e₁ =>
      rw [hkept hold] at hrow
      cases hrow
      exact .inl ⟨e', rfl, hactive⟩
  · rw [hothers (.delivery id') nofun, hfresh] at hrow
    cases hrow
  · rw [hothers (.delivery id₁) nofun, hfresh] at hrow
    cases hrow
  · rw [hothers (.delivery id') nofun, hrow] at hrow'
    cases hrow'
    exact KeepsDelivery.refl v' d
  · rw [hkept hrow] at hgone
    cases hgone

/-- A delivery is logged, and with it an execution may have come. -/
theorem of_delivery {did : Uuid} {d : WebhookDelivery} (hfresh : v (.delivery did) = none)
    (hlogged : v' (.delivery did) = some d) (hlogs : Logs v v' d)
    (hothers : ∀ k, ¬ OfRun k → k ≠ .delivery did → v' k = v k)
    (hkept : ∀ k, OfRun k → ∀ row, v k = some row → v' k = some row)
    (hbegins : ∀ id (e : Execution), v (.execution id) = none → v' (.execution id) = some e →
      Begins v e ∧ (e.status.terminal = true ∨ Stuck libs settings copies e))
    (hsteps : StepsEffect v v') : Effect libs settings copies v v' := by
  have honly : ∀ {id d'}, v (.delivery id) = none → v' (.delivery id) = some d' → id = did := by
    intro id d' hnone hrow
    by_contra hne
    rw [hothers (.delivery id) nofun (by simpa using hne), hnone] at hrow
    cases hrow
  refine ⟨fun id row hrow => .inl ((hothers (.workflow id) nofun nofun).symm.trans hrow),
    fun id e hnone hrow => (hbegins id e hnone hrow).1, fun id e e' hrow hrow' => ?_,
    fun id e' hrow hactive => ?_, fun id d' hnone hrow => ?_,
    fun id id' d₁ d₂ hnone hnone' hrow hrow' => ?_, fun id d₁ d₂ hrow hrow' => ?_,
    fun id e hrow hgone => ?_, hsteps⟩
  · rw [hkept (.execution id) trivial e hrow] at hrow'
    cases hrow'
    exact KeepsExecution.refl v' e
  · cases hold : v (.execution id) with
    | none =>
      refine .inr ⟨rfl, ((hbegins id e' hold hrow).2).resolve_left fun hterminal => ?_⟩
      rw [hterminal] at hactive
      cases hactive
    | some e =>
      rw [hkept (.execution id) trivial e hold] at hrow
      cases hrow
      exact .inl ⟨e', rfl, hactive⟩
  · cases honly hnone hrow
    rw [hlogged] at hrow
    cases hrow
    exact hlogs
  · exact (honly hnone hrow).trans (honly hnone' hrow').symm
  · have hne : (.delivery id : RowId) ≠ .delivery did := by
      rintro heq
      cases heq
      rw [hfresh] at hrow
      cases hrow
    rw [hothers (.delivery id) nofun hne, hrow] at hrow'
    cases hrow'
    exact KeepsDelivery.refl v' d₁
  · rw [hkept (.execution id) trivial e hrow] at hgone
    cases hgone

end Effect

/-! ## The triggers -/

/-- The columns of an execution by its origin. -/
theorem columns_of_origin {id workflowId tenantId : Uuid} {triggerData : Dict String Json}
    {replayedFrom : Option Uuid} {e : Execution}
    (h : Row.origin (.execution id) e = newExecution workflowId tenantId triggerData replayedFrom) :
    e.tenantId = tenantId ∧ e.workflowId = workflowId ∧ e.triggerData = triggerData ∧
      e.replayedFrom = replayedFrom := by
  have hcolumns : newExecution e.workflowId e.tenantId e.triggerData e.replayedFrom =
      newExecution workflowId tenantId triggerData replayedFrom := h
  simp only [newExecution, Execution.mk.injEq] at hcolumns
  exact ⟨hcolumns.1, hcolumns.2.1, hcolumns.2.2.2.1, hcolumns.2.2.2.2.2.1⟩

/-- Rows have come, of one tenant, and nothing else has happened. -/
structure Appends (owner : Uuid) (v v' : View) : Prop where
  kept : ∀ k row, v k = some row → v' k = some row
  workflow : ∀ id, v (.workflow id) = none → v' (.workflow id) = none
  execution : ∀ id (e : Execution), v (.execution id) = none → v' (.execution id) = some e →
    e.tenantId = owner
  delivery : ∀ id (d : WebhookDelivery), v (.delivery id) = none → v' (.delivery id) = some d →
    d.tenantId = owner

theorem Appends.of_addsRun {owner id : Uuid} {v v' : View} {e : Execution} (h : AddsRun v v' id e)
    (howner : e.tenantId = owner) : Appends owner v v' := by
  have hnone : ∀ k, ¬ OfRun k → v k = none → v' k = none := by
    intro k hrun hfresh
    by_contra hsome
    rcases h.only k hfresh hsome with rfl | ⟨sid, rfl⟩ <;> exact hrun trivial
  refine ⟨h.kept, fun id => hnone (.workflow id) nofun, fun id' e' hfresh hrow => ?_,
    fun id' d hfresh hrow => ?_⟩
  · rw [(h.execution_of_new hfresh hrow).2]
    exact howner
  · rw [hnone (.delivery id') nofun hfresh] at hrow
    cases hrow

/-- What a trigger does to the committed rows. -/
structure Triggered (libs : Libraries) (settings : Settings) (copies : Uuid → Workflow → Prop)
    (owner : Uuid) (v v' : View) : Prop where
  effect : Effect libs settings copies v v'
  appends : Appends owner v v'

theorem Triggered.refl {libs : Libraries} {settings : Settings}
    {copies : Uuid → Workflow → Prop} {owner : Uuid} (v : View) :
    Triggered libs settings copies owner v v := by
  refine ⟨Effect.refl v, fun _ _ hrow => hrow, fun _ hnone => hnone, fun _ _ hnone hrow => ?_,
    fun _ _ hnone hrow => ?_⟩
  all_goals
    rw [hnone] at hrow
    cases hrow

/-- A delivery of the owner is logged, and with it an execution may have come. -/
theorem Triggered.of_delivery {libs : Libraries} {settings : Settings}
    {copies : Uuid → Workflow → Prop} {owner did : Uuid} {v v' : View} {d : WebhookDelivery}
    (hfresh : v (.delivery did) = none)
    (hlogged : v' (.delivery did) = some d) (hlogs : Logs v v' d) (howner : d.tenantId = owner)
    (hothers : ∀ k, ¬ OfRun k → k ≠ .delivery did → v' k = v k)
    (hkept : ∀ k, OfRun k → ∀ row, v k = some row → v' k = some row)
    (hbegins : ∀ id (e : Execution), v (.execution id) = none → v' (.execution id) = some e →
      e.tenantId = owner ∧ Begins v e ∧ (e.status.terminal = true ∨ Stuck libs settings copies e))
    (hsteps : StepsEffect v v') : Triggered libs settings copies owner v v' := by
  refine ⟨Effect.of_delivery hfresh hlogged hlogs hothers hkept
    (fun id e hnone hrow => (hbegins id e hnone hrow).2) hsteps, fun k row hrow => ?_,
    fun id hnone => (hothers (.workflow id) nofun nofun).trans hnone,
    fun id e hnone hrow => (hbegins id e hnone hrow).1, fun id d' hnone hrow => ?_⟩
  · by_cases hrun : OfRun k
    · exact hkept k hrun row hrow
    · refine (hothers k hrun ?_).trans hrow
      rintro rfl
      rw [hfresh] at hrow
      cases hrow
  · by_cases hid : id = did
    · subst hid
      rw [hlogged] at hrow
      cases hrow
      exact howner
    · rw [hothers (.delivery id) nofun (by simpa using hid), hnone] at hrow
      cases hrow

section

variable {libs : Libraries} {settings : Settings} {copies : Uuid → Workflow → Prop}
  {session : SessionRef} {fuel : Nat} {t : Rows Row} {owner : Uuid}

/-- A session that has read rows only. -/
structure Reading (t : Rows Row) (db : Db) : Prop where
  synced : Synced db
  view : db.view = Rows.row t
  committed : db.committed = t

theorem reading_opened (t : Rows Row) : Reading t ⟨t, Session.fresh⟩ :=
  ⟨synced_opened t, view_opened t, rfl⟩

theorem Reading.load {db : Db} (h : Reading t db) {k : RowId} {row : Row k}
    (hrow : Rows.row t k = some row) (memo : Memo k) : Reading t (db.load k row memo) := by
  exact ⟨h.synced.load ((congrFun h.view k).trans hrow) (InSync.refl k row) memo, h.view,
    h.committed⟩

/-- An execution is started, and what the session sees is committed. -/
theorem triggered_start {α : Type} {w : World} (hw : Reading t w.db) {workflowId : Uuid}
    {workflow : Workflow} {triggerData : Dict String Json} {tenantId : Uuid}
    {replayedFrom : Option Uuid} {rest : Uuid × Execution → Prog α}
    (hrest : ∀ started w, ((rest started).run w).2.db.committed = w.db.commit.committed)
    (howner : tenantId = owner)
    (hbegins : ∀ e : Execution, e.tenantId = tenantId → e.workflowId = workflowId →
      e.triggerData = triggerData → e.replayedFrom = replayedFrom → Begins (Rows.row t) e) :
    Triggered libs settings copies owner (Rows.row t) (Rows.row (Prog.run (startExecution
      (nesting libs settings performer session fuel) session libs settings none workflowId workflow
        triggerData tenantId replayedFrom 0 >>= rest) w).2.db.committed) := by
  rcases startEffect libs settings session fuel none workflowId workflow triggerData tenantId
    replayedFrom 0 hw.synced with ⟨result, db', env', hrun, hcommitted, -, heffect⟩
  cases result with
  | error exc =>
    rw [Prog.run_bind_error hrun]
    show Triggered libs settings copies owner _ (Rows.row db'.committed)
    rw [hcommitted, hw.committed]
    exact Triggered.refl _
  | ok started =>
    rw [Prog.run_bind_ok hrun, hrest]
    show Triggered libs settings copies owner _ db'.view
    rw [hw.view] at heffect
    cases heffect with
    | returned added origin terminal =>
      obtain ⟨htenant, hworkflow, hdata, hreplayed⟩ := columns_of_origin origin
      exact ⟨Effect.of_addsRun added (hbegins _ htenant hworkflow hdata hreplayed) terminal,
        Appends.of_addsRun added (htenant.trans howner)⟩

/-- Nothing is committed where a program ends that has read rows only. -/
theorem triggered_ended {w : World} (hw : Reading t w.db) :
    Triggered libs settings copies owner (Rows.row t) (Rows.row w.db.committed) := by
  rw [hw.committed]
  exact Triggered.refl _

/-- A row is looked up that was not loaded before, and the rest goes on with it. -/
theorem triggered_select_bind {α : Type} {w : World} (hw : Reading t w.db) {k : RowId}
    (hloaded : w.db.loaded k = none) {p : Row k → Bool} {f : Option (Row k) → Prog α}
    (hnone : Triggered libs settings copies owner (Rows.row t) (Rows.row ((f none).run w).2.db.committed))
    (hsome : ∀ (row : Row k) (w' : World), Rows.row t k = some row → p row = true →
      Reading t w'.db → (∀ k', k' ≠ k → w'.db.loaded k' = w.db.loaded k') →
      Triggered libs settings copies owner (Rows.row t)
        (Rows.row ((f (some row)).run w').2.db.committed)) :
    Triggered libs settings copies owner (Rows.row t) (Rows.row (Prog.run
      (Script.send (S := engineSignature) (.db (.select k p)) >>= f) w).2.db.committed) := by
  by_cases hfound : ∃ row, Rows.row t k = some row ∧ p row = true
  · rcases hfound with ⟨row, hrow, hp⟩
    have hselect := DbState.answer_select_new ((congrFun hw.view k).trans hrow) hp hloaded
    rw [Prog.run_bind_ok (run_db _ _ _), hselect]
    exact hsome row ⟨w.db.load k row default, w.env⟩ hrow hp (hw.load hrow default)
      fun k' hk' => DbState.loaded_load_ne _ _ _ hk'
  · have hselect : DbState.answer (.select k p) w.db = (none, w.db) :=
      DbState.answer_select_none fun row hrow => Bool.eq_false_iff.mpr fun hp =>
        hfound ⟨row, (congrFun hw.view k).symm.trans hrow, hp⟩
    rw [Prog.run_bind_ok (run_db _ _ _), hselect]
    exact hnone

/-- A workflow of the tenant is looked up, and the rest goes on with it. -/
theorem triggered_getTenantWorkflow_bind {α : Type} {w : World} (hw : Reading t w.db)
    {workflowId tenantId : Uuid} (hloaded : w.db.loaded (.workflow workflowId) = none)
    {f : Workflow → Prog α}
    (hf : ∀ (workflow : Workflow) (w' : World), Rows.row t (.workflow workflowId) = some workflow →
      workflow.tenantId = tenantId → Reading t w'.db →
      Triggered libs settings copies owner (Rows.row t) (Rows.row ((f workflow).run w').2.db.committed)) :
    Triggered libs settings copies owner (Rows.row t) (Rows.row
      (Prog.run (getTenantWorkflow workflowId tenantId >>= f) w).2.db.committed) := by
  unfold getTenantWorkflow
  rw [Script.bind_assoc]
  refine triggered_select_bind hw hloaded (triggered_ended hw) fun workflow w' hrow hp hw' _ => ?_
  exact hf workflow w' hrow (of_decide_eq_true hp) hw'

/-- What follows a pure function. -/
theorem triggered_liftExcept_bind {α β : Type} {w : World} (hw : Reading t w.db)
    {result : Except PyError α} {f : α → Prog β}
    (hf : ∀ a, result = .ok a →
      Triggered libs settings copies owner (Rows.row t) (Rows.row ((f a).run w).2.db.committed)) :
    Triggered libs settings copies owner (Rows.row t) (Rows.row
      (Prog.run (liftExcept result >>= f) w).2.db.committed) := by
  cases result with
  | ok a => exact hf a rfl
  | error exc => exact triggered_ended hw

theorem triggered_manualExecute (workflowId tenantId : Uuid) (data : Dict String Json)
    (env : Environment) :
    Triggered libs settings copies tenantId (Rows.row t) (Rows.row ((manualExecute
      (nesting libs settings performer session fuel) session libs settings workflowId tenantId
        data).run ⟨⟨t, Session.fresh⟩, env⟩).2.db.committed) := by
  unfold manualExecute
  refine triggered_getTenantWorkflow_bind (reading_opened t) rfl fun workflow w hrow htenant hw => ?_
  refine triggered_liftExcept_bind hw fun _ _ => ?_
  refine triggered_start hw (fun _ _ => rfl) rfl fun e he hid _ hreplayed => ?_
  refine ⟨⟨workflow, hid ▸ hrow, htenant.trans he.symm⟩, fun o ho => ?_⟩
  rw [hreplayed] at ho
  cases ho

theorem triggered_replayExecutionEndpoint (executionId tenantId : Uuid)
    (overrideData : Dict String Json) (env : Environment) :
    Triggered libs settings copies tenantId (Rows.row t) (Rows.row ((replayExecutionEndpoint
      (nesting libs settings performer session fuel) session libs settings executionId tenantId
        overrideData).run ⟨⟨t, Session.fresh⟩, env⟩).2.db.committed) := by
  unfold replayExecutionEndpoint
  split
  · unfold replayExecution
    rw [Script.bind_assoc]
    refine triggered_select_bind (reading_opened t) rfl (Triggered.refl _) ?_
    intro original w hrow hp hw hloaded
    simp only [Script.bind_assoc]
    refine triggered_getTenantWorkflow_bind hw (hloaded _ nofun) ?_
    intro workflow w₁ hworkflow htenant hw₁
    refine triggered_liftExcept_bind hw₁ fun _ _ => ?_
    refine triggered_liftExcept_bind hw₁ fun triggerData hdata => ?_
    refine triggered_start hw₁ (fun _ _ => rfl) rfl fun e he hid htrigger hreplayed => ?_
    refine ⟨⟨workflow, hid ▸ hworkflow, htenant.trans he.symm⟩, fun o ho => ?_⟩
    rw [hreplayed] at ho
    cases ho
    exact ⟨original, overrideData, hrow, hid.symm, (of_decide_eq_true hp).trans he.symm,
      htrigger ▸ hdata⟩
  · exact Triggered.refl _

/-- The job of a workflow that is there hands on its tenant. -/
theorem triggered_executeCronWorkflow {workflowId tenantId : String}
    (hknown : ∀ id tenant, uuidOf (.str workflowId) = .ok id → uuidOf (.str tenantId) = .ok tenant →
      ∀ workflow : Workflow, Rows.row t (.workflow id) = some workflow → workflow.tenantId = tenant)
    (howner : ∀ tenant, uuidOf (.str tenantId) = .ok tenant → tenant = owner) (env : Environment) :
    Triggered libs settings copies owner (Rows.row t) (Rows.row ((executeCronWorkflow
      (nesting libs settings performer session fuel) session libs settings workflowId
        tenantId).run ⟨⟨t, Session.fresh⟩, env⟩).2.db.committed) := by
  let w : World := ⟨⟨t, Session.fresh⟩, { env with readings := env.readings + 1 }⟩
  have hbody : Triggered libs settings copies owner (Rows.row t) (Rows.row ((runCronWorkflow
      (nesting libs settings performer session fuel) session libs settings workflowId tenantId
        (cronTriggerData (env.clock env.readings))).run w).2.db.committed) := by
    unfold runCronWorkflow
    refine triggered_liftExcept_bind (reading_opened t) fun id hid => ?_
    refine triggered_select_bind (reading_opened t) rfl (Triggered.refl _) ?_
    intro workflow w₁ hrow _ hw₁ _
    dsimp only
    split
    · refine triggered_liftExcept_bind hw₁ fun tenant htenant => ?_
      refine triggered_start hw₁ (fun _ _ => rfl) (howner tenant htenant) ?_
      intro e he hworkflow _ hreplayed
      refine ⟨⟨workflow, hworkflow ▸ hrow, ?_⟩, fun o ho => ?_⟩
      · exact (hknown id tenant hid htenant workflow hrow).trans he.symm
      · rw [hreplayed] at ho
        cases ho
    · exact triggered_ended hw₁
  unfold executeCronWorkflow
  rw [Prog.run_bind_ok (run_utcNow _)]
  rcases hrun : Prog.run (runCronWorkflow (nesting libs settings performer session fuel) session libs
    settings workflowId tenantId (cronTriggerData (env.clock env.readings))) w with ⟨ended, w'⟩
  rw [hrun] at hbody
  rw [Prog.run_attempt_bind hrun]
  cases ended with
  | ok _ => exact hbody
  | error raised => cases raised <;> exact hbody

/-! ### Webhooks -/

variable {wire : Wire} {request : WebhookRequest} {workflowId : Uuid} {workflow : Workflow}

theorem ne_delivery_of_run {k : RowId} {id : Uuid} (hrun : OfRun k) : k ≠ .delivery id := by
  rintro rfl
  cases hrun

/-- A delivery is logged and committed, and nothing else. -/
theorem triggered_rejected {db : Db} (hw : Reading t db) (reason : String) :
    Triggered libs settings copies workflow.tenantId (Rows.row t)
      (Rows.row (inserted db (.delivery db.newUuid) (loggedDelivery wire request workflowId
        workflow.tenantId .rejected (some reason))).commit.committed) := by
  have hfresh : Rows.row t (.delivery db.newUuid) = none :=
    (congrFun hw.view _).symm.trans (Db.view_newUuid rfl)
  have hothers : ∀ k, k ≠ .delivery db.newUuid → DbState.view (inserted db (.delivery db.newUuid)
      (loggedDelivery wire request workflowId workflow.tenantId .rejected (some reason))) k =
        Rows.row t k :=
    fun k hk => (view_inserted_ne db _ hk).trans (congrFun hw.view k)
  show Triggered libs settings copies _ _ (DbState.view _)
  refine Triggered.of_delivery hfresh (view_inserted_self db _ _)
    ⟨nofun, nofun, fun _ => ⟨rfl, rfl⟩⟩ rfl (fun k _ hk => hothers k hk)
    (fun k hrun row hrow => (hothers k (ne_delivery_of_run hrun)).trans hrow) ?_
    (StepsEffect.of_same fun k hrun => hothers k (ne_delivery_of_run hrun))
  intro id e hnone hrow
  rw [hothers (.execution id) nofun, hnone] at hrow
  cases hrow

/-- A delivery is logged and committed, and the start between the two has added an execution of
the workflow: it has ended, or it is stuck. -/
theorem triggered_added {v v' : View} {did id : Uuid} {e : Execution} (h : AddsRun v v' id e)
    (horigin : Row.origin (.execution id) e = newExecution workflowId workflow.tenantId
      [("payload", request.payload wire), ("headers", .obj request.requestHeaders)] none)
    (hcopy : copies workflowId workflow)
    (hworkflow : ∃ row : Workflow, Rows.row t (.workflow workflowId) = some row ∧
      row.tenantId = workflow.tenantId)
    (hfresh : Rows.row t (.delivery did) = none)
    (hbase : ∀ k, k ≠ .delivery did → v k = Rows.row t k)
    {rows : Rows Row} {d : WebhookDelivery} (hlogged : Rows.row rows (.delivery did) = some d)
    (hothers : ∀ k, k ≠ .delivery did → Rows.row rows k = v' k)
    (howner : d.tenantId = workflow.tenantId) (hlogs : Logs (Rows.row t) (Rows.row rows) d)
    (hends : e.status.terminal = true ∨ e.status = .running ∧ ∃ parsed,
      parseWorkflowDefinition libs settings
        ⟨workflow.name, workflow.triggerType, workflow.steps⟩ = .ok parsed ∧
          ¬ BranchesSettable parsed.steps) :
    Triggered libs settings copies workflow.tenantId (Rows.row t) (Rows.row rows) := by
  obtain ⟨htenant, hid, hdata, hreplayed⟩ := columns_of_origin horigin
  have hsteps : StepsEffect (Rows.row t) (Rows.row rows) :=
    (StepsEffect.of_addsRun h).congr (fun k hrun => (hbase k (ne_delivery_of_run hrun)).symm)
      fun k hrun => hothers k (ne_delivery_of_run hrun)
  refine Triggered.of_delivery hfresh hlogged hlogs howner (fun k hrun hk => ?_)
    (fun k hrun row hrow => ?_) ?_ hsteps
  · rw [hothers k hk, ← hbase k hk]
    cases hrow : v k with
    | some row => exact h.kept k row hrow
    | none =>
      by_contra hsome
      rcases h.only k hrow hsome with rfl | ⟨sid, rfl⟩ <;> exact hrun trivial
  · rw [hothers k (ne_delivery_of_run hrun)]
    exact h.kept k row ((hbase k (ne_delivery_of_run hrun)).trans hrow)
  · intro id' e' hnone hrow
    rw [hothers (.execution id') nofun] at hrow
    obtain ⟨rfl, rfl⟩ := h.execution_of_new ((hbase (.execution id') nofun).trans hnone) hrow
    rcases hworkflow with ⟨row, hrow', hsame⟩
    refine ⟨htenant, ⟨⟨row, hid.symm ▸ hrow', hsame.trans htenant.symm⟩, fun o ho => ?_⟩,
      hends.imp_right fun ⟨hrunning, parsed, hparsed, hnot⟩ => ⟨hreplayed, ⟨_, _, hdata⟩,
        ⟨workflow, parsed, hid.symm ▸ hcopy, htenant.symm, hparsed, hnot⟩, hrunning ▸ nofun⟩⟩
    rw [hreplayed] at ho
    cases ho

/-- What is committed in the end, when the start has left `v'` of the rows with the logged
delivery and the delivery is the last row that is written. -/
theorem triggered_webhook {v' : View} {db : Db} (hw : Reading t db)
    (hcopy : copies workflowId workflow)
    (hworkflow : ∃ row : Workflow, Rows.row t (.workflow workflowId) = some row ∧
      row.tenantId = workflow.tenantId)
    {result : Except PyError (Uuid × Execution)}
    (heffect : StartEffect libs settings workflow (newExecution workflowId workflow.tenantId
      [("payload", request.payload wire), ("headers", .obj request.requestHeaders)] none)
      (DbState.view (inserted db (.delivery db.newUuid)
        (loggedDelivery wire request workflowId workflow.tenantId .received none))) v' result)
    {rows : Rows Row} {d : WebhookDelivery} (hlogged : Rows.row rows (.delivery db.newUuid) = some d)
    (hothers : ∀ k, k ≠ .delivery db.newUuid → Rows.row rows k = v' k)
    (hended : (∃ id e, result = .ok (id, e) ∧ d = { loggedDelivery wire request workflowId
        workflow.tenantId .received none with status := .accepted, executionId := some id }) ∨
      ∃ exc : PyError, result = .error exc ∧ d = { loggedDelivery wire request workflowId
        workflow.tenantId .received none with status := .error, rejectionReason := some exc.str }) :
    Triggered libs settings copies workflow.tenantId (Rows.row t) (Rows.row rows) := by
  have hbase : ∀ k, k ≠ .delivery db.newUuid → DbState.view (inserted db (.delivery db.newUuid)
      (loggedDelivery wire request workflowId workflow.tenantId .received none)) k = Rows.row t k :=
    fun k hk => (view_inserted_ne db _ hk).trans (congrFun hw.view k)
  have hfresh : Rows.row t (.delivery db.newUuid) = none :=
    (congrFun hw.view _).symm.trans (Db.view_newUuid rfl)
  generalize hv : DbState.view (inserted db (.delivery db.newUuid)
    (loggedDelivery wire request workflowId workflow.tenantId .received none)) = v at heffect hbase
  cases heffect with
  | refused parse same =>
    rcases hended with ⟨id, e, hresult, -⟩ | ⟨exc, -, rfl⟩
    · cases hresult
    · have hsame : ∀ k, k ≠ .delivery db.newUuid → Rows.row rows k = Rows.row t k :=
        fun k hk => (hothers k hk).trans ((congrFun same k).trans (hbase k hk))
      refine Triggered.of_delivery hfresh hlogged ⟨nofun, nofun, fun _ => ⟨rfl, rfl⟩⟩ rfl
        (fun k _ hk => hsame k hk)
        (fun k hrun row hrow => (hsame k (ne_delivery_of_run hrun)).trans hrow) ?_
        (StepsEffect.of_same fun k hrun => hsame k (ne_delivery_of_run hrun))
      intro id e hnone hrow
      rw [hsame (.execution id) nofun, hnone] at hrow
      cases hrow
  | returned added origin terminal =>
    rename_i id e
    rcases hended with ⟨id', e', hresult, rfl⟩ | ⟨exc, hresult, -⟩
    · cases hresult
      obtain ⟨htenant, hid, hdata, hreplayed⟩ := columns_of_origin origin
      refine triggered_added added origin hcopy hworkflow hfresh hbase hlogged hothers rfl
        ⟨nofun, fun _ => ?_, fun hnot => absurd rfl hnot⟩ (.inl terminal)
      refine ⟨id, e, rfl, (hbase (.execution id) nofun).symm.trans added.fresh, ?_, hid, htenant,
        hreplayed, hdata, terminal⟩
      rw [hothers (.execution id) nofun]
      exact added.execution
    · cases hresult
  | raised added origin running unset =>
    rcases hended with ⟨id, e, hresult, -⟩ | ⟨exc, -, rfl⟩
    · cases hresult
    · exact triggered_added added origin hcopy hworkflow hfresh hbase hlogged hothers rfl
        ⟨nofun, nofun, fun _ => ⟨rfl, rfl⟩⟩ (.inr ⟨running, unset⟩)

theorem triggered_startFromWebhook {w : World} (hw : Reading t w.db)
    (hcopy : copies workflowId workflow)
    (hworkflow : ∃ row : Workflow, Rows.row t (.workflow workflowId) = some row ∧
      row.tenantId = workflow.tenantId) :
    Triggered libs settings copies workflow.tenantId (Rows.row t) (Rows.row ((startFromWebhook
      (nesting libs settings performer session fuel) session libs settings wire request workflowId
        workflow).run w).2.db.committed) := by
  let row := loggedDelivery wire request workflowId workflow.tenantId .received none
  let base : World := ⟨inserted w.db (.delivery w.db.newUuid) row, w.env⟩
  have hsynced : Synced base.db := by
    refine hw.synced.of_others (k := .delivery w.db.newUuid) (fun k hk => ?_) fun hrun => False.elim hrun
    exact ⟨view_inserted_ne _ _ hk, DbState.loaded_answer_ne rfl hk _⟩
  rcases startEffect libs settings session fuel none workflowId workflow
    [("payload", request.payload wire), ("headers", .obj request.requestHeaders)] workflow.tenantId
    none 0 hsynced with ⟨result, db', env', hrun, -, -, heffect⟩
  have hholds : Holds db' w.db.newUuid row := by
    have hbase : Holds base.db w.db.newUuid row := holds_inserted w.db w.db.newUuid row
    constructor
    · cases heffect with
      | refused parse same => exact (congrFun same _).trans hbase.view
      | returned added origin terminal => exact added.kept _ _ hbase.view
      | raised added origin running unset => exact added.kept _ _ hbase.view
    · have hkept : KeepsObject w.db.newUuid (some (row, ())) ((startExecution
          (nesting libs settings performer session fuel) session libs settings none workflowId
          workflow [("payload", request.payload wire), ("headers", .obj request.requestHeaders)]
          workflow.tenantId none 0).run base).2.db :=
        keepsObject_startExecution (keepsObject_nesting libs settings session w.db.newUuid
          (some (row, ())) fuel) base hbase.loaded
      rwa [hrun] at hkept
  have hstored : (w.db.view (.workflow workflowId)).isSome = true := by
    rcases hworkflow with ⟨row, hrow, -⟩
    rw [hw.view, hrow]
    rfl
  unfold startFromWebhook
  rw [Prog.run_bind_ok (run_logWebhookDelivery _ _ _ _ _ _ hstored)]
  cases result with
  | ok started =>
    rcases run_assignDelivery_commit (α := Uuid) hholds (fun row =>
      { row with status := .accepted, executionId := some started.1 }) env' with
      ⟨db'', hassign, hlogged, hothers⟩
    have hbody : Prog.run (startExecution (nesting libs settings performer session fuel) session libs
        settings none workflowId workflow [("payload", request.payload wire),
          ("headers", .obj request.requestHeaders)] workflow.tenantId none 0 >>= fun started => do
        let _ ← assignDelivery w.db.newUuid (fun row =>
          { row with status := .accepted, executionId := some started.1 })
        commit
        return started.1) base = (.ok started.1, ⟨db'', env'⟩) :=
      (Prog.run_bind_ok hrun).trans (hassign (pure started.1))
    rw [Prog.run_attempt_bind hbody]
    exact triggered_webhook hw hcopy hworkflow heffect hlogged hothers
      (.inl ⟨started.1, started.2, rfl, rfl⟩)
  | error exc =>
    rcases run_assignDelivery_commit (α := Response) hholds (fun row =>
      { row with status := .error, rejectionReason := some exc.str }) env' with
      ⟨db'', hassign, hlogged, hothers⟩
    rw [Prog.run_attempt_bind (Prog.run_bind_error hrun), hassign (Script.raise (.exception exc))]
    exact triggered_webhook hw hcopy hworkflow heffect hlogged hothers (.inr ⟨exc, rfl, rfl⟩)

theorem triggered_receiveForWorkflow {w : World} (hw : Reading t w.db)
    (hcopy : copies workflowId workflow)
    (hright : ∀ row : Workflow, Rows.row t (.workflow workflowId) = some row →
      row.tenantId = workflow.tenantId) :
    Triggered libs settings copies workflow.tenantId (Rows.row t) (Rows.row ((receiveForWorkflow
      (nesting libs settings performer session fuel) session libs settings wire request workflowId
        workflow).run w).2.db.committed) := by
  cases hrow : Rows.row t (.workflow workflowId) with
  | none =>
    rcases run_receiveForWorkflow_orphan ((congrFun hw.view _).trans hrow) with ⟨exc, hrun⟩
    rw [hrun]
    exact triggered_ended hw
  | some row =>
    have hstored : (w.db.view (.workflow workflowId)).isSome = true := by
      rw [hw.view, hrow]
      rfl
    cases hactive : workflow.isActive with
    | false =>
      rw [run_receiveForWorkflow_inactive hactive hstored]
      exact triggered_rejected hw _
    | true =>
      cases hcheck : checkSignature wire request workflow with
      | ok _ =>
        rw [receiveForWorkflow_ok hactive hcheck]
        exact triggered_startFromWebhook hw hcopy ⟨row, hrow, hright row hrow⟩
      | error exc =>
        cases exc with
        | app exc =>
          rw [run_receiveForWorkflow_refused hactive hcheck hstored]
          exact triggered_rejected hw _
        | other cls text =>
          rw [run_receiveForWorkflow_raised hactive hcheck]
          exact triggered_ended hw

/-- The lookup reads rows only. -/
theorem reading_lookupWorkflowByPath (path : String) :
    Maintains (Reading t) (lookupWorkflowByPath path) := by
  unfold lookupWorkflowByPath
  apply maintains_bind
  · intro w hw
    exact ⟨hw.synced.loadAll _, (funext fun k => DbState.view_loadAll _ _ k).trans hw.view,
      (DbState.committed_loadAll _ _).trans hw.committed⟩
  intro found
  split
  · exact maintains_done _
  · rename_i id
    apply maintains_bind
    · intro w hw
      show Reading t (DbState.answer (.touch (.workflow id) _) w.db).2
      simp only [DbState.answer]
      cases hloaded : w.db.loaded (.workflow id) with
      | none => exact hw
      | some object =>
        refine ⟨hw.synced.of_others (k := .workflow id) (fun k hk => ⟨rfl, ?_⟩)
          (fun hrun => False.elim hrun), hw.view, hw.committed⟩
        exact DbState.loaded_load_ne _ _ _ hk
    · exact fun _ => maintains_bind (maintains_mapped _) fun _ => maintains_done _
  · exact maintains_done _

/-- The workflow that the request is for. -/
def Resolves (t : Rows Row) (env : Environment) (request : WebhookRequest)
    (found : Uuid × Workflow) : Prop :=
  request.cached = some found ∨ request.cached = none ∧
    ∃ w, (lookupWorkflowByPath request.path).run ⟨⟨t, Session.fresh⟩, env⟩ = (.ok found, w)

/-- The lookup gives the row as it is committed. -/
theorem row_of_lookupWorkflowByPath {path : String} {env : Environment} {found : Uuid × Workflow}
    {w' : World} (hrun : (lookupWorkflowByPath path).run ⟨⟨t, Session.fresh⟩, env⟩ = (.ok found, w')) :
    Rows.row t (.workflow found.1) = some found.2 := by
  cases hpath : workflowOfPath t path with
  | some resolved =>
    rcases run_lookupWorkflowByPath hpath env with ⟨s, -, hlookup⟩
    cases hrun.symm.trans hlookup
    unfold workflowOfPath at hpath
    split at hpath
    · obtain ⟨row, hrow, hfound⟩ := Option.map_eq_some_iff.mp hpath
      cases hfound
      exact hrow
    · cases hpath
  | none =>
    exfalso
    let db : Db := ⟨t, Session.fresh⟩
    have hselect : ∀ p, p = hasPath path → (selectWhere p).run ⟨db, env⟩ =
        (.ok (db.matching (hasPath path)), ⟨db.loadAll (db.matching (hasPath path)), env⟩) := by
      rintro p rfl
      rfl
    unfold lookupWorkflowByPath at hrun
    rw [Prog.run_bind_ok (hselect _ (funext fun k => by cases k <;> rfl))] at hrun
    unfold workflowOfPath at hpath
    split at hpath
    · rename_i id hmatching
      -- a row that is found is there
      have hmem : RowId.workflow id ∈ db.matching (hasPath path) := by
        rw [hmatching]
        exact List.mem_singleton.mpr rfl
      rcases DbState.mem_matching.mp hmem with ⟨row, hrow, -⟩
      rw [DbState.view_of_pending_empty rfl] at hrow
      rw [Option.map_eq_none_iff] at hpath
      cases hpath.symm.trans hrow
    · rename_i hno
      split at hrun
      · cases hrun
      · rename_i id hmatching
        exact hno id hmatching
      · cases hrun

theorem triggered_receiveWebhook
    (hcached : ∀ found, request.cached = some found → ∀ row : Workflow,
      Rows.row t (.workflow found.1) = some row → row.tenantId = found.2.tenantId)
    (env : Environment) (hcopies : ∀ found, Resolves t env request found → copies found.1 found.2)
    (howner : ∀ found, Resolves t env request found → found.2.tenantId = owner) :
    Triggered libs settings copies owner (Rows.row t) (Rows.row ((receiveWebhook
      (nesting libs settings performer session fuel) session libs settings wire request).run
        ⟨⟨t, Session.fresh⟩, env⟩).2.db.committed) := by
  unfold receiveWebhook
  refine triggered_liftExcept_bind (reading_opened t) fun tooLong _ => ?_
  split
  · exact Triggered.refl _
  split
  · exact Triggered.refl _
  cases hfound : request.cached with
  | some found =>
    obtain rfl := howner found (.inl hfound)
    exact triggered_receiveForWorkflow (reading_opened t) (hcopies found (.inl hfound))
      (hcached found hfound)
  | none =>
    rcases hlookup : (lookupWorkflowByPath request.path).run ⟨⟨t, Session.fresh⟩, env⟩ with
      ⟨result, w⟩
    show Triggered libs settings copies owner _
      (Rows.row (Prog.run (Script.attempt _ >>= _) _).2.db.committed)
    rw [Prog.run_attempt_bind hlookup]
    have hw : Reading t w.db := by
      have hkept := reading_lookupWorkflowByPath request.path ⟨⟨t, Session.fresh⟩, env⟩
        (reading_opened t)
      rwa [show Script.run World.answer _ _ = (result, w) from hlookup] at hkept
    cases result with
    | ok found =>
      obtain rfl := howner found (.inr ⟨hfound, w, hlookup⟩)
      refine triggered_receiveForWorkflow hw (hcopies found (.inr ⟨hfound, w, hlookup⟩))
        fun row hrow => ?_
      cases (row_of_lookupWorkflowByPath hlookup).symm.trans hrow
      rfl
    | error raised =>
      cases raised with
      | outOfFuel => exact triggered_ended hw
      | exception exc => cases exc <;> exact triggered_ended hw

/-- A request is for one workflow at most. -/
theorem Resolves.unique {env : Environment} {found found' : Uuid × Workflow}
    (h : Resolves t env request found) (h' : Resolves t env request found') : found = found' := by
  rcases h with hcached | ⟨hnone, w, hlookup⟩ <;> rcases h' with hcached' | ⟨hnone', w', hlookup'⟩
  · exact Option.some.inj (hcached.symm.trans hcached')
  · cases hcached.symm.trans hnone'
  · cases hnone.symm.trans hcached'
  · cases hlookup.symm.trans hlookup'
    rfl

/-- Every trigger adds rows of one tenant. -/
theorem triggered_handle {known : Uuid → Uuid → Prop} (h : Settled known t) (trigger : Trigger)
    (hcron : ∀ workflowId tenantId, trigger = .cron workflowId tenantId → ∀ id tenant,
      uuidOf (.str workflowId) = .ok id → uuidOf (.str tenantId) = .ok tenant → known id tenant)
    (hwebhook : ∀ request, trigger = .webhook request → ∀ found, request.cached = some found →
      copies found.1 found.2 ∧ ∀ row : Workflow, Rows.row t (.workflow found.1) = some row →
        row.tenantId = found.2.tenantId)
    (hstored : ∀ request, trigger = .webhook request → ∀ id workflow,
      Rows.row t (.workflow id) = some workflow → copies id workflow)
    (env : Environment) :
    ∃ owner, Triggered libs settings copies owner (Rows.row t)
      (Rows.row ((trigger.handle libs settings wire (nesting libs settings performer session fuel)
        session).run ⟨⟨t, Session.fresh⟩, env⟩).2.db.committed) := by
  cases trigger with
  | manual workflowId tenantId data =>
    rw [Trigger.handle, Prog.run_discard]
    exact ⟨tenantId, triggered_manualExecute workflowId tenantId data env⟩
  | webhook request =>
    rw [Trigger.handle, Prog.run_discard]
    have hcached := fun found hfound => (hwebhook request rfl found hfound).2
    have hcopies : ∀ found, Resolves t env request found → copies found.1 found.2 := by
      rintro found (hfound | ⟨-, w, hlookup⟩)
      · exact (hwebhook request rfl found hfound).1
      · exact hstored request rfl _ _ (row_of_lookupWorkflowByPath hlookup)
    by_cases hfound : ∃ found, Resolves t env request found
    · rcases hfound with ⟨found, hfound⟩
      refine ⟨found.2.tenantId, triggered_receiveWebhook hcached env hcopies ?_⟩
      exact fun found' hfound' => by rw [hfound'.unique hfound]
    · exact ⟨0, triggered_receiveWebhook hcached env hcopies
        fun found hresolves => absurd ⟨found, hresolves⟩ hfound⟩
  | cron workflowId tenantId =>
    rw [Trigger.handle]
    cases htenant : uuidOf (.str tenantId) with
    | ok owner =>
      refine ⟨owner, triggered_executeCronWorkflow (fun id tenant hid htenant workflow hrow =>
        h.known id tenant (hcron workflowId tenantId rfl id tenant hid htenant) workflow hrow)
        (fun tenant hsame => ?_) env⟩
      exact Except.ok.inj (hsame.symm.trans htenant)
    | error exc =>
      refine ⟨0, triggered_executeCronWorkflow (fun id tenant hid htenant workflow hrow =>
        h.known id tenant (hcron workflowId tenantId rfl id tenant hid htenant) workflow hrow)
        (fun tenant hsame => ?_) env⟩
      cases hsame.symm.trans htenant
  | replay executionId tenantId overrideData =>
    rw [Trigger.handle, Prog.run_discard]
    exact ⟨tenantId, triggered_replayExecutionEndpoint executionId tenantId overrideData env⟩

end

end WorkflowEngine

import WorkflowEngine.Records

/-!
# The transition tables and the writers of statuses

Three writers of a status do not go through the functions that validate a transition:
the assignment after exhausted retries, and the two bulk updates of
`cleanup_stale_executions`.  The first one and the update of the executions are in line
with the tables all the same, since the execution is running.  The update of the steps
is not: it fails the pending and the queued steps of a stale execution as well.
`FollowsTables` says that nothing else leaves the tables.
-/

namespace WorkflowEngine

open Py Orm Interact

/-- From `db` to `db'` the status of every execution and of every step stays or moves as
the tables allow, or the step was swept up before it was started. -/
structure FollowsTables (swept : StepExecution → Prop) (db db' : Db) : Prop where
  execution : ∀ id (row row' : Execution), db.view (.execution id) = some row →
    db'.view (.execution id) = some row' →
    row'.status = row.status ∨ row'.status ∈ allowedExecutionTransitions row.status
  step : ∀ id (row row' : StepExecution), db.view (.step id) = some row →
    db'.view (.step id) = some row' →
    row'.status = row.status ∨ row'.status ∈ allowedStepTransitions row.status ∨
      (swept row ∧ row.status ∈ [StepStatus.pending, .queued] ∧ row'.status = .failed)

theorem Changes.of_some {ρ : Type} {created : ρ → Prop} {written : ρ → ρ → Prop} {row row' : ρ}
    (h : Changes created written (some row) (some row')) : row' = row ∨ written row row' := by
  cases h with
  | same => exact .inl rfl
  | write hwrite => exact .inr hwrite

section

variable {req : engineSignature.Req} {db db' : Db}

theorem followsTables_of_writesBy {writing : Writing} {swept : StepExecution → Prop}
    (h : WritesBy writing req db db')
    (hexecution : ∀ id (row row' : Execution), writing (.execution id) req row row' →
      row'.status = row.status ∨ row'.status ∈ allowedExecutionTransitions row.status)
    (hstep : ∀ id (row row' : StepExecution), writing (.step id) req row row' →
      row'.status = row.status ∨ row'.status ∈ allowedStepTransitions row.status ∨
        (swept row ∧ row.status ∈ [StepStatus.pending, .queued] ∧ row'.status = .failed)) :
    FollowsTables swept db db' := by
  refine ⟨fun id row row' hrow hrow' => ?_, fun id row row' hrow hrow' => ?_⟩
  · have hchange := h (.execution id) trivial
    rw [hrow, hrow'] at hchange
    rcases hchange.of_some with rfl | hwrite
    · exact .inl rfl
    · exact hexecution id row row' hwrite
  · have hchange := h (.step id) trivial
    rw [hrow, hrow'] at hchange
    rcases hchange.of_some with rfl | hwrite
    · exact .inl rfl
    · exact hstep id row row' hwrite

/-- The validated transitions, and the assignment after exhausted retries. -/
theorem followsTables_of_writes (h : Writes req db db') (swept : StepExecution → Prop) :
    FollowsTables swept db db' := by
  refine followsTables_of_writesBy h (fun id row row' hwrite => ?_) fun id row row' hwrite => ?_
  · cases (hwrite : ExecutionWrite id req row row') with
    | context => exact .inl rfl
    | transition _ new now hallowed => exact .inr hallowed
    | exhausted _ stepId hrunning =>
      right
      show ExecutionStatus.failed ∈ allowedExecutionTransitions row.status
      rw [hrunning]
      decide
  · cases (hwrite : StepWrite id req row row') with
    | attempt => exact .inl rfl
    | transition _ new now error hallowed => exact .inr (.inl hallowed)
    | output => exact .inl rfl

/-- The bulk updates. -/
theorem followsTables_of_sweep {stale : List RowId} (h : WritesBy (Sweep stale) req db db') :
    FollowsTables (fun row => .execution row.executionId ∈ stale) db db' := by
  refine followsTables_of_writesBy h (fun id row row' hwrite => ?_) fun id row row' hwrite => ?_
  · cases hwrite with
    | execution _ _ p now hrunning =>
      right
      show ExecutionStatus.failed ∈ allowedExecutionTransitions row.status
      rw [hrunning]
      decide
  · cases hwrite with
    | step _ _ p now hlisted hunfinished =>
      right
      show StepStatus.failed ∈ allowedStepTransitions row.status ∨ _ ∧ _ ∧ StepStatus.failed = .failed
      cases hstatus : row.status <;>
        simp [hstatus, allowedStepTransitions, hlisted] at hunfinished ⊢

end

/-- Every statement of an entry that starts, cancels, runs or cleans up follows the
tables, on any committed rows; except that the cleanup fails the pending and the queued
steps of the executions that it finds stale. -/
theorem statuses_follow_tables {libs : Libraries} {settings : Settings} {wire : Wire} {entry : Entry}
    (hentry : entry.Writes) (session : SessionRef) (fuel : Nat) (t : Rows Row) (env : Environment) :
    Script.Always (S := engineSignature) World.answer
      (fun req w => FollowsTables
        (fun row => entry = .operation .cleanupStaleExecutions ∧
          .execution row.executionId ∈ staleRows ⟨⟨t, Session.fresh⟩, env⟩)
        w.db (World.answer req w).2.db)
      (entry.program libs settings wire session fuel) ⟨⟨t, Session.fresh⟩, env⟩ := by
  rcases hentry with htransitions | rfl
  · exact (always_rowWrite htransitions (synced_opened t)).imp fun _ _ h => followsTables_of_writes h _
  · refine always_sweep.imp fun req w h => ?_
    obtain ⟨hexecution, hstep⟩ := followsTables_of_sweep h
    refine ⟨hexecution, fun id row row' hrow hrow' => ?_⟩
    rcases hstep id row row' hrow hrow' with hsame | hallowed | ⟨hlisted, hmove⟩
    · exact .inl hsame
    · exact .inr (.inl hallowed)
    · exact .inr (.inr ⟨⟨rfl, hlisted⟩, hmove⟩)

/-- A workflow with a webhook.  The branch of its condition is `null`, so that its run
is stuck before the second step, and the webhook commits it so. -/
def stuckHook : Workflow :=
  { plainWorkflow [rawStep "check" .condition [("false_branch", .null)] [],
      rawStep "later" .transform [] ["check"]] with webhookPath := some "hook" }

/-- The world in which its webhook is called. -/
def hookWorld : World :=
  ⟨⟨Rows.ofList [⟨.workflow 1, stuckHook⟩], Session.fresh⟩,
    plainEnvironment (fun _ _ => .ok [("result", .bool true)])⟩

/-- The request. -/
def callHook : Entry := .trigger (.webhook hookRequest)

/-- The database after it. -/
def stuckRows : Rows Row :=
  ((callHook.program plainLibraries {} plainWire 0 0).run hookWorld).2.db.committed

/-- Two hours later. -/
def laterWorld : World :=
  ⟨⟨stuckRows, Session.fresh⟩, { plainEnvironment (fun _ _ => .ok []) with clock := fun _ => 7200000000 }⟩

/-- The cleanup runs on these rows as the theorem says, and there is a statement that
fails the pending step. -/
theorem statuses_follow_tables_stuck :
    Script.Always (S := engineSignature) World.answer
      (fun req w => FollowsTables
        (fun row => Entry.operation .cleanupStaleExecutions = .operation .cleanupStaleExecutions ∧
          .execution row.executionId ∈ staleRows laterWorld)
        w.db (World.answer req w).2.db)
      (Entry.program plainLibraries {} plainWire 0 0 (.operation .cleanupStaleExecutions))
      laterWorld ∧ staleRows laterWorld = [.execution 3] :=
  ⟨statuses_follow_tables (.inr rfl) 0 0 stuckRows _, by decide +kernel⟩

/-- Not every change of a status is a move of the tables. -/
theorem not_statuses_follow_tables :
    ¬ ∀ t, (machine plainLibraries {} plainWire Entry.Writes).Reaches (fun _ _ => True) (.idle ∅)
        (.idle t) →
      ∀ entry : Entry, entry.Writes → ∀ session fuel env, Script.Always (S := engineSignature)
        World.answer (fun req w => FollowsTables (fun _ => False) w.db (World.answer req w).2.db)
        (entry.program plainLibraries {} plainWire session fuel) ⟨⟨t, Session.fresh⟩, env⟩ := by
  intro hall
  have hreaches : (machine plainLibraries {} plainWire Entry.Writes).Reaches (fun _ _ => True)
      (.idle ∅) (.idle stuckRows) := by
    have hcalled : (machine plainLibraries {} plainWire Entry.Writes).Reaches (fun _ _ => True)
        (.busy (callHook.program plainLibraries {} plainWire 0 0) hookWorld) (.idle stuckRows) :=
      Serial.reaches_run (Script.always_of_forall (fun _ _ => trivial) _ _)
    exact .head (.between (leaves_workflow 1 stuckHook))
      (.head (.enter ⟨⟨callHook, 0, 0, .inl trivial, rfl⟩, rfl⟩) hcalled)
  let status : Db → Option StepStatus := fun db =>
    (db.view (.step 5)).map (fun row : StepExecution => row.status)
  have hfollows := hall stuckRows hreaches (.operation .cleanupStaleExecutions) (.inr rfl) 0 0
    laterWorld.env
  have hkept : Script.Always (S := engineSignature) World.answer
      (fun req w => ¬ (status w.db = some .pending ∧
        status (World.answer req w).2.db = some .failed))
      (Entry.program plainLibraries {} plainWire 0 0 (.operation .cleanupStaleExecutions))
      laterWorld := by
    refine hfollows.imp fun req w h => ?_
    rintro ⟨hpending, hfailed⟩
    rcases Option.map_eq_some_iff.mp hpending with ⟨row, hrow, hbefore⟩
    rcases Option.map_eq_some_iff.mp hfailed with ⟨row', hrow', hafter⟩
    have hmove := h.step 5 row row' hrow hrow'
    rw [hbefore, hafter] at hmove
    simp [allowedStepTransitions] at hmove
  revert hkept
  decide +kernel

end WorkflowEngine

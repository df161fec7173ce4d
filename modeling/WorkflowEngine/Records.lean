import WorkflowEngine.Engine
import WorkflowEngine.Lib.Serial
import WorkflowEngine.Stepping

/-!
# The records of executions and steps

The engine is a machine that runs one entry after another (`WorkflowEngine.Lib.Serial`),
so that the states in the middle of a run are reached too.  A property of single rows
that new rows have and every write keeps holds in all of them.

Two such properties are what a reader of the records relies on: which of the columns
`completed_at`, `duration_ms`, `error` and `output_data` are set.  `ExecutionCoherent` and
`StepCoherent` say this, and both are broken by writes of the engine.  The conditions on
requests leave out these writes and no others.
-/

namespace WorkflowEngine

open Py Orm Interact

/-! ## The engine as a machine -/

/-- The rows of runs stay as they are, or go with their workflow.  Workflows and
deliveries come, change and go. -/
def Leaves (t t' : Rows Row) : Prop :=
  ∀ k, OfRun k → ∀ row, Rows.row t' k = some row → Rows.row t k = some row

/-- The engine with the entries that may run, in any surroundings. -/
@[reducible] def machine (libs : Libraries) (settings : Settings) (wire : Wire)
    (offers : Entry → Prop) : Serial engineSignature Raised Unit (Rows Row) World where
  enters t m w := (∃ entry session fuel, offers entry ∧
    m = entry.program libs settings wire session fuel) ∧ w.db = ⟨t, Session.fresh⟩
  answer := World.answer
  leave w := w.db.committed
  between := Leaves

/-- The entries that start executions, cancel them and run steps. -/
def Entry.Transitions : Entry → Prop
  | .trigger _ => True
  | .operation (.cancelExecution _ _) => True
  | .operation (.executeStep _ _) => True
  | _ => False

/-- These entries and the cleanup. -/
def Entry.Writes (entry : Entry) : Prop :=
  entry.Transitions ∨ entry = .operation .cleanupStaleExecutions

/-- What a statement of one of them does to a row. -/
def EngineWrite : Writing := fun k req row row' =>
  RowWrite k req row row' ∨ ∃ stale, Sweep stale k req row row'

section

variable {libs : Libraries} {settings : Settings} {wire : Wire} {session : SessionRef} {fuel : Nat}
  {entry : Entry} {w : World}

-- The rules of `Always` are enough here.  Unfolding it would run the program.
attribute [local irreducible] Script.Always

theorem always_rowWrite (hentry : entry.Transitions) (hw : Synced w.db) :
    Always RowWrite (entry.program libs settings wire session fuel) w := by
  have hwrites : ∀ {J : Db → Prop} {m : Prog Unit}, Stepwise J m w → Always RowWrite m w :=
    fun h => h.always.imp fun _ _ hstep => hstep.1
  cases entry with
  | trigger trigger =>
    exact hwrites (stepwise_handle (nesting_silent libs settings session fuel) session libs settings
      wire hw trigger)
  | operation operation =>
    cases operation with
    | cancelExecution executionId tenantId => exact hwrites (stepwise_cancelExecution hw _ _)
    | executeStep stepExecutionId executionId =>
      exact hwrites (stepwise_bind hw (stepwise_executeStepWith hw
        (fun caller type config ctx => stepRegistry_outside libs settings _ caller type config ctx)
        stepExecutionId executionId) fun _ _ _ _ => stepwise_done _)
    | cleanupStaleExecutions => cases hentry
    | transitionExecution executionId new => cases hentry
    | transitionStep stepExecId new error => cases hentry
  | createWorkflow body tenantId generated => cases hentry
  | updateWorkflow body workflowId tenantId generated => cases hentry
  | deleteWorkflow workflowId tenantId => cases hentry
  | pruneWebhookDeliveries createdAt => cases hentry

theorem always_sweep : Always (Sweep (staleRows w))
    (Entry.program libs settings wire session fuel (.operation .cleanupStaleExecutions)) w :=
  Script.always_bind (always_cleanupStaleExecutions w) fun _ _ _ => Script.always_pure _

theorem always_engineWrite (hentry : entry.Writes) (hw : Synced w.db) :
    Always EngineWrite (entry.program libs settings wire session fuel) w := by
  rcases hentry with htransitions | rfl
  · exact (always_rowWrite htransitions hw).imp fun _ _ h => h.imp fun _ _ _ => Or.inl
  · exact always_sweep.imp fun _ _ h => h.imp fun _ _ _ hsweep => .inr ⟨_, hsweep⟩

end

/-! ## Properties of single rows -/

/-- Every row of a run has the property. -/
def AllRows (Q : (k : RowId) → Row k → Prop) (view : (k : RowId) → Option (Row k)) : Prop :=
  ∀ k, OfRun k → ∀ row, view k = some row → Q k row

/-- New rows have the property, and a write by a request that meets the condition
keeps it. -/
structure RowKept (Q : (k : RowId) → Row k → Prop) (writing : Writing)
    (meets : engineSignature.Req → World → Prop) : Prop where
  created : ∀ k, OfRun k → ∀ row, Created k row → Q k row
  written : ∀ k, OfRun k → ∀ req w row row', meets req w → w.db.view k = some row →
    writing k req row row' → Q k row → Q k row'

section

variable {libs : Libraries} {settings : Settings} {wire : Wire} {offers : Entry → Prop}
  {writing : Writing} {Q : (k : RowId) → Row k → Prop} {meets : engineSignature.Req → World → Prop}

/-- What is committed after a statement was committed or seen before. -/
theorem committed_of_answer {req : engineSignature.Req} {w : World} {k : RowId} {row : Row k}
    (h : Rows.row (World.answer req w).2.db.committed k = some row) :
    Rows.row w.db.committed k = some row ∨ w.db.view k = some row := by
  cases req with
  | env req => exact .inl h
  | db req =>
    by_cases hcommit : req = .commit
    · subst hcommit
      exact .inr h
    · have hsame : (DbState.answer req w.db).2.committed = w.db.committed :=
        DbState.committed_answer hcommit w.db
      exact .inl (hsame ▸ h)

/-- Such a property is an invariant of the machine. -/
theorem inductive_of_rowKept (hkept : RowKept Q writing meets)
    (hwrites : ∀ entry session fuel w, offers entry → Synced w.db →
      Always writing (entry.program libs settings wire session fuel) w) :
    Serial.Inductive (machine libs settings wire offers) meets (fun t => AllRows Q (Rows.row t))
      (fun w => AllRows Q w.db.view ∧ AllRows Q (Rows.row w.db.committed))
      (fun req w => WritesBy writing req w.db (World.answer req w).2.db) where
  enter := by
    rintro t m w ht ⟨⟨entry, session, fuel, hentry, rfl⟩, hopened⟩
    refine ⟨?_, hwrites entry session fuel w hentry ?_⟩
    · rw [hopened, view_opened]
      exact ⟨ht, ht⟩
    · rw [hopened]
      exact synced_opened t
  request := by
    rintro req w ⟨hview, hcommitted⟩ hwritten hmeets
    refine ⟨fun k hrun row hrow => ?_, fun k hrun row hrow => ?_⟩
    · exact (hwritten k hrun).keeps (hkept.created k hrun)
        (fun row row' hbefore hwrite => hkept.written k hrun req w row row' hmeets hbefore hwrite)
        (hview k hrun) row hrow
    · rcases committed_of_answer hrow with hold | hseen
      · exact hcommitted k hrun row hold
      · exact hview k hrun row hseen
  leave := fun h => h.2
  between := fun ht hleaves k hrun row hrow => ht k hrun row (hleaves k hrun row hrow)

/-- It holds of every row that is seen at a moment that is reached from the empty
database. -/
theorem allRows_of_reaches (hkept : RowKept Q writing meets)
    (hwrites : ∀ entry session fuel w, offers entry → Synced w.db →
      Always writing (entry.program libs settings wire session fuel) w)
    {moment : Interact.Moment engineSignature Raised Unit (Rows Row) World}
    (h : (machine libs settings wire offers).Reaches meets (.idle ∅) moment) :
    Serial.Holds (fun t => AllRows Q (Rows.row t)) (fun w => AllRows Q w.db.view) moment := by
  have hempty : AllRows Q (Rows.row (∅ : Rows Row)) := by
    intro k _ row hrow
    cases hrow
  have hholds := (inductive_of_rowKept hkept hwrites).holds hempty h
  cases moment with
  | idle t => exact hholds
  | busy rest w => exact hholds.1

end

/-! ## Executions -/

/-- The columns of an execution that go with its status. -/
structure ExecutionCoherent (row : Execution) : Prop where
  completed_iff : row.completedAt.isSome = true ↔ row.status.terminal = true
  duration : ∀ started completed, row.startedAt = some started → row.completedAt = some completed →
    row.durationMs = some ((completed - started).tdiv 1000)
  error_iff : row.error.isSome = true ↔ row.status = .failed

/-- The statement is not the assignment after a step has used up its attempts, nor the
update of a stale execution; and where it ends an execution, the product in double
precision is the number of whole milliseconds from the start of the execution on. -/
structure EndsExecutionsWell (req : engineSignature.Req) (w : World) : Prop where
  unexhausted : ∀ id stepId, req ≠ assigns (.execution id) (failExhausted stepId)
  fresh : ∀ id p now, req ≠ .db (.updateIf (.execution id) p (failExecution now (.execution id)))
  exact : ∀ id (row : Execution) new now started, w.db.view (.execution id) = some row →
    req = assigns (.execution id) (executionTransition row new now) → new.terminal = true →
    row.startedAt = some started → wholeMilliseconds started now = (now - started).tdiv 1000

/-- The property of the rows of executions, and none of the rows of steps. -/
def ExecutionsCoherent : (k : RowId) → Row k → Prop
  | .execution _ => ExecutionCoherent
  | _ => fun _ => True

theorem ExecutionCoherent.transition {row : Execution} (h : ExecutionCoherent row)
    {new : ExecutionStatus} {now : Time} (hallowed : new ∈ allowedExecutionTransitions row.status)
    (hunfailed : new ≠ .failed) (hexact : new.terminal = true → ∀ started,
      row.startedAt = some started → wholeMilliseconds started now = (now - started).tdiv 1000) :
    ExecutionCoherent (executionTransition row new now row) := by
  have hactive : row.status.terminal = false ∧ row.status ≠ .failed := by
    cases hstatus : row.status <;> simp [hstatus, allowedExecutionTransitions] at hallowed ⊢ <;> rfl
  have hcompleted : row.completedAt = none := by
    have hiff := h.completed_iff
    rw [hactive.1] at hiff
    simpa using hiff
  have herror : row.error = none := by
    have hiff := h.error_iff
    simpa [hactive.2] using hiff
  refine ⟨?_, fun started completed hstarted hnow => ?_, ?_⟩
  · show (if new.terminal then some now else row.completedAt).isSome = true ↔ new.terminal = true
    rw [hcompleted]
    cases new.terminal <;> simp
  · by_cases hterminal : new.terminal = true
    · have hrunning : new ≠ .running := by
        rintro rfl
        cases hterminal
      simp only [executionTransition, hterminal, hrunning, if_true, if_false] at hstarted hnow ⊢
      cases hnow
      rw [hstarted, durationAt, hexact hterminal started hstarted]
    · simp only [executionTransition, hterminal, hcompleted] at hnow
      cases hnow
  · show row.error.isSome = true ↔ new = .failed
    simp [herror, hunfailed]

/-- Every write but the three is one that keeps the columns in line. -/
theorem executionsCoherent_kept : RowKept ExecutionsCoherent EngineWrite EndsExecutionsWell := by
  refine ⟨fun k hrun row hcreated => ?_, fun k hrun req w row row' hmeets hbefore hwrite h => ?_⟩
  · cases k with
    | execution id =>
      rcases hcreated with ⟨workflowId, tenantId, triggerData, replayedFrom, rfl⟩
      exact ⟨by simp [newExecution, ExecutionStatus.terminal], nofun, by simp [newExecution]⟩
    | step id => trivial
    | workflow id => trivial
    | delivery id => trivial
  · cases k with
    | execution id =>
      have hcoherent : ExecutionCoherent row := h
      show ExecutionCoherent row'
      rcases hwrite with hwrite | ⟨stale, hsweep⟩
      · cases (hwrite : ExecutionWrite id req row row') with
        | context _ _ ctx => exact ⟨hcoherent.completed_iff, hcoherent.duration, hcoherent.error_iff⟩
        | transition _ new now hallowed hunfailed =>
          exact hcoherent.transition hallowed hunfailed fun hterminal started hstarted =>
            hmeets.exact id row new now started hbefore rfl hterminal hstarted
        | exhausted _ stepId hrunning => exact absurd rfl (hmeets.unexhausted id stepId)
      · cases hsweep with
        | execution _ _ p now hrunning => exact absurd rfl (hmeets.fresh id p now)
    | step id => trivial
    | workflow id => trivial
    | delivery id => trivial

/-- In every state that is reached by requests that end executions well, in the middle
of a run or between two, the record of every execution is coherent. -/
theorem executions_coherent {libs : Libraries} {settings : Settings} {wire : Wire}
    {moment : Interact.Moment engineSignature Raised Unit (Rows Row) World}
    (h : (machine libs settings wire Entry.Writes).Reaches EndsExecutionsWell (.idle ∅) moment) :
    Serial.Holds (fun t => ∀ id row, Rows.row t (.execution id) = some row → ExecutionCoherent row)
      (fun w => ∀ id row, w.db.view (.execution id) = some row → ExecutionCoherent row) moment := by
  have hholds := allRows_of_reaches executionsCoherent_kept
    (fun _ _ _ _ hentry hw => always_engineWrite hentry hw) h
  cases moment with
  | idle t => exact fun id row hrow => hholds (.execution id) trivial row hrow
  | busy rest w => exact fun id row hrow => hholds (.execution id) trivial row hrow

/-- A workflow comes. -/
theorem leaves_workflow (id : Uuid) (workflow : Workflow) :
    Leaves ∅ (Rows.ofList [⟨.workflow id, workflow⟩]) := by
  intro k hrun row hrow
  have hne : k ≠ .workflow id := by
    rintro rfl
    cases hrun
  rw [Rows.row_ofList_ne hne] at hrow
  cases hrow

/-- A database with one workflow of one step. -/
def oneWorkflow : Rows Row := Rows.ofList [⟨.workflow 1, oneStepWorkflow⟩]

/-- `manual_execute` of this workflow. -/
def executeOne : Entry := .trigger (.manual 1 1 [])

/-- Surroundings in which every executor fails. -/
def failingEnvironment : Environment :=
  plainEnvironment (fun _ _ => .error (.other "RuntimeError" "boom"))

/-- The world in which the entry is entered. -/
def executeWorld (env : Environment) : World := ⟨⟨oneWorkflow, Session.fresh⟩, env⟩

theorem reaches_executeOne {offers : Entry → Prop} (hoffers : offers executeOne) (env : Environment)
    (meets : engineSignature.Req → World → Prop) :
    (machine plainLibraries {} plainWire offers).Reaches meets (.idle ∅)
      (.busy (executeOne.program plainLibraries {} plainWire 0 0) (executeWorld env)) :=
  .head (.between (leaves_workflow 1 oneStepWorkflow))
    (.single (.enter ⟨⟨executeOne, 0, 0, hoffers, rfl⟩, rfl⟩))

/-- Surroundings in which every executor returns, and each reading of the clock is a
second after the one before. -/
def tickingEnvironment : Environment :=
  { plainEnvironment (fun _ _ => .ok [("ok", .bool true)]) with
    clock := fun reading => 1000000 * reading }

/-- The duration between a start and an end, if there are both, has a product in double
precision that is exact. -/
def exactDuration (startedAt completedAt : Option Time) : Bool :=
  match startedAt, completedAt with
  | some started, some completed =>
    decide (wholeMilliseconds started completed = (completed - started).tdiv 1000)
  | _, _ => true

/-- A statement that meets the condition, as far as its effect shows. -/
def endsExecutionsWell? : engineSignature.Req → World → Bool
  | .db (.touch (.execution id) change), w =>
    match w.db.view (.execution id) with
    | none => false
    | some row =>
      match (change row .nothing).2 with
      | none => true
      | some f =>
        decide ((f row).status ≠ .failed) && exactDuration row.startedAt (f row).completedAt
  | .db (.updateIf (.execution _) _ _), _ => false
  | _, _ => true

theorem endsExecutionsWell_of_check {req : engineSignature.Req} {w : World}
    (h : endsExecutionsWell? req w = true) : EndsExecutionsWell req w := by
  refine ⟨fun id stepId heq => ?_, fun id p now heq => ?_,
    fun id row new now started hview heq hterminal hstarted => ?_⟩
  · subst heq
    cases hview : w.db.view (.execution id) with
    | none => simp [endsExecutionsWell?, hview] at h
    | some row => simp [endsExecutionsWell?, hview, failExhausted] at h
  · subst heq
    cases h
  · subst heq
    simp [endsExecutionsWell?, hview, executionTransition, hterminal, exactDuration,
      hstarted] at h
    exact h.2

/-- An execution of the workflow, from its creation to its end: its record is coherent. -/
theorem executions_coherent_completed :
    ∃ t, (machine plainLibraries {} plainWire Entry.Writes).Reaches EndsExecutionsWell
        (.idle ∅) (.idle t) ∧
      (Rows.row t (.execution 2)).map (fun row : Execution =>
        (row.status, row.startedAt, row.completedAt, row.durationMs)) =
          some (.completed, some 0, some 4000000, some 4000) ∧
      ∀ id row, Rows.row t (.execution id) = some row → ExecutionCoherent row := by
  have hwell : Script.Always World.answer (fun req w => endsExecutionsWell? req w = true)
      (executeOne.program plainLibraries {} plainWire 0 0) (executeWorld tickingEnvironment) := by
    decide +kernel
  have hreaches := (reaches_executeOne (show Entry.Writes executeOne from .inl trivial)
    tickingEnvironment EndsExecutionsWell).trans
      (Serial.reaches_run (hwell.imp fun _ _ => endsExecutionsWell_of_check))
  exact ⟨_, hreaches, by decide +kernel, executions_coherent hreaches⟩

/-- Without a condition on the requests, an execution that has failed is reached whose
`completed_at` is not set. -/
theorem not_executions_coherent :
    ¬ ∀ t, (machine plainLibraries {} plainWire Entry.Writes).Reaches (fun _ _ => True)
        (.idle ∅) (.idle t) →
      ∀ id row, Rows.row t (.execution id) = some row → ExecutionCoherent row := by
  intro hall
  have hreaches := (reaches_executeOne (show Entry.Writes executeOne from .inl trivial)
    failingEnvironment fun _ _ => True).trans
      (Serial.reaches_run (Script.always_of_forall (fun _ _ => trivial) _ _))
  have hcoherent := hall _ hreaches 2
  have hfailed : (Rows.row (executeOne.program plainLibraries {} plainWire 0 0 |>.run
      (executeWorld failingEnvironment)).2.db.committed (.execution 2)).map
        (fun row : Execution => (row.status, row.completedAt)) = some (.failed, none) := by
    decide +kernel
  rcases Option.map_eq_some_iff.mp hfailed with ⟨row, hrow, heq⟩
  obtain ⟨hstatus, hcompleted⟩ := Prod.mk.inj heq
  have hset := (hcoherent row hrow).completed_iff.mpr (by rw [hstatus]; rfl)
  rw [hcompleted] at hset
  cases hset

/-! ## Step executions -/

/-- The columns of a step execution that go with its status. -/
structure StepCoherent (row : StepExecution) : Prop where
  error_iff : row.error.isSome = true ↔ row.status = .failed
  completed_iff : row.completedAt.isSome = true ↔ row.status.ended = true
  duration : row.status.ended = true → ∃ started completed, row.startedAt = some started ∧
    row.completedAt = some completed ∧ row.durationMs = some ((completed - started).tdiv 1000)
  running : row.status = .running → row.startedAt.isSome = true
  output : row.outputData.isSome = true → row.status = .completed

/-- The statement does not put a failed step into the queue again; and where it ends an
attempt, the product in double precision is the number of whole milliseconds from the
start of the attempt on. -/
structure EndsAttemptsWell (req : engineSignature.Req) (w : World) : Prop where
  untried : ∀ id loaded now error row,
    req = assigns (.step id) (stepTransition loaded .queued now error) →
    w.db.view (.step id) = some row → row.status ≠ .failed
  exact : ∀ id (row : StepExecution) new now error started, w.db.view (.step id) = some row →
    req = assigns (.step id) (stepTransition row new now error) → new.ended = true →
    row.startedAt = some started → wholeMilliseconds started now = (now - started).tdiv 1000

/-- The property of the rows of steps, and none of the rows of executions. -/
def StepsCoherent : (k : RowId) → Row k → Prop
  | .step _ => StepCoherent
  | _ => fun _ => True

theorem StepCoherent.transition {row : StepExecution} (h : StepCoherent row) {new : StepStatus}
    {now : Time} {error : Option String} (hallowed : new ∈ allowedStepTransitions row.status)
    (herror : error.isSome = true ↔ new = .failed) (huntried : row.status ≠ .failed)
    (hexact : new.ended = true → ∀ started, row.startedAt = some started →
      wholeMilliseconds started now = (now - started).tdiv 1000) :
    StepCoherent (stepTransition row new now error row) := by
  have hactive : row.status.ended = false ∧ row.status ≠ .completed := by
    cases hstatus : row.status <;> simp [hstatus, allowedStepTransitions] at hallowed huntried ⊢ <;> rfl
  have hcompleted : row.completedAt = none := by
    have hiff := h.completed_iff
    rw [hactive.1] at hiff
    simpa using hiff
  have hnoError : row.error = none := by
    have hiff := h.error_iff
    simpa [huntried] using hiff
  have hnoOutput : row.outputData.isSome ≠ true := fun hset => hactive.2 (h.output hset)
  refine ⟨?_, ?_, fun hended => ?_, fun hrunning => ?_, fun hset => absurd hset hnoOutput⟩
  · show (error.or row.error).isSome = true ↔ new = .failed
    rw [hnoError, Option.or_none]
    exact herror
  · show (if new.ended then some now else row.completedAt).isSome = true ↔ new.ended = true
    rw [hcompleted]
    cases new.ended <;> simp
  · -- an attempt ends from `running`
    have hended' : new.ended = true := hended
    have hwas : row.status = .running ∧ new ≠ .running := by
      cases hstatus : row.status <;> cases new <;>
        simp [hstatus, allowedStepTransitions, StepStatus.ended] at hallowed hended' ⊢
    rcases Option.isSome_iff_exists.mp (h.running hwas.1) with ⟨started, hstarted⟩
    refine ⟨started, now, ?_, ?_, ?_⟩
    · simp [stepTransition, hwas.2, hstarted]
    · simp [stepTransition, hended']
    · simp [stepTransition, hended', durationAt, hstarted, hexact hended' started hstarted]
  · have hrunning' : new = .running := hrunning
    simp [stepTransition, hrunning']

theorem stepsCoherent_kept : RowKept StepsCoherent RowWrite EndsAttemptsWell := by
  refine ⟨fun k hrun row hcreated => ?_, fun k hrun req w row row' hmeets hbefore hwrite h => ?_⟩
  · cases k with
    | step id =>
      rcases hcreated with ⟨tenantId, executionId, step, rfl⟩
      exact ⟨by simp [newStepExecution], by simp [newStepExecution, StepStatus.ended], nofun, nofun,
        nofun⟩
    | execution id => trivial
    | workflow id => trivial
    | delivery id => trivial
  · cases k with
    | step id =>
      have hcoherent : StepCoherent row := h
      show StepCoherent row'
      cases (hwrite : StepWrite id req row row') with
      | attempt _ _ attempt =>
        exact ⟨hcoherent.error_iff, hcoherent.completed_iff, hcoherent.duration, hcoherent.running,
          hcoherent.output⟩
      | transition _ new now error hallowed herror =>
        have huntried : row.status ≠ .failed := by
          intro hfailed
          have hqueued : new = .queued := by
            simpa [hfailed, allowedStepTransitions] using hallowed
          subst hqueued
          exact hmeets.untried id row now error row rfl hbefore hfailed
        exact hcoherent.transition hallowed herror huntried fun hended started hstarted =>
          hmeets.exact id row new now error started hbefore rfl hended hstarted
      | output _ _ output hcompleted =>
        exact ⟨hcoherent.error_iff, hcoherent.completed_iff, hcoherent.duration, hcoherent.running,
          fun _ => hcompleted⟩
    | execution id => trivial
    | workflow id => trivial
    | delivery id => trivial

/-- In every state that is reached by requests that end attempts well, in the middle of
a run or between two, the record of every step execution is coherent. -/
theorem steps_coherent {libs : Libraries} {settings : Settings} {wire : Wire}
    {moment : Interact.Moment engineSignature Raised Unit (Rows Row) World}
    (h : (machine libs settings wire Entry.Transitions).Reaches EndsAttemptsWell (.idle ∅) moment) :
    Serial.Holds (fun t => ∀ id row, Rows.row t (.step id) = some row → StepCoherent row)
      (fun w => ∀ id row, w.db.view (.step id) = some row → StepCoherent row) moment := by
  have hholds := allRows_of_reaches stepsCoherent_kept
    (fun _ _ _ _ hentry hw => always_rowWrite hentry hw) h
  cases moment with
  | idle t => exact fun id row hrow => hholds (.step id) trivial row hrow
  | busy rest w => exact fun id row hrow => hholds (.step id) trivial row hrow

/-- A statement that meets the condition, as far as its effect shows. -/
def endsAttemptsWell? : engineSignature.Req → World → Bool
  | .db (.touch (.step id) change), w =>
    match w.db.view (.step id) with
    | none => true
    | some row =>
      match (change row ()).2 with
      | none => true
      | some f => decide (row.status ≠ .failed) && exactDuration row.startedAt (f row).completedAt
  | _, _ => true

theorem endsAttemptsWell_of_check {req : engineSignature.Req} {w : World}
    (h : endsAttemptsWell? req w = true) : EndsAttemptsWell req w := by
  refine ⟨fun id loaded now error row heq hview => ?_,
    fun id row new now error started hview heq hended hstarted => ?_⟩
  · subst heq
    simp [endsAttemptsWell?, hview] at h
    exact h.1
  · subst heq
    simp [endsAttemptsWell?, hview, stepTransition, hended, exactDuration, hstarted] at h
    exact h.2

/-- The step of the execution, from its creation to the end of its attempt: its record is
coherent. -/
theorem steps_coherent_completed :
    ∃ t, (machine plainLibraries {} plainWire Entry.Transitions).Reaches EndsAttemptsWell
        (.idle ∅) (.idle t) ∧
      (Rows.row t (.step 3)).map (fun row : StepExecution =>
        (row.status, row.startedAt, row.completedAt, row.durationMs)) =
          some (.completed, some 2000000, some 3000000, some 1000) ∧
      ∀ id row, Rows.row t (.step id) = some row → StepCoherent row := by
  have hwell : Script.Always World.answer (fun req w => endsAttemptsWell? req w = true)
      (executeOne.program plainLibraries {} plainWire 0 0) (executeWorld tickingEnvironment) := by
    decide +kernel
  have hreaches := (reaches_executeOne (show Entry.Transitions executeOne from trivial)
    tickingEnvironment EndsAttemptsWell).trans
      (Serial.reaches_run (hwell.imp fun _ _ => endsAttemptsWell_of_check))
  exact ⟨_, hreaches, by decide +kernel, steps_coherent hreaches⟩

/-- Surroundings in which the first attempt of a step fails and the second succeeds. -/
def flakyEnvironment : Environment :=
  plainEnvironment (fun events _ =>
    if (invokedCallers events).length = 1 then .error (.other "RuntimeError" "boom") else .ok [])

/-- Without a condition on the requests, a completed step is reached whose `error` is
still set. -/
theorem not_steps_coherent :
    ¬ ∀ t, (machine plainLibraries {} plainWire Entry.Transitions).Reaches (fun _ _ => True)
        (.idle ∅) (.idle t) →
      ∀ id row, Rows.row t (.step id) = some row → StepCoherent row := by
  intro hall
  have hreaches := (reaches_executeOne (show Entry.Transitions executeOne from trivial)
    flakyEnvironment fun _ _ => True).trans
      (Serial.reaches_run (Script.always_of_forall (fun _ _ => trivial) _ _))
  have hcoherent := hall _ hreaches 3
  have hretried : (Rows.row (executeOne.program plainLibraries {} plainWire 0 0 |>.run
      (executeWorld flakyEnvironment)).2.db.committed (.step 3)).map
        (fun row : StepExecution => (row.status, row.error)) = some (.completed, some "boom") := by
    decide +kernel
  rcases Option.map_eq_some_iff.mp hretried with ⟨row, hrow, heq⟩
  obtain ⟨hstatus, herror⟩ := Prod.mk.inj heq
  have hfailed := (hcoherent row hrow).error_iff.mp (by rw [herror]; rfl)
  rw [hstatus] at hfailed
  cases hfailed

end WorkflowEngine

import WorkflowEngine.Operations

/-!
# Programs that work on rows that are there

The functions of the engine change the rows of an execution by assigning
columns of loaded objects, and none of these columns refers to another row.
`Gentle K` is what such a statement on a row of `K` looks like.  An invariant
that `Respects` these statements is kept by every function that sends no
others, and so there is one lemma for each function, with the invariant as a
parameter.
-/

namespace WorkflowEngine

open Py Orm Interact

/-- A statement that reads a row of `K`, or assigns columns of its object that
refer to no other row. -/
def Gentle (K : RowId → Prop) : DbReq Row Memo → Prop
  | .select k _ => K k
  | .refresh k => K k
  | .touch k change => K k ∧ ∀ attrs memo,
      Row.references k (change attrs memo).1.1 = Row.references k attrs ∧
      ∀ f, (change attrs memo).2 = some f → ∀ row, Row.references k (f row) = Row.references k row
  | _ => False

/-- The statements on the rows of `K` keep the invariant. -/
def Respects (K : RowId → Prop) (I : Db → Prop) : Prop :=
  ∀ req db, Gentle K req → I db → I (DbState.answer req db).2

/-- Every run of the program keeps the invariant on the database. -/
abbrev Maintains {α : Type} (I : Db → Prop) (m : Prog α) : Prop :=
  Script.Maintains (S := engineSignature) World.answer (fun w => I w.db) m

section

variable {α β : Type} {K : RowId → Prop} {I : Db → Prop}

theorem run_of_maintains {m : Prog α} {w : World} (hm : Maintains I m) (hw : I w.db) :
    I (m.run w).2.db := hm w hw

theorem maintains_done (result : Except Raised α) : Maintains I (Script.done result) :=
  Script.maintains_done result

theorem maintains_liftExcept (result : Except PyError α) : Maintains I (liftExcept result) :=
  Script.maintains_done _

theorem maintains_bind {m : Prog α} {f : α → Prog β} (hm : Maintains I m)
    (hf : ∀ a, Maintains I (f a)) : Maintains I (m >>= f) := Script.maintains_bind hm hf

theorem maintains_ite {c : Prop} [Decidable c] {m m' : Prog α} (hm : Maintains I m)
    (hm' : Maintains I m') : Maintains I (if c then m else m') := Script.maintains_ite hm hm'

/-- What follows a pure function goes on in the same world, with its result. -/
theorem liftExcept_bind {result : Except PyError α} {f : α → Prog β} {w : World} (hw : I w.db)
    (hf : ∀ a, result = .ok a → I ((f a).run w).2.db) :
    I (Prog.run (liftExcept result >>= f) w).2.db := by
  cases result with
  | ok a => exact hf a rfl
  | error exc => exact hw

/-- `if c: m` before the rest. -/
theorem maintains_when {c : Prop} [Decidable c] {m : Prog α} {rest : Prog β}
    (hm : Maintains I m) (hrest : Maintains I rest) :
    Maintains I (if c then m >>= fun _ => rest else rest) :=
  maintains_ite (maintains_bind hm fun _ => hrest) hrest

theorem maintains_attempt {m : Prog α} (hm : Maintains I m) :
    Maintains I (Script.attempt m : Prog (Except Raised α)) := Script.maintains_attempt hm

/-- What is outside the database does not change it. -/
theorem maintains_env (req : EnvReq) :
    Maintains I (Script.send (S := engineSignature) (.env req)) := fun _ h => h

theorem maintains_rowExists (k : RowId) : Maintains I (rowExists k) := fun _ h => h

theorem maintains_gentle (h : Respects K I) {req : DbReq Row Memo} (hreq : Gentle K req) :
    Maintains I (Script.send (S := engineSignature) (.db req)) :=
  fun w hw => h req w.db hreq hw

theorem maintains_mapped (obj : Option α) : Maintains I (mapped obj) := by
  cases obj with
  | some obj => exact maintains_done _
  | none => exact maintains_done _

theorem maintains_performer (caller : Caller) (step : StepDefinition) (vars : Vars) :
    Maintains I (performer caller step vars) :=
  maintains_bind (maintains_env _) fun _ => maintains_liftExcept _

/-- Such a statement works on one row of `K`. -/
theorem Gentle.key {req : DbReq Row Memo} (h : Gentle K req) :
    req ≠ .commit ∧ ∃ k, req.key? = some k ∧ K k := by
  cases req with
  | select k p => exact ⟨nofun, k, rfl, h⟩
  | refresh k => exact ⟨nofun, k, rfl, h⟩
  | touch k change => exact ⟨nofun, k, rfl, h.1⟩
  | insert k row => cases h
  | delete k => cases h
  | updateIf k p f => cases h
  | selectWhere p => cases h
  | scan p => cases h
  | commit => cases h

/-- Columns that refer to no other row are assigned. -/
theorem gentle_assign {k : RowId} (hk : K k) {f : Row k → Row k}
    (hf : ∀ row, Row.references k (f row) = Row.references k row) :
    Gentle K (.touch k (fun attrs memo => ((f attrs, memo), some f))) := by
  refine ⟨hk, fun attrs memo => ⟨hf attrs, fun g hg row => ?_⟩⟩
  cases hg
  exact hf row

theorem maintains_assignStep (h : Respects K I) {id : Uuid} (hid : K (.step id))
    {f : StepExecution → StepExecution}
    (hf : ∀ row, Row.references (.step id) (f row) = Row.references (.step id) row) :
    Maintains I (assignStep id f) := maintains_gentle h (gentle_assign hid hf)

theorem maintains_assignExecution (h : Respects K I) {id : Uuid} (hid : K (.execution id))
    {f : Execution → Execution}
    (hf : ∀ row, Row.references (.execution id) (f row) = Row.references (.execution id) row) :
    Maintains I (assignExecution id f) := maintains_gentle h (gentle_assign hid hf)

theorem maintains_selectStep (h : Respects K I) {id : Uuid} (hid : K (.step id)) :
    Maintains I (selectStep id) :=
  maintains_gentle h (show Gentle K (.select (.step id) fun _ => true) from hid)

theorem maintains_selectExecution (h : Respects K I) {id : Uuid} (hid : K (.execution id))
    (p : Execution → Bool) : Maintains I (selectExecution id p) :=
  maintains_gentle h (show Gentle K (.select (.execution id) p) from hid)

theorem maintains_refreshExecution (h : Respects K I) {id : Uuid} (hid : K (.execution id)) :
    Maintains I (refreshExecution id) :=
  maintains_gentle h (show Gentle K (.refresh (.execution id)) from hid)

theorem maintains_readStep (h : Respects K I) {id : Uuid} (hid : K (.step id)) :
    Maintains I (readStep id) := by
  apply maintains_bind
  · apply maintains_gentle h
    exact ⟨hid, fun attrs memo => ⟨rfl, fun f hf => by cases hf⟩⟩
  · exact maintains_mapped

theorem maintains_transitionStep (h : Respects K I) {id : Uuid} (hid : K (.step id))
    (new : StepStatus) (error : Option String) : Maintains I (transitionStep id new error) := by
  unfold transitionStep
  apply maintains_bind (maintains_selectStep h hid)
  intro found
  cases found with
  | none => exact maintains_done _
  | some stepExec =>
    apply maintains_bind (maintains_liftExcept _)
    intro _
    apply maintains_bind (maintains_env _)
    intro now
    apply maintains_bind
    · exact maintains_assignStep h hid fun _ => rfl
    · exact fun _ => maintains_done _

theorem maintains_transitionExecutionWith (h : Respects K I) (flush : Flush) {id : Uuid}
    (hid : K (.execution id)) (new : ExecutionStatus) :
    Maintains I (transitionExecutionWith flush id new) := by
  unfold transitionExecutionWith
  apply maintains_bind (maintains_selectExecution h hid _)
  intro found
  cases found with
  | none => exact maintains_done _
  | some execution =>
    apply maintains_bind (maintains_liftExcept _)
    intro _
    apply maintains_bind (maintains_env _)
    intro now
    apply maintains_bind (maintains_liftExcept _)
    intro _
    apply maintains_bind
    · exact maintains_assignExecution h hid fun _ => rfl
    · exact fun _ => maintains_done _

theorem maintains_transitionExecution (h : Respects K I) {id : Uuid} (hid : K (.execution id))
    (new : ExecutionStatus) : Maintains I (transitionExecution id new) :=
  maintains_transitionExecutionWith h flushAccepts hid new

/-- The `context` column refers to no other row. -/
theorem maintains_touchContext (h : Respects K I) {id : Uuid} (hid : K (.execution id))
    (f : Tracked (Dict String Json) → Tracked (Dict String Json)) :
    Maintains I (touchContext id f) := by
  apply maintains_gentle h
  exact ⟨hid, fun attrs memo => ⟨rfl, fun g hg => by cases hg⟩⟩

theorem maintains_flushContext (h : Respects K I) {id : Uuid} (hid : K (.execution id)) :
    Maintains I (flushContext id) := by
  apply maintains_gentle h
  refine ⟨hid, fun attrs memo => ⟨rfl, fun g hg row => ?_⟩⟩
  obtain ⟨v, -, rfl⟩ := Option.map_eq_some_iff.mp hg
  rfl

theorem maintains_mergeStepOutput (h : Respects K I) {id : Uuid} (hid : K (.execution id))
    (stepId : String) (output : Dict String Json) :
    Maintains I (mergeStepOutput id stepId output) := by
  unfold mergeStepOutput
  apply maintains_bind (maintains_selectExecution h hid _)
  intro found
  cases found with
  | none => exact maintains_done _
  | some execution =>
    apply maintains_bind (maintains_liftExcept _)
    intro ctx
    apply maintains_bind (maintains_touchContext h hid _)
    intro _
    exact maintains_bind (maintains_flushContext h hid) fun _ => maintains_done _

/-- The loop of `cancel_execution`. -/
theorem maintains_skipSteps (h : Respects K I) (hsteps : ∀ id, K (.step id)) (ks : List RowId) :
    Maintains I (skipSteps ks) := by
  induction ks with
  | nil => exact maintains_done _
  | cons k ks ih =>
    cases k with
    | step id =>
      unfold skipSteps
      apply maintains_bind (maintains_readStep h (hsteps id))
      intro stepExec
      exact maintains_when (maintains_transitionStep h (hsteps id) _ _) ih
    | workflow id => exact ih
    | execution id => exact ih
    | delivery id => exact ih

/-! ## A walk -/

section

variable {runner : Runner} {session : SessionRef} {id : Uuid}

theorem maintains_attemptStep (h : Respects K I) (hid : K (.execution id)) {stepExecId : Uuid}
    (hstep : K (.step stepExecId)) (hrunner : ∀ caller step vars, Maintains I (runner caller step vars))
    (step : StepDefinition) : Maintains I (attemptStep runner session id step stepExecId) := by
  unfold attemptStep
  apply maintains_bind (maintains_refreshExecution h hid)
  intro found
  apply maintains_bind (maintains_mapped _)
  intro execution
  apply maintains_bind
  · exact maintains_bind (maintains_env _) fun _ => hrunner _ _ _
  · intro output
    apply maintains_bind (maintains_transitionStep h hstep _ _)
    intro _
    apply maintains_bind
    · exact maintains_assignStep h hstep fun _ => rfl
    · exact fun _ => maintains_mergeStepOutput h hid _ _

theorem maintains_retryLoop (h : Respects K I) (hid : K (.execution id)) {stepExecId : Uuid}
    (hstep : K (.step stepExecId)) (hrunner : ∀ caller step vars, Maintains I (runner caller step vars))
    (step : StepDefinition) (maxAttempts remaining attempts : Nat) :
    Maintains I (retryLoop runner session id step stepExecId maxAttempts remaining attempts) := by
  induction remaining generalizing attempts with
  | zero => exact maintains_done _
  | succ remaining ih =>
    unfold retryLoop
    apply maintains_bind
    · exact maintains_assignStep h hstep fun _ => rfl
    intro assigned
    apply maintains_bind (maintains_mapped _)
    intro stepExec
    apply maintains_when (maintains_transitionStep h hstep _ _)
    apply maintains_bind (maintains_transitionStep h hstep _ _)
    intro _
    apply maintains_bind (maintains_attempt (maintains_attemptStep h hid hstep hrunner step))
    intro ended
    cases ended with
    | ok _ => exact maintains_done _
    | error raised =>
      cases raised with
      | outOfFuel => exact maintains_done _
      | exception exc =>
        apply maintains_bind (maintains_transitionStep h hstep _ _)
        intro _
        exact maintains_ite (maintains_done _) (ih _)

/-- The walk works on the execution and on the steps of its `step_map`. -/
theorem maintains_executeDagFrom (h : Respects K I) (hid : K (.execution id))
    {stepMap : Dict String Uuid} (hsteps : ∀ s sid, Dict.get? stepMap s = some sid → K (.step sid))
    (hrunner : ∀ caller step vars, Maintains I (runner caller step vars))
    (stepDefs : Dict String StepDefinition) (order skipped : List String) :
    Maintains I (executeDagFrom runner session id stepDefs stepMap order skipped) := by
  induction order generalizing skipped with
  | nil =>
    exact maintains_bind (maintains_transitionExecution h hid _) fun _ => maintains_done _
  | cons stepId order ih =>
    unfold executeDagFrom
    cases hdef : Dict.get? stepDefs stepId with
    | none => exact maintains_done _
    | some step =>
      cases hsid : Dict.get? stepMap stepId with
      | none => exact maintains_done _
      | some stepExecId =>
        have hstep : K (.step stepExecId) := hsteps stepId stepExecId hsid
        apply maintains_ite
        · exact maintains_bind (maintains_transitionStep h hstep _ _) fun _ => ih _
        · apply maintains_bind
          · apply maintains_bind (maintains_readStep h hstep)
            intro stepExec
            exact maintains_retryLoop h hid hstep hrunner step _ _ _
          · intro success
            apply maintains_ite
            · apply maintains_ite
              · apply maintains_bind (maintains_readStep h hstep)
                intro stepExec
                exact maintains_bind (maintains_liftExcept _) fun _ => ih _
              · exact ih _
            · apply maintains_bind
              · exact maintains_assignExecution h hid fun _ => rfl
              · exact fun _ => maintains_done _

end

/-! ## A start -/

/-- A new row, written and loaded. -/
def inserted (db : Db) (k : RowId) (row : Row k) : Db := (DbState.answer (.insert k row) db).2

/-- The loop that creates the step executions keeps an invariant that each new
step row keeps. -/
theorem createStepExecutions_maintains {tenantId id : Uuid}
    (hinsert : ∀ (db : Db) (step : StepDefinition), I db →
      I (inserted db (.step db.newUuid) (newStepExecution tenantId id step)) ∧
        K (.step db.newUuid))
    (steps : List StepDefinition) {stepMap : Dict String Uuid}
    (hsteps : ∀ s sid, Dict.get? stepMap s = some sid → K (.step sid)) (w : World)
    (hw : I w.db) :
    ∃ stepMap' w', (createStepExecutions tenantId id steps stepMap).run w = (.ok stepMap', w') ∧
      I w'.db ∧ ∀ s sid, Dict.get? stepMap' s = some sid → K (.step sid) := by
  induction steps generalizing stepMap w with
  | nil => exact ⟨stepMap, w, rfl, hw, hsteps⟩
  | cons step steps ih =>
    obtain ⟨hnext, hnew⟩ := hinsert w.db step hw
    have hsteps' : ∀ s sid,
        Dict.get? (Dict.set stepMap step.id w.db.newUuid) s = some sid → K (.step sid) := by
      intro s sid hs
      rw [Dict.get?_set] at hs
      split at hs
      · cases hs
        exact hnew
      · exact hsteps s sid hs
    exact ih hsteps' ⟨inserted w.db (.step w.db.newUuid) (newStepExecution tenantId id step), w.env⟩
      hnext

section

variable {libs : Libraries} {settings : Settings} {workflow : Workflow}
  {parsed : WorkflowDefinition} {runner : Runner} {session : SessionRef}
  {parent : Option Caller} {workflowId tenantId : Uuid} {triggerData : Dict String Json}
  {replayedFrom : Option Uuid} {depth : Int}

/-- A definition that the parser refuses is refused before anything is
written. -/
theorem run_startExecution_refused {exc : PyError}
    (hparse : parseWorkflowDefinition libs settings
      ⟨workflow.name, workflow.triggerType, workflow.steps⟩ = .error exc) (w : World) :
    (startExecution runner session libs settings parent workflowId workflow triggerData tenantId
      replayedFrom depth).run w = (.error (.exception exc), w) := by
  unfold startExecution
  rw [hparse]
  rfl

/-- `start_execution` keeps an invariant that its new rows keep, if the
executors keep it. -/
theorem startExecution_maintains
    (hparse : parseWorkflowDefinition libs settings
      ⟨workflow.name, workflow.triggerType, workflow.steps⟩ = .ok parsed)
    (h : Respects K I) (hrunner : ∀ caller step vars, Maintains I (runner caller step vars))
    (w : World) (hid : K (.execution w.db.newUuid))
    (hbegin : I (inserted w.db (.execution w.db.newUuid)
      (newExecution workflowId tenantId triggerData replayedFrom)))
    (hinsert : ∀ (db : Db) (step : StepDefinition), I db →
      I (inserted db (.step db.newUuid) (newStepExecution tenantId w.db.newUuid step)) ∧
        K (.step db.newUuid)) :
    I ((startExecution runner session libs settings parent workflowId workflow triggerData tenantId
      replayedFrom depth).run w).2.db := by
  have hrest : Maintains I (do
      let _ ← transitionExecution w.db.newUuid .running
      let stepMap ← createStepExecutions tenantId w.db.newUuid parsed.steps []
      storeMetadata w.db.newUuid depth tenantId
      executeDag runner session w.db.newUuid parsed stepMap
      let execution ← mapped (← refreshExecution w.db.newUuid)
      return (w.db.newUuid, execution)) := by
    apply maintains_bind (maintains_transitionExecution h hid _)
    intro _ w₁ hw₁
    have hempty : ∀ s sid, Dict.get? ([] : Dict String Uuid) s = some sid → K (.step sid) := by
      intro s sid hs
      cases hs
    obtain ⟨stepMap, w₂, hrun, hw₂, hsteps⟩ :=
      createStepExecutions_maintains hinsert parsed.steps hempty w₁ hw₁
    show I (Prog.run (_ >>= _) w₁).2.db
    rw [Prog.run_bind_ok hrun]
    have hwalk : Maintains I (do
        storeMetadata w.db.newUuid depth tenantId
        executeDag runner session w.db.newUuid parsed stepMap
        let execution ← mapped (← refreshExecution w.db.newUuid)
        return (w.db.newUuid, execution)) := by
      apply maintains_bind
      · apply maintains_bind (maintains_touchContext h hid _)
        exact fun _ => maintains_bind (maintains_flushContext h hid) fun _ => maintains_done _
      · intro _
        apply maintains_bind (maintains_executeDagFrom h hid hsteps hrunner _ _ _)
        intro _
        apply maintains_bind (maintains_refreshExecution h hid)
        exact fun _ => maintains_bind (maintains_mapped _) fun _ => maintains_done _
    exact hwalk w₂ hw₂
  unfold startExecution
  rw [hparse]
  exact hrest ⟨inserted w.db (.execution w.db.newUuid)
    (newExecution workflowId tenantId triggerData replayedFrom), { w.env with
      events := w.env.events ++ [.started w.db.newUuid parent] }⟩ hbegin

end

end

end WorkflowEngine

import WorkflowEngine.Operations
import WorkflowEngine.Plain

/-!
# Final statuses under concurrency

Every transition is validated against the status that the session has loaded.
If that is still the status of the row when the row is updated, a final status
is never overwritten, because the tables allow no transition out of one.  But
another session may commit between the select and the update, and the update
goes by primary key.

`fresh` is the condition that this does not happen, and `finality` the
evolution that the operations keep in runs of fresh statements.
-/

namespace WorkflowEngine

open Py Orm Interact

/-- The status column of a row. -/
def statusOf : (k : RowId) → Row k → Option (ExecutionStatus ⊕ StepStatus)
  | .execution _, row => some (.inl row.status)
  | .step _, row => some (.inr row.status)
  | .workflow _, _ => none
  | .delivery _, _ => none

/-- The statuses that are final: the terminal ones of an execution, and
`completed` and `skipped` for a step. -/
def isFinal : ExecutionStatus ⊕ StepStatus → Bool
  | .inl status => status.terminal
  | .inr status => decide (status = .completed ∨ status = .skipped)

/-- The row has this final status. -/
def HasFinal (k : RowId) (row : Option (Row k)) (status : ExecutionStatus ⊕ StepStatus) : Prop :=
  row.bind (statusOf k) = some status ∧ isFinal status = true

/-- Rows keep their final statuses. -/
def finality : Evolution Row where
  rel k row row' := ∀ status, HasFinal k row status → HasFinal k row' status
  refl _ _ _ h := h
  trans h h' status hfinal := h' status (h status hfinal)

/-- A statement that would write `f row` over `row`, of which the session has
loaded `attrs`: if it changes the status, it finds the one that was loaded. -/
def freshWrite (k : RowId) (attrs row : Row k) (f : Row k → Row k) : Bool :=
  statusOf k (f row) = statusOf k row || statusOf k attrs = statusOf k row

/-- A statement that changes the status of a row finds it with the status that
the session has loaded. -/
def fresh (req : DbReq Row Memo) (st : Db) : Bool :=
  match req with
  | .touch k change =>
    match st.loaded k, st.view k with
    | some (attrs, memo), some row =>
      match (change attrs memo).2 with
      | some f => freshWrite k attrs row f
      | none => true
    | _, _ => true
  | .updateIf k p f =>
    match st.loaded k, st.view k with
    | some (attrs, _), some row => !p row || freshWrite k attrs row f
    | _, _ => true
  | _ => true

/-! ## The statements -/

/-- The program keeps final statuses, in runs of fresh statements. -/
abbrev KeepsFinal {α : Type} (m : Prog α) : Prop := Sound finality fresh m

/-- A write that keeps the status. -/
theorem rel_of_statusOf_eq {k : RowId} {row row' : Row k} (h : statusOf k row' = statusOf k row) :
    finality.rel k (some row) (some row') := by
  intro status hfinal
  refine ⟨?_, hfinal.2⟩
  show statusOf k row' = some status
  rw [h]
  exact hfinal.1

/-- A fresh write that was validated: no final status was loaded. -/
theorem rel_of_freshWrite {k : RowId} {attrs row : Row k} {f : Row k → Row k}
    (hfresh : freshWrite k attrs row f = true)
    (hvalid : ∀ status, statusOf k attrs = some status → isFinal status = false) :
    finality.rel k (some row) (some (f row)) := by
  intro status hfinal
  have hrow : statusOf k row = some status := hfinal.1
  unfold freshWrite at hfresh
  rw [Bool.or_eq_true, decide_eq_true_iff, decide_eq_true_iff] at hfresh
  rcases hfresh with hkept | hloaded
  · exact rel_of_statusOf_eq hkept status hfinal
  · have hopen := hvalid status (hloaded.trans hrow)
    rw [hfinal.2] at hopen
    cases hopen

/-- The condition on the flush of a change. -/
theorem freshWrite_of_fresh {st : Db} {k : RowId}
    {change : Row k → Memo k → (Row k × Memo k) × Option (Row k → Row k)} {attrs row : Row k}
    {memo : Memo k} {f : Row k → Row k} (hfresh : fresh (.touch k change) st = true)
    (hloaded : st.loaded k = some (attrs, memo)) (hview : st.view k = some row)
    (hchange : (change attrs memo).2 = some f) : freshWrite k attrs row f = true := by
  simpa only [fresh, hloaded, hview, hchange] using hfresh

theorem keepsFinal_select (k : RowId) (p : Row k → Bool) :
    KeepsFinal (Script.send (S := engineSignature) (.db (.select k p))) :=
  sound_read fun st k' => DbState.view_answer_select st k k' p

theorem keepsFinal_commit : KeepsFinal commit :=
  sound_read fun st k => DbState.view_commit st k

theorem keepsFinal_selectWhere (p : (k : RowId) → Row k → Bool) :
    KeepsFinal (selectWhere p) :=
  sound_read fun st k => DbState.view_loadAll st _ k

/-- A change of columns other than the status. -/
theorem keepsFinal_touch (k : RowId)
    (change : Row k → Memo k → (Row k × Memo k) × Option (Row k → Row k))
    (h : ∀ attrs memo row f, (change attrs memo).2 = some f →
      statusOf k (f row) = statusOf k row) :
    KeepsFinal (Script.send (S := engineSignature) (.db (.touch k change))) :=
  sound_db fun _ _ => rel_touch fun attrs memo row f _ _ hchange =>
    rel_of_statusOf_eq (h attrs memo row f hchange)

theorem keepsFinal_mapped {α : Type} (obj : Option α) : KeepsFinal (mapped obj) := by
  cases obj with
  | some obj => exact sound_done _
  | none => exact sound_done _

theorem keepsFinal_readStep (id : Uuid) : KeepsFinal (readStep id) := by
  unfold readStep
  apply sound_bind
  · exact keepsFinal_touch _ _ fun _ _ _ _ hchange => by cases hchange
  · exact fun obj => keepsFinal_mapped obj

/-! ## The transitions -/

theorem not_terminal_of_valid {current new : ExecutionStatus}
    (h : validateExecutionTransition current new = .ok ()) : current.terminal = false := by
  unfold validateExecutionTransition at h
  split at h
  · rename_i hallowed
    cases current <;> simp [allowedExecutionTransitions] at hallowed <;> rfl
  · cases h

theorem not_settled_of_valid {current new : StepStatus}
    (h : validateStepTransition current new = .ok ()) :
    isFinal (.inr current) = false := by
  unfold validateStepTransition at h
  split at h
  · rename_i hallowed
    cases current <;> simp [allowedStepTransitions] at hallowed <;> rfl
  · cases h

/-- The update that follows a validation of the loaded status. -/
theorem ensures_validated {k : RowId} {attrs : Row k} {memo : Memo k} (f : Row k → Row k)
    {s : Session Row Memo} (hloaded : s.identity.lookup k = some (attrs, memo))
    (hopen : ∀ status, statusOf k attrs = some status → isFinal status = false) (t : Rows Row) :
    Ensures finality fresh (fun _ _ _ => True)
      (Script.send (S := engineSignature)
        (.db (.touch k (fun attrs memo => ((f attrs, memo), some f)))) : Prog (Option (Row k)))
      s t := by
  apply Ensures.send_intro
  intro t' _ hfresh
  refine ⟨rel_touch ?_, trivial⟩
  intro attrs' memo' row g hloaded' hview hchange
  apply rel_of_freshWrite (freshWrite_of_fresh hfresh hloaded' hview hchange)
  -- the object that is flushed is the one that was validated
  have hsame : some (attrs', memo') = some (attrs, memo) := hloaded'.symm.trans hloaded
  cases hsame
  exact hopen

/-- `transition_execution` validates the status that it has loaded. -/
theorem keepsFinal_transitionExecutionWith (flush : Flush) (id : Uuid) (new : ExecutionStatus) :
    KeepsFinal (transitionExecutionWith flush id new) := by
  intro s t
  unfold transitionExecutionWith
  apply Ensures.select_bind
  · exact fun s' t' _ => trivial
  · intro execution memo s' t' _ hselected
    show Ensures finality fresh _
      (liftExcept (validateExecutionTransition execution.status new) >>= _) s' t'
    cases hvalid : validateExecutionTransition execution.status new with
    | error e => trivial
    | ok _ =>
      show Ensures finality fresh _ (utcNow >>= _) s' t'
      apply Ensures.env_bind
      intro now
      show Ensures finality fresh _ (liftExcept (flush execution new now) >>= _) _ _
      cases flush execution new now with
      | error e => trivial
      | ok _ =>
        show Ensures finality fresh _ (assignExecution id _ >>= _) _ _
        apply Ensures.bind_sound
        · apply ensures_validated _ hselected.loaded
          intro status hstatus
          cases hstatus
          exact not_terminal_of_valid hvalid
        · exact fun assigned => sound_done _

/-- So does `transition_step`. -/
theorem keepsFinal_transitionStep (id : Uuid) (new : StepStatus) (error : Option String) :
    KeepsFinal (transitionStep id new error) := by
  intro s t
  unfold transitionStep
  apply Ensures.select_bind
  · exact fun s' t' _ => trivial
  · intro stepExec memo s' t' _ hselected
    show Ensures finality fresh _
      (liftExcept (validateStepTransition stepExec.status new) >>= _) s' t'
    cases hvalid : validateStepTransition stepExec.status new with
    | error e => trivial
    | ok _ =>
      show Ensures finality fresh _ (utcNow >>= _) s' t'
      apply Ensures.env_bind
      intro now
      apply Ensures.bind_sound
      · apply ensures_validated _ hselected.loaded
        intro status hstatus
        cases hstatus
        exact not_settled_of_valid hvalid
      · exact fun assigned => sound_done _

/-! ## The operations -/

theorem keepsFinal_liftExcept {α : Type} (result : Except PyError α) :
    KeepsFinal (liftExcept result) := sound_done _

theorem keepsFinal_assignStep (id : Uuid) (f : StepExecution → StepExecution)
    (h : ∀ row, (f row).status = row.status) : KeepsFinal (assignStep id f) := by
  apply keepsFinal_touch
  intro attrs memo row g hchange
  cases hchange
  show some (Sum.inr (f row).status) = some (Sum.inr row.status)
  rw [h row]

theorem keepsFinal_mergeStepOutput (id : Uuid) (stepId : String) (output : Dict String Json) :
    KeepsFinal (mergeStepOutput id stepId output) := by
  unfold mergeStepOutput
  apply sound_bind (keepsFinal_select _ _)
  intro found
  cases found with
  | none => exact sound_done _
  | some execution =>
    apply sound_bind (keepsFinal_liftExcept _)
    intro ctx
    apply sound_bind
    · exact keepsFinal_touch _ _ fun _ _ _ _ hchange => by cases hchange
    · intro _
      apply sound_bind _ fun _ => sound_done _
      apply keepsFinal_touch
      intro attrs memo row f hchange
      -- a flush of the context writes no other column
      obtain ⟨v, -, rfl⟩ := Option.map_eq_some_iff.mp hchange
      rfl

theorem keepsFinal_skipSteps (ks : List RowId) : KeepsFinal (skipSteps ks) := by
  induction ks with
  | nil => exact sound_done _
  | cons k ks ih =>
    cases k with
    | step id =>
      show KeepsFinal (readStep id >>= _)
      apply sound_bind (keepsFinal_readStep id)
      intro stepExec
      dsimp only
      apply sound_ite
      · exact sound_bind (keepsFinal_transitionStep id _ _) fun _ => ih
      · exact ih
    | workflow id => exact ih
    | execution id => exact ih
    | delivery id => exact ih

theorem keepsFinal_cancelExecution (executionId tenantId : Uuid) :
    KeepsFinal (cancelExecution executionId tenantId) := by
  unfold cancelExecution
  apply sound_bind (keepsFinal_select _ _)
  intro found
  cases found with
  | none => exact sound_done _
  | some execution =>
    apply sound_bind (keepsFinal_selectWhere _)
    intro steps
    apply sound_bind (keepsFinal_transitionExecutionWith _ executionId _)
    intro _
    exact sound_bind (keepsFinal_skipSteps steps) fun _ => keepsFinal_commit

section

variable (libs : Libraries) (settings : Settings) (start : Start)

-- The rules of `Ensures` are enough here.  Unfolding it would run the program.
attribute [local irreducible] Ensures

/-- No executor of the registry writes a row when the step task runs it: the
input that `get_step_input` builds holds no tenant. -/
theorem keepsFinal_stepRegistry (caller : Caller) (type : StepType) (config context : Dict String Json) :
    KeepsFinal (stepRegistry libs settings start caller type config (getStepInput context)) := by
  cases type with
  | http =>
    show KeepsFinal (HttpExecutor.execute libs config _)
    unfold HttpExecutor.execute
    apply sound_bind (keepsFinal_liftExcept _)
    intro request
    exact sound_bind (sound_env _) fun response => keepsFinal_liftExcept _
  | transform => exact keepsFinal_liftExcept _
  | condition => exact keepsFinal_liftExcept _
  | delay =>
    show KeepsFinal (DelayExecutor.execute config)
    unfold DelayExecutor.execute
    split
    · exact keepsFinal_liftExcept _
    · split
      · exact keepsFinal_liftExcept _
      · apply sound_ite (keepsFinal_liftExcept _)
        apply sound_ite (keepsFinal_liftExcept _)
        exact sound_bind (sound_env _) fun _ => sound_done _
  | subWorkflow =>
    show KeepsFinal (SubWorkflowExecutor.execute libs settings start caller config _)
    have htenant : tenantVar (getStepInput context) = .error (.other "KeyError" "_tenant_id") := rfl
    obtain ⟨e, he⟩ := SubWorkflowExecutor.execute_of_tenantVar htenant libs settings start caller
      config
    rw [he]
    exact keepsFinal_liftExcept _

theorem keepsFinal_finishStep (stepExecId executionId : Uuid) (type : StepType)
    (stepExec : StepExecution) (execution : Execution) :
    KeepsFinal (finishStep libs settings start stepExecId executionId type stepExec execution) := by
  unfold finishStep finishStepWith
  apply sound_bind (keepsFinal_stepRegistry libs settings start _ type _ _)
  intro output
  apply sound_bind (keepsFinal_transitionStep stepExecId _ _)
  intro _
  apply sound_bind
  · exact keepsFinal_assignStep stepExecId _ fun _ => rfl
  · intro _
    apply sound_bind (keepsFinal_mergeStepOutput executionId _ output)
    intro _
    exact sound_bind keepsFinal_commit fun _ => sound_done _

theorem keepsFinal_runStepTask (stepExecId executionId : Uuid) (stepExec : StepExecution)
    (execution : Execution) :
    KeepsFinal (runStepTask libs settings start stepExecId executionId stepExec execution) := by
  unfold runStepTask runStepTaskWith
  apply sound_bind (keepsFinal_transitionStep stepExecId _ _)
  intro _
  split
  · exact sound_done _
  · rename_i type _
    apply sound_bind (sound_attempt (keepsFinal_finishStep libs settings start _ _ type _ _))
    intro ended
    cases ended with
    | ok output => exact sound_done _
    | error raised =>
      cases raised with
      | outOfFuel => exact sound_done _
      | exception exc =>
        show KeepsFinal (failStepTask stepExecId stepExec.attempt exc)
        unfold failStepTask
        apply sound_bind
        · exact keepsFinal_assignStep stepExecId _ fun _ => rfl
        · intro _
          apply sound_bind (keepsFinal_transitionStep stepExecId _ _)
          intro _
          exact sound_bind keepsFinal_commit fun _ => sound_done _

theorem keepsFinal_executeStep (stepExecutionId executionId : String) :
    KeepsFinal (executeStep libs settings start stepExecutionId executionId) := by
  unfold executeStep executeStepWith
  apply sound_bind (keepsFinal_liftExcept _)
  intro seUuid
  apply sound_bind (keepsFinal_liftExcept _)
  intro exUuid
  apply sound_bind (keepsFinal_select _ _)
  intro foundStep
  cases foundStep with
  | none => exact sound_done _
  | some stepExec =>
    apply sound_bind (keepsFinal_select _ _)
    intro found
    cases found with
    | none => exact sound_done _
    | some execution => exact keepsFinal_runStepTask libs settings start _ _ stepExec execution

end

/-! ## Cleaning up -/

/-- A bulk update loads nothing, so that each row is updated in a session with
the same loaded objects. -/
theorem ensures_updateEach {p : (k : RowId) → Row k → Bool} {f : (k : RowId) → Row k → Row k}
    {s : Session Row Memo}
    (h : ∀ st : Db, st.session.identity = s.identity → ∀ k row, st.view k = some row →
      p k row = true → fresh (.updateIf k (p k) (f k)) st = true →
      finality.rel k (some row) (some (f k row))) (ks : List RowId) (t : Rows Row) :
    Ensures finality fresh (fun _ _ _ => True) (updateEach p f ks) s t := by
  induction ks generalizing s t with
  | nil => trivial
  | cons k ks ih =>
    show Ensures finality fresh _ (Script.send (S := engineSignature) _ >>= _) s t
    apply Ensures.bind_intro
    apply Ensures.send_intro
    intro t' _ hfresh
    refine ⟨rel_updateIf fun row hview hp => h ⟨t', s⟩ rfl k row hview hp hfresh, ?_⟩
    apply ih
    intro st hst
    apply h st
    rw [hst, DbState.identity_answer_updateIf]

theorem ensures_updateWhere {p : (k : RowId) → Row k → Bool} {f : (k : RowId) → Row k → Row k}
    {s : Session Row Memo}
    (h : ∀ st : Db, st.session.identity = s.identity → ∀ k row, st.view k = some row →
      p k row = true → fresh (.updateIf k (p k) (f k)) st = true →
      finality.rel k (some row) (some (f k row))) (t : Rows Row) :
    Ensures finality fresh (fun _ _ _ => True) (updateWhere p f) s t := by
  unfold updateWhere
  apply Ensures.bind_intro
  apply Ensures.send_intro
  intro t' _ _
  exact ⟨fun k => finality.refl k _, ensures_updateEach h _ _⟩

/-- The update of the step executions tests their statuses itself. -/
theorem keepsFinal_failSteps (stale : List RowId) (now : Time) :
    KeepsFinal (updateWhere (isUnfinished stale) (failStep now)) := by
  intro s t
  apply ensures_updateWhere
  intro st _ k row _ hp _ status hfinal
  cases k with
  | step id =>
    obtain ⟨hstatus, hfinal⟩ := hfinal
    cases hstatus
    have hopen : row.status ∈ [StepStatus.pending, .running, .queued] := by
      simpa [isUnfinished] using (Bool.and_eq_true_iff.mp hp).2
    rcases hstatus : row.status with _ | _ | _ | _ | _ | _ <;>
      simp [hstatus, isFinal] at hopen hfinal
  | workflow id => cases hp
  | execution id => cases hp
  | delivery id => cases hp

/-- The update of the executions goes by the keys that the `select` has found,
and this has loaded them as running. -/
theorem ensures_failExecutions {stale : List RowId} {s : Session Row Memo}
    (hrunning : ∀ id, .execution id ∈ stale → ∃ attrs memo,
      s.identity.lookup (.execution id) = some (attrs, memo) ∧
        Execution.status attrs = .running) (now : Time) (t : Rows Row) :
    Ensures finality fresh (fun _ _ _ => True)
      (updateWhere (isListed stale) (failExecution now)) s t := by
  apply ensures_updateWhere
  intro st hst k row hview hp hfresh
  cases k with
  | execution id =>
    obtain ⟨attrs, memo, hloaded, hstatus⟩ := hrunning id (of_decide_eq_true hp)
    have hloaded' : st.loaded (.execution id) = some (attrs, memo) := by
      show st.session.identity.lookup _ = _
      rw [hst, hloaded]
    have hwrite : freshWrite (.execution id) attrs row (failExecution now _) = true := by
      simpa only [fresh, hloaded', hview, hp, Bool.not_true, Bool.false_or] using hfresh
    apply rel_of_freshWrite hwrite
    intro status hloadedStatus
    cases hloadedStatus
    show attrs.status.terminal = false
    rw [hstatus]
    rfl
  | workflow id => cases hp
  | step id => cases hp
  | delivery id => cases hp

theorem ensures_cleanupStaleExecutions (t : Rows Row) :
    Ensures finality fresh (fun _ _ _ => True) cleanupStaleExecutions Session.fresh t := by
  unfold cleanupStaleExecutions
  apply Ensures.env_bind
  intro before
  apply Ensures.env_bind
  intro now
  apply Ensures.bind_intro
  apply Ensures.send_intro
  intro t' _ _
  let st : Db := ⟨t', Session.fresh⟩
  let stale := st.matching (isStale (before - staleThreshold))
  refine ⟨fun k => ?_, ?_⟩
  · show finality.rel k _ ((st.loadAll stale).view k)
    rw [DbState.view_loadAll]
    exact finality.refl k _
  · show Ensures finality fresh _ (if stale.isEmpty then _ else _) _ _
    split
    · trivial
    · apply Ensures.bind_sound
      · apply ensures_failExecutions
        intro id hmem
        obtain ⟨row, hview, hp⟩ := DbState.mem_matching.mp hmem
        refine ⟨row, _, DbState.loaded_loadAll (rfl : st.loaded _ = none) hview hmem, ?_⟩
        exact of_decide_eq_true (Bool.and_eq_true_iff.mp hp).1
      · intro _
        apply sound_bind (keepsFinal_failSteps stale now)
        intro _
        exact sound_bind keepsFinal_commit fun _ => sound_done _

/-! ## Several operations at once -/

section

-- As above: no operation is run.
attribute [local irreducible] Ensures

/-- Every operation keeps final statuses, in runs of fresh statements. -/
theorem ensures_operation (libs : Libraries) (settings : Settings) (start : Start)
    (operation : Operation) (t : Rows Row) :
    Ensures finality fresh (fun _ _ _ => True) (operation.program libs settings start)
      Session.fresh t := by
  cases operation with
  | cancelExecution executionId tenantId =>
    exact keepsFinal_cancelExecution executionId tenantId _ _
  | cleanupStaleExecutions =>
    exact (ensures_cleanupStaleExecutions t).bind_sound fun _ => sound_done _
  | executeStep stepExecutionId executionId =>
    exact sound_bind (keepsFinal_executeStep libs settings start _ _) (fun _ => sound_done _) _ _
  | transitionExecution executionId new =>
    exact sound_bind (keepsFinal_transitionExecutionWith _ executionId new)
      (fun _ => keepsFinal_commit) _ _
  | transitionStep stepExecId new error =>
    exact sound_bind (keepsFinal_transitionStep stepExecId new error)
      (fun _ => keepsFinal_commit) _ _

end

/-- In every run of operations whose statements meet `C`, a final status that
is committed stays. -/
def FinalStatusesStay (C : DbReq Row Memo → Db → Bool) (libs : Libraries) (settings : Settings)
    (start : Start) : Prop :=
  ∀ (ι : Type) [DecidableEq ι] (operations : ι → Operation) (t : Rows Row) (P Q : EnginePool ι),
    Pool.Runs C (operationPool libs settings start operations t) P → Pool.Runs C P Q →
    ∀ k status, HasFinal k (Rows.row P.committed k) status →
      HasFinal k (Rows.row Q.committed k) status

/-- Final statuses stay in every run of fresh statements. -/
theorem finalStatusesStay_fresh (libs : Libraries) (settings : Settings) (start : Start) :
    FinalStatusesStay fresh libs settings start := by
  intro ι _ operations t P Q hrunsP hruns k status hfinal
  have hkeeps : Keeps finality fresh (fun _ _ _ => True)
      (operationPool libs settings start operations t) := by
    apply keeps_of_ensures
    · exact fun i => rfl
    · intro i
      exact (ensures_operation libs settings start (operations i) t).mono
        fun _ _ _ _ _ _ => trivial
  have hrely : Rely finality P.committed Q.committed := ((hkeeps.runs hrunsP).1.runs hruns).2
  exact hrely k status hfinal

/-! ## A step that is completed and then skipped -/

/-- A running execution 1 with a queued step 2. -/
def queuedRows : Rows Row :=
  Rows.ofList
    [⟨.execution 1, { newExecution 1 1 [] none with status := .running, startedAt := some 0 }⟩,
      ⟨.step 2, { newStepExecution 1 1 (plainStep "check" .transform [] [] check_length) with
        status := .queued, inputData := [("expression", .str "a")] }⟩]

/-- A worker runs the step while the execution is cancelled. -/
def cancelRace : Fin 2 → Operation
  | 0 => .executeStep "00000000-0000-0000-0000-000000000002" "00000000-0000-0000-0000-000000000001"
  | 1 => .cancelExecution 1 1

/-- The two operations on these rows.  Neither starts a nested execution. -/
def racePool : EnginePool (Fin 2) :=
  operationPool plainLibraries {} (fun _ _ _ _ _ _ => Script.raise .outOfFuel) cancelRace queuedRows

/-- The committed status of the step after some turns whose statements meet `C`. -/
def racedStatus (C : DbReq Row Memo → Db → Bool) (turns : List (Fin 2)) :
    Option (ExecutionStatus ⊕ StepStatus) :=
  (racePool.play C stillAnswer turns).bind
    fun P => (Rows.row P.committed (.step 2)).bind (statusOf (.step 2))

/-- Two moments of a run. -/
theorem exists_runs_of_racedStatus {C : DbReq Row Memo → Db → Bool} {turns turns' : List (Fin 2)}
    {status status' : ExecutionStatus ⊕ StepStatus} (h : racedStatus C turns = some status)
    (h' : racedStatus C (turns ++ turns') = some status') :
    ∃ P Q, Pool.Runs C racePool P ∧ Pool.Runs C P Q ∧
      (Rows.row P.committed (.step 2)).bind (statusOf (.step 2)) = some status ∧
      (Rows.row Q.committed (.step 2)).bind (statusOf (.step 2)) = some status' := by
  obtain ⟨P, hplayP, hstatus⟩ := Option.bind_eq_some_iff.mp h
  obtain ⟨Q, hplay, hstatus'⟩ := Option.bind_eq_some_iff.mp h'
  rw [Pool.play_append, hplayP] at hplay
  exact ⟨P, Q, Pool.runs_of_play hplayP, Pool.runs_of_play hplay, hstatus, hstatus'⟩

/-- The worker first, and then the cancellation: a run of fresh statements, in
which the step stays completed. -/
theorem finalStatusesStay_worker_first :
    ∃ P Q, Pool.Runs fresh racePool P ∧ Pool.Runs fresh P Q ∧
      HasFinal (.step 2) (Rows.row P.committed (.step 2)) (.inr .completed) ∧
      HasFinal (.step 2) (Rows.row Q.committed (.step 2)) (.inr .completed) := by
  have hworker : racedStatus fresh (List.replicate 13 0) = some (.inr .completed) := by
    decide +kernel
  have hboth : racedStatus fresh (List.replicate 13 0 ++ List.replicate 8 1) =
      some (.inr .completed) := by
    decide +kernel
  obtain ⟨P, Q, hrunsP, hruns, hstatus, -⟩ := exists_runs_of_racedStatus hworker hboth
  have hfinal : HasFinal (.step 2) (Rows.row P.committed (.step 2)) (.inr .completed) :=
    ⟨hstatus, rfl⟩
  exact ⟨P, Q, hrunsP, hruns, hfinal,
    finalStatusesStay_fresh _ _ _ _ cancelRace queuedRows P Q hrunsP hruns _ _ hfinal⟩

/-- The cancellation reads the step as queued, the worker completes it and
commits, and the cancellation writes `skipped` over `completed`. -/
theorem not_finalStatusesStay :
    ¬ FinalStatusesStay (fun _ _ => true) plainLibraries {}
      (fun _ _ _ _ _ _ => Script.raise .outOfFuel) := by
  intro h
  have hworker : racedStatus (fun _ _ => true) ([1, 1] ++ List.replicate 13 0) =
      some (.inr .completed) := by
    decide +kernel
  have hboth : racedStatus (fun _ _ => true) ([1, 1] ++ List.replicate 13 0 ++ List.replicate 8 1) =
      some (.inr .skipped) := by
    decide +kernel
  obtain ⟨P, Q, hrunsP, hruns, hstatus, hstatus'⟩ := exists_runs_of_racedStatus hworker hboth
  have hfinal := h (Fin 2) cancelRace queuedRows P Q hrunsP hruns (.step 2) _ ⟨hstatus, rfl⟩
  cases hstatus'.symm.trans hfinal.1

end WorkflowEngine

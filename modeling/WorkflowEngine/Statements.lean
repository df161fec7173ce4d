import WorkflowEngine.Writes

/-!
# The statements on one row

The functions of the engine that work on an execution or on a step execution send
statements on its row alone.  `RowStatement` is what each of these statements does, and
an invariant `Admits` a row when they keep it.  With this there is one lemma for each
function, whatever is kept.
-/

namespace WorkflowEngine

open Py Orm Interact

/-- A statement on a row of a run: the row is left or written, and nothing else
changes. -/
structure RowStatement (k : RowId) (req : engineSignature.Req) (db db' : Db) : Prop where
  synced : Synced db'
  others : ∀ k', k' ≠ k → db'.view k' = db.view k' ∧ db'.loaded k' = db.loaded k'
  row : db'.view k = db.view k ∨ ∃ row row',
    db.view k = some row ∧ db'.view k = some row' ∧ RowWrite k req row row'

theorem RowStatement.writes {k : RowId} {req : engineSignature.Req} {db db' : Db}
    (h : RowStatement k req db db') : Writes req db db' := by
  refine writesBy_row (k := k) (fun k' hk' => (h.others k' hk').1) fun _ => ?_
  rcases h.row with hsame | ⟨row, row', hbefore, hafter, hwrite⟩
  · rw [hsame]
    exact .same _
  · rw [hbefore, hafter]
    exact .write hwrite

section

variable {k : RowId} {req : engineSignature.Req} {db : Db}

theorem rowStatement_refl (h : Synced db) : RowStatement k req db db :=
  ⟨h, fun _ _ => ⟨rfl, rfl⟩, .inl rfl⟩

/-- The object gets other attributes, which are in sync with its row. -/
theorem rowStatement_load (h : Synced db) {attrs row : Row k} (hrow : db.view k = some row)
    (hsync : InSync k attrs row) (memo : Memo k) : RowStatement k req db (db.load k attrs memo) :=
  ⟨h.load hrow hsync memo, fun _ hk => ⟨rfl, DbState.loaded_load_ne _ _ _ hk⟩, .inl rfl⟩

/-- The row is written, and its object with it. -/
theorem rowStatement_put (h : Synced db) {attrs row row' : Row k} (hrow : db.view k = some row)
    (hsync : InSync k attrs row') (memo : Memo k) (hwrite : RowWrite k req row row') :
    RowStatement k req db ((db.load k attrs memo).write k (some row')) := by
  refine ⟨h.put hsync memo, fun k' hk' => ⟨DbState.view_write_ne _ _ hk', ?_⟩,
    .inr ⟨row, row', hrow, DbState.view_write_self _ _ _, hwrite⟩⟩
  rw [DbState.loaded_write]
  exact DbState.loaded_load_ne _ _ _ hk'

/-- A `select` by primary key loads the row, or nothing. -/
theorem rowStatement_select (h : Synced db) (p : Row k → Bool) :
    RowStatement k req db (DbState.answer (.select k p) db).2 := by
  cases hview : db.view k with
  | none =>
    rw [DbState.answer_select_none (by simp [hview])]
    exact rowStatement_refl h
  | some row =>
    by_cases hp : p row = true
    · cases hloaded : db.loaded k with
      | none =>
        rw [DbState.answer_select_new hview hp hloaded]
        exact rowStatement_load h hview (InSync.refl k row) _
      | some obj =>
        rw [DbState.answer_select_loaded hview hp hloaded]
        exact rowStatement_refl h
    · have hnone : ∀ row', db.view k = some row' → p row' = false := by
        intro row' hrow'
        rw [hview] at hrow'
        cases hrow'
        exact Bool.eq_false_iff.mpr hp
      rw [DbState.answer_select_none hnone]
      exact rowStatement_refl h

theorem rowStatement_refresh (h : Synced db) :
    RowStatement k req db (DbState.answer (.refresh k) db).2 := by
  cases hview : db.view k with
  | none =>
    simp only [DbState.answer, hview]
    exact rowStatement_refl h
  | some row =>
    rw [DbState.answer_refresh hview]
    exact rowStatement_load h hview (InSync.refl k row) _

/-- What a `select` finds is in sync with the row. -/
theorem exists_of_selected (h : Synced db) (hrun : OfRun k) {p : Row k → Bool} {attrs : Row k}
    (hanswer : (DbState.answer (.select k p) db).1 = some attrs) :
    ∃ row, db.view k = some row ∧ p row = true ∧ InSync k attrs row := by
  rcases DbState.exists_of_answer_select hanswer with ⟨row, hrow, hp, hattrs⟩
  refine ⟨row, hrow, hp, ?_⟩
  rcases hattrs with rfl | ⟨memo, hloaded⟩
  · exact InSync.refl k _
  · rcases h k hrun attrs memo hloaded with ⟨row', hrow', hsync⟩
    rw [hrow] at hrow'
    cases hrow'
    exact hsync

/-- A loaded object is worked on: with or without a write, row and object stay in
sync. -/
theorem rowStatement_touch (h : Synced db) (hrun : OfRun k)
    {change : Row k → Memo k → (Row k × Memo k) × Option (Row k → Row k)}
    (hsilent : ∀ attrs memo row, db.loaded k = some (attrs, memo) → InSync k attrs row →
      (change attrs memo).2 = none → InSync k (change attrs memo).1.1 row)
    (hput : ∀ attrs memo row f, db.loaded k = some (attrs, memo) → db.view k = some row →
      InSync k attrs row → (change attrs memo).2 = some f →
      InSync k (change attrs memo).1.1 (f row) ∧ RowWrite k req row (f row)) :
    RowStatement k req db (DbState.answer (.touch k change) db).2 := by
  cases hloaded : db.loaded k with
  | none =>
    have hanswer : (DbState.answer (.touch k change) db).2 = db := by
      simp only [DbState.answer, hloaded]
    rw [hanswer]
    exact rowStatement_refl h
  | some obj =>
    rcases obj with ⟨attrs, memo⟩
    rcases h k hrun attrs memo hloaded with ⟨row, hrow, hsync⟩
    cases hchanged : (change attrs memo).2 with
    | none =>
      have hchange : change attrs memo = ((change attrs memo).1, none) := Prod.ext rfl hchanged
      rw [DbState.answer_touch_silent hloaded hchange]
      exact rowStatement_load h hrow (hsilent attrs memo row hloaded hsync hchanged) _
    | some f =>
      have hwritten := hput attrs memo row f hloaded hrow hsync hchanged
      have hchange : change attrs memo = ((change attrs memo).1, some f) := Prod.ext rfl hchanged
      rw [DbState.answer_touch hloaded hrow hchange]
      exact rowStatement_put h hrow hwritten.1 _ hwritten.2

end

/-- The statements on a row keep an invariant. -/
structure Admits (J : Db → Prop) (k : RowId) : Prop where
  synced : ∀ {db}, J db → Synced db
  keeps : ∀ {req db db'}, J db → RowStatement k req db db' → J db'

section

variable {J : Db → Prop} {w : World}

theorem Admits.stepwise {k : RowId} (h : Admits J k) (hw : J w.db) {req : DbReq Row Memo}
    (hstatement : RowStatement k (.db req) w.db (DbState.answer req w.db).2) :
    Stepwise J (Script.send (S := engineSignature) (.db req)) w :=
  stepwise_db ⟨hstatement.writes, h.keeps hw hstatement⟩

/-- Columns of a loaded object are assigned. -/
theorem Admits.assign {k : RowId} (h : Admits J k) (hw : J w.db) (hrun : OfRun k) {f : Row k → Row k}
    (hf : ∀ attrs row, w.db.view k = some row → InSync k attrs row →
      InSync k (f attrs) (f row) ∧ RowWrite k (assigns k f) row (f row)) :
    Stepwise J (Script.send (S := engineSignature) (assigns k f)) w := by
  apply h.stepwise hw
  refine rowStatement_touch (h.synced hw) hrun (fun _ _ _ _ _ hnone => nomatch hnone) ?_
  intro attrs memo row g _ hrow hsync hg
  cases hg
  exact hf attrs row hrow hsync

theorem Admits.select {k : RowId} (h : Admits J k) (hw : J w.db) (p : Row k → Bool) :
    Stepwise J (Script.send (S := engineSignature) (.db (.select k p))) w :=
  h.stepwise hw (rowStatement_select (h.synced hw) p)

/-! ## On a step execution -/

variable {sid : Uuid}

theorem stepwise_assignStep (hadmits : Admits J (.step sid)) (hw : J w.db)
    {f : StepExecution → StepExecution}
    (hf : ∀ row, w.db.view (.step sid) = some row → StepWrite sid (assigns (.step sid) f) row (f row)) :
    Stepwise J (assignStep sid f) w :=
  hadmits.assign hw trivial fun _ row hrow hsync => ⟨congrArg f hsync, hf row hrow⟩

/-- Reading the object changes nothing. -/
theorem stepwise_readStep (hadmits : Admits J (.step sid)) (hw : J w.db) :
    Stepwise J (readStep sid) w := by
  refine stepwise_bind hw ?_ fun obj _ _ _ => stepwise_mapped obj
  apply hadmits.stepwise hw
  exact rowStatement_touch (k := .step sid) (hadmits.synced hw) trivial
    (fun _ _ _ _ hsync _ => hsync) fun _ _ _ _ _ _ _ hsome => nomatch hsome

/-- What a `select` of a step execution finds is its row, and stays it. -/
theorem view_of_selectStep (h : Synced w.db) {stepExec : StepExecution} {w' : World}
    (hrun : (selectStep sid).run w = (.ok (some stepExec), w')) :
    w.db.view (.step sid) = some stepExec ∧ w'.db.view = w.db.view := by
  have hanswer : (DbState.answer (.select (.step sid) fun _ => true) w.db).1 = some stepExec :=
    Except.ok.inj (congrArg Prod.fst hrun)
  have hdb : w'.db = (DbState.answer (.select (.step sid) fun _ => true) w.db).2 :=
    congrArg (fun r => r.2.db) hrun.symm
  rcases exists_of_selected (k := .step sid) h trivial hanswer with ⟨row, hrow, -, hsync⟩
  refine ⟨hrow.trans (congrArg some (Eq.symm hsync)), ?_⟩
  rw [hdb]
  exact funext fun k => DbState.view_answer_select _ _ k _

theorem stepwise_transitionStep (hadmits : Admits J (.step sid)) (hw : J w.db) {new : StepStatus}
    {error : Option String} (herror : error.isSome = true ↔ new = .failed) :
    Stepwise J (transitionStep sid new error) w := by
  unfold transitionStep
  refine stepwise_bind hw (hadmits.select hw _) fun found w₁ hfound hw₁ => ?_
  cases found with
  | none => exact stepwise_done _
  | some stepExec =>
    have hview := view_of_selectStep (hadmits.synced hw) hfound
    apply stepwise_liftExcept_bind
    intro _ hvalid
    refine stepwise_bind hw₁ (stepwise_env hw₁ _) fun now w₂ hnow hw₂ => ?_
    have hsame : w₂.db = w₁.db := by
      cases hnow
      rfl
    refine stepwise_bind hw₂ ?_ fun _ _ _ _ => stepwise_done _
    apply stepwise_assignStep hadmits hw₂
    intro row hrow
    rw [hsame, hview.2, hview.1] at hrow
    cases hrow
    exact .transition _ _ _ _ (allowed_of_validateStepTransition hvalid) herror

/-- Where `transition_step` returns, the row has the new status. -/
theorem status_of_transitionStep (h : Synced w.db) {new : StepStatus} {error : Option String}
    {stepExec : StepExecution} {w' : World}
    (hrun : (transitionStep sid new error).run w = (.ok stepExec, w')) :
    ∃ row : StepExecution, w'.db.view (.step sid) = some row ∧ row.status = new := by
  unfold transitionStep at hrun
  rcases Prog.exists_of_run_bind hrun with ⟨found, w₁, hfound, hrun⟩
  cases found with
  | none => cases hrun
  | some loaded =>
    have hview := view_of_selectStep h hfound
    have hloaded : w₁.db.loaded (.step sid) = some (loaded, ()) := by
      have hanswer : (DbState.answer (.select (.step sid) fun _ => true) w.db).1 = some loaded :=
        Except.ok.inj (congrArg Prod.fst hfound)
      rcases DbState.selected_of_answer hanswer with ⟨memo, hselected⟩
      have hdb : w₁.db = (DbState.answer (.select (.step sid) fun _ => true) w.db).2 :=
        congrArg (fun r => r.2.db) hfound.symm
      rw [hdb]
      exact hselected.loaded
    rcases Prog.of_run_liftExcept_bind hrun with ⟨_, -, hrun⟩
    rcases Prog.exists_of_run_bind hrun with ⟨now, w₂, hnow, hrun⟩
    rcases Prog.exists_of_run_bind hrun with ⟨assigned, w₃, hassigned, hrun⟩
    cases hrun
    cases hnow
    let f := stepTransition loaded new (w₁.env.clock w₁.env.readings) error
    have hanswer : (DbState.answer (.touch (.step sid) fun attrs memo => ((f attrs, memo), some f))
        w₁.db).2 = w'.db := congrArg (fun r => r.2.db) hassigned
    rw [← hview.2] at hview
    rw [DbState.answer_touch hloaded hview.1 rfl] at hanswer
    refine ⟨f loaded, ?_, rfl⟩
    rw [← hanswer]
    exact DbState.view_write_self _ _ _

/-! ## On an execution -/

variable {id : Uuid}

/-- What a `select` of an execution finds is its row, but for the `context`. -/
theorem view_of_selectExecution (h : Synced w.db) {p : Execution → Bool} {execution : Execution}
    {w' : World} (hrun : (selectExecution id p).run w = (.ok (some execution), w')) :
    ∃ row : Execution, w'.db.view (.execution id) = some row ∧
      execution = { row with context := execution.context } := by
  have hanswer : (DbState.answer (.select (.execution id) p) w.db).1 = some execution :=
    Except.ok.inj (congrArg Prod.fst hrun)
  have hdb : w'.db = (DbState.answer (.select (.execution id) p) w.db).2 :=
    congrArg (fun r => r.2.db) hrun.symm
  rcases exists_of_selected (k := .execution id) h trivial hanswer with ⟨row, hrow, -, hsync⟩
  refine ⟨row, ?_, hsync⟩
  rw [hdb, DbState.view_answer_select]
  exact hrow

/-- The columns that a transition assigns do not depend on the `context`. -/
theorem executionTransition_sync {attrs row : Execution}
    (hsync : attrs = { row with context := attrs.context }) (new : ExecutionStatus) (now : Time) :
    executionTransition attrs new now = executionTransition row new now := by
  rw [hsync]
  rfl

theorem stepwise_transitionExecutionWith (hadmits : Admits J (.execution id)) (hw : J w.db)
    (flush : Flush) {new : ExecutionStatus} (hnew : new ≠ .failed) :
    Stepwise J (transitionExecutionWith flush id new) w := by
  unfold transitionExecutionWith
  refine stepwise_bind hw (hadmits.select hw _) fun found w₁ hfound hw₁ => ?_
  cases found with
  | none => exact stepwise_done _
  | some execution =>
    rcases view_of_selectExecution (hadmits.synced hw) hfound with ⟨row, hrow, hsync⟩
    apply stepwise_liftExcept_bind
    intro _ hvalid
    have hallowed : new ∈ allowedExecutionTransitions row.status := by
      have hvalid' := allowed_of_validateExecutionTransition hvalid
      rw [hsync] at hvalid'
      exact hvalid'
    refine stepwise_bind hw₁ (stepwise_env hw₁ _) fun now w₂ hnow hw₂ => ?_
    have hsame : w₂.db = w₁.db := by
      cases hnow
      rfl
    apply stepwise_liftExcept_bind
    intro _ _
    refine stepwise_bind hw₂ ?_ fun _ _ _ _ => stepwise_done _
    rw [executionTransition_sync hsync]
    refine hadmits.assign (k := .execution id) hw₂ trivial fun attrs row' hrow' hsync' => ⟨?_, ?_⟩
    · rw [show attrs = _ from hsync']
      rfl
    · rw [hsame, hrow] at hrow'
      cases hrow'
      exact .transition _ _ _ hallowed hnew

theorem stepwise_transitionExecution (hadmits : Admits J (.execution id)) (hw : J w.db)
    {new : ExecutionStatus} (hnew : new ≠ .failed) : Stepwise J (transitionExecution id new) w :=
  stepwise_transitionExecutionWith hadmits hw flushAccepts hnew

/-- The `context` of a loaded execution changes, and may be written. -/
theorem rowStatement_context {db : Db} (h : Synced db) {req : engineSignature.Req}
    {change : Execution → Remembered (Dict String Json) →
      (Execution × Remembered (Dict String Json)) × Option (Execution → Execution)}
    (hattrs : ∀ e memo, ∃ ctx, (change e memo).1.1 = { e with context := ctx })
    (hwrite : ∀ e memo f, (change e memo).2 = some f → ∃ ctx, f = fun row => { row with context := ctx }) :
    RowStatement (.execution id) req db (DbState.answer (.touch (.execution id) change) db).2 := by
  have hsynced : ∀ e memo (row : Execution), InSync (.execution id) e row →
      InSync (.execution id) (change e memo).1.1 row := by
    intro e memo row hsync
    rcases hattrs e memo with ⟨ctx, hctx⟩
    rw [hctx, show e = _ from hsync]
    rfl
  refine rowStatement_touch (k := .execution id) h trivial
    (fun e memo row _ hsync _ => hsynced e memo row hsync) fun e memo row f _ _ hsync hf => ?_
  rcases hwrite e memo f hf with ⟨ctx, rfl⟩
  refine ⟨?_, .context _ _ _⟩
  have hsync' : (change e memo).1.1 = _ := hsynced e memo row hsync
  rw [hsync']
  rfl

theorem rowStatement_touchContext {db : Db} (h : Synced db) {req : engineSignature.Req}
    (f : Tracked (Dict String Json) → Tracked (Dict String Json)) :
    RowStatement (.execution id) req db (DbState.answer (.touch (.execution id) fun e memo =>
      (withContext e (f (contextOf e memo)), none)) db).2 :=
  rowStatement_context h (fun _ _ => ⟨_, rfl⟩) fun _ _ _ hf => nomatch hf

/-- A flush of the `context`. -/
abbrev flushedContext (e : Execution) (memo : Remembered (Dict String Json)) :
    (Execution × Remembered (Dict String Json)) × Option (Execution → Execution) :=
  (withContext e (contextOf e memo).flush,
    ((contextOf e memo).written contextEq).map (fun v row => { row with context := v }))

theorem rowStatement_flushContext {db : Db} (h : Synced db) {req : engineSignature.Req} :
    RowStatement (.execution id) req db
      (DbState.answer (.touch (.execution id) flushedContext) db).2 := by
  refine rowStatement_context h (fun _ _ => ⟨_, rfl⟩) fun e memo f hf => ?_
  rcases Option.map_eq_some_iff.mp hf with ⟨ctx, -, rfl⟩
  exact ⟨ctx, rfl⟩

theorem stepwise_touchContext (hadmits : Admits J (.execution id)) (hw : J w.db)
    (f : Tracked (Dict String Json) → Tracked (Dict String Json)) :
    Stepwise J (touchContext id f) w :=
  hadmits.stepwise hw (rowStatement_touchContext (hadmits.synced hw) f)

theorem stepwise_flushContext (hadmits : Admits J (.execution id)) (hw : J w.db) :
    Stepwise J (flushContext id) w :=
  hadmits.stepwise hw (rowStatement_flushContext (hadmits.synced hw))

theorem stepwise_mergeStepOutput (hadmits : Admits J (.execution id)) (hw : J w.db)
    (stepId : String) (output : Dict String Json) :
    Stepwise J (mergeStepOutput id stepId output) w := by
  unfold mergeStepOutput
  refine stepwise_bind hw (hadmits.select hw _) fun found w₁ _ hw₁ => ?_
  cases found with
  | none => exact stepwise_done _
  | some execution =>
    apply stepwise_liftExcept_bind
    intro ctx _
    refine stepwise_bind hw₁ (stepwise_touchContext hadmits hw₁ _) fun _ w₂ _ hw₂ => ?_
    exact stepwise_bind hw₂ (stepwise_flushContext hadmits hw₂) fun _ _ _ _ => stepwise_done _

end

theorem admits_synced (k : RowId) : Admits Synced k := ⟨fun h => h, fun _ h => h.synced⟩

end WorkflowEngine

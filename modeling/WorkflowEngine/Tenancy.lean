import WorkflowEngine.Gentle
import WorkflowEngine.Nesting
import WorkflowEngine.Workflows

/-!
# Rows of one tenant

Executions, step executions and deliveries carry the id of a tenant and refer to
other rows by foreign keys.  `OneTenant` says that every row that is referred to
is there and has the same tenant.

`Tidy` is this for the rows that a session sees and for the committed rows.
Beside it stands what the code remembers outside the database: the ids of
workflows and of their tenants, in the jobs of the scheduler and in the cache.
`Kept base` adds that every row that was there in `base` is still there and
refers to the same rows, and it is what a run of an execution keeps.
-/

namespace WorkflowEngine

open Py Orm Interact

/-- The tenant of a row. -/
def Row.tenantId : (k : RowId) → Row k → Uuid
  | .workflow _, row => Workflow.tenantId row
  | .execution _, row => Execution.tenantId row
  | .step _, row => StepExecution.tenantId row
  | .delivery _, row => WebhookDelivery.tenantId row

/-- The rows that a row refers to by its foreign keys. -/
def Row.parents : (k : RowId) → Row k → List RowId
  | .workflow _, _ => []
  | .execution _, row => .workflow row.workflowId :: row.replayedFrom.toList.map .execution
  | .step _, row => [.execution row.executionId]
  | .delivery _, row => .workflow row.workflowId :: row.executionId.toList.map .execution

/-- The rows that a row refers to are there, and have its tenant. -/
def OneTenant (view : (k : RowId) → Option (Row k)) : Prop :=
  ∀ k row, view k = some row → ∀ p ∈ Row.parents k row,
    ∃ row', view p = some row' ∧ Row.tenantId p row' = Row.tenantId k row

/-- The two rows refer to the same rows and have the same tenant. -/
def SameRefs {k : RowId} (row row' : Row k) : Prop :=
  Row.references k row = Row.references k row'

namespace SameRefs

variable {k : RowId} {row row' row'' : Row k}

theorem refl (row : Row k) : SameRefs row row := rfl

theorem symm (h : SameRefs row row') : SameRefs row' row := Eq.symm h

theorem trans (h : SameRefs row row') (h' : SameRefs row' row'') : SameRefs row row'' := Eq.trans h h'

theorem tenantId (h : SameRefs row row') : Row.tenantId k row = Row.tenantId k row' := by
  unfold SameRefs at h
  cases k <;> exact (List.cons.inj h).1

theorem parents (h : SameRefs row row') : Row.parents k row = Row.parents k row' := by
  unfold SameRefs at h
  cases k with
  | workflow id => rfl
  | execution id =>
    simp only [Row.references, List.cons.injEq] at h
    simp only [Row.parents, h.2.1, h.2.2]
  | step id =>
    simp only [Row.references, List.cons.injEq] at h
    simp only [Row.parents, h.2.1]
  | delivery id =>
    simp only [Row.references, List.cons.injEq] at h
    simp only [Row.parents, h.2.1, h.2.2]

end SameRefs

/-- Every row of `view` is there in `view'`, and refers to the same rows. -/
def Extends (view view' : (k : RowId) → Option (Row k)) : Prop :=
  ∀ k row, view k = some row → ∃ row', view' k = some row' ∧ SameRefs row row'

namespace Extends

variable {view view' view'' : (k : RowId) → Option (Row k)}

theorem refl (view : (k : RowId) → Option (Row k)) : Extends view view :=
  fun _ row hrow => ⟨row, hrow, SameRefs.refl row⟩

theorem trans (h : Extends view view') (h' : Extends view' view'') : Extends view view'' := by
  intro k row hrow
  rcases h k row hrow with ⟨row', hrow', hsame⟩
  rcases h' k row' hrow' with ⟨row'', hrow'', hsame'⟩
  exact ⟨row'', hrow'', hsame.trans hsame'⟩

/-- Rows that refer to rows that stay refer to them still. -/
theorem oneTenant (h : Extends view view') (hone : OneTenant view)
    (hback : ∀ k row', view' k = some row' → ∃ row, view k = some row ∧ SameRefs row row') :
    OneTenant view' := by
  intro k row' hrow' p hp
  rcases hback k row' hrow' with ⟨row, hrow, hsame⟩
  rcases hone k row hrow p (hsame.parents ▸ hp) with ⟨parent, hparent, htenant⟩
  rcases h p parent hparent with ⟨parent', hparent', hsame'⟩
  exact ⟨parent', hparent', hsame'.tenantId.symm.trans (htenant.trans hsame.tenantId)⟩

end Extends

/-- A workflow id and a tenant id that are remembered outside the database:
the workflow was committed once, and while it is there it has this tenant. -/
structure Remembers (db : Db) (id tenantId : Uuid) : Prop where
  committed : (.workflow id : RowId) ∈ db.committed
  view : ∀ row : Workflow, db.view (.workflow id) = some row → row.tenantId = tenantId
  row : ∀ row : Workflow, Rows.row db.committed (.workflow id) = some row → row.tenantId = tenantId

/-- The rows that the session sees and the committed rows have one tenant, the
loaded objects refer to what their rows refer to, and what is remembered is
right. -/
structure Tidy (known : Uuid → Uuid → Prop) (db : Db) : Prop where
  view : OneTenant db.view
  committed : OneTenant (Rows.row db.committed)
  loaded : ∀ k attrs memo row, db.loaded k = some (attrs, memo) → db.view k = some row →
    SameRefs attrs row
  known : ∀ id tenantId, known id tenantId → Remembers db id tenantId

/-- Tidy, with every row of `base` still there. -/
structure Kept (known : Uuid → Uuid → Prop) (base db : Db) : Prop where
  tidy : Tidy known db
  extended : Extends base.view db.view

namespace Kept

variable {known : Uuid → Uuid → Prop} {base db db' : Db}

theorem refl (h : Tidy known db) : Kept known db db := ⟨h, Extends.refl _⟩

theorem trans (h : Kept known base db) (h' : Kept known db db') : Kept known base db' :=
  ⟨h'.tidy, h.extended.trans h'.extended⟩

/-- An object is loaded that refers to what its row refers to. -/
theorem load (h : Kept known base db) {k : RowId} {attrs : Row k} (memo : Memo k)
    (hattrs : ∀ row, db.view k = some row → SameRefs attrs row) :
    Kept known base (db.load k attrs memo) := by
  refine ⟨⟨h.tidy.view, h.tidy.committed, fun k' attrs' memo' row hloaded hrow => ?_,
    fun id tenantId hknown => ?_⟩, h.extended⟩
  · by_cases heq : k' = k
    · subst heq
      rw [DbState.loaded_load_self] at hloaded
      cases hloaded
      exact hattrs row hrow
    · rw [DbState.loaded_load_ne _ _ _ heq] at hloaded
      exact h.tidy.loaded k' attrs' memo' row hloaded hrow
  · have hremembers := h.tidy.known id tenantId hknown
    exact ⟨hremembers.committed, hremembers.view, hremembers.row⟩

/-- A row is written that refers to what it has referred to. -/
theorem write (h : Kept known base db) {k : RowId} {row row' : Row k}
    (hview : db.view k = some row) (hsame : SameRefs row row') :
    Kept known base (db.write k (some row')) := by
  have hforward : Extends db.view (db.write k (some row')).view := by
    intro k' old hold
    by_cases heq : k' = k
    · subst heq
      rw [hview] at hold
      cases hold
      exact ⟨row', DbState.view_write_self _ _ _, hsame⟩
    · exact ⟨old, (DbState.view_write_ne _ _ heq).trans hold, SameRefs.refl old⟩
  have hback : ∀ k' new, (db.write k (some row')).view k' = some new →
      ∃ old, db.view k' = some old ∧ SameRefs old new := by
    intro k' new hnew
    by_cases heq : k' = k
    · subst heq
      rw [DbState.view_write_self] at hnew
      cases hnew
      exact ⟨row, hview, hsame⟩
    · rw [DbState.view_write_ne _ _ heq] at hnew
      exact ⟨new, hnew, SameRefs.refl new⟩
  refine ⟨⟨hforward.oneTenant h.tidy.view hback, h.tidy.committed,
    fun k' attrs memo new hloaded hnew => ?_, fun id tenantId hknown => ?_⟩,
    h.extended.trans hforward⟩
  · rcases hback k' new hnew with ⟨old, hold, hsame'⟩
    exact (h.tidy.loaded k' attrs memo old hloaded hold).trans hsame'
  · have hremembers := h.tidy.known id tenantId hknown
    refine ⟨hremembers.committed, fun new hnew => ?_, hremembers.row⟩
    rcases hback (.workflow id) new hnew with ⟨old, hold, hsame'⟩
    exact hsame'.tenantId.symm.trans (hremembers.view old hold)

/-- A new row is written whose parents are there and have its tenant. -/
theorem inserted (h : Kept known base db) {k : RowId} (hk : k.uuid = db.newUuid) {row : Row k}
    (hparents : ∀ p ∈ Row.parents k row,
      ∃ row', db.view p = some row' ∧ Row.tenantId p row' = Row.tenantId k row) :
    Kept known base (inserted db k row) := by
  have hnone : db.view k = none := Db.view_newUuid hk
  have hother : ∀ {k'} {old : Row k'}, db.view k' = some old → k' ≠ k := by
    intro k' old hold heq
    subst heq
    rw [hnone] at hold
    cases hold
  have hforward : Extends db.view (WorkflowEngine.inserted db k row).view := by
    intro k' old hold
    refine ⟨old, ?_, SameRefs.refl old⟩
    exact (DbState.view_answer_ne rfl (hother hold) db).trans hold
  refine ⟨⟨fun k' new hnew p hp => ?_, h.tidy.committed, fun k' attrs memo new hloaded hnew => ?_,
    fun id tenantId hknown => ?_⟩, h.extended.trans hforward⟩
  · have hold : ∃ row', db.view p = some row' ∧ Row.tenantId p row' = Row.tenantId k' new := by
      by_cases heq : k' = k
      · subst heq
        have hself : (WorkflowEngine.inserted db k' row).view k' = some row :=
          DbState.view_write_self _ _ _
        rw [hself] at hnew
        cases hnew
        exact hparents p hp
      · have hview : db.view k' = some new := (DbState.view_answer_ne rfl heq db).symm.trans hnew
        exact h.tidy.view k' new hview p hp
    rcases hold with ⟨row', hrow', htenant⟩
    exact ⟨row', (DbState.view_answer_ne rfl (hother hrow') db).trans hrow', htenant⟩
  · by_cases heq : k' = k
    · subst heq
      have hself : (WorkflowEngine.inserted db k' row).view k' = some row :=
        DbState.view_write_self _ _ _
      have hobject : (WorkflowEngine.inserted db k' row).loaded k' = some (row, default) :=
        DbState.loaded_load_self _ _ _ _
      rw [hself] at hnew
      rw [hobject] at hloaded
      cases hnew
      cases hloaded
      rfl
    · refine h.tidy.loaded k' attrs memo new ?_ ?_
      · exact (DbState.loaded_answer_ne rfl heq db).symm.trans hloaded
      · exact (DbState.view_answer_ne rfl heq db).symm.trans hnew
  · have hremembers := h.tidy.known id tenantId hknown
    have hne : (.workflow id : RowId) ≠ k := by
      intro heq
      have hkeys : (.workflow id : RowId) ∈ db.keys :=
        DbState.mem_keys.mpr (.inr hremembers.committed)
      have hlt := Db.lt_newUuid (List.mem_flatMap.mpr ⟨_, hkeys, List.mem_cons_self⟩)
      rw [heq, hk] at hlt
      exact Nat.lt_irrefl _ hlt
    refine ⟨hremembers.committed, fun new hnew => hremembers.view new ?_, hremembers.row⟩
    exact (DbState.view_answer_ne rfl hne db).symm.trans hnew

/-- What the session sees is committed. -/
theorem commit (h : Kept known base db) : Kept known base db.commit := by
  have hview : ∀ k, db.commit.view k = db.view k := DbState.view_commit db
  refine ⟨⟨?_, ?_, fun k attrs memo row hloaded hrow => ?_, fun id tenantId hknown => ?_⟩, ?_⟩
  · rw [show db.commit.view = db.view from funext hview]
    exact h.tidy.view
  · rw [show Rows.row db.commit.committed = db.view from rfl]
    exact h.tidy.view
  · rw [hview] at hrow
    exact h.tidy.loaded k attrs memo row hloaded hrow
  · have hremembers := h.tidy.known id tenantId hknown
    refine ⟨?_, fun row hrow => hremembers.view row ((hview _).symm.trans hrow), hremembers.view⟩
    exact DbState.mem_committed_commit.mpr (DbState.mem_keys.mpr (.inr hremembers.committed))
  · rw [show db.commit.view = db.view from funext hview]
    exact h.extended

/-- The statements of a run that assign columns keep this. -/
theorem respects (known : Uuid → Uuid → Prop) (base : Db) :
    Respects (fun _ => True) (Kept known base) := by
  intro req db hreq h
  cases req with
  | select k p =>
    simp only [DbState.answer]
    cases hview : db.view k with
    | none => exact h
    | some row =>
      dsimp only
      split
      · split
        · exact h
        · refine h.load _ fun row' hrow' => ?_
          rw [hview] at hrow'
          cases hrow'
          rfl
      · exact h
  | refresh k =>
    simp only [DbState.answer]
    cases hview : db.view k with
    | none => exact h
    | some row =>
      refine h.load _ fun row' hrow' => ?_
      rw [hview] at hrow'
      cases hrow'
      rfl
  | touch k change =>
    simp only [DbState.answer]
    cases hloaded : db.loaded k with
    | none => exact h
    | some obj =>
      rcases obj with ⟨attrs, memo⟩
      have hattrs := (hreq.2 attrs memo).1
      have hload : Kept known base
          (db.load k (change attrs memo).1.1 (change attrs memo).1.2) := by
        refine h.load _ fun row hrow => ?_
        exact SameRefs.trans hattrs (h.tidy.loaded k attrs memo row hloaded hrow)
      dsimp only
      split
      · rename_i f row hchange hview
        refine hload.write hview ?_
        exact SameRefs.symm ((hreq.2 attrs memo).2 f hchange row)
      · exact hload
  | insert k row => cases hreq
  | delete k => cases hreq
  | updateIf k p f => cases hreq
  | selectWhere p => cases hreq
  | scan p => cases hreq
  | commit => cases hreq

variable {α : Type} {w : World}

/-- What follows a `select` may use that the answered object refers to what its
row refers to, and that the row satisfies the condition. -/
theorem select_bind {P : Db → Prop} (h : Kept known base w.db) {k : RowId} {p : Row k → Bool}
    {f : Option (Row k) → Prog α}
    (hnone : ∀ w' : World, Kept known base w'.db → P ((f none).run w').2.db)
    (hsome : ∀ (w' : World) attrs row, Kept known base w'.db → w'.db.view k = some row →
      p row = true → SameRefs attrs row → P ((f (some attrs)).run w').2.db) :
    P (Prog.run (Script.send (S := engineSignature) (.db (.select k p)) >>= f) w).2.db := by
  let w' : World := ⟨(DbState.answer (.select k p) w.db).2, w.env⟩
  have hkept : Kept known base w'.db := respects known base (.select k p) w.db trivial h
  show P ((f (DbState.answer (.select k p) w.db).1).run w').2.db
  cases hfound : (DbState.answer (.select k p) w.db).1 with
  | none => exact hnone w' hkept
  | some attrs =>
    rcases DbState.exists_of_answer_select hfound with ⟨row, hview, hp, hattrs⟩
    refine hsome w' attrs row hkept ((DbState.view_answer_select w.db k k p).trans hview) hp ?_
    rcases hattrs with rfl | ⟨memo, hloaded⟩
    · exact SameRefs.refl attrs
    · exact h.tidy.loaded k attrs memo row hloaded hview

end Kept

/-! ## Starting an execution -/

/-- The session sees a row of the tenant. -/
def Owned (db : Db) (k : RowId) (tenantId : Uuid) : Prop :=
  ∃ row, db.view k = some row ∧ Row.tenantId k row = tenantId

theorem Extends.owned {base db : Db} (h : Extends base.view db.view) {k : RowId} {tenantId : Uuid}
    (howned : Owned base k tenantId) : Owned db k tenantId := by
  rcases howned with ⟨row, hrow, htenant⟩
  rcases h k row hrow with ⟨row', hrow', hsame⟩
  exact ⟨row', hrow', hsame.tenantId.symm.trans htenant⟩

/-- The executors keep tenants apart. -/
def RunnerKeeps (known : Uuid → Uuid → Prop) (runner : Runner) : Prop :=
  ∀ base caller step vars, Maintains (Kept known base) (runner caller step vars)

/-- So does the start of a nested execution of a workflow of the tenant. -/
def StartKeeps (known : Uuid → Uuid → Prop) (start : Start) : Prop :=
  ∀ (base : Db) caller workflowId workflow triggerData tenantId depth (w : World),
    Kept known base w.db → Owned w.db (.workflow workflowId) tenantId →
    Kept known base ((start caller workflowId workflow triggerData tenantId depth).run w).2.db

section

variable {known : Uuid → Uuid → Prop} {libs : Libraries} {settings : Settings}
  {session : SessionRef}

/-- With the row of the new execution, which is of the tenant if the workflow and
the execution that is replayed are. -/
theorem Kept.begun {base db : Db} (h : Kept known base db) {workflowId tenantId : Uuid}
    {replayedFrom : Option Uuid} (triggerData : Dict String Json)
    (hworkflow : Owned db (.workflow workflowId) tenantId)
    (hreplayed : ∀ id, replayedFrom = some id → Owned db (.execution id) tenantId) :
    Kept known base (WorkflowEngine.inserted db (.execution db.newUuid)
      (newExecution workflowId tenantId triggerData replayedFrom)) := by
  refine h.inserted rfl fun p hp => ?_
  rcases List.mem_cons.mp hp with rfl | hmem
  · exact hworkflow
  · rcases List.mem_map.mp hmem with ⟨id, hid, rfl⟩
    exact hreplayed id (Option.mem_toList.mp hid)

/-- `start_execution` adds to the new execution rows of its tenant. -/
theorem startExecution_keptBegun {runner : Runner} (hrunner : RunnerKeeps known runner)
    {parent : Option Caller} {workflowId : Uuid} {workflow : Workflow}
    {triggerData : Dict String Json} {tenantId : Uuid} {replayedFrom : Option Uuid} {depth : Int}
    {parsed : WorkflowDefinition} {w : World}
    (hparse : parseWorkflowDefinition libs settings
      ⟨workflow.name, workflow.triggerType, workflow.steps⟩ = .ok parsed)
    (h : Tidy known (inserted w.db (.execution w.db.newUuid)
      (newExecution workflowId tenantId triggerData replayedFrom))) :
    Kept known (inserted w.db (.execution w.db.newUuid)
        (newExecution workflowId tenantId triggerData replayedFrom))
      ((startExecution runner session libs settings parent workflowId workflow triggerData
        tenantId replayedFrom depth).run w).2.db := by
  have hexecution : Owned (inserted w.db (.execution w.db.newUuid)
      (newExecution workflowId tenantId triggerData replayedFrom))
      (.execution w.db.newUuid) tenantId := ⟨_, DbState.view_write_self _ _ _, rfl⟩
  apply startExecution_maintains hparse (Kept.respects known _) (hrunner _) w trivial
  · exact Kept.refl h
  · intro db step hdb
    refine ⟨hdb.inserted rfl fun p hp => ?_, trivial⟩
    cases List.mem_singleton.mp hp
    exact hdb.extended.owned hexecution

/-- `start_execution` adds rows of the tenant, if the workflow and the execution
that is replayed are its own. -/
theorem startExecution_kept {runner : Runner} (hrunner : RunnerKeeps known runner)
    {parent : Option Caller} {workflowId : Uuid} {workflow : Workflow}
    {triggerData : Dict String Json} {tenantId : Uuid} {replayedFrom : Option Uuid} {depth : Int}
    {base : Db} {w : World} (h : Kept known base w.db)
    (hworkflow : Owned w.db (.workflow workflowId) tenantId)
    (hreplayed : ∀ id, replayedFrom = some id → Owned w.db (.execution id) tenantId) :
    Kept known base ((startExecution runner session libs settings parent workflowId workflow
      triggerData tenantId replayedFrom depth).run w).2.db := by
  cases hparse : parseWorkflowDefinition libs settings
      ⟨workflow.name, workflow.triggerType, workflow.steps⟩ with
  | error exc =>
    rw [run_startExecution_refused hparse]
    exact h
  | ok parsed =>
    have hbegun := h.begun triggerData hworkflow hreplayed
    exact hbegun.trans (startExecution_keptBegun hrunner hparse hbegun.tidy)

/-- It returns the id of the execution that it has begun. -/
theorem startExecution_id {runner : Runner} {parent : Option Caller} {workflowId : Uuid}
    {workflow : Workflow} {triggerData : Dict String Json} {tenantId : Uuid}
    {replayedFrom : Option Uuid} {depth : Int} {w w' : World} {started : Uuid × Execution}
    (hrun : (startExecution runner session libs settings parent workflowId workflow triggerData
      tenantId replayedFrom depth).run w = (.ok started, w')) : started.1 = w.db.newUuid := by
  unfold startExecution at hrun
  cases hparse : parseWorkflowDefinition libs settings
      ⟨workflow.name, workflow.triggerType, workflow.steps⟩ with
  | error exc =>
    rw [hparse] at hrun
    cases hrun
  | ok parsed =>
    rw [hparse, Prog.run_bind_ok (Prog.run_liftExcept _ _), Prog.run_bind_ok (run_newUuid _)] at hrun
    revert hrun
    refine Script.returns_bind (Q := fun started : Uuid × Execution => started.1 = w.db.newUuid)
      ?_ _ _ _
    refine fun _ => Script.returns_bind fun _ => Script.returns_bind fun _ =>
      Script.returns_bind fun _ => Script.returns_bind fun _ => Script.returns_bind fun _ =>
      Script.returns_bind fun _ => Script.returns_bind fun execution s b s' hlast => ?_
    cases hlast
    rfl

/-- The session sees the execution that it has begun. -/
theorem startExecution_owned {runner : Runner} (hrunner : RunnerKeeps known runner)
    {parent : Option Caller} {workflowId : Uuid} {workflow : Workflow}
    {triggerData : Dict String Json} {tenantId : Uuid} {replayedFrom : Option Uuid} {depth : Int}
    {w w' : World} {started : Uuid × Execution} (h : Tidy known w.db)
    (hworkflow : Owned w.db (.workflow workflowId) tenantId)
    (hreplayed : ∀ id, replayedFrom = some id → Owned w.db (.execution id) tenantId)
    (hrun : (startExecution runner session libs settings parent workflowId workflow triggerData
      tenantId replayedFrom depth).run w = (.ok started, w')) :
    Owned w'.db (.execution started.1) tenantId := by
  rw [startExecution_id hrun]
  cases hparse : parseWorkflowDefinition libs settings
      ⟨workflow.name, workflow.triggerType, workflow.steps⟩ with
  | error exc =>
    rw [run_startExecution_refused hparse] at hrun
    cases hrun
  | ok parsed =>
    have hbegun := (Kept.refl h).begun triggerData hworkflow hreplayed
    have hended : Kept known _ ((startExecution runner session libs settings parent workflowId
        workflow triggerData tenantId replayedFrom depth).run w).2.db :=
      startExecution_keptBegun hrunner hparse hbegun.tidy
    rw [hrun] at hended
    exact hended.extended.owned ⟨_, DbState.view_write_self _ _ _, rfl⟩

/-- The `sub_workflow` executor looks its workflow up under the tenant that it
hands on. -/
theorem maintains_subWorkflow {start : Start} (hstart : StartKeeps known start) (base : Db)
    (caller : Caller) (config : Dict String Json) (vars : Vars) :
    Maintains (Kept known base)
      (SubWorkflowExecutor.execute libs settings start caller config vars) := by
  unfold SubWorkflowExecutor.execute
  apply maintains_bind (maintains_liftExcept _)
  rintro ⟨currentDepth, workflowId, tenantId⟩ w h
  refine h.select_bind (P := Kept known base) (fun w' h' => h') fun w' workflow row h' hview hp _ => ?_
  have howned : Owned w'.db (.workflow workflowId) tenantId := ⟨row, hview, of_decide_eq_true hp⟩
  dsimp only
  split
  · -- building the trigger data writes nothing
    cases hdata : buildTriggerData libs config vars with
    | error exc => exact h'
    | ok triggerData =>
      show Kept known base (Prog.run (start caller workflowId workflow triggerData tenantId
        (currentDepth + 1) >>= _) w').2.db
      refine Script.maintains_bind_at (I := fun w : World => Kept known base w.db)
        (hstart base caller workflowId workflow triggerData tenantId (currentDepth + 1) w' h'
          howned) ?_
      exact fun _ _ _ hended => hended
  · exact h'

/-- Executions nested in one another. -/
theorem nesting_keeps {others : Runner} (hothers : RunnerKeeps known others) (fuel : Nat) :
    RunnerKeeps known (nesting libs settings others session fuel) := by
  have hwith : ∀ start, StartKeeps known start →
      RunnerKeeps known (nestingWith libs settings others start) := by
    intro start hstart base caller step vars
    unfold nestingWith
    split
    · exact maintains_subWorkflow hstart base caller _ vars
    · exact hothers base caller step vars
  induction fuel with
  | zero =>
    apply hwith
    intro base caller workflowId workflow triggerData tenantId depth w h _
    exact h
  | succ fuel ih =>
    apply hwith
    intro base caller workflowId workflow triggerData tenantId depth w h howned
    exact startExecution_kept ih h howned nofun

theorem performer_keeps (known : Uuid → Uuid → Prop) : RunnerKeeps known performer :=
  fun _ => maintains_performer

end

end WorkflowEngine

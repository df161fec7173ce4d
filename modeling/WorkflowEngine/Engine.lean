import WorkflowEngine.Callers
import WorkflowEngine.Durability

/-!
# The engine over time

The routes, the webhook endpoint, the scheduler, the tasks and the jobs run one
after another on the committed rows.  Between them the process remembers things
of its own: the jobs of the scheduler, whose arguments are texts, and the
workflow objects in the cache.  `Engine.Step` is one such entry, or one change of
what is remembered.

In every state that is reached from the empty database, rows that refer to each
other have one tenant.
-/

namespace WorkflowEngine

open Py Orm Interact

/-! ## Committed rows -/

/-- The committed rows have one tenant, and what is remembered is right. -/
structure Settled (known : Uuid → Uuid → Prop) (t : Rows Row) : Prop where
  oneTenant : OneTenant (Rows.row t)
  committed : ∀ id tenantId, known id tenantId → (.workflow id : RowId) ∈ t
  known : ∀ id tenantId, known id tenantId → ∀ row : Workflow,
    Rows.row t (.workflow id) = some row → row.tenantId = tenantId

theorem view_opened (t : Rows Row) :
    DbState.view (⟨t, Session.fresh⟩ : Db) = Rows.row t :=
  funext (DbState.view_of_pending_empty rfl)

section

variable {known : Uuid → Uuid → Prop} {t : Rows Row}

/-- A session that is opened on settled rows is tidy. -/
theorem Settled.tidy (h : Settled known t) : Tidy known ⟨t, Session.fresh⟩ := by
  have hview := view_opened t
  refine ⟨hview ▸ h.oneTenant, h.oneTenant, fun k attrs memo row hloaded => ?_,
    fun id tenantId hknown => ⟨h.committed id tenantId hknown, fun row hrow => ?_,
      h.known id tenantId hknown⟩⟩
  · cases hloaded
  · rw [hview] at hrow
    exact h.known id tenantId hknown row hrow

theorem Tidy.settled {db : Db} (h : Tidy known db) : Settled known db.committed :=
  ⟨h.committed, fun id tenantId hknown => (h.known id tenantId hknown).committed,
    fun id tenantId hknown => (h.known id tenantId hknown).row⟩

/-- With less known, or a new pair that is right. -/
theorem Settled.remember {known' : Uuid → Uuid → Prop} (h : Settled known t)
    (hknown : ∀ id tenantId, known' id tenantId → known id tenantId ∨
      ∃ workflow : Workflow, Rows.row t (.workflow id) = some workflow ∧
        workflow.tenantId = tenantId) : Settled known' t := by
  refine ⟨h.oneTenant, fun id tenantId hid => ?_, fun id tenantId hid row hrow => ?_⟩
  · rcases hknown id tenantId hid with hold | ⟨workflow, hworkflow, -⟩
    · exact h.committed id tenantId hold
    · by_contra hmem
      rw [Rows.row, AList.lookup_eq_none.mpr hmem] at hworkflow
      cases hworkflow
  · rcases hknown id tenantId hid with hold | ⟨workflow, hworkflow, htenant⟩
    · exact h.known id tenantId hold row hrow
    · rw [hworkflow] at hrow
      cases hrow
      exact htenant

/-- Rewritten rows keep their tenants, refer to fewer rows than before, and to
none that was removed. -/
def KeepsTenants (t : Rows Row) (g : (k : RowId) → Row k → Option (Row k)) : Prop :=
  ∀ k row row', Rows.row t k = some row → g k row = some row' →
    Row.tenantId k row' = Row.tenantId k row ∧ ∀ p ∈ Row.parents k row',
      p ∈ Row.parents k row ∧ ∀ parent, Rows.row t p = some parent → ∃ parent', g p parent = some parent'

/-- Rewritten rows are committed. -/
theorem Settled.rewrites (h : Settled known t) {db db' : Db} (hview : db.view = Rows.row t)
    (hkeys : ∀ k ∈ t, k ∈ db.keys) {g : (k : RowId) → Row k → Option (Row k)}
    (hrewrites : Rewrites g db db') (hg : KeepsTenants t g) :
    Settled known db'.commit.committed := by
  have hrow : ∀ {k row'}, Rows.row db'.commit.committed k = some row' →
      ∃ row, Rows.row t k = some row ∧ g k row = some row' := by
    intro k row' hrow'
    rw [DbState.row_committed_commit, hrewrites.view, hview] at hrow'
    exact Option.bind_eq_some_iff.mp hrow'
  refine ⟨fun k row' hrow' p hp => ?_, fun id tenantId hknown => ?_,
    fun id tenantId hknown row' hrow' => ?_⟩
  · rcases hrow hrow' with ⟨row, hold, hnew⟩
    obtain ⟨htenant, hparents⟩ := hg k row row' hold hnew
    obtain ⟨hmem, hstays⟩ := hparents p hp
    rcases h.oneTenant k row hold p hmem with ⟨parent, hparent, hsame⟩
    rcases hstays parent hparent with ⟨parent', hparent'⟩
    refine ⟨parent', ?_, ?_⟩
    · rw [DbState.row_committed_commit, hrewrites.view, hview, hparent]
      exact hparent'
    · rw [(hg p parent parent' hparent hparent').1, hsame, htenant]
  · apply DbState.mem_committed_commit.mpr
    exact hrewrites.keys (hkeys _ (h.committed id tenantId hknown))
  · rcases hrow hrow' with ⟨row, hold, hnew⟩
    exact (hg _ row row' hold hnew).1.trans (h.known id tenantId hknown row hold)

/-! ## Bulk updates and deletes -/

/-- Rows that stay and refer to the same rows keep their tenants. -/
theorem keepsTenants_of_same {g : (k : RowId) → Row k → Option (Row k)}
    (hg : ∀ k row, ∃ row', g k row = some row' ∧ SameRefs row row') : KeepsTenants t g := by
  intro k row row' _ hnew
  rcases hg k row with ⟨same, hsome, hsame⟩
  rw [hsome] at hnew
  cases hnew
  refine ⟨hsame.tenantId.symm, fun p hp => ⟨hsame.parents ▸ hp, fun parent _ => ?_⟩⟩
  rcases hg p parent with ⟨parent', hparent', -⟩
  exact ⟨parent', hparent'⟩

theorem same_updatedRow {p : (k : RowId) → Row k → Bool} {f : (k : RowId) → Row k → Row k}
    (hf : ∀ k row, SameRefs row (f k row)) (k : RowId) (row : Row k) :
    ∃ row', updatedRow p f k row = some row' ∧ SameRefs row row' := by
  refine ⟨_, rfl, ?_⟩
  split
  · exact hf k row
  · exact SameRefs.refl row

theorem settled_cleanupStaleExecutions (h : Settled known t) (env : Environment) :
    Settled known (cleanupStaleExecutions.run ⟨⟨t, Session.fresh⟩, env⟩).2.db.committed := by
  unfold cleanupStaleExecutions
  rw [Prog.run_bind_ok (run_utcNow _), Prog.run_bind_ok (run_utcNow _), run_selectWhere_bind]
  split
  · show Settled known (DbState.loadAll _ _).committed
    rw [DbState.committed_loadAll]
    exact h
  · rename_i hstale
    let now := env.clock (env.readings + 1)
    let stale := DbState.matching (⟨t, Session.fresh⟩ : Db)
      (isStale (env.clock env.readings - staleThreshold))
    let db : Db := DbState.loadAll ⟨t, Session.fresh⟩ stale
    rcases run_updateWhere (isListed stale) (failExecution now) db
      { env with readings := env.readings + 1 + 1 } with ⟨db₁, hrun₁, hrewrites₁⟩
    rcases run_updateWhere (isUnfinished stale) (failStep now) db₁
      { env with readings := env.readings + 1 + 1 } with ⟨db₂, hrun₂, hrewrites₂⟩
    rw [Prog.run_bind_ok hrun₁, Prog.run_bind_ok hrun₂]
    show Settled known db₂.commit.committed
    have hview : db.view = Rows.row t := by
      funext k
      exact (DbState.view_loadAll _ _ _).trans (congrFun (view_opened t) k)
    have hkeys : ∀ k ∈ t, k ∈ db.keys := by
      intro k hk
      apply DbState.mem_keys.mpr
      right
      rw [DbState.committed_loadAll]
      exact hk
    refine h.rewrites hview hkeys (hrewrites₁.trans hrewrites₂) ?_
    apply keepsTenants_of_same
    intro k row
    have hexecutions : ∀ k row, SameRefs row (failExecution now k row) := by
      intro k row
      cases k <;> rfl
    have hsteps : ∀ k row, SameRefs row (failStep now k row) := by
      intro k row
      cases k <;> rfl
    rcases same_updatedRow hexecutions k row with ⟨row₁, hrow₁, hsame₁⟩
    rcases same_updatedRow hsteps k row₁ with ⟨row₂, hrow₂, hsame₂⟩
    refine ⟨row₂, ?_, hsame₁.trans hsame₂⟩
    rw [hrow₁]
    exact hrow₂

/-- No row refers to a delivery. -/
theorem not_delivery_of_parents {k : RowId} {row : Row k} {id : Uuid} :
    (.delivery id : RowId) ∉ Row.parents k row := by
  cases k <;> simp [Row.parents]

theorem settled_pruneWebhookDeliveries (h : Settled known t) (createdAt : RowId → Time)
    (env : Environment) : Settled known
      ((pruneWebhookDeliveries createdAt).run ⟨⟨t, Session.fresh⟩, env⟩).2.db.committed := by
  let old := isOldDelivery createdAt (env.clock env.readings - webhookRetention)
  unfold pruneWebhookDeliveries
  rw [Prog.run_bind_ok (run_utcNow _)]
  rcases run_deleteWhere old ⟨t, Session.fresh⟩ { env with readings := env.readings + 1 } with
    ⟨db', hrun, hrewrites⟩
  rw [Prog.run_bind_ok hrun]
  show Settled known db'.commit.committed
  refine h.rewrites (view_opened t) (fun k hk => DbState.mem_keys.mpr (.inr hk)) hrewrites ?_
  intro k row row' _ hnew
  have hsame : row = row' := by
    unfold remainingRow at hnew
    split at hnew
    · cases hnew
    · exact Option.some.inj hnew
  subst hsame
  refine ⟨rfl, fun p hp => ⟨hp, fun parent _ => ⟨parent, ?_⟩⟩⟩
  cases p with
  | delivery id => exact absurd hp not_delivery_of_parents
  | workflow id => rfl
  | execution id => rfl
  | step id => rfl

/-! ## Deleting a workflow -/

/-- What the `DELETE` of a workflow makes of a row. -/
def forgottenRow (workflowId : Uuid) (executions : List RowId) (k : RowId) (row : Row k) :
    Option (Row k) :=
  remainingRow (cascades workflowId executions) k (forget executions k row)

/-- The keys of the executions of a workflow. -/
def ListsExecutions (t : Rows Row) (workflowId : Uuid) (executions : List RowId) : Prop :=
  ∀ k, k ∈ executions ↔ ∃ row, Rows.row t k = some row ∧ executionsOf workflowId k row = true

/-- `delete_workflow` of a workflow of the tenant removes it with all that
refers to it. -/
theorem run_deleteWorkflow (t : Rows Row) (workflowId tenantId : Uuid) (env : Environment)
    {workflow : Workflow} (hrow : Rows.row t (.workflow workflowId) = some workflow)
    (htenant : workflow.tenantId = tenantId) :
    ∃ executions db db', ListsExecutions t workflowId executions ∧ db.view = Rows.row t ∧
      db.committed = t ∧ Rewrites (forgottenRow workflowId executions) db db' ∧
      (deleteWorkflow workflowId tenantId).run ⟨⟨t, Session.fresh⟩, env⟩ =
        (.ok (), ⟨db'.commit, env⟩) := by
  let opened : Db := ⟨t, Session.fresh⟩
  let db : Db := opened.load (.workflow workflowId) workflow default
  let executions := db.matching (executionsOf workflowId)
  have hview : db.view = Rows.row t := view_opened t
  rcases run_updateWhere (fun _ _ => true) (forget executions) db env with ⟨db₁, hrun₁, hrewrites₁⟩
  rcases run_deleteWhere (cascades workflowId executions) db₁ env with ⟨db₂, hrun₂, hrewrites₂⟩
  refine ⟨executions, db, db₂, fun k => ?_, hview, rfl, (hrewrites₁.trans hrewrites₂).congr ?_, ?_⟩
  · rw [← hview]
    exact DbState.mem_matching
  · intro k row _
    rfl
  · have hfound : (getTenantWorkflow workflowId tenantId).run ⟨opened, env⟩ =
        (.ok workflow, ⟨db, env⟩) :=
      run_getTenantWorkflow ((congrFun (view_opened t) _).trans hrow) rfl htenant env
    have hscan : Prog.run (Script.send (S := engineSignature) (.db (.scan (executionsOf workflowId))))
        ⟨db, env⟩ = (.ok executions, ⟨db, env⟩) := rfl
    unfold deleteWorkflow
    rw [Prog.run_bind_ok hfound, Prog.run_bind_ok hscan, Prog.run_bind_ok hrun₁,
      Prog.run_bind_ok hrun₂]
    rfl

/-- Without such a workflow it changes nothing. -/
theorem run_deleteWorkflow_missing (t : Rows Row) (workflowId tenantId : Uuid) (env : Environment)
    (hnone : ∀ workflow : Workflow, Rows.row t (.workflow workflowId) = some workflow →
      workflow.tenantId ≠ tenantId) :
    (deleteWorkflow workflowId tenantId).run ⟨⟨t, Session.fresh⟩, env⟩ =
      (.error (.app workflowNotFound), ⟨⟨t, Session.fresh⟩, env⟩) := by
  unfold deleteWorkflow
  apply Prog.run_bind_error
  apply run_getTenantWorkflow_missing
  rw [view_opened]
  exact hnone

/-- A row that is left, and what it was before. -/
theorem forgottenRow_eq_some {workflowId : Uuid} {executions : List RowId} {k : RowId}
    {row row' : Row k} :
    forgottenRow workflowId executions k row = some row' ↔
      row' = forget executions k row ∧ cascades workflowId executions k row' = false := by
  unfold forgottenRow remainingRow
  constructor
  · intro h
    split at h
    · cases h
    · rename_i hleft
      cases h
      exact ⟨rfl, Bool.eq_false_iff.mpr hleft⟩
  · rintro ⟨rfl, hleft⟩
    simp [hleft]

theorem setNull_eq_some {executions : List RowId} {executionId : Option Uuid} {id : Uuid} :
    setNull executions executionId = some id ↔
      executionId = some id ∧ (.execution id : RowId) ∉ executions := by
  unfold setNull
  rw [Option.filter_eq_some_iff]
  simp

/-- What a row that is left refers to is left too. -/
theorem keepsTenants_forgottenRow {workflowId : Uuid} {executions : List RowId}
    (hlists : ListsExecutions t workflowId executions) :
    KeepsTenants t (forgottenRow workflowId executions) := by
  have hexecution : ∀ {id : Uuid} {parent : Execution}, (.execution id : RowId) ∉ executions →
      Rows.row t (.execution id) = some parent →
      ∃ parent', forgottenRow workflowId executions (.execution id) parent = some parent' := by
    intro id parent hnot hparent
    refine ⟨_, forgottenRow_eq_some.mpr ⟨rfl, ?_⟩⟩
    show decide (parent.workflowId = workflowId) = false
    apply decide_eq_false
    intro heq
    exact hnot ((hlists _).mpr ⟨parent, hparent, decide_eq_true heq⟩)
  have hworkflow : ∀ {id : Uuid} {parent : Workflow}, id ≠ workflowId →
      ∃ parent', forgottenRow workflowId executions (.workflow id) parent = some parent' :=
    fun hne => ⟨_, forgottenRow_eq_some.mpr ⟨rfl, decide_eq_false hne⟩⟩
  have hrefs : ∀ {id : Uuid} {executionId : Option Uuid}, id ≠ workflowId →
      ∀ p ∈ (.workflow id :: (setNull executions executionId).toList.map .execution : List RowId),
        p ∈ (.workflow id :: executionId.toList.map .execution : List RowId) ∧
          ∀ parent, Rows.row t p = some parent →
            ∃ parent', forgottenRow workflowId executions p parent = some parent' := by
    intro id executionId hne p hp
    rcases List.mem_cons.mp hp with rfl | hmem
    · exact ⟨List.mem_cons_self, fun parent _ => hworkflow hne⟩
    · rcases List.mem_map.mp hmem with ⟨rid, hrid, rfl⟩
      obtain ⟨hold, hnot⟩ := setNull_eq_some.mp (Option.mem_toList.mp hrid)
      refine ⟨?_, fun parent hparent => hexecution hnot hparent⟩
      exact List.mem_cons_of_mem _ (List.mem_map.mpr ⟨rid, Option.mem_toList.mpr hold, rfl⟩)
  intro k row row' _ hnew
  rcases forgottenRow_eq_some.mp hnew with ⟨rfl, hleft⟩
  cases k with
  | workflow id => exact ⟨rfl, fun p hp => by cases hp⟩
  | execution id => exact ⟨rfl, hrefs (of_decide_eq_false hleft)⟩
  | delivery id => exact ⟨rfl, hrefs (of_decide_eq_false hleft)⟩
  | step id =>
    have hnot : (.execution row.executionId : RowId) ∉ executions := of_decide_eq_false hleft
    refine ⟨rfl, fun p hp => ⟨hp, ?_⟩⟩
    cases List.mem_singleton.mp hp
    exact fun parent hparent => hexecution hnot hparent

theorem settled_deleteWorkflow (h : Settled known t) (workflowId tenantId : Uuid)
    (env : Environment) : Settled known
      ((deleteWorkflow workflowId tenantId).run ⟨⟨t, Session.fresh⟩, env⟩).2.db.committed := by
  by_cases hfound : ∃ workflow : Workflow,
      Rows.row t (.workflow workflowId) = some workflow ∧ workflow.tenantId = tenantId
  · rcases hfound with ⟨workflow, hrow, htenant⟩
    rcases run_deleteWorkflow t workflowId tenantId env hrow htenant with
      ⟨executions, db, db', hlists, hview, hcommitted, hrewrites, hrun⟩
    rw [hrun]
    refine h.rewrites hview (fun k hk => ?_) hrewrites (keepsTenants_forgottenRow hlists)
    exact DbState.mem_keys.mpr (.inr (hcommitted ▸ hk))
  · rw [run_deleteWorkflow_missing t workflowId tenantId env fun workflow hrow htenant =>
      hfound ⟨workflow, hrow, htenant⟩]
    exact h

/-! ## Creating and updating a workflow -/

variable {libs : Libraries} {settings : Settings}

theorem tidy_createWorkflow (body : WorkflowCreateRequest) (tenantId generated : Uuid) :
    Maintains (Tidy known) (createWorkflow libs settings body tenantId generated) := by
  intro w h
  unfold createWorkflow
  apply liftExcept_bind h
  intro _ _
  have hinserted : Kept known w.db (inserted w.db (.workflow w.db.newUuid)
      (body.row tenantId generated)) :=
    (Kept.refl h).inserted rfl fun p hp => by cases hp
  let w' : World := ⟨(inserted w.db (.workflow w.db.newUuid) (body.row tenantId generated)).commit, w.env⟩
  have hread : Maintains (Tidy known) (do
      let workflow ← mapped (← Script.send (S := engineSignature)
        (.db (.refresh (.workflow w.db.newUuid))))
      return (w.db.newUuid, workflow)) := by
    apply maintains_bind
    · apply maintains_gentle (Tidy.respects known)
      exact trivial
    · exact fun _ => maintains_bind (maintains_mapped _) fun _ => maintains_done _
  exact hread w' hinserted.commit.tidy

theorem tidy_updateWorkflow (body : WorkflowUpdateRequest) (workflowId tenantId generated : Uuid) :
    Maintains (Tidy known)
      (updateWorkflow libs settings body workflowId tenantId generated) := by
  intro w h
  unfold updateWorkflow
  apply Tidy.getTenantWorkflow_bind (Kept.refl h)
  intro w' workflow h' _
  apply liftExcept_bind h'.tidy
  intro _ _
  have hassign : Maintains (Tidy known) (do
      let _ ← Script.send (S := engineSignature) (.db (.touch (.workflow workflowId)
        (fun attrs memo =>
          ((body.assign generated attrs attrs, memo), some (body.assign generated attrs)))))
      commit
      mapped (← Script.send (S := engineSignature) (.db (.refresh (.workflow workflowId))))) := by
    apply maintains_bind
    · apply maintains_gentle (Tidy.respects known)
      refine ⟨trivial, fun attrs memo => ⟨rfl, fun f hf row => ?_⟩⟩
      cases hf
      rfl
    · intro _
      apply maintains_bind Tidy.maintains_commit
      intro _
      apply maintains_bind
      · apply maintains_gentle (Tidy.respects known)
        exact trivial
      · exact fun _ => maintains_mapped _
  exact hassign w' h'.tidy

end

/-! ## Steps of the engine -/

/-- The committed rows, and what the process remembers: the arguments of the jobs
in the scheduler, and the workflow objects in the cache. -/
structure Engine where
  rows : Rows Row
  jobs : List (String × String)
  cached : List (Uuid × Workflow)

/-- Something that runs in a session of its own. -/
inductive Entry where
  | trigger (trigger : Trigger)
  | operation (operation : Operation)
  | createWorkflow (body : WorkflowCreateRequest) (tenantId generated : Uuid)
  | updateWorkflow (body : WorkflowUpdateRequest) (workflowId tenantId generated : Uuid)
  | deleteWorkflow (workflowId tenantId : Uuid)
  | pruneWebhookDeliveries (createdAt : RowId → Time)

section

variable (libs : Libraries) (settings : Settings) (wire : Wire) (session : SessionRef)

/-- The start of a nested execution. -/
def nestedStart (fuel : Nat) : Start :=
  fun caller workflowId workflow triggerData tenantId depth =>
    startExecution (nesting libs settings performer session fuel) session libs settings
      (some caller) workflowId workflow triggerData tenantId none depth

/-- What an entry runs.  The executors other than `sub_workflow` are arbitrary. -/
def Entry.program (fuel : Nat) : Entry → Prog Unit
  | .trigger called =>
    called.handle libs settings wire (nesting libs settings performer session fuel) session
  | .operation called => called.program libs settings (nestedStart libs settings session fuel)
  | .createWorkflow body tenantId generated => do
    let _ ← WorkflowEngine.createWorkflow libs settings body tenantId generated
  | .updateWorkflow body workflowId tenantId generated => do
    let _ ← WorkflowEngine.updateWorkflow libs settings body workflowId tenantId generated
  | .deleteWorkflow workflowId tenantId => WorkflowEngine.deleteWorkflow workflowId tenantId
  | .pruneWebhookDeliveries createdAt => do
    let _ ← WorkflowEngine.pruneWebhookDeliveries createdAt

end

namespace Engine

/-- Nothing is committed, and nothing is remembered. -/
def initial : Engine := ⟨∅, [], []⟩

/-- A job of the scheduler runs with the arguments that it was added with, and a
webhook request may find its workflow in the cache, deleted or not. -/
def Offers (s : Engine) : Entry → Prop
  | .trigger (.cron workflowId tenantId) => (workflowId, tenantId) ∈ s.jobs
  | .trigger (.webhook request) => ∀ found, request.cached = some found → found ∈ s.cached
  | _ => True

/-- The copies of a workflow that a start may use: the row, and what the cache holds. -/
def Copies (s : Engine) (id : Uuid) (workflow : Workflow) : Prop :=
  Rows.row s.rows (.workflow id) = some workflow ∨ (id, workflow) ∈ s.cached

/-- The copies that a webhook may use. -/
def CopiesFor (s : Engine) (entry : Entry) (id : Uuid) (workflow : Workflow) : Prop :=
  (∃ request, entry = .trigger (.webhook request)) ∧ s.Copies id workflow

/-- The rows that an entry commits. -/
def after (s : Engine) (env : Environment) (program : Prog Unit) : Engine :=
  { s with rows := (program.run ⟨⟨s.rows, Session.fresh⟩, env⟩).2.db.committed }

/-- One step of the engine. -/
inductive Step (libs : Libraries) (settings : Settings) (wire : Wire) : Engine → Engine → Prop
  /-- An entry runs, in any surroundings. -/
  | entry {s : Engine} (entry : Entry) (session : SessionRef) (fuel : Nat) (env : Environment)
      (hoffers : s.Offers entry) :
      Step libs settings wire s (s.after env (entry.program libs settings wire session fuel))
  /-- `start_scheduler` adds a job for an active cron workflow.  Its arguments are
  the texts of UUIDs, which have 128 bits. -/
  | schedule {s : Engine} (id : Uuid) (workflow : Workflow)
      (hrow : Rows.row s.rows (.workflow id) = some workflow) (hactive : workflow.isActive = true)
      (htype : workflow.triggerType = "cron") (hid : id < 16 ^ 32)
      (htenant : workflow.tenantId < 16 ^ 32) :
      Step libs settings wire s
        { s with jobs := (id.toText, workflow.tenantId.toText) :: s.jobs }
  /-- A webhook request puts a workflow that it has read into the cache. -/
  | cache {s : Engine} (id : Uuid) (workflow : Workflow)
      (hrow : Rows.row s.rows (.workflow id) = some workflow) :
      Step libs settings wire s { s with cached := (id, workflow) :: s.cached }
  /-- A restart or an invalidation drops some of what is remembered. -/
  | drop {s : Engine} (jobs : List (String × String)) (cached : List (Uuid × Workflow))
      (hjobs : jobs ⊆ s.jobs) (hcached : cached ⊆ s.cached) :
      Step libs settings wire s { s with jobs := jobs, cached := cached }

/-- The states that the engine reaches from the empty database. -/
def Reachable (libs : Libraries) (settings : Settings) (wire : Wire) (s : Engine) : Prop :=
  Relation.ReflTransGen (Step libs settings wire) initial s

/-- The workflow and tenant ids that the process remembers. -/
def Known (s : Engine) (id tenantId : Uuid) : Prop :=
  (∃ job ∈ s.jobs, uuidOf (.str job.1) = .ok id ∧ uuidOf (.str job.2) = .ok tenantId) ∨
    ∃ found ∈ s.cached, found.1 = id ∧ found.2.tenantId = tenantId

variable {libs : Libraries} {settings : Settings} {wire : Wire}

theorem nestedStart_keeps (known : Uuid → Uuid → Prop) (session : SessionRef) (fuel : Nat) :
    StartKeeps known (nestedStart libs settings session fuel) :=
  fun _ _ _ _ _ _ _ _ h howned =>
    startExecution_kept (nesting_keeps (performer_keeps known) fuel) h howned nofun

theorem tidy_handle {known : Uuid → Uuid → Prop} {session : SessionRef} {runner : Runner}
    (hrunner : RunnerKeeps known runner) (trigger : Trigger) {w : World} (h : Tidy known w.db)
    (hcron : ∀ workflowId tenantId, trigger = .cron workflowId tenantId → ∀ id tenant,
      uuidOf (.str workflowId) = .ok id → uuidOf (.str tenantId) = .ok tenant → known id tenant)
    (hwebhook : ∀ request, trigger = .webhook request → ∀ found, request.cached = some found →
      ∀ row : Workflow, w.db.view (.workflow found.1) = some row →
        row.tenantId = found.2.tenantId) :
    Tidy known ((trigger.handle libs settings wire runner session).run w).2.db := by
  cases trigger with
  | manual workflowId tenantId data =>
    rw [Trigger.handle, Prog.run_discard]
    exact run_of_maintains (tidy_manualExecute hrunner workflowId tenantId data) h
  | webhook request =>
    rw [Trigger.handle, Prog.run_discard]
    exact tidy_receiveWebhook hrunner h (hwebhook request rfl)
  | cron workflowId tenantId =>
    rw [Trigger.handle]
    exact run_of_maintains (tidy_executeCronWorkflow hrunner (hcron workflowId tenantId rfl)) h
  | replay executionId tenantId overrideData =>
    rw [Trigger.handle, Prog.run_discard]
    exact run_of_maintains (tidy_replayExecutionEndpoint hrunner executionId tenantId overrideData) h

/-- An operation keeps the rows of one tenant together. -/
theorem settled_operation {known : Uuid → Uuid → Prop} {t : Rows Row} (h : Settled known t)
    {start : Start} (hstart : StartKeeps known start) (operation : Operation) (env : Environment) :
    Settled known ((operation.program libs settings start).run
      ⟨⟨t, Session.fresh⟩, env⟩).2.db.committed := by
  have hopened : Tidy known (⟨t, Session.fresh⟩ : Db) := h.tidy
  have hrespects := Tidy.respects known
  cases operation with
  | cancelExecution executionId tenantId =>
    rw [Operation.program]
    exact (run_of_maintains (tidy_cancelExecution executionId tenantId) hopened).settled
  | cleanupStaleExecutions =>
    rw [Operation.program, Prog.run_discard]
    exact settled_cleanupStaleExecutions h env
  | executeStep stepExecutionId executionId =>
    rw [Operation.program, Prog.run_discard]
    exact (run_of_maintains (tidy_executeStep hstart stepExecutionId executionId) hopened).settled
  | transitionExecution executionId new =>
    rw [Operation.program]
    refine (run_of_maintains (maintains_bind ?_ fun _ => Tidy.maintains_commit) hopened).settled
    exact maintains_transitionExecution hrespects trivial new
  | transitionStep stepExecId new error =>
    rw [Operation.program]
    refine (run_of_maintains (maintains_bind ?_ fun _ => Tidy.maintains_commit) hopened).settled
    exact maintains_transitionStep hrespects trivial new error

/-- What is remembered is right about the committed rows. -/
def Sound (s : Engine) : Prop := Settled s.Known s.rows

/-- The text of a UUID of 128 bits is read back as that UUID. -/
theorem uuidOf_toText {id id' : Uuid} (hid : id < 16 ^ 32)
    (h : uuidOf (.str id.toText) = .ok id') : id' = id := by
  simp only [uuidOf, Uuid.parse_toText hid] at h
  cases h
  rfl

/-- An entry commits settled rows, for whatever is known beside what is remembered. -/
theorem settled_after {known : Uuid → Uuid → Prop} {s : Engine} (h : Settled known s.rows)
    (hknown : ∀ id tenantId, s.Known id tenantId → known id tenantId) {entry : Entry}
    (hoffers : s.Offers entry) (session : SessionRef) (fuel : Nat) (env : Environment) :
    Settled known (s.after env (entry.program libs settings wire session fuel)).rows := by
  let w : World := ⟨⟨s.rows, Session.fresh⟩, env⟩
  have hw : Tidy known w.db := Settled.tidy h
  show Settled known ((entry.program libs settings wire session fuel).run w).2.db.committed
  cases entry with
  | trigger trigger =>
    have hrunner : RunnerKeeps known (nesting libs settings performer session fuel) :=
      nesting_keeps (performer_keeps known) fuel
    refine (tidy_handle hrunner trigger hw ?_ ?_).settled
    · rintro workflowId tenantId rfl id tenant hid htenant
      exact hknown id tenant (.inl ⟨(workflowId, tenantId), hoffers, hid, htenant⟩)
    · rintro request rfl found hfound row hrow
      have hfoundKnown := hknown found.1 found.2.tenantId
        (.inr ⟨found, hoffers found hfound, rfl, rfl⟩)
      exact h.known found.1 found.2.tenantId hfoundKnown row
        ((congrFun (view_opened s.rows) _).symm.trans hrow)
  | operation operation =>
    exact settled_operation h (nestedStart_keeps known session fuel) operation env
  | createWorkflow body tenantId generated =>
    rw [Entry.program, Prog.run_discard]
    exact (run_of_maintains (tidy_createWorkflow body tenantId generated) hw).settled
  | updateWorkflow body workflowId tenantId generated =>
    rw [Entry.program, Prog.run_discard]
    exact (run_of_maintains (tidy_updateWorkflow body workflowId tenantId generated) hw).settled
  | deleteWorkflow workflowId tenantId => exact settled_deleteWorkflow h workflowId tenantId env
  | pruneWebhookDeliveries createdAt =>
    rw [Entry.program, Prog.run_discard]
    exact settled_pruneWebhookDeliveries h createdAt env

/-- What is remembered after a step was remembered before, or is read from the rows. -/
theorem Step.known {s s' : Engine} (hstep : Step libs settings wire s s') {id tenantId : Uuid}
    (hknown : s'.Known id tenantId) : s.Known id tenantId ∨
      ∃ workflow : Workflow, Rows.row s.rows (.workflow id) = some workflow ∧
        workflow.tenantId = tenantId := by
  cases hstep with
  | entry entry session fuel env hoffers => exact .inl hknown
  | schedule id' workflow hrow hactive htype hid htenant =>
    rcases hknown with ⟨job, hjob, hworkflowId, htenantId⟩ | hcached
    · rcases List.mem_cons.mp hjob with rfl | hold
      · right
        rw [uuidOf_toText hid hworkflowId, uuidOf_toText htenant htenantId]
        exact ⟨workflow, hrow, rfl⟩
      · exact .inl (.inl ⟨job, hold, hworkflowId, htenantId⟩)
    · exact .inl (.inr hcached)
  | cache id' workflow hrow =>
    rcases hknown with hjob | ⟨found, hfound, hid, htenant⟩
    · exact .inl (.inl hjob)
    · rcases List.mem_cons.mp hfound with rfl | hold
      · right
        rw [← hid, ← htenant]
        exact ⟨workflow, hrow, rfl⟩
      · exact .inl (.inr ⟨found, hold, hid, htenant⟩)
  | drop jobs cached hjobs hcached =>
    left
    rcases hknown with ⟨job, hjob, hread⟩ | ⟨found, hfound, hread⟩
    · exact .inl ⟨job, hjobs hjob, hread⟩
    · exact .inr ⟨found, hcached hfound, hread⟩

/-- The rows stay settled for what is remembered, and for what else is known. -/
theorem settled_step {others : Uuid → Uuid → Prop} {s s' : Engine}
    (h : Settled (fun id tenantId => s.Known id tenantId ∨ others id tenantId) s.rows)
    (hstep : Step libs settings wire s s') :
    Settled (fun id tenantId => s'.Known id tenantId ∨ others id tenantId) s'.rows := by
  have hkept : Settled (fun id tenantId => s'.Known id tenantId ∨ others id tenantId) s.rows := by
    refine h.remember fun id tenantId hknown => ?_
    rcases hknown with hremembered | hother
    · rcases hstep.known hremembered with hold | hread
      · exact .inl (.inl hold)
      · exact .inr hread
    · exact .inl (.inr hother)
  cases hstep with
  | entry entry session fuel env hoffers =>
    exact settled_after hkept (fun _ _ hknown => .inl hknown) hoffers session fuel env
  | schedule => exact hkept
  | cache => exact hkept
  | drop => exact hkept

theorem Sound.step {s s' : Engine} (h : s.Sound) (hstep : Step libs settings wire s s') :
    s'.Sound := by
  have hnothing : Settled (fun id tenantId => s.Known id tenantId ∨ False) s.rows :=
    h.remember fun _ _ hknown => .inl (hknown.resolve_right fun hfalse => hfalse)
  exact (settled_step hnothing hstep).remember fun _ _ hknown => .inl (.inl hknown)

theorem sound_initial : initial.Sound := by
  refine ⟨fun k row hrow => ?_, fun id tenantId hknown => ?_, fun id tenantId hknown => ?_⟩
  · simp [initial, Rows.row] at hrow
  · rcases hknown with ⟨job, hjob, -⟩ | ⟨found, hfound, -⟩
    · cases hjob
    · cases hfound
  · rcases hknown with ⟨job, hjob, -⟩ | ⟨found, hfound, -⟩
    · cases hjob
    · cases hfound

theorem Reachable.sound {s : Engine} (h : Reachable libs settings wire s) : s.Sound := by
  unfold Reachable at h
  induction h with
  | refl => exact sound_initial
  | tail _ hstep ih => exact ih.step hstep

/-- In every state that the engine reaches, executions, step executions and
deliveries have the tenant of every row that they refer to. -/
theorem oneTenant_of_reachable {s : Engine} (h : Reachable libs settings wire s) :
    OneTenant (Rows.row s.rows) := h.sound.oneTenant

/-- A workflow with a webhook and one step. -/
def hookBody : WorkflowCreateRequest where
  name := "hook"
  triggerType := "webhook"
  steps := [[("id", .str "only"), ("type", .str "transform"), ("config", .obj [])]]
  name_nonempty := by decide
  name_short := by decide
  triggerType_known := by decide
  steps_nonempty := by decide

/-- Surroundings in which every step succeeds. -/
def quietEnvironment : Environment := plainEnvironment (fun _ _ => .ok [])

/-- The engine after an entry in these surroundings. -/
def afterEntry (s : Engine) (entry : Entry) : Engine :=
  s.after quietEnvironment (entry.program plainLibraries {} plainWire 0 0)

theorem Reachable.afterEntry {s : Engine} (h : Reachable plainLibraries {} plainWire s)
    {entry : Entry} (hoffers : s.Offers entry) :
    Reachable plainLibraries {} plainWire (s.afterEntry entry) :=
  Relation.ReflTransGen.tail h (.entry entry 0 0 quietEnvironment hoffers)

/-- The workflow is created, its webhook is called, and the execution is replayed. -/
def replayedEngine : Engine :=
  ((initial.afterEntry (.createWorkflow hookBody 7 0)).afterEntry
    (.trigger (.webhook ⟨generateWebhookPath 0, "POST", [], [], none, none⟩))).afterEntry
    (.trigger (.replay 9 7 []))

theorem reachable_replayedEngine : Reachable plainLibraries {} plainWire replayedEngine := by
  have hempty : Reachable plainLibraries {} plainWire initial := .refl
  unfold replayedEngine
  apply Reachable.afterEntry
  · apply Reachable.afterEntry
    · exact hempty.afterEntry trivial
    · exact fun found hfound => by cases hfound
  · trivial

/-- In this state there is an execution that replays another one. -/
theorem oneTenant_replayedEngine :
    OneTenant (Rows.row replayedEngine.rows) ∧
      (Rows.row replayedEngine.rows (.execution 11)).map
        (fun execution : Execution => (execution.tenantId, execution.workflowId,
          execution.replayedFrom)) = some (7, 1, some 9) :=
  ⟨oneTenant_of_reachable reachable_replayedEngine, by decide +kernel⟩

end Engine

end WorkflowEngine

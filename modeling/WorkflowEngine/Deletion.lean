import WorkflowEngine.EntryEffects

/-!
# Deleted workflows

`delete_workflow` removes a workflow with all that refers to it, but the process may still
remember it: the scheduler has a job with its id, and the cache has a copy.  Neither brings
it back.  A webhook that finds the copy writes a delivery that breaks the foreign key, and the
job finds no row.
-/

namespace WorkflowEngine

open Py Orm Interact

/-- Nothing is there of the workflow. -/
structure Deleted (v : View) (workflowId : Uuid) : Prop where
  workflow : v (.workflow workflowId) = none
  execution : ∀ id (e : Execution), v (.execution id) = some e → e.workflowId ≠ workflowId
  step : ∀ sid (row : StepExecution), v (.step sid) = some row →
    ∃ e : Execution, v (.execution row.executionId) = some e ∧ e.workflowId ≠ workflowId
  delivery : ∀ id (d : WebhookDelivery), v (.delivery id) = some d → d.workflowId ≠ workflowId

section

variable {libs : Libraries} {settings : Settings} {wire : Wire} {workflowId : Uuid}

/-- What refers to a workflow goes with it. -/
theorem OneTenant.deleted {v : View} (h : OneTenant v) (hnone : v (.workflow workflowId) = none) :
    Deleted v workflowId := by
  have hpresent : ∀ {k : RowId} {row : Row k} {id : Uuid}, v k = some row →
      (.workflow id : RowId) ∈ Row.parents k row → id ≠ workflowId := by
    rintro k row id hrow hmem rfl
    rcases h k row hrow (.workflow id) hmem with ⟨workflow, hworkflow, -⟩
    rw [hnone] at hworkflow
    cases hworkflow
  refine ⟨hnone, fun id e hrow => hpresent hrow List.mem_cons_self, fun sid row hrow => ?_,
    fun id d hrow => hpresent hrow List.mem_cons_self⟩
  rcases h (.step sid) row hrow (.execution row.executionId) List.mem_cons_self with ⟨e, he, -⟩
  exact ⟨e, he, hpresent he List.mem_cons_self⟩

/-- The workflow is forgotten for good if its rows would have to be of every tenant: the id is
taken, and no row has it. -/
def Forgotten (workflowId : Uuid) (s : Engine) : Prop :=
  Settled (fun id tenantId => s.Known id tenantId ∨ id = workflowId) s.rows

theorem Forgotten.none {s : Engine} (h : Forgotten workflowId s) :
    Rows.row s.rows (.workflow workflowId) = none := by
  rw [Option.eq_none_iff_forall_ne_some]
  intro row hrow
  have hevery : ∀ tenantId, row.tenantId = tenantId := fun tenantId =>
    h.known workflowId tenantId (.inr rfl) row hrow
  exact Nat.succ_ne_self row.tenantId (hevery (row.tenantId + 1)).symm

/-- The `DELETE` of a workflow of the tenant. -/
theorem forgotten_deleteWorkflow {s : Engine} (h : Engine.Reachable libs settings wire s)
    {workflow : Workflow} (hrow : Rows.row s.rows (.workflow workflowId) = some workflow)
    (session : SessionRef) (fuel : Nat) (env : Environment) :
    Forgotten workflowId (s.after env
      ((Entry.deleteWorkflow workflowId workflow.tenantId).program libs settings wire session
        fuel)) := by
  have hsound : (s.after env ((Entry.deleteWorkflow workflowId workflow.tenantId).program libs
      settings wire session fuel)).Sound :=
    (Engine.Reachable.sound h).step (.entry _ session fuel env trivial)
  rcases run_deleteWorkflow s.rows workflowId workflow.tenantId env hrow rfl with
    ⟨executions, db, db', hlists, hview, hcommitted, hrewrites, hrun⟩
  have hrows : (s.after env ((Entry.deleteWorkflow workflowId workflow.tenantId).program libs
      settings wire session fuel)).rows = db'.commit.committed := by
    show (Prog.run (deleteWorkflow workflowId workflow.tenantId) _).2.db.committed = _
    rw [hrun]
  have hnone : Rows.row db'.commit.committed (.workflow workflowId) = none := by
    rw [DbState.row_committed_commit, hrewrites.view, hview, hrow]
    show forgottenRow workflowId executions (.workflow workflowId) workflow = none
    rw [Option.eq_none_iff_forall_ne_some]
    intro row' hleft
    have hcascades := (forgottenRow_eq_some.mp hleft).2
    exact absurd rfl (of_decide_eq_false hcascades)
  -- the id of the row stays taken
  have hkey : (.workflow workflowId : RowId) ∈ db'.commit.committed := by
    apply DbState.mem_committed_commit.mpr
    apply hrewrites.keys
    apply DbState.mem_keys.mpr
    right
    rw [hcommitted]
    exact AList.mem_keys.mpr (Database.mem_keys_of_row hrow)
  unfold Forgotten
  unfold Engine.Sound at hsound
  rw [hrows] at hsound ⊢
  refine ⟨hsound.oneTenant, fun id tenantId hknown => ?_, fun id tenantId hknown row' hrow' => ?_⟩
  · rcases hknown with hremembered | rfl
    · exact hsound.committed id tenantId hremembered
    · exact hkey
  · rcases hknown with hremembered | rfl
    · exact hsound.known id tenantId hremembered row' hrow'
    · rw [hnone] at hrow'
      cases hrow'

/-- Once a workflow has been deleted, nothing of it comes back: whatever requests, jobs and
ticks follow, no state has the workflow, or an execution, a step or a delivery of it. -/
theorem deleted_of_reachable {s s' : Engine} (h : Engine.Reachable libs settings wire s)
    {workflow : Workflow} (hrow : Rows.row s.rows (.workflow workflowId) = some workflow)
    (session : SessionRef) (fuel : Nat) (env : Environment)
    (hruns : Relation.ReflTransGen (Engine.Step libs settings wire)
      (s.after env ((Entry.deleteWorkflow workflowId workflow.tenantId).program libs settings wire
        session fuel)) s') : Deleted (Rows.row s'.rows) workflowId := by
  have hforgotten : Forgotten workflowId s' := by
    induction hruns with
    | refl => exact forgotten_deleteWorkflow h hrow session fuel env
    | tail _ hstep ih => exact Engine.settled_step ih hstep
  exact hforgotten.oneTenant.deleted hforgotten.none

end

section

-- Unfolding it would run the requests.
attribute [local irreducible] Engine.replayedEngine

/-- The cache has a copy of the workflow of the webhook. -/
def Engine.withCopy (workflow : Workflow) : Engine :=
  ⟨Engine.replayedEngine.rows, Engine.replayedEngine.jobs,
    (1, workflow) :: Engine.replayedEngine.cached⟩

/-- The workflow is deleted, and then its webhook is called and finds the copy. -/
theorem deleted_withCopy : ∃ workflow : Workflow,
    Rows.row Engine.replayedEngine.rows (.workflow 1) = some workflow ∧
      Deleted (Rows.row (((Engine.withCopy workflow).afterEntry
        (.deleteWorkflow 1 workflow.tenantId)).afterEntry
        (.trigger (.webhook ⟨generateWebhookPath 0, "POST", [], [], none, some (1, workflow)⟩))).rows)
          1 := by
  have hsome : (Rows.row Engine.replayedEngine.rows (.workflow 1)).isSome = true := by
    decide +kernel
  rcases Option.isSome_iff_exists.mp hsome with ⟨workflow, hrow⟩
  have hreached : Engine.Reachable plainLibraries {} plainWire (Engine.withCopy workflow) :=
    Relation.ReflTransGen.tail Engine.reachable_replayedEngine (.cache 1 workflow hrow)
  have hoffers : ((Engine.withCopy workflow).afterEntry (.deleteWorkflow 1 workflow.tenantId)).Offers
      (.trigger (.webhook ⟨generateWebhookPath 0, "POST", [], [], none, some (1, workflow)⟩)) := by
    intro found hfound
    obtain rfl : (1, workflow) = found := Option.some.inj hfound
    exact List.mem_cons_self
  exact ⟨workflow, hrow, deleted_of_reachable hreached hrow 0 0 Engine.quietEnvironment
    (.single (.entry _ 0 0 Engine.quietEnvironment hoffers))⟩

end

end WorkflowEngine

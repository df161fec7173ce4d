import WorkflowEngine.EntryEffects

/-!
# Triggers append

A manual execution, a webhook, a tick of the scheduler and a replay run steps of any kind, and
executors that start other workflows.  Whatever they do, the rows that were committed before
are not touched, and the rows that come are of one tenant.
-/

namespace WorkflowEngine

open Py Orm Interact

/-- The tenant that a trigger was authenticated as. -/
def Trigger.requester : Trigger → Option Uuid
  | .manual _ tenantId _ => some tenantId
  | .replay _ tenantId _ => some tenantId
  | .webhook _ => none
  | .cron _ _ => none

section

variable {libs : Libraries} {settings : Settings} {wire : Wire}

/-- The steps that come are of the tenant of their execution. -/
theorem Appends.tenantId_added {owner : Uuid} {v v' : View} (h : Appends owner v v')
    (hsteps : StepsEffect v v') (hone : OneTenant v') {k : RowId} {row : Row k} (hnone : v k = none)
    (hrow : v' k = some row) : Row.tenantId k row = owner := by
  cases k with
  | workflow id =>
    rw [h.workflow id hnone] at hrow
    cases hrow
  | execution id => exact h.execution id row hnone hrow
  | delivery id => exact h.delivery id row hnone hrow
  | step sid =>
    rcases hone (.step sid) row hrow (.execution (StepExecution.executionId row))
      List.mem_cons_self with ⟨e, he, hsame⟩
    have howner : Execution.tenantId e = owner := h.execution _ e (hsteps.born sid row hnone hrow) he
    exact hsame.symm.trans howner

/-- Rows have come, of one tenant, and nothing else has happened. -/
structure AddsRows (owner : Uuid) (v v' : View) : Prop where
  kept : ∀ k row, v k = some row → v' k = some row
  added : ∀ k row, v k = none → v' k = some row → Row.tenantId k row = owner
  workflow : ∀ id, v (.workflow id) = none → v' (.workflow id) = none

theorem Triggered.addsRows {copies : Uuid → Workflow → Prop} {owner : Uuid} {v v' : View}
    (h : Triggered libs settings copies owner v v') (hone : OneTenant v') : AddsRows owner v v' :=
  ⟨h.appends.kept, fun _ _ hnone hrow => h.appends.tenantId_added h.effect.steps hone hnone hrow,
    h.appends.workflow⟩

variable {s : Engine}

/-- A trigger adds rows of one tenant, which is the tenant that the request was authenticated
as. -/
theorem Engine.Reachable.adds (h : Engine.Reachable libs settings wire s) {trigger : Trigger}
    (hoffers : s.Offers (.trigger trigger)) (session : SessionRef) (fuel : Nat) (env : Environment) :
    ∃ owner, (∀ tenantId, trigger.requester = some tenantId → owner = tenantId) ∧
      AddsRows owner (Rows.row s.rows) (Rows.row
        (s.after env ((Entry.trigger trigger).program libs settings wire session fuel)).rows) := by
  have hsound := Engine.Reachable.sound h
  have hone : OneTenant (Rows.row
      (s.after env ((Entry.trigger trigger).program libs settings wire session fuel)).rows) :=
    (hsound.step (.entry (.trigger trigger) session fuel env hoffers)).oneTenant
  cases hrequester : trigger.requester with
  | none =>
    rcases hsound.triggered hoffers session fuel env with ⟨owner, htriggered⟩
    exact ⟨owner, nofun, htriggered.addsRows hone⟩
  | some tenantId =>
    have htriggered : Triggered libs settings (s.CopiesFor (.trigger trigger)) tenantId
        (Rows.row s.rows) (Rows.row (s.after env ((Entry.trigger trigger).program libs settings
          wire session fuel)).rows) := by
      show Triggered libs settings _ tenantId _ (Rows.row (Prog.run
        (trigger.handle libs settings wire _ session) _).2.db.committed)
      cases trigger with
      | manual workflowId requester data =>
        cases hrequester
        rw [Trigger.handle, Prog.run_discard]
        exact triggered_manualExecute workflowId tenantId data env
      | replay executionId requester overrideData =>
        cases hrequester
        rw [Trigger.handle, Prog.run_discard]
        exact triggered_replayExecutionEndpoint executionId tenantId overrideData env
      | webhook request => cases hrequester
      | cron workflowId requester => cases hrequester
    exact ⟨tenantId, fun tenantId' hsame => Option.some.inj hsame, htriggered.addsRows hone⟩

/-- A trigger runs. -/
inductive Engine.Fires (libs : Libraries) (settings : Settings) (wire : Wire) :
    Engine → Engine → Prop
  | trigger {s : Engine} (trigger : Trigger) (session : SessionRef) (fuel : Nat)
      (env : Environment) (hoffers : s.Offers (.trigger trigger)) :
      Engine.Fires libs settings wire s
        (s.after env ((Entry.trigger trigger).program libs settings wire session fuel))

/-- Every row belongs to the tenant of a workflow, which it refers to. -/
theorem OneTenant.workflow {v : View} (h : OneTenant v) {k : RowId} {row : Row k}
    (hrow : v k = some row) : ∃ id, ∃ workflow : Workflow,
      v (.workflow id) = some workflow ∧ workflow.tenantId = Row.tenantId k row := by
  cases k with
  | workflow id => exact ⟨id, row, hrow, rfl⟩
  | execution id => exact ⟨_, h (.execution id) row hrow (.workflow _) List.mem_cons_self⟩
  | delivery id => exact ⟨_, h (.delivery id) row hrow (.workflow _) List.mem_cons_self⟩
  | step sid =>
    rcases h (.step sid) row hrow (.execution _) List.mem_cons_self with ⟨e, he, hsame⟩
    rcases h (.execution _) e he (.workflow _) List.mem_cons_self with ⟨workflow, hworkflow, hown⟩
    exact ⟨_, workflow, hworkflow, hown.trans hsame⟩

/-- However many triggers of any kind run, one after another and for any tenants, every row
that was there at first stays as it is, and every row that comes is of the tenant of a workflow
that was there at first. -/
theorem triggers_append {s' : Engine} (h : Engine.Reachable libs settings wire s)
    (hruns : Relation.ReflTransGen (Engine.Fires libs settings wire) s s') :
    (∀ k row, Rows.row s.rows k = some row → Rows.row s'.rows k = some row) ∧
      ∀ k row, Rows.row s'.rows k = some row → ∃ id, ∃ workflow : Workflow,
        Rows.row s.rows (.workflow id) = some workflow ∧
          workflow.tenantId = Row.tenantId k row := by
  have hsteps : Engine.Reachable libs settings wire s' ∧
      (∀ k row, Rows.row s.rows k = some row → Rows.row s'.rows k = some row) ∧
      ∀ id, Rows.row s.rows (.workflow id) = none → Rows.row s'.rows (.workflow id) = none := by
    induction hruns with
    | refl => exact ⟨h, fun _ _ hrow => hrow, fun _ hnone => hnone⟩
    | tail _ hfires ih =>
      obtain ⟨hreached, hkept, hnone⟩ := ih
      cases hfires with
      | trigger trigger session fuel env hoffers =>
        rcases hreached.adds hoffers session fuel env with ⟨owner, -, hadds⟩
        exact ⟨hreached.tail (.entry (.trigger trigger) session fuel env hoffers),
          fun k row hrow => hadds.kept k row (hkept k row hrow),
          fun id hfresh => hadds.workflow id (hnone id hfresh)⟩
  obtain ⟨hreached, hkept, hnone⟩ := hsteps
  refine ⟨hkept, fun k row hrow => ?_⟩
  rcases (Engine.Reachable.sound hreached).oneTenant.workflow hrow with
    ⟨id, workflow, hworkflow, hsame⟩
  -- no trigger stores a workflow
  cases hold : Rows.row s.rows (.workflow id) with
  | none =>
    rw [hnone id hold] at hworkflow
    cases hworkflow
  | some stored =>
    rw [hkept _ stored hold] at hworkflow
    cases hworkflow
    exact ⟨id, workflow, hold, hsame⟩

/-- The replay is replayed, and the workflow is executed once more. -/
theorem triggers_append_replay :
    let s := (Engine.replayedEngine.afterEntry (.trigger (.replay 11 7 []))).afterEntry
      (.trigger (.manual 1 7 []))
    (∀ k row, Rows.row Engine.replayedEngine.rows k = some row → Rows.row s.rows k = some row) ∧
      ∀ k row, Rows.row s.rows k = some row → ∃ id, ∃ workflow : Workflow,
        Rows.row Engine.replayedEngine.rows (.workflow id) = some workflow ∧
          workflow.tenantId = Row.tenantId k row :=
  triggers_append Engine.reachable_replayedEngine
    (.tail (.single (.trigger (.replay 11 7 []) 0 0 Engine.quietEnvironment trivial))
      (.trigger (.manual 1 7 []) 0 0 Engine.quietEnvironment trivial))

end

end WorkflowEngine

import WorkflowEngine.EntryEffects

/-!
# The steps of an execution

The table `step_executions` has no unique constraint, but the engine relies on one: the
outputs in the context and the route of the run go by `step_id`.  In every state that the
engine reaches, the steps of an execution have step ids of their own, and there is at least
one.
-/

namespace WorkflowEngine

open Py Orm Interact

/-- `step_id` identifies a step of an execution, and every execution has a step. -/
structure StepKeys (v : View) : Prop where
  unique : ∀ sid sid' (row row' : StepExecution), v (.step sid) = some row →
    v (.step sid') = some row' → row.executionId = row'.executionId → row.stepId = row'.stepId →
      sid = sid'
  nonempty : ∀ id (e : Execution), v (.execution id) = some e →
    ∃ sid, ∃ row : StepExecution, v (.step sid) = some row ∧ row.executionId = id

/-- The columns of a step by its origin. -/
theorem step_columns {sid : Uuid} {row row' : StepExecution}
    (h : Row.origin (.step sid) row' = Row.origin (.step sid) row) :
    row'.executionId = row.executionId ∧ row'.stepId = row.stepId := by
  have hexecution := congrArg StepExecution.executionId h
  have hstep := congrArg StepExecution.stepId h
  exact ⟨hexecution, hstep⟩

namespace StepKeys

variable {libs : Libraries} {settings : Settings} {copies : Uuid → Workflow → Prop} {v v' : View}

theorem empty : StepKeys (Rows.row ∅) :=
  ⟨fun _ _ _ _ hrow => by simp [Rows.row] at hrow, fun _ _ hrow => by simp [Rows.row] at hrow⟩

/-- A step that comes belongs to an execution that comes, and one that was there to one that
was there. -/
theorem executionId_ne (hone : OneTenant v) (h : StepsEffect v v') {sid sid' : Uuid}
    {old row row' : StepExecution} (hold : v (.step sid) = some old)
    (hrow : v' (.step sid) = some row) (hnone : v (.step sid') = none)
    (hrow' : v' (.step sid') = some row') : row.executionId ≠ row'.executionId := by
  intro hsame
  rcases hone (.step sid) old hold (.execution old.executionId) List.mem_cons_self with ⟨e, he, -⟩
  have hfresh := h.born sid' row' hnone hrow'
  rw [← hsame, (step_columns (h.kept sid old row hold hrow)).1, he] at hfresh
  cases hfresh

theorem effect (h : StepKeys v) (hone : OneTenant v) (heffect : Effect libs settings copies v v') :
    StepKeys v' := by
  have hsteps := heffect.steps
  refine ⟨fun sid sid' row row' hrow hrow' hexecution hstep => ?_, fun id e hrow => ?_⟩
  · cases hold : v (.step sid) with
    | none =>
      cases hold' : v (.step sid') with
      | none => exact hsteps.distinct sid sid' row row' hold hold' hrow hrow' hexecution hstep
      | some old' => exact absurd hexecution.symm (executionId_ne hone hsteps hold' hrow' hold hrow)
    | some old =>
      cases hold' : v (.step sid') with
      | none => exact absurd hexecution (executionId_ne hone hsteps hold hrow hold' hrow')
      | some old' =>
        obtain ⟨hid, hstepId⟩ := step_columns (hsteps.kept sid old row hold hrow)
        obtain ⟨hid', hstepId'⟩ := step_columns (hsteps.kept sid' old' row' hold' hrow')
        refine h.unique sid sid' old old' hold hold' ?_ ?_
        · rw [← hid, ← hid', hexecution]
        · rw [← hstepId, ← hstepId', hstep]
  · cases hold : v (.execution id) with
    | none => exact hsteps.nonempty id e hold hrow
    | some old =>
      rcases h.nonempty id old hold with ⟨sid, row, hstep, hid⟩
      cases hstep' : v' (.step sid) with
      | none =>
        have hgone := hsteps.gone sid row hstep hstep'
        rw [hid, hrow] at hgone
        cases hgone
      | some row' =>
        exact ⟨sid, row', hstep', (step_columns (hsteps.kept sid row row' hstep hstep')).1.trans hid⟩

end StepKeys

/-- In every state that the engine reaches, no two steps of an execution have the same step
id, and every execution has a step. -/
theorem stepKeys_of_reachable {libs : Libraries} {settings : Settings} {wire : Wire} {s : Engine}
    (h : Engine.Reachable libs settings wire s) : StepKeys (Rows.row s.rows) :=
  h.holds StepKeys.empty fun _ _ _ hone heffect hold => hold.effect hone heffect

/-- The steps of the execution and of its replay have the same step id. -/
theorem stepKeys_replayedEngine : StepKeys (Rows.row Engine.replayedEngine.rows) ∧
    (Rows.row Engine.replayedEngine.rows (.step 10)).map (fun row : StepExecution => row.stepId) =
      (Rows.row Engine.replayedEngine.rows (.step 12)).map (fun row : StepExecution => row.stepId) ∧
    (Rows.row Engine.replayedEngine.rows (.step 10)).isSome = true :=
  ⟨stepKeys_of_reachable Engine.reachable_replayedEngine, by decide +kernel, by decide +kernel⟩

end WorkflowEngine

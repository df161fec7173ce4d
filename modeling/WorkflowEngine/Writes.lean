import WorkflowEngine.Accounting
import WorkflowEngine.Lib.Always

/-!
# What the statements of a run write

The invariants of executions and step executions follow from what one statement can
do to one row.  `StepWrite` and `ExecutionWrite` list this: the statement, the row
before and the row after.  `Writes` says that a statement leaves every row, creates it
as `start_execution` does, or writes it in one of these ways.

The transitions are computed from the attributes of the loaded object, and the row
is what is written.  The two agree in a session whose objects are in sync with its
rows, which is what `Synced` says; the `context` of an execution is the exception.
-/

namespace WorkflowEngine

open Py Orm Interact

/-! ## One row -/

/-- Columns of a loaded object are assigned and flushed. -/
abbrev assigns (k : RowId) (f : Row k → Row k) : engineSignature.Req :=
  .db (.touch k (fun attrs memo => ((f attrs, memo), some f)))

/-- What `_execute_dag` assigns when a step has used up its attempts. -/
def failExhausted (stepId : String) (row : Execution) : Execution :=
  { row with status := .failed, error := some (exhaustedText stepId) }

/-- A step execution before and after a statement. -/
inductive StepWrite (id : Uuid) : engineSignature.Req → StepExecution → StepExecution → Prop where
  | attempt (req : engineSignature.Req) (row : StepExecution) (attempt : Nat) :
      StepWrite id req row { row with attempt := attempt }
  | transition (row : StepExecution) (new : StepStatus) (now : Time) (error : Option String)
      (allowed : new ∈ allowedStepTransitions row.status)
      (error_iff : error.isSome = true ↔ new = .failed) :
      StepWrite id (assigns (.step id) (stepTransition row new now error)) row
        (stepTransition row new now error row)
  | output (req : engineSignature.Req) (row : StepExecution) (output : Dict String Json)
      (completed : row.status = .completed) :
      StepWrite id req row { row with outputData := some output }

/-- An execution before and after a statement. -/
inductive ExecutionWrite (id : Uuid) : engineSignature.Req → Execution → Execution → Prop where
  | context (req : engineSignature.Req) (row : Execution) (context : Dict String Json) :
      ExecutionWrite id req row { row with context := context }
  | transition (row : Execution) (new : ExecutionStatus) (now : Time)
      (allowed : new ∈ allowedExecutionTransitions row.status) (unfailed : new ≠ .failed) :
      ExecutionWrite id (assigns (.execution id) (executionTransition row new now)) row
        (executionTransition row new now row)
  | exhausted (row : Execution) (stepId : String) (running : row.status = .running) :
      ExecutionWrite id (assigns (.execution id) (failExhausted stepId)) row
        (failExhausted stepId row)

/-- A row of a run before and after a statement that writes it. -/
def RowWrite : (k : RowId) → engineSignature.Req → Row k → Row k → Prop
  | .execution id => ExecutionWrite id
  | .step id => StepWrite id
  | .workflow _ => fun _ _ _ => True
  | .delivery _ => fun _ _ _ => True

/-- A row of a run as `start_execution` creates it. -/
def Created : (k : RowId) → Row k → Prop
  | .execution _ => fun row => ∃ workflowId tenantId triggerData replayedFrom,
      row = newExecution workflowId tenantId triggerData replayedFrom
  | .step _ => fun row => ∃ tenantId executionId step,
      row = newStepExecution tenantId executionId step
  | .workflow _ => fun _ => True
  | .delivery _ => fun _ => True

/-- A row before and after a statement, where there is one. -/
inductive Changes {ρ : Type} (created : ρ → Prop) (written : ρ → ρ → Prop) :
    Option ρ → Option ρ → Prop where
  | same (row : Option ρ) : Changes created written row row
  | create {row : ρ} (h : created row) : Changes created written none (some row)
  | write {row row' : ρ} (h : written row row') : Changes created written (some row) (some row')

theorem Changes.imp {ρ : Type} {created : ρ → Prop} {written written' : ρ → ρ → Prop}
    {before after : Option ρ} (h : Changes created written before after)
    (himp : ∀ row row', written row row' → written' row row') :
    Changes created written' before after := by
  cases h with
  | same => exact .same _
  | create hnew => exact .create hnew
  | write hwrite => exact .write (himp _ _ hwrite)

/-- A property that new rows have and writes keep. -/
theorem Changes.keeps {ρ : Type} {created : ρ → Prop} {written : ρ → ρ → Prop} {Q : ρ → Prop}
    {before after : Option ρ} (h : Changes created written before after)
    (hcreated : ∀ row, created row → Q row)
    (hwritten : ∀ row row', before = some row → written row row' → Q row → Q row')
    (hbefore : ∀ row, before = some row → Q row) : ∀ row, after = some row → Q row := by
  intro row hrow
  cases h with
  | same => exact hbefore row hrow
  | create hnew =>
    cases hrow
    exact hcreated _ hnew
  | write hwrite =>
    cases hrow
    exact hwritten _ _ rfl hwrite (hbefore _ rfl)

/-- A way to write rows. -/
abbrev Writing := (k : RowId) → engineSignature.Req → Row k → Row k → Prop

/-- From `db` to `db'` the statement left, created or wrote every row of a run. -/
def WritesBy (writing : Writing) (req : engineSignature.Req) (db db' : Db) : Prop :=
  ∀ k, OfRun k → Changes (Created k) (writing k req) (db.view k) (db'.view k)

/-- The statement wrote as `RowWrite` lists. -/
abbrev Writes : engineSignature.Req → Db → Db → Prop := WritesBy RowWrite

section

variable {writing : Writing} {req : engineSignature.Req} {db db' : Db}

theorem WritesBy.of_view (h : db'.view = db.view) : WritesBy writing req db db' := by
  intro k _
  rw [h]
  exact .same _

theorem WritesBy.imp {writing' : Writing} (h : WritesBy writing req db db')
    (himp : ∀ k row row', writing k req row row' → writing' k req row row') :
    WritesBy writing' req db db' := fun k hrun => (h k hrun).imp (himp k)

/-- Only one row has changed. -/
theorem writesBy_row {k : RowId} (hothers : ∀ k', k' ≠ k → db'.view k' = db.view k')
    (h : OfRun k → Changes (Created k) (writing k req) (db.view k) (db'.view k)) :
    WritesBy writing req db db' := by
  intro k' hrun
  by_cases heq : k' = k
  · subst heq
    exact h hrun
  · rw [hothers k' heq]
    exact .same _

end

/-! ## Objects in sync with their rows -/

/-- The attributes of an object are those of its row, but for the `context` of an
execution. -/
def InSync : (k : RowId) → Row k → Row k → Prop
  | .execution _, attrs, row => attrs = { row with context := attrs.context }
  | .step _, attrs, row => attrs = row
  | .workflow _, _, _ => True
  | .delivery _, _, _ => True

theorem InSync.refl (k : RowId) (row : Row k) : InSync k row row := by
  cases k with
  | execution id => rfl
  | step id => rfl
  | workflow id => trivial
  | delivery id => trivial

/-- The object under a key, if it is one of a run, is in sync with its row. -/
def SyncedAt (db : Db) (k : RowId) : Prop :=
  OfRun k → ∀ attrs memo, db.loaded k = some (attrs, memo) →
    ∃ row, db.view k = some row ∧ InSync k attrs row

/-- Every object of a run is in sync with its row. -/
def Synced (db : Db) : Prop := ∀ k, SyncedAt db k

theorem synced_opened (t : Rows Row) : Synced ⟨t, Session.fresh⟩ := by
  intro k _ attrs memo hloaded
  cases hloaded

namespace Synced

variable {db db' : Db}

/-- Only the row and the object under one key have changed. -/
theorem of_others (h : Synced db) {k : RowId}
    (hothers : ∀ k', k' ≠ k → db'.view k' = db.view k' ∧ db'.loaded k' = db.loaded k')
    (hk : SyncedAt db' k) : Synced db' := by
  intro k'
  by_cases heq : k' = k
  · exact heq ▸ hk
  · intro hrun attrs memo hloaded
    rw [(hothers k' heq).2] at hloaded
    rw [(hothers k' heq).1]
    exact h k' hrun attrs memo hloaded

/-- Rows and objects stay as they are. -/
theorem of_same (h : Synced db) (hview : db'.view = db.view) (hloaded : db'.loaded = db.loaded) :
    Synced db' := by
  intro k hrun attrs memo hobject
  rw [hloaded] at hobject
  rw [hview]
  exact h k hrun attrs memo hobject

/-- The attributes of an object change, and stay in sync. -/
theorem load (h : Synced db) {k : RowId} {attrs row : Row k} (hview : db.view k = some row)
    (hsync : InSync k attrs row) (memo : Memo k) : Synced (db.load k attrs memo) := by
  refine h.of_others (k := k) (fun k' hk' => ⟨rfl, DbState.loaded_load_ne _ _ _ hk'⟩) ?_
  intro _ attrs' memo' hloaded
  rw [DbState.loaded_load_self] at hloaded
  cases hloaded
  exact ⟨row, hview, hsync⟩

theorem loadAll (h : Synced db) (ks : List RowId) : Synced (DbState.loadAll db ks) := by
  induction ks generalizing db with
  | nil => exact h
  | cons k ks ih =>
    unfold DbState.loadAll
    split
    · rename_i row _ hview
      exact ih (h.load hview (InSync.refl k row) default)
    · exact ih h

/-- A row is written, and its object with it. -/
theorem put (h : Synced db) {k : RowId} {attrs row : Row k} (hsync : InSync k attrs row)
    (memo : Memo k) : Synced ((db.load k attrs memo).write k (some row)) := by
  refine h.of_others (k := k) (fun k' hk' => ⟨DbState.view_write_ne _ _ hk', ?_⟩) ?_
  · rw [DbState.loaded_write]
    exact DbState.loaded_load_ne _ _ _ hk'
  · intro _ attrs' memo' hloaded
    rw [DbState.loaded_write, DbState.loaded_load_self] at hloaded
    cases hloaded
    exact ⟨row, DbState.view_write_self _ _ _, hsync⟩

end Synced

/-! ## Statement by statement -/

/-- Every statement of the run writes as the engine does, and leaves `J`. -/
structure Stepwise {α : Type} (J : Db → Prop) (m : Prog α) (w : World) : Prop where
  always : Script.Always (S := engineSignature) World.answer
    (fun req w => Writes req w.db (World.answer req w).2.db ∧ J (World.answer req w).2.db) m w

section

variable {α β : Type} {J J' : Db → Prop} {w : World}

/-- It holds in the end. -/
theorem Stepwise.run {m : Prog α} (h : Stepwise J m w) (hw : J w.db) : J (m.run w).2.db :=
  Script.Always.run_of_invariant (I := fun w : World => J w.db) h.always hw
    fun _ _ _ hstep => hstep.2

theorem Stepwise.imp {m : Prog α} (h : Stepwise J m w) (hJ : ∀ db, J db → J' db) :
    Stepwise J' m w :=
  ⟨h.always.imp fun _ _ hstep => ⟨hstep.1, hJ _ hstep.2⟩⟩

theorem stepwise_done (result : Except Raised α) : Stepwise J (Script.done result) w := ⟨trivial⟩

/-- The rest of a sequence starts where its first part has ended. -/
theorem stepwise_bind {m : Prog α} {f : α → Prog β} (hw : J w.db) (hm : Stepwise J m w)
    (hf : ∀ a w', m.run w = (.ok a, w') → J w'.db → Stepwise J (f a) w') :
    Stepwise J (m >>= f) w := by
  refine ⟨Script.always_bind hm.always fun a w' hrun => (hf a w' hrun ?_).always⟩
  have hw' : J (m.run w).2.db := hm.run hw
  rw [show m.run w = (.ok a, w') from hrun] at hw'
  exact hw'

/-- The first part of a sequence leaves more than the rest does. -/
theorem stepwise_bind_of {m : Prog α} {f : α → Prog β} (hJ : ∀ db, J' db → J db) (hw : J' w.db)
    (hm : Stepwise J' m w)
    (hf : ∀ a w', m.run w = (.ok a, w') → J' w'.db → Stepwise J (f a) w') :
    Stepwise J (m >>= f) w := by
  refine ⟨Script.always_bind (hm.imp hJ).always fun a w' hrun => (hf a w' hrun ?_).always⟩
  have hw' : J' (m.run w).2.db := hm.run hw
  rw [show m.run w = (.ok a, w') from hrun] at hw'
  exact hw'

theorem stepwise_liftExcept_bind {result : Except PyError α} {f : α → Prog β}
    (hf : ∀ a, result = .ok a → Stepwise J (f a) w) : Stepwise J (liftExcept result >>= f) w := by
  cases result with
  | ok a => exact ⟨(hf a rfl).always⟩
  | error exc => exact ⟨trivial⟩

theorem stepwise_ite {c : Prop} [Decidable c] {m m' : Prog α} (hm : Stepwise J m w)
    (hm' : Stepwise J m' w) : Stepwise J (if c then m else m') w := by
  split
  · exact hm
  · exact hm'

/-- `if c: m` before the rest. -/
theorem stepwise_when {c : Prop} [Decidable c] {m : Prog α} {rest : Prog β} (hw : J w.db)
    (hm : Stepwise J m w) (hrest : ∀ w, J w.db → Stepwise J rest w) :
    Stepwise J (if c then m >>= fun _ => rest else rest) w :=
  stepwise_ite (stepwise_bind hw hm fun _ w' _ hw' => hrest w' hw') (hrest w hw)

theorem stepwise_attempt {m : Prog α} (hm : Stepwise J m w) :
    Stepwise J (Script.attempt m : Prog (Except Raised α)) w :=
  ⟨Script.always_attempt_iff.mpr hm.always⟩

theorem stepwise_mapped (obj : Option α) : Stepwise J (mapped obj) w := by
  cases obj with
  | some obj => exact stepwise_done _
  | none => exact stepwise_done _

/-- One statement. -/
theorem stepwise_db {req : DbReq Row Memo} (h : Writes (.db req) w.db (DbState.answer req w.db).2 ∧
    J (DbState.answer req w.db).2) :
    Stepwise J (Script.send (S := engineSignature) (.db req)) w := ⟨Script.always_send_iff.mpr h⟩

/-- What is outside the database leaves it. -/
theorem stepwise_env (hw : J w.db) (req : EnvReq) :
    Stepwise J (Script.send (S := engineSignature) (.env req)) w :=
  ⟨Script.always_send_iff.mpr ⟨.of_view rfl, hw⟩⟩

theorem stepwise_commit (hw : J w.db.commit) : Stepwise J commit w :=
  stepwise_db ⟨.of_view (funext fun _ => DbState.view_commit _ _), hw⟩

end

end WorkflowEngine

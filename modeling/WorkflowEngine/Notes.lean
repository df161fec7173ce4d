import WorkflowEngine.Orchestrator

/-!
# What a program notes

The environment of a run notes the executions that are started and the
executors that are invoked.  `Notes R m` says that whatever `m` notes keeps the
rule `R`, from any world; the statements of the session and the clock are not
noted.
-/

namespace WorkflowEngine

open Py Orm Interact

/-- A property of what is noted that sequences of programs keep. -/
structure NoteRule where
  holds : List Event → Prop
  nil : holds []
  append : ∀ {new new'}, holds new → holds new' → holds (new ++ new')

/-- Every event satisfies `P`. -/
def NoteRule.each (P : Event → Prop) : NoteRule where
  holds new := ∀ event ∈ new, P event
  nil := by simp
  append h h' event hevent := by
    rcases List.mem_append.mp hevent with hleft | hright
    · exact h event hleft
    · exact h' event hright

/-- What a run of `m` notes keeps the rule. -/
def Notes {α : Type} (R : NoteRule) (m : Prog α) : Prop :=
  ∀ w : World, ∃ new, w.env.Later new (m.run w).2.env ∧ R.holds new

section

variable {α β : Type} {R : NoteRule}

/-- A program that notes nothing. -/
theorem notes_of_later_nil {m : Prog α} (h : ∀ w : World, w.env.Later [] (m.run w).2.env) : Notes R m :=
  fun w => ⟨[], h w, R.nil⟩

theorem notes_pure (a : α) : Notes R (pure a : Prog α) :=
  notes_of_later_nil fun w => Environment.Later.refl w.env

theorem notes_raise (e : Raised) : Notes R (Script.raise e : Prog α) :=
  notes_of_later_nil fun w => Environment.Later.refl w.env

theorem notes_liftExcept (result : Except PyError α) : Notes R (liftExcept result) :=
  notes_of_later_nil fun w => Environment.Later.refl w.env

/-- The statements of the session are not noted. -/
theorem notes_db (req : DbReq Row Memo) :
    Notes R (Script.send (S := engineSignature) (.db req)) :=
  notes_of_later_nil fun w => Environment.Later.refl w.env

theorem notes_rowExists (k : RowId) : Notes R (rowExists k) :=
  notes_of_later_nil fun w => by
    rw [run_rowExists]
    exact Environment.Later.refl w.env

theorem notes_utcNow : Notes R utcNow :=
  notes_of_later_nil fun w => (Environment.Later.refl w.env).tick

theorem notes_bind {m : Prog α} {f : α → Prog β} (hm : Notes R m) (hf : ∀ a, Notes R (f a)) :
    Notes R (m >>= f) := by
  intro w
  obtain ⟨new, hlater, hnew⟩ := hm w
  rcases hrun : m.run w with ⟨result, w'⟩
  rw [hrun] at hlater
  cases result with
  | error e =>
    rw [Prog.run_bind_error hrun]
    exact ⟨new, hlater, hnew⟩
  | ok a =>
    obtain ⟨new', hlater', hnew'⟩ := hf a w'
    rw [Prog.run_bind_ok hrun]
    exact ⟨new ++ new', hlater.trans hlater', R.append hnew hnew'⟩

theorem notes_ite {c : Prop} [Decidable c] {m m' : Prog α} (hm : Notes R m) (hm' : Notes R m') :
    Notes R (if c then m else m') := by
  split
  · exact hm
  · exact hm'

theorem notes_attempt {m : Prog α} (hm : Notes R m) :
    Notes R (Script.attempt m : Prog (Except Raised α)) := by
  intro w
  rw [Prog.run_attempt]
  exact hm w

theorem notes_performer (caller : Caller) (step : StepDefinition) (vars : Vars) :
    Notes R (performer caller step vars) := by
  unfold performer
  apply notes_bind
  · exact notes_of_later_nil fun w => Environment.Later.refl w.env
  · exact fun result => notes_liftExcept result

theorem notes_mapped (obj : Option α) : Notes R (mapped obj) := by
  cases obj with
  | some obj => exact notes_pure obj
  | none => exact notes_raise _

theorem notes_transitionStep (id : Uuid) (new : StepStatus) (error : Option String) :
    Notes R (transitionStep id new error) := by
  unfold transitionStep
  apply notes_bind (notes_db _)
  intro found
  cases found with
  | none => exact notes_raise _
  | some stepExec =>
    apply notes_bind (notes_liftExcept _)
    intro _
    apply notes_bind notes_utcNow
    intro now
    exact notes_bind (notes_db _) fun _ => notes_pure _

theorem notes_mergeStepOutput (id : Uuid) (s : String) (output : Dict String Json) :
    Notes R (mergeStepOutput id s output) := by
  unfold mergeStepOutput
  apply notes_bind (notes_db _)
  intro found
  cases found with
  | none => exact notes_raise _
  | some execution =>
    apply notes_bind (notes_liftExcept _)
    intro ctx
    apply notes_bind (notes_db _)
    intro _
    exact notes_bind (notes_db _) fun _ => notes_pure _

end

end WorkflowEngine

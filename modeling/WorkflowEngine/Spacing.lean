import Mathlib.Algebra.Order.BigOperators.Group.List
import Mathlib.Data.Rat.Cast.Order
import WorkflowEngine.Retries

/-!
# The time between attempts

A step is defined with `delay_seconds`, the delay between its attempts, and time
is what the engine waits.  `retryTrace` is the run of the retry loop with its
waits, and `DelayHonoured` asks that in it enough time passes between the failure
of an attempt and the next invocation of the executor.

Nothing reads `delay_seconds`: the only waits are those of the executor itself,
which are over when its attempt fails.
-/

namespace WorkflowEngine

open Py Orm Interact

/-- How long `asyncio.sleep(seconds)` waits. -/
def secondsOf (seconds : Json) : ℚ :=
  match seconds.number with
  | some (m, places) => max 0 (m / 10 ^ places)
  | none => 0

/-- How long the waits of a trace are together. -/
def waited (trace : List (RetryNote ⊕ Json)) : ℚ :=
  ((trace.filterMap Sum.getRight?).map secondsOf).sum

/-- After the failure of an attempt the engine waits at least `delaySeconds` before
the next invocation of the executor. -/
def DelayHonoured (delaySeconds : Nat) (trace : List (RetryNote ⊕ Json)) : Prop :=
  ∀ before between after w,
    trace = before ++ .inl (.status .failed) :: (between ++ .inl (.invoked w) :: after) →
    (∀ w', .inl (.invoked w') ∉ between) → (delaySeconds : ℚ) ≤ waited between

/-- The trace of `_execute_step_with_retry`, with its waits. -/
def retryTrace (runner : Runner) (session : SessionRef) (id : Uuid) (step : StepDefinition)
    (sid : Uuid) (w : World) : List (RetryNote ⊕ Json) :=
  Script.trace (S := engineSignature) World.answer
    (Script.both (retryNote id sid step.id) waitNote)
    (executeStepWithRetry runner session id step sid) w

theorem secondsOf_nonneg (seconds : Json) : 0 ≤ secondsOf seconds := by
  unfold secondsOf
  split
  · exact le_max_left _ _
  · exact le_refl _

theorem waited_nonneg (trace : List (RetryNote ⊕ Json)) : 0 ≤ waited trace := by
  refine List.sum_nonneg fun seconds hmem => ?_
  obtain ⟨wait, -, rfl⟩ := List.mem_map.mp hmem
  exact secondsOf_nonneg wait

/-- A last element that is nowhere else has nothing after it. -/
theorem eq_nil_of_concat_eq {α : Type} {x : α} {front before rest : List α} (hx : x ∉ front)
    (h : front ++ [x] = before ++ x :: rest) : rest = [] := by
  rcases List.eq_nil_or_concat rest with rfl | ⟨rest, last, rfl⟩
  · rfl
  · have hsplit : front ++ [x] = (before ++ x :: rest) ++ [last] := by simpa using h
    obtain ⟨rfl, -⟩ := List.append_inj' hsplit rfl
    exact absurd (List.mem_append_right _ List.mem_cons_self) hx

namespace Attempts

variable {waits : World → List Json} {context : Dict String Json} {stepId : String}
  {attempts : Attempts}

/-- The notes of an attempt before its status in the end. -/
def openNotes (waits : World → List Json) (w : World) : List (RetryNote ⊕ Json) :=
  [.inl .requested, .inl (.status .queued), .inl .requested, .inl (.status .running),
    .inl (.invoked w)] ++ (waits w).map .inr ++ [.inl .requested]

theorem timedNotesOf_eq (waits : World → List Json) (w : World) (last : StepStatus) :
    timedNotesOf waits w last = openNotes waits w ++ [.inl (.status last)] := by
  simp [timedNotesOf, openNotes]

theorem failed_not_mem_openNotes (waits : World → List Json) (w : World) :
    .inl (.status .failed) ∉ openNotes waits w := by
  simp [openNotes]

/-- The step is failed in the run exactly if an attempt failed. -/
theorem failed_mem_timedNotes :
    .inl (.status .failed) ∈ attempts.timedNotes waits context stepId ↔ attempts.failures ≠ [] := by
  rw [timedNotes, List.mem_append, List.mem_flatMap, List.mem_flatMap]
  constructor
  · rintro (⟨failure, hmem, -⟩ | ⟨made, -, hmem⟩)
    · exact List.ne_nil_of_mem hmem
    · rw [timedNotesOf_eq] at hmem
      simp [failed_not_mem_openNotes] at hmem
  · intro hne
    obtain ⟨failure, rest, hfailures⟩ := List.exists_cons_of_ne_nil hne
    refine .inl ⟨failure, hfailures ▸ List.mem_cons_self, ?_⟩
    rw [timedNotesOf_eq]
    simp

/-- After a failure that is not the last attempt the executor is invoked again, and there
is no wait in between. -/
theorem not_delayHonoured_of_next {delaySeconds : Nat} (hdelay : delaySeconds ≠ 0) {w w' : World}
    {last : StepStatus} {rest : List (RetryNote ⊕ Json)} :
    ¬ DelayHonoured delaySeconds
      (timedNotesOf waits w .failed ++ (timedNotesOf waits w' last ++ rest)) := by
  intro hhonoured
  let between : List (RetryNote ⊕ Json) :=
    [.inl .requested, .inl (.status .queued), .inl .requested, .inl (.status .running)]
  have hsplit : timedNotesOf waits w .failed ++ (timedNotesOf waits w' last ++ rest) =
      openNotes waits w ++ .inl (.status .failed) :: (between ++ .inl (.invoked w') ::
        ((waits w').map .inr ++ [.inl .requested, .inl (.status last)] ++ rest)) := by
    rw [timedNotesOf_eq]
    simp [timedNotesOf, between]
  have hle := hhonoured _ between _ w' hsplit (by simp [between])
  have hnone : waited between = 0 := rfl
  rw [hnone, Nat.cast_nonpos] at hle
  exact hdelay hle

/-- Where attempts fail, the delay is honoured if there is none, or no further attempt. -/
theorem delayHonoured_timedNotes {maxAttempts : Nat} (hstops : attempts.Stops maxAttempts)
    (hfails : attempts.failures ≠ []) (delaySeconds : Nat) :
    DelayHonoured delaySeconds (attempts.timedNotes waits context stepId) ↔
      delaySeconds = 0 ∨ maxAttempts ≤ 1 := by
  obtain ⟨failures, success⟩ := attempts
  obtain ⟨⟨w, exc⟩, rest, rfl⟩ := List.exists_cons_of_ne_nil hfails
  constructor
  · intro hhonoured
    by_contra hnot
    obtain ⟨hdelay, hmax⟩ := not_or.mp hnot
    rw [timedNotes, List.flatMap_cons, List.append_assoc] at hhonoured
    -- the second attempt fails too, or it is the successful one
    cases rest with
    | cons next rest =>
      rw [List.flatMap_cons, List.append_assoc] at hhonoured
      exact not_delayHonoured_of_next hdelay hhonoured
    | nil =>
      cases success with
      | none =>
        have hlength : 1 = maxAttempts := hstops.exhausted rfl
        omega
      | some made =>
        have hmade : ([] : List (World × PyError)).flatMap
              (fun failure => timedNotesOf waits failure.1 .failed) ++
            (some made).toList.flatMap (fun made => timedNotesOf waits made.1 .completed ++
              (mergedContext context stepId made.2).toOption.toList.map (.inl ∘ .merged)) =
            timedNotesOf waits made.1 .completed ++
              (mergedContext context stepId made.2).toOption.toList.map (.inl ∘ .merged) := by
          simp
        rw [hmade] at hhonoured
        exact not_delayHonoured_of_next hdelay hhonoured
  · rintro (rfl | hone) before between after invoked htrace -
    · rw [Nat.cast_zero]
      exact waited_nonneg between
    · -- the only attempt is the failed one, and nothing comes after its failure
      have honly : rest = [] ∧ success = none := by
        cases success with
        | some made =>
          have hlt : rest.length + 1 < maxAttempts := hstops.success made rfl
          omega
        | none =>
          have hlength : rest.length + 1 = maxAttempts := hstops.exhausted rfl
          exact ⟨List.length_eq_zero_iff.mp (by omega), rfl⟩
      obtain ⟨rfl, rfl⟩ := honly
      have hnotes : timedNotes waits context stepId ⟨[(w, exc)], none⟩ =
          openNotes waits w ++ [.inl (.status .failed)] := by
        rw [← timedNotesOf_eq]
        simp [timedNotes]
      rw [hnotes] at htrace
      have hnil := eq_nil_of_concat_eq (failed_not_mem_openNotes waits w) htrace
      simp at hnil

end Attempts

section

variable {id sid : Uuid} {row : StepExecution} {e attrs : Execution}

/-- In a run in which an attempt of the step fails, the delay of its definition is
honoured exactly if it is zero or the step has one attempt only. -/
theorem delayHonoured_iff {runner : Runner} (hrunner : runner.Keeps id sid) (session : SessionRef)
    (step : StepDefinition) {retry : RetryConfig} (hretry : step.retry = some retry) (w : World)
    (h : StepSession id sid row e attrs w.db) (hpending : row.status = .pending)
    (hmax : row.maxAttempts = step.maxAttempts) (hmergeable : ¬ StepsRefused e.context)
    (hfails : .inl (.status .failed) ∈ retryTrace runner session id step sid w) :
    DelayHonoured retry.delaySeconds (retryTrace runner session id step sid w) ↔
      retry.delaySeconds = 0 ∨ retry.maxAttempts ≤ 1 := by
  have hpos : 0 < row.maxAttempts := hmax ▸ step.maxAttempts_pos
  obtain ⟨attempts, w', row', e', -, hstops, htimed, -⟩ :=
    timed_executeStepWithRetry hrunner session step w h hpending hpos hmergeable
  have htrace : retryTrace runner session id step sid w = _ := htimed.trace
  have hretries : row.maxAttempts = retry.maxAttempts := by
    rw [hmax, StepDefinition.maxAttempts, hretry]
  rw [htrace, Attempts.failed_mem_timedNotes] at hfails
  rw [htrace, ← hretries]
  exact Attempts.delayHonoured_timedNotes hstops hfails retry.delaySeconds

end

/-! ## A step with a delay -/

/-- Two attempts, five seconds apart. -/
def slowRetry : RetryConfig where
  maxAttempts := 2
  delaySeconds := 5
  maxAttempts_pos := Nat.le_of_ble_eq_true rfl
  maxAttempts_le := Nat.le_of_ble_eq_true rfl
  delaySeconds_le := Nat.le_of_ble_eq_true rfl

def slowStep : StepDefinition := { twiceStep with retry := some slowRetry }

/-- A session that has loaded the record 2 of this step.  The executor fails once. -/
def slowWorld : World :=
  { flakyWorld with
    db :=
      let opened : Db := ⟨Rows.ofList [⟨.execution 1, newExecution 1 1 [] none⟩,
        ⟨.step 2, newStepExecution 1 1 slowStep⟩], Session.fresh⟩
      (opened.load (.step 2) (newStepExecution 1 1 slowStep) ()).load (.execution 1)
        (newExecution 1 1 [] none) .nothing }

theorem slowWorld_session : StepSession 1 2 (newStepExecution 1 1 slowStep)
    (newExecution 1 1 [] none) (newExecution 1 1 [] none) slowWorld.db := ⟨rfl, rfl, rfl, rfl⟩

/-- Whether a note is the failure of an attempt. -/
def isFailure : RetryNote ⊕ Json → Bool
  | .inl (.status .failed) => true
  | _ => false

theorem slowWorld_fails :
    .inl (.status .failed) ∈ retryTrace performer 0 1 slowStep 2 slowWorld := by
  have hany : (retryTrace performer 0 1 slowStep 2 slowWorld).any isFailure = true := by
    decide +kernel
  obtain ⟨note, hmem, hfailure⟩ := List.any_eq_true.mp hany
  unfold isFailure at hfailure
  split at hfailure
  · exact hmem
  · cases hfailure

theorem delayHonoured_iff_slow :
    DelayHonoured 5 (retryTrace performer 0 1 slowStep 2 slowWorld) ↔ 5 = 0 ∨ 2 ≤ 1 :=
  delayHonoured_iff (keeps_performer 1 2) 0 slowStep rfl slowWorld
    slowWorld_session rfl rfl (fun ⟨_, h⟩ => by cases h) slowWorld_fails

/-- The second attempt does not wait. -/
theorem not_delayHonoured :
    ¬ DelayHonoured slowRetry.delaySeconds (retryTrace performer 0 1 slowStep 2 slowWorld) := by
  obtain ⟨attempts, w', row', e', -, hstops, htimed, -⟩ :=
    timed_executeStepWithRetry (keeps_performer 1 2) 0 slowStep slowWorld slowWorld_session rfl
      (by decide) (fun ⟨_, h⟩ => by cases h)
  have htrace : retryTrace performer 0 1 slowStep 2 slowWorld = _ := htimed.trace
  have hfails := slowWorld_fails
  rw [htrace, Attempts.failed_mem_timedNotes] at hfails
  rw [htrace, Attempts.delayHonoured_timedNotes hstops hfails]
  decide

end WorkflowEngine

import WorkflowEngine.Accepted
import WorkflowEngine.Attempts
import WorkflowEngine.Lib.SkipWalk

/-!
# The walk of `_execute_dag`

`_execute_dag` is a walk that skips nodes (`WorkflowEngine.Lib.SkipWalk`): the
nodes are the step ids in topological order, and a completed condition step
drops the steps of the branch that was not taken.

`Follows` is the invariant: the board carries exactly what the log of the walk
says.  `Visits` adds the executor invocations, each with what the session saw
at that moment, and `run_executeDagFrom` is the induction over the order.
-/

namespace WorkflowEngine

open Py Orm Interact SkipWalk

/-- The log of a walk over step ids. -/
abbrev StepLog := Log String (Dict String Json)

/-- `step_defs`. -/
abbrev stepDefs (steps : List StepDefinition) : Dict String StepDefinition :=
  Dict.ofItems (steps.map (fun step => (step.id, step)))

/-- The branch that a condition step with this output does not take. -/
def nonTakenBranch (step : StepDefinition) (output : Dict String Json) : Json :=
  branchOf step (!conditionResult (some output))

/-- The steps that a completed step drops: a condition step drops the branch
that is not taken. -/
def branchDrops (steps : List StepDefinition) (s : String) (output : Dict String Json) :
    List String :=
  match Dict.get? (stepDefs steps) s with
  | some step =>
    if step.type = .condition then
      match branchSet (nonTakenBranch step output) with
      | .ok members => members
      | .error _ => []
    else []
  | none => []

/-- The `steps` entries of the context after a walk. -/
def entries (log : StepLog) : Dict String Json :=
  (outputs log).map (fun item => (item.1, stepEntry item.2))

theorem keys_entries (log : StepLog) : Dict.keys (entries log) = Dict.keys (outputs log) := by
  simp [entries, Dict.keys, Function.comp_def]

theorem not_mem_keys_entries {log : StepLog} {s : String} (h : s ∉ Dict.keys log) :
    s ∉ Dict.keys (entries log) := by
  rw [keys_entries]
  exact fun hmem => h ((keys_outputs_sublist log).subset hmem)

@[simp] theorem entries_append (log log' : StepLog) :
    entries (log ++ log') = entries log ++ entries log' := by
  simp [entries]

@[simp] theorem entries_completed (s : String) (output : Dict String Json) :
    entries [(s, .completed output)] = [(s, stepEntry output)] := rfl

@[simp] theorem entries_skipped (s : String) : entries [(s, .skipped)] = [] := rfl

@[simp] theorem entries_failed (s : String) : entries [(s, .failed)] = [] := rfl

/-- The row of a step belongs to the execution, its status is the one that the walk
has given to the step, and it has no output before the step runs. -/
structure Fits (execution : Uuid) (step : StepDefinition)
    (ending : Option (Ending (Dict String Json))) (row : StepExecution) : Prop where
  executionId : row.executionId = execution
  stepId : row.stepId = step.id
  maxAttempts : row.maxAttempts = step.maxAttempts
  status :
    match ending with
    | none => row.status = .pending
    | some (.completed output) => row.status = .completed ∧ row.outputData = some output
    | some .skipped => row.status = .skipped
    | some .failed => row.status = .failed ∧ row.attempt = row.maxAttempts
  blank : ending = none ∨ ending = some .skipped → row.outputData = none

/-- Everything a walk is about. -/
structure RunPlan where
  runner : Runner
  session : SessionRef
  behaviour : Behaviour
  ids : RunIds
  steps : List StepDefinition
  triggerData : Dict String Json
  accepted : Accepted steps
  quiet : runner.Quiet
  mapped : ∀ step ∈ steps, ∃ sid, Dict.get? ids.stepMap step.id = some sid
  mapped_only : ∀ {s sid}, Dict.get? ids.stepMap s = some sid → s ∈ steps.map (·.id)

/-- The board carries what the log says. -/
structure Follows (p : RunPlan) (log : StepLog) (b : Board) : Prop where
  context : b.execution.context = runContext p.triggerData (entries log)
  rows : ∀ step ∈ p.steps, Fits p.ids.id step (Dict.get? log step.id) (b.row step.id)

/-- An invocation of `step` when the walk has come as far as `front`. -/
def Moment (p : RunPlan) (front : StepLog) (step : StepDefinition) (inv : Invocation) : Prop :=
  ∃ b, Follows p front b ∧ b.execution.status = .running ∧
    Invoked p.ids p.session step b inv

/-- The visit of one step. -/
structure Visit (p : RunPlan) (front : StepLog) (step : StepDefinition)
    (ending : Ending (Dict String Json)) (invs : List Invocation) : Prop where
  mem : step ∈ p.steps
  moment : ∀ inv ∈ invs, Moment p front step inv
  ran : ending ≠ .skipped ↔ invs ≠ []
  completed : ∀ output, ending = .completed output →
    Yields p.runner p.session p.behaviour step (runContext p.triggerData (entries front))
      (.ok output)
  failed : ending = .failed → ∃ e,
    Yields p.runner p.session p.behaviour step (runContext p.triggerData (entries front))
      (.error e)

/-- The visits of the steps of `rest`, after those of `front`. -/
inductive Visits (p : RunPlan) : StepLog → StepLog → List Invocation → Prop where
  | nil (front : StepLog) : Visits p front [] []
  | cons {front rest : StepLog} {step : StepDefinition} {ending : Ending (Dict String Json)}
      {invs invs' : List Invocation} (visit : Visit p front step ending invs)
      (tail : Visits p (front ++ [(step.id, ending)]) rest invs') :
      Visits p front ((step.id, ending) :: rest) (invs ++ invs')

/-- The walk can go on after this visit: if a condition step has completed then
the branch that it does not take is a set of steps. -/
def Settles (p : RunPlan) (entry : String × Ending (Dict String Json)) : Prop :=
  ∀ step ∈ p.steps, step.id = entry.1 → step.type = .condition →
    ∀ output, entry.2 = .completed output →
      ∃ members, branchSet (nonTakenBranch step output) = .ok members

/-- How a walk over `order` ends. -/
inductive Ends (p : RunPlan) (log rest : StepLog) (order : List String) (b : Board) :
    Except Raised Unit → Prop where
  /-- Every step was visited and none has failed. -/
  | completed (all : Dict.keys rest = order) (alive : Alive (log ++ rest))
      (settles : ∀ entry ∈ rest, Settles p entry)
      (status : b.execution.status = .completed) : Ends p log rest order b (.ok ())
  /-- The last visited step has failed. -/
  | failed (front : StepLog) (s : String) (last : rest = front ++ [(s, .failed)])
      (settles : ∀ entry ∈ front, Settles p entry)
      (status : b.execution.status = .failed) : Ends p log rest order b (.ok ())
  /-- The last visited step is a condition whose branch is not a set of steps. -/
  | stuck (front : StepLog) (step : StepDefinition) (output : Dict String Json) (e : PyError)
      (last : rest = front ++ [(step.id, .completed output)]) (mem : step ∈ p.steps)
      (condition : step.type = .condition)
      (unset : branchSet (nonTakenBranch step output) = .error e)
      (settles : ∀ entry ∈ front, Settles p entry)
      (status : b.execution.status = .running) :
      Ends p log rest order b (.error (.exception e))

section

variable {p : RunPlan} {log : StepLog} {b b' : Board} {step : StepDefinition}

theorem get?_concat_self {s : String} (hs : s ∉ Dict.keys log)
    (ending : Ending (Dict String Json)) :
    Dict.get? (log ++ [(s, ending)]) s = some ending := by
  rw [Dict.get?_append, (Dict.get?_eq_none_iff log s).mpr hs]
  simp [Dict.get?_cons]

theorem get?_concat_ne {s s' : String} (h : s' ≠ s) (ending : Ending (Dict String Json)) :
    Dict.get? (log ++ [(s, ending)]) s' = Dict.get? log s' := by
  rw [Dict.get?_append]
  cases Dict.get? log s' with
  | some e => rfl
  | none => simp [Dict.get?_cons, Ne.symm h]

/-- One more visit: only the row of the visited step and the context change. -/
theorem Follows.concat (h : Follows p log b) (hstep : step ∈ p.steps)
    (hnew : step.id ∉ Dict.keys log) {ending : Ending (Dict String Json)}
    (hctx : b'.execution.context =
      runContext p.triggerData (entries (log ++ [(step.id, ending)])))
    (hothers : ∀ s, s ≠ step.id → b'.row s = b.row s)
    (hrow : Fits p.ids.id step (some ending) (b'.row step.id)) :
    Follows p (log ++ [(step.id, ending)]) b' := by
  refine ⟨hctx, fun other hother => ?_⟩
  by_cases hid : other.id = step.id
  · obtain rfl := p.accepted.eq_of_id_eq hother hstep hid
    rwa [get?_concat_self hnew]
  · rw [get?_concat_ne hid, hothers _ hid]
    exact h.rows other hother

theorem Follows.pending (h : Follows p log b) (hstep : step ∈ p.steps)
    (hnew : step.id ∉ Dict.keys log) : (b.row step.id).status = .pending := by
  have hstatus := (h.rows step hstep).status
  rwa [(Dict.get?_eq_none_iff log step.id).mpr hnew] at hstatus

theorem branchDrops_step (hstep : step ∈ p.steps) (output : Dict String Json) :
    branchDrops p.steps step.id output =
      if step.type = .condition then
        match branchSet (nonTakenBranch step output) with
        | .ok members => members
        | .error _ => []
      else [] := by
  rw [branchDrops, stepDefs, p.accepted.stepDefs_get hstep]

/-- A step that the walk has dropped is skipped. -/
theorem run_skip {db : Db} {sid : Uuid} (h : Shows p.ids db b) (hfollows : Follows p log b)
    (hstep : step ∈ p.steps) (hnew : step.id ∉ Dict.keys log)
    (hs : Dict.get? p.ids.stepMap step.id = some sid) (env : Environment) :
    ∃ row db' env' b', (transitionStep sid .skipped none).run ⟨db, env⟩ = (.ok row, ⟨db', env'⟩) ∧
      env.Later [] env' ∧ Shows p.ids db' b' ∧ b'.execution = b.execution ∧
      Follows p (log ++ [(step.id, .skipped)]) b' := by
  have hallowed : StepStatus.skipped ∈ allowedStepTransitions (b.row step.id).status := by
    rw [hfollows.pending hstep hnew]
    decide
  obtain ⟨db', env', now, hrun, hlater, hshows⟩ := run_transitionStep h hs hallowed none env
  refine ⟨_, db', env', _, hrun, hlater, hshows, rfl, ?_⟩
  refine hfollows.concat hstep hnew (by simpa using hfollows.context)
    (fun s hne => Board.setRow_row_ne _ _ hne) ?_
  have hfits := hfollows.rows step hstep
  rw [Board.setRow_row_self]
  have hblank := hfits.blank (.inl ((Dict.get?_eq_none_iff log step.id).mpr hnew))
  exact ⟨hfits.executionId, hfits.stepId, hfits.maxAttempts, rfl, fun _ => hblank⟩

/-- A step that the walk has not dropped is visited: it completes or it uses
up its attempts. -/
theorem run_visit {db : Db} {sid : Uuid} (h : Shows p.ids db b) (hfollows : Follows p log b)
    (hstatus : b.execution.status = .running) (hstep : step ∈ p.steps)
    (hnew : step.id ∉ Dict.keys log) (hs : Dict.get? p.ids.stepMap step.id = some sid)
    {env : Environment} (hbehaviour : env.behaviour = p.behaviour) :
    ∃ success db' env' invs b',
      (executeStepWithRetry p.runner p.session p.ids.id step sid).run ⟨db, env⟩ =
        (.ok success, ⟨db', env'⟩) ∧
      env.Later (invs.map .invoked) env' ∧ Shows p.ids db' b' ∧
      b'.execution.status = .running ∧
      (success = true → ∃ output, Visit p log step (.completed output) invs ∧
        Follows p (log ++ [(step.id, .completed output)]) b' ∧
        (b'.row step.id).outputData = some output) ∧
      (success = false → Visit p log step .failed invs ∧
        Follows p (log ++ [(step.id, .failed)]) b') := by
  have hfits := hfollows.rows step hstep
  obtain ⟨success, db', env', invs, b', hrun, hlater, hne, hinvs, hshows, hdone⟩ :=
    run_executeStepWithRetry p.session p.quiet hs (not_mem_keys_entries hnew) h
      (hfollows.pending hstep hnew) (by rw [hfits.maxAttempts]; exact step.maxAttempts_pos)
      hfollows.context env
  have hmoment : ∀ inv ∈ invs, Moment p log step inv :=
    fun inv hinv => ⟨b, hfollows, hstatus, hinvs inv hinv⟩
  have hsame : (b'.row step.id).executionId = p.ids.id ∧ (b'.row step.id).stepId = step.id ∧
      (b'.row step.id).maxAttempts = step.maxAttempts :=
    ⟨hdone.same.1.trans hfits.executionId, hdone.same.2.1.trans hfits.stepId,
      hdone.same.2.2.trans hfits.maxAttempts⟩
  obtain ⟨hid, hstepId, hmax⟩ := hsame
  refine ⟨success, db', env', invs, b', hrun, hlater, hshows, ?_, fun hsuccess => ?_,
    fun hsuccess => ?_⟩
  · cases success with
    | true =>
      obtain ⟨output, -, hexecution, -⟩ := hdone.completed rfl
      rw [hexecution]
      exact hstatus
    | false =>
      obtain ⟨e, -, hexecution, -⟩ := hdone.failed rfl
      rw [hexecution]
      exact hstatus
  · obtain ⟨output, hyields, hexecution, hcompleted, houtput⟩ := hdone.completed hsuccess
    rw [hbehaviour, hfollows.context] at hyields
    refine ⟨output, ⟨hstep, hmoment, by simp [hne], ?_, by simp⟩, ?_, houtput⟩
    · rintro output' heq
      cases heq
      exact hyields
    · exact hfollows.concat hstep hnew (by simp [hexecution]) hdone.others
        ⟨hid, hstepId, hmax, ⟨hcompleted, houtput⟩, by simp⟩
  · obtain ⟨e, hyields, hexecution, hfailed, hattempt⟩ := hdone.failed hsuccess
    rw [hbehaviour, hfollows.context] at hyields
    refine ⟨⟨hstep, hmoment, by simp [hne], by simp, fun _ => ⟨e, hyields⟩⟩, ?_⟩
    refine hfollows.concat hstep hnew (by simpa [hexecution] using hfollows.context) hdone.others
      ⟨hid, hstepId, hmax, ⟨hfailed, ?_⟩, by simp⟩
    rw [hattempt, hmax, hfits.maxAttempts]

/-- A walk that ends so after one more visit ends so. -/
theorem Ends.cons {rest : StepLog} {order : List String} {result : Except Raised Unit}
    {entry : String × Ending (Dict String Json)}
    (h : Ends p (log ++ [entry]) rest order b result) (hentry : Settles p entry) :
    Ends p log (entry :: rest) (entry.1 :: order) b result := by
  cases h with
  | completed all alive settles status =>
    exact .completed (by simpa [Dict.keys] using all) (by simpa using alive)
      (List.forall_mem_cons.mpr ⟨hentry, settles⟩) status
  | failed front s last settles status =>
    exact .failed (entry :: front) s (by simp [last])
      (List.forall_mem_cons.mpr ⟨hentry, settles⟩) status
  | stuck front step output e last mem condition unset settles status =>
    exact .stuck (entry :: front) step output e (by simp [last]) mem condition unset
      (List.forall_mem_cons.mpr ⟨hentry, settles⟩) status

/-- The walk over the rest of the order. -/
theorem run_executeDagFrom (order : List String) {db : Db}
    (horder : Dict.keys log ++ order = topologicalSort p.steps)
    (hwalk : Walk (branchDrops p.steps) log) (halive : Alive log) (h : Shows p.ids db b)
    (hfollows : Follows p log b) (hstatus : b.execution.status = .running)
    {env : Environment} (hbehaviour : env.behaviour = p.behaviour) :
    ∃ rest result db' env' invs b',
      (executeDagFrom p.runner p.session p.ids.id (stepDefs p.steps) p.ids.stepMap order
        (dropped (branchDrops p.steps) log)).run ⟨db, env⟩ = (result, ⟨db', env'⟩) ∧
      env.Later (invs.map .invoked) env' ∧ Shows p.ids db' b' ∧ Follows p (log ++ rest) b' ∧
      Walk (branchDrops p.steps) (log ++ rest) ∧ Visits p log rest invs ∧
      (∃ later, order = Dict.keys rest ++ later) ∧ Ends p log rest order b' result := by
  induction order generalizing log db b env with
  | nil =>
    obtain ⟨db', env', now, e, hrun, hlater, hshows⟩ := run_transitionExecution h
      (show ExecutionStatus.completed ∈ allowedExecutionTransitions b.execution.status by
        rw [hstatus]; decide) env
    refine ⟨[], .ok (), db', env', [], _, ?_, hlater, hshows, ?_, by simpa using hwalk, .nil log,
      ⟨[], rfl⟩, .completed rfl (by simpa using halive) (by simp) rfl⟩
    · rw [executeDagFrom, Prog.run_bind_ok hrun]
      rfl
    · rw [List.append_nil]
      exact ⟨hfollows.context, hfollows.rows⟩
  | cons s order ih =>
    -- The next step of the order is a step of the workflow that was not visited.
    have hmem : s ∈ topologicalSort p.steps := by simp [← horder]
    obtain ⟨step, hstep, rfl⟩ := List.mem_map.mp (p.accepted.mem_order.mp hmem)
    obtain ⟨sid, hs⟩ := p.mapped step hstep
    have hnew : step.id ∉ Dict.keys log := by
      have hnodup := p.accepted.order_nodup
      rw [← horder, List.nodup_append] at hnodup
      exact fun hold => hnodup.2.2 step.id hold step.id (by simp) rfl
    have horder' : ∀ ending : Ending (Dict String Json),
        Dict.keys (log ++ [(step.id, ending)]) ++ order = topologicalSort p.steps := by
      intro ending
      rw [← horder]
      simp [Dict.keys]
    rw [executeDagFrom]
    simp only [p.accepted.stepDefs_get hstep, hs]
    -- What follows the visit of `step` is the induction hypothesis.
    have hnext : ∀ {ending invs₁ db₁ env₁ b₁}, Visit p log step ending invs₁ →
        Walk (branchDrops p.steps) (log ++ [(step.id, ending)]) →
        Alive (log ++ [(step.id, ending)]) → env.Later (invs₁.map .invoked) env₁ →
        Shows p.ids db₁ b₁ → Follows p (log ++ [(step.id, ending)]) b₁ →
        b₁.execution.status = .running → Settles p (step.id, ending) →
        ∃ rest result db' env' invs b',
          (executeDagFrom p.runner p.session p.ids.id (stepDefs p.steps) p.ids.stepMap order
            (dropped (branchDrops p.steps) (log ++ [(step.id, ending)]))).run ⟨db₁, env₁⟩ =
              (result, ⟨db', env'⟩) ∧
          env.Later (invs.map .invoked) env' ∧ Shows p.ids db' b' ∧ Follows p (log ++ rest) b' ∧
          Walk (branchDrops p.steps) (log ++ rest) ∧ Visits p log rest invs ∧
          (∃ later, step.id :: order = Dict.keys rest ++ later) ∧
          Ends p log rest (step.id :: order) b' result := by
      intro ending invs₁ db₁ env₁ b₁ hvisit hwalk₁ halive₁ hlater₁ hshows₁ hfollows₁ hstatus₁
        hsettles
      obtain ⟨rest, result, db', env', invs, b', hrest, hlater', hshows', hfollows', hwalk',
        hvisits, ⟨later, hkeys⟩, hends⟩ := ih (horder' ending) hwalk₁ halive₁ hshows₁ hfollows₁
          hstatus₁ (hlater₁.behaviour.trans hbehaviour)
      rw [List.append_assoc] at hfollows' hwalk'
      refine ⟨(step.id, ending) :: rest, result, db', env', invs₁ ++ invs, b', hrest,
        by simpa using hlater₁.trans hlater', hshows', hfollows', hwalk', .cons hvisit hvisits,
        ⟨later, ?_⟩, hends.cons hsettles⟩
      simp [hkeys, Dict.keys]
    by_cases hdropped : step.id ∈ dropped (branchDrops p.steps) log
    · rw [if_pos hdropped]
      obtain ⟨row, db₁, env₁, b₁, hrun, hlater₁, hshows₁, hexecution, hfollows₁⟩ :=
        run_skip h hfollows hstep hnew hs env
      rw [Prog.run_bind_ok hrun]
      have hvisit : Visit p log step .skipped [] := ⟨hstep, by simp, by simp, by simp, by simp⟩
      simpa using hnext hvisit (.skip hwalk halive hdropped) (halive.concat (by simp)) hlater₁
        hshows₁ hfollows₁ (by rw [hexecution, hstatus]) (by simp [Settles])
    · rw [if_neg hdropped]
      obtain ⟨success, db₁, env₁, invs₁, b₁, hrun, hlater₁, hshows₁, hstatus₁, hcompleted,
        hfailed⟩ := run_visit h hfollows hstatus hstep hnew hs hbehaviour
      rw [Prog.run_bind_ok hrun]
      cases success with
      | false =>
        obtain ⟨hvisit, hfollows₁⟩ := hfailed rfl
        obtain ⟨db₂, hassign, hshows₂⟩ := run_assignExecution hshows₁ (fun row =>
          { row with status := .failed, error := some (exhaustedText step.id) })
          (fun _ _ => rfl) env₁
        refine ⟨[(step.id, .failed)], .ok (), db₂, env₁, invs₁, _, ?_, hlater₁, hshows₂,
          ⟨hfollows₁.context, hfollows₁.rows⟩, .run hwalk halive hdropped (by simp), ?_,
          ⟨order, rfl⟩, .failed [] step.id rfl (by simp) rfl⟩
        · simp only [Bool.false_eq_true, if_false]
          exact Prog.run_bind_ok hassign
        · simpa using Visits.cons hvisit (.nil _)
      | true =>
        obtain ⟨output, hvisit, hfollows₁, houtput⟩ := hcompleted rfl
        have hwalk₁ : Walk (branchDrops p.steps) (log ++ [(step.id, .completed output)]) :=
          .run hwalk halive hdropped (by simp)
        have halive₁ : Alive (log ++ [(step.id, .completed output)]) := halive.concat (by simp)
        simp only [if_true]
        by_cases hcondition : step.type = .condition
        · rw [if_pos hcondition]
          obtain ⟨db₂, hread, hshows₂⟩ := run_readStep hshows₁ hs env₁
          rw [Prog.run_bind_ok hread]
          have hresolve : resolveConditionBranches step (b₁.row step.id) =
              branchSet (nonTakenBranch step output) := by
            rw [resolveConditionBranches, houtput, nonTakenBranch]
          rw [hresolve]
          cases hset : branchSet (nonTakenBranch step output) with
          | error e =>
            refine ⟨[(step.id, .completed output)], .error (.exception e), db₂, env₁, invs₁, b₁,
              ?_, hlater₁, hshows₂, hfollows₁, hwalk₁, ?_, ⟨order, rfl⟩,
              .stuck [] step output e rfl hstep hcondition hset (by simp) hstatus₁⟩
            · exact Prog.run_bind_error (Prog.run_liftExcept _ _)
            · simpa using Visits.cons hvisit (.nil _)
          | ok members =>
            rw [Prog.run_bind_ok (Prog.run_liftExcept _ _)]
            have hdrops : branchDrops p.steps step.id output = members := by
              rw [branchDrops_step hstep, if_pos hcondition, hset]
            have hsettles : Settles p (step.id, .completed output) := by
              intro other hother hid _ output' houtput'
              obtain rfl := p.accepted.eq_of_id_eq hother hstep hid
              cases houtput'
              exact ⟨members, hset⟩
            simpa [hdrops] using hnext hvisit hwalk₁ halive₁ hlater₁ hshows₂ hfollows₁ hstatus₁
              hsettles
        · rw [if_neg hcondition]
          have hdrops : branchDrops p.steps step.id output = [] := by
            rw [branchDrops_step hstep, if_neg hcondition]
          have hsettles : Settles p (step.id, .completed output) := by
            intro other hother hid hother'
            rw [p.accepted.eq_of_id_eq hother hstep hid] at hother'
            exact absurd hother' hcondition
          simpa [hdrops] using hnext hvisit hwalk₁ halive₁ hlater₁ hshows₁ hfollows₁ hstatus₁
            hsettles

/-! ## What the visits say -/

/-- An invocation belongs to one visit. -/
theorem Visits.moment {front rest : StepLog} {invs : List Invocation} {inv : Invocation}
    (h : Visits p front rest invs) (hinv : inv ∈ invs) :
    ∃ pre step ending post, front ++ rest = pre ++ (step.id, ending) :: post ∧
      step ∈ p.steps ∧ ending ≠ .skipped ∧ Moment p pre step inv := by
  induction h with
  | nil => simp at hinv
  | @cons front rest step ending invs₁ invs₂ visit tail ih =>
    rcases List.mem_append.mp hinv with hfirst | hrest
    · exact ⟨front, step, ending, rest, rfl, visit.mem,
        visit.ran.mpr (List.ne_nil_of_mem hfirst), visit.moment inv hfirst⟩
    · obtain ⟨pre, step', ending', post, heq, hmoment⟩ := ih hrest
      exact ⟨pre, step', ending', post, by simpa using heq, hmoment⟩

/-- Every entry of the log is one visit. -/
theorem Visits.visit {front mid post : StepLog} {invs : List Invocation} {s : String}
    {ending : Ending (Dict String Json)}
    (h : Visits p front (mid ++ (s, ending) :: post) invs) :
    ∃ step invs', step.id = s ∧ Visit p (front ++ mid) step ending invs' ∧ invs' ⊆ invs := by
  generalize hrest : mid ++ (s, ending) :: post = rest at h
  induction h generalizing mid with
  | nil => simp at hrest
  | @cons front rest step ending' invs₁ invs₂ visit tail ih =>
    cases mid with
    | nil =>
      simp only [List.nil_append, List.cons.injEq, Prod.mk.injEq] at hrest
      obtain ⟨⟨rfl, rfl⟩, -⟩ := hrest
      exact ⟨step, invs₁, rfl, by simpa using visit, List.subset_append_left _ _⟩
    | cons entry mid =>
      simp only [List.cons_append, List.cons.injEq] at hrest
      obtain ⟨rfl, hrest⟩ := hrest
      obtain ⟨step', invs', hid, hvisit, hsub⟩ := ih hrest
      exact ⟨step', invs', hid, by simpa using hvisit,
        List.Subset.trans hsub (List.subset_append_right _ _)⟩

end

end WorkflowEngine

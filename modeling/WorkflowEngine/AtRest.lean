import WorkflowEngine.EntryEffects

/-!
# Between two requests

A start runs all steps of an execution before anything of it is committed.  So between two
requests every execution is over, but for those that a webhook has started and that got
stuck: the handler of the webhook commits what the run has left.  Cancelling and cleaning up
find no others.
-/

namespace WorkflowEngine

open Py Orm Interact

/-- The execution began in a webhook request, and got stuck there: it was started with a copy of
its workflow, which was stored or in the cache then, in which a condition step cannot set a
branch. -/
def StuckSince (libs : Libraries) (settings : Settings) (wire : Wire) (s : Engine) (id : Uuid)
    (e : Execution) : Prop :=
  ∃ (s₀ s₁ : Engine) (request : WebhookRequest) (session : SessionRef) (fuel : Nat)
    (env : Environment), Engine.Reachable libs settings wire s₀ ∧
    s₀.Offers (.trigger (.webhook request)) ∧
    s₁ = s₀.after env ((Entry.trigger (.webhook request)).program libs settings wire session fuel) ∧
    Relation.ReflTransGen (Engine.Step libs settings wire) s₁ s ∧
    Rows.row s₀.rows (.execution id) = none ∧ (Rows.row s₁.rows (.execution id)).isSome = true ∧
    Stuck libs settings s₀.Copies e

/-- Every execution is over, or is stuck. -/
def AtRest (libs : Libraries) (settings : Settings) (wire : Wire) (s : Engine) : Prop :=
  ∀ id (e : Execution), Rows.row s.rows (.execution id) = some e → e.status.terminal = false →
    StuckSince libs settings wire s id e

section

variable {libs : Libraries} {settings : Settings} {copies : Uuid → Workflow → Prop} {wire : Wire}

theorem Stuck.congr {v' : View} {e e' : Execution} (h : Stuck libs settings copies e)
    (hkept : KeepsExecution v' e e') : Stuck libs settings copies e' := by
  refine ⟨?_, ?_, ?_, hkept.begun h.begun⟩
  · rcases hkept.replayedFrom with hreplayed | ⟨hreplayed, -⟩
    · exact hreplayed.trans h.original
    · exact hreplayed
  · rw [hkept.triggerData]
    exact h.triggerData
  · rw [hkept.workflowId, hkept.tenantId]
    exact h.unset

theorem StuckSince.stuck {s : Engine} {id : Uuid} {e : Execution}
    (h : StuckSince libs settings wire s id e) : ∃ copies, Stuck libs settings copies e := by
  rcases h with ⟨s₀, s₁, request, session, fuel, env, -, -, -, -, -, -, hstuck⟩
  exact ⟨s₀.Copies, hstuck⟩

variable {s s' : Engine}

/-- An execution that is not over after a step got stuck in the step, or before. -/
theorem AtRest.step (h : AtRest libs settings wire s) (hs : Engine.Reachable libs settings wire s)
    (hstep : Engine.Step libs settings wire s s') : AtRest libs settings wire s' := by
  intro id e' hrow' hactive'
  have hkept : ∀ {copies}, Effect libs settings copies (Rows.row s.rows) (Rows.row s'.rows) →
      ∀ e : Execution, Rows.row s.rows (.execution id) = some e → e.status.terminal = false →
        StuckSince libs settings wire s' id e' := by
    intro copies heffect e hrow hactive
    obtain ⟨s₀, s₁, request, session, fuel, env, hs₀, hoffers, hbegan, hsince, hnone, hsome,
      hstuck⟩ := h id e hrow hactive
    exact ⟨s₀, s₁, request, session, fuel, env, hs₀, hoffers, hbegan, hsince.tail hstep, hnone,
      hsome, hstuck.congr (heffect.execution id e e' hrow hrow')⟩
  have hrefl : Effect libs settings s.Copies (Rows.row s.rows) (Rows.row s.rows) := Effect.refl _
  cases hstep with
  | entry entry session fuel env hoffers =>
    have heffect : Effect libs settings (s.CopiesFor entry) (Rows.row s.rows)
        (Rows.row (s.after env (entry.program libs settings wire session fuel)).rows) :=
      hs.sound.effect hoffers session fuel env
    rcases heffect.active id e' hrow' hactive' with ⟨e, hrow, hactive⟩ | ⟨hnone, hstuck⟩
    · exact hkept heffect e hrow hactive
    · obtain ⟨workflow, parsed, ⟨⟨request, rfl⟩, hcopy⟩, hunset⟩ := hstuck.unset
      exact ⟨s, _, request, session, fuel, env, hs, hoffers, rfl, .refl, hnone,
        Option.isSome_iff_exists.mpr ⟨e', hrow'⟩, hstuck.original, hstuck.triggerData,
        ⟨workflow, parsed, hcopy, hunset⟩, hstuck.begun⟩
  | schedule => exact hkept hrefl e' hrow' hactive'
  | cache => exact hkept hrefl e' hrow' hactive'
  | drop => exact hkept hrefl e' hrow' hactive'

theorem Engine.Reachable.atRest (h : Engine.Reachable libs settings wire s) :
    AtRest libs settings wire s := by
  unfold Engine.Reachable at h
  induction h with
  | refl => exact fun _ _ hrow => by simp [Engine.initial, Rows.row] at hrow
  | tail hreached hstep ih => exact ih.step hreached hstep

/-- In every state that the engine reaches, an execution that is pending or running was
started by a webhook, for a workflow in which a condition step cannot set a branch.  To
cancel a replay, or an execution that was started otherwise, is refused and changes
nothing. -/
theorem cancellable_of_reachable (h : Engine.Reachable libs settings wire s) :
    AtRest libs settings wire s ∧
      ∀ id (e : Execution) env, Rows.row s.rows (.execution id) = some e →
        (e.replayedFrom.isSome = true ∨ Dict.get? e.triggerData "payload" = none) →
        ∃ w, (cancelExecution id e.tenantId).run ⟨⟨s.rows, Session.fresh⟩, env⟩ =
          (.error (.app (executionRefusal e.status .cancelled)), w) ∧ w.db.committed = s.rows := by
  refine ⟨h.atRest, fun id e env hrow hother => ?_⟩
  have hterminal : e.status.terminal = true := by
    by_contra hactive
    rcases (h.atRest id e hrow (Bool.eq_false_iff.mpr hactive)).stuck with ⟨copies, hstuck⟩
    rcases hother with hreplay | hdata
    · rw [hstuck.original] at hreplay
      cases hreplay
    · rcases hstuck.triggerData with ⟨payload, headers, htrigger⟩
      rw [htrigger] at hdata
      cases hdata
  have hstatus : e.status ∉ [ExecutionStatus.pending, .running] := by
    cases hcase : e.status <;> simp_all [ExecutionStatus.terminal]
  rcases run_cancelExecution_refused env hrow rfl hstatus with ⟨hresult, hcommitted⟩
  exact ⟨_, Prod.ext hresult rfl, hcommitted⟩

/-- A workflow with a webhook, whose first step takes numbers for the names of its branches. -/
def stuckBody : WorkflowCreateRequest :=
  { Engine.hookBody with
    name := "stuck"
    steps := [[("id", .str "only"), ("type", .str "condition"),
      ("config", .obj [("expression", .str ""), ("true_branch", .int 1), ("false_branch", .int 1)])],
      [("id", .str "rest"), ("type", .str "transform"), ("depends_on", .arr [.str "only"]),
        ("config", .obj [("expression", .str "a")])]]
    name_nonempty := by decide
    name_short := by decide
    steps_nonempty := by decide }

/-- The workflow is created, and its webhook is called. -/
def stuckEngine : Engine :=
  (Engine.initial.afterEntry (.createWorkflow stuckBody 7 0)).afterEntry
    (.trigger (.webhook ⟨generateWebhookPath 0, "POST", [], [], none, none⟩))

theorem reachable_stuckEngine : Engine.Reachable plainLibraries {} plainWire stuckEngine := by
  have hempty : Engine.Reachable plainLibraries {} plainWire .initial := .refl
  unfold stuckEngine
  apply Engine.Reachable.afterEntry
  · exact hempty.afterEntry trivial
  · exact nofun

/-- The execution that the webhook has left is stuck, and the replay of an execution that is
over cannot be cancelled. -/
theorem cancellable_stuckEngine :
    (∃ e : Execution, Rows.row stuckEngine.rows (.execution 9) = some e ∧ e.status = .running ∧
      StuckSince plainLibraries {} plainWire stuckEngine 9 e) ∧
    ∃ e : Execution, Rows.row Engine.replayedEngine.rows (.execution 11) = some e ∧
      ∃ w, (cancelExecution 11 e.tenantId).run
          ⟨⟨Engine.replayedEngine.rows, Session.fresh⟩, Engine.quietEnvironment⟩ =
        (.error (.app (executionRefusal e.status .cancelled)), w) ∧
          w.db.committed = Engine.replayedEngine.rows := by
  have hrunning : (Rows.row stuckEngine.rows (.execution 9)).any
      (fun e : Execution => e.status = .running) = true := by decide +kernel
  have hreplay : (Rows.row Engine.replayedEngine.rows (.execution 11)).any
      (fun e : Execution => e.replayedFrom.isSome) = true := by decide +kernel
  rcases (Option.any_eq_true _ _).mp hrunning with ⟨e, hrow, hstatus⟩
  have hstatus : e.status = .running := of_decide_eq_true hstatus
  refine ⟨⟨e, hrow, hstatus, ?_⟩, ?_⟩
  · exact (cancellable_of_reachable reachable_stuckEngine).1 9 e hrow (by rw [hstatus]; rfl)
  · rcases (Option.any_eq_true _ _).mp hreplay with ⟨e, hrow, hreplayed⟩
    exact ⟨e, hrow, (cancellable_of_reachable Engine.reachable_replayedEngine).2 11 e _ hrow
      (.inl hreplayed)⟩

/-! ## Cleaning up -/

/-- Every execution that is running has a start time. -/
def Dated (v : View) : Prop :=
  ∀ id (e : Execution), v (.execution id) = some e → e.status = .running → e.startedAt.isSome = true

theorem Dated.effect {v v' : View} (h : Dated v) (heffect : Effect libs settings copies v v') :
    Dated v' := by
  intro id e' hrow'
  cases hrow : v (.execution id) with
  | none => exact (heffect.steps.recorded id e' hrow hrow').dated
  | some e => exact (heffect.execution id e e' hrow hrow').dated (h id e hrow)

theorem Engine.Reachable.dated (h : Engine.Reachable libs settings wire s) :
    Dated (Rows.row s.rows) :=
  h.holds (fun _ _ hrow => by simp [Rows.row] at hrow) fun _ _ _ _ heffect hold =>
    hold.effect heffect

/-- An execution that is not over is running, since a time that is known. -/
theorem Engine.Reachable.started (h : Engine.Reachable libs settings wire s) {id : Uuid}
    {e : Execution} (hrow : Rows.row s.rows (.execution id) = some e)
    (hactive : e.status.terminal = false) : e.status = .running ∧ ∃ t, e.startedAt = some t := by
  have hrunning : e.status = .running := by
    rcases (h.atRest id e hrow hactive).stuck with ⟨copies, hstuck⟩
    have hbegun := hstuck.begun
    cases hstatus : e.status <;> simp_all [ExecutionStatus.terminal]
  exact ⟨hrunning, Option.isSome_iff_exists.mp (h.dated id e hrow hrunning)⟩

theorem isStale_iff {id : Uuid} {e : Execution} {cutoff : Time} :
    isStale cutoff (.execution id) e = true ↔
      e.status = .running ∧ ∃ t, e.startedAt = some t ∧ t < cutoff := by
  simp [isStale, Option.any_eq_true]

/-- What a clean-up at `now` with this cutoff does to executions and their steps. -/
structure CleanedUp (cutoff now : Time) (v v' : View) : Prop where
  recovered : ∀ id (e' : Execution), v' (.execution id) = some e' → e'.status.terminal = false →
    ∃ started, e'.startedAt = some started ∧ cutoff ≤ started
  stale : ∀ id (e : Execution) started, v (.execution id) = some e → e.status.terminal = false →
    e.startedAt = some started → started < cutoff →
      v' (.execution id) = some { e with
        status := .failed, error := some staleErrorMsg, completedAt := some now } ∧
      ∀ sid (row : StepExecution), v (.step sid) = some row → row.executionId = id →
        (row.status ∈ [StepStatus.pending, .running, .queued] → v' (.step sid) = some { row with
          status := .failed, error := some staleStepErrorMsg, completedAt := some now }) ∧
        (row.status ∉ [StepStatus.pending, .running, .queued] → v' (.step sid) = some row)
  kept : ∀ id (e : Execution), v (.execution id) = some e →
    (e.status.terminal = true ∨ ∃ started, e.startedAt = some started ∧ cutoff ≤ started) →
      v' (.execution id) = some e ∧
        ∀ sid (row : StepExecution), v (.step sid) = some row → row.executionId = id →
          v' (.step sid) = some row
  elsewhere : ∀ k, (¬ OfRun k ∨ v k = none) → v' k = v k

/-- A step of an execution that is stale is failed if it is not over. -/
theorem cleanedRow_step_of_stale {t : Rows Row} {cutoff now : Time} {id sid : Uuid} {e : Execution}
    (hrow : Rows.row t (.execution id) = some e) (hstale : isStale cutoff (.execution id) e = true)
    {row : StepExecution} (hid : row.executionId = id) :
    cleanedRow t cutoff now (.step sid) row =
      if row.status ∈ [StepStatus.pending, .running, .queued] then failStep now (.step sid) row
      else row := by
  have hany : (Rows.row t (.execution row.executionId)).any
      (isStale cutoff (.execution row.executionId)) = true := by
    rw [hid, hrow]
    exact hstale
  simp only [cleanedRow, hany, true_and]

/-- In every state that the engine reaches, a clean-up fails exactly the executions that are not
over and were started more than an hour ago, with all their steps that are not over.  What is
over, or was started later, stays as it is. -/
theorem cleanup_of_reachable (h : Engine.Reachable libs settings wire s) (env : Environment) :
    ∃ count db' env', cleanupStaleExecutions.run ⟨⟨s.rows, Session.fresh⟩, env⟩ =
        (.ok count, ⟨db', env'⟩) ∧
      CleanedUp (env.clock env.readings - staleThreshold) (env.clock (env.readings + 1))
        (Rows.row s.rows) (Rows.row db'.committed) := by
  rcases run_cleanupStaleExecutions s.rows env with ⟨db', env', hrun, hrows⟩
  refine ⟨_, db', env', hrun, fun id e' hrow' hactive => ?_,
    fun id e started hrow hactive hstarted hlate => ?_, fun id e hrow hdone => ?_, fun k hk => ?_⟩
  · rw [hrows] at hrow'
    rcases Option.map_eq_some_iff.mp hrow' with ⟨e, hrow, rfl⟩
    simp only [cleanedRow] at hactive ⊢
    split at hactive
    · cases hactive
    · rename_i hfresh
      rw [if_neg hfresh]
      obtain ⟨hrunning, started, hstarted⟩ := h.started hrow hactive
      refine ⟨started, hstarted, not_lt.mp fun hlate => hfresh ?_⟩
      exact isStale_iff.mpr ⟨hrunning, started, hstarted, hlate⟩
  · have hstale : isStale (env.clock env.readings - staleThreshold) (.execution id) e = true :=
      isStale_iff.mpr ⟨(h.started hrow hactive).1, started, hstarted, hlate⟩
    refine ⟨?_, fun sid row hstep hid => ?_⟩
    · rw [hrows, hrow, Option.map_some]
      simp only [cleanedRow]
      rw [if_pos hstale]
      rfl
    · rw [hrows, hstep, Option.map_some, cleanedRow_step_of_stale hrow hstale hid]
      exact ⟨fun hunfinished => congrArg some (if_pos hunfinished),
        fun hover => congrArg some (if_neg hover)⟩
  · have hfresh : ¬ isStale (env.clock env.readings - staleThreshold) (.execution id) e = true := by
      rw [isStale_iff]
      rintro ⟨hrunning, started, hstarted, hlate⟩
      rcases hdone with hterminal | ⟨started', hstarted', hlater⟩
      · rw [hrunning] at hterminal
        cases hterminal
      · rw [hstarted] at hstarted'
        cases hstarted'
        exact absurd hlate (not_lt.mpr hlater)
    refine ⟨?_, fun sid row hstep hid => ?_⟩
    · rw [hrows, hrow, Option.map_some]
      simp only [cleanedRow]
      rw [if_neg hfresh]
    · rw [hrows, hstep, Option.map_some]
      simp only [cleanedRow]
      rw [if_neg]
      rw [hid, hrow, Option.any_some]
      exact fun hstale => hfresh hstale.1
  · rw [hrows]
    cases hrow : Rows.row s.rows k with
    | none => rfl
    | some row =>
      have hother : ¬ OfRun k := hk.resolve_right (by simp [hrow])
      cases k with
      | workflow id => rfl
      | delivery id => rfl
      | execution id => exact absurd trivial hother
      | step id => exact absurd trivial hother

/-- Two hours later. -/
def laterEnvironment : Environment :=
  { Engine.quietEnvironment with clock := fun _ => 2 * staleThreshold }

/-- The execution is running and its second step is pending, until they are cleaned up. -/
theorem cleanup_stuckEngine : ∃ (e : Execution) (row : StepExecution),
    Rows.row stuckEngine.rows (.execution 9) = some e ∧ e.status = .running ∧
    Rows.row stuckEngine.rows (.step 11) = some row ∧ row.status = .pending ∧
      ∃ count db' env', cleanupStaleExecutions.run ⟨⟨stuckEngine.rows, Session.fresh⟩,
        laterEnvironment⟩ = (.ok count, ⟨db', env'⟩) ∧
          Rows.row db'.committed (.execution 9) = some { e with
            status := .failed, error := some staleErrorMsg
            completedAt := some (2 * staleThreshold) } ∧
          Rows.row db'.committed (.step 11) = some { row with
            status := .failed, error := some staleStepErrorMsg
            completedAt := some (2 * staleThreshold) } := by
  have hfound : (Rows.row stuckEngine.rows (.execution 9)).any (fun e : Execution =>
      e.status = .running && e.startedAt.any (· < staleThreshold)) = true := by
    decide +kernel
  have hwaiting : (Rows.row stuckEngine.rows (.step 11)).any (fun row : StepExecution =>
      row.executionId = 9 && row.status = .pending) = true := by
    decide +kernel
  rcases (Option.any_eq_true _ _).mp hfound with ⟨e, hrow, hall⟩
  simp only [Bool.and_eq_true, decide_eq_true_eq, Option.any_eq_true] at hall
  obtain ⟨hrunning, started, hstarted, hlate⟩ := hall
  rcases (Option.any_eq_true _ _).mp hwaiting with ⟨row, hstep, hboth⟩
  simp only [Bool.and_eq_true, decide_eq_true_eq] at hboth
  obtain ⟨hid, hpending⟩ := hboth
  rcases cleanup_of_reachable reachable_stuckEngine laterEnvironment with
    ⟨count, db', env', hrun, hcleaned⟩
  have hcutoff : started < 2 * staleThreshold - staleThreshold := by
    rwa [two_mul, add_sub_cancel_right]
  obtain ⟨hfailed, hsteps⟩ := hcleaned.stale 9 e started hrow (by rw [hrunning]; rfl) hstarted hcutoff
  exact ⟨e, row, hrow, hrunning, hstep, hpending, count, db', env', hrun, hfailed,
    (hsteps 11 row hstep hid).1 (by rw [hpending]; decide)⟩

end

end WorkflowEngine

import WorkflowEngine.Walk

/-!
# A run of `start_execution`

`start_execution` creates the execution and its steps, stores the metadata,
walks, and reads the execution back.  `Run` collects what is known of a run of
an accepted workflow, and `run_startExecution` says that every run is one.

The metadata never reaches the row: it is put into the context object in place
and assigned again, which the mapper does not see (`run_storeMetadata`).
-/

namespace WorkflowEngine

open Py Orm Interact SkipWalk

section

variable {r : RunIds} {db : Db} {b : Board} {env : Environment}

/-- The metadata changes the mapped object only. -/
theorem run_storeMetadata (h : Shows r db b) (hne : b.attrs.isEmpty = false) (depth : Int)
    (tenantId : Uuid) (env : Environment) :
    ∃ db', (storeMetadata r.id depth tenantId).run ⟨db, env⟩ = (.ok (), ⟨db', env⟩) ∧
      Shows r db' { b with attrs := withMetadata depth tenantId b.attrs } := by
  let ctx := withMetadata depth tenantId b.attrs
  let changed := db.load (.execution r.id) { b.execution with context := ctx } .current
  have htouch : (touchContext r.id (fun ctx =>
      if ctx.value.isEmpty then ctx.assign (withMetadata depth tenantId [])
      else (ctx.mutate (withMetadata depth tenantId)).reassign)).run ⟨db, env⟩ =
      (.ok (some { b.execution with context := ctx }), ⟨changed, env⟩) := by
    rw [touchContext, run_db, DbState.answer_touch_silent h.mapped rfl]
    simp only [contextOf, hne]
    rfl
  have hflush : (flushContext r.id).run ⟨changed, env⟩ =
      (.ok (some { b.execution with context := ctx }),
        ⟨changed.load (.execution r.id) { b.execution with context := ctx } .nothing, env⟩) := by
    rw [flushContext, run_db, DbState.answer_touch_silent (DbState.loaded_load_self _ _ _ _) rfl]
    rfl
  refine ⟨_, (Prog.run_bind_ok htouch).trans (Prog.run_bind_ok hflush), ?_⟩
  rw [DbState.load_load]
  exact h.load_execution ctx

/-- The ids of a run with one more step row. -/
def RunIds.extend (r : RunIds) (s : String) (sid : Uuid)
    (hsid : ∀ s', Dict.get? r.stepMap s' ≠ some sid) : RunIds where
  id := r.id
  committed := r.committed
  rest := r.rest
  stepMap := Dict.set r.stepMap s sid
  stepMap_inj := by
    intro s₁ s₂ sid' h₁ h₂
    rw [Dict.get?_set] at h₁ h₂
    split at h₁ <;> split at h₂
    · simp_all
    · cases h₁
      exact absurd h₂ (hsid s₂)
    · cases h₂
      exact absurd h₁ (hsid s₁)
    · exact r.stepMap_inj h₁ h₂

/-- A new step row joins the board. -/
theorem Shows.insert_step (h : Shows r db b) {s : String} (hs : s ∉ Dict.keys r.stepMap)
    (row : StepExecution) :
    ∃ hsid, Shows (r.extend s db.newUuid hsid)
      ((db.load (.step db.newUuid) row ()).write (.step db.newUuid) (some row))
      (b.setRow s row) := by
  have hfresh : db.view (.step db.newUuid) = none := Db.view_newUuid rfl
  have hsid : ∀ s', Dict.get? r.stepMap s' ≠ some db.newUuid := by
    intro s' hs'
    have hrow := h.seen.step hs'
    rw [hfresh] at hrow
    cases hrow
  have hview : ∀ k, k ≠ .step db.newUuid →
      ((db.load (.step db.newUuid) row ()).write (.step db.newUuid) (some row)).view k =
        db.view k := by
    intro k hk
    rw [DbState.view_write_ne _ _ hk, DbState.view_load]
  have hcases : ∀ {s' sid'}, Dict.get? (Dict.set r.stepMap s db.newUuid) s' = some sid' →
      (s' = s ∧ sid' = db.newUuid) ∨
        (s' ≠ s ∧ sid' ≠ db.newUuid ∧ Dict.get? r.stepMap s' = some sid') := by
    intro s' sid' hs'
    rw [Dict.get?_set] at hs'
    split at hs'
    · rename_i heq
      exact .inl ⟨heq.symm, (Option.some.inj hs').symm⟩
    · rename_i hne
      refine .inr ⟨Ne.symm hne, ?_, hs'⟩
      rintro rfl
      exact hsid s' hs'
  refine ⟨hsid, ⟨?_, fun {s' sid'} hs' => ?_, fun {sid' row'} hrow hid => ?_,
    fun k hk hsteps => ?_⟩, h.committed, ?_, fun {s' sid'} hs' => ?_⟩
  · exact (hview _ (by simp)).trans h.seen.execution
  · rcases hcases hs' with ⟨rfl, rfl⟩ | ⟨hne, hsid', hold⟩
    · simp
    · rw [hview _ (by simpa using hsid'), h.seen.step hold, Board.setRow_row_ne _ _ hne]
  · by_cases heq : sid' = db.newUuid
    · exact ⟨s, by rw [heq]; exact Dict.get?_set_self _ _ _⟩
    · rw [hview _ (by simpa using heq)] at hrow
      obtain ⟨s', hs'⟩ := h.seen.only hrow hid
      have hne : s ≠ s' := by
        rintro rfl
        exact hs (by by_contra hk; simp [(Dict.get?_eq_none_iff _ _).mpr hk] at hs')
      exact ⟨s', (Dict.get?_set_ne _ _ hne).trans hs'⟩
  · rw [hview k (hsteps s db.newUuid (Dict.get?_set_self _ _ _))]
    refine h.seen.others k hk fun s' sid' hs' => hsteps s' sid' ?_
    have hne : s ≠ s' := by
      rintro rfl
      exact hs (by by_contra hk; simp [(Dict.get?_eq_none_iff _ _).mpr hk] at hs')
    exact (Dict.get?_set_ne _ _ hne).trans hs'
  · rw [DbState.loaded_write]
    exact (DbState.loaded_load_ne _ _ _ (by simp)).trans h.mapped
  · rw [DbState.loaded_write]
    rcases hcases hs' with ⟨rfl, rfl⟩ | ⟨hne, hsid', hold⟩
    · simp
    · rw [DbState.loaded_load_ne _ _ _ (by simpa using hsid'), h.mappedStep hold,
        Board.setRow_row_ne _ _ hne]

/-- The loop that creates the step executions. -/
theorem run_createStepExecutions (tenantId : Uuid) (rest : List StepDefinition)
    (hnodup : (rest.map (·.id)).Nodup) (hnew : ∀ step ∈ rest, step.id ∉ Dict.keys r.stepMap)
    (h : Shows r db b) (env : Environment) :
    ∃ r' db' b', (createStepExecutions tenantId r.id rest r.stepMap).run ⟨db, env⟩ =
        (.ok r'.stepMap, ⟨db', env⟩) ∧
      r'.id = r.id ∧ r'.committed = r.committed ∧ r'.rest = r.rest ∧ Shows r' db' b' ∧
      b'.execution = b.execution ∧ b'.attrs = b.attrs ∧
      (∀ s, s ∉ rest.map (·.id) → b'.row s = b.row s ∧
        Dict.get? r'.stepMap s = Dict.get? r.stepMap s) ∧
      ∀ step ∈ rest, b'.row step.id = newStepExecution tenantId r.id step ∧
        ∃ sid, Dict.get? r'.stepMap step.id = some sid := by
  induction rest generalizing r db b with
  | nil => exact ⟨r, db, b, rfl, rfl, rfl, rfl, h, rfl, rfl, fun _ _ => ⟨rfl, rfl⟩, by simp⟩
  | cons step rest ih =>
    obtain ⟨hstep, hnodup'⟩ := List.nodup_cons.mp hnodup
    obtain ⟨hsid, h₁⟩ := h.insert_step (hnew step (by simp)) (newStepExecution tenantId r.id step)
    have hnew' : ∀ other ∈ rest, other.id ∉ Dict.keys (Dict.set r.stepMap step.id db.newUuid) := by
      intro other hother
      have hne : other.id ≠ step.id := fun heq => hstep (List.mem_map.mpr ⟨other, hother, heq⟩)
      rw [Dict.keys_set]
      have hold := hnew other (by simp [hother])
      split <;> simp [hold, hne]
    obtain ⟨r', db', b', hrun, hid, hcommitted, hrest, hshows, hexecution, hattrs, hother, hrows⟩ :=
      ih hnodup' hnew' h₁
    refine ⟨r', db', b', ?_, hid, hcommitted, hrest, hshows, hexecution, hattrs, ?_, ?_⟩
    · rw [createStepExecutions, Prog.run_bind_ok (run_newUuid _), insertRow,
        Prog.run_bind_ok (run_db _ _ _)]
      exact hrun
    · intro s hs
      simp only [List.map_cons, List.mem_cons, not_or] at hs
      obtain ⟨hrow, hget⟩ := hother s hs.2
      exact ⟨hrow.trans (Board.setRow_row_ne _ _ hs.1),
        hget.trans (Dict.get?_set_ne _ _ (Ne.symm hs.1))⟩
    · intro other hmem
      rcases List.mem_cons.mp hmem with rfl | hrest
      · obtain ⟨hrow, hget⟩ := hother other.id hstep
        exact ⟨hrow.trans (Board.setRow_row_self _ _ _), _, hget.trans (Dict.get?_set_self _ _ _)⟩
      · exact hrows other hrest

end

/-! ## The whole run -/

/-- What is known of a run that visited the steps of `log` and ended with
`result`: the board `b` is what the run left. -/
structure Run (p : RunPlan) (log : StepLog) (invs : List Invocation) (b : Board)
    (result : Except Raised Unit) : Prop where
  follows : Follows p log b
  walk : Walk (branchDrops p.steps) log
  visits : Visits p [] log invs
  order : ∃ later, topologicalSort p.steps = Dict.keys log ++ later
  ends : Ends p [] log (topologicalSort p.steps) b result

namespace Run

variable {p : RunPlan} {log : StepLog} {invs : List Invocation} {b : Board}
  {result : Except Raised Unit}

theorem keys_nodup (h : Run p log invs b result) : (Dict.keys log).Nodup := by
  obtain ⟨later, horder⟩ := h.order
  exact (List.nodup_append.mp (horder ▸ p.accepted.order_nodup)).1

/-- The visited nodes are the ids of steps. -/
theorem mem_ids (h : Run p log invs b result) {s : String} (hs : s ∈ Dict.keys log) :
    s ∈ p.steps.map (·.id) := by
  obtain ⟨later, horder⟩ := h.order
  exact p.accepted.mem_order.mp (horder ▸ List.mem_append_left _ hs)

/-- The place of a visit in the topological order. -/
theorem order_split (h : Run p log invs b result) {front post : StepLog} {s : String}
    {ending : Ending (Dict String Json)} (hlog : log = front ++ (s, ending) :: post) :
    ∃ later, topologicalSort p.steps = Dict.keys front ++ s :: later := by
  obtain ⟨later, horder⟩ := h.order
  exact ⟨Dict.keys post ++ later, by simp [horder, hlog, Dict.keys]⟩

/-- What the row of a visited step says. -/
theorem fits_of_mem (h : Run p log invs b result) {s : String}
    {ending : Ending (Dict String Json)} (hmem : (s, ending) ∈ log) :
    ∃ step ∈ p.steps, step.id = s ∧ Fits p.ids.id step (some ending) (b.row s) := by
  obtain ⟨step, hstep, rfl⟩ := List.mem_map.mp (h.mem_ids (Dict.mem_keys.mpr ⟨ending, hmem⟩))
  have hfits := h.follows.rows step hstep
  rw [Dict.get?_of_mem h.keys_nodup hmem] at hfits
  exact ⟨step, hstep, rfl, hfits⟩

/-- The row of a step that was not visited is still pending. -/
theorem pending_of_not_mem (h : Run p log invs b result) {step : StepDefinition}
    (hstep : step ∈ p.steps) (hs : step.id ∉ Dict.keys log) :
    (b.row step.id).status = .pending := h.follows.pending hstep hs

end Run

/-- The invocations of a run, in terms of what the outside world noted. -/
theorem invokes_iff {w w' : World} {id : Uuid} {parent : Option Caller} {invs : List Invocation}
    (h : w.env.Later (.started id parent :: invs.map .invoked) w'.env) {inv : Invocation} :
    Invokes w w' inv ↔ inv ∈ invs := by
  rw [Invokes, h.since_eq]
  simp

/-- The `context` attribute of the mapped execution says nothing about a run. -/
theorem Run.withAttrs {p : RunPlan} {log : StepLog} {invs : List Invocation} {b : Board}
    {result : Except Raised Unit} (h : Run p log invs b result) (ctx : Dict String Json) :
    Run p log invs { b with attrs := ctx } result := by
  refine ⟨⟨h.follows.context, h.follows.rows⟩, h.walk, h.visits, h.order, ?_⟩
  cases h.ends with
  | completed all alive settles status => exact .completed all alive settles status
  | failed front s last settles status => exact .failed front s last settles status
  | stuck front step output e last mem condition unset settles status =>
    exact .stuck front step output e last mem condition unset settles status

/-- The row of a new execution is on the board. -/
theorem shows_newExecution (db : Db) (e : Execution) :
    Shows ⟨db.newUuid, db.committed, db.view, [], by simp [Dict.get?]⟩
      ((db.load (.execution db.newUuid) e .nothing).write (.execution db.newUuid) (some e))
      ⟨e, e.context, fun s => ⟨0, 0, s, "", .pending, [], none, none, 0, 0, none, none, none⟩⟩ := by
  refine ⟨⟨by simp, by simp, fun {sid row} hrow hid => ?_, fun k hk _ => ?_⟩, rfl, ?_, by simp⟩
  · rw [DbState.view_write_ne _ _ (by simp), DbState.view_load] at hrow
    exact absurd hid (Db.executionId_ne_newUuid hrow)
  · rw [DbState.view_write_ne _ _ hk, DbState.view_load]
  · rw [DbState.loaded_write]
    exact DbState.loaded_load_self _ _ _ _

section

variable {libs : Libraries} {settings : Settings} {runner : Runner} {workflow : Workflow}
  {parsed : WorkflowDefinition}

/-- Every run of an accepted workflow with a quiet executor is a `Run`: it ends
as its walk ends, it invokes executors only on behalf of its own steps, and it
commits nothing. -/
theorem run_startExecution (hquiet : runner.Quiet)
    (hparse : parseWorkflowDefinition libs settings
      ⟨workflow.name, workflow.triggerType, workflow.steps⟩ = .ok parsed)
    (session : SessionRef) (parent : Option Caller) (workflowId : Uuid)
    (triggerData : Dict String Json) (tenantId : Uuid) (replayedFrom : Option Uuid) (depth : Int) (w : World) :
    ∃ (p : RunPlan) (log : StepLog) (invs : List Invocation) (b : Board)
      (result : Except Raised Unit) (db' : Db) (env' : Environment),
      p.runner = runner ∧ p.session = session ∧ p.behaviour = w.env.behaviour ∧
      p.steps = parsed.steps ∧ p.triggerData = triggerData ∧ p.ids.id = w.db.newUuid ∧
      p.ids.committed = w.db.committed ∧ p.ids.rest = w.db.view ∧
      (startExecution runner session libs settings parent workflowId workflow triggerData tenantId
        replayedFrom depth).run w = (result.map (fun _ => (p.ids.id, b.execution)), ⟨db', env'⟩) ∧
      w.env.Later (.started w.db.newUuid parent :: invs.map .invoked) env' ∧
      Shows p.ids db' b ∧ Run p log invs b result := by
  obtain ⟨db, env⟩ := w
  have hacc := accepted_of_parse hparse
  let e := newExecution workflowId tenantId triggerData replayedFrom
  let env₁ : Environment := { env with events := env.events ++ [.started db.newUuid parent] }
  have hlater₁ : env.Later [.started db.newUuid parent] env₁ := ⟨rfl, rfl, rfl, rfl⟩
  obtain ⟨db₂, env₂, now, e₂, hrunning, hlater₂, hshows₂⟩ :=
    run_transitionExecution (shows_newExecution db e)
      (show ExecutionStatus.running ∈ allowedExecutionTransitions e.status by
        simp [e, newExecution, allowedExecutionTransitions]) env₁
  obtain ⟨r, db₃, b₃, hcreate, hid, hcommitted, hrest, hshows₃, hexecution, hattrs, hold, hrows⟩ :=
    run_createStepExecutions tenantId parsed.steps hacc.ids_nodup (by simp [Dict.keys]) hshows₂
      env₂
  have hattrs₃ : b₃.attrs = runContext triggerData [] := hattrs
  obtain ⟨db₄, hstore, hshows₄⟩ := run_storeMetadata hshows₃ (by rw [hattrs₃]; rfl) depth tenantId
    env₂
  let p : RunPlan := ⟨runner, session, env.behaviour, r, parsed.steps, triggerData, hacc, hquiet,
    fun step hstep => (hrows step hstep).2, fun {s sid} hs => by
      by_contra hmem
      rw [(hold s hmem).2] at hs
      cases hs⟩
  let b₄ : Board := { b₃ with attrs := withMetadata depth tenantId b₃.attrs }
  have hfollows : Follows p [] b₄ := by
    refine ⟨?_, fun step hstep => ?_⟩
    · change b₃.execution.context = _
      rw [hexecution]
      rfl
    · change Fits r.id step none (b₃.row step.id)
      rw [(hrows step hstep).1, hid]
      exact ⟨rfl, rfl, rfl, rfl, fun _ => rfl⟩
  have hstatus : b₄.execution.status = .running := by
    change b₃.execution.status = _
    rw [hexecution]
    rfl
  obtain ⟨log, result, db₅, env₅, invs, b₅, hwalk, hlater₅, hshows₅, hfollows₅, hwalk₅, hvisits,
    horder, hends⟩ := run_executeDagFrom (p := p) (topologicalSort parsed.steps) rfl .nil alive_nil
      hshows₄ hfollows hstatus (hlater₂.behaviour.trans hlater₁.behaviour)
  have hlater : env.Later (.started db.newUuid parent :: invs.map .invoked) env₅ := by
    simpa using (hlater₁.trans hlater₂).trans hlater₅
  have hrun : Run p log invs b₅ result := ⟨hfollows₅, hwalk₅, hvisits, horder, hends⟩
  have hstart : (startExecution runner session libs settings parent workflowId workflow
      triggerData tenantId replayedFrom depth).run ⟨db, env⟩ =
      (do
        executeDagFrom runner session r.id (stepDefs parsed.steps) r.stepMap
          (topologicalSort parsed.steps) []
        let execution ← mapped (← refreshExecution r.id)
        return (r.id, execution)).run ⟨db₄, env₂⟩ := by
    rw [startExecution, hparse, Prog.run_bind_ok (Prog.run_liftExcept _ _),
      Prog.run_bind_ok (run_newUuid _), insertRow, Prog.run_bind_ok (run_db _ _ _),
      Prog.run_bind_ok (run_observeStart _ _ _)]
    refine (Prog.run_bind_ok hrunning).trans ?_
    refine (Prog.run_bind_ok hcreate).trans ?_
    simp only at hid
    rw [← hid]
    exact Prog.run_bind_ok hstore
  cases result with
  | error raised =>
    refine ⟨p, log, invs, b₅, .error raised, db₅, env₅, rfl, rfl, rfl, rfl, rfl, hid, hcommitted,
      hrest, ?_, hlater, hshows₅, hrun⟩
    exact hstart.trans (Prog.run_bind_error hwalk)
  | ok value =>
    obtain ⟨db₆, hrefresh, hshows₆⟩ := run_refreshExecution hshows₅ env₅
    refine ⟨p, log, invs, { b₅ with attrs := b₅.execution.context }, .ok value, db₆, env₅, rfl, rfl,
      rfl, rfl, rfl, hid, hcommitted, hrest, ?_, hlater, hshows₆, hrun.withAttrs _⟩
    exact hstart.trans ((Prog.run_bind_ok hwalk).trans (Prog.run_bind_ok hrefresh))

/-- A run invokes at least one executor: the first step of the order is never
skipped. -/
theorem Run.invs_ne_nil {p : RunPlan} {log : StepLog} {invs : List Invocation} {b : Board}
    {result : Except Raised Unit} (h : Run p log invs b result) : invs ≠ [] := by
  have hne : log ≠ [] := by
    cases h.ends with
    | completed all _ _ _ =>
      rintro rfl
      have hperm := p.accepted.order_perm
      rw [← all] at hperm
      exact p.accepted.nonempty (List.map_eq_nil_iff.mp hperm.symm.eq_nil)
    | failed front s last _ _ => simp [last]
    | stuck front step output e last _ _ _ _ _ => simp [last]
  obtain ⟨⟨s, ending⟩, rest, rfl⟩ := List.exists_cons_of_ne_nil hne
  have hran : ending ≠ .skipped := fun hskipped => by
    have hwalk : Walk (branchDrops p.steps) ([] ++ (s, ending) :: rest) := h.walk
    simpa [dropped] using hwalk.skipped_iff.mp hskipped
  have hvisits : Visits p [] ([] ++ (s, ending) :: rest) invs := h.visits
  obtain ⟨step, invs', -, hvisit, hsub⟩ := hvisits.visit
  exact fun hnil => hvisit.ran.mp hran (List.subset_nil.mp (hnil ▸ hsub))

/-- The input of an invocation: the engine has put no metadata into it. -/
theorem Moment.input_eq {p : RunPlan} {front : StepLog} {step : StepDefinition} {inv : Invocation}
    (h : Moment p front step inv) :
    inv.call.input = [("steps", .json (.obj (entries front))),
      ("trigger", .json (.obj p.triggerData)), ("_session", .session p.session),
      ("_depth", .json (.int 0)), ("_tenant_id", .json (.str ""))] := by
  obtain ⟨b, hfollows, -, hinvoked⟩ := h
  rw [hinvoked.call, hfollows.context]
  rfl

end

end WorkflowEngine

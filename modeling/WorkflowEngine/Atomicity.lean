import WorkflowEngine.Access
import WorkflowEngine.AtRest

/-!
# A failed request changes nothing

Every route commits once, when all that can go wrong has gone well.  So a request that is
answered with an error has changed no table: it was turned away, or its session was closed
without a commit.  Only a webhook commits what has happened before the error.
-/

namespace WorkflowEngine

open Py Orm Interact

/-! ## Programs -/

/-- Unless the program answers with an execution, these rows are committed. -/
def FailsClean (t : Rows Row) (m : Prog Response) (w : World) : Prop :=
  ∀ result w', m.run w = (result, w') → (∀ id, result ≠ .ok (.accepted id)) → w'.db.committed = t

section

variable {t : Rows Row} {w : World}

/-- A program that only reads goes on with what it has found, or raises. -/
theorem failsClean_bind {α : Type} {m : Prog α} {f : α → Prog Response}
    (hm : Reading t (m.run w).2.db)
    (hf : ∀ a w', m.run w = (.ok a, w') → Reading t w'.db → FailsClean t (f a) w') :
    FailsClean t (m >>= f) w := by
  intro result w' hrun hfailed
  rcases hfirst : m.run w with ⟨first, w₁⟩
  rw [hfirst] at hm
  cases first with
  | ok a =>
    rw [Prog.run_bind_ok hfirst] at hrun
    exact hf a w₁ hfirst hm result w' hrun hfailed
  | error raised =>
    rw [Prog.run_bind_error hfirst] at hrun
    cases hrun
    exact hm.committed

theorem failsClean_raise (hw : Reading t w.db) (raised : Raised) :
    FailsClean t (Script.raise raised) w := by
  intro result w' hrun _
  cases hrun
  exact hw.committed

theorem reading_select (hw : Reading t w.db) {k : RowId} (p : Row k → Bool) :
    Reading t (Prog.run (Script.send (S := engineSignature) (.db (.select k p))) w).2.db := by
  have hcommit : (DbReq.select k p : DbReq Row Memo) ≠ .commit := fun heq => by cases heq
  refine ⟨((admits_synced k).select hw.synced p).run hw.synced, ?_, ?_⟩
  · rw [← hw.view]
    funext k'
    exact DbState.view_answer_select _ k k' p
  · exact (DbState.committed_answer hcommit w.db).trans hw.committed

theorem reading_getTenantWorkflow (hw : Reading t w.db) (workflowId tenantId : Uuid) :
    Reading t ((getTenantWorkflow workflowId tenantId).run w).2.db := by
  have hread : Reading t ((selectWorkflow workflowId
      (fun workflow => workflow.tenantId = tenantId)).run w).2.db := reading_select hw _
  rcases hselect : (selectWorkflow workflowId
    (fun workflow => workflow.tenantId = tenantId)).run w with ⟨result, w'⟩
  rw [hselect] at hread
  cases result with
  | error raised =>
    rw [getTenantWorkflow, Prog.run_bind_error hselect]
    exact hread
  | ok found =>
    rw [getTenantWorkflow, Prog.run_bind_ok hselect]
    cases found with
    | none => exact hread
    | some workflow => exact hread

theorem reading_liftExcept {α : Type} (hw : Reading t w.db) (result : Except PyError α) :
    Reading t ((liftExcept result).run w).2.db := hw

variable {libs : Libraries} {settings : Settings} {session : SessionRef} {fuel : Nat}

/-- After a start there is the commit only. -/
theorem failsClean_start (hw : Reading t w.db) {workflowId : Uuid} {workflow : Workflow}
    {triggerData : Dict String Json} {tenantId : Uuid} {replayedFrom : Option Uuid}
    {rest : Uuid × Execution → Prog Response}
    (hrest : ∀ started w, ((rest started).run w).1 = .ok (.accepted started.1)) :
    FailsClean t (startExecution (nesting libs settings performer session fuel) session libs settings
      none workflowId workflow triggerData tenantId replayedFrom 0 >>= rest) w := by
  intro result w' hrun hfailed
  rcases startEffect libs settings session fuel none workflowId workflow triggerData tenantId
    replayedFrom 0 hw.synced with ⟨ended, db', env', hstart, hcommitted, -, -⟩
  cases ended with
  | error exc =>
    rw [Prog.run_bind_error hstart] at hrun
    cases hrun
    exact hcommitted.trans hw.committed
  | ok started =>
    rw [Prog.run_bind_ok hstart] at hrun
    have hok := hrest started ⟨db', env'⟩
    rw [hrun] at hok
    exact absurd hok (hfailed started.1)

theorem failsClean_manualExecute (hw : Reading t w.db) (workflowId tenantId : Uuid)
    (data : Dict String Json) :
    FailsClean t (manualExecute (nesting libs settings performer session fuel) session libs settings
      workflowId tenantId data) w := by
  refine failsClean_bind (reading_getTenantWorkflow hw workflowId tenantId) fun workflow w₁ _ hw₁ => ?_
  refine failsClean_bind (reading_liftExcept hw₁ _) fun _ w₂ _ hw₂ => ?_
  exact failsClean_start hw₂ fun started w => rfl

theorem failsClean_replayExecutionEndpoint (hw : Reading t w.db) (executionId tenantId : Uuid)
    (overrideData : Dict String Json) :
    FailsClean t (replayExecutionEndpoint (nesting libs settings performer session fuel) session
      libs settings executionId tenantId overrideData) w := by
  unfold replayExecutionEndpoint
  split
  · rw [replayExecution, Script.bind_assoc]
    refine failsClean_bind (reading_select hw _) fun found w₁ _ hw₁ => ?_
    cases found with
    | none => exact failsClean_raise hw₁ _
    | some original =>
      rw [Script.bind_assoc]
      refine failsClean_bind (reading_getTenantWorkflow hw₁ _ _) fun workflow w₂ _ hw₂ => ?_
      rw [Script.bind_assoc]
      refine failsClean_bind (reading_liftExcept hw₂ _) fun _ w₃ _ hw₃ => ?_
      rw [Script.bind_assoc]
      refine failsClean_bind (reading_liftExcept hw₃ _) fun triggerData w₄ _ hw₄ => ?_
      exact failsClean_start hw₄ fun started w => rfl
  · exact failsClean_raise hw _

end

/-! ## Routes -/

section

variable {bcrypt : Bcrypt} {libs : Libraries} {settings : Settings} {wire : Wire}
  {fromisoformat : String → Option Time} {rate : Nat → Nat → Json} {selfRegistrationEnabled : Bool}
  {s : Api} {incoming : Incoming}

/-- A request to the management API that is refused. -/
theorem manage_error {surroundings : Surroundings} {d : Database} {tenantId : Uuid}
    {request : ManagementRequest} {raised : Raised}
    (h : (manage libs settings fromisoformat rate surroundings d tenantId request).1 =
      .error raised) :
    (manage libs settings fromisoformat rate surroundings d tenantId request).2 = d := by
  cases request with
  | listWorkflows cursor limit filters => rfl
  | listExecutions cursor limit filters => rfl
  | getExecution executionId => rfl
  | getExecutionLogs executionId stepId => rfl
  | getExecutionMetrics => rfl
  | getWorkflow workflowId =>
    rw [manage, manageGet, d.session_getTenantWorkflow surroundings.env]
  | createWorkflow body =>
    cases hparse : parseWorkflowDefinition libs settings
        ⟨body.name, body.triggerType, body.steps.map .obj⟩ with
    | error exc => rw [manage, manageCreate, d.session_createWorkflow_error surroundings.env hparse]
    | ok definition =>
      obtain ⟨t', hsession⟩ : ∃ t', d.session surroundings.env (createWorkflow libs settings body
          tenantId surroundings.generated) = (.ok (d.nextUuid, body.row tenantId
            surroundings.generated), t') :=
        (d.session_createWorkflow_ok surroundings.env hparse).imp fun _ h => h.1
      rw [manage, manageCreate, hsession] at h
      cases h
  | updateWorkflow workflowId body =>
    cases hfound : d.tenantWorkflow workflowId tenantId with
    | none => rw [manage, manageUpdate, Database.session_updateWorkflow_missing hfound]
    | some workflow =>
      cases hcheck : body.check libs settings workflow with
      | error exc => rw [manage, manageUpdate, Database.session_updateWorkflow_error hfound _ hcheck]
      | ok _ =>
        rcases Database.session_updateWorkflow_ok hfound surroundings.env hcheck with
          ⟨t', hsession, -⟩
        rw [manage, manageUpdate, hsession] at h
        cases h
  | deleteWorkflow workflowId =>
    cases hfound : d.tenantWorkflow workflowId tenantId with
    | none => rw [manage, manageDelete, Database.session_deleteWorkflow_missing hfound]
    | some workflow =>
      rcases Database.session_deleteWorkflow_ok hfound surroundings.env with
        ⟨executions, t', -, hsession, -⟩
      rw [manage, manageDelete, hsession] at h
      cases h
  | cancelExecution executionId =>
    rcases committed_cancelExecution surroundings.env d.rows executionId tenantId with
      ⟨-, hkept⟩ | ⟨-, hok, -⟩
    · rw [manage, manageCancel, Database.session, hkept]
    · rw [manage, manageCancel, Database.session, hok] at h
      cases h

/-- A session that ends without an answer. -/
theorem Api.session_refused {m : Prog Response}
    (hclean : FailsClean s.engine.rows m ⟨⟨s.engine.rows, Session.fresh⟩, incoming.surroundings.env⟩)
    (h : ∀ answer, (s.session incoming m).1 ≠ .ok (.answer answer)) :
    (s.session incoming m).2 = s := by
  rcases hrun : m.run ⟨⟨s.engine.rows, Session.fresh⟩, incoming.surroundings.env⟩ with ⟨result, w'⟩
  have hcommitted := hclean result w' hrun fun id hid => h (.accepted id) (by
    rw [Api.session, hrun, hid]
    rfl)
  rw [Api.session, hrun, hcommitted]
  rfl

/-- A route that does not give its answer leaves the state as it is, unless it is that of the
webhooks. -/
theorem Api.route_refused {tenant : Option TenantContext} {call : RouteCall}
    (hcall : ∀ request, call ≠ .receiveWebhook request)
    (h : ∀ answer, (Api.route bcrypt libs settings wire fromisoformat rate selfRegistrationEnabled s
      incoming tenant call).1 ≠ .ok (.answer answer)) :
    (Api.route bcrypt libs settings wire fromisoformat rate selfRegistrationEnabled s incoming
      tenant call).2 = s := by
  cases call with
  | healthCheck => rfl
  | registerTenant name =>
    rw [Api.route, registerTenantEndpoint] at h ⊢
    split
    · split
      · rename_i henabled _ _ _ hregistered
        rw [if_pos henabled, hregistered] at h
        exact absurd rfl (h _)
      · rfl
    · rfl
  | receiveWebhook request => exact absurd rfl (hcall request)
  | ofTenant call =>
    cases tenant with
    | none => rfl
    | some tenant =>
      cases call with
      | getCurrentTenant => rfl
      | streamExecution executionId => rfl
      | manage request =>
        have hsame : (WorkflowEngine.manage libs settings fromisoformat rate incoming.surroundings
            s.database tenant.id request).2 = s.database := by
          cases hended : (WorkflowEngine.manage libs settings fromisoformat rate
              incoming.surroundings s.database tenant.id request).1 with
          | error raised => exact manage_error hended
          | ok response =>
            exact absurd (congrArg (Except.map fun r => ApiReply.answer (.managed r)) hended)
              (h (.managed response))
        show s.setDatabase _ = s
        rw [hsame]
        rfl
      | manualExecute workflowId triggerData =>
        exact Api.session_refused (failsClean_manualExecute (reading_opened _) _ _ _) h
      | replayExecution executionId overrideData =>
        exact Api.session_refused (failsClean_replayExecutionEndpoint (reading_opened _) _ _ _) h

/-- The status code of an error. -/
def ApiReply.error? : ApiReply → Option Nat
  | .json statusCode _ => some statusCode
  | .answer _ => none

/-- A request that is answered with an error is counted at most, unless it is a webhook. -/
theorem error_changes_nothing (s : Api) (incoming : Incoming)
    (hcall : ∀ request, incoming.request.call ≠ .receiveWebhook request)
    (herror : (s.respond bcrypt libs settings wire fromisoformat rate selfRegistrationEnabled
      incoming).1.reply.error?.isSome = true) :
    ∃ counters, (s.respond bcrypt libs settings wire fromisoformat rate selfRegistrationEnabled
      incoming).2 = s.counting counters := by
  have hlimited : ∀ tenant, (s.limited bcrypt libs settings wire fromisoformat rate
      selfRegistrationEnabled incoming tenant).1.reply.error?.isSome = true →
        ∃ counters, (s.limited bcrypt libs settings wire fromisoformat rate selfRegistrationEnabled
          incoming tenant).2 = s.counting counters := by
    intro tenant hreply
    unfold Api.limited at hreply ⊢
    split
    · rename_i counters _
      exact ⟨counters, rfl⟩
    · rename_i counters hverdict
      refine ⟨counters, ?_⟩
      rw [hverdict] at hreply
      dsimp only at hreply ⊢
      have hsame : (Api.route bcrypt libs settings wire fromisoformat rate selfRegistrationEnabled
          (s.counting counters) incoming tenant incoming.request.call).2 = s.counting counters := by
        refine Api.route_refused hcall fun answer hanswer => ?_
        rw [Api.counting] at hanswer
        rw [hanswer] at hreply
        cases hreply
      split
      · exact hsame
      · exact hsame
      · exact hsame
  unfold Api.respond at herror ⊢
  split
  · rename_i hpublic
    rw [if_pos hpublic] at herror
    exact hlimited none herror
  · rename_i hprivate
    rw [if_neg hprivate] at herror
    split
    · exact ⟨s.counters, rfl⟩
    · rename_i tenant hauth
      rw [hauth] at herror
      exact hlimited (some tenant) herror

end

/-- The first tenant has one more workflow, whose first step cannot set its branches. -/
def Api.withStuckWorkflow : Api :=
  Api.twoTenants.afterCall (Api.calling (some (generateApiKey (7 * 16 ^ 24))) 0
    (.ofTenant (.manage (.createWorkflow stuckBody))))

/-- The executor of the step is called. -/
def Event.calls (step : String) : Event → Bool
  | .invoked inv => inv.caller.step = step
  | .started _ _ => false

/-- The workflow is executed: after its first executor has been called the run raises, and
nothing of it is left. -/
theorem error_changes_nothing_stuck :
    let incoming := Api.calling (some (generateApiKey (7 * 16 ^ 24))) 0
      (.ofTenant (.manualExecute 8 []))
    let ran := (manualExecute (nesting plainLibraries {} performer 0 0) 0 plainLibraries {} 8 7
      []).run ⟨⟨Api.withStuckWorkflow.engine.rows, Session.fresh⟩, Engine.quietEnvironment⟩
    ran.2.env.events.any (Event.calls "only") = true ∧
    (Api.withStuckWorkflow.respond plainBcrypt plainLibraries {} plainWire (fun _ => none)
      (fun _ _ => .null) true incoming).1.reply.error? = some 500 ∧
    ∃ counters, Api.withStuckWorkflow.afterCall incoming =
      Api.withStuckWorkflow.counting counters := by
  intro incoming ran
  have hstatus : (Api.withStuckWorkflow.respond plainBcrypt plainLibraries {} plainWire
      (fun _ => none) (fun _ _ => .null) true incoming).1.reply.error? = some 500 := by
    decide +kernel
  refine ⟨by decide +kernel, hstatus, error_changes_nothing Api.withStuckWorkflow incoming
    (fun _ heq => RouteCall.noConfusion heq) ?_⟩
  rw [hstatus]
  rfl

end WorkflowEngine

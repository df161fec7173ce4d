import WorkflowEngine.Accounting

/-!
# The signature of a webhook

A workflow with a secret runs a request if and only if the request carries the
signature of its body under the secret.  `hmac.compare_digest` compares two texts
only where both are ASCII, and a header value may have any Latin-1 character: it
is then answered by neither of the two exits.
-/

namespace WorkflowEngine

open Py Orm Interact

/-- The signature of a body under a secret. -/
def signatureOf (wire : Wire) (secret : String) (body : List UInt8) : String :=
  "sha256=" ++ wire.hexdigest secret body

/-- The answer is 401, a rejected delivery is committed and nothing else is, and no
execution was started. -/
structure Refused (t : Rows Row) (env : Environment) (result : Except Raised Response)
    (w' : World) : Prop where
  answer : ∃ message, result = .ok (.error 401 .invalidSignature message)
  delivery : ∃ did delivery, delivery.status = .rejected ∧
    AccountedBy t w'.db.committed did delivery
  quiet : w'.env = env

/-- Every request that carries the signature is run: its delivery is logged, and the
execution is started.  Every other one is refused. -/
def DecidedBySignature (runner : Runner) (libs : Libraries) (settings : Settings) (wire : Wire)
    (request : WebhookRequest) (t : Rows Row) (workflowId : Uuid) (workflow : Workflow)
    (secret : String) : Prop :=
  ∀ (session : SessionRef) (env : Environment),
    (request.signature = some (signatureOf wire secret request.body) ∧
      ∃ s : Session Row Memo, s.pending = ∅ ∧
        (receiveWebhook runner session libs settings wire request).run
          ⟨⟨t, Session.fresh⟩, env⟩ =
        (startFromWebhook runner session libs settings wire request workflowId workflow).run
          ⟨⟨t, s⟩, env⟩ ∧
        ∃ delivery w', (logWebhookDelivery wire request workflowId workflow.tenantId .received
          none).run ⟨⟨t, s⟩, env⟩ = (.ok delivery, w')) ∨
    (request.signature ≠ some (signatureOf wire secret request.body) ∧
      ∃ result w', (receiveWebhook runner session libs settings wire request).run
          ⟨⟨t, Session.fresh⟩, env⟩ = (result, w') ∧ Refused t env result w')

section

variable {runner : Runner} {libs : Libraries} {settings : Settings} {wire : Wire}
  {request : WebhookRequest} {t : Rows Row} {workflowId : Uuid} {workflow : Workflow}
  {secret : String}

/-- A request for a workflow whose row is gone is not answered at all. -/
theorem DecidedBySignature.stored
    (hdecided : DecidedBySignature runner libs settings wire request t workflowId workflow secret)
    (hresolves : resolvedWorkflow settings request t = some (workflowId, workflow)) :
    Stored t workflowId := by
  let env : Environment := plainEnvironment (fun _ _ => .ok [])
  cases hrow : Rows.row t (.workflow workflowId) with
  | some row => simp [Stored, hrow]
  | none =>
    have hgone : ∀ {s : Session Row Memo}, s.pending = ∅ →
        DbState.view (⟨t, s⟩ : Db) (.workflow workflowId) = none :=
      fun hpending => (DbState.view_of_pending_empty hpending _).trans hrow
    rcases run_receiveWebhook runner libs wire 0 hresolves env with ⟨s, hpending, hrun⟩
    rcases run_receiveForWorkflow_orphan (w := ⟨⟨t, s⟩, env⟩) (hgone hpending) with ⟨exc, hraised⟩
    rcases hdecided 0 env with ⟨-, s', hpending', -, delivery, w', hlogged⟩ |
      ⟨-, result, w', hended, hrefused⟩
    · rw [run_logWebhookDelivery_orphan _ _ _ _ _ _ (w := ⟨⟨t, s'⟩, env⟩) (hgone hpending')] at hlogged
      cases hlogged
    · rcases hrefused.answer with ⟨message, hanswer⟩
      have hsame := congrArg Prod.fst (hended.symm.trans (hrun.trans hraised))
      rw [hanswer] at hsame
      cases hsame

end

end WorkflowEngine

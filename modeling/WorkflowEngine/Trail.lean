import WorkflowEngine.EntryEffects

/-!
# The trail of webhook deliveries

The rows of `webhook_deliveries` are a log.  In every state that the engine reaches it can be
trusted: an accepted delivery names the execution that it started, with the payload and the
headers that the row records, no two deliveries name one execution, and every other delivery
says why there is none.
-/

namespace WorkflowEngine

open Py Orm Interact

/-- The execution was started by this delivery. -/
structure StartedBy (d : WebhookDelivery) (e : Execution) : Prop where
  workflowId : e.workflowId = d.workflowId
  tenantId : e.tenantId = d.tenantId
  original : e.replayedFrom = none
  triggerData : e.triggerData = [("payload", d.payload), ("headers", .obj d.headers)]

/-- What a row of the log says is so. -/
structure Truthful (v : View) (d : WebhookDelivery) : Prop where
  ended : d.status ≠ .received
  accepted : d.status = .accepted →
    ∃ id e, d.executionId = some id ∧ v (.execution id) = some e ∧ StartedBy d e
  refused : d.status ≠ .accepted → d.executionId = none ∧ d.rejectionReason.isSome = true

/-- The log can be trusted. -/
structure Trail (v : View) : Prop where
  truthful : ∀ id (d : WebhookDelivery), v (.delivery id) = some d → Truthful v d
  one : ∀ id id' (d d' : WebhookDelivery) execution, v (.delivery id) = some d →
    v (.delivery id') = some d' → d.executionId = some execution →
    d'.executionId = some execution → id = id'

namespace Trail

variable {libs : Libraries} {settings : Settings} {copies : Uuid → Workflow → Prop} {v v' : View}

theorem empty : Trail (Rows.row ∅) :=
  ⟨fun _ _ hrow => by simp [Rows.row] at hrow, fun _ _ _ _ _ hrow => by simp [Rows.row] at hrow⟩

theorem truthful_of_logs {d : WebhookDelivery} (h : Logs v v' d) : Truthful v' d := by
  refine ⟨h.ended, fun haccepted => ?_, h.refused⟩
  rcases h.accepted haccepted with ⟨id, e, hid, -, hrow, hworkflow, htenant, horiginal, hdata, -⟩
  exact ⟨id, e, hid, hrow, hworkflow, htenant, horiginal, hdata⟩

/-- The execution of a delivery that is named has been there. -/
theorem named {d : WebhookDelivery} (h : Truthful v d) {execution : Uuid}
    (hid : d.executionId = some execution) :
    d.status = .accepted ∧ ∃ e, v (.execution execution) = some e ∧ StartedBy d e := by
  have haccepted : d.status = .accepted := by
    by_contra hnot
    rw [(h.refused hnot).1] at hid
    cases hid
  rcases h.accepted haccepted with ⟨id, e, hsame, hrow, hfollows⟩
  rw [hid] at hsame
  cases hsame
  exact ⟨haccepted, e, hrow, hfollows⟩

/-- A delivery that is still there names the same execution, and says the same. -/
theorem kept (heffect : Effect libs settings copies v v') {id : Uuid} {d d' : WebhookDelivery}
    (hrow : v (.delivery id) = some d) (hrow' : v' (.delivery id) = some d') (h : Truthful v d) :
    d' = d ∧ Truthful v' d' := by
  have hkept := heffect.delivery id d d' hrow hrow'
  have hsame : d' = d := by
    rcases hkept.executionId with hsame | ⟨-, execution, hid, hgone⟩
    · rw [hkept.columns, hsame]
    · -- the delivery would have gone with the execution
      rcases (named h hid).2 with ⟨e, hexecution, hfollows⟩
      have hworkflow : d'.workflowId = d.workflowId := by rw [hkept.columns]
      exact absurd (hworkflow.trans hfollows.workflowId.symm)
        ((heffect.gone execution e hexecution hgone).2 id d' hrow')
  subst hsame
  refine ⟨rfl, h.ended, fun haccepted => ?_, h.refused⟩
  rcases h.accepted haccepted with ⟨execution, e, hid, hexecution, hfollows⟩
  cases hleft : v' (.execution execution) with
  | none =>
    exact absurd hfollows.workflowId.symm
      ((heffect.gone execution e hexecution hleft).2 id d' hrow')
  | some e' =>
    have hkeeps := heffect.execution execution e e' hexecution hleft
    refine ⟨execution, e', hid, hleft, hkeeps.workflowId.trans hfollows.workflowId,
      hkeeps.tenantId.trans hfollows.tenantId, ?_, hkeeps.triggerData.trans hfollows.triggerData⟩
    rcases hkeeps.replayedFrom with hreplayed | ⟨hreplayed, -⟩
    · exact hreplayed.trans hfollows.original
    · exact hreplayed

/-- The delivery was there before, or it is the one that is logged, with a new execution. -/
theorem before (h : Trail v) (heffect : Effect libs settings copies v v') {id : Uuid}
    {d' : WebhookDelivery} (hrow' : v' (.delivery id) = some d') :
    v (.delivery id) = some d' ∨ v (.delivery id) = none ∧
      ∀ execution, d'.executionId = some execution → v (.execution execution) = none := by
  cases hrow : v (.delivery id) with
  | some d =>
    rw [(kept heffect hrow hrow' (h.truthful id d hrow)).1]
    exact .inl rfl
  | none =>
    refine .inr ⟨rfl, fun execution hid => ?_⟩
    have hlogs := heffect.logs id d' hrow hrow'
    have haccepted := (named (truthful_of_logs hlogs) hid).1
    rcases hlogs.accepted haccepted with ⟨execution', e, hid', hfresh, -⟩
    rw [hid] at hid'
    cases hid'
    exact hfresh

theorem effect (h : Trail v) (heffect : Effect libs settings copies v v') : Trail v' := by
  refine ⟨fun id d' hrow' => ?_, fun id id' d d' execution hrow hrow' hid hid' => ?_⟩
  · cases hrow : v (.delivery id) with
    | none => exact truthful_of_logs (heffect.logs id d' hrow hrow')
    | some d => exact (kept heffect hrow hrow' (h.truthful id d hrow)).2
  · -- an old delivery names an execution that was there, and a new one names a new one
    have hnamed : ∀ {id d}, v (.delivery id) = some d → d.executionId = some execution →
        v (.execution execution) ≠ none := by
      intro id d hrow hid
      rcases (named (h.truthful id d hrow) hid).2 with ⟨e, he, -⟩
      simp [he]
    rcases h.before heffect hrow with hold | ⟨hnew, hfresh⟩ <;>
      rcases h.before heffect hrow' with hold' | ⟨hnew', hfresh'⟩
    · exact h.one id id' d d' execution hold hold' hid hid'
    · exact absurd (hfresh' execution hid') (hnamed hold hid)
    · exact absurd (hfresh execution hid) (hnamed hold' hid')
    · exact heffect.one id id' d d' hnew hnew' hrow hrow'

end Trail

/-- In every state that the engine reaches, the log of the webhook deliveries can be
trusted. -/
theorem trail_of_reachable {libs : Libraries} {settings : Settings} {wire : Wire} {s : Engine}
    (h : Engine.Reachable libs settings wire s) : Trail (Rows.row s.rows) :=
  h.holds Trail.empty fun _ _ _ _ heffect hold => hold.effect heffect

/-- The webhook has been called, and its delivery is in the log. -/
theorem trail_replayedEngine : Trail (Rows.row Engine.replayedEngine.rows) ∧
    (Rows.row Engine.replayedEngine.rows (.delivery 8)).map
      (fun d : WebhookDelivery => (d.status, d.executionId)) = some (.accepted, some 9) :=
  ⟨trail_of_reachable Engine.reachable_replayedEngine, by decide +kernel⟩

end WorkflowEngine

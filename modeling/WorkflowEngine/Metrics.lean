import Mathlib.Algebra.BigOperators.Group.Finset.Basic
import WorkflowEngine.Isolation
import WorkflowEngine.StepRecords
import WorkflowEngine.Trail

/-!
# The metrics add up

`get_execution_metrics` asks the database five times, and each query groups the rows of the
tenant by columns of its own.  The response is consistent all the same: the groups of a query
add up to its rows since no join loses one, and the numbers of different tables fit each
other.  Both rest on what holds in every state that is reached.
-/

namespace WorkflowEngine

open Py Orm Interact

/-- The numbers of the response fit each other, and the rows of the tenant. -/
structure AddUp (d : Database) (tenantId : Uuid) (metrics : ExecutionMetrics) : Prop where
  byStatus : (metrics.byStatus.map Prod.snd).sum = metrics.total
  byWorkflow : (metrics.byWorkflow.map WorkflowMetrics.count).sum = metrics.total
  /-- A workflow is listed once, under one name. -/
  once : (metrics.byWorkflow.map WorkflowMetrics.workflowId).Nodup
  byType : (metrics.stepFailureRates.map StepFailureRate.total).sum =
    (d.ofTenant .stepExecutions tenantId).card
  failed : ∀ rate ∈ metrics.stepFailureRates, 0 < rate.total ∧ rate.failed ≤ rate.total
  /-- No execution is without a step. -/
  stepped : metrics.total ≤ (metrics.stepFailureRates.map StepFailureRate.total).sum
  /-- No delivery is left as received. -/
  deliveries : metrics.webhookDeliveryStats.accepted + metrics.webhookDeliveryStats.rejected +
    metrics.webhookDeliveryStats.error = metrics.webhookDeliveryStats.total
  /-- Every accepted delivery has an execution of its own. -/
  accepted : metrics.webhookDeliveryStats.accepted ≤ metrics.total

/-! ## Groups -/

/-- The groups of a query have all its rows. -/
theorem sum_groups {α κ : Type} [DecidableEq κ] (items : Multiset α) (key : α → κ) :
    (((items.map key).dedup).map (fun k => (items.filter (fun item => key item = k)).card)).sum =
      items.card := by
  have hgroup : ∀ k, (items.filter (fun item => key item = k)).card = (items.map key).count k := by
    intro k
    rw [Multiset.count_map]
    simp only [eq_comm]
  simp only [hgroup]
  have hsum := (items.map key).toFinset_sum_count_eq
  rw [Multiset.card_map] at hsum
  exact hsum

theorem sum_groupCounts {κ : Type} [DecidableEq κ] (keys : Multiset κ) :
    ((groupCounts keys).map Prod.snd).sum = keys.card := by
  rw [groupCounts, Multiset.map_map]
  exact keys.toFinset_sum_count_eq

/-- Rows with keys of their own, that all come up among other keys, are no more than these. -/
theorem card_le_of_keys {α β κ : Type} {items : Multiset α} {others : Multiset β} {f : α → κ}
    {g : β → κ} (hdistinct : (items.map f).Nodup)
    (hfound : ∀ item ∈ items, ∃ other ∈ others, g other = f item) : items.card ≤ others.card := by
  rw [← Multiset.card_map f items, ← Multiset.card_map g others]
  apply Multiset.card_le_card
  apply (Multiset.le_iff_subset hdistinct).mpr
  intro k hk
  rcases Multiset.mem_map.mp hk with ⟨item, hitem, rfl⟩
  rcases hfound item hitem with ⟨other, hother, hsame⟩
  exact Multiset.mem_map.mpr ⟨other, hother, hsame⟩

namespace Database

variable {d : Database} {table : Table} {tenantId : Uuid}

theorem mem_ofTenant {item : Uuid × FullRow table} : item ∈ d.ofTenant table tenantId ↔
    d.row table item.1 = some item.2 ∧ FullRow.tenantId table item.1 item.2 = tenantId := by
  rw [ofTenant, mem_select, decide_eq_true_iff]

/-- The ids of the rows of a tenant. -/
theorem nodup_ids_ofTenant : ((d.ofTenant table tenantId).map Prod.fst).Nodup := by
  apply Multiset.Nodup.map_on
  · rintro ⟨id, row⟩ hitem ⟨id', row'⟩ hitem' hsame
    cases (hsame : id = id')
    have hrow := (mem_ofTenant.mp hitem).1
    rw [(mem_ofTenant.mp hitem').1] at hrow
    cases hrow
    rfl
  · exact (d.nodup_scan table).filter _

end Database

/-- A join that finds a partner for every row loses none. -/
theorem card_filterMap_of_some {α β : Type} {f : α → Option β} {items : Multiset α}
    (h : ∀ item ∈ items, (f item).isSome = true) : (items.filterMap f).card = items.card := by
  induction items using Multiset.induction_on with
  | empty => rfl
  | cons item items ih =>
    rcases Option.isSome_iff_exists.mp (h item (Multiset.mem_cons_self _ _)) with ⟨b, hb⟩
    rw [Multiset.filterMap_cons_some f item items hb, Multiset.card_cons, Multiset.card_cons,
      ih fun item hitem => h item (Multiset.mem_cons_of_mem hitem)]

/-! ## The response -/

section

variable {libs : Libraries} {settings : Settings} {wire : Wire} {d : Database} {tenantId : Uuid}

/-- Every execution is joined with its workflow. -/
theorem card_workflowDurations (hone : OneTenant (Rows.row d.rows)) :
    (workflowDurations d tenantId).card = (d.ofTenant .executions tenantId).card := by
  apply card_filterMap_of_some
  intro item hitem
  rcases Option.map_eq_some_iff.mp (Database.mem_ofTenant.mp hitem).1 with ⟨e, hrow, hitem⟩
  rcases hone (.execution item.1) e hrow (.workflow e.workflowId) List.mem_cons_self with
    ⟨workflow, hworkflow, -⟩
  have hsame : item.2.1.workflowId = e.workflowId := by rw [← hitem]
  rw [Option.isSome_map, hsame, Database.row, hworkflow]
  rfl

/-- The name that a workflow is listed under is the one of its row. -/
theorem name_of_workflowDurations {key : Uuid × String}
    (h : key ∈ (workflowDurations d tenantId).map Prod.fst) :
    (d.row .workflows key.1).map (fun workflow => workflow.1.name) = some key.2 := by
  rcases Multiset.mem_map.mp h with ⟨joined, hjoined, rfl⟩
  rcases (Multiset.mem_filterMap _ _).mp hjoined with ⟨item, -, hitem⟩
  rcases Option.map_eq_some_iff.mp hitem with ⟨workflow, hworkflow, rfl⟩
  rw [hworkflow]
  rfl

variable (rate : Nat → Nat → Json)

theorem byWorkflow_once :
    ((getExecutionMetrics rate d tenantId).byWorkflow.map WorkflowMetrics.workflowId).Nodup := by
  rw [getExecutionMetrics, Multiset.map_map]
  apply Multiset.Nodup.map_on
  · rintro ⟨id, name⟩ hkey ⟨id', name'⟩ hkey' hsame
    cases (hsame : id = id')
    have hname := name_of_workflowDurations (Multiset.mem_dedup.mp hkey)
    rw [name_of_workflowDurations (Multiset.mem_dedup.mp hkey')] at hname
    cases hname
    rfl
  · exact Multiset.nodup_dedup _

theorem byType_sum : ((getExecutionMetrics rate d tenantId).stepFailureRates.map
    StepFailureRate.total).sum = (d.ofTenant .stepExecutions tenantId).card := by
  rw [getExecutionMetrics, Multiset.map_map]
  simp only [Function.comp_def, Multiset.countP_eq_card_filter]
  rw [sum_groups, Multiset.card_map]

theorem failed_le_total :
    ∀ entry ∈ (getExecutionMetrics rate d tenantId).stepFailureRates,
      0 < entry.total ∧ entry.failed ≤ entry.total := by
  intro entry hentry
  rw [getExecutionMetrics] at hentry
  dsimp only at hentry
  rcases Multiset.mem_map.mp hentry with ⟨stepType, htype, rfl⟩
  rcases Multiset.mem_map.mp (Multiset.mem_dedup.mp htype) with ⟨step, hstep, hsame⟩
  refine ⟨Multiset.countP_pos.mpr ⟨step, hstep, hsame⟩, ?_⟩
  -- a failed step of a type is a step of this type
  dsimp only
  rw [Multiset.count, Multiset.countP_eq_card_filter, Multiset.countP_eq_card_filter]
  apply Multiset.card_le_card
  apply Multiset.monotone_filter_right
  rintro step' rfl
  rfl

/-- Every execution has a step, and no two have the same. -/
theorem executions_le_steps (hone : OneTenant (Rows.row d.rows)) (hkeys : StepKeys (Rows.row d.rows)) :
    (d.ofTenant .executions tenantId).card ≤ (d.ofTenant .stepExecutions tenantId).card := by
  apply card_le_of_keys (g := fun item => item.2.1.executionId) Database.nodup_ids_ofTenant
  intro item hitem
  obtain ⟨hrow, htenant⟩ := Database.mem_ofTenant.mp hitem
  rcases Option.map_eq_some_iff.mp hrow with ⟨e, hexecution, hfull⟩
  rcases hkeys.nonempty item.1 e hexecution with ⟨sid, step, hstep, hid⟩
  rcases hone (.step sid) step hstep (.execution step.executionId) List.mem_cons_self with
    ⟨owner, howner, hsame⟩
  rw [hid, hexecution] at howner
  cases howner
  refine ⟨(sid, (step, d.createdAt (.step sid))), Database.mem_ofTenant.mpr ⟨?_, ?_⟩, hid⟩
  · rw [Database.row, hstep]
    rfl
  · have howned : e.tenantId = tenantId := by
      rw [← hfull] at htenant
      exact htenant
    exact hsame.symm.trans howned

theorem card_statuses (statuses : Multiset DeliveryStatus) :
    statuses.card = statuses.count .received + statuses.count .accepted +
      statuses.count .rejected + statuses.count .error := by
  induction statuses using Multiset.induction_on with
  | empty => rfl
  | cons status statuses ih =>
    rw [Multiset.card_cons, ih]
    cases status <;> simp only [Multiset.count_cons, reduceCtorEq, if_true, if_false] <;> omega

theorem deliveries_sum (htrail : Trail (Rows.row d.rows)) :
    let stats := (getExecutionMetrics rate d tenantId).webhookDeliveryStats
    stats.accepted + stats.rejected + stats.error = stats.total := by
  let statuses := (d.ofTenant .webhookDeliveries tenantId).map (fun item => item.2.1.status)
  show statuses.count .accepted + statuses.count .rejected + statuses.count .error = statuses.card
  have hreceived : statuses.count .received = 0 := by
    apply Multiset.count_eq_zero.mpr
    intro hmem
    rcases Multiset.mem_map.mp hmem with ⟨item, hitem, hstatus⟩
    rcases Option.map_eq_some_iff.mp (Database.mem_ofTenant.mp hitem).1 with ⟨delivery, hrow, hfull⟩
    rw [← hfull] at hstatus
    exact (htrail.truthful item.1 delivery hrow).ended hstatus
  rw [card_statuses statuses, hreceived]
  omega

/-- The executions that accepted deliveries name are different ones of the tenant. -/
theorem accepted_le_executions (htrail : Trail (Rows.row d.rows)) :
    (getExecutionMetrics rate d tenantId).webhookDeliveryStats.accepted ≤
      (d.ofTenant .executions tenantId).card := by
  let accepted := (d.ofTenant .webhookDeliveries tenantId).filter
    (fun item => item.2.1.status = .accepted)
  have hcount : (getExecutionMetrics rate d tenantId).webhookDeliveryStats.accepted =
      accepted.card := by
    let statuses := (d.ofTenant .webhookDeliveries tenantId).map (fun item => item.2.1.status)
    show statuses.count .accepted = accepted.card
    rw [Multiset.count_map]
    simp only [eq_comm, accepted]
  have hnames : ∀ item ∈ accepted, ∃ delivery : WebhookDelivery,
      Rows.row d.rows (.delivery item.1) = some delivery ∧ item.2 = (delivery, d.createdAt (.delivery item.1)) ∧
        delivery.tenantId = tenantId ∧
          ∃ id e, delivery.executionId = some id ∧ Rows.row d.rows (.execution id) = some e ∧
            StartedBy delivery e := by
    intro item hitem
    obtain ⟨hfound, hstatus⟩ := Multiset.mem_filter.mp hitem
    obtain ⟨hrow, htenant⟩ := Database.mem_ofTenant.mp hfound
    rcases Option.map_eq_some_iff.mp hrow with ⟨delivery, hdelivery, hfull⟩
    rw [← hfull] at hstatus htenant
    exact ⟨delivery, hdelivery, hfull.symm, htenant,
      (htrail.truthful item.1 delivery hdelivery).accepted hstatus⟩
  rw [hcount]
  apply card_le_of_keys (f := fun item => item.2.1.executionId) (g := fun item => some item.1)
  · apply Multiset.Nodup.map_on
    · intro item hitem item' hitem' hsame
      rcases hnames item hitem with ⟨delivery, hrow, hfull, -, id, e, hid, -⟩
      rcases hnames item' hitem' with ⟨delivery', hrow', hfull', -, id', e', hid', -⟩
      rw [hfull, hfull'] at hsame
      have hboth : delivery'.executionId = some id := hsame.symm.trans hid
      have hone : item.1 = item'.1 :=
        htrail.one item.1 item'.1 delivery delivery' id hrow hrow' hid hboth
      rw [← hone, hrow] at hrow'
      cases hrow'
      exact Prod.ext hone (by rw [hfull, hfull', hone])
    · exact ((d.nodup_scan .webhookDeliveries).filter _).filter _
  · intro item hitem
    rcases hnames item hitem with ⟨delivery, hrow, hfull, htenant, id, e, hid, he, hstarted⟩
    refine ⟨(id, (e, d.createdAt (.execution id))), Database.mem_ofTenant.mpr ⟨?_, ?_⟩, ?_⟩
    · rw [Database.row, he]
      rfl
    · exact hstarted.tenantId.trans htenant
    · rw [hfull]
      exact hid.symm

/-- In every state that is reached, the numbers of the response fit each other. -/
theorem metrics_of_reachable (h : d.Reachable libs settings wire) (tenantId : Uuid) :
    AddUp d tenantId (getExecutionMetrics rate d tenantId) := by
  rcases h.engine with ⟨s, hs, hrows⟩
  have hkeys : StepKeys (Rows.row d.rows) :=
    hrows ▸ hs.holds StepKeys.empty fun _ _ _ hone heffect hold => hold.effect hone heffect
  have htrail : Trail (Rows.row d.rows) :=
    hrows ▸ hs.holds Trail.empty fun _ _ _ _ heffect hold => hold.effect heffect
  have htotal : (getExecutionMetrics rate d tenantId).total =
      (d.ofTenant .executions tenantId).card := rfl
  refine ⟨?_, ?_, byWorkflow_once rate, byType_sum rate, failed_le_total rate, ?_,
    deliveries_sum rate htrail, accepted_le_executions rate htrail⟩
  · rw [htotal, getExecutionMetrics, sum_groupCounts, Multiset.card_map]
  · rw [htotal, ← card_workflowDurations h.oneTenant, getExecutionMetrics, Multiset.map_map]
    exact sum_groups (workflowDurations d tenantId) Prod.fst
  · rw [htotal, byType_sum]
    exact executions_le_steps h.oneTenant hkeys

/-- The webhook was accepted once, and the replay is an execution, too. -/
theorem metrics_oneTenantDatabase :
    AddUp oneTenantDatabase 7 (getExecutionMetrics (fun _ _ => .null) oneTenantDatabase 7) ∧
      (getExecutionMetrics (fun _ _ => .null) oneTenantDatabase 7).total = 2 :=
  ⟨metrics_of_reachable (fun _ _ => .null) reachable_oneTenantDatabase 7, by decide +kernel⟩

end

end WorkflowEngine

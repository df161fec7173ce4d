import Mathlib.Data.Multiset.Sort
import Mathlib.Data.Prod.Lex
import WorkflowEngine.Models

/-!
# The tables of the database

The rows of `WorkflowEngine.Models` hold the columns that the engine reads.  The
management routes read the others as well: a `Database` has these beside the
rows, and the two tables that the engine does not touch, `tenants` and
`execution_logs`.

A `select` without `ORDER BY` answers a multiset of rows.  `ordered` sorts them
by their time of creation and their primary key, which is a total order.
-/

namespace WorkflowEngine

open Py Orm

/-- The tables. -/
inductive Table where
  | tenants
  | workflows
  | executions
  | stepExecutions
  | executionLogs
  | webhookDeliveries
  deriving DecidableEq, Repr

/-- `Tenant`. -/
structure Tenant where
  name : String
  apiKeyHash : String
  apiKeyPrefix : String
  isActive : Bool
  createdAt : Time
  updatedAt : Time

/-- The columns of `Workflow` that the engine does not read. -/
structure WorkflowDetails where
  description : Option String
  triggerConfig : Dict String Json
  createdAt : Time
  updatedAt : Time

/-- `ExecutionLog`. -/
structure ExecutionLog where
  tenantId : Uuid
  executionId : Uuid
  stepId : Option String
  level : String
  message : String
  data : Dict String Json
  createdAt : Time

/-- A row with all its columns.  Beside the columns of `Row` these are the
details of a workflow, and `created_at` in the other tables. -/
@[reducible] def FullRow : Table → Type
  | .tenants => Tenant
  | .workflows => Workflow × WorkflowDetails
  | .executions => Execution × Time
  | .stepExecutions => StepExecution × Time
  | .executionLogs => ExecutionLog
  | .webhookDeliveries => WebhookDelivery × Time

/-- The tenant that a row belongs to. -/
def FullRow.tenantId : (table : Table) → Uuid → FullRow table → Uuid
  | .tenants, id, _ => id
  | .workflows, _, row => Workflow.tenantId row.1
  | .executions, _, row => Execution.tenantId row.1
  | .stepExecutions, _, row => StepExecution.tenantId row.1
  | .executionLogs, _, row => ExecutionLog.tenantId row
  | .webhookDeliveries, _, row => WebhookDelivery.tenantId row.1

/-- The committed rows with all their columns. -/
structure Database where
  rows : Rows Row
  details : Uuid → WorkflowDetails
  createdAt : RowId → Time
  logs : AList (fun _ : Uuid => ExecutionLog)
  tenants : AList (fun _ : Uuid => Tenant)

/-- The primary key in this table. -/
def Table.idOf : Table → RowId → Option Uuid
  | .workflows, .workflow id => some id
  | .executions, .execution id => some id
  | .stepExecutions, .step id => some id
  | .webhookDeliveries, .delivery id => some id
  | _, _ => none

theorem Table.idOf_injective {table : Table} {k k' : RowId} {id : Uuid}
    (h : table.idOf k = some id) (h' : table.idOf k' = some id) : k = k' := by
  cases table <;> cases k <;> cases h <;> cases k' <;> cases h' <;> rfl

namespace Database

/-- The row with this primary key. -/
def row (d : Database) : (table : Table) → Uuid → Option (FullRow table)
  | .tenants, id => d.tenants.lookup id
  | .workflows, id => (Rows.row d.rows (.workflow id)).map (fun row => (row, d.details id))
  | .executions, id =>
    (Rows.row d.rows (.execution id)).map (fun row => (row, d.createdAt (.execution id)))
  | .stepExecutions, id => (Rows.row d.rows (.step id)).map (fun row => (row, d.createdAt (.step id)))
  | .executionLogs, id => d.logs.lookup id
  | .webhookDeliveries, id =>
    (Rows.row d.rows (.delivery id)).map (fun row => (row, d.createdAt (.delivery id)))

/-- The primary keys of a table, of rows that are there or were once. -/
def ids (d : Database) : Table → List Uuid
  | .tenants => d.tenants.keys
  | .executionLogs => d.logs.keys
  | table => d.rows.keys.filterMap table.idOf

/-- The rows of a table. -/
def scan (d : Database) (table : Table) : Multiset (Uuid × FullRow table) :=
  ((d.ids table).filterMap (fun id => (d.row table id).map (fun row => (id, row))) : List _)

/-- `select(...).where(...)`. -/
def select (d : Database) (table : Table) (p : Uuid × FullRow table → Bool) :
    Multiset (Uuid × FullRow table) := (d.scan table).filter (fun item => p item = true)

/-- `.order_by(created_at.asc(), id.asc())`. -/
def ordered (d : Database) (table : Table) (createdAt : FullRow table → Time)
    (items : Multiset (Uuid × FullRow table)) : List (Uuid × FullRow table) :=
  ((items.map (fun item => toLex (createdAt item.2, item.1))).sort (· ≤ ·)).filterMap
    (fun key => (d.row table (ofLex key).2).map (fun row => ((ofLex key).2, row)))

/-! ## What a query finds -/

theorem mem_keys_of_row {t : Rows Row} {k : RowId} {row : Row k} (h : Rows.row t k = some row) :
    k ∈ t.keys := by
  by_contra hmem
  have hnone : t.lookup k = none := AList.lookup_eq_none.mpr fun hk => hmem (AList.mem_keys.mp hk)
  rw [Rows.row, hnone] at h
  cases h

theorem mem_ids {d : Database} {table : Table} {id : Uuid} {row : FullRow table}
    (h : d.row table id = some row) : id ∈ d.ids table := by
  cases table with
  | tenants =>
    apply AList.mem_keys.mpr
    by_contra hmem
    rw [Database.row, AList.lookup_eq_none.mpr hmem] at h
    cases h
  | executionLogs =>
    apply AList.mem_keys.mpr
    by_contra hmem
    rw [Database.row, AList.lookup_eq_none.mpr hmem] at h
    cases h
  | workflows =>
    rcases Option.map_eq_some_iff.mp h with ⟨stored, hstored, -⟩
    exact List.mem_filterMap.mpr ⟨.workflow id, mem_keys_of_row hstored, rfl⟩
  | executions =>
    rcases Option.map_eq_some_iff.mp h with ⟨stored, hstored, -⟩
    exact List.mem_filterMap.mpr ⟨.execution id, mem_keys_of_row hstored, rfl⟩
  | stepExecutions =>
    rcases Option.map_eq_some_iff.mp h with ⟨stored, hstored, -⟩
    exact List.mem_filterMap.mpr ⟨.step id, mem_keys_of_row hstored, rfl⟩
  | webhookDeliveries =>
    rcases Option.map_eq_some_iff.mp h with ⟨stored, hstored, -⟩
    exact List.mem_filterMap.mpr ⟨.delivery id, mem_keys_of_row hstored, rfl⟩

theorem nodup_ids (d : Database) (table : Table) : (d.ids table).Nodup := by
  have hrows : (d.rows.keys.filterMap table.idOf).Nodup :=
    d.rows.keys_nodup.filterMap fun _ _ _ h h' => Table.idOf_injective h h'
  cases table with
  | tenants => exact d.tenants.keys_nodup
  | executionLogs => exact d.logs.keys_nodup
  | workflows => exact hrows
  | executions => exact hrows
  | stepExecutions => exact hrows
  | webhookDeliveries => exact hrows

theorem mem_scan {d : Database} {table : Table} {item : Uuid × FullRow table} :
    item ∈ d.scan table ↔ d.row table item.1 = some item.2 := by
  unfold scan
  rw [Multiset.mem_coe, List.mem_filterMap]
  constructor
  · rintro ⟨id, -, hid⟩
    rcases Option.map_eq_some_iff.mp hid with ⟨row, hrow, rfl⟩
    exact hrow
  · intro hrow
    exact ⟨item.1, mem_ids hrow, by rw [hrow]; rfl⟩

theorem nodup_scan (d : Database) (table : Table) : (d.scan table).Nodup := by
  apply Multiset.coe_nodup.mpr
  refine (d.nodup_ids table).filterMap fun id id' item h h' => ?_
  rcases Option.map_eq_some_iff.mp h with ⟨row, -, rfl⟩
  rcases Option.map_eq_some_iff.mp h' with ⟨row', -, heq⟩
  exact (congrArg Prod.fst heq).symm

/-- Two databases that agree on the rows of a query answer the same. -/
theorem select_congr {d d' : Database} {table : Table} {p p' : Uuid × FullRow table → Bool}
    (h : ∀ id row, d.row table id = some row ∧ p (id, row) = true ↔
      d'.row table id = some row ∧ p' (id, row) = true) :
    d.select table p = d'.select table p' := by
  unfold select
  apply (Multiset.Nodup.ext ((d.nodup_scan table).filter _) ((d'.nodup_scan table).filter _)).mpr
  intro item
  rw [Multiset.mem_filter, Multiset.mem_filter, mem_scan, mem_scan]
  exact h item.1 item.2

theorem mem_select {d : Database} {table : Table} {p : Uuid × FullRow table → Bool}
    {item : Uuid × FullRow table} :
    item ∈ d.select table p ↔ d.row table item.1 = some item.2 ∧ p item = true := by
  unfold select
  rw [Multiset.mem_filter, mem_scan]

/-- So do they in order. -/
theorem ordered_congr {d d' : Database} {table : Table} {createdAt : FullRow table → Time}
    {items : Multiset (Uuid × FullRow table)}
    (h : ∀ item ∈ items, d.row table item.1 = d'.row table item.1) :
    d.ordered table createdAt items = d'.ordered table createdAt items := by
  unfold ordered
  apply List.filterMap_congr
  intro key hkey
  rcases Multiset.mem_map.mp ((Multiset.mem_sort _).mp hkey) with ⟨item, hitem, rfl⟩
  show (d.row table item.1).map _ = (d'.row table item.1).map _
  rw [h item hitem]

end Database

end WorkflowEngine

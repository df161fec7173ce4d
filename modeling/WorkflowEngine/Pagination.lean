import WorkflowEngine.Cursors
import WorkflowEngine.Database
import WorkflowEngine.Lib.Keyset

/-!
# The list routes

`list_executions` and `list_workflows`: the rows of a tenant that pass the
filters, page by page.  Both are `listRows` with their own table, filters and
cursors.

A client reads page after page while other requests change the database: `d i`
is the database at page request `i`, and nothing is assumed of these databases
but that a row keeps its `created_at`.  The answers are pages of the keys
`(created_at, id)` in the sense of `WorkflowEngine.Lib.Keyset`
(`serves_listRows`), and `list_pagination` is what follows for the client.
-/

namespace WorkflowEngine

open Py Orm

/-! ## The routes -/

/-- `limit: int = Query(default=25, ge=1, le=100)`. -/
structure PageLimit where
  value : Nat := 25
  pos : 1 ≤ value := by decide
  le : value ≤ 100 := by decide

/-- The rows behind a cursor. -/
def behind (cursor : Option (Time × Uuid)) (createdAt : Time) (id : Uuid) : Bool :=
  cursor.all (fun c =>
    decide (c.1 ≤ createdAt) && !(decide (createdAt = c.1) && decide (id ≤ c.2)))

/-- `if cursor: ... = decode(cursor)`. -/
def cursorOf (decode : String → Except PyError (Time × Uuid)) :
    Option String → Except PyError (Option (Time × Uuid))
  | none => .ok none
  | some text => if text = "" then .ok none else (decode text).map some

/-- A page of the rows that satisfy `p`, with the cursor of the next page. -/
def listRows (table : Table) (createdAt : FullRow table → Time)
    (decode : String → Except PyError (Time × Uuid)) (encode : Time → Uuid → String)
    (p : FullRow table → Bool) (d : Database) (cursor : Option String) (limit : Nat) :
    Except PyError (List (Uuid × FullRow table) × Option String) := do
  let after ← cursorOf decode cursor
  let matching := d.select table (fun item => p item.2 && behind after (createdAt item.2) item.1)
  let rows := (d.ordered table createdAt matching).take (limit + 1)
  let items := rows.take limit
  let nextCursor := if limit < rows.length then
    items.getLast?.map (fun last => encode (createdAt last.2) last.1) else none
  return (items, nextCursor)

/-- The filters of `list_executions`. -/
structure ExecutionFilters where
  status : Option String := none
  workflowId : Option Uuid := none
  createdAfter : Option Time := none
  createdBefore : Option Time := none

/-- The `where` clauses of the filters. -/
def ExecutionFilters.admits (filters : ExecutionFilters) (row : Execution × Time) : Bool :=
  filters.status.all (fun status => row.1.status.text == status) &&
    filters.workflowId.all (fun workflowId => row.1.workflowId == workflowId) &&
    filters.createdAfter.all (fun time => decide (time ≤ row.2)) &&
    filters.createdBefore.all (fun time => decide (row.2 ≤ time))

/-- The rows that `list_executions` selects. -/
def ExecutionFilters.selects (filters : ExecutionFilters) (tenantId : Uuid)
    (row : Execution × Time) : Bool :=
  decide (Execution.tenantId row.1 = tenantId) && filters.admits row

/-- The filters of `list_workflows`. -/
structure WorkflowFilters where
  triggerType : Option String := none
  isActive : Option Bool := none

/-- The `where` clauses of the filters. -/
def WorkflowFilters.admits (filters : WorkflowFilters) (row : Workflow × WorkflowDetails) : Bool :=
  filters.triggerType.all (fun triggerType => row.1.triggerType == triggerType) &&
    filters.isActive.all (fun isActive => row.1.isActive == isActive)

/-- The rows that `list_workflows` selects. -/
def WorkflowFilters.selects (filters : WorkflowFilters) (tenantId : Uuid)
    (row : Workflow × WorkflowDetails) : Bool :=
  decide (Workflow.tenantId row.1 = tenantId) && filters.admits row

/-- `ExecutionResponse`. -/
structure ExecutionResponse where
  id : Uuid
  workflowId : Uuid
  status : String
  triggerData : Dict String Json
  error : Option String
  startedAt : Option Time
  completedAt : Option Time
  durationMs : Option Int
  createdAt : Time

/-- `execution_to_response`. -/
def executionToResponse (id : Uuid) (row : Execution × Time) : ExecutionResponse where
  id
  workflowId := row.1.workflowId
  status := row.1.status.text
  triggerData := row.1.triggerData
  error := row.1.error
  startedAt := row.1.startedAt
  completedAt := row.1.completedAt
  durationMs := row.1.durationMs
  createdAt := row.2

/-- `WorkflowResponse`. -/
structure WorkflowResponse where
  id : Uuid
  name : String
  description : Option String
  triggerType : String
  triggerConfig : Dict String Json
  steps : List Json
  isActive : Bool
  webhookPath : Option String
  createdAt : Time
  updatedAt : Time

/-- `workflow_to_response`. -/
def workflowToResponse (id : Uuid) (row : Workflow × WorkflowDetails) : WorkflowResponse where
  id
  name := row.1.name
  description := row.2.description
  triggerType := row.1.triggerType
  triggerConfig := row.2.triggerConfig
  steps := row.1.steps
  isActive := row.1.isActive
  webhookPath := row.1.webhookPath
  createdAt := row.2.createdAt
  updatedAt := row.2.updatedAt

/-- `ExecutionListResponse`. -/
structure ExecutionListResponse where
  executions : List ExecutionResponse
  cursor : Option String

/-- `WorkflowListResponse`. -/
structure WorkflowListResponse where
  workflows : List WorkflowResponse
  cursor : Option String

section

variable (fromisoformat : String → Option Time)

/-- `list_executions`. -/
def listExecutions (d : Database) (tenantId : Uuid) (cursor : Option String) (limit : PageLimit)
    (filters : ExecutionFilters) : Except PyError ExecutionListResponse := do
  let page ← listRows .executions (fun row => row.2) (decodeExecutionCursor fromisoformat)
    encodeExecutionCursor (filters.selects tenantId) d cursor limit.value
  return ⟨page.1.map (fun item => executionToResponse item.1 item.2), page.2⟩

/-- `list_workflows`. -/
def listWorkflows (d : Database) (tenantId : Uuid) (cursor : Option String) (limit : PageLimit)
    (filters : WorkflowFilters) : Except PyError WorkflowListResponse := do
  let page ← listRows .workflows (fun row => row.2.createdAt) (decodeCursor fromisoformat)
    encodeCursor (filters.selects tenantId) d cursor limit.value
  return ⟨page.1.map (fun item => workflowToResponse item.1 item.2), page.2⟩

end

/-! ## Queries and keys -/

/-- The place of a row in the order of the pages. -/
abbrev PageKey := Time ×ₗ Uuid

section Keys

variable {table : Table} (createdAt : FullRow table → Time)

/-- The key of a row. -/
def pageKey (item : Uuid × FullRow table) : PageKey := toLex (createdAt item.2, item.1)

/-- The keys of the rows that satisfy `p`. -/
def matchingKeys (p : Uuid × FullRow table → Bool) (d : Database) : Finset PageKey :=
  ((d.select table p).map (pageKey createdAt)).toFinset

variable {createdAt} {p : Uuid × FullRow table → Bool} {d : Database} {k : PageKey}

theorem mem_matchingKeys : k ∈ matchingKeys createdAt p d ↔
    ∃ row, d.row table (ofLex k).2 = some row ∧ createdAt row = (ofLex k).1 ∧
      p ((ofLex k).2, row) = true := by
  rw [matchingKeys, Multiset.mem_toFinset, Multiset.mem_map]
  constructor
  · rintro ⟨item, hitem, rfl⟩
    have hselected := Database.mem_select.mp hitem
    exact ⟨item.2, hselected.1, rfl, hselected.2⟩
  · rintro ⟨row, hrow, hcreated, hp⟩
    refine ⟨((ofLex k).2, row), Database.mem_select.mpr ⟨hrow, hp⟩, ?_⟩
    show toLex (createdAt row, (ofLex k).2) = k
    rw [hcreated]
    rfl

/-- The rows of a query in order have the keys of the query in order. -/
theorem map_key_ordered :
    (d.ordered table createdAt (d.select table p)).map (pageKey createdAt) =
      Keyset.inOrder (matchingKeys createdAt p d) := by
  have hnodup : ((d.select table p).map (pageKey createdAt)).Nodup := by
    refine Multiset.Nodup.map_on ?_ ((d.nodup_scan table).filter _)
    intro item hitem item' hitem' heq
    have hid : item.1 = item'.1 := congrArg (fun k : PageKey => (ofLex k).2) heq
    have hrow := (Database.mem_select.mp hitem).1
    rw [hid, (Database.mem_select.mp hitem').1] at hrow
    exact Prod.ext hid (Option.some.inj hrow).symm
  have hsort : Keyset.inOrder (matchingKeys createdAt p d) =
      ((d.select table p).map (pageKey createdAt)).sort (· ≤ ·) := by
    rw [Keyset.inOrder, Finset.sort, matchingKeys, Multiset.toFinset_val, hnodup.dedup]
  rw [hsort, Database.ordered, List.map_filterMap]
  refine (List.filterMap_congr (g := some) fun key hkey => ?_).trans List.filterMap_some
  rcases Multiset.mem_map.mp ((Multiset.mem_sort _).mp hkey) with ⟨item, hitem, rfl⟩
  show ((d.row table item.1).map _).map _ = _
  rw [(Database.mem_select.mp hitem).1]
  rfl

/-- The keyset condition of the query is the order of the keys. -/
theorem behind_iff {cursor : Option PageKey} {id : Uuid} {time : Time} :
    behind (cursor.map ofLex) time id = true ↔ ∀ c ∈ cursor, c < toLex (time, id) := by
  cases cursor with
  | none => simp [behind]
  | some c =>
    simp only [behind, Option.map_some, Option.all_some, Bool.and_eq_true, Bool.not_eq_true',
      Bool.and_eq_false_iff, decide_eq_true_eq, decide_eq_false_iff_not, Option.mem_some_iff,
      forall_eq', Prod.Lex.lt_iff, ofLex_toLex]
    constructor
    · rintro ⟨hle, hne⟩
      rcases lt_or_eq_of_le hle with hlt | heq
      · exact .inl hlt
      · rcases hne with hne | hne
        · exact absurd heq.symm hne
        · exact .inr ⟨heq, not_le.mp hne⟩
    · rintro (hlt | ⟨heq, hlt⟩)
      · exact ⟨le_of_lt hlt, .inl (ne_of_gt hlt)⟩
      · exact ⟨le_of_eq heq, .inr (not_le.mpr hlt)⟩

/-- The query with a cursor finds the keys above it. -/
theorem matchingKeys_behind (p : FullRow table → Bool) (cursor : Option PageKey) :
    matchingKeys createdAt
        (fun item => p item.2 && behind (cursor.map ofLex) (createdAt item.2) item.1) d =
      Keyset.above (matchingKeys createdAt (fun item => p item.2) d) cursor := by
  ext k
  simp only [Keyset.mem_above, mem_matchingKeys, Bool.and_eq_true, behind_iff]
  constructor
  · rintro ⟨row, hrow, hcreated, hp, habove⟩
    rw [hcreated] at habove
    exact ⟨⟨row, hrow, hcreated, hp⟩, habove⟩
  · rintro ⟨⟨row, hrow, hcreated, hp⟩, habove⟩
    refine ⟨row, hrow, hcreated, hp, ?_⟩
    rw [hcreated]
    exact habove

end Keys

/-! ## Traversals -/

/-- Requests are made on the databases `d i`, in which other requests insert,
delete and update rows.  No row changes its `created_at`. -/
structure Traversed (fromisoformat : String → Option Time) (table : Table)
    (createdAt : FullRow table → Time) (d : ℕ → Database) : Prop where
  created : ∀ {i j id row row'}, (d i).row table id = some row → (d j).row table id = some row' →
    createdAt row = createdAt row'
  /-- Times survive `isoformat` and `fromisoformat`. -/
  survives : ∀ {i id row}, (d i).row table id = some row →
    fromisoformat (isoformat (createdAt row)) = some (createdAt row)
  /-- UUIDs have 128 bits. -/
  small : ∀ {i id row}, (d i).row table id = some row → id < 16 ^ 32

/-- No row is inserted between the requests. -/
def NoInserts (table : Table) (d : ℕ → Database) : Prop :=
  ∀ i id row, (d (i + 1)).row table id = some row → ∃ row', (d i).row table id = some row'

/-- A client that follows the cursors is served right: `key` is the key of a row
that it receives, and `matching i id` says that row `id` is there and matches at
page request `i`. -/
structure Paginates {α : Type} (key : α → PageKey) (matching : ℕ → Uuid → Prop)
    (noInserts : Prop) (ask : ℕ → Option String → Except PyError (List α × Option String)) :
    Prop where
  answers : ∀ n, ∃ reader, Keyset.follow ask n = .ok reader
  increasing : ∀ {n reader}, Keyset.follow ask n = .ok reader →
    (reader.received.map key).Pairwise (· < ·)
  sound : ∀ {n reader}, Keyset.follow ask n = .ok reader →
    ∀ a ∈ reader.received, ∃ i < n, matching i (ofLex (key a)).2
  nodup : ∀ {n reader}, Keyset.follow ask n = .ok reader →
    (reader.received.map (fun a => (ofLex (key a)).2)).Nodup
  complete : ∀ {n reader}, Keyset.follow ask n = .ok reader → reader.ended = true →
    ∀ id, (∀ i < n, matching i id) →
      (reader.received.map (fun a => (ofLex (key a)).2)).count id = 1
  ends : noInserts → ∃ n reader, Keyset.follow ask n = .ok reader ∧ reader.ended = true

section Traversal

variable {fromisoformat : String → Option Time} {table : Table} {createdAt : FullRow table → Time}
  {d : ℕ → Database} {limit : Nat} {p : FullRow table → Bool}
  {decode : String → Except PyError (Time × Uuid)} {encode : Time → Uuid → String}

/-- The cursor of a key. -/
def cursorText (encode : Time → Uuid → String) (k : PageKey) : String :=
  encode (ofLex k).1 (ofLex k).2

/-- A cursor that the routes returned is read back. -/
theorem cursorOf_cursorText {cursor : Option PageKey}
    (hdecode : ∀ k ∈ cursor, decode (cursorText encode k) = .ok (ofLex k))
    (hne : ∀ time id, encode time id ≠ "") :
    cursorOf decode (cursor.map (cursorText encode)) = .ok (cursor.map ofLex) := by
  cases cursor with
  | none => rfl
  | some k =>
    have hempty : cursorText encode k ≠ "" := hne _ _
    show (if cursorText encode k = "" then _ else _) = _
    rw [if_neg hempty, hdecode k rfl]
    rfl

/-- On a cursor that it returned, a list route answers a page of the keys. -/
theorem listRows_page {d : Database} {cursor : Option PageKey}
    (hdecode : ∀ k ∈ cursor, decode (cursorText encode k) = .ok (ofLex k))
    (hne : ∀ time id, encode time id ≠ "") (limit : Nat) :
    let keys := matchingKeys createdAt (fun item => p item.2) d
    ∃ rows, listRows table createdAt decode encode p d (cursor.map (cursorText encode)) limit =
        .ok (rows, (Keyset.page limit keys cursor).2.map (cursorText encode)) ∧
      rows.map (pageKey createdAt) = (Keyset.page limit keys cursor).1 := by
  intro keys
  let matching := d.select table
    (fun item => p item.2 && behind (cursor.map ofLex) (createdAt item.2) item.1)
  have hkeys : (d.ordered table createdAt matching).map (pageKey createdAt) =
      Keyset.inOrder (Keyset.above keys cursor) := by
    rw [map_key_ordered, matchingKeys_behind]
  have hitems : (((d.ordered table createdAt matching).take (limit + 1)).take limit).map
      (pageKey createdAt) = (Keyset.page limit keys cursor).1 := by
    rw [List.map_take, List.map_take, hkeys]
    rfl
  have hlength : ((d.ordered table createdAt matching).take (limit + 1)).length =
      ((Keyset.inOrder (Keyset.above keys cursor)).take (limit + 1)).length := by
    rw [← hkeys, ← List.map_take, List.length_map]
  refine ⟨_, ?_, hitems⟩
  rw [listRows, cursorOf_cursorText hdecode hne]
  show Except.ok (_, _) = _
  congr 2
  show _ = Option.map (cursorText encode)
    (if limit < ((Keyset.inOrder (Keyset.above keys cursor)).take (limit + 1)).length then
      (Keyset.page limit keys cursor).1.getLast? else none)
  rw [← hlength, ← hitems, List.getLast?_map]
  split
  · rw [Option.map_map]
    rfl
  · rfl

/-- The list routes serve the keys of the rows that match. -/
theorem serves_listRows (h : Traversed fromisoformat table createdAt d)
    (hdecode : ∀ {time id}, fromisoformat (isoformat time) = some time → id < 16 ^ 32 →
      decode (encode time id) = .ok (time, id))
    (hne : ∀ time id, encode time id ≠ "") :
    Keyset.Serves limit (pageKey createdAt) (cursorText encode)
      (fun i => matchingKeys createdAt (fun item => p item.2) (d i))
      (fun i cursor => listRows table createdAt decode encode p (d i) cursor limit) := by
  intro i cursor hcursor
  refine listRows_page (fun k hk => ?_) hne limit
  rcases hcursor k hk with ⟨j, hj⟩
  rcases mem_matchingKeys.mp hj with ⟨row, hrow, hcreated, -⟩
  refine hdecode ?_ (h.small hrow)
  rw [← hcreated]
  exact h.survives hrow

/-- Without inserts every row was there at the first request. -/
theorem NoInserts.row_zero (h : NoInserts table d) {i : ℕ} {id : Uuid} {row : FullRow table}
    (hrow : (d i).row table id = some row) : ∃ row', (d 0).row table id = some row' := by
  induction i generalizing row with
  | zero => exact ⟨row, hrow⟩
  | succ i ih =>
    rcases h i id row hrow with ⟨row', hrow'⟩
    exact ih hrow'

/-- A client that is served the keys of the rows that match is served right. -/
theorem Traversed.paginates {α : Type} {key : α → PageKey}
    {ask : ℕ → Option String → Except PyError (List α × Option String)} (hpos : 0 < limit)
    (h : Traversed fromisoformat table createdAt d)
    (hserves : Keyset.Serves limit key (cursorText encode)
      (fun i => matchingKeys createdAt (fun item => p item.2) (d i)) ask) :
    Paginates key (fun i id => ∃ row, (d i).row table id = some row ∧ p row = true)
      (NoInserts table d) ask := by
  let keys := fun i => matchingKeys createdAt (fun item => p item.2) (d i)
  have hreads := Keyset.reads_read hpos keys
  have hfollow : ∀ {n reader}, Keyset.follow ask n = .ok reader →
      reader.received.map key = (Keyset.read limit keys n).received ∧
        reader.ended = (Keyset.read limit keys n).ended := by
    intro n reader hreader
    rcases hserves.follow_eq hpos n with ⟨rows, hok, hrows⟩
    cases hreader.symm.trans hok
    exact ⟨hrows, rfl⟩
  -- A key that was received is that of a row, and its id determines it.
  have hseen : ∀ {n reader}, Keyset.follow ask n = .ok reader → ∀ k ∈ reader.received.map key,
      ∃ i < n, ∃ row, (d i).row table (ofLex k).2 = some row ∧ createdAt row = (ofLex k).1 ∧
        p row = true := by
    intro n reader hreader k hk
    rw [(hfollow hreader).1] at hk
    rcases (hreads n).seen k hk with ⟨i, hi, hki⟩
    rcases mem_matchingKeys.mp hki with ⟨row, hrow⟩
    exact ⟨i, hi, row, hrow⟩
  have hnodup : ∀ {n reader}, Keyset.follow ask n = .ok reader →
      (reader.received.map (fun a => (ofLex (key a)).2)).Nodup := by
    intro n reader hreader
    have hsorted := (hreads n).sorted
    rw [← (hfollow hreader).1] at hsorted
    have hids : (reader.received.map key).map (fun k => (ofLex k).2) =
        reader.received.map (fun a => (ofLex (key a)).2) := List.map_map
    rw [← hids]
    refine List.Nodup.map_on ?_ (hsorted.imp ne_of_lt)
    intro k hk k' hk' hid
    rcases hseen hreader k hk with ⟨i, -, row, hrow, hcreated, -⟩
    rcases hseen hreader k' hk' with ⟨j, -, row', hrow', hcreated', -⟩
    rw [hid] at hrow
    have htime : (ofLex k).1 = (ofLex k').1 :=
      hcreated.symm.trans ((h.created hrow hrow').trans hcreated')
    exact ofLex.injective (Prod.ext htime hid)
  constructor
  case answers =>
    intro n
    rcases hserves.follow_eq hpos n with ⟨rows, hok, -⟩
    exact ⟨_, hok⟩
  case increasing =>
    intro n reader hreader
    rw [(hfollow hreader).1]
    exact (hreads n).sorted
  case sound =>
    intro n reader hreader a ha
    rcases hseen hreader (key a) (List.mem_map_of_mem ha) with ⟨i, hi, row, hrow, -, hp⟩
    exact ⟨i, hi, row, hrow, hp⟩
  case nodup => exact hnodup
  case complete =>
    intro n reader hreader hended id hmatching
    have hpositive : 0 < n := by
      rcases Nat.eq_zero_or_pos n with rfl | hn
      · cases hreader
        cases hended
      · exact hn
    rcases hmatching 0 hpositive with ⟨row₀, hrow₀, -⟩
    have hkey : toLex (createdAt row₀, id) ∈ (Keyset.read limit keys n).received := by
      refine (hreads n).complete _ (fun i hi => ?_) (fun hopen => ?_)
      · rcases hmatching i hi with ⟨row, hrow, hp⟩
        exact mem_matchingKeys.mpr ⟨row, hrow, h.created hrow hrow₀, hp⟩
      · rw [← (hfollow hreader).2, hended] at hopen
        cases hopen
    rw [← (hfollow hreader).1] at hkey
    rcases List.mem_map.mp hkey with ⟨a, ha, hka⟩
    refine List.count_eq_one_of_mem (hnodup hreader) (List.mem_map.mpr ⟨a, ha, ?_⟩)
    rw [hka]
    rfl
  case ends =>
    intro hinserts
    have hall : ∀ i, keys i ⊆ matchingKeys createdAt (fun _ => true) (d 0) := by
      intro i k hk
      rcases mem_matchingKeys.mp hk with ⟨row, hrow, hcreated, -⟩
      rcases hinserts.row_zero hrow with ⟨row', hrow'⟩
      exact mem_matchingKeys.mpr ⟨row', hrow', (h.created hrow' hrow).trans hcreated, rfl⟩
    rcases Keyset.exists_ended hpos hall with ⟨n, hn⟩
    rcases hserves.follow_eq hpos n with ⟨rows, hok, -⟩
    exact ⟨n, _, hok, hn⟩

end Traversal

section Routes

variable {fromisoformat : String → Option Time} {tenantId : Uuid} {limit : PageLimit}
  {d : ℕ → Database}

/-- The answers of `list_executions`. -/
theorem serves_listExecutions (h : Traversed fromisoformat .executions (fun row => row.2) d)
    (filters : ExecutionFilters) :
    Keyset.Serves limit.value
      (fun response : ExecutionResponse => (toLex (response.createdAt, response.id) : PageKey))
      (cursorText encodeExecutionCursor)
      (fun i => matchingKeys (fun row : FullRow .executions => row.2)
        (fun item => filters.selects tenantId item.2) (d i))
      (fun i cursor => (listExecutions fromisoformat (d i) tenantId cursor limit filters).map
        (fun response => (response.executions, response.cursor))) := by
  intro i cursor hcursor
  rcases serves_listRows h decodeCursor_encodeCursor encodeCursor_ne_empty i cursor hcursor with
    ⟨rows, hrows, hkeys⟩
  refine ⟨rows.map (fun item => executionToResponse item.1 item.2), ?_, ?_⟩
  · show Except.map _ (listRows _ _ _ _ _ _ _ _ >>= _) = _
    have hanswer : listRows .executions (fun row => row.2) (decodeExecutionCursor fromisoformat)
        encodeExecutionCursor (filters.selects tenantId) (d i)
        (cursor.map (cursorText encodeExecutionCursor)) limit.value = .ok _ := hrows
    rw [hanswer]
    rfl
  · rw [List.map_map, ← hkeys]
    rfl

/-- The answers of `list_workflows`. -/
theorem serves_listWorkflows (h : Traversed fromisoformat .workflows (fun row => row.2.createdAt) d)
    (filters : WorkflowFilters) :
    Keyset.Serves limit.value
      (fun response : WorkflowResponse => (toLex (response.createdAt, response.id) : PageKey))
      (cursorText encodeCursor)
      (fun i => matchingKeys (fun row : FullRow .workflows => row.2.createdAt)
        (fun item => filters.selects tenantId item.2) (d i))
      (fun i cursor => (listWorkflows fromisoformat (d i) tenantId cursor limit filters).map
        (fun response => (response.workflows, response.cursor))) := by
  intro i cursor hcursor
  rcases serves_listRows h decodeCursor_encodeCursor encodeCursor_ne_empty i cursor hcursor with
    ⟨rows, hrows, hkeys⟩
  refine ⟨rows.map (fun item => workflowToResponse item.1 item.2), ?_, ?_⟩
  · show Except.map _ (listRows _ _ _ _ _ _ _ _ >>= _) = _
    have hanswer : listRows .workflows (fun row => row.2.createdAt) (decodeCursor fromisoformat)
        encodeCursor (filters.selects tenantId) (d i)
        (cursor.map (cursorText encodeCursor)) limit.value = .ok _ := hrows
    rw [hanswer]
    rfl
  · rw [List.map_map, ← hkeys]
    rfl

end Routes

/-- A client of the list routes that follows the cursors receives its rows in
strictly increasing order, none of them twice, and every row that is there and
matches all the time once.  It ends if no rows are inserted. -/
theorem list_pagination (fromisoformat : String → Option Time) (tenantId : Uuid)
    (limit : PageLimit) (d : ℕ → Database) :
    (Traversed fromisoformat .executions (fun row => row.2) d → ∀ filters : ExecutionFilters,
      Paginates (fun response : ExecutionResponse => toLex (response.createdAt, response.id))
        (fun i id => ∃ row, (d i).row .executions id = some row ∧
          filters.selects tenantId row = true)
        (NoInserts .executions d)
        (fun i cursor => (listExecutions fromisoformat (d i) tenantId cursor limit filters).map
          (fun response => (response.executions, response.cursor)))) ∧
    (Traversed fromisoformat .workflows (fun row => row.2.createdAt) d →
      ∀ filters : WorkflowFilters,
        Paginates (fun response : WorkflowResponse => toLex (response.createdAt, response.id))
          (fun i id => ∃ row, (d i).row .workflows id = some row ∧
            filters.selects tenantId row = true)
          (NoInserts .workflows d)
          (fun i cursor => (listWorkflows fromisoformat (d i) tenantId cursor limit filters).map
            (fun response => (response.workflows, response.cursor)))) := by
  constructor
  · intro h filters
    exact h.paginates limit.pos (serves_listExecutions h filters)
  · intro h filters
    exact h.paginates limit.pos (serves_listWorkflows h filters)

/-- Executions of one workflow. -/
def tiedRows (ids : List Uuid) : List ((k : RowId) × Row k) :=
  ids.map (fun id => ⟨.execution id, newExecution 7 8 [] none⟩)

/-- All but execution 3 have one `created_at`. -/
def tiedDatabase (ids : List Uuid) : Database where
  rows := Rows.ofList (tiedRows ids)
  details _ := ⟨none, [], 0, 0⟩
  createdAt k := if k = .execution 3 then 1000000 else 0
  logs := ∅
  tenants := ∅

/-- Execution `id` of it. -/
def tiedRow (id : Uuid) : Execution × Time :=
  (newExecution 7 8 [] none, if RowId.execution id = .execution 3 then 1000000 else 0)

theorem row_tiedRows (ids : List Uuid) (id : Uuid) :
    Rows.row (Rows.ofList (tiedRows ids)) (.execution id) =
      if id ∈ ids then some (newExecution 7 8 [] none) else none := by
  induction ids with
  | nil => rfl
  | cons head ids ih =>
    by_cases hid : id = head
    · rw [hid, if_pos List.mem_cons_self]
      exact Rows.row_ofList_self _ _ (tiedRows ids)
    · have hne : RowId.execution id ≠ .execution head := fun heq => hid (RowId.execution.inj heq)
      refine (Rows.row_ofList_ne hne _ (tiedRows ids)).trans (ih.trans ?_)
      simp [hid]

theorem row_tiedDatabase (ids : List Uuid) (id : Uuid) :
    (tiedDatabase ids).row .executions id = if id ∈ ids then some (tiedRow id) else none := by
  show (Rows.row (Rows.ofList (tiedRows ids)) (.execution id)).map _ = _
  rw [row_tiedRows]
  split <;> rfl

/-- Execution 1 is deleted after the first page request. -/
def deletingFirst (i : ℕ) : Database := tiedDatabase (if i = 0 then [1, 2, 3] else [2, 3])

/-- `fromisoformat` on the texts of these times. -/
def readTied (text : String) : Option Time :=
  if text = "1970-01-01T00:00:00+00:00" then some 0
  else if text = "1970-01-01T00:00:01+00:00" then some 1000000
  else none

theorem traversed_deletingFirst :
    Traversed readTied .executions (fun row => row.2) deletingFirst := by
  have hrows : ∀ {i id row}, (deletingFirst i).row .executions id = some row →
      id ∈ [1, 2, 3] ∧ row.2 = if RowId.execution id = .execution 3 then 1000000 else 0 := by
    intro i id row hrow
    rw [deletingFirst, row_tiedDatabase] at hrow
    by_cases hmem : id ∈ (if i = 0 then [1, 2, 3] else [2, 3])
    · rw [if_pos hmem] at hrow
      cases hrow
      split at hmem
      · exact ⟨hmem, rfl⟩
      · exact ⟨List.mem_cons_of_mem _ hmem, rfl⟩
    · rw [if_neg hmem] at hrow
      cases hrow
  constructor
  case created =>
    intro i j id row row' hrow hrow'
    rw [(hrows hrow).2, (hrows hrow').2]
  case survives =>
    intro i id row hrow
    rw [(hrows hrow).2]
    split
    · decide +kernel
    · decide +kernel
  case small =>
    intro i id row hrow
    have hlt : ∀ id ∈ [1, 2, 3], id < 16 ^ 32 := by decide
    exact hlt id (hrows hrow).1

/-- A client that reads one execution at a time receives both executions that
stay. -/
theorem list_pagination_deletingFirst : ∃ n reader,
    Keyset.follow (fun i cursor => (listExecutions readTied (deletingFirst i) 8 cursor
      { value := 1 } {}).map (fun response => (response.executions, response.cursor))) n =
        .ok reader ∧
      reader.ended = true ∧ (reader.received.map (fun response => response.id)).count 2 = 1 ∧
      (reader.received.map (fun response => response.id)).count 3 = 1 := by
  have hpaginates := (list_pagination readTied 8 { value := 1 } deletingFirst).1
    traversed_deletingFirst {}
  have hmatches : ∀ id ∈ [2, 3], ∀ i, ∃ row, (deletingFirst i).row .executions id = some row ∧
      ({} : ExecutionFilters).selects 8 row = true := by
    intro id hid i
    refine ⟨tiedRow id, ?_, rfl⟩
    rw [deletingFirst, row_tiedDatabase]
    refine if_pos ?_
    split
    · exact List.mem_cons_of_mem _ hid
    · exact hid
  have hinserts : NoInserts .executions deletingFirst := by
    intro i id row hrow
    rw [deletingFirst, row_tiedDatabase, if_neg (Nat.succ_ne_zero i)] at hrow
    by_cases hid : id ∈ [2, 3]
    · rcases hmatches id hid i with ⟨row', hrow', -⟩
      exact ⟨row', hrow'⟩
    · rw [if_neg hid] at hrow
      cases hrow
  rcases hpaginates.ends hinserts with ⟨n, reader, hreader, hended⟩
  exact ⟨n, reader, hreader, hended,
    hpaginates.complete hreader hended 2 fun i _ => hmatches 2 (by decide) i,
    hpaginates.complete hreader hended 3 fun i _ => hmatches 3 (by decide) i⟩

end WorkflowEngine

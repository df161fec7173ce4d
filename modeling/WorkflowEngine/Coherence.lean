import WorkflowEngine.Cache
import WorkflowEngine.Lib.History
import WorkflowEngine.Plain
import WorkflowEngine.Workflows

/-!
# The cache and requests that overlap

`receive_webhook`, `update_workflow` and `delete_workflow` run as tasks of one
event loop.  Between two `await`s the code of a task runs alone; at an `await`
any other task may go on.  A `Task` is a request at the `await` where it stands,
and `Process.step` runs one task to its next `await`, or lets the database
answer a read.

Of the database only the table of workflows matters here, and of
`receive_webhook` only how it comes by the workflow that it goes on with.  The
size checks that precede this, and all that follows it, are in
`receiveWebhook` and `receiveForWorkflow`.

The cache is filled after an `await`: a request that finds nothing reads the
row, and puts it into the cache when it is resumed.  `workflow_cache.invalidate`
of an update that was committed in between comes too early to remove it.
-/

namespace WorkflowEngine

open Py History

/-- The table of workflows. -/
abbrev WorkflowTable := AList (fun _ : Uuid => Workflow)

/-- The `select` of `lookup_workflow_by_path`. -/
def lookupByPath (table : WorkflowTable) (path : String) : Except PyError WorkflowObject :=
  match table.entries.filter (fun item => decide (item.2.webhookPath = some path)) with
  | [] => .error (.app webhookNotFound)
  | [item] => .ok ⟨item.1, item.2⟩
  | _ => .error (.other "MultipleResultsFound" "Multiple rows were found")

/-- The `select` of `_get_tenant_workflow`. -/
def lookupOfTenant (table : WorkflowTable) (workflowId tenantId : Uuid) : Option Workflow :=
  (table.lookup workflowId).filter (fun workflow => decide (workflow.tenantId = tenantId))

/-- Of each workflow, the moment of the newest commit of an update or a delete
that has returned.  A webhook request keeps what this was when it started. -/
abbrev ReturnedCommits := Dict Uuid Nat

/-- A request at the `await` where it stands. -/
inductive Task where
  /-- `receive_webhook`, before it looks into the cache. -/
  | received (path : String) (since : ReturnedCommits)
  /-- It awaits the answer of `lookup_workflow_by_path`. -/
  | lookingUp (path : String) (since : ReturnedCommits)
  /-- The database has answered. -/
  | lookedUp (since : ReturnedCommits) (answer : Except PyError WorkflowObject)
  /-- It goes on with this workflow. -/
  | handling (since : ReturnedCommits) (workflow : WorkflowObject)
  /-- `update_workflow`, before it reads the row. -/
  | update (body : WorkflowUpdateRequest) (workflowId tenantId generated : Uuid)
  | updateRead (body : WorkflowUpdateRequest) (workflowId generated : Uuid)
      (found : Option Workflow)
  /-- It awaits the commit. -/
  | updateCommitting (body : WorkflowUpdateRequest) (workflowId generated : Uuid)
      (loaded : Workflow)
  /-- It awaits the refresh that follows the commit. -/
  | updateCommitted (workflowId : Uuid) (moment : Nat)
  /-- `delete_workflow`, before it reads the row. -/
  | delete (workflowId tenantId : Uuid)
  | deleteRead (workflowId : Uuid) (found : Option Workflow)
  /-- It awaits the commit. -/
  | deleteCommitting (workflowId : Uuid)
  /-- An update or a delete whose session is closed, before `invalidate`. -/
  | invalidating (workflowId : Uuid) (moment : Nat)
  | ended

/-- The process, its database and its clock.  `history` lists the tables that
were committed, oldest first, and `returned` notes which commits have returned. -/
structure Process where
  table : WorkflowTable
  cache : WorkflowCache
  clock : Time
  tasks : List Task
  history : List WorkflowTable
  returned : ReturnedCommits

/-- What can happen next: a request comes in, time passes, or the task at this
place goes on. -/
inductive Action where
  | webhook (path : String)
  | update (body : WorkflowUpdateRequest) (workflowId tenantId generated : Uuid)
  | delete (workflowId tenantId : Uuid)
  | tick (elapsed : Nat)
  | resume (i : Nat)

namespace Process

/-- A process that has just started. -/
def initial (table : WorkflowTable) (clock : Time) : Process :=
  ⟨table, .empty, clock, [], [table], []⟩

/-- A task is at another `await` now. -/
def put (s : Process) (i : Nat) (task : Task) : Process := { s with tasks := s.tasks.set i task }

/-- A request comes in. -/
def spawn (s : Process) (task : Task) : Process := { s with tasks := s.tasks ++ [task] }

/-- A transaction is committed that leaves this table. -/
def committing (s : Process) (table : WorkflowTable) : Process :=
  { s with table := table, history := s.history ++ [table] }

section

variable (libs : Libraries) (settings : Settings) (cacheSettings : CacheSettings)

/-- The task `i` goes on to its next `await`. -/
def resume (s : Process) (i : Nat) : Task → Option Process
  | .received path since =>
    match s.cache.getByWebhookPath s.clock path with
    | (some workflow, cache) => some ({ s with cache := cache }.put i (.handling since workflow))
    | (none, cache) => some ({ s with cache := cache }.put i (.lookingUp path since))
  | .lookingUp path since => some (s.put i (.lookedUp since (lookupByPath s.table path)))
  | .lookedUp since (.ok workflow) =>
    some ({ s with cache := s.cache.set cacheSettings s.clock workflow }.put i
      (.handling since workflow))
  | .lookedUp _ (.error _) => some (s.put i .ended)
  | .handling _ _ => none
  | .update body workflowId tenantId generated =>
    some (s.put i (.updateRead body workflowId generated (lookupOfTenant s.table workflowId tenantId)))
  | .updateRead _ _ _ none => some (s.put i .ended)
  | .updateRead body workflowId generated (some loaded) =>
    match body.check libs settings loaded with
    | .ok () => some (s.put i (.updateCommitting body workflowId generated loaded))
    | .error _ => some (s.put i .ended)
  | .updateCommitting body workflowId generated loaded =>
    match s.table.lookup workflowId with
    | some row => some ((s.committing (s.table.insert workflowId (body.assign generated loaded row))).put i
        (.updateCommitted workflowId s.history.length))
    -- the row was deleted: `StaleDataError`
    | none => some (s.put i .ended)
  | .updateCommitted workflowId moment =>
    match s.table.lookup workflowId with
    | some _ => some (s.put i (.invalidating workflowId moment))
    -- the row was deleted: `InvalidRequestError`
    | none => some (s.put i .ended)
  | .delete workflowId tenantId =>
    some (s.put i (.deleteRead workflowId (lookupOfTenant s.table workflowId tenantId)))
  | .deleteRead _ none => some (s.put i .ended)
  | .deleteRead workflowId (some _) => some (s.put i (.deleteCommitting workflowId))
  | .deleteCommitting workflowId =>
    some ((s.committing (s.table.erase workflowId)).put i (.invalidating workflowId s.history.length))
  | .invalidating workflowId moment =>
    some ({ s with
      cache := s.cache.invalidate workflowId
      returned := Dict.set s.returned workflowId (max (Dict.getD s.returned workflowId 0) moment)
      }.put i .ended)
  | .ended => none

/-- One step of the process. -/
def step (s : Process) : Action → Option Process
  | .webhook path => some (s.spawn (.received path s.returned))
  | .update body workflowId tenantId generated =>
    some (s.spawn (.update body workflowId tenantId generated))
  | .delete workflowId tenantId => some (s.spawn (.delete workflowId tenantId))
  | .tick elapsed => some { s with clock := s.clock + elapsed }
  | .resume i =>
    match s.tasks[i]? with
    | some task => s.resume libs settings cacheSettings i task
    | none => none

/-- A run in which every step is one that is allowed. -/
def Runs (allowed : Process → Action → Prop) : Process → Process → Prop :=
  Relation.ReflTransGen fun s s' =>
    ∃ action, allowed s action ∧ s.step libs settings cacheSettings action = some s'

end

/-! ## Coherence -/

/-- The workflow was committed as it is at the moment `n` or later. -/
def CommittedSince (s : Process) (n : Nat) (workflow : WorkflowObject) : Prop :=
  SeenSince s.history n (fun table => table.lookup workflow.id = some workflow.row)

/-- What a webhook request goes on with, seen from the updates and deletes that
had returned before it started. -/
structure UpToDate (s : Process) : Prop where
  /-- It is not a definition that one of them has replaced. -/
  runs : ∀ since workflow, .handling since workflow ∈ s.tasks →
    s.CommittedSince (Dict.getD since workflow.id 0) workflow
  /-- Where it is accepted, the workflow was there and active since. -/
  accepts : ∀ since workflow, .handling since workflow ∈ s.tasks → workflow.row.isActive = true →
    SeenSince s.history (Dict.getD since workflow.id 0)
      (fun table => ∃ row, table.lookup workflow.id = some row ∧ row.isActive = true)

/-- A webhook request that fills the cache puts in the row that is committed. -/
def Timely (s : Process) : Action → Prop
  | .resume i => ∀ since workflow, s.tasks[i]? = some (.lookedUp since (.ok workflow)) →
      s.table.lookup workflow.id = some workflow.row
  | _ => True

end Process

/-! ## The entries of the cache -/

namespace WorkflowCache

variable {settings : CacheSettings} {cache : WorkflowCache}

theorem mem_entries_remove {id id' : Uuid} {entry : CacheEntry}
    (h : (id', entry) ∈ (cache.remove id).entries) : (id', entry) ∈ cache.entries ∧ id' ≠ id :=
  Dict.mem_erase.mp h

theorem mem_entries_invalidate {id id' : Uuid} {entry : CacheEntry}
    (h : (id', entry) ∈ (cache.invalidate id).entries) :
    (id', entry) ∈ cache.entries ∧ id' ≠ id := by
  have hne : id' ≠ id := by
    rintro rfl
    exact not_mem_invalidate cache id' (Dict.mem_keys.mpr ⟨entry, h⟩)
  unfold invalidate at h
  split at h
  · exact mem_entries_remove h
  · exact ⟨h, hne⟩

/-- A lookup adds no entry, and what it finds has one. -/
theorem mem_entries_getByWebhookPath (hkept : Kept settings cache) (now : Time) (path : String) :
    Kept settings (cache.getByWebhookPath now path).2 ∧
      (cache.getByWebhookPath now path).2.entries ⊆ cache.entries ∧
      ∀ workflow, (cache.getByWebhookPath now path).1 = some workflow →
        ∃ id entry, (id, entry) ∈ cache.entries ∧ entry.workflow = workflow := by
  unfold getByWebhookPath
  cases Dict.get? cache.pathIndex path with
  | none => exact ⟨hkept, List.Subset.refl _, nofun⟩
  | some id =>
    refine ⟨hkept.getById now id, ?_⟩
    dsimp only
    unfold getById
    cases hget : Dict.get? cache.entries id with
    | none => exact ⟨List.Subset.refl _, nofun⟩
    | some entry =>
      dsimp only
      split
      · exact ⟨fun item hitem => (mem_entries_remove hitem).1, nofun⟩
      · refine ⟨fun item hitem => (Dict.mem_moveToEnd hkept.entries_nodup).mp hitem,
          fun workflow hfound => ?_⟩
        exact ⟨id, entry, Dict.mem_of_get? hget, Option.some.inj hfound⟩

/-- `set` adds one entry. -/
theorem mem_entries_set (hkept : Kept settings cache) {now : Time} {workflow : WorkflowObject}
    {id : Uuid} {entry : CacheEntry} (h : (id, entry) ∈ (cache.set settings now workflow).entries) :
    (id, entry) ∈ cache.entries ∨ id = workflow.id ∧ entry.workflow = workflow := by
  rw [set_eq hkept, List.mem_append] at h
  rcases h with hold | hnew
  · exact .inl (mem_entries_invalidate (List.mem_of_mem_drop hold)).1
  · right
    cases List.mem_singleton.mp hnew
    exact ⟨rfl, rfl⟩

end WorkflowCache

/-! ## What a timely run keeps -/

namespace Process

/-- The moment of the newest commit of this workflow that has returned. -/
def returnedAt (s : Process) (id : Uuid) : Nat := Dict.getD s.returned id 0

/-- What a task knows is right. -/
def Admits (s : Process) : Task → Prop
  | .received _ since => ∀ id, Dict.getD since id 0 ≤ s.returnedAt id
  | .lookingUp _ since => ∀ id, Dict.getD since id 0 ≤ s.returnedAt id
  | .lookedUp since (.ok workflow) => s.CommittedSince (Dict.getD since workflow.id 0) workflow
  | .handling since workflow => s.CommittedSince (Dict.getD since workflow.id 0) workflow
  | .updateCommitted _ moment => moment < s.history.length
  | .invalidating _ moment => moment < s.history.length
  | _ => True

/-- An entry of the cache is not older than any update that has returned. -/
structure Sound (cacheSettings : CacheSettings) (s : Process) : Prop where
  current : s.history.getLast? = some s.table
  returned : ∀ id, s.returnedAt id < s.history.length
  kept : WorkflowCache.Kept cacheSettings s.cache
  cached : ∀ id entry, (id, entry) ∈ s.cache.entries →
    entry.workflow.id = id ∧ s.CommittedSince (s.returnedAt id) entry.workflow
  tasks : ∀ task ∈ s.tasks, s.Admits task

/-- Nothing is forgotten from `s` to `s'`. -/
structure Later (s s' : Process) : Prop where
  history : ∃ later, s'.history = s.history ++ later
  returned : ∀ id, s.returnedAt id ≤ s'.returnedAt id

theorem CommittedSince.later {s s' : Process} {n : Nat} {workflow : WorkflowObject}
    (h : s.CommittedSince n workflow) (hlater : Later s s') : s'.CommittedSince n workflow := by
  rcases hlater.history with ⟨later, hhistory⟩
  unfold CommittedSince
  rw [hhistory]
  exact SeenSince.append h later

theorem Admits.later {s s' : Process} {task : Task} (h : s.Admits task) (hlater : Later s s') :
    s'.Admits task := by
  have hlength : s.history.length ≤ s'.history.length := by
    rcases hlater.history with ⟨later, hhistory⟩
    rw [hhistory, List.length_append]
    omega
  cases task with
  | received path since => exact fun id => (h id).trans (hlater.returned id)
  | lookingUp path since => exact fun id => (h id).trans (hlater.returned id)
  | lookedUp since answer =>
    cases answer with
    | ok workflow => exact CommittedSince.later h hlater
    | error exc => trivial
  | handling since workflow => exact CommittedSince.later h hlater
  | updateCommitted workflowId moment => exact Nat.lt_of_lt_of_le h hlength
  | invalidating workflowId moment => exact Nat.lt_of_lt_of_le h hlength
  | update body workflowId tenantId generated => trivial
  | updateRead body workflowId generated found => trivial
  | updateCommitting body workflowId generated loaded => trivial
  | delete workflowId tenantId => trivial
  | deleteRead workflowId found => trivial
  | deleteCommitting workflowId => trivial
  | ended => trivial

namespace Sound

variable {cacheSettings : CacheSettings} {s : Process}

/-- A task goes to an `await` at which it knows nothing wrong. -/
theorem put (h : Sound cacheSettings s) (i : Nat) {task : Task} (htask : s.Admits task) :
    Sound cacheSettings (s.put i task) := by
  refine ⟨h.current, h.returned, h.kept, h.cached, fun other hother => ?_⟩
  rcases List.mem_or_eq_of_mem_set hother with hold | rfl
  · exact h.tasks other hold
  · exact htask

theorem spawn (h : Sound cacheSettings s) {task : Task} (htask : s.Admits task) :
    Sound cacheSettings (s.spawn task) := by
  refine ⟨h.current, h.returned, h.kept, h.cached, fun other hother => ?_⟩
  rcases List.mem_append.mp hother with hold | hnew
  · exact h.tasks other hold
  · cases List.mem_singleton.mp hnew
    exact htask

/-- What is committed now is committed since any commit that has returned. -/
theorem committedSince (h : Sound cacheSettings s) {workflow : WorkflowObject}
    (hrow : s.table.lookup workflow.id = some workflow.row) {n : Nat} (hn : n < s.history.length) :
    s.CommittedSince n workflow := SeenSince.of_getLast? h.current hrow hn

/-- The cache loses entries. -/
theorem shrink (h : Sound cacheSettings s) {cache : WorkflowCache}
    (hkept : WorkflowCache.Kept cacheSettings cache) (hsub : cache.entries ⊆ s.cache.entries) :
    Sound cacheSettings { s with cache := cache } :=
  ⟨h.current, h.returned, hkept, fun id entry hmem => h.cached id entry (hsub hmem), h.tasks⟩

/-- The cache is filled with the row that is committed. -/
theorem fill (h : Sound cacheSettings s) {workflow : WorkflowObject}
    (hrow : s.table.lookup workflow.id = some workflow.row) :
    Sound cacheSettings { s with cache := s.cache.set cacheSettings s.clock workflow } := by
  refine ⟨h.current, h.returned, h.kept.set s.clock workflow, fun id entry hmem => ?_, h.tasks⟩
  rcases WorkflowCache.mem_entries_set h.kept hmem with hold | ⟨rfl, hnew⟩
  · exact h.cached id entry hold
  · rw [hnew]
    exact ⟨rfl, h.committedSince hrow (h.returned workflow.id)⟩

theorem committing (h : Sound cacheSettings s) (table : WorkflowTable) :
    Sound cacheSettings (s.committing table) ∧
      s.history.length < (s.committing table).history.length := by
  have hlater : Later s (s.committing table) := ⟨⟨[table], rfl⟩, fun _ => Nat.le_refl _⟩
  have hlength : (s.committing table).history.length = s.history.length + 1 := by
    show (s.history ++ [table]).length = _
    rw [List.length_append, List.length_singleton]
  refine ⟨⟨List.getLast?_concat, fun id => ?_, h.kept, fun id entry hmem => ?_,
    fun task htask => (h.tasks task htask).later hlater⟩, by omega⟩
  · have hreturned := h.returned id
    show s.returnedAt id < _
    omega
  · obtain ⟨hid, hcommitted⟩ := h.cached id entry hmem
    exact ⟨hid, hcommitted.later hlater⟩

/-- An update returns: its workflow leaves the cache. -/
theorem invalidate (h : Sound cacheSettings s) {workflowId : Uuid} {moment : Nat}
    (hmoment : moment < s.history.length) :
    Sound cacheSettings { s with
      cache := s.cache.invalidate workflowId
      returned := Dict.set s.returned workflowId (max (Dict.getD s.returned workflowId 0) moment) } := by
  let s' : Process := { s with
    cache := s.cache.invalidate workflowId
    returned := Dict.set s.returned workflowId (max (Dict.getD s.returned workflowId 0) moment) }
  have hself : s'.returnedAt workflowId = max (s.returnedAt workflowId) moment := by
    show Dict.getD (Dict.set _ _ _) _ _ = _
    rw [Dict.getD_set, if_pos rfl]
    rfl
  have hother : ∀ {id}, id ≠ workflowId → s'.returnedAt id = s.returnedAt id := by
    intro id hne
    show Dict.getD (Dict.set _ _ _) _ _ = _
    rw [Dict.getD_set, if_neg (Ne.symm hne)]
    rfl
  have hlater : Later s s' := by
    refine ⟨⟨[], (List.append_nil _).symm⟩, fun id => ?_⟩
    by_cases heq : id = workflowId
    · subst heq
      rw [hself]
      omega
    · rw [hother heq]
  show Sound cacheSettings s'
  refine ⟨h.current, fun id => ?_, h.kept.invalidate workflowId, fun id entry hmem => ?_,
    fun task htask => (h.tasks task htask).later hlater⟩
  · have hreturned := h.returned id
    show s'.returnedAt id < s.history.length
    by_cases heq : id = workflowId
    · subst heq
      rw [hself]
      omega
    · rw [hother heq]
      exact hreturned
  · obtain ⟨hold, hne⟩ := WorkflowCache.mem_entries_invalidate hmem
    obtain ⟨hid, hcommitted⟩ := h.cached id entry hold
    rw [hother hne]
    exact ⟨hid, hcommitted.later hlater⟩

end Sound

/-- The table that `lookup_workflow_by_path` was answered from has the row. -/
theorem lookup_of_lookupByPath {table : WorkflowTable} {path : String} {workflow : WorkflowObject}
    (h : lookupByPath table path = .ok workflow) : table.lookup workflow.id = some workflow.row := by
  unfold lookupByPath at h
  split at h
  · cases h
  · rename_i item hfound
    cases h
    have hmem : item ∈ table.entries.filter _ := hfound ▸ List.mem_cons_self
    exact AList.mem_lookup_iff.mpr (List.mem_filter.mp hmem).1
  · cases h

variable {libs : Libraries} {settings : Settings} {cacheSettings : CacheSettings}

theorem Sound.resume {s s' : Process} (h : Sound cacheSettings s) {i : Nat} {task : Task}
    (htask : s.Admits task)
    (htimely : ∀ since workflow, task = .lookedUp since (.ok workflow) →
      s.table.lookup workflow.id = some workflow.row)
    (hstep : s.resume libs settings cacheSettings i task = some s') : Sound cacheSettings s' := by
  cases task with
  | received path since =>
    obtain ⟨hkept, hsub, hfound⟩ :=
      WorkflowCache.mem_entries_getByWebhookPath h.kept s.clock path
    rcases hget : s.cache.getByWebhookPath s.clock path with ⟨result, cache⟩
    rw [hget] at hkept hsub hfound
    have hshrunk := h.shrink hkept hsub
    cases result with
    | some workflow =>
      simp only [Process.resume, hget] at hstep
      cases hstep
      rcases hfound workflow rfl with ⟨id, entry, hentry, rfl⟩
      obtain ⟨rfl, hcommitted⟩ := h.cached id entry hentry
      -- the request started before this moment, so it asks for less
      exact hshrunk.put i (hcommitted.mono (htask entry.workflow.id))
    | none =>
      simp only [Process.resume, hget] at hstep
      cases hstep
      exact hshrunk.put i htask
  | lookingUp path since =>
    cases hstep
    refine h.put i ?_
    cases hanswer : lookupByPath s.table path with
    | ok workflow =>
      have hlt := h.returned workflow.id
      have hle := htask workflow.id
      exact h.committedSince (lookup_of_lookupByPath hanswer) (by omega)
    | error exc => trivial
  | lookedUp since answer =>
    cases answer with
    | ok workflow =>
      cases hstep
      exact (h.fill (htimely since workflow rfl)).put i htask
    | error exc =>
      cases hstep
      exact h.put i trivial
  | handling since workflow => cases hstep
  | update body workflowId tenantId generated =>
    cases hstep
    exact h.put i trivial
  | updateRead body workflowId generated found =>
    cases found with
    | none =>
      cases hstep
      exact h.put i trivial
    | some loaded =>
      simp only [Process.resume] at hstep
      split at hstep
      · cases hstep
        exact h.put i trivial
      · cases hstep
        exact h.put i trivial
  | updateCommitting body workflowId generated loaded =>
    simp only [Process.resume] at hstep
    split at hstep
    · cases hstep
      obtain ⟨hcommitted, hlt⟩ := h.committing (s.table.insert workflowId _)
      exact hcommitted.put i hlt
    · cases hstep
      exact h.put i trivial
  | updateCommitted workflowId moment =>
    simp only [Process.resume] at hstep
    split at hstep
    · cases hstep
      exact h.put i htask
    · cases hstep
      exact h.put i trivial
  | delete workflowId tenantId =>
    cases hstep
    exact h.put i trivial
  | deleteRead workflowId found =>
    cases found with
    | none =>
      cases hstep
      exact h.put i trivial
    | some row =>
      cases hstep
      exact h.put i trivial
  | deleteCommitting workflowId =>
    cases hstep
    obtain ⟨hcommitted, hlt⟩ := h.committing (s.table.erase workflowId)
    exact hcommitted.put i hlt
  | invalidating workflowId moment =>
    cases hstep
    exact (h.invalidate htask).put i trivial
  | ended => cases hstep

theorem Sound.step {s s' : Process} (h : Sound cacheSettings s) {action : Action}
    (htimely : s.Timely action) (hstep : s.step libs settings cacheSettings action = some s') :
    Sound cacheSettings s' := by
  cases action with
  | webhook path =>
    cases hstep
    exact h.spawn fun id => Nat.le_refl _
  | update body workflowId tenantId generated =>
    cases hstep
    exact h.spawn trivial
  | delete workflowId tenantId =>
    cases hstep
    exact h.spawn trivial
  | tick elapsed =>
    cases hstep
    exact ⟨h.current, h.returned, h.kept, h.cached, h.tasks⟩
  | resume i =>
    simp only [Process.step] at hstep
    split at hstep
    · rename_i task htask
      refine h.resume (h.tasks task (List.mem_of_getElem? htask)) ?_ hstep
      rintro since workflow rfl
      exact htimely since workflow htask
    · cases hstep

theorem sound_initial (table : WorkflowTable) (clock : Time) :
    Sound cacheSettings (initial table clock) := by
  refine ⟨rfl, fun id => Nat.zero_lt_one, WorkflowCache.Kept.empty, fun id entry hmem => ?_,
    fun task htask => ?_⟩
  · cases hmem
  · cases htask

theorem Sound.upToDate {s : Process} (h : Sound cacheSettings s) : s.UpToDate := by
  have hruns : ∀ since workflow, .handling since workflow ∈ s.tasks →
      s.CommittedSince (Dict.getD since workflow.id 0) workflow :=
    fun since workflow hmem => h.tasks _ hmem
  refine ⟨hruns, fun since workflow hmem hactive => ?_⟩
  exact (hruns since workflow hmem).imp fun table hrow => ⟨workflow.row, hrow, hactive⟩

/-- As long as the cache is filled with rows that are still committed, a webhook
request never goes on with a definition that an update or a delete had replaced
when the request started. -/
theorem upToDate_of_timely {table : WorkflowTable} {clock : Time} {s : Process}
    (hrun : Runs libs settings cacheSettings Timely (initial table clock) s) : s.UpToDate := by
  have hsound : Sound cacheSettings s := by
    unfold Runs at hrun
    induction hrun with
    | refl => exact sound_initial table clock
    | tail _ hstep ih =>
      rcases hstep with ⟨action, htimely, hstep⟩
      exact ih.step htimely hstep
  exact hsound.upToDate

/-! ## Two runs -/

section

variable (libs settings cacheSettings)

/-- The actions one after another. -/
def play (s : Process) : List Action → Option Process
  | [] => some s
  | action :: rest =>
    (s.step libs settings cacheSettings action).bind (fun s' => play s' rest)

/-- Every action is allowed in the state in which it is played. -/
def AllowedAlong (allowed : Process → Action → Prop) (s : Process) : List Action → Prop
  | [] => True
  | action :: rest => allowed s action ∧ ∀ s', s.step libs settings cacheSettings action = some s' →
      AllowedAlong allowed s' rest

end

theorem runs_of_play {allowed : Process → Action → Prop} {s s' : Process} {actions : List Action}
    (hallowed : AllowedAlong libs settings cacheSettings allowed s actions)
    (hplay : play libs settings cacheSettings s actions = some s') :
    Runs libs settings cacheSettings allowed s s' := by
  induction actions generalizing s with
  | nil =>
    cases hplay
    exact .refl
  | cons action rest ih =>
    rcases Option.bind_eq_some_iff.mp hplay with ⟨next, hstep, hrest⟩
    obtain ⟨hfirst, hlater⟩ := hallowed
    exact .head ⟨action, hfirst, hstep⟩ (ih (hlater next hstep) hrest)

theorem allowedAlong_all {s : Process} (actions : List Action) :
    AllowedAlong libs settings cacheSettings (fun _ _ => True) s actions := by
  induction actions generalizing s with
  | nil => trivial
  | cons action rest ih => exact ⟨trivial, fun _ _ => ih⟩

/-- An active workflow with a webhook. -/
def hook : Workflow :=
  { oneStepWorkflow with triggerType := "webhook", webhookPath := some "hook" }

/-- A table with this workflow. -/
def hookTable : WorkflowTable := (∅ : WorkflowTable).insert 1 hook

/-- A request reads the row, the workflow is deactivated, the request fills the
cache, and another request comes in. -/
def staleActions : List Action :=
  [.webhook "hook", .resume 0, .resume 0,
    .update { isActive := some false } 1 1 0, .resume 1, .resume 1, .resume 1, .resume 1, .resume 1,
    .resume 0, .webhook "hook", .resume 2]

/-- The process after these actions. -/
def staleProcess : Process where
  table := hookTable.insert 1 { hook with isActive := false }
  cache := ⟨[(1, ⟨⟨1, hook⟩, 300000000⟩)], [("hook", 1)]⟩
  clock := 0
  tasks := [.handling [] ⟨1, hook⟩, .ended, .handling [(1, 1)] ⟨1, hook⟩]
  history := [hookTable, hookTable.insert 1 { hook with isActive := false }]
  returned := [(1, 1)]

theorem play_staleActions :
    play plainLibraries {} {} (initial hookTable 0) staleActions = some staleProcess := rfl

/-- The other request started after the update had returned, and goes on with the
definition from before it, which accepts. -/
theorem not_upToDate_staleProcess :
    Runs plainLibraries {} {} (fun _ _ => True) (initial hookTable 0) staleProcess ∧
      ¬ staleProcess.UpToDate := by
  refine ⟨runs_of_play ?_ play_staleActions, fun h => ?_⟩
  · exact allowedAlong_all staleActions
  · have hhandling : Task.handling [(1, 1)] ⟨1, hook⟩ ∈ staleProcess.tasks :=
      List.mem_cons_of_mem _ (List.mem_cons_of_mem _ List.mem_cons_self)
    rcases h.accepts _ _ hhandling rfl with ⟨m, state, hm, hstate, row, hrow, hactive⟩
    have hlt := (List.getElem?_eq_some_iff.mp hstate).1
    have hlength : staleProcess.history.length = 2 := rfl
    have hone : m = 1 := by
      have hsince : 1 ≤ m := hm
      omega
    subst hone
    cases hstate
    have hrow' : some { hook with isActive := false } = some row :=
      (AList.lookup_insert hookTable).symm.trans hrow
    cases hrow'
    cases hactive

/-- A request that reads the row, fills the cache at once and goes on. -/
def timelyActions : List Action := [.webhook "hook", .resume 0, .resume 0, .resume 0]

/-- The process after these actions. -/
def filledProcess : Process where
  table := hookTable
  cache := ⟨[(1, ⟨⟨1, hook⟩, 300000000⟩)], [("hook", 1)]⟩
  clock := 0
  tasks := [.handling [] ⟨1, hook⟩]
  history := [hookTable]
  returned := []

theorem runs_filledProcess :
    Runs plainLibraries {} {} Timely (initial hookTable 0) filledProcess := by
  have hplay : play plainLibraries {} {} (initial hookTable 0) timelyActions =
      some filledProcess := rfl
  refine runs_of_play ?_ hplay
  refine ⟨trivial, fun s₁ h₁ => ?_⟩
  cases h₁
  refine ⟨(fun _ _ hmem => by cases hmem), fun s₂ h₂ => ?_⟩
  cases h₂
  refine ⟨(fun _ _ hmem => by cases hmem), fun s₃ h₃ => ?_⟩
  cases h₃
  refine ⟨fun _ _ hmem => ?_, fun s₄ h₄ => trivial⟩
  cases hmem
  rfl

/-- In this run the workflow that the request goes on with is up to date. -/
theorem upToDate_filledProcess :
    filledProcess.UpToDate ∧ .handling [] ⟨1, hook⟩ ∈ filledProcess.tasks :=
  ⟨upToDate_of_timely runs_filledProcess, List.mem_cons_self⟩

end Process

end WorkflowEngine

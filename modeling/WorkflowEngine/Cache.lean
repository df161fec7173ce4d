import Mathlib.Data.List.Infix
import WorkflowEngine.Models

/-!
# The workflow cache

`src/lib/cache.py`: an LRU cache with a second index from webhook paths to
workflow ids.  `time.monotonic()` is an argument of the operations that read
it, and `logger.debug` is left out.

The two indexes are to agree (`DualIndexed`).  Every operation keeps them in
step but one: `set` takes the oldest entry out with `popitem` before it calls
`_remove_path_index`, which looks the entry up to learn its path and finds
nothing.  `dualIndexed_iff` says when this shows.
-/

namespace WorkflowEngine

open Py

/-- A workflow object: its primary key and its columns. -/
structure WorkflowObject where
  id : Uuid
  row : Workflow

/-- `workflow.webhook_path`, where it is true. -/
def WorkflowObject.path? (workflow : WorkflowObject) : Option String :=
  workflow.row.webhookPath.filter (· ≠ "")

/-- `_CacheEntry`. -/
structure CacheEntry where
  workflow : WorkflowObject
  expiresAt : Time

/-- The arguments of `WorkflowCache()`, with their defaults. -/
structure CacheSettings where
  maxSize : Nat := 256
  ttl : Time := 300000000
  maxSize_pos : 1 ≤ maxSize := by decide

/-- `WorkflowCache`: `_entries` and `_path_index`. -/
structure WorkflowCache where
  entries : Dict Uuid CacheEntry
  pathIndex : Dict String Uuid

namespace WorkflowCache

/-- A new cache. -/
def empty : WorkflowCache := ⟨[], []⟩

/-- `_remove_path_index`. -/
def removePathIndex (entries : Dict Uuid CacheEntry) (pathIndex : Dict String Uuid)
    (workflowId : Uuid) : Dict String Uuid :=
  match Dict.get? entries workflowId with
  | some entry =>
    match entry.workflow.path? with
    | some path => Dict.erase pathIndex path
    | none => pathIndex
  | none => pathIndex

/-- `_remove`. -/
def remove (cache : WorkflowCache) (workflowId : Uuid) : WorkflowCache where
  entries := Dict.erase cache.entries workflowId
  pathIndex := removePathIndex cache.entries cache.pathIndex workflowId

/-- `get_by_id`. -/
def getById (now : Time) (cache : WorkflowCache) (workflowId : Uuid) :
    Option WorkflowObject × WorkflowCache :=
  match Dict.get? cache.entries workflowId with
  | none => (none, cache)
  | some entry =>
    if now ≥ entry.expiresAt then (none, cache.remove workflowId)
    else (some entry.workflow,
      { cache with entries := Dict.moveToEnd cache.entries workflowId })

/-- `get_by_webhook_path`. -/
def getByWebhookPath (now : Time) (cache : WorkflowCache) (webhookPath : String) :
    Option WorkflowObject × WorkflowCache :=
  match Dict.get? cache.pathIndex webhookPath with
  | none => (none, cache)
  | some workflowId => cache.getById now workflowId

/-- The loop of `set` that evicts.  The entry is gone when the index is told. -/
def evict (maxSize : Nat) :
    Dict Uuid CacheEntry → Dict String Uuid → Dict Uuid CacheEntry × Dict String Uuid
  | [], pathIndex => ([], pathIndex)
  | (oldestId, entry) :: rest, pathIndex =>
    if rest.length + 1 ≥ maxSize then
      evict maxSize rest (removePathIndex rest pathIndex oldestId)
    else ((oldestId, entry) :: rest, pathIndex)

/-- `set`. -/
def set (settings : CacheSettings) (now : Time) (cache : WorkflowCache)
    (workflow : WorkflowObject) : WorkflowCache :=
  let cache :=
    if workflow.id ∈ Dict.keys cache.entries then cache.remove workflow.id else cache
  let evicted := evict settings.maxSize cache.entries cache.pathIndex
  let entry : CacheEntry := ⟨workflow, now + settings.ttl⟩
  { entries := Dict.moveToEnd (Dict.set evicted.1 workflow.id entry) workflow.id
    pathIndex :=
      match workflow.path? with
      | some path => Dict.set evicted.2 path workflow.id
      | none => evicted.2 }

/-- `invalidate`. -/
def invalidate (cache : WorkflowCache) (workflowId : Uuid) : WorkflowCache :=
  if workflowId ∈ Dict.keys cache.entries then cache.remove workflowId else cache

/-- `clear`. -/
def clear (_ : WorkflowCache) : WorkflowCache := empty

/-- The calls of the cache. -/
inductive Call where
  | set (workflow : WorkflowObject)
  | getById (workflowId : Uuid)
  | getByWebhookPath (webhookPath : String)
  | invalidate (workflowId : Uuid)
  | clear

/-- The cache after a call at the time `now`. -/
def after (settings : CacheSettings) (cache : WorkflowCache) (now : Time) : Call → WorkflowCache
  | .set workflow => cache.set settings now workflow
  | .getById workflowId => (cache.getById now workflowId).2
  | .getByWebhookPath webhookPath => (cache.getByWebhookPath now webhookPath).2
  | .invalidate workflowId => cache.invalidate workflowId
  | .clear => cache.clear

/-- The cache after a sequence of calls, each at its own time. -/
def run (settings : CacheSettings) (calls : List (Time × Call)) : WorkflowCache :=
  calls.foldl (fun cache call => cache.after settings call.1 call.2) empty

/-- The two indexes agree, neither is too large, and a lookup by path finds a
workflow with that path. -/
structure DualIndexed (settings : CacheSettings) (cache : WorkflowCache) : Prop where
  indexed : ∀ path id, (path, id) ∈ cache.pathIndex →
    ∃ entry, (id, entry) ∈ cache.entries ∧ entry.workflow.row.webhookPath = some path
  index_length : cache.pathIndex.length ≤ cache.entries.length
  entries_length : cache.entries.length ≤ settings.maxSize
  lookup : ∀ now path workflow, (cache.getByWebhookPath now path).1 = some workflow →
    workflow.row.webhookPath = some path

/-- The ids of the entries that `set` evicts. -/
def evictedBy (settings : CacheSettings) (cache : WorkflowCache) (workflow : WorkflowObject) :
    List Uuid :=
  if workflow.id ∈ Dict.keys cache.entries then []
  else (Dict.keys cache.entries).take (cache.entries.length + 1 - settings.maxSize)

/-- `set` evicts an entry to which a path leads that is not the path of the new
workflow. -/
def EvictsIndexed (settings : CacheSettings) (cache : WorkflowCache)
    (workflow : WorkflowObject) : Prop :=
  ∃ id ∈ evictedBy settings cache workflow, ∃ path,
    (path, id) ∈ cache.pathIndex ∧ workflow.path? ≠ some path

/-! ## What holds in every state -/

/-- The dictionaries have distinct keys, the index has no empty path, and the
entries are not too many. -/
structure Kept (settings : CacheSettings) (cache : WorkflowCache) : Prop where
  entries_nodup : (Dict.keys cache.entries).Nodup
  index_nodup : (Dict.keys cache.pathIndex).Nodup
  path_ne : ∀ path id, (path, id) ∈ cache.pathIndex → path ≠ ""
  entries_length : cache.entries.length ≤ settings.maxSize

/-- Every path in the index leads to an entry with that path. -/
def Consistent (cache : WorkflowCache) : Prop :=
  ∀ path id, (path, id) ∈ cache.pathIndex →
    ∃ entry, (id, entry) ∈ cache.entries ∧ entry.workflow.path? = some path

theorem removePathIndex_subset (entries : Dict Uuid CacheEntry) (pathIndex : Dict String Uuid)
    (id : Uuid) : (removePathIndex entries pathIndex id).Sublist pathIndex := by
  unfold removePathIndex
  split
  · split
    · exact List.filter_sublist
    · exact List.Sublist.refl _
  · exact List.Sublist.refl _

/-- An id without an entry has no path to remove. -/
theorem removePathIndex_of_not_mem {entries : Dict Uuid CacheEntry} {id : Uuid}
    (h : id ∉ Dict.keys entries) (pathIndex : Dict String Uuid) :
    removePathIndex entries pathIndex id = pathIndex := by
  unfold removePathIndex
  rw [(Dict.get?_eq_none_iff entries id).mpr h]

/-- The evicted entries are the oldest ones, and the index does not change. -/
theorem evict_eq (maxSize : Nat) {entries : Dict Uuid CacheEntry}
    (hnodup : (Dict.keys entries).Nodup) (pathIndex : Dict String Uuid) :
    evict maxSize entries pathIndex = (entries.drop (entries.length + 1 - maxSize), pathIndex) := by
  induction entries generalizing pathIndex with
  | nil => simp [evict]
  | cons item rest ih =>
    obtain ⟨oldestId, entry⟩ := item
    simp only [Dict.keys, List.map_cons, List.nodup_cons] at hnodup
    rw [evict, removePathIndex_of_not_mem hnodup.1, List.length_cons]
    split
    · rename_i hfull
      have hcount : rest.length + 1 + 1 - maxSize = (rest.length + 1 - maxSize) + 1 := by omega
      rw [ih hnodup.2, hcount, List.drop_succ_cons]
    · rename_i hroom
      have hcount : rest.length + 1 + 1 - maxSize = 0 := by omega
      rw [hcount, List.drop_zero]

namespace Kept

variable {settings : CacheSettings} {cache : WorkflowCache}

theorem remove (h : Kept settings cache) (id : Uuid) : Kept settings (cache.remove id) := by
  have hsub := removePathIndex_subset cache.entries cache.pathIndex id
  refine ⟨(Dict.keys_erase_sublist _ _).nodup h.entries_nodup,
    (hsub.map Prod.fst).nodup h.index_nodup, fun path id' hmem => ?_, ?_⟩
  · exact h.path_ne path id' (hsub.subset hmem)
  · exact (List.length_filter_le _ _).trans h.entries_length

theorem getById (h : Kept settings cache) (now : Time) (id : Uuid) :
    Kept settings (cache.getById now id).2 := by
  unfold WorkflowCache.getById
  split
  · exact h
  · split
    · exact h.remove id
    · exact ⟨Dict.nodup_keys_moveToEnd h.entries_nodup id, h.index_nodup, h.path_ne,
        (Dict.length_moveToEnd_le _ _).trans h.entries_length⟩

theorem invalidate (h : Kept settings cache) (id : Uuid) :
    Kept settings (cache.invalidate id) := by
  unfold WorkflowCache.invalidate
  split
  · exact h.remove id
  · exact h

end Kept

section Set

variable {settings : CacheSettings} {cache : WorkflowCache}

theorem not_mem_invalidate (cache : WorkflowCache) (id : Uuid) :
    id ∉ Dict.keys (cache.invalidate id).entries := by
  unfold invalidate
  split
  · exact Dict.not_mem_keys_erase _ _
  · assumption

/-- What `set` makes of the entries and of the index. -/
theorem set_eq (h : Kept settings cache) (now : Time) (workflow : WorkflowObject) :
    cache.set settings now workflow =
      { entries := ((cache.invalidate workflow.id).entries.drop
            ((cache.invalidate workflow.id).entries.length + 1 - settings.maxSize)) ++
          [(workflow.id, ⟨workflow, now + settings.ttl⟩)]
        pathIndex :=
          match workflow.path? with
          | some path => Dict.set (cache.invalidate workflow.id).pathIndex path workflow.id
          | none => (cache.invalidate workflow.id).pathIndex } := by
  have hnodup := (h.invalidate workflow.id).entries_nodup
  have hnew := not_mem_invalidate cache workflow.id
  have hset : cache.set settings now workflow =
      { entries := Dict.moveToEnd (Dict.set (evict settings.maxSize
            (cache.invalidate workflow.id).entries (cache.invalidate workflow.id).pathIndex).1
            workflow.id ⟨workflow, now + settings.ttl⟩) workflow.id
        pathIndex :=
          match workflow.path? with
          | some path => Dict.set (evict settings.maxSize (cache.invalidate workflow.id).entries
              (cache.invalidate workflow.id).pathIndex).2 path workflow.id
          | none => (evict settings.maxSize (cache.invalidate workflow.id).entries
              (cache.invalidate workflow.id).pathIndex).2 } := rfl
  rw [hset, evict_eq _ hnodup]
  have hfresh : workflow.id ∉ Dict.keys ((cache.invalidate workflow.id).entries.drop
      ((cache.invalidate workflow.id).entries.length + 1 - settings.maxSize)) := by
    intro hmem
    exact hnew ((List.drop_sublist _ _).map Prod.fst |>.subset hmem)
  dsimp only
  rw [Dict.set_of_not_mem _ _ _ hfresh, Dict.moveToEnd_concat hfresh]

/-- What `set` evicts, in terms of the cache without the old entry. -/
theorem evictsIndexed_iff (h : Kept settings cache) (workflow : WorkflowObject) :
    EvictsIndexed settings cache workflow ↔
      ∃ id ∈ (Dict.keys (cache.invalidate workflow.id).entries).take
          ((cache.invalidate workflow.id).entries.length + 1 - settings.maxSize),
        ∃ path, (path, id) ∈ (cache.invalidate workflow.id).pathIndex ∧
          workflow.path? ≠ some path := by
  unfold EvictsIndexed evictedBy
  by_cases hold : workflow.id ∈ Dict.keys cache.entries
  · -- a workflow that has an entry takes its own place
    have hlt : (cache.invalidate workflow.id).entries.length < cache.entries.length := by
      rw [invalidate, if_pos hold]
      exact Dict.length_erase_lt hold
    have hle := h.entries_length
    have hroom : (cache.invalidate workflow.id).entries.length + 1 - settings.maxSize = 0 := by
      omega
    rw [if_pos hold, hroom, List.take_zero]
    simp
  · have hsame : cache.invalidate workflow.id = cache := if_neg hold
    rw [if_neg hold, hsame]

theorem mem_pathIndex_set (h : Kept settings cache) (now : Time) (workflow : WorkflowObject)
    (path : String) (id : Uuid) :
    (path, id) ∈ (cache.set settings now workflow).pathIndex ↔
      workflow.path? = some path ∧ id = workflow.id ∨
        workflow.path? ≠ some path ∧ (path, id) ∈ (cache.invalidate workflow.id).pathIndex := by
  rw [set_eq h]
  dsimp only
  cases hpath : workflow.path? with
  | none => simp
  | some path' =>
    dsimp only
    rw [Dict.mem_set (h.invalidate workflow.id).index_nodup, ne_eq (some path'),
      Option.some.injEq, eq_comm (a := path), ne_comm]

theorem Kept.set (h : Kept settings cache) (now : Time) (workflow : WorkflowObject) :
    Kept settings (cache.set settings now workflow) := by
  have hmade := h.invalidate workflow.id
  have hnew := not_mem_invalidate cache workflow.id
  have hpos := settings.maxSize_pos
  refine ⟨?_, ?_, fun path id hmem => ?_, ?_⟩
  · rw [set_eq h, Dict.keys_append]
    have hsub := (List.drop_sublist ((cache.invalidate workflow.id).entries.length + 1 -
      settings.maxSize) (cache.invalidate workflow.id).entries).map Prod.fst
    refine List.nodup_append.mpr ⟨hsub.nodup hmade.entries_nodup, by simp [Dict.keys], ?_⟩
    rintro x hx y hy rfl
    obtain rfl : x = workflow.id := by simpa [Dict.keys] using hy
    exact hnew (hsub.subset hx)
  · rw [set_eq h]
    dsimp only
    split
    · exact Dict.nodup_keys_set hmade.index_nodup _ _
    · exact hmade.index_nodup
  · rcases (mem_pathIndex_set h now workflow path id).mp hmem with ⟨hpath, -⟩ | ⟨-, hold⟩
    · have htrue := (Option.filter_eq_some_iff.mp hpath).2
      exact of_decide_eq_true htrue
    · exact hmade.path_ne path id hold
  · rw [set_eq h]
    have hle := hmade.entries_length
    simp only [List.length_append, List.length_drop, List.length_singleton]
    omega

end Set

namespace Consistent

variable {settings : CacheSettings} {cache : WorkflowCache}

theorem remove (h : Kept settings cache) (hc : Consistent cache) (id : Uuid) :
    Consistent (cache.remove id) := by
  intro path x hmem
  have hindex := (removePathIndex_subset cache.entries cache.pathIndex id).subset hmem
  rcases hc path x hindex with ⟨entry, hentry, hpath⟩
  refine ⟨entry, Dict.mem_erase.mpr ⟨hentry, ?_⟩, hpath⟩
  rintro rfl
  -- the path of a removed entry leaves the index with it
  have hgone : removePathIndex cache.entries cache.pathIndex x = Dict.erase cache.pathIndex path := by
    unfold removePathIndex
    rw [Dict.get?_of_mem h.entries_nodup hentry]
    dsimp only
    rw [hpath]
  have herased : (path, x) ∈ Dict.erase cache.pathIndex path := hgone ▸ hmem
  exact (Dict.mem_erase.mp herased).2 rfl

theorem invalidate (h : Kept settings cache) (hc : Consistent cache) (id : Uuid) :
    Consistent (cache.invalidate id) := by
  unfold WorkflowCache.invalidate
  split
  · exact remove h hc id
  · exact hc

theorem getById (h : Kept settings cache) (hc : Consistent cache) (now : Time) (id : Uuid) :
    Consistent (cache.getById now id).2 := by
  unfold WorkflowCache.getById
  split
  · exact hc
  · split
    · exact remove h hc id
    · intro path x hmem
      rcases hc path x hmem with ⟨entry, hentry, hpath⟩
      exact ⟨entry, (Dict.mem_moveToEnd h.entries_nodup).mpr hentry, hpath⟩

/-- `set` keeps the indexes in step exactly where it evicts no entry to which
another path leads. -/
theorem set_iff (h : Kept settings cache) (hc : Consistent cache) (now : Time)
    (workflow : WorkflowObject) :
    Consistent (cache.set settings now workflow) ↔ ¬ EvictsIndexed settings cache workflow := by
  have hmade := h.invalidate workflow.id
  have hnew := not_mem_invalidate cache workflow.id
  have hsplit := List.take_append_drop ((cache.invalidate workflow.id).entries.length + 1 -
    settings.maxSize) (cache.invalidate workflow.id).entries
  have hnodup := hmade.entries_nodup
  rw [evictsIndexed_iff h]
  constructor
  · rintro hset ⟨id, hevicted, path, hindex, hother⟩
    rcases hset path id ((mem_pathIndex_set h now workflow path id).mpr (.inr ⟨hother, hindex⟩)) with
      ⟨entry, hentry, -⟩
    rw [set_eq h, List.mem_append, List.mem_singleton] at hentry
    rw [Dict.keys, ← List.map_take] at hevicted
    rcases hentry with hkept | hfresh
    · -- an id is not both among the evicted and among the kept
      rw [← hsplit, Dict.keys_append] at hnodup
      exact (List.nodup_append.mp hnodup).2.2 id hevicted id (Dict.mem_keys.mpr ⟨_, hkept⟩) rfl
    · cases hfresh
      exact hnew ((List.take_sublist _ _).map Prod.fst |>.subset hevicted)
  · intro hnone path id hmem
    rw [set_eq h]
    rcases (mem_pathIndex_set h now workflow path id).mp hmem with ⟨hpath, rfl⟩ | ⟨hother, hindex⟩
    · exact ⟨_, List.mem_append_right _ (List.mem_singleton.mpr rfl), hpath⟩
    · rcases invalidate h hc workflow.id path id hindex with ⟨entry, hentry, hpath⟩
      rw [← hsplit, List.mem_append] at hentry
      rcases hentry with hevicted | hkept
      · refine absurd ⟨id, ?_, path, hindex, hother⟩ hnone
        rw [Dict.keys, ← List.map_take]
        exact Dict.mem_keys.mpr ⟨entry, hevicted⟩
      · exact ⟨entry, List.mem_append_left _ hkept, hpath⟩

/-- The index is no larger than the entries: each entry has one path. -/
theorem length_le (h : Kept settings cache) (hc : Consistent cache) :
    cache.pathIndex.length ≤ cache.entries.length := by
  have hinjective : ∀ item ∈ cache.pathIndex, ∀ item' ∈ cache.pathIndex,
      item.2 = item'.2 → item = item' := by
    rintro ⟨path, id⟩ hitem ⟨path', _⟩ hitem' rfl
    rcases hc path id hitem with ⟨entry, hentry, hpath⟩
    rcases hc path' id hitem' with ⟨entry', hentry', hpath'⟩
    rw [Dict.value_unique h.entries_nodup hentry hentry', hpath'] at hpath
    rw [Option.some.inj hpath]
  have hnodup : (cache.pathIndex.map Prod.snd).Nodup :=
    List.Nodup.map_on hinjective h.index_nodup.of_map
  have hsub : cache.pathIndex.map Prod.snd ⊆ Dict.keys cache.entries := by
    intro id hid
    rcases List.mem_map.mp hid with ⟨⟨path, _⟩, hitem, rfl⟩
    rcases hc path _ hitem with ⟨entry, hentry, -⟩
    exact Dict.mem_keys.mpr ⟨entry, hentry⟩
  have hle := (List.subperm_of_subset hnodup hsub).length_le
  rwa [List.length_map, Dict.keys, List.length_map] at hle

/-- A lookup by path finds a workflow with that path. -/
theorem lookup (h : Kept settings cache) (hc : Consistent cache) {now : Time} {path : String}
    {workflow : WorkflowObject}
    (hfound : (cache.getByWebhookPath now path).1 = some workflow) :
    workflow.path? = some path := by
  unfold getByWebhookPath at hfound
  split at hfound
  · cases hfound
  · rename_i id hget
    rcases hc path id (Dict.mem_of_get? hget) with ⟨entry, hentry, hpath⟩
    unfold WorkflowCache.getById at hfound
    rw [Dict.get?_of_mem h.entries_nodup hentry] at hfound
    dsimp only at hfound
    split at hfound
    · cases hfound
    · cases hfound
      exact hpath

end Consistent

/-! ## Sequences of calls -/

section Calls

variable {settings : CacheSettings} {cache : WorkflowCache}

theorem Kept.empty : Kept settings WorkflowCache.empty :=
  ⟨List.nodup_nil, List.nodup_nil, fun _ _ hmem => (nomatch hmem), Nat.zero_le _⟩

theorem Consistent.empty : Consistent WorkflowCache.empty := fun _ _ hmem => (nomatch hmem)

theorem Kept.after (h : Kept settings cache) (now : Time) (call : Call) :
    Kept settings (cache.after settings now call) := by
  cases call with
  | set workflow => exact h.set now workflow
  | getById workflowId => exact h.getById now workflowId
  | getByWebhookPath webhookPath =>
    show Kept settings (cache.getByWebhookPath now webhookPath).2
    unfold getByWebhookPath
    split
    · exact h
    · exact h.getById now _
  | invalidate workflowId => exact h.invalidate workflowId
  | clear => exact .empty

/-- One call: only `set` can put the indexes out of step. -/
theorem Consistent.after_iff (h : Kept settings cache) (hc : Consistent cache) (now : Time)
    (call : Call) :
    Consistent (cache.after settings now call) ↔
      ∀ workflow, call = .set workflow → ¬ EvictsIndexed settings cache workflow := by
  cases call with
  | set workflow =>
    refine (Consistent.set_iff h hc now workflow).trans ⟨fun hnone _ heq => ?_, fun hall => ?_⟩
    · cases heq
      exact hnone
    · exact hall workflow rfl
  | getById workflowId =>
    exact iff_of_true (Consistent.getById h hc now workflowId) (fun _ heq => (nomatch heq))
  | getByWebhookPath webhookPath =>
    refine iff_of_true ?_ (fun _ heq => (nomatch heq))
    show Consistent (cache.getByWebhookPath now webhookPath).2
    unfold getByWebhookPath
    split
    · exact hc
    · exact Consistent.getById h hc now _
  | invalidate workflowId =>
    exact iff_of_true (Consistent.invalidate h hc workflowId) (fun _ heq => (nomatch heq))
  | clear => exact iff_of_true .empty (fun _ heq => (nomatch heq))

theorem run_concat (calls : List (Time × Call)) (now : Time) (call : Call) :
    run settings (calls ++ [(now, call)]) = (run settings calls).after settings now call := by
  simp [run, List.foldl_append]

theorem kept_run (calls : List (Time × Call)) : Kept settings (run settings calls) := by
  induction calls using List.reverseRecOn with
  | nil => exact .empty
  | append_singleton calls call ih =>
    rw [run_concat]
    exact ih.after call.1 call.2

/-- What the claim on the two indexes comes down to. -/
theorem dualIndexed_iff_consistent (h : Kept settings cache) :
    DualIndexed settings cache ↔ Consistent cache := by
  constructor
  · intro hdual path id hmem
    rcases hdual.indexed path id hmem with ⟨entry, hentry, hpath⟩
    refine ⟨entry, hentry, Option.filter_eq_some_iff.mpr ⟨hpath, ?_⟩⟩
    exact decide_eq_true (h.path_ne path id hmem)
  · intro hc
    refine ⟨fun path id hmem => ?_, hc.length_le h, h.entries_length, fun now path workflow hfound => ?_⟩
    · rcases hc path id hmem with ⟨entry, hentry, hpath⟩
      exact ⟨entry, hentry, (Option.filter_eq_some_iff.mp hpath).1⟩
    · exact (Option.filter_eq_some_iff.mp (hc.lookup h hfound)).1

/-- The indexes agree in all states of a run exactly when no `set` of the run
evicts an entry to which a path leads, other than the path of the new workflow. -/
theorem dualIndexed_iff (settings : CacheSettings) (calls : List (Time × Call)) :
    (∀ pre, pre <+: calls → DualIndexed settings (run settings pre)) ↔
      ∀ pre now workflow, pre ++ [(now, .set workflow)] <+: calls →
        ¬ EvictsIndexed settings (run settings pre) workflow := by
  constructor
  · intro hall pre now workflow hpre
    have hbefore := hall pre ((List.prefix_append _ _).trans hpre)
    have hafter := hall _ hpre
    rw [dualIndexed_iff_consistent (kept_run _)] at hbefore hafter
    rw [run_concat] at hafter
    exact (Consistent.set_iff (kept_run pre) hbefore now workflow).mp hafter
  · intro hnone pre hpre
    rw [dualIndexed_iff_consistent (kept_run pre)]
    induction pre using List.reverseRecOn with
    | nil => exact .empty
    | append_singleton pre call ih =>
      have hbefore := ih ((List.prefix_append _ _).trans hpre)
      rw [run_concat]
      refine (Consistent.after_iff (kept_run pre) hbefore call.1 call.2).mpr fun workflow heq => ?_
      refine hnone pre call.1 workflow ?_
      rwa [← heq]

/-- A workflow with a webhook path. -/
def hooked (id : Uuid) (webhookPath : String) : WorkflowObject where
  id := id
  row := ⟨1, "workflow", "webhook", [], true, some webhookPath, none⟩

/-- Two workflows in a cache for one: the path of the first one stays. -/
theorem not_dualIndexed :
    ¬ DualIndexed { maxSize := 1 }
      (run { maxSize := 1 } [(0, .set (hooked 1 "a")), (0, .set (hooked 2 "b"))]) := by
  intro h
  have hlength := h.index_length
  revert hlength
  decide

end Calls

end WorkflowCache

end WorkflowEngine

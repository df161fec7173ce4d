import WorkflowEngine.Cache
import WorkflowEngine.Lib.History
import WorkflowEngine.Lib.Recency

/-!
# What the workflow cache keeps

`Cache.lean` has the operations.  This file says in terms of the calls what the
cache holds after them: `uses` are the ids that were used, by a `set` or a
lookup that found something, and `Stands` is the workflow of the last `set` of an
id that was not undone.  `lruTtl` is the result for all sequences of calls.

The clock is only asked not to go back: a lookup is no earlier than the calls
before it.  An expired entry may be gone, since a lookup removes it, and then no
later lookup would return it anyway.
-/

namespace WorkflowEngine

open Py Recency History

namespace WorkflowCache

/-- The loop of `set` that evicts, where `none` is the `KeyError` of `popitem` on
an empty dictionary. -/
def tryEvict (maxSize : Nat) :
    Dict Uuid CacheEntry → Dict String Uuid → Option (Dict Uuid CacheEntry × Dict String Uuid)
  | [], pathIndex => if 0 ≥ maxSize then none else some ([], pathIndex)
  | (oldestId, entry) :: rest, pathIndex =>
    if rest.length + 1 ≥ maxSize then
      tryEvict maxSize rest (removePathIndex rest pathIndex oldestId)
    else some ((oldestId, entry) :: rest, pathIndex)

/-- `set`, where `none` is an exception. -/
def trySet (settings : CacheSettings) (now : Time) (cache : WorkflowCache)
    (workflow : WorkflowObject) : Option WorkflowCache :=
  let cache :=
    if workflow.id ∈ Dict.keys cache.entries then cache.remove workflow.id else cache
  match tryEvict settings.maxSize cache.entries cache.pathIndex with
  | none => none
  | some evicted =>
    let entry : CacheEntry := ⟨workflow, now + settings.ttl⟩
    some
      { entries := Dict.moveToEnd (Dict.set evicted.1 workflow.id entry) workflow.id
        pathIndex :=
          match workflow.path? with
          | some path => Dict.set evicted.2 path workflow.id
          | none => evicted.2 }

/-- The id that a call uses: that of the workflow it sets or finds. -/
def used (cache : WorkflowCache) (now : Time) : Call → Option Uuid
  | .set workflow => some workflow.id
  | .getById workflowId => (cache.getById now workflowId).1.map WorkflowObject.id
  | .getByWebhookPath webhookPath =>
    (cache.getByWebhookPath now webhookPath).1.map WorkflowObject.id
  | .invalidate _ => none
  | .clear => none

/-- The ids that a sequence of calls uses, one after the other. -/
def usesFrom (settings : CacheSettings) (cache : WorkflowCache) : List (Time × Call) → List Uuid
  | [] => []
  | call :: calls =>
    (cache.used call.1 call.2).toList ++
      usesFrom settings (cache.after settings call.1 call.2) calls

/-- The ids that are used from a new cache on. -/
def uses (settings : CacheSettings) (calls : List (Time × Call)) : List Uuid :=
  usesFrom settings empty calls

/-- The ids held other than `id`, in the order of their last use. -/
def othersHeld (settings : CacheSettings) (calls : List (Time × Call)) (id : Uuid) : List Uuid :=
  (byLastUse (uses settings calls)).filter fun other =>
    decide (other ∈ Dict.keys (run settings calls).entries) && decide (other ≠ id)

/-- To set `workflow` evicts `id`: as many other ids as fit are held, and `id` is
the least recently used one. -/
def Evicts (settings : CacheSettings) (calls : List (Time × Call)) (workflow : WorkflowObject)
    (id : Uuid) : Prop :=
  (othersHeld settings calls workflow.id).length = settings.maxSize ∧
    (othersHeld settings calls workflow.id).head? = some id

/-- A call that replaces, evicts, invalidates or clears what was set for `id`. -/
def Undoes (settings : CacheSettings) (id : Uuid) (calls : List (Time × Call)) :
    Time × Call → Prop
  | (_, .set workflow) => workflow.id = id ∨ Evicts settings calls workflow id
  | (_, .invalidate workflowId) => workflowId = id
  | (_, .clear) => True
  | (_, .getById _) => False
  | (_, .getByWebhookPath _) => False

/-- The last `set` for `id` was of `workflow` at the time `setAt`, and nothing has
undone it. -/
def Stands (settings : CacheSettings) (calls : List (Time × Call)) (id : Uuid) (setAt : Time)
    (workflow : WorkflowObject) : Prop :=
  Standing (fun call => call = (setAt, .set workflow) ∧ workflow.id = id) (Undoes settings id) calls

/-- What the cache does after a sequence of calls, in terms of these calls. -/
structure LruTtl (settings : CacheSettings) (calls : List (Time × Call)) : Prop where
  ordered : Ordered (uses settings calls) (Dict.keys (run settings calls).entries)
  entries_length : (run settings calls).entries.length ≤ settings.maxSize
  set_succeeds : ∀ now workflow,
    (run settings calls).trySet settings now workflow =
      some ((run settings calls).set settings now workflow)
  removes : ∀ now workflow id, id ∈ Dict.keys (run settings calls).entries → id ≠ workflow.id →
    (id ∉ Dict.keys ((run settings calls).set settings now workflow).entries ↔
      Evicts settings calls workflow id)
  found : ∀ now id workflow, (∀ call ∈ calls, call.1 ≤ now) →
    (((run settings calls).getById now id).1 = some workflow ↔
      ∃ setAt, Stands settings calls id setAt workflow ∧ now < setAt + settings.ttl)

/-! ## One call -/

section Call

variable {settings : CacheSettings} {cache : WorkflowCache}

theorem tryEvict_eq {maxSize : Nat} (hpos : 1 ≤ maxSize) (entries : Dict Uuid CacheEntry)
    (pathIndex : Dict String Uuid) :
    tryEvict maxSize entries pathIndex = some (evict maxSize entries pathIndex) := by
  induction entries generalizing pathIndex with
  | nil =>
    rw [tryEvict, if_neg (by omega), evict]
  | cons item rest ih =>
    rw [tryEvict, evict]
    split
    · exact ih _
    · rfl

/-- `popitem` is never called on an empty dictionary. -/
theorem trySet_eq (now : Time) (workflow : WorkflowObject) :
    cache.trySet settings now workflow = some (cache.set settings now workflow) := by
  unfold trySet
  dsimp only
  rw [tryEvict_eq settings.maxSize_pos]
  rfl

/-- Each entry is under the id of its workflow. -/
def Keyed (cache : WorkflowCache) : Prop :=
  ∀ id entry, (id, entry) ∈ cache.entries → entry.workflow.id = id

/-- The three ways of a lookup: nothing under the id, an expired entry that is
removed, or an entry that is returned and becomes the last one. -/
theorem getById_cases (cache : WorkflowCache) (now : Time) (id : Uuid) :
    (id ∉ Dict.keys cache.entries ∧ cache.getById now id = (none, cache)) ∨
      ∃ entry, (id, entry) ∈ cache.entries ∧
        (entry.expiresAt ≤ now ∧ cache.getById now id = (none, cache.remove id) ∨
          now < entry.expiresAt ∧ cache.getById now id = (some entry.workflow,
            { cache with entries := Dict.erase cache.entries id ++ [(id, entry)] })) := by
  unfold getById
  cases hget : Dict.get? cache.entries id with
  | none => exact .inl ⟨(Dict.get?_eq_none_iff _ _).mp hget, rfl⟩
  | some entry =>
    refine .inr ⟨entry, Dict.mem_of_get? hget, ?_⟩
    dsimp only
    by_cases hexpired : now ≥ entry.expiresAt
    · rw [if_pos hexpired]
      exact .inl ⟨hexpired, rfl⟩
    · rw [if_neg hexpired, Dict.moveToEnd, hget]
      exact .inr ⟨Int.not_le.mp hexpired, rfl⟩

/-- What a lookup returns. -/
theorem getById_eq_some_iff (h : Kept settings cache) {now : Time} {id : Uuid}
    {workflow : WorkflowObject} :
    (cache.getById now id).1 = some workflow ↔
      ∃ entry, (id, entry) ∈ cache.entries ∧ now < entry.expiresAt ∧ entry.workflow = workflow := by
  rcases getById_cases cache now id with
    ⟨hnone, hget⟩ | ⟨entry, hentry, ⟨hexpired, hget⟩ | ⟨hvalid, hget⟩⟩
  · rw [hget]
    refine iff_of_false (by simp) fun ⟨entry, hentry, _⟩ => ?_
    exact hnone (Dict.mem_keys.mpr ⟨entry, hentry⟩)
  · rw [hget]
    refine iff_of_false (by simp) fun ⟨entry', hentry', hvalid, _⟩ => ?_
    rw [Dict.value_unique h.entries_nodup hentry' hentry] at hvalid
    exact absurd hvalid (Int.not_lt.mpr hexpired)
  · rw [hget]
    constructor
    · intro heq
      exact ⟨entry, hentry, hvalid, Option.some.inj heq⟩
    · rintro ⟨entry', hentry', -, rfl⟩
      rw [Dict.value_unique h.entries_nodup hentry' hentry]

/-- The other ids, when the entry of one is removed. -/
theorem keys_erase (entries : Dict Uuid CacheEntry) (id : Uuid) :
    Dict.keys (Dict.erase entries id) = (Dict.keys entries).filter (· ≠ id) := by
  rw [Dict.keys, Dict.erase, Dict.keys, List.filter_map]
  rfl

theorem keys_invalidate (cache : WorkflowCache) (id : Uuid) :
    Dict.keys (cache.invalidate id).entries = (Dict.keys cache.entries).filter (· ≠ id) := by
  unfold invalidate
  split
  · exact keys_erase _ _
  · rename_i hnot
    symm
    refine List.filter_eq_self.mpr fun other hother => decide_eq_true ?_
    rintro rfl
    exact hnot hother

/-- The ids after a `set`: the others, less the oldest if there is no room, and
then the new one. -/
theorem keys_set (h : Kept settings cache) (now : Time) (workflow : WorkflowObject) :
    Dict.keys (cache.set settings now workflow).entries =
      ((Dict.keys cache.entries).filter (· ≠ workflow.id)).drop
        (((Dict.keys cache.entries).filter (· ≠ workflow.id)).length + 1 - settings.maxSize) ++
        [workflow.id] := by
  have hlength : ((Dict.keys cache.entries).filter (· ≠ workflow.id)).length =
      (cache.invalidate workflow.id).entries.length := by
    rw [← keys_invalidate, Dict.keys, List.length_map]
  rw [set_eq h, hlength, ← keys_invalidate, Dict.keys_append, Dict.keys, Dict.keys, List.map_drop]
  rfl

/-- Which entries there are after a `set`. -/
theorem mem_entries_set_iff (h : Kept settings cache) (now : Time) (workflow : WorkflowObject)
    (id : Uuid) (entry : CacheEntry) :
    (id, entry) ∈ (cache.set settings now workflow).entries ↔
      id = workflow.id ∧ entry = ⟨workflow, now + settings.ttl⟩ ∨
        id ≠ workflow.id ∧ (id, entry) ∈ cache.entries ∧
          id ∈ Dict.keys (cache.set settings now workflow).entries := by
  have hset := h.set now workflow
  have hnew : (workflow.id, ⟨workflow, now + settings.ttl⟩) ∈
      (cache.set settings now workflow).entries := by
    rw [set_eq h]
    exact List.mem_append_right _ (List.mem_singleton.mpr rfl)
  have hold : ∀ {id entry}, id ≠ workflow.id →
      (id, entry) ∈ (cache.set settings now workflow).entries → (id, entry) ∈ cache.entries := by
    intro id entry hne hmem
    rw [set_eq h] at hmem
    rcases List.mem_append.mp hmem with hkept | hfresh
    · have hinvalidated := (List.drop_sublist _ _).subset hkept
      unfold invalidate at hinvalidated
      split at hinvalidated
      · exact (Dict.mem_erase.mp hinvalidated).1
      · exact hinvalidated
    · cases List.mem_singleton.mp hfresh
      exact absurd rfl hne
  constructor
  · intro hmem
    by_cases hid : id = workflow.id
    · subst hid
      exact .inl ⟨rfl, Dict.value_unique hset.entries_nodup hmem hnew⟩
    · exact .inr ⟨hid, hold hid hmem, Dict.mem_keys.mpr ⟨entry, hmem⟩⟩
  · rintro (⟨rfl, rfl⟩ | ⟨hne, hmem, hkey⟩)
    · exact hnew
    · obtain ⟨entry', hmem'⟩ := Dict.mem_keys.mp hkey
      rwa [Dict.value_unique h.entries_nodup hmem (hold hne hmem')]

end Call

/-! ## Sequences of calls -/

section Calls

variable {settings : CacheSettings}

theorem usesFrom_concat (cache : WorkflowCache) (calls : List (Time × Call)) (now : Time)
    (call : Call) :
    usesFrom settings cache (calls ++ [(now, call)]) =
      usesFrom settings cache calls ++
        ((calls.foldl (fun cache call => cache.after settings call.1 call.2) cache).used
          now call).toList := by
  induction calls generalizing cache with
  | nil => simp [usesFrom]
  | cons first calls ih =>
    rw [List.cons_append, usesFrom, ih, usesFrom, List.append_assoc]
    rfl

theorem uses_concat (calls : List (Time × Call)) (now : Time) (call : Call) :
    uses settings (calls ++ [(now, call)]) =
      uses settings calls ++ ((run settings calls).used now call).toList :=
  usesFrom_concat empty calls now call

/-- A lookup keeps the entries under their ids and the ids in order. -/
theorem ordered_getById {cache : WorkflowCache} (hkeyed : Keyed cache)
    {used : List Uuid} (hordered : Ordered used (Dict.keys cache.entries)) (now : Time)
    (id : Uuid) :
    Keyed (cache.getById now id).2 ∧
      Ordered (used ++ ((cache.getById now id).1.map WorkflowObject.id).toList)
        (Dict.keys (cache.getById now id).2.entries) := by
  rcases getById_cases cache now id with
    ⟨-, hget⟩ | ⟨entry, hentry, ⟨-, hget⟩ | ⟨-, hget⟩⟩
  · rw [hget]
    exact ⟨hkeyed, by simpa using hordered⟩
  · rw [hget]
    refine ⟨fun other entry' hmem => hkeyed other entry' (Dict.mem_erase.mp hmem).1, ?_⟩
    show Ordered (used ++ []) (Dict.keys (Dict.erase cache.entries id))
    rw [List.append_nil]
    exact hordered.sublist (Dict.keys_erase_sublist cache.entries id)
  · rw [hget]
    refine ⟨fun other entry' hmem => ?_, ?_⟩
    · rcases List.mem_append.mp hmem with hother | hsame
      · exact hkeyed other entry' (Dict.mem_erase.mp hother).1
      · cases List.mem_singleton.mp hsame
        exact hkeyed id entry hentry
    · have hid := hkeyed id entry hentry
      show Ordered (used ++ [entry.workflow.id]) _
      rw [hid, Dict.keys_append, keys_erase]
      exact hordered.use id

/-- The entries are under their ids and ordered by last use, after any calls. -/
theorem ordered_run (calls : List (Time × Call)) :
    Keyed (run settings calls) ∧
      Ordered (uses settings calls) (Dict.keys (run settings calls).entries) := by
  induction calls using List.reverseRecOn with
  | nil => exact ⟨fun _ _ hmem => absurd hmem List.not_mem_nil, .nil⟩
  | append_singleton calls call ih =>
    obtain ⟨now, call⟩ := call
    obtain ⟨hkeyed, hordered⟩ := ih
    rw [run_concat, uses_concat]
    cases call with
    | set workflow =>
      have hkept := @kept_run settings calls
      refine ⟨fun id entry hmem => ?_, ?_⟩
      · rcases (mem_entries_set_iff hkept now workflow id entry).mp hmem with
          ⟨rfl, rfl⟩ | ⟨-, hold, -⟩
        · rfl
        · exact hkeyed id entry hold
      · have huse := hordered.use workflow.id
        show Ordered (_ ++ [workflow.id])
          (Dict.keys (WorkflowCache.set settings now _ workflow).entries)
        rw [keys_set hkept]
        exact huse.sublist ((List.drop_sublist _ _).append (List.Sublist.refl _))
    | getById workflowId => exact ordered_getById hkeyed hordered now workflowId
    | getByWebhookPath webhookPath =>
      simp only [after, used, getByWebhookPath]
      split
      · exact ⟨hkeyed, by simpa using hordered⟩
      · exact ordered_getById hkeyed hordered now _
    | invalidate workflowId =>
      refine ⟨fun id entry hmem => ?_, ?_⟩
      · simp only [after, invalidate] at hmem
        split at hmem
        · exact hkeyed id entry (Dict.mem_erase.mp hmem).1
        · exact hkeyed id entry hmem
      · show Ordered (_ ++ []) (Dict.keys ((run settings calls).invalidate workflowId).entries)
        rw [List.append_nil, keys_invalidate]
        exact hordered.sublist List.filter_sublist
    | clear => exact ⟨fun _ _ hmem => absurd hmem List.not_mem_nil, .nil⟩

/-- The other ids held, as the dictionary lists them. -/
theorem othersHeld_eq (calls : List (Time × Call)) (id : Uuid) :
    othersHeld settings calls id =
      (Dict.keys (run settings calls).entries).filter (· ≠ id) :=
  ((ordered_run calls).2.filter _).symm

/-- A `set` removes the entry of another id exactly if it evicts it. -/
theorem not_mem_keys_set_iff (calls : List (Time × Call)) (now : Time) (workflow : WorkflowObject)
    {id : Uuid} (hmem : id ∈ Dict.keys (run settings calls).entries) (hne : id ≠ workflow.id) :
    id ∉ Dict.keys ((run settings calls).set settings now workflow).entries ↔
      Evicts settings calls workflow id := by
  have hkept := @kept_run settings calls
  have hnodup := hkept.entries_nodup.filter (· ≠ workflow.id)
  have hlength : ((Dict.keys (run settings calls).entries).filter (· ≠ workflow.id)).length ≤
      settings.maxSize := by
    refine (List.length_filter_le _ _).trans ?_
    rw [Dict.keys, List.length_map]
    exact hkept.entries_length
  have hother : id ∈ (Dict.keys (run settings calls).entries).filter (· ≠ workflow.id) :=
    List.mem_filter.mpr ⟨hmem, decide_eq_true hne⟩
  unfold Evicts
  rw [othersHeld_eq, ← not_mem_drop_iff hnodup hlength settings.maxSize_pos hother,
    keys_set hkept, List.mem_append, List.mem_singleton]
  simp only [hne, or_false]

/-- What stands after one more call. -/
theorem stands_concat_iff {calls : List (Time × Call)} {call : Time × Call} {id : Uuid}
    {setAt : Time} {workflow : WorkflowObject} :
    Stands settings (calls ++ [call]) id setAt workflow ↔
      (call = (setAt, .set workflow) ∧ workflow.id = id) ∨
        Stands settings calls id setAt workflow ∧ ¬ Undoes settings id calls call :=
  Standing.concat_iff

/-- The entries are what stands, up to what has expired. -/
structure Tracks (settings : CacheSettings) (calls : List (Time × Call)) : Prop where
  stands : ∀ id entry, (id, entry) ∈ (run settings calls).entries →
    ∃ setAt, Stands settings calls id setAt entry.workflow ∧
      entry.expiresAt = setAt + settings.ttl
  entered : ∀ id setAt workflow, Stands settings calls id setAt workflow →
    (id, ⟨workflow, setAt + settings.ttl⟩) ∈ (run settings calls).entries ∨
      ∃ call ∈ calls, setAt + settings.ttl ≤ call.1

/-- A call that undoes nothing and only removes what has expired. -/
theorem Tracks.quiet {calls : List (Time × Call)} (h : Tracks settings calls) {now : Time}
    {call : Call} (hquiet : ∀ id, ¬ Undoes settings id calls (now, call))
    (hold : ∀ id entry, (id, entry) ∈ (run settings (calls ++ [(now, call)])).entries →
      (id, entry) ∈ (run settings calls).entries)
    (hkept : ∀ id entry, (id, entry) ∈ (run settings calls).entries →
      (id, entry) ∈ (run settings (calls ++ [(now, call)])).entries ∨ entry.expiresAt ≤ now)
    (hset : ∀ workflow, call ≠ .set workflow) : Tracks settings (calls ++ [(now, call)]) := by
  refine ⟨fun id entry hmem => ?_, fun id setAt workflow hstands => ?_⟩
  · obtain ⟨setAt, hstands, hexpires⟩ := h.stands id entry (hold id entry hmem)
    exact ⟨setAt, stands_concat_iff.mpr (.inr ⟨hstands, hquiet id⟩), hexpires⟩
  · rcases stands_concat_iff.mp hstands with ⟨hmade, -⟩ | ⟨hstands, -⟩
    · exact absurd (Prod.mk.inj hmade).2 (hset workflow)
    · rcases h.entered id setAt workflow hstands with hmem | ⟨earlier, hearlier, hexpired⟩
      · rcases hkept id _ hmem with hstill | hexpired
        · exact .inl hstill
        · exact .inr ⟨(now, call), by simp, hexpired⟩
      · exact .inr ⟨earlier, List.mem_append_left _ hearlier, hexpired⟩

/-- A lookup only removes what has expired. -/
theorem entries_getById {cache : WorkflowCache} (h : Kept settings cache) (now : Time)
    (looked id : Uuid) (entry : CacheEntry) :
    ((id, entry) ∈ (cache.getById now looked).2.entries → (id, entry) ∈ cache.entries) ∧
      ((id, entry) ∈ cache.entries →
        (id, entry) ∈ (cache.getById now looked).2.entries ∨ entry.expiresAt ≤ now) := by
  rcases getById_cases cache now looked with
    ⟨-, hget⟩ | ⟨found, hfound, ⟨hexpired, hget⟩ | ⟨-, hget⟩⟩
  · rw [hget]
    exact ⟨fun hmem => hmem, fun hmem => .inl hmem⟩
  · rw [hget]
    refine ⟨fun hmem => (Dict.mem_erase.mp hmem).1, fun hmem => ?_⟩
    by_cases hid : id = looked
    · subst hid
      rw [Dict.value_unique h.entries_nodup hmem hfound]
      exact .inr hexpired
    · exact .inl (Dict.mem_erase.mpr ⟨hmem, hid⟩)
  · rw [hget]
    refine ⟨fun hmem => ?_, fun hmem => .inl ?_⟩
    · rcases List.mem_append.mp hmem with hother | hsame
      · exact (Dict.mem_erase.mp hother).1
      · cases List.mem_singleton.mp hsame
        exact hfound
    · by_cases hid : id = looked
      · subst hid
        rw [Dict.value_unique h.entries_nodup hmem hfound]
        exact List.mem_append_right _ (List.mem_singleton.mpr rfl)
      · exact List.mem_append_left _ (Dict.mem_erase.mpr ⟨hmem, hid⟩)

theorem Tracks.set {calls : List (Time × Call)} (h : Tracks settings calls) (now : Time)
    (workflow : WorkflowObject) : Tracks settings (calls ++ [(now, .set workflow)]) := by
  have hkept := @kept_run settings calls
  have hevicts := @not_mem_keys_set_iff settings calls now workflow
  have hentries := mem_entries_set_iff hkept now workflow
  have hrun : run settings (calls ++ [(now, .set workflow)]) =
      (run settings calls).set settings now workflow := run_concat calls now (.set workflow)
  refine ⟨fun id entry hmem => ?_, fun id setAt set hstands => ?_⟩
  · rw [hrun] at hmem
    rcases (hentries id entry).mp hmem with ⟨rfl, rfl⟩ | ⟨hne, hold, hkey⟩
    · exact ⟨now, stands_concat_iff.mpr (.inl ⟨rfl, rfl⟩), rfl⟩
    · obtain ⟨setAt, hstands, hexpires⟩ := h.stands id entry hold
      refine ⟨setAt, stands_concat_iff.mpr (.inr ⟨hstands, fun hundoes => ?_⟩), hexpires⟩
      rcases hundoes with heq | hevicted
      · exact hne heq.symm
      · exact (hevicts (Dict.mem_keys.mpr ⟨entry, hold⟩) hne).mpr hevicted hkey
  · rw [hrun]
    rcases stands_concat_iff.mp hstands with ⟨hmade, rfl⟩ | ⟨hstands, hkeeps⟩
    · cases hmade
      exact .inl ((hentries _ _).mpr (.inl ⟨rfl, rfl⟩))
    · obtain ⟨hne, hnot⟩ := not_or.mp hkeeps
      rcases h.entered id setAt set hstands with hold | ⟨earlier, hearlier, hexpired⟩
      · have hkey := not_imp_not.mpr
          (hevicts (Dict.mem_keys.mpr ⟨_, hold⟩) (Ne.symm hne)).mp hnot
        exact .inl ((hentries id _).mpr (.inr ⟨Ne.symm hne, hold, Decidable.not_not.mp hkey⟩))
      · exact .inr ⟨earlier, List.mem_append_left _ hearlier, hexpired⟩

theorem Tracks.invalidate {calls : List (Time × Call)} (h : Tracks settings calls) (now : Time)
    (workflowId : Uuid) : Tracks settings (calls ++ [(now, .invalidate workflowId)]) := by
  have hentries : ∀ id entry,
      (id, entry) ∈ (run settings (calls ++ [(now, .invalidate workflowId)])).entries ↔
        (id, entry) ∈ (run settings calls).entries ∧ id ≠ workflowId := by
    intro id entry
    rw [run_concat, after, WorkflowCache.invalidate]
    split
    · exact Dict.mem_erase
    · rename_i hnot
      refine (and_iff_left_of_imp fun hmem => ?_).symm
      rintro rfl
      exact hnot (Dict.mem_keys.mpr ⟨entry, hmem⟩)
  refine ⟨fun id entry hmem => ?_, fun id setAt workflow hstands => ?_⟩
  · obtain ⟨hold, hne⟩ := (hentries id entry).mp hmem
    obtain ⟨setAt, hstands, hexpires⟩ := h.stands id entry hold
    exact ⟨setAt, stands_concat_iff.mpr (.inr ⟨hstands, Ne.symm hne⟩), hexpires⟩
  · rcases stands_concat_iff.mp hstands with ⟨hmade, -⟩ | ⟨hstands, hne⟩
    · cases hmade
    · rcases h.entered id setAt workflow hstands with hold | ⟨earlier, hearlier, hexpired⟩
      · exact .inl ((hentries id _).mpr ⟨hold, Ne.symm hne⟩)
      · exact .inr ⟨earlier, List.mem_append_left _ hearlier, hexpired⟩

/-- The entries are what stands, after any calls. -/
theorem tracks_run (calls : List (Time × Call)) : Tracks settings calls := by
  induction calls using List.reverseRecOn with
  | nil =>
    refine ⟨fun _ _ hmem => absurd hmem List.not_mem_nil, fun id setAt workflow hstands => ?_⟩
    exact absurd hstands Standing.not_nil
  | append_singleton calls call ih =>
    obtain ⟨now, call⟩ := call
    have hkept := @kept_run settings calls
    cases call with
    | set workflow => exact ih.set now workflow
    | getById workflowId =>
      refine ih.quiet (fun _ hundoes => hundoes) ?_ ?_ (by simp)
      · intro id entry hmem
        rw [run_concat] at hmem
        exact (entries_getById hkept now workflowId id entry).1 hmem
      · intro id entry hmem
        rw [run_concat]
        exact (entries_getById hkept now workflowId id entry).2 hmem
    | getByWebhookPath webhookPath =>
      have hafter : (run settings calls).after settings now (.getByWebhookPath webhookPath) =
          run settings calls ∨ ∃ id, (run settings calls).after settings now
            (.getByWebhookPath webhookPath) = ((run settings calls).getById now id).2 := by
        simp only [after, getByWebhookPath]
        split
        · exact .inl rfl
        · exact .inr ⟨_, rfl⟩
      refine ih.quiet (fun _ hundoes => hundoes) ?_ ?_ (by simp)
      · intro id entry hmem
        rw [run_concat] at hmem
        rcases hafter with hsame | ⟨looked, hlooked⟩
        · rwa [hsame] at hmem
        · rw [hlooked] at hmem
          exact (entries_getById hkept now looked id entry).1 hmem
      · intro id entry hmem
        rw [run_concat]
        rcases hafter with hsame | ⟨looked, hlooked⟩
        · rw [hsame]
          exact .inl hmem
        · rw [hlooked]
          exact (entries_getById hkept now looked id entry).2 hmem
    | invalidate workflowId => exact ih.invalidate now workflowId
    | clear =>
      refine ⟨fun id entry hmem => ?_, fun id setAt workflow hstands => ?_⟩
      · rw [run_concat] at hmem
        exact absurd hmem List.not_mem_nil
      · rcases stands_concat_iff.mp hstands with ⟨hmade, -⟩ | ⟨-, hkeeps⟩
        · cases hmade
        · exact absurd trivial hkeeps

/-- The cache in terms of its calls: the order of last use, the number of ids, what
a `set` removes and what a lookup returns. -/
theorem lruTtl (settings : CacheSettings) (calls : List (Time × Call)) :
    LruTtl settings calls where
  ordered := (ordered_run calls).2
  entries_length := (kept_run calls).entries_length
  set_succeeds := fun now workflow => trySet_eq now workflow
  removes := fun now workflow _ hmem hne => not_mem_keys_set_iff calls now workflow hmem hne
  found := by
    intro now id workflow hclock
    rw [getById_eq_some_iff (kept_run calls)]
    constructor
    · rintro ⟨entry, hentry, hvalid, rfl⟩
      obtain ⟨setAt, hstands, hexpires⟩ := (tracks_run calls).stands id entry hentry
      exact ⟨setAt, hstands, hexpires ▸ hvalid⟩
    · rintro ⟨setAt, hstands, hvalid⟩
      rcases (tracks_run calls).entered id setAt workflow hstands with
        hmem | ⟨call, hcall, hexpired⟩
      · exact ⟨_, hmem, hvalid, rfl⟩
      · have hlate := Int.le_trans hexpired (hclock call hcall)
        exact absurd hvalid (Int.not_lt.mpr hlate)

end Calls

end WorkflowCache

end WorkflowEngine

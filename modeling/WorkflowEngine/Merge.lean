import WorkflowEngine.Operations
import WorkflowEngine.Plain

/-!
# Concurrent merges of step outputs

Workers merge the outputs of different steps into the context of one
execution, each in a session of its own.  `merge_step_output` computes the new
context from the one that its session has loaded, and the flush writes it as a
whole.  If that is still the context of the row, the write adds one entry.  If
another worker has committed in between, the write takes its entry back.

`undisturbed` is the condition that no worker commits in between, and
`merging` the evolution that the workers keep in undisturbed runs.
-/

namespace WorkflowEngine

open Py Orm Interact

/-- The entry of a step in a context. -/
def entryOf (context : Dict String Json) (stepId : String) : Option Json :=
  match dictOf (Dict.getD context "steps" (.obj [])) with
  | .ok steps => Dict.get? steps stepId
  | .error _ => none

/-- A step that has been executed, its output, and the execution as the
session has loaded it already, if it has. -/
structure Worker where
  stepId : String
  output : Dict String Json
  loaded : Option Execution

/-- The session in which the worker merges. -/
def Worker.session (id : Uuid) (worker : Worker) : Session Row Memo :=
  match worker.loaded with
  | none => Session.fresh
  | some row => (DbState.load ⟨∅, Session.fresh⟩ (.execution id) row .nothing).session

/-- What the worker runs. -/
def Worker.program (id : Uuid) (worker : Worker) : Prog Unit := do
  mergeStepOutput id worker.stepId worker.output
  commit

/-- The workers of one execution, that begin on the committed rows `t`. -/
def mergePool {ι : Type} (id : Uuid) (workers : ι → Worker) (t : Rows Row) : EnginePool ι :=
  ⟨t, fun i => ⟨(workers i).program id, (workers i).session id⟩⟩

/-- The output of the worker is in the context: the entry of the step is its
own, or one that is `==` to it, over which the mapper writes nothing. -/
def Worker.Merged (worker : Worker) (context : Dict String Json) : Prop :=
  ∃ v, entryOf context worker.stepId = some v ∧
    (v = stepEntry worker.output ∨ Json.eq (stepEntry worker.output) v = true)

/-- A statement that flushes a new context finds in the row the context that the
session has loaded. -/
def undisturbed (req : DbReq Row Memo) (st : Db) : Bool :=
  match req with
  | .touch (.execution id) _ =>
    match st.loaded (.execution id), st.view (.execution id) with
    | some (_, .other old), some row => decide (row.context = old)
    | _, _ => true
  | _ => true

/-- The context after merges by some of the workers: an entry that is not as
before is the output of the worker of that step. -/
structure MergedOver {ι : Type} (workers : ι → Worker) (context context' : Dict String Json) :
    Prop where
  other : ∀ key, key ≠ "steps" → Dict.get? context' key = Dict.get? context key
  entry : ∀ s, entryOf context' s = entryOf context s ∨
    ∃ i, (workers i).stepId = s ∧ entryOf context' s = some (stepEntry (workers i).output)

/-- In every run of the workers whose statements meet `C`, when all of them have
committed, every output is in the context, next to everything that the context
held before. -/
def NoOutputLost {ι : Type} [DecidableEq ι] (C : DbReq Row Memo → Db → Bool) (id : Uuid)
    (workers : ι → Worker) (t : Rows Row) : Prop :=
  ∀ (row : Execution) (Q : EnginePool ι),
    Rows.row t (.execution id) = some row →
    Pool.Runs C (mergePool id workers t) Q →
    (∀ i, (Q.threads i).script = .done (.ok ())) →
    ∃ row', Rows.row Q.committed (.execution id) = some row' ∧
      (∀ i, (workers i).Merged (Execution.context row')) ∧
      (∀ key, key ≠ "steps" → Dict.get? (Execution.context row') key = Dict.get? row.context key) ∧
      ∀ s, (∀ i, (workers i).stepId ≠ s) →
        entryOf (Execution.context row') s = entryOf row.context s

/-! ## One merge -/

theorem entryOf_set_steps (context steps : Dict String Json) (s : String) :
    entryOf (Dict.set context "steps" (.obj steps)) s = Dict.get? steps s := by
  simp [entryOf, Dict.getD_set, dictOf]

/-- What `merge_step_output` computes. -/
theorem exists_of_mergedContext {context merged : Dict String Json} {s : String}
    {output : Dict String Json} (h : mergedContext context s output = .ok merged) :
    ∃ steps, dictOf (Dict.getD context "steps" (.obj [])) = .ok steps ∧
      merged = Dict.set context "steps" (.obj (Dict.set steps s (stepEntry output))) := by
  unfold mergedContext at h
  cases hsteps : dictOf (Dict.getD context "steps" (.obj [])) with
  | error e =>
    rw [hsteps] at h
    cases h
  | ok steps =>
    rw [hsteps] at h
    cases h
    exact ⟨steps, rfl, rfl⟩

theorem entryOf_mergedContext {context merged : Dict String Json} {s : String}
    {output : Dict String Json} (h : mergedContext context s output = .ok merged) :
    entryOf merged s = some (stepEntry output) := by
  obtain ⟨steps, -, rfl⟩ := exists_of_mergedContext h
  rw [entryOf_set_steps, Dict.get?_set_self]

/-- A merge leaves the entries of the other steps and the other keys. -/
theorem mergedOver_mergedContext {ι : Type} {workers : ι → Worker} {i : ι}
    {context merged : Dict String Json}
    (h : mergedContext context (workers i).stepId (workers i).output = .ok merged) :
    MergedOver workers context merged := by
  have hown := entryOf_mergedContext h
  obtain ⟨steps, hsteps, rfl⟩ := exists_of_mergedContext h
  constructor
  · intro key hkey
    exact Dict.get?_set_ne _ _ (Ne.symm hkey)
  · intro s
    by_cases hs : (workers i).stepId = s
    · subst hs
      exact .inr ⟨i, rfl, hown⟩
    · left
      rw [entryOf_set_steps, Dict.get?_set_ne _ _ hs]
      simp [entryOf, hsteps]

/-- Where the mapper finds no difference, the output was in the context. -/
theorem merged_of_contextEq {worker : Worker} {context merged : Dict String Json}
    (h : mergedContext context worker.stepId worker.output = .ok merged)
    (heq : contextEq merged context = true) : worker.Merged context := by
  obtain ⟨steps, -, rfl⟩ := exists_of_mergedContext h
  obtain ⟨_, hobj, hfields⟩ := Json.exists_of_eq_obj heq
  cases hobj
  obtain ⟨v, hv, hequal⟩ := Json.get?_of_eqFields hfields (Dict.get?_set_self _ _ _)
  obtain ⟨steps', rfl, hfields'⟩ := Json.exists_of_eq_obj hequal
  obtain ⟨entry, hentry, hsame⟩ := Json.get?_of_eqFields hfields' (Dict.get?_set_self _ _ _)
  refine ⟨entry, ?_, .inr hsame⟩
  simp [entryOf, Dict.getD, hv, dictOf, hentry]

/-! ## The evolution -/

namespace MergedOver

variable {ι : Type} {workers : ι → Worker} {context context' context'' : Dict String Json}

theorem refl (workers : ι → Worker) (context : Dict String Json) :
    MergedOver workers context context :=
  ⟨fun _ _ => rfl, fun _ => .inl rfl⟩

theorem trans (h : MergedOver workers context context')
    (h' : MergedOver workers context' context'') : MergedOver workers context context'' := by
  constructor
  · intro key hkey
    rw [h'.other key hkey, h.other key hkey]
  · intro s
    rcases h'.entry s with hkept | hmerged
    · rw [hkept]
      exact h.entry s
    · exact .inr hmerged

/-- An output that is in the context stays there: no other worker has its step. -/
theorem merged (h : MergedOver workers context context')
    (hdistinct : Function.Injective (fun i => (workers i).stepId)) {i : ι}
    (hmerged : (workers i).Merged context) : (workers i).Merged context' := by
  obtain ⟨v, hv, hequal⟩ := hmerged
  rcases h.entry (workers i).stepId with hkept | ⟨j, hj, hentry⟩
  · exact ⟨v, hkept.trans hv, hequal⟩
  · have hsame : j = i := hdistinct hj
    subst hsame
    exact ⟨_, hentry, .inl rfl⟩

end MergedOver

/-- The context column of the execution `id`. -/
def contextAt (id : Uuid) : (k : RowId) → Row k → Option (Dict String Json)
  | .execution id', row => if id' = id then some row.context else none
  | .workflow _, _ => none
  | .step _, _ => none
  | .delivery _, _ => none

@[simp] theorem contextAt_self (id : Uuid) (row : Execution) :
    contextAt id (.execution id) row = some row.context := by
  simp [contextAt]

/-- The context of the execution `id` is the one before, after some merges. -/
def merging {ι : Type} (id : Uuid) (workers : ι → Worker) : Evolution Row where
  rel k row row' := ∀ context, row.bind (contextAt id k) = some context →
    ∃ context', row'.bind (contextAt id k) = some context' ∧ MergedOver workers context context'
  refl _ _ context h := ⟨context, h, MergedOver.refl workers context⟩
  trans h h' context hcontext := by
    obtain ⟨context', hcontext', hover⟩ := h context hcontext
    obtain ⟨context'', hcontext'', hover'⟩ := h' context' hcontext'
    exact ⟨context'', hcontext'', hover.trans hover'⟩

/-- There is a row of the execution. -/
def HasContext (id : Uuid) (row : Option Execution) : Prop :=
  ∃ context, row.bind (contextAt id (.execution id)) = some context

/-- The output of the worker is in the context of this row. -/
def Worker.MergedIn (id : Uuid) (worker : Worker) (row : Option Execution) : Prop :=
  ∃ context, row.bind (contextAt id (.execution id)) = some context ∧ worker.Merged context

section

variable {ι : Type} {id : Uuid} {workers : ι → Worker}

theorem HasContext.evolves {row row' : Option Execution} (h : HasContext id row)
    (hrel : (merging id workers).rel (.execution id) row row') : HasContext id row' := by
  obtain ⟨context, hcontext⟩ := h
  obtain ⟨context', hcontext', -⟩ := hrel context hcontext
  exact ⟨context', hcontext'⟩

theorem Worker.MergedIn.evolves (hdistinct : Function.Injective (fun i => (workers i).stepId))
    {i : ι} {row row' : Option Execution} (h : (workers i).MergedIn id row)
    (hrel : (merging id workers).rel (.execution id) row row') : (workers i).MergedIn id row' := by
  obtain ⟨context, hcontext, hmerged⟩ := h
  obtain ⟨context', hcontext', hover⟩ := hrel context hcontext
  exact ⟨context', hcontext', hover.merged hdistinct hmerged⟩

/-! ## One worker -/

/-- The session of a worker has written nothing, and what it has loaded of the
execution is as it was loaded. -/
theorem Worker.pending_session (worker : Worker) (id : Uuid) :
    (worker.session id).pending = ∅ := by
  unfold Worker.session
  split <;> rfl

theorem Worker.memo_session {worker : Worker} {t : Rows Row} {obj : Execution}
    {memo : Remembered (Dict String Json)}
    (h : DbState.loaded ⟨t, worker.session id⟩ (.execution id) = some (obj, memo)) :
    memo = .nothing := by
  unfold Worker.session at h
  cases hloaded : worker.loaded with
  | none =>
    rw [hloaded] at h
    cases h
  | some row =>
    rw [hloaded] at h
    have hself : DbState.loaded (DbState.load (⟨t, Session.fresh⟩ : Db) (.execution id) row .nothing)
        (.execution id) = some (row, .nothing) := DbState.loaded_load_self _ _ _ _
    have hobj := hself.symm.trans h
    cases hobj
    rfl

/-- The flush of a merged context in an undisturbed statement. -/
theorem ensures_flushContext {i : ι} {s : Session Row Memo} {t : Rows Row} {loaded : Execution}
    {merged : Dict String Json} {Q : Except Raised (Option Execution) → Session Row Memo → Rows Row → Prop}
    (hmerge : mergedContext loaded.context (workers i).stepId (workers i).output = .ok merged)
    (hloaded : DbState.loaded ⟨t, s⟩ (.execution id) =
      some ({ loaded with context := merged }, .other loaded.context))
    (hfound : HasContext id (DbState.view ⟨t, s⟩ (.execution id)))
    (hpost : ∀ r s' t', (workers i).MergedIn id (DbState.view ⟨t', s'⟩ (.execution id)) → Q (.ok r) s' t') :
    Ensures (merging id workers) undisturbed Q (flushContext id) s t := by
  apply Ensures.send_intro
  intro t' hrely hundisturbed
  have hloaded' : DbState.loaded ⟨t', s⟩ (.execution id) =
      some ({ loaded with context := merged }, .other loaded.context) := hloaded
  -- the row is still there, with the context that was loaded
  obtain ⟨context, hcontext⟩ := hfound.evolves (hrely.view s (.execution id))
  obtain ⟨row', hview, -⟩ := Option.bind_eq_some_iff.mp hcontext
  have hsame : row'.context = loaded.context := by
    simpa only [undisturbed, hview, hloaded', decide_eq_true_eq] using hundisturbed
  refine ⟨rel_touch ?_, hpost _ _ _ ?_⟩
  · intro attrs memo row'' f hattrs hview' hchange context hcontext
    cases hloaded'.symm.trans hattrs
    cases hview.symm.trans hview'
    obtain ⟨v, hv, rfl⟩ := Option.map_eq_some_iff.mp hchange
    cases Tracked.eq_value_of_written hv
    cases (contextAt_self id row').symm.trans hcontext
    refine ⟨merged, contextAt_self id _, ?_⟩
    rw [hsame]
    exact mergedOver_mergedContext hmerge
  · cases hequal : contextEq merged loaded.context with
    | true =>
      have hwritten : Tracked.written contextEq ⟨merged, .other loaded.context⟩ = none := by
        simp [Tracked.written, hequal]
      rw [DbState.answer_touch_silent hloaded' (by simp only [contextOf, hwritten]; rfl)]
      refine ⟨row'.context, ?_, ?_⟩
      · show Option.bind (DbState.view ⟨t', s⟩ (.execution id)) _ = _
        rw [hview]
        exact contextAt_self id row'
      · rw [hsame]
        exact merged_of_contextEq hmerge hequal
    | false =>
      have hwritten : Tracked.written contextEq ⟨merged, .other loaded.context⟩ = some merged := by
        simp [Tracked.written, hequal]
      rw [DbState.answer_touch hloaded' hview (by simp only [contextOf, hwritten]; rfl)]
      refine ⟨merged, ?_, _, entryOf_mergedContext hmerge, .inl rfl⟩
      show Option.bind (DbState.view (DbState.write _ _ _) _) _ = _
      rw [DbState.view_write_self]
      exact contextAt_self id _

/-- A worker that ends without an exception has merged its output, for good. -/
theorem ensures_worker (hdistinct : Function.Injective (fun i => (workers i).stepId)) (i : ι)
    (t : Rows Row) :
    Ensures (merging id workers) undisturbed
      (fun r _ t => ∀ t', Rely (merging id workers) t t' → r = .ok () →
        (workers i).MergedIn id (Rows.row t' (.execution id)))
      ((workers i).program id) ((workers i).session id) t := by
  unfold Worker.program mergeStepOutput
  apply Ensures.bind_intro
  apply Ensures.select_bind
  · intro s' t' _ t'' _ hok
    cases hok
  · intro loaded memo s' t' _ hselected
    have hmemo : memo = .nothing := by
      rcases hselected.memo_eq with hdefault | hbefore
      · exact hdefault
      · exact Worker.memo_session hbefore
    subst hmemo
    show Ensures _ _ _ (liftExcept (mergedContext loaded.context _ _) >>= _) s' t'
    cases hmerge : mergedContext loaded.context (workers i).stepId (workers i).output with
    | error e =>
      intro t'' _ hok
      cases hok
    | ok merged =>
      show Ensures _ _ _ (touchContext id (Tracked.assign merged) >>= _) s' t'
      have hfound : HasContext id (DbState.view ⟨t', s'⟩ (.execution id)) := by
        obtain ⟨row, hrow⟩ := hselected.found
        refine ⟨row.context, ?_⟩
        unfold DbState.view at hrow ⊢
        rw [hselected.pending, hrow]
        exact contextAt_self id row
      apply Ensures.bind_intro
      apply Ensures.send_intro
      intro t₁ hrely₁ _
      have hloaded : DbState.loaded ⟨t₁, s'⟩ (.execution id) = some (loaded, .nothing) :=
        hselected.loaded
      rw [DbState.answer_touch_silent hloaded rfl]
      refine ⟨fun k => (merging id workers).refl k _, ?_⟩
      apply Ensures.bind_intro
      apply ensures_flushContext hmerge
      · exact DbState.loaded_load_self _ _ _ _
      · exact hfound.evolves (hrely₁.view s' (.execution id))
      · intro r s₂ t₂ hmerged
        apply Ensures.send_intro
        intro t₃ hrely₃ _
        refine ⟨fun k => ?_, fun t₄ hrely₄ _ => ?_⟩
        · show (merging id workers).rel k _ ((DbState.commit _).view k)
          rw [DbState.view_commit]
          exact (merging id workers).refl k _
        · have hcommitted := hmerged.evolves hdistinct (hrely₃.view s₂ (.execution id))
          exact hcommitted.evolves hdistinct (hrely₄ (.execution id))

/-! ## All workers -/

end

/-- In undisturbed runs of workers with distinct steps no output is lost. -/
theorem noOutputLost_undisturbed {ι : Type} [DecidableEq ι] (id : Uuid) (workers : ι → Worker)
    (hdistinct : Function.Injective (fun i => (workers i).stepId)) (t : Rows Row) :
    NoOutputLost undisturbed id workers t := by
  intro row Q hrow hruns hdone
  have hkeeps : Keeps (merging id workers) undisturbed
      (fun i r t => r = .ok () → (workers i).MergedIn id (Rows.row t (.execution id)))
      (mergePool id workers t) :=
    keeps_of_ensures (fun i => (workers i).pending_session id)
      fun i => ensures_worker hdistinct i t
  obtain ⟨hkeeps', hrely⟩ := hkeeps.runs hruns
  have hbefore : (Rows.row t (.execution id)).bind (contextAt id (.execution id)) =
      some row.context := by
    rw [hrow]
    exact contextAt_self id row
  obtain ⟨context, hcontext, hover⟩ := hrely (.execution id) row.context hbefore
  obtain ⟨row', hrow', hsome⟩ := Option.bind_eq_some_iff.mp hcontext
  cases (contextAt_self id row').symm.trans hsome
  refine ⟨row', hrow', ?_, hover.other, ?_⟩
  · intro i
    obtain ⟨context, hcontext', hmerged⟩ := hkeeps'.post_of_done (hdone i) rfl
    cases hcontext.symm.trans hcontext'
    exact hmerged
  · intro s hs
    rcases hover.entry s with hkept | ⟨i, hi, -⟩
    · exact hkept
    · exact absurd hi (hs i)

/-! ## Two workers -/

/-- The workers of two steps. -/
def twoWorkers : Fin 2 → Worker
  | 0 => ⟨"a", [("x", .int 1)], none⟩
  | 1 => ⟨"b", [("x", .int 2)], none⟩

theorem twoWorkers_distinct : Function.Injective (fun i => (twoWorkers i).stepId) := by
  intro i j
  revert i j
  decide

/-- An execution 1 whose context has no step yet. -/
def emptyRows : Rows Row := Rows.ofList [⟨.execution 1, newExecution 1 1 [] none⟩]

/-- The workers on this execution. -/
def twoPool : EnginePool (Fin 2) := mergePool 1 twoWorkers emptyRows

/-- The entries of both steps after turns in which both workers have committed. -/
def mergedEntries (C : DbReq Row Memo → Db → Bool) (turns : List (Fin 2)) :
    Option (List (Option Json)) :=
  (twoPool.play C stillAnswer turns).bind fun P =>
    if ∀ i, (P.threads i).script.succeeded = true then
      (Rows.row P.committed (.execution 1)).map
        fun row => [entryOf (Execution.context row) "a", entryOf (Execution.context row) "b"]
    else none

theorem exists_runs_of_mergedEntries {C : DbReq Row Memo → Db → Bool} {turns : List (Fin 2)}
    {entries : List (Option Json)} (h : mergedEntries C turns = some entries) :
    ∃ Q row, Pool.Runs C twoPool Q ∧ (∀ i, (Q.threads i).script = .done (.ok ())) ∧
      Rows.row Q.committed (.execution 1) = some row ∧
      [entryOf (Execution.context row) "a", entryOf (Execution.context row) "b"] = entries := by
  obtain ⟨Q, hplay, hfinal⟩ := Option.bind_eq_some_iff.mp h
  split at hfinal
  · rename_i hdone
    obtain ⟨row, hrow, hentries⟩ := Option.map_eq_some_iff.mp hfinal
    exact ⟨Q, row, Pool.runs_of_play hplay, fun i => Script.eq_done_of_succeeded (hdone i), hrow,
      hentries⟩
  · cases hfinal

/-- One worker after the other: an undisturbed run, after which both outputs are
in the context. -/
theorem noOutputLost_one_after_other :
    ∃ Q row, Pool.Runs undisturbed twoPool Q ∧ Rows.row Q.committed (.execution 1) = some row ∧
      ∀ i, (twoWorkers i).Merged (Execution.context row) := by
  have hentries : mergedEntries undisturbed [0, 0, 0, 0, 1, 1, 1, 1] =
      some [some (stepEntry [("x", .int 1)]), some (stepEntry [("x", .int 2)])] := by
    decide +kernel
  obtain ⟨Q, -, hruns, hdone, -, -⟩ := exists_runs_of_mergedEntries hentries
  obtain ⟨row, hrow, hmerged, -⟩ :=
    noOutputLost_undisturbed 1 twoWorkers twoWorkers_distinct emptyRows _ Q rfl hruns hdone
  exact ⟨Q, row, hruns, hrow, hmerged⟩

/-- Both workers read the context before either of them commits: the second
write takes back the entry of the first. -/
theorem not_noOutputLost : ¬ NoOutputLost (fun _ _ => true) 1 twoWorkers emptyRows := by
  intro h
  have hentries : mergedEntries (fun _ _ => true) [0, 1, 0, 0, 0, 1, 1, 1] =
      some [none, some (stepEntry [("x", .int 2)])] := by
    decide +kernel
  obtain ⟨Q, row, hruns, hdone, hrow, hlost⟩ := exists_runs_of_mergedEntries hentries
  obtain ⟨row', hrow', hmerged, -⟩ := h _ Q rfl hruns hdone
  cases hrow.symm.trans hrow'
  obtain ⟨v, hv, -⟩ := hmerged 0
  cases (List.cons.inj hlost).1.symm.trans hv

end WorkflowEngine

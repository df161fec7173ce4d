import WorkflowEngine.Board

/-!
# Bulk statements

`update(...).where(...)` and `delete(...).where(...)` scan the rows and then
work through the keys that they have found.  When no other session runs they
rewrite every row that satisfies the condition and no other, and `Rewrites`
says this of the rows that the session sees.
-/

namespace WorkflowEngine

open Orm Interact

/-- `delete(...).where(p)` on the rows that the statement found. -/
def deleteEach : List RowId → Prog Unit
  | [] => return
  | k :: ks => do
    let () ← Script.send (S := engineSignature) (.db (.delete k))
    deleteEach ks

/-- `delete(...).where(p)`, which answers how many rows it has deleted. -/
def deleteWhere (p : (k : RowId) → Row k → Bool) : Prog Nat := do
  let ks ← Script.send (S := engineSignature) (.db (.scan p))
  deleteEach ks
  return ks.length

/-- From `db` to `db'` each row was rewritten, or removed, as `g` says.  Nothing
was loaded or committed. -/
structure Rewrites (g : (k : RowId) → Row k → Option (Row k)) (db db' : Db) : Prop where
  committed : db'.committed = db.committed
  loaded : ∀ k, db'.loaded k = db.loaded k
  view : ∀ k, db'.view k = (db.view k).bind (g k)
  keys : db.keys ⊆ db'.keys

namespace Rewrites

variable {g g' : (k : RowId) → Row k → Option (Row k)} {db db' db'' : Db}

theorem trans (h : Rewrites g db db') (h' : Rewrites g' db' db'') :
    Rewrites (fun k row => (g k row).bind (g' k)) db db'' := by
  refine ⟨h'.committed.trans h.committed, fun k => (h'.loaded k).trans (h.loaded k), fun k => ?_,
    fun k hk => h'.keys (h.keys hk)⟩
  rw [h'.view, h.view]
  cases db.view k <;> rfl

theorem congr (h : Rewrites g db db')
    (heq : ∀ k row, db.view k = some row → g k row = g' k row) : Rewrites g' db db' := by
  refine ⟨h.committed, h.loaded, fun k => ?_, h.keys⟩
  rw [h.view]
  cases hview : db.view k with
  | none => rfl
  | some row => exact heq k row hview

end Rewrites

/-- What a bulk update makes of a row. -/
def updatedRow (p : (k : RowId) → Row k → Bool) (f : (k : RowId) → Row k → Row k) (k : RowId)
    (row : Row k) : Option (Row k) :=
  some (if p k row then f k row else row)

/-- What a bulk delete makes of a row. -/
def remainingRow (p : (k : RowId) → Row k → Bool) (k : RowId) (row : Row k) : Option (Row k) :=
  if p k row then none else some row

/-- A statement that rewrites one row by `g`, for each key of a list. -/
private theorem rewrites_each {g : (k : RowId) → Row k → Option (Row k)}
    {each : List RowId → Prog Unit} (hnil : each [] = pure ())
    (hcons : ∀ k ks (db : Db) env, ∃ db', (each (k :: ks)).run ⟨db, env⟩ = (each ks).run ⟨db', env⟩ ∧
      Rewrites (fun k' row => if k' = k then g k' row else some row) db db')
    {ks : List RowId} (hnodup : ks.Nodup) (db : Db) (env : Environment) :
    ∃ db', (each ks).run ⟨db, env⟩ = (.ok (), ⟨db', env⟩) ∧
      Rewrites (fun k row => if k ∈ ks then g k row else some row) db db' := by
  induction ks generalizing db with
  | nil =>
    rw [hnil]
    refine ⟨db, rfl, rfl, fun _ => rfl, fun k => ?_, List.Subset.refl _⟩
    cases db.view k <;> rfl
  | cons k ks ih =>
    obtain ⟨hk, hnodup'⟩ := List.nodup_cons.mp hnodup
    rcases hcons k ks db env with ⟨db₁, hrun₁, hstep⟩
    rcases ih hnodup' db₁ with ⟨db₂, hrun₂, hrest⟩
    refine ⟨db₂, hrun₁.trans hrun₂, (hstep.trans hrest).congr fun k' row _ => ?_⟩
    by_cases heq : k' = k
    · subst heq
      simp [hk]
    · simp [heq]

/-- A bulk update rewrites the rows that satisfy the condition. -/
theorem run_updateWhere (p : (k : RowId) → Row k → Bool) (f : (k : RowId) → Row k → Row k)
    (db : Db) (env : Environment) :
    ∃ db', (updateWhere p f).run ⟨db, env⟩ = (.ok (), ⟨db', env⟩) ∧
      Rewrites (updatedRow p f) db db' := by
  have hcons : ∀ k ks (db : Db) env, ∃ db',
      (updateEach p f (k :: ks)).run ⟨db, env⟩ = (updateEach p f ks).run ⟨db', env⟩ ∧
        Rewrites (fun k' row => if k' = k then updatedRow p f k' row else some row) db db' := by
    intro k ks db env
    have hreq : (.updateIf k (p k) (f k) : DbReq Row Memo) ≠ .commit := nofun
    refine ⟨(DbState.answer (.updateIf k (p k) (f k)) db).2, rfl,
      DbState.committed_answer hreq db, fun k' => ?_, fun k' => ?_, ?_⟩
    · show _ = db.session.identity.lookup k'
      rw [← DbState.identity_answer_updateIf db k (p k) (f k)]
      rfl
    · by_cases heq : k' = k
      · subst heq
        simp only [DbState.answer, updatedRow]
        cases hview : db.view k' with
        | none => simp [hview]
        | some row => by_cases hp : p k' row = true <;> simp [hview, hp]
      · rw [DbState.view_answer_ne rfl heq]
        cases db.view k' <;> simp [heq]
    · simp only [DbState.answer]
      intro k' hk'
      split
      · split
        · exact DbState.mem_keys_write.mpr (.inr hk')
        · exact hk'
      · exact hk'
  rcases rewrites_each rfl hcons (DbState.nodup_matching db p) db env with
    ⟨db', hrun, hrewrites⟩
  refine ⟨db', hrun, hrewrites.congr fun k row hview => ?_⟩
  by_cases hp : p k row = true
  · simp [DbState.mem_matching, hview, hp]
  · simp [DbState.mem_matching, hview, updatedRow, hp]

/-- A bulk delete removes the rows that satisfy the condition. -/
theorem run_deleteWhere (p : (k : RowId) → Row k → Bool) (db : Db) (env : Environment) :
    ∃ db', (deleteWhere p).run ⟨db, env⟩ = (.ok (db.matching p).length, ⟨db', env⟩) ∧
      Rewrites (remainingRow p) db db' := by
  have hcons : ∀ k ks (db : Db) env, ∃ db',
      (deleteEach (k :: ks)).run ⟨db, env⟩ = (deleteEach ks).run ⟨db', env⟩ ∧
        Rewrites (fun k' row => if k' = k then none else some row) db db' := by
    intro k ks db env
    refine ⟨db.write k none, rfl, rfl, fun k' => rfl, fun k' => ?_, fun k' hk' => ?_⟩
    · by_cases heq : k' = k
      · subst heq
        rw [DbState.view_write_self]
        cases db.view k' <;> simp
      · rw [DbState.view_write_ne _ _ heq]
        cases db.view k' <;> simp [heq]
    · exact DbState.mem_keys_write.mpr (.inr hk')
  rcases rewrites_each rfl hcons (DbState.nodup_matching db p) db env with ⟨db', hrun, hrewrites⟩
  refine ⟨db', Prog.run_bind_ok hrun, hrewrites.congr fun k row hview => ?_⟩
  by_cases hp : p k row = true
  · simp [DbState.mem_matching, hview, remainingRow, hp]
  · simp [DbState.mem_matching, hview, remainingRow, hp]

end WorkflowEngine

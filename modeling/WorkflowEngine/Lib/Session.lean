import Mathlib.Data.List.AList
import WorkflowEngine.Lib.Script

/-!
# A database session with an identity map

The rows of a database are keyed by `κ`, and `ρ k` is the type of the row
under `k`.  A session sees the committed rows under its own uncommitted writes
and keeps an identity map: the objects it has loaded, each with its attributes
and the bookkeeping `μ k` of the mapper.

The requests are the statements an object-relational mapper sends.

* `select` finds a row by primary key and a condition on the row.  The answer
  is the mapped object: an object that the session has loaded before keeps the
  attributes it has, whatever the row says now.
* `refresh` loads the row over the attributes of the object.
* `touch` changes a loaded object and, where the change is flushed, updates
  the row by primary key.  The row change is a function on the row, so that it
  sets the changed columns and leaves the others as the row has them.
* `insert` and `delete` add and remove a row.
* `updateIf` is the bulk update of one row: it reads and writes the row and
  no object.
* `selectWhere` finds the rows that satisfy a condition, and loads them.
* `scan` finds them without loading them, as a bulk update does.
* `commit` makes the writes of the session permanent.

`DbState.answer` is the meaning of a request for the session that sends it.
A script of requests alone is run by it; the module `WorkflowEngine.Lib.Pool`
runs several sessions on the same committed rows.
-/

namespace Orm

open Interact

/-- Rows by primary key.  A key with `none` is a row that was deleted. -/
abbrev Rows {κ : Type} (ρ : κ → Type) := AList (fun k => Option (ρ k))

/-- The statements of a session. -/
inductive DbReq {κ : Type} (ρ μ : κ → Type) where
  | select (k : κ) (p : ρ k → Bool)
  | refresh (k : κ)
  | touch (k : κ) (change : ρ k → μ k → (ρ k × μ k) × Option (ρ k → ρ k))
  | insert (k : κ) (row : ρ k)
  | delete (k : κ)
  | updateIf (k : κ) (p : ρ k → Bool) (f : ρ k → ρ k)
  | selectWhere (p : (k : κ) → ρ k → Bool)
  | scan (p : (k : κ) → ρ k → Bool)
  | commit

/-- The key of the row and of the object that a statement works on, if it works
on one. -/
def DbReq.key? {κ : Type} {ρ μ : κ → Type} : DbReq ρ μ → Option κ
  | select k _ => some k
  | refresh k => some k
  | touch k _ => some k
  | insert k _ => some k
  | delete k => some k
  | updateIf k _ _ => some k
  | selectWhere _ => none
  | scan _ => none
  | commit => none

/-- The answer to a statement. -/
@[reducible] def DbReq.Resp {κ : Type} {ρ μ : κ → Type} : DbReq ρ μ → Type
  | select k _ => Option (ρ k)
  | refresh k => Option (ρ k)
  | touch k _ => Option (ρ k)
  | insert _ _ => Unit
  | delete _ => Unit
  | updateIf _ _ _ => Unit
  | selectWhere _ => List κ
  | scan _ => List κ
  | commit => Unit

/-- The requests of a program that has a session and surroundings of its own. -/
inductive Request {κ : Type} (ρ μ : κ → Type) (E : Signature) where
  | db (req : DbReq ρ μ)
  | env (req : E.Req)

/-- The answers to these requests. -/
@[reducible] def Request.Resp {κ : Type} {ρ μ : κ → Type} {E : Signature} :
    Request ρ μ E → Type
  | db req => req.Resp
  | env req => E.Resp req

/-- The request language of such a program. -/
@[reducible] def withDb {κ : Type} (ρ μ : κ → Type) (E : Signature) : Signature :=
  ⟨Request ρ μ E, Request.Resp⟩

/-- What a session holds of its own: its uncommitted writes and the objects it
has loaded. -/
structure Session {κ : Type} (ρ μ : κ → Type) where
  pending : Rows ρ
  identity : AList (fun k => ρ k × μ k)

/-- The committed rows and one session on them. -/
structure DbState {κ : Type} (ρ μ : κ → Type) where
  committed : Rows ρ
  session : Session ρ μ

section

variable {κ : Type} [DecidableEq κ] {ρ μ : κ → Type}

/-- The row under a key, if there is one. -/
def Rows.row (t : Rows ρ) (k : κ) : Option (ρ k) := (t.lookup k).join

/-- The table with the given rows. -/
def Rows.ofList (rows : List ((k : κ) × ρ k)) : Rows ρ :=
  rows.foldr (fun row t => AList.insert row.1 (some row.2) t) ∅

theorem Rows.row_ofList_self (k : κ) (row : ρ k) (rows : List ((k : κ) × ρ k)) :
    Rows.row (Rows.ofList (⟨k, row⟩ :: rows)) k = some row := by
  rw [Rows.row, Rows.ofList, List.foldr, AList.lookup_insert]
  rfl

theorem Rows.row_ofList_ne {k k' : κ} (h : k' ≠ k) (row : ρ k) (rows : List ((k : κ) × ρ k)) :
    Rows.row (Rows.ofList (⟨k, row⟩ :: rows)) k' = Rows.row (Rows.ofList rows) k' := by
  rw [Rows.row, Rows.ofList, List.foldr, AList.lookup_insert_ne h]
  rfl

/-- A session that has sent nothing yet. -/
def Session.fresh : Session ρ μ := ⟨∅, ∅⟩

namespace DbState

/-- The row that the session sees under a key. -/
def view (st : DbState ρ μ) (k : κ) : Option (ρ k) :=
  Rows.row (st.session.pending ∪ st.committed) k

/-- The object that the session has loaded for a key. -/
def loaded (st : DbState ρ μ) (k : κ) : Option (ρ k × μ k) := st.session.identity.lookup k

/-- The keys of the rows that the session sees. -/
def keys (st : DbState ρ μ) : List κ := (st.session.pending ∪ st.committed).keys

/-- Make `attrs` the attributes of the object under `k`. -/
def load (st : DbState ρ μ) (k : κ) (attrs : ρ k) (memo : μ k) : DbState ρ μ :=
  { st with session := { st.session with
      identity := st.session.identity.insert k (attrs, memo) } }

/-- Write a row, or its removal, in the open transaction. -/
def write (st : DbState ρ μ) (k : κ) (row : Option (ρ k)) : DbState ρ μ :=
  { st with session := { st.session with pending := st.session.pending.insert k row } }

/-- Make the writes of the session permanent. -/
def commit (st : DbState ρ μ) : DbState ρ μ :=
  ⟨st.session.pending ∪ st.committed, { st.session with pending := ∅ }⟩

/-- Close the session: the writes that were not committed are lost. -/
def close (st : DbState ρ μ) : DbState ρ μ := ⟨st.committed, Session.fresh⟩

/-- Load the row of every key that has no object yet. -/
def loadAll [∀ k, Inhabited (μ k)] (st : DbState ρ μ) : List κ → DbState ρ μ
  | [] => st
  | k :: ks =>
    match st.loaded k, st.view k with
    | none, some row => (st.load k row default).loadAll ks
    | _, _ => st.loadAll ks

/-- The keys of the rows that satisfy a condition. -/
def matching (st : DbState ρ μ) (p : (k : κ) → ρ k → Bool) : List κ :=
  st.keys.filter (fun k => (st.view k).any (p k))

/-- The answer to a statement, and the state it leaves. -/
def answer [∀ k, Inhabited (μ k)] :
    (req : DbReq ρ μ) → DbState ρ μ → req.Resp × DbState ρ μ
  | .select k p, st =>
    match st.view k with
    | none => (none, st)
    | some row =>
      if p row then
        match st.loaded k with
        | some obj => (some obj.1, st)
        | none => (some row, st.load k row default)
      else (none, st)
  | .refresh k, st =>
    match st.view k with
    | none => (none, st)
    | some row => (some row, st.load k row default)
  | .touch k change, st =>
    match st.loaded k with
    | none => (none, st)
    | some (attrs, memo) =>
      let changed := change attrs memo
      let st' := st.load k changed.1.1 changed.1.2
      match changed.2, st.view k with
      | some f, some row => (some changed.1.1, st'.write k (some (f row)))
      | _, _ => (some changed.1.1, st')
  | .insert k row, st => ((), (st.load k row default).write k (some row))
  | .delete k, st => ((), st.write k none)
  | .updateIf k p f, st =>
    match st.view k with
    | some row => if p row then ((), st.write k (some (f row))) else ((), st)
    | none => ((), st)
  | .selectWhere p, st => (st.matching p, st.loadAll (st.matching p))
  | .scan p, st => (st.matching p, st)
  | .commit, st => ((), st.commit)

/-! ## What is seen and loaded after a change -/

@[simp] theorem view_load (st : DbState ρ μ) (k k' : κ) (attrs : ρ k) (memo : μ k) :
    (st.load k attrs memo).view k' = st.view k' := rfl

@[simp] theorem committed_load (st : DbState ρ μ) (k : κ) (attrs : ρ k) (memo : μ k) :
    (st.load k attrs memo).committed = st.committed := rfl

@[simp] theorem committed_write (st : DbState ρ μ) (k : κ) (row : Option (ρ k)) :
    (st.write k row).committed = st.committed := rfl

@[simp] theorem loaded_write (st : DbState ρ μ) (k k' : κ) (row : Option (ρ k)) :
    (st.write k row).loaded k' = st.loaded k' := rfl

@[simp] theorem loaded_load_self (st : DbState ρ μ) (k : κ) (attrs : ρ k) (memo : μ k) :
    (st.load k attrs memo).loaded k = some (attrs, memo) := by
  simp [loaded, load]

theorem loaded_load_ne (st : DbState ρ μ) {k k' : κ} (attrs : ρ k) (memo : μ k) (h : k' ≠ k) :
    (st.load k attrs memo).loaded k' = st.loaded k' := by
  simp [loaded, load, AList.lookup_insert_ne h]

/-- The last load counts. -/
@[simp] theorem load_load (st : DbState ρ μ) (k : κ) (attrs attrs' : ρ k) (memo memo' : μ k) :
    (st.load k attrs memo).load k attrs' memo' = st.load k attrs' memo' := by
  simp [load, AList.insert_insert]

@[simp] theorem view_write_self (st : DbState ρ μ) (k : κ) (row : Option (ρ k)) :
    (st.write k row).view k = row := by
  have hmem : k ∈ st.session.pending.insert k row := by simp
  simp [view, Rows.row, write, AList.lookup_union_left hmem]

theorem view_write_ne (st : DbState ρ μ) {k k' : κ} (row : Option (ρ k)) (h : k' ≠ k) :
    (st.write k row).view k' = st.view k' := by
  unfold view Rows.row
  by_cases hmem : k' ∈ st.session.pending
  · have hmem' : k' ∈ st.session.pending.insert k row := by simp [hmem]
    simp [write, AList.lookup_union_left hmem, AList.lookup_union_left hmem',
      AList.lookup_insert_ne h]
  · have hmem' : k' ∉ st.session.pending.insert k row := by simp [hmem, h]
    simp [write, AList.lookup_union_right hmem, AList.lookup_union_right hmem']

@[simp] theorem view_commit (st : DbState ρ μ) (k : κ) : st.commit.view k = st.view k := by
  simp [view, commit, Rows.row]

@[simp] theorem loaded_commit (st : DbState ρ μ) (k : κ) : st.commit.loaded k = st.loaded k := rfl

/-- A commit makes permanent what the session sees. -/
@[simp] theorem row_committed_commit (st : DbState ρ μ) (k : κ) :
    Rows.row st.commit.committed k = st.view k := rfl

omit [DecidableEq κ] in
@[simp] theorem committed_close (st : DbState ρ μ) : st.close.committed = st.committed := rfl

/-- A row that the session has not written is seen as it is committed. -/
theorem view_of_not_pending {st : DbState ρ μ} {k : κ} (h : k ∉ st.session.pending.keys) :
    st.view k = Rows.row st.committed k := by
  unfold view Rows.row
  rw [AList.lookup_union_right]
  exact fun hmem => h (AList.mem_keys.mp hmem)

/-- A session that has written nothing sees the committed rows. -/
theorem view_of_pending_empty {st : DbState ρ μ} (h : st.session.pending = ∅) (k : κ) :
    st.view k = Rows.row st.committed k := by
  apply view_of_not_pending
  rw [h]
  simp

/-- A row that the session has written is seen whatever is committed. -/
theorem view_of_pending {s : Session ρ μ} {k : κ} (h : k ∈ s.pending.keys) (t t' : Rows ρ) :
    DbState.view ⟨t, s⟩ k = DbState.view ⟨t', s⟩ k := by
  have hmem : k ∈ s.pending := AList.mem_keys.mpr h
  unfold view Rows.row
  rw [AList.lookup_union_left hmem, AList.lookup_union_left hmem]

/-- The key of a row that the session sees is one of `keys`. -/
theorem mem_keys_of_view {st : DbState ρ μ} {k : κ} {row : ρ k} (h : st.view k = some row) :
    k ∈ st.keys := by
  unfold keys
  rw [← AList.mem_keys]
  by_contra hmem
  have hnone : (st.session.pending ∪ st.committed).lookup k = none :=
    AList.lookup_eq_none.mpr hmem
  rw [view, Rows.row, hnone] at h
  simp at h

theorem mem_keys {st : DbState ρ μ} {k : κ} :
    k ∈ st.keys ↔ k ∈ st.session.pending ∨ k ∈ st.committed := by
  unfold keys
  rw [← AList.mem_keys, AList.mem_union]

@[simp] theorem keys_load (st : DbState ρ μ) (k : κ) (attrs : ρ k) (memo : μ k) :
    (st.load k attrs memo).keys = st.keys := rfl

/-- A row that is written, or removed, leaves its key behind. -/
theorem mem_keys_write {st : DbState ρ μ} {k k' : κ} {row : Option (ρ k)} :
    k' ∈ (st.write k row).keys ↔ k' = k ∨ k' ∈ st.keys := by
  rw [mem_keys, mem_keys]
  show k' ∈ st.session.pending.insert k row ∨ k' ∈ st.committed ↔ _
  rw [AList.mem_insert, or_assoc]

/-- The keys that are committed after a commit. -/
theorem mem_committed_commit {st : DbState ρ μ} {k : κ} : k ∈ st.commit.committed ↔ k ∈ st.keys := by
  rw [mem_keys]
  exact AList.mem_union

/-! ## The answers that a run meets -/

variable [∀ k, Inhabited (μ k)]

theorem committed_loadAll (st : DbState ρ μ) (ks : List κ) :
    (st.loadAll ks).committed = st.committed := by
  induction ks generalizing st with
  | nil => rfl
  | cons k ks ih =>
    unfold loadAll
    split
    · rw [ih]
      rfl
    · exact ih st

theorem view_loadAll (st : DbState ρ μ) (ks : List κ) (k : κ) :
    (st.loadAll ks).view k = st.view k := by
  induction ks generalizing st with
  | nil => rfl
  | cons k' ks ih =>
    unfold loadAll
    split
    · rw [ih]
      rfl
    · exact ih st

/-- An object that is loaded already is not loaded again. -/
theorem loaded_loadAll_of_loaded {st : DbState ρ μ} {k : κ} {obj : ρ k × μ k}
    (h : st.loaded k = some obj) (ks : List κ) : (st.loadAll ks).loaded k = some obj := by
  induction ks generalizing st with
  | nil => exact h
  | cons k' ks ih =>
    unfold loadAll
    split
    · rename_i row hnone hview
      apply ih
      have hne : k ≠ k' := by
        rintro rfl
        rw [h] at hnone
        cases hnone
      rw [loaded_load_ne _ _ _ hne]
      exact h
    · exact ih h

/-- An object that is not loaded is loaded from the row. -/
theorem loaded_loadAll {st : DbState ρ μ} {k : κ} {row : ρ k} (hnone : st.loaded k = none)
    (hview : st.view k = some row) {ks : List κ} (hmem : k ∈ ks) :
    (st.loadAll ks).loaded k = some (row, default) := by
  induction ks generalizing st with
  | nil => cases hmem
  | cons k' ks ih =>
    by_cases hk : k' = k
    · subst hk
      unfold loadAll
      rw [hnone, hview]
      exact loaded_loadAll_of_loaded (loaded_load_self _ _ _ _) ks
    · have hmem' : k ∈ ks := (List.mem_cons.mp hmem).resolve_left (Ne.symm hk)
      unfold loadAll
      split
      · apply ih _ _ hmem'
        · rw [loaded_load_ne _ _ _ (Ne.symm hk)]
          exact hnone
        · exact hview
      · exact ih hnone hview hmem'

omit [∀ k, Inhabited (μ k)] in
/-- The keys that a condition finds are those of rows that satisfy it. -/
theorem mem_matching {st : DbState ρ μ} {p : (k : κ) → ρ k → Bool} {k : κ} :
    k ∈ st.matching p ↔ ∃ row, st.view k = some row ∧ p k row = true := by
  unfold matching
  rw [List.mem_filter]
  constructor
  · intro h
    cases hview : st.view k with
    | none => simp [hview] at h
    | some row => exact ⟨row, rfl, by simpa [hview] using h.2⟩
  · rintro ⟨row, hview, hp⟩
    exact ⟨mem_keys_of_view hview, by simp [hview, hp]⟩

omit [∀ k, Inhabited (μ k)] in
theorem nodup_matching (st : DbState ρ μ) (p : (k : κ) → ρ k → Bool) : (st.matching p).Nodup :=
  (AList.keys_nodup _).filter _

/-- Only a commit changes what is committed. -/
theorem committed_answer {req : DbReq ρ μ} (h : req ≠ .commit) (st : DbState ρ μ) :
    (answer req st).2.committed = st.committed := by
  cases req with
  | commit => exact absurd rfl h
  | selectWhere p => exact committed_loadAll _ _
  | scan p => rfl
  | insert k row => rfl
  | delete k => rfl
  | select k p =>
    simp only [answer]
    split
    · rfl
    · split
      · split <;> rfl
      · rfl
  | refresh k =>
    simp only [answer]
    split <;> rfl
  | touch k change =>
    simp only [answer]
    split
    · rfl
    · split <;> rfl
  | updateIf k p f =>
    simp only [answer]
    split
    · split <;> rfl
    · rfl

theorem answer_select_loaded {st : DbState ρ μ} {k : κ} {p : ρ k → Bool} {row : ρ k}
    {obj : ρ k × μ k} (hview : st.view k = some row) (hp : p row = true)
    (hloaded : st.loaded k = some obj) : answer (.select k p) st = (some obj.1, st) := by
  simp [answer, hview, hp, hloaded]

theorem answer_select_new {st : DbState ρ μ} {k : κ} {p : ρ k → Bool} {row : ρ k}
    (hview : st.view k = some row) (hp : p row = true) (hloaded : st.loaded k = none) :
    answer (.select k p) st = (some row, st.load k row default) := by
  simp [answer, hview, hp, hloaded]

theorem answer_select_none {st : DbState ρ μ} {k : κ} {p : ρ k → Bool}
    (h : ∀ row, st.view k = some row → p row = false) :
    answer (.select k p) st = (none, st) := by
  cases hview : st.view k with
  | none => simp [answer, hview]
  | some row => simp [answer, hview, h row hview]

/-- An answered object has a row that satisfies the condition, and is the object
that was loaded or this row. -/
theorem exists_of_answer_select {st : DbState ρ μ} {k : κ} {p : ρ k → Bool} {attrs : ρ k}
    (h : (answer (.select k p) st).1 = some attrs) :
    ∃ row, st.view k = some row ∧ p row = true ∧
      (attrs = row ∨ ∃ memo, st.loaded k = some (attrs, memo)) := by
  cases hview : st.view k with
  | none => simp [answer, hview] at h
  | some row =>
    by_cases hp : p row = true
    · cases hloaded : st.loaded k with
      | none =>
        rw [answer_select_new hview hp hloaded] at h
        cases h
        exact ⟨_, rfl, hp, .inl rfl⟩
      | some obj =>
        rw [answer_select_loaded hview hp hloaded] at h
        cases h
        exact ⟨row, rfl, hp, .inr ⟨obj.2, rfl⟩⟩
    · simp [answer, hview, hp] at h

/-- A bulk update loads nothing. -/
theorem identity_answer_updateIf (st : DbState ρ μ) (k : κ) (p : ρ k → Bool) (f : ρ k → ρ k) :
    (answer (.updateIf k p f) st).2.session.identity = st.session.identity := by
  simp only [answer]
  split
  · split <;> rfl
  · rfl

/-- A `select` changes no row. -/
theorem view_answer_select (st : DbState ρ μ) (k k' : κ) (p : ρ k → Bool) :
    (answer (.select k p) st).2.view k' = st.view k' := by
  simp only [answer]
  split
  · rfl
  · split
    · split <;> rfl
    · rfl

/-- Work on an object changes no row but its own. -/
theorem view_answer_touch (st : DbState ρ μ) {k k' : κ} (h : k' ≠ k)
    (change : ρ k → μ k → (ρ k × μ k) × Option (ρ k → ρ k)) :
    (answer (.touch k change) st).2.view k' = st.view k' := by
  simp only [answer]
  split
  · rfl
  · split
    · exact view_write_ne _ _ h
    · rfl

/-- A statement on one row leaves the other rows. -/
theorem view_answer_ne {req : DbReq ρ μ} {k k' : κ} (hkey : req.key? = some k) (h : k' ≠ k)
    (st : DbState ρ μ) : (answer req st).2.view k' = st.view k' := by
  cases req with
  | select k₁ p => exact view_answer_select st k₁ k' p
  | refresh k₁ =>
    simp only [answer]
    split <;> rfl
  | touch k₁ change =>
    cases hkey
    exact view_answer_touch st h change
  | insert k₁ row =>
    cases hkey
    exact view_write_ne _ _ h
  | delete k₁ =>
    cases hkey
    exact view_write_ne _ _ h
  | updateIf k₁ p f =>
    cases hkey
    simp only [answer]
    split
    · split
      · exact view_write_ne _ _ h
      · rfl
    · rfl
  | selectWhere p => cases hkey
  | scan p => cases hkey
  | commit => cases hkey

/-- A statement on one row leaves the objects of the other rows. -/
theorem loaded_answer_ne {req : DbReq ρ μ} {k k' : κ} (hkey : req.key? = some k) (h : k' ≠ k)
    (st : DbState ρ μ) : (answer req st).2.loaded k' = st.loaded k' := by
  cases req with
  | select k₁ p =>
    cases hkey
    simp only [answer]
    split
    · rfl
    · split
      · split
        · rfl
        · exact loaded_load_ne _ _ _ h
      · rfl
  | refresh k₁ =>
    cases hkey
    simp only [answer]
    split
    · rfl
    · exact loaded_load_ne _ _ _ h
  | touch k₁ change =>
    cases hkey
    simp only [answer]
    split
    · rfl
    · split <;> exact loaded_load_ne _ _ _ h
  | insert k₁ row =>
    cases hkey
    exact loaded_load_ne _ _ _ h
  | delete k₁ => rfl
  | updateIf k₁ p f =>
    simp only [answer]
    split
    · split <;> rfl
    · rfl
  | selectWhere p => cases hkey
  | scan p => cases hkey
  | commit => cases hkey

/-- The session `s` after a `select` that was sent in `st` and answered the
object `attrs`: it has loaded this object now or before. -/
structure Selected (st : DbState ρ μ) (k : κ) (attrs : ρ k) (memo : μ k) (s : Session ρ μ) :
    Prop where
  pending : s.pending = st.session.pending
  loaded : s.identity.lookup k = some (attrs, memo)
  found : ∃ row, st.view k = some row
  memo_eq : memo = default ∨ st.loaded k = some (attrs, memo)

theorem selected_of_answer {st : DbState ρ μ} {k : κ} {p : ρ k → Bool} {attrs : ρ k}
    (h : (answer (.select k p) st).1 = some attrs) :
    ∃ memo, Selected st k attrs memo (answer (.select k p) st).2.session := by
  cases hview : st.view k with
  | none => simp [answer, hview] at h
  | some row =>
    by_cases hp : p row = true
    · cases hloaded : st.loaded k with
      | none =>
        rw [answer_select_new hview hp hloaded] at h ⊢
        cases h
        exact ⟨_, rfl, loaded_load_self _ _ _ _, ⟨_, hview⟩, .inl rfl⟩
      | some obj =>
        rw [answer_select_loaded hview hp hloaded] at h ⊢
        cases h
        exact ⟨obj.2, rfl, hloaded, ⟨_, hview⟩, .inr hloaded⟩
    · simp [answer, hview, hp] at h

theorem answer_refresh {st : DbState ρ μ} {k : κ} {row : ρ k} (hview : st.view k = some row) :
    answer (.refresh k) st = (some row, st.load k row default) := by
  simp [answer, hview]

theorem answer_touch {st : DbState ρ μ} {k : κ} {attrs row : ρ k} {memo : μ k}
    {change : ρ k → μ k → (ρ k × μ k) × Option (ρ k → ρ k)} {obj : ρ k × μ k} {f : ρ k → ρ k}
    (hloaded : st.loaded k = some (attrs, memo)) (hview : st.view k = some row)
    (hchange : change attrs memo = (obj, some f)) :
    answer (.touch k change) st =
      (some obj.1, (st.load k obj.1 obj.2).write k (some (f row))) := by
  simp [answer, hview, hloaded, hchange]

theorem answer_touch_silent {st : DbState ρ μ} {k : κ} {attrs : ρ k} {memo : μ k}
    {change : ρ k → μ k → (ρ k × μ k) × Option (ρ k → ρ k)} {obj : ρ k × μ k}
    (hloaded : st.loaded k = some (attrs, memo)) (hchange : change attrs memo = (obj, none)) :
    answer (.touch k change) st = (some obj.1, st.load k obj.1 obj.2) := by
  simp [answer, hloaded, hchange]

end DbState

end

end Orm

import Mathlib.Data.Fintype.Basic
import Mathlib.Logic.Function.Basic
import Mathlib.Logic.Relation
import WorkflowEngine.Lib.Session

/-!
# Several sessions on one database

A `Pool` runs programs at the same time, each in a session of its own over the
same committed rows.  A step is one statement of one program: it sees the rows
that are committed at that moment under the program's own writes (READ
COMMITTED), and a statement that writes a row waits while another open
transaction has written it.

`Ensures` is the rely-guarantee triple of one program.  Between any two of its
statements the committed rows may change as the evolution `R` allows, and each
statement has to change what the session sees as `R` allows.  `C` is a
condition on the statements of a run: what a program does after a statement
that does not meet `C` is left open.

The rule of the pool (`Runs.evolves`) is that programs which keep `R`, each
alone under interference, keep it together: in every run that meets `C` the
committed rows evolve by `R`.
-/

namespace Orm

open Interact

/-- How a row may change: a reflexive and transitive relation for every key. -/
structure Evolution {κ : Type} (ρ : κ → Type) where
  rel : (k : κ) → Option (ρ k) → Option (ρ k) → Prop
  refl : ∀ k row, rel k row row
  trans : ∀ {k row row' row''}, rel k row row' → rel k row' row'' → rel k row row''

/-- A program and its session. -/
structure Thread {κ : Type} (ρ μ : κ → Type) (E : Signature) (ε α : Type) where
  script : Script (withDb ρ μ E) ε α
  session : Session ρ μ

/-- Programs over the same committed rows. -/
structure Pool (ι : Type) {κ : Type} (ρ μ : κ → Type) (E : Signature) (ε α : Type) where
  committed : Rows ρ
  threads : ι → Thread ρ μ E ε α

section

variable {ι κ : Type} [DecidableEq ι] [DecidableEq κ] {ρ μ : κ → Type}
  {E : Signature} {ε α β : Type}

/-- The committed rows of `t'` have evolved from those of `t`. -/
def Rely (R : Evolution ρ) (t t' : Rows ρ) : Prop :=
  ∀ k, R.rel k (Rows.row t k) (Rows.row t' k)

theorem Rely.refl (R : Evolution ρ) (t : Rows ρ) : Rely R t t := fun k => R.refl k _

theorem Rely.trans {R : Evolution ρ} {t t' t'' : Rows ρ} (h : Rely R t t') (h' : Rely R t' t'') :
    Rely R t t'' := fun k => R.trans (h k) (h' k)

/-- What a session sees evolves with the committed rows. -/
theorem Rely.view {R : Evolution ρ} {t t' : Rows ρ} (h : Rely R t t') (s : Session ρ μ) (k : κ) :
    R.rel k (DbState.view ⟨t, s⟩ k) (DbState.view ⟨t', s⟩ k) := by
  by_cases hk : k ∈ s.pending.keys
  · rw [DbState.view_of_pending hk t t']
    exact R.refl k _
  · rw [DbState.view_of_not_pending hk, DbState.view_of_not_pending hk]
    exact h k

namespace Pool

/-- The database as the session of `i` has it. -/
def db (P : Pool ι ρ μ E ε α) (i : ι) : DbState ρ μ := ⟨P.committed, (P.threads i).session⟩

/-- The pool after `i` has gone on to `script` and `st`. -/
def put (P : Pool ι ρ μ E ε α) (i : ι) (script : Script (withDb ρ μ E) ε α)
    (st : DbState ρ μ) : Pool ι ρ μ E ε α :=
  ⟨st.committed, Function.update P.threads i ⟨script, st.session⟩⟩

/-- No other open transaction has written a row that `st` has written. -/
def Free (P : Pool ι ρ μ E ε α) (i : ι) (st : DbState ρ μ) : Prop :=
  ∀ j, j ≠ i → ∀ k ∈ st.session.pending.keys, k ∉ (P.threads j).session.pending.keys

instance [Fintype ι] (P : Pool ι ρ μ E ε α) (i : ι) (st : DbState ρ μ) :
    Decidable (P.Free i st) :=
  inferInstanceAs (Decidable (∀ j, j ≠ i → ∀ k ∈ st.session.pending.keys,
    k ∉ (P.threads j).session.pending.keys))

variable [∀ k, Inhabited (μ k)]

/-- One step of `i`: a statement, an answer of its surroundings, or the end of
its session. -/
inductive Step (P : Pool ι ρ μ E ε α) (i : ι) : Pool ι ρ μ E ε α → Prop where
  | db {req : DbReq ρ μ} {next : req.Resp → Script (withDb ρ μ E) ε α}
      (sends : (P.threads i).script = .call (.db req) next)
      (free : P.Free i (DbState.answer req (P.db i)).2) :
      Step P i (P.put i (next (DbState.answer req (P.db i)).1) (DbState.answer req (P.db i)).2)
  | env {req : E.Req} {next : E.Resp req → Script (withDb ρ μ E) ε α}
      (sends : (P.threads i).script = .call (.env req) next) (resp : E.Resp req) :
      Step P i (P.put i (next resp) (P.db i))
  | close {result : Except ε α} (ends : (P.threads i).script = .done result) :
      Step P i (P.put i (.done result) (P.db i).close)

/-- The statement that `i` sends next meets the condition. -/
def Meets (C : DbReq ρ μ → DbState ρ μ → Bool) (P : Pool ι ρ μ E ε α) (i : ι) : Prop :=
  ∀ req next, (P.threads i).script = .call (.db req) next → C req (P.db i) = true

/-- The runs whose statements all meet the condition. -/
def Runs (C : DbReq ρ μ → DbState ρ μ → Bool) :
    Pool ι ρ μ E ε α → Pool ι ρ μ E ε α → Prop :=
  Relation.ReflTransGen (fun P Q => ∃ i, P.Step i Q ∧ P.Meets C i)

variable [Fintype ι]

/-- The next step of `i`, if it meets the condition and need not wait.  `resp`
answers for the surroundings. -/
def next? (C : DbReq ρ μ → DbState ρ μ → Bool) (resp : (req : E.Req) → E.Resp req)
    (P : Pool ι ρ μ E ε α) (i : ι) : Option (Pool ι ρ μ E ε α) :=
  match (P.threads i).script with
  | .done result => some (P.put i (.done result) (P.db i).close)
  | .call (.db req) next =>
    let answered := DbState.answer req (P.db i)
    if C req (P.db i) = true ∧ P.Free i answered.2 then
      some (P.put i (next answered.1) answered.2)
    else none
  | .call (.env req) next => some (P.put i (next (resp req)) (P.db i))

/-- The steps of the given programs, one after the other. -/
def play (C : DbReq ρ μ → DbState ρ μ → Bool) (resp : (req : E.Req) → E.Resp req) :
    List ι → Pool ι ρ μ E ε α → Option (Pool ι ρ μ E ε α)
  | [], P => some P
  | i :: turns, P => (P.next? C resp i).bind (play C resp turns)

variable {C : DbReq ρ μ → DbState ρ μ → Bool} {resp : (req : E.Req) → E.Resp req}
  {P Q : Pool ι ρ μ E ε α}

theorem step_of_next? {i : ι} (h : P.next? C resp i = some Q) : P.Step i Q ∧ P.Meets C i := by
  unfold next? at h
  split at h
  · rename_i result hscript
    cases h
    refine ⟨.close hscript, fun req next hsends => ?_⟩
    rw [hscript] at hsends
    cases hsends
  · rename_i req next hscript
    dsimp only at h
    split at h
    · rename_i hmeets
      cases h
      refine ⟨.db hscript hmeets.2, fun req' next' hsends => ?_⟩
      rw [hscript] at hsends
      cases hsends
      exact hmeets.1
    · cases h
  · rename_i req next hscript
    cases h
    refine ⟨.env hscript _, fun req next hsends => ?_⟩
    rw [hscript] at hsends
    cases hsends

theorem play_append (turns turns' : List ι) (P : Pool ι ρ μ E ε α) :
    P.play C resp (turns ++ turns') = (P.play C resp turns).bind (play C resp turns') := by
  induction turns generalizing P with
  | nil => rfl
  | cons i turns ih =>
    show (P.next? C resp i).bind _ = ((P.next? C resp i).bind _).bind _
    cases P.next? C resp i with
    | none => rfl
    | some P' => exact ih P'

theorem runs_of_play {turns : List ι} (h : P.play C resp turns = some Q) : Runs C P Q := by
  induction turns generalizing P with
  | nil =>
    cases h
    exact .refl
  | cons i turns ih =>
    unfold play at h
    cases hnext : P.next? C resp i with
    | none =>
      rw [hnext] at h
      cases h
    | some P' =>
      rw [hnext] at h
      exact .head ⟨i, step_of_next? hnext⟩ (ih h)

end Pool

/-! ## The triple of one program -/

variable [∀ k, Inhabited (μ k)]

/-- Under interference by `R`, each statement of the program keeps `R` on what
the session sees, and the end satisfies `Q`. -/
def Ensures (R : Evolution ρ) (C : DbReq ρ μ → DbState ρ μ → Bool)
    (Q : Except ε α → Session ρ μ → Rows ρ → Prop) :
    Script (withDb ρ μ E) ε α → Session ρ μ → Rows ρ → Prop
  | .done result, s, t => Q result s t
  | .call (.db req) next, s, t => ∀ t', Rely R t t' → C req ⟨t', s⟩ = true →
      let answered := DbState.answer req ⟨t', s⟩
      (∀ k, R.rel k (DbState.view ⟨t', s⟩ k) (answered.2.view k)) ∧
        Ensures R C Q (next answered.1) answered.2.session answered.2.committed
  | .call (.env _) next, s, t => ∀ resp, Ensures R C Q (next resp) s t

namespace Ensures

variable {R : Evolution ρ} {C : DbReq ρ μ → DbState ρ μ → Bool}

theorem mono {Q Q' : Except ε α → Session ρ μ → Rows ρ → Prop} {m : Script (withDb ρ μ E) ε α}
    {s : Session ρ μ} {t : Rows ρ} (h : Ensures R C Q m s t)
    (hpost : ∀ r s t, Q r s t → Q' r s t) : Ensures R C Q' m s t := by
  induction m generalizing s t with
  | done result => exact hpost _ _ _ h
  | call req next ih =>
    cases req with
    | db req =>
      intro t' hrely hC
      obtain ⟨hkeeps, hnext⟩ := h t' hrely hC
      exact ⟨hkeeps, ih _ hnext⟩
    | env req => exact fun resp => ih _ (h resp)

/-- A triple holds on after interference, if its end does. -/
theorem rely {Q : Except ε α → Session ρ μ → Rows ρ → Prop}
    (hstable : ∀ r s t t', Q r s t → Rely R t t' → Q r s t') {m : Script (withDb ρ μ E) ε α}
    {s : Session ρ μ} {t t' : Rows ρ} (h : Ensures R C Q m s t) (hrely : Rely R t t') :
    Ensures R C Q m s t' := by
  induction m generalizing s t t' with
  | done result => exact hstable _ _ _ _ h hrely
  | call req next ih =>
    cases req with
    | db req => exact fun t'' hrely' hC => h t'' (hrely.trans hrely') hC
    | env req => exact fun resp => ih _ (h resp) hrely

/-- What a program hands on to the rest. -/
theorem bind_intro {Q : Except ε β → Session ρ μ → Rows ρ → Prop}
    {m : Script (withDb ρ μ E) ε α} {f : α → Script (withDb ρ μ E) ε β} {s : Session ρ μ}
    {t : Rows ρ} (h : Ensures R C (fun r s t =>
      match r with
      | .ok a => Ensures R C Q (f a) s t
      | .error e => Q (.error e) s t) m s t) :
    Ensures R C Q (m >>= f) s t := by
  show Ensures R C Q (m.bind f) s t
  induction m generalizing s t with
  | done result =>
    cases result with
    | ok a => exact h
    | error e => exact h
  | call req next ih =>
    cases req with
    | db req =>
      intro t' hrely hC
      obtain ⟨hkeeps, hnext⟩ := h t' hrely hC
      exact ⟨hkeeps, ih _ hnext⟩
    | env req => exact fun resp => ih _ (h resp)

theorem attempt_intro {ε' : Type} {Q : Except ε' (Except ε α) → Session ρ μ → Rows ρ → Prop}
    {m : Script (withDb ρ μ E) ε α} {s : Session ρ μ} {t : Rows ρ}
    (h : Ensures R C (fun r s t => Q (.ok r) s t) m s t) :
    Ensures R C Q (Script.attempt m) s t := by
  induction m generalizing s t with
  | done result => exact h
  | call req next ih =>
    cases req with
    | db req =>
      intro t' hrely hC
      obtain ⟨hkeeps, hnext⟩ := h t' hrely hC
      exact ⟨hkeeps, ih _ hnext⟩
    | env req => exact fun resp => ih _ (h resp)

/-- One statement. -/
theorem send_intro {req : DbReq ρ μ}
    {Q : Except ε req.Resp → Session ρ μ → Rows ρ → Prop} {s : Session ρ μ} {t : Rows ρ}
    (h : ∀ t', Rely R t t' → C req ⟨t', s⟩ = true →
      (∀ k, R.rel k (DbState.view ⟨t', s⟩ k) ((DbState.answer req ⟨t', s⟩).2.view k)) ∧
        Q (.ok (DbState.answer req ⟨t', s⟩).1) (DbState.answer req ⟨t', s⟩).2.session
          (DbState.answer req ⟨t', s⟩).2.committed) :
    Ensures R C Q (Script.send (S := withDb ρ μ E) (.db req)) s t := h

/-- Whatever the surroundings answer. -/
theorem env_bind {req : E.Req} {f : E.Resp req → Script (withDb ρ μ E) ε β}
    {Q : Except ε β → Session ρ μ → Rows ρ → Prop} {s : Session ρ μ} {t : Rows ρ}
    (h : ∀ resp, Ensures R C Q (f resp) s t) :
    Ensures R C Q (Script.send (S := withDb ρ μ E) (.env req) >>= f) s t := h

/-- A `select` leaves the object that it answers loaded. -/
theorem select_bind {k : κ} {p : ρ k → Bool} {f : Option (ρ k) → Script (withDb ρ μ E) ε β}
    {Q : Except ε β → Session ρ μ → Rows ρ → Prop} {s : Session ρ μ} {t : Rows ρ}
    (hnone : ∀ s' t', Rely R t t' → Ensures R C Q (f none) s' t')
    (hsome : ∀ attrs memo s' t', Rely R t t' → DbState.Selected ⟨t', s⟩ k attrs memo s' →
      Ensures R C Q (f (some attrs)) s' t') :
    Ensures R C Q (Script.send (S := withDb ρ μ E) (.db (.select k p)) >>= f) s t := by
  apply bind_intro
  apply send_intro
  intro t' hrely _
  have hreq : (.select k p : DbReq ρ μ) ≠ .commit := nofun
  have hcommitted := DbState.committed_answer hreq ⟨t', s⟩
  refine ⟨fun k' => ?_, ?_⟩
  · rw [DbState.view_answer_select]
    exact R.refl k' _
  · cases hfound : (DbState.answer (.select k p) ⟨t', s⟩).1 with
    | none =>
      apply hnone
      rw [hcommitted]
      exact hrely
    | some attrs =>
      obtain ⟨memo, hselected⟩ := DbState.selected_of_answer hfound
      show Ensures R C Q (f (some attrs)) _ _
      rw [hcommitted]
      exact hsome attrs memo _ _ hrely hselected

end Ensures

/-! ## Programs that keep an evolution whatever their session holds -/

/-- From every session state the program keeps `R`. -/
def Sound (R : Evolution ρ) (C : DbReq ρ μ → DbState ρ μ → Bool)
    (m : Script (withDb ρ μ E) ε α) : Prop :=
  ∀ s t, Ensures R C (fun _ _ _ => True) m s t

section

variable {R : Evolution ρ} {C : DbReq ρ μ → DbState ρ μ → Bool}

theorem sound_done (result : Except ε α) :
    Sound R C (Script.done result : Script (withDb ρ μ E) ε α) :=
  fun _ _ => trivial

/-- A program that keeps `R` from its session on, before one that keeps it
from any. -/
theorem Ensures.bind_sound {m : Script (withDb ρ μ E) ε α}
    {f : α → Script (withDb ρ μ E) ε β} {s : Session ρ μ} {t : Rows ρ}
    (hm : Ensures R C (fun _ _ _ => True) m s t) (hf : ∀ a, Sound R C (f a)) :
    Ensures R C (fun _ _ _ => True) (m >>= f) s t := by
  apply Ensures.bind_intro
  apply hm.mono
  intro r s t _
  cases r with
  | ok a => exact hf a s t
  | error e => trivial

theorem sound_bind {m : Script (withDb ρ μ E) ε α} {f : α → Script (withDb ρ μ E) ε β}
    (hm : Sound R C m) (hf : ∀ a, Sound R C (f a)) : Sound R C (m >>= f) :=
  fun s t => (hm s t).bind_sound hf

theorem sound_attempt {ε' : Type} {m : Script (withDb ρ μ E) ε α} (hm : Sound R C m) :
    Sound R C (Script.attempt m : Script (withDb ρ μ E) ε' (Except ε α)) :=
  fun s t => Ensures.attempt_intro (hm s t)

theorem sound_ite {c : Prop} [Decidable c] {m m' : Script (withDb ρ μ E) ε α}
    (hm : Sound R C m) (hm' : Sound R C m') : Sound R C (if c then m else m') := by
  split
  · exact hm
  · exact hm'

/-- An answer of the surroundings changes no row. -/
theorem sound_env (req : E.Req) :
    Sound R C (Script.send (S := withDb ρ μ E) (.env req) : Script (withDb ρ μ E) ε _) :=
  fun _ _ _ => trivial

theorem sound_db {req : DbReq ρ μ}
    (h : ∀ st, C req st = true → ∀ k, R.rel k (st.view k) ((DbState.answer req st).2.view k)) :
    Sound R C (Script.send (S := withDb ρ μ E) (.db req) : Script (withDb ρ μ E) ε _) :=
  fun s _ => Ensures.send_intro fun t' _ hC => ⟨h ⟨t', s⟩ hC, trivial⟩

/-- A statement that leaves every row as it is. -/
theorem sound_read {req : DbReq ρ μ}
    (h : ∀ st k, (DbState.answer req st).2.view k = st.view k) :
    Sound R C (Script.send (S := withDb ρ μ E) (.db req) : Script (withDb ρ μ E) ε _) :=
  sound_db fun st _ k => by
    rw [h st k]
    exact R.refl k _

/-- What a flushed change does to the rows. -/
theorem rel_touch {st : DbState ρ μ} {k : κ} {change : ρ k → μ k → (ρ k × μ k) × Option (ρ k → ρ k)}
    (h : ∀ attrs memo row f, st.loaded k = some (attrs, memo) → st.view k = some row →
      (change attrs memo).2 = some f → R.rel k (some row) (some (f row))) (k' : κ) :
    R.rel k' (st.view k') ((DbState.answer (.touch k change) st).2.view k') := by
  cases hloaded : st.loaded k with
  | none =>
    simp only [DbState.answer, hloaded]
    exact R.refl k' _
  | some obj =>
    obtain ⟨attrs, memo⟩ := obj
    cases hchange : change attrs memo with
    | mk obj' flushed =>
      cases flushed with
      | none =>
        rw [DbState.answer_touch_silent hloaded hchange]
        exact R.refl k' _
      | some f =>
        cases hview : st.view k with
        | none =>
          simp only [DbState.answer, hloaded, hchange, hview]
          exact R.refl k' _
        | some row =>
          rw [DbState.answer_touch hloaded hview hchange]
          by_cases hk : k' = k
          · subst hk
            rw [DbState.view_write_self, hview]
            exact h attrs memo row f hloaded hview (by rw [hchange])
          · rw [DbState.view_write_ne _ _ hk]
            exact R.refl k' _

/-- What a bulk update does to the rows. -/
theorem rel_updateIf {st : DbState ρ μ} {k : κ} {p : ρ k → Bool} {f : ρ k → ρ k}
    (h : ∀ row, st.view k = some row → p row = true → R.rel k (some row) (some (f row)))
    (k' : κ) : R.rel k' (st.view k') ((DbState.answer (.updateIf k p f) st).2.view k') := by
  simp only [DbState.answer]
  split
  · rename_i row hview
    split
    · rename_i hp
      by_cases hk : k' = k
      · subst hk
        rw [DbState.view_write_self, hview]
        exact h row hview hp
      · rw [DbState.view_write_ne _ _ hk]
        exact R.refl k' _
    · exact R.refl k' _
  · exact R.refl k' _

end

/-! ## The rule of the pool -/

/-- Every program keeps the triple, no two open transactions have written the
same row, and what is written has evolved from what is committed. -/
structure Keeps (R : Evolution ρ) (C : DbReq ρ μ → DbState ρ μ → Bool)
    (post : ι → Except ε α → Rows ρ → Prop) (P : Pool ι ρ μ E ε α) : Prop where
  ensures : ∀ i, Ensures R C (fun r _ t => ∀ t', Rely R t t' → post i r t')
    (P.threads i).script (P.threads i).session P.committed
  apart : ∀ i j, i ≠ j → ∀ k ∈ (P.threads i).session.pending.keys,
    k ∉ (P.threads j).session.pending.keys
  written : ∀ i, ∀ k ∈ (P.threads i).session.pending.keys,
    R.rel k (Rows.row P.committed k) ((P.db i).view k)

namespace Keeps

variable {R : Evolution ρ} {C : DbReq ρ μ → DbState ρ μ → Bool}
  {post : ι → Except ε α → Rows ρ → Prop} {P Q : Pool ι ρ μ E ε α} {i : ι}

/-- The thread `i` goes on to `st`, over rows that have evolved, and what it
has written has evolved from what is committed. -/
private theorem put (h : Keeps R C post P) {script : Script (withDb ρ μ E) ε α}
    {st : DbState ρ μ} (hfree : P.Free i st) (hrely : Rely R P.committed st.committed)
    (hothers : ∀ j, j ≠ i → ∀ k ∈ (P.threads j).session.pending.keys,
      Rows.row st.committed k = Rows.row P.committed k)
    (hwritten : ∀ k ∈ st.session.pending.keys, R.rel k (Rows.row st.committed k) (st.view k))
    (hensures : Ensures R C (fun r _ t => ∀ t', Rely R t t' → post i r t') script st.session
      st.committed) : Keeps R C post (P.put i script st) := by
  constructor
  · intro j
    by_cases hj : j = i
    · subst hj
      simpa [Pool.put] using hensures
    · have hthread : (P.put i script st).threads j = P.threads j := by
        simp [Pool.put, Function.update_of_ne hj]
      rw [hthread]
      exact (h.ensures j).rely (fun r s t t' hpost hrely t'' hrely' =>
        hpost t'' (hrely.trans hrely')) hrely
  · intro j j' hne k hk
    by_cases hj : j = i
    · subst hj
      have hj' : j' ≠ j := hne.symm
      simp only [Pool.put, Function.update_self, Function.update_of_ne hj'] at hk ⊢
      exact hfree j' hj' k hk
    · by_cases hj' : j' = i
      · subst hj'
        simp only [Pool.put, Function.update_self, Function.update_of_ne hj] at hk ⊢
        exact fun hmem => hfree j hj k hmem hk
      · simp only [Pool.put, Function.update_of_ne hj, Function.update_of_ne hj'] at hk ⊢
        exact h.apart j j' hne k hk
  · intro j k hk
    by_cases hj : j = i
    · subst hj
      simp only [Pool.put, Pool.db, Function.update_self] at hk ⊢
      exact hwritten k hk
    · simp only [Pool.put, Pool.db, Function.update_of_ne hj] at hk ⊢
      rw [hothers j hj k hk, DbState.view_of_pending hk st.committed P.committed]
      exact h.written j k hk

/-- One step: the invariant is kept, and the committed rows evolve. -/
theorem step (h : Keeps R C post P) (hstep : P.Step i Q) (hmeets : P.Meets C i) :
    Keeps R C post Q ∧ Rely R P.committed Q.committed := by
  have hensures := h.ensures i
  cases hstep with
  | @db req next sends free =>
    rw [sends] at hensures
    obtain ⟨hkeeps, hnext⟩ := hensures P.committed (Rely.refl R _) (hmeets req next sends)
    change ∀ k, R.rel k ((P.db i).view k) ((DbState.answer req (P.db i)).2.view k) at hkeeps
    by_cases hcommit : req = .commit
    · subst hcommit
      have hcommitted : ∀ k, Rows.row (P.db i).commit.committed k = (P.db i).view k := fun k => rfl
      have hrely : Rely R P.committed (P.db i).commit.committed := by
        intro k
        rw [hcommitted k]
        by_cases hk : k ∈ (P.threads i).session.pending.keys
        · exact h.written i k hk
        · rw [show (P.db i).view k = Rows.row P.committed k from DbState.view_of_not_pending hk]
          exact R.refl k _
      refine ⟨h.put free hrely (fun j hj k hk => ?_) (fun k hk => by cases hk) hnext, hrely⟩
      show Rows.row (P.db i).commit.committed k = _
      have hmine : k ∉ (P.db i).session.pending.keys := h.apart j i hj k hk
      rw [hcommitted k, DbState.view_of_not_pending hmine]
      rfl
    · have hcommitted := DbState.committed_answer hcommit (P.db i)
      refine ⟨h.put free ?_ (fun j hj k hk => ?_) (fun k hk => ?_) hnext, ?_⟩
      · rw [hcommitted]
        exact Rely.refl R _
      · rw [hcommitted]
        rfl
      · rw [hcommitted]
        by_cases hk' : k ∈ (P.threads i).session.pending.keys
        · exact R.trans (h.written i k hk') (hkeeps k)
        · have hview : (P.db i).view k = Rows.row P.committed k :=
            DbState.view_of_not_pending hk'
          have hnew := hkeeps k
          rw [hview] at hnew
          exact hnew
      · show Rely R P.committed (DbState.answer req (P.db i)).2.committed
        rw [hcommitted]
        exact Rely.refl R _
  | @env req next sends resp =>
    rw [sends] at hensures
    exact ⟨h.put (fun j hj => h.apart i j hj.symm) (Rely.refl R _) (fun _ _ _ _ => rfl) (h.written i) (hensures resp),
      Rely.refl R _⟩
  | @close result ends =>
    rw [ends] at hensures
    refine ⟨h.put ?_ (Rely.refl R _) (fun _ _ _ _ => rfl) ?_ hensures, Rely.refl R _⟩
    · intro j hj k hk
      cases hk
    · intro k hk
      cases hk

/-- Every run that meets the condition keeps the invariant, and its committed
rows evolve. -/
theorem runs (h : Keeps R C post P) (hruns : Pool.Runs C P Q) :
    Keeps R C post Q ∧ Rely R P.committed Q.committed := by
  induction hruns with
  | refl => exact ⟨h, Rely.refl R _⟩
  | tail _ hstep ih =>
    obtain ⟨hkeeps, hrely⟩ := ih
    obtain ⟨i, hstep, hmeets⟩ := hstep
    obtain ⟨hkeeps', hrely'⟩ := hkeeps.step hstep hmeets
    exact ⟨hkeeps', hrely.trans hrely'⟩

omit [DecidableEq ι] in
/-- A program that has ended satisfies its postcondition, now and later. -/
theorem post_of_done (h : Keeps R C post P) {result : Except ε α}
    (hdone : (P.threads i).script = .done result) : post i result P.committed := by
  have hensures := h.ensures i
  rw [hdone] at hensures
  exact hensures P.committed (Rely.refl R _)

end Keeps

omit [DecidableEq ι] in
/-- Programs in new sessions keep the invariant if each of them keeps its
triple. -/
theorem keeps_of_ensures {R : Evolution ρ} {C : DbReq ρ μ → DbState ρ μ → Bool}
    {post : ι → Except ε α → Rows ρ → Prop} {P : Pool ι ρ μ E ε α}
    (hpending : ∀ i, (P.threads i).session.pending = ∅)
    (hensures : ∀ i, Ensures R C (fun r _ t => ∀ t', Rely R t t' → post i r t')
      (P.threads i).script (P.threads i).session P.committed) : Keeps R C post P := by
  refine ⟨hensures, fun i j _ k hk => ?_, fun i k hk => ?_⟩
  · rw [hpending i] at hk
    cases hk
  · rw [hpending i] at hk
    cases hk

end

end Orm

import Mathlib.Init

/-!
# Programs that send requests

A `Script` is a program given by what it asks of its surroundings.  It either
is done, with a value or a raised error, or sends a request and goes on with
the answer.  One script has more than one meaning:

* `Script.run` answers every request by one handler over a state, which is how
  the program behaves when nothing else runs at the same time;
* the module `WorkflowEngine.Lib.Pool` interleaves the requests of several
  scripts.

`attempt` is the `try` block of a language with exceptions: it turns a raised
error into a value.  The state reached when the error is raised is kept.
-/

namespace Interact

/-- The requests of a program and the type of the answer to each of them. -/
structure Signature where
  Req : Type
  Resp : Req → Type

/-- A program over the requests of `S` that returns an `α` or raises an `ε`. -/
inductive Script (S : Signature) (ε α : Type) where
  | done (result : Except ε α)
  | call (req : S.Req) (next : S.Resp req → Script S ε α)

namespace Script

variable {S : Signature} {ε ε' α β γ σ : Type}

/-- `m`, and then `f` on its value.  A raised error ends the whole. -/
def bind : Script S ε α → (α → Script S ε β) → Script S ε β
  | done (.ok a), f => f a
  | done (.error e), _ => done (.error e)
  | call req next, f => call req (fun resp => (next resp).bind f)

instance : Monad (Script S ε) where
  pure a := done (.ok a)
  bind := bind

/-- Raise an error. -/
def raise (e : ε) : Script S ε α := done (.error e)

/-- Send one request and return the answer. -/
def send (req : S.Req) : Script S ε (S.Resp req) := call req (fun resp => done (.ok resp))

/-- A pure computation that can fail. -/
def lift (result : Except ε α) : Script S ε α := done result

/-- `try`: the error that `m` raises becomes a value. -/
def attempt : Script S ε α → Script S ε' (Except ε α)
  | done result => done (.ok result)
  | call req next => call req (fun resp => (next resp).attempt)

/-- Run a script, answering each request from a state. -/
def run (answer : (req : S.Req) → σ → S.Resp req × σ) : Script S ε α → σ → Except ε α × σ
  | done result, s => (result, s)
  | call req next, s => (next (answer req s).1).run answer (answer req s).2

/-- Sequences can be regrouped. -/
theorem bind_assoc (m : Script S ε α) (f : α → Script S ε β) (g : β → Script S ε γ) :
    (m >>= f) >>= g = m >>= fun a => f a >>= g := by
  show (m.bind f).bind g = m.bind (fun a => (f a).bind g)
  induction m with
  | done result => cases result <;> rfl
  | call req next ih =>
    show call req _ = call req _
    congr 1
    funext resp
    exact ih resp

/-! ## What a run computes -/

section Run

variable (answer : (req : S.Req) → σ → S.Resp req × σ)

@[simp] theorem run_pure (a : α) (s : σ) :
    run answer (pure a : Script S ε α) s = (.ok a, s) := rfl

@[simp] theorem run_raise (e : ε) (s : σ) :
    run answer (raise e : Script S ε α) s = (.error e, s) := rfl

@[simp] theorem run_lift (result : Except ε α) (s : σ) :
    run answer (lift result) s = (result, s) := rfl

@[simp] theorem run_send (req : S.Req) (s : σ) :
    run answer (send req : Script S ε _) s = (.ok (answer req s).1, (answer req s).2) := rfl

/-- A sequence runs its first part and hands value and state to the rest. -/
theorem run_bind (m : Script S ε α) (f : α → Script S ε β) (s : σ) :
    run answer (m >>= f) s =
      match run answer m s with
      | (.ok a, s') => run answer (f a) s'
      | (.error e, s') => (.error e, s') := by
  change run answer (m.bind f) s = _
  induction m generalizing s with
  | done result => cases result <;> rfl
  | call req next ih => exact ih _ _

theorem run_bind_ok {m : Script S ε α} {f : α → Script S ε β} {s s' : σ} {a : α}
    (h : run answer m s = (.ok a, s')) : run answer (m >>= f) s = run answer (f a) s' := by
  rw [run_bind, h]

theorem run_bind_error {m : Script S ε α} {f : α → Script S ε β} {s s' : σ} {e : ε}
    (h : run answer m s = (.error e, s')) : run answer (m >>= f) s = (.error e, s') := by
  rw [run_bind, h]

/-- Where a sequence has returned, its first part and the rest have. -/
theorem exists_of_run_bind {m : Script S ε α} {f : α → Script S ε β} {s s' : σ} {b : β}
    (h : run answer (m >>= f) s = (.ok b, s')) :
    ∃ a s₁, run answer m s = (.ok a, s₁) ∧ run answer (f a) s₁ = (.ok b, s') := by
  rcases hrun : run answer m s with ⟨result, s₁⟩
  cases result with
  | ok a => exact ⟨a, s₁, rfl, (run_bind_ok answer hrun).symm.trans h⟩
  | error e =>
    rw [run_bind_error answer hrun] at h
    cases h

/-- A `try` block reaches the state of its body and never raises. -/
@[simp] theorem run_attempt (m : Script S ε α) (s : σ) :
    run answer (attempt m : Script S ε' _) s = (.ok (run answer m s).1, (run answer m s).2) := by
  induction m generalizing s with
  | done result => rfl
  | call req next ih => exact ih _ _

end Run

/-! ## What every run keeps -/

/-- From every state with `I` the run of the script ends in a state with `I`. -/
def Maintains (answer : (req : S.Req) → σ → S.Resp req × σ) (I : σ → Prop)
    (m : Script S ε α) : Prop :=
  ∀ s, I s → I (run answer m s).2

section Maintains

variable {answer : (req : S.Req) → σ → S.Resp req × σ} {I : σ → Prop}

theorem maintains_done (result : Except ε α) : Maintains answer I (done result) := fun _ h => h

/-- The rest of a sequence has to keep `I` for the value that its first part
hands on. -/
theorem maintains_bind_at {m : Script S ε α} {f : α → Script S ε β} {s : σ}
    (hm : I (run answer m s).2)
    (hf : ∀ a s', run answer m s = (.ok a, s') → I s' → I (run answer (f a) s').2) :
    I (run answer (m >>= f) s).2 := by
  rcases hrun : run answer m s with ⟨result, s'⟩
  rw [hrun] at hm
  cases result with
  | ok a =>
    rw [run_bind_ok answer hrun]
    exact hf a s' hrun hm
  | error e =>
    rw [run_bind_error answer hrun]
    exact hm

theorem maintains_bind {m : Script S ε α} {f : α → Script S ε β} (hm : Maintains answer I m)
    (hf : ∀ a, Maintains answer I (f a)) : Maintains answer I (m >>= f) := by
  intro s hs
  apply maintains_bind_at (hm s hs)
  intro a s' _ hs'
  exact hf a s' hs'

theorem maintains_attempt {m : Script S ε α} (hm : Maintains answer I m) :
    Maintains answer I (attempt m : Script S ε' (Except ε α)) := by
  intro s hs
  rw [run_attempt]
  exact hm s hs

theorem maintains_ite {c : Prop} [Decidable c] {m m' : Script S ε α}
    (hm : Maintains answer I m) (hm' : Maintains answer I m') :
    Maintains answer I (if c then m else m') := by
  split
  · exact hm
  · exact hm'

end Maintains

/-- What every value of the last part satisfies, every value of the sequence
satisfies. -/
theorem returns_bind {answer : (req : S.Req) → σ → S.Resp req × σ} {Q : β → Prop}
    {m : Script S ε α} {f : α → Script S ε β}
    (hf : ∀ a s b s', run answer (f a) s = (.ok b, s') → Q b) :
    ∀ s b s', run answer (m >>= f) s = (.ok b, s') → Q b := by
  intro s b s' hrun
  rcases hfirst : run answer m s with ⟨result, s₁⟩
  cases result with
  | ok a =>
    rw [run_bind_ok answer hfirst] at hrun
    exact hf a s₁ b s' hrun
  | error e =>
    rw [run_bind_error answer hfirst] at hrun
    cases hrun

/-! ## The end of a script -/

/-- The script has ended with a value. -/
def succeeded : Script S ε α → Bool
  | done (.ok _) => true
  | done (.error _) => false
  | call _ _ => false

theorem eq_done_of_succeeded {m : Script S ε Unit} (h : m.succeeded = true) : m = done (.ok ()) := by
  cases m with
  | done result =>
    cases result with
    | ok a => rfl
    | error e => cases h
  | call req next => cases h

end Script

end Interact

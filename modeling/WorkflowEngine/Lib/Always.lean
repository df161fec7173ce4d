import WorkflowEngine.Lib.Script

/-!
# What holds at every request of a run

`Script.Maintains` speaks about the state in which a run ends.  `Always P` says
that `P` holds at every request that the run sends, of the request and of the state
in which it is sent.  With a `P` that speaks about the state before and after the
answer, this is what a run does step by step; `Always.invariant` is the induction
over these steps.
-/

namespace Interact

namespace Script

variable {S : Signature} {ε ε' α β σ : Type}

/-- `P` holds at every request that the run of the script sends. -/
def Always (answer : (req : S.Req) → σ → S.Resp req × σ) (P : S.Req → σ → Prop) :
    Script S ε α → σ → Prop
  | done _, _ => True
  | call req next, s => P req s ∧ (next (answer req s).1).Always answer P (answer req s).2

section

variable {answer : (req : S.Req) → σ → S.Resp req × σ} {P Q : S.Req → σ → Prop} {s : σ}

theorem always_of_forall (h : ∀ req s, P req s) (m : Script S ε α) (s : σ) :
    Always answer P m s := by
  induction m generalizing s with
  | done result => trivial
  | call req next ih => exact ⟨h req s, ih _ _⟩

@[simp] theorem always_pure (a : α) : Always answer P (pure a : Script S ε α) s := trivial

@[simp] theorem always_raise (e : ε) : Always answer P (raise e : Script S ε α) s := trivial

theorem always_send_iff {req : S.Req} :
    Always answer P (send req : Script S ε (S.Resp req)) s ↔ P req s := and_iff_left trivial

/-- The requests of a sequence are those of its first part, and those of the rest
where the first part has returned. -/
theorem always_bind_iff {m : Script S ε α} {f : α → Script S ε β} :
    Always answer P (m >>= f) s ↔ Always answer P m s ∧
      ∀ a s', run answer m s = (.ok a, s') → Always answer P (f a) s' := by
  show Always answer P (m.bind f) s ↔ _
  induction m generalizing s with
  | done result =>
    cases result with
    | ok a =>
      constructor
      · intro h
        refine ⟨trivial, fun a' s' hrun => ?_⟩
        cases hrun
        exact h
      · exact fun h => h.2 a s rfl
    | error e =>
      refine ⟨fun _ => ⟨trivial, fun a s' hrun => ?_⟩, fun _ => trivial⟩
      cases hrun
  | call req next ih =>
    show P req s ∧ _ ↔ (P req s ∧ _) ∧ _
    rw [ih, and_assoc]
    rfl

/-- A `try` block sends the requests of its body. -/
theorem always_attempt_iff {m : Script S ε α} :
    Always answer P (attempt m : Script S ε' (Except ε α)) s ↔ Always answer P m s := by
  induction m generalizing s with
  | done result => exact Iff.rfl
  | call req next ih => exact and_congr_right fun _ => ih _

theorem always_bind {m : Script S ε α} {f : α → Script S ε β} (hm : Always answer P m s)
    (hf : ∀ a s', run answer m s = (.ok a, s') → Always answer P (f a) s') :
    Always answer P (m >>= f) s := always_bind_iff.mpr ⟨hm, hf⟩

namespace Always

variable {m : Script S ε α}

theorem imp (h : Always answer P m s) (himp : ∀ req s, P req s → Q req s) :
    Always answer Q m s := by
  induction m generalizing s with
  | done result => trivial
  | call req next ih => exact ⟨himp req s h.1, ih _ h.2⟩

theorem and (h : Always answer P m s) (h' : Always answer Q m s) :
    Always answer (fun req s => P req s ∧ Q req s) m s := by
  induction m generalizing s with
  | done result => trivial
  | call req next ih => exact ⟨⟨h.1, h'.1⟩, ih _ h.2 h'.2⟩

/-- An invariant that every step keeps holds before and after every step. -/
theorem invariant {I : σ → Prop} (h : Always answer P m s) (hs : I s)
    (hstep : ∀ req s, I s → P req s → I (answer req s).2) :
    Always answer (fun req s => I s ∧ I (answer req s).2) m s := by
  induction m generalizing s with
  | done result => trivial
  | call req next ih =>
    have hnext : I (answer req s).2 := hstep req s hs h.1
    exact ⟨⟨hs, hnext⟩, ih _ h.2 hnext⟩

/-- It holds in the end. -/
theorem run_of_invariant {I : σ → Prop} (h : Always answer P m s) (hs : I s)
    (hstep : ∀ req s, I s → P req s → I (answer req s).2) : I (run answer m s).2 := by
  induction m generalizing s with
  | done result => exact hs
  | call req next ih => exact ih _ h.2 (hstep req s hs h.1)

end Always

/-- Whether a condition holds at every request of a run can be computed. -/
instance decidableAlways [∀ req s, Decidable (P req s)] :
    (m : Script S ε α) → (s : σ) → Decidable (Always answer P m s)
  | done _, _ => .isTrue trivial
  | call req next, s =>
    haveI : Decidable (Always answer P (next (answer req s).1) (answer req s).2) :=
      decidableAlways (next (answer req s).1) (answer req s).2
    inferInstanceAs (Decidable (_ ∧ _))

end

end Script

end Interact

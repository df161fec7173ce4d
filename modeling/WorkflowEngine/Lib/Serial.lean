import Mathlib.Logic.Relation
import WorkflowEngine.Lib.Always

/-!
# Scripts that run one after another

A machine keeps a state `τ` between its scripts.  A script is entered in a state `σ`
of its own, sends its requests one by one, and leaves a state `τ` when it is done.
`Moves` are the moves of such a machine, so that the moments in the middle of a script
are states that it reaches too.

`meets` restricts the requests.  With `meets` true of every request, the moves are all
that the machine can do; with a condition they are the moves of the runs in which every
request meets it.
-/

namespace Interact

/-- A moment between two scripts, or in the middle of one: what is left of it, and the
state that it works on. -/
inductive Moment (S : Signature) (ε α τ σ : Type) where
  | idle (t : τ)
  | busy (rest : Script S ε α) (s : σ)

/-- What the machine is made of: the scripts and the states in which they are entered,
the answers, what a script leaves, and what else may happen between two scripts. -/
structure Serial (S : Signature) (ε α τ σ : Type) where
  enters : τ → Script S ε α → σ → Prop
  answer : (req : S.Req) → σ → S.Resp req × σ
  leave : σ → τ
  between : τ → τ → Prop

namespace Serial

variable {S : Signature} {ε α τ σ : Type}

/-- One move, where every request meets a condition. -/
inductive Moves (machine : Serial S ε α τ σ) (meets : S.Req → σ → Prop) :
    Moment S ε α τ σ → Moment S ε α τ σ → Prop
  | enter {t : τ} {m : Script S ε α} {s : σ} (h : machine.enters t m s) :
      Moves machine meets (.idle t) (.busy m s)
  | request {req : S.Req} {next : S.Resp req → Script S ε α} {s : σ} (h : meets req s) :
      Moves machine meets (.busy (.call req next) s)
        (.busy (next (machine.answer req s).1) (machine.answer req s).2)
  | leave (result : Except ε α) (s : σ) :
      Moves machine meets (.busy (.done result) s) (.idle (machine.leave s))
  | between {t t' : τ} (h : machine.between t t') : Moves machine meets (.idle t) (.idle t')

/-- The moments that are reached by such moves. -/
def Reaches (machine : Serial S ε α τ σ) (meets : S.Req → σ → Prop)
    (first last : Moment S ε α τ σ) : Prop :=
  Relation.ReflTransGen (Moves machine meets) first last

/-- `I` holds between two scripts, and `J` in the middle of one. -/
def Holds (I : τ → Prop) (J : σ → Prop) : Moment S ε α τ σ → Prop
  | .idle t => I t
  | .busy _ s => J s

variable {machine : Serial S ε α τ σ} {meets : S.Req → σ → Prop} {first last : Moment S ε α τ σ}

/-- The invariant rule: `P` is what is known of every request of the scripts, wherever
they are entered. -/
structure Inductive (machine : Serial S ε α τ σ) (meets : S.Req → σ → Prop) (I : τ → Prop)
    (J : σ → Prop) (P : S.Req → σ → Prop) : Prop where
  enter : ∀ {t m s}, I t → machine.enters t m s → J s ∧ m.Always machine.answer P s
  request : ∀ {req s}, J s → P req s → meets req s → J (machine.answer req s).2
  leave : ∀ {s}, J s → I (machine.leave s)
  between : ∀ {t t'}, I t → machine.between t t' → I t'

/-- What is known of the rest of a script is part of the invariant. -/
theorem Inductive.holds {I : τ → Prop} {J : σ → Prop} {P : S.Req → σ → Prop}
    (h : Inductive machine meets I J P) {t : τ} (ht : I t)
    (hreaches : machine.Reaches meets (.idle t) last) : Holds I J last := by
  have hinvariant : Holds I J last ∧ ∀ rest s, last = .busy rest s →
      Script.Always machine.answer P rest s := by
    unfold Reaches at hreaches
    induction hreaches with
    | refl => exact ⟨ht, nofun⟩
    | tail _ hmove ih =>
      cases hmove with
      | enter henter =>
        have hentered := h.enter ih.1 henter
        refine ⟨hentered.1, fun rest s heq => ?_⟩
        cases heq
        exact hentered.2
      | request hmeets =>
        have halways := ih.2 _ _ rfl
        refine ⟨h.request ih.1 halways.1 hmeets, fun rest s heq => ?_⟩
        cases heq
        exact halways.2
      | leave result s => exact ⟨h.leave ih.1, nofun⟩
      | between hbetween => exact ⟨h.between ih.1 hbetween, nofun⟩
  exact hinvariant.1

/-- What every script that is entered leaves as it was holds between two scripts.  In the
middle of one it may not hold, but it will when the rest has run. -/
theorem holds_idle {I : τ → Prop}
    (hruns : ∀ {t m s}, I t → machine.enters t m s → I (machine.leave (m.run machine.answer s).2))
    (hbetween : ∀ {t t'}, I t → machine.between t t' → I t') {t t' : τ} (ht : I t)
    (hreaches : machine.Reaches meets (.idle t) (.idle t')) : I t' := by
  have hinvariant : ∀ last, machine.Reaches meets (.idle t) last →
      (∀ t₁, last = .idle t₁ → I t₁) ∧ ∀ rest s, last = .busy rest s →
        I (machine.leave (Script.run machine.answer rest s).2) := by
    intro last hlast
    unfold Reaches at hlast
    induction hlast with
    | refl =>
      refine ⟨fun t₁ heq => ?_, nofun⟩
      cases heq
      exact ht
    | tail _ hmove ih =>
      cases hmove with
      | enter henter =>
        refine ⟨nofun, fun rest s heq => ?_⟩
        cases heq
        exact hruns (ih.1 _ rfl) henter
      | request hmeets =>
        have hrest := ih.2 _ _ rfl
        refine ⟨nofun, fun rest s heq => ?_⟩
        cases heq
        exact hrest
      | leave result s =>
        refine ⟨fun t₁ heq => ?_, nofun⟩
        cases heq
        exact ih.2 _ _ rfl
      | between hmove =>
        refine ⟨fun t₁ heq => ?_, nofun⟩
        cases heq
        exact hbetween (ih.1 _ rfl) hmove
  exact (hinvariant _ hreaches).1 t' rfl

/-- A script that is entered runs to its end. -/
theorem reaches_run {m : Script S ε α} {s : σ} (h : m.Always machine.answer meets s) :
    machine.Reaches meets (.busy m s) (.idle (machine.leave (m.run machine.answer s).2)) := by
  induction m generalizing s with
  | done result => exact Relation.ReflTransGen.single (.leave result s)
  | call req next ih => exact Relation.ReflTransGen.head (.request h.1) (ih _ h.2)

end Serial

end Interact

import Mathlib.Logic.Relation
import Mathlib.Order.WellFounded

/-!
# Records that name an earlier one

Each record may name one other as the record that it comes from.  Where these chains end,
every record has one root, and what a child inherits from its parent comes from the root.
Chains still end after new records have come that name old ones.
-/

namespace Ancestry

variable {α : Type*} {parent parent' : α → Option α}

/-- `a` is the record that `b` comes from. -/
def Parent (parent : α → Option α) (a b : α) : Prop := parent b = some a

/-- The chain that begins at `b` reaches `a`. -/
abbrev Ancestor (parent : α → Option α) : α → α → Prop := Relation.ReflTransGen (Parent parent)

/-- Every chain ends. -/
def Grounded (parent : α → Option α) : Prop := WellFounded (Parent parent)

theorem grounded_of_forall_none (h : ∀ a, parent a = none) : Grounded parent := by
  refine ⟨fun b => ⟨b, fun a ha => ?_⟩⟩
  rw [Parent, h b] at ha
  cases ha

/-- Old records name old ones as before, and new records name old ones. -/
theorem Grounded.grown (h : Grounded parent) (old : α → Prop)
    (hold : ∀ a b, old b → parent' b = some a → parent b = some a ∧ old a)
    (hnew : ∀ a b, ¬ old b → parent' b = some a → old a) : Grounded parent' := by
  have hacc : ∀ b, old b → Acc (Parent parent') b := by
    intro b
    induction b using h.induction with
    | _ b ih =>
      intro hb
      refine ⟨b, fun a ha => ?_⟩
      rcases hold a b hb ha with ⟨hparent, ha'⟩
      exact ih a hparent ha'
  refine ⟨fun b => ?_⟩
  by_cases hb : old b
  · exact hacc b hb
  · exact ⟨b, fun a ha => hacc a (hnew a b hb ha)⟩

/-- Every record has a root. -/
theorem Grounded.exists_root (h : Grounded parent) (a : α) :
    ∃ root, Ancestor parent root a ∧ parent root = none := by
  induction a using h.induction with
  | _ a ih =>
    cases hparent : parent a with
    | none => exact ⟨a, .refl, hparent⟩
    | some b =>
      rcases ih b hparent with ⟨root, hroot, hnone⟩
      exact ⟨root, hroot.tail hparent, hnone⟩

/-- Above a root there is nothing. -/
theorem eq_of_ancestor_root {a root : α} (hroot : parent root = none) (h : Ancestor parent a root) :
    a = root := by
  rcases Relation.ReflTransGen.cases_tail h with heq | ⟨b, -, hb⟩
  · exact heq.symm
  · rw [Parent, hroot] at hb
    cases hb

/-- Two roots of a record are one. -/
theorem root_unique {a root root' : α} (h : Ancestor parent root a) (hroot : parent root = none)
    (h' : Ancestor parent root' a) (hroot' : parent root' = none) : root = root' := by
  have hunique : Relator.RightUnique (Function.swap (Parent parent)) := by
    intro b c c' hc hc'
    exact Option.some.inj (Eq.trans (Eq.symm hc) hc')
  rcases Relation.ReflTransGen.total_of_right_unique hunique (Relation.reflTransGen_swap.mpr h)
    (Relation.reflTransGen_swap.mpr h') with habove | habove
  · exact (eq_of_ancestor_root hroot (Relation.reflTransGen_swap.mp habove)).symm
  · exact eq_of_ancestor_root hroot' (Relation.reflTransGen_swap.mp habove)

end Ancestry

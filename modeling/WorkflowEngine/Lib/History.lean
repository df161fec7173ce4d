import Mathlib.Init

/-!
# States over time

A history lists the states that something has been in, oldest first.  A reader
that holds a copy may be late: `SeenSince history n p` says that `p` held in some
state that is not older than the moment `n`, and this stays true while the
history grows.

`Standing` speaks of a history of events: one event did something, and no later
one undid it.  Whether an event undoes it may depend on all that was before.
-/

namespace History

variable {α : Type} {history : List α} {n m : Nat} {p q : α → Prop}

/-- At the moment `n` or later there was a state with `p`. -/
def SeenSince (history : List α) (n : Nat) (p : α → Prop) : Prop :=
  ∃ (m : Nat) (state : α), n ≤ m ∧ history[m]? = some state ∧ p state

namespace SeenSince

/-- What was seen since `n` was seen since any earlier moment. -/
theorem mono (h : SeenSince history n p) (hle : m ≤ n) : SeenSince history m p := by
  rcases h with ⟨k, state, hk, hstate, hp⟩
  exact ⟨k, state, by omega, hstate, hp⟩

theorem imp (h : SeenSince history n p) (hpq : ∀ state, p state → q state) :
    SeenSince history n q := by
  rcases h with ⟨k, state, hk, hstate, hp⟩
  exact ⟨k, state, hk, hstate, hpq state hp⟩

/-- It is not forgotten. -/
theorem append (h : SeenSince history n p) (later : List α) : SeenSince (history ++ later) n p := by
  rcases h with ⟨k, state, hk, hstate, hp⟩
  refine ⟨k, state, hk, ?_, hp⟩
  have hlt : k < history.length := (List.getElem?_eq_some_iff.mp hstate).1
  rw [List.getElem?_append_left hlt]
  exact hstate

/-- The newest state is seen since every moment there has been. -/
theorem of_getLast? {state : α} (hlast : history.getLast? = some state) (hp : p state)
    (hn : n < history.length) : SeenSince history n p := by
  rw [List.getLast?_eq_getElem?] at hlast
  exact ⟨history.length - 1, state, by omega, hlast, hp⟩

end SeenSince

/-- An event that `made` something, and after it none that undid it. -/
def Standing (made : α → Prop) (undoes : List α → α → Prop) (history : List α) : Prop :=
  ∃ pre event post, history = pre ++ event :: post ∧ made event ∧
    ∀ between later rest, post = between ++ later :: rest →
      ¬ undoes (pre ++ event :: between) later

namespace Standing

variable {made : α → Prop} {undoes : List α → α → Prop}

theorem not_nil : ¬ Standing made undoes [] := by
  rintro ⟨pre, event, post, hnil, -⟩
  simp at hnil

/-- What stands after one more event: what that event made, or what stood before
and was not undone by it. -/
theorem concat_iff {latest : α} :
    Standing made undoes (history ++ [latest]) ↔
      made latest ∨ Standing made undoes history ∧ ¬ undoes history latest := by
  constructor
  · rintro ⟨pre, event, post, hhistory, hmade, hnone⟩
    rcases List.eq_nil_or_concat post with rfl | ⟨post, last, rfl⟩
    · -- the latest event is the one that made it
      obtain ⟨-, heq⟩ := List.append_inj' hhistory rfl
      cases heq
      exact .inl hmade
    · have hhistory : history ++ [latest] = (pre ++ event :: post) ++ [last] := by
        simpa using hhistory
      obtain ⟨rfl, heq⟩ := List.append_inj' hhistory rfl
      cases heq
      refine .inr ⟨⟨pre, event, post, rfl, hmade, fun between later rest hpost => ?_⟩, ?_⟩
      · exact hnone between later (rest ++ [latest]) (by simp [hpost])
      · exact hnone post latest [] (by simp)
  · rintro (hmade | ⟨⟨pre, event, post, rfl, hmade, hnone⟩, hkept⟩)
    · refine ⟨history, latest, [], rfl, hmade, fun between later rest hpost => ?_⟩
      simp at hpost
    · refine ⟨pre, event, post ++ [latest], by simp, hmade, fun between later rest hpost => ?_⟩
      rcases List.eq_nil_or_concat rest with rfl | ⟨rest, last, rfl⟩
      · obtain ⟨rfl, heq⟩ := List.append_inj' hpost rfl
        cases heq
        exact hkept
      · have hpost : post ++ [latest] = (between ++ later :: rest) ++ [last] := by
          simpa using hpost
        obtain ⟨rfl, -⟩ := List.append_inj' hpost rfl
        exact hnone between later rest rfl

end Standing

end History

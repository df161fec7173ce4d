import Mathlib.Data.List.Basic

/-!
# Bounds over every interval

How many of some times lie in an interval of a given length, with both of its ends,
and how a bound on that is kept when a last time is added.
-/

namespace Window

/-- The times in the interval. -/
def within (length start : Nat) (times : List Nat) : List Nat :=
  times.filter (fun t => start ≤ t ∧ t ≤ start + length)

/-- The times that are at most `length` old. -/
def recent (length now : Nat) (times : List Nat) : List Nat :=
  times.filter (fun t => now ≤ t + length)

/-- No interval of this length has more times in it than the bound says. -/
def Bounded (length bound : Nat) (times : List Nat) : Prop :=
  ∀ start, (within length start times).length ≤ bound

theorem bounded_nil (length bound : Nat) : Bounded length bound [] := fun _ => Nat.zero_le _

/-- An interval that does not end before `now` has recent times only. -/
theorem within_le_recent {length start now : Nat} {times : List Nat} (h : now ≤ start + length) :
    (within length start times).length ≤ (recent length now times).length := by
  refine List.Sublist.length_le (List.monotone_filter_right _ fun t ht => ?_)
  have hrange := of_decide_eq_true ht
  exact decide_eq_true (by omega)

/-- A last time keeps the bound where the recent ones leave room. -/
theorem Bounded.cons {length bound now : Nat} {times : List Nat} (h : Bounded length bound times)
    (hroom : (recent length now times).length < bound) : Bounded length bound (now :: times) := by
  intro start
  by_cases hin : start ≤ now ∧ now ≤ start + length
  · have hsplit : within length start (now :: times) = now :: within length start times :=
      List.filter_cons_of_pos (decide_eq_true hin)
    rw [hsplit, List.length_cons]
    exact Nat.succ_le_of_lt (Nat.lt_of_le_of_lt (within_le_recent hin.2) hroom)
  · have hsplit : within length start (now :: times) = within length start times :=
      List.filter_cons_of_neg (by simpa using hin)
    rw [hsplit]
    exact h start

end Window

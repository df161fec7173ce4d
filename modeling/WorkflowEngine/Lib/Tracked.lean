/-!
# Change tracking of a mapped attribute that holds a mutable value

An object-relational mapper writes an attribute back at a flush when the value
differs from the one it remembers, and it remembers a value at the first
assignment since the last flush.  What it remembers is a reference, so a value
that was changed in place before it was assigned again is remembered in its
changed form, and the flush finds no difference.

`Remembered` keeps what matters of the reference: nothing is remembered, the
remembered object is the current one, or it is another object with a value of
its own.
-/

namespace Orm

/-- What the mapper remembers of an attribute since the last flush. -/
inductive Remembered (V : Type) where
  | nothing
  | current
  | other (value : V)

/-- An attribute of a loaded object. -/
structure Tracked (V : Type) where
  value : V
  remembered : Remembered V

namespace Tracked

variable {V : Type}

/-- The attribute after its row was loaded. -/
def load (v : V) : Tracked V := ⟨v, .nothing⟩

/-- Change the current object in place.  The mapper does not see it. -/
def mutate (f : V → V) (a : Tracked V) : Tracked V := { a with value := f a.value }

/-- Assign the current object to the attribute again. -/
def reassign (a : Tracked V) : Tracked V :=
  match a.remembered with
  | .nothing => { a with remembered := .current }
  | _ => a

/-- Assign a new object. -/
def assign (v : V) (a : Tracked V) : Tracked V :=
  match a.remembered with
  | .other old => ⟨v, .other old⟩
  | _ => ⟨v, .other a.value⟩

/-- The value that a flush writes to the row, if it writes one: an object is
equal to itself, and another object is compared by `eq`. -/
def written (eq : V → V → Bool) (a : Tracked V) : Option V :=
  match a.remembered with
  | .other old => if eq a.value old then none else some a.value
  | _ => none

/-- The attribute after a flush. -/
def flush (a : Tracked V) : Tracked V := ⟨a.value, .nothing⟩

@[simp] theorem load_value (v : V) : (load v).value = v := rfl

@[simp] theorem flush_value (a : Tracked V) : a.flush.value = a.value := rfl

@[simp] theorem assign_value (v : V) (a : Tracked V) : (a.assign v).value = v := by
  unfold assign
  split <;> rfl

/-- A flush writes the current value, if it writes one. -/
theorem eq_value_of_written {eq : V → V → Bool} {a : Tracked V} {v : V}
    (h : a.written eq = some v) : v = a.value := by
  unfold written at h
  split at h
  · split at h
    · cases h
    · exact (Option.some.inj h).symm
  · cases h

end Tracked

end Orm

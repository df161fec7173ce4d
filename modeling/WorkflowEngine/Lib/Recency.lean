import Mathlib.Data.List.Dedup

/-!
# Lists in the order of last use

A list of uses says what was used, oldest use first, and `byLastUse` lists each
thing once, at the place of its last use.  `Ordered uses held` says that the
things `held` are listed in that order.  It is kept when things are taken out and
when a thing that is used goes to the end, which is all that a cache with the
rule of the least recently used does.
-/

namespace Recency

variable {α : Type} [DecidableEq α]

/-- Each thing that was used, in the order of the last uses. -/
def byLastUse (uses : List α) : List α := uses.dedup

theorem nodup_byLastUse (uses : List α) : (byLastUse uses).Nodup := List.nodup_dedup uses

/-- A use puts a thing at the end, and keeps the order of the others. -/
theorem byLastUse_concat (uses : List α) (x : α) :
    byLastUse (uses ++ [x]) = (byLastUse uses).filter (· ≠ x) ++ [x] := by
  unfold byLastUse
  induction uses with
  | nil => rfl
  | cons y uses ih =>
    rw [List.cons_append]
    by_cases hy : y ∈ uses
    · rw [List.dedup_cons_of_mem (List.mem_append_left _ hy), List.dedup_cons_of_mem hy, ih]
    · rw [List.dedup_cons_of_notMem hy]
      by_cases hx : y = x
      · rw [List.dedup_cons_of_mem (by simp [hx]), ih]
        simp [hx]
      · rw [List.dedup_cons_of_notMem (by simp [hy, hx]), ih]
        simp [hx]

/-- The things held are listed in the order of their last use. -/
def Ordered (uses held : List α) : Prop := held = (byLastUse uses).filter (· ∈ held)

/-- A sublist of a list without duplicates is what is left of it when the other
elements are taken out. -/
theorem eq_filter_of_sublist {held all : List α} (hall : all.Nodup) (h : held.Sublist all) :
    held = all.filter (· ∈ held) := by
  induction h with
  | slnil => rfl
  | @cons held all x h ih =>
    have hx : x ∉ held := fun hmem => (List.nodup_cons.mp hall).1 (h.subset hmem)
    rw [List.filter_cons_of_neg (by simpa using hx)]
    exact ih (List.nodup_cons.mp hall).2
  | @cons_cons held all x h ih =>
    obtain ⟨hx, hall⟩ := List.nodup_cons.mp hall
    have hsame : all.filter (· ∈ x :: held) = all.filter (· ∈ held) := by
      refine List.filter_congr fun y hy => ?_
      have hne : y ≠ x := fun heq => hx (heq ▸ hy)
      simp [hne]
    rw [List.filter_cons_of_pos (by simp), hsame, ← ih hall]

theorem ordered_iff {uses held : List α} : Ordered uses held ↔ held.Sublist (byLastUse uses) := by
  constructor
  · intro h
    rw [h]
    exact List.filter_sublist
  · exact eq_filter_of_sublist (nodup_byLastUse uses)

namespace Ordered

variable {uses held kept : List α}

theorem nil : Ordered uses ([] : List α) := ordered_iff.mpr (List.nil_sublist _)

/-- What is taken out does not change the order of the rest. -/
theorem sublist (h : Ordered uses held) (hkept : kept.Sublist held) : Ordered uses kept :=
  ordered_iff.mpr (hkept.trans (ordered_iff.mp h))

/-- The thing that is used goes to the end. -/
theorem use (h : Ordered uses held) (x : α) :
    Ordered (uses ++ [x]) (held.filter (· ≠ x) ++ [x]) := by
  rw [ordered_iff, byLastUse_concat]
  exact ((ordered_iff.mp h).filter _).append (List.Sublist.refl _)

/-- What is held apart from some things, in the order of the last uses. -/
theorem filter (h : Ordered uses held) (p : α → Bool) :
    held.filter p = (byLastUse uses).filter (fun x => decide (x ∈ held) && p x) := by
  have hfilter : (byLastUse uses).filter (fun x => decide (x ∈ held) && p x) =
      ((byLastUse uses).filter (· ∈ held)).filter p := by
    rw [List.filter_filter]
    exact List.filter_congr fun x _ => Bool.and_comm _ _
  rw [hfilter, ← h]

end Ordered

/-- A list with room for `size` things loses its first one, and only when it is
full, if one more is to fit. -/
theorem not_mem_drop_iff {held : List α} {size : Nat} (hnodup : held.Nodup)
    (hlength : held.length ≤ size) (hsize : 1 ≤ size) {x : α} (hx : x ∈ held) :
    x ∉ held.drop (held.length + 1 - size) ↔ held.length = size ∧ held.head? = some x := by
  by_cases hfull : held.length = size
  · have hone : held.length + 1 - size = 1 := by omega
    rw [hone]
    cases held with
    | nil =>
      rw [List.length_nil] at hfull
      omega
    | cons first rest =>
      obtain ⟨hfirst, -⟩ := List.nodup_cons.mp hnodup
      rw [List.drop_one, List.tail_cons, List.head?_cons, Option.some.injEq]
      constructor
      · intro hnot
        rcases List.mem_cons.mp hx with rfl | hrest
        · exact ⟨hfull, rfl⟩
        · exact absurd hrest hnot
      · rintro ⟨-, rfl⟩
        exact hfirst
  · have hroom : held.length + 1 - size = 0 := by omega
    rw [hroom, List.drop_zero]
    exact iff_of_false (fun hnot => hnot hx) (fun h => hfull h.1)

end Recency

import Mathlib.Data.Finset.Sort

/-!
# Keyset pagination

The rows of a table have keys in a linear order, and a page is the first
`limit` keys above a cursor.  One key more than that is looked at, and if it is
there then the cursor of the next page is the last key of this one.

A reader asks for page after page until a page has no cursor, while the table
changes between the pages: `s i` are the keys when page `i` is read.  The
module proves of such a reader that

* what it received is strictly increasing (`Reads.sorted`);
* a key that was there all the time is received (`Reads.complete`);
* it ends, if all keys are in one finite set (`exists_ended`).

`follow` is a reader of pages whose rows and cursors are anything; `Serves`
relates it to pages of keys.
-/

namespace Keyset

/-- What a reader has received, and where it goes on. -/
structure Reader (α γ : Type*) where
  received : List α := []
  cursor : Option γ := none
  ended : Bool := false

/-- The reader after one page. -/
def Reader.take {α γ : Type*} (r : Reader α γ) (answer : List α × Option γ) : Reader α γ :=
  ⟨r.received ++ answer.1, answer.2, answer.2.isNone⟩

/-- The reader that follows the cursors, after at most `n` pages. -/
def follow {α γ ε : Type*} (ask : ℕ → Option γ → Except ε (List α × Option γ)) :
    ℕ → Except ε (Reader α γ)
  | 0 => .ok {}
  | n + 1 => do
    let r ← follow ask n
    if r.ended then return r
    let answer ← ask n r.cursor
    return r.take answer

variable {κ : Type*} [LinearOrder κ] {limit : ℕ} {s : Finset κ} {cursor : Option κ} {k c : κ}

/-- The keys above the cursor. -/
def above (s : Finset κ) (cursor : Option κ) : Finset κ :=
  s.filter (fun k => ∀ c ∈ cursor, c < k)

theorem mem_above : k ∈ above s cursor ↔ k ∈ s ∧ ∀ c ∈ cursor, c < k := Finset.mem_filter

/-- The keys in order. -/
def inOrder (s : Finset κ) : List κ := s.sort (· ≤ ·)

theorem mem_inOrder : k ∈ inOrder s ↔ k ∈ s := Finset.mem_sort _

theorem length_inOrder : (inOrder s).length = s.card := Finset.length_sort _

theorem sorted_inOrder : (inOrder s).Pairwise (· < ·) := s.sortedLT_sort.pairwise

/-- One page of keys and the cursor of the next. -/
def page (limit : ℕ) (s : Finset κ) (cursor : Option κ) : List κ × Option κ :=
  let rows := (inOrder (above s cursor)).take (limit + 1)
  (rows.take limit, if limit < rows.length then (rows.take limit).getLast? else none)

/-! ## One page -/

theorem page_fst : (page limit s cursor).1 = (inOrder (above s cursor)).take limit := by
  show List.take limit (List.take (limit + 1) _) = _
  rw [List.take_take, Nat.min_eq_left (Nat.le_succ limit)]

theorem page_snd : (page limit s cursor).2 =
    if limit < (above s cursor).card then (page limit s cursor).1.getLast? else none := by
  have hlength : limit < ((inOrder (above s cursor)).take (limit + 1)).length ↔
      limit < (above s cursor).card := by
    rw [List.length_take, length_inOrder]
    omega
  show (if limit < ((inOrder (above s cursor)).take (limit + 1)).length then _ else _) = _
  simp only [hlength]
  rfl

/-- A page is strictly increasing. -/
theorem sorted_page : (page limit s cursor).1.Pairwise (· < ·) := by
  rw [page_fst]
  exact sorted_inOrder.sublist (List.take_sublist _ _)

/-- The keys of a page are above the cursor. -/
theorem mem_of_mem_page (h : k ∈ (page limit s cursor).1) : k ∈ above s cursor := by
  rw [page_fst] at h
  exact mem_inOrder.mp (List.mem_of_mem_take h)

/-- A page that is not the last one is full, and its cursor is its last key. -/
theorem page_of_some (h : (page limit s cursor).2 = some c) :
    (page limit s cursor).1.length = limit ∧ (page limit s cursor).1.getLast? = some c := by
  rw [page_snd] at h
  by_cases hmore : limit < (above s cursor).card
  · rw [if_pos hmore] at h
    refine ⟨?_, h⟩
    rw [page_fst, List.length_take, length_inOrder]
    omega
  · rw [if_neg hmore] at h
    cases h

/-- In a strictly increasing list nothing is greater than the last key. -/
theorem le_getLast {l : List κ} (hsorted : l.Pairwise (· < ·)) (hlast : l.getLast? = some c)
    (h : k ∈ l) : k ≤ c := by
  rcases List.getLast?_eq_some_iff.mp hlast with ⟨init, rfl⟩
  rcases List.mem_append.mp h with hinit | hend
  · exact le_of_lt ((List.pairwise_append.mp hsorted).2.2 k hinit c (List.mem_singleton.mpr rfl))
  · exact le_of_eq (List.mem_singleton.mp hend)

/-- A key above the cursor is on the page, if it is not above the next cursor. -/
theorem mem_page (hpos : 0 < limit) (h : k ∈ above s cursor)
    (hnext : ∀ c ∈ (page limit s cursor).2, k ≤ c) : k ∈ (page limit s cursor).1 := by
  have hmem : k ∈ inOrder (above s cursor) := mem_inOrder.mpr h
  rw [page_fst]
  by_cases hmore : limit < (above s cursor).card
  · rw [← List.take_append_drop limit (inOrder (above s cursor))] at hmem
    rcases List.mem_append.mp hmem with htake | hdrop
    · exact htake
    · -- A key behind this page is above its last key.
      have hne : (page limit s cursor).1 ≠ [] := by
        rw [page_fst]
        apply List.ne_nil_of_length_pos
        rw [List.length_take, length_inOrder]
        omega
      obtain ⟨last, hlast⟩ : ∃ last, (page limit s cursor).1.getLast? = some last :=
        ⟨_, List.getLast?_eq_getLast_of_ne_nil hne⟩
      have hle : k ≤ last := hnext last (by rw [page_snd, if_pos hmore, hlast]; rfl)
      have hsorted : (inOrder (above s cursor)).Pairwise (· < ·) := sorted_inOrder
      rw [← List.take_append_drop limit (inOrder (above s cursor))] at hsorted
      rw [page_fst] at hlast
      have hlt := (List.pairwise_append.mp hsorted).2.2 last (List.mem_of_getLast? hlast) k hdrop
      exact absurd hlt (not_lt.mpr hle)
  · rwa [List.take_of_length_le (by rw [length_inOrder]; omega)]

/-! ## A reader of keys -/

/-- The reader of the pages of `s i`, after at most `n` pages. -/
def read (limit : ℕ) (s : ℕ → Finset κ) : ℕ → Reader κ κ
  | 0 => {}
  | n + 1 =>
    let r := read limit s n
    if r.ended then r else r.take (page limit (s n) r.cursor)

/-- What holds of a reader after at most `n` pages. -/
structure Reads (limit : ℕ) (s : ℕ → Finset κ) (n : ℕ) (r : Reader κ κ) : Prop where
  sorted : r.received.Pairwise (· < ·)
  cursor : r.ended = false → r.cursor = r.received.getLast?
  seen : ∀ k ∈ r.received, ∃ i < n, k ∈ s i
  complete : ∀ k, (∀ i < n, k ∈ s i) → (r.ended = false → ∃ c ∈ r.cursor, k ≤ c) → k ∈ r.received
  length : r.ended = false → n * limit ≤ r.received.length

variable {s : ℕ → Finset κ} {n : ℕ} {r : Reader κ κ}

theorem Reads.nil : Reads limit s 0 ({} : Reader κ κ) where
  sorted := .nil
  cursor _ := rfl
  seen _ hk := by cases hk
  complete _ _ hcursor := by
    rcases hcursor rfl with ⟨_, hc, -⟩
    cases hc
  length _ := by simp

/-- An ended reader asks no more. -/
theorem Reads.stay (h : Reads limit s n r) (hended : r.ended = true) : Reads limit s (n + 1) r where
  sorted := h.sorted
  cursor := h.cursor
  seen k hk := by
    rcases h.seen k hk with ⟨i, hi, hki⟩
    exact ⟨i, Nat.lt_succ_of_lt hi, hki⟩
  complete k hk hcursor := h.complete k (fun i hi => hk i (Nat.lt_succ_of_lt hi)) hcursor
  length hopen := by
    rw [hended] at hopen
    cases hopen

/-- The keys of the next page are above those received. -/
theorem Reads.lt_page (h : Reads limit s n r) (hopen : r.ended = false) {k' : κ}
    (hk : k ∈ r.received) (hk' : k' ∈ (page limit (s n) r.cursor).1) : k < k' := by
  have hne : r.received ≠ [] := List.ne_nil_of_mem hk
  have hlast := List.getLast?_eq_getLast_of_ne_nil hne
  have habove := (mem_above.mp (mem_of_mem_page hk')).2 _ (by rw [h.cursor hopen, hlast]; rfl)
  exact lt_of_le_of_lt (le_getLast h.sorted hlast hk) habove

/-- One more page. -/
theorem Reads.take (hpos : 0 < limit) (h : Reads limit s n r) (hopen : r.ended = false) :
    Reads limit s (n + 1) (r.take (page limit (s n) r.cursor)) where
  sorted := List.pairwise_append.mpr
    ⟨h.sorted, sorted_page, fun _ hk _ hk' => h.lt_page hopen hk hk'⟩
  cursor hopen' := by
    show (page limit (s n) r.cursor).2 = (r.received ++ (page limit (s n) r.cursor).1).getLast?
    cases hnext : (page limit (s n) r.cursor).2 with
    | none =>
      rw [Reader.take, hnext] at hopen'
      cases hopen'
    | some c => rw [List.getLast?_append, (page_of_some hnext).2, Option.some_or]
  seen k hk := by
    rcases List.mem_append.mp hk with hold | hnew
    · rcases h.seen k hold with ⟨i, hi, hki⟩
      exact ⟨i, Nat.lt_succ_of_lt hi, hki⟩
    · exact ⟨n, Nat.lt_succ_self n, (mem_above.mp (mem_of_mem_page hnew)).1⟩
  complete k hk hcursor := by
    by_cases hold : ∃ c ∈ r.cursor, k ≤ c
    · exact List.mem_append_left _
        (h.complete k (fun i hi => hk i (Nat.lt_succ_of_lt hi)) fun _ => hold)
    · have habove : k ∈ above (s n) r.cursor := mem_above.mpr
        ⟨hk n (Nat.lt_succ_self n), fun c hc => not_le.mp fun hle => hold ⟨c, hc, hle⟩⟩
      refine List.mem_append_right _ (mem_page hpos habove fun c hc => ?_)
      have hnext : (page limit (s n) r.cursor).2 = some c := hc
      have hopen' : (r.take (page limit (s n) r.cursor)).ended = false := by
        rw [Reader.take, hnext]
        rfl
      rcases hcursor hopen' with ⟨c', hc', hle⟩
      have heq : c' = c := Option.some.inj (hc'.symm.trans hnext)
      rwa [← heq]
  length hopen' := by
    cases hnext : (page limit (s n) r.cursor).2 with
    | none =>
      rw [Reader.take, hnext] at hopen'
      cases hopen'
    | some c =>
      have hfull := (page_of_some hnext).1
      have hlength := h.length hopen
      show (n + 1) * limit ≤ (r.received ++ (page limit (s n) r.cursor).1).length
      rw [List.length_append, hfull, Nat.succ_mul]
      omega

/-- The invariant holds after every number of pages. -/
theorem reads_read (hpos : 0 < limit) (s : ℕ → Finset κ) (n : ℕ) :
    Reads limit s n (read limit s n) := by
  induction n with
  | zero => exact Reads.nil
  | succ n ih =>
    rw [read]
    by_cases hended : (read limit s n).ended = true
    · rw [if_pos hended]
      exact ih.stay hended
    · rw [if_neg hended]
      exact ih.take hpos (Bool.eq_false_iff.mpr hended)

/-- A reader ends if all keys are in one finite set. -/
theorem exists_ended (hpos : 0 < limit) {s : ℕ → Finset κ} {all : Finset κ}
    (hall : ∀ i, s i ⊆ all) : ∃ n, (read limit s n).ended = true := by
  refine ⟨all.card + 1, ?_⟩
  by_contra hended
  have hreads := reads_read hpos s (all.card + 1)
  have hlength := hreads.length (Bool.eq_false_iff.mpr hended)
  have hnodup : (read limit s (all.card + 1)).received.Nodup := hreads.sorted.imp ne_of_lt
  have hsubset : (read limit s (all.card + 1)).received.toFinset ⊆ all := by
    intro k hk
    rcases hreads.seen k (List.mem_toFinset.mp hk) with ⟨i, -, hki⟩
    exact hall i hki
  have hcard := Finset.card_le_card hsubset
  rw [List.toFinset_card_of_nodup hnodup] at hcard
  have hle : all.card + 1 ≤ (all.card + 1) * limit := Nat.le_mul_of_pos_right _ hpos
  omega

/-! ## Readers of rows -/

/-- The pages of a table serve its keys: on a cursor that encodes a key of the
table, the answer has the keys of the page, and its cursor encodes the next. -/
def Serves {α γ ε : Type*} (limit : ℕ) (key : α → κ) (encode : κ → γ) (s : ℕ → Finset κ)
    (ask : ℕ → Option γ → Except ε (List α × Option γ)) : Prop :=
  ∀ i (cursor : Option κ), (∀ c ∈ cursor, ∃ j, c ∈ s j) → ∃ rows,
    ask i (cursor.map encode) = .ok (rows, (page limit (s i) cursor).2.map encode) ∧
      rows.map key = (page limit (s i) cursor).1

/-- A reader of rows receives what the reader of the keys receives. -/
theorem Serves.follow_eq {α γ ε : Type*} {key : α → κ} {encode : κ → γ}
    {ask : ℕ → Option γ → Except ε (List α × Option γ)} (hpos : 0 < limit)
    (h : Serves limit key encode s ask) (n : ℕ) :
    ∃ rows, follow ask n = .ok ⟨rows, (read limit s n).cursor.map encode, (read limit s n).ended⟩ ∧
      rows.map key = (read limit s n).received := by
  induction n with
  | zero => exact ⟨[], rfl, rfl⟩
  | succ n ih =>
    rcases ih with ⟨rows, hfollow, hrows⟩
    rw [follow, hfollow, read]
    by_cases hended : (read limit s n).ended = true
    · rw [if_pos hended]
      refine ⟨rows, ?_, hrows⟩
      show (if (read limit s n).ended = true then _ else _) = _
      rw [if_pos hended]
      rfl
    · have hreads := reads_read hpos s n
      have hcursor : ∀ c ∈ (read limit s n).cursor, ∃ j, c ∈ s j := by
        intro c hc
        rw [hreads.cursor (Bool.eq_false_iff.mpr hended)] at hc
        rcases hreads.seen c (List.mem_of_getLast? hc) with ⟨j, -, hj⟩
        exact ⟨j, hj⟩
      rcases h n _ hcursor with ⟨new, hask, hnew⟩
      rw [if_neg hended]
      refine ⟨rows ++ new, ?_, by rw [List.map_append, hrows, hnew]; rfl⟩
      show (if (read limit s n).ended = true then _ else _) = _
      rw [if_neg hended]
      show (ask n ((read limit s n).cursor.map encode) >>= fun answer => _) = _
      rw [hask]
      simp [Reader.take, bind, Except.bind, pure, Except.pure]

end Keyset

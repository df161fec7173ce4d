import WorkflowEngine.Lib.Redis

/-!
# The numbers of a counter that expires

The answers of a counter over time.  In each of its lives it gives 1, 2, 3 and so on, and two
lives begin more than a `span` apart.  So the numbers up to a limit come less than twice the
limit in any interval of this length: one that reaches into two lives begins after the first
answer of the older one.
-/

namespace Redis

/-- An answer, and when it was given. -/
structure Count where
  number : Nat
  time : Nat

/-- The answers of one counter, the last one and those before it, latest first.  Its last life
began at `start`. -/
inductive Lifetimes (span : Nat) : Nat → Count → List Count → Prop where
  | first (time : Nat) : Lifetimes span time ⟨1, time⟩ []
  | next {start time : Nat} {last : Count} {older : List Count}
      (h : Lifetimes span start last older) (htime : last.time ≤ time) :
      Lifetimes span start ⟨last.number + 1, time⟩ (last :: older)
  | anew {start time : Nat} {last : Count} {older : List Count}
      (h : Lifetimes span start last older) (htime : last.time ≤ time)
      (hspan : start + span < time) : Lifetimes span time ⟨1, time⟩ (last :: older)

/-- Whether an answer falls into the interval from `opening` on, both ends included, with a
number up to the limit. -/
def Count.within (span limit : Nat) (opening : Nat) (c : Count) : Bool :=
  opening ≤ c.time && c.time ≤ opening + span && c.number ≤ limit

theorem Count.within_iff {span limit : Nat} {opening : Nat} {c : Count} :
    c.within span limit opening = true ↔
      opening ≤ c.time ∧ c.time ≤ opening + span ∧ c.number ≤ limit := by
  simp [within, and_assoc]

namespace Lifetimes

variable {span limit : Nat} {start opening : Nat} {last : Count} {older : List Count}

theorem number_pos (h : Lifetimes span start last older) : 1 ≤ last.number := by
  cases h with
  | first => exact Nat.le_refl 1
  | next h htime => exact Nat.le_add_left 1 _
  | anew h htime hspan => exact Nat.le_refl 1

theorem start_le (h : Lifetimes span start last older) : start ≤ last.time := by
  induction h with
  | first time => exact Nat.le_refl time
  | next h htime ih => exact Nat.le_trans ih htime
  | anew h htime hspan ih => exact Nat.le_refl _

theorem time_le (h : Lifetimes span start last older) : ∀ c ∈ older, c.time ≤ last.time := by
  induction h with
  | first time => exact fun c hc => absurd hc List.not_mem_nil
  | next h htime ih | anew h htime hspan ih =>
    intro c hc
    rcases List.mem_cons.mp hc with rfl | hc
    · exact htime
    · exact Nat.le_trans (ih c hc) htime

/-- Before the interval there is nothing in it. -/
theorem countP_before (h : Lifetimes span start last older) (hbefore : last.time < opening) :
    (last :: older).countP (Count.within span limit opening) = 0 := by
  refine List.countP_eq_zero.mpr fun c hc hwithin => ?_
  have hopening := (Count.within_iff.mp hwithin).1
  rcases List.mem_cons.mp hc with rfl | hc
  · omega
  · have htime := h.time_le c hc
    omega

/-- What a last answer adds. -/
theorem countP_cons_le (span limit opening number time : Nat) (counts : List Count) :
    (⟨number, time⟩ :: counts).countP (Count.within span limit opening) ≤
      counts.countP (Count.within span limit opening) + if number ≤ limit then 1 else 0 := by
  rw [List.countP_cons]
  refine Nat.add_le_add_left ?_ _
  by_cases hwithin : Count.within span limit opening ⟨number, time⟩ = true
  · have hnumber : number ≤ limit := (Count.within_iff.mp hwithin).2.2
    exact Nat.le_of_eq ((if_pos hwithin).trans (if_pos hnumber).symm)
  · rw [if_neg hwithin]
    exact Nat.zero_le _

/-- After the interval nothing is added. -/
theorem countP_cons_after (number : Nat) {time : Nat} (counts : List Count)
    (hafter : opening + span < time) :
    (⟨number, time⟩ :: counts).countP (Count.within span limit opening) =
      counts.countP (Count.within span limit opening) := by
  refine List.countP_cons_of_neg fun hwithin => ?_
  have hbefore : time ≤ opening + span := (Count.within_iff.mp hwithin).2.1
  omega

/-- Where the life began before the interval, its first answer is not in it, and no older life
reaches into it. -/
theorem countP_old (h : Lifetimes span start last older) (limit : Nat) (hstart : start < opening) :
    (last :: older).countP (Count.within span limit opening) ≤ min limit last.number - 1 := by
  induction h with
  | first time =>
    rw [(first time).countP_before hstart]
    exact Nat.zero_le _
  | @next start time last older h htime ih =>
    have hnumber := h.number_pos
    have hadded := countP_cons_le span limit opening (last.number + 1) time (last :: older)
    have hlast := ih hstart
    dsimp only
    split at hadded <;> omega
  | anew h htime hspan ih =>
    rw [(anew h htime hspan).countP_before hstart]
    exact Nat.zero_le _

/-- Where it began in the interval, there is one other life at most. -/
theorem countP_new (h : Lifetimes span start last older) (limit : Nat)
    (hspan : start ≤ opening + span) :
    (last :: older).countP (Count.within span limit opening) ≤
      limit - 1 + min limit last.number := by
  induction h with
  | first time =>
    have hadded := countP_cons_le span limit opening 1 time []
    rw [List.countP_nil] at hadded
    dsimp only
    split at hadded <;> omega
  | @next start time last older h htime ih =>
    have hadded := countP_cons_le span limit opening (last.number + 1) time (last :: older)
    have hlast := ih hspan
    dsimp only
    split at hadded <;> omega
  | @anew start time last older h htime hapart ih =>
    have hadded := countP_cons_le span limit opening 1 time (last :: older)
    have hstart : start < opening := by omega
    have hold := h.countP_old limit hstart
    dsimp only
    split at hadded <;> omega

/-- No interval of this length has more of the numbers. -/
theorem countP_le (h : Lifetimes span start last older) (limit opening : Nat) :
    (last :: older).countP (Count.within span limit opening) ≤ 2 * limit - 1 := by
  induction h with
  | first time =>
    have hadded := countP_cons_le span limit opening 1 time []
    rw [List.countP_nil] at hadded
    split at hadded <;> omega
  | @next start time last older h htime ih =>
    by_cases hspan : start ≤ opening + span
    · have hnew := (next h htime).countP_new limit hspan
      omega
    · have hstart := h.start_le
      rw [countP_cons_after (last.number + 1) (last :: older) (by omega)]
      exact ih
  | @anew start time last older h htime hapart ih =>
    by_cases hspan : time ≤ opening + span
    · have hnew := (anew h htime hapart).countP_new limit hspan
      omega
    · rw [countP_cons_after 1 (last :: older) (Nat.lt_of_not_le hspan)]
      exact ih

end Lifetimes

/-! ## A counter on a server

Whoever sends `INCR` and `EXPIRE` for the key, and in whatever order: as long as all of them ask
for the same number of seconds, the answers are those of lives that are so far apart. -/

/-- The record under a key goes with the answers so far. -/
def Follows (span now : Nat) (stored : Option Record) : List Count → Prop
  | [] => stored = none
  | last :: older => ∃ start record, Lifetimes span start last older ∧ last.time ≤ now ∧
      stored = some record ∧ record.value = last.number ∧
      ∀ t : Nat, record.expireAt = some t → start + span ≤ t ∧ t ≤ now + span

namespace Follows

variable {K : Type} [DecidableEq K] {span now : Nat} {store : Store K} {key : K}
  {counts : List Count}

omit [DecidableEq K] in
/-- No expiry is further away than the span. -/
theorem expireAt_le (h : Follows span now (store key) counts) {record : Record} {t : Nat}
    (hstored : store key = some record) (ht : record.expireAt = some t) : t ≤ now + span := by
  cases counts with
  | nil =>
    have hnone : store key = none := h
    rw [hnone] at hstored
    cases hstored
  | cons last older =>
    obtain ⟨start, record', -, -, hstored', -, hexpire⟩ := h
    cases hstored.symm.trans hstored'
    exact (hexpire t ht).2

omit [DecidableEq K] in
/-- Time passes. -/
theorem mono (h : Follows span now (store key) counts) {later : Nat} (hlater : now ≤ later) :
    Follows span later (store key) counts := by
  cases counts with
  | nil => exact h
  | cons last older =>
    obtain ⟨start, record, hlives, htime, hstored, hvalue, hexpire⟩ := h
    refine ⟨start, record, hlives, Nat.le_trans htime hlater, hstored, hvalue, fun t ht => ?_⟩
    have hbounds := hexpire t ht
    omega

/-- `INCR` gives the next number of this life, or the first one of another. -/
theorem incr (h : Follows span now (store key) counts) :
    Follows span now ((store.incr now key).2 key) (⟨(store.incr now key).1, now⟩ :: counts) := by
  cases counts with
  | nil =>
    have hfind : store.find now key = none := Store.find_of_missing now h
    rw [Store.incr_of_find_none hfind]
    refine ⟨now, ⟨1, none⟩, .first now, Nat.le_refl now, Store.put_self .., rfl, fun t ht => ?_⟩
    cases ht
  | cons last older =>
    obtain ⟨start, record, hlives, htime, hstored, hvalue, hexpire⟩ := h
    by_cases hlive : record.live now = true
    · have hfind : store.find now key = some record := Store.find_eq_some_iff.mpr ⟨hstored, hlive⟩
      rw [Store.incr, hfind]
      dsimp only
      rw [hvalue]
      exact ⟨start, _, hlives.next htime, Nat.le_refl now, Store.put_self .., rfl, hexpire⟩
    · have hfind : store.find now key = none := Store.find_of_over hstored hlive
      -- it is not there any more, so its time is over
      obtain ⟨t, ht⟩ : ∃ t, record.expireAt = some t := by
        cases hat : record.expireAt with
        | none => exact absurd (by rw [Record.live, hat, Option.all_none]) hlive
        | some t => exact ⟨t, rfl⟩
      have hover : t < now := Nat.lt_of_not_le fun hle => hlive ((Record.live_iff ht now).mpr hle)
      have hspan : start + span < now := Nat.lt_of_le_of_lt (hexpire t ht).1 hover
      rw [Store.incr_of_find_none hfind]
      refine ⟨now, ⟨1, none⟩, hlives.anew htime hspan, Nat.le_refl now, Store.put_self .., rfl,
        fun t ht => ?_⟩
      cases ht

/-- `EXPIRE` puts the end of the life off, but never before its time. -/
theorem expire {seconds : Nat} (h : Follows (1000 * seconds) now (store key) counts) :
    Follows (1000 * seconds) now (store.expire now key seconds key) counts := by
  cases counts with
  | nil =>
    have hstored : store key = none := h
    rw [Store.expire_of_find_none (Store.find_of_missing now hstored)]
    exact hstored
  | cons last older =>
    obtain ⟨start, record, hlives, htime, hstored, hvalue, hexpire⟩ := h
    by_cases hlive : record.live now = true
    · have hfind : store.find now key = some record := Store.find_eq_some_iff.mpr ⟨hstored, hlive⟩
      rw [Store.expire, hfind]
      refine ⟨start, _, hlives, htime, Store.put_self .., hvalue, fun t ht => ?_⟩
      have hstart := hlives.start_le
      have ht : now + 1000 * seconds = t := Option.some.inj ht
      omega
    · rw [Store.expire_of_find_none (Store.find_of_over hstored hlive)]
      exact ⟨start, record, hlives, htime, hstored, hvalue, hexpire⟩

end Follows

end Redis

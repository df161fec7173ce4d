import Mathlib.Logic.Function.Basic

/-!
# Counters that expire

The commands `INCR`, `EXPIRE` and `TTL` of a Redis server, on keys that hold
numbers.  Time is what the server's clock says, in milliseconds.  A record
whose time is over counts for nothing: the server drops it when the clock is past
the expiry, not when it reaches it.  A record without an expiry is there for ever.
-/

namespace Redis

/-- Milliseconds. -/
abbrev Time := Nat

/-- The number under a key, and when it expires. -/
structure Record where
  value : Nat
  expireAt : Option Time
  deriving DecidableEq

/-- Whether the record still counts. -/
def Record.live (record : Record) (now : Time) : Bool := record.expireAt.all (fun t => now ≤ t)

/-- A record with an expiry counts up to then. -/
theorem Record.live_iff {record : Record} {t : Time} (h : record.expireAt = some t) (now : Time) :
    record.live now = true ↔ now ≤ t := by
  rw [live, h, Option.all_some, decide_eq_true_iff]

/-- The records under the keys.  One that has expired stays here until the key
is written again. -/
abbrev Store (K : Type) : Type := K → Option Record

namespace Store

variable {K : Type} [DecidableEq K]

/-- A server without keys. -/
def empty : Store K := fun _ => none

/-- The record that counts. -/
def find (store : Store K) (now : Time) (key : K) : Option Record :=
  (store key).filter (fun record => record.live now)

/-- Write a record. -/
def put (store : Store K) (key : K) (record : Record) : Store K :=
  Function.update store key (some record)

/-- `INCR`: the number after it.  The expiry stays. -/
def incr (store : Store K) (now : Time) (key : K) : Nat × Store K :=
  match store.find now key with
  | some record => (record.value + 1, store.put key ⟨record.value + 1, record.expireAt⟩)
  | none => (1, store.put key ⟨1, none⟩)

/-- `EXPIRE`. -/
def expire (store : Store K) (now : Time) (key : K) (seconds : Nat) : Store K :=
  match store.find now key with
  | some record => store.put key ⟨record.value, some (now + 1000 * seconds)⟩
  | none => store

/-- `TTL`: the seconds that are left, rounded, or a negative number. -/
def ttl (store : Store K) (now : Time) (key : K) : Int :=
  match store.find now key with
  | none => -2
  | some ⟨_, none⟩ => -1
  | some ⟨_, some t⟩ => ((t - now + 500) / 1000 : Nat)

@[simp]
theorem put_self (store : Store K) (key : K) (record : Record) :
    store.put key record key = some record := Function.update_self ..

theorem put_ne (store : Store K) {key key' : K} (record : Record) (h : key' ≠ key) :
    store.put key record key' = store key' := Function.update_of_ne h ..

@[simp]
theorem put_put (store : Store K) (key : K) (record record' : Record) :
    (store.put key record).put key record' = store.put key record' := Function.update_idem ..

omit [DecidableEq K] in
theorem find_eq_some_iff {store : Store K} {now : Time} {key : K} {record : Record} :
    store.find now key = some record ↔ store key = some record ∧ record.live now = true :=
  Option.filter_eq_some_iff

omit [DecidableEq K] in
/-- Nothing is found under a key without a record. -/
theorem find_of_missing {store : Store K} {key : K} (now : Time) (h : store key = none) :
    store.find now key = none := by
  rw [find, h, Option.filter_none]

omit [DecidableEq K] in
/-- Nor where the time of the record is over. -/
theorem find_of_over {store : Store K} {now : Time} {key : K} {record : Record}
    (h : store key = some record) (hover : ¬ record.live now = true) :
    store.find now key = none := by
  rw [find, h, Option.filter_some, if_neg hover]

/-- `INCR` on a key where nothing is found. -/
theorem incr_of_find_none {store : Store K} {now : Time} {key : K}
    (h : store.find now key = none) : store.incr now key = (1, store.put key ⟨1, none⟩) := by
  rw [incr, h]

/-- `EXPIRE` on such a key does nothing. -/
theorem expire_of_find_none {store : Store K} {now : Time} {key : K}
    (h : store.find now key = none) (seconds : Nat) : store.expire now key seconds = store := by
  rw [expire, h]

omit [DecidableEq K] in
/-- A record that has no expiry is found at any time. -/
theorem find_of_lasting {store : Store K} {key : K} {value : Nat} (now : Time)
    (h : store key = some ⟨value, none⟩) : store.find now key = some ⟨value, none⟩ :=
  find_eq_some_iff.mpr ⟨h, rfl⟩

/-- `EXPIRE` on a key that was just written. -/
theorem expire_put (store : Store K) (now : Time) (key : K) (value seconds : Nat) :
    (store.put key ⟨value, none⟩).expire now key seconds =
      store.put key ⟨value, some (now + 1000 * seconds)⟩ := by
  have hfind := find_of_lasting now (put_self store key ⟨value, none⟩)
  rw [expire, hfind]
  exact put_put ..

/-- A record without an expiry after `INCR` is new, or had none before. -/
theorem incr_lasting {store : Store K} {now : Time} {key : K} {value : Nat}
    (h : (store.incr now key).2 key = some ⟨value, none⟩) :
    (store.incr now key).1 = 1 ∨ ∃ before, store key = some ⟨before, none⟩ := by
  rw [incr] at h ⊢
  cases hfind : store.find now key with
  | none => exact .inl rfl
  | some record =>
    simp only [hfind, put_self, Option.some.injEq, Record.mk.injEq] at h
    obtain ⟨before, expireAt⟩ := record
    obtain rfl : expireAt = none := h.2
    exact .inr ⟨before, (find_eq_some_iff.mp hfind).1⟩

/-- After `EXPIRE` there is none without an expiry. -/
theorem expire_not_lasting (store : Store K) (now : Time) (key : K) (seconds value : Nat) :
    store.expire now key seconds key ≠ some ⟨value, none⟩ := by
  intro h
  rw [expire] at h
  cases hfind : store.find now key with
  | none =>
    simp only [hfind] at h
    rw [find_of_lasting now h] at hfind
    cases hfind
  | some record =>
    simp only [hfind, put_self, Option.some.injEq, Record.mk.injEq] at h
    cases h.2

/-- A counter whose time is over, or that was never there, begins anew. -/
theorem incr_expired {store : Store K} {now : Time} {key : K}
    (h : ∀ record, store key = some record → ∃ t, record.expireAt = some t ∧ t < now) :
    (store.incr now key).1 = 1 := by
  have hfind : store.find now key = none := by
    cases hstored : store key with
    | none => exact find_of_missing now hstored
    | some record =>
      obtain ⟨t, ht, hlt⟩ := h record hstored
      exact find_of_over hstored fun hlive => Nat.not_le.mpr hlt ((Record.live_iff ht now).mp hlive)
  rw [incr_of_find_none hfind]

omit [DecidableEq K] in
/-- No more seconds are left than the expiry says. -/
theorem ttl_le {store : Store K} {now : Nat} {key : K} {seconds : Nat}
    (h : ∀ (record : Record) (t : Nat), store key = some record → record.expireAt = some t →
      t ≤ now + 1000 * seconds) : store.ttl now key ≤ seconds := by
  have hrounded : ∀ t : Nat, t ≤ now + 1000 * seconds → (t - now + 500) / 1000 ≤ seconds := by
    intro t ht
    omega
  rw [ttl]
  cases hfind : store.find now key with
  | none =>
    dsimp only
    omega
  | some record =>
    obtain ⟨value, expireAt⟩ := record
    cases expireAt with
    | none =>
      dsimp only
      omega
    | some t =>
      have hle := h ⟨value, some t⟩ t (find_eq_some_iff.mp hfind).1 rfl
      exact Int.ofNat_le.mpr (hrounded t hle)

/-! ### Commands on one key

A command sees the record under its key only, and changes no other. -/

section

variable {store store' : Store K} {key : K}

omit [DecidableEq K] in
theorem find_congr (h : store key = store' key) (now : Time) :
    store.find now key = store'.find now key := by
  rw [find, find, h]

theorem incr_congr (h : store key = store' key) (now : Time) :
    (store.incr now key).1 = (store'.incr now key).1 ∧
      (store.incr now key).2 key = (store'.incr now key).2 key := by
  rw [incr, incr, find_congr h now]
  cases store'.find now key with
  | some record =>
    dsimp only
    rw [put_self, put_self]
    exact ⟨rfl, rfl⟩
  | none =>
    dsimp only
    rw [put_self, put_self]
    exact ⟨rfl, rfl⟩

theorem incr_ne (now : Time) {key' : K} (h : key' ≠ key) :
    (store.incr now key).2 key' = store key' := by
  rw [incr]
  cases store.find now key with
  | some record => exact put_ne store _ h
  | none => exact put_ne store _ h

theorem expire_congr (h : store key = store' key) (now : Time) (seconds : Nat) :
    store.expire now key seconds key = store'.expire now key seconds key := by
  rw [expire, expire, find_congr h now]
  cases store'.find now key with
  | some record =>
    dsimp only
    rw [put_self, put_self]
  | none => exact h

theorem expire_ne (now : Time) (seconds : Nat) {key' : K} (h : key' ≠ key) :
    store.expire now key seconds key' = store key' := by
  rw [expire]
  cases store.find now key with
  | some record => exact put_ne store _ h
  | none => rfl

omit [DecidableEq K] in
theorem ttl_congr (h : store key = store' key) (now : Time) :
    store.ttl now key = store'.ttl now key := by
  rw [ttl, ttl, find_congr h now]

end

end Store

end Redis

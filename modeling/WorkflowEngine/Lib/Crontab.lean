import Mathlib.Algebra.Order.Group.Nat

/-!
# Crontab entries

The five fields of a crontab entry, with numbers, ranges, lists, steps and stars,
and the minutes at which an entry fires.  A field without a star is restricted.
Where the day of the month and the day of the week are both restricted, a match of
either is enough.  Sunday is 0, and also 7.
-/

namespace Crontab

/-- An item of a list: `*/step`, a number, or `first-last/step`. -/
inductive Item where
  | every (step : Nat)
  | single (value : Nat)
  | range (first last step : Nat)
  deriving DecidableEq

/-- The items of a field. -/
abbrev Field := List Item

namespace Item

/-- Whether the item has a star. -/
def isStar : Item → Bool
  | every _ => true
  | _ => false

/-- The item selects the value, in a field whose values start at `low`. -/
def Selects (low : Nat) : Item → Nat → Prop
  | every step, value => step ∣ value - low
  | single value', value => value = value'
  | range first last step, value => first ≤ value ∧ value ≤ last ∧ step ∣ value - first

instance (low : Nat) (item : Item) (value : Nat) : Decidable (item.Selects low value) := by
  cases item <;> unfold Selects <;> infer_instance

/-- The numbers of the item are values of the field, and steps go up. -/
def Within (low high : Nat) : Item → Prop
  | every step => 0 < step
  | single value => low ≤ value ∧ value ≤ high
  | range first last step => low ≤ first ∧ first ≤ last ∧ last ≤ high ∧ 0 < step

instance (low high : Nat) (item : Item) : Decidable (item.Within low high) := by
  cases item <;> unfold Within <;> infer_instance

end Item

namespace Field

/-- The field selects the value. -/
def Selects (low high : Nat) (field : Field) (value : Nat) : Prop :=
  low ≤ value ∧ value ≤ high ∧ ∃ item ∈ field, item.Selects low value

instance (low high : Nat) (field : Field) (value : Nat) :
    Decidable (field.Selects low high value) := by
  unfold Selects
  infer_instance

/-- The field has no star. -/
def Restricted (field : Field) : Prop := ∀ item ∈ field, item.isStar = false

instance (field : Field) : Decidable field.Restricted := by
  unfold Restricted
  infer_instance

/-- The items of the field are in order. -/
def Within (low high : Nat) (field : Field) : Prop :=
  field ≠ [] ∧ ∀ item ∈ field, item.Within low high

instance (low high : Nat) (field : Field) : Decidable (field.Within low high) := by
  unfold Within
  infer_instance

/-- A field in order selects a value. -/
theorem Within.exists_selects {low high : Nat} {field : Field} (h : field.Within low high)
    (hle : low ≤ high) : ∃ value, field.Selects low high value := by
  obtain ⟨item, hitem⟩ := List.exists_mem_of_ne_nil _ h.1
  have hwithin := h.2 item hitem
  cases item with
  | every step => exact ⟨low, le_rfl, hle, _, hitem, by simp [Item.Selects]⟩
  | single value => exact ⟨value, hwithin.1, hwithin.2, _, hitem, rfl⟩
  | range first last step =>
    obtain ⟨hlow, horder, hhigh, -⟩ := hwithin
    exact ⟨first, hlow, horder.trans hhigh, _, hitem, le_rfl, horder, by simp⟩

end Field

/-! ## Text -/

/-- A number in decimal digits. -/
def number? (text : List Char) : Option Nat :=
  if text ≠ [] ∧ text.all Char.isDigit then
    some (text.foldl (fun n c => 10 * n + (c.toNat - '0'.toNat)) 0)
  else none

/-- An item, with the text after a slash as its step. -/
def Item.ofParts? (body : List Char) (step : Option (List Char)) : Option Item :=
  match body.splitOn '-', step with
  | [['*']], none => some (.every 1)
  | [['*']], some step => (number? step).map .every
  | [value], none => (number? value).map .single
  | [first, last], none => do return .range (← number? first) (← number? last) 1
  | [first, last], some step => do
    return .range (← number? first) (← number? last) (← number? step)
  | _, _ => none

/-- An item of a list. -/
def Item.ofChars? (text : List Char) : Option Item :=
  match text.splitOn '/' with
  | [body] => ofParts? body none
  | [body, step] => ofParts? body (some step)
  | _ => none

/-- A list of items, separated by commas. -/
def Field.ofString? (text : String) : Option Field := (text.toList.splitOn ',').mapM Item.ofChars?

/-- The words of a text between blanks. -/
def words (isBlank : Char → Bool) (text : List Char) : List String :=
  ((text.splitOnP isBlank).filter (fun word => word ≠ [])).map String.ofList

section

variable {isBlank : Char → Bool}

theorem words_append_cons (text rest : List Char) {blank : Char} (h : isBlank blank = true) :
    words isBlank (text ++ blank :: rest) = words isBlank text ++ words isBlank rest := by
  rw [words, List.splitOnP_append_cons _ _ h, List.filter_append, List.map_append]
  rfl

theorem words_blanks_append {blanks : List Char} (h : ∀ c ∈ blanks, isBlank c = true)
    (text : List Char) : words isBlank (blanks ++ text) = words isBlank text := by
  induction blanks with
  | nil => rfl
  | cons c blanks ih =>
    obtain ⟨hc, hblanks⟩ := List.forall_mem_cons.mp h
    exact (words_append_cons [] (blanks ++ text) hc).trans (ih hblanks)

theorem words_append_blanks {blanks : List Char} (h : ∀ c ∈ blanks, isBlank c = true)
    (text : List Char) : words isBlank (text ++ blanks) = words isBlank text := by
  cases blanks with
  | nil => rw [List.append_nil]
  | cons c blanks =>
    obtain ⟨hc, hblanks⟩ := List.forall_mem_cons.mp h
    have hnone := words_blanks_append hblanks []
    rw [List.append_nil] at hnone
    rw [words_append_cons text blanks hc, hnone]
    exact List.append_nil _

/-- Blanks around the text do not matter. -/
theorem words_strip (text : List Char) :
    words isBlank ((text.dropWhile isBlank).reverse.dropWhile isBlank).reverse =
      words isBlank text := by
  have htake : ∀ l : List Char, ∀ c ∈ l.takeWhile isBlank, isBlank c = true :=
    fun _ => List.all_eq_true.mp List.all_takeWhile
  have hback : ∀ l : List Char,
      words isBlank (l.reverse.dropWhile isBlank).reverse = words isBlank l := by
    intro l
    have hsplit : (l.reverse.dropWhile isBlank).reverse ++ (l.reverse.takeWhile isBlank).reverse =
        l := by
      rw [← List.reverse_append, List.takeWhile_append_dropWhile, List.reverse_reverse]
    rw [← words_append_blanks (fun c hc => htake _ c (List.mem_reverse.mp hc)), hsplit]
  rw [hback, ← words_blanks_append (htake text), List.takeWhile_append_dropWhile]

end

/-! ## Entries -/

/-- The fields of an entry. -/
structure Entry where
  minute : Field
  hour : Field
  dayOfMonth : Field
  month : Field
  dayOfWeek : Field

/-- What the clock and the calendar say; on Sundays `dayOfWeek` is 0. -/
structure Instant where
  minute : Nat
  hour : Nat
  dayOfMonth : Nat
  month : Nat
  dayOfWeek : Nat

namespace Entry

/-- An entry from its five words. -/
def ofWords? : List String → Option Entry
  | [minute, hour, dayOfMonth, month, dayOfWeek] => do
    return ⟨← Field.ofString? minute, ← Field.ofString? hour, ← Field.ofString? dayOfMonth,
      ← Field.ofString? month, ← Field.ofString? dayOfWeek⟩
  | _ => none

/-- The numbers of the entry are values of their fields, and no weekday is 7. -/
structure Within (entry : Entry) : Prop where
  minute : entry.minute.Within 0 59
  hour : entry.hour.Within 0 23
  dayOfMonth : entry.dayOfMonth.Within 1 31
  month : entry.month.Within 1 12
  dayOfWeek : entry.dayOfWeek.Within 0 6

instance (entry : Entry) : Decidable entry.Within :=
  decidable_of_iff (entry.minute.Within 0 59 ∧ entry.hour.Within 0 23 ∧
      entry.dayOfMonth.Within 1 31 ∧ entry.month.Within 1 12 ∧ entry.dayOfWeek.Within 0 6)
    ⟨fun ⟨hminute, hhour, hday, hmonth, hweekday⟩ => ⟨hminute, hhour, hday, hmonth, hweekday⟩,
      fun h => ⟨h.minute, h.hour, h.dayOfMonth, h.month, h.dayOfWeek⟩⟩

/-- Both fields for the day are restricted. -/
def BothRestricted (entry : Entry) : Prop :=
  entry.dayOfMonth.Restricted ∧ entry.dayOfWeek.Restricted

instance (entry : Entry) : Decidable entry.BothRestricted := by
  unfold BothRestricted
  infer_instance

/-- The day of the week is one of those selected. -/
def SelectsWeekday (entry : Entry) (dayOfWeek : Nat) : Prop :=
  ∃ value ≤ 7, entry.dayOfWeek.Selects 0 7 value ∧ value % 7 = dayOfWeek

/-- The entry fires on this day, in a month that it selects. -/
def SelectsDay (entry : Entry) (t : Instant) : Prop :=
  if entry.BothRestricted then
    entry.dayOfMonth.Selects 1 31 t.dayOfMonth ∨ entry.SelectsWeekday t.dayOfWeek
  else entry.dayOfMonth.Selects 1 31 t.dayOfMonth ∧ entry.SelectsWeekday t.dayOfWeek

/-- The entry fires. -/
def Fires (entry : Entry) (t : Instant) : Prop :=
  entry.minute.Selects 0 59 t.minute ∧ entry.hour.Selects 0 23 t.hour ∧
    entry.month.Selects 1 12 t.month ∧ entry.SelectsDay t

/-- Without a 7 the weekdays are what the field selects up to 6. -/
theorem selectsWeekday_iff {entry : Entry} (h : entry.dayOfWeek.Within 0 6) {dayOfWeek : Nat}
    (hle : dayOfWeek ≤ 6) :
    entry.SelectsWeekday dayOfWeek ↔ entry.dayOfWeek.Selects 0 6 dayOfWeek := by
  constructor
  · rintro ⟨value, hseven, ⟨-, -, item, hitem, hselects⟩, rfl⟩
    refine ⟨Nat.zero_le _, hle, item, hitem, ?_⟩
    rcases Nat.lt_or_eq_of_le hseven with hlt | rfl
    · rwa [Nat.mod_eq_of_lt hlt]
    · -- Only a star reaches 7, and with it goes 0.
      have hwithin := h.2 item hitem
      cases item with
      | every step => exact Nat.dvd_zero step
      | single value =>
        obtain rfl : 7 = value := hselects
        exact absurd hwithin.2 (by decide)
      | range first last step =>
        exact absurd (hselects.2.1.trans hwithin.2.2.1) (by decide)
  · rintro ⟨hlow, hhigh, item, hitem, hselects⟩
    exact ⟨dayOfWeek, hhigh.trans (by decide), ⟨hlow, hhigh.trans (by decide), item, hitem,
      hselects⟩, Nat.mod_eq_of_lt (Nat.lt_succ_of_le hhigh)⟩

end Entry

end Crontab

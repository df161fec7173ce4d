import WorkflowEngine.Steps
import WorkflowEngine.Lib.Crontab

/-!
# Cron expressions

`parse_cron_expression` of `src/triggers/cron.py` hands the five words of an
expression to a `CronTrigger`, which counts the days of the week from Monday and
fires where all fields match.  `cronMeaning_iff` says for which expressions this is
what a crontab means by them.

The trigger is a parameter, with what its documentation says of it.
-/

namespace WorkflowEngine.Cron

/-! ## The calendar -/

/-- The leap years. -/
def isLeap (year : Nat) : Bool := year % 4 = 0 && (year % 100 ≠ 0 || year % 400 = 0)

/-- The days of a month. -/
def daysInMonth (leap : Bool) (month : Nat) : Nat :=
  if month = 2 then (if leap then 29 else 28)
  else if month ∈ [4, 6, 9, 11] then 30
  else 31

/-- The days before the first of January. -/
def daysBeforeYear (year : Nat) : Nat :=
  (year - 1) * 365 + (year - 1) / 4 - (year - 1) / 100 + (year - 1) / 400

/-- The days of a year before the first of a month. -/
def daysBeforeMonth (leap : Bool) (month : Nat) : Nat :=
  ((List.range (month - 1)).map (fun i => daysInMonth leap (i + 1))).sum

/-- A date, in the years that a trigger knows. -/
structure Date where
  year : Nat
  month : Nat
  day : Nat
  year_ge : 1970 ≤ year
  year_le : year ≤ 9999
  month_ge : 1 ≤ month
  month_le : month ≤ 12
  day_ge : 1 ≤ day
  day_le : day ≤ daysInMonth (isLeap year) month

/-- `date.weekday()`: Monday is 0. -/
def Date.weekday (date : Date) : Nat :=
  (daysBeforeYear date.year + daysBeforeMonth (isLeap date.year) date.month + date.day + 6) % 7

theorem Date.weekday_lt (date : Date) : date.weekday < 7 := Nat.mod_lt _ (by decide)

theorem one_le_daysInMonth (month : Nat) : 1 ≤ daysInMonth true month := by
  unfold daysInMonth
  repeat' split
  all_goals decide

theorem Date.day_le_leap (date : Date) : date.day ≤ daysInMonth true date.month := by
  refine date.day_le.trans ?_
  unfold daysInMonth
  split <;> [skip; exact le_rfl]
  split <;> simp

/-- A minute on the clock. -/
structure Minute where
  date : Date
  hour : Nat
  minute : Nat
  hour_lt : hour < 24
  minute_lt : minute < 60

/-- What a crontab reads: Sunday is 0. -/
def Minute.instant (t : Minute) : Crontab.Instant :=
  ⟨t.minute, t.hour, t.date.day, t.date.month, (t.date.weekday + 1) % 7⟩

/-- The leap years 1972 to 1996 start on seven different days of the week. -/
theorem leapYears : ∀ i < 7, isLeap (1972 + 4 * i) = true ∧
    daysBeforeYear (1972 + 4 * i) = daysBeforeYear 1972 + 1461 * i := by decide

/-- Each day of each month falls on every day of the week. -/
theorem exists_date {month day weekday : Nat} (hmonth : 1 ≤ month ∧ month ≤ 12)
    (hday : 1 ≤ day ∧ day ≤ daysInMonth true month) (hweekday : weekday < 7) :
    ∃ date : Date, date.month = month ∧ date.day = day ∧ date.weekday = weekday := by
  obtain ⟨i, hi, hshift⟩ : ∃ i < 7, (daysBeforeYear 1972 + daysBeforeMonth true month + day + 6 +
      1461 * i) % 7 = weekday := by
    generalize daysBeforeYear 1972 + daysBeforeMonth true month + day + 6 = base
    exact ⟨3 * (weekday + 7 - base % 7) % 7, by omega, by omega⟩
  obtain ⟨hleap, hbefore⟩ := leapYears i hi
  refine ⟨⟨1972 + 4 * i, month, day, by omega, by omega, hmonth.1, hmonth.2, hday.1, ?_⟩,
    rfl, rfl, ?_⟩
  · rw [hleap]
    exact hday.2
  · show (daysBeforeYear (1972 + 4 * i) + daysBeforeMonth (isLeap (1972 + 4 * i)) month + day + 6) %
      7 = weekday
    rw [← hshift, hleap, hbefore]
    congr 1
    omega

/-! ## The expressions -/

/-- The dict that `parse_cron_expression` returns. -/
structure CronFields where
  minute : String
  hour : String
  day : String
  month : String
  dayOfWeek : String

/-- The fields in plain syntax. -/
def CronFields.entry? (fields : CronFields) : Option Crontab.Entry :=
  Crontab.Entry.ofWords? [fields.minute, fields.hour, fields.day, fields.month, fields.dayOfWeek]

/-- `CronTrigger` of APScheduler. -/
structure CronTrigger where
  /-- The constructor, with the text of a `ValueError` or a `TypeError`. -/
  construct : CronFields → Except String Unit
  /-- Whether a trigger built from the fields fires. -/
  fires : CronFields → Minute → Bool

/-- Each field matches what the clock and the calendar say; Monday is 0. -/
def FieldsMatch (entry : Crontab.Entry) (t : Minute) : Prop :=
  entry.minute.Selects 0 59 t.minute ∧ entry.hour.Selects 0 23 t.hour ∧
    entry.month.Selects 1 12 t.date.month ∧ entry.dayOfMonth.Selects 1 31 t.date.day ∧
    entry.dayOfWeek.Selects 0 6 t.date.weekday

instance (entry : Crontab.Entry) (t : Minute) : Decidable (FieldsMatch entry t) := by
  unfold FieldsMatch
  infer_instance

/-- What the documentation of `CronTrigger` says of plain fields. -/
structure CronTrigger.Documented (trigger : CronTrigger) : Prop where
  within : ∀ fields entry, trigger.construct fields = .ok () → fields.entry? = some entry →
    entry.Within
  fires_iff : ∀ fields entry, trigger.construct fields = .ok () → fields.entry? = some entry →
    ∀ t, trigger.fires fields t = true ↔ FieldsMatch entry t

/-- The `ValueError` of `parse_cron_expression`. -/
def invalidCron (expression reason : String) : PyError :=
  .other "ValueError" ("Invalid cron expression: " ++ (Py.Json.str expression).repr ++ ". " ++ reason)

/-- `parse_cron_expression`. -/
def parseCronExpression (trigger : CronTrigger) (expression : String) :
    Except PyError CronFields :=
  match Crontab.words isSpace (strip expression).toList with
  | [minute, hour, day, month, dayOfWeek] =>
    let fields : CronFields := ⟨minute, hour, day, month, dayOfWeek⟩
    match trigger.construct fields with
    | .ok _ => .ok fields
    | .error text => .error (invalidCron expression text)
  | _ => .error (invalidCron expression
      "Expected 5 fields: minute hour day month day_of_week")

/-- The expression as an entry of a crontab. -/
def crontab? (expression : String) : Option Crontab.Entry :=
  Crontab.Entry.ofWords? (Crontab.words isSpace expression.toList)

/-! ## The two meanings -/

/-- All days of the week are selected. -/
def EveryWeekday (entry : Crontab.Entry) : Prop :=
  ∀ weekday < 7, entry.dayOfWeek.Selects 0 6 weekday

/-- The expressions that mean the same to the trigger and to a crontab. -/
def KeepsMeaning (entry : Crontab.Entry) : Prop :=
  if entry.BothRestricted then
    EveryWeekday entry ∧ ∀ month day, entry.month.Selects 1 12 month → 1 ≤ day →
      day ≤ daysInMonth true month → entry.dayOfMonth.Selects 1 31 day
  else
    EveryWeekday entry ∨ ∀ month day, entry.month.Selects 1 12 month → 1 ≤ day →
      day ≤ daysInMonth true month → ¬ entry.dayOfMonth.Selects 1 31 day

section

variable {entry : Crontab.Entry}

/-- The crontab's choice of a date. -/
theorem selectsDay_iff (h : entry.Within) (t : Minute) :
    entry.SelectsDay t.instant ↔
      if entry.BothRestricted then
        entry.dayOfMonth.Selects 1 31 t.date.day ∨
          entry.dayOfWeek.Selects 0 6 ((t.date.weekday + 1) % 7)
      else
        entry.dayOfMonth.Selects 1 31 t.date.day ∧
          entry.dayOfWeek.Selects 0 6 ((t.date.weekday + 1) % 7) := by
  have hle : (t.date.weekday + 1) % 7 ≤ 6 := Nat.le_of_lt_succ (Nat.mod_lt _ (by decide))
  rw [Crontab.Entry.SelectsDay]
  split
  · exact or_congr_right (Crontab.Entry.selectsWeekday_iff h.dayOfWeek hle)
  · exact and_congr_right' (Crontab.Entry.selectsWeekday_iff h.dayOfWeek hle)

/-- A set of weekdays that is its own shift by a day is empty or has all of them. -/
theorem weekdays_of_shift {P : Nat → Prop} (hshift : ∀ w < 7, P w ↔ P ((w + 1) % 7)) {v : Nat}
    (hv : v < 7) (hP : P v) : ∀ w < 7, P w := by
  have hzero : ∀ w < 7, (P w ↔ P 0) := by
    intro w
    induction w with
    | zero => exact fun _ => Iff.rfl
    | succ w ih =>
      intro hw
      have hstep := hshift w (Nat.lt_of_succ_lt hw)
      rw [Nat.mod_eq_of_lt hw] at hstep
      exact hstep.symm.trans (ih (Nat.lt_of_succ_lt hw))
  exact fun w hw => (hzero w hw).mpr ((hzero v hv).mp hP)

/-- The two meanings agree exactly if they agree on the dates. -/
theorem agree_iff_dates (h : entry.Within) :
    (∀ t, FieldsMatch entry t ↔ entry.Fires t.instant) ↔
      ∀ t : Minute, entry.month.Selects 1 12 t.date.month →
        ((entry.dayOfMonth.Selects 1 31 t.date.day ∧
          entry.dayOfWeek.Selects 0 6 t.date.weekday) ↔ entry.SelectsDay t.instant) := by
  constructor
  · intro hall t hmonth
    obtain ⟨minute, hminute⟩ := h.minute.exists_selects (by decide)
    obtain ⟨hour, hhour⟩ := h.hour.exists_selects (by decide)
    have hagree := hall ⟨t.date, hour, minute, Nat.lt_succ_of_le hhour.2.1,
      Nat.lt_succ_of_le hminute.2.1⟩
    constructor
    · exact fun hmatch => (hagree.mp ⟨hminute, hhour, hmonth, hmatch⟩).2.2.2
    · exact fun hselects => (hagree.mpr ⟨hminute, hhour, hmonth, hselects⟩).2.2.2
  · intro hall t
    unfold FieldsMatch Crontab.Entry.Fires
    refine and_congr_right fun _ => and_congr_right fun _ => and_congr_right fun hmonth => ?_
    exact hall t hmonth

/-- A minute on a date that falls on a given day of the week. -/
theorem exists_minute {month day weekday : Nat} (hmonth : entry.month.Selects 1 12 month)
    (hday : 1 ≤ day ∧ day ≤ daysInMonth true month) (hweekday : weekday < 7) :
    ∃ t : Minute, t.date.month = month ∧ t.date.day = day ∧ t.date.weekday = weekday := by
  obtain ⟨date, hdate⟩ := exists_date ⟨hmonth.1, hmonth.2.1⟩ hday hweekday
  exact ⟨⟨date, 0, 0, by decide, by decide⟩, hdate⟩

/-- Where a match of either day is enough, the trigger agrees only if all days match. -/
theorem agree_iff_either (h : entry.Within) :
    (∀ t : Minute, entry.month.Selects 1 12 t.date.month →
      ((entry.dayOfMonth.Selects 1 31 t.date.day ∧
          entry.dayOfWeek.Selects 0 6 t.date.weekday) ↔
        (entry.dayOfMonth.Selects 1 31 t.date.day ∨
          entry.dayOfWeek.Selects 0 6 ((t.date.weekday + 1) % 7)))) ↔
      EveryWeekday entry ∧ ∀ month day, entry.month.Selects 1 12 month → 1 ≤ day →
        day ≤ daysInMonth true month → entry.dayOfMonth.Selects 1 31 day := by
  constructor
  · intro hall
    have hdays : ∀ month day, entry.month.Selects 1 12 month → 1 ≤ day →
        day ≤ daysInMonth true month → entry.dayOfMonth.Selects 1 31 day := by
      intro month day hmonth hpos hday
      -- On the day before a selected weekday only the crontab needs no day of the month.
      obtain ⟨weekday, hweekday⟩ := h.dayOfWeek.exists_selects (by decide)
      obtain ⟨t, rfl, rfl, ht⟩ :=
        exists_minute hmonth ⟨hpos, hday⟩ (Nat.mod_lt (weekday + 6) (by decide : 7 > 0))
      have hnext : (t.date.weekday + 1) % 7 = weekday := by
        have hle := hweekday.2.1
        omega
      refine ((hall t hmonth).mpr (.inr ?_)).1
      rwa [hnext]
    refine ⟨fun weekday hweekday => ?_, hdays⟩
    obtain ⟨month, hmonth⟩ := h.month.exists_selects (by decide)
    obtain ⟨t, rfl, -, rfl⟩ := exists_minute hmonth ⟨le_rfl, one_le_daysInMonth month⟩ hweekday
    have hday := hdays _ _ hmonth t.date.day_ge t.date.day_le_leap
    exact ((hall t hmonth).mpr (.inl hday)).2
  · rintro ⟨hweekdays, hdays⟩ t hmonth
    have hday := hdays _ _ hmonth t.date.day_ge t.date.day_le_leap
    exact iff_of_true ⟨hday, hweekdays _ t.date.weekday_lt⟩ (.inl hday)

/-- Where both days have to match, the trigger agrees only if all weekdays match, or
no day at all. -/
theorem agree_iff_both (h : entry.Within) :
    (∀ t : Minute, entry.month.Selects 1 12 t.date.month →
      ((entry.dayOfMonth.Selects 1 31 t.date.day ∧
          entry.dayOfWeek.Selects 0 6 t.date.weekday) ↔
        (entry.dayOfMonth.Selects 1 31 t.date.day ∧
          entry.dayOfWeek.Selects 0 6 ((t.date.weekday + 1) % 7)))) ↔
      EveryWeekday entry ∨ ∀ month day, entry.month.Selects 1 12 month → 1 ≤ day →
        day ≤ daysInMonth true month → ¬ entry.dayOfMonth.Selects 1 31 day := by
  constructor
  · intro hall
    by_cases hnone : ∀ month day, entry.month.Selects 1 12 month → 1 ≤ day →
        day ≤ daysInMonth true month → ¬ entry.dayOfMonth.Selects 1 31 day
    · exact .inr hnone
    · simp only [not_forall, not_not] at hnone
      obtain ⟨month, day, hmonth, hpos, hle, hday⟩ := hnone
      obtain ⟨v, hv⟩ := h.dayOfWeek.exists_selects (by decide)
      refine .inl (weekdays_of_shift (fun weekday hweekday => ?_) (Nat.lt_succ_of_le hv.2.1) hv)
      obtain ⟨t, rfl, rfl, rfl⟩ := exists_minute hmonth ⟨hpos, hle⟩ hweekday
      have hagree := hall t hmonth
      rwa [and_iff_right hday, and_iff_right hday] at hagree
  · rintro (hweekdays | hnone) t hmonth
    · have hthis := hweekdays _ t.date.weekday_lt
      have hnext := hweekdays _ (Nat.mod_lt (t.date.weekday + 1) (by decide : 7 > 0))
      exact iff_of_eq (by rw [eq_true hthis, eq_true hnext])
    · have hday := hnone _ _ hmonth t.date.day_ge t.date.day_le_leap
      exact iff_of_false (fun hmatch => hday hmatch.1) (fun hmatch => hday hmatch.1)

theorem keepsMeaning_iff (h : entry.Within) :
    (∀ t, FieldsMatch entry t ↔ entry.Fires t.instant) ↔ KeepsMeaning entry := by
  rw [agree_iff_dates h]
  unfold KeepsMeaning
  by_cases hboth : entry.BothRestricted
  · simp only [selectsDay_iff h, if_pos hboth]
    exact agree_iff_either h
  · simp only [selectsDay_iff h, if_neg hboth]
    exact agree_iff_both h

end

/-- The fields are the words of the expression, in their order. -/
theorem fields_of_parse {trigger : CronTrigger} {expression : String} {fields : CronFields}
    (h : parseCronExpression trigger expression = .ok fields) :
    trigger.construct fields = .ok () ∧ fields.entry? = crontab? expression := by
  have hwords : Crontab.words isSpace (strip expression).toList =
      Crontab.words isSpace expression.toList := by
    rw [strip, String.toList_ofList, Crontab.words_strip]
  unfold parseCronExpression at h
  rw [hwords] at h
  split at h
  · rename_i minute hour day month dayOfWeek hfive
    dsimp only at h
    split at h
    · rename_i hconstruct
      cases h
      exact ⟨hconstruct, by rw [crontab?, hfive]; rfl⟩
    · cases h
  · cases h

/-- An accepted expression fires as in a crontab exactly if all days of the week are
selected (and the day of the month, if it is restricted as well, is any), or if no
date is selected at all. -/
theorem cronMeaning_iff {trigger : CronTrigger} (htrigger : trigger.Documented)
    {expression : String} {fields : CronFields} {entry : Crontab.Entry}
    (hparse : parseCronExpression trigger expression = .ok fields)
    (hentry : crontab? expression = some entry) :
    (∀ t, trigger.fires fields t = true ↔ entry.Fires t.instant) ↔ KeepsMeaning entry := by
  obtain ⟨hconstruct, hfields⟩ := fields_of_parse hparse
  rw [hentry] at hfields
  rw [← keepsMeaning_iff (htrigger.within fields entry hconstruct hfields)]
  refine forall_congr' fun t => ?_
  rw [htrigger.fires_iff fields entry hconstruct hfields]

/-- A trigger that knows plain fields only. -/
def plainTrigger : CronTrigger where
  construct fields :=
    match fields.entry? with
    | some entry => if entry.Within then .ok () else .error "a value is out of range"
    | none => .error "unrecognized expression"
  fires fields t :=
    match fields.entry? with
    | some entry => decide (FieldsMatch entry t)
    | none => false

theorem plainTrigger_documented : plainTrigger.Documented := by
  constructor
  case within =>
    intro fields entry hconstruct hentry
    by_contra hwithin
    simp [plainTrigger, hentry, hwithin] at hconstruct
  case fires_iff =>
    intro fields entry _ hentry t
    simp [plainTrigger, hentry]

/-- At 09:00 on the days from the fifth to the tenth. -/
def daily : Crontab.Entry :=
  ⟨[.single 0], [.single 9], [.range 5 10 1], [.every 1], [.every 1]⟩

/-- At 09:00 on Mondays. -/
def mondays : Crontab.Entry := ⟨[.single 0], [.single 9], [.every 1], [.every 1], [.single 1]⟩

theorem parse_mondays : parseCronExpression plainTrigger "0 9 * * 1" =
    .ok ⟨"0", "9", "*", "*", "1"⟩ := by rfl

/-- The first keeps its meaning, and the second does not. -/
theorem cronMeaning_iff_mondays :
    (∀ t, plainTrigger.fires ⟨"0", "9", "5-10", "*", "*"⟩ t = true ↔ daily.Fires t.instant) ∧
    ¬ ∀ t, plainTrigger.fires ⟨"0", "9", "*", "*", "1"⟩ t = true ↔ mondays.Fires t.instant := by
  have hdaily : parseCronExpression plainTrigger "0 9 5-10 * *" =
      .ok ⟨"0", "9", "5-10", "*", "*"⟩ := by rfl
  constructor
  · refine (cronMeaning_iff plainTrigger_documented hdaily (by rfl)).mpr ?_
    rw [KeepsMeaning, if_neg (by decide)]
    exact .inl (by unfold EveryWeekday; decide)
  · intro hall
    have hkeeps := (cronMeaning_iff plainTrigger_documented parse_mondays (by rfl)).mp hall
    rw [KeepsMeaning, if_neg (by decide)] at hkeeps
    rcases hkeeps with hweekdays | hnone
    · exact absurd (hweekdays 2 (by decide)) (by decide)
    · exact hnone 1 1 (by decide) (by decide) (by decide) (by decide)

/-- 2026-01-05 at 09:00, a Monday. -/
def aMonday : Minute :=
  ⟨⟨2026, 1, 5, by decide, by decide, by decide, by decide, by decide, by decide⟩, 9, 0,
    by decide, by decide⟩

/-- The trigger does not fire on a Monday. -/
theorem not_cronMeaning :
    ¬ ∀ trigger : CronTrigger, trigger.Documented → ∀ expression fields entry,
      parseCronExpression trigger expression = .ok fields → crontab? expression = some entry →
        ∀ t, trigger.fires fields t = true ↔ entry.Fires t.instant := by
  intro hall
  have hfires := hall plainTrigger plainTrigger_documented _ _ mondays parse_mondays (by rfl)
    aMonday
  have hmonday : mondays.Fires aMonday.instant := by
    refine ⟨by decide, by decide, by decide, ?_⟩
    rw [Crontab.Entry.SelectsDay, if_neg (by decide)]
    exact ⟨by decide, 1, by decide, by decide, by decide⟩
  exact absurd (hfires.mpr hmonday) (by decide +kernel)

end WorkflowEngine.Cron

import Helm.Tick.Calendar

/-! # What the calendar engines count

  Each engine stands for a calendar, given by its month lengths alone
  (`Calendar.civil`). Counting its days one by one numbers the dates, and
  `Calendar.nanosOf` is the exact number of nanoseconds from the epoch to
  a date. The rest of the module evaluates the counts: the days before a
  month and before a year, in closed form, for each calendar.
-/

namespace Tick

open Signed

/-! ### The three calendars -/

/-- The leap years of the proleptic Gregorian calendar. -/
def IsLeap (y : Int) : Prop := 4 ∣ y ∧ ¬ 100 ∣ y ∨ 400 ∣ y

instance (y : Int) : Decidable (IsLeap y) := by
  unfold IsLeap
  infer_instance

/-- Month lengths of a common year. -/
def commonLength (m : Int) : Int :=
  if m = 2 then 28 else if m = 4 ∨ m = 6 ∨ m = 9 ∨ m = 11 then 30 else 31

theorem commonLength_pos (m : Int) : 0 < commonLength m := by
  unfold commonLength
  split
  · omega
  · split <;> omega

theorem gregorianLength_pos (y m : Int) :
    0 < if m = 2 ∧ IsLeap y then 29 else commonLength m := by
  split
  · omega
  · exact commonLength_pos m

theorem cal360Length_pos (_ _ : Int) : (0 : Int) < 30 := by omega

/-- The calendar an engine stands for. -/
def Calendar.civil : Calendar → CivilCalendar
  | .Gregorian =>
    { monthLength := fun y m => if m = 2 ∧ IsLeap y then 29 else commonLength m
      monthLength_pos := gregorianLength_pos }
  | .NoLeap =>
    { monthLength := fun _ m => commonLength m
      monthLength_pos := fun _ m => commonLength_pos m }
  | .Cal360 =>
    { monthLength := fun _ _ => 30
      monthLength_pos := cal360Length_pos }

/-- The number of a date, with 2026-01-01 as day zero. -/
noncomputable def Calendar.dayOf (cal : Calendar) (dt : DateTime) : Int :=
  cal.civil.dayNumber epoch_year dt.year.toInt dt.month.toInt dt.day.toInt

/-- Nanoseconds since midnight. -/
def timeOfDay (dt : DateTime) : Int :=
  dt.hour.toInt * nanos_per_hour + dt.minute.toInt * nanos_per_minute
    + dt.second.toInt * nanos_per_second + dt.nanosecond.toInt

/-- The exact count of nanoseconds from the epoch to a date. -/
noncomputable def Calendar.nanosOf (cal : Calendar) (dt : DateTime) : Int :=
  cal.dayOf dt * nanos_per_day + timeOfDay dt

/-- The dates of a calendar, with a time of day. -/
structure Calendar.Valid (cal : Calendar) (dt : DateTime) : Prop where
  date : cal.civil.IsDate dt.year.toInt dt.month.toInt dt.day.toInt
  hour : 0 ≤ dt.hour.toInt ∧ dt.hour.toInt ≤ 23
  minute : 0 ≤ dt.minute.toInt ∧ dt.minute.toInt ≤ 59
  second : 0 ≤ dt.second.toInt ∧ dt.second.toInt ≤ 59
  nanosecond : 0 ≤ dt.nanosecond.toInt ∧ dt.nanosecond.toInt ≤ 999999999

/-! ### Days before a month -/

theorem forall_month {P : Int → Prop} (h : ∀ k : Fin 12, P (k.val + 1)) {m : Int}
    (hm : 1 ≤ m ∧ m ≤ 12) : P m := by
  have hk := h ⟨(m - 1).toNat, by omega⟩
  have hcast : (((m - 1).toNat : Nat) : Int) + 1 = m := by omega
  exact hcast ▸ hk

theorem noLeap_daysBeforeMonth (y : Int) {m : Int} (hm : 1 ≤ m ∧ m ≤ 13) :
    Calendar.NoLeap.civil.daysBeforeMonth y m
      = (cum_days ++ [365]).getD (m - 1).toNat 0 := by
  obtain ⟨h1, h13⟩ := hm
  induction m, h1 using Int.leInduction with
  | base => simp [cum_days]
  | succ k hk ih =>
    rw [CivilCalendar.daysBeforeMonth_succ y hk, ih (by omega)]
    -- one month further in the table is one month length more
    have hstep := forall_month (P := fun k => (cum_days ++ [365]).getD (k - 1).toNat 0
      + commonLength k = (cum_days ++ [365]).getD (k + 1 - 1).toNat 0) (by decide)
      (m := k) ⟨hk, by omega⟩
    exact hstep

theorem noLeap_yearLength (y : Int) : Calendar.NoLeap.civil.yearLength y = 365 := by
  unfold CivilCalendar.yearLength
  rw [noLeap_daysBeforeMonth y (by omega)]
  decide

theorem noLeap_daysBeforeMonth_of_le (y : Int) {m : Int} (hm : 1 ≤ m ∧ m ≤ 12) :
    Calendar.NoLeap.civil.daysBeforeMonth y m = cum_days.getD (m - 1).toNat 0 := by
  rw [noLeap_daysBeforeMonth y (by omega)]
  have hlt : (m - 1).toNat < cum_days.length := by
    simp only [cum_days, List.length_cons, List.length_nil]
    omega
  rw [List.getD_append _ _ _ _ hlt]

theorem cal360_daysBeforeMonth (y : Int) {m : Int} (hm : 1 ≤ m) :
    Calendar.Cal360.civil.daysBeforeMonth y m = 30 * (m - 1) := by
  induction m, hm using Int.leInduction with
  | base => simp
  | succ k hk ih =>
    rw [CivilCalendar.daysBeforeMonth_succ y hk, ih]
    show 30 * (k - 1) + 30 = 30 * (k + 1 - 1)
    ring

theorem gregorian_daysBeforeMonth (y : Int) {m : Int} (hm : 1 ≤ m) :
    Calendar.Gregorian.civil.daysBeforeMonth y m
      = Calendar.NoLeap.civil.daysBeforeMonth y m
        + (if 2 < m ∧ IsLeap y then 1 else 0) := by
  induction m, hm using Int.leInduction with
  | base => simp
  | succ k hk ih =>
    rw [CivilCalendar.daysBeforeMonth_succ y hk, CivilCalendar.daysBeforeMonth_succ y hk, ih]
    show _ + (if k = 2 ∧ IsLeap y then 29 else commonLength k) = _ + commonLength k + _
    by_cases hleap : IsLeap y
    · obtain rfl | hk2 := eq_or_ne k 2
      · simp [hleap, commonLength]
        ring
      · simp only [hk2, hleap, and_true, if_false]
        split <;> split <;> omega
    · simp [hleap]

theorem gregorian_yearLength (y : Int) :
    Calendar.Gregorian.civil.yearLength y = 365 + (if IsLeap y then 1 else 0) := by
  have hnoleap := noLeap_yearLength y
  unfold CivilCalendar.yearLength at *
  rw [gregorian_daysBeforeMonth y (by omega), hnoleap]
  simp

/-! ### Days before a year -/

theorem noLeap_daysBeforeYear (y : Int) :
    Calendar.NoLeap.civil.daysBeforeYear epoch_year y = (y - 2026) * 365 := by
  apply CivilCalendar.daysBeforeYear_eq (f := fun y => (y - 2026) * 365)
  · decide
  · intro y
    rw [noLeap_yearLength]
    ring

theorem cal360_daysBeforeYear (y : Int) :
    Calendar.Cal360.civil.daysBeforeYear epoch_year y = (y - 2026) * 360 := by
  apply CivilCalendar.daysBeforeYear_eq (f := fun y => (y - 2026) * 360)
  · decide
  · intro y
    unfold CivilCalendar.yearLength
    rw [cal360_daysBeforeMonth y (by omega)]
    ring

/-- Days from 0000-03-01 to the first of March of year `y`. -/
def marchStart (y : Int) : Int := 365 * y + y / 4 - y / 100 + y / 400

theorem marchStart_succ (y : Int) :
    marchStart (y + 1) = marchStart y + 365 + (if IsLeap (y + 1) then 1 else 0) := by
  unfold marchStart
  by_cases hleap : IsLeap (y + 1)
  · rw [if_pos hleap]
    unfold IsLeap at hleap
    omega
  · rw [if_neg hleap]
    unfold IsLeap at hleap
    omega

theorem gregorian_daysBeforeYear (y : Int) :
    Calendar.Gregorian.civil.daysBeforeYear epoch_year y
      = marchStart (y - 1) - marchStart 2025 := by
  apply CivilCalendar.daysBeforeYear_eq (f := fun y => marchStart (y - 1) - marchStart 2025)
  · decide
  · intro y
    have hstep := marchStart_succ (y - 1)
    rw [sub_add_cancel] at hstep
    rw [gregorian_yearLength, add_sub_cancel_right]
    omega

end Tick

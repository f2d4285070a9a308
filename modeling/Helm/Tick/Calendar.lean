import Helm.Framework.CivilCalendar
import Helm.Tick.Time

/-! # TICK calendar engines

  The three calendar engines, `Gregorian_Calendar`, `NoLeap_Calendar` and
  `Cal360_Calendar`, each with its validation and its two conversions
  between `Date_Time` and `Time_Point`. `Time_Point{0}` is
  2026-01-01T00:00:00 in all of them.

  Day numbers stay far below `2 ^ 63` in absolute value, so the operators
  on days are exact and are written over `Int`. What can overflow is the
  step from days to nanoseconds, where every operator is `signed`, and
  the `int32_t` year difference of the 360-day calendar.

  The second half states what the engines are for: `Calendar.civil` gives
  each calendar by its month lengths, and `nanosOf` is the exact number of
  nanoseconds from the epoch to a date.
-/

namespace Tick

open Signed

/-! ### Shared steps of the three engines -/

def epoch_year : Int := 2026

/-- One range check of `validate`. -/
def check_field (x : Int32) (lo hi : Int) (what : String) : Cpp Unit :=
  require (lo ≤ x.toInt ∧ x.toInt ≤ hi) (.invalid_argument what)

/-- The days of each month of a common year. -/
def month_table : List Int := [31, 28, 31, 30, 31, 30, 31, 31, 30, 31, 30, 31]

/-- Cumulative days at the start of each month of a common year. -/
def cum_days : List Int := [0, 31, 59, 90, 120, 151, 181, 212, 243, 273, 304, 334]

/-- The decomposition of the nanoseconds of one day that ends each
    `to_date_time`. -/
def with_time_of_day (year month day : Int32) (sub_day : Int) : DateTime :=
  let rem := sub_day.tmod nanos_per_hour
  let rem' := rem.tmod nanos_per_minute
  { year, month, day
    hour := .ofInt (sub_day.tdiv nanos_per_hour)
    minute := .ofInt (rem.tdiv nanos_per_minute)
    second := .ofInt (rem'.tdiv nanos_per_second)
    nanosecond := .ofInt (rem'.tmod nanos_per_second) }

/-! ### Gregorian_Calendar -/

namespace GregorianCalendar

def is_leap_year (year : Int32) : Bool :=
  (year.toInt.tmod 4 == 0 && year.toInt.tmod 100 != 0) || year.toInt.tmod 400 == 0

/-- The text of a failed check names the value and the range. -/
def range_text (field : String) (x : Int32) (lo hi : Int) : String :=
  "Invalid " ++ field ++ ": " ++ toString x ++ " not in range [" ++ toString lo ++ ", "
    ++ toString hi ++ "]"

def days_in_month (year month : Int32) : Cpp Int32 := do
  check_field month 1 12 (range_text "month" month 1 12)
  if month.toInt = 2 ∧ is_leap_year year then
    return 29
  else
    return .ofInt (month_table.getD (month.toInt - 1).toNat 0)

def validate (dt : DateTime) : Cpp Unit := do
  check_field dt.month 1 12 (range_text "month" dt.month 1 12)
  let max_day ← days_in_month dt.year dt.month
  check_field dt.day 1 max_day.toInt (range_text "day" dt.day 1 max_day.toInt)
  check_field dt.hour 0 23 (range_text "hour" dt.hour 0 23)
  check_field dt.minute 0 59 (range_text "minute" dt.minute 0 59)
  check_field dt.second 0 59 (range_text "second" dt.second 0 59)
  check_field dt.nanosecond 0 999999999 (range_text "nanosecond" dt.nanosecond 0 999999999)

/-- Days of a civil date; years start in March so that the leap day comes
    last. -/
def civil_to_days (y m d : Int) : Int :=
  let yr := y - (if m ≤ 2 then 1 else 0)
  let era := (if 0 ≤ yr then yr else yr - 399).tdiv 400
  let yoe := yr - era * 400
  let mp := m + (if m > 2 then -3 else 9)
  let doy := (153 * mp + 2).tdiv 5 + d - 1
  let doe := yoe * 365 + yoe.tdiv 4 - yoe.tdiv 100 + doy
  let days := era * 146097 + doe
  days - 719468

structure Civil where
  year : Int32
  month : Int32
  day : Int32

/-- Civil date of a day number. -/
def days_to_civil (z : Int) : Civil :=
  let z := z + 719468
  let era := (if 0 ≤ z then z else z - 146096).tdiv 146097
  let doe := z - era * 146097
  let yoe := (doe - doe.tdiv 1460 + doe.tdiv 36524 - doe.tdiv 146096).tdiv 365
  let y := yoe + era * 400
  let doy := doe - (365 * yoe + yoe.tdiv 4 - yoe.tdiv 100)
  let mp := (5 * doy + 2).tdiv 153
  let d := doy - (153 * mp + 2).tdiv 5 + 1
  let m := mp + (if mp < 10 then 3 else -9)
  let yr := y + (if m ≤ 2 then 1 else 0)
  ⟨.ofInt yr, .ofInt m, .ofInt d⟩

def epoch_day_offset : Int := civil_to_days 2026 1 1

/-- Floored division; `(a ^ b) < 0` tests that the signs differ. -/
def floor_div (a b : Int) : Int :=
  a.tdiv b - (if a.tmod b ≠ 0 ∧ (decide (a < 0) ≠ decide (b < 0)) then 1 else 0)

def to_time_point (dt : DateTime) : Cpp TimePoint := do
  validate dt
  let days := civil_to_days dt.year.toInt dt.month.toInt dt.day.toInt
  let days := days - epoch_day_offset
  let nanos ← signed 64 (days * nanos_per_day)
  let nanos ← signed 64 (nanos + dt.hour.toInt * nanos_per_hour)
  let nanos ← signed 64 (nanos + dt.minute.toInt * nanos_per_minute)
  let nanos ← signed 64 (nanos + dt.second.toInt * nanos_per_second)
  let nanos ← signed 64 (nanos + dt.nanosecond.toInt)
  return ⟨.ofInt nanos⟩

def to_date_time (tp : TimePoint) : Cpp DateTime := do
  let nanos := tp.nanos.toInt
  let day_offset := floor_div nanos nanos_per_day
  let day_nanos ← signed 64 (day_offset * nanos_per_day)
  let sub_day ← signed 64 (nanos - day_nanos)
  let civil := days_to_civil (day_offset + epoch_day_offset)
  return with_time_of_day civil.year civil.month civil.day sub_day

end GregorianCalendar

/-! ### NoLeap_Calendar -/

namespace NoLeapCalendar

def days_in_month (_year month : Int32) : Cpp Int32 := do
  check_field month 1 12 "Invalid month: value not in range [1, 12]"
  return .ofInt (month_table.getD (month.toInt - 1).toNat 0)

def validate (dt : DateTime) : Cpp Unit := do
  check_field dt.month 1 12 "Invalid month: value not in range [1, 12]"
  let max_day ← days_in_month dt.year dt.month
  require (¬ (dt.month.toInt = 2 ∧ dt.day.toInt = 29))
    (.invalid_argument "Invalid day: February 29 is invalid in the NoLeap calendar")
  check_field dt.day 1 max_day.toInt "Invalid day: value out of range for the given month"
  check_field dt.hour 0 23 "Invalid hour: value not in range [0, 23]"
  check_field dt.minute 0 59 "Invalid minute: value not in range [0, 59]"
  check_field dt.second 0 59 "Invalid second: value not in range [0, 59]"
  check_field dt.nanosecond 0 999999999 "Invalid nanosecond: value not in range [0, 999999999]"

/-- The loop of `to_date_time` that walks the cumulative table from
    December down. -/
def find_month (day_in_year : Int) : Int :=
  match [11, 10, 9, 8, 7, 6, 5, 4, 3, 2, 1, 0].find?
      (fun m => decide (cum_days.getD m 0 ≤ day_in_year)) with
  | some m => m + 1
  | none => 12

def to_date_time (tp : TimePoint) : Cpp DateTime := do
  let nanos := tp.nanos.toInt
  let day_offset := nanos.tdiv nanos_per_day
  let sub_day_nanos := nanos.tmod nanos_per_day
  let (day_offset, sub_day_nanos) :=
    if sub_day_nanos < 0 then (day_offset - 1, sub_day_nanos + nanos_per_day)
    else (day_offset, sub_day_nanos)
  let (year_offset, day_in_year) :=
    if 0 ≤ day_offset then (day_offset.tdiv 365, day_offset.tmod 365)
    else
      let year_offset := (day_offset + 1).tdiv 365 - 1
      (year_offset, day_offset - year_offset * 365)
  let year ← signed 32 ((Int32.ofInt year_offset).toInt + 2026)
  let month := find_month day_in_year
  let day ← signed 32
    ((Int32.ofInt (day_in_year - cum_days.getD (month - 1).toNat 0)).toInt + 1)
  return with_time_of_day (.ofInt year) (.ofInt month) (.ofInt day) sub_day_nanos

def to_time_point (dt : DateTime) : Cpp TimePoint := do
  validate dt
  let year_offset := dt.year.toInt - 2026
  let day_offset := year_offset * 365 + cum_days.getD (dt.month.toInt - 1).toNat 0
    + (dt.day.toInt - 1)
  let nanos ← signed 64 (day_offset * nanos_per_day)
  let nanos ← signed 64 (nanos + dt.hour.toInt * nanos_per_hour)
  let nanos ← signed 64 (nanos + dt.minute.toInt * nanos_per_minute)
  let nanos ← signed 64 (nanos + dt.second.toInt * nanos_per_second)
  let nanos ← signed 64 (nanos + dt.nanosecond.toInt)
  return ⟨.ofInt nanos⟩

end NoLeapCalendar

/-! ### Cal360_Calendar -/

namespace Cal360Calendar

/-- Floored division; the test `(r ^ b) < 0` looks at the remainder. -/
def floor_div (a b : Int) : Int :=
  let q := a.tdiv b
  let r := a.tmod b
  if r ≠ 0 ∧ (decide (r < 0) ≠ decide (b < 0)) then q - 1 else q

def days_in_month (_year month : Int32) : Cpp Int32 := do
  check_field month 1 12 "Invalid month: value not in range [1, 12]"
  return 30

def validate (dt : DateTime) : Cpp Unit := do
  check_field dt.month 1 12 "Invalid month: value not in range [1, 12]"
  check_field dt.day 1 30 "Invalid day: value not in range [1, 30]"
  check_field dt.hour 0 23 "Invalid hour: value not in range [0, 23]"
  check_field dt.minute 0 59 "Invalid minute: value not in range [0, 59]"
  check_field dt.second 0 59 "Invalid second: value not in range [0, 59]"
  check_field dt.nanosecond 0 999999999 "Invalid nanosecond: value not in range [0, 999999999]"

def to_date_time (tp : TimePoint) : Cpp DateTime := do
  let total_nanos := tp.nanos.toInt
  let day_offset := floor_div total_nanos nanos_per_day
  let day_nanos ← signed 64 (day_offset * nanos_per_day)
  let sub_day_nanos ← signed 64 (total_nanos - day_nanos)
  let year_offset := (Int32.ofInt (floor_div day_offset 360)).toInt
  let day_in_year := day_offset - year_offset * 360
  let month ← signed 32 ((Int32.ofInt (day_in_year.tdiv 30)).toInt + 1)
  let day ← signed 32 ((Int32.ofInt (day_in_year.tmod 30)).toInt + 1)
  let year ← signed 32 (epoch_year + year_offset)
  return with_time_of_day (.ofInt year) (.ofInt month) (.ofInt day) sub_day_nanos

def to_time_point (dt : DateTime) : Cpp TimePoint := do
  validate dt
  -- an `int32_t` difference
  let year_offset ← signed 32 (dt.year.toInt - epoch_year)
  let day_offset := year_offset * 360 + (dt.month.toInt - 1) * 30 + (dt.day.toInt - 1)
  let sub_day_nanos := dt.hour.toInt * nanos_per_hour + dt.minute.toInt * nanos_per_minute
    + dt.second.toInt * nanos_per_second + dt.nanosecond.toInt
  let day_nanos ← signed 64 (day_offset * nanos_per_day)
  let total_nanos ← signed 64 (day_nanos + sub_day_nanos)
  return ⟨.ofInt total_nanos⟩

end Cal360Calendar

/-! ### The engines as one family -/

/-- The classes that satisfy the concept `Calendar`. -/
inductive Calendar
  | Gregorian | NoLeap | Cal360
  deriving DecidableEq

namespace Calendar

def days_in_month : Calendar → Int32 → Int32 → Cpp Int32
  | Gregorian => GregorianCalendar.days_in_month
  | NoLeap => NoLeapCalendar.days_in_month
  | Cal360 => Cal360Calendar.days_in_month

def validate : Calendar → DateTime → Cpp Unit
  | Gregorian => GregorianCalendar.validate
  | NoLeap => NoLeapCalendar.validate
  | Cal360 => Cal360Calendar.validate

def to_time_point : Calendar → DateTime → Cpp TimePoint
  | Gregorian => GregorianCalendar.to_time_point
  | NoLeap => NoLeapCalendar.to_time_point
  | Cal360 => Cal360Calendar.to_time_point

def to_date_time : Calendar → TimePoint → Cpp DateTime
  | Gregorian => GregorianCalendar.to_date_time
  | NoLeap => NoLeapCalendar.to_date_time
  | Cal360 => Cal360Calendar.to_date_time

end Calendar

end Tick

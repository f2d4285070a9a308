import Helm.Tick.RoundTrip

/-! # Day numbers against the calendar

  The Gregorian engine converts between dates and day numbers with closed
  formulas. Here they are compared with the calendar as it is defined by
  its rules: `next_day` goes from a date to the day after by rolling over
  `days_in_month` and month 12, and every step is one day number, one
  weekday and one day of the year.
-/

namespace Tick

open Signed

/-! ### The functions -/

namespace GregorianCalendar

/-- The day of the week, from Monday to Sunday. -/
def day_of_week (dt : DateTime) : Cpp Int32 := do
  validate dt
  let z := civil_to_days dt.year.toInt dt.month.toInt dt.day.toInt
  let w := (z + 3).tmod 7
  -- the remainder of a negative sum is negative
  let w := if w < 0 then w + 7 else w
  return .ofInt (w + 1)

def days_before_month_common : List Int := [0, 31, 59, 90, 120, 151, 181, 212, 243, 273, 304, 334]

def days_before_month_leap : List Int := [0, 31, 60, 91, 121, 152, 182, 213, 244, 274, 305, 335]

def day_of_year (dt : DateTime) : Cpp Int32 := do
  validate dt
  let offset :=
    if is_leap_year dt.year then days_before_month_leap.getD (dt.month.toInt - 1).toNat 0
    else days_before_month_common.getD (dt.month.toInt - 1).toNat 0
  let day ← signed 32 (offset + dt.day.toInt)
  return .ofInt day

/-- The day after, by the rules of the calendar. Only the year can leave the
    range of an `int32_t`. -/
def next_day (dt : DateTime) : Cpp DateTime := do
  let max_day ← days_in_month dt.year dt.month
  if dt.day.toInt < max_day.toInt then
    return { dt with day := .ofInt (dt.day.toInt + 1) }
  else if dt.month.toInt < 12 then
    return { dt with month := .ofInt (dt.month.toInt + 1), day := 1 }
  else do
    let year ← signed 32 (dt.year.toInt + 1)
    return { dt with year := .ofInt year, month := 1, day := 1 }

end GregorianCalendar

/-! ### The rules -/

/-- `next_day` is the day after in the calendar of the engine. -/
theorem next_day_follows {dt dt' : DateTime} (hvalid : Calendar.Gregorian.Valid dt)
    (hnext : GregorianCalendar.next_day dt = .returned dt') :
    Calendar.Gregorian.civil.Follows dt.year.toInt dt.month.toInt dt.day.toInt
        dt'.year.toInt dt'.month.toInt dt'.day.toInt ∧
      Calendar.Gregorian.Valid dt' := by
  obtain ⟨hm, hd1, hd⟩ := hvalid.date
  have hlength := toInt_monthLength .Gregorian dt.year.toInt dt.month.toInt
  have hle := monthLength_le .Gregorian dt.year.toInt dt.month.toInt
  have hdays := Calendar.days_in_month_eq .Gregorian dt.year dt.month hm
  change GregorianCalendar.days_in_month dt.year dt.month = _ at hdays
  have hstep : Calendar.Gregorian.civil.Follows dt.year.toInt dt.month.toInt dt.day.toInt
      dt'.year.toInt dt'.month.toInt dt'.day.toInt ∧ dt'.hour = dt.hour ∧
      dt'.minute = dt.minute ∧ dt'.second = dt.second ∧ dt'.nanosecond = dt.nanosecond := by
    unfold GregorianCalendar.next_day at hnext
    rw [hdays, Outcome.returned_bind, hlength] at hnext
    split at hnext
    · next hlt =>
      obtain rfl := Outcome.returned.inj hnext
      have hday : (Int32.ofInt (dt.day.toInt + 1)).toInt = dt.day.toInt + 1 :=
        toInt_ofInt32_of_fits (by rw [fits_32]; omega)
      exact ⟨.inl ⟨hlt, rfl, rfl, hday⟩, rfl, rfl, rfl, rfl⟩
    · next hlast =>
      have hlast : dt.day.toInt = _ := le_antisymm hd (not_lt.mp hlast)
      split at hnext
      · next hlt =>
        obtain rfl := Outcome.returned.inj hnext
        have hmonth : (Int32.ofInt (dt.month.toInt + 1)).toInt = dt.month.toInt + 1 :=
          toInt_ofInt32_of_fits (by rw [fits_32]; omega)
        exact ⟨.inr ⟨hlast, rfl, .inl ⟨hlt, rfl, hmonth⟩⟩, rfl, rfl, rfl, rfl⟩
      · next hdec =>
        obtain ⟨year, hyear, heq⟩ := Outcome.bind_eq_returned.mp hnext
        obtain rfl := signed_eq_returned hyear
        obtain rfl := Outcome.returned.inj heq
        have hfits : Fits 32 (dt.year.toInt + 1) := by
          by_contra hno
          rw [signed_of_not_fits hno] at hyear
          cases hyear
        exact ⟨.inr ⟨hlast, rfl, .inr ⟨by omega, toInt_ofInt32_of_fits hfits, rfl⟩⟩,
          rfl, rfl, rfl, rfl⟩
  obtain ⟨hfollows, hh, hmi, hs, hn⟩ := hstep
  exact ⟨hfollows, hvalid.date.of_follows hfollows, hh ▸ hvalid.hour, hmi ▸ hvalid.minute,
    hs ▸ hvalid.second, hn ▸ hvalid.nanosecond⟩

theorem civil_to_days_follows {y m d y' m' d' : Int}
    (hdate : Calendar.Gregorian.civil.IsDate y m d)
    (hnext : Calendar.Gregorian.civil.Follows y m d y' m' d') :
    GregorianCalendar.civil_to_days y' m' d' = GregorianCalendar.civil_to_days y m d + 1 := by
  have h := civil_to_days_eq y d hdate.1
  have h' := civil_to_days_eq y' d' (hdate.of_follows hnext).1
  have hcount := CivilCalendar.dayNumber_follows epoch_year hdate.1.1 hnext
  omega

theorem days_to_civil_to_days {y m d : Int32}
    (hdate : Calendar.Gregorian.civil.IsDate y.toInt m.toInt d.toInt) :
    GregorianCalendar.days_to_civil
      (GregorianCalendar.civil_to_days y.toInt m.toInt d.toInt) = ⟨y, m, d⟩ := by
  obtain ⟨y', m', d', hcivil, hdate', hnum, -⟩ := days_to_civil_spec
    (GregorianCalendar.civil_to_days y.toInt m.toInt d.toInt)
  -- two dates with one number are the same
  have hnumber : Calendar.Gregorian.civil.dayNumber epoch_year y' m' d' =
      Calendar.Gregorian.civil.dayNumber epoch_year y.toInt m.toInt d.toInt := by
    rw [← civil_to_days_eq y' d' hdate'.1, ← civil_to_days_eq _ _ hdate.1, hnum]
  obtain ⟨rfl, rfl, rfl⟩ := hdate'.dayNumber_inj epoch_year hdate hnumber
  rw [hcivil, Int32.ofInt_toInt, Int32.ofInt_toInt, Int32.ofInt_toInt]

/-! ### Weekdays and days of the year -/

theorem day_of_week_eq {dt : DateTime} (hvalid : Calendar.Gregorian.Valid dt) :
    GregorianCalendar.day_of_week dt = .returned (.ofInt
      ((GregorianCalendar.civil_to_days dt.year.toInt dt.month.toInt dt.day.toInt + 3) % 7 + 1))
    := by
  have hvalidate := Calendar.validate_of_valid hvalid
  change GregorianCalendar.validate dt = _ at hvalidate
  have hfloor := tdiv_tmod_borrow
    (GregorianCalendar.civil_to_days dt.year.toInt dt.month.toInt dt.day.toInt + 3)
    (show (0 : Int) < 7 by omega)
  have hresidue := congrArg Prod.snd hfloor
  rw [apply_ite Prod.snd] at hresidue
  unfold GregorianCalendar.day_of_week
  rw [hvalidate, Outcome.returned_bind]
  exact congrArg (fun w => Outcome.returned (Int32.ofInt (w + 1))) hresidue

theorem day_of_year_eq {dt : DateTime} (hvalid : Calendar.Gregorian.Valid dt) :
    GregorianCalendar.day_of_year dt = .returned (.ofInt
      (GregorianCalendar.civil_to_days dt.year.toInt dt.month.toInt dt.day.toInt
        - GregorianCalendar.civil_to_days dt.year.toInt 1 1 + 1)) := by
  obtain ⟨hm, hd1, hd⟩ := hvalid.date
  have hle := monthLength_le .Gregorian dt.year.toInt dt.month.toInt
  have hvalidate := Calendar.validate_of_valid hvalid
  change GregorianCalendar.validate dt = _ at hvalidate
  have hdays := civil_to_days_eq dt.year.toInt dt.day.toInt hm
  have hfirst := civil_to_days_eq dt.year.toInt 1 (m := 1) (by omega)
  unfold CivilCalendar.dayNumber at hdays hfirst
  rw [gregorian_daysBeforeMonth _ hm.1, noLeap_daysBeforeMonth_of_le _ hm] at hdays
  rw [CivilCalendar.daysBeforeMonth_one] at hfirst
  -- the second table is the first with the leap day after February
  have htable := forall_month (P := fun m =>
    GregorianCalendar.days_before_month_leap.getD (m - 1).toNat 0 =
      cum_days.getD (m - 1).toNat 0 + (if 2 < m then 1 else 0) ∧
    GregorianCalendar.days_before_month_common.getD (m - 1).toNat 0 =
      cum_days.getD (m - 1).toNat 0 ∧
    0 ≤ cum_days.getD (m - 1).toNat 0 ∧ cum_days.getD (m - 1).toNat 0 ≤ 334) (by decide) hm
  obtain ⟨hleap, hcommon, htable0, htable1⟩ := htable
  have hoffset : (if GregorianCalendar.is_leap_year dt.year then
      GregorianCalendar.days_before_month_leap.getD (dt.month.toInt - 1).toNat 0
      else GregorianCalendar.days_before_month_common.getD (dt.month.toInt - 1).toNat 0) =
      cum_days.getD (dt.month.toInt - 1).toNat 0 +
        (if 2 < dt.month.toInt ∧ IsLeap dt.year.toInt then 1 else 0) := by
    by_cases hyear : IsLeap dt.year.toInt
    · rw [if_pos ((is_leap_year_iff _).mpr hyear), hleap]
      simp [hyear]
    · rw [if_neg fun h => hyear ((is_leap_year_iff _).mp h), hcommon]
      simp [hyear]
  have hbounds : 0 ≤ (if 2 < dt.month.toInt ∧ IsLeap dt.year.toInt then (1 : Int) else 0) ∧
      (if 2 < dt.month.toInt ∧ IsLeap dt.year.toInt then (1 : Int) else 0) ≤ 1 := by
    split <;> omega
  unfold GregorianCalendar.day_of_year
  simp only [hvalidate, Outcome.returned_bind, hoffset]
  rw [signed_of_fits (by rw [fits_32]; omega), Outcome.returned_bind]
  show Outcome.returned (Int32.ofInt _) = _
  congr 2
  omega

/-! ### The formulas and the rules -/

theorem next_day_returns {dt : DateTime} (hvalid : Calendar.Gregorian.Valid dt)
    (hyear : Fits 32 (dt.year.toInt + 1)) :
    ∃ dt', GregorianCalendar.next_day dt = .returned dt' := by
  have hdays := Calendar.days_in_month_eq .Gregorian dt.year dt.month hvalid.date.1
  change GregorianCalendar.days_in_month dt.year dt.month = _ at hdays
  unfold GregorianCalendar.next_day
  rw [hdays, Outcome.returned_bind, signed_of_fits hyear]
  split
  · exact ⟨_, rfl⟩
  · split
    · exact ⟨_, rfl⟩
    · exact ⟨_, rfl⟩

/-- **The day numbers follow the calendar.** For every date that `validate`
    accepts: `days_to_civil` inverts `civil_to_days`; `day_of_year` counts
    from the first of January; and the day after, by the rules of the
    calendar, has the next day number and the next weekday. -/
theorem day_numbers_follow_calendar {dt : DateTime}
    (hvalidate : GregorianCalendar.validate dt = .returned ()) :
    GregorianCalendar.days_to_civil
        (GregorianCalendar.civil_to_days dt.year.toInt dt.month.toInt dt.day.toInt)
      = ⟨dt.year, dt.month, dt.day⟩ ∧
    GregorianCalendar.day_of_year dt = .returned (.ofInt
      (GregorianCalendar.civil_to_days dt.year.toInt dt.month.toInt dt.day.toInt
        - GregorianCalendar.civil_to_days dt.year.toInt 1 1 + 1)) ∧
    (Fits 32 (dt.year.toInt + 1) → ∃ dt', GregorianCalendar.next_day dt = .returned dt') ∧
    ∀ dt', GregorianCalendar.next_day dt = .returned dt' →
      GregorianCalendar.civil_to_days dt'.year.toInt dt'.month.toInt dt'.day.toInt
        = GregorianCalendar.civil_to_days dt.year.toInt dt.month.toInt dt.day.toInt + 1 ∧
      GregorianCalendar.days_to_civil
          (GregorianCalendar.civil_to_days dt.year.toInt dt.month.toInt dt.day.toInt + 1)
        = ⟨dt'.year, dt'.month, dt'.day⟩ ∧
      ∃ w : Int, (1 ≤ w ∧ w ≤ 7) ∧ GregorianCalendar.day_of_week dt = .returned (.ofInt w) ∧
        GregorianCalendar.day_of_week dt' = .returned (.ofInt (w % 7 + 1)) := by
  have hvalid : Calendar.Gregorian.Valid dt := by
    apply Calendar.validate_iff.mp
    exact hvalidate
  refine ⟨days_to_civil_to_days hvalid.date, day_of_year_eq hvalid, next_day_returns hvalid, ?_⟩
  intro dt' hnext
  obtain ⟨hfollows, hvalid'⟩ := next_day_follows hvalid hnext
  have hsucc := civil_to_days_follows hvalid.date hfollows
  have hcivil := days_to_civil_to_days hvalid'.date
  rw [hsucc] at hcivil
  refine ⟨hsucc, hcivil, _, ?_, day_of_week_eq hvalid, ?_⟩
  · omega
  · rw [day_of_week_eq hvalid', hsucc]
    congr 2
    omega

theorem day_numbers_leap_day :
    GregorianCalendar.day_of_year ⟨2024, 2, 29, 0, 0, 0, 0⟩ = .returned 60 ∧
      GregorianCalendar.next_day ⟨2024, 2, 29, 0, 0, 0, 0⟩ = .returned ⟨2024, 3, 1, 0, 0, 0, 0⟩ ∧
      GregorianCalendar.civil_to_days 2024 3 1 = GregorianCalendar.civil_to_days 2024 2 29 + 1 := by
  have hvalidate : GregorianCalendar.validate ⟨2024, 2, 29, 0, 0, 0, 0⟩ = .returned () := by
    decide +kernel
  have hnext : GregorianCalendar.next_day ⟨2024, 2, 29, 0, 0, 0, 0⟩ =
      .returned ⟨2024, 3, 1, 0, 0, 0, 0⟩ := by
    decide +kernel
  obtain ⟨-, hyear, -, hall⟩ := day_numbers_follow_calendar hvalidate
  refine ⟨hyear.trans (by decide +kernel), hnext, ?_⟩
  exact (hall _ hnext).1

end Tick

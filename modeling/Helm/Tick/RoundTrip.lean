import Helm.Tick.DayArithmetic

/-! # Conversions between dates and instants

  One specification for each engine function, uniform over the three
  engines, and the round trips that follow from them:

  * `validate` accepts exactly the dates of the calendar;
  * `to_time_point` returns the exact count of nanoseconds when that
    count and the midnight before it are representable, and is undefined
    otherwise;
  * `to_date_time` returns the date whose count is the given instant.
-/

namespace Tick

open Signed

/-! ### Validation -/

/-- The call checks `p`: it returns when `p` holds and throws
    `invalid_argument` when it does not. -/
def Checks (x : Cpp Unit) (p : Prop) : Prop :=
  (p ∧ x = .returned ()) ∨ (¬ p ∧ ∃ what, x = .thrown (.invalid_argument what))

theorem Checks.require (p : Prop) [Decidable p] (what : String) :
    Checks (require p (.invalid_argument what)) p := by
  by_cases h : p
  · exact .inl ⟨h, require_of h⟩
  · exact .inr ⟨h, what, require_of_not h⟩

theorem check_field_of {x : Int32} {lo hi : Int} {what : String}
    (h : lo ≤ x.toInt ∧ x.toInt ≤ hi) : check_field x lo hi what = .returned () :=
  require_of h

theorem Checks.field (x : Int32) (lo hi : Int) (what : String) :
    Checks (check_field x lo hi what) (lo ≤ x.toInt ∧ x.toInt ≤ hi) :=
  Checks.require _ _

theorem Checks.and {x : Cpp Unit} {f : Unit → Cpp Unit} {p q : Prop}
    (hx : Checks x p) (hf : p → Checks (f ()) q) : Checks (x >>= f) (p ∧ q) := by
  obtain ⟨hp, rfl⟩ | ⟨hp, what, rfl⟩ := hx
  · obtain ⟨hq, hf'⟩ | ⟨hq, what, hf'⟩ := hf hp
    · exact .inl ⟨⟨hp, hq⟩, hf'⟩
    · exact .inr ⟨fun h => hq h.2, what, hf'⟩
  · exact .inr ⟨fun h => hp h.1, what, rfl⟩

theorem Checks.congr {x : Cpp Unit} {p q : Prop} (hx : Checks x p) (h : p ↔ q) :
    Checks x q := by
  unfold Checks
  rw [← h]
  exact hx

theorem monthLength_le (cal : Calendar) (y m : Int) : cal.civil.monthLength y m ≤ 31 := by
  cases cal with
  | Gregorian =>
    show (if m = 2 ∧ IsLeap y then 29 else commonLength m) ≤ 31
    unfold commonLength
    split
    · omega
    · split
      · omega
      · split <;> omega
  | NoLeap =>
    show commonLength m ≤ 31
    unfold commonLength
    split
    · omega
    · split <;> omega
  | Cal360 =>
    show (30 : Int) ≤ 31
    omega

theorem toInt_monthLength (cal : Calendar) (y m : Int) :
    (Int32.ofInt (cal.civil.monthLength y m)).toInt = cal.civil.monthLength y m := by
  have h0 := cal.civil.monthLength_pos y m
  have h1 := monthLength_le cal y m
  apply toInt_ofInt32_of_fits
  rw [fits_32]
  omega

theorem month_table_eq {m : Int} (hm : 1 ≤ m ∧ m ≤ 12) :
    month_table.getD (m - 1).toNat 0 = commonLength m :=
  forall_month (P := fun k => month_table.getD (k - 1).toNat 0 = commonLength k) (by decide) hm

theorem is_leap_year_iff (y : Int32) :
    GregorianCalendar.is_leap_year y = true ↔ IsLeap y.toInt := by
  unfold GregorianCalendar.is_leap_year IsLeap
  simp only [Bool.or_eq_true, Bool.and_eq_true, beq_iff_eq, bne_iff_ne, ne_eq,
    tmod_eq_zero_iff]

theorem Calendar.days_in_month_eq (cal : Calendar) (y m : Int32)
    (hm : 1 ≤ m.toInt ∧ m.toInt ≤ 12) :
    cal.days_in_month y m
      = .returned (.ofInt (cal.civil.monthLength y.toInt m.toInt)) := by
  cases cal with
  | Gregorian =>
    show GregorianCalendar.days_in_month y m = .returned (.ofInt
      (if m.toInt = 2 ∧ IsLeap y.toInt then 29 else commonLength m.toInt))
    unfold GregorianCalendar.days_in_month
    rw [check_field_of hm, Outcome.returned_bind, month_table_eq hm]
    by_cases hleap : m.toInt = 2 ∧ IsLeap y.toInt
    · rw [if_pos hleap, if_pos ⟨hleap.1, (is_leap_year_iff y).mpr hleap.2⟩]
      rfl
    · rw [if_neg hleap, if_neg fun h => hleap ⟨h.1, (is_leap_year_iff y).mp h.2⟩]
      rfl
  | NoLeap =>
    show NoLeapCalendar.days_in_month y m = .returned (.ofInt (commonLength m.toInt))
    unfold NoLeapCalendar.days_in_month
    rw [check_field_of hm, Outcome.returned_bind, month_table_eq hm]
    rfl
  | Cal360 =>
    show Cal360Calendar.days_in_month y m = .returned (.ofInt 30)
    unfold Cal360Calendar.days_in_month
    rw [check_field_of hm]
    rfl

theorem checks_time_of_day (dt : DateTime) (what1 what2 what3 what4 : String) :
    Checks (do
        check_field dt.hour 0 23 what1
        check_field dt.minute 0 59 what2
        check_field dt.second 0 59 what3
        check_field dt.nanosecond 0 999999999 what4)
      ((0 ≤ dt.hour.toInt ∧ dt.hour.toInt ≤ 23) ∧ (0 ≤ dt.minute.toInt ∧ dt.minute.toInt ≤ 59) ∧
        (0 ≤ dt.second.toInt ∧ dt.second.toInt ≤ 59) ∧
        (0 ≤ dt.nanosecond.toInt ∧ dt.nanosecond.toInt ≤ 999999999)) := by
  apply Checks.and (Checks.field ..)
  intro _
  apply Checks.and (Checks.field ..)
  intro _
  apply Checks.and (Checks.field ..)
  intro _
  exact Checks.field ..

/-- `validate` accepts the dates of the calendar and throws on any other. -/
theorem Calendar.validate_checks (cal : Calendar) (dt : DateTime) :
    Checks (cal.validate dt) (cal.Valid dt) := by
  -- the order of the checks is that of the fields of `Valid`
  have hvalid : ((1 ≤ dt.month.toInt ∧ dt.month.toInt ≤ 12) ∧
      (1 ≤ dt.day.toInt ∧ dt.day.toInt ≤ cal.civil.monthLength dt.year.toInt dt.month.toInt) ∧
      (0 ≤ dt.hour.toInt ∧ dt.hour.toInt ≤ 23) ∧ (0 ≤ dt.minute.toInt ∧ dt.minute.toInt ≤ 59) ∧
      (0 ≤ dt.second.toInt ∧ dt.second.toInt ≤ 59) ∧
      (0 ≤ dt.nanosecond.toInt ∧ dt.nanosecond.toInt ≤ 999999999)) ↔ cal.Valid dt := by
    constructor
    · rintro ⟨hm, hd, hh, hmi, hs, hn⟩
      exact ⟨⟨hm, hd⟩, hh, hmi, hs, hn⟩
    · rintro ⟨⟨hm, hd⟩, hh, hmi, hs, hn⟩
      exact ⟨hm, hd, hh, hmi, hs, hn⟩
  refine Checks.congr ?_ hvalid
  have hlen := toInt_monthLength cal dt.year.toInt dt.month.toInt
  cases cal with
  | Gregorian =>
    apply Checks.and (Checks.field ..)
    intro hm
    have hdays := Calendar.days_in_month_eq .Gregorian dt.year dt.month hm
    change GregorianCalendar.days_in_month dt.year dt.month = _ at hdays
    rw [hdays, Outcome.returned_bind, hlen]
    apply Checks.and (Checks.field ..)
    intro _
    exact checks_time_of_day ..
  | NoLeap =>
    apply Checks.and (Checks.field ..)
    intro hm
    have hdays := Calendar.days_in_month_eq .NoLeap dt.year dt.month hm
    change NoLeapCalendar.days_in_month dt.year dt.month = _ at hdays
    rw [hdays, Outcome.returned_bind, hlen]
    -- February 29 is also rejected by the length of February
    have hfeb : (¬ (dt.month.toInt = 2 ∧ dt.day.toInt = 29) ∧ (1 ≤ dt.day.toInt ∧
        dt.day.toInt ≤ Calendar.NoLeap.civil.monthLength dt.year.toInt dt.month.toInt) ∧
        (0 ≤ dt.hour.toInt ∧ dt.hour.toInt ≤ 23) ∧
        (0 ≤ dt.minute.toInt ∧ dt.minute.toInt ≤ 59) ∧
        (0 ≤ dt.second.toInt ∧ dt.second.toInt ≤ 59) ∧
        (0 ≤ dt.nanosecond.toInt ∧ dt.nanosecond.toInt ≤ 999999999)) ↔ _ :=
      and_iff_right_of_imp (fun h hfeb => by
        have := h.1.2
        rw [hfeb.1, hfeb.2] at this
        exact absurd this (show ¬ (29 : Int) ≤ 28 by decide))
    refine Checks.congr ?_ hfeb
    apply Checks.and (Checks.require ..)
    intro _
    apply Checks.and (Checks.field ..)
    intro _
    exact checks_time_of_day ..
  | Cal360 =>
    apply Checks.and (Checks.field ..)
    intro _
    apply Checks.and (Checks.field ..)
    intro _
    exact checks_time_of_day ..

theorem Calendar.validate_of_valid {cal : Calendar} {dt : DateTime} (h : cal.Valid dt) :
    cal.validate dt = .returned () := by
  obtain ⟨_, hv⟩ | ⟨hn, _⟩ := cal.validate_checks dt
  · exact hv
  · exact absurd h hn

theorem Calendar.validate_iff {cal : Calendar} {dt : DateTime} :
    cal.validate dt = .returned () ↔ cal.Valid dt := by
  constructor
  · intro h
    obtain ⟨hv, _⟩ | ⟨_, what, ht⟩ := cal.validate_checks dt
    · exact hv
    · rw [h] at ht
      exact absurd ht (by simp)
  · exact Calendar.validate_of_valid

/-! ### From a date to an instant -/

/-- The day of the date and the date itself are within the range of an
    `int64_t` count of nanoseconds. -/
def Calendar.Representable (cal : Calendar) (dt : DateTime) : Prop :=
  Fits 64 (cal.dayOf dt * nanos_per_day) ∧ Fits 64 (cal.nanosOf dt)

theorem Calendar.Valid.timeOfDay_lt {cal : Calendar} {dt : DateTime} (h : cal.Valid dt) :
    0 ≤ timeOfDay dt ∧ timeOfDay dt < nanos_per_day := by
  obtain ⟨_, hh, hmi, hs, hn⟩ := h
  unfold timeOfDay
  rw [nanos_per_hour_eq, nanos_per_minute_eq, nanos_per_day_eq]
  unfold nanos_per_second
  omega

/-- Summing up the time of day field by field overflows exactly when the
    first or the last sum does: the sums in between lie between these. -/
theorem accumulate_eq {cal : Calendar} {dt : DateTime} (hv : cal.Valid dt) (day : Int) :
    (do
      let nanos ← signed 64 (day * nanos_per_day)
      let nanos ← signed 64 (nanos + dt.hour.toInt * nanos_per_hour)
      let nanos ← signed 64 (nanos + dt.minute.toInt * nanos_per_minute)
      let nanos ← signed 64 (nanos + dt.second.toInt * nanos_per_second)
      let nanos ← signed 64 (nanos + dt.nanosecond.toInt)
      return ⟨.ofInt nanos⟩ : Cpp TimePoint)
    = if Fits 64 (day * nanos_per_day) ∧ Fits 64 (day * nanos_per_day + timeOfDay dt) then
        .returned ⟨.ofInt (day * nanos_per_day + timeOfDay dt)⟩
      else .undefined := by
  obtain ⟨_, hh, hmi, hs, hn⟩ := hv
  obtain ⟨x, hx⟩ : ∃ x, x = day * nanos_per_day := ⟨_, rfl⟩
  obtain ⟨a, ha⟩ : ∃ a, a = dt.hour.toInt * nanos_per_hour := ⟨_, rfl⟩
  obtain ⟨b, hb⟩ : ∃ b, b = dt.minute.toInt * nanos_per_minute := ⟨_, rfl⟩
  obtain ⟨c, hc⟩ : ∃ c, c = dt.second.toInt * nanos_per_second := ⟨_, rfl⟩
  have ha0 : 0 ≤ a := by rw [ha, nanos_per_hour_eq]; omega
  have hb0 : 0 ≤ b := by rw [hb, nanos_per_minute_eq]; omega
  have hc0 : 0 ≤ c := by rw [hc]; unfold nanos_per_second; omega
  have htod : timeOfDay dt = a + b + c + dt.nanosecond.toInt := by
    rw [ha, hb, hc]
    rfl
  rw [← hx, ← ha, ← hb, ← hc, htod]
  by_cases h0 : Fits 64 x
  swap
  · rw [signed_of_not_fits h0, if_neg fun h => h0 h.1]
    rfl
  rw [signed_of_fits h0, Outcome.returned_bind]
  by_cases hlast : Fits 64 (x + (a + b + c + dt.nanosecond.toInt))
  · have h1 : Fits 64 (x + a) := by rw [fits_64] at *; omega
    have h2 : Fits 64 (x + a + b) := by rw [fits_64] at *; omega
    have h3 : Fits 64 (x + a + b + c) := by rw [fits_64] at *; omega
    have h4 : x + a + b + c + dt.nanosecond.toInt = x + (a + b + c + dt.nanosecond.toInt) := by
      ring
    rw [signed_of_fits h1, Outcome.returned_bind, signed_of_fits h2, Outcome.returned_bind,
      signed_of_fits h3, Outcome.returned_bind, h4, signed_of_fits hlast,
      Outcome.returned_bind, if_pos ⟨h0, hlast⟩]
    rfl
  · rw [if_neg fun h => hlast h.2]
    -- the last sum at the latest is out of range
    have h4 : ¬ Fits 64 (x + a + b + c + dt.nanosecond.toInt) := by
      rwa [show x + a + b + c + dt.nanosecond.toInt
        = x + (a + b + c + dt.nanosecond.toInt) by ring]
    by_cases h1 : Fits 64 (x + a)
    · rw [signed_of_fits h1, Outcome.returned_bind]
      by_cases h2 : Fits 64 (x + a + b)
      · rw [signed_of_fits h2, Outcome.returned_bind]
        by_cases h3 : Fits 64 (x + a + b + c)
        · rw [signed_of_fits h3, Outcome.returned_bind, signed_of_not_fits h4]
          rfl
        · rw [signed_of_not_fits h3]
          rfl
      · rw [signed_of_not_fits h2]
        rfl
    · rw [signed_of_not_fits h1]
      rfl

noncomputable instance (cal : Calendar) (dt : DateTime) : Decidable (cal.Representable dt) :=
  inferInstanceAs (Decidable (_ ∧ _))

/-- **Specification of `to_time_point`.** -/
theorem Calendar.to_time_point_eq {cal : Calendar} {dt : DateTime} (hv : cal.Valid dt) :
    cal.to_time_point dt
      = if cal.Representable dt then .returned ⟨.ofInt (cal.nanosOf dt)⟩ else .undefined := by
  have hvalidate := Calendar.validate_of_valid hv
  cases cal with
  | Gregorian =>
    have hday := civil_to_days_eq dt.year.toInt dt.day.toInt hv.date.1
    show GregorianCalendar.to_time_point dt = _
    unfold GregorianCalendar.to_time_point
    change GregorianCalendar.validate dt = _ at hvalidate
    rw [hvalidate, Outcome.returned_bind]
    dsimp only
    rw [hday]
    exact accumulate_eq hv _
  | NoLeap =>
    have hday : (dt.year.toInt - 2026) * 365 + cum_days.getD (dt.month.toInt - 1).toNat 0
        + (dt.day.toInt - 1) = Calendar.NoLeap.dayOf dt := by
      unfold Calendar.dayOf CivilCalendar.dayNumber
      rw [noLeap_daysBeforeYear, noLeap_daysBeforeMonth_of_le _ hv.date.1]
    show NoLeapCalendar.to_time_point dt = _
    unfold NoLeapCalendar.to_time_point
    change NoLeapCalendar.validate dt = _ at hvalidate
    rw [hvalidate, Outcome.returned_bind]
    dsimp only
    rw [hday]
    exact accumulate_eq hv _
  | Cal360 =>
    have hday : (dt.year.toInt - epoch_year) * 360 + (dt.month.toInt - 1) * 30
        + (dt.day.toInt - 1) = Calendar.Cal360.dayOf dt := by
      unfold Calendar.dayOf CivilCalendar.dayNumber
      rw [cal360_daysBeforeYear, cal360_daysBeforeMonth _ hv.date.1.1]
      unfold epoch_year
      ring
    show Cal360Calendar.to_time_point dt = _
    unfold Cal360Calendar.to_time_point
    change Cal360Calendar.validate dt = _ at hvalidate
    rw [hvalidate, Outcome.returned_bind]
    by_cases hy : Fits 32 (dt.year.toInt - epoch_year)
    · rw [signed_of_fits hy, Outcome.returned_bind]
      dsimp only
      rw [hday]
      by_cases h0 : Fits 64 (Calendar.Cal360.dayOf dt * nanos_per_day)
      · rw [signed_of_fits h0, Outcome.returned_bind]
        by_cases h1 : Fits 64 (Calendar.Cal360.nanosOf dt)
        · have hrep : Calendar.Cal360.Representable dt := ⟨h0, h1⟩
          rw [if_pos hrep]
          change Fits 64 (_ + (_ + _ + _ + _)) at h1
          rw [signed_of_fits h1]
          rfl
        · have hrep : ¬ Calendar.Cal360.Representable dt := fun h => h1 h.2
          rw [if_neg hrep]
          change ¬ Fits 64 (_ + (_ + _ + _ + _)) at h1
          rw [signed_of_not_fits h1]
          rfl
      · have hrep : ¬ Calendar.Cal360.Representable dt := fun h => h0 h.1
        rw [signed_of_not_fits h0, if_neg hrep]
        rfl
    · -- a year difference below `INT32_MIN` is far out of range
      have hrep : ¬ Calendar.Cal360.Representable dt := by
        rintro ⟨h0, _⟩
        have hyear := fits_toInt32 dt.year
        have hm := hv.date.1
        have hd := hv.date.2
        change 1 ≤ dt.day.toInt ∧ dt.day.toInt ≤ 30 at hd
        rw [← hday, nanos_per_day_eq, fits_64] at h0
        rw [fits_32] at hy hyear
        unfold epoch_year at *
        omega
      rw [signed_of_not_fits hy, if_neg hrep]
      rfl

/-! ### From an instant to a date -/

/-- The midnight before the instant is representable. This leaves out the
    last part of one day, next to `INT64_MIN`. -/
def TimePoint.MidnightFits (tp : TimePoint) : Prop :=
  Fits 64 (tp.nanos.toInt / nanos_per_day * nanos_per_day)

instance (tp : TimePoint) : Decidable tp.MidnightFits :=
  inferInstanceAs (Decidable (Fits _ _))

theorem with_time_of_day_spec (y m d : Int32) {s : Int} (hs : 0 ≤ s ∧ s < nanos_per_day) :
    let dt := with_time_of_day y m d s
    (0 ≤ dt.hour.toInt ∧ dt.hour.toInt ≤ 23) ∧ (0 ≤ dt.minute.toInt ∧ dt.minute.toInt ≤ 59) ∧
      (0 ≤ dt.second.toInt ∧ dt.second.toInt ≤ 59) ∧
      (0 ≤ dt.nanosecond.toInt ∧ dt.nanosecond.toInt ≤ 999999999) ∧ timeOfDay dt = s := by
  obtain ⟨hs0, hs1⟩ := hs
  rw [nanos_per_day_eq] at hs1
  have hr0 : 0 ≤ s % 3600000000000 := by omega
  have hr1 : 0 ≤ s % 3600000000000 % 60000000000 := by omega
  unfold timeOfDay with_time_of_day nanos_per_second
  simp only [nanos_per_hour_eq, nanos_per_minute_eq, tdiv_of_nonneg hs0, tmod_of_nonneg hs0,
    tdiv_of_nonneg hr0, tmod_of_nonneg hr0, tdiv_of_nonneg hr1, tmod_of_nonneg hr1]
  -- every field fits its `int32_t`
  rw [toInt_ofInt32_of_fits (by rw [fits_32]; omega),
    toInt_ofInt32_of_fits (by rw [fits_32]; omega),
    toInt_ofInt32_of_fits (by rw [fits_32]; omega),
    toInt_ofInt32_of_fits (by rw [fits_32]; omega)]
  omega

theorem Calendar.valid_with_time_of_day {cal : Calendar} {y m d s : Int}
    (hdate : cal.civil.IsDate y m d) (hy : Fits 32 y) (hs : 0 ≤ s ∧ s < nanos_per_day) :
    cal.Valid (with_time_of_day (.ofInt y) (.ofInt m) (.ofInt d) s) ∧
      cal.nanosOf (with_time_of_day (.ofInt y) (.ofInt m) (.ofInt d) s)
        = cal.civil.dayNumber epoch_year y m d * nanos_per_day + s := by
  have hm := hdate.1
  have hd := hdate.2
  have hlen := monthLength_le cal y m
  have hyear : (Int32.ofInt y).toInt = y := toInt_ofInt32_of_fits hy
  have hmonth : (Int32.ofInt m).toInt = m :=
    toInt_ofInt32_of_fits (by rw [fits_32]; omega)
  have hday : (Int32.ofInt d).toInt = d :=
    toInt_ofInt32_of_fits (by rw [fits_32]; omega)
  obtain ⟨hh, hmi, hse, hn, htod⟩ :=
    with_time_of_day_spec (.ofInt y) (.ofInt m) (.ofInt d) hs
  constructor
  · refine ⟨?_, hh, hmi, hse, hn⟩
    show cal.civil.IsDate (Int32.ofInt y).toInt (Int32.ofInt m).toInt (Int32.ofInt d).toInt
    rwa [hyear, hmonth, hday]
  · unfold Calendar.nanosOf
    rw [htod]
    show cal.civil.dayNumber epoch_year (Int32.ofInt y).toInt (Int32.ofInt m).toInt
      (Int32.ofInt d).toInt * nanos_per_day + s = _
    rw [hyear, hmonth, hday]

theorem TimePoint.day_bounds (tp : TimePoint) :
    -106752 ≤ tp.nanos.toInt / nanos_per_day ∧ tp.nanos.toInt / nanos_per_day ≤ 106751 := by
  have h := fits_toInt tp.nanos
  rw [fits_64] at h
  rw [nanos_per_day_eq]
  omega

theorem TimePoint.time_bounds (tp : TimePoint) :
    0 ≤ tp.nanos.toInt % nanos_per_day ∧ tp.nanos.toInt % nanos_per_day < nanos_per_day := by
  rw [nanos_per_day_eq]
  omega

theorem GregorianCalendar.floor_div_eq (a : Int) {b : Int} (hb : 0 < b) :
    GregorianCalendar.floor_div a b = a / b := by
  have hneg : ¬ b < 0 := by omega
  rw [← tdiv_sub_eq_floor hb]
  unfold GregorianCalendar.floor_div
  simp [hneg]

theorem Cal360Calendar.floor_div_eq (a : Int) {b : Int} (hb : 0 < b) :
    Cal360Calendar.floor_div a b = a / b := by
  have hneg : ¬ b < 0 := by omega
  -- a nonzero remainder has the sign of the dividend
  have hsign : (a.tmod b ≠ 0 ∧ a < 0) ↔ (a.tmod b ≠ 0 ∧ a.tmod b < 0) := by
    constructor
    · rintro ⟨h0, ha⟩
      have := tmod_nonpos b ha.le
      exact ⟨h0, by omega⟩
    · rintro ⟨h0, hr⟩
      refine ⟨h0, ?_⟩
      by_contra ha
      have := Int.tmod_nonneg (a := a) b (by omega)
      omega
  have hcond : (a.tmod b ≠ 0 ∧ decide (a.tmod b < 0) ≠ decide (b < 0))
      ↔ (a.tmod b ≠ 0 ∧ a < 0) := by
    rw [hsign]
    simp [hneg]
  rw [← tdiv_sub_eq_floor hb]
  unfold Cal360Calendar.floor_div
  dsimp only
  by_cases h : a.tmod b ≠ 0 ∧ a < 0
  · rw [if_pos (hcond.mpr h), if_pos h]
  · rw [if_neg fun hc => h (hcond.mp hc), if_neg h, sub_zero]

theorem split_day (tp : TimePoint) (h : tp.MidnightFits) :
    (signed 64 (tp.nanos.toInt / nanos_per_day * nanos_per_day) : Cpp Int)
        = .returned (tp.nanos.toInt / nanos_per_day * nanos_per_day) ∧
      (signed 64 (tp.nanos.toInt - tp.nanos.toInt / nanos_per_day * nanos_per_day) : Cpp Int)
        = .returned (tp.nanos.toInt % nanos_per_day) := by
  have hsub : tp.nanos.toInt - tp.nanos.toInt / nanos_per_day * nanos_per_day
      = tp.nanos.toInt % nanos_per_day := by
    rw [nanos_per_day_eq]
    omega
  refine ⟨signed_of_fits h, ?_⟩
  rw [hsub]
  apply signed_of_fits
  have := tp.time_bounds
  rw [nanos_per_day_eq] at *
  rw [fits_64]
  omega

/-- What `to_date_time` returns for the instant `tp`. -/
def Calendar.DateOf (cal : Calendar) (tp : TimePoint) (dt : DateTime) : Prop :=
  cal.Valid dt ∧ cal.nanosOf dt = tp.nanos.toInt

theorem Calendar.dateOf_with_time_of_day {cal : Calendar} {tp : TimePoint} {y m d : Int}
    (hdate : cal.civil.IsDate y m d) (hy : Fits 32 y)
    (hday : cal.civil.dayNumber epoch_year y m d = tp.nanos.toInt / nanos_per_day) :
    cal.DateOf tp (with_time_of_day (.ofInt y) (.ofInt m) (.ofInt d)
      (tp.nanos.toInt % nanos_per_day)) := by
  obtain ⟨hv, hn⟩ := Calendar.valid_with_time_of_day hdate hy tp.time_bounds
  refine ⟨hv, ?_⟩
  rw [hn, hday, nanos_per_day_eq]
  omega

theorem GregorianCalendar.dateOf_days_to_civil (tp : TimePoint) :
    let civil := GregorianCalendar.days_to_civil
      (tp.nanos.toInt / nanos_per_day + GregorianCalendar.epoch_day_offset)
    Calendar.Gregorian.DateOf tp (with_time_of_day civil.year civil.month civil.day
      (tp.nanos.toInt % nanos_per_day)) := by
  have hbounds := tp.day_bounds
  obtain ⟨D, hD⟩ : ∃ D, D = tp.nanos.toInt / nanos_per_day := ⟨_, rfl⟩
  obtain ⟨y, m, d, hcivil, hdate, hnum, hy0, hy1⟩ :=
    days_to_civil_spec (D + GregorianCalendar.epoch_day_offset)
  have hepoch : GregorianCalendar.epoch_day_offset = 20454 := by decide
  have hday : Calendar.Gregorian.civil.dayNumber epoch_year y m d = D := by
    rw [← civil_to_days_eq y d hdate.1, hnum]
    ring
  rw [← hD, hcivil]
  apply Calendar.dateOf_with_time_of_day hdate _ (hday.trans hD)
  rw [hepoch] at hy0 hy1
  rw [fits_32]
  omega

/-- **Specification of the Gregorian `to_date_time`.** -/
theorem GregorianCalendar.to_date_time_spec (tp : TimePoint) (h : tp.MidnightFits) :
    ∃ dt, GregorianCalendar.to_date_time tp = .returned dt ∧ Calendar.Gregorian.DateOf tp dt := by
  obtain ⟨hmid, hsub⟩ := split_day tp h
  refine ⟨_, ?_, GregorianCalendar.dateOf_days_to_civil tp⟩
  unfold GregorianCalendar.to_date_time
  dsimp only
  rw [GregorianCalendar.floor_div_eq _ (by decide), hmid, Outcome.returned_bind, hsub]
  rfl

theorem Cal360Calendar.dateOf_day_in_year (tp : TimePoint) :
    let D := tp.nanos.toInt / nanos_per_day
    Calendar.Cal360.DateOf tp (with_time_of_day (.ofInt (epoch_year + D / 360))
      (.ofInt (D % 360 / 30 + 1)) (.ofInt (D % 360 % 30 + 1))
      (tp.nanos.toInt % nanos_per_day)) := by
  intro D
  have hbounds := tp.day_bounds
  change -106752 ≤ D ∧ D ≤ 106751 at hbounds
  have hdate : Calendar.Cal360.civil.IsDate (epoch_year + D / 360) (D % 360 / 30 + 1)
      (D % 360 % 30 + 1) := by
    refine ⟨by omega, by omega, ?_⟩
    show D % 360 % 30 + 1 ≤ 30
    omega
  apply Calendar.dateOf_with_time_of_day hdate
  · rw [fits_32]
    unfold epoch_year
    omega
  · show _ = D
    unfold CivilCalendar.dayNumber
    rw [cal360_daysBeforeYear, cal360_daysBeforeMonth _ hdate.1.1]
    unfold epoch_year
    omega

/-- **Specification of the 360-day `to_date_time`.** -/
theorem Cal360Calendar.to_date_time_spec (tp : TimePoint) (h : tp.MidnightFits) :
    ∃ dt, Cal360Calendar.to_date_time tp = .returned dt ∧ Calendar.Cal360.DateOf tp dt := by
  obtain ⟨hmid, hsub⟩ := split_day tp h
  have hbounds := tp.day_bounds
  refine ⟨_, ?_, Cal360Calendar.dateOf_day_in_year tp⟩
  obtain ⟨D, hD⟩ : ∃ D, D = tp.nanos.toInt / nanos_per_day := ⟨_, rfl⟩
  rw [← hD] at hbounds
  have hyo : (Int32.ofInt (D / 360)).toInt = D / 360 :=
    toInt_ofInt32_of_fits (by rw [fits_32]; omega)
  have hdiy : D - D / 360 * 360 = D % 360 := by omega
  have hdiy0 : 0 ≤ D % 360 := by omega
  have hmonth : (Int32.ofInt (D % 360 / 30)).toInt = D % 360 / 30 :=
    toInt_ofInt32_of_fits (by rw [fits_32]; omega)
  have hdom : (Int32.ofInt (D % 360 % 30)).toInt = D % 360 % 30 :=
    toInt_ofInt32_of_fits (by rw [fits_32]; omega)
  unfold Cal360Calendar.to_date_time
  dsimp only
  rw [Cal360Calendar.floor_div_eq _ (by decide), hmid, Outcome.returned_bind, hsub,
    Outcome.returned_bind, ← hD, Cal360Calendar.floor_div_eq D (by decide), hyo, hdiy,
    tdiv_of_nonneg hdiy0, tmod_of_nonneg hdiy0, hmonth, hdom,
    signed_of_fits (by rw [fits_32]; omega), Outcome.returned_bind,
    signed_of_fits (by rw [fits_32]; omega), Outcome.returned_bind,
    signed_of_fits (by rw [fits_32]; unfold epoch_year; omega)]
  rfl

/-- **Specification of the NoLeap `to_date_time`**, which also covers the
    instants whose midnight is out of range. -/
theorem NoLeapCalendar.to_date_time_spec (tp : TimePoint) :
    ∃ dt, NoLeapCalendar.to_date_time tp = .returned dt ∧ Calendar.NoLeap.DateOf tp dt := by
  have hbounds := tp.day_bounds
  obtain ⟨D, hD⟩ : ∃ D, D = tp.nanos.toInt / nanos_per_day := ⟨_, rfl⟩
  rw [← hD] at hbounds
  -- the two divisions of the code are floor divisions
  have hfloor := tdiv_tmod_borrow tp.nanos.toInt (show 0 < nanos_per_day by decide)
  rw [← hD] at hfloor
  have hyear : (if 0 ≤ D then (D.tdiv 365, D.tmod 365)
      else ((D + 1).tdiv 365 - 1, D - ((D + 1).tdiv 365 - 1) * 365)) = (D / 365, D % 365) := by
    split
    · rw [tdiv_of_nonneg ‹_›, tmod_of_nonneg ‹_›]
    · have hshift : (D + 1).tdiv 365 - 1 = D / 365 :=
        tdiv_succ_sub_one_eq_floor (by omega) (by omega)
      rw [hshift]
      have := Int.emod_add_mul_ediv D 365
      ext
      · rfl
      · show D - D / 365 * 365 = D % 365
        omega
  obtain ⟨hm, hlo, hhi⟩ := find_month_spec (k := D % 365) (by omega)
  obtain ⟨m, hmdef⟩ : ∃ m, m = NoLeapCalendar.find_month (D % 365) := ⟨_, rfl⟩
  obtain ⟨c, hc⟩ : ∃ c, c = cum_days.getD (m - 1).toNat 0 := ⟨_, rfl⟩
  rw [← hmdef] at hm hlo hhi
  rw [← hc] at hlo hhi
  have hdate : Calendar.NoLeap.civil.IsDate (D / 365 + 2026) m (D % 365 - c + 1) := by
    refine ⟨hm, by omega, ?_⟩
    show D % 365 - c + 1 ≤ commonLength m
    omega
  have hlen := monthLength_le .NoLeap (D / 365 + 2026) m
  have hd31 := hdate.2.2
  have hyo : (Int32.ofInt (D / 365)).toInt = D / 365 :=
    toInt_ofInt32_of_fits (by rw [fits_32]; omega)
  have hdo : (Int32.ofInt (D % 365 - c)).toInt = D % 365 - c :=
    toInt_ofInt32_of_fits (by rw [fits_32]; omega)
  refine ⟨_, ?_, Calendar.dateOf_with_time_of_day hdate ?_ ?_⟩
  · unfold NoLeapCalendar.to_date_time
    dsimp only
    rw [hfloor]
    dsimp only
    rw [hyear]
    dsimp only
    rw [hyo, signed_of_fits (by rw [fits_32]; omega), Outcome.returned_bind, ← hmdef, ← hc, hdo,
      signed_of_fits (by rw [fits_32]; omega), Outcome.returned_bind]
    rfl
  · rw [fits_32]
    omega
  · rw [← hD]
    unfold CivilCalendar.dayNumber
    rw [noLeap_daysBeforeYear, noLeap_daysBeforeMonth_of_le _ hm, ← hc]
    omega

/-- The instants that an engine can decompose. The NoLeap engine divides
    without multiplying back, so it can decompose them all. -/
def Calendar.Reads (cal : Calendar) (tp : TimePoint) : Prop :=
  cal = .NoLeap ∨ tp.MidnightFits

theorem Calendar.exists_dateOf (cal : Calendar) (tp : TimePoint) : ∃ dt, cal.DateOf tp dt := by
  cases cal with
  | Gregorian => exact ⟨_, GregorianCalendar.dateOf_days_to_civil tp⟩
  | NoLeap =>
    obtain ⟨dt, _, h⟩ := NoLeapCalendar.to_date_time_spec tp
    exact ⟨dt, h⟩
  | Cal360 => exact ⟨_, Cal360Calendar.dateOf_day_in_year tp⟩

/-- **Specification of `to_date_time`.** -/
theorem Calendar.to_date_time_spec (cal : Calendar) {tp : TimePoint} (h : cal.Reads tp) :
    ∃ dt, cal.to_date_time tp = .returned dt ∧ cal.DateOf tp dt := by
  obtain rfl | h := h
  · exact NoLeapCalendar.to_date_time_spec tp
  · cases cal with
    | Gregorian => exact GregorianCalendar.to_date_time_spec tp h
    | NoLeap => exact NoLeapCalendar.to_date_time_spec tp
    | Cal360 => exact Cal360Calendar.to_date_time_spec tp h

theorem Calendar.to_date_time_undefined {cal : Calendar} {tp : TimePoint} (h : ¬ cal.Reads tp) :
    cal.to_date_time tp = .undefined := by
  have hmid : ¬ tp.MidnightFits := fun hm => h (.inr hm)
  cases cal with
  | Gregorian =>
    show GregorianCalendar.to_date_time tp = .undefined
    unfold GregorianCalendar.to_date_time
    dsimp only
    rw [GregorianCalendar.floor_div_eq _ (by decide), signed_of_not_fits hmid]
    rfl
  | NoLeap => exact absurd (.inl rfl) h
  | Cal360 =>
    show Cal360Calendar.to_date_time tp = .undefined
    unfold Cal360Calendar.to_date_time
    dsimp only
    rw [Cal360Calendar.floor_div_eq _ (by decide), signed_of_not_fits hmid]
    rfl

/-! ### The order of dates -/

theorem timeOfDay_lt_iff {cal : Calendar} {a b : DateTime} (ha : cal.Valid a)
    (hb : cal.Valid b) :
    timeOfDay a < timeOfDay b ↔
      a.hour.toInt < b.hour.toInt ∨ a.hour.toInt = b.hour.toInt ∧ (
      a.minute.toInt < b.minute.toInt ∨ a.minute.toInt = b.minute.toInt ∧ (
      a.second.toInt < b.second.toInt ∨ a.second.toInt = b.second.toInt ∧
      a.nanosecond.toInt < b.nanosecond.toInt)) := by
  obtain ⟨_, _, hmi, hs, hn⟩ := ha
  obtain ⟨_, _, hmi', hs', hn'⟩ := hb
  unfold timeOfDay
  rw [nanos_per_hour_eq, nanos_per_minute_eq]
  unfold nanos_per_second
  omega

theorem DateTime.lt_iff (a b : DateTime) :
    a.lt b ↔
      CivilCalendar.Before a.year.toInt a.month.toInt a.day.toInt
        b.year.toInt b.month.toInt b.day.toInt ∨
      (a.year.toInt = b.year.toInt ∧ a.month.toInt = b.month.toInt ∧
        a.day.toInt = b.day.toInt) ∧ (
      a.hour.toInt < b.hour.toInt ∨ a.hour.toInt = b.hour.toInt ∧ (
      a.minute.toInt < b.minute.toInt ∨ a.minute.toInt = b.minute.toInt ∧ (
      a.second.toInt < b.second.toInt ∨ a.second.toInt = b.second.toInt ∧
      a.nanosecond.toInt < b.nanosecond.toInt))) := by
  unfold DateTime.lt CivilCalendar.Before
  simp only [Int32.lt_iff_toInt_lt, ← Int32.toInt_inj]
  tauto

/-- **Counting nanoseconds respects the order of dates.** -/
theorem Calendar.nanosOf_lt_iff {cal : Calendar} {a b : DateTime} (ha : cal.Valid a)
    (hb : cal.Valid b) : cal.nanosOf a < cal.nanosOf b ↔ a.lt b := by
  have hday : cal.dayOf a < cal.dayOf b ↔ _ := ha.date.dayNumber_lt_iff epoch_year hb.date
  have hta := ha.timeOfDay_lt
  have htb := hb.timeOfDay_lt
  rw [DateTime.lt_iff, ← timeOfDay_lt_iff ha hb, ← hday]
  have hsame : (a.year.toInt = b.year.toInt ∧ a.month.toInt = b.month.toInt ∧
      a.day.toInt = b.day.toInt) ↔ cal.dayOf a = cal.dayOf b := by
    constructor
    · rintro ⟨hy, hm, hd⟩
      unfold Calendar.dayOf
      rw [hy, hm, hd]
    · intro heq
      exact ha.date.dayNumber_inj epoch_year hb.date heq
  rw [hsame]
  unfold Calendar.nanosOf
  rw [nanos_per_day_eq] at *
  omega

theorem DateTime.lt_trichotomy (a b : DateTime) : a.lt b ∨ a = b ∨ b.lt a := by
  by_cases heq : a = b
  · exact .inr (.inl heq)
  · have hne : ¬ (a.year.toInt = b.year.toInt ∧ a.month.toInt = b.month.toInt ∧
        a.day.toInt = b.day.toInt ∧ a.hour.toInt = b.hour.toInt ∧
        a.minute.toInt = b.minute.toInt ∧ a.second.toInt = b.second.toInt ∧
        a.nanosecond.toInt = b.nanosecond.toInt) := by
      simp only [Int32.toInt_inj]
      intro h
      apply heq
      cases a
      cases b
      simpa using h
    simp only [DateTime.lt_iff, CivilCalendar.Before]
    omega

theorem Calendar.nanosOf_inj {cal : Calendar} {a b : DateTime} (ha : cal.Valid a)
    (hb : cal.Valid b) (h : cal.nanosOf a = cal.nanosOf b) : a = b := by
  obtain hlt | heq | hlt := DateTime.lt_trichotomy a b
  · have := (Calendar.nanosOf_lt_iff ha hb).mpr hlt
    omega
  · exact heq
  · have := (Calendar.nanosOf_lt_iff hb ha).mpr hlt
    omega

theorem Calendar.nanosOf_ediv {cal : Calendar} {dt : DateTime} (h : cal.Valid dt) :
    cal.nanosOf dt / nanos_per_day = cal.dayOf dt := by
  have ht := h.timeOfDay_lt
  unfold Calendar.nanosOf
  rw [nanos_per_day_eq] at *
  omega

/-! ### Round trips -/

theorem Calendar.DateOf.representable {cal : Calendar} {tp : TimePoint} {dt : DateTime}
    (h : cal.DateOf tp dt) : cal.Representable dt ↔ tp.MidnightFits := by
  obtain ⟨hv, hn⟩ := h
  unfold Calendar.Representable TimePoint.MidnightFits
  rw [← Calendar.nanosOf_ediv hv, hn]
  exact and_iff_left (fits_toInt tp.nanos)

theorem Calendar.to_time_point_of_dateOf {cal : Calendar} {tp : TimePoint} {dt : DateTime}
    (h : cal.DateOf tp dt) (hmid : tp.MidnightFits) :
    cal.to_time_point dt = .returned tp := by
  rw [Calendar.to_time_point_eq h.1, if_pos (h.representable.mpr hmid), h.2, Int64.ofInt_toInt]

theorem Calendar.to_date_time_of_representable {cal : Calendar} {dt : DateTime}
    (hv : cal.Valid dt) (hrep : cal.Representable dt) :
    (cal.to_time_point dt >>= cal.to_date_time) = .returned dt := by
  have hnanos : (Int64.ofInt (cal.nanosOf dt)).toInt = cal.nanosOf dt :=
    toInt_ofInt_of_fits hrep.2
  obtain ⟨tp, htp⟩ : ∃ tp : TimePoint, tp = ⟨.ofInt (cal.nanosOf dt)⟩ := ⟨_, rfl⟩
  have hof : cal.DateOf tp dt := ⟨hv, by rw [htp]; exact hnanos.symm⟩
  obtain ⟨dt', hret, hof'⟩ := cal.to_date_time_spec (.inr (hof.representable.mp hrep))
  have heq : dt' = dt := Calendar.nanosOf_inj hof'.1 hv (hof'.2.trans hof.2.symm)
  rw [Calendar.to_time_point_eq hv, if_pos hrep, Outcome.returned_bind, ← htp, hret, heq]

/-- **The conversions of each calendar.** Instants from `INT64_MIN` plus one
    day on survive the round trip through dates. A date whose count fits
    survives the round trip through instants exactly when its midnight fits
    too, and two dates compare like their instants exactly when both have
    one. -/
theorem Calendar.conversions (cal : Calendar) :
    (∀ tp : TimePoint, -2 ^ 63 + nanos_per_day ≤ tp.nanos.toInt →
      ∃ dt, cal.to_date_time tp = .returned dt ∧ cal.validate dt = .returned () ∧
        cal.to_time_point dt = .returned tp) ∧
    (∀ dt, cal.validate dt = .returned () → Fits 64 (cal.nanosOf dt) →
      ((cal.to_time_point dt >>= cal.to_date_time) = .returned dt ↔
        Fits 64 (cal.dayOf dt * nanos_per_day))) ∧
    (∀ a b, cal.validate a = .returned () → cal.validate b = .returned () →
      ((∃ s t, cal.to_time_point a = .returned s ∧ cal.to_time_point b = .returned t ∧
          (a.lt b ↔ s.nanos < t.nanos)) ↔
        cal.Representable a ∧ cal.Representable b)) := by
  refine ⟨?_, ?_, ?_⟩
  · intro tp htp
    have hmid : tp.MidnightFits := by
      have hle := fits_toInt tp.nanos
      unfold TimePoint.MidnightFits
      rw [fits_64] at *
      rw [nanos_per_day_eq] at *
      norm_num at htp
      omega
    obtain ⟨dt, hret, hof⟩ := cal.to_date_time_spec (.inr hmid)
    exact ⟨dt, hret, Calendar.validate_of_valid hof.1, Calendar.to_time_point_of_dateOf hof hmid⟩
  · intro dt hv hfits
    rw [Calendar.validate_iff] at hv
    constructor
    · intro hret
      by_contra hmid
      rw [Calendar.to_time_point_eq hv, if_neg fun h => hmid h.1] at hret
      exact absurd hret (by simp)
    · intro hmid
      exact Calendar.to_date_time_of_representable hv ⟨hmid, hfits⟩
  · intro a b ha hb
    rw [Calendar.validate_iff] at ha hb
    rw [Calendar.to_time_point_eq ha, Calendar.to_time_point_eq hb]
    constructor
    · rintro ⟨s, t, hs, ht, _⟩
      constructor
      · by_contra hrep
        rw [if_neg hrep] at hs
        exact absurd hs (by simp)
      · by_contra hrep
        rw [if_neg hrep] at ht
        exact absurd ht (by simp)
    · rintro ⟨hra, hrb⟩
      rw [if_pos hra, if_pos hrb]
      refine ⟨_, _, rfl, rfl, ?_⟩
      rw [Int64.lt_iff_toInt_lt, toInt_ofInt_of_fits hra.2, toInt_ofInt_of_fits hrb.2,
        Calendar.nanosOf_lt_iff ha hb]

theorem conversions_epoch :
    ∃ dt, Calendar.Gregorian.to_date_time ⟨0⟩ = .returned dt ∧
      Calendar.Gregorian.validate dt = .returned () ∧
      Calendar.Gregorian.to_time_point dt = .returned ⟨0⟩ :=
  (Calendar.conversions .Gregorian).1 ⟨0⟩ (by decide)

/-- Noon of 1733-09-22, a day whose midnight is before `INT64_MIN`. -/
def first_partial_day : DateTime := ⟨1733, 9, 22, 12, 0, 0, 0⟩

theorem nanosOf_first_partial_day :
    Calendar.Gregorian.nanosOf first_partial_day = -9223329600000000000 := by
  have hday : Calendar.Gregorian.dayOf first_partial_day = -106752 := by
    unfold Calendar.dayOf
    rw [← civil_to_days_eq _ _ (by decide)]
    decide
  unfold Calendar.nanosOf
  rw [hday]
  decide

theorem conversions_first_partial_day :
    Calendar.Gregorian.validate first_partial_day = .returned () ∧
      Fits 64 (Calendar.Gregorian.nanosOf first_partial_day) ∧
      (Calendar.Gregorian.to_time_point first_partial_day >>= Calendar.Gregorian.to_date_time)
        ≠ .returned first_partial_day := by
  refine ⟨by decide, ?_, by decide⟩
  rw [nanosOf_first_partial_day]
  decide

end Tick

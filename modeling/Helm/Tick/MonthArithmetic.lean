import Helm.Tick.RoundTrip

/-! # Adding months

  `add_months` of the three calendar engines. The Gregorian and the NoLeap
  engine decompose the instant, move along the sequence of all months by
  floor division, and cut the day to the length of the target month; the
  360-day engine adds a fixed number of nanoseconds.

  All three agree with the abstract rule `DateTime.shift` as long as
  nothing overflows on the way (`Calendar.InRange`).
-/

namespace Tick

open Signed CivilCalendar

/-! ### The functions -/

namespace GregorianCalendar

/-- `floor_div_i32` is `floor_div` for `int32_t`; here both are
    `floor_div`. -/
def add_months (tp : TimePoint) (months : Int32) : Cpp TimePoint := do
  let dt ← to_date_time tp
  let years ← signed 32 (dt.year.toInt * 12)
  let before ← signed 32 (years + (dt.month.toInt - 1))
  let total_months ← signed 32 (before + months.toInt)
  let new_year := floor_div total_months 12
  let whole ← signed 32 (new_year * 12)
  let new_month := total_months - whole + 1
  let max_day ← days_in_month (.ofInt new_year) (.ofInt new_month)
  let new_day := if dt.day.toInt < max_day.toInt then dt.day else max_day
  to_time_point { dt with year := .ofInt new_year, month := .ofInt new_month, day := new_day }

end GregorianCalendar

namespace NoLeapCalendar

/-- The target year and month of `add_months`. -/
def target_of (total_months : Int) : Cpp (Int × Int) :=
  if 0 ≤ total_months then
    return (total_months.tdiv 12 + 1, total_months.tmod 12 + 1)
  else do
    let shifted ← signed 32 (total_months - 11)
    let target_year := shifted.tdiv 12 + 1
    let whole ← signed 32 ((target_year - 1) * 12)
    return (target_year, total_months - whole + 1)

def add_months (tp : TimePoint) (months : Int32) : Cpp TimePoint := do
  let dt ← to_date_time tp
  let year ← signed 32 (dt.year.toInt - 1)
  let years ← signed 32 (year * 12)
  let before ← signed 32 (years + (dt.month.toInt - 1))
  let total_months ← signed 32 (before + months.toInt)
  let target ← target_of total_months
  let max_day ← days_in_month (.ofInt target.1) (.ofInt target.2)
  let target_day := if dt.day.toInt > max_day.toInt then max_day else dt.day
  to_time_point { dt with year := .ofInt target.1, month := .ofInt target.2, day := target_day }

end NoLeapCalendar

namespace Cal360Calendar

def add_months (tp : TimePoint) (months : Int32) : Cpp TimePoint := do
  let days ← signed 64 (months.toInt * 30)
  let shift ← signed 64 (days * nanos_per_day)
  let nanos ← signed 64 (tp.nanos.toInt + shift)
  return ⟨.ofInt nanos⟩

end Cal360Calendar

def Calendar.add_months : Calendar → TimePoint → Int32 → Cpp TimePoint
  | .Gregorian => GregorianCalendar.add_months
  | .NoLeap => NoLeapCalendar.add_months
  | .Cal360 => Cal360Calendar.add_months

/-! ### The rule -/

/-- The date `k` months later: the month found by floor division on
    `12 * year + (month - 1) + k`, the day cut to its length, the time of day
    unchanged. -/
def DateTime.shift (cal : Calendar) (dt : DateTime) (k : Int) : DateTime :=
  { dt with
    year := .ofInt (shiftYear dt.year.toInt dt.month.toInt k)
    month := .ofInt (shiftMonth dt.year.toInt dt.month.toInt k)
    day := .ofInt (cal.civil.shiftDay dt.year.toInt dt.month.toInt dt.day.toInt k) }

/-- The number of the day that a date takes `k` months later. -/
noncomputable def Calendar.dayLater (cal : Calendar) (dt : DateTime) (k : Int) : Int :=
  cal.civil.dayNumber epoch_year (shiftYear dt.year.toInt dt.month.toInt k)
    (shiftMonth dt.year.toInt dt.month.toInt k)
    (cal.civil.shiftDay dt.year.toInt dt.month.toInt dt.day.toInt k)

/-- The exact count of nanoseconds of the date `k` months later. -/
noncomputable def Calendar.nanosLater (cal : Calendar) (dt : DateTime) (k : Int) : Int :=
  cal.dayLater dt k * nanos_per_day + timeOfDay dt

/-- Nothing overflows on the way from `tp` to the instant `k` months later.
    The Gregorian engine goes through the midnights of both instants, the
    NoLeap engine through that of the result, and the 360-day engine through
    the number of nanoseconds it adds. -/
def Calendar.InRange (cal : Calendar) (tp : TimePoint) (dt : DateTime) (k : Int) : Prop :=
  match cal with
  | .Gregorian => tp.MidnightFits ∧ Fits 64 (cal.dayLater dt k * nanos_per_day)
  | .NoLeap => Fits 64 (cal.dayLater dt k * nanos_per_day)
  | .Cal360 => Fits 64 (k * 30 * nanos_per_day)

/-! ### Bounds -/

theorem day_bounds_of_fits {day time : Int} (hfits : Fits 64 (day * nanos_per_day + time))
    (htime : 0 ≤ time ∧ time < nanos_per_day) : -106752 ≤ day ∧ day ≤ 106751 := by
  rw [fits_64] at hfits
  rw [nanos_per_day_eq] at *
  omega

theorem year_bounds {cal : Calendar} {y m d : Int} (hdate : cal.civil.IsDate y m d)
    (hday : -106752 ≤ cal.civil.dayNumber epoch_year y m d ∧
      cal.civil.dayNumber epoch_year y m d ≤ 106751) : 1700 ≤ y ∧ y ≤ 2400 := by
  have hlast := hdate.lt_year epoch_year
  have hfirst : cal.civil.daysBeforeYear epoch_year y ≤
      cal.civil.dayNumber epoch_year y m d := by
    have hmonth := hdate.daysBeforeMonth_nonneg
    have hd := hdate.2.1
    unfold dayNumber
    omega
  cases cal with
  | Gregorian =>
    rw [gregorian_daysBeforeYear] at hlast hfirst
    unfold marchStart at hlast hfirst
    omega
  | NoLeap =>
    rw [noLeap_daysBeforeYear] at hlast hfirst
    omega
  | Cal360 =>
    rw [cal360_daysBeforeYear] at hlast hfirst
    omega

theorem Calendar.DateOf.year_bounds {cal : Calendar} {tp : TimePoint} {dt : DateTime}
    (h : cal.DateOf tp dt) : 1700 ≤ dt.year.toInt ∧ dt.year.toInt ≤ 2400 := by
  apply Tick.year_bounds h.1.date
  have hday := Calendar.nanosOf_ediv h.1
  rw [h.2] at hday
  have hbounds := tp.day_bounds
  rwa [hday] at hbounds

theorem Calendar.Valid.shiftYear_bounds {cal : Calendar} {dt : DateTime} (hvalid : cal.Valid dt)
    {k : Int} (hfits : Fits 64 (cal.nanosLater dt k)) :
    1700 ≤ shiftYear dt.year.toInt dt.month.toInt k ∧
      shiftYear dt.year.toInt dt.month.toInt k ≤ 2400 :=
  year_bounds (hvalid.date.shift k) (day_bounds_of_fits hfits hvalid.timeOfDay_lt)

/-! ### The shifted date -/

section Shift

variable {cal : Calendar} {dt : DateTime} {k : Int}

theorem shift_fields (hvalid : cal.Valid dt)
    (hyear : Fits 32 (shiftYear dt.year.toInt dt.month.toInt k)) :
    (dt.shift cal k).year.toInt = shiftYear dt.year.toInt dt.month.toInt k ∧
      (dt.shift cal k).month.toInt = shiftMonth dt.year.toInt dt.month.toInt k ∧
      (dt.shift cal k).day.toInt =
        cal.civil.shiftDay dt.year.toInt dt.month.toInt dt.day.toInt k := by
  obtain ⟨hm, hd1, hd⟩ := hvalid.date.shift k
  have hle := monthLength_le cal (shiftYear dt.year.toInt dt.month.toInt k)
    (shiftMonth dt.year.toInt dt.month.toInt k)
  refine ⟨toInt_ofInt32_of_fits hyear, ?_, ?_⟩
  · apply toInt_ofInt32_of_fits
    rw [fits_32]
    omega
  · apply toInt_ofInt32_of_fits
    rw [fits_32]
    omega

theorem valid_shift (hvalid : cal.Valid dt)
    (hyear : Fits 32 (shiftYear dt.year.toInt dt.month.toInt k)) :
    cal.Valid (dt.shift cal k) ∧ cal.dayOf (dt.shift cal k) = cal.dayLater dt k ∧
      cal.nanosOf (dt.shift cal k) = cal.nanosLater dt k := by
  obtain ⟨hy, hm, hd⟩ := shift_fields hvalid hyear
  have hday : cal.dayOf (dt.shift cal k) = cal.dayLater dt k := by
    unfold Calendar.dayOf Calendar.dayLater
    rw [hy, hm, hd]
  refine ⟨⟨?_, hvalid.hour, hvalid.minute, hvalid.second, hvalid.nanosecond⟩, hday, ?_⟩
  · rw [hy, hm, hd]
    exact hvalid.date.shift k
  · show cal.dayOf (dt.shift cal k) * nanos_per_day + timeOfDay dt = _
    rw [hday]
    rfl

theorem clamped_day (day max_day : Int32) :
    (if day.toInt < max_day.toInt then day else max_day) =
      .ofInt (min day.toInt max_day.toInt) ∧
    (if day.toInt > max_day.toInt then max_day else day) =
      .ofInt (min day.toInt max_day.toInt) := by
  constructor
  · split
    · next hlt => rw [min_eq_left hlt.le, Int32.ofInt_toInt]
    · next hge => rw [min_eq_right (not_lt.mp hge), Int32.ofInt_toInt]
  · split
    · next hlt => rw [min_eq_right hlt.le, Int32.ofInt_toInt]
    · next hge => rw [min_eq_left (not_lt.mp hge), Int32.ofInt_toInt]

theorem days_in_target_month (cal : Calendar) (hyear : Fits 32 (shiftYear dt.year.toInt dt.month.toInt k)) :
    ∃ max_day : Int32,
      cal.days_in_month (.ofInt (shiftYear dt.year.toInt dt.month.toInt k))
        (.ofInt (shiftMonth dt.year.toInt dt.month.toInt k)) = .returned max_day ∧
      max_day.toInt = cal.civil.monthLength (shiftYear dt.year.toInt dt.month.toInt k)
        (shiftMonth dt.year.toInt dt.month.toInt k) := by
  have hm := shiftMonth_range dt.year.toInt dt.month.toInt k
  have hmonth : (Int32.ofInt (shiftMonth dt.year.toInt dt.month.toInt k)).toInt =
      shiftMonth dt.year.toInt dt.month.toInt k :=
    toInt_ofInt32_of_fits (by rw [fits_32]; omega)
  have hdays := cal.days_in_month_eq (.ofInt (shiftYear dt.year.toInt dt.month.toInt k))
    (.ofInt (shiftMonth dt.year.toInt dt.month.toInt k)) (by rw [hmonth]; exact hm)
  rw [hmonth, toInt_ofInt32_of_fits hyear] at hdays
  exact ⟨_, hdays, toInt_monthLength cal _ _⟩

theorem to_time_point_shift (hvalid : cal.Valid dt)
    (hyear : Fits 32 (shiftYear dt.year.toInt dt.month.toInt k)) (tp' : TimePoint) :
    cal.to_time_point (dt.shift cal k) = .returned tp' ↔
      Fits 64 (cal.dayLater dt k * nanos_per_day) ∧ Fits 64 (cal.nanosLater dt k) ∧
        tp' = ⟨.ofInt (cal.nanosLater dt k)⟩ := by
  obtain ⟨hshift, hday, hnanos⟩ := valid_shift hvalid hyear
  have hrep : cal.Representable (dt.shift cal k) ↔
      Fits 64 (cal.dayLater dt k * nanos_per_day) ∧ Fits 64 (cal.nanosLater dt k) := by
    unfold Calendar.Representable
    rw [hday, hnanos]
  rw [Calendar.to_time_point_eq hshift, ← and_assoc, ← hrep, hnanos]
  by_cases hyes : cal.Representable (dt.shift cal k)
  · rw [if_pos hyes, and_iff_right hyes, Outcome.returned.injEq, eq_comm]
  · rw [if_neg hyes]
    constructor
    · intro h
      cases h
    · intro h
      exact absurd h.1 hyes

theorem clamp_and_compose (cal : Calendar) (hyear : Fits 32 (shiftYear dt.year.toInt dt.month.toInt k))
    {clamp : Int32 → Int32} (hclamp : ∀ max_day, clamp max_day =
      .ofInt (min dt.day.toInt max_day.toInt)) :
    (do
      let max_day ← cal.days_in_month (.ofInt (shiftYear dt.year.toInt dt.month.toInt k))
        (.ofInt (shiftMonth dt.year.toInt dt.month.toInt k))
      cal.to_time_point { dt with
        year := .ofInt (shiftYear dt.year.toInt dt.month.toInt k)
        month := .ofInt (shiftMonth dt.year.toInt dt.month.toInt k)
        day := clamp max_day }) = cal.to_time_point (dt.shift cal k) := by
  obtain ⟨max_day, hdays, hlength⟩ := days_in_target_month cal hyear
  rw [hdays, Outcome.returned_bind, hclamp, hlength]
  rfl

end Shift

/-! ### What add_months returns -/

section AddMonths

variable {tp tp' : TimePoint} {dt : DateTime} {months : Int32}

theorem Calendar.DateOf.to_date_time {cal : Calendar} (hdt : cal.DateOf tp dt)
    (hreads : cal.Reads tp) : cal.to_date_time tp = .returned dt := by
  obtain ⟨dt', hret, hdt'⟩ := cal.to_date_time_spec hreads
  rw [hret, Calendar.nanosOf_inj hdt'.1 hdt.1 (hdt'.2.trans hdt.2.symm)]

/-- **The Gregorian `add_months`** returns exactly when nothing overflows,
    and then the instant of the shifted date. -/
theorem GregorianCalendar.add_months_eq_returned (hdt : Calendar.Gregorian.DateOf tp dt) :
    GregorianCalendar.add_months tp months = .returned tp' ↔
      Calendar.Gregorian.InRange tp dt months.toInt ∧
        Fits 64 (Calendar.Gregorian.nanosLater dt months.toInt) ∧
        tp' = ⟨.ofInt (Calendar.Gregorian.nanosLater dt months.toInt)⟩ := by
  by_cases hmid : tp.MidnightFits
  swap
  · have hreads : ¬ Calendar.Gregorian.Reads tp := by
      rintro (h | h)
      · cases h
      · exact hmid h
    have hundefined := Calendar.to_date_time_undefined hreads
    change GregorianCalendar.to_date_time tp = _ at hundefined
    unfold GregorianCalendar.add_months
    rw [hundefined]
    constructor
    · intro h
      cases h
    · intro h
      exact absurd h.1.1 hmid
  have hread := hdt.to_date_time (.inr hmid)
  change GregorianCalendar.to_date_time tp = _ at hread
  obtain ⟨hy0, hy1⟩ := hdt.year_bounds
  have hm := hdt.1.date.1
  obtain ⟨total, htotal⟩ : ∃ total, total = dt.year.toInt * 12 + (dt.month.toInt - 1) +
    months.toInt := ⟨_, rfl⟩
  have hyear : total / 12 = shiftYear dt.year.toInt dt.month.toInt months.toInt := by
    unfold shiftYear
    rw [htotal, mul_comm]
  have hmonth : total - total / 12 * 12 + 1 =
      shiftMonth dt.year.toInt dt.month.toInt months.toInt := by
    unfold shiftMonth
    omega
  unfold GregorianCalendar.add_months
  rw [hread, Outcome.returned_bind]
  simp only [signed_bind_eq_returned, ← htotal,
    GregorianCalendar.floor_div_eq _ (show (0 : Int) < 12 by decide), hmonth]
  constructor
  · rintro ⟨_, _, hfits, _, hrest⟩
    have hfits' : Fits 32 (shiftYear dt.year.toInt dt.month.toInt months.toInt) := by
      rw [← hyear]
      rw [fits_32] at *
      omega
    rw [hyear] at hrest
    have hcompose := (clamp_and_compose .Gregorian hfits'
      (fun max_day => (clamped_day dt.day max_day).1)).symm.trans hrest
    obtain ⟨hday, hnanos, rfl⟩ := (to_time_point_shift hdt.1 hfits' tp').mp hcompose
    exact ⟨⟨hmid, hday⟩, hnanos, rfl⟩
  · rintro ⟨⟨_, hday⟩, hnanos, rfl⟩
    obtain ⟨hs0, hs1⟩ := hdt.1.shiftYear_bounds hnanos
    have hfits' : Fits 32 (shiftYear dt.year.toInt dt.month.toInt months.toInt) := by
      rw [fits_32]
      omega
    have hcompose := (clamp_and_compose .Gregorian hfits'
      (fun max_day => (clamped_day dt.day max_day).1)).trans
        ((to_time_point_shift hdt.1 hfits' _).mpr ⟨hday, hnanos, rfl⟩)
    rw [← hyear] at hs0 hs1
    rw [hyear]
    refine ⟨?_, ?_, ?_, ?_, hcompose⟩
    · rw [fits_32]
      omega
    · rw [fits_32]
      omega
    · rw [fits_32]
      omega
    · rw [fits_32, ← hyear]
      omega

theorem NoLeapCalendar.target_of_nonneg {total : Int} (hpos : 0 ≤ total) :
    NoLeapCalendar.target_of total = .returned (total / 12 + 1, total % 12 + 1) := by
  unfold NoLeapCalendar.target_of
  rw [if_pos hpos, tdiv_of_nonneg hpos, tmod_of_nonneg hpos]
  rfl

theorem NoLeapCalendar.target_of_returned {total : Int} {target : Int × Int}
    (h : NoLeapCalendar.target_of total = .returned target) :
    target = (total / 12 + 1, total % 12 + 1) := by
  by_cases hpos : 0 ≤ total
  · rw [NoLeapCalendar.target_of_nonneg hpos] at h
    exact (Outcome.returned.inj h).symm
  · unfold NoLeapCalendar.target_of at h
    rw [if_neg hpos, signed_bind_eq_returned, signed_bind_eq_returned] at h
    obtain ⟨_, _, h⟩ := h
    have hfloor := tdiv_shift_eq_floor (not_le.mp hpos) (show (0 : Int) < 12 by decide)
    rw [show total - 12 + 1 = total - 11 by ring] at hfloor
    have hrem : total - (total / 12 + 1 - 1) * 12 + 1 = total % 12 + 1 := by omega
    rw [hfloor, hrem] at h
    exact (Outcome.returned.inj h).symm

/-- **The NoLeap `add_months`**, which counts the months from year one and
    treats a negative count apart. -/
theorem NoLeapCalendar.add_months_eq_returned (hdt : Calendar.NoLeap.DateOf tp dt) :
    NoLeapCalendar.add_months tp months = .returned tp' ↔
      Calendar.NoLeap.InRange tp dt months.toInt ∧
        Fits 64 (Calendar.NoLeap.nanosLater dt months.toInt) ∧
        tp' = ⟨.ofInt (Calendar.NoLeap.nanosLater dt months.toInt)⟩ := by
  have hread := hdt.to_date_time (.inl rfl)
  change NoLeapCalendar.to_date_time tp = _ at hread
  obtain ⟨hy0, hy1⟩ := hdt.year_bounds
  have hm := hdt.1.date.1
  obtain ⟨total, htotal⟩ : ∃ total, total = (dt.year.toInt - 1) * 12 + (dt.month.toInt - 1) +
    months.toInt := ⟨_, rfl⟩
  have hyear : total / 12 + 1 = shiftYear dt.year.toInt dt.month.toInt months.toInt := by
    unfold shiftYear
    omega
  have hmonth : total % 12 + 1 = shiftMonth dt.year.toInt dt.month.toInt months.toInt := by
    unfold shiftMonth
    omega
  unfold NoLeapCalendar.add_months
  rw [hread, Outcome.returned_bind]
  simp only [signed_bind_eq_returned, ← htotal]
  constructor
  · rintro ⟨_, _, _, hfits, hrest⟩
    obtain ⟨target, htarget, hrest⟩ := Outcome.bind_eq_returned.mp hrest
    obtain rfl := NoLeapCalendar.target_of_returned htarget
    have hfits' : Fits 32 (shiftYear dt.year.toInt dt.month.toInt months.toInt) := by
      rw [← hyear]
      rw [fits_32] at *
      omega
    rw [hyear, hmonth] at hrest
    have hcompose := (clamp_and_compose .NoLeap hfits'
      (fun max_day => (clamped_day dt.day max_day).2)).symm.trans hrest
    exact (to_time_point_shift hdt.1 hfits' tp').mp hcompose
  · rintro ⟨hday, hnanos, rfl⟩
    obtain ⟨hs0, hs1⟩ := hdt.1.shiftYear_bounds hnanos
    have hfits' : Fits 32 (shiftYear dt.year.toInt dt.month.toInt months.toInt) := by
      rw [fits_32]
      omega
    have hcompose := (clamp_and_compose .NoLeap hfits'
      (fun max_day => (clamped_day dt.day max_day).2)).trans
        ((to_time_point_shift hdt.1 hfits' _).mpr ⟨hday, hnanos, rfl⟩)
    rw [← hyear] at hs0 hs1
    -- a representable result lies long after year one
    have hpos : 0 ≤ total := by omega
    rw [NoLeapCalendar.target_of_nonneg hpos, hyear, hmonth, Outcome.returned_bind]
    refine ⟨?_, ?_, ?_, ?_, hcompose⟩
    · rw [fits_32]
      omega
    · rw [fits_32]
      omega
    · rw [fits_32]
      omega
    · rw [fits_32]
      omega

theorem cal360_nanosLater (hdt : Calendar.Cal360.DateOf tp dt) (k : Int) :
    Calendar.Cal360.nanosLater dt k = tp.nanos.toInt + k * 30 * nanos_per_day := by
  obtain ⟨hvalid, hnanos⟩ := hdt
  have hm := hvalid.date.1
  have hm' := shiftMonth_range dt.year.toInt dt.month.toInt k
  have hcut : Calendar.Cal360.civil.shiftDay dt.year.toInt dt.month.toInt dt.day.toInt k =
      dt.day.toInt := min_eq_left hvalid.date.2.2
  have hday : Calendar.Cal360.dayLater dt k = Calendar.Cal360.dayOf dt + k * 30 := by
    unfold Calendar.dayLater Calendar.dayOf dayNumber
    rw [hcut, cal360_daysBeforeYear, cal360_daysBeforeYear, cal360_daysBeforeMonth _ hm.1,
      cal360_daysBeforeMonth _ hm'.1]
    unfold shiftYear shiftMonth
    omega
  rw [← hnanos]
  unfold Calendar.nanosLater Calendar.nanosOf
  rw [hday]
  ring

/-- **The 360-day `add_months`.** -/
theorem Cal360Calendar.add_months_eq_returned (hdt : Calendar.Cal360.DateOf tp dt) :
    Cal360Calendar.add_months tp months = .returned tp' ↔
      Calendar.Cal360.InRange tp dt months.toInt ∧
        Fits 64 (Calendar.Cal360.nanosLater dt months.toInt) ∧
        tp' = ⟨.ofInt (Calendar.Cal360.nanosLater dt months.toInt)⟩ := by
  have hmonths := fits_toInt32 months
  have hdays : Fits 64 (months.toInt * 30) := by
    rw [fits_32] at hmonths
    rw [fits_64]
    omega
  unfold Cal360Calendar.add_months
  simp only [signed_bind_eq_returned, ← cal360_nanosLater hdt, hdays, true_and]
  refine and_congr_right fun _ => and_congr_right fun _ => ?_
  rw [Outcome.pure_eq, Outcome.returned.injEq, eq_comm]

/-- **Specification of `add_months`**, for every engine. -/
theorem Calendar.add_months_eq_returned {cal : Calendar} (hdt : cal.DateOf tp dt) :
    cal.add_months tp months = .returned tp' ↔
      cal.InRange tp dt months.toInt ∧ Fits 64 (cal.nanosLater dt months.toInt) ∧
        tp' = ⟨.ofInt (cal.nanosLater dt months.toInt)⟩ := by
  cases cal with
  | Gregorian => exact GregorianCalendar.add_months_eq_returned hdt
  | NoLeap => exact NoLeapCalendar.add_months_eq_returned hdt
  | Cal360 => exact Cal360Calendar.add_months_eq_returned hdt

end AddMonths

/-! ### The law -/

section Law

variable {cal : Calendar} {tp u : TimePoint} {dt : DateTime} {months : Int32}

theorem dateOf_shift (hdt : cal.DateOf tp dt) (h : cal.add_months tp months = .returned u) :
    cal.DateOf u (dt.shift cal months.toInt) := by
  obtain ⟨-, hfits, rfl⟩ := (Calendar.add_months_eq_returned hdt).mp h
  obtain ⟨hs0, hs1⟩ := hdt.1.shiftYear_bounds hfits
  have hyear : Fits 32 (shiftYear dt.year.toInt dt.month.toInt months.toInt) := by
    rw [fits_32]
    omega
  obtain ⟨hvalid, -, hnanos⟩ := valid_shift hdt.1 hyear
  exact ⟨hvalid, hnanos.trans (toInt_ofInt_of_fits hfits).symm⟩

theorem le_monthLength (cal : Calendar) (y m : Int) : 28 ≤ cal.civil.monthLength y m := by
  have hcommon : 28 ≤ commonLength m := by
    unfold commonLength
    split
    · exact le_rfl
    · split <;> omega
  cases cal with
  | Gregorian =>
    show 28 ≤ if m = 2 ∧ IsLeap y then 29 else commonLength m
    split
    · omega
    · exact hcommon
  | NoLeap => exact hcommon
  | Cal360 =>
    show (28 : Int) ≤ 30
    omega

theorem nanosLater_shift (hvalid : cal.Valid dt) (hday : dt.day.toInt ≤ 28) {a : Int}
    (hyear : Fits 32 (shiftYear dt.year.toInt dt.month.toInt a)) (b : Int) :
    cal.nanosLater (dt.shift cal a) b = cal.nanosLater dt (a + b) := by
  obtain ⟨hy, hm, hd⟩ := shift_fields hvalid hyear
  obtain ⟨hsy, hsm⟩ := shift_add dt.year.toInt dt.month.toInt a b
  have hkeep := fun (y m k : Int) => shiftDay_of_le (le_monthLength cal) y m hday k
  have hlater : cal.dayLater (dt.shift cal a) b = cal.dayLater dt (a + b) := by
    unfold Calendar.dayLater
    rw [hy, hm, hd, hsy, hsm]
    simp only [hkeep]
  show cal.dayLater (dt.shift cal a) b * nanos_per_day + timeOfDay dt = _
  rw [hlater]
  rfl

theorem nanosLater_zero (hvalid : cal.Valid dt) : cal.nanosLater dt 0 = cal.nanosOf dt := by
  obtain ⟨hy, hm⟩ := shift_zero dt.year.toInt hvalid.date.1
  have hcut : cal.civil.shiftDay dt.year.toInt dt.month.toInt dt.day.toInt 0 = dt.day.toInt := by
    unfold shiftDay
    rw [hy, hm]
    exact min_eq_left hvalid.date.2.2
  unfold Calendar.nanosLater Calendar.dayLater
  rw [hy, hm, hcut]
  rfl

theorem add_months_again (hdt : cal.DateOf tp dt) (hday : dt.day.toInt ≤ 28) {a b : Int32}
    {v : TimePoint} (hu : cal.add_months tp a = .returned u)
    (hv : cal.add_months u b = .returned v) :
    v.nanos.toInt = cal.nanosLater dt (a.toInt + b.toInt) := by
  obtain ⟨-, hfits, -⟩ := (Calendar.add_months_eq_returned hdt).mp hu
  obtain ⟨hs0, hs1⟩ := hdt.1.shiftYear_bounds hfits
  have hyear : Fits 32 (shiftYear dt.year.toInt dt.month.toInt a.toInt) := by
    rw [fits_32]
    omega
  obtain ⟨-, hfits', rfl⟩ := (Calendar.add_months_eq_returned (dateOf_shift hdt hu)).mp hv
  rw [toInt_ofInt_of_fits hfits', nanosLater_shift hdt.1 hday hyear]

end Law

/-- **The law of `add_months`.** Let `dt` be the date of `tp`, and the exact
    result representable. The call returns the instant of the date that
    `DateTime.shift` gives exactly when nothing overflows on the way. Up to
    day 28 calls that return compose: two in a row lead where one with the
    sum of the months leads, and going back as far as forth leads to `tp`. -/
theorem Calendar.add_months_law (cal : Calendar) {tp : TimePoint} {dt : DateTime}
    (hdt : cal.DateOf tp dt) :
    (∀ months : Int32, Fits 64 (cal.nanosLater dt months.toInt) →
      ((∃ u, cal.add_months tp months = .returned u ∧
          cal.DateOf u (dt.shift cal months.toInt)) ↔
        cal.InRange tp dt months.toInt)) ∧
    (dt.day.toInt ≤ 28 → ∀ (a b : Int32) (u v : TimePoint),
      cal.add_months tp a = .returned u → cal.add_months u b = .returned v →
        (∀ (c : Int32) (w : TimePoint), c.toInt = a.toInt + b.toInt →
          cal.add_months tp c = .returned w → v = w) ∧
        (b.toInt = -a.toInt → v = tp)) := by
  refine ⟨?_, ?_⟩
  · intro months hfits
    constructor
    · intro ⟨u, hu, _⟩
      exact ((Calendar.add_months_eq_returned hdt).mp hu).1
    · intro hrange
      have hu := (Calendar.add_months_eq_returned hdt).mpr ⟨hrange, hfits, rfl⟩
      exact ⟨_, hu, dateOf_shift hdt hu⟩
  · intro hday a b u v hu hv
    have hexact := add_months_again hdt hday hu hv
    refine ⟨?_, ?_⟩
    · intro c w hc hw
      obtain ⟨-, hfits, rfl⟩ := (Calendar.add_months_eq_returned hdt).mp hw
      apply TimePoint.ext_toInt
      rw [hexact, toInt_ofInt_of_fits hfits, hc]
    · intro hback
      apply TimePoint.ext_toInt
      rw [hexact, hback, add_neg_cancel, nanosLater_zero hdt.1]
      exact hdt.2

theorem add_months_leap_day : ∃ u,
    Calendar.Gregorian.add_months ⟨-60523200000000000⟩ 1 = .returned u ∧
      Calendar.Gregorian.DateOf u ⟨2024, 2, 29, 12, 0, 0, 0⟩ := by
  obtain ⟨dt, hread, hdt⟩ := Calendar.to_date_time_spec .Gregorian
    (show Calendar.Gregorian.Reads ⟨-60523200000000000⟩ from .inr (by decide +kernel))
  have hjanuary : Calendar.Gregorian.to_date_time ⟨-60523200000000000⟩ =
      .returned ⟨2024, 1, 31, 12, 0, 0, 0⟩ := by decide +kernel
  obtain rfl := Outcome.returned.inj (hjanuary.symm.trans hread)
  have hrun : ∃ u, Calendar.Gregorian.add_months ⟨-60523200000000000⟩ 1 = .returned u :=
    ⟨⟨-58017600000000000⟩, by decide +kernel⟩
  obtain ⟨u, hu⟩ := hrun
  obtain ⟨hrange, hfits, -⟩ := (Calendar.add_months_eq_returned hdt).mp hu
  have hshift : DateTime.shift .Gregorian ⟨2024, 1, 31, 12, 0, 0, 0⟩ (1 : Int32).toInt =
      ⟨2024, 2, 29, 12, 0, 0, 0⟩ := by decide +kernel
  have hlaw := (Calendar.add_months_law .Gregorian hdt).1 1 hfits
  rw [hshift] at hlaw
  exact hlaw.mpr hrange

theorem add_months_far_back : ∃ dt, Calendar.Cal360.DateOf ⟨9223372036854775807⟩ dt ∧
    Fits 64 (Calendar.Cal360.nanosLater dt (-7000)) ∧
    Calendar.Cal360.add_months ⟨9223372036854775807⟩ (-7000) = .undefined := by
  obtain ⟨dt, hdt⟩ := Calendar.exists_dateOf .Cal360 ⟨9223372036854775807⟩
  refine ⟨dt, hdt, ?_, by decide +kernel⟩
  rw [cal360_nanosLater hdt]
  decide +kernel

end Tick

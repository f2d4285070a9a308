import Helm.Tick.AliasingCycle
import Helm.Tick.AliasingWindows

/-! # The cycle_last_year strategy on whole years

  When the coverage is a whole number of years of the dataset calendar,
  the year that `resolve_cycle` remaps into is covered from its first day
  to its last, so that the window search cannot miss. The remapped time
  then depends on the month, the day and the time of day only, whatever
  year the simulation is in.
-/

namespace Tick

open Signed

namespace AliasingEngine

variable {sim ds : Calendar} {e : AliasingEngine sim ds} {t : TimePoint}

/-! ### The remapped time -/

/-- The part of `resolve_cycle` that computes `remapped_tp`. -/
def remapped_tp (e : AliasingEngine sim ds) (sim_time : TimePoint) : Cpp TimePoint := do
  let dt ← sim.to_date_time sim_time
  let target_year ← e.cycle_target_year sim_time
  let dt ← substitute_year ds dt target_year
  ds.to_time_point dt

theorem resolve_cycle_eq_search (e : AliasingEngine sim ds) (t : TimePoint) :
    e.resolve_cycle t = (e.remapped_tp t >>= e.resolve_in_bounds) := by
  unfold resolve_cycle remapped_tp
  simp only [bind_assoc]

/-! ### Whole years -/

/-- Midnight of the first of January. -/
def new_year (y : Int32) : DateTime := ⟨y, 1, 1, 0, 0, 0, 0⟩

theorem nanosOf_new_year (cal : Calendar) (y : Int32) :
    cal.nanosOf (new_year y) = cal.dayOf (new_year y) * nanos_per_day := by
  have h0 : (0 : Int32).toInt = 0 := rfl
  unfold Calendar.nanosOf timeOfDay
  simp only [new_year, h0, zero_mul, add_zero]

theorem lt_new_year_iff {cal : Calendar} {x : DateTime} (hx : cal.Valid x) (y : Int32) :
    x.lt (new_year y) ↔ x.year.toInt < y.toInt := by
  obtain ⟨⟨hm, hd, _⟩, hh, hmi, hs, hn⟩ := hx
  have h0 : (0 : Int32).toInt = 0 := rfl
  have h1 : (1 : Int32).toInt = 1 := rfl
  rw [DateTime.lt_iff]
  unfold CivilCalendar.Before new_year
  simp only [h0, h1]
  omega

/-- The coverage is a whole number of years of the dataset calendar. -/
structure WholeYears (e : AliasingEngine sim ds) (first stop : Int32) : Prop where
  start_date : ds.DateOf e.coverage.start (new_year first)
  stop_date : ds.DateOf e.coverage.stop (new_year stop)

section Covered

variable {first stop : Int32} {x : DateTime}

theorem WholeYears.covered_iff (h : e.WholeYears first stop) (hx : ds.Valid x) :
    (e.coverage.start.nanos.toInt ≤ ds.nanosOf x ∧ ds.nanosOf x < e.coverage.stop.nanos.toInt) ↔
      first.toInt ≤ x.year.toInt ∧ x.year.toInt < stop.toInt := by
  rw [← h.start_date.2, ← h.stop_date.2, ← not_lt, ← not_lt,
    Calendar.nanosOf_lt_iff hx h.start_date.1, Calendar.nanosOf_lt_iff hx h.stop_date.1,
    lt_new_year_iff hx, lt_new_year_iff hx]

theorem WholeYears.representable (h : e.WholeYears first stop) (hx : ds.Valid x)
    (h0 : e.coverage.start.nanos.toInt ≤ ds.nanosOf x)
    (h1 : ds.nanosOf x < e.coverage.stop.nanos.toInt) : ds.Representable x := by
  have hstart := fits_toInt e.coverage.start.nanos
  have hstop := fits_toInt e.coverage.stop.nanos
  have hday := Calendar.nanosOf_ediv hx
  have hmidnight : e.coverage.start.nanos.toInt
      = ds.dayOf (new_year first) * nanos_per_day := by
    rw [← h.start_date.2, nanosOf_new_year]
  unfold Calendar.Representable
  rw [nanos_per_day_eq] at *
  rw [fits_64] at *
  rw [fits_64]
  omega

theorem anchor_covered (e : AliasingEngine sim ds) (t : TimePoint) :
    e.coverage.start.nanos.toInt ≤ (e.anchor t).nanos.toInt ∧
      (e.anchor t).nanos.toInt < e.coverage.stop.nanos.toInt := by
  have hlt := e.coverage.start_lt
  have hlast := e.toInt_last_instant
  unfold anchor
  by_cases hpast : e.coverage.stop.nanos.toInt ≤ t.nanos.toInt
  · rw [if_pos hpast]
    omega
  · rw [if_neg hpast]
    omega

theorem WholeYears.remaps (h : e.WholeYears first stop) {a : DateTime}
    (ha : ds.DateOf (e.anchor t) a) (hx : ds.Valid x) (hyear : x.year = a.year) :
    ds.Reads (e.anchor t) ∧ ds.Representable x ∧
      e.coverage.contains ⟨.ofInt (ds.nanosOf x)⟩ = true := by
  obtain ⟨hlo, hhi⟩ := e.anchor_covered t
  rw [← ha.2] at hlo hhi
  have hrep := h.representable ha.1 hlo hhi
  obtain ⟨h0, h1⟩ := (h.covered_iff hx).mpr (hyear ▸ (h.covered_iff ha.1).mp ⟨hlo, hhi⟩)
  have hrepx := h.representable hx h0 h1
  refine ⟨.inr (ha.representable.mp hrep), hrepx, ?_⟩
  rw [contains_iff_covered]
  show _ ≤ (Int64.ofInt _).toInt ∧ (Int64.ofInt _).toInt < _
  rw [toInt_ofInt_of_fits hrepx.2]
  exact ⟨h0, h1⟩

end Covered

/-! ### Two times of the same day of the year -/

/-- The dates agree in all but the year. -/
structure SameDayOfYear (a b : DateTime) : Prop where
  month : a.month = b.month
  day : a.day = b.day
  hour : a.hour = b.hour
  minute : a.minute = b.minute
  second : a.second = b.second
  nanosecond : a.nanosecond = b.nanosecond

theorem in_year_congr {a b : DateTime} (h : SameDayOfYear a b) (year : Int32) :
    in_year ds a year = in_year ds b year := by
  obtain ⟨hmonth, hday, hhour, hminute, hsecond, hnanosecond⟩ := h
  unfold in_year
  rw [hmonth, hday, hhour, hminute, hsecond, hnanosecond]

/-- Out of bounds on the same side. -/
def SameSide (e : AliasingEngine sim ds) (t₁ t₂ : TimePoint) : Prop :=
  (e.coverage.stop.nanos.toInt ≤ t₁.nanos.toInt ∧
    e.coverage.stop.nanos.toInt ≤ t₂.nanos.toInt) ∨
  (t₁.nanos.toInt < e.coverage.start.nanos.toInt ∧
    t₂.nanos.toInt < e.coverage.start.nanos.toInt)

/-- The date `d` of the remapped time keeps the month and the time of day of
    `dt`; its day is cut to the length of the month. -/
structure KeepsDate (ds : Calendar) (dt : DateTime) (target_year : Int32) (d : DateTime) :
    Prop where
  year : d.year = target_year
  month : d.month = dt.month
  day : d.day.toInt
    = min dt.day.toInt (ds.civil.monthLength target_year.toInt dt.month.toInt)
  hour : d.hour = dt.hour
  minute : d.minute = dt.minute
  second : d.second = dt.second
  nanosecond : d.nanosecond = dt.nanosecond

theorem keepsDate_in_year (ds : Calendar) (dt : DateTime) (year : Int32) :
    KeepsDate ds dt year (in_year ds dt year) := by
  have hlen := toInt_monthLength ds year.toInt dt.month.toInt
  refine ⟨rfl, rfl, ?_, rfl, rfl, rfl, rfl⟩
  unfold in_year
  dsimp only
  by_cases hcut : ds.civil.monthLength year.toInt dt.month.toInt < dt.day.toInt
  · rw [if_pos hcut, hlen]
    omega
  · rw [if_neg hcut]
    omega

/-- What the strategy owes to two times of the same day of the year, whose
    date is `dt` but for the year: both are remapped to one time of the
    target year and resolve to one window and weight. -/
def ResolveAlike (e : AliasingEngine sim ds) (t₁ t₂ : TimePoint) (dt : DateTime) : Prop :=
  ∃ w r year d,
    e.resolve t₁ = .returned w ∧ e.resolve t₂ = .returned w ∧
    e.remapped_tp t₁ = .returned r ∧ e.remapped_tp t₂ = .returned r ∧
    e.resolve_in_bounds r = .returned w ∧
    e.cycle_target_year t₁ = .returned year ∧ e.cycle_target_year t₂ = .returned year ∧
    ds.DateOf r d ∧ KeepsDate ds dt year d

theorem WholeYears.resolve_cycle {first stop : Int32} (h : e.WholeYears first stop)
    (hreads : sim.Reads t) {dt a : DateTime} (hdt : sim.DateOf t dt)
    (ha : ds.DateOf (e.anchor t) a) :
    e.remapped_tp t = .returned ⟨.ofInt (ds.nanosOf (in_year ds dt a.year))⟩ ∧
      e.cycle_target_year t = .returned a.year ∧
      ds.DateOf ⟨.ofInt (ds.nanosOf (in_year ds dt a.year))⟩ (in_year ds dt a.year) ∧
      ∃ w, e.resolve_in_bounds ⟨.ofInt (ds.nanosOf (in_year ds dt a.year))⟩ = .returned w := by
  have hvalid : ds.Valid (in_year ds dt a.year) := valid_in_year hdt.1 a.year
  obtain ⟨hanchor, hrep, hcontains⟩ := h.remaps ha hvalid rfl
  obtain ⟨dt', hret, hof⟩ := Calendar.to_date_time_spec sim hreads
  obtain rfl := dateOf_unique hof hdt
  obtain ⟨a', hreta, hofa⟩ := Calendar.to_date_time_spec ds hanchor
  obtain rfl := dateOf_unique hofa ha
  have hyear : e.cycle_target_year t = .returned a'.year := by
    rw [cycle_target_year_eq, hreta]
    rfl
  refine ⟨?_, hyear, ⟨hvalid, (toInt_ofInt_of_fits hrep.2).symm⟩, ?_⟩
  · unfold remapped_tp
    rw [hret, Outcome.returned_bind, hyear, Outcome.returned_bind, substitute_year_eq hdt.1,
      Outcome.returned_bind, Calendar.to_time_point_eq hvalid, if_pos hrep]
  · obtain ⟨w, hw, _⟩ := resolve_in_bounds_interpolates hcontains
    exact ⟨w, hw⟩

theorem resolve_of_out_of_bounds (hpolicy : e.policy = .cycle_last_year)
    (hout : ¬ e.coverage.contains t = true) :
    e.resolve t = (e.remapped_tp t >>= e.resolve_in_bounds) := by
  rw [resolve_of_cycle_last_year hpolicy, if_neg hout, resolve_cycle_eq_search]

theorem SameSide.out_of_bounds {t₁ t₂ : TimePoint} (h : e.SameSide t₁ t₂) :
    ¬ e.coverage.contains t₁ = true ∧ ¬ e.coverage.contains t₂ = true ∧
      e.anchor t₁ = e.anchor t₂ := by
  have hlt := e.coverage.start_lt
  rw [contains_iff_covered, contains_iff_covered]
  unfold anchor
  obtain ⟨h₁, h₂⟩ | ⟨h₁, h₂⟩ := h
  · rw [if_pos h₁, if_pos h₂]
    exact ⟨by omega, by omega, rfl⟩
  · rw [if_neg (by omega), if_neg (by omega)]
    exact ⟨by omega, by omega, rfl⟩

/-- **cycle_last_year on whole years.** Two times out of bounds on the same
    side, with equal month, day and time of day, resolve alike exactly when
    the simulation calendar can read both. -/
theorem resolve_alike_iff (hpolicy : e.policy = .cycle_last_year) {first stop : Int32}
    (hyears : e.WholeYears first stop) {t₁ t₂ : TimePoint} {dt₁ dt₂ : DateTime}
    (hdt₁ : sim.DateOf t₁ dt₁) (hdt₂ : sim.DateOf t₂ dt₂) (hsame : SameDayOfYear dt₁ dt₂)
    (hside : e.SameSide t₁ t₂) :
    e.ResolveAlike t₁ t₂ dt₁ ↔ sim.Reads t₁ ∧ sim.Reads t₂ := by
  obtain ⟨hout₁, hout₂, hanchor⟩ := hside.out_of_bounds
  constructor
  · intro ⟨w, _, _, _, hw₁, hw₂, _⟩
    rw [resolve_of_cycle_last_year hpolicy, if_neg hout₁] at hw₁
    rw [resolve_of_cycle_last_year hpolicy, if_neg hout₂] at hw₂
    exact ⟨(reads_of_resolve_cycle hw₁).1, (reads_of_resolve_cycle hw₂).1⟩
  · intro ⟨hreads₁, hreads₂⟩
    obtain ⟨a, ha⟩ := Calendar.exists_dateOf ds (e.anchor t₁)
    obtain ⟨hremap₁, hyear₁, hdate, w, hw⟩ := hyears.resolve_cycle hreads₁ hdt₁ ha
    obtain ⟨hremap₂, hyear₂, _⟩ := hyears.resolve_cycle hreads₂ hdt₂ (hanchor ▸ ha)
    -- the second date is the first one once both are in the target year
    rw [← in_year_congr hsame] at hremap₂
    refine ⟨w, _, a.year, _, ?_, ?_, hremap₁, hremap₂, hw, hyear₁, hyear₂, hdate,
      keepsDate_in_year ds dt₁ a.year⟩
    · rw [resolve_of_out_of_bounds hpolicy hout₁, hremap₁, Outcome.returned_bind, hw]
    · rw [resolve_of_out_of_bounds hpolicy hout₂, hremap₂, Outcome.returned_bind, hw]

/-- The year 2026 in daily snapshots. -/
def year_engine : AliasingEngine .Gregorian .Gregorian where
  coverage := ⟨⟨0⟩, ⟨31536000000000000⟩, by decide⟩
  snapshot_interval := ⟨86400000000000⟩
  policy := .cycle_last_year
  climatological_year := 0
  interval_pos := day_pos
  duration_fits := by decide
  interval_dvd := by decide

theorem wholeYears_year_engine : year_engine.WholeYears 2026 2027 := by
  refine ⟨⟨Calendar.validate_iff.mp (by decide), ?_⟩, ⟨Calendar.validate_iff.mp (by decide), ?_⟩⟩
  · rw [nanosOf_gregorian (by decide)]
    decide
  · rw [nanosOf_gregorian (by decide)]
    decide

theorem resolve_alike_leap_days :
    year_engine.policy = .cycle_last_year ∧ year_engine.WholeYears 2026 2027 ∧
      year_engine.SameSide ⟨68212800000000000⟩ ⟨194443200000000000⟩ ∧
      year_engine.ResolveAlike ⟨68212800000000000⟩ ⟨194443200000000000⟩
        ⟨2028, 2, 29, 12, 0, 0, 0⟩ := by
  have h₁ : Calendar.Gregorian.DateOf ⟨68212800000000000⟩ ⟨2028, 2, 29, 12, 0, 0, 0⟩ := by
    refine ⟨Calendar.validate_iff.mp (by decide), ?_⟩
    rw [nanosOf_gregorian (by decide)]
    decide
  have h₂ : Calendar.Gregorian.DateOf ⟨194443200000000000⟩ ⟨2032, 2, 29, 12, 0, 0, 0⟩ := by
    refine ⟨Calendar.validate_iff.mp (by decide), ?_⟩
    rw [nanosOf_gregorian (by decide)]
    decide
  have hside : year_engine.SameSide ⟨68212800000000000⟩ ⟨194443200000000000⟩ :=
    .inl ⟨by decide, by decide⟩
  exact ⟨rfl, wholeYears_year_engine, hside,
    (resolve_alike_iff rfl wholeYears_year_engine h₁ h₂ ⟨rfl, rfl, rfl, rfl, rfl, rfl⟩ hside).mpr
      ⟨.inr (by decide), .inr (by decide)⟩⟩

theorem resolve_first_instant :
    year_engine.policy = .cycle_last_year ∧ year_engine.WholeYears 2026 2027 ∧
      Calendar.Gregorian.DateOf ⟨-9223372036854775808⟩ ⟨1733, 9, 22, 0, 12, 43, 145224192⟩ ∧
      Calendar.Gregorian.DateOf ⟨-9191836036854775808⟩ ⟨1734, 9, 22, 0, 12, 43, 145224192⟩ ∧
      year_engine.SameSide ⟨-9223372036854775808⟩ ⟨-9191836036854775808⟩ ∧
      ¬ year_engine.ResolveAlike ⟨-9223372036854775808⟩ ⟨-9191836036854775808⟩
        ⟨1733, 9, 22, 0, 12, 43, 145224192⟩ := by
  refine ⟨rfl, wholeYears_year_engine, ⟨Calendar.validate_iff.mp (by decide), ?_⟩,
    ⟨Calendar.validate_iff.mp (by decide), ?_⟩, .inr ⟨by decide, by decide⟩, ?_⟩
  · rw [nanosOf_gregorian (by decide)]
    decide
  · rw [nanosOf_gregorian (by decide)]
    decide
  · intro ⟨w, _, _, _, hw, _⟩
    have hundefined : year_engine.resolve ⟨-9223372036854775808⟩ = .undefined := by rfl
    rw [hundefined] at hw
    cases hw

end AliasingEngine

end Tick

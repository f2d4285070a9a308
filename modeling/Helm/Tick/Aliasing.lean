import Helm.Tick.RoundTrip

/-! # The aliasing engine

  `Aliasing_Engine` maps a simulation time to the dataset snapshots around
  it. Inside the dataset coverage the window is searched directly;
  outside, the policy remaps the time first. The engine is a template over
  the simulation calendar and the dataset calendar, which are parameters
  here.

  The interpolation weight is the exact rational of which the source
  computes the nearest `double`.
-/

namespace Tick

open Signed

/-! ### Model -/

inductive OutOfBoundsPolicy
  | clamp_to_edge | cycle_last_year | pure_climatology | leap_hold
  deriving DecidableEq

structure AliasedWindow where
  window : TimeWindow
  alpha : ℚ
  deriving DecidableEq

/-- `Aliasing_Engine::calculate_weight` -/
def calculate_weight (current : TimePoint) (window : TimeWindow) : Cpp ℚ := do
  let d ← window.duration
  require (d.nanos.toInt ≠ 0)
    (.invalid_argument "calculate_weight: degenerate window with zero duration")
  require (window.contains current)
    (.out_of_range "calculate_weight: current time is not within the supplied window")
  let numerator ← signed 64 (current.nanos.toInt - window.start.nanos.toInt)
  let denominator ← signed 64 (window.stop.nanos.toInt - window.start.nanos.toInt)
  return numerator / denominator

/-- `Aliasing_Engine::enclosing_window`; the division truncates. -/
def enclosing_window (t coverage_start : TimePoint) (interval : Duration) :
    Cpp TimeWindow := do
  let offset_nanos ← signed 64 (t.nanos.toInt - coverage_start.nanos.toInt)
  let iv := interval.nanos.toInt
  let floor_offset ← signed 64 (offset_nanos.tdiv iv * iv)
  let start ← signed 64 (coverage_start.nanos.toInt + floor_offset)
  let floor_start : TimePoint := ⟨.ofInt start⟩
  let stop ← floor_start.add interval
  TimeWindow.make floor_start stop

def is_feb29 (dt : DateTime) : Bool := dt.month = 2 && dt.day = 29

/-- An engine the constructor has accepted. -/
structure AliasingEngine (sim ds : Calendar) where
  coverage : TimeWindow
  snapshot_interval : Duration
  policy : OutOfBoundsPolicy
  climatological_year : Int32
  interval_pos : 0 < snapshot_interval.nanos.toInt
  duration_fits : Fits 64 (coverage.stop.nanos.toInt - coverage.start.nanos.toInt)
  interval_dvd : snapshot_interval.nanos.toInt ∣
    coverage.stop.nanos.toInt - coverage.start.nanos.toInt

namespace AliasingEngine

variable {sim ds : Calendar}

/-- The check of the constructor that concerns one policy only. -/
def check_climatological_year (ds : Calendar) (coverage : TimeWindow)
    (policy : OutOfBoundsPolicy) (climatological_year : Int32) : Cpp Unit :=
  if policy = .pure_climatology then do
    let start_dt ← ds.to_date_time coverage.start
    let last ← coverage.stop.sub ⟨1⟩
    let end_dt ← ds.to_date_time last
    require (start_dt.year.toInt ≤ climatological_year.toInt ∧
        climatological_year.toInt ≤ end_dt.year.toInt) (.invalid_argument
      "Aliasing_Engine: climatological_year must be within dataset coverage year range")
  else return ()

/-- The constructor. -/
def make (sim ds : Calendar) (coverage : TimeWindow) (snapshot_interval : Duration)
    (policy : OutOfBoundsPolicy) (climatological_year : Int32) :
    Cpp (AliasingEngine sim ds) :=
  if hpos : 0 < snapshot_interval.nanos.toInt then
    -- `coverage.duration()`
    if hfits : Fits 64 (coverage.stop.nanos.toInt - coverage.start.nanos.toInt) then
      if hdvd : snapshot_interval.nanos.toInt ∣
          coverage.stop.nanos.toInt - coverage.start.nanos.toInt then do
        check_climatological_year ds coverage policy climatological_year
        return ⟨coverage, snapshot_interval, policy, climatological_year, hpos, hfits, hdvd⟩
      else .thrown (.invalid_argument
        "Aliasing_Engine: snapshot_interval must evenly divide coverage duration")
    else .undefined
  else .thrown (.invalid_argument "Aliasing_Engine: snapshot_interval must be positive")

theorem make_eq_returned_iff {coverage : TimeWindow} {interval : Duration}
    {policy : OutOfBoundsPolicy} {year : Int32} (hpolicy : policy ≠ .pure_climatology)
    {e : AliasingEngine sim ds} :
    make sim ds coverage interval policy year = .returned e ↔
      e.coverage = coverage ∧ e.snapshot_interval = interval ∧ e.policy = policy ∧
        e.climatological_year = year := by
  have hcheck : check_climatological_year ds coverage policy year = .returned () :=
    if_neg hpolicy
  unfold make
  constructor
  · intro h
    split at h
    · split at h
      · split at h
        · rw [hcheck, Outcome.returned_bind] at h
          injection h with h
          subst h
          exact ⟨rfl, rfl, rfl, rfl⟩
        · exact absurd h (by simp)
      · exact absurd h (by simp)
    · exact absurd h (by simp)
  · rintro ⟨rfl, rfl, rfl, rfl⟩
    rw [dif_pos e.interval_pos, dif_pos e.duration_fits, dif_pos e.interval_dvd, hcheck]
    rfl

variable (e : AliasingEngine sim ds)

def resolve_in_bounds (sim_time : TimePoint) : Cpp AliasedWindow := do
  let window ← enclosing_window sim_time e.coverage.start e.snapshot_interval
  let alpha ← calculate_weight sim_time window
  return ⟨window, alpha⟩

def resolve_clamp (sim_time : TimePoint) : Cpp AliasedWindow :=
  if e.coverage.stop.nanos.toInt ≤ sim_time.nanos.toInt then do
    let t_left ← e.coverage.stop.sub e.snapshot_interval
    let window ← TimeWindow.make t_left e.coverage.stop
    return ⟨window, 0⟩
  else if sim_time.nanos.toInt < e.coverage.start.nanos.toInt then do
    let t_right ← e.coverage.start.add e.snapshot_interval
    let window ← TimeWindow.make e.coverage.start t_right
    return ⟨window, 0⟩
  else e.resolve_in_bounds sim_time

/-- The step that `resolve_cycle` and `resolve_climatology` share: put the
    date in the target year and clamp its day to the month of the dataset
    calendar. -/
def substitute_year (ds : Calendar) (dt : DateTime) (target_year : Int32) : Cpp DateTime := do
  let dt := { dt with year := target_year }
  let max_day ← ds.days_in_month target_year dt.month
  return if dt.day.toInt > max_day.toInt then { dt with day := max_day } else dt

/-- The year `resolve_cycle` remaps into: that of the last covered
    nanosecond, or of the first one. -/
def cycle_target_year (sim_time : TimePoint) : Cpp Int32 :=
  if e.coverage.stop.nanos.toInt ≤ sim_time.nanos.toInt then do
    let last ← e.coverage.stop.sub ⟨1⟩
    let end_dt ← ds.to_date_time last
    return end_dt.year
  else do
    let start_dt ← ds.to_date_time e.coverage.start
    return start_dt.year

def resolve_cycle (sim_time : TimePoint) : Cpp AliasedWindow := do
  let dt ← sim.to_date_time sim_time
  let target_year ← e.cycle_target_year sim_time
  let dt ← substitute_year ds dt target_year
  let remapped_tp ← ds.to_time_point dt
  e.resolve_in_bounds remapped_tp

def resolve_climatology (sim_time : TimePoint) : Cpp AliasedWindow := do
  let dt ← sim.to_date_time sim_time
  let dt ← substitute_year ds dt e.climatological_year
  let remapped_tp ← ds.to_time_point dt
  let clim_year_start ← ds.to_time_point ⟨e.climatological_year, 1, 1, 0, 0, 0, 0⟩
  let window ← enclosing_window remapped_tp clim_year_start e.snapshot_interval
  let window_end_dt ← ds.to_date_time window.stop
  let window ←
    if e.climatological_year.toInt < window_end_dt.year.toInt then do
      let next_year ← signed 32 (e.climatological_year.toInt + 1)
      let t_right ← ds.to_time_point ⟨.ofInt next_year, 1, 1, 0, 0, 0, 0⟩
      let t_left ← t_right.sub e.snapshot_interval
      TimeWindow.make t_left t_right
    else pure window
  let alpha ← calculate_weight remapped_tp window
  return ⟨window, alpha⟩

/-- The window from February 28 to March 1 that holds over a leap day. -/
def leap_day_window (ds : Calendar) (year : Int32) : Cpp AliasedWindow := do
  let t_left ← ds.to_time_point ⟨year, 2, 28, 0, 0, 0, 0⟩
  let t_right ← ds.to_time_point ⟨year, 3, 1, 0, 0, 0, 0⟩
  let window ← TimeWindow.make t_left t_right
  return ⟨window, 0⟩

def resolve_leap_hold (sim_time : TimePoint) : Cpp AliasedWindow := do
  let dt ← sim.to_date_time sim_time
  if (sim = .Gregorian ∧ ds = .NoLeap) ∧ is_feb29 dt then
    leap_day_window ds dt.year
  else if e.coverage.stop.nanos.toInt ≤ sim_time.nanos.toInt ∨
      sim_time.nanos.toInt < e.coverage.start.nanos.toInt then
    e.resolve_clamp sim_time
  else e.resolve_in_bounds sim_time

/-- The bounds check and the dispatch that follow the special cases. -/
def resolve_by_bounds (sim_time : TimePoint) : Cpp AliasedWindow :=
  if e.coverage.contains sim_time then e.resolve_in_bounds sim_time
  else
    match e.policy with
    | .clamp_to_edge => e.resolve_clamp sim_time
    | .cycle_last_year => e.resolve_cycle sim_time
    | .leap_hold => e.resolve_leap_hold sim_time
    | .pure_climatology => e.resolve_clamp sim_time

def resolve (sim_time : TimePoint) : Cpp AliasedWindow :=
  if e.policy = .pure_climatology then e.resolve_climatology sim_time
  else if e.policy = .leap_hold ∧ sim = .Gregorian ∧ ds = .NoLeap then do
    -- a leap day is held whether it is in bounds or not
    let dt ← sim.to_date_time sim_time
    if is_feb29 dt then leap_day_window ds dt.year
    else e.resolve_by_bounds sim_time
  else e.resolve_by_bounds sim_time

/-! ### The window search -/

variable {e}

/-- Start of the snapshot interval that `x` falls in. -/
def snapshot_start (e : AliasingEngine sim ds) (x : Int) : Int :=
  e.coverage.start.nanos.toInt + (x - e.coverage.start.nanos.toInt)
    / e.snapshot_interval.nanos.toInt * e.snapshot_interval.nanos.toInt

theorem snapshot_start_bounds (e : AliasingEngine sim ds) (x : Int) :
    e.snapshot_start x ≤ x ∧ x < e.snapshot_start x + e.snapshot_interval.nanos.toInt := by
  have h0 := Int.ediv_mul_le (x - e.coverage.start.nanos.toInt) e.interval_pos.ne'
  have h1 := Int.lt_ediv_add_one_mul_self (x - e.coverage.start.nanos.toInt) e.interval_pos
  rw [add_mul, one_mul] at h1
  unfold snapshot_start
  omega

theorem snapshot_start_covered {x : Int} (h0 : e.coverage.start.nanos.toInt ≤ x)
    (h1 : x < e.coverage.stop.nanos.toInt) :
    e.coverage.start.nanos.toInt ≤ e.snapshot_start x ∧
      e.snapshot_start x + e.snapshot_interval.nanos.toInt ≤ e.coverage.stop.nanos.toInt := by
  obtain ⟨k, hk⟩ := e.interval_dvd
  have hpos := e.interval_pos
  obtain ⟨q, hq⟩ : ∃ q, q = (x - e.coverage.start.nanos.toInt)
    / e.snapshot_interval.nanos.toInt := ⟨_, rfl⟩
  have hq0 : 0 ≤ q := by
    rw [hq]
    exact Int.ediv_nonneg (by omega) hpos.le
  have hqk : q < k := by
    rw [hq]
    apply Int.ediv_lt_of_lt_mul hpos
    rw [mul_comm k, ← hk]
    omega
  have hstep : (q + 1) * e.snapshot_interval.nanos.toInt
      ≤ k * e.snapshot_interval.nanos.toInt :=
    mul_le_mul_of_nonneg_right (by omega) hpos.le
  have hstart : 0 ≤ q * e.snapshot_interval.nanos.toInt := mul_nonneg hq0 hpos.le
  rw [add_mul, one_mul, mul_comm k, ← hk] at hstep
  unfold snapshot_start
  rw [← hq]
  omega

/-- **The window search** finds the interval of the time on the grid that
    begins at the anchor. -/
theorem enclosing_window_eq {t anchor : TimePoint} {interval : Duration} {f : Int}
    (hle : anchor.nanos.toInt ≤ t.nanos.toInt) (hpos : 0 < interval.nanos.toInt)
    (hf : f = anchor.nanos.toInt + (t.nanos.toInt - anchor.nanos.toInt)
      / interval.nanos.toInt * interval.nanos.toInt)
    (hoff : Fits 64 (t.nanos.toInt - anchor.nanos.toInt))
    (hstop : Fits 64 (f + interval.nanos.toInt)) :
    ∃ w, enclosing_window t anchor interval = .returned w ∧ w.start.nanos.toInt = f ∧
      w.stop.nanos.toInt = f + interval.nanos.toInt ∧ w.contains t = true := by
  have hfloor : (t.nanos.toInt - anchor.nanos.toInt) / interval.nanos.toInt
      * interval.nanos.toInt = f - anchor.nanos.toInt := by
    rw [hf]
    ring
  have hb0 := Int.ediv_mul_le (t.nanos.toInt - anchor.nanos.toInt) hpos.ne'
  have hb1 := Int.lt_ediv_add_one_mul_self (t.nanos.toInt - anchor.nanos.toInt) hpos
  have hq := Int.ediv_nonneg (show 0 ≤ t.nanos.toInt - anchor.nanos.toInt by omega) hpos.le
  have hf0 := mul_nonneg hq hpos.le
  rw [add_mul, one_mul] at hb1
  rw [hfloor] at hb0 hb1 hf0
  have hanchor := fits_toInt anchor.nanos
  have hfoff : Fits 64 (f - anchor.nanos.toInt) := by
    rw [fits_64] at *
    omega
  have hffits : Fits 64 f := by
    rw [fits_64] at *
    omega
  have hfval : (Int64.ofInt f).toInt = f := toInt_ofInt_of_fits hffits
  have hstopval : (Int64.ofInt (f + interval.nanos.toInt)).toInt = f + interval.nanos.toInt :=
    toInt_ofInt_of_fits hstop
  have hlt : (Int64.ofInt f).toInt < (Int64.ofInt (f + interval.nanos.toInt)).toInt := by omega
  have hadd : (⟨.ofInt f⟩ : TimePoint).add interval
      = .returned ⟨.ofInt (f + interval.nanos.toInt)⟩ := by
    rw [TimePoint.add_of_fits]
    · rw [hfval]
    · rwa [hfval]
  refine ⟨⟨⟨.ofInt f⟩, ⟨.ofInt (f + interval.nanos.toInt)⟩, hlt⟩, ?_, hfval, hstopval, ?_⟩
  · unfold enclosing_window
    rw [signed_of_fits hoff, Outcome.returned_bind]
    dsimp only
    rw [tdiv_of_nonneg (by omega), hfloor, signed_of_fits hfoff, Outcome.returned_bind,
      add_sub_cancel, signed_of_fits hffits, Outcome.returned_bind, hadd,
      Outcome.returned_bind, TimeWindow.make_of_lt]
  · unfold TimeWindow.contains
    dsimp only
    rw [hfval, hstopval, decide_eq_true_eq]
    omega

theorem calculate_weight_of_contains {t : TimePoint} {w : TimeWindow} (hin : w.contains t = true)
    (hlen : Fits 64 (w.stop.nanos.toInt - w.start.nanos.toInt)) :
    calculate_weight t w = .returned
      (((t.nanos.toInt - w.start.nanos.toInt : Int) : ℚ)
        / ((w.stop.nanos.toInt - w.start.nanos.toInt : Int) : ℚ)) := by
  have hcontains := hin
  unfold TimeWindow.contains at hcontains
  rw [decide_eq_true_eq] at hcontains
  have hne : (Int64.ofInt (w.stop.nanos.toInt - w.start.nanos.toInt)).toInt ≠ 0 := by
    rw [toInt_ofInt_of_fits hlen]
    omega
  have hnum : Fits 64 (t.nanos.toInt - w.start.nanos.toInt) := by
    rw [fits_64] at *
    omega
  unfold calculate_weight TimeWindow.duration
  rw [signed_of_fits hlen, Outcome.returned_bind, Outcome.pure_eq, Outcome.returned_bind,
    require_of hne, Outcome.returned_bind, require_of hin, Outcome.returned_bind,
    signed_of_fits hnum, Outcome.returned_bind, Outcome.returned_bind]
  rfl

/-- **The window search inside the coverage** returns the snapshot interval
    of the time. -/
theorem resolve_in_bounds_covered {t : TimePoint}
    (h0 : e.coverage.start.nanos.toInt ≤ t.nanos.toInt)
    (h1 : t.nanos.toInt < e.coverage.stop.nanos.toInt) :
    ∃ w, e.resolve_in_bounds t = .returned w ∧
      w.window.start.nanos.toInt = e.snapshot_start t.nanos.toInt ∧
      w.window.stop.nanos.toInt
        = e.snapshot_start t.nanos.toInt + e.snapshot_interval.nanos.toInt := by
  have hfits := e.duration_fits
  have hstop := fits_toInt e.coverage.stop.nanos
  have hstart := fits_toInt e.coverage.start.nanos
  have hpos := e.interval_pos
  obtain ⟨hc0, hc1⟩ := snapshot_start_covered h0 h1
  have hoff : Fits 64 (t.nanos.toInt - e.coverage.start.nanos.toInt) := by
    rw [fits_64] at *
    omega
  have hend : Fits 64 (e.snapshot_start t.nanos.toInt + e.snapshot_interval.nanos.toInt) := by
    rw [fits_64] at *
    omega
  obtain ⟨w, hw, hwstart, hwstop, hcontains⟩ := enclosing_window_eq h0 hpos rfl hoff hend
  have hlen : Fits 64 (w.stop.nanos.toInt - w.start.nanos.toInt) := by
    rw [hwstart, hwstop]
    have hiv := fits_toInt e.snapshot_interval.nanos
    rw [fits_64] at *
    omega
  obtain ⟨alpha, hret⟩ : ∃ alpha, e.resolve_in_bounds t = .returned ⟨w, alpha⟩ := by
    unfold resolve_in_bounds
    rw [hw, Outcome.returned_bind, calculate_weight_of_contains hcontains hlen]
    exact ⟨_, rfl⟩
  exact ⟨_, hret, hwstart, hwstop⟩

/-! ### Dates carried from one calendar to another -/

/-- The date `dt` read in the calendar `ds` and in the year `year`: a day
    past the end of the month becomes its last day. -/
def in_year (ds : Calendar) (dt : DateTime) (year : Int32) : DateTime :=
  { dt with
    year := year
    day := if ds.civil.monthLength year.toInt dt.month.toInt < dt.day.toInt then
        .ofInt (ds.civil.monthLength year.toInt dt.month.toInt)
      else dt.day }

theorem valid_in_year {dt : DateTime} (h : sim.Valid dt) (year : Int32) :
    ds.Valid (in_year ds dt year) := by
  obtain ⟨⟨hm, hd1, _⟩, hh, hmi, hs, hn⟩ := h
  refine ⟨⟨hm, ?_⟩, hh, hmi, hs, hn⟩
  have hlen := toInt_monthLength ds year.toInt dt.month.toInt
  have hpos := ds.civil.monthLength_pos year.toInt dt.month.toInt
  unfold in_year
  dsimp only
  split
  · rw [hlen]
    omega
  · omega

theorem substitute_year_eq {dt : DateTime} (h : sim.Valid dt) (year : Int32) :
    substitute_year ds dt year = .returned (in_year ds dt year) := by
  have hlen := toInt_monthLength ds year.toInt dt.month.toInt
  unfold substitute_year in_year
  dsimp only
  rw [Calendar.days_in_month_eq ds year dt.month h.date.1, Outcome.returned_bind, hlen]
  by_cases hday : ds.civil.monthLength year.toInt dt.month.toInt < dt.day.toInt
  · rw [if_pos hday, if_pos hday]
    rfl
  · rw [if_neg hday, if_neg hday]
    rfl

/-! ### Simulation and dataset calendars that differ -/

/-- Leap years up to year `y`. -/
def leap_years (y : Int) : Int := y / 4 - y / 100 + y / 400

/-- Leap days from the epoch to a Gregorian date, negative before the
    epoch. A leap day itself counts, since it shares its NoLeap date with
    the day before. -/
def leap_drift (dt : DateTime) : Int :=
  leap_years (dt.year.toInt - 1) - leap_years 2025
    + (if IsLeap dt.year.toInt ∧ (2 < dt.month.toInt ∨ is_feb29 dt) then 1 else 0)

theorem is_feb29_iff (dt : DateTime) :
    is_feb29 dt = true ↔ dt.month.toInt = 2 ∧ dt.day.toInt = 29 := by
  unfold is_feb29
  rw [Bool.and_eq_true, decide_eq_true_eq, decide_eq_true_eq, ← Int32.toInt_inj,
    ← Int32.toInt_inj]
  exact Iff.rfl

theorem day_in_year_noLeap {dt : DateTime} (h : Calendar.Gregorian.Valid dt) :
    (in_year .NoLeap dt dt.year).day.toInt
      = dt.day.toInt - (if is_feb29 dt then 1 else 0) := by
  have hlen := toInt_monthLength .NoLeap dt.year.toInt dt.month.toInt
  have hd : dt.day.toInt ≤ if dt.month.toInt = 2 ∧ IsLeap dt.year.toInt then 29
      else commonLength dt.month.toInt := h.date.2.2
  change (Int32.ofInt (commonLength dt.month.toInt)).toInt = commonLength dt.month.toInt at hlen
  show (if commonLength dt.month.toInt < dt.day.toInt then _ else dt.day).toInt = _
  by_cases hfeb : is_feb29 dt = true
  · obtain ⟨hm, hday⟩ := (is_feb29_iff dt).mp hfeb
    have hcommon : commonLength dt.month.toInt = 28 := by
      rw [hm]
      decide
    rw [if_pos (by omega), if_pos hfeb]
    change (Int32.ofInt (commonLength dt.month.toInt)).toInt = _
    omega
  · have hnot := mt (is_feb29_iff dt).mpr hfeb
    have hle : ¬ commonLength dt.month.toInt < dt.day.toInt := by
      intro hlt
      split at hd
      · rename_i hleap
        rw [hleap.1] at hlt
        have : commonLength 2 = 28 := by decide
        omega
      · omega
    rw [if_neg hle, if_neg hfeb, sub_zero]

/-- **The drift of the two calendars**: the NoLeap count of a Gregorian date
    lags by one day for each leap day. -/
theorem nanosOf_in_year_noLeap {dt : DateTime} (h : Calendar.Gregorian.Valid dt) :
    Calendar.NoLeap.nanosOf (in_year .NoLeap dt dt.year)
      = Calendar.Gregorian.nanosOf dt - leap_drift dt * nanos_per_day := by
  have hday := day_in_year_noLeap h
  have hm := h.date.1
  have hdays : Calendar.NoLeap.dayOf (in_year .NoLeap dt dt.year)
      = Calendar.Gregorian.dayOf dt - leap_drift dt := by
    unfold Calendar.dayOf CivilCalendar.dayNumber
    rw [hday]
    show Calendar.NoLeap.civil.daysBeforeYear epoch_year dt.year.toInt
      + Calendar.NoLeap.civil.daysBeforeMonth dt.year.toInt dt.month.toInt + _ = _
    rw [noLeap_daysBeforeYear, gregorian_daysBeforeYear, gregorian_daysBeforeMonth _ hm.1]
    unfold leap_drift leap_years marchStart
    by_cases hleap : IsLeap dt.year.toInt
    · by_cases hfeb : is_feb29 dt = true
      · obtain ⟨hm2, _⟩ := (is_feb29_iff dt).mp hfeb
        have hgt : ¬ 2 < dt.month.toInt := by omega
        simp only [hleap, hfeb, hgt, and_true, or_true, if_true, if_false]
        omega
      · by_cases hgt : 2 < dt.month.toInt
        · simp only [hleap, hfeb, hgt, and_true, true_or, if_true, if_false, Bool.false_eq_true]
          omega
        · simp only [hleap, hfeb, hgt, and_true, or_false, if_false, and_false, Bool.false_eq_true]
          omega
    · -- a common year has no February 29
      have hfeb : ¬ is_feb29 dt = true := by
        intro hf
        obtain ⟨hm2, hd⟩ := (is_feb29_iff dt).mp hf
        have hlen : dt.day.toInt ≤ if dt.month.toInt = 2 ∧ IsLeap dt.year.toInt then 29
          else commonLength dt.month.toInt := h.date.2.2
        rw [if_neg fun hc => hleap hc.2, hm2, hd] at hlen
        exact absurd hlen (by decide)
      simp only [hleap, hfeb, and_false, false_and, if_false, Bool.false_eq_true]
      omega
  unfold Calendar.nanosOf
  rw [hdays]
  show _ + timeOfDay dt = _
  ring

theorem resolve_of_contains {e : AliasingEngine .Gregorian .NoLeap} {t : TimePoint}
    (hpolicy : e.policy ≠ .pure_climatology) (ht : e.coverage.contains t)
    (hleap : e.policy = .leap_hold →
      ∀ dt, Calendar.Gregorian.DateOf t dt → is_feb29 dt = false) :
    e.resolve t =
      if e.policy = .leap_hold → t.MidnightFits then e.resolve_in_bounds t
      else .undefined := by
  have hbounds : e.resolve_by_bounds t = e.resolve_in_bounds t := if_pos ht
  unfold resolve
  rw [if_neg hpolicy]
  by_cases hp : e.policy = .leap_hold
  · rw [if_pos ⟨hp, rfl, rfl⟩]
    by_cases hmid : t.MidnightFits
    · obtain ⟨dt, hret, hof⟩ := Calendar.to_date_time_spec .Gregorian (.inr hmid)
      rw [if_pos fun _ => hmid, hret, Outcome.returned_bind, hleap hp dt hof, hbounds]
      rfl
    · have hreads : ¬ Calendar.Gregorian.Reads t := by
        rintro (h | h)
        · exact absurd h (by simp)
        · exact hmid h
      rw [if_neg fun h => hmid (h hp), Calendar.to_date_time_undefined hreads]
      rfl
  · rw [if_neg fun h => hp h.1, if_pos fun h => absurd h hp, hbounds]

theorem mem_snapshot_iff {x c : Int} :
    (e.snapshot_start x ≤ c ∧ c < e.snapshot_start x + e.snapshot_interval.nanos.toInt) ↔
      (c - e.coverage.start.nanos.toInt) / e.snapshot_interval.nanos.toInt
        = (x - e.coverage.start.nanos.toInt) / e.snapshot_interval.nanos.toInt := by
  have hpos := e.interval_pos
  constructor
  · rintro ⟨h0, h1⟩
    unfold snapshot_start at h0 h1
    apply Int.le_antisymm
    · apply Int.lt_add_one_iff.mp
      apply Int.ediv_lt_of_lt_mul hpos
      rw [add_mul, one_mul]
      omega
    · apply (Int.le_ediv_iff_mul_le hpos).mpr
      omega
  · intro h
    have hc := e.snapshot_start_bounds c
    unfold snapshot_start at hc ⊢
    rwa [h] at hc

/-- **Gregorian simulation, NoLeap dataset.** The window of a time in bounds
    encloses the dataset time of the same date exactly when the leap days
    since the epoch do not move the raw count into another snapshot
    interval. -/
theorem resolve_encloses_same_date_iff {e : AliasingEngine .Gregorian .NoLeap} {t : TimePoint}
    {dt : DateTime} (hpolicy : e.policy ≠ .pure_climatology) (ht : e.coverage.contains t)
    (hleap : e.policy = .leap_hold →
      ∀ dt, Calendar.Gregorian.DateOf t dt → is_feb29 dt = false)
    (hdt : Calendar.Gregorian.DateOf t dt) :
    (∃ w, e.resolve t = .returned w ∧
      w.window.start.nanos.toInt
        ≤ Calendar.NoLeap.nanosOf (in_year .NoLeap dt dt.year) ∧
      Calendar.NoLeap.nanosOf (in_year .NoLeap dt dt.year)
        < w.window.stop.nanos.toInt) ↔
    (e.policy = .leap_hold → t.MidnightFits) ∧
      (t.nanos.toInt - leap_drift dt * nanos_per_day - e.coverage.start.nanos.toInt)
          / e.snapshot_interval.nanos.toInt
        = (t.nanos.toInt - e.coverage.start.nanos.toInt) / e.snapshot_interval.nanos.toInt := by
  rw [nanosOf_in_year_noLeap hdt.1, hdt.2]
  obtain ⟨c, hc⟩ : ∃ c, c = t.nanos.toInt - leap_drift dt * nanos_per_day := ⟨_, rfl⟩
  rw [← hc]
  have hcov : e.coverage.start.nanos.toInt ≤ t.nanos.toInt ∧
      t.nanos.toInt < e.coverage.stop.nanos.toInt := by
    simpa [TimeWindow.contains] using ht
  obtain ⟨w, hret, hstart, hstop⟩ := resolve_in_bounds_covered hcov.1 hcov.2
  rw [resolve_of_contains hpolicy ht hleap, ← mem_snapshot_iff]
  by_cases hmid : e.policy = .leap_hold → t.MidnightFits
  · rw [if_pos hmid, hret]
    constructor
    · rintro ⟨w', heq, h0, h1⟩
      injection heq with heq
      subst heq
      exact ⟨hmid, hstart ▸ h0, hstop ▸ h1⟩
    · rintro ⟨_, h0, h1⟩
      exact ⟨w, rfl, hstart.symm ▸ h0, hstop.symm ▸ h1⟩
  · rw [if_neg hmid]
    apply iff_of_false
    · rintro ⟨w', heq, _⟩
      exact absurd heq (by simp)
    · exact fun h => hmid h.1

theorem day_pos : 0 < (Duration.mk 86400000000000).nanos.toInt := by decide

/-- Ten NoLeap years of daily snapshots from the epoch on. -/
def daily_engine (sim ds : Calendar) (policy : OutOfBoundsPolicy) : AliasingEngine sim ds where
  coverage := ⟨⟨0⟩, ⟨315360000000000000⟩, by decide⟩
  snapshot_interval := ⟨86400000000000⟩
  policy := policy
  climatological_year := 0
  interval_pos := by decide
  duration_fits := by decide
  interval_dvd := by decide

/-- The first of March 2028, the first day after a leap day. -/
def march_2028 : DateTime := ⟨2028, 3, 1, 0, 0, 0, 0⟩

theorem nanosOf_gregorian {dt : DateTime} (hm : 1 ≤ dt.month.toInt ∧ dt.month.toInt ≤ 12) :
    Calendar.Gregorian.nanosOf dt
      = (GregorianCalendar.civil_to_days dt.year.toInt dt.month.toInt dt.day.toInt
          - GregorianCalendar.epoch_day_offset) * nanos_per_day + timeOfDay dt := by
  unfold Calendar.nanosOf Calendar.dayOf
  rw [civil_to_days_eq _ _ hm]

theorem dateOf_march_2028 : Calendar.Gregorian.DateOf ⟨68256000000000000⟩ march_2028 := by
  refine ⟨Calendar.validate_iff.mp (by decide), ?_⟩
  rw [nanosOf_gregorian (by decide)]
  decide

theorem resolve_march_2028 :
    (daily_engine .Gregorian .NoLeap .clamp_to_edge).coverage.contains ⟨68256000000000000⟩ ∧
    Calendar.Gregorian.DateOf ⟨68256000000000000⟩ march_2028 ∧
    ¬ ∃ w, (daily_engine .Gregorian .NoLeap .clamp_to_edge).resolve ⟨68256000000000000⟩
        = .returned w ∧
      w.window.start.nanos.toInt
        ≤ Calendar.NoLeap.nanosOf (in_year .NoLeap march_2028 march_2028.year) ∧
      Calendar.NoLeap.nanosOf (in_year .NoLeap march_2028 march_2028.year)
        < w.window.stop.nanos.toInt := by
  refine ⟨by decide, dateOf_march_2028, ?_⟩
  rintro ⟨w, hret, h0, _⟩
  obtain ⟨w', hret', hstart, _⟩ := resolve_in_bounds_covered
    (e := daily_engine .Gregorian .NoLeap .clamp_to_edge) (t := ⟨68256000000000000⟩)
    (by decide) (by decide)
  have heq : w = w' := by
    have hresolve : (daily_engine .Gregorian .NoLeap .clamp_to_edge).resolve
        ⟨68256000000000000⟩ = _ := if_neg (by decide)
    rw [hresolve, if_neg (by decide)] at hret
    have hbounds : (daily_engine .Gregorian .NoLeap .clamp_to_edge).resolve_by_bounds
        ⟨68256000000000000⟩ = _ := if_pos (by decide)
    rw [hbounds, hret'] at hret
    injection hret with h
    exact h.symm
  rw [heq, hstart, nanosOf_in_year_noLeap dateOf_march_2028.1, dateOf_march_2028.2] at h0
  exact absurd h0 (by decide)

theorem resolve_epoch_same_date :
    ∃ w, (daily_engine .Gregorian .NoLeap .leap_hold).resolve ⟨0⟩ = .returned w ∧
      w.window.start.nanos.toInt
        ≤ Calendar.NoLeap.nanosOf (in_year .NoLeap ⟨2026, 1, 1, 0, 0, 0, 0⟩ 2026) ∧
      Calendar.NoLeap.nanosOf (in_year .NoLeap ⟨2026, 1, 1, 0, 0, 0, 0⟩ 2026)
        < w.window.stop.nanos.toInt := by
  have hepoch : Calendar.Gregorian.DateOf ⟨0⟩ ⟨2026, 1, 1, 0, 0, 0, 0⟩ := by
    refine ⟨Calendar.validate_iff.mp (by decide), ?_⟩
    rw [nanosOf_gregorian (by decide)]
    decide
  refine (resolve_encloses_same_date_iff (e := daily_engine .Gregorian .NoLeap .leap_hold)
    (by decide) (by decide) ?_ hepoch).mpr ?_
  · intro _ dt hdt
    have heq : dt = ⟨2026, 1, 1, 0, 0, 0, 0⟩ :=
      Calendar.nanosOf_inj hdt.1 hepoch.1 (hdt.2.trans hepoch.2.symm)
    rw [heq]
    decide
  · decide

end AliasingEngine

end Tick

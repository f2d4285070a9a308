import Helm.Tick.AliasingYears

/-! # The pure_climatology strategy

  The strategy moves every time into the climatology year and searches a
  grid of its own: the multiples of the snapshot interval from January 1 of
  that year on. A window that would end in a later year is replaced by the
  one that ends with the year. The grid of the dataset begins at the start
  of the coverage, which the strategy does not read.
-/

namespace Tick

open Signed

namespace AliasingEngine

variable {sim ds : Calendar} {e : AliasingEngine sim ds} {t : TimePoint} {dt : DateTime}

/-! ### The climatology year -/

/-- January 1 of the climatology year and of the next one, in nanoseconds. -/
noncomputable def year_start (e : AliasingEngine sim ds) : Int := ds.nanosOf (new_year e.climatological_year)

noncomputable def year_stop (e : AliasingEngine sim ds) : Int :=
  ds.nanosOf (new_year (.ofInt (e.climatological_year.toInt + 1)))

/-- Start of the interval of the year's grid that `x` falls in. -/
noncomputable def grid_start (e : AliasingEngine sim ds) (x : Int) : Int :=
  e.year_start + (x - e.year_start) / e.snapshot_interval.nanos.toInt
    * e.snapshot_interval.nanos.toInt

/-- The window ends with the year or later. -/
def AtSeam (e : AliasingEngine sim ds) (x : Int) : Prop :=
  e.year_stop ≤ e.grid_start x + e.snapshot_interval.nanos.toInt

noncomputable instance (e : AliasingEngine sim ds) (x : Int) : Decidable (e.AtSeam x) :=
  inferInstanceAs (Decidable (_ ≤ _))

/-- The grid on which the window lies begins here. -/
noncomputable def climatology_anchor (e : AliasingEngine sim ds) (x : Int) : Int :=
  if e.AtSeam x then e.year_stop else e.year_start

/-- Where the window starts. -/
noncomputable def climatology_start (e : AliasingEngine sim ds) (x : Int) : Int :=
  if e.AtSeam x then e.year_stop - e.snapshot_interval.nanos.toInt else e.grid_start x

/-- No operator on the way overflows: the date of the time can be read, the
    remapped time and the start of its year are instants, and so is the window. -/
structure ClimatologyFits (e : AliasingEngine sim ds) (t : TimePoint) (dt : DateTime) : Prop where
  reads : sim.Reads t
  year_representable : ds.Representable (new_year e.climatological_year)
  representable : ds.Representable (in_year ds dt e.climatological_year)
  stop_fits : Fits 64 (e.grid_start (ds.nanosOf (in_year ds dt e.climatological_year))
    + e.snapshot_interval.nanos.toInt)
  start_fits : Fits 64
    (e.climatology_start (ds.nanosOf (in_year ds dt e.climatological_year)))

theorem valid_new_year (cal : Calendar) (y : Int32) : cal.Valid (new_year y) := by
  have hlen := cal.civil.monthLength_pos y.toInt 1
  have h0 : (0 : Int32).toInt = 0 := rfl
  have h1 : (1 : Int32).toInt = 1 := rfl
  refine ⟨⟨?_, ?_⟩, ?_, ?_, ?_, ?_⟩ <;> simp only [new_year, h0, h1] <;> omega

theorem nanosOf_new_year_eq (cal : Calendar) (y : Int32) :
    cal.nanosOf (new_year y) = cal.civil.daysBeforeYear epoch_year y.toInt * nanos_per_day := by
  have h1 : (1 : Int32).toInt = 1 := rfl
  rw [nanosOf_new_year]
  unfold Calendar.dayOf CivilCalendar.dayNumber new_year
  simp only [h1, CivilCalendar.daysBeforeMonth_one, sub_self, add_zero]

theorem yearLength_le (cal : Calendar) (y : Int) : cal.civil.yearLength y ≤ 366 := by
  cases cal with
  | Gregorian =>
    rw [gregorian_yearLength]
    split <;> omega
  | NoLeap =>
    rw [noLeap_yearLength]
    omega
  | Cal360 =>
    unfold CivilCalendar.yearLength
    rw [cal360_daysBeforeMonth y (by omega)]
    omega

theorem next_year_fits {cal : Calendar} {y : Int32} (h : cal.Representable (new_year y)) :
    Fits 32 (y.toInt + 1) := by
  have hnanos := h.2
  have hy := fits_toInt32 y
  rw [nanosOf_new_year_eq, nanos_per_day_eq, fits_64] at hnanos
  rw [fits_32] at *
  cases cal with
  | Gregorian =>
    rw [gregorian_daysBeforeYear] at hnanos
    unfold marchStart at hnanos
    omega
  | NoLeap =>
    rw [noLeap_daysBeforeYear] at hnanos
    omega
  | Cal360 =>
    rw [cal360_daysBeforeYear] at hnanos
    omega

theorem year_stop_le (e : AliasingEngine sim ds) (hnext : Fits 32 (e.climatological_year.toInt + 1)) :
    e.year_stop ≤ e.year_start + 366 * nanos_per_day := by
  have hlength := yearLength_le ds e.climatological_year.toInt
  unfold year_start year_stop
  rw [nanosOf_new_year_eq, nanosOf_new_year_eq, toInt_ofInt32_of_fits hnext,
    CivilCalendar.daysBeforeYear_succ, nanos_per_day_eq]
  omega

theorem year_bounds {x : DateTime} (hx : ds.Valid x) (hyear : x.year = e.climatological_year)
    (hnext : Fits 32 (e.climatological_year.toInt + 1)) :
    e.year_start ≤ ds.nanosOf x ∧ ds.nanosOf x < e.year_stop := by
  unfold year_start year_stop
  rw [← not_lt, Calendar.nanosOf_lt_iff hx (valid_new_year ds _),
    Calendar.nanosOf_lt_iff hx (valid_new_year ds _), lt_new_year_iff hx, lt_new_year_iff hx,
    toInt_ofInt32_of_fits hnext, hyear]
  omega

theorem grid_start_bounds (e : AliasingEngine sim ds) {x : Int} (hx : e.year_start ≤ x) :
    e.year_start ≤ e.grid_start x ∧ e.grid_start x ≤ x ∧
      x < e.grid_start x + e.snapshot_interval.nanos.toInt := by
  have h0 := Int.ediv_mul_le (x - e.year_start) e.interval_pos.ne'
  have h1 := Int.lt_ediv_add_one_mul_self (x - e.year_start) e.interval_pos
  have hq := Int.ediv_nonneg (show 0 ≤ x - e.year_start by omega) e.interval_pos.le
  have h2 := mul_nonneg hq e.interval_pos.le
  rw [add_mul, one_mul] at h1
  unfold grid_start
  omega

theorem climatology_start_bounds (e : AliasingEngine sim ds) {x : Int} (hx : e.year_start ≤ x)
    (hx' : x < e.year_stop) :
    e.climatology_start x ≤ x ∧ x < e.climatology_start x + e.snapshot_interval.nanos.toInt := by
  have hgrid := e.grid_start_bounds hx
  unfold climatology_start
  split
  · next hseam =>
    unfold AtSeam at hseam
    omega
  · omega

theorem anchor_dvd (e : AliasingEngine sim ds) (x : Int) :
    e.snapshot_interval.nanos.toInt ∣ e.climatology_start x - e.climatology_anchor x := by
  unfold climatology_start climatology_anchor
  split
  · exact ⟨-1, by ring⟩
  · exact ⟨(x - e.year_start) / e.snapshot_interval.nanos.toInt, by unfold grid_start; ring⟩

/-! ### The strategy -/

theorem representable_new_year {cal : Calendar} {y : Int32}
    (h : Fits 64 (cal.nanosOf (new_year y))) : cal.Representable (new_year y) := by
  rw [nanosOf_new_year] at h
  refine ⟨h, ?_⟩
  rwa [nanosOf_new_year]

theorem midnightFits_of_year_start {w : TimePoint}
    (hyear : ds.Representable (new_year e.climatological_year))
    (hle : e.year_start ≤ w.nanos.toInt) : w.MidnightFits := by
  have hw := fits_toInt w.nanos
  have hfits : Fits 64 e.year_start := hyear.2
  have hday : e.year_start = ds.dayOf (new_year e.climatological_year) * nanos_per_day :=
    nanosOf_new_year ds _
  unfold TimePoint.MidnightFits
  rw [nanos_per_day_eq] at *
  rw [fits_64] at *
  omega

theorem atSeam_iff {w : TimePoint} {end_dt : DateTime} {x : Int} (hend : ds.DateOf w end_dt)
    (hw : w.nanos.toInt = e.grid_start x + e.snapshot_interval.nanos.toInt)
    (hnext : Fits 32 (e.climatological_year.toInt + 1)) :
    e.climatological_year.toInt < end_dt.year.toInt ↔ e.AtSeam x := by
  unfold AtSeam year_stop
  rw [← hw, ← hend.2, ← not_lt, Calendar.nanosOf_lt_iff hend.1 (valid_new_year ds _),
    lt_new_year_iff hend.1, toInt_ofInt32_of_fits hnext]
  omega

/-- **The window of the strategy.** -/
theorem resolve_climatology_eq (hdt : sim.DateOf t dt) (hfits : e.ClimatologyFits t dt) :
    ∃ r, e.resolve_climatology t = .returned r ∧
      r.window.start.nanos.toInt
        = e.climatology_start (ds.nanosOf (in_year ds dt e.climatological_year)) ∧
      r.window.stop.nanos.toInt = r.window.start.nanos.toInt + e.snapshot_interval.nanos.toInt ∧
      r.alpha = ((ds.nanosOf (in_year ds dt e.climatological_year)
        - r.window.start.nanos.toInt : Int) : ℚ) / (e.snapshot_interval.nanos.toInt : ℚ) := by
  obtain ⟨hreads, hyear, hrep, hstop, hstart⟩ := hfits
  have hnext := next_year_fits hyear
  have hvalid : ds.Valid (in_year ds dt e.climatological_year) := valid_in_year hdt.1 _
  obtain ⟨x, hx⟩ : ∃ x, x = ds.nanosOf (in_year ds dt e.climatological_year) := ⟨_, rfl⟩
  have hbounds := year_bounds (e := e) hvalid rfl hnext
  rw [← hx] at hstop hstart hbounds ⊢
  have hwindow := e.climatology_start_bounds hbounds.1 hbounds.2
  obtain ⟨dt', hret, hof⟩ := Calendar.to_date_time_spec sim hreads
  obtain rfl := dateOf_unique hof hdt
  have hremapped : ds.to_time_point (in_year ds dt' e.climatological_year)
      = .returned ⟨.ofInt x⟩ := by
    rw [Calendar.to_time_point_eq hvalid, if_pos hrep, hx]
  have hstarted : ds.to_time_point (new_year e.climatological_year)
      = .returned ⟨.ofInt e.year_start⟩ := by
    rw [Calendar.to_time_point_eq (valid_new_year ds _), if_pos hyear]
    rfl
  have hxval : (Int64.ofInt x).toInt = x := toInt_ofInt_of_fits (hx ▸ hrep.2)
  have hyval : (Int64.ofInt e.year_start).toInt = e.year_start := toInt_ofInt_of_fits hyear.2
  have hyfits : Fits 64 e.year_start := hyear.2
  have hgrid := e.grid_start_bounds hbounds.1
  -- the search on the grid of the year
  obtain ⟨w, hw, hwstart, hwstop, hcontains⟩ : ∃ w,
      enclosing_window ⟨.ofInt x⟩ ⟨.ofInt e.year_start⟩ e.snapshot_interval = .returned w ∧
        w.start.nanos.toInt = e.grid_start x ∧
        w.stop.nanos.toInt = e.grid_start x + e.snapshot_interval.nanos.toInt ∧
        w.contains ⟨.ofInt x⟩ = true := by
    apply enclosing_window_eq
    · show (Int64.ofInt _).toInt ≤ (Int64.ofInt _).toInt
      omega
    · exact e.interval_pos
    · show _ = (Int64.ofInt _).toInt + ((Int64.ofInt _).toInt - (Int64.ofInt _).toInt) / _ * _
      rw [hxval, hyval]
      rfl
    · show Fits 64 ((Int64.ofInt _).toInt - (Int64.ofInt _).toInt)
      have hlength := e.year_stop_le hnext
      rw [hxval, hyval, fits_64]
      rw [nanos_per_day_eq] at hlength
      omega
    · exact hstop
  have hmidnight : w.stop.MidnightFits := midnightFits_of_year_start (e := e) hyear (by omega)
  obtain ⟨end_dt, hend, hendof⟩ := Calendar.to_date_time_spec ds (.inr hmidnight)
  have hseam := atSeam_iff (e := e) hendof hwstop hnext
  have hiv := fits_toInt e.snapshot_interval.nanos
  -- whatever the window is, it is one interval long and contains the time
  have hweight : ∀ w : TimeWindow, w.start.nanos.toInt = e.climatology_start x →
      w.stop.nanos.toInt = w.start.nanos.toInt + e.snapshot_interval.nanos.toInt →
      calculate_weight ⟨.ofInt x⟩ w = .returned
        (((x - w.start.nanos.toInt : Int) : ℚ) / (e.snapshot_interval.nanos.toInt : ℚ)) := by
    intro w hwstart hwstop
    have hlen : w.stop.nanos.toInt - w.start.nanos.toInt = e.snapshot_interval.nanos.toInt := by
      omega
    have hin : w.contains ⟨.ofInt x⟩ = true := by
      unfold TimeWindow.contains
      dsimp only
      rw [hxval, decide_eq_true_eq]
      omega
    rw [calculate_weight_of_contains hin (by rwa [hlen]), hlen]
    dsimp only
    rw [hxval]
  unfold resolve_climatology
  rw [hret, Outcome.returned_bind, substitute_year_eq hdt.1, Outcome.returned_bind, hremapped,
    Outcome.returned_bind, show (⟨e.climatological_year, 1, 1, 0, 0, 0, 0⟩ : DateTime)
      = new_year e.climatological_year from rfl, hstarted, Outcome.returned_bind, hw,
    Outcome.returned_bind, hend, Outcome.returned_bind]
  by_cases hat : e.AtSeam x
  · -- the window that ends with the year
    have hclim : e.climatology_start x = e.year_stop - e.snapshot_interval.nanos.toInt := if_pos hat
    have hstopfits : Fits 64 e.year_stop := by
      have hwfits := fits_toInt w.stop.nanos
      have hle : e.year_stop ≤ w.stop.nanos.toInt := hwstop ▸ hat
      rw [fits_64] at *
      omega
    have hstopval : (Int64.ofInt e.year_stop).toInt = e.year_stop := toInt_ofInt_of_fits hstopfits
    have hright : ds.to_time_point (new_year (.ofInt (e.climatological_year.toInt + 1)))
        = .returned ⟨.ofInt e.year_stop⟩ := by
      rw [Calendar.to_time_point_eq (valid_new_year ds _), if_pos (representable_new_year hstopfits)]
      rfl
    have hleft : (⟨.ofInt e.year_stop⟩ : TimePoint).sub e.snapshot_interval
        = .returned ⟨.ofInt (e.climatology_start x)⟩ := by
      rw [TimePoint.sub_of_fits]
      · rw [hstopval, hclim]
      · rw [hstopval, ← hclim]
        exact hstart
    have hstartval : (Int64.ofInt (e.climatology_start x)).toInt = e.climatology_start x :=
      toInt_ofInt_of_fits hstart
    have hpos := e.interval_pos
    have hlt : (Int64.ofInt (e.climatology_start x)).toInt < (Int64.ofInt e.year_stop).toInt := by
      omega
    obtain ⟨v, hmade, hvstart, hvstop⟩ : ∃ v,
        TimeWindow.make ⟨.ofInt (e.climatology_start x)⟩ ⟨.ofInt e.year_stop⟩ = .returned v ∧
          v.start.nanos.toInt = e.climatology_start x ∧
          v.stop.nanos.toInt = v.start.nanos.toInt + e.snapshot_interval.nanos.toInt := by
      refine ⟨_, TimeWindow.make_of_lt hlt, hstartval, ?_⟩
      show (Int64.ofInt _).toInt = (Int64.ofInt _).toInt + _
      omega
    rw [if_pos (hseam.mpr hat), signed_of_fits hnext, Outcome.returned_bind,
      show (⟨.ofInt (e.climatological_year.toInt + 1), 1, 1, 0, 0, 0, 0⟩ : DateTime)
        = new_year (.ofInt (e.climatological_year.toInt + 1)) from rfl, hright,
      Outcome.returned_bind, hleft, Outcome.returned_bind, hmade, Outcome.returned_bind]
    dsimp only
    rw [hweight v hvstart hvstop, Outcome.returned_bind]
    exact ⟨⟨v, _⟩, rfl, hvstart, hvstop, rfl⟩
  · have hclim : e.climatology_start x = e.grid_start x := if_neg hat
    have hwlength : w.stop.nanos.toInt
        = w.start.nanos.toInt + e.snapshot_interval.nanos.toInt := by omega
    rw [if_neg fun h => hat (hseam.mp h), Outcome.pure_eq, Outcome.returned_bind]
    dsimp only
    rw [hweight w (hwstart.trans hclim.symm) hwlength, Outcome.returned_bind]
    exact ⟨⟨w, _⟩, rfl, hwstart.trans hclim.symm, hwlength, rfl⟩

theorem isSnapshot_iff {w : TimeWindow} {a : Int}
    (hlength : w.stop.nanos.toInt = w.start.nanos.toInt + e.snapshot_interval.nanos.toInt)
    (hdvd : e.snapshot_interval.nanos.toInt ∣ w.start.nanos.toInt - a) :
    e.IsSnapshot w ↔
      e.snapshot_interval.nanos.toInt ∣ a - e.coverage.start.nanos.toInt ∧
        e.coverage.start.nanos.toInt ≤ w.start.nanos.toInt ∧
        w.stop.nanos.toInt ≤ e.coverage.stop.nanos.toInt := by
  obtain ⟨k, hk⟩ := hdvd
  constructor
  · intro hsnapshot
    obtain ⟨j, hj⟩ := hsnapshot.on_grid
    refine ⟨⟨j - k, ?_⟩, hsnapshot.start_covered, hsnapshot.stop_covered⟩
    linear_combination hj - hk
  · intro ⟨⟨j, hj⟩, hcovered, hcovered'⟩
    refine ⟨hcovered, hcovered', ⟨j + k, ?_⟩, hlength⟩
    linear_combination hj + hk

/-- What the strategy gives for a time whose remapped date is `d`. -/
structure ClimatologyAt (e : AliasingEngine sim ds) (d : DateTime) (r : AliasedWindow) : Prop where
  starts_before : r.window.start.nanos.toInt ≤ ds.nanosOf d
  stops_after : ds.nanosOf d < r.window.stop.nanos.toInt
  length : r.window.stop.nanos.toInt
    = r.window.start.nanos.toInt + e.snapshot_interval.nanos.toInt
  alpha_eq : r.alpha = ((ds.nanosOf d - r.window.start.nanos.toInt : Int) : ℚ)
    / (e.snapshot_interval.nanos.toInt : ℚ)
  alpha_nonneg : 0 ≤ r.alpha
  alpha_lt : r.alpha < 1
  on_grid : ∃ k : Int, r.window.start.nanos.toInt
    = e.climatology_anchor (ds.nanosOf d) + k * e.snapshot_interval.nanos.toInt
  at_seam : e.AtSeam (ds.nanosOf d) → r.window.stop.nanos.toInt = e.year_stop
  /-- The window is one of the dataset exactly if its anchor lies on the
      dataset's grid and the window in the coverage. -/
  snapshot_iff : e.IsSnapshot r.window ↔
    e.snapshot_interval.nanos.toInt
        ∣ e.climatology_anchor (ds.nanosOf d) - e.coverage.start.nanos.toInt ∧
      e.coverage.start.nanos.toInt ≤ r.window.start.nanos.toInt ∧
      r.window.stop.nanos.toInt ≤ e.coverage.stop.nanos.toInt

theorem resolve_climatology_congr {t t' : TimePoint} {dt' : DateTime} (hdt : sim.DateOf t dt)
    (hdt' : sim.DateOf t' dt') (hreads : sim.Reads t) (hreads' : sim.Reads t')
    (hsame : SameDayOfYear dt dt') : e.resolve_climatology t' = e.resolve_climatology t := by
  obtain ⟨a, hret, hof⟩ := Calendar.to_date_time_spec sim hreads
  obtain rfl := dateOf_unique hof hdt
  obtain ⟨b, hret', hof'⟩ := Calendar.to_date_time_spec sim hreads'
  obtain rfl := dateOf_unique hof' hdt'
  unfold resolve_climatology
  rw [hret, hret', Outcome.returned_bind, Outcome.returned_bind, substitute_year_eq hdt.1,
    substitute_year_eq hdt'.1, in_year_congr hsame]

/-- Two years in snapshots of ten days, with the second one as climatology. -/
def second_year_engine : AliasingEngine .NoLeap .NoLeap where
  coverage := ⟨⟨0⟩, ⟨63072000000000000⟩, by decide⟩
  snapshot_interval := ⟨864000000000000⟩
  policy := .pure_climatology
  climatological_year := 2027
  interval_pos := by decide
  duration_fits := by decide
  interval_dvd := by decide

theorem second_year_engine_years : second_year_engine.year_start = 31536000000000000 ∧
    second_year_engine.year_stop = 63072000000000000 := by
  unfold year_start year_stop
  rw [nanosOf_new_year_eq, nanosOf_new_year_eq, noLeap_daysBeforeYear, noLeap_daysBeforeYear]
  decide

end AliasingEngine

end Tick

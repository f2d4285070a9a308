import Helm.Tick.Aliasing

/-! # Windows in bounds and at the edges

  In bounds every strategy but `pure_climatology` searches the snapshot
  interval of the time, out of bounds `clamp_to_edge` takes the first or
  the last one. The constructor has checked that the coverage is a whole
  number of intervals, so that each of these windows is covered.

  `leap_hold` differs from `clamp_to_edge` on the leap days only.
-/

namespace Tick

open Signed

namespace AliasingEngine

variable {sim ds : Calendar} {e : AliasingEngine sim ds} {t : TimePoint}

/-! ### Windows of the dataset -/

/-- A window of the dataset: one snapshot interval of the coverage. -/
structure IsSnapshot (e : AliasingEngine sim ds) (w : TimeWindow) : Prop where
  start_covered : e.coverage.start.nanos.toInt ≤ w.start.nanos.toInt
  stop_covered : w.stop.nanos.toInt ≤ e.coverage.stop.nanos.toInt
  on_grid : ∃ k : Int, w.start.nanos.toInt
    = e.coverage.start.nanos.toInt + k * e.snapshot_interval.nanos.toInt
  length : w.stop.nanos.toInt = w.start.nanos.toInt + e.snapshot_interval.nanos.toInt

theorem contains_iff_covered :
    e.coverage.contains t = true ↔
      e.coverage.start.nanos.toInt ≤ t.nanos.toInt ∧
        t.nanos.toInt < e.coverage.stop.nanos.toInt := by
  simp [TimeWindow.contains]

theorem interval_le_coverage (e : AliasingEngine sim ds) :
    e.coverage.start.nanos.toInt + e.snapshot_interval.nanos.toInt
      ≤ e.coverage.stop.nanos.toInt := by
  have hlt := e.coverage.start_lt
  have := Int.le_of_dvd (by omega) e.interval_dvd
  omega

/-! ### The weight -/

theorem calculate_weight_returned {current : TimePoint} {w : TimeWindow} {alpha : ℚ}
    (h : calculate_weight current w = .returned alpha) :
    w.contains current = true ∧
      alpha = ((current.nanos.toInt - w.start.nanos.toInt : Int) : ℚ)
        / ((w.stop.nanos.toInt - w.start.nanos.toInt : Int) : ℚ) := by
  unfold calculate_weight at h
  obtain ⟨d, _, h⟩ := Outcome.bind_eq_returned.mp h
  obtain ⟨_, _, h⟩ := Outcome.bind_eq_returned.mp h
  obtain ⟨_, hrequire, h⟩ := Outcome.bind_eq_returned.mp h
  obtain ⟨_, h⟩ := signed_bind_eq_returned.mp h
  obtain ⟨_, h⟩ := signed_bind_eq_returned.mp h
  have hcontains : w.contains current = true := by
    by_contra hn
    rw [require_of_not hn] at hrequire
    cases hrequire
  exact ⟨hcontains, (Outcome.returned.inj h).symm⟩

theorem weight_lt_one {n d : Int} (h0 : 0 ≤ n) (h1 : n < d) :
    0 ≤ (n : ℚ) / (d : ℚ) ∧ (n : ℚ) / (d : ℚ) < 1 := by
  have hd : (0 : ℚ) < d := by exact_mod_cast lt_of_le_of_lt h0 h1
  constructor
  · apply div_nonneg
    · exact_mod_cast h0
    · exact hd.le
  · rw [div_lt_one hd]
    exact_mod_cast h1

/-- What the strategies share in bounds. -/
structure InterpolatesAt (e : AliasingEngine sim ds) (t : TimePoint) (r : AliasedWindow) :
    Prop where
  snapshot : e.IsSnapshot r.window
  encloses : r.window.contains t = true
  alpha_eq : r.alpha = ((t.nanos.toInt - r.window.start.nanos.toInt : Int) : ℚ)
    / (e.snapshot_interval.nanos.toInt : ℚ)
  alpha_nonneg : 0 ≤ r.alpha
  alpha_lt : r.alpha < 1

/-- **The path in bounds.** -/
theorem resolve_in_bounds_interpolates (hin : e.coverage.contains t = true) :
    ∃ r, e.resolve_in_bounds t = .returned r ∧ e.InterpolatesAt t r := by
  obtain ⟨hlo, hhi⟩ := contains_iff_covered.mp hin
  obtain ⟨r, hret, hstart, hstop⟩ := resolve_in_bounds_covered hlo hhi
  obtain ⟨hc0, hc1⟩ := snapshot_start_covered hlo hhi
  have hsnapshot : e.IsSnapshot r.window :=
    { start_covered := by rwa [hstart]
      stop_covered := by rwa [hstop]
      on_grid := ⟨_, hstart⟩
      length := by rw [hstop, hstart] }
  -- the weight is that of the window returned
  have hweight : calculate_weight t r.window = .returned r.alpha := by
    have h := hret
    unfold resolve_in_bounds at h
    obtain ⟨w, _, h⟩ := Outcome.bind_eq_returned.mp h
    obtain ⟨alpha, halpha, h⟩ := Outcome.bind_eq_returned.mp h
    rw [← Outcome.returned.inj h]
    exact halpha
  obtain ⟨hcontains, halpha⟩ := calculate_weight_returned hweight
  have hlength : r.window.stop.nanos.toInt - r.window.start.nanos.toInt
      = e.snapshot_interval.nanos.toInt := by
    have := hsnapshot.length
    omega
  rw [hlength] at halpha
  obtain ⟨hb0, hb1⟩ := e.snapshot_start_bounds t.nanos.toInt
  obtain ⟨hnonneg, hlt⟩ := weight_lt_one
    (show 0 ≤ t.nanos.toInt - r.window.start.nanos.toInt by omega)
    (show _ < e.snapshot_interval.nanos.toInt by omega)
  exact ⟨r, hret, hsnapshot, hcontains, halpha, halpha ▸ hnonneg, halpha ▸ hlt⟩

/-! ### The edges -/

/-- What `clamp_to_edge` gives out of bounds. -/
structure HoldsEdge (e : AliasingEngine sim ds) (t : TimePoint) (r : AliasedWindow) : Prop where
  snapshot : e.IsSnapshot r.window
  first : t.nanos.toInt < e.coverage.start.nanos.toInt → r.window.start = e.coverage.start
  last : e.coverage.stop.nanos.toInt ≤ t.nanos.toInt → r.window.stop = e.coverage.stop
  alpha_eq : r.alpha = 0

theorem resolve_clamp_of_contains (hin : e.coverage.contains t = true) :
    e.resolve_clamp t = e.resolve_in_bounds t := by
  obtain ⟨hlo, hhi⟩ := contains_iff_covered.mp hin
  unfold resolve_clamp
  rw [if_neg (by omega), if_neg (by omega)]

theorem resolve_clamp_past (hpast : e.coverage.stop.nanos.toInt ≤ t.nanos.toInt) :
    ∃ r, e.resolve_clamp t = .returned r ∧ e.HoldsEdge t r := by
  have hlt := e.coverage.start_lt
  have hpos := e.interval_pos
  have hle := e.interval_le_coverage
  have hstart := fits_toInt e.coverage.start.nanos
  have hstop := fits_toInt e.coverage.stop.nanos
  have hfits : Fits 64 (e.coverage.stop.nanos.toInt - e.snapshot_interval.nanos.toInt) := by
    rw [fits_64] at *
    omega
  have hval := toInt_ofInt_of_fits hfits
  obtain ⟨k, hk⟩ := e.interval_dvd
  unfold resolve_clamp
  rw [if_pos hpast, TimePoint.sub_of_fits hfits, Outcome.returned_bind,
    TimeWindow.make_of_lt (by dsimp only; omega)]
  refine ⟨_, rfl, ?_, ?_, ?_, rfl⟩
  · refine ⟨?_, le_rfl, ⟨k - 1, ?_⟩, ?_⟩
    · show _ ≤ (Int64.ofInt _).toInt
      omega
    · show (Int64.ofInt _).toInt = _
      rw [hval]
      linear_combination hk
    · show e.coverage.stop.nanos.toInt = (Int64.ofInt _).toInt + _
      omega
  · intro hbefore
    omega
  · intro _
    rfl

theorem resolve_clamp_before (hbefore : t.nanos.toInt < e.coverage.start.nanos.toInt) :
    ∃ r, e.resolve_clamp t = .returned r ∧ e.HoldsEdge t r := by
  have hlt := e.coverage.start_lt
  have hpos := e.interval_pos
  have hle := e.interval_le_coverage
  have hstart := fits_toInt e.coverage.start.nanos
  have hstop := fits_toInt e.coverage.stop.nanos
  have hfits : Fits 64 (e.coverage.start.nanos.toInt + e.snapshot_interval.nanos.toInt) := by
    rw [fits_64] at *
    omega
  have hval := toInt_ofInt_of_fits hfits
  unfold resolve_clamp
  rw [if_neg (by omega), if_pos hbefore, TimePoint.add_of_fits hfits, Outcome.returned_bind,
    TimeWindow.make_of_lt (by dsimp only; omega)]
  refine ⟨_, rfl, ?_, ?_, ?_, rfl⟩
  · refine ⟨le_rfl, ?_, ⟨0, ?_⟩, ?_⟩
    · show (Int64.ofInt _).toInt ≤ _
      omega
    · show e.coverage.start.nanos.toInt = _
      ring
    · exact hval
  · intro _
    rfl
  · intro hpast
    omega

/-! ### The strategies -/

theorem resolve_of_clamp_to_edge (hpolicy : e.policy = .clamp_to_edge) :
    e.resolve t = e.resolve_clamp t := by
  unfold resolve resolve_by_bounds
  rw [if_neg (by rw [hpolicy]; decide), if_neg (by rw [hpolicy]; simp), hpolicy]
  by_cases hin : e.coverage.contains t = true
  · rw [if_pos hin, resolve_clamp_of_contains hin]
  · rw [if_neg hin]

/-- Where `leap_hold` reads the date of the time, out of bounds and wherever
    a leap day could be held, reading it does not overflow. -/
def HoldReads (e : AliasingEngine sim ds) (t : TimePoint) : Prop :=
  (sim = .Gregorian ∧ ds = .NoLeap) ∨ ¬ e.coverage.contains t = true → sim.Reads t

/-- The date of the time is not February 29. -/
def NoLeapDay (sim : Calendar) (t : TimePoint) : Prop :=
  ∀ dt, sim.DateOf t dt → is_feb29 dt = false

theorem resolve_of_leap_hold (hpolicy : e.policy = .leap_hold) (hreads : e.HoldReads t)
    (hday : NoLeapDay sim t) : e.resolve t = e.resolve_clamp t := by
  have hread : sim.Reads t → ∃ dt, sim.to_date_time t = .returned dt ∧ is_feb29 dt = false := by
    intro h
    obtain ⟨dt, hret, hof⟩ := Calendar.to_date_time_spec sim h
    exact ⟨dt, hret, hday dt hof⟩
  -- after the special case of `resolve`
  have hbounds : e.resolve_by_bounds t = e.resolve_clamp t := by
    unfold resolve_by_bounds
    by_cases hin : e.coverage.contains t = true
    · rw [if_pos hin, resolve_clamp_of_contains hin]
    · obtain ⟨dt, hret, hfeb⟩ := hread (hreads (.inr hin))
      have hout : e.coverage.stop.nanos.toInt ≤ t.nanos.toInt ∨
          t.nanos.toInt < e.coverage.start.nanos.toInt := by
        rw [contains_iff_covered] at hin
        omega
      rw [if_neg hin, hpolicy]
      show e.resolve_leap_hold t = _
      unfold resolve_leap_hold
      rw [hret, Outcome.returned_bind, if_neg (by simp [hfeb]), if_pos hout]
  unfold resolve
  rw [if_neg (by rw [hpolicy]; decide), hbounds]
  by_cases hcal : sim = .Gregorian ∧ ds = .NoLeap
  · obtain ⟨dt, hret, hfeb⟩ := hread (hreads (.inl hcal))
    rw [if_pos ⟨hpolicy, hcal⟩, hret, Outcome.returned_bind, if_neg (by simp [hfeb])]
  · rw [if_neg fun h => hcal h.2]

theorem resolve_of_in_bounds (hpolicy : e.policy ≠ .pure_climatology)
    (hin : e.coverage.contains t = true)
    (hleap : e.policy = .leap_hold → e.HoldReads t ∧ NoLeapDay sim t) :
    e.resolve t = e.resolve_in_bounds t := by
  by_cases hp : e.policy = .leap_hold
  · obtain ⟨hreads, hday⟩ := hleap hp
    rw [resolve_of_leap_hold hp hreads hday, resolve_clamp_of_contains hin]
  · unfold resolve resolve_by_bounds
    rw [if_neg hpolicy, if_neg fun h => hp h.1, if_pos hin]

theorem make_returned {coverage : TimeWindow} {interval : Duration}
    {policy : OutOfBoundsPolicy} {year : Int32}
    (h : make sim ds coverage interval policy year = .returned e) :
    e.coverage = coverage ∧ e.snapshot_interval = interval ∧ e.policy = policy := by
  unfold make at h
  split at h
  · split at h
    · split at h
      · obtain ⟨_, _, h⟩ := Outcome.bind_eq_returned.mp h
        rw [← Outcome.returned.inj h]
        exact ⟨rfl, rfl, rfl⟩
      · cases h
    · cases h
  · cases h

/-- **Windows in bounds and at the edges.** For every engine the constructor
    accepts: in bounds, all strategies but `pure_climatology` return the
    covered snapshot interval of the time and its exact weight; out of
    bounds, `clamp_to_edge` holds the first or the last interval; and
    `leap_hold` resolves like `clamp_to_edge` on every day that is not
    February 29. -/
theorem resolve_in_coverage {coverage : TimeWindow} {interval : Duration}
    {policy : OutOfBoundsPolicy} {year : Int32} {e : AliasingEngine sim ds}
    (hmake : make sim ds coverage interval policy year = .returned e) (t : TimePoint) :
    (policy ≠ .pure_climatology → coverage.contains t = true →
      (policy = .leap_hold → e.HoldReads t ∧ NoLeapDay sim t) →
      ∃ r, e.resolve t = .returned r ∧ e.InterpolatesAt t r) ∧
    (policy = .clamp_to_edge → ¬ coverage.contains t = true →
      ∃ r, e.resolve t = .returned r ∧ e.HoldsEdge t r) ∧
    ∀ e' : AliasingEngine sim ds,
      policy = .clamp_to_edge →
      make sim ds coverage interval .leap_hold year = .returned e' →
      e'.HoldReads t → NoLeapDay sim t → e'.resolve t = e.resolve t := by
  obtain ⟨rfl, rfl, rfl⟩ := make_returned hmake
  refine ⟨?_, ?_, ?_⟩
  · intro hpolicy hin hleap
    rw [resolve_of_in_bounds hpolicy hin hleap]
    exact resolve_in_bounds_interpolates hin
  · intro hpolicy hout
    rw [resolve_of_clamp_to_edge hpolicy]
    rw [contains_iff_covered] at hout
    by_cases hpast : e.coverage.stop.nanos.toInt ≤ t.nanos.toInt
    · exact resolve_clamp_past hpast
    · exact resolve_clamp_before (by omega)
  · intro e' hpolicy hmake' hreads hday
    obtain ⟨hcoverage, hinterval, hpolicy'⟩ := make_returned hmake'
    rw [resolve_of_clamp_to_edge hpolicy, resolve_of_leap_hold hpolicy' hreads hday]
    unfold resolve_clamp resolve_in_bounds
    rw [hcoverage, hinterval]

theorem resolve_third_day :
    (make .Gregorian .NoLeap ⟨⟨0⟩, ⟨315360000000000000⟩, by decide⟩ ⟨86400000000000⟩
        .clamp_to_edge 0 : Cpp (AliasingEngine .Gregorian .NoLeap))
      = .returned (daily_engine .Gregorian .NoLeap .clamp_to_edge) ∧
      ∃ r, (daily_engine .Gregorian .NoLeap .clamp_to_edge).resolve ⟨216000000000000⟩
          = .returned r ∧
        (daily_engine .Gregorian .NoLeap .clamp_to_edge).InterpolatesAt ⟨216000000000000⟩ r := by
  have hmake : (make .Gregorian .NoLeap ⟨⟨0⟩, ⟨315360000000000000⟩, by decide⟩
      ⟨86400000000000⟩ .clamp_to_edge 0 : Cpp (AliasingEngine .Gregorian .NoLeap))
      = .returned (daily_engine .Gregorian .NoLeap .clamp_to_edge) :=
    (make_eq_returned_iff (by decide)).mpr ⟨rfl, rfl, rfl, rfl⟩
  exact ⟨hmake, (resolve_in_coverage hmake ⟨216000000000000⟩).1 (by decide) (by decide)
    (by intro h; cases h)⟩

end AliasingEngine

end Tick

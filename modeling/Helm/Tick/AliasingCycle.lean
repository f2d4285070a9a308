import Helm.Tick.Aliasing

/-! # The cycle_last_year strategy

  Out of bounds, `resolve_cycle` puts the date of the simulation time in
  the year of the nearest edge of the coverage and searches the window
  there. The search succeeds when the coverage reaches that date, and
  `resolve_cycle_last_year_iff` shows that it succeeds only then: nothing
  in the engine makes the coverage contain the whole target year.
-/

namespace Tick

open Signed

namespace AliasingEngine

variable {sim ds : Calendar} {e : AliasingEngine sim ds}

/-! ### The remapped time -/

/-- The last covered instant. -/
def last_instant (e : AliasingEngine sim ds) : TimePoint :=
  ⟨.ofInt (e.coverage.stop.nanos.toInt - 1)⟩

theorem toInt_last_instant (e : AliasingEngine sim ds) :
    e.last_instant.nanos.toInt = e.coverage.stop.nanos.toInt - 1 := by
  have h0 := fits_toInt e.coverage.start.nanos
  have h1 := fits_toInt e.coverage.stop.nanos
  have hlt := e.coverage.start_lt
  apply toInt_ofInt_of_fits
  rw [fits_64] at *
  omega

/-- The covered instant whose year the strategy uses for `t`. -/
def anchor (e : AliasingEngine sim ds) (t : TimePoint) : TimePoint :=
  if e.coverage.stop.nanos.toInt ≤ t.nanos.toInt then e.last_instant else e.coverage.start

/-- The time that `t` is remapped to: itself in bounds, and out of bounds
    its date in the year of the anchor. -/
def RemapsTo (e : AliasingEngine sim ds) (t : TimePoint) (r : Int) : Prop :=
  if e.coverage.contains t then r = t.nanos.toInt
  else ∃ dt a, sim.DateOf t dt ∧ ds.DateOf (e.anchor t) a ∧ r = ds.nanosOf (in_year ds dt a.year)

/-- The coverage reaches the date of `t` in the year of the anchor: that
    date is neither before the first covered instant nor after the last
    one. The three decompositions must be defined, which they are not for
    instants within a day of `INT64_MIN`. -/
structure ReachesDate (e : AliasingEngine sim ds) (t : TimePoint) : Prop where
  reads : sim.Reads t
  anchor_reads : ds.Reads (e.anchor t)
  reached : ∃ dt a first last, sim.DateOf t dt ∧ ds.DateOf (e.anchor t) a ∧
    ds.DateOf e.coverage.start first ∧ ds.DateOf e.last_instant last ∧
    ¬ (in_year ds dt a.year).lt first ∧ ¬ last.lt (in_year ds dt a.year) ∧
    Fits 64 (ds.dayOf (in_year ds dt a.year) * nanos_per_day)

theorem dateOf_unique {cal : Calendar} {t : TimePoint} {a b : DateTime} (ha : cal.DateOf t a)
    (hb : cal.DateOf t b) : a = b :=
  Calendar.nanosOf_inj ha.1 hb.1 (ha.2.trans hb.2.symm)

theorem covered_iff {x first last : DateTime} (hx : ds.Valid x)
    (hfirst : ds.DateOf e.coverage.start first) (hlast : ds.DateOf e.last_instant last) :
    (¬ x.lt first ∧ ¬ last.lt x) ↔
      e.coverage.start.nanos.toInt ≤ ds.nanosOf x ∧
        ds.nanosOf x < e.coverage.stop.nanos.toInt := by
  have hstop := e.toInt_last_instant
  rw [← Calendar.nanosOf_lt_iff hx hfirst.1, ← Calendar.nanosOf_lt_iff hlast.1 hx, hfirst.2,
    hlast.2]
  omega

theorem cycle_target_year_eq (e : AliasingEngine sim ds) (t : TimePoint) :
    e.cycle_target_year t = (ds.to_date_time (e.anchor t) >>= fun a => pure a.year) := by
  unfold cycle_target_year anchor
  by_cases h : e.coverage.stop.nanos.toInt ≤ t.nanos.toInt
  · have hone : (⟨1⟩ : Duration).nanos.toInt = 1 := by decide
    have hsub : e.coverage.stop.sub ⟨1⟩ = .returned e.last_instant := by
      rw [TimePoint.sub_of_fits]
      · rw [hone]
        rfl
      · rw [hone, ← e.toInt_last_instant]
        exact fits_toInt _
    rw [if_pos h, if_pos h, hsub]
    rfl
  · rw [if_neg h, if_neg h]

theorem resolve_cycle_eq {t : TimePoint} (hreads : sim.Reads t)
    (hanchor : ds.Reads (e.anchor t)) {dt a : DateTime} (hdt : sim.DateOf t dt)
    (ha : ds.DateOf (e.anchor t) a) :
    e.resolve_cycle t =
      if ds.Representable (in_year ds dt a.year) then
        e.resolve_in_bounds ⟨.ofInt (ds.nanosOf (in_year ds dt a.year))⟩
      else .undefined := by
  obtain ⟨dt', hret, hof⟩ := Calendar.to_date_time_spec sim hreads
  obtain rfl := dateOf_unique hof hdt
  obtain ⟨a', hreta, hofa⟩ := Calendar.to_date_time_spec ds hanchor
  obtain rfl := dateOf_unique hofa ha
  unfold resolve_cycle
  rw [hret, Outcome.returned_bind, cycle_target_year_eq, hreta, Outcome.returned_bind,
    Outcome.pure_eq, Outcome.returned_bind, substitute_year_eq hdt.1, Outcome.returned_bind,
    Calendar.to_time_point_eq (valid_in_year hdt.1 a'.year)]
  by_cases hrep : ds.Representable (in_year ds dt' a'.year)
  · rw [if_pos hrep, if_pos hrep]
    rfl
  · rw [if_neg hrep, if_neg hrep]
    rfl

theorem reads_of_resolve_cycle {t : TimePoint} {w : AliasedWindow}
    (h : e.resolve_cycle t = .returned w) : sim.Reads t ∧ ds.Reads (e.anchor t) := by
  unfold resolve_cycle at h
  obtain ⟨dt, hdt, h⟩ := Outcome.bind_eq_returned.mp h
  obtain ⟨year, hyear, _⟩ := Outcome.bind_eq_returned.mp h
  rw [cycle_target_year_eq] at hyear
  obtain ⟨a, ha, _⟩ := Outcome.bind_eq_returned.mp hyear
  constructor
  · by_contra hn
    rw [Calendar.to_date_time_undefined hn] at hdt
    exact absurd hdt (by simp)
  · by_contra hn
    rw [Calendar.to_date_time_undefined hn] at ha
    exact absurd ha (by simp)

/-! ### When the strategy works -/

/-- What the caller of `resolve` relies on: a window of the dataset, on its
    snapshot grid, around the remapped time. -/
def ResolvesInside (e : AliasingEngine sim ds) (t : TimePoint) : Prop :=
  ∃ w r, e.resolve t = .returned w ∧ e.RemapsTo t r ∧
    e.coverage.start.nanos.toInt ≤ w.window.start.nanos.toInt ∧
    w.window.stop.nanos.toInt ≤ e.coverage.stop.nanos.toInt ∧
    e.snapshot_interval.nanos.toInt ∣
      w.window.start.nanos.toInt - e.coverage.start.nanos.toInt ∧
    w.window.start.nanos.toInt ≤ r ∧ r < w.window.stop.nanos.toInt

theorem snapshot_start_dvd (e : AliasingEngine sim ds) (x : Int) :
    e.snapshot_interval.nanos.toInt ∣ e.snapshot_start x - e.coverage.start.nanos.toInt := by
  unfold snapshot_start
  rw [add_sub_cancel_left]
  exact dvd_mul_left _ _

theorem resolvesInside_of_covered {t s : TimePoint}
    (hres : e.resolve t = e.resolve_in_bounds s) (hremap : e.RemapsTo t s.nanos.toInt)
    (h0 : e.coverage.start.nanos.toInt ≤ s.nanos.toInt)
    (h1 : s.nanos.toInt < e.coverage.stop.nanos.toInt) : e.ResolvesInside t := by
  obtain ⟨w, hret, hstart, hstop⟩ := resolve_in_bounds_covered h0 h1
  obtain ⟨hb0, hb1⟩ := e.snapshot_start_bounds s.nanos.toInt
  obtain ⟨hc0, hc1⟩ := snapshot_start_covered h0 h1
  refine ⟨w, s.nanos.toInt, hres.trans hret, hremap, ?_, ?_, ?_, ?_, ?_⟩
  · rwa [hstart]
  · rwa [hstop]
  · rw [hstart]
    exact e.snapshot_start_dvd _
  · rwa [hstart]
  · rwa [hstop]

theorem resolve_of_cycle_last_year (hpolicy : e.policy = .cycle_last_year) (t : TimePoint) :
    e.resolve t = if e.coverage.contains t then e.resolve_in_bounds t else e.resolve_cycle t := by
  unfold resolve resolve_by_bounds
  rw [if_neg (by rw [hpolicy]; decide), if_neg (by rw [hpolicy]; simp), hpolicy]

/-- **cycle_last_year.** The strategy resolves a time to a covered window
    around the remapped time exactly when the time is in bounds or the
    coverage reaches its date in the year of the anchor. -/
theorem resolve_cycle_last_year_iff (hpolicy : e.policy = .cycle_last_year) (t : TimePoint) :
    e.ResolvesInside t ↔ e.coverage.contains t ∨ e.ReachesDate t := by
  have hresolve := resolve_of_cycle_last_year hpolicy t
  by_cases hin : e.coverage.contains t
  · rw [if_pos hin] at hresolve
    have hcov : e.coverage.start.nanos.toInt ≤ t.nanos.toInt ∧
        t.nanos.toInt < e.coverage.stop.nanos.toInt := by
      simpa [TimeWindow.contains] using hin
    refine iff_of_true ?_ (.inl hin)
    apply resolvesInside_of_covered hresolve _ hcov.1 hcov.2
    unfold RemapsTo
    rw [if_pos hin]
  · rw [if_neg hin] at hresolve
    obtain ⟨first, hfirst⟩ := Calendar.exists_dateOf ds e.coverage.start
    obtain ⟨last, hlast⟩ := Calendar.exists_dateOf ds e.last_instant
    constructor
    · -- the remapped time is inside the window, and the window is covered
      rintro ⟨w, r, hret, hremap, h0, h1, _, h2, h3⟩
      unfold RemapsTo at hremap
      rw [if_neg hin] at hremap
      obtain ⟨dt, a, hdt, ha, rfl⟩ := hremap
      rw [hresolve] at hret
      obtain ⟨hreads, hanchor⟩ := reads_of_resolve_cycle hret
      rw [resolve_cycle_eq hreads hanchor hdt ha] at hret
      have hrep : ds.Representable (in_year ds dt a.year) := by
        by_contra hrep
        rw [if_neg hrep] at hret
        exact absurd hret (by simp)
      obtain ⟨hlo, hhi⟩ := (covered_iff (valid_in_year hdt.1 a.year) hfirst hlast).mpr
        ⟨by omega, by omega⟩
      exact .inr ⟨hreads, hanchor, dt, a, first, last, hdt, ha, hfirst, hlast, hlo, hhi, hrep.1⟩
    · rintro (h | ⟨hreads, hanchor, dt, a, first', last', hdt, ha, hf', hl', hlo, hhi, hmid⟩)
      · exact absurd h hin
      · obtain ⟨h0, h1⟩ := (covered_iff (valid_in_year hdt.1 a.year) hf' hl').mp ⟨hlo, hhi⟩
        have hfits : Fits 64 (ds.nanosOf (in_year ds dt a.year)) := by
          have hs := fits_toInt e.coverage.start.nanos
          have he := fits_toInt e.coverage.stop.nanos
          rw [fits_64] at *
          omega
        rw [resolve_cycle_eq hreads hanchor hdt ha, if_pos ⟨hmid, hfits⟩] at hresolve
        have hval : (⟨.ofInt (ds.nanosOf (in_year ds dt a.year))⟩ : TimePoint).nanos.toInt
            = ds.nanosOf (in_year ds dt a.year) := toInt_ofInt_of_fits hfits
        apply resolvesInside_of_covered hresolve _ (by rwa [hval]) (by rwa [hval])
        unfold RemapsTo
        rw [if_neg hin, hval]
        exact ⟨dt, a, hdt, ha, rfl⟩

/-- The second half of 2026 in daily snapshots. -/
def half_year_engine : AliasingEngine .Gregorian .Gregorian where
  coverage := ⟨⟨15638400000000000⟩, ⟨31536000000000000⟩, by decide⟩
  snapshot_interval := ⟨86400000000000⟩
  policy := .cycle_last_year
  climatological_year := 0
  interval_pos := day_pos
  duration_fits := by decide
  interval_dvd := by decide

theorem resolve_half_year_engine :
    half_year_engine.policy = .cycle_last_year ∧
      half_year_engine.resolve ⟨36676800000000000⟩ = .thrown (.out_of_range
        "calculate_weight: current time is not within the supplied window") ∧
      ¬ half_year_engine.ResolvesInside ⟨36676800000000000⟩ := by
  have hthrown : half_year_engine.resolve ⟨36676800000000000⟩ = .thrown (.out_of_range
      "calculate_weight: current time is not within the supplied window") := by
    rfl
  refine ⟨rfl, hthrown, ?_⟩
  rintro ⟨w, r, hret, _⟩
  rw [hthrown] at hret
  exact absurd hret (by simp)

theorem resolvesInside_half_year_engine :
    half_year_engine.ResolvesInside ⟨16000000000000000⟩ :=
  (resolve_cycle_last_year_iff rfl ⟨16000000000000000⟩).mpr (.inl (by decide))

end AliasingEngine

end Tick

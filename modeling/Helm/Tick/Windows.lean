import Helm.Tick.Time

/-! # Windows and alarms

  `compute_window` finds the window of the grid of an interval that
  encloses a time, `Interval_Alarm` the next instant of the grid of a
  reference. C++ division truncates toward zero, so the window code shifts
  a negative time before it divides.

  First what each operation computes and on which values it is undefined,
  then the law of the grid.
-/

namespace Tick

open Signed

/-! ### What the operations compute -/

theorem tmod_beq_zero (a b : Int) : (a.tmod b == 0) = decide (b ∣ a) := by
  by_cases h : b ∣ a
  · simp [h, tmod_eq_zero_iff.mpr h]
  · simp [h, mt tmod_eq_zero_iff.mp h]

theorem IntervalAlarm.make_of_pos {interval : Duration} {reference : TimePoint}
    (h : 0 < interval.nanos.toInt) :
    IntervalAlarm.make interval reference = .returned ⟨interval, reference, h⟩ := dif_pos h

theorem IntervalAlarm.make_of_not_pos {interval : Duration} {reference : TimePoint}
    (h : ¬ 0 < interval.nanos.toInt) :
    IntervalAlarm.make interval reference
      = .thrown (.invalid_argument "Interval_Alarm interval must be positive") := dif_neg h

theorem IntervalAlarm.is_ringing_eq (a : IntervalAlarm) (t : TimePoint) :
    a.is_ringing t =
      if a.reference.nanos.toInt ≤ t.nanos.toInt →
          Fits 64 (t.nanos.toInt - a.reference.nanos.toInt) then
        .returned (decide (a.reference.nanos.toInt ≤ t.nanos.toInt ∧
          a.interval.nanos.toInt ∣ t.nanos.toInt - a.reference.nanos.toInt))
      else .undefined := by
  unfold is_ringing
  by_cases hle : a.reference.nanos.toInt ≤ t.nanos.toInt
  · by_cases hfits : Fits 64 (t.nanos.toInt - a.reference.nanos.toInt)
    · simp [hle, hfits, signed_of_fits, tmod_beq_zero]
    · simp [hle, hfits, signed_of_not_fits]
  · simp [hle]

theorem is_phase_aligned_eq (t base : TimePoint) {step : Duration}
    (h : 0 < step.nanos.toInt) :
    is_phase_aligned t base step =
      if base.nanos.toInt ≤ t.nanos.toInt → Fits 64 (t.nanos.toInt - base.nanos.toInt) then
        .returned (decide (base.nanos.toInt ≤ t.nanos.toInt ∧
          step.nanos.toInt ∣ t.nanos.toInt - base.nanos.toInt))
      else .undefined := by
  unfold is_phase_aligned
  rw [require_of h, Outcome.returned_bind]
  by_cases hlt : t.nanos.toInt < base.nanos.toInt
  · have hle : ¬ base.nanos.toInt ≤ t.nanos.toInt := by omega
    simp [hlt, hle]
  · have hle : base.nanos.toInt ≤ t.nanos.toInt := by omega
    by_cases hfits : Fits 64 (t.nanos.toInt - base.nanos.toInt)
    · simp [hlt, hle, hfits, signed_of_fits, tmod_beq_zero]
    · simp [hlt, hle, hfits, signed_of_not_fits]

/-- The values `next_ring_at` computes on its way: the time elapsed, the
    step count, the time ahead of the reference and the next ring. -/
def ring_values (interval reference current : Int) : List Int :=
  if current < reference then []
  else
    let n := (current - reference) / interval + 1
    [current - reference, n, n * interval, reference + n * interval]

/-- The next ring: the reference itself when it is ahead. -/
def next_ring (interval reference current : Int) : Int :=
  if current < reference then reference
  else reference + ((current - reference) / interval + 1) * interval

theorem IntervalAlarm.next_ring_at_eq (a : IntervalAlarm) (t : TimePoint) :
    a.next_ring_at t =
      if ∀ x ∈ ring_values a.interval.nanos.toInt a.reference.nanos.toInt t.nanos.toInt,
          Fits 64 x then
        .returned ⟨.ofInt (next_ring a.interval.nanos.toInt a.reference.nanos.toInt
          t.nanos.toInt)⟩
      else .undefined := by
  unfold next_ring_at ring_values next_ring
  by_cases hlt : t.nanos.toInt < a.reference.nanos.toInt
  · simp [hlt]
  · have hle : 0 ≤ t.nanos.toInt - a.reference.nanos.toInt := by omega
    simp only [if_neg hlt, List.forall_mem_cons, List.not_mem_nil, false_implies,
      implies_true, and_true]
    -- the operators are tried in the order of the list
    by_cases h1 : Fits 64 (t.nanos.toInt - a.reference.nanos.toInt)
    swap
    · simp [h1, signed_of_not_fits]
    rw [signed_of_fits h1, Outcome.returned_bind, tdiv_of_nonneg hle]
    by_cases h2 : Fits 64 ((t.nanos.toInt - a.reference.nanos.toInt)
        / a.interval.nanos.toInt + 1)
    swap
    · simp [h2, signed_of_not_fits]
    rw [signed_of_fits h2, Outcome.returned_bind]
    by_cases h3 : Fits 64 (((t.nanos.toInt - a.reference.nanos.toInt)
        / a.interval.nanos.toInt + 1) * a.interval.nanos.toInt)
    swap
    · simp [h3, signed_of_not_fits]
    rw [signed_of_fits h3, Outcome.returned_bind]
    by_cases h4 : Fits 64 (a.reference.nanos.toInt + ((t.nanos.toInt
        - a.reference.nanos.toInt) / a.interval.nanos.toInt + 1) * a.interval.nanos.toInt)
    · simp [h1, h2, h3, h4, signed_of_fits]
    · simp [h4, signed_of_not_fits]

/-- The values `compute_window` computes on its way. -/
def window_values (interval current : Int) : List Int :=
  (if 0 ≤ current then [] else [current - interval, current - interval + 1])
    ++ [current / interval * interval, current / interval * interval + interval]

theorem floor_bounds (n : Int) {iv : Int} (h : 0 < iv) :
    n / iv * iv ≤ n ∧ n < n / iv * iv + iv := by
  constructor
  · exact Int.ediv_mul_le n h.ne'
  · have := Int.lt_ediv_add_one_mul_self n h
    rwa [add_mul, one_mul] at this

/-- **Specification of `compute_window`.** The floor of the window is
    unchecked arithmetic on a negative time; its end is a checked sum. -/
theorem compute_window_eq (t : TimePoint) {i : Duration} (h : 0 < i.nanos.toInt) :
    (do
      let w ← compute_window t i
      return (w.start.nanos, w.stop.nanos) : Cpp (Int64 × Int64)) =
      if 0 ≤ t.nanos.toInt ∨ Fits 64 (t.nanos.toInt - i.nanos.toInt) then
        if Fits 64 (t.nanos.toInt / i.nanos.toInt * i.nanos.toInt + i.nanos.toInt) then
          .returned (.ofInt (t.nanos.toInt / i.nanos.toInt * i.nanos.toInt),
            .ofInt (t.nanos.toInt / i.nanos.toInt * i.nanos.toInt + i.nanos.toInt))
        else .thrown (.overflow_error "Integer overflow in addition")
      else .undefined := by
  obtain ⟨n, hn⟩ : ∃ n, n = t.nanos.toInt := ⟨_, rfl⟩
  obtain ⟨iv, hiv⟩ : ∃ iv, iv = i.nanos.toInt := ⟨_, rfl⟩
  obtain ⟨f, hf⟩ : ∃ f, f = n / iv * iv := ⟨_, rfl⟩
  have hpos : 0 < iv := by omega
  obtain ⟨hf0, hf1⟩ := floor_bounds n hpos
  rw [← hf] at hf0 hf1
  have htfits := fits_toInt t.nanos
  have hifits := fits_toInt i.nanos
  rw [← hn] at htfits
  rw [← hiv] at hifits
  -- once the floor is known, the end of the window is checked
  have htail : Fits 64 f →
      (do
        let w ← (do
          let stop ← (⟨.ofInt f⟩ : TimePoint).add i
          TimeWindow.make ⟨.ofInt f⟩ stop)
        return (w.start.nanos, w.stop.nanos) : Cpp (Int64 × Int64))
      = if Fits 64 (f + iv) then .returned (.ofInt f, .ofInt (f + iv))
        else .thrown (.overflow_error "Integer overflow in addition") := by
    intro hfits
    have hval : (⟨.ofInt f⟩ : TimePoint).nanos.toInt + i.nanos.toInt = f + iv := by
      rw [← hiv]
      show (Int64.ofInt f).toInt + iv = f + iv
      rw [toInt_ofInt_of_fits hfits]
    by_cases hend : Fits 64 (f + iv)
    · rw [TimePoint.add_of_fits (by rwa [hval]), Outcome.returned_bind, hval, if_pos hend,
        TimeWindow.make_of_lt]
      · rfl
      · show (Int64.ofInt f).toInt < (Int64.ofInt (f + iv)).toInt
        rw [toInt_ofInt_of_fits hfits, toInt_ofInt_of_fits hend]
        omega
    · rw [TimePoint.add_of_not_fits (by rwa [hval]), if_neg hend]
      rfl
  unfold compute_window
  rw [require_of h, Outcome.returned_bind, ← hn, ← hiv, ← hf]
  dsimp only
  by_cases h0 : 0 ≤ n
  · have hfits : Fits 64 f := by
      have : 0 ≤ f := by
        rw [hf]
        exact mul_nonneg (Int.ediv_nonneg h0 hpos.le) hpos.le
      rw [fits_64] at *
      omega
    rw [if_pos h0, if_pos (.inl h0), tdiv_of_nonneg h0, ← hf, signed_of_fits hfits,
      Outcome.returned_bind]
    exact htail hfits
  · rw [if_neg h0]
    by_cases hsh : Fits 64 (n - iv)
    · have hsh1 : Fits 64 (n - iv + 1) := by rw [fits_64] at *; omega
      have hfits : Fits 64 f := by rw [fits_64] at *; omega
      have hfloor : (n - iv + 1).tdiv iv * iv = f := by
        rw [tdiv_shift_eq_floor (by omega) hpos, hf]
      rw [if_pos (.inr hsh), signed_of_fits hsh, Outcome.returned_bind, signed_of_fits hsh1,
        Outcome.returned_bind, hfloor, signed_of_fits hfits, Outcome.returned_bind]
      exact htail hfits
    · have hcond : ¬ (0 ≤ n ∨ Fits 64 (n - iv)) := by tauto
      rw [if_neg hcond, signed_of_not_fits hsh]
      rfl

/-! ### When the values fit -/

theorem elapsed_fits_iff {reference current : Int} :
    (reference ≤ current → Fits 64 (current - reference)) ↔ current - reference < 2 ^ 63 := by
  rw [fits_64]
  norm_num
  omega

theorem fits_next_ring {interval reference current : Int} (hr : Fits 64 reference)
    (h : ∀ x ∈ ring_values interval reference current, Fits 64 x) :
    Fits 64 (next_ring interval reference current) := by
  unfold next_ring
  by_cases hlt : current < reference
  · rwa [if_pos hlt]
  · rw [if_neg hlt]
    exact h _ (by simp [ring_values, hlt])

theorem ring_values_fit_iff {interval reference current : Int} (hpos : 0 < interval)
    (hr : Fits 64 reference) :
    (∀ x ∈ ring_values interval reference current, Fits 64 x) ↔
      (reference ≤ current →
        current - reference < 2 ^ 63 ∧
        ((current - reference) / interval + 1) * interval < 2 ^ 63 ∧
        reference + ((current - reference) / interval + 1) * interval < 2 ^ 63) := by
  unfold ring_values
  by_cases hlt : current < reference
  · have hle : ¬ reference ≤ current := by omega
    simp [hlt, hle]
  · have hle : reference ≤ current := by omega
    obtain ⟨e, he⟩ : ∃ e, e = current - reference := ⟨_, rfl⟩
    obtain ⟨hf0, hf1⟩ := floor_bounds e hpos
    have hq : 0 ≤ e / interval := Int.ediv_nonneg (by omega) hpos.le
    -- the step count is at most the time it stands for
    have hn : e / interval + 1 ≤ (e / interval + 1) * interval := by
      have := mul_le_mul_of_nonneg_left (show 1 ≤ interval by omega)
        (show 0 ≤ e / interval + 1 by omega)
      rwa [mul_one] at this
    have hring : e / interval * interval + interval = (e / interval + 1) * interval := by ring
    simp only [hlt, if_false, ← he, List.forall_mem_cons, List.not_mem_nil, false_implies,
      implies_true, and_true, hle, true_implies]
    simp only [fits_64] at *
    norm_num
    omega

theorem window_values_fit_iff {interval current : Int} (hpos : 0 < interval)
    (hc : Fits 64 current) (hi : Fits 64 interval) :
    (∀ x ∈ window_values interval current, Fits 64 x) ↔
      (0 ≤ current ∨ Fits 64 (current - interval)) ∧
        Fits 64 (current / interval * interval + interval) := by
  obtain ⟨f, hf⟩ : ∃ f, f = current / interval * interval := ⟨_, rfl⟩
  obtain ⟨hf0, hf1⟩ := floor_bounds current hpos
  rw [← hf] at hf0 hf1
  have hfloor : 0 ≤ current → 0 ≤ f := by
    intro h0
    rw [hf]
    exact mul_nonneg (Int.ediv_nonneg h0 hpos.le) hpos.le
  unfold window_values
  rw [← hf]
  by_cases h0 : 0 ≤ current
  · have hf' := hfloor h0
    simp only [h0, if_true, List.nil_append, List.forall_mem_cons, List.not_mem_nil,
      false_implies, implies_true, and_true, true_or, true_and]
    simp only [fits_64] at *
    omega
  · simp only [h0, if_false, List.cons_append, List.nil_append, List.forall_mem_cons,
      List.not_mem_nil, false_implies, implies_true, and_true, false_or]
    simp only [fits_64] at *
    omega

/-! ### The law of the grid -/

/-- No operator of `compute_window` overflows. -/
def WindowFits (interval : Duration) (t : TimePoint) : Prop :=
  ∀ x ∈ window_values interval.nanos.toInt t.nanos.toInt, Fits 64 x

/-- No operator of `next_ring_at` overflows. -/
def IntervalAlarm.RingFits (a : IntervalAlarm) (t : TimePoint) : Prop :=
  ∀ x ∈ ring_values a.interval.nanos.toInt a.reference.nanos.toInt t.nanos.toInt, Fits 64 x

/-- The instants of a window. -/
def TimeWindow.range (w : TimeWindow) : Set TimePoint :=
  {t | w.contains t = true}

theorem TimeWindow.contains_iff {w : TimeWindow} {t : TimePoint} :
    w.contains t = true ↔
      w.start.nanos.toInt ≤ t.nanos.toInt ∧ t.nanos.toInt < w.stop.nanos.toInt := by
  simp [contains]

theorem TimeWindow.ext_toInt {w w' : TimeWindow}
    (hstart : w.start.nanos.toInt = w'.start.nanos.toInt)
    (hstop : w.stop.nanos.toInt = w'.stop.nanos.toInt) : w = w' := by
  cases w
  cases w'
  obtain rfl := TimePoint.ext_toInt hstart
  obtain rfl := TimePoint.ext_toInt hstop
  rfl

theorem floor_unique {n s iv : Int} (h : 0 < iv) (hdvd : iv ∣ s) (hle : s ≤ n)
    (hlt : n < s + iv) : n / iv * iv = s := by
  obtain ⟨k, rfl⟩ := hdvd
  have hquot : n / iv = k := by
    apply le_antisymm
    · rw [← Int.lt_add_one_iff, Int.ediv_lt_iff_lt_mul h]
      calc n < iv * k + iv := hlt
        _ = (k + 1) * iv := by ring
    · rw [Int.le_ediv_iff_mul_le h, mul_comm]
      exact hle
  rw [hquot, mul_comm]

section Windows

variable {interval : Duration} {t : TimePoint} {w : TimeWindow}

theorem compute_window_returned (h : 0 < interval.nanos.toInt)
    (hw : compute_window t interval = .returned w) :
    WindowFits interval t ∧
      w.start.nanos.toInt = t.nanos.toInt / interval.nanos.toInt * interval.nanos.toInt ∧
      w.stop.nanos.toInt = w.start.nanos.toInt + interval.nanos.toInt := by
  have hspec := compute_window_eq t h
  rw [hw, Outcome.returned_bind] at hspec
  by_cases h1 : 0 ≤ t.nanos.toInt ∨ Fits 64 (t.nanos.toInt - interval.nanos.toInt)
  swap
  · rw [if_neg h1] at hspec
    cases hspec
  rw [if_pos h1] at hspec
  by_cases h2 : Fits 64 (t.nanos.toInt / interval.nanos.toInt * interval.nanos.toInt
      + interval.nanos.toInt)
  swap
  · rw [if_neg h2] at hspec
    cases hspec
  rw [if_pos h2] at hspec
  obtain ⟨hstart, hstop⟩ := Prod.mk.inj (Outcome.returned.inj hspec)
  have hfits : WindowFits interval t :=
    (window_values_fit_iff h (fits_toInt _) (fits_toInt _)).mpr ⟨h1, h2⟩
  have hfloor := hfits (t.nanos.toInt / interval.nanos.toInt * interval.nanos.toInt)
    (by simp [window_values])
  refine ⟨hfits, ?_, ?_⟩
  · rw [hstart, toInt_ofInt_of_fits hfloor]
  · rw [hstop, hstart, toInt_ofInt_of_fits h2, toInt_ofInt_of_fits hfloor]

theorem compute_window_of_fits (h : 0 < interval.nanos.toInt) (hfits : WindowFits interval t) :
    ∃ w, compute_window t interval = .returned w := by
  have hspec := compute_window_eq t h
  obtain ⟨h1, h2⟩ := (window_values_fit_iff h (fits_toInt _) (fits_toInt _)).mp hfits
  rw [if_pos h1, if_pos h2] at hspec
  cases hw : compute_window t interval with
  | returned w => exact ⟨w, rfl⟩
  | thrown e => rw [hw] at hspec; cases hspec
  | undefined => rw [hw] at hspec; cases hspec

theorem mem_range_of_returned (h : 0 < interval.nanos.toInt)
    (hw : compute_window t interval = .returned w) : t ∈ w.range := by
  obtain ⟨-, hstart, hstop⟩ := compute_window_returned h hw
  obtain ⟨hle, hlt⟩ := floor_bounds t.nanos.toInt h
  show w.contains t = true
  rw [TimeWindow.contains_iff]
  omega

/-- **Uniqueness.** Any time of a returned window gets that window. -/
theorem compute_window_eq_of_mem (h : 0 < interval.nanos.toInt)
    (hw : compute_window t interval = .returned w) {t' : TimePoint} (ht' : t' ∈ w.range)
    (hfits : WindowFits interval t') : compute_window t' interval = .returned w := by
  obtain ⟨-, hstart, hstop⟩ := compute_window_returned h hw
  obtain ⟨w', hw'⟩ := compute_window_of_fits h hfits
  obtain ⟨-, hstart', hstop'⟩ := compute_window_returned h hw'
  obtain ⟨hle, hlt⟩ := TimeWindow.contains_iff.mp ht'
  have hdvd : interval.nanos.toInt ∣ w.start.nanos.toInt := hstart ▸ dvd_mul_left _ _
  have hfloor := floor_unique h hdvd hle (hstop ▸ hlt)
  have hsame : w' = w := TimeWindow.ext_toInt (hstart'.trans hfloor) (by omega)
  rw [hw', hsame]

/-- The windows that `compute_window` returns. -/
def windows (interval : Duration) : Set TimeWindow :=
  {w | ∃ t, compute_window t interval = .returned w}

theorem windows_disjoint (h : 0 < interval.nanos.toInt) :
    (windows interval).PairwiseDisjoint TimeWindow.range := by
  intro w₁ ⟨t₁, hw₁⟩ w₂ ⟨t₂, hw₂⟩ hne
  apply Set.disjoint_left.mpr
  intro t ht₁ ht₂
  obtain ⟨-, hstart₁, hstop₁⟩ := compute_window_returned h hw₁
  obtain ⟨-, hstart₂, hstop₂⟩ := compute_window_returned h hw₂
  obtain ⟨hle₁, hlt₁⟩ := TimeWindow.contains_iff.mp ht₁
  obtain ⟨hle₂, hlt₂⟩ := TimeWindow.contains_iff.mp ht₂
  -- both starts are the floor of the common time
  have hfloor₁ := floor_unique h (hstart₁ ▸ dvd_mul_left _ _) hle₁ (hstop₁ ▸ hlt₁)
  have hfloor₂ := floor_unique h (hstart₂ ▸ dvd_mul_left _ _) hle₂ (hstop₂ ▸ hlt₂)
  apply hne
  apply TimeWindow.ext_toInt
  · exact hfloor₁.symm.trans hfloor₂
  · omega

theorem duration_of_returned (h : 0 < interval.nanos.toInt)
    (hw : compute_window t interval = .returned w) : w.duration = .returned interval := by
  obtain ⟨-, -, hstop⟩ := compute_window_returned h hw
  have hlength : w.stop.nanos.toInt - w.start.nanos.toInt = interval.nanos.toInt := by omega
  unfold TimeWindow.duration
  rw [hlength, signed_of_fits (fits_toInt _)]
  show Outcome.returned (⟨.ofInt interval.nanos.toInt⟩ : Duration) = _
  rw [Int64.ofInt_toInt]

theorem start_eq_iff_on_boundary (h : 0 < interval.nanos.toInt)
    (hw : compute_window t interval = .returned w) :
    w.start = t ↔ is_on_boundary t interval = .returned true := by
  obtain ⟨-, hstart, -⟩ := compute_window_returned h hw
  have hboundary : is_on_boundary t interval = .returned true ↔
      interval.nanos.toInt ∣ t.nanos.toInt := by
    unfold is_on_boundary
    rw [require_of h, Outcome.returned_bind, tmod_beq_zero]
    show Outcome.returned (decide _) = _ ↔ _
    rw [Outcome.returned.injEq, decide_eq_true_eq]
  rw [hboundary]
  constructor
  · intro heq
    rw [heq] at hstart
    exact hstart ▸ dvd_mul_left _ _
  · intro hdvd
    apply TimePoint.ext_toInt
    rw [hstart, Int.ediv_mul_cancel hdvd]

end Windows

section Alarms

variable {a : IntervalAlarm} {t : TimePoint}

theorem not_dvd_between {e x iv : Int} (h : 0 < iv) (hlt : e < x)
    (hgt : x < (e / iv + 1) * iv) : ¬ iv ∣ x := by
  intro hdvd
  obtain ⟨hle, -⟩ := floor_bounds e h
  have hnext : x < e / iv * iv + iv := by
    calc x < (e / iv + 1) * iv := hgt
      _ = e / iv * iv + iv := by ring
  have hfloor := floor_unique h (dvd_mul_left iv (e / iv)) (by omega) hnext
  rw [Int.ediv_mul_cancel hdvd] at hfloor
  omega

/-- The next ring is ahead, it rings, and no instant between does. -/
theorem IntervalAlarm.next_ring_law (hfits : a.RingFits t) :
    ∃ r, a.next_ring_at t = .returned r ∧
      t.nanos.toInt < r.nanos.toInt ∧
      (t.nanos.toInt < a.reference.nanos.toInt → r = a.reference) ∧
      a.is_ringing r = .returned true ∧
      ∀ x : TimePoint, t.nanos.toInt < x.nanos.toInt → x.nanos.toInt < r.nanos.toInt →
        a.is_ringing x = .returned false := by
  have hpos := a.interval_pos
  have hvalue := toInt_ofInt_of_fits (fits_next_ring (fits_toInt a.reference.nanos) hfits)
  refine ⟨_, (a.next_ring_at_eq t).trans (if_pos hfits), ?_⟩
  simp only [is_ringing_eq, hvalue]
  by_cases hahead : t.nanos.toInt < a.reference.nanos.toInt
  · -- the reference is the first instant that rings
    have hnext : next_ring a.interval.nanos.toInt a.reference.nanos.toInt t.nanos.toInt
        = a.reference.nanos.toInt := if_pos hahead
    rw [hnext]
    refine ⟨hahead, ?_, ?_, ?_⟩
    · intro _
      rw [Int64.ofInt_toInt]
    · rw [if_pos fun _ => by simp [fits_64]]
      simp
    · intro x _ hx
      have hbefore : ¬ a.reference.nanos.toInt ≤ x.nanos.toInt := by omega
      simp [hbefore]
  · obtain ⟨e, he⟩ : ∃ e, e = t.nanos.toInt - a.reference.nanos.toInt := ⟨_, rfl⟩
    obtain ⟨m, hm⟩ : ∃ m, m = (e / a.interval.nanos.toInt + 1) * a.interval.nanos.toInt :=
      ⟨_, rfl⟩
    have hnext : next_ring a.interval.nanos.toInt a.reference.nanos.toInt t.nanos.toInt
        = a.reference.nanos.toInt + m := by
      rw [hm, he]
      exact if_neg hahead
    have hmfits : Fits 64 m := by
      apply hfits
      rw [hm, he]
      simp [ring_values, hahead]
    obtain ⟨-, hlt⟩ := floor_bounds e hpos
    have hgt : e < m := by
      calc e < e / a.interval.nanos.toInt * a.interval.nanos.toInt
            + a.interval.nanos.toInt := hlt
        _ = m := by rw [hm]; ring
    rw [hnext]
    have helapsed : a.reference.nanos.toInt + m - a.reference.nanos.toInt = m := by omega
    refine ⟨by omega, by omega, ?_, ?_⟩
    · rw [helapsed, if_pos fun _ => hmfits, Outcome.returned.injEq, decide_eq_true_eq]
      exact ⟨by omega, hm ▸ dvd_mul_left _ _⟩
    · intro x hx hxlt
      have hxfits : Fits 64 (x.nanos.toInt - a.reference.nanos.toInt) := by
        rw [fits_64] at *
        omega
      rw [if_pos fun _ => hxfits, Outcome.returned.injEq, decide_eq_false_iff_not]
      have hbelow : x.nanos.toInt - a.reference.nanos.toInt
          < (e / a.interval.nanos.toInt + 1) * a.interval.nanos.toInt := by
        rw [← hm]
        omega
      intro hrings
      exact not_dvd_between hpos (by omega) hbelow hrings.2

end Alarms

/-- **Windows and alarms.** Where nothing overflows, the window of a time
    encloses it, starts on the grid and is one interval long; every time in
    it gets the same window, and different windows share no time. A window
    starts at its time exactly on a boundary. The next ring of an alarm is
    the first instant after the given one that rings. -/
theorem windows_and_alarms_on_grid {interval : Duration} (h : 0 < interval.nanos.toInt) :
    (∀ t, WindowFits interval t →
      ∃ w, compute_window t interval = .returned w ∧
        t ∈ w.range ∧
        interval.nanos.toInt ∣ w.start.nanos.toInt ∧
        w.duration = .returned interval ∧
        (∀ t' ∈ w.range, WindowFits interval t' →
          compute_window t' interval = .returned w) ∧
        (w.start = t ↔ is_on_boundary t interval = .returned true)) ∧
    (windows interval).PairwiseDisjoint TimeWindow.range ∧
    ∀ reference, ∃ a, IntervalAlarm.make interval reference = .returned a ∧
      ∀ t, a.RingFits t →
        ∃ r, a.next_ring_at t = .returned r ∧
          t.nanos.toInt < r.nanos.toInt ∧
          (t.nanos.toInt < reference.nanos.toInt → r = reference) ∧
          a.is_ringing r = .returned true ∧
          ∀ x : TimePoint, t.nanos.toInt < x.nanos.toInt → x.nanos.toInt < r.nanos.toInt →
            a.is_ringing x = .returned false := by
  refine ⟨?_, windows_disjoint h, ?_⟩
  · intro t hfits
    obtain ⟨w, hw⟩ := compute_window_of_fits h hfits
    obtain ⟨-, hstart, -⟩ := compute_window_returned h hw
    refine ⟨w, hw, mem_range_of_returned h hw, hstart ▸ dvd_mul_left _ _,
      duration_of_returned h hw, ?_, start_eq_iff_on_boundary h hw⟩
    intro t' ht' hfits'
    exact compute_window_eq_of_mem h hw ht' hfits'
  · intro reference
    refine ⟨_, IntervalAlarm.make_of_pos h, ?_⟩
    intro t hfits
    exact IntervalAlarm.next_ring_law hfits

theorem window_before_epoch :
    0 < (⟨10⟩ : Duration).nanos.toInt ∧
      ∃ w, compute_window ⟨-3⟩ ⟨10⟩ = .returned w ∧ (⟨-3⟩ : TimePoint) ∈ w.range ∧
        (10 : Int) ∣ w.start.nanos.toInt ∧ w.duration = .returned ⟨10⟩ := by
  have h : 0 < (⟨10⟩ : Duration).nanos.toInt := by decide
  have hfits : WindowFits ⟨10⟩ ⟨-3⟩ := by
    unfold WindowFits
    decide
  obtain ⟨w, hw, hmem, hdvd, hduration, -⟩ := (windows_and_alarms_on_grid h).1 ⟨-3⟩ hfits
  exact ⟨h, w, hw, hmem, hdvd, hduration⟩

end Tick

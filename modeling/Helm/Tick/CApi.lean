import Helm.Tick.RoundTrip
import Helm.Tick.Windows

/-! # The C interface of TICK

  The `extern "C"` functions of `tick_c_api.cpp`. Each one checks its
  output pointer, runs the C++ operation and maps an exception to a status
  code, leaving the output as it was. A C call never throws, but it has
  the undefined behaviour of the operation it wraps: the exception
  firewall sees exceptions only.

  `Exact` states what a caller relies on: the call returns, `TICK_OK`
  means that every value on the way was representable, and the result
  written is then the mathematical one. The theorems at the end say for
  which arguments each entry point meets it.
-/

namespace Tick

open Signed

/-! ### Status codes and the exception firewall -/

/-- `tick_status_t` -/
inductive TickStatus
  | OK
  | ERR_OVERFLOW
  | ERR_INVALID_ARG
  | ERR_INVALID_CALENDAR
  | ERR_INVALID_DATE
  | ERR_INTERNAL
  deriving DecidableEq

/-- A call through the C interface: a status and the contents of the output
    pointer, `none` when the pointer is null. -/
abbrev CCall (β : Type) := Outcome Empty (TickStatus × Option β)

/-- `TICK_C_TRY` around `body`, after the null check of the output
    pointer. -/
def TICK_C_TRY {β : Type} (out : Option β) (body : Cpp β) : CCall β :=
  match out with
  | none => .returned (.ERR_INVALID_ARG, none)
  | some old =>
    match body with
    | .returned v => .returned (.OK, some v)
    | .thrown (.overflow_error _) => .returned (.ERR_OVERFLOW, some old)
    | .thrown (.invalid_argument _) => .returned (.ERR_INVALID_ARG, some old)
    | .thrown (.out_of_range _) => .returned (.ERR_INTERNAL, some old)
    | .undefined => .undefined

/-- `cond ? 1 : 0` -/
def int_of_bool (b : Bool) : Int32 := if b then 1 else 0

/-! ### Calendar conversion -/

/-- `tick_calendar_t`, whose values are 0, 1 and 2. -/
def Calendar.tag : Calendar → Int32
  | .Gregorian => 0
  | .NoLeap => 1
  | .Cal360 => 2

/-- The `switch` over the calendar argument. -/
def calendar_of_tag (tag : Int32) : Option Calendar :=
  if tag = 0 then some .Gregorian
  else if tag = 1 then some .NoLeap
  else if tag = 2 then some .Cal360
  else none

@[simp] theorem calendar_of_tag_tag (cal : Calendar) : calendar_of_tag cal.tag = some cal := by
  cases cal <;> rfl

/-- This function has handlers of its own: an invalid date is not an
    invalid argument. -/
def tick_to_time_point (dt : DateTime) (cal : Int32) (out : Option Int64) : CCall Int64 :=
  match out with
  | none => .returned (.ERR_INVALID_ARG, none)
  | some old =>
    match calendar_of_tag cal with
    | none => .returned (.ERR_INVALID_CALENDAR, some old)
    | some c =>
      match c.to_time_point dt with
      | .returned t => .returned (.OK, some t.nanos)
      | .thrown (.invalid_argument _) => .returned (.ERR_INVALID_DATE, some old)
      | .thrown (.overflow_error _) => .returned (.ERR_OVERFLOW, some old)
      | .thrown (.out_of_range _) => .returned (.ERR_INTERNAL, some old)
      | .undefined => .undefined

/-! ### Durations, alarms and windows -/

def tick_duration_div (dur scalar : Int64) (out : Option Int64) : CCall Int64 :=
  TICK_C_TRY out do
    let result ← (⟨dur⟩ : Duration).div scalar
    return result.nanos

def tick_interval_alarm_is_ringing (interval reference current : Int64)
    (out : Option Int32) : CCall Int32 :=
  TICK_C_TRY out do
    let alarm ← IntervalAlarm.make ⟨interval⟩ ⟨reference⟩
    let ringing ← alarm.is_ringing ⟨current⟩
    return int_of_bool ringing

def tick_interval_alarm_next_ring (interval reference current : Int64)
    (out : Option Int64) : CCall Int64 :=
  TICK_C_TRY out do
    let alarm ← IntervalAlarm.make ⟨interval⟩ ⟨reference⟩
    let next ← alarm.next_ring_at ⟨current⟩
    return next.nanos

def tick_is_phase_aligned (current base timestep : Int64) (out : Option Int32) :
    CCall Int32 :=
  TICK_C_TRY out do
    let aligned ← is_phase_aligned ⟨current⟩ ⟨base⟩ ⟨timestep⟩
    return int_of_bool aligned

def tick_is_on_boundary (current interval : Int64) (out : Option Int32) : CCall Int32 :=
  TICK_C_TRY out do
    let on_boundary ← is_on_boundary ⟨current⟩ ⟨interval⟩
    return int_of_bool on_boundary

/-- The two output pointers are checked together and written together. -/
def tick_compute_window (current interval : Int64) (out : Option (Int64 × Int64)) :
    CCall (Int64 × Int64) :=
  TICK_C_TRY out do
    let window ← compute_window ⟨current⟩ ⟨interval⟩
    return (window.start.nanos, window.stop.nanos)

/-! ### Exactness -/

/-- The call returns; it reports `TICK_OK` exactly when `ok` holds, and then
    the value written satisfies `spec`. -/
def Exact {β : Type} (call : CCall β) (ok : Prop) (spec : β → Prop) : Prop :=
  ∃ status out, call = .returned (status, out) ∧ (status = .OK ↔ ok) ∧
    (status = .OK → ∃ v, out = some v ∧ spec v)

variable {β : Type} {old : β} {body : Cpp β} {ok : Prop} {spec : β → Prop}

theorem not_exact_undefined : ¬ Exact (.undefined : CCall β) ok spec := by
  rintro ⟨_, _, h, _⟩
  exact absurd h (by simp)

theorem exact_returned {v : β} (hok : ok) (hv : spec v) :
    Exact (TICK_C_TRY (some old) (.returned v)) ok spec :=
  ⟨.OK, some v, rfl, iff_of_true rfl hok, fun _ => ⟨v, rfl, hv⟩⟩

theorem exact_thrown {e : Exn} (hok : ¬ ok) :
    Exact (TICK_C_TRY (some old) (.thrown e)) ok spec := by
  cases e with
  | overflow_error what =>
    exact ⟨.ERR_OVERFLOW, some old, rfl, iff_of_false (by simp) hok, by simp⟩
  | invalid_argument what =>
    exact ⟨.ERR_INVALID_ARG, some old, rfl, iff_of_false (by simp) hok, by simp⟩
  | out_of_range what =>
    exact ⟨.ERR_INTERNAL, some old, rfl, iff_of_false (by simp) hok, by simp⟩

/-! ### Conversion of dates -/

/-- **`tick_to_time_point` on a date of the calendar.** The call reports the
    exact count, or an overflow without touching the output, exactly when
    the count and the midnight before it are representable. -/
theorem tick_to_time_point_exact_iff {cal : Calendar} {dt : DateTime} (out : Int64)
    (hv : cal.validate dt = .returned ()) :
    ((Fits 64 (cal.nanosOf dt) → tick_to_time_point dt cal.tag (some out)
        = .returned (.OK, some (.ofInt (cal.nanosOf dt)))) ∧
      (¬ Fits 64 (cal.nanosOf dt) → tick_to_time_point dt cal.tag (some out)
        = .returned (.ERR_OVERFLOW, some out)))
    ↔ Fits 64 (cal.dayOf dt * nanos_per_day) ∧ Fits 64 (cal.nanosOf dt) := by
  rw [Calendar.validate_iff] at hv
  have hcall := Calendar.to_time_point_eq hv
  by_cases hrep : cal.Representable dt
  · rw [if_pos hrep] at hcall
    have hret : tick_to_time_point dt cal.tag (some out)
        = .returned (.OK, some (.ofInt (cal.nanosOf dt))) := by
      simp [tick_to_time_point, hcall]
    rw [hret]
    exact iff_of_true ⟨fun _ => rfl, fun h => absurd hrep.2 h⟩ hrep
  · rw [if_neg hrep] at hcall
    -- no handler catches the overflow
    have hret : tick_to_time_point dt cal.tag (some out) = .undefined := by
      simp [tick_to_time_point, hcall]
    rw [hret]
    apply iff_of_false _ hrep
    rintro ⟨h1, h2⟩
    by_cases hfits : Fits 64 (cal.nanosOf dt)
    · exact absurd (h1 hfits) (by simp)
    · exact absurd (h2 hfits) (by simp)

/-- The first midnight of the year 3000. -/
def year_3000 : DateTime := ⟨3000, 1, 1, 0, 0, 0, 0⟩

theorem tick_to_time_point_year_2026 :
    (Fits 64 (Calendar.Gregorian.nanosOf ⟨2026, 1, 1, 0, 0, 0, 0⟩) →
        tick_to_time_point ⟨2026, 1, 1, 0, 0, 0, 0⟩ Calendar.Gregorian.tag (some 7)
          = .returned (.OK, some (.ofInt (Calendar.Gregorian.nanosOf ⟨2026, 1, 1, 0, 0, 0, 0⟩)))) ∧
      (¬ Fits 64 (Calendar.Gregorian.nanosOf ⟨2026, 1, 1, 0, 0, 0, 0⟩) →
        tick_to_time_point ⟨2026, 1, 1, 0, 0, 0, 0⟩ Calendar.Gregorian.tag (some 7)
          = .returned (.ERR_OVERFLOW, some 7)) := by
  have hday : Calendar.Gregorian.dayOf ⟨2026, 1, 1, 0, 0, 0, 0⟩ = 0 := by
    unfold Calendar.dayOf
    rw [← civil_to_days_eq _ _ (by decide)]
    decide
  refine (tick_to_time_point_exact_iff 7 (by decide)).mpr ?_
  unfold Calendar.nanosOf
  rw [hday]
  decide

theorem tick_to_time_point_year_3000 :
    Calendar.Gregorian.validate year_3000 = .returned () ∧
      ¬ Fits 64 (Calendar.Gregorian.nanosOf year_3000) ∧
      tick_to_time_point year_3000 Calendar.Gregorian.tag (some 7)
        ≠ .returned (.ERR_OVERFLOW, some 7) := by
  have hday : Calendar.Gregorian.dayOf year_3000 = 355746 := by
    unfold Calendar.dayOf
    rw [← civil_to_days_eq _ _ (by decide)]
    decide
  refine ⟨by decide, ?_, by decide⟩
  unfold Calendar.nanosOf
  rw [hday]
  decide

/-! ### The integer entry points -/

theorem fits_tdiv_iff {a b : Int} (ha : Fits 64 a) (hb : b ≠ 0) :
    Fits 64 (a.tdiv b) ↔ ¬ (a = -2 ^ 63 ∧ b = -1) := by
  by_cases h1 : b = -1
  · subst h1
    rw [Int.tdiv_neg, Int.tdiv_one]
    rw [fits_64] at *
    norm_num
    omega
  · refine iff_of_true ?_ fun h => h1 h.2
    obtain rfl | hb1 := eq_or_ne b 1
    · rwa [Int.tdiv_one]
    · -- a divisor of size two or more halves the dividend
      have hsize : 2 ≤ b.natAbs := by omega
      have hquot : (a.tdiv b).natAbs ≤ a.natAbs / 2 := by
        rw [Int.natAbs_tdiv]
        exact Nat.div_le_div_left hsize (by omega)
      rw [fits_64] at *
      omega

/-- What `tick_duration_div` owes its caller. -/
def DivExact (dur scalar old : Int64) : Prop :=
  Exact (tick_duration_div dur scalar (some old))
    (scalar.toInt ≠ 0 ∧ Fits 64 (dur.toInt.tdiv scalar.toInt))
    (fun v => v.toInt = dur.toInt.tdiv scalar.toInt)

def IsRingingExact (interval reference current : Int64) (old : Int32) : Prop :=
  Exact (tick_interval_alarm_is_ringing interval reference current (some old))
    (0 < interval.toInt ∧ (reference.toInt ≤ current.toInt →
      Fits 64 (current.toInt - reference.toInt)))
    (fun v => v = int_of_bool (decide (reference.toInt ≤ current.toInt ∧
      interval.toInt ∣ current.toInt - reference.toInt)))

def PhaseAlignedExact (current base timestep : Int64) (old : Int32) : Prop :=
  Exact (tick_is_phase_aligned current base timestep (some old))
    (0 < timestep.toInt ∧ (base.toInt ≤ current.toInt →
      Fits 64 (current.toInt - base.toInt)))
    (fun v => v = int_of_bool (decide (base.toInt ≤ current.toInt ∧
      timestep.toInt ∣ current.toInt - base.toInt)))

def NextRingExact (interval reference current old : Int64) : Prop :=
  Exact (tick_interval_alarm_next_ring interval reference current (some old))
    (0 < interval.toInt ∧
      ∀ x ∈ ring_values interval.toInt reference.toInt current.toInt, Fits 64 x)
    (fun v => v.toInt = next_ring interval.toInt reference.toInt current.toInt)

def WindowExact (current interval : Int64) (old : Int64 × Int64) : Prop :=
  Exact (tick_compute_window current interval (some old))
    (0 < interval.toInt ∧ ∀ x ∈ window_values interval.toInt current.toInt, Fits 64 x)
    (fun v => v.1.toInt = current.toInt / interval.toInt * interval.toInt ∧
      v.2.toInt = current.toInt / interval.toInt * interval.toInt + interval.toInt)

def BoundaryExact (current interval : Int64) (old : Int32) : Prop :=
  Exact (tick_is_on_boundary current interval (some old)) (0 < interval.toInt)
    (fun v => v = int_of_bool (decide (interval.toInt ∣ current.toInt)))

theorem divExact_iff (dur scalar old : Int64) :
    DivExact dur scalar old ↔ ¬ (dur.toInt = -2 ^ 63 ∧ scalar.toInt = -1) := by
  unfold DivExact tick_duration_div Duration.div
  by_cases h0 : scalar.toInt ≠ 0
  · rw [require_of h0, Outcome.returned_bind]
    have hfits_iff : Fits 64 (dur.toInt.tdiv scalar.toInt)
        ↔ ¬ (dur.toInt = -2 ^ 63 ∧ scalar.toInt = -1) :=
      fits_tdiv_iff (fits_toInt dur) h0
    by_cases hq : Fits 64 (dur.toInt.tdiv scalar.toInt)
    · rw [signed_of_fits hq]
      exact iff_of_true (exact_returned ⟨h0, hq⟩ (toInt_ofInt_of_fits hq)) (hfits_iff.mp hq)
    · rw [signed_of_not_fits hq]
      exact iff_of_false not_exact_undefined (mt hfits_iff.mpr hq)
  · rw [require_of_not h0]
    refine iff_of_true (exact_thrown fun h => h0 h.1) ?_
    rintro ⟨_, h1⟩
    exact h0 (by omega)

theorem isRingingExact_iff (interval reference current : Int64) (old : Int32) :
    IsRingingExact interval reference current old
    ↔ (0 < interval.toInt → current.toInt - reference.toInt < 2 ^ 63) := by
  have hfits_iff : (reference.toInt ≤ current.toInt → Fits 64 (current.toInt - reference.toInt))
      ↔ current.toInt - reference.toInt < 2 ^ 63 := elapsed_fits_iff
  unfold IsRingingExact tick_interval_alarm_is_ringing
  by_cases hpos : 0 < interval.toInt
  · rw [IntervalAlarm.make_of_pos hpos, Outcome.returned_bind, IntervalAlarm.is_ringing_eq]
    dsimp only
    by_cases hfits : reference.toInt ≤ current.toInt → Fits 64 (current.toInt - reference.toInt)
    · rw [if_pos hfits]
      exact iff_of_true (exact_returned ⟨hpos, hfits⟩ rfl) fun _ => hfits_iff.mp hfits
    · rw [if_neg hfits]
      exact iff_of_false not_exact_undefined fun h => hfits (hfits_iff.mpr (h hpos))
  · rw [IntervalAlarm.make_of_not_pos hpos]
    exact iff_of_true (exact_thrown fun h => hpos h.1) fun h => absurd h hpos

theorem phaseAlignedExact_iff (current base timestep : Int64) (old : Int32) :
    PhaseAlignedExact current base timestep old
    ↔ (0 < timestep.toInt → current.toInt - base.toInt < 2 ^ 63) := by
  have hfits_iff : (base.toInt ≤ current.toInt → Fits 64 (current.toInt - base.toInt))
      ↔ current.toInt - base.toInt < 2 ^ 63 := elapsed_fits_iff
  unfold PhaseAlignedExact tick_is_phase_aligned
  by_cases hpos : 0 < timestep.toInt
  · rw [is_phase_aligned_eq _ _ hpos]
    dsimp only
    by_cases hfits : base.toInt ≤ current.toInt → Fits 64 (current.toInt - base.toInt)
    · rw [if_pos hfits]
      exact iff_of_true (exact_returned ⟨hpos, hfits⟩ rfl) fun _ => hfits_iff.mp hfits
    · rw [if_neg hfits]
      exact iff_of_false not_exact_undefined fun h => hfits (hfits_iff.mpr (h hpos))
  · unfold is_phase_aligned
    rw [require_of_not hpos]
    exact iff_of_true (exact_thrown fun h => hpos h.1) fun h => absurd h hpos

theorem nextRingExact_iff (interval reference current old : Int64) :
    NextRingExact interval reference current old
    ↔ (0 < interval.toInt → reference.toInt ≤ current.toInt →
        current.toInt - reference.toInt < 2 ^ 63 ∧
        ((current.toInt - reference.toInt) / interval.toInt + 1) * interval.toInt < 2 ^ 63 ∧
        reference.toInt + ((current.toInt - reference.toInt) / interval.toInt + 1)
          * interval.toInt < 2 ^ 63) := by
  unfold NextRingExact tick_interval_alarm_next_ring
  by_cases hpos : 0 < interval.toInt
  · have hfits_iff : (∀ x ∈ ring_values interval.toInt reference.toInt current.toInt,
        Fits 64 x) ↔ _ := ring_values_fit_iff hpos (fits_toInt reference)
    rw [IntervalAlarm.make_of_pos hpos, Outcome.returned_bind, IntervalAlarm.next_ring_at_eq]
    dsimp only
    by_cases hfits : ∀ x ∈ ring_values interval.toInt reference.toInt current.toInt, Fits 64 x
    · rw [if_pos hfits]
      refine iff_of_true (exact_returned ⟨hpos, hfits⟩ ?_) fun _ => hfits_iff.mp hfits
      exact toInt_ofInt_of_fits (fits_next_ring (fits_toInt reference) hfits)
    · rw [if_neg hfits]
      exact iff_of_false not_exact_undefined fun h => hfits (hfits_iff.mpr (h hpos))
  · rw [IntervalAlarm.make_of_not_pos hpos]
    exact iff_of_true (exact_thrown fun h => hpos h.1) fun h => absurd h hpos

theorem windowExact_iff (current interval : Int64) (old : Int64 × Int64) :
    WindowExact current interval old
    ↔ (0 < interval.toInt → current.toInt < 0 → -2 ^ 63 ≤ current.toInt - interval.toInt) := by
  unfold WindowExact tick_compute_window
  by_cases hpos : 0 < interval.toInt
  · have hshift_iff : (0 ≤ current.toInt ∨ Fits 64 (current.toInt - interval.toInt))
        ↔ (current.toInt < 0 → -2 ^ 63 ≤ current.toInt - interval.toInt) := by
      have := fits_toInt current
      rw [fits_64] at *
      norm_num
      omega
    have hvalues := window_values_fit_iff hpos (fits_toInt current) (fits_toInt interval)
    rw [compute_window_eq _ (show 0 < (⟨interval⟩ : Duration).nanos.toInt from hpos)]
    dsimp only
    by_cases hshift : 0 ≤ current.toInt ∨ Fits 64 (current.toInt - interval.toInt)
    · rw [if_pos hshift]
      refine iff_of_true ?_ fun _ => hshift_iff.mp hshift
      by_cases hend : Fits 64 (current.toInt / interval.toInt * interval.toInt + interval.toInt)
      · have hall := hvalues.mpr ⟨hshift, hend⟩
        have hfloor : Fits 64 (current.toInt / interval.toInt * interval.toInt) :=
          hall _ (by simp [window_values])
        rw [if_pos hend]
        exact exact_returned ⟨hpos, hall⟩ ⟨toInt_ofInt_of_fits hfloor, toInt_ofInt_of_fits hend⟩
      · rw [if_neg hend]
        exact exact_thrown fun h => hend (hvalues.mp h.2).2
    · rw [if_neg hshift]
      exact iff_of_false not_exact_undefined fun h => hshift (hshift_iff.mpr (h hpos))
  · unfold compute_window
    rw [require_of_not hpos]
    exact iff_of_true (exact_thrown fun h => hpos h.1) fun h => absurd h hpos

theorem boundaryExact (current interval : Int64) (old : Int32) :
    BoundaryExact current interval old := by
  unfold BoundaryExact tick_is_on_boundary is_on_boundary
  by_cases hpos : 0 < interval.toInt
  · rw [require_of hpos, Outcome.returned_bind]
    dsimp only
    rw [tmod_beq_zero]
    exact exact_returned hpos rfl
  · rw [require_of_not hpos]
    exact exact_thrown hpos

/-- **The integer entry points.** Each is exact for all arguments except
    those that make one of its unchecked operators overflow. -/
theorem integer_entry_points (dur scalar interval reference current timestep old : Int64)
    (old_flag : Int32) (old_window : Int64 × Int64) :
    (DivExact dur scalar old ↔ ¬ (dur.toInt = -2 ^ 63 ∧ scalar.toInt = -1)) ∧
    (IsRingingExact interval reference current old_flag ↔
      (0 < interval.toInt → current.toInt - reference.toInt < 2 ^ 63)) ∧
    (NextRingExact interval reference current old ↔
      (0 < interval.toInt → reference.toInt ≤ current.toInt →
        current.toInt - reference.toInt < 2 ^ 63 ∧
        ((current.toInt - reference.toInt) / interval.toInt + 1) * interval.toInt < 2 ^ 63 ∧
        reference.toInt + ((current.toInt - reference.toInt) / interval.toInt + 1)
          * interval.toInt < 2 ^ 63)) ∧
    (PhaseAlignedExact current reference timestep old_flag ↔
      (0 < timestep.toInt → current.toInt - reference.toInt < 2 ^ 63)) ∧
    (WindowExact current interval old_window ↔
      (0 < interval.toInt → current.toInt < 0 →
        -2 ^ 63 ≤ current.toInt - interval.toInt)) ∧
    BoundaryExact current interval old_flag :=
  ⟨divExact_iff .., isRingingExact_iff .., nextRingExact_iff .., phaseAlignedExact_iff ..,
    windowExact_iff .., boundaryExact ..⟩

theorem integer_entry_points_undefined :
    ¬ DivExact Int64.minValue (-1) 7 ∧ ¬ IsRingingExact 2 Int64.minValue 0 7 ∧
      ¬ NextRingExact 2 Int64.minValue 0 7 ∧ ¬ PhaseAlignedExact 0 Int64.minValue 2 7 ∧
      ¬ WindowExact Int64.minValue 1 (7, 7) := by
  refine ⟨?_, ?_, ?_, ?_, ?_⟩
  · have hcall : tick_duration_div Int64.minValue (-1) (some 7) = .undefined := by decide
    rw [DivExact, hcall]
    exact not_exact_undefined
  · have hcall : tick_interval_alarm_is_ringing 2 Int64.minValue 0 (some 7) = .undefined := by
      decide
    rw [IsRingingExact, hcall]
    exact not_exact_undefined
  · have hcall : tick_interval_alarm_next_ring 2 Int64.minValue 0 (some 7) = .undefined := by
      decide
    rw [NextRingExact, hcall]
    exact not_exact_undefined
  · have hcall : tick_is_phase_aligned 0 Int64.minValue 2 (some 7) = .undefined := by decide
    rw [PhaseAlignedExact, hcall]
    exact not_exact_undefined
  · have hcall : tick_compute_window Int64.minValue 1 (some (7, 7)) = .undefined := by decide
    rw [WindowExact, hcall]
    exact not_exact_undefined

end Tick

import Helm.Framework.Signed

/-! # TICK instants, durations and windows

  The value types of the time library: `Duration` and `Time_Point` are
  counts of nanoseconds in an `int64_t`, `Date_Time` is a plain record of
  `int32_t` fields, and `Time_Window` is a half-open interval of instants.

  Arithmetic follows the source operator by operator. `checked_add` and
  its siblings throw on overflow; a built-in operator is `signed`, whose
  overflow is undefined behaviour.
-/

namespace Tick

open Signed

/-- The exceptions the library throws, with their texts. -/
inductive Exn
  | overflow_error (what : String)
  | invalid_argument (what : String)
  | out_of_range (what : String)
  deriving DecidableEq

/-- A C++ call of the library. -/
abbrev Cpp (α : Type) := Outcome Exn α

/-- Throw unless the condition holds. -/
def require (p : Prop) [Decidable p] (e : Exn) : Cpp Unit :=
  if p then .returned () else .thrown e

theorem require_of {p : Prop} [Decidable p] {e : Exn} (h : p) :
    require p e = .returned () := if_pos h

theorem require_of_not {p : Prop} [Decidable p] {e : Exn} (h : ¬ p) :
    require p e = .thrown e := if_neg h

/-! ### Checked arithmetic -/

def checked_add (a b : Int64) : Cpp Int64 := do
  let result ← checked 64 (.overflow_error "Integer overflow in addition")
    (a.toInt + b.toInt)
  return .ofInt result

def checked_sub (a b : Int64) : Cpp Int64 := do
  let result ← checked 64 (.overflow_error "Integer overflow in subtraction")
    (a.toInt - b.toInt)
  return .ofInt result

/-! ### Duration and Time_Point -/

structure Duration where
  nanos : Int64
  deriving DecidableEq

structure TimePoint where
  nanos : Int64
  deriving DecidableEq

theorem TimePoint.ext_toInt {s t : TimePoint} (h : s.nanos.toInt = t.nanos.toInt) :
    s = t := by
  cases s
  cases t
  simpa using Int64.toInt_inj.mp h

/-- `Duration::operator/` -/
def Duration.div (d : Duration) (scalar : Int64) : Cpp Duration := do
  require (scalar.toInt ≠ 0) (.invalid_argument "Duration division by zero")
  -- `INT64_MIN / -1` is the one quotient that does not fit
  let q ← signed 64 (d.nanos.toInt.tdiv scalar.toInt)
  return ⟨.ofInt q⟩

/-- `Time_Point::operator+(Duration)` -/
def TimePoint.add (t : TimePoint) (d : Duration) : Cpp TimePoint := do
  let nanos ← checked_add t.nanos d.nanos
  return ⟨nanos⟩

/-- `Time_Point::operator-(Duration)` -/
def TimePoint.sub (t : TimePoint) (d : Duration) : Cpp TimePoint := do
  let nanos ← checked_sub t.nanos d.nanos
  return ⟨nanos⟩

theorem TimePoint.add_of_fits {t : TimePoint} {d : Duration}
    (h : Fits 64 (t.nanos.toInt + d.nanos.toInt)) :
    t.add d = .returned ⟨.ofInt (t.nanos.toInt + d.nanos.toInt)⟩ := by
  simp [add, checked_add, checked_of_fits h]

theorem TimePoint.add_of_not_fits {t : TimePoint} {d : Duration}
    (h : ¬ Fits 64 (t.nanos.toInt + d.nanos.toInt)) :
    t.add d = .thrown (.overflow_error "Integer overflow in addition") := by
  simp [add, checked_add, checked_of_not_fits h]

theorem TimePoint.sub_of_fits {t : TimePoint} {d : Duration}
    (h : Fits 64 (t.nanos.toInt - d.nanos.toInt)) :
    t.sub d = .returned ⟨.ofInt (t.nanos.toInt - d.nanos.toInt)⟩ := by
  simp [sub, checked_sub, checked_of_fits h]

def nanos_per_second : Int := 1000000000
def nanos_per_minute : Int := 60 * nanos_per_second
def nanos_per_hour : Int := 60 * nanos_per_minute
def nanos_per_day : Int := 24 * nanos_per_hour

theorem nanos_per_minute_eq : nanos_per_minute = 60000000000 := rfl
theorem nanos_per_hour_eq : nanos_per_hour = 3600000000000 := rfl
theorem nanos_per_day_eq : nanos_per_day = 86400000000000 := rfl

/-! ### Date_Time -/

/-- A decomposed calendar date; any field values can be stored. -/
structure DateTime where
  year : Int32
  month : Int32
  day : Int32
  hour : Int32
  minute : Int32
  second : Int32
  nanosecond : Int32
  deriving DecidableEq

/-- `Date_Time::operator<=>` compares the fields in order. -/
def DateTime.lt (a b : DateTime) : Prop :=
  a.year < b.year ∨ a.year = b.year ∧ (
  a.month < b.month ∨ a.month = b.month ∧ (
  a.day < b.day ∨ a.day = b.day ∧ (
  a.hour < b.hour ∨ a.hour = b.hour ∧ (
  a.minute < b.minute ∨ a.minute = b.minute ∧ (
  a.second < b.second ∨ a.second = b.second ∧
  a.nanosecond < b.nanosecond)))))

instance (a b : DateTime) : Decidable (a.lt b) := by
  unfold DateTime.lt
  infer_instance

/-! ### Time_Window -/

/-- A half-open interval of instants. The constructor of the source throws
    unless `start < end`. -/
structure TimeWindow where
  start : TimePoint
  stop : TimePoint
  start_lt : start.nanos.toInt < stop.nanos.toInt
  deriving DecidableEq

/-- `Time_Window(Time_Point, Time_Point)` -/
def TimeWindow.make (start stop : TimePoint) : Cpp TimeWindow :=
  if h : start.nanos.toInt < stop.nanos.toInt then .returned ⟨start, stop, h⟩
  else .thrown (.invalid_argument "Time_Window requires start < end")

/-- `Time_Window::contains` -/
def TimeWindow.contains (w : TimeWindow) (t : TimePoint) : Bool :=
  w.start.nanos.toInt ≤ t.nanos.toInt ∧ t.nanos.toInt < w.stop.nanos.toInt

/-- `Time_Window::duration`; the difference is not checked. -/
def TimeWindow.duration (w : TimeWindow) : Cpp Duration := do
  let d ← signed 64 (w.stop.nanos.toInt - w.start.nanos.toInt)
  return ⟨.ofInt d⟩

theorem TimeWindow.make_of_lt {s e : TimePoint} (h : s.nanos.toInt < e.nanos.toInt) :
    TimeWindow.make s e = .returned ⟨s, e, h⟩ := dif_pos h

def is_on_boundary (current_time : TimePoint) (interval : Duration) : Cpp Bool := do
  require (0 < interval.nanos.toInt)
    (.invalid_argument "is_on_boundary interval must be positive")
  return (current_time.nanos.toInt.tmod interval.nanos.toInt == 0)

def compute_window (current_time : TimePoint) (interval : Duration) : Cpp TimeWindow := do
  require (0 < interval.nanos.toInt)
    (.invalid_argument "compute_window interval must be positive")
  let nanos := current_time.nanos.toInt
  let iv := interval.nanos.toInt
  let floor_nanos ←
    if 0 ≤ nanos then signed 64 (nanos.tdiv iv * iv)
    else do
      -- truncation rounds a negative quotient up, so the dividend is shifted
      let shifted ← signed 64 (nanos - iv)
      let shifted ← signed 64 (shifted + 1)
      signed 64 (shifted.tdiv iv * iv)
  let floor_time : TimePoint := ⟨.ofInt floor_nanos⟩
  let stop ← floor_time.add interval
  TimeWindow.make floor_time stop

/-! ### Interval_Alarm and phase alignment -/

/-- An alarm that rings at `reference + k * interval`. The constructor
    throws unless the interval is positive. -/
structure IntervalAlarm where
  interval : Duration
  reference : TimePoint
  interval_pos : 0 < interval.nanos.toInt

/-- `Interval_Alarm(Duration, Time_Point)` -/
def IntervalAlarm.make (interval : Duration) (reference : TimePoint) : Cpp IntervalAlarm :=
  if h : 0 < interval.nanos.toInt then .returned ⟨interval, reference, h⟩
  else .thrown (.invalid_argument "Interval_Alarm interval must be positive")

def IntervalAlarm.is_ringing (a : IntervalAlarm) (current_time : TimePoint) : Cpp Bool :=
  if a.reference.nanos.toInt ≤ current_time.nanos.toInt then do
    let elapsed ← signed 64 (current_time.nanos.toInt - a.reference.nanos.toInt)
    return (elapsed.tmod a.interval.nanos.toInt == 0)
  else return false

def IntervalAlarm.next_ring_at (a : IntervalAlarm) (current_time : TimePoint) :
    Cpp TimePoint :=
  if current_time.nanos.toInt < a.reference.nanos.toInt then
    return a.reference
  else do
    let elapsed ← signed 64 (current_time.nanos.toInt - a.reference.nanos.toInt)
    let n ← signed 64 (elapsed.tdiv a.interval.nanos.toInt + 1)
    let ahead ← signed 64 (n * a.interval.nanos.toInt)
    let next ← signed 64 (a.reference.nanos.toInt + ahead)
    return ⟨.ofInt next⟩

def is_phase_aligned (current_time base_time : TimePoint) (time_step : Duration) :
    Cpp Bool := do
  require (0 < time_step.nanos.toInt) (.invalid_argument "time_step must be positive")
  if current_time.nanos.toInt < base_time.nanos.toInt then
    return false
  else do
    let elapsed ← signed 64 (current_time.nanos.toInt - base_time.nanos.toInt)
    return (elapsed.tmod time_step.nanos.toInt == 0)

end Tick

import Helm.Tick.Time
import Helm.Conf.Config

/-! # The settings and streams of a pipeline file

  `parse_pipeline` reads the settings and the streams of a pipeline from a
  YAML document, and `Event_Loop` checks the settings when it is built.

  Two kinds of numbers go through here:

  * an integer setting is converted to `int` by the YAML library and cast
    to `uint32_t`; a negative one becomes a large one and fails the range
    check;
  * a snapshot interval is text. `parse_snapshot_interval` accumulates its
    digits in an `int64_t` and `tick::seconds` multiplies the result, both
    without a check, so the behaviour is undefined on an interval that does
    not fit (`Overflows`).
-/

/-- `tick::seconds` -/
def Tick.seconds {ε : Type} (count : Int) : Signed.Outcome ε Tick.Duration := do
  let nanos ← Signed.signed 64 (count * 1000000000)
  return ⟨.ofInt nanos⟩

namespace Dagr

open Signed Conf
open Yaml (Node Parser)

/-! ## Section 1: Intervals -/

inductive PipelineError
  | conf (e : Conf_Error)
  | invalid_argument (what : String)
  deriving DecidableEq

abbrev Parse (α : Type) := Outcome PipelineError α

/-- Throw `std::invalid_argument` unless the condition holds. -/
def require_arg (p : Prop) [Decidable p] (what : String) : Parse Unit :=
  if p then .returned () else .thrown (.invalid_argument what)

def of_conf {α : Type} : Except Conf_Error α → Parse α
  | .ok a => .returned a
  | .error e => .thrown (.conf e)

/-- The loop over the characters after the sign; `none` at one that is no
    digit. -/
def parse_digits (value : Int) : List Char → Parse (Option Int)
  | [] => .returned (some value)
  | c :: rest =>
    if c.isDigit then do
      let tens ← signed 64 (value * 10)
      let next ← signed 64 (tens + ((c.toNat : Int) - 48))
      parse_digits next rest
    else .returned none

def strip_unit (sv : List Char) : List Char :=
  if sv.getLast? = some 's' ∨ sv.getLast? = some 'S' then sv.dropLast else sv

def strip_sign (sv : List Char) : List Char :=
  if sv.head? = some '-' ∨ sv.head? = some '+' then sv.tail else sv

/-- The sign and the unit of the number read. -/
def signed_seconds (negative : Bool) (value : Int) : Parse Tick.Duration := do
  let value ← if negative then signed 64 (-value) else pure value
  Tick.seconds value

def parse_snapshot_interval (raw : String) : Parse Tick.Duration := do
  let sv := strip_unit raw.toList
  let negative : Bool := sv.head? = some '-'
  let digits := strip_sign sv
  -- an empty text, a lone unit and a lone sign
  if digits = [] then return ⟨0⟩
  match ← parse_digits 0 digits with
  | none => return ⟨0⟩
  | some value => signed_seconds negative value

/-- The part of the stream loop that reads the interval `raw`. -/
def stream_interval (name raw : String) : Parse Tick.Duration := do
  let interval ← parse_snapshot_interval raw
  require_arg (0 < interval.nanos.toInt)
    ("stream '" ++ name ++ "': snapshot_interval must be positive (got '" ++ raw ++ "')")
  return interval

/-! ## Section 2: Streams -/

inductive TemporalProfile
  | linear | step
  deriving DecidableEq

inductive OutOfBoundsPolicy
  | clamp | cycle
  deriving DecidableEq

structure StreamDescriptor where
  name : String
  temporal_profile : TemporalProfile
  oob_policy : OutOfBoundsPolicy
  dataset_path : String
  snapshot_interval : Tick.Duration

def parse_temporal_profile (str : String) : Option TemporalProfile :=
  if str = "linear" then some .linear else if str = "step" then some .step else none

def parse_oob_policy (str : String) : Option OutOfBoundsPolicy :=
  if str = "clamp" then some .clamp else if str = "cycle" then some .cycle else none

/-- `Config::size` -/
def config_size (root : Node) (path : List String) : Nat :=
  match resolve root path with
  | .ok (.map entries) => entries.length
  | .ok (.sequence items) => items.length
  | _ => 0

/-- The path of a field of a stream. -/
def stream_field (i : Nat) (key : String) : List String := ["streams", toString i, key]

def require_field (root : Node) (i : Nat) (name key : String) : Parse Unit :=
  require_arg (has root (stream_field i key) = true)
    ("stream '" ++ name ++ "': missing required field '" ++ key ++ "'")

/-- The words of a keyword field; any other is refused. -/
def require_word {α : Type} (word : Option α) (name key str : String) : Parse α :=
  match word with
  | some a => .returned a
  | none => .thrown (.invalid_argument
      ("stream '" ++ name ++ "': unrecognized " ++ key ++ " '" ++ str ++ "'"))

/-- One iteration of the stream loop. -/
def parse_stream (root : Node) (seen_names : List String) (i : Nat) : Parse StreamDescriptor := do
  require_arg (has root (stream_field i "name") = true)
    ("stream at index " ++ toString i ++ ": missing required field 'name'")
  let name ← of_conf (get_string root (stream_field i "name"))
  require_arg (name ∉ seen_names) ("duplicate stream name: '" ++ name ++ "'")
  require_field root i name "temporal_profile"
  require_field root i name "out_of_bounds_policy"
  require_field root i name "dataset_path"
  require_field root i name "snapshot_interval"
  let tp_str ← of_conf (get_string root (stream_field i "temporal_profile"))
  let tp ← require_word (parse_temporal_profile tp_str) name "temporal_profile" tp_str
  let oob_str ← of_conf (get_string root (stream_field i "out_of_bounds_policy"))
  let oob ← require_word (parse_oob_policy oob_str) name "out_of_bounds_policy" oob_str
  let ds_path ← of_conf (get_string root (stream_field i "dataset_path"))
  require_arg (ds_path ≠ "") ("stream '" ++ name ++ "': dataset_path must not be empty")
  let interval_str ← of_conf (get_string root (stream_field i "snapshot_interval"))
  let interval ← stream_interval name interval_str
  return ⟨name, tp, oob, ds_path, interval⟩

/-- The stream loop. The names seen are those of the streams before. -/
def parse_streams (root : Node) : Parse (List StreamDescriptor) :=
  (List.range (config_size root ["streams"])).foldlM
    (fun streams i => do
      let desc ← parse_stream root (streams.map (·.name)) i
      return streams ++ [desc])
    []

/-! ## Section 3: Settings -/

structure PipelineSettings where
  max_concurrency : UInt32
  deadlock_timeout_s : UInt32
  shutdown_timeout_s : UInt32

variable (yaml : Parser)

def read_setting (root : Node) (key : String) (default : UInt32) : Parse UInt32 :=
  if has root ["settings", key] then do
    let n ← of_conf (get_int yaml root ["settings", key])
    -- the cast from `int`
    return n.toUInt32
  else return default

def parse_settings (root : Node) : Parse PipelineSettings := do
  let max_concurrency ← read_setting yaml root "max_concurrency" 64
  let deadlock_timeout_s ← read_setting yaml root "deadlock_timeout" 30
  let shutdown_timeout_s ← read_setting yaml root "shutdown_timeout" 30
  return ⟨max_concurrency, deadlock_timeout_s, shutdown_timeout_s⟩

/-- What `parse_pipeline` has read before it comes to the tasks. -/
def parse_settings_and_streams (root : Node) :
    Parse (PipelineSettings × List StreamDescriptor) := do
  let settings ← parse_settings yaml root
  let streams ← parse_streams root
  return (settings, streams)

/-- The checks of the constructor of `Event_Loop`. -/
def event_loop_checks (cfg : PipelineSettings) : Parse Unit := do
  require_arg (1 ≤ cfg.max_concurrency.toNat ∧ cfg.max_concurrency.toNat ≤ 1024)
    ("Event_Loop: max_concurrency must be in range [1, 1024], got " ++
      toString cfg.max_concurrency.toNat)
  require_arg (1 ≤ cfg.deadlock_timeout_s.toNat ∧ cfg.deadlock_timeout_s.toNat ≤ 3600)
    ("Event_Loop: deadlock_timeout_s must be in range [1, 3600], got " ++
      toString cfg.deadlock_timeout_s.toNat)

/-- The settings of a document, as the event loop accepts them. -/
def configure (root : Node) : Parse PipelineSettings := do
  let settings ← parse_settings yaml root
  event_loop_checks settings
  return settings

/-! ## Section 4: What an interval stands for -/

/-- A positive number of seconds with an optional plus sign in front and one
    of `units` behind, and its length in nanoseconds. -/
def IsInterval (units : List (List Char)) (raw : String) (d : Tick.Duration) : Prop :=
  ∃ sign digits unit : List Char, raw.toList = sign ++ digits ++ unit ∧
    (sign = [] ∨ sign = ['+']) ∧ unit ∈ units ∧ digits ≠ [] ∧ Decimal.IsNumeral digits ∧
    0 < Decimal.value digits ∧ d.nanos.toInt = Decimal.value digits * 1000000000

/-- The unit may be left out. -/
def optional_unit : List (List Char) := [[], ['s'], ['S']]

/-- The characters the loop runs over. -/
def body (raw : String) : List Char := strip_sign (strip_unit raw.toList)

def is_negative (raw : String) : Bool := (strip_unit raw.toList).head? = some '-'

/-- The digits read exceed `int64_t`, or the whole number does in
    nanoseconds. -/
def Overflows (raw : String) : Prop :=
  2 ^ 63 ≤ Decimal.value ((body raw).takeWhile Char.isDigit) ∨
    (body raw).all Char.isDigit = true ∧ 2 ^ 63 ≤ Decimal.value (body raw) * 1000000000

instance (raw : String) : Decidable (Overflows raw) := by
  unfold Overflows
  infer_instance

theorem le_ofDigitChars (v : Nat) (cs : List Char) : v ≤ Nat.ofDigitChars 10 cs v := by
  rw [Nat.ofDigitChars_eq_ofDigitChars_zero]
  have hpos : 1 * v ≤ 10 ^ cs.length * v := Nat.mul_le_mul_right v (Nat.one_le_pow _ _ (by decide))
  omega

/-- **The loop.** It stops at the first character that is no digit, and
    before that where the number read exceeds `int64_t`. -/
theorem parse_digits_eq (cs : List Char) {v : Nat} (hv : v < 2 ^ 63) :
    parse_digits v cs =
      if Nat.ofDigitChars 10 (cs.takeWhile Char.isDigit) v < 2 ^ 63 then
        .returned (if cs.all Char.isDigit then some (Nat.ofDigitChars 10 cs v : Int) else none)
      else .undefined := by
  induction cs generalizing v with
  | nil =>
    show Outcome.returned (some (v : Int)) = if Nat.ofDigitChars 10 [] v < 2 ^ 63 then _ else _
    rw [Nat.ofDigitChars_nil, if_pos hv]
    rfl
  | cons c rest ih =>
    unfold parse_digits
    by_cases hdigit : c.isDigit = true
    · obtain ⟨hlow, hhigh⟩ := Decimal.isDigit_bounds hdigit
      rw [if_pos hdigit, List.takeWhile_cons_of_pos hdigit, List.all_cons, hdigit, Bool.true_and,
        Nat.ofDigitChars_cons, Nat.ofDigitChars_cons]
      have hnext : (v : Int) * 10 + ((c.toNat : Int) - 48) =
          ((10 * v + (c.toNat - '0'.toNat) : Nat) : Int) := by
        rw [show '0'.toNat = 48 from rfl]
        omega
      by_cases hsmall : 10 * v + (c.toNat - '0'.toNat) < 2 ^ 63
      · have htens : Fits 64 ((v : Int) * 10) := by
          rw [fits_64]
          omega
        have hsum : Fits 64 ((v : Int) * 10 + ((c.toNat : Int) - 48)) := by
          rw [hnext, fits_64]
          omega
        rw [signed_of_fits htens, Outcome.returned_bind, signed_of_fits hsum,
          Outcome.returned_bind, hnext]
        exact ih hsmall
      · -- the number only grows from here
        have hlarge := le_ofDigitChars (10 * v + (c.toNat - '0'.toNat))
          (rest.takeWhile Char.isDigit)
        rw [if_neg (by omega)]
        by_cases htens : Fits 64 ((v : Int) * 10)
        · have hsum : ¬ Fits 64 ((v : Int) * 10 + ((c.toNat : Int) - 48)) := by
            rw [hnext, fits_64]
            omega
          rw [signed_of_fits htens, Outcome.returned_bind, signed_of_not_fits hsum]
          rfl
        · rw [signed_of_not_fits htens]
          rfl
    · rw [if_neg hdigit, List.takeWhile_cons_of_neg hdigit, List.all_cons,
        Bool.eq_false_iff.mpr hdigit, Bool.false_and, Nat.ofDigitChars_nil, if_pos hv]
      rfl

theorem takeWhile_of_all {cs : List Char} (h : cs.all Char.isDigit = true) :
    cs.takeWhile Char.isDigit = cs :=
  List.takeWhile_eq_self_iff.mpr (List.all_eq_true.mp h)

theorem seconds_of_fits {x : Int} (h : Fits 64 (x * 1000000000)) :
    (Tick.seconds x : Parse Tick.Duration) = .returned ⟨.ofInt (x * 1000000000)⟩ := by
  rw [Tick.seconds, signed_of_fits h, Outcome.returned_bind, Outcome.pure_eq]

theorem seconds_of_not_fits {x : Int} (h : ¬ Fits 64 (x * 1000000000)) :
    (Tick.seconds x : Parse Tick.Duration) = .undefined := by
  rw [Tick.seconds, signed_of_not_fits h, Outcome.undefined_bind]

/-- The number with its sign. -/
def with_sign (negative : Bool) (v : Nat) : Int := if negative then -(v : Int) else v

theorem signed_seconds_eq (negative : Bool) {v : Nat} (hv : v < 2 ^ 63) :
    signed_seconds negative v = Tick.seconds (with_sign negative v) := by
  unfold signed_seconds with_sign
  by_cases hneg : negative = true
  · have hfits : Fits 64 (-(v : Int)) := by
      rw [fits_64]
      omega
    rw [if_pos hneg, if_pos hneg, signed_of_fits hfits, Outcome.returned_bind]
  · rw [if_neg hneg, if_neg hneg, Outcome.pure_eq, Outcome.returned_bind]

theorem fits_seconds_iff (negative : Bool) (v : Nat) :
    Fits 64 (with_sign negative v * 1000000000) ↔ v * 1000000000 < 2 ^ 63 := by
  rw [fits_64, with_sign]
  split <;> omega

theorem parse_snapshot_interval_eq (raw : String) :
    parse_snapshot_interval raw =
      if body raw = [] then .returned ⟨0⟩
      else parse_digits 0 (body raw) >>= fun read =>
        match read with
        | none => .returned ⟨0⟩
        | some value => signed_seconds (is_negative raw) value := rfl

theorem parse_snapshot_interval_of_overflows {raw : String} (h : Overflows raw) :
    parse_snapshot_interval raw = .undefined := by
  have hbody : body raw ≠ [] := by
    intro hempty
    rw [Overflows, hempty] at h
    revert h
    decide
  have hloop := parse_digits_eq (body raw) (v := 0) (by decide)
  rw [parse_snapshot_interval_eq, if_neg hbody, ← Int.natCast_zero, hloop]
  by_cases hread : Decimal.value ((body raw).takeWhile Char.isDigit) < 2 ^ 63
  · -- the number fits, its nanoseconds do not
    obtain ⟨hall, hlarge⟩ := h.resolve_left (by omega)
    rw [Decimal.value] at hread
    rw [if_pos hread, hall, if_pos rfl, Outcome.returned_bind]
    rw [takeWhile_of_all hall] at hread
    show signed_seconds (is_negative raw) _ = _
    rw [signed_seconds_eq _ hread]
    apply seconds_of_not_fits
    rw [fits_seconds_iff]
    exact not_lt.mpr hlarge
  · rw [Decimal.value] at hread
    rw [if_neg hread]
    rfl

theorem parse_snapshot_interval_of_fits {raw : String} (h : ¬ Overflows raw) :
    parse_snapshot_interval raw =
      .returned (if body raw ≠ [] ∧ (body raw).all Char.isDigit = true then
        ⟨.ofInt (with_sign (is_negative raw) (Decimal.value (body raw)) * 1000000000)⟩
      else ⟨0⟩) := by
  rw [parse_snapshot_interval_eq]
  by_cases hbody : body raw = []
  · rw [if_pos hbody, if_neg (fun hc => hc.1 hbody)]
  · obtain ⟨hread, hsmall⟩ := not_or.mp h
    rw [Decimal.value, not_le] at hread
    have hloop := parse_digits_eq (body raw) (v := 0) (by decide)
    rw [if_neg hbody, ← Int.natCast_zero, hloop, if_pos hread, Outcome.returned_bind]
    by_cases hall : (body raw).all Char.isDigit = true
    · rw [if_pos hall, if_pos ⟨hbody, hall⟩]
      rw [takeWhile_of_all hall] at hread
      rw [not_and, not_le] at hsmall
      show signed_seconds (is_negative raw) _ = _
      rw [signed_seconds_eq _ hread]
      exact seconds_of_fits ((fits_seconds_iff _ _).mpr (hsmall hall))
    · rw [if_neg hall, if_neg fun hc => hall hc.2]

/-! ### The text and its parts -/

theorem strip_unit_append {sv unit : List Char} (hunit : unit ∈ optional_unit)
    (hs : sv.getLast? ≠ some 's') (hS : sv.getLast? ≠ some 'S') :
    strip_unit (sv ++ unit) = sv := by
  unfold strip_unit
  simp only [optional_unit, List.mem_cons, List.not_mem_nil, or_false] at hunit
  rcases hunit with rfl | rfl | rfl
  · rw [List.append_nil, if_neg (not_or.mpr ⟨hs, hS⟩)]
  · rw [List.getLast?_concat, if_pos (.inl rfl), List.dropLast_concat]
  · rw [List.getLast?_concat, if_pos (.inr rfl), List.dropLast_concat]

theorem exists_unit (cs : List Char) : ∃ unit ∈ optional_unit, cs = strip_unit cs ++ unit := by
  unfold strip_unit
  by_cases h : cs.getLast? = some 's' ∨ cs.getLast? = some 'S'
  · rw [if_pos h]
    obtain hs | hS := h
    · exact ⟨['s'], by decide, (List.dropLast_append_getLast? _ hs).symm⟩
    · exact ⟨['S'], by decide, (List.dropLast_append_getLast? _ hS).symm⟩
  · rw [if_neg h]
    exact ⟨[], by decide, (List.append_nil cs).symm⟩

theorem getLast?_ne_of_numeral {sign digits : List Char} (hne : digits ≠ [])
    (hdigits : Decimal.IsNumeral digits) {c : Char} (hc : c.isDigit = false) :
    (sign ++ digits).getLast? ≠ some c := by
  rw [List.getLast?_append_of_ne_nil _ hne]
  intro h
  rw [hdigits c (List.mem_of_getLast? h)] at hc
  cases hc

theorem head?_ne_of_numeral {digits : List Char} (hdigits : Decimal.IsNumeral digits) {c : Char}
    (hc : c.isDigit = false) : digits.head? ≠ some c := by
  intro h
  rw [hdigits c (List.mem_of_mem_head? h)] at hc
  cases hc

/-- **Reading a text back.** An interval is what the code reads as a positive
    numeral. -/
theorem isInterval_iff {raw : String} {d : Tick.Duration} :
    IsInterval optional_unit raw d ↔
      body raw ≠ [] ∧ (body raw).all Char.isDigit = true ∧ is_negative raw = false ∧
        0 < Decimal.value (body raw) ∧
        d.nanos.toInt = Decimal.value (body raw) * 1000000000 := by
  constructor
  · intro ⟨sign, digits, unit, htext, hsign, hunit, hne, hdigits, hpos, hd⟩
    have hstrip : strip_unit raw.toList = sign ++ digits := by
      rw [htext]
      exact strip_unit_append hunit (getLast?_ne_of_numeral hne hdigits (by decide))
        (getLast?_ne_of_numeral hne hdigits (by decide))
    have hminus := head?_ne_of_numeral hdigits (c := '-') (by decide)
    have hplus := head?_ne_of_numeral hdigits (c := '+') (by decide)
    have hparts : body raw = digits ∧ is_negative raw = false := by
      rw [body, is_negative, hstrip, strip_sign]
      rcases hsign with rfl | rfl
      · rw [List.nil_append, if_neg (not_or.mpr ⟨hminus, hplus⟩)]
        exact ⟨rfl, decide_eq_false hminus⟩
      · exact ⟨rfl, rfl⟩
    rw [hparts.1]
    exact ⟨hne, List.all_eq_true.mpr hdigits, hparts.2, hpos, hd⟩
  · intro ⟨hne, hall, hnegative, hpos, hd⟩
    obtain ⟨unit, hunit, htext⟩ := exists_unit raw.toList
    have hminus : (strip_unit raw.toList).head? ≠ some '-' := of_decide_eq_false hnegative
    have hsign : ∃ sign : List Char, (sign = [] ∨ sign = ['+']) ∧
        strip_unit raw.toList = sign ++ body raw := by
      unfold body strip_sign
      by_cases hplus : (strip_unit raw.toList).head? = some '+'
      · rw [if_pos (.inr hplus)]
        exact ⟨['+'], .inr rfl, (List.cons_head?_tail hplus).symm⟩
      · rw [if_neg (not_or.mpr ⟨hminus, hplus⟩)]
        exact ⟨[], .inl rfl, rfl⟩
    obtain ⟨sign, hsign, hbody⟩ := hsign
    rw [hbody] at htext
    exact ⟨sign, body raw, unit, htext, hsign, hunit, hne, List.all_eq_true.mp hall, hpos, hd⟩

/-! ## Section 5: One interval -/

theorem of_conf_eq_returned {α : Type} {x : Except Conf_Error α} {a : α} :
    of_conf x = .returned a ↔ x = .ok a := by
  cases x with
  | ok b =>
    show Outcome.returned b = .returned a ↔ Except.ok b = .ok a
    rw [Outcome.returned.injEq, Except.ok.injEq]
  | error e =>
    constructor <;> intro h <;> cases h

theorem stream_interval_of_overflows {raw : String} (h : Overflows raw) (name : String) :
    stream_interval name raw = .undefined := by
  rw [stream_interval, parse_snapshot_interval_of_overflows h, Outcome.undefined_bind]

/-- The `invalid_argument` for an interval. -/
def interval_error (name raw : String) : PipelineError :=
  .invalid_argument
    ("stream '" ++ name ++ "': snapshot_interval must be positive (got '" ++ raw ++ "')")

theorem stream_interval_eq {raw : String} {d : Tick.Duration}
    (h : parse_snapshot_interval raw = .returned d) (name : String) :
    stream_interval name raw =
      if 0 < d.nanos.toInt then .returned d else .thrown (interval_error name raw) := by
  rw [stream_interval, h, Outcome.returned_bind, require_arg]
  split <;> rfl

theorem parse_of_isInterval {raw : String} {d : Tick.Duration} (hfits : ¬ Overflows raw)
    (h : IsInterval optional_unit raw d) : parse_snapshot_interval raw = .returned d := by
  obtain ⟨hne, hall, hsign, _, hd⟩ := isInterval_iff.mp h
  rw [parse_snapshot_interval_of_fits hfits, if_pos ⟨hne, hall⟩, hsign, with_sign,
    if_neg (by decide), ← hd, Int64.ofInt_toInt]

theorem isInterval_of_positive {raw : String} {d : Tick.Duration} (hfits : ¬ Overflows raw)
    (h : parse_snapshot_interval raw = .returned d) (hpos : 0 < d.nanos.toInt) :
    IsInterval optional_unit raw d := by
  rw [parse_snapshot_interval_of_fits hfits, Outcome.returned.injEq] at h
  by_cases hnumeral : body raw ≠ [] ∧ (body raw).all Char.isDigit = true
  · have hsmall : Fits 64 (with_sign (is_negative raw) (Decimal.value (body raw)) * 1000000000) := by
      rw [fits_seconds_iff, ← not_le]
      intro hlarge
      exact hfits (.inr ⟨hnumeral.2, hlarge⟩)
    rw [if_pos hnumeral] at h
    have hnanos : d.nanos.toInt =
        with_sign (is_negative raw) (Decimal.value (body raw)) * 1000000000 := by
      rw [← h]
      exact toInt_ofInt_of_fits hsmall
    -- a minus sign leaves nothing positive
    have hsign : is_negative raw = false := by
      by_contra hc
      rw [hnanos, with_sign, if_pos ((Bool.not_eq_false _).mp hc)] at hpos
      omega
    rw [hsign, with_sign, if_neg (by decide)] at hnanos
    exact isInterval_iff.mpr ⟨hnumeral.1, hnumeral.2, hsign, by omega, hnanos⟩
  · rw [if_neg hnumeral] at h
    rw [← h] at hpos
    exact absurd hpos (by decide)

theorem IsInterval.positive {raw : String} {d : Tick.Duration}
    (h : IsInterval optional_unit raw d) : 0 < d.nanos.toInt := by
  obtain ⟨_, _, _, hpos, hd⟩ := isInterval_iff.mp h
  omega

/-- **One interval.** It is accepted exactly when it is one, with its length
    in nanoseconds. -/
theorem stream_interval_eq_returned_iff {name raw : String} {d : Tick.Duration} :
    stream_interval name raw = .returned d ↔
      ¬ Overflows raw ∧ IsInterval optional_unit raw d := by
  by_cases hfits : Overflows raw
  · rw [stream_interval_of_overflows hfits]
    constructor
    · intro h
      cases h
    · intro h
      exact absurd hfits h.1
  · rw [and_iff_right hfits]
    constructor
    · intro h
      obtain ⟨read, hread⟩ : ∃ read, parse_snapshot_interval raw = .returned read :=
        ⟨_, parse_snapshot_interval_of_fits hfits⟩
      rw [stream_interval_eq hread] at h
      split at h
      · next hpos =>
        cases h
        exact isInterval_of_positive hfits hread hpos
      · cases h
    · intro h
      rw [stream_interval_eq (parse_of_isInterval hfits h), if_pos h.positive]

theorem stream_interval_eq_thrown {name raw : String} (hfits : ¬ Overflows raw)
    (h : ∀ d, ¬ IsInterval optional_unit raw d) :
    stream_interval name raw = .thrown (interval_error name raw) := by
  obtain ⟨read, hread⟩ : ∃ read, parse_snapshot_interval raw = .returned read :=
    ⟨_, parse_snapshot_interval_of_fits hfits⟩
  rw [stream_interval_eq hread, if_neg]
  intro hpos
  exact h read (isInterval_of_positive hfits hread hpos)

/-! ## Section 6: All streams -/

theorem parse_stream_interval {root : Node} {seen_names : List String} {i : Nat}
    {desc : StreamDescriptor} (h : parse_stream root seen_names i = .returned desc) :
    ∃ raw, get_string root (stream_field i "snapshot_interval") = .ok raw ∧
      stream_interval desc.name raw = .returned desc.snapshot_interval := by
  unfold parse_stream at h
  simp only [Outcome.bind_eq_returned, of_conf_eq_returned] at h
  -- the checks of the other fields come first
  obtain ⟨_, _, name, _, _, _, _, _, _, _, _, _, _, _, _, _, _, _, _, _, _, _, _, _, _, _,
    raw, hraw, interval, hinterval, hdesc⟩ := h
  cases hdesc
  exact ⟨raw, hraw, hinterval⟩

theorem parse_streams_spec {root : Node} {streams : List StreamDescriptor}
    (h : parse_streams root = .returned streams) :
    streams.length = config_size root ["streams"] ∧
      ∀ i (hi : i < streams.length), ∃ seen_names,
        parse_stream root seen_names i = .returned streams[i] := by
  unfold parse_streams at h
  generalize config_size root ["streams"] = n at h
  induction n generalizing streams with
  | zero =>
    cases h
    exact ⟨rfl, fun i hi => absurd hi (Nat.not_lt_zero i)⟩
  | succ n ih =>
    rw [List.range_succ, List.foldlM_append, Outcome.bind_eq_returned] at h
    obtain ⟨front, hfront, hlast⟩ := h
    obtain ⟨hlength, hall⟩ := ih hfront
    rw [List.foldlM_cons, Outcome.bind_eq_returned] at hlast
    obtain ⟨streams', hlast, hstreams⟩ := hlast
    obtain ⟨desc, hdesc, hsnoc⟩ := Outcome.bind_eq_returned.mp hlast
    cases hsnoc
    cases hstreams
    refine ⟨by rw [List.length_append, hlength, List.length_singleton], ?_⟩
    intro i hi
    by_cases hold : i < front.length
    · rw [List.getElem_append_left hold]
      exact hall i hold
    · have hlast : i = front.length := by
        rw [List.length_append, List.length_singleton] at hi
        omega
      subst hlast
      rw [List.getElem_concat_length rfl, hlength]
      exact ⟨_, hdesc⟩

/-! ## Section 7: Settings -/

/-- The integer `n` is the setting `key`: it is written in decimal, or read
    by the library, which gives an `int`; without the key it is the default. -/
def Setting (yaml : Parser) (root : Node) (key : String) (default : UInt32) (n : Int) :
    Prop :=
  (has root ["settings", key] = false ∧ n = default.toNat) ∨
    ∃ text, resolve root ["settings", key] = .ok (.scalar text) ∧
      (text = toString n ∨ yaml.as_int text = some n ∧ Fits 32 n)

theorem toNat_cast {n : Int} : (Int32.ofInt n).toUInt32.toNat = (n % 2 ^ 32).toNat :=
  BitVec.toNat_ofInt n

section Settings

variable {yaml : Parser} {root : Node} {key : String} {default : UInt32} {n : Int}

theorem read_setting_of_text {text : String}
    (h : resolve root ["settings", key] = .ok (.scalar text)) :
    read_setting yaml root key default =
      match yaml.as_int text with
      | some n => .returned (Int32.ofInt n).toUInt32
      | none => .thrown (.conf (type_mismatch "cannot convert scalar to int")) := by
  have hhas : has root ["settings", key] = true := by
    rw [has, h]
  have hget : get_int yaml root ["settings", key] = convert_int yaml (.scalar text) := by
    rw [get_int, h]
    rfl
  rw [read_setting, if_pos hhas, hget, convert_int]
  cases yaml.as_int text with
  | some m => rfl
  | none => rfl

/-- **The cast.** A setting that fits an `int` is stored modulo `2 ^ 32`. -/
theorem Setting.read (h : Setting yaml root key default n) (hfits : Fits 32 n) :
    ∃ u, read_setting yaml root key default = .returned u ∧ u.toNat = (n % 2 ^ 32).toNat := by
  rcases h with ⟨hhas, hn⟩ | ⟨text, htext, hwritten⟩
  · refine ⟨default, ?_, ?_⟩
    · rw [read_setting, hhas, if_neg (by decide), Outcome.pure_eq]
    · have hlt := default.toNat_lt
      rw [hn, Int.emod_eq_of_lt (by omega) (by omega)]
      omega
  · have hint : yaml.as_int text = some n := by
      rcases hwritten with hdecimal | hread
      · rw [hdecimal, yaml.as_int_decimal, if_pos hfits]
      · exact hread.1
    rw [read_setting_of_text htext, hint]
    exact ⟨_, rfl, toNat_cast⟩

theorem Setting.refused (h : Setting yaml root key default n) (hfits : ¬ Fits 32 n)
    (hdefault : default.toNat < 2 ^ 31) (u : UInt32) :
    read_setting yaml root key default ≠ .returned u := by
  rcases h with ⟨_, hn⟩ | ⟨text, htext, hwritten⟩
  · refine absurd ?_ hfits
    rw [fits_32]
    omega
  · rcases hwritten with hdecimal | hread
    · rw [read_setting_of_text htext, hdecimal, yaml.as_int_decimal, if_neg hfits]
      intro hc
      cases hc
    · exact absurd hread.2 hfits

/-- **One setting.** The range check after the cast is the range check of the
    number itself. -/
theorem Setting.accepted_iff (h : Setting yaml root key default n)
    (hdefault : default.toNat < 2 ^ 31) {bound : Nat} (hbound : bound < 2 ^ 31) (u : UInt32) :
    (read_setting yaml root key default = .returned u ∧ 1 ≤ u.toNat ∧ u.toNat ≤ bound) ↔
      (u.toNat : Int) = n ∧ 1 ≤ n ∧ n ≤ bound := by
  by_cases hfits : Fits 32 n
  · obtain ⟨stored, hstored, hvalue⟩ := h.read hfits
    rw [hstored, Outcome.returned.injEq]
    rw [fits_32] at hfits
    constructor
    · intro ⟨heq, hlow, hhigh⟩
      subst heq
      -- a negative number is beyond every bound after the cast
      omega
    · intro ⟨hu, hlow, hhigh⟩
      exact ⟨UInt32.toNat_inj.mp (by omega), by omega, by omega⟩
  · constructor
    · intro ⟨hu, _⟩
      exact absurd hu (h.refused hfits hdefault u)
    · intro ⟨_, hrange⟩
      refine absurd ?_ hfits
      rw [fits_32]
      omega

end Settings

theorem configure_eq_returned_iff {yaml : Parser} {root : Node} {cfg : PipelineSettings} :
    configure yaml root = .returned cfg ↔
      (read_setting yaml root "max_concurrency" 64 = .returned cfg.max_concurrency ∧
        1 ≤ cfg.max_concurrency.toNat ∧ cfg.max_concurrency.toNat ≤ 1024) ∧
      (read_setting yaml root "deadlock_timeout" 30 = .returned cfg.deadlock_timeout_s ∧
        1 ≤ cfg.deadlock_timeout_s.toNat ∧ cfg.deadlock_timeout_s.toNat ≤ 3600) ∧
      read_setting yaml root "shutdown_timeout" 30 = .returned cfg.shutdown_timeout_s := by
  have hcheck : ∀ (p : Prop) [Decidable p] (what : String) (u : Unit),
      require_arg p what = .returned u ↔ p := by
    intro p _ what u
    unfold require_arg
    split
    · next hp => exact iff_of_true rfl hp
    · next hp => exact iff_of_false (fun hc => nomatch hc) hp
  simp only [configure, parse_settings, event_loop_checks, Outcome.bind_eq_returned, hcheck]
  constructor
  · intro ⟨settings, ⟨m, hm, d, hd, s, hs, hsettings⟩, u, ⟨_, hrange, hrange'⟩, hcfg⟩
    cases hsettings
    cases hcfg
    exact ⟨⟨hm, hrange⟩, ⟨hd, hrange'⟩, hs⟩
  · intro ⟨⟨hm, hrange⟩, ⟨hd, hrange'⟩, hs⟩
    exact ⟨cfg, ⟨_, hm, _, hd, _, hs, rfl⟩, (), ⟨(), hrange, hrange'⟩, rfl⟩

/-- **The numbers of a pipeline file.** -/
theorem pipeline_numbers_exact (yaml : Parser) :
    -- an interval that does not overflow
    (∀ name raw, ¬ Overflows raw →
      (∀ d, stream_interval name raw = .returned d ↔ IsInterval optional_unit raw d) ∧
      ((∀ d, ¬ IsInterval optional_unit raw d) →
        stream_interval name raw = .thrown (interval_error name raw))) ∧
    -- every stream of an accepted document
    (∀ root settings streams,
      parse_settings_and_streams yaml root = .returned (settings, streams) →
      ∀ i (hi : i < streams.length), ∃ raw,
        get_string root (stream_field i "snapshot_interval") = .ok raw ∧
        IsInterval optional_unit raw streams[i].snapshot_interval) ∧
    -- the settings
    (∀ root n k s, Setting yaml root "max_concurrency" 64 n →
      Setting yaml root "deadlock_timeout" 30 k →
      Setting yaml root "shutdown_timeout" 30 s → Fits 32 s →
      ((∃ cfg, configure yaml root = .returned cfg) ↔
        (1 ≤ n ∧ n ≤ 1024) ∧ 1 ≤ k ∧ k ≤ 3600) ∧
      ∀ cfg, configure yaml root = .returned cfg →
        cfg.max_concurrency.toNat = n ∧ cfg.deadlock_timeout_s.toNat = k) := by
  refine ⟨?_, ?_, ?_⟩
  · intro name raw hfits
    refine ⟨fun d => ?_, stream_interval_eq_thrown hfits⟩
    rw [stream_interval_eq_returned_iff, and_iff_right hfits]
  · intro root settings streams h i hi
    obtain ⟨_, _, h⟩ := Outcome.bind_eq_returned.mp h
    obtain ⟨streams', hstreams, hpair⟩ := Outcome.bind_eq_returned.mp h
    cases hpair
    obtain ⟨seen_names, hdesc⟩ := (parse_streams_spec hstreams).2 i hi
    obtain ⟨raw, hraw, hinterval⟩ := parse_stream_interval hdesc
    exact ⟨raw, hraw, (stream_interval_eq_returned_iff.mp hinterval).2⟩
  · intro root n k s hn hk hs hfits
    have hmax := hn.accepted_iff (by decide) (show 1024 < 2 ^ 31 by decide)
    have htimeout := hk.accepted_iff (by decide) (show 3600 < 2 ^ 31 by decide)
    obtain ⟨shutdown, hshutdown, _⟩ := hs.read hfits
    refine ⟨⟨?_, ?_⟩, ?_⟩
    · intro ⟨cfg, hcfg⟩
      obtain ⟨hm, hd, _⟩ := configure_eq_returned_iff.mp hcfg
      exact ⟨((hmax _).mp hm).2, ((htimeout _).mp hd).2⟩
    · intro ⟨hm, hd⟩
      obtain ⟨m, rfl⟩ := Int.eq_ofNat_of_zero_le (show 0 ≤ n by omega)
      obtain ⟨d, rfl⟩ := Int.eq_ofNat_of_zero_le (show 0 ≤ k by omega)
      have hmn : (UInt32.ofNat m).toNat = m := UInt32.toNat_ofNat_of_lt' (by
        show m < 2 ^ 32
        omega)
      have hdn : (UInt32.ofNat d).toNat = d := UInt32.toNat_ofNat_of_lt' (by
        show d < 2 ^ 32
        omega)
      exact ⟨⟨.ofNat m, .ofNat d, shutdown⟩, configure_eq_returned_iff.mpr
        ⟨(hmax _).mpr ⟨by rw [hmn], hm⟩, (htimeout _).mpr ⟨by rw [hdn], hd⟩, hshutdown⟩⟩
    · intro cfg hcfg
      obtain ⟨hm, hd, _⟩ := configure_eq_returned_iff.mp hcfg
      exact ⟨((hmax _).mp hm).1, ((htimeout _).mp hd).1⟩

theorem interval_without_unit :
    stream_interval "precip" "100" = .returned ⟨100000000000⟩ ∧
      ∀ d, ¬ IsInterval [['s'], ['S']] "100" d := by
  refine ⟨by decide +kernel, ?_⟩
  intro d ⟨sign, digits, unit, htext, _, hunit, _⟩
  have hlast : "100".toList.getLast? = some '0' := by decide
  simp only [List.mem_cons, List.not_mem_nil, or_false] at hunit
  rcases hunit with rfl | rfl
  · rw [htext, List.getLast?_concat] at hlast
    exact absurd hlast (by decide)
  · rw [htext, List.getLast?_concat] at hlast
    exact absurd hlast (by decide)

end Dagr

import Helm.Amio.ConfigRoundTrip

/-! # AMIO: the sizes of a manifest

  A size is read by an accessor for `int` and cast to `size_t`. An integer
  beyond `int` is refused by the accessor. A negative one becomes a number
  close to `2 ^ 64`, which the rules for ranges refuse. The watermarks and the
  queue capacity are compared with each other only.

  Main result: `sizes_exact_iff`, for which manifests a size that is accepted
  is the integer that is written.
-/

namespace Amio.ConfigLoader

open Yaml Conf Signed

/-! ## Section 1: Sizes -/

inductive SizeField where
  | buffer_count
  | buffer_capacity_bytes
  | max_buffer_count
  | threads
  | depth
  | read_timeout_s
  | staging_timeout_ms
  | low_watermark
  | high_watermark
  | queue_capacity
  deriving DecidableEq

namespace SizeField

def path : SizeField → List String
  | buffer_count => ["staging_pool", "buffer_count"]
  | buffer_capacity_bytes => ["staging_pool", "buffer_capacity_bytes"]
  | max_buffer_count => ["staging_pool", "max_buffer_count"]
  | threads => ["worker_pool", "threads"]
  | depth => ["prefetch", "depth"]
  | read_timeout_s => ["prefetch", "read_timeout_s"]
  | staging_timeout_ms => ["staging_timeout_ms"]
  | low_watermark => ["backpressure", "low_watermark"]
  | high_watermark => ["backpressure", "high_watermark"]
  | queue_capacity => ["backpressure", "queue_capacity"]

def stored : SizeField → Config → Nat
  | buffer_count, config => config.staging_pool.buffer_count
  | buffer_capacity_bytes, config => config.staging_pool.buffer_capacity_bytes
  | max_buffer_count, config => config.staging_pool.max_buffer_count
  | threads, config => config.worker_pool.threads
  | depth, config => config.prefetch.depth
  | read_timeout_s, config => config.prefetch.read_timeout_s
  | staging_timeout_ms, config => config.staging_timeout_ms
  | low_watermark, config => config.backpressure.low_watermark
  | high_watermark, config => config.backpressure.high_watermark
  | queue_capacity, config => config.backpressure.queue_capacity

/-- The sizes for which there is no range. -/
def is_backpressure (field : SizeField) : Prop :=
  field = low_watermark ∨ field = high_watermark ∨ field = queue_capacity

end SizeField

variable (yaml : Parser)

/-- **An integer is written** for a size: in decimal, or in another notation
    that the library reads as this integer. -/
def Written (manifest : Node) (field : SizeField) (z : Int) : Prop :=
  ∃ text, resolve manifest field.path = .ok (.scalar text) ∧
    (text = toString z ∨ yaml.as_int text = some z)

/-- **What is accepted is what is written.** -/
def SizesExact (manifest : Node) : Prop :=
  ∀ field z, Written yaml manifest field z →
    ∀ config, populate_from_conf yaml manifest = .ok config → (field.stored config : Int) = z

/-! ## Section 2: What is stored -/

variable {yaml} {manifest : Node} {config : Config} {field : SizeField} {z : Int}

theorem populate_eq_ok : populate_from_conf yaml manifest = .ok config ↔
    read_config yaml manifest = .ok config ∧ validate config = none := by
  unfold populate_from_conf
  constructor
  · intro h
    obtain ⟨read, hread, h⟩ := bind_eq_ok.mp h
    split at h
    · cases h
    · next hvalid =>
      cases h
      exact ⟨hread, hvalid⟩
  · rintro ⟨hread, hvalid⟩
    rw [hread]
    simp only [bind, Except.bind, hvalid]

theorem read_of_config (h : read_config yaml manifest = .ok config) (field : SizeField) :
    read_field manifest field.path (get_size yaml) (field.stored {}) = .ok (field.stored config) := by
  unfold read_config at h
  obtain ⟨pool, hpool, h⟩ := bind_eq_ok.mp h
  obtain ⟨workers, hworkers, h⟩ := bind_eq_ok.mp h
  obtain ⟨prefetch, hprefetch, h⟩ := bind_eq_ok.mp h
  obtain ⟨timeout, htimeout, h⟩ := bind_eq_ok.mp h
  obtain ⟨pressure, hpressure, h⟩ := bind_eq_ok.mp h
  obtain ⟨_, _, h⟩ := bind_eq_ok.mp h
  obtain ⟨_, _, h⟩ := bind_eq_ok.mp h
  obtain ⟨_, _, h⟩ := bind_eq_ok.mp h
  cases h
  obtain ⟨count, hcount, hpool⟩ := bind_eq_ok.mp hpool
  obtain ⟨capacity, hcapacity, hpool⟩ := bind_eq_ok.mp hpool
  obtain ⟨most, hmost, hpool⟩ := bind_eq_ok.mp hpool
  cases hpool
  obtain ⟨threads, hthreads, hworkers⟩ := bind_eq_ok.mp hworkers
  obtain ⟨_, _, hworkers⟩ := bind_eq_ok.mp hworkers
  obtain ⟨_, _, hworkers⟩ := bind_eq_ok.mp hworkers
  cases hworkers
  obtain ⟨depth, hdepth, hprefetch⟩ := bind_eq_ok.mp hprefetch
  obtain ⟨read_timeout, hread_timeout, hprefetch⟩ := bind_eq_ok.mp hprefetch
  cases hprefetch
  obtain ⟨low, hlow, hpressure⟩ := bind_eq_ok.mp hpressure
  obtain ⟨high, hhigh, hpressure⟩ := bind_eq_ok.mp hpressure
  obtain ⟨queue, hqueue, hpressure⟩ := bind_eq_ok.mp hpressure
  cases hpressure
  match field with
  | .buffer_count => exact hcount
  | .buffer_capacity_bytes => exact hcapacity
  | .max_buffer_count => exact hmost
  | .threads => exact hthreads
  | .depth => exact hdepth
  | .read_timeout_s => exact hread_timeout
  | .staging_timeout_ms => exact htimeout
  | .low_watermark => exact hlow
  | .high_watermark => exact hhigh
  | .queue_capacity => exact hqueue

/-- The value of the accessor is in the range of `int`. -/
def IntRange (yaml : Parser) : Prop := ∀ text z, yaml.as_int text = some z → Fits 32 z

/-- **What is stored** is the integer, wrapped to `size_t`. -/
theorem stored_of_written (hrange : IntRange yaml) (h : read_config yaml manifest = .ok config)
    (hwritten : Written yaml manifest field z) :
    Fits 32 z ∧ field.stored config = (z % 2 ^ 64).toNat := by
  obtain ⟨text, hresolve, htext⟩ := hwritten
  have hread := read_of_config h field
  rw [read_field_present hresolve, get_size, get_int, hresolve] at hread
  change (convert_int yaml (.scalar text)).map _ = _ at hread
  unfold convert_int at hread
  dsimp only at hread
  -- the accessor gives the integer, or refuses it
  have hvalue : ∀ n, yaml.as_int text = some n → n = z := by
    intro n hn
    rcases htext with htext | hz
    · rw [htext, yaml.as_int_decimal] at hn
      split at hn
      · exact (Option.some.inj hn).symm
      · cases hn
    · rw [hz] at hn
      exact (Option.some.inj hn).symm
  cases hint : yaml.as_int text with
  | none =>
    rw [hint] at hread
    cases hread
  | some n =>
    rw [hint] at hread
    have heq := hvalue n hint
    have hfits := hrange text n hint
    rw [heq] at hread hfits
    have hstored : ((Int32.ofInt z).toInt % 2 ^ 64).toNat = field.stored config :=
      Except.ok.inj hread
    rw [toInt_ofInt32_of_fits hfits] at hstored
    exact ⟨hfits, hstored.symm⟩

theorem wrapped_eq_iff (h : Fits 32 z) : (((z % 2 ^ 64).toNat : Nat) : Int) = z ↔ 0 ≤ z := by
  rw [fits_32] at h
  omega

theorem wrapped_large (h : Fits 32 z) (hneg : z < 0) : 2 ^ 63 ≤ (z % 2 ^ 64).toNat := by
  rw [fits_32] at h
  omega

/-! ## Section 3: What is refused -/

theorem small_of_valid (h : validate config = none) (hfield : ¬ field.is_backpressure) :
    field.stored config < 2 ^ 31 := by
  have hrules := rules_hold h
  unfold SizeField.is_backpressure at hfield
  match field with
  | .buffer_count => exact hrules.buffer_count
  | .buffer_capacity_bytes => exact hrules.buffer_capacity_bytes
  | .max_buffer_count => exact hrules.max_buffer_count
  | .threads => exact hrules.threads
  | .depth => exact hrules.depth
  | .read_timeout_s => exact hrules.read_timeout_s
  | .staging_timeout_ms => exact hrules.staging_timeout_ms
  | .low_watermark => exact absurd (.inl rfl) hfield
  | .high_watermark => exact absurd (.inr (.inl rfl)) hfield
  | .queue_capacity => exact absurd (.inr (.inr rfl)) hfield

theorem validate_eq_none : validate config = none ↔
    validate { config with backpressure := {} } = none ∧ watermark_rule config.backpressure = none := by
  have hdefault : watermark_rule {} = none := by decide
  unfold validate
  simp only [Option.orElse_eq_none, hdefault, true_and]
  tauto

/-- No backpressure size is negative. -/
def NoneNegative (yaml : Parser) (manifest : Node) : Prop :=
  ∀ field z, field.is_backpressure → Written yaml manifest field z → 0 ≤ z

/-- **The manifest is wrong elsewhere**: a value cannot be read, or another rule
    than that for watermarks refuses it. -/
def WrongElsewhere (yaml : Parser) (manifest : Node) : Prop :=
  ∀ config, read_config yaml manifest = .ok config →
    validate { config with backpressure := {} } ≠ none

/-- The watermarks as they are read, negative ones wrapped, are refused. -/
def WatermarksRefused (yaml : Parser) (manifest : Node) : Prop :=
  ∀ pressure, read_backpressure yaml manifest {} = .ok pressure → watermark_rule pressure ≠ none

theorem read_backpressure_of_config (h : read_config yaml manifest = .ok config) :
    read_backpressure yaml manifest {} = .ok config.backpressure := by
  unfold read_config at h
  obtain ⟨_, _, h⟩ := bind_eq_ok.mp h
  obtain ⟨_, _, h⟩ := bind_eq_ok.mp h
  obtain ⟨_, _, h⟩ := bind_eq_ok.mp h
  obtain ⟨_, _, h⟩ := bind_eq_ok.mp h
  obtain ⟨pressure, hpressure, h⟩ := bind_eq_ok.mp h
  obtain ⟨_, _, h⟩ := bind_eq_ok.mp h
  obtain ⟨_, _, h⟩ := bind_eq_ok.mp h
  obtain ⟨_, _, h⟩ := bind_eq_ok.mp h
  cases h
  exact hpressure

/-- **Exactly these manifests** are read as they are written, or refused. -/
theorem sizes_exact_iff (hrange : IntRange yaml) (manifest : Node) :
    SizesExact yaml manifest ↔
      NoneNegative yaml manifest ∨ WrongElsewhere yaml manifest ∨ WatermarksRefused yaml manifest := by
  constructor
  · intro hexact
    by_contra hnot
    rw [not_or, not_or] at hnot
    obtain ⟨hnegative, helsewhere, hrefused⟩ := hnot
    simp only [NoneNegative, WrongElsewhere, WatermarksRefused, not_forall, not_not, not_le,
      exists_prop] at hnegative helsewhere hrefused
    obtain ⟨field, z, -, hwritten, hneg⟩ := hnegative
    obtain ⟨config, hread, hvalid⟩ := helsewhere
    obtain ⟨pressure, hpressure, hwatermarks⟩ := hrefused
    rw [read_backpressure_of_config hread] at hpressure
    cases hpressure
    -- so the manifest is accepted, with a size that is not the one written
    have haccepted := populate_eq_ok.mpr ⟨hread, validate_eq_none.mpr ⟨hvalid, hwatermarks⟩⟩
    have hstored := hexact field z hwritten config haccepted
    omega
  · intro h field z hwritten config haccepted
    obtain ⟨hread, hvalid⟩ := populate_eq_ok.mp haccepted
    obtain ⟨hrest, hwatermarks⟩ := validate_eq_none.mp hvalid
    obtain ⟨hfits, hstored⟩ := stored_of_written hrange hread hwritten
    rcases h with hnone | helsewhere | hrefused
    · rw [hstored, wrapped_eq_iff hfits]
      by_cases hfield : field.is_backpressure
      · exact hnone field z hfield hwritten
      · by_contra hneg
        have hlarge := wrapped_large hfits (not_le.mp hneg)
        have hsmall := small_of_valid hvalid hfield
        omega
    · exact absurd hrest (helsewhere config hread)
    · exact absurd hwatermarks (hrefused _ (read_backpressure_of_config hread))

/-! ## Section 4: A queue capacity of -1 -/

theorem line_int_range : IntRange line_yaml := by
  intro text z h
  change line_as_int text = some z at h
  unfold line_as_int at h
  split at h
  · next x hx =>
    cases h
    obtain ⟨_, _, _, hfits, _⟩ := Decimal.from_chars_whole_iff.mp hx
    exact hfits
  · cases h

/-- A manifest with one size of the backpressure section. -/
def backpressure_manifest (key text : String) : Node :=
  .map [("backpressure", .map [(key, .scalar text)])]

theorem sizes_exact_eight : SizesExact line_yaml (backpressure_manifest "queue_capacity" "8") := by
  apply (sizes_exact_iff line_int_range _).mpr
  left
  intro field z hfield ⟨text, hresolve, htext⟩
  have height : text = "8" := by
    rcases hfield with rfl | rfl | rfl
    · cases hresolve
    · cases hresolve
    · cases hresolve
      rfl
  rw [height] at htext
  have hread : line_yaml.as_int "8" = some 8 := by decide +kernel
  rcases htext with hdecimal | hz
  · rw [hdecimal, line_yaml.as_int_decimal] at hread
    split at hread
    · have heq := Option.some.inj hread
      omega
    · cases hread
  · rw [hread] at hz
    have heq := Option.some.inj hz
    omega

/-- **A capacity of -1** is accepted as `2 ^ 64 - 1`. -/
theorem negative_capacity_accepted :
    Written line_yaml (backpressure_manifest "queue_capacity" "-1") .queue_capacity (-1) ∧
      populate_from_conf line_yaml (backpressure_manifest "queue_capacity" "-1") =
        .ok { backpressure := { queue_capacity := 18446744073709551615 } } ∧
      ¬ SizesExact line_yaml (backpressure_manifest "queue_capacity" "-1") := by
  have hwritten : Written line_yaml (backpressure_manifest "queue_capacity" "-1") .queue_capacity
      (-1) := ⟨"-1", rfl, .inl rfl⟩
  have haccepted : populate_from_conf line_yaml (backpressure_manifest "queue_capacity" "-1") =
      .ok { backpressure := { queue_capacity := 18446744073709551615 } } := by
    decide +kernel
  refine ⟨hwritten, haccepted, ?_⟩
  intro hexact
  exact absurd (hexact _ _ hwritten _ haccepted) (by decide)

end Amio.ConfigLoader

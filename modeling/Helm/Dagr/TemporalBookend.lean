import Helm.Amio.CoreInvariant
import Helm.Dagr.PipelineSettings
import Helm.Framework.ArrayLoops
import Helm.Framework.Interpolant
import Helm.Tick.AliasingWindows

/-! # Temporal bookends

  A bookend task of DAGR fetches the two snapshots around an instant from
  AMIO and hands them, with the weight that TICK has found, to a kernel of
  BLEND. Each engine sees one call; what the tasks write over time is a
  property of the three together.

  For a dataset that shows the snapshots of a series, the tasks of a linear
  stream write its piecewise linear interpolant: `bookends_interpolate`. Those
  of a step stream write the snapshot next to the instant: `bookends_snap`.
-/

namespace Blend

open ArrayLoops

/-! ## Section 1: Kernels -/

inductive BlendProfile
  | Linear | Step
  deriving DecidableEq

/-- `span::FieldView`: the memory from a pointer on, and the number of elements. -/
structure FieldView where
  data : Nat → ℚ
  extent : Nat

/-- The loop of both kernels: iteration `i` stores element `i` of the target. -/
def parallel_for (order : ∀ n, Schedule n) (n : Nat) (element : Nat → ℚ) (target : Nat → ℚ) :
    Nat → ℚ :=
  assign (order n).order (fun _ => true) (fun i : Fin n => (i : Nat))
    (fun i : Fin n => element i) target

/-- The check that both kernels make first. -/
def extents_agree (kernel : String) (left right target : FieldView) : Except String Unit :=
  if right.extent ≠ left.extent ∨ target.extent ≠ left.extent then
    .error (kernel ++ ": extent mismatch — left(" ++ toString left.extent ++ "), right(" ++
      toString right.extent ++ "), target(" ++ toString target.extent ++ ")")
  else .ok ()

/-- `LinearBlendKernel::apply` -/
def linear_blend (order : ∀ n, Schedule n) (left right target : FieldView) (alpha : ℚ) :
    Except String (Nat → ℚ) := do
  extents_agree "LinearBlendKernel" left right target
  let one_minus_alpha := 1 - alpha
  return parallel_for order left.extent
    (fun i => left.data i * one_minus_alpha + right.data i * alpha) target.data

/-- `StepBlendKernel::apply` -/
def step_blend (order : ∀ n, Schedule n) (left right target : FieldView) (alpha : ℚ) :
    Except String (Nat → ℚ) := do
  extents_agree "StepBlendKernel" left right target
  let snap_right := decide (alpha ≥ 1 / 2)
  return parallel_for order left.extent
    (fun i => if snap_right then right.data i else left.data i) target.data

def execute_blend (order : ∀ n, Schedule n) (left right target : FieldView) (alpha : ℚ) :
    BlendProfile → Except String (Nat → ℚ)
  | .Linear => linear_blend order left right target alpha
  | .Step => step_blend order left right target alpha

/-- `dispatch_blend`, which is linked in: two sources and the output as
    pointers, the number of elements, the weight and the tag of the kernel. -/
abbrev Dispatch := (Nat → ℚ) → (Nat → ℚ) → (Nat → ℚ) → Nat → ℚ → Int → Except String (Nat → ℚ)

/-- It views `count` elements behind each pointer and runs the kernel of the
    tag, in some order of the iterations. -/
def Dispatch.Executes (dispatch_blend : Dispatch) : Prop :=
  ∀ left right out count alpha, ∃ order : ∀ n, Schedule n,
    dispatch_blend left right out count alpha 0 =
      execute_blend order ⟨left, count⟩ ⟨right, count⟩ ⟨out, count⟩ alpha .Linear ∧
    dispatch_blend left right out count alpha 1 =
      execute_blend order ⟨left, count⟩ ⟨right, count⟩ ⟨out, count⟩ alpha .Step

section Kernels

variable {order : ∀ n, Schedule n} {n : Nat} {element target : Nat → ℚ}

theorem parallel_for_of_lt {i : Nat} (hi : i < n) :
    parallel_for order n element target i = element i := by
  let k : Fin n := ⟨i, hi⟩
  show assign (order n).order (fun _ => true) (fun i : Fin n => (i : Nat))
    (fun i : Fin n => element i) target (k : Nat) = element k
  exact assign_of_hit Fin.val_injective ((order n).mem k) rfl

theorem extents_agree_self (kernel : String) {left right target : Nat → ℚ} :
    extents_agree kernel ⟨left, n⟩ ⟨right, n⟩ ⟨target, n⟩ = .ok () := by
  simp [extents_agree]

end Kernels

end Blend

namespace Amio

/-- `amio_strerror` of the codes other than `AMIO_OK`. -/
def amio_strerror : AmioStatus → String
  | .ERR_NULL_HANDLE => "AMIO_ERR_NULL_HANDLE: null opaque handle"
  | .ERR_INVALID_HANDLE => "AMIO_ERR_INVALID_HANDLE: handle never initialized, finalized, " ++
      "released, or stale (generation mismatch)"
  | .ERR_MANIFEST_NOT_FOUND => "AMIO_ERR_MANIFEST_NOT_FOUND: manifest path missing or unreadable"
  | .ERR_MANIFEST_INVALID => "AMIO_ERR_MANIFEST_INVALID: manifest failed schema validation"
  | .ERR_ALREADY_INITIALIZED => "AMIO_ERR_ALREADY_INITIALIZED: amio_init invoked twice on the " ++
      "same handle"
  | .ERR_FINALIZE_TIMEOUT => "AMIO_ERR_FINALIZE_TIMEOUT: finalize drain phase exceeded its " ++
      "30-second bound"
  | .ERR_STAGING_BACKPRESSURE => "AMIO_ERR_STAGING_BACKPRESSURE: no staging buffer became " ++
      "available within the configured staging timeout"
  | .ERR_INVALID_BINDING => "AMIO_ERR_INVALID_BINDING: requested CPU core or NUMA domain is not " ++
      "present or not permitted"
  | .ERR_COMM_SPLIT_FAILED => "AMIO_ERR_COMM_SPLIT_FAILED: MPI communicator split failed or I/O " ++
      "rank set is not a subset of world"
  | .ERR_THREADING_UNSUPPORTED => "AMIO_ERR_THREADING_UNSUPPORTED: host did not initialize MPI " ++
      "with at least MPI_THREAD_MULTIPLE"
  | .ERR_UNKNOWN_BACKEND => "AMIO_ERR_UNKNOWN_BACKEND: configuration backend key does not match " ++
      "any registered driver"
  | .ERR_LOSSY_CODEC_FORBIDDEN => "AMIO_ERR_LOSSY_CODEC_FORBIDDEN: requested codec is not on the " ++
      "lossless allow-list"
  | .ERR_VIEWS_OUTSTANDING => "AMIO_ERR_VIEWS_OUTSTANDING: dataset close called while one or " ++
      "more Memory_Views are still outstanding"
  | .ERR_QUEUE_FULL => "AMIO_ERR_QUEUE_FULL: worker queue depth would exceed capacity and " ++
      "backpressure is not configured"
  | .ERR_TIMEOUT => "AMIO_ERR_TIMEOUT: synchronous wait, flush, or read exceeded its configured " ++
      "timeout"
  | .ERR_BACKEND_FAILURE => "AMIO_ERR_BACKEND_FAILURE: backend driver reported a serialization " ++
      "or deserialization failure"
  | .ERR_INVALID_INPUT => "AMIO_ERR_INVALID_INPUT: null host pointer, unsupported dtype, or " ++
      "invalid shape descriptor"

end Amio

namespace Dagr

open Amio Amio.Boundary Tick Interpolant

/-! ## Section 2: The task -/

def to_blend_profile_tag : TemporalProfile → Int
  | .linear => 0
  | .step => 1

def to_tick_oob_policy : OutOfBoundsPolicy → Tick.OutOfBoundsPolicy
  | .clamp => .clamp_to_edge
  | .cycle => .cycle_last_year

/-- What the driver and the queue answer during one `amio_read`. -/
structure ReadAnswers where
  described : Option Boundary.VariableInfo
  fetched : Except AmioStatus Nat
  queue : QueueTables

/-- The staging buffers: their sizes in bytes and the numbers in them. -/
structure StagingMemory where
  byte_size : Nat → Nat
  contents : Nat → Nat → ℚ

/-- `Fetched_View` -/
structure FetchedView where
  data : Nat → ℚ
  element_count : Nat
  handle : Token

def amio_fetch_field (memory : StagingMemory) (w : World) (dataset : Token) (var_name : String)
    (timestep : Int) (answers : ReadAnswers) : Option (Except String FetchedView × World) :=
  match w.call (.dataset dataset true
      (.read var_name timestep none answers.described answers.fetched answers.queue)) with
  | some (.error rc, w) =>
    some (.error ("AMIO fetch failure for variable '" ++ var_name ++ "' at timestep " ++
      toString timestep ++ ": " ++ amio_strerror rc), w)
  | some (.ok (.handle view_handle), w) =>
    match w.call (.view view_handle true .data) with
    | some (.error rc, w) => some (.error ("AMIO view_data failure: " ++ amio_strerror rc), w)
    | some (.ok (.data raw_data), w) =>
      -- the size of a double is eight bytes
      some (.ok ⟨memory.contents raw_data, memory.byte_size raw_data / 8, view_handle⟩, w)
    | _ => none
  | _ => none

/-- `dispatch_temporal_bookend`. It does not compare `output_count` with the
    numbers of elements that it has fetched, and keeps no handle. -/
def dispatch_temporal_bookend (dispatch_blend : Blend.Dispatch) (memory : StagingMemory)
    (stream : StreamDescriptor) (aliased : AliasedWindow) (w : World) (dataset : Token)
    (var_name : String) (t_left_step t_right_step : Int) (left right : ReadAnswers)
    (output : Nat → ℚ) (output_count : Nat) : Option (Except String (Nat → ℚ) × World) :=
  match amio_fetch_field memory w dataset var_name t_left_step left with
  | none => none
  | some (.error e, w) => some (.error e, w)
  | some (.ok left_view, w) =>
    match amio_fetch_field memory w dataset var_name t_right_step right with
    | none => none
    | some (.error e, w) => some (.error e, w)
    | some (.ok right_view, w) =>
      some (dispatch_blend left_view.data right_view.data output output_count aliased.alpha
        (to_blend_profile_tag stream.temporal_profile), w)

/-! ## Section 3: What a task reads -/

section Fetch

variable {memory : StagingMemory} {w w' : World} {dataset : Token} {var_name : String}
  {timestep : Int} {answers : ReadAnswers}

/-- A read that succeeds makes a view of the buffer that it was answered. -/
theorem call_read_ok {out : Output} (h : w.call (.dataset dataset true
      (.read var_name timestep none answers.described answers.fetched answers.queue)) =
        some (.ok out, w')) :
    ∃ d record buf contents, w.table.table.lookup dataset .Dataset = .ok (some (.dataset d)) ∧
      w.dataset? d = some record ∧ answers.fetched = .ok buf ∧
      out = .handle (w.new_view d record.core).2 ∧
      w'.toHandles = (w.new_view d record.core).1 ∧
      w'.view_contents w.views.length = some contents ∧ contents.staging_buf = buf := by
  simp only [World.call, if_true, World.kind_dispatch] at h
  split at h
  · cases h
  · cases h
  next payload hlookup =>
  split at h
  case h_2 => cases h
  next d =>
  simp only [World.run_dataset, World.read] at h
  -- each refusal ends in an error
  split at h
  · cases h
  next record hrecord =>
  split at h
  · cases h
  split at h
  · cases h
  split at h
  · cases h
  split at h
  · cases h
  · cases h
  split at h
  · cases h
  · cases h
  next buf _ hbuf =>
  cases h
  exact ⟨d, record, buf, _, hlookup, hrecord, hbuf, rfl, rfl, Function.update_self _ _ _, rfl⟩

/-- The view that was made last is the one behind its handle. -/
theorem lookup_new_view (hh : HandlesInv w.toHandles) {d c : Nat} {p : Option Boundary.Payload}
    (hlookup : (w.new_view d c).1.table.table.lookup (w.new_view d c).2 .View = .ok p) :
    p = some (.view w.views.length) := by
  have htable : TableInv (w.new_view d c).1.table := hh.table.insert .View _
  have hlive := (htable.lookup_iff _ _ _).mp hlookup
  have hnew : ((w.new_view d c).2, .View, some (.view w.views.length)) ∈
      (w.new_view d c).1.table.handles :=
    TableState.mem_insert.mpr (.inr ⟨htable.live_ne_zero hlive, rfl, rfl, rfl⟩)
  exact (htable.live_unique hlive hnew).2

/-- A fetch that succeeds has read the buffer that it was answered. -/
theorem amio_fetch_field_ok (hh : HandlesInv w.toHandles) {view : FetchedView}
    (h : amio_fetch_field memory w dataset var_name timestep answers = some (.ok view, w')) :
    ∃ d record buf, w.table.table.lookup dataset .Dataset = .ok (some (.dataset d)) ∧
      w.dataset? d = some record ∧ answers.fetched = .ok buf ∧
      view.data = memory.contents buf ∧ view.handle = (w.new_view d record.core).2 ∧
      w'.toHandles = (w.new_view d record.core).1 := by
  unfold amio_fetch_field at h
  split at h
  · cases h
  next view_handle w₁ hread =>
    obtain ⟨d, record, buf, contents, hdataset, hrecord, hbuf, hout, hw₁, hcontents, hstaging⟩ :=
      call_read_ok hread
    cases hout
    split at h
    · cases h
    next raw_data w₂ hdata =>
      cases h
      -- the call goes to the new view
      simp only [World.call, if_true, World.kind_dispatch] at hdata
      split at hdata
      · cases hdata
      · cases hdata
      next payload hlookup =>
      rw [hw₁] at hlookup
      cases lookup_new_view hh hlookup
      simp only [World.run_view, World.view_data] at hdata
      split at hdata
      · cases hdata
      split at hdata
      next hshown =>
        rw [hcontents] at hshown
        cases hshown
        cases hdata
        exact ⟨d, record, buf, hdataset, hrecord, hbuf, by rw [hstaging], rfl, hw₁⟩
      · cases hdata
    · cases h
  · cases h

end Fetch

/-! ## Section 4: What the tasks write -/

section Series

variable {sim ds : Calendar} {dispatch_blend : Blend.Dispatch} {stream : StreamDescriptor}
  {e : AliasingEngine sim ds} {series : Int → Nat → ℚ} {count : Nat} {t : TimePoint}
  {out : Nat → ℚ}

/-- The buffer of the answer shows a field. -/
def Shows (memory : StagingMemory) (answers : ReadAnswers) (field : Nat → ℚ) (count : Nat) :
    Prop :=
  ∃ buf, answers.fetched = .ok buf ∧ ∀ i < count, memory.contents buf i = field i

/-- A task at `t` has written `out`. Snapshot `k` of the series belongs to the
    `k`-th instant of the coverage, and what it fetched were the snapshots of
    the window that TICK has found. -/
def Bookended (dispatch_blend : Blend.Dispatch) (stream : StreamDescriptor)
    (e : AliasingEngine sim ds) (series : Int → Nat → ℚ) (count : Nat) (t : TimePoint)
    (out : Nat → ℚ) : Prop :=
  ∃ (memory : StagingMemory) (aliased : AliasedWindow) (w w' : World) (dataset : Token)
    (var_name : String) (t_left_step t_right_step k : Int) (left right : ReadAnswers)
    (output : Nat → ℚ), boundary.Reachable w ∧ e.resolve t = .returned aliased ∧
    aliased.window.start.nanos.toInt =
      e.coverage.start.nanos.toInt + k * e.snapshot_interval.nanos.toInt ∧
    Shows memory left (series k) count ∧ Shows memory right (series (k + 1)) count ∧
    dispatch_temporal_bookend dispatch_blend memory stream aliased w dataset var_name
      t_left_step t_right_step left right output count = some (.ok out, w')

theorem amio_fetch_field_shows {memory : StagingMemory} {w w' : World} {dataset : Token}
    {var_name : String} {timestep : Int} {answers : ReadAnswers} {view : FetchedView}
    {field : Nat → ℚ} (hh : HandlesInv w.toHandles) (hshows : Shows memory answers field count)
    (h : amio_fetch_field memory w dataset var_name timestep answers = some (.ok view, w')) :
    HandlesInv w'.toHandles ∧ ∀ i < count, view.data i = field i := by
  obtain ⟨d, record, buf, -, hrecord, hbuf, hdata, -, hw'⟩ := amio_fetch_field_ok hh h
  obtain ⟨buf', hbuf', hfield⟩ := hshows
  rw [hbuf] at hbuf'
  cases hbuf'
  constructor
  · rw [hw']
    exact hh.new_view hrecord
  · intro i hi
    rw [hdata]
    exact hfield i hi

/-- What a task hands to the kernel. -/
theorem Bookended.kernel_call (h : Bookended dispatch_blend stream e series count t out) :
    ∃ aliased k left right output, e.resolve t = .returned aliased ∧
      aliased.window.start.nanos.toInt =
        e.coverage.start.nanos.toInt + k * e.snapshot_interval.nanos.toInt ∧
      (∀ i < count, left i = series k i) ∧ (∀ i < count, right i = series (k + 1) i) ∧
      dispatch_blend left right output count aliased.alpha
        (to_blend_profile_tag stream.temporal_profile) = .ok out := by
  obtain ⟨memory, aliased, w, w', dataset, var_name, t_left_step, t_right_step, k, left, right,
    output, hr, hresolve, hstart, hleft, hright, hdispatch⟩ := h
  unfold dispatch_temporal_bookend at hdispatch
  -- a task that has written something has fetched both bookends
  split at hdispatch
  · cases hdispatch
  · cases hdispatch
  next left_view w₁ hfetch =>
  split at hdispatch
  · cases hdispatch
  · cases hdispatch
  next right_view w₂ hfetch' =>
  obtain ⟨hh, hleft⟩ := amio_fetch_field_shows (handles_inv_reachable hr) hleft hfetch
  obtain ⟨-, hright⟩ := amio_fetch_field_shows hh hright hfetch'
  simp only [Option.some.injEq, Prod.mk.injEq] at hdispatch
  exact ⟨aliased, k, left_view.data, right_view.data, output, hresolve, hstart, hleft, hright,
    hdispatch.1⟩

/-- The position of an instant on the grid of the snapshots. -/
def position (e : AliasingEngine sim ds) (t : TimePoint) : Int :=
  t.nanos.toInt - e.coverage.start.nanos.toInt

theorem linear_kernel (hblend : dispatch_blend.Executes) {left right output : Nat → ℚ} {alpha : ℚ}
    (h : dispatch_blend left right output count alpha 0 = .ok out) :
    ∀ i < count, out i = blend (left i) (right i) alpha := by
  obtain ⟨order, hlinear, -⟩ := hblend left right output count alpha
  simp only [hlinear, Blend.execute_blend, Blend.linear_blend, Blend.extents_agree_self] at h
  cases h
  exact fun i hi => Blend.parallel_for_of_lt hi

theorem step_kernel (hblend : dispatch_blend.Executes) {left right output : Nat → ℚ} {alpha : ℚ}
    (h : dispatch_blend left right output count alpha 1 = .ok out) :
    ∀ i < count, out i = if alpha ≥ 1 / 2 then right i else left i := by
  obtain ⟨order, -, hstep⟩ := hblend left right output count alpha
  simp only [hstep, Blend.execute_blend, Blend.step_blend, Blend.extents_agree_self] at h
  cases h
  intro i hi
  rw [Blend.parallel_for_of_lt hi]
  simp

theorem to_tick_oob_policy_searches (policy : OutOfBoundsPolicy) :
    to_tick_oob_policy policy ≠ .pure_climatology ∧ to_tick_oob_policy policy ≠ .leap_hold := by
  cases policy with
  | clamp => simp [to_tick_oob_policy]
  | cycle => simp [to_tick_oob_policy]

/-- In the coverage, both policies of a stream search the window of the grid. -/
theorem Bookended.in_coverage (h : Bookended dispatch_blend stream e series count t out)
    (hpolicy : e.policy = to_tick_oob_policy stream.oob_policy)
    (hin : e.coverage.contains t = true) :
    ∃ left right output, (∀ i < count, left i = series (position e t /
        e.snapshot_interval.nanos.toInt) i) ∧
      (∀ i < count, right i = series (position e t / e.snapshot_interval.nanos.toInt + 1) i) ∧
      dispatch_blend left right output count
        (((position e t % e.snapshot_interval.nanos.toInt : Int) : ℚ) /
          (e.snapshot_interval.nanos.toInt : ℚ))
        (to_blend_profile_tag stream.temporal_profile) = .ok out := by
  obtain ⟨aliased, k, left, right, output, hresolve, hstart, hleft, hright, hcall⟩ := h.kernel_call
  obtain ⟨hclimatology, hleap⟩ := to_tick_oob_policy_searches stream.oob_policy
  rw [← hpolicy] at hclimatology hleap
  have hsearch : e.resolve t = e.resolve_in_bounds t :=
    AliasingEngine.resolve_of_in_bounds hclimatology hin fun h => absurd h hleap
  obtain ⟨found, hfound, hspec⟩ := AliasingEngine.resolve_in_bounds_interpolates hin
  rw [hsearch, hfound] at hresolve
  cases hresolve
  have hpos := e.interval_pos
  -- the window is the cell of the instant
  obtain ⟨hlo, hhi⟩ : aliased.window.start.nanos.toInt ≤ t.nanos.toInt ∧
      t.nanos.toInt < aliased.window.stop.nanos.toInt := by
    simpa [TimeWindow.contains] using hspec.encloses
  have hlength := hspec.snapshot.length
  have hcell : position e t / e.snapshot_interval.nanos.toInt = k := by
    apply ediv_unique hpos
    · unfold position
      omega
    · rw [add_mul, one_mul]
      unfold position
      omega
  have hrem : position e t % e.snapshot_interval.nanos.toInt =
      t.nanos.toInt - aliased.window.start.nanos.toInt := by
    rw [Int.emod_def, hcell, mul_comm]
    unfold position
    omega
  rw [hcell, hrem, ← hspec.alpha_eq]
  exact ⟨left, right, output, hleft, hright, hcall⟩

/-- Out of the coverage, a clamped stream holds the left snapshot of the first or
    of the last window. -/
theorem Bookended.at_edge (h : Bookended dispatch_blend stream e series count t out)
    (hpolicy : e.policy = .clamp_to_edge) (hout : ¬ e.coverage.contains t = true) :
    ∃ k left right output, (∀ i < count, left i = series k i) ∧
      dispatch_blend left right output count 0 (to_blend_profile_tag stream.temporal_profile) =
        .ok out ∧
      (t.nanos.toInt < e.coverage.start.nanos.toInt → k = 0) ∧
      (e.coverage.stop.nanos.toInt ≤ t.nanos.toInt → e.coverage.stop.nanos.toInt =
        e.coverage.start.nanos.toInt + (k + 1) * e.snapshot_interval.nanos.toInt) := by
  obtain ⟨aliased, k, left, right, output, hresolve, hstart, hleft, -, hcall⟩ := h.kernel_call
  have hpos := e.interval_pos
  -- the edge window has weight zero, so that the kernel takes the left bookend
  have hedge : e.HoldsEdge t aliased := by
    obtain ⟨held, hheld, hspec⟩ : ∃ r, e.resolve_clamp t = .returned r ∧ e.HoldsEdge t r := by
      rw [AliasingEngine.contains_iff_covered] at hout
      by_cases hpast : e.coverage.stop.nanos.toInt ≤ t.nanos.toInt
      · exact AliasingEngine.resolve_clamp_past hpast
      · exact AliasingEngine.resolve_clamp_before (by omega)
    rw [AliasingEngine.resolve_of_clamp_to_edge hpolicy, hheld] at hresolve
    cases hresolve
    exact hspec
  rw [hedge.alpha_eq] at hcall
  refine ⟨k, left, right, output, hleft, hcall, ?_, ?_⟩
  · intro hbefore
    rw [hedge.first hbefore] at hstart
    have hzero : k * e.snapshot_interval.nanos.toInt = 0 := by omega
    exact (mul_eq_zero.mp hzero).resolve_right hpos.ne'
  · intro hpast
    have hlength := hedge.snapshot.length
    rw [hedge.last hpast] at hlength
    rw [add_mul, one_mul]
    omega

theorem Bookended.linear (h : Bookended dispatch_blend stream e series count t out)
    (hblend : dispatch_blend.Executes)
    (hpolicy : e.policy = to_tick_oob_policy stream.oob_policy)
    (hprofile : stream.temporal_profile = .linear) (hin : e.coverage.contains t = true) :
    ∀ i < count, out i = interpolant (fun k => series k i) e.snapshot_interval.nanos.toInt
      (position e t) := by
  intro i hi
  obtain ⟨left, right, output, hleft, hright, hcall⟩ := h.in_coverage hpolicy hin
  rw [hprofile] at hcall
  rw [linear_kernel hblend hcall i hi, hleft i hi, hright i hi]
  rfl

theorem Bookended.linear_edge (h : Bookended dispatch_blend stream e series count t out)
    (hblend : dispatch_blend.Executes) (hpolicy : e.policy = .clamp_to_edge)
    (hprofile : stream.temporal_profile = .linear) (hout : ¬ e.coverage.contains t = true) :
    ∀ i < count, (t.nanos.toInt < e.coverage.start.nanos.toInt → out i = series 0 i) ∧
      ∀ k, e.coverage.stop.nanos.toInt =
          e.coverage.start.nanos.toInt + (k + 1) * e.snapshot_interval.nanos.toInt →
        e.coverage.stop.nanos.toInt ≤ t.nanos.toInt → out i = series k i := by
  intro i hi
  obtain ⟨held, left, right, output, hleft, hcall, hfirst, hlast⟩ := h.at_edge hpolicy hout
  rw [hprofile] at hcall
  have hheld : out i = series held i := by
    rw [linear_kernel hblend hcall i hi, blend_zero, hleft i hi]
  rw [hheld]
  constructor
  · intro hbefore
    rw [hfirst hbefore]
  · intro k hk hpast
    have hsame : (held + 1) * e.snapshot_interval.nanos.toInt =
        (k + 1) * e.snapshot_interval.nanos.toInt :=
      Int.add_left_cancel ((hlast hpast).symm.trans hk)
    rw [add_right_cancel (Int.eq_of_mul_eq_mul_right e.interval_pos.ne' hsame)]

/-- Iteration after iteration. -/
def serial_blend : Blend.Dispatch := fun left right out count alpha profile_tag =>
  Blend.execute_blend ArrayLoops.Schedule.serial ⟨left, count⟩ ⟨right, count⟩ ⟨out, count⟩ alpha
    (if profile_tag = 0 then .Linear else .Step)

theorem serial_blend_executes : serial_blend.Executes :=
  fun _ _ _ _ _ => ⟨ArrayLoops.Schedule.serial, rfl, rfl⟩

/-- A stream of daily snapshots. -/
def daily_stream (temporal_profile : TemporalProfile) : StreamDescriptor where
  name := "temperature"
  temporal_profile
  oob_policy := .clamp
  dataset_path := "temperature.zarr"
  snapshot_interval := ⟨86400000000000⟩

theorem daily_engine_made (profile : TemporalProfile) :
    (AliasingEngine.make .Gregorian .NoLeap ⟨⟨0⟩, ⟨315360000000000000⟩, by decide⟩
      ⟨86400000000000⟩ (to_tick_oob_policy (daily_stream profile).oob_policy) 0 :
        Cpp (AliasingEngine .Gregorian .NoLeap)) =
      .returned (AliasingEngine.daily_engine .Gregorian .NoLeap .clamp_to_edge) := by
  apply (AliasingEngine.make_eq_returned_iff (by simp [daily_stream, to_tick_oob_policy])).mpr
  exact ⟨rfl, rfl, rfl, rfl⟩

/-- A read that is answered with buffer `buf`, which holds the constant `buf`. -/
def constant (buf : Nat) : ReadAnswers := ⟨some ⟨.F64, ⟨1, fun _ => 1, fun _ => 0⟩, 2⟩, .ok buf, {}⟩

def constants : StagingMemory := ⟨fun _ => 8, fun buf _ => (buf : ℚ)⟩

/-- Snapshot `k` is the constant `k`; the task runs at noon of the first day. -/
theorem bookended_at_noon (profile : TemporalProfile) : ∃ out,
    Bookended serial_blend (daily_stream profile)
      (AliasingEngine.daily_engine .Gregorian .NoLeap .clamp_to_edge) (fun k _ => (k : ℚ)) 1
      ⟨43200000000000⟩ out := by
  obtain ⟨aliased, hret, hstart, -⟩ := AliasingEngine.resolve_in_bounds_covered
    (e := AliasingEngine.daily_engine .Gregorian .NoLeap .clamp_to_edge) (t := ⟨43200000000000⟩)
    (by decide) (by decide)
  have hrun : ∃ w, LTS.System.exec World.next .empty
      [.call (.init true (.ok false)),
       .call (.core (HandleTable.pack 0 1) true (.open_dataset AMIO_MODE_READ (.ok ())))] = some w ∧
      ∃ left right w', dispatch_temporal_bookend serial_blend
        constants (daily_stream profile) aliased w
        (HandleTable.pack 1 1) "t" 0 1 (constant 0) (constant 1) (fun _ => 0) 1 =
          some (serial_blend left right (fun _ => 0) 1 aliased.alpha
            (to_blend_profile_tag profile), w') := ⟨_, rfl, _, _, _, rfl⟩
  obtain ⟨w, hexec, left, right, w', hdispatch⟩ := hrun
  obtain ⟨out, hout⟩ : ∃ out, serial_blend left right (fun _ => 0) 1 aliased.alpha
      (to_blend_profile_tag profile) = .ok out := by
    cases profile with
    | linear => exact ⟨_, rfl⟩
    | step => exact ⟨_, rfl⟩
  rw [hout] at hdispatch
  refine ⟨out, _, aliased, w, w', _, _, _, _, 0, _, _, _,
    LTS.System.reachable_of_exec rfl hexec, ?_, ?_, ⟨0, rfl, ?_⟩, ⟨1, rfl, ?_⟩, hdispatch⟩
  · rw [AliasingEngine.resolve_of_clamp_to_edge rfl,
      AliasingEngine.resolve_clamp_of_contains (by decide), hret]
  · rw [hstart]
    decide
  · simp [constants]
  · simp [constants]

end Series

end Dagr

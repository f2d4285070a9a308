import Helm.Axis.RectOverlaps

/-! # AXIS: the bilinear kernel

  A point on a regular grid has four cells around it. Each direction is
  looked at on its own: a position `f`, counted in cells from the center of
  the first, is between the centers `i` and `i + 1`, and `t` of the way. At
  the edges `i` and `t` are clamped, and then `i + t` is the nearest position
  between the outermost centers (`clamped_add_unit`).

  The kernel counts the columns and rows as `int`. What it computes is right
  for all points exactly when the numbers of columns and rows fit
  (`correct_iff_sizes_fit`).
-/

namespace Axis

open Signed Segments ArrayLoops

namespace WeightGenerator.Meshes

/-! ## Section 1: One direction -/

section Direction

variable {n : Nat} {f : ℚ}

/-- The index before a position, clamped. -/
def clamped (n : Nat) (i : Int) : Int := max 0 (min i (n - 2))

theorem clamp_index_eq {i : Int} (hn : n < 2 ^ 31) (hpos : 1 ≤ n) :
    clamp_index n i = .returned (clamped n i) := by
  have hlast : Fits 32 ((n : Int) - 1) := fits_32.mpr (by omega)
  have hlast' : Fits 32 ((n : Int) - 2) := fits_32.mpr (by omega)
  unfold clamp_index clamped
  dsimp only
  rw [to_int_of_lt hn, signed_of_fits hlast, Outcome.returned_bind]
  split
  · rw [signed_of_fits hlast', Outcome.returned_bind, Outcome.pure_eq]
    congr 1
    omega
  · rw [Outcome.pure_eq]
    congr 1
    omega

theorem clamped_bounds {i : Int} (hpos : 1 ≤ n) : 0 ≤ clamped n i ∧ clamped n i < n := by
  unfold clamped
  omega

theorem clamp_unit_bounds (t : ℚ) : 0 ≤ clamp_unit t ∧ clamp_unit t ≤ 1 := by
  unfold clamp_unit
  exact ⟨le_max_left _ _, max_le zero_le_one (min_le_left _ _)⟩

theorem clamp_unit_of_mem {t : ℚ} (h : 0 ≤ t ∧ t ≤ 1) : clamp_unit t = t := by
  unfold clamp_unit
  rw [min_eq_right h.2, max_eq_right h.1]

theorem clamp_unit_of_nonpos {t : ℚ} (h : t ≤ 0) : clamp_unit t = 0 := by
  unfold clamp_unit
  exact max_eq_left ((min_le_right _ _).trans h)

theorem clamp_unit_of_one_le {t : ℚ} (h : 1 ≤ t) : clamp_unit t = 1 := by
  unfold clamp_unit
  rw [min_eq_left h, max_eq_right zero_le_one]

/-- The nearest position between the outermost centers. -/
def nearest_position (n : Nat) (f : ℚ) : ℚ := max 0 (min f (n - 1))

/-- **Clamping the index and the part of the way is clamping the position.** -/
theorem clamped_add_unit (hn : 2 ≤ n) :
    (clamped n ⌊f⌋ : ℚ) + clamp_unit (f - clamped n ⌊f⌋) = nearest_position n f := by
  have hcast : (2 : ℚ) ≤ n := by exact_mod_cast hn
  unfold nearest_position
  rcases lt_or_ge f 0 with hneg | hnonneg
  · -- before the first center
    have hfloor : ⌊f⌋ < 0 := Int.floor_lt.mpr (by simpa using hneg)
    have hzero : clamped n ⌊f⌋ = 0 := by
      unfold clamped
      omega
    rw [hzero, Int.cast_zero, sub_zero, clamp_unit_of_nonpos hneg.le, add_zero,
      max_eq_left ((min_le_left _ _).trans hneg.le)]
  have hle := Int.floor_le f
  have hlt := Int.lt_floor_add_one f
  have hfloor : 0 ≤ ⌊f⌋ := Int.floor_nonneg.mpr hnonneg
  rcases lt_or_ge f (n - 1) with hinside | hbehind
  · -- between two centers
    have hfloor_lt : ⌊f⌋ < (n : Int) - 1 := by
      rw [Int.floor_lt]
      push_cast
      exact hinside
    have hself : clamped n ⌊f⌋ = ⌊f⌋ := by
      unfold clamped
      omega
    rw [hself, clamp_unit_of_mem ⟨by linarith, by linarith⟩, add_sub_cancel,
      min_eq_left hinside.le, max_eq_right hnonneg]
  · -- behind the last center
    have hfloor_ge : (n : Int) - 1 ≤ ⌊f⌋ := by
      rw [Int.le_floor]
      push_cast
      exact hbehind
    have hlast : clamped n ⌊f⌋ = n - 2 := by
      unfold clamped
      omega
    rw [hlast, min_eq_right hbehind, max_eq_right (by linarith)]
    push_cast
    rw [clamp_unit_of_one_le (by linarith)]
    ring

theorem clamped_floor_nearest (hn : 2 ≤ n) :
    clamped n ⌊nearest_position n f⌋ = clamped n ⌊f⌋ := by
  unfold nearest_position
  rcases lt_or_ge f 0 with hneg | hnonneg
  · have hfloor : ⌊f⌋ < 0 := Int.floor_lt.mpr (by simpa using hneg)
    rw [max_eq_left ((min_le_left _ _).trans hneg.le), Int.floor_zero]
    unfold clamped
    omega
  rcases lt_or_ge f (n - 1) with hinside | hbehind
  · rw [min_eq_left hinside.le, max_eq_right hnonneg]
  · have hcast : (2 : ℚ) ≤ n := by exact_mod_cast hn
    have hfloor_ge : (n : Int) - 1 ≤ ⌊f⌋ := by
      rw [Int.le_floor]
      push_cast
      exact hbehind
    have hfloor_last : ⌊(n : ℚ) - 1⌋ = (n : Int) - 1 := by
      have hint : ((n : ℚ) - 1) = (((n : Int) - 1 : Int) : ℚ) := by
        push_cast
        ring
      rw [hint, Int.floor_intCast]
    rw [min_eq_right hbehind, max_eq_right (by linarith), hfloor_last]
    unfold clamped
    omega

theorem clamp_unit_nearest (hn : 2 ≤ n) :
    clamp_unit (nearest_position n f - clamped n ⌊f⌋) = clamp_unit (f - clamped n ⌊f⌋) := by
  have hunit := clamp_unit_bounds (f - clamped n ⌊f⌋)
  rw [← clamped_add_unit hn, add_sub_cancel_left, clamp_unit_of_mem hunit]

end Direction

/-! ## Section 2: The stencil -/

/-- The value that is interpolated from a field. -/
def interpolate (cells : List (Int × ℚ)) (field : Int → ℚ) : ℚ :=
  (cells.map fun cell => cell.2 * field cell.1).sum

section Stencil

variable {ni nj : Nat} {i i1 j j1 : Int} {tx ty : ℚ}

theorem index_bounds {r c : Int} (hr : 0 ≤ r ∧ r < nj) (hc : 0 ≤ c ∧ c < ni) :
    0 ≤ r * ni + c ∧ r * ni + c < ni * nj := by
  have hrow : 0 ≤ r * ni := mul_nonneg hr.1 (Int.natCast_nonneg _)
  have hnext : (r + 1) * ni ≤ nj * ni :=
    mul_le_mul_of_nonneg_right (by omega) (Int.natCast_nonneg _)
  rw [add_mul, one_mul, mul_comm (nj : Int)] at hnext
  omega

theorem stencil_indices (hi : 0 ≤ i ∧ i < ni) (hi1 : 0 ≤ i1 ∧ i1 < ni) (hj : 0 ≤ j ∧ j < nj)
    (hj1 : 0 ≤ j1 ∧ j1 < nj) : ∀ cell ∈ stencil ni i i1 j j1 tx ty,
      0 ≤ cell.1 ∧ cell.1 < ni * nj := by
  intro cell hcell
  unfold stencil at hcell
  simp only [List.mem_cons, List.not_mem_nil, or_false] at hcell
  rcases hcell with rfl | rfl | rfl | rfl
  · exact index_bounds hj hi
  · exact index_bounds hj hi1
  · exact index_bounds hj1 hi
  · exact index_bounds hj1 hi1

theorem stencil_nonneg (hx : 0 ≤ tx ∧ tx ≤ 1) (hy : 0 ≤ ty ∧ ty ≤ 1) :
    ∀ cell ∈ stencil ni i i1 j j1 tx ty, 0 ≤ cell.2 := by
  have hx' : 0 ≤ 1 - tx := sub_nonneg.mpr hx.2
  have hy' : 0 ≤ 1 - ty := sub_nonneg.mpr hy.2
  intro cell hcell
  unfold stencil at hcell
  simp only [List.mem_cons, List.not_mem_nil, or_false] at hcell
  rcases hcell with rfl | rfl | rfl | rfl
  · exact mul_nonneg hx' hy'
  · exact mul_nonneg hx.1 hy'
  · exact mul_nonneg hx' hy.1
  · exact mul_nonneg hx.1 hy.1

theorem stencil_sum : ((stencil ni i i1 j j1 tx ty).map (·.2)).sum = 1 := by
  simp only [stencil, List.map_cons, List.map_nil, List.sum_cons, List.sum_nil]
  ring

theorem index_div_mod {r c : Int} (hc : 0 ≤ c ∧ c < ni) :
    (r * ni + c) / ni = r ∧ (r * ni + c) % ni = c := by
  have hpos : (0 : Int) < ni := by omega
  constructor
  · rw [add_comm, Int.add_mul_ediv_right _ _ hpos.ne', Int.ediv_eq_zero_of_lt hc.1 hc.2, zero_add]
  · rw [add_comm, Int.add_mul_emod_self_right, Int.emod_eq_of_lt hc.1 hc.2]

/-- **Affine fields are reproduced.** -/
theorem interpolate_affine (hi : 0 ≤ i ∧ i + 1 < ni) (a b c : ℚ) :
    interpolate (stencil ni i (i + 1) j (j + 1) tx ty)
      (fun k => a + b * ((k % ni : Int) : ℚ) + c * ((k / ni : Int) : ℚ)) =
      a + b * (i + tx) + c * (j + ty) := by
  obtain ⟨hdiv, hmod⟩ := index_div_mod (r := j) (show 0 ≤ i ∧ i < ni by omega)
  obtain ⟨hdiv', hmod'⟩ := index_div_mod (r := j) (show 0 ≤ i + 1 ∧ i + 1 < ni by omega)
  obtain ⟨hdiv₁, hmod₁⟩ := index_div_mod (r := j + 1) (show 0 ≤ i ∧ i < ni by omega)
  obtain ⟨hdiv₁', hmod₁'⟩ := index_div_mod (r := j + 1) (show 0 ≤ i + 1 ∧ i + 1 < ni by omega)
  simp only [interpolate, stencil, List.map_cons, List.map_nil, List.sum_cons, List.sum_nil, hdiv,
    hmod, hdiv', hmod', hdiv₁, hmod₁, hdiv₁', hmod₁']
  push_cast
  ring

end Stencil

/-! ## Section 3: Points that are accepted -/

/-- A coordinate is in the `n` cells of width `delta` from `lo` on, or a
    billionth of a cell outside. -/
def Within (n : Nat) (lo delta x : ℚ) : Prop :=
  lo - 1 / 10 ^ 9 * delta ≤ x ∧ x ≤ lo + (n + 1 / 10 ^ 9) * delta

namespace BilinearRectKernel

theorem in_bounds_iff {n : Nat} {lo delta x : ℚ} (hdelta : 0 < delta) :
    in_bounds n ((x - lo) / delta - 1 / 2) = true ↔ Within n lo delta x := by
  have hlo : -(1 / 2) - 1 / 10 ^ 9 ≤ (x - lo) / delta - 1 / 2 ↔ lo - 1 / 10 ^ 9 * delta ≤ x := by
    have hcells : -(1 / 10 ^ 9) ≤ (x - lo) / delta ↔ -(1 / 10 ^ 9) * delta ≤ x - lo :=
      le_div_iff₀ hdelta
    constructor
    · intro h
      linarith [hcells.mp (by linarith)]
    · intro h
      linarith [hcells.mpr (by linarith)]
  have hhi : (x - lo) / delta - 1 / 2 ≤ n - 1 / 2 + 1 / 10 ^ 9 ↔
      x ≤ lo + (n + 1 / 10 ^ 9) * delta := by
    have hcells : (x - lo) / delta ≤ n + 1 / 10 ^ 9 ↔ x - lo ≤ (n + 1 / 10 ^ 9) * delta :=
      div_le_iff₀ hdelta
    constructor
    · intro h
      linarith [hcells.mp (by linarith)]
    · intro h
      linarith [hcells.mpr (by linarith)]
  unfold in_bounds Within
  rw [← hlo, ← hhi]
  simp

variable (kernel : BilinearRectKernel)

/-- A regular grid. Periodic grids are those that are detected as such. -/
structure Regular : Prop where
  delta_lon_pos : 0 < kernel.delta_lon
  delta_lat_pos : 0 < kernel.delta_lat
  ni_pos : 1 ≤ kernel.ni
  nj_pos : 1 ≤ kernel.nj
  period : kernel.is_periodic = true →
    |kernel.ni * kernel.delta_lon - 360| < 1 / 10 ^ 10 * kernel.delta_lon

/-- A point is in the grid. -/
def Accepts (point : Point2) : Prop :=
  (kernel.is_periodic = false → Within kernel.ni kernel.lon_min kernel.delta_lon point.1) ∧
    Within kernel.nj kernel.lat_min kernel.delta_lat point.2

/-- The sizes fit `int`, and in a periodic grid so does the sum of two columns. -/
def SizesFit : Prop :=
  kernel.ni < 2 ^ 31 ∧ kernel.nj < 2 ^ 31 ∧ (kernel.is_periodic = true → kernel.ni ≤ 2 ^ 30)

/-- The column of the stencil. -/
def column (i : Int) : Int := if kernel.is_periodic then i % kernel.ni else clamped kernel.ni i

/-- The column after one, or the end of the row. -/
def next_column (i : Int) : Int :=
  if i + 1 ≥ kernel.ni then (if kernel.is_periodic then 0 else kernel.ni - 1) else i + 1

def next_row (j : Int) : Int := if j + 1 ≥ kernel.nj then kernel.nj - 1 else j + 1

/-- **The stencil of a point.** -/
def stencil_at (point : Point2) : List (Int × ℚ) :=
  let i := kernel.column ⌊kernel.fi point.1⌋
  let j := clamped kernel.nj ⌊kernel.fj point.2⌋
  stencil kernel.ni i (kernel.next_column i) j (kernel.next_row j) (clamp_unit (kernel.fi point.1 - i))
    (clamp_unit (kernel.fj point.2 - j))

variable {kernel} {point : Point2}

theorem accepts_iff (hreg : kernel.Regular) : kernel.Accepts point ↔
    ((!kernel.is_periodic && !in_bounds kernel.ni (kernel.fi point.1)) ||
      !in_bounds kernel.nj (kernel.fj point.2)) = false := by
  have hlat : in_bounds kernel.nj (kernel.fj point.2) = true ↔
      Within kernel.nj kernel.lat_min kernel.delta_lat point.2 := in_bounds_iff hreg.delta_lat_pos
  have hlon : kernel.is_periodic = false → (in_bounds kernel.ni (kernel.fi point.1) = true ↔
      Within kernel.ni kernel.lon_min kernel.delta_lon point.1) := by
    intro hplain
    unfold fi normalize
    rw [hplain, if_neg (by decide)]
    exact in_bounds_iff hreg.delta_lon_pos
  unfold Accepts
  rw [← hlat]
  cases hper : kernel.is_periodic with
  | true => simp
  | false =>
    rw [← hlon hper]
    simp

theorem compute_weights_of_rejected (hreg : kernel.Regular) (h : ¬ kernel.Accepts point) :
    kernel.compute_weights point = .returned none := by
  rw [accepts_iff hreg, Bool.not_eq_false] at h
  unfold compute_weights
  dsimp only
  rw [if_pos h]
  rfl

theorem compute_weights_of_accepted (hreg : kernel.Regular) (h : kernel.Accepts point) :
    kernel.compute_weights point = (do
      let i ← signed 32 ⌊kernel.fi point.1⌋
      let j ← signed 32 ⌊kernel.fj point.2⌋
      let j ← clamp_index kernel.nj j
      let i ← kernel.lon_index i
      let n := to_int kernel.ni
      let tx := clamp_unit (kernel.fi point.1 - i)
      let ty := clamp_unit (kernel.fj point.2 - j)
      let i1 := if i + 1 ≥ n then (if kernel.is_periodic then 0 else n - 1) else i + 1
      let j1 := if j + 1 ≥ to_int kernel.nj then to_int kernel.nj - 1 else j + 1
      return some (stencil kernel.ni i i1 j j1 tx ty)) := by
  rw [accepts_iff hreg] at h
  unfold compute_weights
  dsimp only
  rw [if_neg (by simp [h])]

theorem floor_of_within {n : Nat} {lo delta x : ℚ} (hdelta : 0 < delta)
    (h : Within n lo delta x) :
    -1 ≤ ⌊(x - lo) / delta - 1 / 2⌋ ∧ ⌊(x - lo) / delta - 1 / 2⌋ ≤ n - 1 := by
  have hlo : -(1 / 10 ^ 9) ≤ (x - lo) / delta := by
    rw [le_div_iff₀ hdelta]
    linarith [h.1]
  have hhi : (x - lo) / delta ≤ n + 1 / 10 ^ 9 := by
    rw [div_le_iff₀ hdelta]
    linarith [h.2]
  constructor
  · rw [Int.le_floor]
    push_cast
    linarith
  · rw [← Int.lt_add_one_iff, Int.floor_lt]
    push_cast
    linarith

theorem normalize_bounds (hper : kernel.is_periodic = true) (lon : ℚ) :
    kernel.lon_min ≤ kernel.normalize lon ∧ kernel.normalize lon < kernel.lon_min + 360 := by
  have hle := Int.floor_le ((lon - kernel.lon_min) / 360)
  have hlt := Int.lt_floor_add_one ((lon - kernel.lon_min) / 360)
  rw [le_div_iff₀ (by norm_num)] at hle
  rw [div_lt_iff₀ (by norm_num)] at hlt
  unfold normalize
  dsimp only
  rw [if_pos hper]
  constructor
  · linarith
  · linarith

theorem floor_fi (hreg : kernel.Regular) (h : kernel.Accepts point) :
    -1 ≤ ⌊kernel.fi point.1⌋ ∧ ⌊kernel.fi point.1⌋ ≤ kernel.ni - 1 := by
  have hdelta := hreg.delta_lon_pos
  cases hper : kernel.is_periodic with
  | false =>
    unfold fi normalize
    rw [hper, if_neg (by decide)]
    exact floor_of_within hdelta (h.1 hper)
  | true =>
    apply floor_of_within hdelta
    obtain ⟨hlo, hhi⟩ := normalize_bounds hper point.1
    have hspan := (abs_lt.mp (hreg.period hper)).1
    constructor
    · linarith
    · linarith

theorem floor_fj (hreg : kernel.Regular) (h : kernel.Accepts point) :
    -1 ≤ ⌊kernel.fj point.2⌋ ∧ ⌊kernel.fj point.2⌋ ≤ kernel.nj - 1 :=
  floor_of_within hreg.delta_lat_pos h.2

theorem lon_index_eq (hreg : kernel.Regular) (hsize : kernel.SizesFit) {i : Int}
    (hi : -1 ≤ i ∧ i ≤ kernel.ni - 1) : kernel.lon_index i = .returned (kernel.column i) := by
  have hni := hreg.ni_pos
  unfold lon_index column
  cases hper : kernel.is_periodic with
  | false =>
    rw [if_neg (by decide), if_neg (by decide)]
    exact clamp_index_eq hsize.1 hni
  | true =>
    have hhalf := hsize.2.2 hper
    rw [if_pos rfl, if_pos rfl]
    exact RectMeshes.wrapped_eq (fits_32.mpr (by omega)) hni hhalf

/-- **The kernel**: the stencil of a point, when the sizes fit. -/
theorem compute_weights_eq (hreg : kernel.Regular) (hsize : kernel.SizesFit)
    (h : kernel.Accepts point) :
    kernel.compute_weights point = .returned (some (kernel.stencil_at point)) := by
  have hni := hsize.1
  have hnj := hsize.2.1
  have hi := floor_fi hreg h
  have hj := floor_fj hreg h
  rw [compute_weights_of_accepted hreg h, signed_of_fits (fits_32.mpr (by omega)),
    Outcome.returned_bind, signed_of_fits (fits_32.mpr (by omega)), Outcome.returned_bind,
    clamp_index_eq hnj hreg.nj_pos, Outcome.returned_bind, lon_index_eq hreg hsize hi,
    Outcome.returned_bind, to_int_of_lt hni, to_int_of_lt hnj]
  rfl

/-! ## Section 4: What the weights do -/

theorem column_bounds (hreg : kernel.Regular) (i : Int) :
    0 ≤ kernel.column i ∧ kernel.column i < kernel.ni := by
  have hni := hreg.ni_pos
  unfold column
  split
  · exact ⟨Int.emod_nonneg _ (by omega), Int.emod_lt_of_pos _ (by omega)⟩
  · exact clamped_bounds hni

theorem next_column_bounds (hreg : kernel.Regular) {i : Int} (hi : 0 ≤ i ∧ i < kernel.ni) :
    0 ≤ kernel.next_column i ∧ kernel.next_column i < kernel.ni := by
  have hni := hreg.ni_pos
  unfold next_column
  split
  · split
    · omega
    · omega
  · omega

theorem next_row_bounds (hreg : kernel.Regular) {j : Int} (hj : 0 ≤ j ∧ j < kernel.nj) :
    0 ≤ kernel.next_row j ∧ kernel.next_row j < kernel.nj := by
  have hnj := hreg.nj_pos
  unfold next_row
  split
  · omega
  · omega

variable (kernel) in
/-- The nearest point between the outermost centers. -/
def nearest (point : Point2) : Point2 :=
  (max (kernel.lon_min + 1 / 2 * kernel.delta_lon)
      (min point.1 (kernel.lon_min + (kernel.ni - 1 / 2) * kernel.delta_lon)),
    max (kernel.lat_min + 1 / 2 * kernel.delta_lat)
      (min point.2 (kernel.lat_min + (kernel.nj - 1 / 2) * kernel.delta_lat)))

theorem nearest_coordinate {n : Nat} {lo delta x : ℚ} (hdelta : 0 < delta) :
    (max (lo + 1 / 2 * delta) (min x (lo + (n - 1 / 2) * delta)) - lo) / delta - 1 / 2 =
      nearest_position n ((x - lo) / delta - 1 / 2) := by
  have hmono : Monotone fun y : ℚ => (y - lo) / delta - 1 / 2 := by
    intro y z hyz
    exact sub_le_sub_right ((div_le_div_iff_of_pos_right hdelta).mpr (sub_le_sub_right hyz lo)) _
  have hcell : ∀ k : ℚ, (lo + k * delta - lo) / delta = k := by
    intro k
    rw [add_sub_cancel_left, mul_div_cancel_right₀ _ hdelta.ne']
  have hmax := hmono.map_max (a := lo + 1 / 2 * delta) (b := min x (lo + (n - 1 / 2) * delta))
  have hmin := hmono.map_min (a := x) (b := lo + (n - 1 / 2) * delta)
  rw [hmax, hmin, hcell, hcell, sub_self]
  unfold nearest_position
  congr 2
  ring

theorem fi_nearest (hreg : kernel.Regular) (hplain : kernel.is_periodic = false) :
    kernel.fi (kernel.nearest point).1 = nearest_position kernel.ni (kernel.fi point.1) := by
  unfold fi normalize
  rw [hplain, if_neg (by decide), if_neg (by decide)]
  exact nearest_coordinate hreg.delta_lon_pos

theorem fj_nearest (hreg : kernel.Regular) :
    kernel.fj (kernel.nearest point).2 = nearest_position kernel.nj (kernel.fj point.2) :=
  nearest_coordinate hreg.delta_lat_pos

theorem within_nearest {n : Nat} {lo delta x : ℚ} (hdelta : 0 < delta) (hn : 1 ≤ n) :
    Within n lo delta (max (lo + 1 / 2 * delta) (min x (lo + (n - 1 / 2) * delta))) := by
  have hcast : (1 : ℚ) ≤ n := by exact_mod_cast hn
  have hwidth : delta ≤ n * delta := by
    calc delta = 1 * delta := (one_mul _).symm
      _ ≤ n * delta := mul_le_mul_of_nonneg_right hcast hdelta.le
  constructor
  · apply le_trans _ (le_max_left _ _)
    linarith
  · apply max_le
    · linarith
    · apply (min_le_right _ _).trans
      linarith

theorem accepts_nearest (hreg : kernel.Regular) : kernel.Accepts (kernel.nearest point) :=
  ⟨fun _ => within_nearest hreg.delta_lon_pos hreg.ni_pos,
    within_nearest hreg.delta_lat_pos hreg.nj_pos⟩

theorem stencil_at_nearest (hreg : kernel.Regular) (hplain : kernel.is_periodic = false)
    (hni : 2 ≤ kernel.ni) (hnj : 2 ≤ kernel.nj) :
    kernel.stencil_at (kernel.nearest point) = kernel.stencil_at point := by
  unfold stencil_at column
  rw [fi_nearest hreg hplain, fj_nearest hreg, if_neg (by simp [hplain]), if_neg (by simp [hplain]),
    clamped_floor_nearest hni, clamped_floor_nearest hnj]
  dsimp only
  rw [clamp_unit_nearest hni, clamp_unit_nearest hnj]

variable (kernel) in
/-- A field that is affine in longitude and latitude, at the centers. -/
def affine (a b c : ℚ) (k : Int) : ℚ :=
  a + b * (kernel.lon_min + ((k % kernel.ni : Int) + 1 / 2) * kernel.delta_lon) +
    c * (kernel.lat_min + ((k / kernel.ni : Int) + 1 / 2) * kernel.delta_lat)

theorem coordinate_of_position {n : Nat} {lo delta x : ℚ} (hdelta : 0 < delta) :
    lo + (nearest_position n ((x - lo) / delta - 1 / 2) + 1 / 2) * delta =
      max (lo + 1 / 2 * delta) (min x (lo + (n - 1 / 2) * delta)) := by
  rw [← nearest_coordinate hdelta, sub_add_cancel, div_mul_cancel₀ _ hdelta.ne', add_sub_cancel]

/-- **Affine fields** have their values at the nearest point. -/
theorem interpolate_stencil_at (hreg : kernel.Regular) (hplain : kernel.is_periodic = false)
    (hni : 2 ≤ kernel.ni) (hnj : 2 ≤ kernel.nj) (a b c : ℚ) :
    interpolate (kernel.stencil_at point) (kernel.affine a b c) =
      a + b * (kernel.nearest point).1 + c * (kernel.nearest point).2 := by
  have hi : 0 ≤ clamped kernel.ni ⌊kernel.fi point.1⌋ ∧
      clamped kernel.ni ⌊kernel.fi point.1⌋ + 1 < kernel.ni := by
    unfold clamped
    omega
  have hj : clamped kernel.nj ⌊kernel.fj point.2⌋ + 1 < kernel.nj := by
    unfold clamped
    omega
  have hfield : kernel.affine a b c = fun k =>
      (a + b * (kernel.lon_min + 1 / 2 * kernel.delta_lon) +
        c * (kernel.lat_min + 1 / 2 * kernel.delta_lat)) +
      (b * kernel.delta_lon) * ((k % kernel.ni : Int) : ℚ) +
      (c * kernel.delta_lat) * ((k / kernel.ni : Int) : ℚ) := by
    funext k
    unfold affine
    ring
  have hlon : (kernel.nearest point).1 =
      kernel.lon_min + (nearest_position kernel.ni (kernel.fi point.1) + 1 / 2) * kernel.delta_lon := by
    unfold fi normalize
    rw [hplain, if_neg (by decide), coordinate_of_position hreg.delta_lon_pos]
    rfl
  have hlat : (kernel.nearest point).2 =
      kernel.lat_min + (nearest_position kernel.nj (kernel.fj point.2) + 1 / 2) * kernel.delta_lat := by
    unfold fj
    rw [coordinate_of_position hreg.delta_lat_pos]
    rfl
  unfold stencil_at column next_column next_row
  rw [if_neg (by simp [hplain])]
  dsimp only
  rw [if_neg (by omega), if_neg (by omega), hfield, interpolate_affine hi, clamped_add_unit hni,
    clamped_add_unit hnj, hlon, hlat]
  ring

/-- **The weights**: points outside are rejected; the others have four cells,
    with weights that are not negative and sum to 1, and beyond the outermost
    centers the weights of the nearest point, which reproduce affine fields. -/
structure Correct (kernel : BilinearRectKernel) : Prop where
  rejects : kernel.is_periodic = false → ∀ point, kernel.compute_weights point = .returned none ↔
    ¬(Within kernel.ni kernel.lon_min kernel.delta_lon point.1 ∧
      Within kernel.nj kernel.lat_min kernel.delta_lat point.2)
  weights : ∀ point, kernel.Accepts point →
    ∃ cells, kernel.compute_weights point = .returned (some cells) ∧ cells.length = 4 ∧
      (∀ cell ∈ cells, (0 ≤ cell.1 ∧ cell.1 < kernel.ni * kernel.nj) ∧ 0 ≤ cell.2) ∧
      (cells.map (·.2)).sum = 1
  affine : kernel.is_periodic = false → 2 ≤ kernel.ni → 2 ≤ kernel.nj →
    ∀ point, kernel.Accepts point →
      kernel.compute_weights point = kernel.compute_weights (kernel.nearest point) ∧
      ∃ cells, kernel.compute_weights point = .returned (some cells) ∧
        ∀ a b c, interpolate cells (kernel.affine a b c) =
          a + b * (kernel.nearest point).1 + c * (kernel.nearest point).2

theorem correct_of_sizes_fit (hreg : kernel.Regular) (hsize : kernel.SizesFit) :
    kernel.Correct where
  rejects := by
    intro hplain point
    have haccepts : kernel.Accepts point ↔ Within kernel.ni kernel.lon_min kernel.delta_lon point.1 ∧
        Within kernel.nj kernel.lat_min kernel.delta_lat point.2 :=
      and_congr_left fun _ => ⟨fun h => h hplain, fun h _ => h⟩
    rw [← haccepts]
    constructor
    · intro hnone haccept
      rw [compute_weights_eq hreg hsize haccept] at hnone
      cases hnone
    · exact compute_weights_of_rejected hreg
  weights := by
    intro point haccept
    have hi := column_bounds hreg ⌊kernel.fi point.1⌋
    have hj : 0 ≤ clamped kernel.nj ⌊kernel.fj point.2⌋ ∧
        clamped kernel.nj ⌊kernel.fj point.2⌋ < kernel.nj := clamped_bounds hreg.nj_pos
    refine ⟨_, compute_weights_eq hreg hsize haccept, rfl, ?_, stencil_sum⟩
    intro cell hcell
    exact ⟨stencil_indices hi (next_column_bounds hreg hi) hj (next_row_bounds hreg hj) cell hcell,
      stencil_nonneg (clamp_unit_bounds _) (clamp_unit_bounds _) cell hcell⟩
  affine := by
    intro hplain hni hnj point haccept
    constructor
    · rw [compute_weights_eq hreg hsize haccept,
        compute_weights_eq hreg hsize (accepts_nearest hreg), stencil_at_nearest hreg hplain hni hnj]
    · exact ⟨_, compute_weights_eq hreg hsize haccept,
        fun a b c => interpolate_stencil_at hreg hplain hni hnj a b c⟩

/-! ## Section 5: Sizes that do not fit -/

theorem parts_of_returned (hreg : kernel.Regular) (haccept : kernel.Accepts point)
    {cells : List (Int × ℚ)} (h : kernel.compute_weights point = .returned (some cells)) :
    Fits 32 ⌊kernel.fi point.1⌋ ∧ Fits 32 ⌊kernel.fj point.2⌋ ∧
      ∃ i j, kernel.lon_index ⌊kernel.fi point.1⌋ = .returned i ∧
        clamp_index kernel.nj ⌊kernel.fj point.2⌋ = .returned j ∧
        cells = stencil kernel.ni i
          (if i + 1 ≥ to_int kernel.ni then
            (if kernel.is_periodic then 0 else to_int kernel.ni - 1) else i + 1)
          j (if j + 1 ≥ to_int kernel.nj then to_int kernel.nj - 1 else j + 1)
          (clamp_unit (kernel.fi point.1 - i)) (clamp_unit (kernel.fj point.2 - j)) := by
  rw [compute_weights_of_accepted hreg haccept] at h
  obtain ⟨hfi, h⟩ := signed_bind_eq_returned.mp h
  obtain ⟨hfj, h⟩ := signed_bind_eq_returned.mp h
  obtain ⟨j, hj, h⟩ := Outcome.bind_eq_returned.mp h
  obtain ⟨i, hi, h⟩ := Outcome.bind_eq_returned.mp h
  cases h
  exact ⟨hfi, hfj, i, j, hi, hj, rfl⟩

variable (kernel) in
/-- The center of a cell. -/
def center (i j : Nat) : Point2 :=
  (kernel.lon_min + (i + 1 / 2) * kernel.delta_lon, kernel.lat_min + (j + 1 / 2) * kernel.delta_lat)

theorem within_center {n i : Nat} {lo delta : ℚ} (hdelta : 0 < delta) (hi : i < n) :
    Within n lo delta (lo + (i + 1 / 2) * delta) := by
  have hcast : (i : ℚ) + 1 ≤ n := by exact_mod_cast hi
  have hnonneg : (0 : ℚ) ≤ i * delta := by positivity
  have hnext : ((i : ℚ) + 1) * delta ≤ n * delta := mul_le_mul_of_nonneg_right hcast hdelta.le
  constructor
  · linarith
  · linarith

theorem accepts_center (hreg : kernel.Regular) {i j : Nat} (hi : i < kernel.ni)
    (hj : j < kernel.nj) : kernel.Accepts (kernel.center i j) :=
  ⟨fun _ => within_center hreg.delta_lon_pos hi, within_center hreg.delta_lat_pos hj⟩

theorem position_of_center {i : Nat} {lo delta : ℚ} (hdelta : 0 < delta) :
    (lo + (i + 1 / 2) * delta - lo) / delta - 1 / 2 = i := by
  rw [add_sub_cancel_left, mul_div_cancel_right₀ _ hdelta.ne', add_sub_cancel_right]

theorem fi_center (hreg : kernel.Regular) {i j : Nat} (hi : i < kernel.ni) :
    kernel.fi (kernel.center i j).1 = i := by
  have hdelta := hreg.delta_lon_pos
  have hnormal : kernel.normalize (kernel.center i j).1 = (kernel.center i j).1 := by
    unfold normalize center
    dsimp only
    split
    · next hper =>
      -- the center is in the first turn
      have hspan := (abs_lt.mp (hreg.period hper)).2
      have hcast : (i : ℚ) + 1 ≤ kernel.ni := by exact_mod_cast hi
      have hnext : ((i : ℚ) + 1) * kernel.delta_lon ≤ kernel.ni * kernel.delta_lon :=
        mul_le_mul_of_nonneg_right hcast hdelta.le
      have hzero : ⌊(kernel.lon_min + (i + 1 / 2) * kernel.delta_lon - kernel.lon_min) / 360⌋ = 0 := by
        rw [Int.floor_eq_zero_iff, add_sub_cancel_left]
        constructor
        · positivity
        · rw [div_lt_one (by norm_num)]
          linarith
      rw [hzero]
      push_cast
      ring
    · rfl
  unfold fi
  rw [hnormal]
  exact position_of_center hdelta

theorem fj_center (hreg : kernel.Regular) {i j : Nat} : kernel.fj (kernel.center i j).2 = j :=
  position_of_center hreg.delta_lat_pos

theorem parts_at_center (hreg : kernel.Regular) (hcorrect : kernel.Correct) {i j : Nat}
    (hi : i < kernel.ni) (hj : j < kernel.nj) : Fits 32 (i : Int) ∧ Fits 32 (j : Int) ∧
      ∃ i' j', kernel.lon_index i = .returned i' ∧ clamp_index kernel.nj j = .returned j' ∧
        0 ≤ j' * kernel.ni + i' := by
  have haccept := accepts_center hreg hi hj
  obtain ⟨cells, hcells, -, hindices, -⟩ := hcorrect.weights _ haccept
  obtain ⟨hfi, hfj, i', j', hi', hj', hstencil⟩ := parts_of_returned hreg haccept hcells
  rw [fi_center hreg hi, Int.floor_natCast] at hfi hi'
  rw [fj_center hreg, Int.floor_natCast] at hfj hj'
  refine ⟨hfi, hfj, i', j', hi', hj', ?_⟩
  rw [hstencil] at hindices
  exact (hindices _ List.mem_cons_self).1.1

theorem clamp_index_limit {i j : Int} : clamp_index (2 ^ 31) i ≠ .returned j := by
  intro h
  unfold clamp_index at h
  have hlast : ¬ Fits 32 (to_int ((2 ^ 31 : Nat) : Int) - 1) := by decide
  rw [signed_of_not_fits hlast, Outcome.undefined_bind] at h
  cases h

theorem sizes_fit_of_correct (hreg : kernel.Regular) (hcorrect : kernel.Correct) :
    kernel.SizesFit := by
  have hni := hreg.ni_pos
  have hnj := hreg.nj_pos
  have hnj_lt : kernel.nj < 2 ^ 31 := by
    by_contra hge
    rcases (not_lt.mp hge).lt_or_eq with hlt | heq
    · obtain ⟨-, hfits, -⟩ := parts_at_center hreg hcorrect hni hlt
      exact absurd hfits (by decide)
    · obtain ⟨-, -, i', j', -, hj', -⟩ := parts_at_center hreg hcorrect hni hnj
      rw [← heq] at hj'
      exact clamp_index_limit hj'
  have hni_le : kernel.ni ≤ 2 ^ 31 := by
    by_contra hge
    obtain ⟨hfits, -⟩ := parts_at_center hreg hcorrect (not_le.mp hge) hnj
    exact absurd hfits (by decide)
  cases hper : kernel.is_periodic with
  | false =>
    refine ⟨?_, hnj_lt, fun h => by rw [hper] at h; cases h⟩
    by_contra hge
    have heq : kernel.ni = 2 ^ 31 := by omega
    obtain ⟨-, -, i', j', hi', -⟩ := parts_at_center hreg hcorrect hni hnj
    unfold lon_index at hi'
    rw [hper, if_neg (by decide), heq] at hi'
    exact clamp_index_limit hi'
  | true =>
    have hhalf : kernel.ni ≤ 2 ^ 30 := by
      by_contra hge
      rcases hni_le.lt_or_eq with hlt | heq
      · -- the sum of the last column and the number of columns
        obtain ⟨hfits, -, i', j', hi', -⟩ :=
          parts_at_center (i := kernel.ni - 1) hreg hcorrect (by omega) hnj
        unfold lon_index at hi'
        rw [hper, if_pos rfl, to_int_of_lt hlt, RectMeshes.int_mod_of_pos hfits hni,
          Outcome.returned_bind] at hi'
        have hlast : (((kernel.ni - 1 : Nat) : Int)).tmod kernel.ni = kernel.ni - 1 := by
          rw [tmod_of_nonneg (by omega), Int.emod_eq_of_lt (by omega) (by omega)]
          omega
        rw [hlast] at hi'
        obtain ⟨hsum, -⟩ := signed_bind_eq_returned.mp hi'
        rw [fits_32] at hsum
        omega
      · -- the second column is counted from the other end
        obtain ⟨-, -, i', j', hi', hj', hindex⟩ :=
          parts_at_center (i := 1) hreg hcorrect (by omega) hnj
        have hnegative : kernel.lon_index 1 = .returned (1 - 2 ^ 31) := by
          unfold lon_index
          rw [hper, if_pos rfl, heq]
          decide +kernel
        rw [Nat.cast_one, hnegative] at hi'
        cases hi'
        rw [clamp_index_eq hnj_lt hnj] at hj'
        cases hj'
        have hfirst : clamped kernel.nj ((0 : Nat) : Int) = 0 := by
          unfold clamped
          omega
        rw [hfirst] at hindex
        omega
    exact ⟨by omega, hnj_lt, fun _ => hhalf⟩

/-- **The kernel is right for all points** exactly when the sizes fit. -/
theorem correct_iff_sizes_fit (hreg : kernel.Regular) : kernel.Correct ↔ kernel.SizesFit :=
  ⟨sizes_fit_of_correct hreg, correct_of_sizes_fit hreg⟩

/-- `ni` columns and `nj` rows of unit squares. -/
def squares (ni nj : Nat) : BilinearRectKernel := ⟨0, 0, 1, 1, ni, nj, false⟩

theorem squares_regular {ni nj : Nat} (hni : 1 ≤ ni) (hnj : 1 ≤ nj) : (squares ni nj).Regular :=
  ⟨zero_lt_one, zero_lt_one, hni, hnj, fun h => by cases h⟩

theorem correct_iff_sizes_fit_squares : (squares 3 2).Correct :=
  (correct_iff_sizes_fit (squares_regular (by decide) (by decide))).mpr
    ⟨by decide, by decide, fun h => by cases h⟩

theorem wide_grid_undefined : (squares (2 ^ 31) 1).Regular ∧
    (squares (2 ^ 31) 1).Accepts (1 / 2, 1 / 2) ∧
    (squares (2 ^ 31) 1).compute_weights (1 / 2, 1 / 2) = .undefined ∧
    ¬ (squares (2 ^ 31) 1).Correct := by
  have haccept : (squares (2 ^ 31) 1).Accepts (1 / 2, 1 / 2) := by
    unfold Accepts Within squares
    norm_num
  have hundefined : (squares (2 ^ 31) 1).compute_weights (1 / 2, 1 / 2) = .undefined := by
    decide +kernel
  refine ⟨squares_regular (by decide) (by decide), haccept, hundefined, ?_⟩
  intro hcorrect
  obtain ⟨cells, hcells, -⟩ := hcorrect.weights _ haccept
  rw [hundefined] at hcells
  cases hcells

end BilinearRectKernel

end WeightGenerator.Meshes

end Axis

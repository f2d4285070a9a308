import Helm.Axis.BilinearRect

/-! # AXIS: bilinear weights across the seam

  On a periodic grid the longitude of a point is brought into the first turn,
  the column before it is wrapped into the row, and the part of the way is
  counted from the wrapped column. In the half cell before the first center
  the column before is the last one of the row, from which the point is
  counted a whole turn back; the part of the way is then clamped to 0.

  `cyclic_stencil` has the two centers on both sides of the point, also
  there. Its values are Lipschitz in the longitude, and the kernel computes it
  exactly for the points that are not in that half cell (`cyclic_iff`).
-/

namespace Axis.WeightGenerator.Meshes

open Signed Segments

namespace BilinearRectKernel

variable (kernel : BilinearRectKernel)

/-! ## Section 1: The stencil around a longitude -/

/-- A grid that goes round. -/
structure PeriodicGrid : Prop where
  delta_lon_pos : 0 < kernel.delta_lon
  delta_lat_pos : 0 < kernel.delta_lat
  ni_ge : 2 ≤ kernel.ni
  nj_pos : 1 ≤ kernel.nj
  is_periodic : kernel.is_periodic = true
  span : kernel.ni * kernel.delta_lon = 360

variable {kernel} {point : Point2}

theorem PeriodicGrid.regular (h : kernel.PeriodicGrid) : kernel.Regular where
  delta_lon_pos := h.delta_lon_pos
  delta_lat_pos := h.delta_lat_pos
  ni_pos := by
    have hni := h.ni_ge
    omega
  nj_pos := h.nj_pos
  period := by
    intro _
    rw [h.span, sub_self, abs_zero]
    exact mul_pos (by norm_num) h.delta_lon_pos

variable (kernel) in
/-- **The two centers around the longitude**, on the circle, weighted by
    distance. -/
def cyclic_stencil (point : Point2) : List (Int × ℚ) :=
  let i := ⌊kernel.fi point.1⌋
  let j := clamped kernel.nj ⌊kernel.fj point.2⌋
  stencil kernel.ni (i % kernel.ni) ((i + 1) % kernel.ni) j (kernel.next_row j)
    (kernel.fi point.1 - i) (clamp_unit (kernel.fj point.2 - j))

theorem normalize_add (hper : kernel.is_periodic = true) (lon : ℚ) (k : Int) :
    kernel.normalize (lon + 360 * k) = kernel.normalize lon := by
  have hfloor : ⌊(lon + 360 * k - kernel.lon_min) / 360⌋ = ⌊(lon - kernel.lon_min) / 360⌋ + k := by
    rw [← Int.floor_add_intCast]
    congr 1
    ring
  unfold normalize
  dsimp only
  rw [if_pos hper, if_pos hper, hfloor]
  push_cast
  ring

theorem fi_add (hper : kernel.is_periodic = true) (lon : ℚ) (k : Int) :
    kernel.fi (lon + 360 * k) = kernel.fi lon := by
  unfold fi
  rw [normalize_add hper]

/-- **Whole turns** change nothing. -/
theorem compute_weights_add (hper : kernel.is_periodic = true) (k : Int) :
    kernel.compute_weights (point.1 + 360 * k, point.2) = kernel.compute_weights point := by
  unfold compute_weights
  dsimp only
  rw [fi_add hper]

variable (kernel) in
/-- The position of a longitude that is not brought into the first turn. -/
def position (lon : ℚ) : ℚ := (lon - kernel.lon_min) / kernel.delta_lon - 1 / 2

theorem fi_eq_position (hgrid : kernel.PeriodicGrid) (lon : ℚ) : ∃ t : Int,
    kernel.fi lon = kernel.position lon - ((t * kernel.ni : Int) : ℚ) := by
  refine ⟨⌊(lon - kernel.lon_min) / 360⌋, ?_⟩
  have hdelta := hgrid.delta_lon_pos.ne'
  unfold fi normalize position
  rw [if_pos hgrid.is_periodic]
  dsimp only
  rw [← hgrid.span]
  push_cast
  field_simp
  ring

theorem cyclic_stencil_eq (hgrid : kernel.PeriodicGrid) (lon lat : ℚ) :
    kernel.cyclic_stencil (lon, lat) =
      stencil kernel.ni (⌊kernel.position lon⌋ % kernel.ni) ((⌊kernel.position lon⌋ + 1) % kernel.ni)
        (clamped kernel.nj ⌊kernel.fj lat⌋) (kernel.next_row (clamped kernel.nj ⌊kernel.fj lat⌋))
        (kernel.position lon - ⌊kernel.position lon⌋)
        (clamp_unit (kernel.fj lat - clamped kernel.nj ⌊kernel.fj lat⌋)) := by
  obtain ⟨t, ht⟩ := fi_eq_position hgrid lon
  have hmod : ∀ k : Int, (k - t * kernel.ni) % kernel.ni = k % kernel.ni := by
    intro k
    rw [sub_eq_add_neg, ← neg_mul, Int.add_mul_emod_self_right]
  unfold cyclic_stencil
  dsimp only
  rw [ht, Int.floor_sub_intCast, hmod, sub_add_eq_add_sub, hmod]
  congr 1
  push_cast
  ring

/-! ## Section 2: Its values are Lipschitz -/

/-- The values of a sequence, and straight lines between them. -/
def piecewise (g : Int → ℚ) (x : ℚ) : ℚ := (1 - (x - ⌊x⌋)) * g ⌊x⌋ + (x - ⌊x⌋) * g (⌊x⌋ + 1)

theorem abs_sub_le_of_bound {g : Int → ℚ} {B : ℚ} (hB : ∀ i, |g i| ≤ B) (i j : Int) :
    |g i - g j| ≤ 2 * B := by
  apply (abs_sub _ _).trans
  linarith [hB i, hB j]

theorem piecewise_sub_next {g : Int → ℚ} {B : ℚ} (hB : ∀ i, |g i| ≤ B) (x : ℚ) :
    |piecewise g x - g (⌊x⌋ + 1)| ≤ 2 * B * (⌊x⌋ + 1 - x) := by
  have heq : piecewise g x - g (⌊x⌋ + 1) = (g ⌊x⌋ - g (⌊x⌋ + 1)) * (⌊x⌋ + 1 - x) := by
    unfold piecewise
    ring
  have hrest : 0 ≤ (⌊x⌋ : ℚ) + 1 - x := by linarith [Int.lt_floor_add_one x]
  rw [heq, abs_mul, abs_of_nonneg hrest]
  exact mul_le_mul_of_nonneg_right (abs_sub_le_of_bound hB _ _) hrest

theorem piecewise_sub_floor {g : Int → ℚ} {B : ℚ} (hB : ∀ i, |g i| ≤ B) (x : ℚ) :
    |piecewise g x - g ⌊x⌋| ≤ 2 * B * (x - ⌊x⌋) := by
  have heq : piecewise g x - g ⌊x⌋ = (g (⌊x⌋ + 1) - g ⌊x⌋) * (x - ⌊x⌋) := by
    unfold piecewise
    ring
  have hrest : 0 ≤ x - (⌊x⌋ : ℚ) := by linarith [Int.floor_le x]
  rw [heq, abs_mul, abs_of_nonneg hrest]
  exact mul_le_mul_of_nonneg_right (abs_sub_le_of_bound hB _ _) hrest

theorem piecewise_le {g : Int → ℚ} {B : ℚ} (hB : ∀ i, |g i| ≤ B) {x y : ℚ} (hxy : x ≤ y) :
    |piecewise g x - piecewise g y| ≤ 2 * B * (y - x) := by
  rcases (Int.floor_le_floor hxy).lt_or_eq with hlt | heq
  · -- on to the next value, across, and back from the last one
    have hnext := piecewise_sub_next hB x
    have hlast := piecewise_sub_floor hB y
    rw [abs_sub_comm] at hlast
    have hacross : |g (⌊x⌋ + 1) - g ⌊y⌋| ≤ 2 * B * (⌊y⌋ - (⌊x⌋ + 1)) := by
      have hbound := abs_sub_le_of_bound hB (⌊x⌋ + 1) ⌊y⌋
      rcases (Int.add_one_le_iff.mpr hlt).lt_or_eq with hgap | hsame
      · have hone : (1 : ℚ) ≤ ⌊y⌋ - (⌊x⌋ + 1) := by
          have hgap' : ⌊x⌋ + 1 + 1 ≤ ⌊y⌋ := hgap
          have hcast : ((⌊x⌋ + 1 + 1 : Int) : ℚ) ≤ ⌊y⌋ := by exact_mod_cast hgap'
          push_cast at hcast
          linarith
        have hnonneg : 0 ≤ 2 * B := (abs_nonneg _).trans hbound
        exact hbound.trans (le_mul_of_one_le_right hnonneg hone)
      · rw [hsame, sub_self, abs_zero, ← hsame]
        push_cast
        rw [sub_self, mul_zero]
    calc |piecewise g x - piecewise g y|
        ≤ |piecewise g x - g (⌊x⌋ + 1)| + |g (⌊x⌋ + 1) - piecewise g y| := abs_sub_le _ _ _
      _ ≤ |piecewise g x - g (⌊x⌋ + 1)| +
          (|g (⌊x⌋ + 1) - g ⌊y⌋| + |g ⌊y⌋ - piecewise g y|) := by
        gcongr
        exact abs_sub_le _ _ _
      _ ≤ 2 * B * (⌊x⌋ + 1 - x) + (2 * B * (⌊y⌋ - (⌊x⌋ + 1)) + 2 * B * (y - ⌊y⌋)) := by
        gcongr
      _ = 2 * B * (y - x) := by ring
  · -- on one line
    have hline : piecewise g x - piecewise g y = (g ⌊x⌋ - g (⌊x⌋ + 1)) * (y - x) := by
      unfold piecewise
      rw [← heq]
      ring
    have hnonneg : 0 ≤ y - x := sub_nonneg.mpr hxy
    rw [hline, abs_mul, abs_of_nonneg hnonneg]
    exact mul_le_mul_of_nonneg_right (abs_sub_le_of_bound hB _ _) hnonneg

theorem piecewise_lipschitz {g : Int → ℚ} {B : ℚ} (hB : ∀ i, |g i| ≤ B) (x y : ℚ) :
    |piecewise g x - piecewise g y| ≤ 2 * B * |x - y| := by
  rcases le_total x y with hxy | hyx
  · rw [abs_sub_comm x y, abs_of_nonneg (sub_nonneg.mpr hxy)]
    exact piecewise_le hB hxy
  · rw [abs_sub_comm, abs_of_nonneg (sub_nonneg.mpr hyx)]
    exact piecewise_le hB hyx

variable (kernel) in
/-- The values of a field on the circle, between two rows. -/
def ring_values (field : Int → ℚ) (lat : ℚ) (i : Int) : ℚ :=
  let j := clamped kernel.nj ⌊kernel.fj lat⌋
  let ty := clamp_unit (kernel.fj lat - j)
  (1 - ty) * field (j * kernel.ni + i % kernel.ni) +
    ty * field (kernel.next_row j * kernel.ni + i % kernel.ni)

theorem interpolate_cyclic (hgrid : kernel.PeriodicGrid) (field : Int → ℚ) (lon lat : ℚ) :
    interpolate (kernel.cyclic_stencil (lon, lat)) field =
      piecewise (kernel.ring_values field lat) (kernel.position lon) := by
  rw [cyclic_stencil_eq hgrid]
  simp only [interpolate, stencil, piecewise, ring_values, List.map_cons, List.map_nil,
    List.sum_cons, List.sum_nil]
  ring

theorem ring_values_bound (hgrid : kernel.PeriodicGrid) (field : Int → ℚ) (lat : ℚ) (i : Int) :
    |kernel.ring_values field lat i| ≤ ∑ k ∈ Finset.range (kernel.ni * kernel.nj), |field k| := by
  obtain ⟨B, hB⟩ : ∃ B, B = ∑ k ∈ Finset.range (kernel.ni * kernel.nj), |field k| := ⟨_, rfl⟩
  have hni := hgrid.ni_ge
  have hcol : 0 ≤ i % kernel.ni ∧ i % kernel.ni < kernel.ni :=
    ⟨Int.emod_nonneg _ (by omega), Int.emod_lt_of_pos _ (by omega)⟩
  have hcell : ∀ r : Int, 0 ≤ r ∧ r < kernel.nj → |field (r * kernel.ni + i % kernel.ni)| ≤ B := by
    intro r hr
    have hindex := index_bounds hr hcol
    obtain ⟨k, hk⟩ := Int.eq_ofNat_of_zero_le hindex.1
    rw [hk] at hindex ⊢
    rw [hB]
    apply Finset.single_le_sum (f := fun k : ℕ => |field k|) fun _ _ => abs_nonneg _
    rw [Finset.mem_range]
    exact_mod_cast hindex.2
  have hj : 0 ≤ clamped kernel.nj ⌊kernel.fj lat⌋ ∧ clamped kernel.nj ⌊kernel.fj lat⌋ < kernel.nj :=
    clamped_bounds hgrid.nj_pos
  have hfirst := hcell _ hj
  have hnext := hcell _ (next_row_bounds hgrid.regular hj)
  obtain ⟨hlo, hhi⟩ := clamp_unit_bounds (kernel.fj lat - clamped kernel.nj ⌊kernel.fj lat⌋)
  have hrest := sub_nonneg.mpr hhi
  unfold ring_values
  dsimp only
  rw [← hB]
  calc _ ≤ _ + _ := abs_add_le _ _
    _ ≤ (1 - clamp_unit (kernel.fj lat - clamped kernel.nj ⌊kernel.fj lat⌋)) * B +
        clamp_unit (kernel.fj lat - clamped kernel.nj ⌊kernel.fj lat⌋) * B := by
      rw [abs_mul, abs_mul, abs_of_nonneg hrest, abs_of_nonneg hlo]
      gcongr
    _ = B := by ring

/-- **Continuity.** The value of a field is Lipschitz in the longitude, also
    across the seam. -/
theorem cyclic_lipschitz (hgrid : kernel.PeriodicGrid) (field : Int → ℚ) (lat : ℚ) :
    ∃ D, ∀ lon lon', |interpolate (kernel.cyclic_stencil (lon, lat)) field -
      interpolate (kernel.cyclic_stencil (lon', lat)) field| ≤ D * |lon - lon'| := by
  refine ⟨2 * (∑ k ∈ Finset.range (kernel.ni * kernel.nj), |field k|) / kernel.delta_lon, ?_⟩
  intro lon lon'
  have hposition : kernel.position lon - kernel.position lon' = (lon - lon') / kernel.delta_lon := by
    unfold position
    ring
  rw [interpolate_cyclic hgrid, interpolate_cyclic hgrid]
  apply (piecewise_lipschitz (ring_values_bound hgrid field lat) _ _).trans_eq
  rw [hposition, abs_div, abs_of_pos hgrid.delta_lon_pos]
  ring

/-! ## Section 3: Points that are handled -/

/-- **The claim of the kernel** for a point: whole turns change nothing, and if
    the latitude is in the grid, the stencil is that of the circle. -/
def Cyclic (kernel : BilinearRectKernel) (point : Point2) : Prop :=
  (∀ k : Int, kernel.compute_weights (point.1 + 360 * k, point.2) = kernel.compute_weights point) ∧
    (Within kernel.nj kernel.lat_min kernel.delta_lat point.2 →
      kernel.compute_weights point = .returned (some (kernel.cyclic_stencil point)))

/-- **The point is handled**: in the first turn it is not before the first
    center; and its column and row, and those after them, are among the
    columns and rows that are left of the sizes as `int`. -/
structure Handled (kernel : BilinearRectKernel) (point : Point2) : Prop where
  first_center : kernel.lon_min + 1 / 2 * kernel.delta_lon ≤ kernel.normalize point.1
  column : kernel.ni < 2 ^ 31 ∨ ⌊kernel.fi point.1⌋ + 1 < to_int kernel.ni
  wrapped : ⌊kernel.fi point.1⌋ + to_int kernel.ni < 2 ^ 31
  row : kernel.nj < 2 ^ 31 ∨ max ⌊kernel.fj point.2⌋ 0 + 1 < to_int kernel.nj

theorem first_center_iff (hgrid : kernel.PeriodicGrid) (lon : ℚ) :
    kernel.lon_min + 1 / 2 * kernel.delta_lon ≤ kernel.normalize lon ↔ 0 ≤ kernel.fi lon := by
  have hcells : 1 / 2 ≤ (kernel.normalize lon - kernel.lon_min) / kernel.delta_lon ↔
      1 / 2 * kernel.delta_lon ≤ kernel.normalize lon - kernel.lon_min :=
    le_div_iff₀ hgrid.delta_lon_pos
  unfold fi
  rw [sub_nonneg, hcells, le_sub_iff_add_le']

theorem clamp_index_congr {n m : Nat} (h : to_int n = to_int m) (i : Int) :
    clamp_index n i = clamp_index m i := by
  unfold clamp_index
  rw [h]

theorem accepts_of_within (hgrid : kernel.PeriodicGrid)
    (h : Within kernel.nj kernel.lat_min kernel.delta_lat point.2) : kernel.Accepts point := by
  refine ⟨fun hplain => ?_, h⟩
  rw [hgrid.is_periodic] at hplain
  cases hplain

theorem row_of_handled {n : Nat} {j : Int} (hpos : 1 ≤ n) (hj : -1 ≤ j ∧ j ≤ n - 1)
    (h : n < 2 ^ 31 ∨ max j 0 + 1 < to_int n) :
    Fits 32 j ∧ clamp_index n j = .returned (clamped n j) ∧
      (if clamped n j + 1 ≥ to_int n then to_int n - 1 else clamped n j + 1) =
        if clamped n j + 1 ≥ n then (n : Int) - 1 else clamped n j + 1 := by
  by_cases hn : n < 2 ^ 31
  · rw [to_int_of_lt hn]
    exact ⟨fits_32.mpr (by omega), clamp_index_eq hn hpos, rfl⟩
  · have hrow := h.resolve_left hn
    -- the size as `int`
    have hle := to_int_le (Int.natCast_nonneg n)
    have hfits := fits_to_int n
    rw [fits_32] at hfits
    obtain ⟨m, hm⟩ := Int.eq_ofNat_of_zero_le (show 0 ≤ to_int n by omega)
    have hm_lt : m < 2 ^ 31 := by omega
    have hsame : to_int (n : Int) = to_int (m : Int) := by
      rw [to_int_of_lt hm_lt]
      exact hm
    have hclamped : clamped m j = clamped n j := by
      unfold clamped
      omega
    refine ⟨fits_32.mpr (by omega), ?_, ?_⟩
    · rw [clamp_index_congr hsame, clamp_index_eq hm_lt (by omega), hclamped]
    · have hnext : clamped n j + 1 < to_int n := by
        unfold clamped
        omega
      rw [if_neg (by omega), if_neg (by omega)]

theorem column_of_handled {n : Nat} {i : Int} (hi : 0 ≤ i ∧ i ≤ n - 1)
    (hcolumn : n < 2 ^ 31 ∨ i + 1 < to_int n) (hwrapped : i + to_int n < 2 ^ 31) :
    Fits 32 i ∧ (do
      let wrapped ← int_mod i (to_int n)
      let shifted ← signed 32 (wrapped + to_int n)
      int_mod shifted (to_int n)) = .returned i ∧
      (if i + 1 ≥ to_int n then 0 else i + 1) = (i + 1) % n := by
  -- the size as `int` is not negative
  obtain ⟨m, hm, hlt, hle⟩ : ∃ m : Nat, to_int (n : Int) = m ∧ i < m ∧ m ≤ n := by
    by_cases hn : n < 2 ^ 31
    · exact ⟨n, to_int_of_lt hn, by omega, le_refl _⟩
    · have hrow := hcolumn.resolve_left hn
      have hsmaller := to_int_le (Int.natCast_nonneg n)
      obtain ⟨m, hm⟩ := Int.eq_ofNat_of_zero_le (show 0 ≤ to_int n by omega)
      exact ⟨m, hm, by omega, by omega⟩
  rw [hm] at hcolumn hwrapped ⊢
  have hm_lt : m < 2 ^ 31 := by omega
  have hfits : Fits 32 i := fits_32.mpr (by omega)
  have hself : i.tmod m = i := by rw [tmod_of_nonneg hi.1, Int.emod_eq_of_lt hi.1 hlt]
  have hwrap := RectMeshes.wrapped_eq_of_fits hfits (by omega) hm_lt
    (by rw [hself, fits_32]; omega)
  rw [to_int_of_lt hm_lt, Int.emod_eq_of_lt hi.1 hlt] at hwrap
  refine ⟨hfits, hwrap, ?_⟩
  by_cases hlast : i + 1 ≥ m
  · -- then the size fits
    have heq : i + 1 = n := by
      rcases hcolumn with hn | hless
      · have hmn := to_int_of_lt hn
        omega
      · omega
    rw [if_pos hlast, heq, Int.emod_self]
  · rw [if_neg hlast, Int.emod_eq_of_lt (by omega) (by omega)]

/-- **A point that is handled** gets the stencil of the circle. -/
theorem cyclic_of_handled (hgrid : kernel.PeriodicGrid) (hhandled : kernel.Handled point)
    (hlat : Within kernel.nj kernel.lat_min kernel.delta_lat point.2) :
    kernel.compute_weights point = .returned (some (kernel.cyclic_stencil point)) := by
  have haccept := accepts_of_within hgrid hlat
  have hfi := (first_center_iff hgrid _).mp hhandled.first_center
  have hi : 0 ≤ ⌊kernel.fi point.1⌋ ∧ ⌊kernel.fi point.1⌋ ≤ kernel.ni - 1 :=
    ⟨Int.floor_nonneg.mpr hfi, (floor_fi hgrid.regular haccept).2⟩
  obtain ⟨hfits_i, hwrap, hnext⟩ := column_of_handled hi hhandled.column hhandled.wrapped
  obtain ⟨hfits_j, hclamp, hrow⟩ :=
    row_of_handled hgrid.nj_pos (floor_fj hgrid.regular haccept) hhandled.row
  have hlon_index : kernel.lon_index ⌊kernel.fi point.1⌋ = .returned ⌊kernel.fi point.1⌋ := by
    unfold lon_index
    rw [if_pos hgrid.is_periodic]
    exact hwrap
  have hself : ⌊kernel.fi point.1⌋ % kernel.ni = ⌊kernel.fi point.1⌋ :=
    Int.emod_eq_of_lt hi.1 (by omega)
  have hunit : clamp_unit (kernel.fi point.1 - ⌊kernel.fi point.1⌋) =
      kernel.fi point.1 - ⌊kernel.fi point.1⌋ :=
    clamp_unit_of_mem ⟨by linarith [Int.floor_le (kernel.fi point.1)],
      by linarith [Int.lt_floor_add_one (kernel.fi point.1)]⟩
  rw [compute_weights_of_accepted hgrid.regular haccept, signed_of_fits hfits_i,
    Outcome.returned_bind, signed_of_fits hfits_j, Outcome.returned_bind, hclamp,
    Outcome.returned_bind, hlon_index, Outcome.returned_bind]
  dsimp only
  rw [if_pos hgrid.is_periodic, hnext, hrow, hunit]
  unfold cyclic_stencil next_row
  dsimp only
  rw [hself]
  rfl

/-! ## Section 4: Points that are not -/

theorem row_column_eq {n r r' c c' : Int} (h : r * n + c = r' * n + c') (hlt : c' - c < n)
    (hgt : -n < c' - c) : r = r' ∧ c = c' := by
  have hrows : (r - r') * n = c' - c := by linarith
  have hpos : 0 < n := by omega
  have hrow : r - r' = 0 := by
    by_contra hne
    rcases lt_or_gt_of_ne hne with hneg | hpos'
    · have hle : (r - r') * n ≤ -1 * n := mul_le_mul_of_nonneg_right (by omega) hpos.le
      omega
    · have hge : 1 * n ≤ (r - r') * n := mul_le_mul_of_nonneg_right (by omega) hpos.le
      omega
  rw [hrow, zero_mul] at hrows
  omega

theorem wrapped_parts {i i' n : Int} (h : (do
      let wrapped ← int_mod i n
      let shifted ← signed 32 (wrapped + n)
      int_mod shifted n : Outcome String Int) = .returned i') :
    n ≠ 0 ∧ Fits 32 (i.tmod n + n) ∧ i' = (i.tmod n + n).tmod n := by
  have hmod : ∀ {a b : Int}, int_mod a n = .returned b → n ≠ 0 ∧ b = a.tmod n := by
    intro a b hab
    unfold int_mod at hab
    split at hab
    · cases hab
    · next hne =>
      obtain ⟨-, hb⟩ := signed_bind_eq_returned.mp hab
      cases hb
      exact ⟨hne, rfl⟩
  obtain ⟨w, hw, h⟩ := Outcome.bind_eq_returned.mp h
  obtain ⟨hne, rfl⟩ := hmod hw
  obtain ⟨hsum, h⟩ := signed_bind_eq_returned.mp h
  exact ⟨hne, hsum, (hmod h).2⟩

theorem wrapped_cases {i n : Int} (hne : n ≠ 0) :
    (0 < n ∧ (i.tmod n + n).tmod n = i % n) ∨
      (n < 0 ∧ n < (i.tmod n + n).tmod n ∧ (i.tmod n + n).tmod n ≤ 0) := by
  rcases lt_or_gt_of_ne hne with hneg | hpos
  · right
    obtain ⟨b, rfl⟩ : ∃ b, n = -b := ⟨-n, (neg_neg n).symm⟩
    have hb : 0 < b := by omega
    rw [Int.tmod_neg, Int.tmod_neg]
    have hlt := Int.tmod_lt_of_pos i hb
    -- the sum is not positive
    have hsum : i.tmod b + -b = -(b - i.tmod b) := by omega
    rw [hsum, Int.neg_tmod]
    have hnonneg := Int.tmod_nonneg b (show 0 ≤ b - i.tmod b by omega)
    have hless := Int.tmod_lt_of_pos (b - i.tmod b) hb
    omega
  · left
    obtain ⟨m, rfl⟩ := Int.eq_ofNat_of_zero_le hpos.le
    have hgt := Int.lt_tmod_of_pos i hpos
    rw [tmod_of_nonneg (show 0 ≤ i.tmod m + m by omega), RectMeshes.tmod_add_emod]
    exact ⟨hpos, rfl⟩

theorem next_row_of_tall {n : Nat} {m j : Int} (hn : m < n) (hn_pos : 2 ≤ n) (hj : j ≤ n - 1)
    (hnext : (if clamped n j + 1 ≥ n then (n : Int) - 1 else clamped n j + 1) =
      if clamped n j + 1 ≥ m then m - 1 else clamped n j + 1) : max j 0 + 1 < m := by
  unfold clamped at hnext
  omega

theorem last_column {n : Nat} (hn : 1 ≤ n) : (-1 : Int) % n = n - 1 := by
  have hshift : (-1 : Int) = (n - 1) + n * (-1) := by ring
  rw [hshift, Int.add_mul_emod_self_left, Int.emod_eq_of_lt (by omega) (by omega)]

theorem half_cell (hgrid : kernel.PeriodicGrid) (lon : ℚ) : -(1 / 2) ≤ kernel.fi lon := by
  have hstart := (normalize_bounds hgrid.is_periodic lon).1
  have hcells : 0 ≤ (kernel.normalize lon - kernel.lon_min) / kernel.delta_lon :=
    div_nonneg (sub_nonneg.mpr hstart) hgrid.delta_lon_pos.le
  unfold fi
  linarith

/-- **A point with the stencil of the circle** is handled. -/
theorem handled_of_cyclic (hgrid : kernel.PeriodicGrid)
    (hlat : Within kernel.nj kernel.lat_min kernel.delta_lat point.2)
    (h : kernel.compute_weights point = .returned (some (kernel.cyclic_stencil point))) :
    kernel.Handled point := by
  have haccept := accepts_of_within hgrid hlat
  obtain ⟨hfits_i, hfits_j, i, j, hi, hj, hcells⟩ := parts_of_returned hgrid.regular haccept h
  obtain ⟨hlo_i, hhi_i⟩ := floor_fi hgrid.regular haccept
  obtain ⟨hlo_j, hhi_j⟩ := floor_fj hgrid.regular haccept
  have hni := hgrid.ni_ge
  have hnj := hgrid.nj_pos
  unfold lon_index at hi
  rw [if_pos hgrid.is_periodic] at hi
  obtain ⟨hne, hsum, hi⟩ := wrapped_parts hi
  have hn_fits := fits_to_int kernel.ni
  have hn_le := to_int_le (Int.natCast_nonneg kernel.ni)
  have hm_fits := fits_to_int kernel.nj
  have hm_le := to_int_le (Int.natCast_nonneg kernel.nj)
  rw [fits_32] at hfits_i hfits_j hn_fits hm_fits
  -- the cells of both stencils
  rw [if_pos hgrid.is_periodic] at hcells
  unfold cyclic_stencil at hcells
  dsimp only at hcells
  unfold stencil at hcells
  simp only [List.cons.injEq, Prod.mk.injEq, and_true] at hcells
  obtain ⟨⟨hindex, hw⟩, ⟨hindex₁, -⟩, ⟨hindex₂, hw₂⟩, -⟩ := hcells
  -- both columns on the circle are in the row
  have hcol_lo := Int.emod_nonneg ⌊kernel.fi point.1⌋ (show (kernel.ni : Int) ≠ 0 by omega)
  have hcol_hi := Int.emod_lt_of_pos ⌊kernel.fi point.1⌋ (show (0 : Int) < kernel.ni by omega)
  have hnext_lo := Int.emod_nonneg (⌊kernel.fi point.1⌋ + 1) (show (kernel.ni : Int) ≠ 0 by omega)
  have hnext_hi := Int.emod_lt_of_pos (⌊kernel.fi point.1⌋ + 1) (show (0 : Int) < kernel.ni by omega)
  rcases wrapped_cases (i := ⌊kernel.fi point.1⌋) hne with ⟨hpos, hwrap⟩ | ⟨hneg, hgt, hle⟩
  · -- the row and the column are those on the circle
    rw [← hi] at hwrap
    have hcolumn_lo : 0 ≤ i := by
      rw [hwrap]
      exact Int.emod_nonneg _ hne
    have hcolumn_hi : i < to_int kernel.ni := by
      rw [hwrap]
      exact Int.emod_lt_of_pos _ hpos
    obtain ⟨hrow, hcolumn⟩ := row_column_eq hindex (by omega) (by omega)
    rw [← hrow] at hindex₁ hindex₂
    -- a point before the first center would get the last column alone
    have hfirst : 0 ≤ ⌊kernel.fi point.1⌋ := by
      by_contra hbefore
      have hfloor : ⌊kernel.fi point.1⌋ = -1 := by omega
      have hlast : i = kernel.ni - 1 := by
        rw [← hcolumn, hfloor, last_column (by omega)]
      have hback : clamp_unit (kernel.fi point.1 - i) = 0 := by
        apply clamp_unit_of_nonpos
        have hbelow := Int.lt_floor_add_one (kernel.fi point.1)
        rw [hfloor] at hbelow
        push_cast at hbelow
        have hi_ge : (0 : ℚ) ≤ i := by exact_mod_cast hcolumn_lo
        linarith
      have hhalf := half_cell hgrid point.1
      rw [hfloor, hback] at hw hw₂
      push_cast at hw hw₂
      linarith
    have hself : ⌊kernel.fi point.1⌋ % kernel.ni = ⌊kernel.fi point.1⌋ :=
      Int.emod_eq_of_lt hfirst (by omega)
    rw [hself] at hcolumn
    have htmod : ⌊kernel.fi point.1⌋.tmod (to_int kernel.ni) = ⌊kernel.fi point.1⌋ := by
      rw [tmod_of_nonneg hfirst, Int.emod_eq_of_lt hfirst (by omega)]
    rw [htmod, fits_32] at hsum
    refine ⟨?_, ?_, by omega, ?_⟩
    · show kernel.lon_min + 1 / 2 * kernel.delta_lon ≤ kernel.normalize point.1
      rw [first_center_iff hgrid]
      exact Int.floor_nonneg.mp hfirst
    · show kernel.ni < 2 ^ 31 ∨ _
      by_contra hwide
      rw [not_or] at hwide
      -- the next column would be the first one
      rw [if_pos (by omega), Int.emod_eq_of_lt (by omega) (by omega)] at hindex₁
      omega
    · show kernel.nj < 2 ^ 31 ∨ _
      by_contra htall
      rw [not_or] at htall
      rw [hself, hcolumn] at hindex₂
      obtain ⟨hnext, -⟩ := row_column_eq hindex₂ (by omega) (by omega)
      exact htall.2 (next_row_of_tall (by omega) (by omega) hhi_j hnext)
  · -- the next column is the first one, so this one is the last
    exfalso
    rw [← hi] at hgt hle
    rw [if_pos (by omega)] at hindex₁
    obtain ⟨hrow, hfirst⟩ := row_column_eq hindex₁ (by omega) (by omega)
    rw [hrow] at hindex
    have hlast : ⌊kernel.fi point.1⌋ % kernel.ni = i := by omega
    have hzero : ⌊kernel.fi point.1⌋ % kernel.ni = 0 := by omega
    rw [Int.add_emod, hzero, zero_add, Int.emod_emod_of_dvd _ (dvd_refl _),
      Int.emod_eq_of_lt (by omega) (by omega)] at hfirst
    omega

/-! ## Section 5: The claim, and what happens at the seam -/

/-- In the half cell before the first center **the last column counts alone**. -/
theorem last_column_alone (hgrid : kernel.PeriodicGrid) (hsize : kernel.SizesFit)
    (hlat : Within kernel.nj kernel.lat_min kernel.delta_lat point.2)
    (hbefore : kernel.fi point.1 < 0) :
    kernel.compute_weights point = .returned (some (stencil kernel.ni (kernel.ni - 1) 0
      (clamped kernel.nj ⌊kernel.fj point.2⌋) (kernel.next_row (clamped kernel.nj ⌊kernel.fj point.2⌋))
      0 (clamp_unit (kernel.fj point.2 - clamped kernel.nj ⌊kernel.fj point.2⌋)))) := by
  have hni := hgrid.ni_ge
  have hhalf := half_cell hgrid point.1
  have hfloor : ⌊kernel.fi point.1⌋ = -1 := by
    rw [Int.floor_eq_iff]
    push_cast
    constructor
    · linarith
    · linarith
  have hcolumn : kernel.column (-1) = kernel.ni - 1 := by
    unfold column
    rw [if_pos hgrid.is_periodic, last_column (by omega)]
  have hnext : kernel.next_column (kernel.ni - 1) = 0 := by
    unfold next_column
    rw [if_pos (by omega), if_pos hgrid.is_periodic]
  -- the point is counted a whole turn back
  have hback : clamp_unit (kernel.fi point.1 - ((kernel.ni - 1 : Int) : ℚ)) = 0 := by
    apply clamp_unit_of_nonpos
    have hcast : (2 : ℚ) ≤ kernel.ni := by exact_mod_cast hni
    push_cast
    linarith
  rw [compute_weights_eq hgrid.regular hsize (accepts_of_within hgrid hlat)]
  unfold stencil_at
  dsimp only
  rw [hfloor, hcolumn, hnext, hback]

/-- **The kernel follows the circle** at exactly the points that are handled or
    rejected; and on the circle a field has values that are Lipschitz. -/
theorem cyclic_iff (hgrid : kernel.PeriodicGrid) :
    (∀ point, kernel.Cyclic point ↔
      (Within kernel.nj kernel.lat_min kernel.delta_lat point.2 → kernel.Handled point)) ∧
    ∀ field lat, ∃ D, ∀ lon lon', |interpolate (kernel.cyclic_stencil (lon, lat)) field -
      interpolate (kernel.cyclic_stencil (lon', lat)) field| ≤ D * |lon - lon'| := by
  refine ⟨?_, cyclic_lipschitz hgrid⟩
  intro point
  constructor
  · intro hcyclic hlat
    exact handled_of_cyclic hgrid hlat (hcyclic.2 hlat)
  · intro hhandled
    refine ⟨compute_weights_add hgrid.is_periodic, ?_⟩
    intro hlat
    exact cyclic_of_handled hgrid (hhandled hlat) hlat

/-- Four columns all the way round, and one row. -/
def quarters : BilinearRectKernel := ⟨0, 0, 90, 1, 4, 1, true⟩

theorem quarters_grid : quarters.PeriodicGrid where
  delta_lon_pos := by norm_num [quarters]
  delta_lat_pos := by norm_num [quarters]
  ni_ge := by decide
  nj_pos := by decide
  is_periodic := rfl
  span := by norm_num [quarters]

theorem cyclic_iff_quarters : quarters.Cyclic (350, 1 / 2) := by
  apply ((cyclic_iff quarters_grid).1 (350, 1 / 2)).mpr
  intro _
  refine ⟨?_, .inl (by decide), ?_, .inl (by decide)⟩
  · norm_num [normalize, quarters]
  · norm_num [fi, normalize, quarters, to_int]

/-- **The jump.** In the whole half cell west of the first center, at 45, the
    value is that of the last column; at 45 it is that of the first. -/
theorem seam_jumps : quarters.PeriodicGrid ∧
    (∀ lon, 0 ≤ lon → lon < 45 →
      quarters.compute_weights (lon, 1 / 2) = .returned (some (stencil 4 3 0 0 0 0 0))) ∧
    quarters.compute_weights (45, 1 / 2) = .returned (some (stencil 4 0 1 0 0 0 0)) ∧
    quarters.cyclic_stencil (0, 1 / 2) = stencil 4 3 0 0 0 (1 / 2) 0 ∧
    ¬ quarters.Cyclic (0, 1 / 2) := by
  have hlat : Within quarters.nj quarters.lat_min quarters.delta_lat (1 / 2) := by
    unfold Within quarters
    norm_num
  have hwest : ∀ lon, 0 ≤ lon → lon < 45 →
      quarters.compute_weights (lon, 1 / 2) = .returned (some (stencil 4 3 0 0 0 0 0)) := by
    intro lon hlo hhi
    have hbefore : quarters.fi lon < 0 := by
      have hturn : ⌊(lon - 0) / 360⌋ = 0 := by
        rw [sub_zero, Int.floor_eq_zero_iff]
        exact ⟨by positivity, by linarith⟩
      unfold fi normalize quarters
      dsimp only
      rw [if_pos rfl, hturn]
      push_cast
      linarith
    have hrow : clamped quarters.nj ⌊quarters.fj (1 / 2)⌋ = 0 := by
      norm_num [clamped, fj, quarters]
    have hnext : quarters.next_row 0 = 0 := by decide
    have hway : clamp_unit (quarters.fj (1 / 2) - ((0 : Int) : ℚ)) = 0 := by
      norm_num [clamp_unit, fj, quarters]
    rw [@last_column_alone _ (lon, 1 / 2) quarters_grid ⟨by decide, by decide, by decide⟩ hlat hbefore]
    dsimp only
    rw [hrow, hnext, hway]
    rfl
  refine ⟨quarters_grid, hwest, by decide +kernel, by decide +kernel, ?_⟩
  intro hcyclic
  have hzero := hcyclic.2 hlat
  rw [hwest 0 (le_refl 0) (by norm_num)] at hzero
  revert hzero
  decide +kernel

end BilinearRectKernel

end Axis.WeightGenerator.Meshes

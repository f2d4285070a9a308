import Helm.Axis.BilinearRect

/-! # AXIS: bilinear weights on two paths

  The path for grids that are not uniform looks for a point among the centers
  of the columns and of the rows. It reads the center that it finds and the
  next one. Points beyond the outermost centers get the weights of these, and
  the policy for unmapped cells is not asked.

  Main result: `nonuniform_row_iff`, which rows are safe, and which of them
  are the rows of the uniform path.
-/

namespace Axis.WeightGenerator.Meshes

open Signed Segments

/-! ## Section 1: The place of a coordinate -/

section Centers

variable {coords : List ℚ} {k : Nat}

theorem length_centers (coords : List ℚ) : (centers coords).length = coords.length - 1 := by
  unfold centers
  rw [List.length_zipWith, List.length_tail]
  omega

theorem coord_centers (hk : k + 1 < coords.length) :
    coord (centers coords) k = 1 / 2 * (coord coords k + coord coords (k + 1)) := by
  have hlen : k < (centers coords).length := by
    rw [length_centers]
    omega
  rw [coord_eq_getElem hlen, coord_eq_getElem (Nat.lt_of_succ_lt hk), coord_eq_getElem hk]
  simp [centers]

/-- **No two centers are the same.** -/
theorem centers_sorted (h : coords.Pairwise (· < ·)) : (centers coords).Pairwise (· < ·) := by
  rw [List.pairwise_iff_getElem]
  intro i j hi hj hij
  rw [length_centers] at hi hj
  rw [← coord_eq_getElem, ← coord_eq_getElem, coord_centers (by omega), coord_centers (by omega)]
  have hleft := coord_lt h hij (by omega)
  have hright := coord_lt h (show i + 1 < j + 1 by omega) (by omega)
  linarith

end Centers

/-- The number of centers that are not behind a coordinate: `std::upper_bound` -/
def upper_bound (centers : List ℚ) (x : ℚ) : Nat := centers.findIdx (x < ·)

/-- The casts to `int` of the position and of the size leave room for the
    subtractions. So it is for all below `2 ^ 31`. -/
def CastsFit (n upper : Nat) : Prop := -2147483648 < to_int upper ∧ -2147483646 ≤ to_int n

theorem clamp_index_bounds {n : Nat} {i j : Int} (hn : 2 ≤ n) (h : clamp_index n i = .returned j) :
    -2147483646 ≤ to_int n ∧ 0 ≤ j ∧ j + 1 < n ∧ j < max 1 (to_int n - 1) := by
  have hle := to_int_le (Int.natCast_nonneg n)
  have hsize := fits_32.mp (fits_to_int n)
  unfold clamp_index at h
  dsimp only at h
  obtain ⟨hlast, h⟩ := signed_bind_eq_returned.mp h
  rw [fits_32] at hlast
  by_cases hend : max i 0 ≥ to_int n - 1
  · rw [if_pos hend] at h
    obtain ⟨hbefore, h⟩ := signed_bind_eq_returned.mp h
    rw [fits_32] at hbefore
    have hj := Outcome.returned.inj h
    refine ⟨by omega, ?_, ?_, ?_⟩
    · omega
    · omega
    · omega
  · rw [if_neg hend] at h
    cases h
    omega

theorem clamp_index_returns {n : Nat} (h : -2147483646 ≤ to_int n) (i : Int) :
    ∃ j, clamp_index n i = .returned j := by
  have hsize := fits_32.mp (fits_to_int n)
  unfold clamp_index
  dsimp only
  rw [signed_of_fits (fits_32.mpr (by omega)), Outcome.returned_bind]
  by_cases hend : max i 0 ≥ to_int n - 1
  · rw [if_pos hend, signed_of_fits (fits_32.mpr (by omega)), Outcome.returned_bind]
    exact ⟨_, rfl⟩
  · rw [if_neg hend]
    exact ⟨_, rfl⟩

section Locate

variable {centers : List ℚ} {x t : ℚ} {i : Int}

theorem locate_some : locate centers (some x) = (do
    let start ← signed 32 (to_int (upper_bound centers x) - 1)
    let i ← clamp_index centers.length start
    match centers[i.toNat]?, centers[i.toNat + 1]? with
    | some x0, some x1 => return (i, clamp_unit ((x - x0) / (x1 - x0)))
    | _, _ => .undefined) := rfl

theorem locate_parts (hsorted : centers.Pairwise (· < ·))
    (h : locate centers (some x) = .returned (i, t)) :
    2 ≤ centers.length ∧ CastsFit centers.length (upper_bound centers x) ∧
      clamp_index centers.length (to_int (upper_bound centers x) - 1) = .returned i ∧
      (0 ≤ i ∧ i + 1 < centers.length) ∧ coord centers i.toNat < coord centers (i.toNat + 1) ∧
      t = clamp_unit ((x - coord centers i.toNat) /
        (coord centers (i.toNat + 1) - coord centers i.toNat)) := by
  have hupper := fits_32.mp (fits_to_int (upper_bound centers x))
  rw [locate_some] at h
  obtain ⟨hstart, h⟩ := signed_bind_eq_returned.mp h
  obtain ⟨k, hk, h⟩ := Outcome.bind_eq_returned.mp h
  rw [fits_32] at hstart
  split at h
  · next x0 x1 hx0 hx1 =>
    cases h
    obtain ⟨hlt0, rfl⟩ := List.getElem?_eq_some_iff.mp hx0
    obtain ⟨hlt1, rfl⟩ := List.getElem?_eq_some_iff.mp hx1
    have hn : 2 ≤ centers.length := by omega
    obtain ⟨hsize, hlo, hhi, -⟩ := clamp_index_bounds hn hk
    refine ⟨hn, ⟨?_, hsize⟩, hk, ⟨hlo, hhi⟩, coord_lt hsorted (Nat.lt_succ_self _) hlt1, ?_⟩
    · omega
    · rw [coord_eq_getElem hlt0, coord_eq_getElem hlt1]
  · cases h

theorem locate_returns (hn : 2 ≤ centers.length)
    (hfit : CastsFit centers.length (upper_bound centers x)) :
    ∃ i t, locate centers (some x) = .returned (i, t) := by
  have hupper := fits_32.mp (fits_to_int (upper_bound centers x))
  obtain ⟨hlow, hsize⟩ := hfit
  obtain ⟨i, hi⟩ := clamp_index_returns hsize (to_int (upper_bound centers x) - 1)
  obtain ⟨-, hlo, hhi, -⟩ := clamp_index_bounds hn hi
  have hstart : Fits 32 (to_int (upper_bound centers x) - 1) := fits_32.mpr (by omega)
  have hx0 := List.getElem?_eq_getElem (show i.toNat < centers.length by omega)
  have hx1 := List.getElem?_eq_getElem (show i.toNat + 1 < centers.length by omega)
  rw [locate_some, signed_of_fits hstart, Outcome.returned_bind, hi, Outcome.returned_bind, hx0, hx1]
  exact ⟨i, _, rfl⟩

end Locate

/-! ## Section 2: Rows -/

variable {p : Meshes} {c : Fin p.dst.n_cells} {cells : List (Int × ℚ)} {row : List p.Entry}

theorem stencil_entries_parts (h : p.stencil_entries c cells = .returned row) :
    row.map (fun e => ((e.col.val : Int), e.weight)) = cells ∧ ∀ e ∈ row, e.row = c := by
  have hparts : ∀ {cell : Int × ℚ} {e : p.Entry}, (do
      let i ← element p.src.n_cells cell.1
      return (⟨c, i, cell.2⟩ : p.Entry) : Outcome String p.Entry) = .returned e →
      ((e.col.val : Int), e.weight) = cell ∧ e.row = c := by
    intro cell e he
    obtain ⟨i, hi, he⟩ := Outcome.bind_eq_returned.mp he
    cases he
    unfold element at hi
    split at hi
    · next hin =>
      cases hi
      exact ⟨Prod.ext (Int.toNat_of_nonneg hin.1) rfl, rfl⟩
    · cases hi
  have hall := Outcome.mapM_eq_returned.mp h
  clear h
  induction hall with
  | nil => exact ⟨rfl, fun e he => absurd he List.not_mem_nil⟩
  | cons hfirst _ ih =>
    obtain ⟨hcell, hrow⟩ := hparts hfirst
    refine ⟨List.cons_eq_cons.mpr ⟨hcell, ih.1⟩, ?_⟩
    intro e he
    rcases List.mem_cons.mp he with rfl | hrest
    · exact hrow
    · exact ih.2 e hrest

theorem stencil_entries_returns (h : ∀ cell ∈ cells, 0 ≤ cell.1 ∧ cell.1 < p.src.n_cells) :
    ∃ row, p.stencil_entries c cells = .returned row := by
  apply Outcome.mapM_returns.mpr
  intro cell hcell
  obtain ⟨hlo, hhi⟩ := h cell hcell
  have hin : 0 ≤ cell.1 ∧ cell.1.toNat < p.src.n_cells := ⟨hlo, by omega⟩
  unfold element
  rw [dif_pos hin]
  exact ⟨_, rfl⟩

/-- **A row is safe**: the mean is that of some vertices, the centers that are
    read are there and differ, and the weights of the row are not negative and
    sum to 1. -/
structure SafeRow (p : Meshes) (info : RectilinearGridInfo) (c : Fin p.dst.n_cells) : Prop where
  vertices : p.dst.cells c ≠ []
  read : ∀ point, p.dst.mean c = some point →
    (∃ i t, locate (centers info.unique_lons) (some point.1) = .returned (i, t) ∧
      (0 ≤ i ∧ i + 1 < info.ni) ∧
      coord (centers info.unique_lons) (i.toNat + 1) - coord (centers info.unique_lons) i.toNat ≠ 0) ∧
    ∃ j t, locate (centers info.unique_lats) (some point.2) = .returned (j, t) ∧
      (0 ≤ j ∧ j + 1 < info.nj) ∧
      coord (centers info.unique_lats) (j.toNat + 1) - coord (centers info.unique_lats) j.toNat ≠ 0
  row : ∃ row, p.bilinear_nonuniform_row info c = .returned row ∧
    (∀ e ∈ row, e.row = c ∧ e.col.val < info.ni * info.nj ∧ 0 ≤ e.weight) ∧
    (row.map (·.weight)).sum = 1

/-- **The point has a place** among the centers: there are two columns and two
    rows, and the casts fit. -/
structure Placed (p : Meshes) (info : RectilinearGridInfo) (c : Fin p.dst.n_cells) (point : Point2) :
    Prop where
  mean : p.dst.mean c = some point
  columns : 2 ≤ info.ni
  rows : 2 ≤ info.nj
  lon : CastsFit info.ni (upper_bound (centers info.unique_lons) point.1)
  lat : CastsFit info.nj (upper_bound (centers info.unique_lats) point.2)

variable {info : RectilinearGridInfo} {point : Point2}

theorem mean_eq_some (h : p.dst.mean c = some point) : p.dst.cells c ≠ [] := by
  intro hnil
  unfold Mesh.mean at h
  rw [hnil] at h
  cases h

theorem mean_of_vertices (h : p.dst.cells c ≠ []) : ∃ point, p.dst.mean c = some point := by
  unfold Mesh.mean
  dsimp only
  rw [if_neg (by simpa using h)]
  exact ⟨_, rfl⟩

theorem length_lons (hgrid : IsGrid info p.src.n_cells) :
    (centers info.unique_lons).length = info.ni := by
  rw [length_centers, hgrid.lons_length, Nat.add_sub_cancel]

theorem length_lats (hgrid : IsGrid info p.src.n_cells) :
    (centers info.unique_lats).length = info.nj := by
  rw [length_centers, hgrid.lats_length, Nat.add_sub_cancel]

theorem nonuniform_stencil_eq {i j : Int} {tx ty : ℚ} (hmean : p.dst.mean c = some point)
    (hi : locate (centers info.unique_lons) (some point.1) = .returned (i, tx))
    (hj : locate (centers info.unique_lats) (some point.2) = .returned (j, ty)) :
    p.bilinear_nonuniform_row info c =
      p.stencil_entries c (stencil info.ni i (i + 1) j (j + 1) tx ty) := by
  unfold bilinear_nonuniform_row
  dsimp only
  rw [hmean, Option.map_some, Option.map_some, hi, Outcome.returned_bind, hj, Outcome.returned_bind]

theorem safe_of_placed (hgrid : IsGrid info p.src.n_cells) (h : Placed p info c point) :
    SafeRow p info c := by
  have hlons := centers_sorted hgrid.lons_sorted
  have hlats := centers_sorted hgrid.lats_sorted
  have hni : 2 ≤ (centers info.unique_lons).length := (length_lons hgrid).symm ▸ h.columns
  have hnj : 2 ≤ (centers info.unique_lats).length := (length_lats hgrid).symm ▸ h.rows
  obtain ⟨i, tx, hi⟩ := locate_returns hni ((length_lons hgrid).symm ▸ h.lon)
  obtain ⟨j, ty, hj⟩ := locate_returns hnj ((length_lats hgrid).symm ▸ h.lat)
  obtain ⟨-, -, -, hi_bounds, hi_gap, htx⟩ := locate_parts hlons hi
  obtain ⟨-, -, -, hj_bounds, hj_gap, hty⟩ := locate_parts hlats hj
  rw [length_lons hgrid] at hi_bounds
  rw [length_lats hgrid] at hj_bounds
  have hcells : ∀ cell ∈ stencil info.ni i (i + 1) j (j + 1) tx ty,
      0 ≤ cell.1 ∧ cell.1 < info.ni * info.nj :=
    stencil_indices (by omega) (by omega) (by omega) (by omega)
  have hcells_src : ∀ cell ∈ stencil info.ni i (i + 1) j (j + 1) tx ty,
      0 ≤ cell.1 ∧ cell.1 < p.src.n_cells := by
    intro cell hcell
    rw [← hgrid.cells, Nat.cast_mul]
    exact hcells cell hcell
  obtain ⟨row, hrow⟩ := stencil_entries_returns (c := c) hcells_src
  obtain ⟨hparts, hown⟩ := stencil_entries_parts hrow
  refine ⟨mean_eq_some h.mean, ?_, row, ?_, ?_, ?_⟩
  · intro point' hpoint'
    rw [h.mean] at hpoint'
    cases hpoint'
    exact ⟨⟨i, tx, hi, hi_bounds, (sub_pos.mpr hi_gap).ne'⟩,
      ⟨j, ty, hj, hj_bounds, (sub_pos.mpr hj_gap).ne'⟩⟩
  · rw [nonuniform_stencil_eq h.mean hi hj, hrow]
  · intro e he
    have hmem := List.mem_map_of_mem (f := fun e : p.Entry => ((e.col.val : Int), e.weight)) he
    rw [hparts] at hmem
    refine ⟨hown e he, ?_, ?_⟩
    · have hcol : (e.col.val : Int) < info.ni * info.nj := (hcells _ hmem).2
      exact_mod_cast hcol
    · have htx_unit : 0 ≤ tx ∧ tx ≤ 1 := htx ▸ clamp_unit_bounds _
      have hty_unit : 0 ≤ ty ∧ ty ≤ 1 := hty ▸ clamp_unit_bounds _
      exact stencil_nonneg htx_unit hty_unit _ hmem
  · have hweights : row.map (·.weight) =
        (row.map fun e => ((e.col.val : Int), e.weight)).map (·.2) := by
      rw [List.map_map]
      rfl
    rw [hweights, hparts, stencil_sum]

theorem placed_of_safe (hgrid : IsGrid info p.src.n_cells) (h : SafeRow p info c) :
    ∃ point, Placed p info c point := by
  obtain ⟨point, hmean⟩ := mean_of_vertices h.vertices
  obtain ⟨⟨i, tx, hi, -⟩, ⟨j, ty, hj, -⟩⟩ := h.read point hmean
  obtain ⟨hcolumns, hlon, -⟩ := locate_parts (centers_sorted hgrid.lons_sorted) hi
  obtain ⟨hrows, hlat, -⟩ := locate_parts (centers_sorted hgrid.lats_sorted) hj
  rw [length_lons hgrid] at hcolumns hlon
  rw [length_lats hgrid] at hrows hlat
  exact ⟨point, hmean, hcolumns, hrows, hlon, hlat⟩

/-! ## Section 3: Uniform grids -/

/-- The same uniform grid, as the two paths receive it. -/
structure Uniform (info : RectilinearGridInfo) (reg : RegularGridInfo) : Prop where
  ni : reg.ni = info.ni
  nj : reg.nj = info.nj
  delta_lon_pos : 0 < reg.delta_lon
  delta_lat_pos : 0 < reg.delta_lat
  lons : ∀ k ≤ info.ni, coord info.unique_lons k = reg.lon_min + k * reg.delta_lon
  lats : ∀ k ≤ info.nj, coord info.unique_lats k = reg.lat_min + k * reg.delta_lat
  lon_max : reg.lon_max = reg.lon_min + info.ni * reg.delta_lon

/-- In each direction the point is in the grid, and the casts to `int` of the
    size and of the position do not wrap to less than two cells or below 0. -/
def InRange (n : Nat) (lo delta : ℚ) (upper : Nat) (x : ℚ) : Prop :=
  Within n lo delta x ∧ 2 ≤ to_int n ∧ upper < 2 ^ 31

section Direction

variable {n : Nat} {lo delta x : ℚ} {centers : List ℚ}

theorem upper_bound_eq (hdelta : 0 < delta) (hlen : centers.length = n)
    (hcoords : ∀ k < n, coord centers k = lo + (k + 1 / 2) * delta) (hx : Within n lo delta x) :
    (upper_bound centers x : Int) = ⌊(x - lo) / delta - 1 / 2⌋ + 1 := by
  have hsorted : centers.Pairwise (· < ·) := by
    rw [List.pairwise_iff_getElem]
    intro i j hi hj hij
    rw [← coord_eq_getElem, ← coord_eq_getElem, hcoords i (hlen ▸ hi), hcoords j (hlen ▸ hj)]
    have hcast : (i : ℚ) < j := by exact_mod_cast hij
    gcongr
  obtain ⟨hlo, hhi⟩ := BilinearRectKernel.floor_of_within hdelta hx
  -- a center is not behind the coordinate exactly when its number is not above the floor
  have hbefore : ∀ k < n, (coord centers k ≤ x ↔ (k : Int) ≤ ⌊(x - lo) / delta - 1 / 2⌋) := by
    intro k hk
    have hdiv : ((k : ℚ) + 1 / 2) ≤ (x - lo) / delta ↔ ((k : ℚ) + 1 / 2) * delta ≤ x - lo :=
      le_div_iff₀ hdelta
    rw [hcoords k hk, Int.le_floor, Int.cast_natCast, le_sub_iff_add_le, hdiv, le_sub_iff_add_le']
  have hle : upper_bound centers x ≤ n := hlen ▸ List.findIdx_le_length
  obtain ⟨m, hm⟩ := Int.eq_ofNat_of_zero_le (show 0 ≤ ⌊(x - lo) / delta - 1 / 2⌋ + 1 by omega)
  rw [hm, Nat.cast_inj]
  apply le_antisymm
  · by_contra hmore
    have hlt : m < n := by omega
    have hnot := List.not_of_lt_findIdx (not_le.mp hmore)
    have hread := coord_eq_getElem (k := m) (hlen ▸ hlt)
    rw [decide_eq_false_iff_not, ← hread, not_lt, hbefore m hlt] at hnot
    omega
  · by_contra hless
    have hlast : m - 1 < n := by omega
    have hpos : 1 ≤ m := by omega
    have hcoord : coord centers (m - 1) ≤ x := (hbefore (m - 1) hlast).mpr (by omega)
    have hbehind := lt_upper_bound hsorted (hlen ▸ hlast) hcoord
    unfold upper_bound at hless
    omega

theorem part_eq {i : Int} (hdelta : 0 < delta)
    (hcoords : ∀ k < n, coord centers k = lo + (k + 1 / 2) * delta) (hi : 0 ≤ i ∧ i + 1 < n) :
    (x - coord centers i.toNat) / (coord centers (i.toNat + 1) - coord centers i.toNat) =
      (x - lo) / delta - 1 / 2 - i := by
  obtain ⟨k, rfl⟩ := Int.eq_ofNat_of_zero_le hi.1
  have hne := hdelta.ne'
  rw [Int.toNat_natCast, hcoords k (by omega), hcoords (k + 1) (by omega)]
  have hgap : lo + (((k + 1 : Nat) : ℚ) + 1 / 2) * delta - (lo + ((k : ℚ) + 1 / 2) * delta) = delta := by
    push_cast
    ring
  rw [hgap, Int.cast_natCast]
  field_simp
  ring

theorem casts_of_in_range {upper : Nat} (h : InRange n lo delta upper x) : CastsFit n upper := by
  have hsize := h.2.1
  unfold CastsFit
  rw [to_int_of_lt h.2.2]
  omega

end Direction

section Kernel

variable {reg : RegularGridInfo} {config : RegridConfig}

theorem coord_center_lons (hgrid : IsGrid info p.src.n_cells) (h : Uniform info reg) :
    ∀ k < info.ni, coord (centers info.unique_lons) k = reg.lon_min + (k + 1 / 2) * reg.delta_lon := by
  intro k hk
  have hlen := hgrid.lons_length
  rw [coord_centers (by omega), h.lons k (by omega), h.lons (k + 1) (by omega)]
  push_cast
  ring

theorem coord_center_lats (hgrid : IsGrid info p.src.n_cells) (h : Uniform info reg) :
    ∀ k < info.nj, coord (centers info.unique_lats) k = reg.lat_min + (k + 1 / 2) * reg.delta_lat := by
  intro k hk
  have hlen := hgrid.lats_length
  rw [coord_centers (by omega), h.lats k (by omega), h.lats (k + 1) (by omega)]
  push_cast
  ring

theorem kernel_regular (h : Uniform info reg) (hni : 1 ≤ info.ni) (hnj : 1 ≤ info.nj) :
    (bilinear_kernel reg).Regular where
  delta_lon_pos := h.delta_lon_pos
  delta_lat_pos := h.delta_lat_pos
  ni_pos := hni.trans_eq h.ni.symm
  nj_pos := hnj.trans_eq h.nj.symm
  period := by
    intro hper
    have hspan := of_decide_eq_true hper
    rw [h.lon_max, add_sub_cancel_left, ← h.ni] at hspan
    exact hspan

/-- **The grid does not go round** by the test of the uniform path. -/
def Plain (reg : RegularGridInfo) : Prop := (bilinear_kernel reg).is_periodic = false

/-- What the two paths find in one direction is the same. -/
structure SamePlace (n : Nat) (centers : List ℚ) (f x : ℚ) (i : Int) (t : ℚ) : Prop where
  fits : Fits 32 ⌊f⌋
  clamped : clamp_index n ⌊f⌋ = .returned i
  located : locate centers (some x) = .returned (i, t)
  next : i + 1 < to_int n
  part : t = clamp_unit (f - i)

theorem same_place {n : Nat} {lo delta x : ℚ} {centers : List ℚ} (hdelta : 0 < delta)
    (hlen : centers.length = n)
    (hcoords : ∀ k < n, coord centers k = lo + (k + 1 / 2) * delta)
    (hsorted : centers.Pairwise (· < ·))
    (h : InRange n lo delta (upper_bound centers x) x) :
    ∃ i t, SamePlace n centers ((x - lo) / delta - 1 / 2) x i t := by
  have hsize := to_int_le (Int.natCast_nonneg n)
  have hupper := upper_bound_eq hdelta hlen hcoords h.1
  have htwo := h.2.1
  have hless := h.2.2
  obtain ⟨i, t, hlocated⟩ := locate_returns (x := x) (by omega) (hlen.symm ▸ casts_of_in_range h)
  obtain ⟨-, -, hclamp, hbounds, -, ht⟩ := locate_parts hsorted hlocated
  rw [hlen] at hclamp hbounds
  rw [to_int_of_lt hless, hupper, add_sub_cancel_right] at hclamp
  obtain ⟨-, -, -, hnext⟩ := clamp_index_bounds (by omega) hclamp
  rw [part_eq hdelta hcoords hbounds] at ht
  exact ⟨i, t, fits_32.mpr (by omega), hclamp, hlocated, by omega, ht⟩

theorem rect_row_of_places (hreg : (bilinear_kernel reg).Regular) (hplain : Plain reg) {i j : Int}
    {tx ty : ℚ} {lons lats : List ℚ} (hmean : p.dst.mean c = some point)
    (haccept : (bilinear_kernel reg).Accepts point)
    (hi : SamePlace reg.ni lons ((bilinear_kernel reg).fi point.1) point.1 i tx)
    (hj : SamePlace reg.nj lats ((bilinear_kernel reg).fj point.2) point.2 j ty) :
    p.bilinear_rect_row config reg c =
      p.stencil_entries c (stencil reg.ni i (i + 1) j (j + 1) tx ty) := by
  have hindex : (bilinear_kernel reg).lon_index ⌊(bilinear_kernel reg).fi point.1⌋ = .returned i := by
    unfold BilinearRectKernel.lon_index
    rw [hplain, if_neg (by decide)]
    exact hi.clamped
  have hi_next := hi.next
  have hj_next := hj.next
  have hclamp : clamp_index (bilinear_kernel reg).nj ⌊(bilinear_kernel reg).fj point.2⌋ = .returned j :=
    hj.clamped
  have hweights : (bilinear_kernel reg).compute_weights point =
      .returned (some (stencil reg.ni i (i + 1) j (j + 1) tx ty)) := by
    rw [BilinearRectKernel.compute_weights_of_accepted hreg haccept, signed_of_fits hi.fits,
      Outcome.returned_bind, signed_of_fits hj.fits, Outcome.returned_bind, hclamp,
      Outcome.returned_bind, hindex, Outcome.returned_bind]
    show Outcome.returned (some (stencil reg.ni i
      (if i + 1 ≥ to_int reg.ni then _ else i + 1) j
      (if j + 1 ≥ to_int reg.nj then _ else j + 1) _ _)) = _
    rw [if_neg (by omega), if_neg (by omega), ← hi.part, ← hj.part]
  unfold bilinear_rect_row
  rw [hmean]
  dsimp only
  rw [hweights, Outcome.returned_bind]

/-! ## Section 4: Which rows are right -/

/-- The point is a mean, it is in the source grid, and the sizes and the
    positions stay in range. -/
def InSource (p : Meshes) (info : RectilinearGridInfo) (reg : RegularGridInfo)
    (c : Fin p.dst.n_cells) : Prop :=
  ∃ point, p.dst.mean c = some point ∧
    InRange info.ni reg.lon_min reg.delta_lon (upper_bound (centers info.unique_lons) point.1)
      point.1 ∧
    InRange info.nj reg.lat_min reg.delta_lat (upper_bound (centers info.unique_lats) point.2)
      point.2

theorem fi_of_plain (hplain : Plain reg) :
    (bilinear_kernel reg).fi point.1 = (point.1 - reg.lon_min) / reg.delta_lon - 1 / 2 := by
  unfold BilinearRectKernel.fi BilinearRectKernel.normalize
  rw [hplain, if_neg (by decide)]
  rfl

/-- **A point in the source** gets the same safe row on both paths. -/
theorem same_of_in_source (hgrid : IsGrid info p.src.n_cells) (h : Uniform info reg)
    (hplain : Plain reg) (hsource : InSource p info reg c) :
    SafeRow p info c ∧ p.bilinear_nonuniform_row info c = p.bilinear_rect_row config reg c := by
  obtain ⟨point, hmean, hlon, hlat⟩ := hsource
  have hni := to_int_le (Int.natCast_nonneg info.ni)
  have hnj := to_int_le (Int.natCast_nonneg info.nj)
  have hni_two := hlon.2.1
  have hnj_two := hlat.2.1
  have hreg := kernel_regular h (show 1 ≤ info.ni by omega) (show 1 ≤ info.nj by omega)
  have haccept : (bilinear_kernel reg).Accepts point := by
    refine ⟨fun _ => ?_, ?_⟩
    · show Within reg.ni reg.lon_min reg.delta_lon point.1
      rw [h.ni]
      exact hlon.1
    · show Within reg.nj reg.lat_min reg.delta_lat point.2
      rw [h.nj]
      exact hlat.1
  obtain ⟨i, tx, hi⟩ := same_place h.delta_lon_pos (length_lons hgrid) (coord_center_lons hgrid h)
    (centers_sorted hgrid.lons_sorted) hlon
  obtain ⟨j, ty, hj⟩ := same_place h.delta_lat_pos (length_lats hgrid) (coord_center_lats hgrid h)
    (centers_sorted hgrid.lats_sorted) hlat
  have hplaced : Placed p info c point :=
    ⟨hmean, by omega, by omega, casts_of_in_range hlon, casts_of_in_range hlat⟩
  refine ⟨safe_of_placed hgrid hplaced, ?_⟩
  rw [← fi_of_plain hplain, ← h.ni] at hi
  rw [← h.nj] at hj
  rw [nonuniform_stencil_eq hmean hi.located hj.located,
    rect_row_of_places hreg hplain hmean haccept hi hj, h.ni]

theorem two_le_of_next {n : Nat} {i : Int} (hi : 0 ≤ i)
    (h : i + 1 = if i + 1 ≥ to_int n then to_int n - 1 else i + 1) : 2 ≤ to_int n := by
  by_contra hless
  rw [if_pos (by omega)] at h
  omega

theorem lt_of_casts_fit {n upper : Nat} {f : Int} (hupper : (upper : Int) = f + 1) (hf : Fits 32 f)
    (h : CastsFit n upper) : upper < 2 ^ 31 := by
  by_contra hge
  rw [fits_32] at hf
  have heq : upper = 2147483648 := by omega
  have hlow := h.1
  rw [heq] at hlow
  exact absurd hlow (by decide)

/-- **A safe row that is that of the uniform path** is for a point in the
    source. -/
theorem in_source_of_same (hgrid : IsGrid info p.src.n_cells) (h : Uniform info reg)
    (hplain : Plain reg) (hsafe : SafeRow p info c)
    (hsame : p.bilinear_nonuniform_row info c = p.bilinear_rect_row config reg c) :
    InSource p info reg c := by
  obtain ⟨point, hmean, hcolumns, hrows, hlon, hlat⟩ := placed_of_safe hgrid hsafe
  have hreg := kernel_regular h (show 1 ≤ info.ni by omega) (show 1 ≤ info.nj by omega)
  obtain ⟨row, hrow, -, hsum⟩ := hsafe.row
  -- a row that is thrown away has no weights
  have hnot_none : (bilinear_kernel reg).compute_weights point ≠ .returned none := by
    intro hnone
    rw [hrow] at hsame
    unfold bilinear_rect_row at hsame
    rw [hmean] at hsame
    dsimp only at hsame
    rw [hnone, Outcome.returned_bind] at hsame
    dsimp only at hsame
    split at hsame
    · cases hsame
    · cases hsame
      norm_num at hsum
  have haccept : (bilinear_kernel reg).Accepts point := by
    by_contra hreject
    exact hnot_none (BilinearRectKernel.compute_weights_of_rejected hreg hreject)
  have hwithin_lon : Within info.ni reg.lon_min reg.delta_lon point.1 := h.ni ▸ haccept.1 hplain
  have hwithin_lat : Within info.nj reg.lat_min reg.delta_lat point.2 := h.nj ▸ haccept.2
  obtain ⟨⟨i, tx, hi, -⟩, ⟨j, ty, hj, -⟩⟩ := hsafe.read point hmean
  obtain ⟨-, -, hi_clamp, hi_bounds, -, -⟩ := locate_parts (centers_sorted hgrid.lons_sorted) hi
  obtain ⟨-, -, hj_clamp, hj_bounds, -, -⟩ := locate_parts (centers_sorted hgrid.lats_sorted) hj
  rw [length_lons hgrid] at hi_clamp
  rw [length_lats hgrid] at hj_clamp
  rw [nonuniform_stencil_eq hmean hi hj] at hrow hsame
  rw [hrow] at hsame
  unfold bilinear_rect_row at hsame
  rw [hmean] at hsame
  dsimp only at hsame
  obtain ⟨weights, hweights, hcells⟩ := Outcome.bind_eq_returned.mp hsame.symm
  cases weights with
  | none => exact absurd hweights hnot_none
  | some cells =>
    obtain ⟨hfi, hfj, i', j', hi', hj', hstencil⟩ :=
      BilinearRectKernel.parts_of_returned hreg haccept hweights
    have hupper_lon := upper_bound_eq h.delta_lon_pos (length_lons hgrid) (coord_center_lons hgrid h)
      hwithin_lon
    have hupper_lat := upper_bound_eq h.delta_lat_pos (length_lats hgrid) (coord_center_lats hgrid h)
      hwithin_lat
    rw [fi_of_plain hplain] at hfi hi'
    have hless_lon := lt_of_casts_fit hupper_lon hfi hlon
    have hless_lat := lt_of_casts_fit hupper_lat hfj hlat
    -- the first neighbours are the same
    rw [to_int_of_lt hless_lon, hupper_lon, add_sub_cancel_right] at hi_clamp
    rw [to_int_of_lt hless_lat, hupper_lat, add_sub_cancel_right] at hj_clamp
    unfold BilinearRectKernel.lon_index at hi'
    rw [hplain, if_neg (by decide)] at hi'
    have hi_same : i = i' := by
      have hclamp : clamp_index reg.ni ⌊(point.1 - reg.lon_min) / reg.delta_lon - 1 / 2⌋ =
        .returned i' := hi'
      rw [h.ni, hi_clamp] at hclamp
      exact Outcome.returned.inj hclamp
    have hj_same : j = j' := by
      have hclamp : clamp_index reg.nj ⌊(point.2 - reg.lat_min) / reg.delta_lat - 1 / 2⌋ =
        .returned j' := hj'
      rw [h.nj, hj_clamp] at hclamp
      exact Outcome.returned.inj hclamp
    -- and so are the second ones
    have hall := (stencil_entries_parts hrow).1.symm.trans (stencil_entries_parts hcells).1
    rw [hstencil, ← hi_same, ← hj_same, hplain] at hall
    unfold stencil at hall
    simp only [List.cons.injEq, Prod.mk.injEq, and_true] at hall
    obtain ⟨-, ⟨hcolumn, -⟩, ⟨hrow_index, -⟩, -⟩ := hall
    have hni : (bilinear_kernel reg).ni = info.ni := h.ni
    have hnj : (bilinear_kernel reg).nj = info.nj := h.nj
    simp only [Bool.false_eq_true, if_false, hni] at hcolumn
    rw [hni, hnj, add_left_inj] at hrow_index
    have hnext_column := add_left_cancel hcolumn
    have hnext_row := mul_right_cancel₀ (show (info.ni : Int) ≠ 0 by omega) hrow_index
    exact ⟨point, hmean, ⟨hwithin_lon, two_le_of_next hi_bounds.1 hnext_column, hless_lon⟩,
      ⟨hwithin_lat, two_le_of_next hj_bounds.1 hnext_row, hless_lat⟩⟩

/-- **The rows of the path for any coordinates**: which of them are safe, and
    which are also those of the uniform path, whatever the policy. -/
theorem nonuniform_row_iff (hgrid : IsGrid info p.src.n_cells) (c : Fin p.dst.n_cells) :
    (SafeRow p info c ↔ ∃ point, Placed p info c point) ∧
      ∀ config reg, Uniform info reg → Plain reg →
        ((SafeRow p info c ∧ p.bilinear_nonuniform_row info c = p.bilinear_rect_row config reg c) ↔
          InSource p info reg c) := by
  constructor
  · constructor
    · exact placed_of_safe hgrid
    · intro ⟨point, hplaced⟩
      exact safe_of_placed hgrid hplaced
  · intro config reg hunif hplain
    constructor
    · intro ⟨hsafe, hsame⟩
      exact in_source_of_same hgrid hunif hplain hsafe hsame
    · exact same_of_in_source hgrid hunif hplain

end Kernel

/-! ## Section 5: Two grids of squares -/

/-- Two rows of two unit squares. -/
def four_squares : Mesh where
  n_nodes := 9
  n_cells := 4
  coords := fun ni => ⟨(ni.val % 3 : Nat), (ni.val / 3 : Nat), 0⟩
  csys := .SphericalDeg
  cells := fun c =>
    let first := c.val % 2 + 3 * (c.val / 2)
    [first, first + 1, first + 4, first + 3].map (Fin.ofNat 9)
  cell_areas := none
  cell_mask := none

section
local instance square_nodes : NeZero 4 := ⟨four_ne_zero⟩

/-- One square of the same size, with its lower left corner at `(x, y)`. -/
def square_at (x y : ℚ) : Mesh where
  n_nodes := 4
  n_cells := 1
  coords := fun ni => ⟨x + (ni.val % 2 : Nat), y + (ni.val / 2 : Nat), 0⟩
  csys := .SphericalDeg
  cells := fun _ => [0, 1, 3, 2]
  cell_areas := none
  cell_mask := none

end

/-- A source and one destination square. The rows of both paths read no more of
    the two meshes. -/
def square_over (src : Mesh) (hcells : 0 < src.n_cells) (x y : ℚ) : Meshes where
  src := src
  dst := square_at x y
  geometry :=
    { src_centroid := fun _ => (1 / 2, 1 / 2)
      dst_centroid := fun _ => (x + 1 / 2, y + 1 / 2)
      src_areas := fun _ _ => 1
      dst_areas := fun _ _ => 1
      src_degenerate := fun _ => false
      dst_degenerate := fun _ => false
      sorted_dst := ArrayLoops.Schedule.serial 1
      nearest := fun _ k _ => [(⟨0, hcells⟩ : Fin src.n_cells)].take k
      intersects := fun _ _ => [⟨0, hcells⟩]
      overlap_area := fun _ _ _ => 1
      spherical_cap_rejects := fun _ _ => false
      clip := fun _ _ => ⟨[], 0⟩
      compute_polygon_overlap_area := fun _ _ => 1 }

/-- The only destination cell. -/
def over_square {src : Mesh} {hcells : 0 < src.n_cells} {x y : ℚ} :
    Fin (square_over src hcells x y).dst.n_cells := ⟨0, Nat.one_pos⟩

def four_squares_info : RectilinearGridInfo := ⟨true, 2, 2, [0, 1, 2], [0, 1, 2]⟩

def four_squares_reg : RegularGridInfo := ⟨true, 0, 2, 1, 0, 2, 1, 2, 2⟩

theorem four_squares_grid : IsGrid four_squares_info four_squares.n_cells where
  lons_length := rfl
  lats_length := rfl
  lons_sorted := by norm_num [four_squares_info]
  lats_sorted := by norm_num [four_squares_info]
  cells := rfl

theorem four_squares_uniform : Uniform four_squares_info four_squares_reg where
  ni := rfl
  nj := rfl
  delta_lon_pos := one_pos
  delta_lat_pos := one_pos
  lons := by
    intro k hk
    change k ≤ 2 at hk
    interval_cases k <;> norm_num [coord, four_squares_info, four_squares_reg]
  lats := by
    intro k hk
    change k ≤ 2 at hk
    interval_cases k <;> norm_num [coord, four_squares_info, four_squares_reg]
  lon_max := by norm_num [four_squares_info, four_squares_reg]

/-- A square in the middle. -/
def in_the_middle : Meshes := square_over four_squares (by decide) (1 / 4) (1 / 2)

/-- A square far away. -/
def far_away : Meshes := square_over four_squares (by decide) 5 5

theorem nonuniform_row_middle :
    SafeRow in_the_middle four_squares_info over_square ∧
      in_the_middle.bilinear_nonuniform_row four_squares_info over_square =
        in_the_middle.bilinear_rect_row (rect_config .DstArea) four_squares_reg over_square := by
  have hsource : InSource in_the_middle four_squares_info four_squares_reg over_square := by
    refine ⟨(3 / 4, 1), by decide +kernel, ?_, ?_⟩
    · unfold InRange Within
      decide +kernel
    · unfold InRange Within
      decide +kernel
  have hplain : Plain four_squares_reg := by
    unfold Plain
    decide +kernel
  exact ((nonuniform_row_iff four_squares_grid over_square).2 _ _ four_squares_uniform hplain).mpr
    hsource

/-- **Two defects.** In a source of one column the second center is read where
    there is none. And a cell that is far from the source gets the last source
    cell, where the uniform path throws or gives it nothing. -/
theorem one_column_and_far_away :
    (square_over (tall_mesh 1) Nat.one_pos 0 0).bilinear_nonuniform_row
        ⟨true, 1, 1, [0, 1], [0, 1]⟩ over_square = .undefined ∧
      (List.map (fun e => (e.col.val, e.weight)) <$>
          far_away.bilinear_nonuniform_row four_squares_info over_square) =
        .returned [(0, 0), (1, 0), (2, 0), (3, 1)] ∧
      far_away.bilinear_rect_row { rect_config .DstArea with unmapped := .Error } four_squares_reg
        over_square =
          .thrown "Unmapped destination cell 0 in bilinear regular-grid fast-path" ∧
      far_away.bilinear_rect_row (rect_config .DstArea) four_squares_reg over_square =
        .returned [] := by
  exact ⟨by decide +kernel, by decide +kernel, by decide +kernel, by decide +kernel⟩

end Axis.WeightGenerator.Meshes

import Helm.Axis.ConformingMeshes
import Helm.Framework.Bands

/-! # AXIS: corners from centers

  A structured grid without explicit corners gets them from the centers of its
  cells: a corner is the average of the centers around it, of which there are
  one, two or four. A grid whose first spacing fills the circle is periodic,
  and its first and last columns are neighbours. `synthesize_band_corners`
  runs the same kernel on the rows of a band.

  * On a rectilinear grid the corners lie between the centers, if there are at
    least two rows and two columns.
  * The bands of a partition, glued, are the corners of the whole grid.

  The kernel starts one team for each row, and the number of rows is an `int`.
  The rows of a new view are zero.

  Main results: `synthesized_cells_tile_iff`, `bands_agree_iff`.
-/

namespace Axis.CornerSynthesis

open Signed Segments

/-! ## Section 1: The code -/

/-- A `StructuredGrid` without explicit corners. The constructor compares the
    sizes of the arrays, which are in memory. -/
structure CenterGrid where
  ni : Nat
  nj : Nat
  center_lon : List ℚ
  center_lat : List ℚ
  ni_pos : 0 < ni
  nj_pos : 0 < nj
  length_lon : center_lon.length = ni * nj
  length_lat : center_lat.length = ni * nj
  fits : ni * nj < 2 ^ 64

/-- An element of a view. -/
def read (v : List ℚ) (idx : Nat) : Outcome String ℚ :=
  match v[idx]? with
  | some x => .returned x
  | none => .undefined

def detect_periodic_lon (ni : Nat) (center_lon : List ℚ) : Outcome String Bool :=
  if ni ≤ 1 then .returned false
  else do
    let lon1 ← read center_lon 1
    let lon0 ← read center_lon 0
    let dlon := lon1 - lon0
    let full_span := ni * |dlon|
    return decide (350 < full_span ∧ full_span < 370)

/-- The column that `cell_i` stands for, and the shift of its longitudes. -/
def wrapped_column (ni : Nat) (is_periodic : Bool) (cell_i : Int) : Option (Nat × ℚ) :=
  if is_periodic then
    if cell_i < 0 then some (ni - 1, -360)
    else if cell_i ≥ ni then some (0, 360)
    else some (cell_i.toNat, 0)
  else if 0 ≤ cell_i ∧ cell_i < ni then some (cell_i.toNat, 0)
  else none

structure Sums where
  sum_lon : ℚ
  sum_lat : ℚ
  count : Nat

section
variable (ni nj : Nat) (center_lon center_lat : List ℚ)

/-- The body of the loops over `dj` and `di`. -/
def add_cell (is_periodic : Bool) (ci cj : Nat) (s : Sums) (d : Int × Int) :
    Outcome String Sums :=
  let cell_i := (ci : Int) + d.2
  let cell_j := (cj : Int) + d.1
  match wrapped_column ni is_periodic cell_i with
  | none => .returned s
  | some (i, cell_lon) =>
    if 0 ≤ cell_j ∧ cell_j < nj then do
      let cell_idx := i + cell_j.toNat * ni
      let lon ← read center_lon cell_idx
      let lat ← read center_lat cell_idx
      return ⟨s.sum_lon + (lon + cell_lon), s.sum_lat + lat, s.count + 1⟩
    else .returned s

/-- One corner. Without a cell around it, it would be no number. -/
def corner (is_periodic : Bool) (ci cj : Nat) : Outcome String (ℚ × ℚ) := do
  let s ← [(-1, -1), (-1, 0), (0, -1), (0, 0)].foldlM
    (add_cell ni nj center_lon center_lat is_periodic ci cj) ⟨0, 0, 0⟩
  if s.count = 0 then .undefined
  else return (s.sum_lon / s.count, s.sum_lat / s.count)

/-- The longitudes and latitudes of the corner rows from `cj_lo` on. -/
def synthesize_corner_rows (cj_lo nrows : Nat) (is_periodic : Bool) :
    Outcome String (List (ℚ × ℚ)) :=
  let league_size := to_int nrows
  if league_size < 0 then .undefined
  else
    ((List.range nrows).flatMap fun (r : Nat) =>
      (List.range (ni + 1)).map fun (ci : Nat) => (ci, r)).mapM fun p =>
      if (p.2 : Int) < league_size then
        corner ni nj center_lon center_lat is_periodic p.1 (cj_lo + p.2)
      else .returned (0, 0)

def synthesize_band_corners (j0 j1 : Nat) : Outcome String (List (ℚ × ℚ)) :=
  if ni = 0 then .thrown "synthesize_band_corners: ni must be positive"
  else if j1 < j0 then .thrown "synthesize_band_corners: j1 must be >= j0"
  else if j1 > nj then
    .thrown ("synthesize_band_corners: j1 (" ++ toString j1 ++ ") exceeds nj_global (" ++
      toString nj ++ ")")
  else if center_lon.length ≠ ni * nj % 2 ^ 64 ∨ center_lat.length ≠ ni * nj % 2 ^ 64 then
    .thrown "synthesize_band_corners: center array extent must equal ni * nj_global"
  else do
    let nrows := j1 - j0 + 1
    let is_periodic ← detect_periodic_lon ni center_lon
    synthesize_corner_rows ni nj center_lon center_lat j0 nrows is_periodic

end

def synthesize_corners (grid : CenterGrid) : Outcome String (List (ℚ × ℚ)) := do
  let is_periodic ← detect_periodic_lon grid.ni grid.center_lon
  synthesize_corner_rows grid.ni grid.nj grid.center_lon grid.center_lat 0 (grid.nj + 1) is_periodic

def to_unstructured (grid : CenterGrid) : Outcome String UnstructuredMesh := do
  let corners ← synthesize_corners grid
  StructuredGrid.to_unstructured
    { ni := grid.ni, nj := grid.nj
      corner_lon := fun k => (corners.getD k (0, 0)).1
      corner_lat := fun k => (corners.getD k (0, 0)).2 }

/-! ## Section 2: The cells around a corner -/

/-- The row `cell_j`, if there is one. -/
def valid_row (nj : Nat) (cell_j : Int) : Option Nat :=
  if 0 ≤ cell_j ∧ cell_j < nj then some cell_j.toNat else none

/-- The columns next to a corner, with their shifts. -/
def columns_around (ni : Nat) (is_periodic : Bool) (ci : Nat) : List (Nat × ℚ) :=
  [-1, 0].filterMap fun di => wrapped_column ni is_periodic (ci + di)

/-- The rows next to a corner. -/
def rows_around (nj cj : Nat) : List Nat :=
  [-1, 0].filterMap fun dj => valid_row nj (cj + dj)

/-- The cells next to a corner. -/
def cells_around (ni nj : Nat) (is_periodic : Bool) (ci cj : Nat) : List (Nat × ℚ) :=
  (rows_around nj cj).flatMap fun j =>
    (columns_around ni is_periodic ci).map fun c => (c.1 + j * ni, c.2)

section
variable {ni nj : Nat} {is_periodic : Bool} {ci cj : Nat}

theorem wrapped_column_inside {i : Nat} (h : i < ni) :
    wrapped_column ni is_periodic i = some (i, 0) := by
  unfold wrapped_column
  cases is_periodic with
  | false => rw [if_neg Bool.false_ne_true, if_pos (by omega), Int.toNat_natCast]
  | true => rw [if_pos rfl, if_neg (by omega), if_neg (by omega), Int.toNat_natCast]

theorem wrapped_column_before : wrapped_column ni is_periodic (-1) =
    if is_periodic then some (ni - 1, -360) else none := by
  unfold wrapped_column
  cases is_periodic with
  | false => rfl
  | true => rfl

theorem wrapped_column_after : wrapped_column ni is_periodic ni =
    if is_periodic then some (0, 360) else none := by
  unfold wrapped_column
  cases is_periodic with
  | false => rw [if_neg Bool.false_ne_true, if_neg Bool.false_ne_true, if_neg (by omega)]
  | true => rw [if_pos rfl, if_pos rfl, if_neg (by omega), if_pos (le_refl _)]

theorem columns_around_eq : columns_around ni is_periodic ci =
    (wrapped_column ni is_periodic (ci - 1)).toList ++ (wrapped_column ni is_periodic ci).toList := by
  unfold columns_around
  rw [List.filterMap_cons, List.filterMap_cons, List.filterMap_nil, add_zero, Int.add_neg_one]
  cases wrapped_column ni is_periodic (ci - 1) with
  | none => cases wrapped_column ni is_periodic ci <;> rfl
  | some c => cases wrapped_column ni is_periodic ci <;> rfl

theorem columns_around_first (hni : 0 < ni) : columns_around ni is_periodic 0 =
    if is_periodic then [(ni - 1, -360), (0, 0)] else [(0, 0)] := by
  have hzero : wrapped_column ni is_periodic ((0 : Nat) : Int) = some (0, 0) :=
    wrapped_column_inside hni
  rw [columns_around_eq, hzero, show ((0 : Nat) : Int) - 1 = -1 by rfl, wrapped_column_before]
  cases is_periodic <;> rfl

theorem columns_around_inner (hlow : 0 < ci) (hhigh : ci < ni) :
    columns_around ni is_periodic ci = [(ci - 1, 0), (ci, 0)] := by
  rw [columns_around_eq, wrapped_column_inside hhigh, show (ci : Int) - 1 = ((ci - 1 : Nat) : Int) by
    omega, wrapped_column_inside (by omega)]
  rfl

theorem columns_around_last (hni : 0 < ni) : columns_around ni is_periodic ni =
    if is_periodic then [(ni - 1, 0), (0, 360)] else [(ni - 1, 0)] := by
  rw [columns_around_eq, wrapped_column_after, show (ni : Int) - 1 = ((ni - 1 : Nat) : Int) by omega,
    wrapped_column_inside (by omega)]
  cases is_periodic <;> rfl

theorem valid_row_inside {j : Nat} (h : j < nj) : valid_row nj j = some j := by
  unfold valid_row
  rw [if_pos (by omega), Int.toNat_natCast]

theorem valid_row_outside {j : Int} (h : j < 0 ∨ nj ≤ j) : valid_row nj j = none :=
  if_neg (by omega)

theorem rows_around_eq : rows_around nj cj =
    (valid_row nj (cj - 1)).toList ++ (valid_row nj cj).toList := by
  unfold rows_around
  rw [List.filterMap_cons, List.filterMap_cons, List.filterMap_nil, add_zero, Int.add_neg_one]
  cases valid_row nj (cj - 1) with
  | none => cases valid_row nj cj <;> rfl
  | some j => cases valid_row nj cj <;> rfl

theorem rows_around_first (hnj : 0 < nj) : rows_around nj 0 = [0] := by
  have hzero : valid_row nj ((0 : Nat) : Int) = some 0 := valid_row_inside hnj
  rw [rows_around_eq, hzero, valid_row_outside (by omega)]
  rfl

theorem rows_around_inner (hlow : 0 < cj) (hhigh : cj < nj) :
    rows_around nj cj = [cj - 1, cj] := by
  rw [rows_around_eq, valid_row_inside hhigh, show (cj : Int) - 1 = ((cj - 1 : Nat) : Int) by omega,
    valid_row_inside (by omega)]
  rfl

theorem rows_around_last (hnj : 0 < nj) : rows_around nj nj = [nj - 1] := by
  rw [rows_around_eq, valid_row_outside (.inr (le_refl _)),
    show (nj : Int) - 1 = ((nj - 1 : Nat) : Int) by omega, valid_row_inside (by omega)]
  rfl

theorem lt_of_wrapped_column (hni : 0 < ni) {cell_i : Int} {c : Nat × ℚ}
    (h : wrapped_column ni is_periodic cell_i = some c) : c.1 < ni := by
  unfold wrapped_column at h
  split at h
  · split at h
    · cases h
      show ni - 1 < ni
      omega
    · split at h
      · cases h
        exact hni
      · cases h
        show cell_i.toNat < ni
        omega
  · split at h
    · cases h
      show cell_i.toNat < ni
      omega
    · cases h

theorem lt_of_valid_row {cell_j : Int} {j : Nat} (h : valid_row nj cell_j = some j) : j < nj := by
  unfold valid_row at h
  split at h
  · cases h
    omega
  · cases h

theorem lt_of_mem_columns_around (hni : 0 < ni) {c : Nat × ℚ}
    (h : c ∈ columns_around ni is_periodic ci) : c.1 < ni := by
  obtain ⟨di, -, hcolumn⟩ := List.mem_filterMap.mp h
  exact lt_of_wrapped_column hni hcolumn

theorem lt_of_mem_rows_around {j : Nat} (h : j ∈ rows_around nj cj) : j < nj := by
  obtain ⟨dj, -, hrow⟩ := List.mem_filterMap.mp h
  exact lt_of_valid_row hrow

theorem columns_around_ne_nil (hni : 0 < ni) (hci : ci ≤ ni) :
    columns_around ni is_periodic ci ≠ [] := by
  rcases Nat.eq_zero_or_pos ci with rfl | hlow
  · rw [columns_around_first hni]
    cases is_periodic <;> simp
  · rcases hci.lt_or_eq with hhigh | rfl
    · rw [columns_around_inner hlow hhigh]
      simp
    · rw [columns_around_last hni]
      cases is_periodic <;> simp

theorem rows_around_ne_nil (hnj : 0 < nj) (hcj : cj ≤ nj) : rows_around nj cj ≠ [] := by
  rcases Nat.eq_zero_or_pos cj with rfl | hlow
  · rw [rows_around_first hnj]
    simp
  · rcases hcj.lt_or_eq with hhigh | rfl
    · rw [rows_around_inner hlow hhigh]
      simp
    · rw [rows_around_last hnj]
      simp

end

/-! ## Section 3: A corner is an average -/

section
variable (center_lon center_lat : List ℚ)

/-- The sums after some more cells. -/
def Sums.add_all (s : Sums) (cells : List (Nat × ℚ)) : Sums :=
  { sum_lon := s.sum_lon + (cells.map fun c => center_lon.getD c.1 0 + c.2).sum
    sum_lat := s.sum_lat + (cells.map fun c => center_lat.getD c.1 0).sum
    count := s.count + cells.length }

/-- The averages over the cells next to a corner. -/
def average (cells : List (Nat × ℚ)) : ℚ × ℚ :=
  ((cells.map fun c => center_lon.getD c.1 0 + c.2).sum / cells.length,
    (cells.map fun c => center_lat.getD c.1 0).sum / cells.length)

/-- The cell for `dj` and `di`, or none. -/
def cell_at (ni nj : Nat) (is_periodic : Bool) (ci cj : Nat) (d : Int × Int) :
    List (Nat × ℚ) :=
  (valid_row nj (cj + d.1)).toList.flatMap fun j =>
    (wrapped_column ni is_periodic (ci + d.2)).toList.map fun c => (c.1 + j * ni, c.2)

variable {center_lon center_lat} {ni nj : Nat} {is_periodic : Bool} {ci cj : Nat}

theorem read_getD {v : List ℚ} {idx : Nat} (h : idx < v.length) :
    read v idx = .returned (v.getD idx 0) := by
  unfold read
  rw [List.getD_eq_getElem?_getD, List.getElem?_eq_getElem h]
  rfl

theorem cell_idx_lt {i j : Nat} (hi : i < ni) (hj : j < nj) : i + j * ni < ni * nj := by
  calc i + j * ni < ni + j * ni := by omega
    _ = ni * (j + 1) := by ring
    _ ≤ ni * nj := Nat.mul_le_mul_left ni hj

theorem add_all_append (s : Sums) (cells cells' : List (Nat × ℚ)) :
    s.add_all center_lon center_lat (cells ++ cells') =
      (s.add_all center_lon center_lat cells).add_all center_lon center_lat cells' := by
  simp only [Sums.add_all, List.map_append, List.sum_append, List.length_append, add_assoc]

theorem add_cell_eq (hni : 0 < ni) (hlon : center_lon.length = ni * nj)
    (hlat : center_lat.length = ni * nj) (s : Sums) (d : Int × Int) :
    add_cell ni nj center_lon center_lat is_periodic ci cj s d =
      .returned (s.add_all center_lon center_lat (cell_at ni nj is_periodic ci cj d)) := by
  have hnone : s.add_all center_lon center_lat [] = s := by simp [Sums.add_all]
  unfold add_cell cell_at
  dsimp only
  cases hcolumn : wrapped_column ni is_periodic (ci + d.2) with
  | none =>
    have hempty : (valid_row nj (cj + d.1)).toList.flatMap (fun j =>
        (none : Option (Nat × ℚ)).toList.map fun c => (c.1 + j * ni, c.2)) = [] :=
      List.flatMap_eq_nil_iff.mpr fun _ _ => rfl
    rw [hempty, hnone]
  | some c =>
    dsimp only
    by_cases hrow : 0 ≤ (cj : Int) + d.1 ∧ (cj : Int) + d.1 < nj
    · have hidx : c.1 + ((cj : Int) + d.1).toNat * ni < ni * nj :=
        cell_idx_lt (lt_of_wrapped_column hni hcolumn) (by omega)
      rw [if_pos hrow, read_getD (by omega), read_getD (by omega), valid_row, if_pos hrow]
      simp [Sums.add_all]
    · rw [if_neg hrow, valid_row, if_neg hrow]
      exact congrArg Outcome.returned hnone.symm

theorem foldlM_add_cell (hni : 0 < ni) (hlon : center_lon.length = ni * nj)
    (hlat : center_lat.length = ni * nj) (ds : List (Int × Int)) (s : Sums) :
    ds.foldlM (add_cell ni nj center_lon center_lat is_periodic ci cj) s =
      .returned (s.add_all center_lon center_lat
        (ds.flatMap (cell_at ni nj is_periodic ci cj))) := by
  induction ds generalizing s with
  | nil => simp [Sums.add_all]
  | cons d ds ih =>
    rw [List.foldlM_cons, add_cell_eq hni hlon hlat, Outcome.returned_bind, ih, List.flatMap_cons,
      add_all_append]

theorem cells_around_eq : cells_around ni nj is_periodic ci cj =
    [(-1, -1), (-1, 0), (0, -1), (0, 0)].flatMap (cell_at ni nj is_periodic ci cj) := by
  unfold cells_around cell_at
  rw [rows_around_eq, columns_around_eq]
  simp only [List.flatMap_cons, List.flatMap_nil, add_zero, Int.add_neg_one, List.append_nil,
    List.flatMap_append]
  cases valid_row nj (cj - 1) with
  | none =>
    cases valid_row nj cj with
    | none => rfl
    | some j => simp
  | some j =>
    cases valid_row nj cj with
    | none => simp
    | some j => simp

theorem corner_eq (hni : 0 < ni) (hnj : 0 < nj) (hlon : center_lon.length = ni * nj)
    (hlat : center_lat.length = ni * nj) (hci : ci ≤ ni) (hcj : cj ≤ nj) :
    corner ni nj center_lon center_lat is_periodic ci cj =
      .returned (average center_lon center_lat (cells_around ni nj is_periodic ci cj)) := by
  have hpos : cells_around ni nj is_periodic ci cj ≠ [] := by
    unfold cells_around
    intro hnil
    obtain ⟨j, hj⟩ := List.exists_mem_of_ne_nil _ (rows_around_ne_nil hnj hcj)
    have hnone := List.flatMap_eq_nil_iff.mp hnil j hj
    exact columns_around_ne_nil hni hci (List.map_eq_nil_iff.mp hnone)
  have hcount := List.length_pos_iff.mpr hpos
  unfold corner
  rw [foldlM_add_cell hni hlon hlat, ← cells_around_eq, Outcome.returned_bind, if_neg]
  · simp [Sums.add_all, average]
  · show ¬ 0 + _ = 0
    omega

variable (ni nj center_lon center_lat is_periodic)

/-- One row of corners. -/
def corner_row (cj : Nat) : List (ℚ × ℚ) :=
  (List.range (ni + 1)).map fun ci =>
    average center_lon center_lat (cells_around ni nj is_periodic ci cj)

variable {ni nj center_lon center_lat is_periodic}

theorem synthesize_corner_rows_eq (hni : 0 < ni) (hnj : 0 < nj)
    (hlon : center_lon.length = ni * nj) (hlat : center_lat.length = ni * nj) {cj_lo nrows : Nat}
    (hrows : cj_lo + nrows ≤ nj + 1) (hfits : nrows < 2 ^ 31) :
    synthesize_corner_rows ni nj center_lon center_lat cj_lo nrows is_periodic =
      .returned ((List.range' cj_lo nrows).flatMap
        (corner_row center_lon center_lat ni nj is_periodic)) := by
  unfold synthesize_corner_rows
  dsimp only
  rw [to_int_of_lt hfits, if_neg (by omega)]
  rw [@Outcome.mapM_of_returned _ _ _ _ (fun p : Nat × Nat =>
    average center_lon center_lat (cells_around ni nj is_periodic p.1 (cj_lo + p.2)))]
  · rw [List.range'_eq_map_range, List.flatMap_map, List.map_flatMap]
    simp only [List.map_map]
    rfl
  · intro p hp
    obtain ⟨r, hr, hmem⟩ := List.mem_flatMap.mp hp
    obtain ⟨ci, hci, rfl⟩ := List.mem_map.mp hmem
    rw [List.mem_range] at hr hci
    dsimp only
    rw [if_pos (by omega)]
    exact corner_eq hni hnj hlon hlat (by omega) (by omega)

end

/-! ## Section 4: Bands -/

open Bands

theorem detect_returned (grid : CenterGrid) :
    ∃ is_periodic, detect_periodic_lon grid.ni grid.center_lon = .returned is_periodic := by
  unfold detect_periodic_lon
  split
  · exact ⟨false, rfl⟩
  · have hlength : grid.ni ≤ grid.center_lon.length := by
      rw [grid.length_lon]
      exact Nat.le_mul_of_pos_right _ grid.nj_pos
    rw [read_getD (by omega), read_getD (by omega)]
    exact ⟨_, rfl⟩

section
variable {grid : CenterGrid} {is_periodic : Bool}

theorem synthesize_band_corners_eq
    (hperiodic : detect_periodic_lon grid.ni grid.center_lon = .returned is_periodic) {j0 j1 : Nat}
    (hle : j0 ≤ j1) (hend : j1 ≤ grid.nj) (hfits : j1 - j0 + 1 < 2 ^ 31) :
    synthesize_band_corners grid.ni grid.nj grid.center_lon grid.center_lat j0 j1 =
      .returned (border_rows
        (corner_row grid.center_lon grid.center_lat grid.ni grid.nj is_periodic) j0 j1) := by
  have hni := grid.ni_pos
  have hsize : grid.ni * grid.nj % 2 ^ 64 = grid.ni * grid.nj := Nat.mod_eq_of_lt grid.fits
  unfold synthesize_band_corners
  rw [if_neg (by omega), if_neg (by omega), if_neg (by omega), hsize, grid.length_lon,
    grid.length_lat, if_neg (by simp), hperiodic, Outcome.returned_bind]
  exact synthesize_corner_rows_eq grid.ni_pos grid.nj_pos grid.length_lon grid.length_lat (by omega)
    hfits

theorem synthesize_corners_eq
    (hperiodic : detect_periodic_lon grid.ni grid.center_lon = .returned is_periodic)
    (hfits : grid.nj + 1 < 2 ^ 31) :
    synthesize_corners grid = .returned (border_rows
      (corner_row grid.center_lon grid.center_lat grid.ni grid.nj is_periodic) 0 grid.nj) := by
  unfold synthesize_corners
  rw [hperiodic, Outcome.returned_bind]
  exact synthesize_corner_rows_eq grid.ni_pos grid.nj_pos grid.length_lon grid.length_lat (by omega)
    hfits

end

/-- For all centers and all partitions of the rows into bands: the corners of
    the bands, glued, are those of the whole grid. -/
def BandsAgree (ni nj : Nat) : Prop :=
  ∀ grid : CenterGrid, grid.ni = ni → grid.nj = nj → ∀ bounds, Partition 0 nj bounds →
    ∃ whole parts, synthesize_corners grid = .returned whole ∧
      ((bands bounds).mapM fun b =>
        synthesize_band_corners ni nj grid.center_lon grid.center_lat b.1 b.2) = .returned parts ∧
      Glued (ni + 1) parts whole

theorem le_of_mem_bands {bounds : List Nat} {last : Nat} (hordered : bounds.Pairwise (· ≤ ·))
    (hlast : ∀ j ∈ bounds, j ≤ last) {b : Nat × Nat} (hb : b ∈ bands bounds) :
    b.1 ≤ b.2 ∧ b.2 ≤ last := by
  induction bounds with
  | nil => cases hb
  | cons j0 rest ih =>
    match rest, hb with
    | j1 :: js, hb =>
      rcases List.mem_cons.mp hb with rfl | hlater
      · exact ⟨List.rel_of_pairwise_cons hordered List.mem_cons_self, hlast j1 (by simp)⟩
      · exact ih hordered.of_cons (fun j hj => hlast j (List.mem_cons_of_mem _ hj)) hlater

theorem bands_agree_of_fits {ni nj : Nat} (hfits : nj + 1 < 2 ^ 31) : BandsAgree ni nj := by
  intro grid hni hnj bounds hbounds
  subst hni hnj
  obtain ⟨is_periodic, hperiodic⟩ := detect_returned grid
  have hlast : ∀ j ∈ bounds, j ≤ grid.nj := by
    intro j hj
    obtain ⟨front, hfront⟩ := List.getLast?_eq_some_iff.mp hbounds.ends
    rw [hfront] at hj
    have hordered := hbounds.ordered
    rw [hfront] at hordered
    rcases List.mem_append.mp hj with hj | hj
    · exact (List.pairwise_append.mp hordered).2.2 j hj grid.nj (by simp)
    · exact (List.mem_singleton.mp hj).le
  refine ⟨_, _, synthesize_corners_eq hperiodic hfits, Outcome.mapM_of_returned ?_,
    glued_bands (fun j => by simp [corner_row]) hbounds⟩
  intro b hb
  obtain ⟨hle, hend⟩ := le_of_mem_bands hbounds.ordered hlast hb
  exact synthesize_band_corners_eq hperiodic hle hend (by omega)

/-- A grid whose centers all have the coordinates 1. -/
def ones_grid {ni nj : Nat} (hni : 0 < ni) (hnj : 0 < nj) (hfits : ni * nj < 2 ^ 64) :
    CenterGrid where
  ni := ni
  nj := nj
  center_lon := List.replicate (ni * nj) 1
  center_lat := List.replicate (ni * nj) 1
  ni_pos := hni
  nj_pos := hnj
  length_lon := List.length_replicate
  length_lat := List.length_replicate
  fits := hfits

section
variable {ni nj : Nat} {hni : 0 < ni} {hnj : 0 < nj} {hfits : ni * nj < 2 ^ 64}

theorem ones_not_periodic :
    detect_periodic_lon ni (ones_grid hni hnj hfits).center_lon = .returned false := by
  unfold detect_periodic_lon
  split
  · rfl
  · have hlength : ni ≤ ni * nj := Nat.le_mul_of_pos_right _ hnj
    have hone : ∀ idx < 2, read (ones_grid hni hnj hfits).center_lon idx = .returned 1 := by
      intro idx hidx
      unfold read ones_grid
      dsimp only
      rw [List.getElem?_replicate, if_pos (by omega)]
    rw [hone 1 (by omega), hone 0 (by omega)]
    simp

theorem ones_last_corner :
    average (ones_grid hni hnj hfits).center_lon (ones_grid hni hnj hfits).center_lat
      (cells_around ni nj false ni nj) = (1, 1) := by
  have hidx : ni - 1 + (nj - 1) * ni < ni * nj := cell_idx_lt (by omega) (by omega)
  have hone : (List.replicate (ni * nj) (1 : ℚ)).getD (ni - 1 + (nj - 1) * ni) 0 = 1 := by
    rw [List.getD_eq_getElem?_getD, List.getElem?_replicate, if_pos hidx]
    rfl
  unfold cells_around
  rw [rows_around_last hnj, columns_around_last hni]
  unfold average ones_grid
  simp [hone, -List.getD_eq_getElem?_getD]

theorem last_of_beyond {center_lon center_lat : List ℚ} {is_periodic : Bool} {cj_lo nrows : Nat}
    {corners : List (ℚ × ℚ)} (hpos : 0 < nrows) (hbeyond : to_int nrows < nrows)
    (h : synthesize_corner_rows ni nj center_lon center_lat cj_lo nrows is_periodic =
      .returned corners) : corners.getLast? = some (0, 0) := by
  obtain ⟨m, rfl⟩ : ∃ m, nrows = m + 1 := ⟨nrows - 1, by omega⟩
  unfold synthesize_corner_rows at h
  dsimp only at h
  split at h
  · cases h
  · -- the last corner is made last
    have hindices : (List.range (m + 1)).flatMap (fun (r : Nat) =>
        (List.range (ni + 1)).map fun (ci : Nat) => (ci, r)) =
          ((List.range m).flatMap (fun (r : Nat) =>
            (List.range (ni + 1)).map fun (ci : Nat) => (ci, r)) ++
              (List.range ni).map fun (ci : Nat) => (ci, m)) ++ [(ni, m)] := by
      rw [@List.range_succ m, List.flatMap_append, List.flatMap_singleton, @List.range_succ ni,
        List.map_append, List.map_singleton, List.append_assoc]
    rw [hindices, List.mapM_append] at h
    obtain ⟨front, -, hlast⟩ := Outcome.bind_eq_returned.mp h
    obtain ⟨last, hmade, heq⟩ := Outcome.bind_eq_returned.mp hlast
    have hzero : last = [(0, 0)] := by
      rw [List.mapM_cons, if_neg (by omega)] at hmade
      exact (Outcome.returned.inj hmade).symm
    cases heq
    rw [hzero]
    exact List.getLast?_concat

/-- Rows beyond an `int` are zero in the whole array, and computed in the bands. -/
theorem fits_of_bands_agree (hni : 0 < ni) (hnj : 0 < nj) (hfits : ni * nj < 2 ^ 64)
    (h : BandsAgree ni nj) : nj + 1 < 2 ^ 31 := by
  by_contra hlarge
  have hbounds : Partition 0 nj [0, nj - 1, nj] := ⟨by simp, rfl, rfl, by simp⟩
  obtain ⟨whole, parts, hwhole, hparts, hglued⟩ :=
    h (ones_grid hni hnj hfits) rfl rfl [0, nj - 1, nj] hbounds
  have hperiodic : detect_periodic_lon (ones_grid hni hnj hfits).ni
      (ones_grid hni hnj hfits).center_lon = .returned false := ones_not_periodic
  -- the last corner of the whole array
  have hzero : whole.getLast? = some (0, 0) := by
    unfold synthesize_corners at hwhole
    rw [hperiodic, Outcome.returned_bind] at hwhole
    apply last_of_beyond (show 0 < nj + 1 by omega) _ hwhole
    have hbound := (fits_32.mp (fits_to_int (nj + 1 : Nat))).2
    omega
  -- the last band is computed
  obtain ⟨first, others, -, hothers, rfl⟩ :=
    List.forall₂_cons_left_iff.mp (Outcome.mapM_eq_returned.mp hparts)
  obtain ⟨last, none, hlast, hnone, rfl⟩ := List.forall₂_cons_left_iff.mp hothers
  cases hnone
  have hband : synthesize_band_corners ni nj (ones_grid hni hnj hfits).center_lon
      (ones_grid hni hnj hfits).center_lat (nj - 1) nj = _ :=
    @synthesize_band_corners_eq (ones_grid hni hnj hfits) false hperiodic (nj - 1) nj
      (by omega) (le_refl _) (by omega)
  have hrows : last = border_rows (corner_row (ones_grid hni hnj hfits).center_lon
      (ones_grid hni hnj hfits).center_lat ni nj false) (nj - 1) nj :=
    Outcome.returned.inj (hlast.symm.trans hband)
  -- its last corner is that of the whole array
  obtain ⟨rest, hrest, -, -, hwhole_eq⟩ := hglued
  have hsame : whole.getLast? = some (1, 1) := by
    have hwidth : (corner_row (ones_grid hni hnj hfits).center_lon
        (ones_grid hni hnj hfits).center_lat ni nj false (nj - 1)).length = ni + 1 := by
      simp [corner_row]
    rw [hwhole_eq, show rest = last from hrest, hrows, border_rows_first, List.drop_left' hwidth,
      show nj - (nj - 1) = 1 by omega, Nat.sub_add_cancel hnj, List.range'_one,
      List.flatMap_singleton, corner_row]
    -- the corner at the end of the last row
    show (first ++ (List.range (ni + 1)).map _).getLast? = _
    rw [List.range_succ, List.map_append, List.map_singleton, ← List.append_assoc,
      List.getLast?_concat]
    exact congrArg some ones_last_corner
  rw [hzero] at hsame
  simp at hsame

end

theorem bands_agree_iff {ni nj : Nat} (hni : 0 < ni) (hnj : 0 < nj) (hfits : ni * nj < 2 ^ 64) :
    BandsAgree ni nj ↔ nj + 1 < 2 ^ 31 :=
  ⟨fits_of_bands_agree hni hnj hfits, bands_agree_of_fits⟩

theorem bands_agree_two : BandsAgree 2 2 ↔ 2 + 1 < 2 ^ 31 :=
  bands_agree_iff (by decide) (by decide) (by decide)

theorem bands_differ : ¬ BandsAgree 1 (2 ^ 32 - 1) := by
  intro h
  have hfits := fits_of_bands_agree (by norm_num) (by norm_num) (by norm_num) h
  norm_num at hfits

/-! ## Section 5: Rectilinear grids -/

/-- A direction in which the corners are averages of the centers `X`. -/
def edge (n : Nat) (is_periodic : Bool) (X : Nat → ℚ) (ci : Nat) : ℚ :=
  ((columns_around n is_periodic ci).map fun c => X c.1 + c.2).sum /
    (columns_around n is_periodic ci).length

section
variable {n : Nat} {is_periodic : Bool} {X : Nat → ℚ}

theorem edge_first (hn : 0 < n) : edge n is_periodic X 0 =
    if is_periodic then (X (n - 1) - 360 + X 0) / 2 else X 0 := by
  unfold edge
  rw [columns_around_first hn]
  cases is_periodic with
  | false => simp
  | true =>
    simp only [if_true, List.map_cons, List.map_nil, List.sum_cons, List.sum_nil, List.length_cons,
      List.length_nil]
    push_cast
    ring

theorem edge_inner {ci : Nat} (hlow : 0 < ci) (hhigh : ci < n) :
    edge n is_periodic X ci = (X (ci - 1) + X ci) / 2 := by
  unfold edge
  rw [columns_around_inner hlow hhigh]
  simp

theorem edge_last (hn : 0 < n) : edge n is_periodic X n =
    if is_periodic then (X (n - 1) + (X 0 + 360)) / 2 else X (n - 1) := by
  unfold edge
  rw [columns_around_last hn]
  cases is_periodic <;> simp

theorem edge_midpoint {i : Nat} (hi : i + 1 < n) :
    edge n is_periodic X (i + 1) = (X i + X (i + 1)) / 2 := by
  rw [edge_inner (by omega) hi, Nat.add_sub_cancel]

variable (hX : ∀ i, i + 1 < n → X i < X (i + 1))
  (hspan : is_periodic = true → X (n - 1) - X 0 < 360)

include hX hspan in
theorem edge_le_center {i : Nat} (hi : i < n) :
    edge n is_periodic X i ≤ X i ∧ X i ≤ edge n is_periodic X (i + 1) := by
  constructor
  · rcases Nat.eq_zero_or_pos i with rfl | hlow
    · rw [edge_first hi]
      cases hperiodic : is_periodic with
      | false => exact le_rfl
      | true =>
        have hturn := hspan hperiodic
        simp only [if_true]
        linarith
    · have hbefore := hX (i - 1) (by omega)
      rw [Nat.sub_add_cancel hlow] at hbefore
      rw [edge_inner hlow hi]
      linarith
  · rcases Nat.lt_or_ge (i + 1) n with hnext | hlast
    · have hafter := hX i hnext
      rw [edge_midpoint hnext]
      linarith
    · obtain rfl : n = i + 1 := by omega
      rw [edge_last (by omega), Nat.add_sub_cancel]
      cases hperiodic : is_periodic with
      | false => exact le_rfl
      | true =>
        have hturn := hspan hperiodic
        rw [Nat.add_sub_cancel] at hturn
        simp only [if_true]
        linarith

include hX hspan in
theorem edge_increases (htwo : 2 ≤ n) {i : Nat} (hi : i < n) :
    edge n is_periodic X i < edge n is_periodic X (i + 1) := by
  obtain ⟨hlow, hhigh⟩ := edge_le_center hX hspan hi
  rcases Nat.lt_or_ge (i + 1) n with hnext | hlast
  · have hafter := hX i hnext
    rw [edge_midpoint hnext]
    linarith
  · have hbefore := hX (i - 1) (by omega)
    rw [Nat.sub_add_cancel (by omega)] at hbefore
    have hinner : edge n is_periodic X i = (X (i - 1) + X i) / 2 := edge_inner (by omega) hi
    linarith

end

/-- The centers have the longitude of their column and the latitude of their
    row. Both increase, and the longitudes span less than a turn. -/
structure Rectilinear (grid : CenterGrid) (X Y : Nat → ℚ) : Prop where
  lon : ∀ i < grid.ni, ∀ j < grid.nj, grid.center_lon.getD (i + j * grid.ni) 0 = X i
  lat : ∀ i < grid.ni, ∀ j < grid.nj, grid.center_lat.getD (i + j * grid.ni) 0 = Y j
  lon_increases : ∀ i, i + 1 < grid.ni → X i < X (i + 1)
  lat_increases : ∀ j, j + 1 < grid.nj → Y j < Y (j + 1)
  span : X (grid.ni - 1) - X 0 < 360

theorem rows_around_columns (nj cj : Nat) :
    (rows_around nj cj).map (fun j => (j, (0 : ℚ))) = columns_around nj false cj := by
  have hsame : ∀ cell_j : Int, (valid_row nj cell_j).toList.map (fun j => (j, (0 : ℚ))) =
      (wrapped_column nj false cell_j).toList := by
    intro cell_j
    unfold valid_row wrapped_column
    rw [if_neg Bool.false_ne_true]
    split
    · rfl
    · rfl
  rw [rows_around_eq, columns_around_eq, List.map_append, hsame, hsame]

theorem sum_cells_around (f : Nat × ℚ → ℚ) (ni nj : Nat) (is_periodic : Bool) (ci cj : Nat) :
    ((cells_around ni nj is_periodic ci cj).map f).sum = ((rows_around nj cj).map fun j =>
      ((columns_around ni is_periodic ci).map fun c => f (c.1 + j * ni, c.2)).sum).sum := by
  unfold cells_around
  induction rows_around nj cj with
  | nil => rfl
  | cons j rows ih =>
    rw [List.flatMap_cons, List.map_append, List.sum_append, ih, List.map_cons, List.sum_cons,
      List.map_map]
    rfl

section
variable {grid : CenterGrid} {X Y : Nat → ℚ} {is_periodic : Bool}

/-- An average over a block of cells is an average in each direction. -/
theorem average_rectilinear (h : Rectilinear grid X Y) {ci cj : Nat} (hci : ci ≤ grid.ni)
    (hcj : cj ≤ grid.nj) :
    average grid.center_lon grid.center_lat (cells_around grid.ni grid.nj is_periodic ci cj) =
      (edge grid.ni is_periodic X ci, edge grid.nj false Y cj) := by
  have hcolumns : ((columns_around grid.ni is_periodic ci).length : ℚ) ≠ 0 := by
    have hne : columns_around grid.ni is_periodic ci ≠ [] :=
      columns_around_ne_nil grid.ni_pos hci
    exact_mod_cast (List.length_pos_iff.mpr hne).ne'
  have hrows : ((rows_around grid.nj cj).length : ℚ) ≠ 0 := by
    have hne := rows_around_ne_nil grid.nj_pos hcj
    exact_mod_cast (List.length_pos_iff.mpr hne).ne'
  have hcount : (cells_around grid.ni grid.nj is_periodic ci cj).length =
      (rows_around grid.nj cj).length * (columns_around grid.ni is_periodic ci).length := by
    unfold cells_around
    simp [List.length_flatMap]
  -- in every row the same sum of longitudes
  have hlon : ((cells_around grid.ni grid.nj is_periodic ci cj).map fun c =>
      grid.center_lon.getD c.1 0 + c.2).sum = (rows_around grid.nj cj).length *
        ((columns_around grid.ni is_periodic ci).map fun c => X c.1 + c.2).sum := by
    have hrow : ∀ j ∈ rows_around grid.nj cj, ((columns_around grid.ni is_periodic ci).map fun c =>
        grid.center_lon.getD (c.1 + j * grid.ni) 0 + c.2).sum =
          ((columns_around grid.ni is_periodic ci).map fun c => X c.1 + c.2).sum := by
      intro j hj
      congr 1
      apply List.map_congr_left
      intro c hc
      rw [h.lon _ (lt_of_mem_columns_around grid.ni_pos hc) _ (lt_of_mem_rows_around hj)]
    rw [sum_cells_around]
    dsimp only
    rw [List.map_congr_left hrow, List.map_const', List.sum_replicate, nsmul_eq_mul]
  -- and in every row the same latitude
  have hlat : ((cells_around grid.ni grid.nj is_periodic ci cj).map fun c =>
      grid.center_lat.getD c.1 0).sum = (columns_around grid.ni is_periodic ci).length *
        ((rows_around grid.nj cj).map Y).sum := by
    have hrow : ∀ j ∈ rows_around grid.nj cj, ((columns_around grid.ni is_periodic ci).map fun c =>
        grid.center_lat.getD (c.1 + j * grid.ni) 0).sum =
          (columns_around grid.ni is_periodic ci).length * Y j := by
      intro j hj
      have hconst : (columns_around grid.ni is_periodic ci).map (fun c =>
          grid.center_lat.getD (c.1 + j * grid.ni) 0) =
            (columns_around grid.ni is_periodic ci).map fun _ => Y j := by
        apply List.map_congr_left
        intro c hc
        exact h.lat _ (lt_of_mem_columns_around grid.ni_pos hc) _ (lt_of_mem_rows_around hj)
      rw [hconst, List.map_const', List.sum_replicate, nsmul_eq_mul]
    rw [sum_cells_around]
    dsimp only
    rw [List.map_congr_left hrow, List.sum_map_mul_left]
  have hlat_rows : edge grid.nj false Y cj =
      ((rows_around grid.nj cj).map Y).sum / (rows_around grid.nj cj).length := by
    unfold edge
    rw [← rows_around_columns, List.map_map, List.length_map]
    simp [Function.comp_def]
  unfold average
  rw [hlon, hlat, hcount, Nat.cast_mul, mul_div_mul_left _ _ hrows,
    mul_comm ((rows_around grid.nj cj).length : ℚ), mul_div_mul_left _ _ hcolumns, ← hlat_rows]
  rfl

/-- The mesh has its nodes at the edges in both directions. -/
theorem to_unstructured_eq (h : Rectilinear grid X Y)
    (hperiodic : detect_periodic_lon grid.ni grid.center_lon = .returned is_periodic)
    (hfits : grid.ni * grid.nj ≤ 2 ^ 29) :
    to_unstructured grid = .returned (quad_mesh grid.ni grid.nj (edge grid.ni is_periodic X)
      (edge grid.nj false Y)) := by
  have hni := grid.ni_pos
  have hnj := grid.nj_pos
  have hnodes : (grid.ni + 1) * (grid.nj + 1) < 2 ^ 31 := by
    have hni_le : grid.ni ≤ grid.ni * grid.nj := Nat.le_mul_of_pos_right _ hnj
    have hnj_le : grid.nj ≤ grid.ni * grid.nj := Nat.le_mul_of_pos_left _ hni
    calc (grid.ni + 1) * (grid.nj + 1) = grid.ni * grid.nj + grid.ni + grid.nj + 1 := by ring
      _ < 2 ^ 31 := by omega
  have hrows : grid.nj + 1 < 2 ^ 31 := by
    have hnj_le : grid.nj ≤ grid.ni * grid.nj := Nat.le_mul_of_pos_left _ hni
    omega
  -- the corners are the nodes of the mesh
  set mesh := quad_mesh grid.ni grid.nj (edge grid.ni is_periodic X) (edge grid.nj false Y)
    with hmesh
  have hcorners : synthesize_corners grid = .returned mesh.node_coords := by
    rw [synthesize_corners_eq hperiodic hrows]
    congr 1
    show _ = (List.range _).map _
    rw [← rows_eq_range, border_rows, Nat.sub_zero, ← List.range_eq_range']
    apply List.flatMap_congr
    intro cj hcj
    apply List.map_congr_left
    intro ci hci
    rw [List.mem_range] at hcj hci
    exact average_rectilinear h (by omega) (by omega)
  have hlength : mesh.node_coords.length = (grid.ni + 1) * (grid.nj + 1) := by
    simp [hmesh, quad_mesh]
  unfold to_unstructured
  rw [hcorners, Outcome.returned_bind, to_unstructured_mesh hnodes (by dsimp only; omega)]
  congr 1
  unfold mesh_of StructuredGrid.nodes StructuredGrid.cells
  dsimp only
  -- the nodes are read back in their order, and so are the cells
  have hcoords : ((List.range (grid.nj + 1)).flatMap fun cj => (List.range (grid.ni + 1)).map fun ci =>
      ((mesh.node_coords.getD (ci + cj * (grid.ni + 1)) (0, 0)).1,
        (mesh.node_coords.getD (ci + cj * (grid.ni + 1)) (0, 0)).2)) = mesh.node_coords := by
    rw [map_range_rows (grid.ni + 1) (grid.nj + 1) fun k => mesh.node_coords.getD k (0, 0)]
    apply List.ext_getElem
    · rw [List.length_map, List.length_range, hlength]
    · intro k hk hk'
      rw [List.getElem_map, List.getElem_range, List.getD_eq_getElem _ _ hk']
  have hcells : ((List.range grid.nj).flatMap fun j => (List.range grid.ni).map fun i => (i, j)) =
      (List.range (grid.ni * grid.nj)).map fun c => (c % grid.ni, c / grid.ni) :=
    rows_eq_range grid.ni grid.nj (fun i => i) fun j => j
  rw [hcoords, hcells, List.length_map, List.length_range, List.flatMap_map]
  simp only [Nat.mul_comm _ 4]
  rfl

end

/-! ## Section 6: The cells of the mesh -/

/-- Whether the way from `a` over `b` to `c` turns left. -/
def turns_left (a b c : ℚ × ℚ) : Prop :=
  0 < (b.1 - a.1) * (c.2 - b.2) - (b.2 - a.2) * (c.1 - b.1)

/-- A quadrilateral that turns left at every corner, and its area. -/
structure CounterClockwise (a b c d : ℚ × ℚ) : Prop where
  first : turns_left a b c
  second : turns_left b c d
  third : turns_left c d a
  fourth : turns_left d a b

def quad_area (a b c d : ℚ × ℚ) : ℚ :=
  ((a.1 * b.2 - b.1 * a.2) + (b.1 * c.2 - c.1 * b.2) + (c.1 * d.2 - d.1 * c.2) +
    (d.1 * a.2 - a.1 * d.2)) / 2

/-- What the mesh of a rectilinear grid should be: a tiling between the corner
    columns `x` and the corner rows `y`. -/
structure Tiles (grid : CenterGrid) (X Y : Nat → ℚ) (mesh : UnstructuredMesh) (x y : Nat → ℚ) :
    Prop where
  nodes : ∀ ci ≤ grid.ni, ∀ cj ≤ grid.nj,
    mesh.node_coords[cj * (grid.ni + 1) + ci]? = some (x ci, y cj)
  lon_increases : ∀ ci < grid.ni, x ci < x (ci + 1)
  lat_increases : ∀ cj < grid.nj, y cj < y (cj + 1)
  n_cells : mesh.n_cells = grid.ni * grid.nj
  cells : ∀ i < grid.ni, ∀ j < grid.nj, ∃ a b c d, mesh.cell_nodes (j * grid.ni + i) = [a, b, c, d] ∧
    CounterClockwise a b c d ∧ 0 < quad_area a b c d
  contains_lon : ∀ i < grid.ni, x i ≤ X i ∧ X i ≤ x (i + 1)
  contains_lat : ∀ j < grid.nj, y j ≤ Y j ∧ Y j ≤ y (j + 1)
  lon_midpoint : ∀ i, i + 1 < grid.ni → x (i + 1) = (X i + X (i + 1)) / 2
  lat_midpoint : ∀ j, j + 1 < grid.nj → y (j + 1) = (Y j + Y (j + 1)) / 2
  turn : detect_periodic_lon grid.ni grid.center_lon = .returned true → x grid.ni = x 0 + 360

theorem rectangle_counter_clockwise {x0 x1 y0 y1 : ℚ} (hx : x0 < x1) (hy : y0 < y1) :
    CounterClockwise (x0, y0) (x1, y0) (x1, y1) (x0, y1) := by
  have hpos : 0 < (x1 - x0) * (y1 - y0) := mul_pos (sub_pos.mpr hx) (sub_pos.mpr hy)
  constructor
  · show 0 < (x1 - x0) * (y1 - y0) - (y0 - y0) * (x1 - x1)
    linarith
  · show 0 < (x1 - x1) * (y1 - y1) - (y1 - y0) * (x0 - x1)
    linarith
  · show 0 < (x0 - x1) * (y0 - y1) - (y1 - y1) * (x0 - x0)
    linarith
  · show 0 < (x0 - x0) * (y0 - y0) - (y0 - y1) * (x1 - x0)
    linarith

theorem rectangle_area (x0 x1 y0 y1 : ℚ) :
    quad_area (x0, y0) (x1, y0) (x1, y1) (x0, y1) = (x1 - x0) * (y1 - y0) := by
  unfold quad_area
  ring

section
variable {grid : CenterGrid} {X Y : Nat → ℚ} {is_periodic : Bool}

theorem tiles_of_fits (h : Rectilinear grid X Y) (hni : 2 ≤ grid.ni) (hnj : 2 ≤ grid.nj)
    (hfits : grid.ni * grid.nj ≤ 2 ^ 29) :
    ∃ mesh x y, to_unstructured grid = .returned mesh ∧ Tiles grid X Y mesh x y := by
  obtain ⟨is_periodic, hperiodic⟩ := detect_returned grid
  have hlon_span : is_periodic = true → X (grid.ni - 1) - X 0 < 360 := fun _ => h.span
  have hlat_span : false = true → Y (grid.nj - 1) - Y 0 < 360 := fun hfalse => by cases hfalse
  have hlon : ∀ ci < grid.ni, edge grid.ni is_periodic X ci < edge grid.ni is_periodic X (ci + 1) :=
    fun ci hci => edge_increases h.lon_increases hlon_span hni hci
  have hlat : ∀ cj < grid.nj, edge grid.nj false Y cj < edge grid.nj false Y (cj + 1) :=
    fun cj hcj => edge_increases h.lat_increases hlat_span hnj hcj
  refine ⟨_, edge grid.ni is_periodic X, edge grid.nj false Y,
    to_unstructured_eq h hperiodic hfits, ?_⟩
  constructor
  · exact fun ci hci cj hcj => node_quad_mesh hci hcj
  · exact hlon
  · exact hlat
  · exact n_cells_quad_mesh
  · intro i hi j hj
    refine ⟨_, _, _, _, cell_nodes_quad_mesh hi hj,
      rectangle_counter_clockwise (hlon i hi) (hlat j hj), ?_⟩
    rw [rectangle_area]
    exact mul_pos (sub_pos.mpr (hlon i hi)) (sub_pos.mpr (hlat j hj))
  · exact fun i hi => edge_le_center h.lon_increases hlon_span hi
  · exact fun j hj => edge_le_center h.lat_increases hlat_span hj
  · exact fun i hi => edge_midpoint hi
  · exact fun j hj => edge_midpoint hj
  · intro hturn
    have htrue : is_periodic = true := Outcome.returned.inj (hperiodic.symm.trans hturn)
    rw [edge_last (by omega), edge_first (by omega), if_pos htrue, if_pos htrue]
    ring

/-- A single row or column has no extent, and with too many cells the mesh is
    not made. -/
theorem fits_of_tiles (h : Rectilinear grid X Y) {mesh : UnstructuredMesh} {x y : Nat → ℚ}
    (hmesh : to_unstructured grid = .returned mesh) (htiles : Tiles grid X Y mesh x y) :
    2 ≤ grid.ni ∧ 2 ≤ grid.nj ∧ grid.ni * grid.nj ≤ 2 ^ 29 := by
  have hni := grid.ni_pos
  have hnj := grid.nj_pos
  obtain ⟨is_periodic, hperiodic⟩ := detect_returned grid
  have hfits : grid.ni * grid.nj ≤ 2 ^ 29 := by
    obtain ⟨corners, -, hconverted⟩ := Outcome.bind_eq_returned.mp hmesh
    exact cells_of_to_unstructured hconverted
  -- so that the nodes are known
  have hquads := Outcome.returned.inj (hmesh.symm.trans (to_unstructured_eq h hperiodic hfits))
  have hnode : ∀ ci ≤ grid.ni, ∀ cj ≤ grid.nj,
      x ci = edge grid.ni is_periodic X ci ∧ y cj = edge grid.nj false Y cj := by
    intro ci hci cj hcj
    have hsame := htiles.nodes ci hci cj hcj
    rw [hquads, node_quad_mesh hci hcj] at hsame
    have hpair := Option.some.inj hsame
    exact ⟨(congrArg Prod.fst hpair).symm, (congrArg Prod.snd hpair).symm⟩
  refine ⟨?_, ?_, hfits⟩
  · by_contra hone
    have hni_one : grid.ni = 1 := by omega
    have hnot : is_periodic = false := by
      unfold detect_periodic_lon at hperiodic
      rw [if_pos (by omega)] at hperiodic
      exact (Outcome.returned.inj hperiodic).symm
    have hlast : edge grid.ni is_periodic X (0 + 1) = X 0 := by
      rw [show 0 + 1 = grid.ni by omega, edge_last hni, hnot, hni_one]
      rfl
    have hincreases := htiles.lon_increases 0 hni
    rw [(hnode 0 (by omega) 0 (by omega)).1, (hnode (0 + 1) (by omega) 0 (by omega)).1, hlast,
      edge_first hni, hnot] at hincreases
    exact lt_irrefl _ hincreases
  · by_contra hone
    have hnj_one : grid.nj = 1 := by omega
    have hlast : edge grid.nj false Y (0 + 1) = Y 0 := by
      rw [show 0 + 1 = grid.nj by omega, edge_last hnj, hnj_one]
      rfl
    have hincreases := htiles.lat_increases 0 hnj
    rw [(hnode 0 (by omega) 0 (by omega)).2, (hnode 0 (by omega) (0 + 1) (by omega)).2, hlast,
      edge_first hnj] at hincreases
    exact lt_irrefl _ hincreases

end

theorem synthesized_cells_tile_iff {grid : CenterGrid} {X Y : Nat → ℚ} (h : Rectilinear grid X Y) :
    (∃ mesh x y, to_unstructured grid = .returned mesh ∧ Tiles grid X Y mesh x y) ↔
      2 ≤ grid.ni ∧ 2 ≤ grid.nj ∧ grid.ni * grid.nj ≤ 2 ^ 29 := by
  constructor
  · rintro ⟨mesh, x, y, hmesh, htiles⟩
    exact fits_of_tiles h hmesh htiles
  · rintro ⟨hni, hnj, hfits⟩
    exact tiles_of_fits h hni hnj hfits

/-- Two rows and two columns. -/
def two_by_two : CenterGrid where
  ni := 2
  nj := 2
  center_lon := [10, 20, 10, 20]
  center_lat := [0, 0, 30, 30]
  ni_pos := by decide
  nj_pos := by decide
  length_lon := rfl
  length_lat := rfl
  fits := by decide

theorem two_by_two_tiled :
    (∃ mesh x y, to_unstructured two_by_two = .returned mesh ∧
      Tiles two_by_two (fun i => 10 + 10 * i) (fun j => 30 * j) mesh x y) ↔
      2 ≤ 2 ∧ 2 ≤ 2 ∧ 2 * 2 ≤ 2 ^ 29 := by
  apply @synthesized_cells_tile_iff two_by_two
  constructor
  · intro i hi j hj
    have hi' : i < 2 := hi
    have hj' : j < 2 := hj
    interval_cases i <;> interval_cases j <;> norm_num [two_by_two]
  · intro i hi j hj
    have hi' : i < 2 := hi
    have hj' : j < 2 := hj
    interval_cases i <;> interval_cases j <;> norm_num [two_by_two]
  · intro i _
    push_cast
    linarith
  · intro j _
    push_cast
    linarith
  · norm_num [two_by_two]

/-- A single row. -/
def single_row : CenterGrid where
  ni := 2
  nj := 1
  center_lon := [10, 20]
  center_lat := [5, 5]
  ni_pos := by decide
  nj_pos := by decide
  length_lon := rfl
  length_lat := rfl
  fits := by decide

theorem single_row_collapses :
    Rectilinear single_row (fun i => 10 + 10 * i) (fun _ => 5) ∧
    ¬ ∃ mesh x y, to_unstructured single_row = .returned mesh ∧
      Tiles single_row (fun i => 10 + 10 * i) (fun _ => 5) mesh x y := by
  have hrectilinear : Rectilinear single_row (fun i => 10 + 10 * i) (fun _ => 5) := by
    constructor
    · intro i hi j hj
      have hi' : i < 2 := hi
      have hj' : j < 1 := hj
      interval_cases i <;> interval_cases j <;> norm_num [single_row]
    · intro i hi j hj
      have hi' : i < 2 := hi
      have hj' : j < 1 := hj
      interval_cases i <;> interval_cases j <;> norm_num [single_row]
    · intro i _
      push_cast
      linarith
    · intro j hj
      exact absurd hj (by simp [single_row])
    · norm_num [single_row]
  refine ⟨hrectilinear, ?_⟩
  rintro ⟨mesh, x, y, hmesh, htiles⟩
  have htwo : 2 ≤ 1 := (fits_of_tiles hrectilinear hmesh htiles).2.1
  omega

end Axis.CornerSynthesis

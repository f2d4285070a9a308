import Mathlib

/-! # AXIS: detection of rectilinear grids

  `detect_rectilinear_grid` and `detect_regular_grid` decide from the node
  coordinates and the number of cells of a mesh whether it is a grid of
  quads, and return its dimensions. The fast paths of the weight generator
  then take the cell at column `i` and row `j` to be the one with index
  `j * ni + i`.

  Coordinates are rationals. Every floating-point operation rounds its exact
  result, in a way that is monotone and keeps 0. Coordinates within a
  tolerance of each other stand for one coordinate of the grid; `position`
  is its index.

  Main result: `detected_cells_iff`, when that index is right.
-/

namespace Axis

/-! ## Section 1: Meshes -/

/-- How the result of a floating-point operation is rounded. -/
structure Rounding where
  round : ℚ → ℚ
  monotone : Monotone round
  round_zero : round 0 = 0

def Rounding.exact : Rounding := ⟨id, monotone_id, rfl⟩

/-- The parts of `UnstructuredMesh` that the detection reads. A node has a
    longitude and a latitude. -/
structure UnstructuredMesh where
  node_coords : List (ℚ × ℚ)
  conn_offsets : List Nat
  conn_indices : List Nat
  deriving DecidableEq

namespace UnstructuredMesh

variable (mesh : UnstructuredMesh)

def n_cells : Nat := mesh.conn_offsets.length - 1

/-- The nodes of a cell in their order. -/
def cell_nodes (c : Nat) : List (ℚ × ℚ) :=
  match mesh.conn_offsets[c]?, mesh.conn_offsets[c + 1]? with
  | some start, some stop =>
    ((mesh.conn_indices.drop start).take (stop - start)).filterMap (mesh.node_coords[·]?)
  | _, _ => []

/-- All cells have four nodes. -/
def all_quads : Bool :=
  (List.range mesh.n_cells).all fun c =>
    ((mesh.conn_offsets.getD (c + 1) 0 : Int) - mesh.conn_offsets.getD c 0) = 4

end UnstructuredMesh

/-! ## Section 2: The detectors -/

section
variable (fl : Rounding)

/-- The tolerance `1.0e-12` below which coordinates are not distinguished. -/
def unique_tol : ℚ := fl.round (1 / 10 ^ 12)

def unique_loop (back : ℚ) : List ℚ → List ℚ
  | [] => []
  | x :: rest =>
    if |fl.round (x - back)| > unique_tol fl then x :: unique_loop x rest
    else unique_loop back rest

/-- Drop what is within the tolerance of the last value that was kept. -/
def unique_filter : List ℚ → List ℚ
  | [] => []
  | x :: rest => x :: unique_loop fl x rest

/-- The distinct values in increasing order. -/
def distinct (values : List ℚ) : List ℚ := unique_filter fl (values.insertionSort (· ≤ ·))

variable (mesh : UnstructuredMesh)

def distinct_lons : List ℚ := distinct fl (mesh.node_coords.map (·.1))

def distinct_lats : List ℚ := distinct fl (mesh.node_coords.map (·.2))

/-- The checks that both detectors make first, and the coordinates they find. -/
def grid_coordinates : Option (List ℚ × List ℚ) :=
  if mesh.n_cells = 0 then none
  else if !mesh.all_quads then none
  else
    let unique_lons := distinct_lons fl mesh
    let unique_lats := distinct_lats fl mesh
    if unique_lons.length < 2 ∨ unique_lats.length < 2 then none
    else
      let ni := unique_lons.length - 1
      let nj := unique_lats.length - 1
      -- a product of type `size_t`
      if ni * nj % 2 ^ 64 ≠ mesh.n_cells then none else some (unique_lons, unique_lats)

structure RectilinearGridInfo where
  is_rectilinear : Bool := false
  ni : Nat := 0
  nj : Nat := 0
  unique_lons : List ℚ := []
  unique_lats : List ℚ := []

def detect_rectilinear_grid : RectilinearGridInfo :=
  match grid_coordinates fl mesh with
  | none => {}
  | some (unique_lons, unique_lats) =>
    { is_rectilinear := true
      ni := unique_lons.length - 1
      nj := unique_lats.length - 1
      unique_lons
      unique_lats }

structure RegularGridInfo where
  is_regular : Bool := false
  lon_min : ℚ := 0
  lon_max : ℚ := 0
  delta_lon : ℚ := 0
  lat_min : ℚ := 0
  lat_max : ℚ := 0
  delta_lat : ℚ := 0
  ni : Nat := 0
  nj : Nat := 0

def deltas (values : List ℚ) : List ℚ :=
  values.zipWith (fun a b => fl.round (b - a)) values.tail

def sum_deltas (ds : List ℚ) : ℚ := ds.foldl (fun sum d => fl.round (sum + d)) 0

def mean_delta (ds : List ℚ) : ℚ := fl.round (sum_deltas fl ds / fl.round ds.length)

def check_uniform (ds : List ℚ) : Bool :=
  match ds with
  | [] => false
  | d :: _ =>
    let min_d := ds.foldl min d
    let max_d := ds.foldl max d
    if min_d ≤ 0 then false
    else fl.round (max_d - min_d) < fl.round (fl.round (1 / 10 ^ 10) * mean_delta fl ds)

def detect_regular_grid : RegularGridInfo :=
  match grid_coordinates fl mesh with
  | none => {}
  | some (unique_lons, unique_lats) =>
    let lon_deltas := deltas fl unique_lons
    let lat_deltas := deltas fl unique_lats
    if !check_uniform fl lon_deltas || !check_uniform fl lat_deltas then {}
    else
      { is_regular := true
        lon_min := unique_lons.headD 0
        lon_max := unique_lons.getLastD 0
        delta_lon := mean_delta fl lon_deltas
        lat_min := unique_lats.headD 0
        lat_max := unique_lats.getLastD 0
        delta_lat := mean_delta fl lat_deltas
        ni := unique_lons.length - 1
        nj := unique_lats.length - 1 }

end

/-! ## Section 3: What the checks establish -/

section
variable {fl : Rounding} {mesh : UnstructuredMesh}

theorem unique_tol_nonneg (fl : Rounding) : 0 ≤ unique_tol fl := by
  have hle := fl.monotone (show (0 : ℚ) ≤ 1 / 10 ^ 12 by norm_num)
  rwa [fl.round_zero] at hle

theorem mem_of_mem_unique_loop {back x : ℚ} {l : List ℚ} (h : x ∈ unique_loop fl back l) :
    x ∈ l := by
  induction l generalizing back with
  | nil => exact h
  | cons y l ih =>
    unfold unique_loop at h
    split at h
    · rcases List.mem_cons.mp h with rfl | hrest
      · exact List.mem_cons_self
      · exact List.mem_cons_of_mem _ (ih hrest)
    · exact List.mem_cons_of_mem _ (ih h)

theorem unique_loop_sorted {back : ℚ} {l : List ℚ} (h : (back :: l).Pairwise (· ≤ ·)) :
    (back :: unique_loop fl back l).Pairwise (· < ·) := by
  induction l generalizing back with
  | nil => exact List.pairwise_singleton _ _
  | cons x l ih =>
    have hle : back ≤ x := (List.pairwise_cons.mp h).1 x List.mem_cons_self
    unfold unique_loop
    split
    · next hfar =>
      have hne : back ≠ x := by
        intro heq
        rw [heq, sub_self, fl.round_zero, abs_zero] at hfar
        exact absurd hfar (not_lt.mpr (unique_tol_nonneg fl))
      have hlt : back < x := lt_of_le_of_ne hle hne
      have hrest : (x :: unique_loop fl x l).Pairwise (· < ·) := ih h.of_cons
      refine List.pairwise_cons.mpr ⟨?_, hrest⟩
      intro y hy
      rcases List.mem_cons.mp hy with rfl | hy
      · exact hlt
      · exact hlt.trans ((List.pairwise_cons.mp hrest).1 y hy)
    · apply ih
      have hall := List.pairwise_cons.mp h
      exact List.pairwise_cons.mpr
        ⟨fun y hy => hall.1 y (List.mem_cons_of_mem _ hy), hall.2.of_cons⟩

theorem distinct_sorted (fl : Rounding) (values : List ℚ) :
    (distinct fl values).Pairwise (· < ·) := by
  have hsorted : (values.insertionSort (· ≤ ·)).Pairwise (· ≤ ·) := List.pairwise_insertionSort _ _
  unfold distinct
  match values.insertionSort (· ≤ ·), hsorted with
  | [], _ => exact .nil
  | x :: l, hsorted => exact unique_loop_sorted hsorted

theorem mem_of_mem_distinct {x : ℚ} {values : List ℚ} (h : x ∈ distinct fl values) :
    x ∈ values := by
  rw [← (List.perm_insertionSort (· ≤ ·) values).mem_iff]
  unfold distinct at h
  match values.insertionSort (· ≤ ·), h with
  | y :: l, h =>
    rcases List.mem_cons.mp h with rfl | hrest
    · exact List.mem_cons_self
    · exact List.mem_cons_of_mem _ (mem_of_mem_unique_loop hrest)

theorem grid_coordinates_eq_some {lons lats : List ℚ}
    (h : grid_coordinates fl mesh = some (lons, lats)) :
    lons = distinct_lons fl mesh ∧ lats = distinct_lats fl mesh ∧ 2 ≤ lons.length ∧
      2 ≤ lats.length ∧ (lons.length - 1) * (lats.length - 1) % 2 ^ 64 = mesh.n_cells := by
  unfold grid_coordinates at h
  dsimp only at h
  split at h
  · cases h
  split at h
  · cases h
  split at h
  · cases h
  next hlen =>
  split at h
  · cases h
  next hcells =>
  cases h
  exact ⟨rfl, rfl, by omega, by omega, not_not.mp hcells⟩

theorem grid_coordinates_of_detected
    (h : (detect_rectilinear_grid fl mesh).is_rectilinear = true ∨
      (detect_regular_grid fl mesh).is_regular = true) :
    ∃ lons lats, grid_coordinates fl mesh = some (lons, lats) := by
  unfold detect_rectilinear_grid detect_regular_grid at h
  rcases hcoords : grid_coordinates fl mesh with _ | ⟨lons, lats⟩
  · rw [hcoords] at h
    simp at h
  · exact ⟨lons, lats, rfl⟩

end

/-! ## Section 4: The numbering of the cells -/

/-- The index of the coordinate that `x` stands for. -/
def position (coords : List ℚ) (x : ℚ) : Nat := coords.countP (· ≤ x) - 1

/-- The corners of a cell in the grid, as indices of a longitude and a latitude. -/
def corners (mesh : UnstructuredMesh) (lons lats : List ℚ) (c : Nat) : List (Nat × Nat) :=
  (mesh.cell_nodes c).map fun p => (position lons p.1, position lats p.2)

/-- The corners go around the rectangle of column `i` and row `j`, from any of
    them and in either direction. -/
def IsRectangle (cs : List (Nat × Nat)) (i j : Nat) : Prop :=
  cs ~r [(i, j), (i + 1, j), (i + 1, j + 1), (i, j + 1)] ∨
    cs ~r [(i, j), (i, j + 1), (i + 1, j + 1), (i + 1, j)]

/-- What the fast paths assume. -/
def CellsNumbered (mesh : UnstructuredMesh) (lons lats : List ℚ) (ni nj : Nat) : Prop :=
  ∀ i j, i < ni → j < nj → IsRectangle (corners mesh lons lats (j * ni + i)) i j

/-- Every cell is a rectangle of the grid, and each next cell is further east in
    the same row or in a row further north. The number of rectangles fits a
    `size_t`. -/
structure CellsOrdered (mesh : UnstructuredMesh) (lons lats : List ℚ) (ni nj : Nat) : Prop where
  rectangle : ∀ c < mesh.n_cells, ∃ i j, IsRectangle (corners mesh lons lats c) i j
  ordered : ∀ c < mesh.n_cells, ∀ c' < mesh.n_cells, c < c' → ∀ i j i' j',
    IsRectangle (corners mesh lons lats c) i j → IsRectangle (corners mesh lons lats c') i' j' →
      j < j' ∨ (j = j' ∧ i < i')
  count : ni * nj < 2 ^ 64

theorem IsRectangle.mem_iff {cs : List (Nat × Nat)} {i j : Nat} (h : IsRectangle cs i j)
    (q : Nat × Nat) :
    q ∈ cs ↔ (q.1 = i ∨ q.1 = i + 1) ∧ (q.2 = j ∨ q.2 = j + 1) := by
  obtain ⟨a, b⟩ := q
  rcases h with h | h
  · rw [h.mem_iff]
    simp only [List.mem_cons, Prod.mk.injEq, List.not_mem_nil, or_false]
    omega
  · rw [h.mem_iff]
    simp only [List.mem_cons, Prod.mk.injEq, List.not_mem_nil, or_false]
    omega

theorem IsRectangle.unique {cs : List (Nat × Nat)} {i j i' j' : Nat} (h : IsRectangle cs i j)
    (h' : IsRectangle cs i' j') : i = i' ∧ j = j' := by
  -- the south-west corner of each is a corner of the other
  have hfirst := (h'.mem_iff (i, j)).mp ((h.mem_iff (i, j)).mpr ⟨.inl rfl, .inl rfl⟩)
  have hsecond := (h.mem_iff (i', j')).mp ((h'.mem_iff (i', j')).mpr ⟨.inl rfl, .inl rfl⟩)
  dsimp only at hfirst hsecond
  omega

section
variable {mesh : UnstructuredMesh} {lons lats : List ℚ} {c i j : Nat}

theorem position_le (coords : List ℚ) (x : ℚ) : position coords x ≤ coords.length - 1 := by
  unfold position
  have hle := List.countP_le_length (p := (fun y : ℚ => decide (y ≤ x))) (l := coords)
  omega

theorem IsRectangle.lt_n_cells (h : IsRectangle (corners mesh lons lats c) i j) :
    c < mesh.n_cells := by
  by_contra hnot
  have hnone : mesh.conn_offsets[c + 1]? = none := by
    apply List.getElem?_eq_none
    unfold UnstructuredMesh.n_cells at hnot
    omega
  have hnodes : mesh.cell_nodes c = [] := by
    unfold UnstructuredMesh.cell_nodes
    rw [hnone]
    split
    · next heq => cases heq
    · rfl
  have hmem := (h.mem_iff (i, j)).mpr ⟨.inl rfl, .inl rfl⟩
  rw [corners, hnodes] at hmem
  cases hmem

theorem IsRectangle.lt (h : IsRectangle (corners mesh lons lats c) i j) :
    i < lons.length - 1 ∧ j < lats.length - 1 := by
  have hmem := (h.mem_iff (i + 1, j + 1)).mpr ⟨.inr rfl, .inr rfl⟩
  obtain ⟨p, -, hp⟩ := List.mem_map.mp hmem
  obtain ⟨hi, hj⟩ := Prod.mk.inj hp
  have hlon := position_le lons p.1
  have hlat := position_le lats p.2
  omega

end

theorem eq_of_increasing {n : Nat} {f : Fin n → Fin n} (h : StrictMono f) : f = id := by
  apply (h.range_inj strictMono_id).mp
  rw [Set.range_id, (Finite.injective_iff_surjective.mp h.injective).range_eq]

theorem row_major_inj {n r c r' c' : Nat} (hc : c < n) (hc' : c' < n)
    (h : r * n + c = r' * n + c') : r = r' ∧ c = c' := by
  have hdiv := congrArg (· / n) h
  simp only [Nat.mul_comm _ n] at hdiv
  rw [Nat.mul_add_div (by omega), Nat.mul_add_div (by omega), Nat.div_eq_of_lt hc,
    Nat.div_eq_of_lt hc'] at hdiv
  have hr : r = r' := hdiv
  rw [hr] at h
  exact ⟨hr, by omega⟩

section
variable {fl : Rounding} {mesh : UnstructuredMesh} {lons lats : List ℚ}

theorem numbered_of_ordered {ni nj : Nat} (hcells : ni * nj = mesh.n_cells)
    (hni : lons.length - 1 = ni) (hnj : lats.length - 1 = nj)
    (h : CellsOrdered mesh lons lats ni nj) : CellsNumbered mesh lons lats ni nj := by
  choose col row hrect using h.rectangle
  -- the index that the rectangle of cell `c` has in the grid
  have hbound : ∀ (c) (hc : c < mesh.n_cells), row c hc * ni + col c hc < mesh.n_cells := by
    intro c hc
    obtain ⟨hcol, hrow⟩ := (hrect c hc).lt
    calc row c hc * ni + col c hc < row c hc * ni + ni := by omega
      _ = (row c hc + 1) * ni := by rw [Nat.succ_mul]
      _ ≤ nj * ni := Nat.mul_le_mul_right ni (by omega)
      _ = mesh.n_cells := by rw [Nat.mul_comm, hcells]
  have hmono : StrictMono fun c : Fin mesh.n_cells =>
      (⟨row c c.isLt * ni + col c c.isLt, hbound c c.isLt⟩ : Fin mesh.n_cells) := by
    intro c c' hlt
    obtain ⟨hcol, -⟩ := (hrect c c.isLt).lt
    show row c c.isLt * ni + col c c.isLt < row c' c'.isLt * ni + col c' c'.isLt
    rcases h.ordered c c.isLt c' c'.isLt hlt _ _ _ _ (hrect c c.isLt) (hrect c' c'.isLt) with
      hrow | ⟨hrow, hcol'⟩
    · have hmul := Nat.mul_le_mul_right ni (show row c c.isLt + 1 ≤ row c' c'.isLt from hrow)
      rw [Nat.succ_mul] at hmul
      omega
    · rw [hrow]
      omega
  intro i j hi hj
  have hc : j * ni + i < mesh.n_cells := by
    rw [← hcells, Nat.mul_comm ni nj]
    have hmul := Nat.mul_le_mul_right ni (show j + 1 ≤ nj from hj)
    rw [Nat.succ_mul] at hmul
    omega
  have hsame := congrFun (eq_of_increasing hmono) ⟨j * ni + i, hc⟩
  have hval : row _ hc * ni + col _ hc = j * ni + i := congrArg Fin.val hsame
  obtain ⟨hcol, -⟩ := (hrect _ hc).lt
  obtain ⟨hrow, hcoleq⟩ := row_major_inj (by omega) hi hval
  have hgoal := hrect _ hc
  rwa [hrow, hcoleq] at hgoal

theorem ordered_of_numbered {ni nj : Nat} (hcells : ni * nj % 2 ^ 64 = mesh.n_cells) (hni : 0 < ni)
    (hnj : 0 < nj) (h : CellsNumbered mesh lons lats ni nj) : CellsOrdered mesh lons lats ni nj := by
  -- the last rectangle is a cell, so there are no fewer cells than rectangles
  have hlast := (h (ni - 1) (nj - 1) (by omega) (by omega)).lt_n_cells
  have hprod : (nj - 1) * ni + (ni - 1) = ni * nj - 1 := by
    rw [Nat.sub_one_mul, Nat.mul_comm nj ni]
    have hle : ni ≤ ni * nj := Nat.le_mul_of_pos_right ni hnj
    omega
  have hmod : ni * nj % 2 ^ 64 ≤ ni * nj := Nat.mod_le _ _
  have hall : mesh.n_cells = ni * nj := by
    have hpos : 0 < ni * nj := Nat.mul_pos hni hnj
    omega
  have hcount : ni * nj < 2 ^ 64 := by
    have hlt : ni * nj % 2 ^ 64 < 2 ^ 64 := Nat.mod_lt _ (by omega)
    omega
  have hcell : ∀ c < mesh.n_cells, IsRectangle (corners mesh lons lats c) (c % ni) (c / ni) := by
    intro c hc
    have hrect := h (c % ni) (c / ni) (Nat.mod_lt c hni)
      (Nat.div_lt_of_lt_mul (by rwa [← hall]))
    rwa [Nat.div_add_mod'] at hrect
  refine ⟨fun c hc => ⟨_, _, hcell c hc⟩, ?_, hcount⟩
  intro c hc c' hc' hlt i j i' j' hrect hrect'
  obtain ⟨rfl, rfl⟩ := hrect.unique (hcell c hc)
  obtain ⟨rfl, rfl⟩ := hrect'.unique (hcell c' hc')
  have hle : c / ni ≤ c' / ni := Nat.div_le_div_right hlt.le
  rcases Nat.lt_or_eq_of_le hle with hrow | hrow
  · exact .inl hrow
  · refine .inr ⟨hrow, ?_⟩
    have hdiv := Nat.div_add_mod' c ni
    have hdiv' := Nat.div_add_mod' c' ni
    rw [hrow] at hdiv
    omega

theorem detected_cells_iff (fl : Rounding) (mesh : UnstructuredMesh)
    (h : (detect_rectilinear_grid fl mesh).is_rectilinear = true ∨
      (detect_regular_grid fl mesh).is_regular = true) :
    let info := detect_rectilinear_grid fl mesh
    let regular := detect_regular_grid fl mesh
    info.unique_lons.Pairwise (· < ·) ∧ info.unique_lats.Pairwise (· < ·) ∧
    info.unique_lons.length = info.ni + 1 ∧ info.unique_lats.length = info.nj + 1 ∧
    (regular.is_regular = true → regular.ni = info.ni ∧ regular.nj = info.nj) ∧
    (CellsNumbered mesh info.unique_lons info.unique_lats info.ni info.nj ↔
      CellsOrdered mesh info.unique_lons info.unique_lats info.ni info.nj) := by
  obtain ⟨lons, lats, hcoords⟩ := grid_coordinates_of_detected h
  obtain ⟨hlons, hlats, hni, hnj, hcells⟩ := grid_coordinates_eq_some hcoords
  have hinfo : detect_rectilinear_grid fl mesh =
      ⟨true, lons.length - 1, lats.length - 1, lons, lats⟩ := by
    unfold detect_rectilinear_grid
    rw [hcoords]
  intro info regular
  simp only [info, hinfo]
  refine ⟨?_, ?_, by omega, by omega, ?_, ?_⟩
  · rw [hlons]
    exact distinct_sorted _ _
  · rw [hlats]
    exact distinct_sorted _ _
  · intro hregular
    simp only [regular, detect_regular_grid, hcoords] at hregular ⊢
    split at hregular
    · cases hregular
    · next huniform =>
      rw [if_neg huniform]
      exact ⟨rfl, rfl⟩
  · constructor
    · exact ordered_of_numbered hcells (by omega) (by omega)
    · intro hordered
      rw [Nat.mod_eq_of_lt hordered.count] at hcells
      exact numbered_of_ordered hcells rfl rfl hordered

/-- Two quads, the second north of the first. -/
def two_quads : UnstructuredMesh where
  node_coords := [(0, 0), (1, 0), (0, 1), (1, 1), (0, 2), (1, 2)]
  conn_offsets := [0, 4, 8]
  conn_indices := [0, 1, 3, 2, 2, 3, 5, 4]

theorem detected_cells_iff_two_quads :
    let info := detect_rectilinear_grid .exact two_quads
    (detect_regular_grid .exact two_quads).is_regular = true ∧
    (CellsNumbered two_quads info.unique_lons info.unique_lats info.ni info.nj ↔
      CellsOrdered two_quads info.unique_lons info.unique_lats info.ni info.nj) := by
  have hregular : (detect_regular_grid .exact two_quads).is_regular = true := by decide +kernel
  obtain ⟨-, -, -, -, -, hiff⟩ := detected_cells_iff .exact two_quads (.inr hregular)
  exact ⟨hregular, hiff⟩

end

end Axis

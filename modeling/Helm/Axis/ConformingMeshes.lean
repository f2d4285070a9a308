import Helm.Framework.PolygonMesh
import Helm.Axis.GaussianReduced

/-! # AXIS: generated meshes conform

  Structured grids and the generators build quads from formulas for the
  indices of nodes. On a regular grid the rows of nodes have two ends; on a
  Gaussian grid they go round, and rows of different lengths are joined by
  mapping the cells between them to both in proportion. Where a node is mapped
  to twice, the quad is a triangle.

  The named Gaussian generators are read with exact numbers.

  Main result: `generated_meshes_conform`.
-/

namespace Axis

open Signed Segments PolygonMesh

/-! ## Section 1: The code -/

namespace UnstructuredMesh

variable (mesh : UnstructuredMesh)

/-- The indices of the nodes of a cell. -/
def cell_ids (c : Nat) : List Nat :=
  (mesh.conn_indices.drop (mesh.conn_offsets.getD c 0)).take
    (mesh.conn_offsets.getD (c + 1) 0 - mesh.conn_offsets.getD c 0)

def all_ids : List (List Nat) := (List.range mesh.n_cells).map mesh.cell_ids

/-- **A conforming mesh** with its offsets in order. -/
structure Conforms (Boundary : Nat → Nat → Prop) : Prop where
  first_offset : mesh.conn_offsets.head? = some 0
  offsets_increase : mesh.conn_offsets.Pairwise (· < ·)
  last_offset : mesh.conn_offsets.getLast? = some mesh.conn_indices.length
  edges : Conforming {id | id < mesh.node_coords.length} Boundary mesh.all_ids

end UnstructuredMesh

/-- A logically rectangular grid; its corners are set, or found from centers. -/
structure StructuredGrid where
  ni : Nat
  nj : Nat
  corner_lon : Nat → ℚ
  corner_lat : Nat → ℚ

namespace StructuredGrid

variable (grid : StructuredGrid)

/-- The node that the kernel fills for `ci` and `cj`; its index is an `int`. -/
def fill_node (ci cj : Nat) : Outcome String (ℚ × ℚ) :=
  let nip1 := grid.ni + 1
  let node_idx := to_int (ci + cj * nip1 : Nat)
  if node_idx < 0 then .undefined
  else .returned (grid.corner_lon node_idx.toNat, grid.corner_lat node_idx.toNat)

/-- The offset and the indices of a cell. -/
def fill_connectivity (i j : Nat) : Outcome String (Nat × List Nat) := do
  let nip1 := grid.ni + 1
  let cell_idx := to_int (i + j * grid.ni : Nat)
  let offset ← signed 32 (cell_idx * 4)
  if offset < 0 then .undefined
  else
    .returned (offset.toNat,
      [i + j * nip1, (i + 1) + j * nip1, (i + 1) + (j + 1) * nip1, i + (j + 1) * nip1])

/-- Each kernel in the order of the indices it fills. -/
def to_unstructured : Outcome String UnstructuredMesh := do
  let n_cells := grid.ni * grid.nj
  let node_coords ← ((List.range (grid.nj + 1)).flatMap fun cj =>
    (List.range (grid.ni + 1)).map fun ci => (ci, cj)).mapM fun p => grid.fill_node p.1 p.2
  let cells ← ((List.range grid.nj).flatMap fun j =>
    (List.range grid.ni).map fun i => (i, j)).mapM fun p => grid.fill_connectivity p.1 p.2
  return ⟨node_coords, cells.map (·.1) ++ [n_cells * 4], cells.flatMap (·.2)⟩

end StructuredGrid

/-- The rules that the regular generator reads. -/
structure GridRulesParams where
  min_x : ℚ
  max_x : ℚ
  min_y : ℚ
  max_y : ℚ
  r_x : ℚ
  r_y : ℚ

section
variable (fl : Rounding) (to_string : ℚ → String)

def validate_bbox (rules : GridRulesParams) : Outcome String Unit :=
  if rules.max_x ≤ rules.min_x then
    .thrown ("RuleGenerator: max_x (" ++ to_string rules.max_x ++
      ") must be greater than min_x (" ++ to_string rules.min_x ++ ")")
  else if rules.max_y ≤ rules.min_y then
    .thrown ("RuleGenerator: max_y (" ++ to_string rules.max_y ++
      ") must be greater than min_y (" ++ to_string rules.min_y ++ ")")
  else .returned ()

def validate_resolution (rules : GridRulesParams) : Outcome String Unit :=
  if rules.r_x ≤ 0 then
    .thrown ("RuleGenerator: r_x must be positive, got " ++ to_string rules.r_x)
  else if rules.r_y ≤ 0 then
    .thrown ("RuleGenerator: r_y must be positive, got " ++ to_string rules.r_y)
  else .returned ()

/-- The number of cells between two bounds. -/
def cells_between (lo hi r : ℚ) : Int := ⌊fl.round (fl.round (hi - lo) / r)⌋

def generate_regular_latlon (rules : GridRulesParams) : Outcome String UnstructuredMesh := do
  validate_bbox to_string rules
  validate_resolution to_string rules
  let ni := cells_between fl rules.min_x rules.max_x rules.r_x
  let nj := cells_between fl rules.min_y rules.max_y rules.r_y
  if ni = 0 ∨ nj = 0 then
    .thrown ("RuleGenerator: RegularLatLon resolution produces zero cells (ni=" ++ toString ni ++
      ", nj=" ++ toString nj ++ ")")
  -- a cast out of range, or sizes that wrap
  else if ni < 0 ∨ nj < 0 ∨ 2 ^ 61 ≤ (ni + 1) * (nj + 1) then .undefined
  else
    .returned (quad_mesh ni.toNat nj.toNat
      (fun i => fl.round (rules.min_x + fl.round (fl.round i * rules.r_x)))
      (fun j => fl.round (rules.min_y + fl.round (fl.round j * rules.r_y))))

variable (gauss_lats : Nat → List ℚ)

/-- A circle of `n_lon` points. -/
def circle_coords (lat : ℚ) (n_lon : Nat) : List (ℚ × ℚ) :=
  let dlon := fl.round (360 / fl.round n_lon)
  (List.range n_lon).map fun (i : Nat) => (fl.round (fl.round i * dlon), lat)

def generate_regular_gaussian (N : Nat) : UnstructuredMesh :=
  let n_lat := 2 * N
  let n_lon := 4 * N
  let n_cells := (2 * N - 1) * (4 * N)
  { node_coords := (List.range n_lat).flatMap fun j =>
      circle_coords fl ((gauss_lats N).getD j 0) n_lon
    conn_offsets := (List.range (n_cells + 1)).map (· * 4)
    conn_indices := (List.range (n_lat - 1)).flatMap fun j =>
      let row_start := j * n_lon
      let next_row_start := (j + 1) * n_lon
      (List.range n_lon).flatMap fun i =>
        let i_next := (i + 1) % n_lon
        [row_start + i, row_start + i_next, next_row_start + i_next, next_row_start + i] }

/-- The node of a circle that a cell begins at, in proportion. -/
def ring_index (nlon n_cells_ring c : Nat) : Nat :=
  let frac : ℚ := c / n_cells_ring
  ⌊frac * nlon⌋.toNat % nlon

def row_start (nlons : Nat → Nat) (j : Nat) : Nat := ((List.range j).map nlons).sum

def n_cells_ring (nlons : Nat → Nat) (j : Nat) : Nat := max (nlons j) (nlons (j + 1))

def generate_octahedral_gaussian (N : Nat) : UnstructuredMesh :=
  let n_lat := 2 * N
  let nlons := nlon_of N
  let n_cells := ((List.range (n_lat - 1)).map (n_cells_ring nlons)).sum
  { node_coords := (List.range n_lat).flatMap fun j =>
      circle_coords fl ((gauss_lats N).getD j 0) (nlons j)
    conn_offsets := (List.range (n_cells + 1)).map (· * 4)
    conn_indices := (List.range (n_lat - 1)).flatMap fun j =>
      let top_start := row_start nlons j
      let bot_start := row_start nlons (j + 1)
      let ring := n_cells_ring nlons j
      (List.range ring).flatMap fun c =>
        let top_i := ring_index (nlons j) ring c
        let top_i_next := ring_index (nlons j) ring (c + 1)
        let bot_i := ring_index (nlons (j + 1)) ring c
        let bot_i_next := ring_index (nlons (j + 1)) ring (c + 1)
        [top_start + top_i, top_start + top_i_next, bot_start + bot_i_next, bot_start + bot_i] }

end

/-! ## Section 2: Offsets -/

section
variable {β : Type} {items : List β} {ids : β → List Nat} {coords : List (ℚ × ℚ)}

/-- A mesh of quads, in terms of what each cell is made from. -/
def mesh_of (coords : List (ℚ × ℚ)) (items : List β) (ids : β → List Nat) : UnstructuredMesh :=
  ⟨coords, (List.range (items.length + 1)).map (· * 4), items.flatMap ids⟩

theorem getD_offset {n c : Nat} (hc : c < n) : ((List.range n).map (· * 4)).getD c 0 = c * 4 := by
  rw [List.getD_eq_getElem?_getD, List.getElem?_map, List.getElem?_range hc]
  rfl

theorem all_ids_mesh_of (hfour : ∀ b, (ids b).length = 4) :
    (mesh_of coords items ids).all_ids = items.map ids := by
  have hcells : (mesh_of coords items ids).n_cells = items.length := by
    unfold UnstructuredMesh.n_cells mesh_of
    rw [List.length_map, List.length_range, Nat.add_sub_cancel]
  unfold UnstructuredMesh.all_ids
  rw [hcells]
  apply List.ext_getElem
  · rw [List.length_map, List.length_range, List.length_map]
  · intro c hc hc'
    rw [List.length_map] at hc'
    rw [List.getElem_map, List.getElem_range, List.getElem_map]
    have hblock := take_drop_flatMap hfour hc'
    unfold UnstructuredMesh.cell_ids mesh_of
    dsimp only
    rw [getD_offset (by omega), getD_offset (by omega), ← hblock, Nat.mul_comm c 4]
    congr 1
    omega

theorem conforms_mesh_of (hfour : ∀ b, (ids b).length = 4) {Boundary : Nat → Nat → Prop}
    (h : Conforming {id | id < coords.length} Boundary (items.map ids)) :
    (mesh_of coords items ids).Conforms Boundary where
  first_offset := by
    unfold mesh_of
    rw [List.range_succ_eq_map]
    rfl
  offsets_increase := by
    unfold mesh_of
    rw [List.pairwise_map]
    exact List.pairwise_lt_range.imp fun hlt => by omega
  last_offset := by
    have hlength : (items.flatMap ids).length = items.length * 4 := by
      rw [List.length_flatMap, List.map_congr_left fun b _ => hfour b, List.map_const',
        List.sum_replicate, smul_eq_mul]
    unfold mesh_of
    rw [List.range_succ, List.map_append, hlength]
    exact List.getLast?_concat
  edges := by
    rw [all_ids_mesh_of hfour]
    exact h

end

/-! ## Section 3: Rectangular grids -/

section
variable {ni nj : Nat}

/-- The node at row `j` and column `c`. -/
def grid_node (ni j c : Nat) : Nat := j * (ni + 1) + c

/-- Both ends of an edge on the same side of the grid. -/
def OnSide (ni nj a b : Nat) : Prop :=
  (a % (ni + 1) = 0 ∧ b % (ni + 1) = 0) ∨ (a % (ni + 1) = ni ∧ b % (ni + 1) = ni) ∨
    (a / (ni + 1) = 0 ∧ b / (ni + 1) = 0) ∨ (a / (ni + 1) = nj ∧ b / (ni + 1) = nj)

theorem grid_node_row {j c : Nat} (hc : c ≤ ni) : grid_node ni j c / (ni + 1) = j := by
  unfold grid_node
  rw [Nat.mul_comm, Nat.mul_add_div (by omega), Nat.div_eq_of_lt (by omega), Nat.add_zero]

theorem grid_node_column {j c : Nat} (hc : c ≤ ni) : grid_node ni j c % (ni + 1) = c := by
  unfold grid_node
  rw [Nat.mul_comm, Nat.mul_add_mod, Nat.mod_eq_of_lt (by omega)]

theorem grid_strips : Strips nj (fun _ => ni) (grid_node ni) (fun j => grid_node ni (j + 1))
    (· / (ni + 1)) (fun j => steps (grid_node ni j) ni) where
  top_row _ _ _ hc := grid_node_row hc
  bottom_row _ _ _ hc := grid_node_row hc
  top_edge _ _ _ _ _ := rfl
  bottom_edge _ _ _ _ _ := rfl
  once j _ a b _ := by
    apply steps_once
    · intro c _ d _ heq
      exact Nat.add_left_cancel heq
    · intro c _ d _ hfrom hto
      have hcd : c = d + 1 := Nat.add_left_cancel hfrom
      have hdc : c + 1 = d := Nat.add_left_cancel hto
      omega
  moves j _ c _ hsame := by
    have hcc : c + 1 = c := Nat.add_left_cancel hsame
    omega

/-- **Rectangular grids conform.** -/
theorem grid_conforms (hni : 1 ≤ ni) (hnj : 1 ≤ nj) :
    Conforming {id | id < (ni + 1) * (nj + 1)} (OnSide ni nj)
      (strips nj (fun _ => ni) (grid_node ni) fun j => grid_node ni (j + 1)) := by
  have hinside : ∀ j ≤ nj, ∀ c ≤ ni, grid_node ni j c < (ni + 1) * (nj + 1) := by
    intro j hj c hc
    calc grid_node ni j c < j * (ni + 1) + (ni + 1) := by unfold grid_node; omega
      _ = (ni + 1) * (j + 1) := by ring
      _ ≤ (ni + 1) * (nj + 1) := Nat.mul_le_mul_left _ (by omega)
  apply grid_strips.conforming hnj
  · intro a b hside
    unfold OnSide at hside ⊢
    omega
  · intro a b hne hrow
    -- in one row the columns are different
    have hcolumn : a % (ni + 1) ≠ b % (ni + 1) := by
      intro hsame
      apply hne
      rw [← Nat.div_add_mod a (ni + 1), ← Nat.div_add_mod b (ni + 1), hrow, hsame]
    unfold OnSide
    omega
  · intro a b hrow hlt hpos
    obtain ⟨c, hc, ha, hb, hdown, hup⟩ := grid_strips.side_of_open hrow hlt
      (fun c _ d _ heq _ => Nat.add_left_cancel heq) hpos
    have hcolumn : a % (ni + 1) = c := by
      rw [← ha]
      exact grid_node_column hc
    have hcolumn' : b % (ni + 1) = c := by
      rw [← hb]
      exact grid_node_column hc
    have hside : OnSide ni nj a b ↔ c = 0 ∨ c = ni := by
      unfold OnSide
      omega
    rw [hside, hdown, hup]
    constructor
    · rintro (hfirst | hlast)
      · rw [if_pos hfirst, if_neg (by omega)]
      · rw [if_neg (by omega), if_pos hlast]
    · intro hneither
      exact ⟨if_neg (by omega), if_neg (by omega)⟩
  · intro j hj c hc
    exact ⟨hinside j hj.le c hc, hinside (j + 1) hj c hc⟩
  · intro j _
    exact hni
  · intro id hid
    have hrow : id / (ni + 1) < nj + 1 := Nat.div_lt_of_lt_mul hid
    have hcolumn : id % (ni + 1) ≤ ni := by
      have hlt := Nat.mod_lt id (show 0 < ni + 1 by omega)
      omega
    have hid_eq : grid_node ni (id / (ni + 1)) (id % (ni + 1)) = id := by
      unfold grid_node
      rw [Nat.mul_comm, Nat.div_add_mod]
    rcases Nat.lt_or_ge (id / (ni + 1)) nj with hlt | hge
    · exact ⟨_, hlt, _, hcolumn, .inl hid_eq.symm⟩
    · refine ⟨nj - 1, by omega, _, hcolumn, .inr ?_⟩
      rw [Nat.sub_add_cancel hnj, show nj = id / (ni + 1) by omega, hid_eq]

end

/-! ## Section 4: Rings between circles -/

section
variable {n : Nat → Nat} {m : Nat}

theorem row_start_succ (j : Nat) : row_start n (j + 1) = row_start n j + n j := by
  unfold row_start
  rw [List.range_succ, List.map_append, List.sum_append, List.map_singleton, List.sum_singleton]

theorem row_start_mono {i j : Nat} (hij : i ≤ j) : row_start n i ≤ row_start n j := by
  induction j, hij using Nat.le_induction with
  | base => exact le_refl _
  | succ j _ ih =>
    rw [row_start_succ]
    omega

theorem exists_place {id : Nat} (h : id < row_start n m) :
    ∃ j < m, ∃ k < n j, id = row_start n j + k := by
  induction m with
  | zero => exact absurd h (Nat.not_lt_zero id)
  | succ m ih =>
    rcases Nat.lt_or_ge id (row_start n m) with hlt | hge
    · obtain ⟨j, hj, hplace⟩ := ih hlt
      exact ⟨j, by omega, hplace⟩
    · rw [row_start_succ] at h
      exact ⟨m, by omega, id - row_start n m, by omega, by omega⟩

/-- The circle of a node, among the first `m + 1`. -/
def circle (n : Nat → Nat) (m id : Nat) : Nat :=
  ((Finset.range m).filter fun j => row_start n (j + 1) ≤ id).card

theorem circle_of {j k : Nat} (hj : j ≤ m) (hk : k < n j) : circle n m (row_start n j + k) = j := by
  have hbefore : (Finset.range m).filter (fun i => row_start n (i + 1) ≤ row_start n j + k) =
      Finset.range j := by
    ext i
    rw [Finset.mem_filter, Finset.mem_range, Finset.mem_range]
    constructor
    · intro ⟨_, hle⟩
      by_contra hge
      have hmono := @row_start_mono n (j + 1) (i + 1) (by omega)
      rw [row_start_succ j] at hmono
      omega
    · intro hlt
      have hmono := @row_start_mono n (i + 1) j hlt
      omega
  unfold circle
  rw [hbefore, Finset.card_range]

theorem circle_first {id : Nat} (hm : 0 < m) : circle n m id = 0 ↔ id < row_start n 1 := by
  unfold circle
  rw [Finset.card_eq_zero, Finset.filter_eq_empty_iff]
  constructor
  · intro hnone
    exact not_le.mp (hnone (Finset.mem_range.mpr hm))
  · intro hlt j _ hle
    have hmono := @row_start_mono n 1 (j + 1) (by omega)
    omega

theorem circle_last {id : Nat} (hm : 0 < m) : circle n m id = m ↔ row_start n m ≤ id := by
  have hall := @Finset.card_filter_eq_iff _ (Finset.range m) (fun j => row_start n (j + 1) ≤ id) _
  rw [Finset.card_range] at hall
  unfold circle
  rw [hall]
  constructor
  · intro hle
    have hlast := hle (m - 1) (Finset.mem_range.mpr (by omega))
    rwa [Nat.sub_add_cancel hm] at hlast
  · intro hle j hj
    rw [Finset.mem_range] at hj
    have hmono := @row_start_mono n (j + 1) m hj
    omega

/-- The place on a circle, all the way round. -/
def circle_node (n : Nat → Nat) (j k : Nat) : Nat := row_start n j + k % n j

/-- Where cells begin that are mapped in proportion. -/
def proportional (n R c : Nat) : Nat := c * n / R

theorem ring_index_eq (nlon R c : Nat) : ring_index nlon R c = proportional nlon R c % nlon := by
  unfold ring_index proportional
  dsimp only
  have hfrac : (c : ℚ) / R * nlon = ((c * nlon : Nat) : Int) / ((R : Nat) : ℚ) := by
    push_cast
    ring
  rw [hfrac, Rat.floor_intCast_div_natCast]
  rfl

theorem proportional_step {n R : Nat} (hle : n ≤ R) (hR : 0 < R) (c : Nat) :
    proportional n R (c + 1) = proportional n R c ∨
      proportional n R (c + 1) = proportional n R c + 1 := by
  unfold proportional
  have hlow : c * n / R ≤ (c + 1) * n / R := Nat.div_le_div_right (Nat.mul_le_mul_right n (by omega))
  have hhigh : (c + 1) * n / R ≤ c * n / R + 1 := by
    rw [← Nat.add_div_right _ hR, Nat.succ_mul]
    exact Nat.div_le_div_right (by omega)
  omega

theorem proportional_zero (n R : Nat) : proportional n R 0 = 0 := by
  unfold proportional
  rw [Nat.zero_mul, Nat.zero_div]

theorem proportional_end {n R : Nat} (hR : 0 < R) : proportional n R R = n := by
  unfold proportional
  rw [Nat.mul_comm, Nat.mul_div_cancel n hR]

theorem proportional_same {R : Nat} (hR : 0 < R) (c : Nat) : proportional R R c = c := by
  unfold proportional
  exact Nat.mul_div_cancel c hR

/-- The node above and the one below the beginning of a cell. -/
def above (n : Nat → Nat) (j c : Nat) : Nat :=
  circle_node n j (proportional (n j) (n_cells_ring n j) c)

def below (n : Nat → Nat) (j c : Nat) : Nat :=
  circle_node n (j + 1) (proportional (n (j + 1)) (n_cells_ring n j) c)

theorem circle_node_inj {j : Nat} : ∀ c < n j, ∀ d < n j,
    circle_node n j c = circle_node n j d → c = d := by
  intro c hc d hd heq
  have hmod := Nat.add_left_cancel heq
  rwa [Nat.mod_eq_of_lt hc, Nat.mod_eq_of_lt hd] at hmod

theorem circle_node_round (j : Nat) : circle_node n j (n j) = circle_node n j 0 := by
  unfold circle_node
  rw [Nat.mod_self, Nat.zero_mod]

theorem circle_node_moves {j c : Nat} (htwo : 2 ≤ n j) (hc : c < n j) :
    circle_node n j (c + 1) ≠ circle_node n j c := by
  intro heq
  have hmod := Nat.add_left_cancel heq
  rw [Nat.mod_eq_of_lt hc] at hmod
  rcases Nat.lt_or_ge (c + 1) (n j) with hlt | hge
  · rw [Nat.mod_eq_of_lt hlt] at hmod
    omega
  · rw [show c + 1 = n j by omega, Nat.mod_self] at hmod
    omega

theorem circle_circle_node {j k : Nat} (hj : j ≤ m) (hpos : 0 < n j) :
    circle n m (circle_node n j k) = j :=
  circle_of hj (Nat.mod_lt k hpos)

theorem full_circle (n : Nat → Nat) (j : Nat) :
    (n_cells_ring n j = n j ∧ n (j + 1) ≤ n j) ∨
      (n_cells_ring n j = n (j + 1) ∧ n j ≤ n (j + 1)) := by
  unfold n_cells_ring
  omega

theorem ring_strips (hthree : ∀ j ≤ m, 3 ≤ n j) : Strips m (n_cells_ring n) (above n) (below n)
    (circle n m) (fun j => steps (circle_node n j) (n j)) := by
  have hsize : ∀ j < m, n j ≤ n_cells_ring n j ∧ n (j + 1) ≤ n_cells_ring n j ∧
      3 ≤ n j ∧ 3 ≤ n (j + 1) ∧ 0 < n_cells_ring n j := by
    intro j hj
    have htop := hthree j hj.le
    have hbottom := hthree (j + 1) hj
    have hfull := full_circle n j
    omega
  constructor
  · intro j hj c _
    obtain ⟨-, -, htop, -, -⟩ := hsize j hj
    exact circle_circle_node hj.le (by omega)
  · intro j hj c _
    obtain ⟨-, -, -, hbottom, -⟩ := hsize j hj
    exact circle_circle_node hj (by omega)
  · intro j hj a b hne
    obtain ⟨hle, -, -, -, hR⟩ := hsize j hj
    have hslow := @steps_slow Nat _ (circle_node n j) (n_cells_ring n j) a b
      (proportional (n j) (n_cells_ring n j)) (proportional_zero _ _)
      (fun c _ => proportional_step hle hR c) hne
    rwa [proportional_end hR] at hslow
  · intro j hj a b hne
    obtain ⟨-, hle, -, -, hR⟩ := hsize j hj
    have hslow := @steps_slow Nat _ (circle_node n (j + 1)) (n_cells_ring n j) a b
      (proportional (n (j + 1)) (n_cells_ring n j)) (proportional_zero _ _)
      (fun c _ => proportional_step hle hR c) hne
    rwa [proportional_end hR] at hslow
  · intro j hj a b _
    exact round_once (hthree j hj) (circle_node_round j) circle_node_inj
  · intro j hj c hc htop hbottom
    obtain ⟨-, -, htop_three, hbottom_three, hR⟩ := hsize j hj
    unfold above at htop
    unfold below at hbottom
    rcases full_circle n j with ⟨hfull, -⟩ | ⟨hfull, -⟩
    · rw [hfull, proportional_same (by omega), proportional_same (by omega)] at htop
      exact circle_node_moves (by omega) (by omega) htop
    · rw [hfull, proportional_same (by omega), proportional_same (by omega)] at hbottom
      exact circle_node_moves (by omega) (by omega) hbottom

/-- Both ends of an edge on the first or on the last circle. -/
def OnEndCircle (n : Nat → Nat) (m a b : Nat) : Prop :=
  (a < row_start n 1 ∧ b < row_start n 1) ∨ (row_start n m ≤ a ∧ row_start n m ≤ b)

/-- **Rings between circles conform.** -/
theorem rings_conform (hm : 0 < m) (hthree : ∀ j ≤ m, 3 ≤ n j) :
    Conforming {id | id < row_start n (m + 1)} (OnEndCircle n m)
      (strips m (n_cells_ring n) (above n) (below n)) := by
  have hinside : ∀ j ≤ m, ∀ k, circle_node n j k < row_start n (m + 1) := by
    intro j hj k
    have hpos := hthree j hj
    have hmod := Nat.mod_lt k (show 0 < n j by omega)
    have hmono := @row_start_mono n (j + 1) (m + 1) (by omega)
    rw [row_start_succ j] at hmono
    unfold circle_node
    omega
  have hends : ∀ a b, OnEndCircle n m a b ↔
      (circle n m a = 0 ∧ circle n m b = 0) ∨ (circle n m a = m ∧ circle n m b = m) := by
    intro a b
    rw [circle_first hm, circle_first hm, circle_last hm, circle_last hm]
    rfl
  have hpositive : ∀ j < m, 0 < n_cells_ring n j := by
    intro j hj
    have htop := hthree j hj.le
    have hfull := full_circle n j
    omega
  apply (ring_strips hthree).conforming hm
  · intro a b hend
    rw [hends] at hend ⊢
    omega
  · intro a b _ hrow
    rw [hends]
    omega
  · intro a b hrow hlt hpos
    have hR := hpositive _ hlt
    have hinj : ∀ c < n_cells_ring n (circle n m a), ∀ d < n_cells_ring n (circle n m a),
        above n (circle n m a) c = above n (circle n m a) d →
        below n (circle n m a) c = below n (circle n m a) d → c = d := by
      intro c hc d hd habove hbelow
      unfold above at habove
      unfold below at hbelow
      rcases full_circle n (circle n m a) with ⟨hfull, -⟩ | ⟨hfull, -⟩
      · rw [hfull] at habove hc hd
        rw [proportional_same (by omega), proportional_same (by omega)] at habove
        exact circle_node_inj c hc d hd habove
      · rw [hfull] at hbelow hc hd
        rw [proportional_same (by omega), proportional_same (by omega)] at hbelow
        exact circle_node_inj c hc d hd hbelow
    have hround : above n (circle n m a) (n_cells_ring n (circle n m a)) =
        above n (circle n m a) 0 := by
      unfold above
      rw [proportional_end hR, proportional_zero, circle_node_round]
    have hround' : below n (circle n m a) (n_cells_ring n (circle n m a)) =
        below n (circle n m a) 0 := by
      unfold below
      rw [proportional_end hR, proportional_zero, circle_node_round]
    have hshared := (ring_strips hthree).side_of_round hrow hlt hround hround' hinj hpos
    refine ⟨?_, fun _ => hshared⟩
    intro hend
    rw [hends] at hend
    omega
  · intro j hj c _
    exact ⟨hinside j hj.le _, hinside (j + 1) hj _⟩
  · exact hpositive
  · intro id hid
    obtain ⟨j, hj, k, hk, rfl⟩ := exists_place hid
    have hreach : ∀ R, n j ≤ R → 0 < R → ∃ c < R, proportional (n j) R c = k := by
      intro R hle hR
      exact reaches (proportional_zero _ _) (fun c _ => proportional_step hle hR c)
        (by rwa [proportional_end hR])
    rcases Nat.lt_or_ge j m with hlt | hge
    · obtain ⟨c, hc, heq⟩ := hreach _ (le_max_left _ _) (hpositive j hlt)
      refine ⟨j, hlt, c, hc.le, .inl ?_⟩
      rw [above, n_cells_ring, heq, circle_node, Nat.mod_eq_of_lt hk]
    · -- the last circle is the lower one of the last ring
      obtain ⟨i, rfl⟩ : ∃ i, j = i + 1 := ⟨j - 1, by omega⟩
      obtain ⟨c, hc, heq⟩ := hreach _ (le_max_right _ _) (hpositive i (by omega))
      refine ⟨i, by omega, c, hc.le, .inr ?_⟩
      rw [below, n_cells_ring, heq, circle_node, Nat.mod_eq_of_lt hk]

end

/-! ## Section 5: The generators -/

theorem map_range_rows {β : Type} (ni nj : Nat) (f : Nat → β) :
    ((List.range nj).flatMap fun j => (List.range ni).map fun i => f (i + j * ni)) =
      (List.range (ni * nj)).map f := by
  induction nj with
  | zero => rfl
  | succ nj ih =>
    rw [List.range_succ, List.flatMap_append, ih, List.flatMap_singleton, Nat.mul_succ,
      List.range_add, List.map_append, List.map_map]
    congr 1
    apply List.map_congr_left
    intro i _
    rw [Function.comp_apply, Nat.mul_comm nj ni, Nat.add_comm]

theorem rows_eq_range {α β : Type} (ni nj : Nat) (x : Nat → α) (y : Nat → β) :
    ((List.range nj).flatMap fun j => (List.range ni).map fun i => (x i, y j)) =
      (List.range (ni * nj)).map fun c => (x (c % ni), y (c / ni)) := by
  rw [← map_range_rows]
  congr 1
  funext j
  apply List.map_congr_left
  intro i hi
  rw [List.mem_range] at hi
  rw [Nat.add_mul_mod_self_right, Nat.mod_eq_of_lt hi, Nat.add_mul_div_right _ _ (by omega),
    Nat.div_eq_of_lt hi, Nat.zero_add]

theorem length_rows {β : Type} (ni nj : Nat) (f : Nat → Nat → β) :
    ((List.range nj).flatMap fun j => (List.range ni).map (f j)).length = ni * nj := by
  rw [List.length_flatMap]
  simp only [List.length_map, List.length_range, List.map_const', List.sum_replicate, smul_eq_mul]
  exact Nat.mul_comm nj ni

theorem flatMap_rows {β γ : Type} (m : Nat) (R : Nat → Nat) (f : Nat → Nat → β) (g : β → List γ) :
    ((List.range m).flatMap fun j => (List.range (R j)).map (f j)).flatMap g =
      (List.range m).flatMap fun j => (List.range (R j)).flatMap fun c => g (f j c) := by
  rw [List.flatMap_assoc]
  congr 1
  funext j
  rw [List.flatMap_map]

section
variable {ni nj : Nat}

theorem quad_mesh_conforms (hni : 1 ≤ ni) (hnj : 1 ≤ nj) (x y : Nat → ℚ) :
    (quad_mesh ni nj x y).Conforms (OnSide ni nj) := by
  have hmesh : quad_mesh ni nj x y = mesh_of (quad_mesh ni nj x y).node_coords
      (List.range (ni * nj)) fun c => Axis.quad (ni + 1) (c % ni) (c / ni) := by
    unfold quad_mesh mesh_of
    rw [List.length_range]
    simp only [Nat.mul_comm 4]
  have hcells : (List.range (ni * nj)).map (fun c => Axis.quad (ni + 1) (c % ni) (c / ni)) =
      strips nj (fun _ => ni) (grid_node ni) fun j => grid_node ni (j + 1) := by
    rw [← map_range_rows]
    unfold strips
    congr 1
    funext j
    apply List.map_congr_left
    intro i hi
    rw [List.mem_range] at hi
    rw [Nat.add_mul_mod_self_right, Nat.mod_eq_of_lt hi, Nat.add_mul_div_right _ _ (by omega),
      Nat.div_eq_of_lt hi, Nat.zero_add]
    rfl
  have hnodes : (quad_mesh ni nj x y).node_coords.length = (ni + 1) * (nj + 1) := by
    unfold quad_mesh
    rw [List.length_map, List.length_range]
  rw [hmesh]
  apply conforms_mesh_of fun _ => rfl
  rw [hcells, hnodes]
  exact grid_conforms hni hnj

/-- The nodes and the cells of a grid, row after row. -/
def StructuredGrid.nodes (grid : StructuredGrid) : List (ℚ × ℚ) :=
  (List.range (grid.nj + 1)).flatMap fun cj => (List.range (grid.ni + 1)).map fun ci =>
    (grid.corner_lon (ci + cj * (grid.ni + 1)), grid.corner_lat (ci + cj * (grid.ni + 1)))

def StructuredGrid.cells (grid : StructuredGrid) : List (Nat × Nat) :=
  (List.range grid.nj).flatMap fun j => (List.range grid.ni).map fun i => (i, j)

theorem to_unstructured_mesh {grid : StructuredGrid}
    (hnodes : (grid.ni + 1) * (grid.nj + 1) < 2 ^ 31) (hcells : 4 * (grid.ni * grid.nj) ≤ 2 ^ 31) :
    grid.to_unstructured =
      .returned (mesh_of grid.nodes grid.cells fun p => Axis.quad (grid.ni + 1) p.1 p.2) := by
  have hplace : ∀ n i j m : Nat, i < n → j < m → i + j * n < n * m := by
    intro n i j m hi hj
    calc i + j * n < n + j * n := by omega
      _ = n * (j + 1) := by ring
      _ ≤ n * m := Nat.mul_le_mul_left n hj
  have hfill_node : ∀ p ∈ (List.range (grid.nj + 1)).flatMap fun cj =>
      (List.range (grid.ni + 1)).map fun ci => (ci, cj), grid.fill_node p.1 p.2 =
        .returned (grid.corner_lon (p.1 + p.2 * (grid.ni + 1)),
          grid.corner_lat (p.1 + p.2 * (grid.ni + 1))) := by
    intro p hp
    obtain ⟨cj, hcj, hmem⟩ := List.mem_flatMap.mp hp
    obtain ⟨ci, hci, rfl⟩ := List.mem_map.mp hmem
    rw [List.mem_range] at hcj hci
    have hlt := hplace _ _ _ _ hci hcj
    unfold StructuredGrid.fill_node
    dsimp only
    rw [to_int_of_lt (by omega), if_neg (by omega), Int.toNat_natCast]
  have hfill : ∀ p ∈ grid.cells, grid.fill_connectivity p.1 p.2 =
        .returned ((p.1 + p.2 * grid.ni) * 4, Axis.quad (grid.ni + 1) p.1 p.2) := by
    intro p hp
    obtain ⟨j, hj, hmem⟩ := List.mem_flatMap.mp hp
    obtain ⟨i, hi, rfl⟩ := List.mem_map.mp hmem
    rw [List.mem_range] at hj hi
    have hlt := hplace _ _ _ _ hi hj
    unfold StructuredGrid.fill_connectivity
    dsimp only
    rw [to_int_of_lt (by omega), signed_of_fits (fits_32.mpr (by omega)), Outcome.returned_bind,
      if_neg (by omega)]
    have hoffset : (((i + j * grid.ni : Nat) : Int) * 4).toNat = (i + j * grid.ni) * 4 := by omega
    have hids : [i + j * (grid.ni + 1), i + 1 + j * (grid.ni + 1), i + 1 + (j + 1) * (grid.ni + 1),
        i + (j + 1) * (grid.ni + 1)] = Axis.quad (grid.ni + 1) i j := by
      unfold Axis.quad
      rw [Nat.add_comm i (j * _), Nat.add_comm (i + 1) (j * _), Nat.add_comm (i + 1) ((j + 1) * _),
        Nat.add_comm i ((j + 1) * _)]
    rw [hoffset, hids]
  have hlength : grid.cells.length = grid.ni * grid.nj :=
    length_rows grid.ni grid.nj fun j i => (i, j)
  -- the offset of each cell is four times its number
  have hoffsets : grid.cells.map (fun p => (p.1 + p.2 * grid.ni) * 4) =
      (List.range (grid.ni * grid.nj)).map (· * 4) := by
    unfold StructuredGrid.cells
    rw [List.map_flatMap, ← map_range_rows]
    simp only [List.map_map]
    rfl
  have hnodes_eq : ((List.range (grid.nj + 1)).flatMap fun cj =>
      (List.range (grid.ni + 1)).map fun ci => (ci, cj)).map (fun p =>
        (grid.corner_lon (p.1 + p.2 * (grid.ni + 1)),
          grid.corner_lat (p.1 + p.2 * (grid.ni + 1)))) = grid.nodes := by
    unfold StructuredGrid.nodes
    rw [List.map_flatMap]
    simp only [List.map_map]
    rfl
  unfold StructuredGrid.to_unstructured
  dsimp only
  rw [Outcome.mapM_of_returned hfill_node, Outcome.returned_bind, hnodes_eq]
  show (grid.cells.mapM fun p => grid.fill_connectivity p.1 p.2) >>= _ = _
  rw [Outcome.mapM_of_returned hfill, Outcome.returned_bind, List.map_map, List.flatMap_map]
  unfold mesh_of
  rw [hlength, List.range_succ, List.map_append, ← hoffsets]
  rfl

theorem cells_of_to_unstructured {grid : StructuredGrid} {mesh : UnstructuredMesh}
    (h : grid.to_unstructured = .returned mesh) : grid.ni * grid.nj ≤ 2 ^ 29 := by
  by_contra hlarge
  obtain ⟨coords, -, hafter⟩ := Outcome.bind_eq_returned.mp h
  obtain ⟨cells, hcells, -⟩ := Outcome.bind_eq_returned.mp hafter
  have hni : 0 < grid.ni := by
    by_contra hzero
    rw [Nat.eq_zero_of_not_pos hzero, Nat.zero_mul] at hlarge
    omega
  -- the cell with the number 2^29
  have hmem : (2 ^ 29 % grid.ni, 2 ^ 29 / grid.ni) ∈ (List.range grid.nj).flatMap fun j =>
      (List.range grid.ni).map fun i => (i, j) := by
    apply List.mem_flatMap.mpr
    refine ⟨2 ^ 29 / grid.ni, ?_, List.mem_map_of_mem (List.mem_range.mpr (Nat.mod_lt _ hni))⟩
    exact List.mem_range.mpr (Nat.div_lt_of_lt_mul (by omega))
  obtain ⟨cell, -, hfill⟩ := Outcome.exists_of_mapM hcells hmem
  have hidx : 2 ^ 29 % grid.ni + 2 ^ 29 / grid.ni * grid.ni = 2 ^ 29 := by
    rw [Nat.mul_comm]
    exact Nat.mod_add_div _ _
  have hundefined : grid.fill_connectivity (2 ^ 29 % grid.ni) (2 ^ 29 / grid.ni) = .undefined := by
    unfold StructuredGrid.fill_connectivity
    dsimp only
    rw [hidx, show signed 32 (to_int (2 ^ 29 : Nat) * 4) = .undefined by decide]
    rfl
  exact absurd (hundefined.symm.trans hfill) (by simp)

theorem to_unstructured_conforms {grid : StructuredGrid} (hni : 1 ≤ grid.ni) (hnj : 1 ≤ grid.nj)
    (hnodes : (grid.ni + 1) * (grid.nj + 1) < 2 ^ 31) (hcells : 4 * (grid.ni * grid.nj) ≤ 2 ^ 31) :
    ∃ mesh, grid.to_unstructured = .returned mesh ∧ mesh.Conforms (OnSide grid.ni grid.nj) := by
  refine ⟨_, to_unstructured_mesh hnodes hcells, conforms_mesh_of (fun _ => rfl) ?_⟩
  have hids : grid.cells.map (fun p => Axis.quad (grid.ni + 1) p.1 p.2) =
      strips grid.nj (fun _ => grid.ni) (grid_node grid.ni) fun j => grid_node grid.ni (j + 1) := by
    unfold StructuredGrid.cells
    rw [List.map_flatMap]
    simp only [List.map_map]
    rfl
  have hnodes_eq : grid.nodes.length = (grid.ni + 1) * (grid.nj + 1) :=
    length_rows _ _ fun cj ci => (grid.corner_lon (ci + cj * (grid.ni + 1)),
      grid.corner_lat (ci + cj * (grid.ni + 1)))
  rw [hids, hnodes_eq]
  exact grid_conforms hni hnj

/-- Bounds and resolutions that are accepted. -/
structure GridRulesParams.Valid (rules : GridRulesParams) : Prop where
  x : rules.min_x < rules.max_x
  y : rules.min_y < rules.max_y
  r_x : 0 < rules.r_x
  r_y : 0 < rules.r_y

theorem regular_latlon_conforms {fl : Rounding} {to_string : ℚ → String} {rules : GridRulesParams}
    (hvalid : rules.Valid) (hni : 1 ≤ ni) (hnj : 1 ≤ nj)
    (hni_eq : cells_between fl rules.min_x rules.max_x rules.r_x = ni)
    (hnj_eq : cells_between fl rules.min_y rules.max_y rules.r_y = nj)
    (hnodes : (ni + 1) * (nj + 1) < 2 ^ 31) :
    ∃ mesh, generate_regular_latlon fl to_string rules = .returned mesh ∧
      mesh.Conforms (OnSide ni nj) := by
  have hbbox : validate_bbox to_string rules = .returned () := by
    unfold validate_bbox
    rw [if_neg (not_le.mpr hvalid.x), if_neg (not_le.mpr hvalid.y)]
  have hresolution : validate_resolution to_string rules = .returned () := by
    unfold validate_resolution
    rw [if_neg (not_le.mpr hvalid.r_x), if_neg (not_le.mpr hvalid.r_y)]
  have hsize : ((ni : Int) + 1) * (nj + 1) < 2 ^ 31 := by exact_mod_cast hnodes
  refine ⟨quad_mesh ni nj (fun i => fl.round (rules.min_x + fl.round (fl.round i * rules.r_x)))
    (fun j => fl.round (rules.min_y + fl.round (fl.round j * rules.r_y))), ?_,
    quad_mesh_conforms hni hnj _ _⟩
  unfold generate_regular_latlon
  rw [hbbox, Outcome.returned_bind, hresolution, Outcome.returned_bind]
  dsimp only
  rw [hni_eq, hnj_eq, if_neg (by omega), if_neg (by omega), Int.toNat_natCast, Int.toNat_natCast]

theorem length_circles {fl : Rounding} (m : Nat) (n : Nat → Nat) (lat : Nat → ℚ) :
    ((List.range m).flatMap fun j => circle_coords fl (lat j) (n j)).length = row_start n m := by
  rw [List.length_flatMap]
  unfold row_start circle_coords
  simp only [List.length_map, List.length_range]

theorem rings_mesh_conforms {n : Nat → Nat} {m : Nat} (hm : 0 < m) (hthree : ∀ j ≤ m, 3 ≤ n j)
    {coords : List (ℚ × ℚ)} (hcoords : coords.length = row_start n (m + 1)) {n_cells : Nat}
    (hn_cells : n_cells = ((List.range m).map (n_cells_ring n)).sum) {indices : List Nat}
    (hindices : indices = (List.range m).flatMap fun j => (List.range (n_cells_ring n j)).flatMap
      fun c => PolygonMesh.quad (above n j) (below n j) c) :
    UnstructuredMesh.Conforms ⟨coords, (List.range (n_cells + 1)).map (· * 4), indices⟩
      (OnEndCircle n m) := by
  obtain ⟨cells, hcells⟩ : ∃ cells, cells = (List.range m).flatMap fun j =>
      (List.range (n_cells_ring n j)).map fun c => (j, c) := ⟨_, rfl⟩
  have hlength : cells.length = n_cells := by
    rw [hcells, List.length_flatMap, hn_cells]
    simp only [List.length_map, List.length_range]
  have hids : cells.flatMap (fun p => PolygonMesh.quad (above n p.1) (below n p.1) p.2) = indices := by
    rw [hcells, hindices]
    exact flatMap_rows m (n_cells_ring n) (fun j c => (j, c)) _
  have hquads : cells.map (fun p => PolygonMesh.quad (above n p.1) (below n p.1) p.2) =
      strips m (n_cells_ring n) (above n) (below n) := by
    rw [hcells, List.map_flatMap]
    simp only [List.map_map]
    rfl
  rw [← hids, ← hlength]
  apply conforms_mesh_of fun _ => rfl
  rw [hquads, hcoords]
  exact rings_conform hm hthree

theorem regular_gaussian_conforms {fl : Rounding} {gauss_lats : Nat → List ℚ} {N : Nat}
    (hN : 1 ≤ N) : (generate_regular_gaussian fl gauss_lats N).Conforms
      (OnEndCircle (fun _ => 4 * N) (2 * N - 1)) := by
  have hrow : ∀ j, row_start (fun _ => 4 * N) j = j * (4 * N) := by
    intro j
    unfold row_start
    rw [List.map_const', List.length_range, List.sum_replicate, smul_eq_mul]
  have hring : ∀ j, n_cells_ring (fun _ => 4 * N) j = 4 * N := fun _ => max_self _
  apply rings_mesh_conforms (by omega) fun _ _ => by omega
  · rw [Nat.sub_add_cancel (by omega)]
    exact length_circles (2 * N) (fun _ => 4 * N) _
  · rw [show n_cells_ring (fun _ => 4 * N) = fun _ => 4 * N from funext hring, List.map_const',
      List.length_range, List.sum_replicate, smul_eq_mul]
  · congr 1
    funext j
    rw [hring]
    apply List.flatMap_congr
    intro i hi
    rw [List.mem_range] at hi
    have hself : ∀ c, proportional (4 * N) (4 * N) c = c := proportional_same (by omega)
    unfold PolygonMesh.quad above below circle_node
    rw [hring, hself, hself, hrow, hrow, Nat.mod_eq_of_lt hi]

theorem octahedral_gaussian_conforms {fl : Rounding} {gauss_lats : Nat → List ℚ} {N : Nat}
    (hN : 1 ≤ N) : (generate_octahedral_gaussian fl gauss_lats N).Conforms
      (OnEndCircle (nlon_of N) (2 * N - 1)) := by
  apply rings_mesh_conforms (by omega)
  · intro j _
    unfold nlon_of
    omega
  · rw [Nat.sub_add_cancel (by omega)]
    exact length_circles (2 * N) (nlon_of N) _
  · rfl
  · simp only [ring_index_eq]
    rfl

end

end Axis

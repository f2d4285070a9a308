import Helm.Framework.Segments
import Helm.Axis.GridDetector

/-! # AXIS: generated grids

  `generate_gaussian_regular` builds a grid of quads whose rows run from the
  north pole to the south pole. The latitudes of the rows come from a Newton
  iteration over Legendre polynomials; they are a parameter here, since
  nothing below depends on their values.

  Main result: `gaussian_regular_not_numbered`. Whatever the latitudes are, a
  detected Gaussian grid is numbered the wrong way round.
-/

namespace Axis

open Signed Segments

/-! ## Section 1: Grids of quads -/

/-- The nodes of the quad at column `i` and row `j`. -/
def quad (stride i j : Nat) : List Nat :=
  [j * stride + i, j * stride + (i + 1), (j + 1) * stride + (i + 1), (j + 1) * stride + i]

/-- The mesh of `n_x * n_y` quads, row after row, over node coordinates that
    depend on the column and on the row. -/
def quad_mesh (n_x n_y : Nat) (x y : Nat → ℚ) : UnstructuredMesh where
  node_coords := (List.range ((n_x + 1) * (n_y + 1))).map fun idx =>
    (x (idx % (n_x + 1)), y (idx / (n_x + 1)))
  conn_offsets := (List.range (n_x * n_y + 1)).map (4 * ·)
  conn_indices := (List.range (n_x * n_y)).flatMap fun c => quad (n_x + 1) (c % n_x) (c / n_x)

/-- The boundaries between the rows: the poles, and midpoints between latitudes. -/
def lat_bound (fl : Rounding) (gauss_lats : List ℚ) (n_lat j : Nat) : ℚ :=
  if j = n_lat then -90
  else if j = 0 then 90
  else fl.round (1 / 2 * fl.round (gauss_lats.getD (j - 1) 0 + gauss_lats.getD j 0))

/-- `gauss_lats` stands for `compute_gaussian_latitudes`. -/
def generate_gaussian_regular (fl : Rounding) (gauss_lats : Int → List ℚ) (gaussian_n : Int) :
    Outcome String UnstructuredMesh :=
  if gaussian_n ≤ 0 then
    .thrown ("RuleGenerator: gaussian_n must be positive for Gaussian kinds, got " ++
      toString gaussian_n)
  else
    let N := to_int gaussian_n
    -- `2 * N` and `4 * N` are computed as `int`s
    if ¬ Fits 32 (4 * N) then .undefined
    -- a vector of negative size
    else if N < 0 then .thrown "length_error"
    else
      let n_lat := (2 * N).toNat
      let n_lon := (4 * N).toNat
      let dlon := fl.round (360 / fl.round n_lon)
      .returned (quad_mesh n_lon n_lat (fun i => fl.round (fl.round i * dlon))
        (lat_bound fl (gauss_lats N) n_lat))

/-! ## Section 2: The cells of a grid -/

section
variable {n_x n_y : Nat} {x y : Nat → ℚ}

theorem n_cells_quad_mesh : (quad_mesh n_x n_y x y).n_cells = n_x * n_y := by
  simp [UnstructuredMesh.n_cells, quad_mesh]

theorem node_quad_mesh {i j : Nat} (hi : i ≤ n_x) (hj : j ≤ n_y) :
    (quad_mesh n_x n_y x y).node_coords[j * (n_x + 1) + i]? = some (x i, y j) := by
  have hidx : j * (n_x + 1) + i < (n_x + 1) * (n_y + 1) := by
    calc j * (n_x + 1) + i < j * (n_x + 1) + (n_x + 1) := by omega
      _ = (n_x + 1) * (j + 1) := by ring
      _ ≤ (n_x + 1) * (n_y + 1) := Nat.mul_le_mul_left _ (by omega)
  have hmod : (j * (n_x + 1) + i) % (n_x + 1) = i := by
    rw [Nat.mul_add_mod_self_right, Nat.mod_eq_of_lt (by omega)]
  have hdiv : (j * (n_x + 1) + i) / (n_x + 1) = j := by
    rw [Nat.mul_comm, Nat.mul_add_div (by omega), Nat.div_eq_of_lt (by omega), Nat.add_zero]
  show ((List.range _).map _)[_]? = _
  rw [List.getElem?_map, List.getElem?_range hidx, Option.map_some, hmod, hdiv]

theorem take_drop_flatMap {α β : Type} {f : α → List β} (hf : ∀ a, (f a).length = 4) {l : List α}
    {c : Nat} (hc : c < l.length) : ((l.flatMap f).drop (4 * c)).take 4 = f l[c] := by
  induction l generalizing c with
  | nil => simp at hc
  | cons a l ih =>
    rw [List.flatMap_cons]
    match c with
    | 0 => exact List.take_left' (hf a)
    | c + 1 =>
      have hskip : (f a ++ l.flatMap f).drop (4 * (c + 1)) = (l.flatMap f).drop (4 * c) := by
        rw [Nat.mul_succ, Nat.add_comm, ← List.drop_drop, List.drop_left' (hf a)]
      rw [hskip]
      exact ih (Nat.lt_of_succ_lt_succ hc)

theorem cell_nodes_quad_mesh {i j : Nat} (hi : i < n_x) (hj : j < n_y) :
    (quad_mesh n_x n_y x y).cell_nodes (j * n_x + i) =
      [(x i, y j), (x (i + 1), y j), (x (i + 1), y (j + 1)), (x i, y (j + 1))] := by
  have hc : j * n_x + i < n_x * n_y := by
    calc j * n_x + i < j * n_x + n_x := by omega
      _ = n_x * (j + 1) := by rw [Nat.mul_succ, Nat.mul_comm]
      _ ≤ n_x * n_y := Nat.mul_le_mul_left _ hj
  have hmod : (j * n_x + i) % n_x = i := by
    rw [Nat.mul_add_mod_self_right, Nat.mod_eq_of_lt hi]
  have hdiv : (j * n_x + i) / n_x = j := by
    rw [Nat.mul_comm, Nat.mul_add_div (by omega), Nat.div_eq_of_lt hi, Nat.add_zero]
  have hstart : (quad_mesh n_x n_y x y).conn_offsets[j * n_x + i]? =
      some (4 * (j * n_x + i)) := by
    show ((List.range _).map _)[_]? = _
    rw [List.getElem?_map, List.getElem?_range (by omega), Option.map_some]
  have hstop : (quad_mesh n_x n_y x y).conn_offsets[j * n_x + i + 1]? =
      some (4 * (j * n_x + i + 1)) := by
    show ((List.range _).map _)[_]? = _
    rw [List.getElem?_map, List.getElem?_range (by omega), Option.map_some]
  have hblock : ((quad_mesh n_x n_y x y).conn_indices.drop (4 * (j * n_x + i))).take 4 =
      quad (n_x + 1) i j := by
    have hquad := @take_drop_flatMap _ _ (fun c => quad (n_x + 1) (c % n_x) (c / n_x))
      (fun _ => rfl) (List.range (n_x * n_y)) (j * n_x + i) (by rwa [List.length_range])
    rwa [List.getElem_range, hmod, hdiv] at hquad
  have hsize : 4 * (j * n_x + i + 1) - 4 * (j * n_x + i) = 4 := by omega
  unfold UnstructuredMesh.cell_nodes
  rw [hstart, hstop]
  dsimp only
  rw [hsize, hblock]
  simp only [quad, List.filterMap_cons, List.filterMap_nil,
    node_quad_mesh (show i ≤ n_x by omega) (show j ≤ n_y by omega),
    node_quad_mesh (show i + 1 ≤ n_x by omega) (show j ≤ n_y by omega),
    node_quad_mesh (show i + 1 ≤ n_x by omega) (show j + 1 ≤ n_y by omega),
    node_quad_mesh (show i ≤ n_x by omega) (show j + 1 ≤ n_y by omega)]

theorem length_distinct_le {fl : Rounding} {n : Nat} {g : Nat → ℚ} {values : List ℚ}
    (h : ∀ v ∈ values, ∃ i < n, v = g i) : (distinct fl values).length ≤ n := by
  have hnodup : (distinct fl values).Nodup := (distinct_sorted fl values).imp fun hlt => hlt.ne
  have hsub : distinct fl values ⊆ (List.range n).map g := by
    intro v hv
    obtain ⟨i, hi, rfl⟩ := h v (mem_of_mem_distinct hv)
    exact List.mem_map_of_mem (List.mem_range.mpr hi)
  have hle := (hnodup.subperm hsub).length_le
  rwa [List.length_map, List.length_range] at hle

theorem detected_quad_mesh {fl : Rounding} {lons lats : List ℚ}
    (h : grid_coordinates fl (quad_mesh n_x n_y x y) = some (lons, lats)) :
    lons.length - 1 = n_x ∧ lats.length - 1 = n_y := by
  obtain ⟨hlons, hlats, hni, hnj, hcells⟩ := grid_coordinates_eq_some h
  have hnode : ∀ p ∈ (quad_mesh n_x n_y x y).node_coords,
      (∃ i < n_x + 1, p.1 = x i) ∧ ∃ j < n_y + 1, p.2 = y j := by
    intro p hp
    obtain ⟨idx, hidx, rfl⟩ := List.mem_map.mp hp
    exact ⟨⟨_, Nat.mod_lt _ (by omega), rfl⟩,
      ⟨_, Nat.div_lt_of_lt_mul (List.mem_range.mp hidx), rfl⟩⟩
  have hlon : lons.length ≤ n_x + 1 := by
    rw [hlons]
    apply length_distinct_le (g := x)
    intro v hv
    obtain ⟨p, hp, rfl⟩ := List.mem_map.mp hv
    exact (hnode p hp).1
  have hlat : lats.length ≤ n_y + 1 := by
    rw [hlats]
    apply length_distinct_le (g := y)
    intro v hv
    obtain ⟨p, hp, rfl⟩ := List.mem_map.mp hv
    exact (hnode p hp).2
  rw [n_cells_quad_mesh] at hcells
  have hle := Nat.mod_le ((lons.length - 1) * (lats.length - 1)) (2 ^ 64)
  have hx : n_x ≤ lons.length - 1 := by
    by_contra hlt
    have hstrict : (lons.length - 1) * (lats.length - 1) < n_x * n_y :=
      Nat.mul_lt_mul_of_lt_of_le (by omega) (by omega) (by omega)
    omega
  have hy : n_y ≤ lats.length - 1 := by
    by_contra hlt
    have hstrict : (lons.length - 1) * (lats.length - 1) < n_x * n_y :=
      Nat.mul_lt_mul_of_le_of_lt (by omega) (by omega) (by omega)
    omega
  omega

end

/-! ## Section 3: Rows from north to south -/

theorem position_mono {coords : List ℚ} {a b : ℚ} (h : a ≤ b) :
    position coords a ≤ position coords b := by
  unfold position
  have hle : coords.countP (· ≤ a) ≤ coords.countP (· ≤ b) := by
    apply List.countP_mono_left
    intro v _ hv
    simp only [decide_eq_true_eq] at hv ⊢
    exact hv.trans h
  omega

theorem rows_of_rectangle {a b r r' i j : Nat}
    (h : IsRectangle [(a, r), (b, r), (b, r'), (a, r')] i j) :
    (r = j ∧ r' = j + 1) ∨ (r = j + 1 ∧ r' = j) := by
  have hsouth := (h.mem_iff (i, j)).mpr ⟨.inl rfl, .inl rfl⟩
  have hnorth := (h.mem_iff (i, j + 1)).mpr ⟨.inl rfl, .inr rfl⟩
  simp only [List.mem_cons, Prod.mk.injEq, List.not_mem_nil, or_false] at hsouth hnorth
  omega

theorem quad_mesh_not_numbered {fl : Rounding} {n_x n_y : Nat} {x y : Nat → ℚ} {lons lats : List ℚ}
    (h : grid_coordinates fl (quad_mesh n_x n_y x y) = some (lons, lats)) (hrows : 2 ≤ n_y)
    (hflip : y n_y ≤ y 0) :
    ¬ CellsNumbered (quad_mesh n_x n_y x y) lons lats (lons.length - 1) (lats.length - 1) := by
  intro hnumbered
  obtain ⟨hx, hy⟩ := detected_quad_mesh h
  obtain ⟨-, -, hni, -, -⟩ := grid_coordinates_eq_some h
  rw [hx, hy] at hnumbered
  -- the sides of the first quad of a row, as rows of the grid
  have hside : ∀ j < n_y, (position lats (y j) = j ∧ position lats (y (j + 1)) = j + 1) ∨
      (position lats (y j) = j + 1 ∧ position lats (y (j + 1)) = j) := by
    intro j hj
    have hrect := hnumbered 0 j (by omega) hj
    rw [corners, cell_nodes_quad_mesh (by omega) hj] at hrect
    exact rows_of_rectangle hrect
  have hle : position lats (y n_y) ≤ position lats (y 0) := position_mono hflip
  have hfirst := hside 0 (by omega)
  have hsecond := hside 1 (by omega)
  have hlast := hside (n_y - 1) (by omega)
  rw [Nat.sub_add_cancel (by omega)] at hlast
  simp only [Nat.zero_add, Nat.reduceAdd] at hfirst hsecond
  by_cases htwo : n_y = 2
  · -- the middle boundary would be both the lower and the upper one
    subst htwo
    omega
  · omega

theorem generate_gaussian_regular_eq {fl : Rounding} {gauss_lats : Int → List ℚ} {gaussian_n : Int}
    {mesh : UnstructuredMesh}
    (h : generate_gaussian_regular fl gauss_lats gaussian_n = .returned mesh) :
    ∃ N : Nat, ∃ x, mesh = quad_mesh (4 * N) (2 * N) x (lat_bound fl (gauss_lats N) (2 * N)) := by
  unfold generate_gaussian_regular at h
  split at h
  · cases h
  dsimp only at h
  split at h
  · cases h
  split at h
  · cases h
  next hneg =>
  obtain ⟨N, hN⟩ := Int.eq_ofNat_of_zero_le (not_lt.mp hneg)
  have hlat : (2 * (N : Int)).toNat = 2 * N := by omega
  have hlon : (4 * (N : Int)).toNat = 4 * N := by omega
  rw [hN, hlat, hlon] at h
  cases h
  exact ⟨N, _, rfl⟩

theorem gaussian_regular_not_numbered {fl : Rounding} {gauss_lats : Int → List ℚ} {gaussian_n : Int}
    {mesh : UnstructuredMesh} {lons lats : List ℚ}
    (hmesh : generate_gaussian_regular fl gauss_lats gaussian_n = .returned mesh)
    (h : grid_coordinates fl mesh = some (lons, lats)) :
    ¬ CellsNumbered mesh lons lats (lons.length - 1) (lats.length - 1) := by
  obtain ⟨N, x, rfl⟩ := generate_gaussian_regular_eq hmesh
  obtain ⟨-, hy⟩ := detected_quad_mesh h
  obtain ⟨-, -, -, hnj, -⟩ := grid_coordinates_eq_some h
  apply quad_mesh_not_numbered h (by omega)
  have hsouth : lat_bound fl (gauss_lats N) (2 * N) (2 * N) = -90 := by simp [lat_bound]
  have hnorth : lat_bound fl (gauss_lats N) (2 * N) 0 = 90 := by
    unfold lat_bound
    rw [if_neg (by omega), if_pos rfl]
  rw [hsouth, hnorth]
  norm_num

/-- The grid with `gaussian_n = 1` in exact arithmetic. Its two latitudes are
    opposite, so that the boundary between the rows is 0. -/
def smallest_gaussian : UnstructuredMesh :=
  quad_mesh 4 2 (fun i => i * 90) (lat_bound .exact [35, -35] 2)

theorem smallest_gaussian_generated :
    generate_gaussian_regular .exact (fun _ => [35, -35]) 1 = .returned smallest_gaussian := by
  decide +kernel

theorem smallest_gaussian_detected :
    (detect_regular_grid .exact smallest_gaussian).is_regular = true := by
  decide +kernel

theorem gaussian_cells_misnumbered :
    ¬ ∀ (fl : Rounding) (mesh : UnstructuredMesh),
      (detect_rectilinear_grid fl mesh).is_rectilinear = true ∨
        (detect_regular_grid fl mesh).is_regular = true →
      let info := detect_rectilinear_grid fl mesh
      CellsNumbered mesh info.unique_lons info.unique_lats info.ni info.nj := by
  intro h
  have hnumbered := h .exact smallest_gaussian (.inr smallest_gaussian_detected)
  obtain ⟨lons, lats, hcoords⟩ := grid_coordinates_of_detected (.inr smallest_gaussian_detected)
  have hinfo : detect_rectilinear_grid .exact smallest_gaussian =
      ⟨true, lons.length - 1, lats.length - 1, lons, lats⟩ := by
    unfold detect_rectilinear_grid
    rw [hcoords]
  simp only [hinfo] at hnumbered
  exact gaussian_regular_not_numbered smallest_gaussian_generated hcoords hnumbered

end Axis

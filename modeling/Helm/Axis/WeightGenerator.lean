import Helm.Axis.CoastalMask
import Helm.Axis.Conservative2ndOrder
import Helm.Framework.Decimal

/-! # AXIS: the weight generator

  `WeightGenerator::generate` checks that two meshes fit together, makes the
  weights by the method that it is asked for, and gives them to the
  post-processing of masked cells. A method has a path for any meshes and may
  have faster ones for grids. A fast path can decline, and the next is tried.

  Arithmetic is exact. The functions of `libm` and the dense solver are
  arguments; so is what the search trees, the clippers and the detection of
  degenerate cells find for the two meshes. The entries of a parallel loop
  are in the order of the cells. Index arithmetic that leaves an array, or
  does not fit its type, is undefined.
-/

namespace Axis.WeightGenerator

open Signed Segments ArrayLoops SecondOrder GradientReconstructor

/-! ## Section 1: Inputs -/

inductive InterpolationMethod where
  | Bilinear
  | NearestNeighbor
  | Bicubic
  | Patch
  | Conservative1stOrder
  | Conservative2ndOrder
  deriving DecidableEq

structure RegridConfig extends SecondOrder.RegridConfig where
  method : InterpolationMethod
  extrap_method : ExtrapolationAction

/-- A mesh with the areas and the mask of its cells, where it has these. -/
structure Mesh extends SourceMesh ℚ where
  cell_areas : Option (Fin n_cells → ℚ)
  cell_mask : Option (Fin n_cells → Int)

namespace Mesh

variable (mesh : Mesh)

/-- The arrays that the grid detection reads. -/
def unstructured : UnstructuredMesh where
  node_coords := (List.finRange mesh.n_nodes).map fun ni => ((mesh.coords ni).x, (mesh.coords ni).y)
  conn_offsets := ((List.finRange mesh.n_cells).map fun c => (mesh.cells c).length).scanl (· + ·) 0
  conn_indices := (List.finRange mesh.n_cells).flatMap fun c => (mesh.cells c).map (·.val)

def mask_view : MaskView :=
  match mesh.cell_mask with
  | none => ⟨0, Fin.elim0⟩
  | some mask => ⟨mesh.n_cells, mask⟩

/-- The mask of a cell is there and is 0. -/
def is_masked (c : Fin mesh.n_cells) : Bool :=
  match mesh.cell_mask with
  | none => false
  | some mask => mask c = 0

def is_spherical : Bool := mesh.csys = .SphericalDeg ∨ mesh.csys = .SphericalRad

/-- The arithmetic mean of the vertices of a cell; that of none is no number. -/
def mean (c : Fin mesh.n_cells) : Option Point2 :=
  let verts := (mesh.cells c).map mesh.coords
  if verts = [] then none
  else some ((verts.map (·.x)).sum / verts.length, (verts.map (·.y)).sum / verts.length)

def detect_regular_grid : RegularGridInfo :=
  Axis.detect_regular_grid Rounding.exact mesh.unstructured

def detect_rectilinear_grid : RectilinearGridInfo :=
  Axis.detect_rectilinear_grid Rounding.exact mesh.unstructured

end Mesh

/-- What the code calls of `libm`, and `dense_solve`. -/
structure Env where
  sin : ℚ → ℚ
  cos : ℚ → ℚ
  sqrt : ℚ → ℚ
  dense_solve {n : Nat} (A : Fin n → Fin n → ℚ) (b : Fin n → ℚ) : Option (Fin n → ℚ)

/-- What is found out about two meshes: in three dimensions for lines that are
    great circles, and else in the plane. -/
structure Geometry (n_src n_dst : Nat) where
  src_centroid : Fin n_src → Point2
  dst_centroid : Fin n_dst → Point2
  /-- The areas of cells that the meshes do not have. -/
  src_areas : LineType → Fin n_src → ℚ
  dst_areas : LineType → Fin n_dst → ℚ
  src_degenerate : Fin n_src → Bool
  dst_degenerate : Fin n_dst → Bool
  sorted_dst : Schedule n_dst
  /-- The source cells nearest to a destination cell, so many at most. -/
  nearest : LineType → Nat → Fin n_dst → List (Fin n_src)
  /-- The source cells whose boxes touch that of a destination cell. -/
  intersects : LineType → Fin n_dst → List (Fin n_src)
  overlap_area : LineType → Fin n_dst → Fin n_src → ℚ
  spherical_cap_rejects : Fin n_src → Fin n_dst → Bool
  clip : Fin n_dst → Fin n_src → SphericalPolygon ℚ
  compute_polygon_overlap_area : Fin n_dst → Fin n_src → ℚ

/-- The two meshes. -/
structure Meshes where
  src : Mesh
  dst : Mesh
  geometry : Geometry src.n_cells dst.n_cells

namespace Meshes

variable (p : Meshes)

/-- The entries of the matrix under construction. -/
abbrev Entry (p : Meshes) := Axis.Entry ℚ p.src.n_cells p.dst.n_cells

abbrev Matrix (p : Meshes) := WeightMatrix ℚ p.src.n_cells p.dst.n_cells

/-- `get_cell_areas` and `get_cell_areas_spherical` -/
def src_areas (line_type : LineType) (i : Fin p.src.n_cells) : ℚ :=
  match p.src.cell_areas with
  | some areas => areas i
  | none => p.geometry.src_areas line_type i

def dst_areas (line_type : LineType) (j : Fin p.dst.n_cells) : ℚ :=
  match p.dst.cell_areas with
  | some areas => areas j
  | none => p.geometry.dst_areas line_type j

/-- An index into an array of `n` elements. -/
def element (n : Nat) (idx : Int) : Outcome String (Fin n) :=
  if h : 0 ≤ idx ∧ idx.toNat < n then .returned ⟨idx.toNat, h.2⟩ else .undefined

/-- `std::round` -/
def std_round (x : ℚ) : Int := if x < 0 then -⌊-x + 1 / 2⌋ else ⌊x + 1 / 2⌋

/-! ## Section 2: Nearest neighbours -/

section
variable (config : RegridConfig)

/-- The nearest source cell on two regular grids. The code also computes a
    `relative_lon`, which it does not use. -/
def nearest_rect_entry (src_reg dst_reg : RegularGridInfo) (j : Fin p.dst.n_cells) :
    Outcome String p.Entry := do
  let d_i := j.val % dst_reg.ni
  let d_j := j.val / dst_reg.ni
  let lon := dst_reg.lon_min + d_i * dst_reg.delta_lon
  let lat := dst_reg.lat_min + d_j * dst_reg.delta_lat
  let s_i ← signed 64 (std_round ((lon - src_reg.lon_min) / src_reg.delta_lon))
  -- wrapped in longitude, clamped in latitude
  let s_i := s_i.tmod src_reg.ni
  let s_i := if s_i < 0 then s_i + src_reg.ni else s_i
  let s_j ← signed 64 (std_round ((lat - src_reg.lat_min) / src_reg.delta_lat))
  let s_j := max s_j 0
  let s_j := if s_j ≥ (src_reg.nj : Int) then (src_reg.nj : Int) - 1 else s_j
  let i ← element p.src.n_cells (s_j * src_reg.ni + s_i)
  return ⟨j, i, 1⟩

/-- The fractions and areas are left as they are allocated. -/
def generate_nearest_rect (src_reg dst_reg : RegularGridInfo) : Outcome String p.Matrix := do
  let entries ← (List.finRange p.dst.n_cells).mapM (p.nearest_rect_entry src_reg dst_reg)
  return ⟨entries, fun _ => 0, fun _ => 0, fun _ => 0, fun _ => 0⟩

def unmapped_error (where_ : String) (j : Fin p.dst.n_cells) : String :=
  "WeightGenerator::" ++ where_ ++ ": unmapped destination cell " ++ toString j.val

/-- A destination cell that finds no source cell at all. -/
def unmapped (where_ : String) (j : Fin p.dst.n_cells) : Outcome String (List p.Entry) :=
  if config.unmapped = .Error then .thrown (p.unmapped_error where_ j) else .returned []

def nearest_row (line_type : LineType) (j : Fin p.dst.n_cells) : Outcome String (List p.Entry) :=
  match p.geometry.nearest line_type 1 j with
  | [] => p.unmapped config "generate_nearest" j
  | i :: _ => .returned [⟨j, i, 1⟩]

def generate_nearest_impl (line_type : LineType) : Outcome String p.Matrix := do
  let rows ← (List.finRange p.dst.n_cells).mapM (p.nearest_row config line_type)
  return ⟨rows.flatten, fun _ => 1, fun _ => 1, p.src_areas .Cartesian, p.dst_areas .Cartesian⟩

def generate_nearest : Outcome String p.Matrix :=
  let src_reg := p.src.detect_regular_grid
  let dst_reg := p.dst.detect_regular_grid
  if src_reg.is_regular ∧ dst_reg.is_regular then p.generate_nearest_rect src_reg dst_reg
  else if p.src.is_spherical then p.generate_nearest_impl config .GreatCircle
  else p.generate_nearest_impl config .Cartesian

end

/-! ## Section 3: Bilinear weights on grids -/

structure BilinearRectKernel where
  lon_min : ℚ
  lat_min : ℚ
  delta_lon : ℚ
  delta_lat : ℚ
  ni : Nat
  nj : Nat
  is_periodic : Bool

/-- The first of two neighbours among `n`, clamped. -/
def clamp_index (n : Nat) (i : Int) : Outcome String Int := do
  let i := max i 0
  let last ← signed 32 (to_int n - 1)
  if i ≥ last then
    let i ← signed 32 (to_int n - 2)
    -- for a single cell
    return max i 0
  else return i

def clamp_unit (t : ℚ) : ℚ := max 0 (min 1 t)

/-- The four cells around a point, with the weights of a square. -/
def stencil (ni : Nat) (i i1 j j1 : Int) (tx ty : ℚ) : List (Int × ℚ) :=
  [(j * ni + i, (1 - tx) * (1 - ty)), (j * ni + i1, tx * (1 - ty)),
    (j1 * ni + i, (1 - tx) * ty), (j1 * ni + i1, tx * ty)]

namespace BilinearRectKernel

variable (kernel : BilinearRectKernel)

/-- The longitude of a periodic grid in its first turn. -/
def normalize (lon_d : ℚ) : ℚ :=
  if kernel.is_periodic then
    let offset := lon_d - kernel.lon_min
    kernel.lon_min + (offset - ⌊offset / 360⌋ * 360)
  else lon_d

def fi (lon_d : ℚ) : ℚ := (kernel.normalize lon_d - kernel.lon_min) / kernel.delta_lon - 1 / 2

def fj (lat_d : ℚ) : ℚ := (lat_d - kernel.lat_min) / kernel.delta_lat - 1 / 2

/-- A coordinate is within `n` cells, with a tolerance. -/
def in_bounds (n : Nat) (f : ℚ) : Bool :=
  let bound_tol : ℚ := 1 / 10 ^ 9
  !(f < -(1 / 2) - bound_tol) && !(f > n - 1 / 2 + bound_tol)

/-- The column before a point: wrapped when the grid is periodic. -/
def lon_index (i : Int) : Outcome String Int := do
  if kernel.is_periodic then
    let wrapped ← int_mod i (to_int kernel.ni)
    let shifted ← signed 32 (wrapped + to_int kernel.ni)
    int_mod shifted (to_int kernel.ni)
  else clamp_index kernel.ni i

/-- The cells and their weights, for a point that can be mapped. -/
def compute_weights (point : Point2) : Outcome String (Option (List (Int × ℚ))) := do
  let fi := kernel.fi point.1
  let fj := kernel.fj point.2
  if (!kernel.is_periodic && !in_bounds kernel.ni fi) || !in_bounds kernel.nj fj then return none
  else
    let i ← signed 32 ⌊fi⌋
    let j ← signed 32 ⌊fj⌋
    let j ← clamp_index kernel.nj j
    let i ← kernel.lon_index i
    let n := to_int kernel.ni
    let tx := clamp_unit (fi - i)
    let ty := clamp_unit (fj - j)
    -- `i1 >= static_cast<int>(ni)` only at the end of a row
    let i1 := if i + 1 ≥ n then (if kernel.is_periodic then 0 else n - 1) else i + 1
    let j1 := if j + 1 ≥ to_int kernel.nj then to_int kernel.nj - 1 else j + 1
    return some (stencil kernel.ni i i1 j j1 tx ty)

end BilinearRectKernel

section
variable (config : RegridConfig)

def stencil_entries (j : Fin p.dst.n_cells) (cells : List (Int × ℚ)) :
    Outcome String (List p.Entry) :=
  cells.mapM fun cell => do
    let i ← element p.src.n_cells cell.1
    return ⟨j, i, cell.2⟩

def bilinear_kernel (info : RegularGridInfo) : BilinearRectKernel where
  lon_min := info.lon_min
  lat_min := info.lat_min
  delta_lon := info.delta_lon
  delta_lat := info.delta_lat
  ni := info.ni
  nj := info.nj
  is_periodic := |info.lon_max - info.lon_min - 360| < 1 / 10 ^ 10 * info.delta_lon

def bilinear_rect_row (info : RegularGridInfo) (c : Fin p.dst.n_cells) :
    Outcome String (List p.Entry) := do
  match p.dst.mean c with
  -- no floor of what is no number fits
  | none => .undefined
  | some point =>
    match ← (bilinear_kernel info).compute_weights point with
    | none =>
      if config.unmapped = .Error then
        .thrown ("Unmapped destination cell " ++ toString c.val ++
          " in bilinear regular-grid fast-path")
      else return []
    | some cells => p.stencil_entries c cells

/-- Nothing is returned for a grid without cells. -/
def generate_bilinear_rect (info : RegularGridInfo) : Outcome String (Option p.Matrix) := do
  if info.ni = 0 ∨ info.nj = 0 then return none
  else
    let rows ← (List.finRange p.dst.n_cells).mapM (p.bilinear_rect_row config info)
    let entries := rows.flatten
    return some ⟨entries, fun _ => 1, fun j => if entries.any (·.row = j) then 1 else 0,
      fun _ => 0, fun _ => 0⟩

end

/-- `0.5 * (coords(k) + coords(k + 1))` -/
def centers (coords : List ℚ) : List ℚ := coords.zipWith (fun a b => 1 / 2 * (a + b)) coords.tail

/-- The place of a coordinate among the centers: the center before it and the
    part of the way to the next. A coordinate that is no number is behind all. -/
def locate (centers : List ℚ) (x : Option ℚ) : Outcome String (Int × ℚ) := do
  let upper := match x with
    | none => centers.length
    | some x => centers.findIdx (x < ·)
  let start ← signed 32 (to_int upper - 1)
  let i ← clamp_index centers.length start
  match centers[i.toNat]?, centers[i.toNat + 1]? with
  | some x0, some x1 =>
    match x with
    | none => return (i, 1)
    | some x => return (i, clamp_unit ((x - x0) / (x1 - x0)))
  | _, _ => .undefined

def bilinear_nonuniform_row (info : RectilinearGridInfo) (c : Fin p.dst.n_cells) :
    Outcome String (List p.Entry) := do
  let point := p.dst.mean c
  let (i, tx) ← locate (centers info.unique_lons) (point.map (·.1))
  let (j, ty) ← locate (centers info.unique_lats) (point.map (·.2))
  p.stencil_entries c (stencil info.ni i (i + 1) j (j + 1) tx ty)

def generate_bilinear_rect_nonuniform (info : RectilinearGridInfo) : Outcome String p.Matrix := do
  let rows ← (List.finRange p.dst.n_cells).mapM (p.bilinear_nonuniform_row info)
  return ⟨rows.flatten, fun _ => 1, fun _ => 1, fun _ => 0, fun _ => 0⟩

/-! ## Section 4: Weights from the nearest cells -/

/-- The literal of the code. -/
def pi : ℚ := 3.14159265358979323846

section
variable (env : Env)

def project_gnomonic (lon0 lat0 lon lat : ℚ) : Point2 :=
  let cos_c := env.sin lat0 * env.sin lat + env.cos lat0 * env.cos lat * env.cos (lon - lon0)
  let cos_c := if cos_c ≤ 0 then 1 / 10 ^ 15 else cos_c
  (env.cos lat * env.sin (lon - lon0) / cos_c,
    (env.sin lat * env.cos lat0 - env.cos lat * env.sin lat0 * env.cos (lon - lon0)) / cos_c)

/-- A position in radians. -/
def to_rad (x : Point2) : Point2 :=
  if p.src.csys = .SphericalDeg then (x.1 * pi / 180, x.2 * pi / 180) else x

/-- The point that is looked for in a stencil, and a vertex of the stencil. -/
def test_point (j : Fin p.dst.n_cells) : Point2 :=
  if p.src.is_spherical then (0, 0) else p.geometry.dst_centroid j

def vertex (j : Fin p.dst.n_cells) (i : Fin p.src.n_cells) : Point2 :=
  if p.src.is_spherical then
    let d := p.to_rad (p.geometry.dst_centroid j)
    let q := p.to_rad (p.geometry.src_centroid i)
    project_gnomonic env d.1 d.2 q.1 q.2
  else p.geometry.src_centroid i

end

/-- One step of the Newton iteration, unless the Jacobian is singular. -/
def newton_step (v0 v1 v2 v3 r : Point2) (xi eta : ℚ) : Option (ℚ × ℚ) :=
  let dxi (c : Point2 → ℚ) :=
    -(1 / 4) * (1 - eta) * c v0 + 1 / 4 * (1 - eta) * c v1 + 1 / 4 * (1 + eta) * c v2 +
      -(1 / 4) * (1 + eta) * c v3
  let deta (c : Point2 → ℚ) :=
    -(1 / 4) * (1 - xi) * c v0 + -(1 / 4) * (1 + xi) * c v1 + 1 / 4 * (1 + xi) * c v2 +
      1 / 4 * (1 - xi) * c v3
  let det := dxi (·.1) * deta (·.2) - deta (·.1) * dxi (·.2)
  if |det| < 1 / 10 ^ 30 then none
  else
    let inv_det := 1 / det
    let xi := xi + inv_det * (deta (·.2) * r.1 - deta (·.1) * r.2)
    let eta := eta + inv_det * (-dxi (·.2) * r.1 + dxi (·.1) * r.2)
    some (max (-2) (min 2 xi), max (-2) (min 2 eta))

/-- The loop of `map_to_reference_quad` with `fuel` iterations left. -/
def newton (point v0 v1 v2 v3 : Point2) : Nat → ℚ → ℚ → Option (ℚ × ℚ)
  | 0, xi, eta =>
    if |xi| ≤ 1 + 1 / 10 ^ 6 ∧ |eta| ≤ 1 + 1 / 10 ^ 6 then some (xi, eta) else none
  | fuel + 1, xi, eta =>
    let cur (c : Point2 → ℚ) :=
      1 / 4 * (1 - xi) * (1 - eta) * c v0 + 1 / 4 * (1 + xi) * (1 - eta) * c v1 +
        1 / 4 * (1 + xi) * (1 + eta) * c v2 + 1 / 4 * (1 - xi) * (1 + eta) * c v3
    let r : Point2 := (point.1 - cur (·.1), point.2 - cur (·.2))
    if |r.1| < 1 / 10 ^ 12 ∧ |r.2| < 1 / 10 ^ 12 then some (xi, eta)
    else
      match newton_step v0 v1 v2 v3 r xi eta with
      | none => none
      | some (xi, eta) => newton point v0 v1 v2 v3 fuel xi eta

def map_to_reference_quad (point v0 v1 v2 v3 : Point2) : Option (ℚ × ℚ) :=
  newton point v0 v1 v2 v3 20 0 0

def barycentric_triangle (point v0 v1 v2 : Point2) : Option (ℚ × ℚ × ℚ) :=
  let denom := (v1.2 - v2.2) * (v0.1 - v2.1) + (v2.1 - v1.1) * (v0.2 - v2.2)
  if |denom| < 1 / 10 ^ 30 then none
  else
    let inv := 1 / denom
    let l0 := ((v1.2 - v2.2) * (point.1 - v2.1) + (v2.1 - v1.1) * (point.2 - v2.2)) * inv
    let l1 := ((v2.2 - v0.2) * (point.1 - v2.1) + (v0.1 - v2.1) * (point.2 - v2.2)) * inv
    let l2 := 1 - l0 - l1
    let eps : ℚ := -(1 / 10 ^ 10)
    if l0 ≥ eps ∧ l1 ≥ eps ∧ l2 ≥ eps then some (l0, l1, l2) else none

/-- The choices of `k` from a list in the order of nested loops. -/
def choices {α : Type} : Nat → List α → List (List α)
  | 0, _ => [[]]
  | _ + 1, [] => []
  | k + 1, a :: rest => (choices k rest).map (a :: ·) ++ choices (k + 1) rest

section
variable (env : Env) (config : RegridConfig)

/-- Weights in a quad that contains the destination. -/
def quad_entries (j : Fin p.dst.n_cells) : List (Fin p.src.n_cells) → Option (List p.Entry)
  | [c0, c1, c2, c3] =>
    let v := p.vertex env j
    match map_to_reference_quad (p.test_point j) (v c0) (v c1) (v c2) (v c3) with
    | none => none
    | some (xi, eta) =>
      let xi := max (-1) (min 1 xi)
      let eta := max (-1) (min 1 eta)
      some [⟨j, c0, 1 / 4 * (1 - xi) * (1 - eta)⟩, ⟨j, c1, 1 / 4 * (1 + xi) * (1 - eta)⟩,
        ⟨j, c2, 1 / 4 * (1 + xi) * (1 + eta)⟩, ⟨j, c3, 1 / 4 * (1 - xi) * (1 + eta)⟩]
  | _ => none

/-- Weights in a triangle that contains the destination. -/
def triangle_entries (j : Fin p.dst.n_cells) : List (Fin p.src.n_cells) → Option (List p.Entry)
  | [c0, c1, c2] =>
    let v := p.vertex env j
    match barycentric_triangle (p.test_point j) (v c0) (v c1) (v c2) with
    | none => none
    | some (l0, l1, l2) =>
      let l0 := max 0 l0
      let l1 := max 0 l1
      let l2 := max 0 l2
      let sum := l0 + l1 + l2
      let l (x : ℚ) := if sum > 0 then x / sum else 1 / 3
      some [⟨j, c0, l l0⟩, ⟨j, c1, l l1⟩, ⟨j, c2, l l2⟩]
  | _ => none

/-- Weights by inverse distance, or a single one where a distance is 0. -/
def idw_entries (dist : Fin p.src.n_cells → ℚ) (j : Fin p.dst.n_cells)
    (cells : List (Fin p.src.n_cells)) : List p.Entry :=
  match cells.find? (dist · ≤ 0) with
  | some i => [⟨j, i, 1⟩]
  | none =>
    let sum_inv_dist := (cells.map fun i => 1 / dist i).sum
    cells.map fun i => ⟨j, i, 1 / dist i / sum_inv_dist⟩

def planar_distance (j : Fin p.dst.n_cells) (i : Fin p.src.n_cells) : ℚ :=
  let d := p.geometry.dst_centroid j
  let s := p.geometry.src_centroid i
  env.sqrt ((d.1 - s.1) * (d.1 - s.1) + (d.2 - s.2) * (d.2 - s.2))

/-- The chord between the centroids on the unit sphere. -/
def distance (j : Fin p.dst.n_cells) (i : Fin p.src.n_cells) : ℚ :=
  if p.src.is_spherical then
    let s := p.to_rad (p.geometry.src_centroid i)
    let d := p.to_rad (p.geometry.dst_centroid j)
    let dx := env.cos d.2 * env.cos d.1 - env.cos s.2 * env.cos s.1
    let dy := env.cos d.2 * env.sin d.1 - env.cos s.2 * env.sin s.1
    let dz := env.sin d.2 - env.sin s.2
    env.sqrt (dx * dx + dy * dy + dz * dz)
  else p.planar_distance env j i

/-- The three phases for one destination cell. -/
def shape_entries (j : Fin p.dst.n_cells) (cells : List (Fin p.src.n_cells)) : List p.Entry :=
  match (choices 4 cells).findSome? (p.quad_entries env j) with
  | some entries => entries
  | none =>
    match (choices 3 cells).findSome? (p.triangle_entries env j) with
    | some entries => entries
    | none => p.idw_entries (p.distance env j) j (cells.take 4)

def bilinear_row (j : Fin p.dst.n_cells) : Outcome String (List p.Entry) :=
  let cells := p.geometry.nearest .Cartesian (min 8 p.src.n_cells) j
  if cells = [] then p.unmapped config "generate_bilinear" j
  else .returned (p.shape_entries env j cells)

/-- Source areas are 0 for the methods that are not conservative. -/
def pack_rows (rows : List (List p.Entry)) : p.Matrix :=
  ⟨rows.flatten, fun _ => 1, fun _ => 1, fun _ => 0, p.dst_areas .Cartesian⟩

def generate_bilinear_impl : Outcome String p.Matrix := do
  let rows ← (List.finRange p.dst.n_cells).mapM (p.bilinear_row env config)
  return p.pack_rows rows

end

/-- A fast path whose matrix has no destination cells has declined. -/
def generate_bilinear (env : Env) (config : RegridConfig) : Outcome String p.Matrix := do
  let src_grid_info := p.src.detect_regular_grid
  let dst_grid_info := p.dst.detect_regular_grid
  let fast ← if src_grid_info.is_regular ∧ dst_grid_info.is_regular then
      p.generate_bilinear_rect config src_grid_info
    else pure none
  match fast with
  | some M => return M
  | none =>
    let src_rect_info := p.src.detect_rectilinear_grid
    if src_rect_info.is_rectilinear ∧ 0 < p.dst.n_cells then
      p.generate_bilinear_rect_nonuniform src_rect_info
    else p.generate_bilinear_impl env config

/-! ## Section 5: Polynomial fits -/

/-- The neighbours of a destination cell, centred and scaled. -/
structure Patch (p : Meshes) where
  n : Nat
  cells : Fin n → Fin p.src.n_cells
  xs : Fin n → ℚ
  ys : Fin n → ℚ
  xd : ℚ
  yd : ℚ

def patch (j : Fin p.dst.n_cells) (cells : List (Fin p.src.n_cells)) : Patch p :=
  let n := cells.length
  let src_cx (i : Fin p.src.n_cells) := (p.geometry.src_centroid i).1
  let src_cy (i : Fin p.src.n_cells) := (p.geometry.src_centroid i).2
  let cx_mean := (cells.map src_cx).sum / n
  let cy_mean := (cells.map src_cy).sum / n
  let scale := cells.foldl
    (fun scale i => max scale (max |src_cx i - cx_mean| |src_cy i - cy_mean|)) 0
  let scale := if scale < 1 / 10 ^ 30 then 1 else scale
  let inv_scale := 1 / scale
  { n
    cells := cells.get
    xs := fun k => (src_cx (cells.get k) - cx_mean) * inv_scale
    ys := fun k => (src_cy (cells.get k) - cy_mean) * inv_scale
    xd := ((p.geometry.dst_centroid j).1 - cx_mean) * inv_scale
    yd := ((p.geometry.dst_centroid j).2 - cy_mean) * inv_scale }

namespace Patch

variable {p : Meshes} (q : Patch p) (env : Env)

/-- An entry for every neighbour. -/
def entries (j : Fin p.dst.n_cells) (w : Fin q.n → ℚ) : List p.Entry :=
  (List.finRange q.n).map fun k => ⟨j, q.cells k, w k⟩

section
variable (n_basis : Nat) (basis : Nat → ℚ → ℚ → ℚ)

/-- A polynomial of the basis at a neighbour, and at the destination. -/
def V (k : Fin q.n) (m : Fin n_basis) : ℚ := basis m (q.xs k) (q.ys k)

def eval_vec (m : Fin n_basis) : ℚ := basis m q.xd q.yd

/-- The weights of the least-squares fit, if it can be solved. -/
def least_squares : Option (Fin q.n → ℚ) :=
  let AtA (i i' : Fin n_basis) := ∑ k, q.V n_basis basis k i * q.V n_basis basis k i'
  match env.dense_solve AtA (q.eval_vec n_basis basis) with
  | none => none
  | some alpha => some fun k => ∑ m, q.V n_basis basis k m * alpha m

end

/-- The weights of the interpolating polynomial, with as many terms as there
    are neighbours. -/
def interpolating (basis : Nat → ℚ → ℚ → ℚ) : Option (Fin q.n → ℚ) :=
  let Vt (r c : Fin q.n) := q.V q.n basis c r
  env.dense_solve Vt (q.eval_vec q.n basis)

end Patch

section
variable (env : Env) (config : RegridConfig)

/-- `x^(m / 4) * y^(m % 4)` -/
def bicubic_basis (m : Nat) (x y : ℚ) : ℚ := x ^ (m / 4) * y ^ (m % 4)

/-- `1, x, y, xy, x², y²` -/
def patch_basis (m : Nat) (x y : ℚ) : ℚ :=
  match m with
  | 0 => 1
  | 1 => x
  | 2 => y
  | 3 => x * y
  | 4 => x * x
  | _ => y * y

def bicubic_entries (j : Fin p.dst.n_cells) (cells : List (Fin p.src.n_cells)) : List p.Entry :=
  let q := p.patch j cells
  let n_basis := min 16 q.n
  -- a square system is solved directly
  let direct := if q.n = n_basis then q.interpolating env bicubic_basis else none
  match direct with
  | some w => q.entries j w
  | none =>
    match q.least_squares env n_basis bicubic_basis with
    | some w => q.entries j w
    | none => p.idw_entries (p.planar_distance env j) j cells

def patch_entries (j : Fin p.dst.n_cells) (cells : List (Fin p.src.n_cells)) : List p.Entry :=
  let q := p.patch j cells
  match q.least_squares env (min 6 q.n) patch_basis with
  | some w => q.entries j w
  | none => p.idw_entries (p.planar_distance env j) j cells

/-- The loop that both methods make over the destination cells. -/
def fitted_row (where_ : String)
    (entries : Fin p.dst.n_cells → List (Fin p.src.n_cells) → List p.Entry)
    (j : Fin p.dst.n_cells) : Outcome String (List p.Entry) :=
  let cells := p.geometry.nearest .Cartesian (min 16 p.src.n_cells) j
  if cells = [] then p.unmapped config where_ j else .returned (entries j cells)

def generate_bicubic : Outcome String p.Matrix := do
  let rows ← (List.finRange p.dst.n_cells).mapM
    (p.fitted_row config "generate_bicubic" (p.bicubic_entries env))
  return p.pack_rows rows

def generate_patch : Outcome String p.Matrix := do
  let rows ← (List.finRange p.dst.n_cells).mapM
    (p.fitted_row config "generate_patch" (p.patch_entries env))
  return p.pack_rows rows

end

/-! ## Section 6: First-order conservative weights -/

section
variable (sin : ℚ → ℚ) (config : RegridConfig)

/-- The matrix of overlaps with the weight `w` of each. -/
def pack_overlaps (src_areas : Fin p.src.n_cells → ℚ) (dst_areas : Fin p.dst.n_cells → ℚ)
    (w : Overlap ℚ p.src.n_cells p.dst.n_cells → ℚ)
    (found : List (Overlap ℚ p.src.n_cells p.dst.n_cells)) : p.Matrix :=
  let frac_a_acc := accumulate found (fun _ => true) (·.col) (fun o => o.area / src_areas o.col)
    (fun _ => 0)
  let frac_b_acc := accumulate found (fun _ => true) (·.row) (fun o => o.area / dst_areas o.row)
    (fun _ => 0)
  { entries := found.map fun o => ⟨o.row, o.col,
      if config.norm_type = .FracArea ∧ 0 < frac_b_acc o.row then w o / frac_b_acc o.row else w o⟩
    frac_a := fun i => min (frac_a_acc i) 1
    frac_b := fun j => min (frac_b_acc j) 1
    area_a := src_areas
    area_b := dst_areas }

/-- A candidate of the search tree. -/
def overlap_of (j : Fin p.dst.n_cells) (i : Fin p.src.n_cells) :
    Option (Overlap ℚ p.src.n_cells p.dst.n_cells) :=
  if p.src.is_masked i then none
  else if p.geometry.src_degenerate i then none
  else if p.src_areas config.line_type i ≤ 0 then none
  else if config.line_type = .GreatCircle ∧ p.geometry.spherical_cap_rejects i j then none
  else
    let overlap_area := p.geometry.overlap_area config.line_type j i
    if overlap_area ≤ 0 then none else some ⟨j, i, overlap_area⟩

def overlaps_of (j : Fin p.dst.n_cells) : List (Overlap ℚ p.src.n_cells p.dst.n_cells) :=
  (p.geometry.intersects config.line_type j).filterMap (p.overlap_of config j)

/-- The check after the loop in the plane. -/
def check_mapped (found : List (Overlap ℚ p.src.n_cells p.dst.n_cells)) (j : Fin p.dst.n_cells) :
    Outcome String Unit :=
  if p.dst.is_masked j then return ()
  else if p.geometry.dst_degenerate j then return ()
  else if p.dst_areas config.line_type j ≤ 0 then return ()
  else if found.any (·.row = j) then return ()
  else .thrown (p.unmapped_error "generate_conservative" j)

def planar_overlaps : Outcome String (List (Overlap ℚ p.src.n_cells p.dst.n_cells)) := do
  let found := (List.finRange p.dst.n_cells).flatMap fun j =>
    if p.dst.is_masked j then []
    else if p.geometry.dst_degenerate j then []
    else if p.dst_areas config.line_type j ≤ 0 then []
    else p.overlaps_of config j
  if config.unmapped = .Error then
    let _ ← (List.finRange p.dst.n_cells).mapM (p.check_mapped config found)
  return found

/-- One destination cell of the loop on the sphere. -/
def spherical_row (j : Fin p.dst.n_cells) :
    Outcome String (List (Overlap ℚ p.src.n_cells p.dst.n_cells)) :=
  let error := p.unmapped_error "generate_conservative" j
  if p.dst.is_masked j then return []
  else if p.geometry.dst_degenerate j then return []
  else if p.dst_areas config.line_type j ≤ 0 then
    if config.unmapped = .Error then .thrown error else return []
  else
    let found := p.overlaps_of config j
    if found.isEmpty ∧ config.unmapped = .Error then .thrown error else return found

def spherical_overlaps : Outcome String (List (Overlap ℚ p.src.n_cells p.dst.n_cells)) := do
  let rows ← p.geometry.sorted_dst.order.mapM (p.spherical_row config)
  return rows.flatten

def generate_conservative_impl : Outcome String p.Matrix := do
  let found ← match config.line_type with
    | .GreatCircle => p.spherical_overlaps config
    | .Cartesian => p.planar_overlaps config
  let dst_areas := p.dst_areas config.line_type
  return p.pack_overlaps config (p.src_areas config.line_type) dst_areas
    (fun o => max (o.area / dst_areas o.row) 0) found

/-! ## Section 7: Conservative weights on grids that are not uniform -/

/-- The coordinates of a grid, which has one more than cells. -/
def coord (coords : List ℚ) (k : Nat) : ℚ := coords.getD k 0

/-- The area of the cell in column `i` and row `j`, when the mesh has none. -/
def nonuniform_area (csys : CoordinateSystem) (lons lats : List ℚ) (i j : Nat) : ℚ :=
  let dlon := coord lons (i + 1) - coord lons i
  let lo_y := coord lats j
  let hi_y := coord lats (j + 1)
  match csys with
  | .SphericalDeg => dlon * deg2rad * (sin (hi_y * deg2rad) - sin (lo_y * deg2rad))
  | .SphericalRad => dlon * (sin hi_y - sin lo_y)
  | .Cartesian3D => dlon * (hi_y - lo_y)

def nonuniform_src_area (info : RectilinearGridInfo) (i : Fin p.src.n_cells) : ℚ :=
  match p.src.cell_areas with
  | some areas => areas i
  | none => nonuniform_area sin p.src.csys info.unique_lons info.unique_lats
      (i.val % info.ni) (i.val / info.ni)

def nonuniform_dst_area (info : RectilinearGridInfo) (j : Fin p.dst.n_cells) : ℚ :=
  match p.dst.cell_areas with
  | some areas => areas j
  | none => nonuniform_area sin p.src.csys info.unique_lons info.unique_lats
      (j.val % info.ni) (j.val / info.ni)

section
variable (src_info dst_info : RectilinearGridInfo)

def nonuniform_is_global : Bool :=
  let src_full_range := coord src_info.unique_lons src_info.ni - coord src_info.unique_lons 0
  src_full_range > (if p.src.csys = .SphericalDeg then 350 else 6)

/-- How far a destination column is moved for a source that is global. -/
def nonuniform_shift (id : Nat) : ℚ :=
  if p.nonuniform_is_global src_info then
    360 * ⌊(coord dst_info.unique_lons id - coord src_info.unique_lons 0) / 360⌋
  else 0

/-- The columns `is_start` to `is_end`. -/
def nonuniform_columns (d_lo_x d_hi_x : ℚ) : Outcome String (List Int) := do
  let lons := src_info.unique_lons
  let is_start := max 0 (to_int (lons.findIdx (d_lo_x ≤ ·) - 1))
  let upper := to_int (lons.findIdx (d_hi_x < ·))
  let is_end ←
    if p.nonuniform_is_global src_info ∧ ¬ d_hi_x ≤ coord lons src_info.ni then pure upper
    else do
      let last ← signed 32 (to_int src_info.ni - 1)
      pure (min last upper)
  -- the last `++is`
  let _ ← signed 32 (is_end + 1)
  return int_range is_start is_end

/-- The rows `js_start` to `js_end`. -/
def nonuniform_rows (d_lo_y d_hi_y : ℚ) : Outcome String (List Int) := do
  let lats := src_info.unique_lats
  let js_start := max 0 (to_int (lats.findIdx (d_lo_y ≤ ·) - 1))
  let last ← signed 32 (to_int src_info.nj - 1)
  let upper := to_int (lats.findIdx (d_hi_y < ·))
  return int_range js_start (min last upper)

/-- `is_actual`: the columns of a global source go round. -/
def nonuniform_column (i : Int) : Outcome String Int := do
  if p.nonuniform_is_global src_info then
    let wrapped ← int_mod i (to_int src_info.ni)
    let shifted ← signed 32 (wrapped + to_int src_info.ni)
    int_mod shifted (to_int src_info.ni)
  else return i

/-- What the source cell in row `js` and column `i`, actually `is_actual`,
    shares with the destination cell in row `jd` and column `id`. -/
def nonuniform_overlap_area (id jd : Nat) (js i is_actual : Int) : ℚ :=
  let shift := p.nonuniform_shift src_info dst_info id
  let wrap := if p.nonuniform_is_global src_info ∧ i ≥ to_int src_info.ni then 360 else 0
  let lons := src_info.unique_lons
  let lats := src_info.unique_lats
  let s_lo_x := coord lons is_actual.toNat + wrap
  let s_hi_x := coord lons (is_actual.toNat + 1) + wrap
  let s_lo_y := coord lats js.toNat
  let s_hi_y := coord lats (js.toNat + 1)
  let d_lo_x := coord dst_info.unique_lons id - shift
  let d_hi_x := coord dst_info.unique_lons (id + 1) - shift
  let d_lo_y := coord dst_info.unique_lats jd
  let d_hi_y := coord dst_info.unique_lats (jd + 1)
  if p.src.is_spherical then
    rect_overlap_spherical sin s_lo_x s_hi_x s_lo_y s_hi_y d_lo_x d_hi_x d_lo_y d_hi_y
      (p.src.csys = .SphericalDeg)
  else rect_overlap s_lo_x s_hi_x s_lo_y s_hi_y d_lo_x d_hi_x d_lo_y d_hi_y

/-- The body of the loops over the source cells. -/
def nonuniform_overlap (c_dst : Fin p.dst.n_cells) (id jd : Nat) (js i : Int) :
    Outcome String (Option (Overlap ℚ p.src.n_cells p.dst.n_cells)) := do
  let is_actual ← p.nonuniform_column src_info i
  let c_src ← element p.src.n_cells (is_actual + js * src_info.ni)
  let overlap_area := p.nonuniform_overlap_area sin src_info dst_info id jd js i is_actual
  if p.src.is_masked c_src then return none
  else if ¬ overlap_area > 1 / 10 ^ 12 then return none
  else if p.nonuniform_src_area sin src_info c_src ≤ 0 then return none
  else return some ⟨c_dst, c_src, overlap_area⟩

def nonuniform_row (d : Fin dst_info.nj × Fin dst_info.ni) :
    Outcome String (List (Overlap ℚ p.src.n_cells p.dst.n_cells)) := do
  let jd := d.1.val
  let id := d.2.val
  let c_dst ← element p.dst.n_cells (id + jd * dst_info.ni)
  if p.dst.is_masked c_dst then return []
  else if p.nonuniform_dst_area sin dst_info c_dst ≤ 0 then return []
  else
    let shift := p.nonuniform_shift src_info dst_info id
    let columns ← p.nonuniform_columns src_info (coord dst_info.unique_lons id - shift)
      (coord dst_info.unique_lons (id + 1) - shift)
    let rows ← nonuniform_rows src_info (coord dst_info.unique_lats jd)
      (coord dst_info.unique_lats (jd + 1))
    let found ← (rows.product columns).mapM
      fun s => p.nonuniform_overlap sin src_info dst_info c_dst id jd s.1 s.2
    return found.reduceOption

def generate_conservative_rect_nonuniform : Outcome String p.Matrix := do
  let rows ← ((List.finRange dst_info.nj).product (List.finRange dst_info.ni)).mapM
    (p.nonuniform_row sin src_info dst_info)
  let dst_areas := p.nonuniform_dst_area sin dst_info
  return p.pack_overlaps config (p.nonuniform_src_area sin src_info) dst_areas
    (fun o => o.area / dst_areas o.row) rows.flatten

end

end

/-! ## Section 8: Conservative weights on uniform grids -/

theorem foldl_min_le {l : List ℚ} {d : ℚ} : l.foldl min d ≤ d ∧ ∀ x ∈ l, l.foldl min d ≤ x := by
  induction l generalizing d with
  | nil => simp
  | cons a l ih =>
    obtain ⟨hd, hl⟩ := @ih (min d a)
    rw [List.foldl_cons]
    constructor
    · exact hd.trans (min_le_left d a)
    · intro x hx
      obtain rfl | hx := List.mem_cons.mp hx
      · exact hd.trans (min_le_right d x)
      · exact hl x hx

theorem mean_delta_pos {ds : List ℚ} (h : check_uniform Rounding.exact ds = true) :
    0 < mean_delta Rounding.exact ds := by
  unfold check_uniform at h
  split at h
  · cases h
  next d rest =>
  dsimp only at h
  split at h
  · cases h
  next hmin =>
  have hpos : ∀ x ∈ d :: rest, 0 < x := by
    intro x hx
    exact (not_le.mp hmin).trans_le (foldl_min_le.2 x hx)
  have hsum : sum_deltas Rounding.exact (d :: rest) = (d :: rest).sum :=
    List.sum_eq_foldl.symm
  have hlength : (0 : ℚ) < ((d :: rest).length : ℚ) := Nat.cast_pos.mpr (by simp)
  show 0 < sum_deltas Rounding.exact (d :: rest) / ((d :: rest).length : ℚ)
  rw [hsum]
  exact div_pos (List.sum_pos _ hpos (by simp)) hlength

theorem deltas_pos {mesh : UnstructuredMesh}
    (h : (Axis.detect_regular_grid Rounding.exact mesh).is_regular = true) :
    0 < (Axis.detect_regular_grid Rounding.exact mesh).delta_lon ∧
      0 < (Axis.detect_regular_grid Rounding.exact mesh).delta_lat := by
  unfold Axis.detect_regular_grid at h ⊢
  split
  · next hnone =>
    rw [hnone] at h
    cases h
  · next lons lats hsome =>
    rw [hsome] at h
    dsimp only at h ⊢
    split at h
    · cases h
    next huniform =>
    rw [if_neg huniform]
    simp only [Bool.or_eq_true, Bool.not_eq_true', not_or, Bool.not_eq_false] at huniform
    exact ⟨mean_delta_pos huniform.1, mean_delta_pos huniform.2⟩

/-- A mesh that is a uniform grid. -/
def regular_mesh (mesh : Mesh) (h : mesh.detect_regular_grid.is_regular = true)
    (hcells : mesh.detect_regular_grid.ni * mesh.detect_regular_grid.nj = mesh.n_cells) :
    RegularMesh ℚ :=
  let info := mesh.detect_regular_grid
  { ni := info.ni
    nj := info.nj
    lon_min := info.lon_min
    lon_max := info.lon_max
    lat_min := info.lat_min
    delta_lon := info.delta_lon
    delta_lat := info.delta_lat
    delta_lon_pos := (deltas_pos h).1
    delta_lat_pos := (deltas_pos h).2
    cell_areas := mesh.cell_areas.map fun areas c => areas (c.cast hcells)
    cell_mask := mesh.mask_view }

/-- The matrix of a fast path, unless it is the empty one that declines. -/
def accepted (M : ConservativeMatrix ℚ) : Option p.Matrix :=
  if h : M.n_src = p.src.n_cells ∧ M.n_dst = p.dst.n_cells then
    some
      { entries := M.entries.map fun e => ⟨e.row.cast h.2, e.col.cast h.1, e.weight⟩
        frac_a := fun i => M.frac_a (i.cast h.1.symm)
        frac_b := fun j => M.frac_b (j.cast h.2.symm)
        area_a := fun i => M.area_a (i.cast h.1.symm)
        area_b := fun j => M.area_b (j.cast h.2.symm) }
  else none

section
variable (env : Env) (config : RegridConfig)

/-- The two meshes as uniform grids. A grid whose number of cells wrapped has
    more than there is memory for. -/
def rect_meshes : Outcome String (Option (RectMeshes ℚ)) :=
  let src := p.src.detect_regular_grid
  let dst := p.dst.detect_regular_grid
  if h : src.is_regular ∧ dst.is_regular then
    if hcells : src.ni * src.nj = p.src.n_cells ∧ dst.ni * dst.nj = p.dst.n_cells then
      .returned (some ⟨regular_mesh p.src h.1 hcells.1, regular_mesh p.dst h.2 hcells.2,
        p.src.csys⟩)
    else .undefined
  else .returned none

/-- Whether the matrix of a fast path is taken. -/
def accepts (M : p.Matrix) : Bool :=
  0 < p.dst.n_cells ∧ (config.unmapped ≠ .Error ∨ M.entries ≠ [])

/-- The first fast path: nothing when it declines. -/
def conservative_rect_result : Outcome String (Option p.Matrix) := do
  match ← p.rect_meshes with
  | none => return none
  | some q =>
    let M ← q.generate_conservative_rect env.sin config.norm_type
    return (p.accepted M).filter (p.accepts config)

def conservative_nonuniform_result : Outcome String (Option p.Matrix) := do
  let src_rect_info := p.src.detect_rectilinear_grid
  let dst_rect_info := p.dst.detect_rectilinear_grid
  if src_rect_info.is_rectilinear ∧ dst_rect_info.is_rectilinear then
    let M ← p.generate_conservative_rect_nonuniform env.sin config src_rect_info dst_rect_info
    return (some M).filter (p.accepts config)
  else return none

def generate_conservative : Outcome String p.Matrix := do
  match ← p.conservative_rect_result env config with
  | some M => return M
  | none =>
    match ← p.conservative_nonuniform_result env config with
    | some M => return M
    | none => p.generate_conservative_impl config

/-! ## Section 9: The generator -/

abbrev second_order : SecondOrder.Meshes ℚ where
  src := p.src.toSourceMesh
  n_dst := p.dst.n_cells
  src_areas := p.src_areas config.line_type
  dst_areas := p.dst_areas config.line_type
  values := p.geometry.intersects config.line_type
  clip := p.geometry.clip
  compute_polygon_overlap_area := p.geometry.compute_polygon_overlap_area

/-- The weights before the post-processing. -/
def raw_matrix : Outcome String p.Matrix :=
  match config.method with
  | .Bilinear => p.generate_bilinear env config
  | .NearestNeighbor => p.generate_nearest config
  | .Bicubic => p.generate_bicubic env config
  | .Patch => p.generate_patch env config
  | .Conservative1stOrder => p.generate_conservative env config
  | .Conservative2ndOrder =>
    (p.second_order config).generate_conservative_2nd_order env.sin env.cos
      config.toRegridConfig

end

/-- The number of an enumerator. -/
def coord_system_number (csys : CoordinateSystem) : Nat :=
  match csys with
  | .SphericalDeg => 0
  | .SphericalRad => 1
  | .Cartesian3D => 2

def check_coord_systems : Outcome String Unit :=
  if p.src.csys ≠ p.dst.csys then
    .thrown ("WeightGenerator::generate: source and destination meshes have different " ++
      "CoordinateSystem values (src=" ++ toString (coord_system_number p.src.csys) ++ ", dst=" ++
      toString (coord_system_number p.dst.csys) ++ ")")
  else return ()

/-- `std::numeric_limits<double>::max()` -/
def double_max : ℚ := (2 ^ 53 - 1) * 2 ^ 971

/-- The least and the greatest mean longitude of a cell. -/
def lon_range (mesh : Mesh) : ℚ × ℚ :=
  ((List.finRange mesh.n_cells).filterMap mesh.mean).foldl
    (fun range center => (min range.1 center.1, max range.2 center.1)) (double_max, -double_max)

/-- `std::to_string` of a `double`: six digits, with ties to even. -/
def to_string (x : ℚ) : String :=
  let scaled : ℚ := |x| * 10 ^ 6
  let n := ⌊scaled⌋.toNat
  let rest := scaled - n
  let n := if rest > 1 / 2 ∨ rest = 1 / 2 ∧ n % 2 = 1 then n + 1 else n
  (if x < 0 then "-" else "") ++ toString (n / 10 ^ 6) ++ "." ++
    String.ofList (Decimal.padded 6 (n % 10 ^ 6))

/-- The periods of longitude that bring the destination closest to the source. -/
def lon_shift (src dst : ℚ × ℚ) : ℚ :=
  let period : ℚ := if p.src.csys = .SphericalDeg then 360 else 2 * pi
  std_round ((1 / 2 * (src.1 + src.2) - 1 / 2 * (dst.1 + dst.2)) / period) * period

/-- The ranges of longitude are disjoint, and are not after a shift. -/
def longitudes_mismatch (src dst : ℚ × ℚ) : Bool :=
  let disjoint := src.2 < dst.1 ∨ dst.2 < src.1
  let shift := p.lon_shift src dst
  disjoint ∧ ¬ (src.2 < dst.1 + shift ∨ dst.2 + shift < src.1)

def is_structured_fast_path (config : RegridConfig) : Bool :=
  (config.method = .Bilinear ∨ config.method = .Bicubic ∨ config.method = .Patch) ∧
    (p.src.detect_regular_grid.is_regular ∨ p.src.detect_rectilinear_grid.is_rectilinear)

def check_longitudes (config : RegridConfig) : Outcome String Unit :=
  let src := lon_range p.src
  let dst := lon_range p.dst
  if p.src.is_spherical ∧ p.longitudes_mismatch src dst ∧ ¬ p.is_structured_fast_path config then
    .thrown ("WeightGenerator::generate: Spherical longitude coordinate range mismatch. " ++
      "Source longitude range is [" ++ to_string src.1 ++ ", " ++ to_string src.2 ++ "], " ++
      "but destination longitude range is [" ++ to_string dst.1 ++ ", " ++ to_string dst.2 ++
      "]. These ranges are completely disjoint in raw 2D space but would overlap if shifted by " ++
      to_string (p.lon_shift src dst) ++ " " ++
      (if p.src.csys = .SphericalDeg then "degrees" else "radians") ++
      ". This mismatch causes 2D spatial BVH queries to fail silently. Please normalize your " ++
      "coordinate ranges to match before weight generation.")
  else return ()

def coastal : CoastalMeshes p.src.n_cells p.dst.n_cells where
  cell_mask := p.src.cell_mask
  src_centroid := p.geometry.src_centroid
  dst_centroid := p.geometry.dst_centroid

def generate (env : Env) (ax : ArborX) (config : RegridConfig) : Outcome String p.Matrix := do
  p.check_coord_systems
  p.check_longitudes config
  let raw ← p.raw_matrix env config
  let entries := coastal_renormalize_and_extrapolate Rounding.exact ax p.coastal raw.entries
    config.extrap_method
  return { raw with entries }

end Meshes

end Axis.WeightGenerator

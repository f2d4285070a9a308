import Helm.Axis.Apply

/-! # AXIS: conservative weights between regular grids

  `generate_conservative_rect` intersects the cells of two uniform grids as
  rectangles. For each destination cell it computes from the bounds of the
  cell which columns and rows of the source grid can touch it, and visits
  those. Every overlap gives one entry of the matrix, and is added to the
  fractions of its two cells.

  Numbers are those of an ordered field with a floor, and the sine is any
  function on it. A `floor` that does not fit an `int` is undefined, and so
  is an overflow of `int` arithmetic. The capacity reserved for the entries
  is not modelled.

  Main result: `mem_overlaps`, that the index arithmetic misses no overlap.
-/

namespace Axis

open Signed Segments ArrayLoops

/-! ## Section 1: Meshes -/

inductive CoordinateSystem where
  | SphericalDeg
  | SphericalRad
  | Cartesian3D
  deriving DecidableEq

inductive NormType where
  | DstArea
  | FracArea
  deriving DecidableEq

/-- The mesh of a uniform grid, with what was detected about it. The areas of
    the cells are there when the mesh has one for each cell. -/
structure RegularMesh (K : Type) [Zero K] [LT K] where
  ni : Nat
  nj : Nat
  lon_min : K
  lon_max : K
  lat_min : K
  delta_lon : K
  delta_lat : K
  delta_lon_pos : 0 < delta_lon
  delta_lat_pos : 0 < delta_lat
  cell_areas : Option (Fin (ni * nj) → K)
  cell_mask : MaskView

theorem unit_width : (0 : ℚ) < 1 := one_pos

variable {K : Type} [Field K] [LinearOrder K]

/-- The arguments of the generator. -/
structure RectMeshes (K : Type) [Field K] [LinearOrder K] where
  src : RegularMesh K
  dst : RegularMesh K
  /-- The coordinate system of the source; that of the destination is not read. -/
  csys : CoordinateSystem

def RegularMesh.n_cells (mesh : RegularMesh K) : Nat := mesh.ni * mesh.nj

/-! ## Section 2: Overlaps of rectangles -/

def deg2rad : K := 3.14159265358979323846 / 180

def rect_overlap (s_lo_x s_hi_x s_lo_y s_hi_y d_lo_x d_hi_x d_lo_y d_hi_y : K) : K :=
  let dx := max 0 (min s_hi_x d_hi_x - max s_lo_x d_lo_x)
  let dy := max 0 (min s_hi_y d_hi_y - max s_lo_y d_lo_y)
  dx * dy

def rect_overlap_spherical (sin : K → K) (s_lo_x s_hi_x s_lo_y s_hi_y d_lo_x d_hi_x d_lo_y d_hi_y : K)
    (is_degrees : Bool) : K :=
  let dx := max 0 (min s_hi_x d_hi_x - max s_lo_x d_lo_x)
  let lo_y := max s_lo_y d_lo_y
  let hi_y := min s_hi_y d_hi_y
  if hi_y ≤ lo_y ∨ dx ≤ 0 then 0
  else if is_degrees then dx * deg2rad * (sin (hi_y * deg2rad) - sin (lo_y * deg2rad))
  else dx * (sin hi_y - sin lo_y)

/-- The area of a cell in row `j`, when the mesh does not have it. -/
def row_area (sin : K → K) (csys : CoordinateSystem) (mesh : RegularMesh K) (j : Nat) : K :=
  let lo_y := mesh.lat_min + j * mesh.delta_lat
  let hi_y := lo_y + mesh.delta_lat
  match csys with
  | .SphericalDeg => mesh.delta_lon * deg2rad * (sin (hi_y * deg2rad) - sin (lo_y * deg2rad))
  | .SphericalRad => mesh.delta_lon * (sin hi_y - sin lo_y)
  | .Cartesian3D => mesh.delta_lon * mesh.delta_lat

def cell_area (sin : K → K) (csys : CoordinateSystem) (mesh : RegularMesh K)
    (c : Fin mesh.n_cells) : K :=
  match mesh.cell_areas with
  | some areas => areas c
  | none => row_area sin csys mesh (c / mesh.ni)

section
variable [IsStrictOrderedRing K]

theorem rect_overlap_pos {s_lo_x s_hi_x s_lo_y s_hi_y d_lo_x d_hi_x d_lo_y d_hi_y : K}
    (h : 0 < rect_overlap s_lo_x s_hi_x s_lo_y s_hi_y d_lo_x d_hi_x d_lo_y d_hi_y) :
    max s_lo_x d_lo_x < min s_hi_x d_hi_x ∧ max s_lo_y d_lo_y < min s_hi_y d_hi_y := by
  unfold rect_overlap at h
  constructor
  · by_contra hx
    have hzero : max 0 (min s_hi_x d_hi_x - max s_lo_x d_lo_x) = 0 :=
      max_eq_left (sub_nonpos.mpr (not_lt.mp hx))
    simp [hzero] at h
  · by_contra hy
    have hzero : max 0 (min s_hi_y d_hi_y - max s_lo_y d_lo_y) = 0 :=
      max_eq_left (sub_nonpos.mpr (not_lt.mp hy))
    simp [hzero] at h

theorem rect_overlap_spherical_pos {sin : K → K} {s_lo_x s_hi_x s_lo_y s_hi_y d_lo_x d_hi_x d_lo_y d_hi_y : K}
    {deg : Bool}
    (h : 0 < rect_overlap_spherical sin s_lo_x s_hi_x s_lo_y s_hi_y d_lo_x d_hi_x d_lo_y d_hi_y
      deg) :
    max s_lo_x d_lo_x < min s_hi_x d_hi_x ∧ max s_lo_y d_lo_y < min s_hi_y d_hi_y := by
  unfold rect_overlap_spherical at h
  dsimp only at h
  split at h
  · exact absurd h (lt_irrefl 0)
  · next hboth =>
    push Not at hboth
    obtain ⟨hy, hx⟩ := hboth
    constructor
    · by_contra hnot
      rw [max_eq_left (sub_nonpos.mpr (not_lt.mp hnot))] at hx
      exact lt_irrefl 0 hx
    · exact hy

end

/-! ## Section 3: The loop over the destination cells -/

/-- A pair of cells that overlap, and the area they share. -/
structure Overlap (K : Type) (n_src n_dst : Nat) where
  row : Fin n_dst
  col : Fin n_src
  area : K
  deriving DecidableEq

/-- `a % b` on `int` -/
def int_mod (a b : Int) : Outcome String Int := do
  if b = 0 then .undefined
  else
    let _ ← signed 32 (a.tdiv b)
    return a.tmod b

/-- `for (int k = lo; k <= hi; ++k)` -/
def int_range (lo hi : Int) : List Int := (List.range (hi + 1 - lo).toNat).map fun k : Nat => lo + k

namespace RectMeshes

variable (p : RectMeshes K)

def is_degrees : Bool := p.csys = .SphericalDeg

def is_spherical : Bool := p.csys = .SphericalDeg ∨ p.csys = .SphericalRad

def wrap_threshold : K := if p.is_degrees then 350 else 6

def src_is_global : Bool := p.src.ni * p.src.delta_lon > p.wrap_threshold

def dst_is_global : Bool := p.dst.ni * p.dst.delta_lon > p.wrap_threshold

section
local instance half_cell : Nat.AtLeastTwo 2 := inferInstance

/-- The destination reaches beyond the source, and neither is global. -/
def falls_back : Bool :=
  !p.src_is_global && !p.dst_is_global &&
    (p.dst.lon_min < p.src.lon_min - p.src.delta_lon * (1 / 2) ||
      p.dst.lon_max > p.src.lon_max + p.src.delta_lon * (1 / 2))

end

/-- `jd * dst_ni + id` -/
def dst_cell_idx (d : Fin p.dst.nj × Fin p.dst.ni) : Fin p.dst.n_cells :=
  ⟨d.1 * p.dst.ni + d.2, by
    have hj := d.1.isLt
    have hi := d.2.isLt
    unfold RegularMesh.n_cells
    nlinarith⟩

def d_lo_x (d : Fin p.dst.nj × Fin p.dst.ni) : K := p.dst.lon_min + (d.2 : Nat) * p.dst.delta_lon

def d_hi_x (d : Fin p.dst.nj × Fin p.dst.ni) : K := p.d_lo_x d + p.dst.delta_lon

section
variable [FloorRing K]

/-- A destination cell is moved by whole turns of 360 when the source is
    global. -/
def shift (d : Fin p.dst.nj × Fin p.dst.ni) : K :=
  if p.src_is_global then 360 * (⌊(p.d_lo_x d - p.src.lon_min) / 360⌋ : K) else 0

def d_lo_x_norm (d : Fin p.dst.nj × Fin p.dst.ni) : K := p.d_lo_x d - p.shift d

def d_hi_x_norm (d : Fin p.dst.nj × Fin p.dst.ni) : K := p.d_hi_x d - p.shift d

end

def d_lo_y (d : Fin p.dst.nj × Fin p.dst.ni) : K := p.dst.lat_min + (d.1 : Nat) * p.dst.delta_lat

def d_hi_y (d : Fin p.dst.nj × Fin p.dst.ni) : K := p.d_lo_y d + p.dst.delta_lat

def s_lo_x (i : Int) : K := p.src.lon_min + i * p.src.delta_lon

def s_hi_x (i : Int) : K := p.s_lo_x i + p.src.delta_lon

def s_lo_y (js : Int) : K := p.src.lat_min + js * p.src.delta_lat

def s_hi_y (js : Int) : K := p.s_lo_y js + p.src.delta_lat

/-- The columns of a global grid go round. -/
def is_actual (i : Int) : Outcome String Int := do
  if p.src_is_global then
    let wrapped ← int_mod i (to_int p.src.ni)
    let shifted ← signed 32 (wrapped + to_int p.src.ni)
    int_mod shifted (to_int p.src.ni)
  else return i

/-- The source cell in row `js` and column `i`. A number that is no index of
    a cell is skipped. -/
def src_cell_idx (js i : Int) : Outcome String (Option (Fin p.src.n_cells)) := do
  let is_actual ← p.is_actual i
  -- a product and a sum of type `size_t`
  let idx := ((js * p.src.ni + is_actual) % 2 ^ 64).toNat
  return if h : idx < p.src.n_cells then some ⟨idx, h⟩ else none

variable [FloorRing K] (sin : K → K)

def overlap_area (d : Fin p.dst.nj × Fin p.dst.ni) (js i : Int) : K :=
  if p.is_spherical then
    rect_overlap_spherical sin (p.s_lo_x i) (p.s_hi_x i) (p.s_lo_y js) (p.s_hi_y js)
      (p.d_lo_x_norm d) (p.d_hi_x_norm d) (p.d_lo_y d) (p.d_hi_y d) p.is_degrees
  else
    rect_overlap (p.s_lo_x i) (p.s_hi_x i) (p.s_lo_y js) (p.s_hi_y js)
      (p.d_lo_x_norm d) (p.d_hi_x_norm d) (p.d_lo_y d) (p.d_hi_y d)

/-- The body of the loop over the source cells. -/
def overlap_at (d : Fin p.dst.nj × Fin p.dst.ni) (js i : Int) :
    Outcome String (Option (Overlap K p.src.n_cells p.dst.n_cells)) := do
  match ← p.src_cell_idx js i with
  | none => return none
  | some s =>
    if masked p.src.cell_mask s then return none
    else if cell_area sin p.csys p.src s ≤ 0 then return none
    else if p.overlap_area sin d js i ≤ 0 then return none
    else return some ⟨p.dst_cell_idx d, s, p.overlap_area sin d js i⟩

/-- `is_lo` and `is_hi` -/
def lon_range (d : Fin p.dst.nj × Fin p.dst.ni) : Outcome String (Int × Int) := do
  let is_lo ← signed 32 ⌊(p.d_lo_x_norm d - p.src.lon_min) / p.src.delta_lon⌋
  let is_hi ← signed 32 ⌊(p.d_hi_x_norm d - p.src.lon_min) / p.src.delta_lon⌋
  if p.src_is_global then return (is_lo, is_hi)
  else
    let last ← signed 32 (to_int p.src.ni - 1)
    return (max 0 is_lo, min last is_hi)

/-- `js_lo` and `js_hi` -/
def lat_range (d : Fin p.dst.nj × Fin p.dst.ni) : Outcome String (Int × Int) := do
  let js_lo ← signed 32 ⌊(p.d_lo_y d - p.src.lat_min) / p.src.delta_lat⌋
  let js_hi ← signed 32 ⌊(p.d_hi_y d - p.src.lat_min) / p.src.delta_lat⌋
  let last ← signed 32 (to_int p.src.nj - 1)
  return (max 0 js_lo, min last js_hi)

/-- The overlaps of one destination cell. -/
def cell_overlaps (d : Fin p.dst.nj × Fin p.dst.ni) :
    Outcome String (List (Overlap K p.src.n_cells p.dst.n_cells)) := do
  if masked p.dst.cell_mask (p.dst_cell_idx d) then return []
  else if cell_area sin p.csys p.dst (p.dst_cell_idx d) ≤ 0 then return []
  else
    let (is_lo, is_hi) ← p.lon_range d
    let (js_lo, js_hi) ← p.lat_range d
    if is_lo > is_hi ∨ js_lo > js_hi then return []
    else
      -- the last `++is`
      let _ ← signed 32 (is_hi + 1)
      let found ← ((int_range js_lo js_hi).product (int_range is_lo is_hi)).mapM
        fun s => p.overlap_at sin d s.1 s.2
      return found.reduceOption

def overlaps : Outcome String (List (Overlap K p.src.n_cells p.dst.n_cells)) := do
  let found ← ((List.finRange p.dst.nj).product (List.finRange p.dst.ni)).mapM (p.cell_overlaps sin)
  return found.flatten

end RectMeshes

/-! ## Section 4: The matrix -/

structure Entry (K : Type) (n_src n_dst : Nat) where
  row : Fin n_dst
  col : Fin n_src
  weight : K
  deriving DecidableEq

/-- An `InterpolationMatrix` with the arrays of its cells. -/
structure ConservativeMatrix (K : Type) where
  n_src : Nat
  n_dst : Nat
  entries : List (Entry K n_src n_dst)
  frac_a : Fin n_src → K
  frac_b : Fin n_dst → K
  area_a : Fin n_src → K
  area_b : Fin n_dst → K

/-- `InterpolationMatrix()` -/
def ConservativeMatrix.empty : ConservativeMatrix K where
  n_src := 0
  n_dst := 0
  entries := []
  frac_a := fun _ => 0
  frac_b := fun _ => 0
  area_a := fun _ => 0
  area_b := fun _ => 0

namespace RectMeshes

variable (p : RectMeshes K) (sin : K → K) (found : List (Overlap K p.src.n_cells p.dst.n_cells))

/-- The source fractions before they are clamped. -/
def frac_a_acc : Fin p.src.n_cells → K :=
  accumulate found (fun _ => true) (·.col) (fun o => o.area / cell_area sin p.csys p.src o.col)
    (fun _ => 0)

/-- The destination fractions before they are clamped. -/
def frac_b_acc : Fin p.dst.n_cells → K :=
  accumulate found (fun _ => true) (·.row) (fun o => o.area / cell_area sin p.csys p.dst o.row)
    (fun _ => 0)

/-- The weight of an overlap after the normalisation. -/
def weight (norm_type : NormType) (o : Overlap K p.src.n_cells p.dst.n_cells) : K :=
  let w_ij := max (o.area / cell_area sin p.csys p.dst o.row) 0
  if norm_type = .FracArea ∧ 0 < p.frac_b_acc sin found o.row then
    w_ij / p.frac_b_acc sin found o.row
  else w_ij

/-- Clamp the fractions and pack the arrays. -/
def pack (norm_type : NormType) : ConservativeMatrix K where
  n_src := p.src.n_cells
  n_dst := p.dst.n_cells
  entries := found.map fun o => ⟨o.row, o.col, p.weight sin found norm_type o⟩
  frac_a := fun i => min (p.frac_a_acc sin found i) 1
  frac_b := fun j => min (p.frac_b_acc sin found j) 1
  area_a := cell_area sin p.csys p.src
  area_b := cell_area sin p.csys p.dst

variable [FloorRing K]

def generate_conservative_rect (norm_type : NormType) : Outcome String (ConservativeMatrix K) := do
  if p.falls_back then return .empty
  else
    let found ← p.overlaps sin
    return p.pack sin found norm_type

/-! ## Section 5: The index arithmetic misses no overlap -/

/-- A destination cell and the source cell in row `js` and column `i` are
    open and overlap. -/
structure Touches (d : Fin p.dst.nj × Fin p.dst.ni) (js i : Int) (s : Fin p.src.n_cells) :
    Prop where
  dst_open : masked p.dst.cell_mask (p.dst_cell_idx d) = false
  dst_area : 0 < cell_area sin p.csys p.dst (p.dst_cell_idx d)
  row : 0 ≤ js ∧ js < to_int p.src.nj
  column : p.src_is_global = false → 0 ≤ i ∧ i < to_int p.src.ni
  cell : p.src_cell_idx js i = .returned (some s)
  src_open : masked p.src.cell_mask s = false
  src_area : 0 < cell_area sin p.csys p.src s
  overlap : 0 < p.overlap_area sin d js i

variable {p} {sin}

theorem overlap_at_eq_some {d : Fin p.dst.nj × Fin p.dst.ni} {js i : Int}
    {o : Overlap K p.src.n_cells p.dst.n_cells} :
    p.overlap_at sin d js i = .returned (some o) ↔
      ∃ s, p.src_cell_idx js i = .returned (some s) ∧ masked p.src.cell_mask s = false ∧
        0 < cell_area sin p.csys p.src s ∧ 0 < p.overlap_area sin d js i ∧
        o = ⟨p.dst_cell_idx d, s, p.overlap_area sin d js i⟩ := by
  unfold overlap_at
  rw [Outcome.bind_eq_returned]
  constructor
  · intro ⟨cell, hcell, hrest⟩
    cases cell with
    | none => cases hrest
    | some s =>
      dsimp only at hrest
      split at hrest
      · cases hrest
      split at hrest
      · cases hrest
      split at hrest
      · cases hrest
      next hmask harea hoverlap =>
        cases hrest
        exact ⟨s, hcell, by simpa using hmask, not_le.mp harea, not_le.mp hoverlap, rfl⟩
  · intro ⟨s, hcell, hmask, harea, hoverlap, heq⟩
    subst heq
    refine ⟨some s, hcell, ?_⟩
    simp [hmask, not_le.mpr harea, not_le.mpr hoverlap]

variable [IsStrictOrderedRing K]

theorem bounds_of_overlap {d : Fin p.dst.nj × Fin p.dst.ni} {js i : Int}
    (h : 0 < p.overlap_area sin d js i) :
    (p.s_lo_x i < p.d_hi_x_norm d ∧ p.d_lo_x_norm d < p.s_hi_x i) ∧
      p.s_lo_y js < p.d_hi_y d ∧ p.d_lo_y d < p.s_hi_y js := by
  have hboth : max (p.s_lo_x i) (p.d_lo_x_norm d) < min (p.s_hi_x i) (p.d_hi_x_norm d) ∧
      max (p.s_lo_y js) (p.d_lo_y d) < min (p.s_hi_y js) (p.d_hi_y d) := by
    unfold overlap_area at h
    split at h
    · exact rect_overlap_spherical_pos h
    · exact rect_overlap_pos h
  obtain ⟨hx, hy⟩ := hboth
  simp only [max_lt_iff, lt_min_iff] at hx hy
  exact ⟨⟨hx.2.1, hx.1.2⟩, hy.2.1, hy.1.2⟩

theorem floor_range {lo delta a b : K} {k : Int} (hdelta : 0 < delta) (hb : lo + k * delta < b)
    (ha : a < lo + k * delta + delta) : ⌊(a - lo) / delta⌋ ≤ k ∧ k ≤ ⌊(b - lo) / delta⌋ := by
  constructor
  · rw [← Int.lt_add_one_iff, Int.floor_lt, div_lt_iff₀ hdelta]
    push_cast
    linarith
  · rw [Int.le_floor, le_div_iff₀ hdelta]
    linarith

theorem mem_int_range {lo hi k : Int} : k ∈ int_range lo hi ↔ lo ≤ k ∧ k ≤ hi := by
  unfold int_range
  simp only [List.mem_map, List.mem_range]
  constructor
  · intro ⟨m, hm, heq⟩
    omega
  · intro ⟨hlo, hhi⟩
    exact ⟨(k - lo).toNat, by omega, by omega⟩

theorem lon_range_spec {d : Fin p.dst.nj × Fin p.dst.ni} {is_lo is_hi : Int}
    (h : p.lon_range d = .returned (is_lo, is_hi)) {i : Int}
    (hlo : p.s_lo_x i < p.d_hi_x_norm d) (hhi : p.d_lo_x_norm d < p.s_hi_x i) :
    is_lo ≤ i ∧ i ≤ is_hi ↔ p.src_is_global = false → 0 ≤ i ∧ i < to_int p.src.ni := by
  have hfloor := floor_range p.src.delta_lon_pos hlo hhi
  unfold lon_range at h
  obtain ⟨lo, hlo', h⟩ := Outcome.bind_eq_returned.mp h
  obtain ⟨hi, hhi', h⟩ := Outcome.bind_eq_returned.mp h
  have hlo_eq := signed_eq_returned hlo'
  have hhi_eq := signed_eq_returned hhi'
  by_cases hglobal : p.src_is_global = true
  · rw [if_pos hglobal] at h
    cases h
    rw [hlo_eq, hhi_eq]
    simp [hglobal, hfloor]
  · rw [if_neg hglobal] at h
    obtain ⟨last, hlast, h⟩ := Outcome.bind_eq_returned.mp h
    have hlast_eq := signed_eq_returned hlast
    cases h
    simp only [hglobal, forall_const]
    omega

theorem lat_range_spec {d : Fin p.dst.nj × Fin p.dst.ni} {js_lo js_hi : Int}
    (h : p.lat_range d = .returned (js_lo, js_hi)) {js : Int} (hlo : p.s_lo_y js < p.d_hi_y d)
    (hhi : p.d_lo_y d < p.s_hi_y js) :
    js_lo ≤ js ∧ js ≤ js_hi ↔ 0 ≤ js ∧ js < to_int p.src.nj := by
  have hfloor := floor_range p.src.delta_lat_pos hlo hhi
  unfold lat_range at h
  obtain ⟨lo, hlo', h⟩ := Outcome.bind_eq_returned.mp h
  obtain ⟨hi, hhi', h⟩ := Outcome.bind_eq_returned.mp h
  obtain ⟨last, hlast, h⟩ := Outcome.bind_eq_returned.mp h
  have hlo_eq := signed_eq_returned hlo'
  have hhi_eq := signed_eq_returned hhi'
  have hlast_eq := signed_eq_returned hlast
  cases h
  omega

/-- The overlaps that are found for a destination cell are all there are. -/
theorem mem_cell_overlaps {d : Fin p.dst.nj × Fin p.dst.ni}
    {found : List (Overlap K p.src.n_cells p.dst.n_cells)}
    (h : p.cell_overlaps sin d = .returned found)
    {o : Overlap K p.src.n_cells p.dst.n_cells} :
    o ∈ found ↔ ∃ js i s, p.Touches sin d js i s ∧
      o = ⟨p.dst_cell_idx d, s, p.overlap_area sin d js i⟩ := by
  unfold cell_overlaps at h
  split at h
  · next hmask =>
    cases h
    constructor
    · intro hmem
      cases hmem
    · intro ⟨js, i, s, htouch, _⟩
      rw [htouch.dst_open] at hmask
      cases hmask
  split at h
  · next harea =>
    cases h
    constructor
    · intro hmem
      cases hmem
    · intro ⟨js, i, s, htouch, _⟩
      exact absurd htouch.dst_area (not_lt.mpr harea)
  next hmask harea =>
  obtain ⟨⟨is_lo, is_hi⟩, hlon, h⟩ := Outcome.bind_eq_returned.mp h
  obtain ⟨⟨js_lo, js_hi⟩, hlat, h⟩ := Outcome.bind_eq_returned.mp h
  dsimp only at h
  -- a source cell that overlaps is in both ranges
  have hranges : ∀ {js i s}, p.Touches sin d js i s →
      (js_lo ≤ js ∧ js ≤ js_hi) ∧ is_lo ≤ i ∧ i ≤ is_hi := by
    intro js i s htouch
    obtain ⟨hx, hy⟩ := bounds_of_overlap htouch.overlap
    exact ⟨(lat_range_spec hlat hy.1 hy.2).mpr htouch.row,
      (lon_range_spec hlon hx.1 hx.2).mpr htouch.column⟩
  split at h
  · next hempty =>
    cases h
    constructor
    · intro hmem
      cases hmem
    · intro ⟨js, i, s, htouch, _⟩
      have := hranges htouch
      omega
  obtain ⟨_, _, h⟩ := Outcome.bind_eq_returned.mp h
  obtain ⟨visited, hvisited, h⟩ := Outcome.bind_eq_returned.mp h
  cases h
  rw [List.reduceOption_mem_iff, Outcome.mem_of_mapM hvisited]
  constructor
  · intro ⟨⟨js, i⟩, hmem, hat⟩
    obtain ⟨s, hcell, hsrc_mask, hsrc_area, hoverlap, heq⟩ := overlap_at_eq_some.mp hat
    obtain ⟨hjs, hi⟩ := List.pair_mem_product.mp hmem
    rw [mem_int_range] at hjs hi
    obtain ⟨hx, hy⟩ := bounds_of_overlap hoverlap
    exact ⟨js, i, s, ⟨by simpa using hmask, not_le.mp harea,
      (lat_range_spec hlat hy.1 hy.2).mp hjs, (lon_range_spec hlon hx.1 hx.2).mp hi, hcell,
      hsrc_mask, hsrc_area, hoverlap⟩, heq⟩
  · intro ⟨js, i, s, htouch, heq⟩
    obtain ⟨hjs, hi⟩ := hranges htouch
    refine ⟨(js, i), List.pair_mem_product.mpr ⟨mem_int_range.mpr hjs, mem_int_range.mpr hi⟩, ?_⟩
    exact overlap_at_eq_some.mpr ⟨s, htouch.cell, htouch.src_open, htouch.src_area,
      htouch.overlap, heq⟩

theorem mem_overlaps {found : List (Overlap K p.src.n_cells p.dst.n_cells)}
    (h : p.overlaps sin = .returned found) {o : Overlap K p.src.n_cells p.dst.n_cells} :
    o ∈ found ↔ ∃ d js i s, p.Touches sin d js i s ∧
      o = ⟨p.dst_cell_idx d, s, p.overlap_area sin d js i⟩ := by
  unfold overlaps at h
  obtain ⟨rows, hrows, h⟩ := Outcome.bind_eq_returned.mp h
  cases h
  rw [List.mem_flatten]
  constructor
  · intro ⟨row, hrow, ho⟩
    obtain ⟨d, -, hd⟩ := (Outcome.mem_of_mapM hrows).mp hrow
    exact ⟨d, (mem_cell_overlaps hd).mp ho⟩
  · intro ⟨d, hd⟩
    -- the loop reaches every destination cell
    have hmem : d ∈ (List.finRange p.dst.nj).product (List.finRange p.dst.ni) :=
      List.pair_mem_product.mpr ⟨List.mem_finRange _, List.mem_finRange _⟩
    obtain ⟨row, hrow, heq⟩ := Outcome.exists_of_mapM hrows hmem
    exact ⟨row, hrow, (mem_cell_overlaps heq).mpr hd⟩

end RectMeshes

end Axis

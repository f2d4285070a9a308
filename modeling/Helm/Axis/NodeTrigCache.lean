import Helm.Axis.GridDetector
import Helm.Axis.ConservativeRect
import Helm.Axis.GradientReconstructor
import Helm.Framework.Loops
import Helm.Framework.SphereAngles

/-! # AXIS: the trigonometric cache of a regular grid

  The overlap loop turns every cell into a polygon on the unit sphere. For a
  mesh that was detected as a regular grid, the sines and cosines of the
  grid's longitudes and latitudes are computed once, and the polygon of a
  cell is built from its column and row.

  The cached polygon takes the detected coordinates to be degrees, the cells
  to be numbered row by row from the south-west, and their corners to be
  listed counter-clockwise. The detection checks none of the three.

  Coordinates are rationals, the detection rounds, and the angles and the
  points of the sphere are exact.

  Main result: `cached_polygons_iff`.
-/

namespace Axis

open Signed Loops SphereAngles

/-! ## Section 1: Model -/

/-- A mesh with its coordinate system. The coordinates may have a third column. -/
structure CoordinateMesh extends UnstructuredMesh where
  csys : CoordinateSystem
  z : Option (List ℚ)

/-- `NodeTrigCache` -/
structure NodeTrigCache (K : Type) where
  sin_lon : List K := []
  cos_lon : List K := []
  sin_lat : List K := []
  cos_lat : List K := []
  ni : Nat := 0
  nj : Nat := 0
  lon_min : ℚ := 0
  delta_lon : ℚ := 0
  lat_min : ℚ := 0
  delta_lat : ℚ := 0
  valid : Bool := false

section
variable {K : Type} [Field K] [LinearOrder K] (sin cos sqrt : K → K) (pi : K)

def lonlat_to_xyz (lon lat : K) : Vec3 K := ⟨cos lat * cos lon, cos lat * sin lon, sin lat⟩

section
local instance cache_degrees : Nat.AtLeastTwo 180 := inferInstance

local instance cache_ten : Nat.AtLeastTwo 10 := inferInstance

/-- `extract_cell_polygon_spherical` -/
def extract_cell_polygon_spherical (mesh : CoordinateMesh) (cell_idx : Nat) :
    Outcome Empty (List (Vec3 K)) := do
  let start ← load mesh.conn_offsets cell_idx
  let stop ← load mesh.conn_offsets (cell_idx + 1)
  (List.range' start (stop - start)).mapM fun i => do
    let ni ← load mesh.conn_indices i
    let (c0, c1) ← load mesh.node_coords ni
    match mesh.csys with
    | .SphericalDeg =>
      let deg2rad := pi / 180
      pure (lonlat_to_xyz sin cos ((c0 : K) * deg2rad) ((c1 : K) * deg2rad))
    | .SphericalRad => pure (lonlat_to_xyz sin cos (c0 : K) (c1 : K))
    | .Cartesian3D => do
      let z ← match mesh.z with
        | some column => load column ni
        | none => pure 0
      let len := sqrt ((c0 : K) * c0 + c1 * c1 + z * z)
      if len > 1 / 10 ^ 30 then pure ⟨c0 / len, c1 / len, z / len⟩ else pure ⟨0, 0, 1⟩

/-- `build_node_trig_cache` -/
def build_node_trig_cache (info : RegularGridInfo) : NodeTrigCache K :=
  if info.is_regular = false ∨ info.ni = 0 ∨ info.nj = 0 then {}
  else
    let deg2rad := pi / 180
    let lon_rad (i : Nat) : K := ((info.lon_min + i * info.delta_lon : ℚ) : K) * deg2rad
    let lat_rad (j : Nat) : K := ((info.lat_min + j * info.delta_lat : ℚ) : K) * deg2rad
    { sin_lon := (List.range (info.ni + 1)).map fun i => sin (lon_rad i)
      cos_lon := (List.range (info.ni + 1)).map fun i => cos (lon_rad i)
      sin_lat := (List.range (info.nj + 1)).map fun j => sin (lat_rad j)
      cos_lat := (List.range (info.nj + 1)).map fun j => cos (lat_rad j)
      ni := info.ni
      nj := info.nj
      lon_min := info.lon_min
      delta_lon := info.delta_lon
      lat_min := info.lat_min
      delta_lat := info.delta_lat
      valid := true }

end

/-- `lonlat_to_xyz_node_cached` -/
def lonlat_to_xyz_node_cached (cache : NodeTrigCache K) (lon_idx lat_idx : Nat) :
    Outcome Empty (Vec3 K) := do
  let cos_lat ← load cache.cos_lat lat_idx
  let cos_lon ← load cache.cos_lon lon_idx
  let sin_lon ← load cache.sin_lon lon_idx
  let sin_lat ← load cache.sin_lat lat_idx
  pure ⟨cos_lat * cos_lon, cos_lat * sin_lon, sin_lat⟩

/-- `extract_cell_polygon_spherical_cached` -/
def extract_cell_polygon_spherical_cached (cache : NodeTrigCache K) (cell_idx : Nat) :
    Outcome Empty (List (Vec3 K)) := do
  -- a remainder by zero
  if cache.ni = 0 then .undefined
  else
    let ci := cell_idx % cache.ni
    let cj := cell_idx / cache.ni
    let v0 ← lonlat_to_xyz_node_cached cache ci cj
    let v1 ← lonlat_to_xyz_node_cached cache (ci + 1) cj
    let v2 ← lonlat_to_xyz_node_cached cache (ci + 1) (cj + 1)
    let v3 ← lonlat_to_xyz_node_cached cache ci (cj + 1)
    pure [v0, v1, v2, v3]

end

namespace NodeTrigCache

/-! ## Section 2: The detected grid -/

/-- The corners of a cell of a detected grid, counter-clockwise from the south-west. -/
def grid_corners (info : RegularGridInfo) (c : Nat) : List (ℚ × ℚ) :=
  let ci := c % info.ni
  let cj := c / info.ni
  let node (i j : Nat) : ℚ × ℚ := (info.lon_min + i * info.delta_lon, info.lat_min + j * info.delta_lat)
  [node ci cj, node (ci + 1) cj, node (ci + 1) (cj + 1), node ci (cj + 1)]

/-- A node of a mesh is at a corner that is given in degrees. In radians only
    the origin can be. -/
def Denotes (csys : CoordinateSystem) (p q : ℚ × ℚ) : Prop :=
  match csys with
  | .SphericalDeg => SameDirection p q
  | .SphericalRad => p = (0, 0) ∧ SameDirection (0, 0) q
  | .Cartesian3D => False

/-- A cell lists its nodes counter-clockwise around the cell of the grid with
    the same index, from one of them on. -/
def FollowsGrid (mesh : CoordinateMesh) (info : RegularGridInfo) (c : Nat) : Prop :=
  ∃ r, List.Forall₂ (Denotes mesh.csys) ((mesh.cell_nodes c).rotate r) (grid_corners info c)

/-- The two polygons of a cell are the same, up to the first vertex. -/
def Agree (mesh : CoordinateMesh) (info : RegularGridInfo) (c : Nat) : Prop :=
  ∃ plain cached,
    extract_cell_polygon_spherical Real.sin Real.cos Real.sqrt Real.pi mesh c = .returned plain ∧
    extract_cell_polygon_spherical_cached
      (build_node_trig_cache Real.sin Real.cos Real.pi info) c = .returned cached ∧
    cached ~r plain

section
variable {fl : Rounding} {mesh : CoordinateMesh} {c : Nat}

theorem grid_of_detected (h : (detect_regular_grid fl mesh.toUnstructuredMesh).is_regular = true) :
    0 < (detect_regular_grid fl mesh.toUnstructuredMesh).ni ∧
      0 < (detect_regular_grid fl mesh.toUnstructuredMesh).nj ∧
      mesh.n_cells ≤ (detect_regular_grid fl mesh.toUnstructuredMesh).ni *
        (detect_regular_grid fl mesh.toUnstructuredMesh).nj ∧
      mesh.all_quads = true := by
  obtain ⟨lons, lats, hcoords⟩ := grid_coordinates_of_detected (.inr h)
  obtain ⟨_, _, hni, hnj, hcells⟩ := grid_coordinates_eq_some hcoords
  have hquads : mesh.all_quads = true := by
    unfold grid_coordinates at hcoords
    split at hcoords
    · cases hcoords
    split at hcoords
    · cases hcoords
    · next hall => simpa using hall
  have hle := Nat.mod_le ((lons.length - 1) * (lats.length - 1)) (2 ^ 64)
  unfold detect_regular_grid at h ⊢
  rw [hcoords] at h ⊢
  dsimp only at h ⊢
  split at h
  · cases h
  · next huniform =>
    rw [if_neg huniform]
    refine ⟨?_, ?_, ?_, hquads⟩
    · show 0 < lons.length - 1
      omega
    · show 0 < lats.length - 1
      omega
    · show mesh.n_cells ≤ (lons.length - 1) * (lats.length - 1)
      omega

/-! ## Section 3: The two polygons -/

/-- The point of the unit sphere that a node stands for. -/
noncomputable def point (csys : CoordinateSystem) (p : ℚ × ℚ) : Vec3 ℝ :=
  match csys with
  | .SphericalDeg => lonlat_to_xyz Real.sin Real.cos (rad p.1) (rad p.2)
  | _ => lonlat_to_xyz Real.sin Real.cos (p.1 : ℝ) (p.2 : ℝ)

theorem point_eq_iff (hcsys : mesh.csys ≠ .Cartesian3D) (p q : ℚ × ℚ) :
    point mesh.csys p = point .SphericalDeg q ↔ Denotes mesh.csys p q := by
  have hdirection : ∀ lon lat lon' lat' : ℝ,
      lonlat_to_xyz Real.sin Real.cos lon lat = lonlat_to_xyz Real.sin Real.cos lon' lat' ↔
        direction lon lat = direction lon' lat' := by
    intro lon lat lon' lat'
    unfold lonlat_to_xyz direction
    rw [Vec3.mk.injEq, Prod.mk.injEq, Prod.mk.injEq]
  unfold point Denotes
  cases hsys : mesh.csys with
  | SphericalDeg => exact (hdirection _ _ _ _).trans (direction_rad_eq_iff p q)
  | SphericalRad => exact (hdirection _ _ _ _).trans (direction_cast_eq_iff p q)
  | Cartesian3D => exact absurd hsys hcsys

/-- A loop over places that looks up a node at each of them. -/
theorem nodes_eq_returned_iff {α β : Type} {indices : List Nat} {nodes : List α} {f : α → β}
    {lo n : Nat} {out : List β} :
    ((List.range' lo n).mapM fun i => do
        let ni ← load indices i
        let p ← load nodes ni
        pure (f p)) = (.returned out : Outcome Empty _) ↔
      (((indices.drop lo).take n).filterMap (nodes[·]?)).length = n ∧
        out = (((indices.drop lo).take n).filterMap (nodes[·]?)).map f := by
  induction n generalizing lo out with
  | zero =>
    rw [List.take_zero]
    exact ⟨fun h => ⟨rfl, by cases h; rfl⟩, fun h => by rw [h.2]; rfl⟩
  | succ n ih =>
    have hle : ∀ l : List Nat, ((l.take n).filterMap (nodes[·]?)).length ≤ n := fun l =>
      (List.length_filterMap_le _ _).trans (List.length_take_le _ _)
    rw [List.range'_succ, List.mapM_cons]
    rcases Nat.lt_or_ge lo indices.length with hlt | hge
    · rw [load_of_some (List.getElem?_eq_getElem hlt), List.drop_eq_getElem_cons hlt,
        List.take_succ_cons, Outcome.returned_bind, List.filterMap_cons]
      rcases hnode : nodes[indices[lo]]? with _ | p
      · -- the index of a node that is not there
        have hload : load nodes indices[lo] = (.undefined : Outcome Empty α) := by
          unfold load
          rw [hnode]
        rw [hload]
        constructor
        · intro h
          cases h
        · rintro ⟨hlength, _⟩
          have hshort := hle (indices.drop (lo + 1))
          dsimp only at hlength
          omega
      · rw [load_of_some hnode, Outcome.returned_bind, Outcome.pure_eq, Outcome.returned_bind]
        dsimp only
        rw [List.length_cons, List.map_cons, Nat.add_right_cancel_iff, Outcome.bind_eq_returned]
        constructor
        · rintro ⟨rest, hrest, heq⟩
          obtain ⟨hlength, rfl⟩ := ih.mp hrest
          cases heq
          exact ⟨hlength, rfl⟩
        · rintro ⟨hlength, rfl⟩
          exact ⟨_, ih.mpr ⟨hlength, rfl⟩, rfl⟩
    · rw [load_of_length_le hge, List.drop_eq_nil_of_le hge]
      constructor
      · intro h
        cases h
      · rintro ⟨hlength, _⟩
        simp at hlength

theorem plain_eq_returned_iff (hcsys : mesh.csys ≠ .Cartesian3D)
    (hquads : mesh.all_quads = true) (hc : c < mesh.n_cells) {plain : List (Vec3 ℝ)} :
    extract_cell_polygon_spherical Real.sin Real.cos Real.sqrt Real.pi mesh c = .returned plain ↔
      (mesh.cell_nodes c).length = 4 ∧ plain = (mesh.cell_nodes c).map (point mesh.csys) := by
  have hlength : c + 1 < mesh.conn_offsets.length := by
    unfold UnstructuredMesh.n_cells at hc
    omega
  have hstart : mesh.conn_offsets[c]? = some mesh.conn_offsets[c] :=
    List.getElem?_eq_getElem (by omega)
  have hstop : mesh.conn_offsets[c + 1]? = some mesh.conn_offsets[c + 1] :=
    List.getElem?_eq_getElem hlength
  have hfour : mesh.conn_offsets[c + 1] - mesh.conn_offsets[c] = 4 := by
    have hquad := List.all_eq_true.mp hquads c (List.mem_range.mpr hc)
    rw [List.getD, List.getD, hstart, hstop, Option.getD_some, Option.getD_some,
      decide_eq_true_eq] at hquad
    omega
  have hnodes : mesh.cell_nodes c =
      ((mesh.conn_indices.drop mesh.conn_offsets[c]).take 4).filterMap (mesh.node_coords[·]?) := by
    unfold UnstructuredMesh.cell_nodes
    rw [hstart, hstop]
    dsimp only
    rw [hfour]
  rw [hnodes, ← nodes_eq_returned_iff]
  unfold extract_cell_polygon_spherical
  rw [load_of_some hstart, Outcome.returned_bind, load_of_some hstop, Outcome.returned_bind, hfour]
  apply Eq.congr_left
  congr 1
  funext i
  congr 1
  funext ni
  congr 1
  funext p
  unfold point
  cases hsys : mesh.csys with
  | SphericalDeg => rfl
  | SphericalRad => rfl
  | Cartesian3D => exact absurd hsys hcsys

theorem cached_eq_returned {info : RegularGridInfo} (hregular : info.is_regular = true)
    (hni : 0 < info.ni) (hnj : 0 < info.nj) (hc : c < info.ni * info.nj) :
    extract_cell_polygon_spherical_cached (build_node_trig_cache Real.sin Real.cos Real.pi info) c =
      .returned ((grid_corners info c).map (point .SphericalDeg)) := by
  have hnode : ∀ i ≤ info.ni, ∀ j ≤ info.nj,
      lonlat_to_xyz_node_cached (build_node_trig_cache Real.sin Real.cos Real.pi info) i j =
        .returned (point .SphericalDeg
          (info.lon_min + i * info.delta_lon, info.lat_min + j * info.delta_lat)) := by
    intro i hi j hj
    unfold lonlat_to_xyz_node_cached build_node_trig_cache
    rw [if_neg (by simp [hregular, hni.ne', hnj.ne'])]
    simp only [load_map_range (Nat.lt_succ_of_le hi), load_map_range (Nat.lt_succ_of_le hj),
      Outcome.returned_bind]
    rfl
  have hgrid : (build_node_trig_cache Real.sin Real.cos Real.pi info).ni = info.ni := by
    unfold build_node_trig_cache
    rw [if_neg (by simp [hregular, hni.ne', hnj.ne'])]
  have hci := Nat.mod_lt c hni
  have hcj := Nat.div_lt_of_lt_mul hc
  unfold extract_cell_polygon_spherical_cached
  rw [hgrid, if_neg hni.ne']
  dsimp only
  rw [hnode _ (by omega) _ (by omega), Outcome.returned_bind, hnode _ (by omega) _ (by omega),
    Outcome.returned_bind, hnode _ (by omega) _ (by omega), Outcome.returned_bind,
    hnode _ (by omega) _ (by omega), Outcome.returned_bind]
  rfl

theorem agree_iff (hcsys : mesh.csys ≠ .Cartesian3D)
    (h : (detect_regular_grid fl mesh.toUnstructuredMesh).is_regular = true)
    (hc : c < mesh.n_cells) :
    Agree mesh (detect_regular_grid fl mesh.toUnstructuredMesh) c ↔
      FollowsGrid mesh (detect_regular_grid fl mesh.toUnstructuredMesh) c := by
  obtain ⟨hni, hnj, hcells, hquads⟩ := grid_of_detected h
  set info := detect_regular_grid fl mesh.toUnstructuredMesh with hinfo
  have hcached := cached_eq_returned h hni hnj (hc.trans_le hcells)
  have hmatch : ∀ r, ((mesh.cell_nodes c).map (point mesh.csys)).rotate r =
      (grid_corners info c).map (point .SphericalDeg) ↔
        List.Forall₂ (Denotes mesh.csys) ((mesh.cell_nodes c).rotate r) (grid_corners info c) := by
    intro r
    rw [← List.map_rotate, ← List.forall₂_eq_eq_eq, List.forall₂_map_left_iff,
      List.forall₂_map_right_iff]
    simp only [point_eq_iff hcsys]
  unfold Agree FollowsGrid
  constructor
  · rintro ⟨plain, cached, hplain, hcached', hrotated⟩
    obtain ⟨_, rfl⟩ := (plain_eq_returned_iff hcsys hquads hc).mp hplain
    rw [hcached] at hcached'
    cases hcached'
    obtain ⟨r, hr⟩ := hrotated.symm
    exact ⟨r, (hmatch r).mp hr⟩
  · rintro ⟨r, hr⟩
    have hlength : (mesh.cell_nodes c).length = 4 := by
      have heq := hr.length_eq
      rwa [List.length_rotate] at heq
    exact ⟨_, _, (plain_eq_returned_iff hcsys hquads hc).mpr ⟨hlength, rfl⟩, hcached,
      List.IsRotated.symm ⟨r, (hmatch r).mpr hr⟩⟩

end

end NodeTrigCache

open NodeTrigCache

/-- **The cache and the mesh**: for every mesh that is detected as a regular
    grid, in degrees or in radians, the cached polygons are those of the mesh
    exactly when every cell follows the cell of the grid with its index. -/
theorem cached_polygons_iff (fl : Rounding) (mesh : CoordinateMesh)
    (hcsys : mesh.csys = .SphericalDeg ∨ mesh.csys = .SphericalRad)
    (h : (detect_regular_grid fl mesh.toUnstructuredMesh).is_regular = true) :
    (∀ c < mesh.n_cells, Agree mesh (detect_regular_grid fl mesh.toUnstructuredMesh) c) ↔
      ∀ c < mesh.n_cells, FollowsGrid mesh (detect_regular_grid fl mesh.toUnstructuredMesh) c := by
  have hspherical : mesh.csys ≠ .Cartesian3D := by
    intro heq
    rw [heq] at hcsys
    simp at hcsys
  exact forall₂_congr fun c hc => agree_iff hspherical h hc

/-- One quad, counter-clockwise from its south-west corner. -/
def one_quad (csys : CoordinateSystem) : CoordinateMesh where
  node_coords := [(0, 0), (1, 0), (1, 1), (0, 1)]
  conn_offsets := [0, 4]
  conn_indices := [0, 1, 2, 3]
  csys := csys
  z := none

theorem cached_polygons_one_quad :
    Agree (one_quad .SphericalDeg)
      (detect_regular_grid .exact (one_quad .SphericalDeg).toUnstructuredMesh) 0 := by
  refine (cached_polygons_iff .exact (one_quad .SphericalDeg) (.inl rfl) (by decide +kernel)).mpr
    ?_ 0 (by decide)
  intro c hc
  have hzero : c = 0 := by
    have hlt : c < 1 := hc
    omega
  have hcorners : grid_corners (detect_regular_grid .exact
      (one_quad .SphericalDeg).toUnstructuredMesh) 0 = [(0, 0), (1, 0), (1, 1), (0, 1)] := by
    decide +kernel
  rw [hzero]
  refine ⟨0, ?_⟩
  rw [hcorners, List.rotate_zero]
  exact List.forall₂_same.mpr fun p _ => SameDirection.refl p

theorem radians_not_cached :
    ¬∀ (fl : Rounding) (mesh : CoordinateMesh),
      mesh.csys = .SphericalDeg ∨ mesh.csys = .SphericalRad →
      (detect_regular_grid fl mesh.toUnstructuredMesh).is_regular = true →
      ∀ c < mesh.n_cells, Agree mesh (detect_regular_grid fl mesh.toUnstructuredMesh) c := by
  intro hall
  have hregular : (detect_regular_grid .exact
      (one_quad .SphericalRad).toUnstructuredMesh).is_regular = true := by decide +kernel
  have hagree := hall .exact (one_quad .SphericalRad) (.inr rfl) hregular 0 (by decide)
  obtain ⟨r, hr⟩ := (agree_iff (by decide) hregular (by decide)).mp hagree
  -- the nodes would all be the origin
  have horigin := ((List.forall₂_and_left _ _).mp hr).1 (1, 0)
    (List.mem_rotate.mpr (by simp [one_quad, UnstructuredMesh.cell_nodes]))
  simp at horigin

end Axis

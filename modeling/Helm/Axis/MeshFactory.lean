import Helm.Framework.Signed

/-! # Meshes from UGRID descriptors

  A producer fills a `GridDescriptor` with separate buffers. For UGRID,
  `MeshFactory::from_descriptor` looks at four of them and copies the buffers
  into an `UnstructuredMesh`, whose kernels index one array with values from
  another.

  `compute_areas` is modelled with all its reads: a read outside of an array has
  no result. Its arithmetic is that of any field with an order, and the library
  functions are arguments.
-/

namespace Axis.Ugrid

open Signed (Fits)

/-! ## Section 1: Descriptors and meshes -/

/-- `std::invalid_argument` -/
structure InvalidArgument where
  what : String
  deriving DecidableEq

/-- A view of a buffer of the producer. -/
structure Buffer (α : Type) where
  is_null : Bool
  elements : List α

/-- Null or empty -/
def Buffer.missing {α : Type} (b : Buffer α) : Bool := b.is_null || b.elements.isEmpty

/-- A two-dimensional array -/
structure Table (K : Type) where
  extent0 : Nat
  extent1 : Nat
  entry : Nat → Nat → K

inductive CoordinateSystem
  | SphericalDeg
  | SphericalRad
  | Cartesian3D
  deriving DecidableEq

/-- The fields of a descriptor that are read for UGRID. Indices are 64-bit
    integers. -/
structure GridDescriptor (K : Type) where
  coord_system : CoordinateSystem
  node_coords_null : Bool
  node_coords : Table K
  conn_offsets : Buffer Int
  conn_indices : Buffer Int
  cell_areas : Buffer K
  cell_mask : Buffer Int
  offsets_fit : ∀ x ∈ conn_offsets.elements, Fits 64 x

/-- `UnstructuredMesh` -/
structure UnstructuredMesh (K : Type) where
  node_coords : Table K
  conn_offsets : List Int
  conn_indices : List Int
  coord_sys : CoordinateSystem
  cell_areas : List K
  cell_mask : List Int

variable {K : Type}

/-- `validate_ugrid` -/
def validate_ugrid (desc : GridDescriptor K) : Except InvalidArgument Unit :=
  if desc.node_coords_null || desc.node_coords.extent0 == 0 then
    .error ⟨"MeshFactory::from_descriptor(UGRID): null/empty required buffer 'node_coords'"⟩
  else if desc.conn_offsets.missing then
    .error ⟨"MeshFactory::from_descriptor(UGRID): null/empty required buffer 'conn_offsets'"⟩
  else if desc.conn_indices.missing then
    .error ⟨"MeshFactory::from_descriptor(UGRID): null/empty required buffer 'conn_indices'"⟩
  else if desc.node_coords.extent1 < 2 then
    .error ⟨"MeshFactory::from_descriptor(UGRID): inconsistent buffer extents — " ++
      "node_coords.extent(1)=" ++ toString desc.node_coords.extent1 ++ " but ndim must be >= 2"⟩
  else .ok ()

/-- `build_from_ugrid` -/
def build_from_ugrid (desc : GridDescriptor K) : UnstructuredMesh K where
  node_coords := desc.node_coords
  conn_offsets := desc.conn_offsets.elements
  conn_indices := desc.conn_indices.elements
  coord_sys := desc.coord_system
  cell_areas := if desc.cell_areas.missing then [] else desc.cell_areas.elements
  cell_mask := if desc.cell_mask.missing then [] else desc.cell_mask.elements

/-- `MeshFactory::from_descriptor`, for UGRID -/
def from_descriptor (desc : GridDescriptor K) : Except InvalidArgument (UnstructuredMesh K) := do
  validate_ugrid desc
  pure (build_from_ugrid desc)

/-! ## Section 2: compute_areas -/

/-- An element of an array, if there is one. -/
def read {α : Type} (l : List α) (i : Int) : Option α := if 0 ≤ i then l[i.toNat]? else none

/-- An element of a table, if there is one. -/
def Table.read (t : Table K) (i : Int) (j : Nat) : Option K :=
  if 0 ≤ i ∧ i < t.extent0 ∧ j < t.extent1 then some (t.entry i.toNat j) else none

/-- `static_cast<int>` -/
def to_int (x : Int) : Int := Int.bmod x (2 ^ 32)

/-- The functions of the mathematical library -/
structure Libm (K : Type) where
  cos : K → K
  sin : K → K
  sqrt : K → K
  fabs : K → K
  atan2 : K → K → K
  PI : K
  DEG_TO_RAD : K

namespace UnstructuredMesh

def n_nodes (mesh : UnstructuredMesh K) : Nat := mesh.node_coords.extent0

def n_cells (mesh : UnstructuredMesh K) : Nat :=
  if 0 < mesh.conn_offsets.length then mesh.conn_offsets.length - 1 else 0

section Areas

variable [Field K] [LinearOrder K] (libm : Libm K) (mesh : UnstructuredMesh K)

/-- A point or a vector -/
abbrev Vec3 (K : Type) := K × K × K

def lonlat_to_xyz (lon lat : K) : Vec3 K :=
  let cos_lat := libm.cos lat
  (cos_lat * libm.cos lon, cos_lat * libm.sin lon, libm.sin lat)

def cross3 (a b : Vec3 K) : Vec3 K :=
  (a.2.1 * b.2.2 - a.2.2 * b.2.1, a.2.2 * b.1 - a.1 * b.2.2, a.1 * b.2.1 - a.2.1 * b.1)

def dot3 (a b : Vec3 K) : K := a.1 * b.1 + a.2.1 * b.2.1 + a.2.2 * b.2.2

def mag3 (a : Vec3 K) : K := libm.sqrt (a.1 * a.1 + a.2.1 * a.2.1 + a.2.2 * a.2.2)

def spherical_excess_triangle (a b c : Vec3 K) : K :=
  let num := libm.fabs (dot3 a (cross3 b c))
  let den := 1 + dot3 a b + dot3 a c + dot3 b c
  if den ≤ 0 then libm.PI else 2 * libm.atan2 num den

/-- The node that a place of the connectivity names. -/
def node_at (place : Int) : Option Int := read mesh.conn_indices place

/-- The cross product of two vertices of a Cartesian cell. -/
def edge_term (start nv i : Int) : Option (Vec3 K) := do
  let j := (i + 1) % nv
  let vi ← mesh.node_at (start + i)
  let vj ← mesh.node_at (start + j)
  let vix ← mesh.node_coords.read vi 0
  let viy ← mesh.node_coords.read vi 1
  let viz ← mesh.node_coords.read vi 2
  let vjx ← mesh.node_coords.read vj 0
  let vjy ← mesh.node_coords.read vj 1
  let vjz ← mesh.node_coords.read vj 2
  pure (cross3 (vix, viy, viz) (vjx, vjy, vjz))

/-- A vertex of a spherical cell on the unit sphere. -/
def vertex_at (place : Int) : Option (Vec3 K) := do
  let scale := if mesh.coord_sys = .SphericalDeg then libm.DEG_TO_RAD else 1
  let idx ← mesh.node_at place
  let lon ← mesh.node_coords.read idx 0
  let lat ← mesh.node_coords.read idx 1
  pure (lonlat_to_xyz libm (lon * scale) (lat * scale))

/-- The area of one cell. An overflow of `end - start` has no result either. -/
def cell_area (cell : Nat) : Option K := do
  let start ← read mesh.conn_offsets cell
  let stop ← read mesh.conn_offsets (cell + 1)
  if ¬ Fits 64 (stop - start) then none
  else
    let nv := to_int (stop - start)
    if nv < 3 then pure 0
    else if mesh.coord_sys = .Cartesian3D then do
      let terms ← (List.range nv.toNat).mapM fun i : Nat => mesh.edge_term start nv i
      let n := terms.foldl (fun n c => (n.1 + c.1, n.2.1 + c.2.1, n.2.2 + c.2.2)) (0, 0, 0)
      pure (1 / 2 * mag3 libm n)
    else do
      let v0 ← mesh.vertex_at libm start
      let excesses ← (List.range (nv.toNat - 2)).mapM fun k : Nat => do
        -- `i` goes from 1 to `nv - 2`
        let i : Int := k + 1
        let v1 ← mesh.vertex_at libm (start + i)
        let v2 ← mesh.vertex_at libm (start + i + 1)
        pure (spherical_excess_triangle libm v0 v1 v2)
      pure (excesses.foldl (· + ·) 0)

/-- `compute_areas`: the new areas, unless a read is outside of an array -/
def compute_areas : Option (UnstructuredMesh K) :=
  if mesh.n_cells = 0 then some mesh
  else do
    let areas ← (List.range (to_int mesh.n_cells).toNat).mapM fun cell : Nat =>
      mesh.cell_area libm cell
    -- the array is made with `n_cells` zeros
    pure { mesh with cell_areas := areas ++ List.replicate (mesh.n_cells - areas.length) 0 }

end Areas

end UnstructuredMesh

/-! ## Section 3: Valid meshes -/

/-- The coordinate columns that a coordinate system needs. -/
def columns : CoordinateSystem → Nat
  | .SphericalDeg => 2
  | .SphericalRad => 2
  | .Cartesian3D => 3

/-- The connectivity, the coordinates and the fields of the cells fit together. -/
structure UnstructuredMesh.Valid (mesh : UnstructuredMesh K) : Prop where
  starts : mesh.conn_offsets[0]? = some 0
  monotone : mesh.conn_offsets.Pairwise (· ≤ ·)
  ends : mesh.conn_offsets.getLast? = some (mesh.conn_indices.length : Int)
  nodes : ∀ x ∈ mesh.conn_indices, 0 ≤ x ∧ x < mesh.n_nodes
  areas : mesh.cell_areas = [] ∨ mesh.cell_areas.length = mesh.n_cells
  mask : mesh.cell_mask = [] ∨ mesh.cell_mask.length = mesh.n_cells
  coords : columns mesh.coord_sys ≤ mesh.node_coords.extent1

section
variable {mesh : UnstructuredMesh K} {α β : Type}

theorem isSome_mapM {l : List α} {f : α → Option β} (h : ∀ x ∈ l, (f x).isSome) :
    (l.mapM f).isSome := by
  induction l with
  | nil => rfl
  | cons x l ih =>
    obtain ⟨y, hy⟩ := Option.isSome_iff_exists.mp (h x List.mem_cons_self)
    obtain ⟨ys, hys⟩ := Option.isSome_iff_exists.mp (ih fun z hz => h z (List.mem_cons_of_mem _ hz))
    rw [List.mapM_cons, hy, hys]
    rfl

theorem read_eq_some {l : List α} {i : Int} (h : 0 ≤ i) (hlt : i < l.length) :
    ∃ x ∈ l, read l i = some x := by
  have hi : i.toNat < l.length := by omega
  refine ⟨l[i.toNat], List.getElem_mem hi, ?_⟩
  rw [read, if_pos h, List.getElem?_eq_getElem hi]

theorem to_int_le {x : Int} (h : 0 ≤ x) : to_int x ≤ x := by
  unfold to_int
  rw [Int.bmod_def]
  split <;> omega

namespace UnstructuredMesh.Valid

variable (h : mesh.Valid)
include h

theorem cell_range {cell : Nat} (hcell : cell < mesh.n_cells) :
    ∃ start stop : Int, read mesh.conn_offsets cell = some start ∧
      read mesh.conn_offsets (cell + 1) = some stop ∧
      0 ≤ start ∧ start ≤ stop ∧ stop ≤ mesh.conn_indices.length ∧ stop ∈ mesh.conn_offsets := by
  have hlength : cell + 1 < mesh.conn_offsets.length := by
    unfold n_cells at hcell
    split at hcell <;> omega
  have hmono := List.pairwise_iff_getElem.mp h.monotone
  have hzero : mesh.conn_offsets[0] = 0 := by
    have := h.starts
    rw [List.getElem?_eq_getElem (by omega)] at this
    exact Option.some.inj this
  have hlast : mesh.conn_offsets[mesh.conn_offsets.length - 1] = mesh.conn_indices.length := by
    have := h.ends
    rw [List.getLast?_eq_getElem?, List.getElem?_eq_getElem (by omega)] at this
    exact Option.some.inj this
  refine ⟨mesh.conn_offsets[cell], mesh.conn_offsets[cell + 1], ?_, ?_, ?_, ?_, ?_,
    List.getElem_mem hlength⟩
  · rw [read, if_pos (by omega), Int.toNat_natCast, List.getElem?_eq_getElem (by omega)]
  · have hplace : ((cell : Int) + 1).toNat = cell + 1 := by omega
    rw [read, if_pos (by omega), hplace, List.getElem?_eq_getElem hlength]
  · rcases Nat.eq_zero_or_pos cell with heq | hpos
    · subst heq
      exact hzero.ge
    · exact hzero.ge.trans (hmono 0 cell (by omega) (by omega) hpos)
  · exact hmono cell (cell + 1) (by omega) hlength (by omega)
  · by_cases heq : cell + 1 = mesh.conn_offsets.length - 1
    · simp only [heq]
      exact hlast.le
    · exact (hmono (cell + 1) _ hlength (by omega) (by omega)).trans hlast.le

theorem node_at_eq (place : Int) (hpos : 0 ≤ place) (hlt : place < mesh.conn_indices.length) :
    ∃ v, mesh.node_at place = some v ∧ ∀ j < columns mesh.coord_sys,
      ∃ x, mesh.node_coords.read v j = some x := by
  obtain ⟨v, hv, hread⟩ := read_eq_some hpos hlt
  obtain ⟨hlow, hhigh⟩ := h.nodes v hv
  refine ⟨v, hread, ?_⟩
  intro j hj
  refine ⟨_, if_pos ⟨hlow, hhigh, ?_⟩⟩
  exact Nat.lt_of_lt_of_le hj h.coords

variable [Field K] [LinearOrder K] (libm : Libm K)

omit [LinearOrder K] in
theorem isSome_vertex_at (place : Int) (hpos : 0 ≤ place)
    (hlt : place < mesh.conn_indices.length) : (mesh.vertex_at libm place).isSome := by
  obtain ⟨v, hv, hcoords⟩ := h.node_at_eq place hpos hlt
  have hcolumns : 2 ≤ columns mesh.coord_sys := by
    unfold columns
    split <;> omega
  obtain ⟨lon, hlon⟩ := hcoords 0 (by omega)
  obtain ⟨lat, hlat⟩ := hcoords 1 (by omega)
  simp [vertex_at, hv, hlon, hlat]

omit [LinearOrder K] in
theorem isSome_edge_term {start nv i : Int} (hcart : mesh.coord_sys = .Cartesian3D)
    (hstart : 0 ≤ start) (hend : start + nv ≤ mesh.conn_indices.length) (hi : 0 ≤ i) (hlt : i < nv) :
    (mesh.edge_term start nv i).isSome := by
  have hnext : 0 ≤ (i + 1) % nv ∧ (i + 1) % nv < nv :=
    ⟨Int.emod_nonneg _ (by omega), Int.emod_lt_of_pos _ (by omega)⟩
  have hcolumns : columns mesh.coord_sys = 3 := by rw [hcart, columns]
  obtain ⟨vi, hvi, hcoords⟩ := h.node_at_eq (start + i) (by omega) (by omega)
  obtain ⟨vj, hvj, hcoords'⟩ :=
    h.node_at_eq (start + (i + 1) % nv) (by omega) (by omega)
  rw [hcolumns] at hcoords hcoords'
  obtain ⟨x, hx⟩ := hcoords 0 (by omega)
  obtain ⟨y, hy⟩ := hcoords 1 (by omega)
  obtain ⟨z, hz⟩ := hcoords 2 (by omega)
  obtain ⟨x', hx'⟩ := hcoords' 0 (by omega)
  obtain ⟨y', hy'⟩ := hcoords' 1 (by omega)
  obtain ⟨z', hz'⟩ := hcoords' 2 (by omega)
  simp [edge_term, hvi, hvj, hx, hy, hz, hx', hy', hz']

/-- The area of a cell needs no value from outside of an array. -/
theorem isSome_cell_area (hfit : ∀ x ∈ mesh.conn_offsets, Fits 64 x) {cell : Nat}
    (hcell : cell < mesh.n_cells) : (mesh.cell_area libm cell).isSome := by
  obtain ⟨start, stop, hstart, hstop, hpos, hle, hend, hmem⟩ := h.cell_range hcell
  have hfits : Fits 64 (stop - start) := by
    have := hfit stop hmem
    unfold Fits at this ⊢
    omega
  have hcount := to_int_le (x := stop - start) (by omega)
  rw [cell_area, hstart, hstop]
  simp only [Option.bind_eq_bind, Option.bind_some]
  rw [if_neg (not_not.mpr hfits)]
  split
  · rfl
  · next hmany =>
    split
    · next hcart =>
      have hterms : ((List.range (to_int (stop - start)).toNat).mapM fun i : Nat =>
          mesh.edge_term start (to_int (stop - start)) i).isSome := by
        apply isSome_mapM
        intro i hi
        have hi := List.mem_range.mp hi
        exact h.isSome_edge_term hcart hpos (by omega) (by omega) (by omega)
      obtain ⟨terms, hterms⟩ := Option.isSome_iff_exists.mp hterms
      rw [hterms]
      rfl
    · have hfirst := h.isSome_vertex_at libm start (by omega) (by omega)
      obtain ⟨v0, hv0⟩ := Option.isSome_iff_exists.mp hfirst
      have hexcesses : ((List.range ((to_int (stop - start)).toNat - 2)).mapM fun k : Nat =>
          (mesh.vertex_at libm (start + ((k : Int) + 1))).bind fun v1 =>
            (mesh.vertex_at libm (start + ((k : Int) + 1) + 1)).bind fun v2 =>
              pure (spherical_excess_triangle libm v0 v1 v2)).isSome := by
        apply isSome_mapM
        intro k hk
        have hk := List.mem_range.mp hk
        have h1 := h.isSome_vertex_at libm (start + ((k : Int) + 1)) (by omega) (by omega)
        have h2 := h.isSome_vertex_at libm (start + ((k : Int) + 1) + 1) (by omega)
          (by omega)
        obtain ⟨v1, hv1⟩ := Option.isSome_iff_exists.mp h1
        obtain ⟨v2, hv2⟩ := Option.isSome_iff_exists.mp h2
        rw [hv1, hv2]
        rfl
      obtain ⟨excesses, hexcesses⟩ := Option.isSome_iff_exists.mp hexcesses
      rw [hv0]
      simp only [Option.bind_some]
      rw [hexcesses]
      rfl

/-- **`compute_areas` reads no array out of range.** -/
theorem isSome_compute_areas (hfit : ∀ x ∈ mesh.conn_offsets, Fits 64 x) :
    (mesh.compute_areas libm).isSome := by
  rw [compute_areas]
  split
  · rfl
  · have hareas : ((List.range (to_int mesh.n_cells).toNat).mapM fun cell : Nat =>
        mesh.cell_area libm cell).isSome := by
      apply isSome_mapM
      intro cell hcell
      have hcell := List.mem_range.mp hcell
      have hcount := to_int_le (x := mesh.n_cells) (by omega)
      exact h.isSome_cell_area libm hfit (by omega)
    obtain ⟨areas, hareas⟩ := Option.isSome_iff_exists.mp hareas
    rw [hareas]
    rfl

end UnstructuredMesh.Valid

end

/-! ## Section 4: The factory -/

/-- A required buffer is null or empty, or there are fewer than two coordinates. -/
def GridDescriptor.Rejected (desc : GridDescriptor K) : Prop :=
  (desc.node_coords_null = true ∨ desc.node_coords.extent0 = 0) ∨
    desc.conn_offsets.missing = true ∨ desc.conn_indices.missing = true ∨
    desc.node_coords.extent1 < 2

/-- The optional buffer has this many elements, if it is there. -/
def Buffer.HasExtent {α : Type} (b : Buffer α) (n : Nat) : Prop :=
  b.missing = true ∨ b.elements.length = n

/-- The buffers of the producer fit together. -/
structure GridDescriptor.Consistent (desc : GridDescriptor K) : Prop where
  first : desc.conn_offsets.elements[0]? = some 0
  monotone : desc.conn_offsets.elements.Pairwise (· ≤ ·)
  last : desc.conn_offsets.elements.getLast? = some (desc.conn_indices.elements.length : Int)
  nodes : ∀ x ∈ desc.conn_indices.elements, 0 ≤ x ∧ x < desc.node_coords.extent0
  areas : desc.cell_areas.HasExtent (desc.conn_offsets.elements.length - 1)
  mask : desc.cell_mask.HasExtent (desc.conn_offsets.elements.length - 1)
  coords : columns desc.coord_system ≤ desc.node_coords.extent1

section
variable {desc : GridDescriptor K}

theorem from_descriptor_eq : (desc.Rejected ∧ ∃ e, from_descriptor desc = .error e) ∨
    (¬ desc.Rejected ∧ from_descriptor desc = .ok (build_from_ugrid desc)) := by
  rw [from_descriptor, validate_ugrid, GridDescriptor.Rejected]
  by_cases hnodes : desc.node_coords_null = true ∨ desc.node_coords.extent0 = 0
  · have hmissing : (desc.node_coords_null || desc.node_coords.extent0 == 0) = true := by
      simpa using hnodes
    rw [if_pos hmissing]
    exact .inl ⟨.inl hnodes, _, rfl⟩
  · have hthere : ¬ (desc.node_coords_null || desc.node_coords.extent0 == 0) = true := by
      simpa using hnodes
    rw [if_neg hthere]
    by_cases hoffsets : desc.conn_offsets.missing = true
    · rw [if_pos hoffsets]
      exact .inl ⟨.inr (.inl hoffsets), _, rfl⟩
    · rw [if_neg hoffsets]
      by_cases hindices : desc.conn_indices.missing = true
      · rw [if_pos hindices]
        exact .inl ⟨.inr (.inr (.inl hindices)), _, rfl⟩
      · rw [if_neg hindices]
        by_cases hcolumns : desc.node_coords.extent1 < 2
        · rw [if_pos hcolumns]
          exact .inl ⟨.inr (.inr (.inr hcolumns)), _, rfl⟩
        · refine .inr ⟨?_, ?_⟩
          · intro h
            rcases h with h | h | h | h
            · exact hnodes h
            · exact hoffsets h
            · exact hindices h
            · exact hcolumns h
          · rw [if_neg hcolumns]
            rfl

theorem optional_field {α : Type} {b : Buffer α} {n : Nat} :
    ((if b.missing then [] else b.elements) = [] ∨
      (if b.missing then [] else b.elements).length = n) ↔ b.HasExtent n := by
  unfold Buffer.HasExtent
  by_cases hmissing : b.missing = true
  · simp [hmissing]
  · have hne : b.elements ≠ [] := by
      intro hnil
      simp [Buffer.missing, hnil] at hmissing
    simp [hmissing, hne]

theorem valid_iff : (build_from_ugrid desc).Valid ↔ desc.Consistent := by
  have hcells : (build_from_ugrid desc).n_cells = desc.conn_offsets.elements.length - 1 := by
    show (if 0 < desc.conn_offsets.elements.length then _ else 0) = _
    split
    · rfl
    · omega
  constructor
  · intro hvalid
    exact ⟨hvalid.starts, hvalid.monotone, hvalid.ends, hvalid.nodes,
      optional_field.mp (hcells ▸ hvalid.areas), optional_field.mp (hcells ▸ hvalid.mask),
      hvalid.coords⟩
  · intro hdesc
    exact ⟨hdesc.first, hdesc.monotone, hdesc.last, hdesc.nodes,
      hcells ▸ optional_field.mpr hdesc.areas, hcells ▸ optional_field.mpr hdesc.mask,
      hdesc.coords⟩

/-- **Inconsistent buffers are rejected only where one is missing.** The factory
    rejects a descriptor or returns a valid mesh, whose areas can be computed,
    exactly where a required buffer is missing or the buffers fit together. -/
theorem from_descriptor_valid_iff [Field K] [LinearOrder K] (libm : Libm K)
    (desc : GridDescriptor K) :
    ((∃ e, from_descriptor desc = .error e) ∨
        ∃ mesh, from_descriptor desc = .ok mesh ∧ mesh.Valid ∧ (mesh.compute_areas libm).isSome) ↔
      desc.Rejected ∨ desc.Consistent := by
  obtain ⟨hrejected, herror⟩ | ⟨hrejected, hok⟩ := @from_descriptor_eq K desc
  · exact iff_of_true (.inl herror) (.inl hrejected)
  · rw [hok]
    constructor
    · intro h
      rcases h with ⟨e, he⟩ | ⟨mesh, hmesh, hvalid, _⟩
      · cases he
      · cases hmesh
        exact .inr (valid_iff.mp hvalid)
    · intro h
      have hvalid := valid_iff.mpr (h.resolve_left hrejected)
      exact .inr ⟨_, rfl, hvalid, hvalid.isSome_compute_areas libm desc.offsets_fit⟩

end

theorem from_descriptor_takes_missing_node :
    ∃ mesh : UnstructuredMesh ℚ,
      from_descriptor ⟨.SphericalDeg, false, ⟨1, 2, fun _ _ => 0⟩, ⟨false, [0, 3]⟩,
          ⟨false, [0, 1, 5]⟩, ⟨true, []⟩, ⟨true, []⟩, by decide⟩ = .ok mesh ∧
        ¬ mesh.Valid ∧
        (mesh.compute_areas ⟨id, id, id, id, fun x _ => x, 3, 1⟩).isNone := by
  refine ⟨_, rfl, ?_, by decide +kernel⟩
  intro hvalid
  have hmem : (5 : Int) ∈ [(0 : Int), 1, 5] := by decide
  have hnode : (5 : Int) < ((1 : Nat) : Int) := (hvalid.nodes 5 hmem).2
  exact absurd hnode (by decide)

end Axis.Ugrid

import Helm.Axis.GradientReconstructor
import Helm.Axis.Conservation

/-! # AXIS: second-order conservative weights

  `generate_conservative_2nd_order` clips every source cell against the
  destination cells that its box touches. The area of an overlap is scaled by
  a correction: how far the centroid of the overlap is from that of the source
  cell, along the gradients of the three coordinates. The scaled areas of a
  destination cell are then normalised to the area that it shares with the
  source.

  The clippers and the search for boxes that touch are arguments, and so are
  the areas of the cells. Numbers are those of an ordered field, with any
  functions for sine and cosine. The neighbours of a cell are in the order of
  their numbers; the code has them in that of a hash map, and adds up over
  them.

  Main result: `second_order_conserves_iff`.
-/

namespace Axis.SecondOrder

open Signed ArrayLoops GradientReconstructor

/-! ## Section 1: Inputs -/

inductive LineType
  | Cartesian
  | GreatCircle
  deriving DecidableEq

inductive UnmappedAction
  | Error
  | Ignore
  deriving DecidableEq

/-- The fields of `RegridConfig` that are read. -/
structure RegridConfig where
  norm_type : NormType
  line_type : LineType
  unmapped : UnmappedAction
  use_limiter : Bool

/-- The source mesh: the coordinates of its nodes, the third of them zero where
    the mesh has two, and the nodes of every cell. -/
structure SourceMesh (K : Type) where
  n_nodes : Nat
  n_cells : Nat
  coords : Fin n_nodes → Vec3 K
  csys : CoordinateSystem
  cells : Fin n_cells → List (Fin n_nodes)

/-- A polygon of `SphericalClipper`, with its area. -/
structure SphericalPolygon (K : Type) where
  verts : List (Vec3 K)
  area : K

/-- The two meshes, with what the clippers find. -/
structure Meshes (K : Type) where
  src : SourceMesh K
  n_dst : Nat
  src_areas : Fin src.n_cells → K
  dst_areas : Fin n_dst → K
  /-- The source cells whose boxes touch that of a destination cell. -/
  values : Fin n_dst → List (Fin src.n_cells)
  clip : Fin n_dst → Fin src.n_cells → SphericalPolygon K
  compute_polygon_overlap_area : Fin n_dst → Fin src.n_cells → K

structure OverlapEntry (K : Type) (n_src n_dst : Nat) where
  row : Fin n_dst
  col : Fin n_src
  area : K
  offset : Vec3 K
  deriving DecidableEq

/-- An `InterpolationMatrix` of known size. -/
structure WeightMatrix (K : Type) (n_src n_dst : Nat) where
  entries : List (Entry K n_src n_dst)
  frac_a : Fin n_src → K
  frac_b : Fin n_dst → K
  area_a : Fin n_src → K
  area_b : Fin n_dst → K

def WeightMatrix.matrix {K : Type} {n_src n_dst : Nat} (M : WeightMatrix K n_src n_dst) :
    ConservativeMatrix K :=
  { n_src, n_dst, entries := M.entries, frac_a := M.frac_a, frac_b := M.frac_b,
    area_a := M.area_a, area_b := M.area_b }

/-! ## Section 2: The source mesh -/

variable {K : Type} [Field K] [LinearOrder K]

namespace SourceMesh

variable (mesh : SourceMesh K) (sin cos : K → K)

/-- A node on the unit sphere. -/
def position (ni : Fin mesh.n_nodes) : Vec3 K :=
  let c := mesh.coords ni
  match mesh.csys with
  | .SphericalDeg =>
    let lon := c.x * deg2rad
    let lat := c.y * deg2rad
    ⟨cos lat * cos lon, cos lat * sin lon, sin lat⟩
  | .SphericalRad => ⟨cos c.y * cos c.x, cos c.y * sin c.x, sin c.y⟩
  | .Cartesian3D => c

/-- `src_centroids` -/
def centroid (c : Fin mesh.n_cells) : Vec3 K :=
  let verts := (mesh.cells c).map (mesh.position sin cos)
  let inv := if 0 < verts.length then 1 / (verts.length : K) else 0
  ⟨(verts.map (·.x)).sum * inv, (verts.map (·.y)).sum * inv, (verts.map (·.z)).sum * inv⟩

/-- `neighbor_shared` -/
def neighbor_shared (c other : Fin mesh.n_cells) : Nat :=
  ((mesh.cells c).map fun ni => (mesh.cells other).count ni).sum

/-- The cells that share two nodes with a cell. -/
def adj (c : Fin mesh.n_cells) : List (Fin mesh.n_cells) :=
  (List.finRange mesh.n_cells).filter fun other => other ≠ c ∧ 2 ≤ mesh.neighbor_shared c other

end SourceMesh

namespace Meshes

variable (p : Meshes K) (sin cos : K → K) (config : RegridConfig)

/-! ## Section 3: Overlaps -/

/-- The average of the vertices of a polygon. -/
def vertex_average (verts : List (Vec3 K)) : Vec3 K :=
  let inv_n := 1 / (verts.length : K)
  ⟨(verts.map (·.x)).sum * inv_n, (verts.map (·.y)).sum * inv_n, (verts.map (·.z)).sum * inv_n⟩

/-- One source cell for one destination cell. -/
def overlap (j : Fin p.n_dst) (src_i : Fin p.src.n_cells) :
    Option (OverlapEntry K p.src.n_cells p.n_dst) :=
  if p.src_areas src_i ≤ 0 then none
  else
    match config.line_type with
    | .GreatCircle =>
      let overlap_poly := p.clip j src_i
      if overlap_poly.verts.length < 3 then none
      else if overlap_poly.area ≤ 0 then none
      else
        let c := vertex_average overlap_poly.verts
        let s := p.src.centroid sin cos src_i
        some ⟨j, src_i, overlap_poly.area, ⟨c.x - s.x, c.y - s.y, c.z - s.z⟩⟩
    | .Cartesian =>
      let overlap_area := p.compute_polygon_overlap_area j src_i
      if overlap_area ≤ 0 then none else some ⟨j, src_i, overlap_area, ⟨0, 0, 0⟩⟩

def unmapped_error (j : Fin p.n_dst) : String :=
  "WeightGenerator::generate_conservative_2nd_order: unmapped destination cell " ++
    toString j.val

/-- One iteration of the loop over the destination cells. -/
def cell_overlaps (j : Fin p.n_dst) : Outcome String (List (OverlapEntry K p.src.n_cells p.n_dst)) :=
  if p.dst_areas j ≤ 0 then
    if config.unmapped = .Error then .thrown (p.unmapped_error j) else .returned []
  else
    let found := (p.values j).filterMap (p.overlap sin cos config j)
    if found.isEmpty ∧ config.unmapped = .Error then .thrown (p.unmapped_error j)
    else .returned found

def overlap_entries : Outcome String (List (OverlapEntry K p.src.n_cells p.n_dst)) := do
  let found ← (List.finRange p.n_dst).mapM (p.cell_overlaps sin cos config)
  return found.flatten

/-! ## Section 4: Weights -/

/-- The correction of an overlap, by the gradients of the coordinates. -/
def corrections : Outcome String (OverlapEntry K p.src.n_cells p.n_dst → K) := do
  let centroids := p.src.centroid sin cos
  let gradient (a : Axis3) :=
    compute (fun i => a.of (centroids i)) centroids p.src.adj config.use_limiter
  let grad_x ← gradient .x
  let grad_y ← gradient .y
  let grad_z ← gradient .z
  return fun entry =>
    let i := entry.col
    let o := entry.offset
    let corr :=
      (grad_x i).x * o.x + (grad_x i).y * o.y + (grad_x i).z * o.z +
        (grad_y i).x * o.x + (grad_y i).y * o.y + (grad_y i).z * o.z +
        (grad_z i).x * o.x + (grad_z i).y * o.y + (grad_z i).z * o.z
    max (1 + corr) 0

section Pack

variable (found : List (OverlapEntry K p.src.n_cells p.n_dst))
  (corrections : OverlapEntry K p.src.n_cells p.n_dst → K)

def dst_total_weight : Fin p.n_dst → K :=
  accumulate found (fun _ => true) (·.row) (fun e => e.area * corrections e) (fun _ => 0)

def dst_raw_overlap : Fin p.n_dst → K :=
  accumulate found (fun _ => true) (·.row) (·.area) (fun _ => 0)

/-- `w_ij` -/
def weight (e : OverlapEntry K p.src.n_cells p.n_dst) : K :=
  let total_corrected := p.dst_total_weight found corrections e.row
  let total_raw := p.dst_raw_overlap found e.row
  let w_ij :=
    if 0 < total_corrected then
      let norm_corr := e.area * corrections e / total_corrected
      match config.norm_type with
      | .FracArea => norm_corr
      | .DstArea =>
        if 0 < p.dst_areas e.row then norm_corr * (total_raw / p.dst_areas e.row) else 0
    else 0
  max w_ij 0

def pack : WeightMatrix K p.src.n_cells p.n_dst where
  entries := found.map fun e => ⟨e.row, e.col, p.weight config found corrections e⟩
  frac_a := fun i => min (accumulate found (fun _ => true) (·.col)
    (fun e => e.area / p.src_areas e.col) (fun _ => 0) i) 1
  frac_b := fun j => min (accumulate found (fun _ => true) (·.row)
    (fun e => e.area / p.dst_areas e.row) (fun _ => 0) j) 1
  area_a := p.src_areas
  area_b := p.dst_areas

end Pack

def generate_conservative_2nd_order : Outcome String (WeightMatrix K p.src.n_cells p.n_dst) := do
  let found ← p.overlap_entries sin cos config
  let corrections ← p.corrections sin cos config
  return p.pack config found corrections

end Meshes

/-! ## Section 5: The promise -/

/-- What the elements with the target `i` add up to. -/
def received {ι κ : Type} [DecidableEq ι] (ks : List κ) (target : κ → ι) (w : κ → K) (i : ι) : K :=
  (ks.map fun k => if target k = i then w k else 0).sum

/-- The weights conserve the overlaps that were found. -/
structure Conserves (kk : Kokkos) {n_src n_dst : Nat} (M : WeightMatrix K n_src n_dst)
    (found : List (OverlapEntry K n_src n_dst)) : Prop where
  /-- A source cell gives away its overlaps. -/
  columns : ∀ i, received M.entries (·.col) (fun e => e.weight * M.area_b e.row) i =
    received found (·.col) (·.area) i
  /-- A destination cell has weights for its overlaps. -/
  rows : ∀ j, received M.entries (·.row) (·.weight) j =
    received found (·.row) (·.area) j / M.area_b j
  /-- The integral of the result is that of the covered part of the source. -/
  integrals : ∀ (src_field : Fin n_src → K) (dst_field : Fin n_dst → K),
    ∑ j, M.area_b j * M.matrix.apply kk src_field dst_field j =
      ∑ i, src_field i * received found (·.col) (·.area) i

namespace Meshes

variable (p : Meshes K) (sin cos : K → K) (config : RegridConfig)

/-- How an overlap is scaled: by the shift of its centroid, if its source cell
    has a gradient. -/
def factor (e : OverlapEntry K p.src.n_cells p.n_dst) : K :=
  if HasGradient (p.src.centroid sin cos) p.src.adj e.col then
    max (1 + (e.offset.x + e.offset.y + e.offset.z)) 0
  else 1

section Balance

variable (found : List (OverlapEntry K p.src.n_cells p.n_dst))

/-- The mean of the factors of a destination cell, weighted by area. -/
def mean_factor (j : Fin p.n_dst) : K :=
  received found (·.row) (fun e => e.area * p.factor sin cos e) j / received found (·.row) (·.area) j

/-- The factors leave every destination cell with an overlap, and for every
    source cell those above the mean of their destination make up for those
    below it. -/
structure Balanced : Prop where
  positive : ∀ e ∈ found, 0 < p.mean_factor sin cos found e.row
  balance : ∀ i, received found (·.col)
    (fun e => e.area * (p.factor sin cos e / p.mean_factor sin cos found e.row)) i =
      received found (·.col) (·.area) i

end Balance

end Meshes

/-! ## Section 6: Sums over overlaps -/

section Received

omit [LinearOrder K]

variable {ι κ : Type} [DecidableEq ι] {ks : List κ} {target : κ → ι}

theorem received_congr {w v : κ → K} {i : ι} (h : ∀ k ∈ ks, target k = i → w k = v k) :
    received ks target w i = received ks target v i := by
  apply congrArg List.sum
  apply List.map_congr_left
  intro k hk
  split
  · next hi => exact h k hk hi
  · rfl

theorem received_const_mul (c : K) (w : κ → K) (i : ι) :
    received ks target (fun k => c * w k) i = c * received ks target w i := by
  unfold received
  rw [← List.sum_map_mul_left]
  apply congrArg List.sum
  apply List.map_congr_left
  intro k _
  rw [mul_ite, mul_zero]

theorem received_of_none {w : κ → K} {i : ι} (h : ∀ k ∈ ks, target k ≠ i) :
    received ks target w i = 0 := by
  apply List.sum_eq_zero
  intro x hx
  obtain ⟨k, hk, rfl⟩ := List.mem_map.mp hx
  exact if_neg (h k hk)

theorem received_map {κ' : Type} (f : κ' → κ) (ks' : List κ') (w : κ → K) (i : ι) :
    received (ks'.map f) target w i = received ks' (fun k => target (f k)) (fun k => w (f k)) i := by
  unfold received
  rw [List.map_map]
  rfl

theorem accumulate_eq_received (w : κ → K) (i : ι) :
    accumulate ks (fun _ => true) target w (fun _ => 0) i = received ks target w i := by
  rw [accumulate_apply]
  simp only [true_and, zero_add]
  rfl

theorem received_nonneg [LinearOrder K] [IsStrictOrderedRing K] {w : κ → K} (h : ∀ k ∈ ks, 0 ≤ w k)
    (i : ι) : 0 ≤ received ks target w i := by
  apply List.sum_nonneg
  intro x hx
  obtain ⟨k, hk, rfl⟩ := List.mem_map.mp hx
  split
  · exact h k hk
  · exact le_rfl

theorem received_pos [LinearOrder K] [IsStrictOrderedRing K] {w : κ → K} {k : κ} (hk : k ∈ ks)
    (hpos : 0 < w k) (hnonneg : ∀ k ∈ ks, 0 ≤ w k) : 0 < received ks target w (target k) := by
  obtain ⟨pre, post, rfl⟩ := List.append_of_mem hk
  have hpre : 0 ≤ received pre target w (target k) :=
    received_nonneg (fun k' hk' => hnonneg k' (List.mem_append_left _ hk')) _
  have hpost : 0 ≤ received post target w (target k) :=
    received_nonneg (fun k' hk' => hnonneg k' (List.mem_append_right _ (List.mem_cons_of_mem k hk'))) _
  have hsplit : received (pre ++ k :: post) target w (target k) =
      received pre target w (target k) + (w k + received post target w (target k)) := by
    simp [received]
  rw [hsplit]
  exact add_pos_of_nonneg_of_pos hpre (add_pos_of_pos_of_nonneg hpos hpost)

end Received

/-! ## Section 7: What the generator computes -/

namespace Meshes

variable [IsStrictOrderedRing K] {p : Meshes K} {sin cos : K → K} {config : RegridConfig}
  {found : List (OverlapEntry K p.src.n_cells p.n_dst)}

omit [IsStrictOrderedRing K] in
theorem overlap_pos {j : Fin p.n_dst} {i : Fin p.src.n_cells}
    {e : OverlapEntry K p.src.n_cells p.n_dst} (h : p.overlap sin cos config j i = some e) :
    e.row = j ∧ 0 < e.area := by
  unfold overlap at h
  split at h
  · cases h
  · split at h
    · dsimp only at h
      split at h
      · cases h
      · split at h
        · cases h
        · next harea =>
          cases h
          exact ⟨rfl, not_le.mp harea⟩
    · dsimp only at h
      split at h
      · cases h
      · next harea =>
        cases h
        exact ⟨rfl, not_le.mp harea⟩

omit [IsStrictOrderedRing K] in
theorem overlap_of_mem (hfound : p.overlap_entries sin cos config = .returned found) :
    ∀ e ∈ found, 0 < p.dst_areas e.row ∧ ∃ i, p.overlap sin cos config e.row i = some e := by
  intro e he
  obtain ⟨lists, hlists, hflat⟩ := Outcome.bind_eq_returned.mp hfound
  cases hflat
  obtain ⟨l, hl, he⟩ := List.mem_flatten.mp he
  obtain ⟨j, _, hcell⟩ := (Outcome.mem_of_mapM hlists).mp hl
  unfold cell_overlaps at hcell
  split at hcell
  · split at hcell
    · cases hcell
    · cases hcell
      exact absurd he List.not_mem_nil
  · next harea =>
    dsimp only at hcell
    split at hcell
    · cases hcell
    · cases hcell
      obtain ⟨i, _, hi⟩ := List.mem_filterMap.mp he
      rw [(overlap_pos hi).1]
      exact ⟨not_le.mp harea, i, hi⟩

omit [IsStrictOrderedRing K] in
theorem pos_of_mem (hfound : p.overlap_entries sin cos config = .returned found) :
    ∀ e ∈ found, 0 < e.area ∧ 0 < p.dst_areas e.row := by
  intro e he
  obtain ⟨hdst, i, hi⟩ := overlap_of_mem hfound e he
  exact ⟨(overlap_pos hi).2, hdst⟩

omit [IsStrictOrderedRing K] in
theorem offset_of_cartesian (hline : config.line_type = .Cartesian)
    (hfound : p.overlap_entries sin cos config = .returned found) :
    ∀ e ∈ found, e.offset = ⟨0, 0, 0⟩ := by
  intro e he
  obtain ⟨_, i, hi⟩ := overlap_of_mem hfound e he
  unfold overlap at hi
  rw [hline] at hi
  split at hi
  · cases hi
  · dsimp only at hi
    split at hi
    · cases hi
    · rw [← Option.some_inj.mp hi]

theorem corrections_eq {corr : OverlapEntry K p.src.n_cells p.n_dst → K}
    (h : p.corrections sin cos config = .returned corr) : corr = p.factor sin cos := by
  obtain ⟨grad_x, hx, h⟩ := Outcome.bind_eq_returned.mp h
  obtain ⟨grad_y, hy, h⟩ := Outcome.bind_eq_returned.mp h
  obtain ⟨grad_z, hz, h⟩ := Outcome.bind_eq_returned.mp h
  have hcorr := Outcome.returned.inj h
  funext e
  rw [← hcorr]
  dsimp only
  rw [compute_coordinate _ _ .x hx, compute_coordinate _ _ .y hy, compute_coordinate _ _ .z hz, factor]
  by_cases hgrad : HasGradient (p.src.centroid sin cos) p.src.adj e.col
  · rw [if_pos hgrad, if_pos hgrad, if_pos hgrad, if_pos hgrad]
    apply congrArg (max · 0)
    simp only [Axis3.unit]
    ring
  · rw [if_neg hgrad, if_neg hgrad, if_neg hgrad, if_neg hgrad]
    simp

omit [IsStrictOrderedRing K] in
theorem corrections_returned (h : ¬ Segments.to_int p.src.n_cells < 0) :
    ∃ corr, p.corrections sin cos config = .returned corr := by
  have hcompute : ∀ a : Axis3, ∃ grad, compute (fun i => a.of (p.src.centroid sin cos i))
      (p.src.centroid sin cos) p.src.adj config.use_limiter = .returned grad := by
    intro a
    rw [compute, if_neg h]
    exact ⟨_, rfl⟩
  obtain ⟨grad_x, hx⟩ := hcompute .x
  obtain ⟨grad_y, hy⟩ := hcompute .y
  obtain ⟨grad_z, hz⟩ := hcompute .z
  rw [corrections]
  dsimp only
  rw [hx, Outcome.returned_bind, hy, Outcome.returned_bind, hz, Outcome.returned_bind]
  exact ⟨_, rfl⟩

theorem generate_of_overlaps (hn : ¬ Segments.to_int p.src.n_cells < 0)
    (hfound : p.overlap_entries sin cos config = .returned found) :
    p.generate_conservative_2nd_order sin cos config =
      .returned (p.pack config found (p.factor sin cos)) := by
  obtain ⟨corr, hcorr⟩ := @corrections_returned _ _ _ p sin cos config hn
  rw [generate_conservative_2nd_order, hfound, Outcome.returned_bind, hcorr, Outcome.returned_bind,
    corrections_eq hcorr]
  rfl

theorem factor_nonneg (e : OverlapEntry K p.src.n_cells p.n_dst) : 0 ≤ p.factor sin cos e := by
  unfold factor
  split
  · exact le_max_right _ _
  · exact zero_le_one

section Weights

variable (hpos : ∀ e ∈ found, 0 < e.area ∧ 0 < p.dst_areas e.row)

include hpos

theorem raw_pos {e : OverlapEntry K p.src.n_cells p.n_dst} (he : e ∈ found) :
    0 < received found (·.row) (·.area) e.row :=
  received_pos he (hpos e he).1 fun k hk => (hpos k hk).1.le

theorem mean_factor_pos {e : OverlapEntry K p.src.n_cells p.n_dst} (he : e ∈ found) :
    0 < p.mean_factor sin cos found e.row ↔
      0 < received found (·.row) (fun e => e.area * p.factor sin cos e) e.row :=
  div_pos_iff_of_pos_right (raw_pos hpos he)

theorem weight_eq (hnorm : config.norm_type = .DstArea)
    {e : OverlapEntry K p.src.n_cells p.n_dst} (he : e ∈ found) :
    p.weight config found (p.factor sin cos) e =
      if 0 < p.mean_factor sin cos found e.row then
        e.area * (p.factor sin cos e / p.mean_factor sin cos found e.row) / p.dst_areas e.row
      else 0 := by
  obtain ⟨harea, hdst⟩ := hpos e he
  have hraw := raw_pos hpos he
  unfold weight dst_total_weight dst_raw_overlap
  rw [accumulate_eq_received, accumulate_eq_received]
  dsimp only
  rw [hnorm]
  by_cases hmean : 0 < p.mean_factor sin cos found e.row
  · have htotal := (mean_factor_pos hpos he).mp hmean
    rw [if_pos htotal, if_pos hmean, if_pos hdst]
    have hnonneg : 0 ≤ e.area * p.factor sin cos e := mul_nonneg harea.le (factor_nonneg e)
    rw [max_eq_left (mul_nonneg (div_nonneg hnonneg htotal.le) (div_nonneg hraw.le hdst.le))]
    rw [mean_factor]
    field_simp
  · rw [if_neg (mt (mean_factor_pos hpos he).mpr hmean), if_neg hmean, max_self]

theorem row_sum (hnorm : config.norm_type = .DstArea)
    {e : OverlapEntry K p.src.n_cells p.n_dst} (he : e ∈ found)
    (hmean : 0 < p.mean_factor sin cos found e.row) :
    received found (·.row) (p.weight config found (p.factor sin cos)) e.row =
      received found (·.row) (·.area) e.row / p.dst_areas e.row := by
  have htotal := (mean_factor_pos hpos he).mp hmean
  have hraw := raw_pos hpos he
  have hweights : received found (·.row) (p.weight config found (p.factor sin cos)) e.row =
      received found (·.row) (fun k => 1 / (p.mean_factor sin cos found e.row * p.dst_areas e.row) *
        (k.area * p.factor sin cos k)) e.row := by
    apply received_congr
    intro k hk hrow
    rw [weight_eq hpos hnorm hk, hrow, if_pos hmean]
    have hdst := (hpos e he).2
    field_simp
  rw [hweights, received_const_mul, mean_factor]
  have hdst := (hpos e he).2
  field_simp

end Weights

omit [LinearOrder K] [IsStrictOrderedRing K] in
theorem integral_eq (kk : Kokkos) {n_src n_dst : Nat} {M : WeightMatrix K n_src n_dst}
    {found : List (OverlapEntry K n_src n_dst)}
    (hcolumns : ∀ i, received M.entries (·.col) (fun e => e.weight * M.area_b e.row) i =
      received found (·.col) (·.area) i) (src_field : Fin n_src → K) (dst_field : Fin n_dst → K) :
    ∑ j, M.area_b j * M.matrix.apply kk src_field dst_field j =
      ∑ i, src_field i * received found (·.col) (·.area) i := by
  have happly : ∀ j, M.matrix.apply kk src_field dst_field j =
      received M.entries (·.row) (fun e => e.weight * src_field e.col) j :=
    fun j => apply_eq src_field dst_field j
  calc ∑ j, M.area_b j * M.matrix.apply kk src_field dst_field j
      = ∑ j, M.area_b j * received M.entries (·.row) (fun e => e.weight * src_field e.col) j :=
        Finset.sum_congr rfl fun j _ => congrArg (M.area_b j * ·) (happly j)
    _ = (M.entries.map fun e => M.area_b e.row * (e.weight * src_field e.col)).sum :=
        sum_mul_received _ _ _ _
    _ = (M.entries.map fun e => src_field e.col * (e.weight * M.area_b e.row)).sum := by
        apply congrArg List.sum
        apply List.map_congr_left
        intro e _
        ring
    _ = ∑ i, src_field i * received M.entries (·.col) (fun e => e.weight * M.area_b e.row) i :=
        (sum_mul_received _ _ _ _).symm
    _ = ∑ i, src_field i * received found (·.col) (·.area) i :=
        Finset.sum_congr rfl fun i _ => congrArg (src_field i * ·) (hcolumns i)

/-- The promise of the generator, for the overlaps that it found. -/
theorem conserves_iff_of_pos (kk : Kokkos) (hnorm : config.norm_type = .DstArea)
    (hpos : ∀ e ∈ found, 0 < e.area ∧ 0 < p.dst_areas e.row) :
    Conserves kk (p.pack config found (p.factor sin cos)) found ↔ p.Balanced sin cos found := by
  have hcolumn : (∀ e ∈ found, 0 < p.mean_factor sin cos found e.row) → ∀ i,
      received (p.pack config found (p.factor sin cos)).entries (·.col)
        (fun e => e.weight * (p.pack config found (p.factor sin cos)).area_b e.row) i =
      received found (·.col)
        (fun e => e.area * (p.factor sin cos e / p.mean_factor sin cos found e.row)) i := by
    intro hmean i
    rw [pack, received_map]
    apply received_congr
    intro e he _
    dsimp only
    rw [weight_eq hpos hnorm he, if_pos (hmean e he)]
    exact div_mul_cancel₀ _ (hpos e he).2.ne'
  constructor
  · intro hc
    have hmean : ∀ e ∈ found, 0 < p.mean_factor sin cos found e.row := by
      intro e he
      by_contra hnot
      -- without a positive factor the whole row is zero
      have hrow := hc.rows e.row
      rw [pack, received_map] at hrow
      have hzero : received found (·.row) (p.weight config found (p.factor sin cos)) e.row = 0 := by
        rw [received_congr (v := fun k => 0 * k.area), received_const_mul, zero_mul]
        intro k hk hsame
        rw [weight_eq hpos hnorm hk, hsame, if_neg hnot, zero_mul]
      dsimp only at hrow
      rw [hzero] at hrow
      exact absurd hrow (div_pos (raw_pos hpos he) (hpos e he).2).ne
    refine ⟨hmean, ?_⟩
    intro i
    rw [← hcolumn hmean i]
    exact hc.columns i
  · intro hb
    have hcolumns : ∀ i, received (p.pack config found (p.factor sin cos)).entries (·.col)
        (fun e => e.weight * (p.pack config found (p.factor sin cos)).area_b e.row) i =
          received found (·.col) (·.area) i := by
      intro i
      rw [hcolumn hb.positive i]
      exact hb.balance i
    refine ⟨hcolumns, ?_, ?_⟩
    · intro j
      rw [pack, received_map]
      dsimp only
      by_cases hj : ∃ e ∈ found, e.row = j
      · obtain ⟨e, he, rfl⟩ := hj
        exact row_sum hpos hnorm he (hb.positive e he)
      · -- a cell without overlaps has no weights
        have hnone : ∀ e ∈ found, e.row ≠ j := fun e he hrow => hj ⟨e, he, hrow⟩
        rw [received_of_none hnone, received_of_none hnone, zero_div]
    · exact integral_eq kk hcolumns

end Meshes

/-! ## Section 8: Main result -/

theorem balanced_of_cartesian [IsStrictOrderedRing K] {p : Meshes K} {sin cos : K → K}
    {config : RegridConfig} {found : List (OverlapEntry K p.src.n_cells p.n_dst)}
    (hline : config.line_type = .Cartesian)
    (hfound : p.overlap_entries sin cos config = .returned found) :
    p.Balanced sin cos found := by
  have hpos := Meshes.pos_of_mem hfound
  have hfactor : ∀ e ∈ found, p.factor sin cos e = 1 := by
    intro e he
    rw [Meshes.factor, Meshes.offset_of_cartesian hline hfound e he]
    split
    · simp
    · rfl
  have hmean : ∀ e ∈ found, p.mean_factor sin cos found e.row = 1 := by
    intro e he
    rw [Meshes.mean_factor, received_congr (v := (·.area)), div_self (Meshes.raw_pos hpos he).ne']
    intro k hk _
    rw [hfactor k hk, mul_one]
  constructor
  · intro e he
    rw [hmean e he]
    exact zero_lt_one
  · intro i
    apply received_congr
    intro e he _
    rw [hfactor e he, hmean e he, div_one, mul_one]

/-- The octahedron on the unit sphere, and the first octant turned about the
    third axis. The clipped triangles have their corners on the sphere; areas are
    in octants, to two digits. -/
def octants : Meshes ℚ where
  src :=
    { n_nodes := 6, n_cells := 8
      coords := fun n => [⟨1, 0, 0⟩, ⟨-1, 0, 0⟩, ⟨0, 1, 0⟩, ⟨0, -1, 0⟩, ⟨0, 0, 1⟩, ⟨0, 0, -1⟩].get n
      csys := .Cartesian3D
      cells := fun c =>
        [[0, 2, 4], [2, 1, 4], [1, 3, 4], [3, 0, 4],
          [2, 0, 5], [1, 2, 5], [3, 1, 5], [0, 3, 5]].get c }
  n_dst := 1
  src_areas := fun _ => 1
  dst_areas := fun _ => 1
  values := fun _ => [0, 1]
  clip := fun _ i =>
    if i = 0 then ⟨[⟨0, 0, 1⟩, ⟨3 / 5, 4 / 5, 0⟩, ⟨0, 1, 0⟩], 41 / 100⟩
    else ⟨[⟨0, 0, 1⟩, ⟨0, 1, 0⟩, ⟨-4 / 5, 3 / 5, 0⟩], 59 / 100⟩
  compute_polygon_overlap_area := fun _ i => if i = 0 then 41 / 100 else 59 / 100

def config_of (line_type : LineType) : RegridConfig :=
  { norm_type := .DstArea, line_type, unmapped := .Error, use_limiter := false }

def no_trig (_ : ℚ) : ℚ := 0

/-- The overlaps, with the shifts of their centroids. -/
def octant_overlaps : List (OverlapEntry ℚ 8 1) :=
  [⟨0, 0, 41 / 100, ⟨-2 / 15, 4 / 15, 0⟩⟩, ⟨0, 1, 59 / 100, ⟨1 / 15, 1 / 5, 0⟩⟩]

theorem octants_overlap_entries :
    octants.overlap_entries no_trig no_trig (config_of .GreatCircle) = .returned octant_overlaps := by
  decide +kernel

end Axis.SecondOrder

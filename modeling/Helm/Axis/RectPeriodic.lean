import Helm.Axis.RectOverlaps

/-! # AXIS: sources that go round

  Both conservative paths for grids repeat a source whose span is above a
  threshold. The uniform path counts its columns on to both sides; the other
  one counts them on to the east, and looks at two columns behind the seam.
  Before, a destination cell is moved by whole turns of 360.

  The paths are compared with the source repeated with its span as the period
  (`FindsImages`): each destination cell meets the images of each source
  cell. A column that is counted on, `m * ni + i`, is the image `m` of column
  `i` (`unroll`).
-/

namespace Axis

open Signed Segments ArrayLoops

/-! ## Section 1: Images -/

section Images

variable {K D S : Type} {n_src n_dst : Nat}

/-- **The source repeated.** A list of overlaps has one for each destination
    cell, source cell and image of it that are to be found. -/
def FindsImages (row : D → Fin n_dst) (col : S → Fin n_src) (area : D → S → Int → K)
    (overlapping : D → S → Int → Bool) (found : List (Overlap K n_src n_dst)) : Prop :=
  ∃ visited : List (D × S × Int), visited.Nodup ∧
    (∀ d s m, (d, s, m) ∈ visited ↔ overlapping d s m = true) ∧
    found = visited.map fun v => ⟨row v.1, col v.2.1, area v.1 v.2.1 v.2.2⟩

theorem FindsImages.mem_iff {row : D → Fin n_dst} {col : S → Fin n_src} {area : D → S → Int → K}
    {overlapping : D → S → Int → Bool} {found : List (Overlap K n_src n_dst)}
    (h : FindsImages row col area overlapping found) {o : Overlap K n_src n_dst} :
    o ∈ found ↔ ∃ d s m, overlapping d s m = true ∧ o = ⟨row d, col s, area d s m⟩ := by
  obtain ⟨visited, -, hmem, hfound⟩ := h
  rw [hfound, List.mem_map]
  constructor
  · intro ⟨⟨d, s, m⟩, hv, heq⟩
    exact ⟨d, s, m, (hmem d s m).mp hv, heq.symm⟩
  · intro ⟨d, s, m, hoverlap, heq⟩
    exact ⟨(d, s, m), (hmem d s m).mpr hoverlap, heq.symm⟩

variable {ni nj : Nat}

/-- The column of the source that column `k` is an image of. -/
def unroll (hni : 0 < ni) (k : Int) : Fin ni :=
  ⟨(k % ni).toNat, by
    have hlt := Int.emod_lt_of_pos k (Int.natCast_pos.mpr hni)
    omega⟩

theorem unroll_val (hni : 0 < ni) (k : Int) : ((unroll hni k : Nat) : Int) = k % ni :=
  Int.toNat_of_nonneg (Int.emod_nonneg k (Int.natCast_ne_zero.mpr hni.ne'))

theorem unroll_image (hni : 0 < ni) (m : Int) (i : Fin ni) :
    unroll hni (m * ni + i) = i ∧ (m * ni + (i : Nat)) / ni = m := by
  have hpos : (0 : Int) < ni := Int.natCast_pos.mpr hni
  have hi : (((i : Nat) : Int)) < ni := Int.ofNat_lt.mpr i.isLt
  have hnonneg : (0 : Int) ≤ (i : Nat) := Int.natCast_nonneg _
  constructor
  · apply Fin.ext
    have hval := unroll_val hni (m * ni + i)
    rw [Int.add_comm, Int.add_mul_emod_self_right, Int.emod_eq_of_lt hnonneg hi] at hval
    exact Int.ofNat_inj.mp (by rw [Int.add_comm]; exact hval)
  · rw [Int.add_comm, Int.add_mul_ediv_right _ _ hpos.ne', Int.ediv_eq_zero_of_lt hnonneg hi,
      Int.zero_add]

theorem div_mul_add_unroll (hni : 0 < ni) (k : Int) : k / ni * ni + (unroll hni k : Nat) = k := by
  rw [unroll_val, Int.mul_comm]
  exact Int.mul_ediv_add_emod k ni

/-- **Columns counted on** find the images, if the ranges leave none out. -/
theorem finds_of_unrolled (hni : 0 < ni) {ds : List D} (hds : ds.Nodup) {lo hi t : D → Int}
    {row : D → Fin n_dst} {col : Fin nj × Fin ni → Fin n_src}
    {area : D → Fin nj × Fin ni → Int → K} {overlapping : D → Fin nj × Fin ni → Int → Bool}
    (hcover : ∀ d s m, overlapping d s m = true →
      d ∈ ds ∧ lo d ≤ (m - t d) * ni + (s.2 : Nat) ∧ (m - t d) * ni + (s.2 : Nat) ≤ hi d) :
    FindsImages row col area overlapping (ds.flatMap fun d =>
      (((List.finRange nj).product (int_range (lo d) (hi d))).filter fun s =>
        overlapping d (s.1, unroll hni s.2) (s.2 / ni + t d)).map fun s =>
          ⟨row d, col (s.1, unroll hni s.2), area d (s.1, unroll hni s.2) (s.2 / ni + t d)⟩) := by
  refine ⟨ds.flatMap fun d => (((List.finRange nj).product (int_range (lo d) (hi d))).filter
    fun s => overlapping d (s.1, unroll hni s.2) (s.2 / ni + t d)).map fun s =>
      (d, (s.1, unroll hni s.2), s.2 / ni + t d), ?_, ?_, ?_⟩
  · rw [List.nodup_flatMap]
    constructor
    · intro d _
      have hrange : (int_range (lo d) (hi d)).Nodup := by
        rw [int_range]
        exact List.nodup_range.map fun a b hab => by omega
      apply (((List.nodup_finRange _).product hrange).filter _).map
      rintro ⟨j, k⟩ ⟨j', k'⟩ heq
      simp only [Prod.mk.injEq, true_and] at heq
      obtain ⟨⟨hj, hcol⟩, himage⟩ := heq
      -- an image and a column of it are one number
      have hk := div_mul_add_unroll hni k
      have hk' := div_mul_add_unroll hni k'
      rw [hcol, add_right_cancel himage, hk'] at hk
      rw [hj, hk]
    · apply hds.imp
      intro d d' hne
      show List.Disjoint _ _
      intro x hx hx'
      obtain ⟨s, -, hs⟩ := List.mem_map.mp hx
      obtain ⟨s', -, hs'⟩ := List.mem_map.mp hx'
      exact hne (Prod.mk.inj (hs.trans hs'.symm)).1
  · intro d s m
    rw [List.mem_flatMap]
    constructor
    · rintro ⟨d', _, hmem⟩
      obtain ⟨s', hs', heq⟩ := List.mem_map.mp hmem
      cases heq
      exact (List.mem_filter.mp hs').2
    · intro hoverlap
      obtain ⟨hd, hlo, hhi⟩ := hcover d s m hoverlap
      obtain ⟨hcol, himage⟩ := unroll_image hni (m - t d) s.2
      refine ⟨d, hd, List.mem_map.mpr ⟨(s.1, (m - t d) * ni + (s.2 : Nat)), ?_, ?_⟩⟩
      · rw [List.mem_filter]
        constructor
        · exact List.pair_mem_product.mpr
            ⟨List.mem_finRange _, RectMeshes.mem_int_range.mpr ⟨hlo, hhi⟩⟩
        · rw [hcol, himage, Int.sub_add_cancel]
          exact hoverlap
      · rw [hcol, himage, Int.sub_add_cancel]
  · rw [List.map_flatMap]
    congr 1
    funext d
    rw [List.map_map]
    rfl

end Images

/-! ## Section 2: Uniform grids -/

section Translation

variable {K : Type} [Field K] [LinearOrder K] [IsStrictOrderedRing K]

theorem overlap_length_sub {a b c e x : K} :
    min b (e - x) - max a (c - x) = min (b + x) e - max (a + x) c := by
  have hmin : min b (e - x) = min (b + x) e - x := by
    rw [← min_sub_sub_right, add_sub_cancel_right]
  have hmax : max a (c - x) = max (a + x) c - x := by
    rw [← max_sub_sub_right, add_sub_cancel_right]
  rw [hmin, hmax]
  ring

theorem rect_overlap_sub {a b c e lo hi lo' hi' x : K} :
    rect_overlap a b lo hi (c - x) (e - x) lo' hi' =
      rect_overlap (a + x) (b + x) lo hi c e lo' hi' := by
  unfold rect_overlap
  rw [overlap_length_sub]

theorem rect_overlap_spherical_sub {sin : K → K} {a b c e lo hi lo' hi' x : K} {deg : Bool} :
    rect_overlap_spherical sin a b lo hi (c - x) (e - x) lo' hi' deg =
      rect_overlap_spherical sin (a + x) (b + x) lo hi c e lo' hi' deg := by
  unfold rect_overlap_spherical
  rw [overlap_length_sub]

end Translation

namespace RectMeshes

variable {K : Type} [Field K] [LinearOrder K] (p : RectMeshes K) (sin : K → K)

/-- The span of the source. -/
def span : K := p.src.ni * p.src.delta_lon

/-- What a destination cell shares with a source cell that is moved east. -/
def image_area (d : Fin p.dst.nj × Fin p.dst.ni) (s : Fin p.src.nj × Fin p.src.ni) (x : K) : K :=
  let s_lo_x := p.s_lo_x (s.2 : Nat) + x
  let s_hi_x := p.s_hi_x (s.2 : Nat) + x
  let s_lo_y := p.s_lo_y (s.1 : Nat)
  let s_hi_y := p.s_hi_y (s.1 : Nat)
  if p.is_spherical then
    rect_overlap_spherical sin s_lo_x s_hi_x s_lo_y s_hi_y (p.d_lo_x d) (p.d_hi_x d) (p.d_lo_y d)
      (p.d_hi_y d) p.is_degrees
  else
    rect_overlap s_lo_x s_hi_x s_lo_y s_hi_y (p.d_lo_x d) (p.d_hi_x d) (p.d_lo_y d) (p.d_hi_y d)

/-- **The images to be found**: both cells are open, and the image shares an
    area with the destination cell. -/
def image_overlapping (d : Fin p.dst.nj × Fin p.dst.ni) (s : Fin p.src.nj × Fin p.src.ni)
    (m : Int) : Bool :=
  p.dst_open sin d ∧ masked p.src.cell_mask (p.src_cell s) = false ∧
    0 < cell_area sin p.csys p.src (p.src_cell s) ∧ 0 < p.image_area sin d s (m * p.span)

/-- The overlaps of the source repeated. -/
def FindsRepeated (found : List (Overlap K p.src.n_cells p.dst.n_cells)) : Prop :=
  FindsImages p.dst_cell_idx p.src_cell (fun d s m => p.image_area sin d s (m * p.span))
    (p.image_overlapping sin) found

variable [FloorRing K]

section
local instance turns_degrees : Nat.AtLeastTwo 360 := inferInstance

/-- How many turns of 360 a destination cell is moved back. -/
def turns (d : Fin p.dst.nj × Fin p.dst.ni) : Int := ⌊(p.d_lo_x d - p.src.lon_min) / 360⌋

/-- **The turns are periods**: an open destination cell is not moved, or the
    span is 360. -/
def TurnsFit : Prop := ∀ d, p.dst_open sin d = true → p.turns d = 0 ∨ p.span = 360

end

variable {p} {sin} {d : Fin p.dst.nj × Fin p.dst.ni}

theorem shift_eq_of_fit (hglobal : p.src_is_global = true) (h : p.turns d = 0 ∨ p.span = 360) :
    p.shift d = p.turns d * p.span := by
  unfold shift
  rw [if_pos hglobal]
  show 360 * (p.turns d : K) = p.turns d * p.span
  rcases h with hzero | hspan
  · rw [hzero, Int.cast_zero, mul_zero, zero_mul]
  · rw [hspan, mul_comm]

variable [IsStrictOrderedRing K]

theorem overlap_area_eq_image (hni : 0 < p.src.ni) (hglobal : p.src_is_global = true)
    (h : p.turns d = 0 ∨ p.span = 360) (j : Fin p.src.nj) (k : Int) :
    p.overlap_area sin d (j : Nat) k =
      p.image_area sin d (j, unroll hni k) ((k / p.src.ni + p.turns d : Int) * p.span) := by
  have hk : (k : K) = (k / p.src.ni : Int) * p.src.ni + ((unroll hni k : Nat) : K) := by
    have hcast := congrArg (Int.cast (R := K)) (div_mul_add_unroll hni k)
    push_cast at hcast
    exact hcast.symm
  have hlo : p.s_lo_x k + p.shift d = p.s_lo_x ((unroll hni k : Nat) : Int) +
      ((k / p.src.ni + p.turns d : Int) : K) * p.span := by
    rw [shift_eq_of_fit hglobal h]
    unfold s_lo_x span
    rw [hk]
    push_cast
    ring
  have hhi : p.s_hi_x k + p.shift d = p.s_hi_x ((unroll hni k : Nat) : Int) +
      ((k / p.src.ni + p.turns d : Int) : K) * p.span := by
    unfold s_hi_x
    rw [add_right_comm, hlo, add_right_comm]
  unfold overlap_area image_area d_lo_x_norm d_hi_x_norm
  dsimp only
  rw [rect_overlap_sub, rect_overlap_spherical_sub, hlo, hhi]

theorem found_at_image (hni : 0 < p.src.ni) (hglobal : p.src_is_global = true)
    (hopen : p.dst_open sin d = true) (h : p.turns d = 0 ∨ p.span = 360) (j : Fin p.src.nj)
    (k : Int) : p.found_at sin d (j : Nat) k =
      if p.image_overlapping sin d (j, unroll hni k) (k / p.src.ni + p.turns d) then
        some ⟨p.dst_cell_idx d, p.src_cell (j, unroll hni k),
          p.image_area sin d (j, unroll hni k) ((k / p.src.ni + p.turns d : Int) * p.span)⟩
      else none := by
  have hcond : (0 ≤ ((j : Nat) : Int) ∧ ((j : Nat) : Int) < p.src.nj) ∧ 0 < p.src.ni ∧
      (p.src_is_global = false → 0 ≤ k ∧ k < p.src.ni) :=
    ⟨⟨Int.natCast_nonneg _, Int.ofNat_lt.mpr j.isLt⟩, hni, fun hlocal => by
      rw [hglobal] at hlocal
      cases hlocal⟩
  have hcell : p.cell_at (j : Nat) k = some (p.src_cell (j, unroll hni k)) := by
    unfold cell_at
    rw [dif_pos hcond]
    rfl
  unfold found_at image_overlapping
  rw [hcell, hopen, overlap_area_eq_image hni hglobal h]
  simp

/-- **A source that goes round.** The search finds what the loop over all pairs
    finds with the source repeated. -/
theorem overlaps_repeated (hint : p.IntIndices sin) (hglobal : p.src_is_global = true)
    (hfit : p.TurnsFit sin) : ∃ found, p.overlaps sin = .returned found ∧ p.FindsRepeated sin found := by
  have hni := ni_pos_of_global hglobal
  have hcover : ∀ d js i, p.found_at sin d js i ≠ none →
      (p.lon_floors d).1 ≤ i ∧ i ≤ (p.lon_floors d).2 := by
    intro d js i h
    have hvisited := (found_at_visited h).2
    unfold columns at hvisited
    rw [if_pos hglobal] at hvisited
    exact hvisited
  refine ⟨_, overlaps_eq hint hcover, ?_⟩
  have hrow : ∀ d, (if p.dst_open sin d then
        p.row_overlaps sin d (p.lon_floors d).1 (p.lon_floors d).2 else []) =
      (((List.finRange p.src.nj).product
        (int_range (p.lon_floors d).1 (p.lon_floors d).2)).filter fun s =>
          p.image_overlapping sin d (s.1, unroll hni s.2) (s.2 / p.src.ni + p.turns d)).map fun s =>
        ⟨p.dst_cell_idx d, p.src_cell (s.1, unroll hni s.2), p.image_area sin d
          (s.1, unroll hni s.2) ((s.2 / p.src.ni + p.turns d : Int) * p.span)⟩ := by
    intro d
    by_cases hopen : p.dst_open sin d = true
    · rw [if_pos hopen]
      unfold row_overlaps
      simp only [flatMap_int_range_all, found_at_image hni hglobal hopen (hfit d hopen)]
      rw [← flatMap_pairs]
    · rw [if_neg hopen]
      symm
      rw [List.map_eq_nil_iff, List.filter_eq_nil_iff]
      intro s _ hs
      exact hopen (of_decide_eq_true hs).1
  simp only [hrow]
  apply finds_of_unrolled hni ((List.nodup_finRange _).product (List.nodup_finRange _))
  intro d s m hoverlap
  have hopen : p.dst_open sin d = true := (of_decide_eq_true hoverlap).1
  have hfound := found_at_image hni hglobal hopen (hfit d hopen) s.1
    ((m - p.turns d) * p.src.ni + (s.2 : Nat))
  obtain ⟨hcol, himage⟩ := unroll_image hni (m - p.turns d) s.2
  rw [hcol, himage, Int.sub_add_cancel, if_pos hoverlap] at hfound
  refine ⟨List.pair_mem_product.mpr ⟨List.mem_finRange _, List.mem_finRange _⟩, ?_⟩
  apply hcover d (s.1 : Nat)
  rw [hfound]
  exact Option.some_ne_none _

omit [FloorRing K] [IsStrictOrderedRing K] in
theorem FindsRepeated.area_pos {found : List (Overlap K p.src.n_cells p.dst.n_cells)}
    (h : p.FindsRepeated sin found) :
    ∀ o ∈ found, 0 < o.area ∧ 0 < cell_area sin p.csys p.dst o.row := by
  intro o ho
  obtain ⟨d, s, m, hoverlap, heq⟩ := FindsImages.mem_iff h |>.mp ho
  subst heq
  have hboth := of_decide_eq_true hoverlap
  exact ⟨hboth.2.2.2, (of_decide_eq_true hboth.1).2⟩

end RectMeshes

/-! ## Section 3: Grids that are not uniform -/

namespace WeightGenerator.Meshes

section Definitions

variable (p : Meshes) (sin : ℚ → ℚ) {src_info dst_info : RectilinearGridInfo}
  (hsrc : IsGrid src_info p.src.n_cells) (hdst : IsGrid dst_info p.dst.n_cells)

/-- The span of the source. -/
def nonuniform_span (src_info : RectilinearGridInfo) : ℚ :=
  coord src_info.unique_lons src_info.ni - coord src_info.unique_lons 0

/-- What a destination cell shares with a source cell that is moved east. -/
def nonuniform_image_area (d : Fin dst_info.nj × Fin dst_info.ni)
    (s : Fin src_info.nj × Fin src_info.ni) (x : ℚ) : ℚ :=
  let s_lo_x := coord src_info.unique_lons s.2 + x
  let s_hi_x := coord src_info.unique_lons (s.2 + 1) + x
  let s_lo_y := coord src_info.unique_lats s.1
  let s_hi_y := coord src_info.unique_lats (s.1 + 1)
  let d_lo_x := coord dst_info.unique_lons d.2
  let d_hi_x := coord dst_info.unique_lons (d.2 + 1)
  let d_lo_y := coord dst_info.unique_lats d.1
  let d_hi_y := coord dst_info.unique_lats (d.1 + 1)
  if p.src.is_spherical then
    rect_overlap_spherical sin s_lo_x s_hi_x s_lo_y s_hi_y d_lo_x d_hi_x d_lo_y d_hi_y
      (p.src.csys = .SphericalDeg)
  else rect_overlap s_lo_x s_hi_x s_lo_y s_hi_y d_lo_x d_hi_x d_lo_y d_hi_y

/-- **The images to be found**: both cells are open, and the image shares an
    area with the destination cell that is not tiny. -/
def nonuniform_image_overlapping (d : Fin dst_info.nj × Fin dst_info.ni)
    (s : Fin src_info.nj × Fin src_info.ni) (m : Int) : Bool :=
  p.nonuniform_dst_open sin hdst d ∧ p.src.is_masked (hsrc.cell s) = false ∧
    1 / 10 ^ 12 < p.nonuniform_image_area sin d s (m * nonuniform_span src_info) ∧
    0 < p.nonuniform_src_area sin src_info (hsrc.cell s)

/-- The overlaps of the source repeated. -/
def NonuniformFindsRepeated (found : List (Overlap ℚ p.src.n_cells p.dst.n_cells)) : Prop :=
  FindsImages hdst.cell hsrc.cell
    (fun d s m => p.nonuniform_image_area sin d s (m * nonuniform_span src_info))
    (p.nonuniform_image_overlapping sin hsrc hdst) found

/-- How many turns of 360 a destination column is moved back. -/
def nonuniform_turns (src_info dst_info : RectilinearGridInfo) (id : Nat) : Int :=
  ⌊(coord dst_info.unique_lons id - coord src_info.unique_lons 0) / 360⌋

/-- **The seam is handled** for a destination column: its turns are periods, and
    it ends in the source, or in one of two columns behind the seam. -/
def SeamHandled (src_info dst_info : RectilinearGridInfo) (id : Nat) : Prop :=
  let lons := src_info.unique_lons
  let d_hi_x := coord dst_info.unique_lons (id + 1) - 360 * nonuniform_turns src_info dst_info id
  (nonuniform_turns src_info dst_info id = 0 ∨ nonuniform_span src_info = 360) ∧
    (d_hi_x ≤ coord lons src_info.ni ∨
      nonuniform_span src_info = 360 ∧ 2 ≤ src_info.ni ∧ d_hi_x ≤ coord lons 2 + 360)

end Definitions

variable {p : Meshes} {sin : ℚ → ℚ} {src_info dst_info : RectilinearGridInfo}
  {hsrc : IsGrid src_info p.src.n_cells} {hdst : IsGrid dst_info p.dst.n_cells}
  {d : Fin dst_info.nj × Fin dst_info.ni}

theorem nonuniform_shift_eq {id : Nat} (hglobal : p.nonuniform_is_global src_info = true)
    (h : nonuniform_turns src_info dst_info id = 0 ∨ nonuniform_span src_info = 360) :
    p.nonuniform_shift src_info dst_info id = 360 * nonuniform_turns src_info dst_info id ∧
      p.nonuniform_shift src_info dst_info id =
        nonuniform_turns src_info dst_info id * nonuniform_span src_info := by
  have hshift : p.nonuniform_shift src_info dst_info id =
      360 * (nonuniform_turns src_info dst_info id : ℚ) := by
    unfold nonuniform_shift
    rw [if_pos hglobal]
    rfl
  constructor
  · exact hshift
  · rw [hshift]
    rcases h with hzero | hspan
    · rw [hzero, Int.cast_zero, mul_zero, zero_mul]
    · rw [hspan, mul_comm]

theorem nonuniform_area_eq_image (hsize : p.IntSizes src_info) (hni : 0 < src_info.ni)
    (hglobal : p.nonuniform_is_global src_info = true)
    (h : nonuniform_turns src_info dst_info d.2 = 0 ∨ nonuniform_span src_info = 360)
    (j : Fin src_info.nj) {k : Int} (hk : 0 ≤ k ∧ k < 2 * src_info.ni)
    (hwrap : k < src_info.ni ∨ nonuniform_span src_info = 360) :
    p.nonuniform_overlap_area sin src_info dst_info d.2 d.1 (j : Nat) k (k % src_info.ni) =
      p.nonuniform_image_area sin d (j, unroll hni k)
        ((k / src_info.ni + nonuniform_turns src_info dst_info d.2 : Int) *
          nonuniform_span src_info) := by
  have hni_lt := hsize.ni_lt
  have hmove : (if p.nonuniform_is_global src_info = true ∧ k ≥ to_int src_info.ni then 360 else 0) +
      p.nonuniform_shift src_info dst_info d.2 =
      ((k / src_info.ni + nonuniform_turns src_info dst_info d.2 : Int) : ℚ) *
        nonuniform_span src_info := by
    rw [(nonuniform_shift_eq hglobal h).2, to_int_of_lt (by omega), Int.cast_add, add_mul]
    congr 1
    by_cases hlt : k < src_info.ni
    · rw [if_neg (fun hc => by omega), Int.ediv_eq_zero_of_lt hk.1 hlt, Int.cast_zero, zero_mul]
    · -- the first image
      have hone : k / src_info.ni = 1 := by
        have hadd : k = (k - src_info.ni) + 1 * src_info.ni := by omega
        rw [hadd, Int.add_mul_ediv_right _ _ (Int.natCast_ne_zero.mpr hni.ne'),
          Int.ediv_eq_zero_of_lt (by omega) (by omega), Int.zero_add]
      rw [if_pos ⟨hglobal, not_lt.mp hlt⟩, hone, hwrap.resolve_left hlt, Int.cast_one, one_mul]
  unfold nonuniform_overlap_area nonuniform_image_area
  dsimp only
  rw [rect_overlap_sub, rect_overlap_spherical_sub, add_assoc, add_assoc, hmove, Int.toNat_natCast]
  rfl

theorem nonuniform_found_image (hsize : p.IntSizes src_info) (hni : 0 < src_info.ni)
    (hglobal : p.nonuniform_is_global src_info = true)
    (hopen : p.nonuniform_dst_open sin hdst d = true)
    (h : nonuniform_turns src_info dst_info d.2 = 0 ∨ nonuniform_span src_info = 360)
    (j : Fin src_info.nj) {k : Int} (hk : 0 ≤ k ∧ k < 2 * src_info.ni)
    (hwrap : k < src_info.ni ∨ nonuniform_span src_info = 360) :
    p.nonuniform_found sin hsrc hdst d (j : Nat) k =
      if p.nonuniform_image_overlapping sin hsrc hdst d (j, unroll hni k)
          (k / src_info.ni + nonuniform_turns src_info dst_info d.2) then
        some ⟨hdst.cell d, hsrc.cell (j, unroll hni k), p.nonuniform_image_area sin d
          (j, unroll hni k) ((k / src_info.ni + nonuniform_turns src_info dst_info d.2 : Int) *
            nonuniform_span src_info)⟩
      else none := by
  have hcond : (0 ≤ ((j : Nat) : Int) ∧ ((j : Nat) : Int) < src_info.nj) ∧ 0 < src_info.ni ∧
      (p.nonuniform_is_global src_info = false → 0 ≤ k ∧ k < src_info.ni) :=
    ⟨⟨Int.natCast_nonneg _, Int.ofNat_lt.mpr j.isLt⟩, hni, fun hlocal => by
      rw [hglobal] at hlocal
      cases hlocal⟩
  have hcell : (⟨((j : Nat) : Int).toNat * src_info.ni + (k % src_info.ni).toNat,
      (cell_index_lt hcond.1 hcond.2.1).trans_eq hsrc.cells⟩ : Fin p.src.n_cells) =
      hsrc.cell (j, unroll hni k) := rfl
  unfold nonuniform_found nonuniform_image_overlapping
  rw [dif_pos hcond, hopen]
  dsimp only
  rw [hcell, nonuniform_area_eq_image hsize hni hglobal h j hk hwrap]
  simp

theorem image_bounds {s : Fin src_info.nj × Fin src_info.ni} {m : Int}
    (h : p.nonuniform_image_overlapping sin hsrc hdst d s m = true) :
    (coord src_info.unique_lons s.2 + m * nonuniform_span src_info <
        coord dst_info.unique_lons (d.2 + 1) ∧
      coord dst_info.unique_lons d.2 <
        coord src_info.unique_lons (s.2 + 1) + m * nonuniform_span src_info) ∧
    coord src_info.unique_lats s.1 < coord dst_info.unique_lats (d.1 + 1) ∧
      coord dst_info.unique_lats d.1 < coord src_info.unique_lats (s.1 + 1) := by
  have harea : 0 < p.nonuniform_image_area sin d s (m * nonuniform_span src_info) :=
    lt_trans (by norm_num) (of_decide_eq_true h).2.2.1
  unfold nonuniform_image_area at harea
  dsimp only at harea
  split at harea
  · obtain ⟨hx, hy⟩ := rect_overlap_spherical_pos harea
    simp only [max_lt_iff, lt_min_iff] at hx hy
    exact ⟨⟨hx.2.1, hx.1.2⟩, hy.2.1, hy.1.2⟩
  · obtain ⟨hx, hy⟩ := rect_overlap_pos harea
    simp only [max_lt_iff, lt_min_iff] at hx hy
    exact ⟨⟨hx.2.1, hx.1.2⟩, hy.2.1, hy.1.2⟩

theorem coord_le (hgrid : IsGrid src_info p.src.n_cells) {j k : Nat} (hjk : j ≤ k)
    (hk : k ≤ src_info.ni) : coord src_info.unique_lons j ≤ coord src_info.unique_lons k := by
  rcases hjk.lt_or_eq with hlt | heq
  · exact (coord_lt hgrid.lons_sorted hlt (by rw [hgrid.lons_length]; omega)).le
  · rw [heq]

theorem moved_start {id : Nat} :
    let start := coord dst_info.unique_lons id - 360 * nonuniform_turns src_info dst_info id
    coord src_info.unique_lons 0 ≤ start ∧ start < coord src_info.unique_lons 0 + 360 := by
  intro start
  have hle := Int.floor_le ((coord dst_info.unique_lons id - coord src_info.unique_lons 0) / 360)
  have hlt := Int.lt_floor_add_one
    ((coord dst_info.unique_lons id - coord src_info.unique_lons 0) / 360)
  rw [le_div_iff₀ (by norm_num)] at hle
  rw [div_lt_iff₀ (by norm_num)] at hlt
  have hstart : start = coord dst_info.unique_lons id -
      360 * (⌊(coord dst_info.unique_lons id - coord src_info.unique_lons 0) / 360⌋ : ℚ) := rfl
  constructor
  · linarith
  · linarith

theorem span_pos (hgrid : IsGrid src_info p.src.n_cells) (hni : 0 < src_info.ni) :
    0 < nonuniform_span src_info :=
  sub_pos.mpr (coord_lt hgrid.lons_sorted hni (by rw [hgrid.lons_length]; omega))

/-- **Two images are enough**: the source, moved as the destination column is,
    and one behind the seam. -/
theorem image_range (hgrid : IsGrid src_info p.src.n_cells) (hni : 0 < src_info.ni)
    (hseam : SeamHandled src_info dst_info d.2) {s : Fin src_info.nj × Fin src_info.ni} {m : Int}
    (h : p.nonuniform_image_overlapping sin hsrc hdst d s m = true) :
    m - nonuniform_turns src_info dst_info d.2 = 0 ∨
      m - nonuniform_turns src_info dst_info d.2 = 1 ∧ nonuniform_span src_info = 360 ∧
        2 ≤ src_info.ni ∧ s.2.val < 2 ∧ coord src_info.unique_lons src_info.ni <
          coord dst_info.unique_lons (d.2 + 1) - 360 * nonuniform_turns src_info dst_info d.2 := by
  obtain ⟨⟨hlo, hhi⟩, -⟩ := image_bounds h
  obtain ⟨hstart, -⟩ := @moved_start src_info dst_info d.2
  obtain ⟨hturns, hend⟩ := hseam
  have hspan := span_pos hgrid hni
  have hlast : coord src_info.unique_lons src_info.ni =
      coord src_info.unique_lons 0 + nonuniform_span src_info := by
    rw [nonuniform_span, add_sub_cancel]
  -- how far the image is moved, seen from the moved destination column
  obtain ⟨t, ht⟩ : ∃ t, t = nonuniform_turns src_info dst_info d.2 := ⟨_, rfl⟩
  rw [← ht] at hstart hturns hend ⊢
  have hmove : (m : ℚ) * nonuniform_span src_info =
      ((m - t : Int) : ℚ) * nonuniform_span src_info + 360 * t := by
    rcases hturns with hzero | hfull
    · rw [hzero]
      push_cast
      ring
    · rw [hfull]
      push_cast
      ring
  rw [hmove] at hlo hhi
  have hfirst := coord_le hgrid (Nat.zero_le s.2) s.2.isLt.le
  have hnext := coord_le hgrid (Nat.succ_le_of_lt s.2.isLt) (le_refl _)
  -- not before the source
  have hnonneg : 0 ≤ m - t := by
    by_contra hneg
    have hle : ((m - t : Int) : ℚ) ≤ -1 := by exact_mod_cast (show m - t ≤ -1 by omega)
    have hmul := mul_le_mul_of_nonneg_right hle hspan.le
    linarith
  -- and not behind the image
  have hbelow : ∀ n : Int, ((m - t : Int) : ℚ) * nonuniform_span src_info <
      n * nonuniform_span src_info → m - t < n := by
    intro n hlt
    exact_mod_cast lt_of_mul_lt_mul_right hlt hspan.le
  rcases hend with hinside | ⟨hfull, htwo, hbehind⟩
  · have hlt : m - t < 1 := by
      apply hbelow
      push_cast at hlo ⊢
      linarith
    omega
  · have hsecond := coord_le hgrid htwo (le_refl _)
    have hlt : m - t < 2 := by
      apply hbelow
      push_cast at hlo ⊢
      linarith
    by_cases hzero : m - t = 0
    · exact Or.inl hzero
    have hone : m - t = 1 := by omega
    rw [hone, Int.cast_one, one_mul] at hlo
    refine Or.inr ⟨hone, hfull, htwo, ?_, by linarith⟩
    by_contra hge
    have hcol := coord_le hgrid (not_lt.mp hge) s.2.isLt.le
    linarith

theorem column_of_visited (hgrid : IsGrid src_info p.src.n_cells)
    (hglobal : p.nonuniform_is_global src_info = true) {id : Nat}
    (hseam : SeamHandled src_info dst_info id) {k : Int}
    (hk : (p.cell_columns src_info dst_info id).1 ≤ k ∧
      k ≤ (p.cell_columns src_info dst_info id).2) :
    (0 ≤ k ∧ k < 2 * src_info.ni) ∧ (k < src_info.ni ∨ nonuniform_span src_info = 360) := by
  have hni := nonuniform_ni_pos hglobal
  obtain ⟨hturns, hend⟩ := hseam
  have hshift := (nonuniform_shift_eq hglobal hturns).1
  unfold cell_columns visited_columns at hk
  dsimp only at hk
  split at hk
  · next hcross =>
    rw [hshift] at hcross
    obtain ⟨hfull, htwo, -⟩ := hend.resolve_left hcross.2
    have hupper : src_info.unique_lons.findIdx (coord dst_info.unique_lons (id + 1) -
        p.nonuniform_shift src_info dst_info id < ·) ≤ src_info.ni + 1 :=
      hgrid.lons_length ▸ List.findIdx_le_length
    exact ⟨by omega, Or.inr hfull⟩
  · omega

/-- **Completeness.** The images to be found are in rows and columns that are
    visited. -/
theorem image_visited (hni : 0 < src_info.ni)
    (hglobal : p.nonuniform_is_global src_info = true)
    (hseam : SeamHandled src_info dst_info d.2) {j : Fin src_info.nj} {k : Int}
    (h : p.nonuniform_image_overlapping sin hsrc hdst d (j, unroll hni k)
      (k / src_info.ni + nonuniform_turns src_info dst_info d.2) = true) :
    ((visited_rows src_info (coord dst_info.unique_lats d.1)
        (coord dst_info.unique_lats (d.1 + 1))).1 ≤ (j : Nat) ∧
      ((j : Nat) : Int) ≤ (visited_rows src_info (coord dst_info.unique_lats d.1)
        (coord dst_info.unique_lats (d.1 + 1))).2) ∧
    (p.cell_columns src_info dst_info d.2).1 ≤ k ∧
      k ≤ (p.cell_columns src_info dst_info d.2).2 := by
  obtain ⟨⟨hlo, hhi⟩, hlat_lo, hlat_hi⟩ := image_bounds h
  have hj := j.isLt
  constructor
  · have hlength := hsrc.lats_length
    have hlower := lower_bound_le (k := j + 1) (by omega) hlat_hi.le
    have hupper := lt_upper_bound hsrc.lats_sorted (k := j) (by omega) hlat_lo.le
    unfold visited_rows
    dsimp only
    omega
  · have hlength := hsrc.lons_length
    have hcol := div_mul_add_unroll hni k
    have hcol_lt := (unroll hni k).isLt
    have hrange := image_range hsrc hni hseam h
    rw [Int.add_sub_cancel] at hrange
    obtain ⟨hturns, -⟩ := hseam
    obtain ⟨hshift, hmove⟩ := nonuniform_shift_eq hglobal hturns
    rw [Int.cast_add, add_mul, ← hmove] at hlo hhi
    dsimp only at hlo hhi
    unfold cell_columns visited_columns
    dsimp only
    rcases hrange with hzero | ⟨hone, hfull, htwo, hsecond, hcross⟩
    · -- the source itself
      rw [hzero, Int.cast_zero, zero_mul, zero_add] at hlo hhi
      rw [hzero, zero_mul, Int.zero_add] at hcol
      have hstart : coord dst_info.unique_lons d.2 - p.nonuniform_shift src_info dst_info d.2 ≤
          coord src_info.unique_lons (unroll hni k + 1) := by linarith
      have hend : coord src_info.unique_lons (unroll hni k) ≤
          coord dst_info.unique_lons (d.2 + 1) - p.nonuniform_shift src_info dst_info d.2 := by
        linarith
      have hlower := lower_bound_le (by omega) hstart
      have hupper := lt_upper_bound hsrc.lons_sorted (by omega) hend
      split
      · omega
      · omega
    · -- behind the seam
      rw [hone, one_mul] at hcol
      rw [← hshift] at hcross
      have hlast : coord src_info.unique_lons src_info.ni =
          coord src_info.unique_lons 0 + nonuniform_span src_info := by
        rw [nonuniform_span, add_sub_cancel]
      have hstart : coord dst_info.unique_lons d.2 - p.nonuniform_shift src_info dst_info d.2 ≤
          coord src_info.unique_lons src_info.ni := by
        rw [hlast, hfull, hshift]
        exact (@moved_start src_info dst_info d.2).2.le
      have hlower := lower_bound_le (by omega) hstart
      have hupper := lt_upper_bound hsrc.lons_sorted (by omega) hcross.le
      rw [if_pos ⟨hglobal, not_le.mpr hcross⟩]
      dsimp only at hsecond
      omega

/-- **One destination cell.** What is visited has the images to be found. -/
theorem visited_overlaps_image (hsize : p.IntSizes src_info) (hni : 0 < src_info.ni)
    (hglobal : p.nonuniform_is_global src_info = true)
    (hopen : p.nonuniform_dst_open sin hdst d = true) (hseam : SeamHandled src_info dst_info d.2) :
    p.visited_overlaps sin hsrc hdst d =
      (((List.finRange src_info.nj).product (int_range 0 (2 * src_info.ni - 1))).filter fun s =>
        p.nonuniform_image_overlapping sin hsrc hdst d (s.1, unroll hni s.2)
          (s.2 / src_info.ni + nonuniform_turns src_info dst_info d.2)).map fun s =>
      ⟨hdst.cell d, hsrc.cell (s.1, unroll hni s.2), p.nonuniform_image_area sin d
        (s.1, unroll hni s.2) ((s.2 / src_info.ni + nonuniform_turns src_info dst_info d.2 : Int) *
          nonuniform_span src_info)⟩ := by
  -- what is to be found in the columns of the source and of one image
  let P : Fin src_info.nj × Int → Bool := fun s => (0 ≤ s.2 ∧ s.2 < 2 * src_info.ni) ∧
    p.nonuniform_image_overlapping sin hsrc hdst d (s.1, unroll hni s.2)
      (s.2 / src_info.ni + nonuniform_turns src_info dst_info d.2)
  let found : Fin src_info.nj × Int → Overlap ℚ p.src.n_cells p.dst.n_cells := fun s =>
    ⟨hdst.cell d, hsrc.cell (s.1, unroll hni s.2), p.nonuniform_image_area sin d
      (s.1, unroll hni s.2) ((s.2 / src_info.ni + nonuniform_turns src_info dst_info d.2 : Int) *
        nonuniform_span src_info)⟩
  let f : Int → Int → Option (Overlap ℚ p.src.n_cells p.dst.n_cells) := fun js k =>
    if h : 0 ≤ js ∧ js.toNat < src_info.nj then
      if P (⟨js.toNat, h.2⟩, k) then some (found (⟨js.toNat, h.2⟩, k)) else none
    else none
  have hf : ∀ (j : Fin src_info.nj) k, f (j : Nat) k =
      if P (j, k) then some (found (j, k)) else none := by
    intro j k
    exact dif_pos ⟨Int.natCast_nonneg _, j.isLt⟩
  have hf_some : ∀ js k, f js k ≠ none → ∃ j : Fin src_info.nj, js = (j : Nat) ∧ P (j, k) = true := by
    intro js k hne
    by_cases hjs : 0 ≤ js ∧ js.toNat < src_info.nj
    · refine ⟨⟨js.toNat, hjs.2⟩, (Int.toNat_of_nonneg hjs.1).symm, ?_⟩
      by_contra hP
      apply hne
      show (if h : _ then _ else _) = none
      rw [dif_pos hjs, if_neg hP]
    · exact absurd (dif_neg hjs) hne
  have hvisited : p.visited_overlaps sin hsrc hdst d =
      (int_range 0 ((src_info.nj : Int) - 1)).flatMap fun js =>
        (int_range 0 (2 * src_info.ni - 1)).flatMap fun k => (f js k).toList := by
    have hcongr : p.visited_overlaps sin hsrc hdst d =
        ((int_range (visited_rows src_info (coord dst_info.unique_lats d.1)
            (coord dst_info.unique_lats (d.1 + 1))).1 (visited_rows src_info
            (coord dst_info.unique_lats d.1) (coord dst_info.unique_lats (d.1 + 1))).2).product
          (int_range (p.cell_columns src_info dst_info d.2).1
            (p.cell_columns src_info dst_info d.2).2)).filterMap fun s => f s.1 s.2 := by
      apply List.filterMap_congr
      intro ⟨js, k⟩ hmem
      obtain ⟨hjs, hk⟩ := List.pair_mem_product.mp hmem
      rw [RectMeshes.mem_int_range] at hjs hk
      obtain ⟨hrange, hwrap⟩ := column_of_visited hsrc hglobal hseam hk
      -- a row of the source
      obtain ⟨j, rfl⟩ : ∃ j : Fin src_info.nj, js = (j : Nat) := by
        unfold visited_rows at hjs
        dsimp only at hjs
        exact ⟨⟨js.toNat, by omega⟩, (Int.toNat_of_nonneg (by omega)).symm⟩
      show p.nonuniform_found sin hsrc hdst d (j : Nat) k = f (j : Nat) k
      rw [nonuniform_found_image hsize hni hglobal hopen hseam.1 j hrange hwrap, hf]
      have hP : P (j, k) = p.nonuniform_image_overlapping sin hsrc hdst d (j, unroll hni k)
          (k / src_info.ni + nonuniform_turns src_info dst_info d.2) := by
        show decide _ = _
        simp [hrange]
      rw [hP]
    rw [hcongr]
    apply window_eq
    · intro js k h
      obtain ⟨j, rfl, hP⟩ := hf_some js k h
      exact image_visited hni hglobal hseam (of_decide_eq_true hP).2
    · intro js k h
      obtain ⟨j, rfl, hP⟩ := hf_some js k h
      have hj := j.isLt
      have hk := (of_decide_eq_true hP).1
      omega
  rw [hvisited]
  simp only [flatMap_int_range_all, hf]
  rw [flatMap_pairs]
  apply congrArg (List.map found)
  apply List.filter_congr
  intro s hs
  have hrange := RectMeshes.mem_int_range.mp (List.pair_mem_product.mp hs).2
  have hlt : 0 ≤ s.2 ∧ s.2 < 2 * src_info.ni := by omega
  show decide _ = _
  simp [hlt]

/-- **A source that goes round.** The search finds what the loop over all pairs
    finds with the source repeated. -/
theorem nonuniform_repeated (hsize : p.IntSizes src_info)
    (hglobal : p.nonuniform_is_global src_info = true)
    (hseam : ∀ d, p.nonuniform_dst_open sin hdst d = true → SeamHandled src_info dst_info d.2)
    (config : RegridConfig) : ∃ found,
      p.generate_conservative_rect_nonuniform sin config src_info dst_info =
        .returned (p.pack_overlaps config (p.nonuniform_src_area sin src_info)
          (p.nonuniform_dst_area sin dst_info)
          (fun o => o.area / p.nonuniform_dst_area sin dst_info o.row) found) ∧
      p.NonuniformFindsRepeated sin hsrc hdst found := by
  have hni := nonuniform_ni_pos hglobal
  let images : Fin dst_info.nj × Fin dst_info.ni → List (Overlap ℚ p.src.n_cells p.dst.n_cells) :=
    fun d => (((List.finRange src_info.nj).product (int_range 0 (2 * src_info.ni - 1))).filter
      fun s => p.nonuniform_image_overlapping sin hsrc hdst d (s.1, unroll hni s.2)
        (s.2 / src_info.ni + nonuniform_turns src_info dst_info d.2)).map fun s =>
      ⟨hdst.cell d, hsrc.cell (s.1, unroll hni s.2), p.nonuniform_image_area sin d
        (s.1, unroll hni s.2) ((s.2 / src_info.ni + nonuniform_turns src_info dst_info d.2 : Int) *
          nonuniform_span src_info)⟩
  have hrow : ∀ d, p.nonuniform_row sin src_info dst_info d = .returned (images d) := by
    intro d
    rw [@nonuniform_row_visited_eq p sin _ _ hsrc hdst d hsize]
    by_cases hopen : p.nonuniform_dst_open sin hdst d = true
    · rw [if_pos hopen, visited_overlaps_image hsize hni hglobal hopen (hseam d hopen)]
    · rw [if_neg hopen]
      congr 1
      symm
      rw [List.map_eq_nil_iff, List.filter_eq_nil_iff]
      intro s _ hs
      exact hopen (of_decide_eq_true hs).1
  refine ⟨((List.finRange dst_info.nj).product (List.finRange dst_info.ni)).flatMap images, ?_, ?_⟩
  · unfold generate_conservative_rect_nonuniform
    rw [Outcome.mapM_of_returned fun d _ => hrow d, Outcome.returned_bind, Outcome.pure_eq, ← List.flatMap_def]
  · apply finds_of_unrolled hni ((List.nodup_finRange _).product (List.nodup_finRange _))
    intro d s m h
    have hrange := image_range hsrc hni (hseam d (of_decide_eq_true h).1) h
    have hcol := s.2.isLt
    refine ⟨List.pair_mem_product.mpr ⟨List.mem_finRange _, List.mem_finRange _⟩, ?_⟩
    rcases hrange with hzero | ⟨hone, -⟩
    · rw [hzero]
      omega
    · rw [hone]
      omega

theorem NonuniformFindsRepeated.area_pos {found : List (Overlap ℚ p.src.n_cells p.dst.n_cells)}
    (h : p.NonuniformFindsRepeated sin hsrc hdst found) :
    ∀ o ∈ found, 0 < o.area ∧ 0 < p.nonuniform_dst_area sin dst_info o.row := by
  intro o ho
  obtain ⟨d, s, m, hoverlap, heq⟩ := (FindsImages.mem_iff h).mp ho
  subst heq
  have hboth := of_decide_eq_true hoverlap
  exact ⟨lt_trans (by norm_num) hboth.2.2.1, (of_decide_eq_true hboth.1).2⟩

theorem nonuniform_outside (hglobal : p.nonuniform_is_global src_info = false)
    (h : coord dst_info.unique_lons (d.2 + 1) ≤ coord src_info.unique_lons 0 ∨
      coord src_info.unique_lons src_info.ni ≤ coord dst_info.unique_lons d.2) :
    ∀ o ∈ p.nonuniform_pairs sin hsrc hdst, o.row ≠ hdst.cell d := by
  intro o ho hrow
  obtain ⟨d', s, hoverlap, rfl⟩ := mem_nonuniform_pairs.mp ho
  have hd : d' = d := hdst.cell_injective hrow
  subst hd
  have harea : 0 < p.nonuniform_overlap_area sin src_info dst_info d'.2 d'.1 (s.1 : Nat) (s.2 : Nat)
      (s.2 : Nat) := lt_trans (by norm_num) (of_decide_eq_true hoverlap).2.2.2
  obtain ⟨⟨hlo, hhi⟩, -⟩ := nonuniform_bounds harea
  have hshift : p.nonuniform_shift src_info dst_info d'.2 = 0 := by
    rw [nonuniform_shift, hglobal, if_neg (by decide)]
  rw [hshift, hglobal, if_neg (fun hc => by cases hc.1), sub_zero, add_zero,
    Int.toNat_natCast] at hlo hhi
  have hfirst := coord_le hsrc (Nat.zero_le s.2) s.2.isLt.le
  have hlast := coord_le hsrc (Nat.succ_le_of_lt s.2.isLt) (le_refl _)
  rcases h with hwest | heast
  · linarith
  · linarith

end WeightGenerator.Meshes

theorem RectMeshes.outside {p : RectMeshes ℚ} {sin : ℚ → ℚ} {d : Fin p.dst.nj × Fin p.dst.ni}
    (hglobal : p.src_is_global = false)
    (h : p.d_hi_x d ≤ p.src.lon_min ∨ p.src.lon_min + p.span ≤ p.d_lo_x d) :
    ∀ o ∈ p.all_pairs sin, o.row ≠ p.dst_cell_idx d := by
  intro o ho hrow
  obtain ⟨d', s, hoverlap, rfl⟩ := mem_all_pairs.mp ho
  have hd : d' = d := p.dst_cell_idx_injective hrow
  subst hd
  obtain ⟨⟨hlo, hhi⟩, -⟩ := bounds_of_overlap (of_decide_eq_true hoverlap).2.2.2
  have hshift : p.shift d' = 0 := by
    rw [shift, hglobal, if_neg (by decide)]
  rw [d_hi_x_norm, hshift, sub_zero, s_lo_x] at hlo
  rw [d_lo_x_norm, hshift, sub_zero, s_hi_x, s_lo_x] at hhi
  have hdelta := p.src.delta_lon_pos
  have hfirst : (0 : ℚ) ≤ (s.2 : Nat) * p.src.delta_lon := by positivity
  have hlast : ((s.2 : Nat) + 1 : ℚ) * p.src.delta_lon ≤ p.span := by
    apply mul_le_mul_of_nonneg_right _ hdelta.le
    exact_mod_cast Nat.succ_le_of_lt s.2.isLt
  push_cast at hlo hhi
  rcases h with hwest | heast
  · linarith
  · linarith

/-! ## Section 4: Both paths -/

namespace WeightGenerator

end WeightGenerator

/-! ## Section 5: One row of cells -/

/-- Cells of width `delta` from `lon_min` on. -/
def row_grid (n : Nat) (lon_min delta : ℚ) (hdelta : 0 < delta) : RegularMesh ℚ where
  ni := n
  nj := 1
  lon_min := lon_min
  lon_max := lon_min + n * delta
  lat_min := 0
  delta_lon := delta
  delta_lat := 1
  delta_lon_pos := hdelta
  delta_lat_pos := unit_width
  cell_areas := none
  cell_mask := ⟨0, Fin.elim0⟩

/-- A row of cells, and one cell. -/
def row_and_cell (csys : CoordinateSystem) (n : Nat) (delta lon_min delta' : ℚ) (hdelta : 0 < delta)
    (hdelta' : 0 < delta') : RectMeshes ℚ :=
  ⟨row_grid n 0 delta hdelta, row_grid 1 lon_min delta' hdelta', csys⟩

namespace WeightGenerator

/-- The same row with its nodes. -/
def row_mesh (n : Nat) (lon_min delta : ℚ) : Mesh where
  n_nodes := (n + 1) * 2
  n_cells := n
  coords := fun k => ⟨lon_min + (k.val / 2 : Nat) * delta, (k.val % 2 : Nat), 0⟩
  csys := .SphericalDeg
  cells := fun c => [⟨c * 2, by omega⟩, ⟨(c + 1) * 2, by omega⟩, ⟨(c + 1) * 2 + 1, by omega⟩,
    ⟨c * 2 + 1, by omega⟩]
  cell_areas := none
  cell_mask := none

def row_and_cell_meshes (n : Nat) (delta lon_min delta' : ℚ) : Meshes where
  src := row_mesh n 0 delta
  dst := row_mesh 1 lon_min delta'
  geometry :=
    { src_centroid := fun i => (i.val * delta + delta / 2, 1 / 2)
      dst_centroid := fun _ => (lon_min + delta' / 2, 1 / 2)
      src_areas := fun _ _ => delta
      dst_areas := fun _ _ => delta'
      src_degenerate := fun _ => false
      dst_degenerate := fun _ => false
      sorted_dst := Schedule.serial 1
      nearest := fun _ k _ => (List.finRange n).take k
      intersects := fun _ _ => List.finRange n
      overlap_area := fun _ _ _ => 0
      spherical_cap_rejects := fun _ _ => false
      clip := fun _ _ => ⟨[], 0⟩
      compute_polygon_overlap_area := fun _ _ => 0 }

def row_info (lons : List ℚ) : RectilinearGridInfo := ⟨true, lons.length - 1, 1, lons, [0, 1]⟩

/-- Four cells that go round, and one across the seam. -/
def quarters : RectMeshes ℚ := row_and_cell .SphericalDeg 4 90 315 90 (by norm_num) (by norm_num)

def quarters_meshes : Meshes := row_and_cell_meshes 4 90 315 90

theorem quarters_src : IsGrid (row_info [0, 90, 180, 270, 360]) quarters_meshes.src.n_cells :=
  ⟨rfl, rfl, by norm_num [row_info], by norm_num [row_info], rfl⟩

theorem quarters_dst : IsGrid (row_info [315, 405]) quarters_meshes.dst.n_cells :=
  ⟨rfl, rfl, by norm_num [row_info], by norm_num [row_info], rfl⟩

theorem quarters_seam (id : Fin 1) : Meshes.SeamHandled (row_info [0, 90, 180, 270, 360])
    (row_info [315, 405]) id := by
  unfold Meshes.SeamHandled
  revert id
  decide +kernel

/-- The entries of the matrix that is returned. -/
def matrix_keys {p : Meshes} (result : Outcome String p.Matrix) :
    Outcome String (List (Nat × Nat × ℚ)) := do
  let M ← result
  return M.entries.map fun e => (e.row.val, e.col.val, e.weight)

end WeightGenerator

end Axis

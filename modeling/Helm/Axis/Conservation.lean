import Helm.Axis.ConservativeRect

/-! # AXIS: conservation accounting

  `check_conservation` compares the integral of a source field with that of
  the destination field. The integrals are parallel reductions over the
  cells, and the number of their iterations is an `int`.

  An overlap of a source and a destination cell adds the value of the source
  field times the shared area to both integrals: to the first through the
  fraction of the source cell, to the second through the weight of the
  entry. The divisions by the two areas and by the fraction cancel.

  Main result: `conserves_iff`.
-/

namespace Axis

open Signed Segments ArrayLoops RectMeshes

variable {K : Type} [Field K]

/-! ## Section 1: The functions -/

variable (kk : Kokkos)

/-- The COO form of `apply`. -/
def ConservativeMatrix.apply (M : ConservativeMatrix K) (src_field : Fin M.n_src → K)
    (dst_field : Fin M.n_dst → K) : Fin M.n_dst → K :=
  let zeroed := assign (kk.order "axis::apply::zero_dst" M.n_dst).order (fun _ => true) id
    (fun _ => 0) dst_field
  accumulate (kk.order "axis::apply::spmv" M.entries.length).order (fun _ => true)
    (fun k => M.entries[k.val].row)
    (fun k => M.entries[k.val].weight * src_field M.entries[k.val].col) zeroed

/-- `Kokkos::parallel_reduce` over the cells of a field. Kokkos accepts no
    negative number of iterations. -/
def parallel_reduce (label : String) {n : Nat} (body : Fin n → K) : Outcome String K :=
  if to_int n < 0 then .undefined
  else
    have hrange : (to_int n).toNat ≤ n := toNat_to_int_le n
    .returned ((kk.order label (to_int n).toNat).order.map fun i => body (i.castLE hrange)).sum

def source_integral {n : Nat} (src_field area_a frac_a : Fin n → K) : Outcome String K :=
  parallel_reduce kk "source_integral" fun i => src_field i * area_a i * frac_a i

/-! ## Section 2: What a reduction adds up -/

section
variable {kk}

/-- One for the cells that an integral covers. -/
def covered {n : Nat} (i : Fin n) : K := if ((i : Nat) : Int) < to_int n then 1 else 0

theorem parallel_reduce_eq {label : String} {n : Nat} (h : 0 ≤ to_int n) (body : Fin n → K) :
    parallel_reduce kk label body = .returned (∑ i, covered i * body i) := by
  unfold parallel_reduce
  rw [if_neg (not_lt.mpr h)]
  apply congrArg Outcome.returned
  rw [Schedule.sum_map, sum_castLE]
  apply Finset.sum_congr rfl
  intro i _
  unfold covered
  have hiff : i.val < (to_int n).toNat ↔ ((i : Nat) : Int) < to_int n := by omega
  by_cases hi : ((i : Nat) : Int) < to_int n
  · rw [if_pos (hiff.mpr hi), if_pos hi, one_mul]
  · rw [if_neg (mt hiff.mp hi), if_neg hi, zero_mul]

theorem parallel_reduce_empty {label : String} (body : Fin 0 → K) :
    parallel_reduce kk label body = .returned 0 := by
  rw [parallel_reduce_eq (by decide)]
  simp

theorem nonneg_of_parallel_reduce {label : String} {n : Nat} {body : Fin n → K} {x : K}
    (h : parallel_reduce kk label body = .returned x) : 0 ≤ to_int n := by
  by_contra hneg
  rw [parallel_reduce, if_pos (not_le.mp hneg)] at h
  cases h

theorem apply_eq {M : ConservativeMatrix K} (src_field : Fin M.n_src → K) (dst_field : Fin M.n_dst → K) (j : Fin M.n_dst) :
    M.apply kk src_field dst_field j =
      (M.entries.map fun e => if e.row = j then e.weight * src_field e.col else 0).sum := by
  unfold ConservativeMatrix.apply
  rw [accumulate_schedule]
  have hzero : assign (kk.order "axis::apply::zero_dst" M.n_dst).order (fun _ => true) id
      (fun _ => (0 : K)) dst_field j = 0 :=
    assign_of_hit (fun _ _ h => h) (Schedule.mem _ j) rfl
  rw [hzero, zero_add, Finset.sum_filter]
  simp only [true_and]
  exact Fin.sum_univ_fun_getElem M.entries
    fun e => if e.row = j then e.weight * src_field e.col else 0

end

/-! ## Section 3: The report -/

variable [LinearOrder K]

def destination_integral {n : Nat} (dst_field area_b frac_b : Fin n → K) (norm_type : NormType) :
    Outcome String K :=
  match norm_type with
  | .DstArea => parallel_reduce kk "destination_integral_DstArea" fun j =>
      if frac_b j ≠ 0 then dst_field j * area_b j else 0
  | .FracArea => parallel_reduce kk "destination_integral_FracArea" fun j =>
      dst_field j * area_b j * frac_b j

structure ConservationReport (K : Type) where
  src_integral : K
  dst_integral : K
  absolute_error : K
  relative_error : K

section
local instance epsilon_two : Nat.AtLeastTwo 2 := inferInstance

/-- `std::numeric_limits<double>::epsilon()` -/
def eps : K := 1 / 2 ^ 52

end

def check_conservation (M : ConservativeMatrix K) (src_field : Fin M.n_src → K)
    (dst_field : Fin M.n_dst → K) (norm_type : NormType) :
    Outcome String (ConservationReport K) := do
  let src_integral ← source_integral kk src_field M.area_a M.frac_a
  let dst_integral ← destination_integral kk dst_field M.area_b M.frac_b norm_type
  let absolute_error := |src_integral - dst_integral|
  let denom := max (max |src_integral| |dst_integral|) eps
  return { src_integral, dst_integral, absolute_error, relative_error := absolute_error / denom }

/-! ## Section 4: When the integrals cover the same cells -/

section
variable [FloorRing K] (p : RectMeshes K) (sin : K → K)

/-- No fraction exceeds one before it is clamped. -/
def FractionsAtMostOne : Prop :=
  ∀ found, p.overlaps sin = .returned found →
    (∀ i, p.frac_a_acc sin found i ≤ 1) ∧ ∀ j, p.frac_b_acc sin found j ≤ 1

/-- Of two cells that overlap, the integrals cover both or none. -/
structure CoveredAlike : Prop where
  src_range : 0 ≤ to_int p.src.n_cells
  dst_range : 0 ≤ to_int p.dst.n_cells
  alike : ∀ d js i s, p.Touches sin d js i s →
    ((s : Nat) < to_int p.src.n_cells ↔ (p.dst_cell_idx d : Nat) < to_int p.dst.n_cells)

variable {p} {sin}

theorem CoveredAlike.of_small (hsrc : p.src.n_cells < 2 ^ 31) (hdst : p.dst.n_cells < 2 ^ 31) :
    CoveredAlike p sin := by
  have hsrc_int : to_int p.src.n_cells = p.src.n_cells :=
    to_int_of_fits (fits_32.mpr (by omega))
  have hdst_int : to_int p.dst.n_cells = p.dst.n_cells :=
    to_int_of_fits (fits_32.mpr (by omega))
  constructor
  · omega
  · omega
  · intro d js i s _
    have hs := s.isLt
    have hd := (p.dst_cell_idx d).isLt
    omega

end

/-! ## Section 5: Double counting -/

variable {kk}

section
variable {p : RectMeshes K} {sin : K → K} {found : List (Overlap K p.src.n_cells p.dst.n_cells)}

/-- The areas of an overlap and of its two cells are positive. -/
structure Positive (p : RectMeshes K) (sin : K → K) (o : Overlap K p.src.n_cells p.dst.n_cells) :
    Prop where
  area : 0 < o.area
  src_area : 0 < cell_area sin p.csys p.src o.col
  dst_area : 0 < cell_area sin p.csys p.dst o.row

theorem positive_of_mem [FloorRing K] [IsStrictOrderedRing K] (h : p.overlaps sin = .returned found) {o} (ho : o ∈ found) :
    Positive p sin o := by
  obtain ⟨d, js, i, s, htouch, heq⟩ := (mem_overlaps h).mp ho
  subst heq
  exact ⟨htouch.overlap, htouch.src_area, htouch.dst_area⟩

theorem frac_a_acc_eq (i : Fin p.src.n_cells) :
    p.frac_a_acc sin found i = (found.map fun o =>
      if o.col = i then o.area / cell_area sin p.csys p.src o.col else 0).sum := by
  unfold frac_a_acc
  rw [accumulate_apply, zero_add]
  simp only [true_and]

theorem frac_b_acc_eq (j : Fin p.dst.n_cells) :
    p.frac_b_acc sin found j = (found.map fun o =>
      if o.row = j then o.area / cell_area sin p.csys p.dst o.row else 0).sum := by
  unfold frac_b_acc
  rw [accumulate_apply, zero_add]
  simp only [true_and]

theorem source_integral_eq (hsrc : 0 ≤ to_int p.src.n_cells)
    (hpos : ∀ o ∈ found, Positive p sin o) (hle : ∀ i, p.frac_a_acc sin found i ≤ 1)
    (src_field : Fin p.src.n_cells → K) :
    source_integral kk src_field (cell_area sin p.csys p.src)
        (fun i => min (p.frac_a_acc sin found i) 1) =
      .returned (found.map fun o => covered o.col * (o.area * src_field o.col)).sum := by
  unfold source_integral
  rw [parallel_reduce_eq hsrc]
  apply congrArg Outcome.returned
  calc ∑ i, covered i * (src_field i * cell_area sin p.csys p.src i *
          min (p.frac_a_acc sin found i) 1)
      = ∑ i, (covered i * src_field i * cell_area sin p.csys p.src i) * (found.map fun o =>
          if o.col = i then o.area / cell_area sin p.csys p.src o.col else 0).sum := by
        apply Finset.sum_congr rfl
        intro i _
        rw [min_eq_left (hle i), ← frac_a_acc_eq]
        ring
    _ = (found.map fun o => (covered o.col * src_field o.col * cell_area sin p.csys p.src o.col) *
          (o.area / cell_area sin p.csys p.src o.col)).sum :=
        sum_mul_received found (·.col) _ _
    _ = (found.map fun o => covered o.col * (o.area * src_field o.col)).sum := by
        apply congrArg List.sum
        apply List.map_congr_left
        intro o ho
        have harea := (hpos o ho).src_area.ne'
        field_simp

/-- What the destination integral multiplies a cell of the field by. -/
def cell_factor (p : RectMeshes K) (sin : K → K)
    (found : List (Overlap K p.src.n_cells p.dst.n_cells)) (norm_type : NormType)
    (j : Fin p.dst.n_cells) : K :=
  match norm_type with
  | .DstArea => if min (p.frac_b_acc sin found j) 1 ≠ 0 then cell_area sin p.csys p.dst j else 0
  | .FracArea => cell_area sin p.csys p.dst j * min (p.frac_b_acc sin found j) 1

theorem destination_integral_factor (hdst : 0 ≤ to_int p.dst.n_cells) (norm_type : NormType)
    (field : Fin p.dst.n_cells → K) :
    destination_integral kk field (cell_area sin p.csys p.dst)
        (fun j => min (p.frac_b_acc sin found j) 1) norm_type =
      .returned (∑ j, covered j * (cell_factor p sin found norm_type j * field j)) := by
  unfold destination_integral cell_factor
  cases norm_type with
  | DstArea =>
    apply (parallel_reduce_eq hdst _).trans
    apply congrArg Outcome.returned
    apply Finset.sum_congr rfl
    intro j _
    dsimp only
    split
    · ring
    · ring
  | FracArea =>
    apply (parallel_reduce_eq hdst _).trans
    apply congrArg Outcome.returned
    apply Finset.sum_congr rfl
    intro j _
    ring

theorem apply_pack (norm_type : NormType) (src_field : Fin p.src.n_cells → K)
    (dst_field : Fin p.dst.n_cells → K) (j : Fin p.dst.n_cells) :
    (p.pack sin found norm_type).apply kk src_field dst_field j = (found.map fun o =>
      if o.row = j then p.weight sin found norm_type o * src_field o.col else 0).sum := by
  apply (apply_eq (M := p.pack sin found norm_type) src_field dst_field j).trans
  apply congrArg List.sum
  exact List.map_map

section
variable [IsStrictOrderedRing K]

theorem frac_b_acc_pos (hpos : ∀ o ∈ found, Positive p sin o) {o} (ho : o ∈ found) :
    0 < p.frac_b_acc sin found o.row := by
  rw [frac_b_acc_eq]
  have hterm : 0 < o.area / cell_area sin p.csys p.dst o.row :=
    div_pos (hpos o ho).area (hpos o ho).dst_area
  apply lt_of_lt_of_le hterm
  have hnonneg : ∀ x ∈ found.map fun o' => if o'.row = o.row then
      o'.area / cell_area sin p.csys p.dst o'.row else 0, 0 ≤ x := by
    intro x hx
    obtain ⟨o', ho', heq⟩ := List.mem_map.mp hx
    subst heq
    split
    · exact (div_pos (hpos o' ho').area (hpos o' ho').dst_area).le
    · exact le_refl 0
  apply List.single_le_sum hnonneg
  exact List.mem_map.mpr ⟨o, ho, by simp⟩

theorem cell_factor_mul_weight (hpos : ∀ o ∈ found, Positive p sin o)
    (hle : ∀ j, p.frac_b_acc sin found j ≤ 1) (norm_type : NormType) {o} (ho : o ∈ found) :
    cell_factor p sin found norm_type o.row * p.weight sin found norm_type o = o.area := by
  have harea := (hpos o ho).dst_area.ne'
  have hfrac := frac_b_acc_pos hpos ho
  have hw : max (o.area / cell_area sin p.csys p.dst o.row) 0 =
      o.area / cell_area sin p.csys p.dst o.row :=
    max_eq_left (div_pos (hpos o ho).area (hpos o ho).dst_area).le
  unfold cell_factor weight
  cases norm_type with
  | DstArea =>
    simp only [min_eq_left (hle o.row), hw]
    rw [if_pos hfrac.ne', if_neg (by simp)]
    field_simp
  | FracArea =>
    simp only [min_eq_left (hle o.row), hw]
    rw [if_pos ⟨trivial, hfrac⟩]
    have hne := hfrac.ne'
    field_simp

theorem destination_integral_eq (hdst : 0 ≤ to_int p.dst.n_cells)
    (hpos : ∀ o ∈ found, Positive p sin o) (hle : ∀ j, p.frac_b_acc sin found j ≤ 1)
    (norm_type : NormType) (src_field : Fin p.src.n_cells → K)
    (dst_field : Fin p.dst.n_cells → K) :
    destination_integral kk ((p.pack sin found norm_type).apply kk src_field dst_field)
        (cell_area sin p.csys p.dst) (fun j => min (p.frac_b_acc sin found j) 1) norm_type =
      .returned (found.map fun o => covered o.row * (o.area * src_field o.col)).sum := by
  apply (destination_integral_factor hdst norm_type _).trans
  apply congrArg Outcome.returned
  calc ∑ j, covered j * (cell_factor p sin found norm_type j *
          (p.pack sin found norm_type).apply kk src_field dst_field j)
      = ∑ j, (covered j * cell_factor p sin found norm_type j) * (found.map fun o =>
          if o.row = j then p.weight sin found norm_type o * src_field o.col else 0).sum := by
        apply Finset.sum_congr rfl
        intro j _
        rw [apply_pack, mul_assoc]
    _ = (found.map fun o => (covered o.row * cell_factor p sin found norm_type o.row) *
          (p.weight sin found norm_type o * src_field o.col)).sum :=
        sum_mul_received found (·.row) _ _
    _ = (found.map fun o => covered o.row * (o.area * src_field o.col)).sum := by
        apply congrArg List.sum
        apply List.map_congr_left
        intro o ho
        rw [← cell_factor_mul_weight hpos hle norm_type ho]
        ring

/-- Two ways of covering the overlaps give every field the same sum only when
    each overlap is covered alike. -/
theorem covered_sums_agree (hpos : ∀ o ∈ found, Positive p sin o)
    (h : ∀ src_field : Fin p.src.n_cells → K,
      (found.map fun o => covered o.col * (o.area * src_field o.col)).sum =
        (found.map fun o => covered o.row * (o.area * src_field o.col)).sum) :
    ∀ o ∈ found, ((o.col : Nat) < to_int p.src.n_cells ↔ (o.row : Nat) < to_int p.dst.n_cells) := by
  intro o ho
  -- the field that is one on the source cell of the overlap and zero elsewhere
  have hsum := h fun i => if i = o.col then 1 else 0
  have harea := (hpos o ho).area
  by_cases hcol : ((o.col : Nat) : Int) < to_int p.src.n_cells
  · by_contra hnot
    have hrow : ¬ ((o.row : Nat) : Int) < to_int p.dst.n_cells := fun hlt =>
      hnot ⟨fun _ => hlt, fun _ => hcol⟩
    -- every overlap of this cell counts in full on the left
    have hle : (found.map fun o' => covered o'.row * (o'.area * if o'.col = o.col then 1 else 0)).sum <
        (found.map fun o' => covered o'.col * (o'.area * if o'.col = o.col then 1 else 0)).sum := by
      apply List.sum_lt_sum
      · intro o' ho'
        by_cases heq : o'.col = o.col
        · have harea' := (hpos o' ho').area
          unfold covered
          rw [heq, if_pos hcol]
          split
          · exact le_refl _
          · simp only [zero_mul, if_true, mul_one, one_mul]
            exact harea'.le
        · simp [heq]
      · exact ⟨o, ho, by simp [covered, hcol, hrow, harea]⟩
    rw [hsum] at hle
    exact lt_irrefl _ hle
  · by_contra hnot
    have hrow : ((o.row : Nat) : Int) < to_int p.dst.n_cells := by
      by_contra hlt
      exact hnot ⟨fun hlt' => absurd hlt' hcol, fun hlt' => absurd hlt' hlt⟩
    -- and on the right when it is not covered
    have hle : (found.map fun o' => covered o'.col * (o'.area * if o'.col = o.col then 1 else 0)).sum <
        (found.map fun o' => covered o'.row * (o'.area * if o'.col = o.col then 1 else 0)).sum := by
      apply List.sum_lt_sum
      · intro o' ho'
        by_cases heq : o'.col = o.col
        · have harea' := (hpos o' ho').area
          unfold covered
          rw [heq, if_neg hcol, zero_mul]
          split
          · simp only [if_true, mul_one, one_mul]
            exact harea'.le
          · simp
        · simp [heq]
      · exact ⟨o, ho, by simp [covered, hcol, hrow, harea]⟩
    rw [hsum] at hle
    exact lt_irrefl _ hle

end

/-! ## Section 6: Conservation -/

section
variable [FloorRing K] [IsStrictOrderedRing K]

/-- Every application of the matrix conserves the integral. -/
def Conserves (kk : Kokkos) (M : ConservativeMatrix K) (norm_type : NormType) : Prop :=
  ∀ src_field dst_field, ∃ report,
    check_conservation kk M src_field (M.apply kk src_field dst_field) norm_type =
      .returned report ∧ report.absolute_error = 0

omit [FloorRing K] [IsStrictOrderedRing K] in
theorem absolute_error_of_integrals {M : ConservativeMatrix K} {src_field : Fin M.n_src → K}
    {dst_field : Fin M.n_dst → K} {norm_type : NormType} {a b : K}
    (ha : source_integral kk src_field M.area_a M.frac_a = .returned a)
    (hb : destination_integral kk dst_field M.area_b M.frac_b norm_type = .returned b) :
    ∃ report, check_conservation kk M src_field dst_field norm_type = .returned report ∧
      report.absolute_error = |a - b| := by
  unfold check_conservation
  rw [ha, Outcome.returned_bind, hb, Outcome.returned_bind]
  exact ⟨_, rfl, rfl⟩

omit [FloorRing K] in
theorem conserves_empty (norm_type : NormType) :
    Conserves kk (ConservativeMatrix.empty (K := K)) norm_type := by
  intro src_field dst_field
  have ha : source_integral kk src_field ConservativeMatrix.empty.area_a
      ConservativeMatrix.empty.frac_a = .returned 0 := parallel_reduce_empty _
  have hb : destination_integral kk (ConservativeMatrix.empty.apply kk src_field dst_field)
      ConservativeMatrix.empty.area_b ConservativeMatrix.empty.frac_b norm_type = .returned 0 := by
    unfold destination_integral
    cases norm_type with
    | DstArea => exact parallel_reduce_empty _
    | FracArea => exact parallel_reduce_empty _
  obtain ⟨report, hreport, herror⟩ := absolute_error_of_integrals ha hb
  exact ⟨report, hreport, by simpa using herror⟩

theorem conserves_pack_iff {p : RectMeshes K} {sin : K → K}
    {found : List (Overlap K p.src.n_cells p.dst.n_cells)} (hfound : p.overlaps sin = .returned found)
    (hfrac_a : ∀ i, p.frac_a_acc sin found i ≤ 1) (hfrac_b : ∀ j, p.frac_b_acc sin found j ≤ 1)
    (norm_type : NormType) :
    Conserves kk (p.pack sin found norm_type) norm_type ↔ CoveredAlike p sin := by
  have hpos : ∀ o ∈ found, Positive p sin o := fun o ho => positive_of_mem hfound ho
  constructor
  · intro hconserves
    have hranges : 0 ≤ to_int p.src.n_cells ∧ 0 ≤ to_int p.dst.n_cells := by
      obtain ⟨report, hreport, _⟩ := hconserves (fun _ => 0) (fun _ => 0)
      obtain ⟨_, ha, hreport⟩ := Outcome.bind_eq_returned.mp hreport
      obtain ⟨_, hb, _⟩ := Outcome.bind_eq_returned.mp hreport
      refine ⟨nonneg_of_parallel_reduce ha, ?_⟩
      unfold destination_integral at hb
      cases norm_type with
      | DstArea => exact nonneg_of_parallel_reduce hb
      | FracArea => exact nonneg_of_parallel_reduce hb
    obtain ⟨hsrc, hdst⟩ := hranges
    refine ⟨hsrc, hdst, ?_⟩
    have hagree : ∀ src_field : Fin p.src.n_cells → K,
        (found.map fun o => covered o.col * (o.area * src_field o.col)).sum =
          (found.map fun o => covered o.row * (o.area * src_field o.col)).sum := by
      intro src_field
      obtain ⟨report, hreport, herror⟩ := hconserves src_field (fun _ => 0)
      obtain ⟨a, ha, hreport⟩ := Outcome.bind_eq_returned.mp hreport
      obtain ⟨b, hb, hreport⟩ := Outcome.bind_eq_returned.mp hreport
      have ha' := (source_integral_eq hsrc hpos hfrac_a src_field).symm.trans ha
      have hb' := (destination_integral_eq hdst hpos hfrac_b norm_type src_field _).symm.trans hb
      cases ha'
      cases hb'
      cases hreport
      exact sub_eq_zero.mp (abs_eq_zero.mp herror)
    intro d js i s htouch
    have hmem := (mem_overlaps hfound).mpr ⟨d, js, i, s, htouch, rfl⟩
    have hiff := covered_sums_agree hpos hagree _ hmem
    dsimp only at hiff
    exact hiff
  · intro halike src_field dst_field
    obtain ⟨report, hreport, herror⟩ :=
      absolute_error_of_integrals (M := p.pack sin found norm_type)
        (source_integral_eq halike.src_range hpos hfrac_a src_field)
        (destination_integral_eq halike.dst_range hpos hfrac_b norm_type src_field dst_field)
    refine ⟨report, hreport, ?_⟩
    rw [herror, abs_eq_zero, sub_eq_zero]
    apply congrArg List.sum
    apply List.map_congr_left
    intro o ho
    obtain ⟨d, js, i, s, htouch, heq⟩ := (mem_overlaps hfound).mp ho
    have hiff := halike.alike d js i s htouch
    subst heq
    unfold covered
    simp only [hiff]

/-- **Conservation**: the matrix between two regular grids conserves the
    integral of every field exactly when any two cells that overlap are both
    among the cells that the integrals cover, or both not. -/
theorem conserves_iff {p : RectMeshes K} {sin : K → K} {norm_type : NormType}
    {M : ConservativeMatrix K} (hM : p.generate_conservative_rect sin norm_type = .returned M)
    (hfrac : p.falls_back = false → FractionsAtMostOne p sin) :
    Conserves kk M norm_type ↔ p.falls_back = true ∨ CoveredAlike p sin := by
  unfold generate_conservative_rect at hM
  by_cases hfalls : p.falls_back = true
  · rw [if_pos hfalls] at hM
    cases hM
    exact ⟨fun _ => .inl hfalls, fun _ => conserves_empty norm_type⟩
  · rw [if_neg hfalls] at hM
    obtain ⟨found, hfound, hM⟩ := Outcome.bind_eq_returned.mp hM
    cases hM
    obtain ⟨hfrac_a, hfrac_b⟩ := hfrac (by simpa using hfalls) found hfound
    rw [conserves_pack_iff hfound hfrac_a hfrac_b]
    simp [hfalls]

end

/-! ### A grid of more than 2^31 cells -/

/-- A grid of unit squares without mask and areas. -/
def unit_mesh (ni nj : Nat) (lon_min lat_min : ℚ) : RegularMesh ℚ where
  ni := ni
  nj := nj
  lon_min := lon_min
  lon_max := lon_min + ni
  lat_min := lat_min
  delta_lon := 1
  delta_lat := 1
  delta_lon_pos := one_pos
  delta_lat_pos := one_pos
  cell_areas := none
  cell_mask := ⟨0, fun i => i.elim0⟩

/-- From a grid of `n` rows and columns to the square at `(i, j)`. -/
def to_square (n : Nat) (i j : ℚ) : RectMeshes ℚ where
  src := unit_mesh n n 0 0
  dst := unit_mesh 1 1 i j
  csys := .Cartesian3D

theorem fractions_of_square {n : Nat} {i j : ℚ} {o} (h : (to_square n i j).overlaps id = .returned [o])
    (harea : o.area = 1) : FractionsAtMostOne (to_square n i j) id := by
  intro found hfound
  rw [h] at hfound
  cases hfound
  constructor
  · intro c
    rw [frac_a_acc_eq]
    have hcell : cell_area id (to_square n i j).csys (to_square n i j).src o.col = 1 := one_mul 1
    simp only [List.map_cons, List.map_nil, List.sum_cons, List.sum_nil, hcell, harea]
    split
    · norm_num
    · norm_num
  · intro c
    rw [frac_b_acc_eq]
    have hcell : cell_area id (to_square n i j).csys (to_square n i j).dst o.row = 1 := one_mul 1
    simp only [List.map_cons, List.map_nil, List.sum_cons, List.sum_nil, hcell, harea]
    split
    · norm_num
    · norm_num

theorem overlaps_small : (to_square 2 1 0).overlaps id = .returned [⟨⟨0, by decide⟩, ⟨1, by decide⟩, 1⟩] := by
  decide +kernel

theorem overlaps_large : (to_square 65537 10 65530).overlaps id =
    .returned [⟨⟨0, by decide⟩, ⟨65530 * 65537 + 10, by decide⟩, 1⟩] := by
  decide +kernel

theorem generate_of_overlaps {p : RectMeshes ℚ} {found} (hfalls : p.falls_back = false)
    (h : p.overlaps id = .returned found) (norm_type : NormType) :
    p.generate_conservative_rect id norm_type = .returned (p.pack id found norm_type) := by
  unfold generate_conservative_rect
  rw [if_neg (by simp [hfalls]), h]
  rfl

theorem conserves_small_grid : Conserves .serial
    ((to_square 2 1 0).pack id [⟨⟨0, by decide⟩, ⟨1, by decide⟩, 1⟩] .FracArea) .FracArea :=
  (conserves_iff (generate_of_overlaps (by decide +kernel) overlaps_small .FracArea)
    (fun _ => fractions_of_square overlaps_small rfl)).mpr
    (.inr (CoveredAlike.of_small (by decide) (by decide)))

theorem large_grid_loses_cell : FractionsAtMostOne (to_square 65537 10 65530) id ∧
    ∃ M, (to_square 65537 10 65530).generate_conservative_rect id .DstArea = .returned M ∧
      ∃ src_field dst_field report,
        check_conservation .serial M src_field (M.apply .serial src_field dst_field) .DstArea =
          .returned report ∧ report.absolute_error = 1 := by
  have hfrac := fractions_of_square overlaps_large rfl
  refine ⟨hfrac, _, generate_of_overlaps (by decide +kernel) overlaps_large .DstArea, ?_⟩
  obtain ⟨hfrac_a, hfrac_b⟩ := hfrac _ overlaps_large
  have hpos : ∀ o ∈ _, Positive _ id o := fun o ho => positive_of_mem overlaps_large ho
  obtain ⟨report, hreport, herror⟩ := absolute_error_of_integrals
    (M := (to_square 65537 10 65530).pack id _ .DstArea)
    (source_integral_eq (by decide) hpos hfrac_a fun _ => 1)
    (destination_integral_eq (by decide) hpos hfrac_b .DstArea (fun _ => 1) fun _ => 0)
  refine ⟨fun _ => 1, fun _ => 0, report, hreport, ?_⟩
  rw [herror]
  -- only the destination cell is covered
  have hcol : ¬ ((65530 * 65537 + 10 : Nat) : Int) < to_int (to_square 65537 10 65530).src.n_cells := by
    decide
  have hrow : ((0 : Nat) : Int) < to_int (to_square 65537 10 65530).dst.n_cells := by decide
  simp only [List.map_cons, List.map_nil, List.sum_cons, List.sum_nil, covered, if_neg hcol,
    if_pos hrow]
  norm_num

end

end Axis

import Helm.Framework.ArrayLoops
import Helm.Framework.Segments

/-! # AXIS: weights for vectors

  A vector field is given by its components `u` and `v` in a local frame of
  every cell, which is turned by the rotation angle of the cell.
  `VectorWeightGenerator::generate` makes two matrices out of the scalar one.
  Each takes both components, stacked as `[u | v]`, and gives one component
  in the frames of the destination cells.

  The entries are made in a loop on the host, which appends to vectors, or
  by a kernel on the device, which writes to views. Mirrors and copies
  between memory spaces are identities. The numbers are those of any field
  with some sine and cosine; for the results these are the real functions.

  Main result: `generate_rotates`.
-/

namespace Axis.VectorWeightGenerator

open Signed ArrayLoops

/-! ## Section 1: Matrices -/

/-- `InterpolationMatrix` in COO form. An `index_t` is an integer. -/
structure InterpolationMatrix (K : Type) (nnz n_src n_dst : Nat) where
  factor_list : Fin nnz → K
  factor_row : Fin nnz → Int
  factor_col : Fin nnz → Int
  frac_a : Fin n_src → K
  frac_b : Fin n_dst → K
  area_a : Fin n_src → K
  area_b : Fin n_dst → K

/-- Every entry lies in the matrix. -/
structure InterpolationMatrix.Valid {K : Type} {nnz n_src n_dst : Nat}
    (A : InterpolationMatrix K nnz n_src n_dst) : Prop where
  row : ∀ k, 0 ≤ A.factor_row k ∧ A.factor_row k < n_dst
  col : ∀ k, 0 ≤ A.factor_col k ∧ A.factor_col k < n_src

/-- A scalar weight matrix. Its arrays of eight-byte numbers are in memory. -/
structure ScalarMatrix (K : Type) (nnz n_src n_dst : Nat) extends
    InterpolationMatrix K nnz n_src n_dst where
  valid : toInterpolationMatrix.Valid
  nnz_fits : nnz * 8 < 2 ^ 64
  n_src_fits : n_src * 8 < 2 ^ 64

section
variable {K : Type} {nnz n_src n_dst : Nat}

instance (A : InterpolationMatrix K nnz n_src n_dst) : Decidable A.Valid :=
  decidable_of_iff ((∀ k, 0 ≤ A.factor_row k ∧ A.factor_row k < n_dst) ∧
      ∀ k, 0 ≤ A.factor_col k ∧ A.factor_col k < n_src)
    ⟨fun h => ⟨h.1, h.2⟩, fun h => ⟨h.row, h.col⟩⟩

def InterpolationMatrix.Valid.row_index {A : InterpolationMatrix K nnz n_src n_dst} (h : A.Valid)
    (k : Fin nnz) : Fin n_dst :=
  ⟨(A.factor_row k).toNat, by have hrow := h.row k; omega⟩

def InterpolationMatrix.Valid.col_index {A : InterpolationMatrix K nnz n_src n_dst} (h : A.Valid)
    (k : Fin nnz) : Fin n_src :=
  ⟨(A.factor_col k).toNat, by have hcol := h.col k; omega⟩

variable [AddCommMonoid K] [Mul K]

/-- `apply(matrix, src, dst)` for a matrix in COO form: clear the destination,
    then add the entries, both in an unknown order. -/
def apply (order : String → (n : Nat) → Schedule n) (A : InterpolationMatrix K nnz n_src n_dst)
    (src : Fin n_src → K) (dst : Fin n_dst → K) :
    Outcome String (Fin n_dst → K) :=
  if h : A.Valid then
    let zeroed := assign (order "axis::apply::zero_dst" n_dst).order (fun _ => true) id
      (fun _ => 0) dst
    .returned (accumulate (order "axis::apply::spmv" nnz).order (fun _ => true) h.row_index
      (fun k => A.factor_list k * src (h.col_index k)) zeroed)
  else .undefined

end

/-! ## Section 2: The two branches -/

section
variable {K : Type}

/-- The three vectors of the host branch. -/
structure Vectors (K : Type) where
  rows : List Int
  cols : List Int
  vals : List K

def Vectors.push_back (s : Vectors K) (j i : Int) (w : K) : Vectors K :=
  { rows := s.rows ++ [j], cols := s.cols ++ [i], vals := s.vals ++ [w] }

/-- The three views of a matrix. -/
structure Views (K : Type) (n : Nat) where
  rows : Fin n → Int
  cols : Fin n → Int
  vals : Fin n → K

def Views.write {n : Nat} (s : Views K n) (p : Fin n) (j i : Int) (w : K) : Views K n :=
  { rows := Function.update s.rows p j, cols := Function.update s.cols p i,
    vals := Function.update s.vals p w }

/-- `host_rows(k) = rows[k]` and so on, for `n` entries. -/
def Vectors.to_views (s : Vectors K) (n : Nat) : Outcome String (Views K n) :=
  if h : n ≤ s.rows.length ∧ n ≤ s.cols.length ∧ n ≤ s.vals.length then
    .returned
      { rows := fun k => s.rows[k], cols := fun k => s.cols[k], vals := fun k => s.vals[k] }
  else .undefined

/-- Where the kernels run. -/
inductive Space
  | host
  | device
  deriving DecidableEq, Repr

/-- `i + n_src` is unsigned, and stored as an `index_t`. -/
def stacked (n_src : Nat) (i : Int) : Int := (i + n_src).bmod (2 ^ 64)

variable [Field K] (cos sin : K → K) {nnz n_src n_dst : Nat}

section
variable (W : ScalarMatrix K nnz n_src n_dst) (src_rotation : Fin n_src → K)
  (dst_rotation : Fin n_dst → K)

/-- The angle between the frames of the two cells of entry `k`. -/
def diff_alpha (k : Fin nnz) : K :=
  dst_rotation (W.valid.row_index k) - src_rotation (W.valid.col_index k)

/-- An iteration of the host loop, for `W_u` and `W_v`. -/
def host_step (s : Vectors K × Vectors K) (k : Fin nnz) : Vectors K × Vectors K :=
  let j := W.factor_row k
  let i := W.factor_col k
  let w := W.factor_list k
  let cos_d := cos (diff_alpha W src_rotation dst_rotation k)
  let sin_d := sin (diff_alpha W src_rotation dst_rotation k)
  ((s.1.push_back j i (w * cos_d)).push_back j (stacked n_src i) (w * sin_d),
    (s.2.push_back j i (-w * sin_d)).push_back j (stacked n_src i) (w * cos_d))

/-- An iteration of `AssembleVectorWeightsDevice`. -/
def device_step (s : Views K (nnz * 2) × Views K (nnz * 2)) (k : Fin nnz) :
    Views K (nnz * 2) × Views K (nnz * 2) :=
  let j := W.factor_row k
  let i := W.factor_col k
  let w := W.factor_list k
  let cos_d := cos (diff_alpha W src_rotation dst_rotation k)
  let sin_d := sin (diff_alpha W src_rotation dst_rotation k)
  let idx0 := even k
  let idx1 := odd k
  ((s.1.write idx0 j i (w * cos_d)).write idx1 j (stacked n_src i) (w * sin_d),
    (s.2.write idx0 j i (-w * sin_d)).write idx1 j (stacked n_src i) (w * cos_d))

/-- A view is zero at first. -/
def Views.zero (n : Nat) : Views K n := { rows := fun _ => 0, cols := fun _ => 0, vals := fun _ => 0 }

/-- The views of `W_u` and `W_v`. -/
def assemble (order : String → (n : Nat) → Schedule n) :
    Space → Outcome String (Views K (nnz * 2) × Views K (nnz * 2))
  | .device =>
    .returned ((order "AssembleVectorWeightsDevice" nnz).order.foldl
      (device_step cos sin W src_rotation dst_rotation) (.zero _, .zero _))
  | .host =>
    let s := (List.finRange nnz).foldl (host_step cos sin W src_rotation dst_rotation)
      (⟨[], [], []⟩, ⟨[], [], []⟩)
    do
      let u ← s.1.to_views (nnz * 2)
      let v ← s.2.to_views (nnz * 2)
      return (u, v)

/-- `CopyFractionsHost` and `CopyFractionsDevice`, for one of the arrays. -/
def copy_fractions (copies : Schedule n_src) (orig : Fin n_src → K) : Fin (n_src * 2) → K :=
  copies.order.foldl
    (fun a i => Function.update (Function.update a (low i) (orig i)) (high i) (orig i))
    (fun _ => 0)

/-- `VectorWeightGenerator::generate`, from the scalar weights on. -/
def generate (order : String → (n : Nat) → Schedule n) (space : Space) :
    Outcome String (InterpolationMatrix K (nnz * 2) (n_src * 2) n_dst ×
      InterpolationMatrix K (nnz * 2) (n_src * 2) n_dst) :=
  -- a product that wraps gives views that are too short
  if 2 ^ 64 ≤ nnz * 2 ∨ 2 ^ 64 ≤ n_src * 2 then .undefined
  else
    let copies := match space with
      | .device => order "CopyFractionsDevice" n_src
      | .host => order "CopyFractionsHost" n_src
    let matrix (s : Views K (nnz * 2)) : InterpolationMatrix K (nnz * 2) (n_src * 2) n_dst :=
      { factor_list := s.vals, factor_row := s.rows, factor_col := s.cols,
        frac_a := copy_fractions copies W.frac_a, frac_b := W.frac_b,
        area_a := copy_fractions copies W.area_a, area_b := W.area_b }
    do
      let (u, v) ← assemble cos sin W src_rotation dst_rotation order space
      return (matrix u, matrix v)

/-! ## Section 3: What the branches make -/

/-- The entries of one of the matrices: entry `k` gives one with the weight
    `a k` for the component `u` and one with `b k` for `v`. -/
def coupled (a b : Fin nnz → K) : Views K (nnz * 2) :=
  { rows := interleave W.factor_row W.factor_row
    cols := interleave W.factor_col fun k => W.factor_col k + n_src
    vals := interleave a b }

omit [Field K] in
theorem stacked_eq (k : Fin nnz) : stacked n_src (W.factor_col k) = W.factor_col k + n_src := by
  have hcol := W.valid.col k
  have hfits := W.n_src_fits
  unfold stacked
  apply Int.bmod_eq_of_le
  · omega
  · omega

/-- The two entries of an iteration, for one of the matrices. -/
def write_two (a b : Fin nnz → K) (s : Views K (nnz * 2)) (k : Fin nnz) : Views K (nnz * 2) :=
  (s.write (even k) (W.factor_row k) (W.factor_col k) (a k)).write (odd k) (W.factor_row k)
    (stacked n_src (W.factor_col k)) (b k)

def push_two (a b : Fin nnz → K) (s : Vectors K) (k : Fin nnz) : Vectors K :=
  (s.push_back (W.factor_row k) (W.factor_col k) (a k)).push_back (W.factor_row k)
    (stacked n_src (W.factor_col k)) (b k)

omit [Field K] in
theorem write_loop (a b : Fin nnz → K) (order : Schedule nnz) (s : Views K (nnz * 2)) :
    order.order.foldl (write_two W a b) s = coupled W a b := by
  have hrows : (order.order.foldl (write_two W a b) s).rows =
      interleave W.factor_row W.factor_row :=
    (List.foldl_hom Views.rows fun _ _ => rfl).symm.trans
      (write_twice order s.rows (by simp) (by simp) even_or_odd)
  have hcols : (order.order.foldl (write_two W a b) s).cols =
      interleave W.factor_col fun k => W.factor_col k + n_src :=
    (List.foldl_hom Views.cols fun _ _ => rfl).symm.trans
      (write_twice order s.cols (by simp) (by simp [stacked_eq]) even_or_odd)
  have hvals : (order.order.foldl (write_two W a b) s).vals = interleave a b :=
    (List.foldl_hom Views.vals fun _ _ => rfl).symm.trans
      (write_twice order s.vals (by simp) (by simp) even_or_odd)
  rw [coupled, ← hrows, ← hcols, ← hvals]

theorem push_loop {α : Type} (f g : Fin nnz → α) :
    (List.finRange nnz).foldl (fun s k => s ++ [f k] ++ [g k]) [] = List.ofFn (interleave f g) := by
  simp only [List.append_assoc, List.cons_append, List.nil_append]
  rw [List.foldl_append_eq_append, List.nil_append, ← flatMap_pair]
  rfl

omit [Field K] in
theorem push_views (a b : Fin nnz → K) :
    ((List.finRange nnz).foldl (push_two W a b) ⟨[], [], []⟩).to_views (nnz * 2) =
      .returned (coupled W a b) := by
  have hrows : ((List.finRange nnz).foldl (push_two W a b) ⟨[], [], []⟩).rows =
      List.ofFn (interleave W.factor_row W.factor_row) :=
    (List.foldl_hom Vectors.rows fun _ _ => rfl).symm.trans (push_loop _ _)
  have hcols : ((List.finRange nnz).foldl (push_two W a b) ⟨[], [], []⟩).cols =
      List.ofFn (interleave W.factor_col fun k => stacked n_src (W.factor_col k)) :=
    (List.foldl_hom Vectors.cols fun _ _ => rfl).symm.trans (push_loop _ _)
  have hvals : ((List.finRange nnz).foldl (push_two W a b) ⟨[], [], []⟩).vals =
      List.ofFn (interleave a b) :=
    (List.foldl_hom Vectors.vals fun _ _ => rfl).symm.trans (push_loop _ _)
  simp [Vectors.to_views, coupled, hrows, hcols, hvals, stacked_eq]

/-- The weight of `u` for `u` and of `v` for `v`. -/
def cos_weight (k : Fin nnz) : K :=
  W.factor_list k * cos (diff_alpha W src_rotation dst_rotation k)

/-- The weight of `v` for `u`. -/
def sin_weight (k : Fin nnz) : K :=
  W.factor_list k * sin (diff_alpha W src_rotation dst_rotation k)

/-- The weight of `u` for `v`. -/
def neg_sin_weight (k : Fin nnz) : K :=
  -W.factor_list k * sin (diff_alpha W src_rotation dst_rotation k)

theorem foldl_two {α β : Type} (f : α → Fin nnz → α) (g : β → Fin nnz → β) (ks : List (Fin nnz))
    (u : α) (v : β) :
    ks.foldl (fun (s : α × β) k => (f s.1 k, g s.2 k)) (u, v) = (ks.foldl f u, ks.foldl g v) := by
  induction ks generalizing u v with
  | nil => rfl
  | cons k ks ih => exact ih (f u k) (g v k)

theorem assemble_eq (order : String → (n : Nat) → Schedule n) (space : Space) :
    assemble cos sin W src_rotation dst_rotation order space =
      .returned
        (coupled W (cos_weight cos W src_rotation dst_rotation)
          (sin_weight sin W src_rotation dst_rotation),
        coupled W (neg_sin_weight sin W src_rotation dst_rotation)
          (cos_weight cos W src_rotation dst_rotation)) := by
  cases space with
  | host =>
    -- the loop fills the vectors of both matrices
    have hloop : (List.finRange nnz).foldl (host_step cos sin W src_rotation dst_rotation)
        (⟨[], [], []⟩, ⟨[], [], []⟩) = _ :=
      foldl_two
        (push_two W (cos_weight cos W src_rotation dst_rotation)
          (sin_weight sin W src_rotation dst_rotation))
        (push_two W (neg_sin_weight sin W src_rotation dst_rotation)
          (cos_weight cos W src_rotation dst_rotation)) _ _ _
    unfold assemble
    simp only [hloop, push_views, Outcome.returned_bind, Outcome.pure_eq]
  | device =>
    have hloop : (order "AssembleVectorWeightsDevice" nnz).order.foldl
        (device_step cos sin W src_rotation dst_rotation) (.zero _, .zero _) = _ :=
      foldl_two
        (write_two W (cos_weight cos W src_rotation dst_rotation)
          (sin_weight sin W src_rotation dst_rotation))
        (write_two W (neg_sin_weight sin W src_rotation dst_rotation)
          (cos_weight cos W src_rotation dst_rotation)) _ _ _
    unfold assemble
    rw [hloop, write_loop, write_loop]

/-- A matrix with these entries. -/
def coupled_matrix (a b : Fin nnz → K) : InterpolationMatrix K (nnz * 2) (n_src * 2) n_dst :=
  { factor_list := (coupled W a b).vals
    factor_row := (coupled W a b).rows
    factor_col := (coupled W a b).cols
    frac_a := stack W.frac_a W.frac_a
    frac_b := W.frac_b
    area_a := stack W.area_a W.area_a
    area_b := W.area_b }

theorem copy_fractions_eq (copies : Schedule n_src) (orig : Fin n_src → K) :
    copy_fractions copies orig = stack orig orig :=
  write_twice copies _ (by simp) (by simp) low_or_high

theorem generate_eq (order : String → (n : Nat) → Schedule n) (space : Space) :
    generate cos sin W src_rotation dst_rotation order space =
      .returned
        (coupled_matrix W (cos_weight cos W src_rotation dst_rotation)
          (sin_weight sin W src_rotation dst_rotation),
        coupled_matrix W (neg_sin_weight sin W src_rotation dst_rotation)
          (cos_weight cos W src_rotation dst_rotation)) := by
  have hnnz := W.nnz_fits
  have hsrc := W.n_src_fits
  unfold generate
  rw [if_neg (by omega), assemble_eq]
  simp only [Outcome.returned_bind, Outcome.pure_eq, copy_fractions_eq]
  rfl

/-! ## Section 4: Applying the matrices -/

variable {W}

omit [Field K] in
theorem coupled_valid (a b : Fin nnz → K) : (coupled_matrix W a b).Valid where
  row p := by
    obtain ⟨k, rfl | rfl⟩ := even_or_odd p
    · simpa [coupled_matrix, coupled] using W.valid.row k
    · simpa [coupled_matrix, coupled] using W.valid.row k
  col p := by
    obtain ⟨k, rfl | rfl⟩ := even_or_odd p
    · have hcol := W.valid.col k
      simp only [coupled_matrix, coupled, interleave_even]
      omega
    · have hcol := W.valid.col k
      simp only [coupled_matrix, coupled, interleave_odd]
      omega

theorem apply_coupled (order : String → (n : Nat) → Schedule n) (a b : Fin nnz → K)
    (u v : Fin n_src → K) (dst : Fin n_dst → K) :
    apply order (coupled_matrix W a b) (stack u v) dst =
      .returned fun j => ∑ k with W.valid.row_index k = j,
        (a k * u (W.valid.col_index k) + b k * v (W.valid.col_index k)) := by
  have hvalid : (coupled_matrix W a b).Valid := coupled_valid a b
  -- both entries of `k` are in its row; they differ in the half of the source
  have hrow_even : ∀ k, hvalid.row_index (even k) = W.valid.row_index k := by
    intro k
    simp [InterpolationMatrix.Valid.row_index, coupled_matrix, coupled]
  have hrow_odd : ∀ k, hvalid.row_index (odd k) = W.valid.row_index k := by
    intro k
    simp [InterpolationMatrix.Valid.row_index, coupled_matrix, coupled]
  have hcol_even : ∀ k, hvalid.col_index (even k) = low (W.valid.col_index k) := by
    intro k
    simp [InterpolationMatrix.Valid.col_index, coupled_matrix, coupled, low]
  have hcol_odd : ∀ k, hvalid.col_index (odd k) = high (W.valid.col_index k) := by
    intro k
    have hcol := W.valid.col k
    apply Fin.ext
    simp only [InterpolationMatrix.Valid.col_index, coupled_matrix, coupled, interleave_odd, high]
    omega
  unfold apply
  rw [dif_pos hvalid]
  apply congrArg Outcome.returned
  funext j
  rw [accumulate_schedule]
  have hzeroed : assign (order "axis::apply::zero_dst" n_dst).order (fun _ => true) id
      (fun _ => (0 : K)) dst j = 0 :=
    assign_of_hit Function.injective_id ((order "axis::apply::zero_dst" n_dst).mem j) rfl
  rw [hzeroed, zero_add, Finset.sum_filter, Finset.sum_filter, sum_even_odd]
  apply Finset.sum_congr rfl
  intro k _
  rw [hrow_even, hrow_odd, hcol_even, hcol_odd, stack_low, stack_high]
  simp only [coupled_matrix, coupled, interleave_even, interleave_odd, true_and]
  split
  · rfl
  · exact add_zero 0

end

end

/-! ## Section 5: Rotation -/

/-- The east and north components of a vector given in a frame that is turned
    by `alpha`. -/
noncomputable def to_geographic (alpha : ℝ) (uv : ℝ × ℝ) : ℝ × ℝ :=
  (Real.cos alpha * uv.1 - Real.sin alpha * uv.2, Real.sin alpha * uv.1 + Real.cos alpha * uv.2)

/-- The components in that frame of a vector given by east and north. -/
noncomputable def in_frame (alpha : ℝ) (uv : ℝ × ℝ) : ℝ × ℝ :=
  (Real.cos alpha * uv.1 + Real.sin alpha * uv.2, -Real.sin alpha * uv.1 + Real.cos alpha * uv.2)

theorem to_geographic_in_frame (alpha : ℝ) (uv : ℝ × ℝ) :
    to_geographic alpha (in_frame alpha uv) = uv := by
  have hone := Real.cos_sq_add_sin_sq alpha
  apply Prod.ext
  · simp only [to_geographic, in_frame]
    linear_combination uv.1 * hone
  · simp only [to_geographic, in_frame]
    linear_combination uv.2 * hone

theorem in_frame_to_geographic (a_src a_dst : ℝ) (uv : ℝ × ℝ) :
    in_frame a_dst (to_geographic a_src uv) =
      (Real.cos (a_dst - a_src) * uv.1 + Real.sin (a_dst - a_src) * uv.2,
        -Real.sin (a_dst - a_src) * uv.1 + Real.cos (a_dst - a_src) * uv.2) := by
  apply Prod.ext
  · simp only [to_geographic, in_frame, Real.cos_sub, Real.sin_sub]
    ring
  · simp only [to_geographic, in_frame, Real.cos_sub, Real.sin_sub]
    ring

section
variable {nnz n_src n_dst : Nat} (W : ScalarMatrix ℝ nnz n_src n_dst) (src_rotation : Fin n_src → ℝ)
  (dst_rotation : Fin n_dst → ℝ)

/-- At a destination cell, the weighted sum of the source vectors, turned from
    their frames into that of the destination cell. -/
noncomputable def rotated_sum (uv : Fin n_src → ℝ × ℝ) (j : Fin n_dst) : ℝ × ℝ :=
  ∑ k with W.valid.row_index k = j, W.factor_list k •
    in_frame (dst_rotation j)
      (to_geographic (src_rotation (W.valid.col_index k)) (uv (W.valid.col_index k)))

/-- What the two matrices are for. -/
structure Rotates (W_u W_v : InterpolationMatrix ℝ (nnz * 2) (n_src * 2) n_dst) : Prop where
  columns : ∀ p, (0 ≤ W_u.factor_col p ∧ W_u.factor_col p < 2 * n_src) ∧
    0 ≤ W_v.factor_col p ∧ W_v.factor_col p < 2 * n_src
  applied : ∀ order u v dst dst', ∃ u' v',
    apply order W_u (stack u v) dst = .returned u' ∧
    apply order W_v (stack u v) dst' = .returned v' ∧
    (∀ j, (u' j, v' j) = rotated_sum W src_rotation dst_rotation (fun i => (u i, v i)) j) ∧
    -- a constant vector stays the same vector
    ∀ wind : ℝ × ℝ, (∀ j, ∑ k with W.valid.row_index k = j, W.factor_list k = 1) →
      (∀ i, (u i, v i) = in_frame (src_rotation i) wind) →
        ∀ j, (u' j, v' j) = in_frame (dst_rotation j) wind

variable {W src_rotation dst_rotation}

theorem rotated_sum_constant {wind : ℝ × ℝ} {uv : Fin n_src → ℝ × ℝ} {j : Fin n_dst}
    (hone : ∑ k with W.valid.row_index k = j, W.factor_list k = 1)
    (huv : ∀ i, uv i = in_frame (src_rotation i) wind) :
    rotated_sum W src_rotation dst_rotation uv j = in_frame (dst_rotation j) wind := by
  unfold rotated_sum
  simp only [huv, to_geographic_in_frame]
  rw [← Finset.sum_smul, hone, one_smul]

end

theorem rows_eq_rotated_sum {nnz n_src n_dst : Nat} (W : ScalarMatrix ℝ nnz n_src n_dst)
    (src_rotation : Fin n_src → ℝ) (dst_rotation : Fin n_dst → ℝ) (u v : Fin n_src → ℝ)
    (j : Fin n_dst) :
    (∑ k with W.valid.row_index k = j,
        (cos_weight Real.cos W src_rotation dst_rotation k * u (W.valid.col_index k) +
          sin_weight Real.sin W src_rotation dst_rotation k * v (W.valid.col_index k)),
      ∑ k with W.valid.row_index k = j,
        (neg_sin_weight Real.sin W src_rotation dst_rotation k * u (W.valid.col_index k) +
          cos_weight Real.cos W src_rotation dst_rotation k * v (W.valid.col_index k))) =
      rotated_sum W src_rotation dst_rotation (fun i => (u i, v i)) j := by
  unfold rotated_sum
  rw [prod_mk_sum]
  apply Finset.sum_congr rfl
  intro k hk
  have hrow : W.valid.row_index k = j := (Finset.mem_filter.mp hk).2
  rw [in_frame_to_geographic, ← hrow]
  apply Prod.ext
  · simp only [cos_weight, sin_weight, diff_alpha, Prod.smul_mk, smul_eq_mul]
    ring
  · simp only [cos_weight, neg_sin_weight, diff_alpha, Prod.smul_mk, smul_eq_mul]
    ring

theorem generate_rotates {nnz n_src n_dst : Nat} (W : ScalarMatrix ℝ nnz n_src n_dst)
    (src_rotation : Fin n_src → ℝ) (dst_rotation : Fin n_dst → ℝ)
    (order : String → (n : Nat) → Schedule n) (space : Space) :
    ∃ W_u W_v, generate Real.cos Real.sin W src_rotation dst_rotation order space =
        .returned (W_u, W_v) ∧
      Rotates W src_rotation dst_rotation W_u W_v := by
  refine ⟨_, _, generate_eq _ _ _ _ _ _ _, ?_, ?_⟩
  · intro p
    have hu := (coupled_valid (W := W) (cos_weight Real.cos W src_rotation dst_rotation)
      (sin_weight Real.sin W src_rotation dst_rotation)).col p
    have hv := (coupled_valid (W := W) (neg_sin_weight Real.sin W src_rotation dst_rotation)
      (cos_weight Real.cos W src_rotation dst_rotation)).col p
    omega
  · intro order u v dst dst'
    have hrotated := rows_eq_rotated_sum W src_rotation dst_rotation u v
    refine ⟨_, _, apply_coupled order _ _ u v dst, apply_coupled order _ _ u v dst', hrotated, ?_⟩
    intro wind hone huv j
    rw [hrotated]
    exact rotated_sum_constant (hone j) huv

end Axis.VectorWeightGenerator

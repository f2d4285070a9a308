import Helm.Framework.Segments
import Helm.Axis.InterpolationMatrix

/-! # AXIS: applying the matrix

  The variants of `apply`: on a matrix in COO form, in CSR form, with a
  mask of the destination cells, and on several variables at once. Each
  overwrites a destination field that already has contents.

  The loops over the entries of a COO matrix and over the rows of a masked
  CSR matrix are the source's. An iteration of a parallel loop takes effect
  at once, which is what the atomic additions give, and the order of the
  iterations is unknown. The CSR product itself is `KokkosSparse::spmv`.

  Main result: `apply_variants_agree_iff`.
-/

namespace Axis

open Signed Segments ArrayLoops

/-! ## Section 1: Fields and the parallel library -/

/-- `field_view<double, 1>` -/
structure FieldView where
  extent : Nat
  data : Fin extent → ℚ

/-- `field_view<double, 2>` -/
structure FieldView2 where
  extent0 : Nat
  extent1 : Nat
  data : Fin extent0 × Fin extent1 → ℚ

/-- `field_view<const int, 1>` -/
structure MaskView where
  extent : Nat
  data : Fin extent → Int

def FieldView.cast {n : Nat} (v : FieldView) (h : v.extent = n) : Fin n → ℚ :=
  fun i => v.data (i.cast h.symm)

def FieldView2.cast {n m : Nat} (v : FieldView2) (h0 : v.extent0 = n) (h1 : v.extent1 = m) :
    Fin n × Fin m → ℚ :=
  fun p => v.data (p.1.cast h0.symm, p.2.cast h1.symm)

/-- What the code relies on in Kokkos: loops in some order, and a sparse
    product on one vector and on the columns of a multivector. -/
structure Kokkos where
  /-- The order in which the iterations of a kernel take effect. -/
  order (kernel : String) (n : Nat) : Schedule n
  spmv {nnz n_src n_dst : Nat} (alpha : ℚ) (A : Csr nnz n_src n_dst) (x : Fin n_src → ℚ)
    (beta : ℚ) (y : Fin n_dst → ℚ) : Fin n_dst → ℚ
  spmv_mv {nnz n_src n_dst n_vars : Nat} (alpha : ℚ) (A : Csr nnz n_src n_dst)
    (x : Fin n_src × Fin n_vars → ℚ) (beta : ℚ) (y : Fin n_dst × Fin n_vars → ℚ) :
    Fin n_dst × Fin n_vars → ℚ
  spmv_eq {nnz n_src n_dst : Nat} (alpha : ℚ) (A : Csr nnz n_src n_dst) (x : Fin n_src → ℚ)
    (beta : ℚ) (y : Fin n_dst → ℚ) :
    spmv alpha A x beta y = fun j => beta * y j + alpha * A.product x j
  spmv_mv_eq {nnz n_src n_dst n_vars : Nat} (alpha : ℚ) (A : Csr nnz n_src n_dst)
    (x : Fin n_src × Fin n_vars → ℚ) (beta : ℚ) (y : Fin n_dst × Fin n_vars → ℚ) :
    spmv_mv alpha A x beta y =
      fun p => beta * y p + alpha * A.product (fun c => x (c, p.2)) p.1

/-- Loops from the first iteration to the last. -/
def Kokkos.serial : Kokkos where
  order _ n := Schedule.serial n
  spmv alpha A x beta y := fun j => beta * y j + alpha * A.product x j
  spmv_mv alpha A x beta y := fun p => beta * y p + alpha * A.product (fun c => x (c, p.2)) p.1
  spmv_eq _ _ _ _ _ := rfl
  spmv_mv_eq _ _ _ _ _ := rfl

/-! ## Section 2: The variants -/

/-- The text of the `invalid_argument` for an extent. -/
def extent_error (caller extent_name : String) (extent : Nat) (expected_name : String)
    (expected : Nat) : String :=
  caller ++ ": " ++ extent_name ++ " (" ++ toString extent ++ ") != " ++ expected_name ++ " (" ++
    toString expected ++ ")"

variable {nnz n_src n_dst : Nat} (kk : Kokkos) (A : InterpolationMatrix nnz n_src n_dst)

/-- The destination after the zero loop and the scatter-add loop of `apply`. -/
def coo_kernel (x : Fin n_src → ℚ) (y : Fin n_dst → ℚ) : Fin n_dst → ℚ :=
  let zeroed := assign (kk.order "axis::apply::zero_dst" n_dst).order (fun _ => true) id
    (fun _ => 0) y
  accumulate (kk.order "axis::apply::spmv" nnz).order (fun _ => true) A.factor_row
    (fun k => A.factor_list k * x (A.factor_col k)) zeroed

/-- `apply(matrix, src, dst)` -/
def apply (src dst : FieldView) : Outcome String FieldView :=
  if hsrc : src.extent = n_src then
    if hdst : dst.extent = n_dst then
      match A.csr with
      | some csr => .returned ⟨n_dst, kk.spmv 1 csr (src.cast hsrc) 0 (dst.cast hdst)⟩
      | none => .returned ⟨n_dst, coo_kernel kk A (src.cast hsrc) (dst.cast hdst)⟩
    else
      .thrown (extent_error "axis::solver::apply" "dst.extent(0)" dst.extent "matrix.n_dst()" n_dst)
  else
    .thrown (extent_error "axis::solver::apply" "src.extent(0)" src.extent "matrix.n_src()" n_src)

/-- The cell is masked. A mask of another extent masks nothing. -/
def masked (dst_mask : MaskView) (j : Fin n_dst) : Bool :=
  if h : dst_mask.extent = n_dst then dst_mask.data (j.cast h.symm) = 0 else false

/-- The loop over the rows with one team each; row `j` is skipped when masked. -/
def masked_rows {league : Nat} (hleague : league ≤ n_dst) (csr : Csr nnz n_src n_dst)
    (dst_mask : MaskView) (x : Fin n_src → ℚ) (y : Fin n_dst → ℚ) : Fin n_dst → ℚ :=
  assign (kk.order "axis::apply::csr_spmv_masked" league).order
    (fun j => !masked dst_mask (j.castLE hleague)) (Fin.castLE hleague)
    (fun j => csr.product x (j.castLE hleague)) y

/-- The number of teams is an `int`; Kokkos accepts no negative number. -/
def masked_csr_kernel (csr : Csr nnz n_src n_dst) (dst_mask : MaskView) (x : Fin n_src → ℚ)
    (y : Fin n_dst → ℚ) : Outcome String (Fin n_dst → ℚ) :=
  if to_int n_dst < 0 then .undefined
  else
    have hleague : (to_int n_dst).toNat ≤ n_dst :=
      Int.toNat_le.mpr (to_int_le (Int.natCast_nonneg n_dst))
    .returned (masked_rows kk hleague csr dst_mask x y)

def masked_coo_kernel (dst_mask : MaskView) (x : Fin n_src → ℚ) (y : Fin n_dst → ℚ) :
    Fin n_dst → ℚ :=
  let zeroed := assign (kk.order "axis::apply::zero_dst_masked" n_dst).order
    (fun j => !masked dst_mask j) id (fun _ => 0) y
  accumulate (kk.order "axis::apply::spmv_masked" nnz).order
    (fun k => !masked dst_mask (A.factor_row k)) A.factor_row
    (fun k => A.factor_list k * x (A.factor_col k)) zeroed

/-- `apply(matrix, src, dst, dst_mask)` -/
def apply_masked (src dst : FieldView) (dst_mask : MaskView) : Outcome String FieldView :=
  if hsrc : src.extent = n_src then
    if hdst : dst.extent = n_dst then
      match A.csr with
      | some csr => do
        let result ← masked_csr_kernel kk csr dst_mask (src.cast hsrc) (dst.cast hdst)
        return ⟨n_dst, result⟩
      | none => .returned ⟨n_dst, masked_coo_kernel kk A dst_mask (src.cast hsrc) (dst.cast hdst)⟩
    else
      .thrown (extent_error "axis::solver::apply (masked)" "dst.extent(0)" dst.extent
        "matrix.n_dst()" n_dst)
  else
    .thrown (extent_error "axis::solver::apply (masked)" "src.extent(0)" src.extent
      "matrix.n_src()" n_src)

/-- The two loops over flat ranges, whose ends are products of type `size_t`. -/
def batch_coo_kernel {n_vars : Nat} (x : Fin n_src × Fin n_vars → ℚ)
    (y : Fin n_dst × Fin n_vars → ℚ) : Fin n_dst × Fin n_vars → ℚ :=
  have hcells : n_dst * n_vars % 2 ^ 64 ≤ n_dst * n_vars := Nat.mod_le _ _
  have hentries : nnz * n_vars % 2 ^ 64 ≤ nnz * n_vars := Nat.mod_le _ _
  let zeroed := assign (kk.order "axis::batch_apply::zero_dst" (n_dst * n_vars % 2 ^ 64)).order
    (fun _ => true) (unflatten hcells) (fun _ => 0) y
  accumulate (kk.order "axis::batch_apply::coo" (nnz * n_vars % 2 ^ 64)).order (fun _ => true)
    (fun idx => (A.factor_row (unflatten hentries idx).1, (unflatten hentries idx).2))
    (fun idx => A.factor_list (unflatten hentries idx).1 *
      x (A.factor_col (unflatten hentries idx).1, (unflatten hentries idx).2)) zeroed

def batch_apply (src dst : FieldView2) : Outcome String FieldView2 :=
  if hsrc : src.extent0 = n_src then
    if hdst : dst.extent0 = n_dst then
      if hvars : src.extent1 = dst.extent1 then
        match A.csr with
        | some csr =>
          .returned ⟨n_dst, dst.extent1,
            kk.spmv_mv 1 csr (src.cast hsrc hvars) 0 (dst.cast hdst rfl)⟩
        | none =>
          .returned ⟨n_dst, dst.extent1,
            batch_coo_kernel kk A (src.cast hsrc hvars) (dst.cast hdst rfl)⟩
      else
        .thrown (extent_error "axis::solver::batch_apply" "src.extent(1)" src.extent1
          "dst.extent(1)" dst.extent1)
    else
      .thrown (extent_error "axis::solver::batch_apply" "dst.extent(0)" dst.extent0
        "matrix.n_dst()" n_dst)
  else
    .thrown (extent_error "axis::solver::batch_apply" "src.extent(0)" src.extent0
      "matrix.n_src()" n_src)

/-! ## Section 3: What the kernels compute -/

variable {kk : Kokkos} {A : InterpolationMatrix nnz n_src n_dst}

theorem coo_kernel_eq (x : Fin n_src → ℚ) (y : Fin n_dst → ℚ) :
    coo_kernel kk A x y = A.row_sum x := by
  funext j
  unfold coo_kernel
  rw [accumulate_schedule]
  have hzero : assign (kk.order "axis::apply::zero_dst" n_dst).order (fun _ => true) id
      (fun _ => (0 : ℚ)) y j = 0 :=
    assign_of_hit (fun _ _ h => h) (Schedule.mem _ j) rfl
  rw [hzero]
  simp [InterpolationMatrix.row_sum]

theorem masked_coo_kernel_eq (dst_mask : MaskView) (x : Fin n_src → ℚ) (y : Fin n_dst → ℚ) :
    masked_coo_kernel kk A dst_mask x y =
      fun j => if masked dst_mask j then y j else A.row_sum x j := by
  funext j
  unfold masked_coo_kernel
  rw [accumulate_schedule]
  by_cases hmask : masked dst_mask j = true
  · -- neither loop writes the cell
    have hkept : assign (kk.order "axis::apply::zero_dst_masked" n_dst).order
        (fun j => !masked dst_mask j) id (fun _ => (0 : ℚ)) y j = y j := by
      apply assign_of_miss
      intro k _ henabled heq
      have hk : k = j := heq
      subst hk
      simp [hmask] at henabled
    have hnone : ∀ k, ¬ ((!masked dst_mask (A.factor_row k)) = true ∧ A.factor_row k = j) := by
      rintro k ⟨henabled, heq⟩
      simp [heq, hmask] at henabled
    have hempty : (Finset.univ.filter fun k =>
        (!masked dst_mask (A.factor_row k)) = true ∧ A.factor_row k = j) = ∅ :=
      Finset.filter_eq_empty_iff.mpr fun k _ => hnone k
    rw [hkept, if_pos hmask, hempty, Finset.sum_empty, add_zero]
  · have hopen : (!masked dst_mask j) = true := by simpa using hmask
    have hzero : assign (kk.order "axis::apply::zero_dst_masked" n_dst).order
        (fun j => !masked dst_mask j) id (fun _ => (0 : ℚ)) y j = 0 :=
      assign_of_hit (fun _ _ h => h) (Schedule.mem _ j) hopen
    rw [hzero, if_neg hmask, zero_add]
    apply Finset.sum_congr
    · ext k
      simp only [Finset.mem_filter, Finset.mem_univ, true_and, and_iff_right_iff_imp]
      intro heq
      rw [heq]
      exact hopen
    · intro k _
      rfl

theorem masked_rows_apply {league : Nat} (hleague : league ≤ n_dst) (csr : Csr nnz n_src n_dst)
    (dst_mask : MaskView) (x : Fin n_src → ℚ) (y : Fin n_dst → ℚ) (j : Fin n_dst) :
    masked_rows kk hleague csr dst_mask x y j =
      if j.val < league ∧ masked dst_mask j = false then csr.product x j else y j := by
  unfold masked_rows
  split
  · next hrow =>
    have hj : (⟨j, hrow.1⟩ : Fin league).castLE hleague = j := rfl
    have hopen : (!masked dst_mask ((⟨j, hrow.1⟩ : Fin league).castLE hleague)) = true := by
      simpa using hrow.2
    rw [← hj]
    exact assign_of_hit (Fin.castLE_injective hleague) (Schedule.mem _ _) hopen
  · next hskip =>
    apply assign_of_miss
    intro k _ henabled heq
    subst heq
    exact hskip ⟨k.isLt, by simpa using henabled⟩

theorem masked_csr_kernel_eq (csr : Csr nnz n_src n_dst) (dst_mask : MaskView) (x : Fin n_src → ℚ)
    (y : Fin n_dst → ℚ) (h : n_dst < 2 ^ 31) :
    masked_csr_kernel kk csr dst_mask x y =
      .returned fun j => if masked dst_mask j then y j else csr.product x j := by
  have hleague : to_int n_dst = n_dst := to_int_of_fits (fits_32.mpr (by omega))
  unfold masked_csr_kernel
  rw [if_neg (by omega)]
  apply congrArg
  funext j
  rw [masked_rows_apply]
  have hj : j.val < (to_int n_dst).toNat := by omega
  by_cases hmask : masked dst_mask j = true
  · simp [hmask]
  · simp [hmask, hj]

theorem batch_coo_kernel_apply {n_vars : Nat} (x : Fin n_src × Fin n_vars → ℚ)
    (y : Fin n_dst × Fin n_vars → ℚ) (p : Fin n_dst × Fin n_vars) :
    batch_coo_kernel kk A x y p =
      (if p.1 + n_dst * p.2 < n_dst * n_vars % 2 ^ 64 then 0 else y p) +
        ∑ k with A.factor_row k = p.1 ∧ k + nnz * p.2 < nnz * n_vars % 2 ^ 64,
          A.factor_list k * x (A.factor_col k, p.2) := by
  have hcells : n_dst * n_vars % 2 ^ 64 ≤ n_dst * n_vars := Nat.mod_le _ _
  have hentries : nnz * n_vars % 2 ^ 64 ≤ nnz * n_vars := Nat.mod_le _ _
  unfold batch_coo_kernel
  rw [accumulate_schedule]
  congr 1
  · split
    · next hlt =>
      obtain ⟨idx, hidx⟩ : ∃ idx, unflatten hcells idx = p := exists_unflatten.mpr hlt
      rw [← hidx]
      exact assign_of_hit (unflatten_injective hcells) (Schedule.mem _ idx) rfl
    · next hge =>
      apply assign_of_miss
      intro idx _ _ heq
      exact hge (exists_unflatten.mp ⟨idx, heq⟩)
  · -- the pairs of an entry and a variable, then the entries of this variable
    have hpairs := sum_unflatten hentries
      (fun q : Fin nnz × Fin n_vars => (A.factor_row q.1, q.2) = p)
      (fun q => A.factor_list q.1 * x (A.factor_col q.1, q.2))
    simp only [true_and]
    refine hpairs.trans ?_
    symm
    apply Finset.sum_nbij fun k => (k, p.2)
    · intro k hk
      simpa [Prod.ext_iff] using hk
    · intro a _ b _ heq
      exact (Prod.mk.inj heq).1
    · intro q hq
      simp only [Finset.coe_filter, Finset.mem_univ, true_and] at hq
      obtain ⟨hq1, hlt⟩ := hq
      subst hq1
      exact ⟨q.1, by simpa using hlt, rfl⟩
    · intro k _
      rfl

/-! ## Section 4: One linear map -/

/-- The CSR arrays hold the rows of the matrix, each ordered by column. -/
structure RowsOf (csr : Csr nnz n_src n_dst) (A : InterpolationMatrix nnz n_src n_dst) : Prop where
  starts : csr.row_ptr 0 = 0
  monotone : Monotone csr.row_ptr
  ends : csr.row_ptr (Fin.last n_dst) = nnz
  entries : ∀ r, (csr.entries r : Multiset (Fin n_src × ℚ)) = A.entries r
  sorted : ∀ r, (csr.entries r).Pairwise fun a b => a.1 ≤ b.1

/-- Every variant, in both forms of the matrix, on any source and with any
    previous contents of the destination. -/
structure Denotes (kk : Kokkos) (A : InterpolationMatrix nnz n_src n_dst)
    (h_perm : SortedIndices A.by_row_col) (n_vars : Nat) : Prop where
  converted : ∃ csr, (A.to_csr h_perm).csr = some csr ∧ RowsOf csr A
  applied : ∀ B ∈ [A, A.to_csr h_perm], ∀ src dst,
    apply kk B ⟨n_src, src⟩ ⟨n_dst, dst⟩ = .returned ⟨n_dst, A.row_sum src⟩
  masked : ∀ B ∈ [A, A.to_csr h_perm], ∀ src dst dst_mask,
    apply_masked kk B ⟨n_src, src⟩ ⟨n_dst, dst⟩ dst_mask =
      .returned ⟨n_dst, fun j => if masked dst_mask j then dst j else A.row_sum src j⟩
  batched : ∀ B ∈ [A, A.to_csr h_perm], ∀ src dst,
    batch_apply kk B ⟨n_src, n_vars, src⟩ ⟨n_dst, n_vars, dst⟩ =
      .returned ⟨n_dst, n_vars, fun p => A.row_sum (fun c => src (c, p.2)) p.1⟩

/-- The number of rows fits an `int`, the destination a `size_t`, and the
    weights of the entries that the loop of `batch_apply` does not reach cancel
    out. It reaches all when `nnz * n_vars` fits a `size_t`. -/
structure SizesFit (A : InterpolationMatrix nnz n_src n_dst) (n_vars : Nat) : Prop where
  rows : n_dst < 2 ^ 31
  cells : n_dst * n_vars < 2 ^ 64
  entries : ∀ r c, ∀ v < n_vars,
    ∑ k with A.factor_row k = r ∧ nnz * n_vars % 2 ^ 64 ≤ k + nnz * v ∧ A.factor_col k = c,
      A.factor_list k = 0

theorem position_lt {n m : Nat} (p : Fin n × Fin m) : p.1 + n * p.2 < n * m := by
  have hfirst := p.1.isLt
  calc p.1 + n * p.2 < n + n * p.2 := by omega
    _ = n * (p.2 + 1) := by rw [Nat.mul_succ, Nat.add_comm]
    _ ≤ n * m := Nat.mul_le_mul_left n p.2.isLt

theorem reached_add_lost (A : InterpolationMatrix nnz n_src n_dst) (N v : Nat) (x : Fin n_src → ℚ)
    (r : Fin n_dst) :
    (∑ k with A.factor_row k = r ∧ k + nnz * v < N, A.factor_list k * x (A.factor_col k)) +
      ∑ c, (∑ k with A.factor_row k = r ∧ N ≤ k + nnz * v ∧ A.factor_col k = c,
        A.factor_list k) * x c =
      A.row_sum x r := by
  have hcolumns : ∑ c, (∑ k with A.factor_row k = r ∧ N ≤ k + nnz * v ∧ A.factor_col k = c,
      A.factor_list k) * x c =
      ∑ k with A.factor_row k = r ∧ N ≤ k + nnz * v, A.factor_list k * x (A.factor_col k) := by
    rw [← Finset.sum_fiberwise _ A.factor_col]
    apply Finset.sum_congr rfl
    intro c _
    rw [Finset.sum_mul, Finset.filter_filter]
    apply Finset.sum_congr
    · ext k
      simp [and_assoc]
    · intro k hk
      rw [(Finset.mem_filter.mp hk).2.2]
  have hsum := Finset.sum_filter_add_sum_filter_not (Finset.univ.filter (A.factor_row · = r))
    (fun k => k.val + nnz * v < N) fun k => A.factor_list k * x (A.factor_col k)
  simp only [Finset.filter_filter, not_lt] at hsum
  rw [hcolumns]
  exact hsum

theorem batch_coo_kernel_eq {n_vars : Nat} (h : SizesFit A n_vars) (x : Fin n_src × Fin n_vars → ℚ)
    (y : Fin n_dst × Fin n_vars → ℚ) :
    batch_coo_kernel kk A x y = fun p => A.row_sum (fun c => x (c, p.2)) p.1 := by
  funext p
  have hcell : p.1 + n_dst * p.2 < n_dst * n_vars % 2 ^ 64 := by
    rw [Nat.mod_eq_of_lt h.cells]
    exact position_lt p
  have hsplit := reached_add_lost A (nnz * n_vars % 2 ^ 64) p.2 (fun c => x (c, p.2)) p.1
  simp only [fun c => h.entries p.1 c p.2 p.2.isLt, zero_mul, Finset.sum_const_zero,
    add_zero] at hsplit
  rw [batch_coo_kernel_apply, if_pos hcell, zero_add, hsplit]

section
variable {h_perm : SortedIndices A.by_row_col} {n_vars : Nat}

theorem exists_to_csr (hcoo : A.csr = none) : ∃ csr, (A.to_csr h_perm).csr = some csr := by
  unfold InterpolationMatrix.to_csr
  rw [hcoo]
  exact ⟨_, rfl⟩

theorem denotes_of_fit (hcoo : A.csr = none) (h : SizesFit A n_vars) :
    Denotes kk A h_perm n_vars := by
  obtain ⟨csr, hcsr⟩ := @exists_to_csr _ _ _ A h_perm hcoo
  have hproduct := InterpolationMatrix.product_to_csr hcoo hcsr
  refine ⟨⟨csr, hcsr, ?_⟩, ?_, ?_, ?_⟩
  · exact ⟨csr.starts, csr.monotone, csr.ends, InterpolationMatrix.entries_to_csr hcoo hcsr,
      InterpolationMatrix.entries_sorted hcoo hcsr⟩
  · intro B hB src dst
    rcases List.mem_pair.mp hB with rfl | rfl
    · simp only [apply, hcoo, dite_true, coo_kernel_eq]
      rfl
    · simp only [apply, hcsr, dite_true, kk.spmv_eq, hproduct, zero_mul, zero_add, one_mul]
      rfl
  · intro B hB src dst dst_mask
    rcases List.mem_pair.mp hB with rfl | rfl
    · simp only [apply_masked, hcoo, dite_true, masked_coo_kernel_eq]
      rfl
    · simp only [apply_masked, hcsr, dite_true, masked_csr_kernel_eq _ _ _ _ h.rows, hproduct]
      rfl
  · intro B hB src dst
    rcases List.mem_pair.mp hB with rfl | rfl
    · simp only [batch_apply, hcoo, dite_true, batch_coo_kernel_eq h]
      rfl
    · simp only [batch_apply, hcsr, dite_true, kk.spmv_mv_eq, hproduct, zero_mul, zero_add, one_mul]
      rfl

theorem rows_of_denotes (hcoo : A.csr = none) (h : Denotes kk A h_perm n_vars) :
    n_dst < 2 ^ 31 := by
  by_contra hrows
  obtain ⟨csr, hcsr⟩ := @exists_to_csr _ _ _ A h_perm hcoo
  have hmasked := h.masked (A.to_csr h_perm) (by simp) (fun _ => 0) (fun _ => 1)
    ⟨n_dst, fun _ => 1⟩
  simp only [apply_masked, hcsr, dite_true, masked_csr_kernel] at hmasked
  split at hmasked
  · cases hmasked
  · next hneg =>
    have hshort : (to_int n_dst).toNat < n_dst := by
      unfold to_int at hneg ⊢
      dsimp only at hneg ⊢
      split at hneg <;> split <;> omega
    set j : Fin n_dst := ⟨n_dst - 1, by omega⟩ with hj
    simp only [Outcome.returned_bind, Outcome.pure_eq, Outcome.returned.injEq,
      FieldView.mk.injEq, heq_eq_eq, true_and] at hmasked
    have hvalue := congrFun hmasked j
    have hopen : masked (⟨n_dst, fun _ => 1⟩ : MaskView) j = false := by simp [masked]
    rw [masked_rows_apply, if_neg, hopen] at hvalue
    · simp [FieldView.cast, InterpolationMatrix.row_sum] at hvalue
    · rintro ⟨hrow, -⟩
      simp only [hj] at hrow
      omega

theorem sizes_of_denotes (hcoo : A.csr = none) (h : Denotes kk A h_perm n_vars) :
    SizesFit A n_vars := by
  have hbatch : ∀ (x : Fin n_src × Fin n_vars → ℚ) (y : Fin n_dst × Fin n_vars → ℚ) p,
      batch_coo_kernel kk A x y p = A.row_sum (fun c => x (c, p.2)) p.1 := by
    intro x y p
    have hreturned := h.batched A (by simp) x y
    simp only [batch_apply, hcoo, dite_true, Outcome.returned.injEq, FieldView2.mk.injEq,
      heq_eq_eq, true_and] at hreturned
    exact congrFun hreturned p
  refine ⟨rows_of_denotes hcoo h, ?_, ?_⟩
  · -- the last cell is not reached, and keeps a 1
    by_contra hcells
    have hpos : 0 < n_dst * n_vars := by omega
    have hrow : 0 < n_dst := Nat.pos_of_mul_pos_right hpos
    have hvar : 0 < n_vars := Nat.pos_of_mul_pos_left hpos
    have hlast := hbatch (fun _ => 0) (fun _ => 1) (⟨n_dst - 1, by omega⟩, ⟨n_vars - 1, by omega⟩)
    rw [batch_coo_kernel_apply, if_neg] at hlast
    · simp [InterpolationMatrix.row_sum] at hlast
    · have hmod : n_dst * n_vars % 2 ^ 64 < 2 ^ 64 := Nat.mod_lt _ (by omega)
      have hposition : n_dst - 1 + n_dst * (n_vars - 1) = n_dst * n_vars - 1 := by
        rw [Nat.mul_sub_one]
        have hle : n_dst ≤ n_dst * n_vars := Nat.le_mul_of_pos_right _ hvar
        omega
      show ¬ n_dst - 1 + n_dst * (n_vars - 1) < _
      omega
  · -- a source that is 1 in one column and 0 elsewhere sees one column's weights
    intro r c v hv
    have hcolumn := hbatch (fun q => if q.1 = c then 1 else 0) (fun _ => 0) (r, ⟨v, hv⟩)
    have hsplit := reached_add_lost A (nnz * n_vars % 2 ^ 64) v (fun c' => if c' = c then 1 else 0) r
    rw [batch_coo_kernel_apply, ite_self, zero_add] at hcolumn
    dsimp only at hcolumn
    rw [hcolumn, add_eq_left] at hsplit
    simpa using hsplit

end

theorem apply_variants_agree_iff (kk : Kokkos) (factor_list : Fin nnz → ℚ)
    (factor_row : Fin nnz → Fin n_dst) (factor_col : Fin nnz → Fin n_src)
    (h_perm : SortedIndices
      (InterpolationMatrix.make factor_list factor_row factor_col).by_row_col) (n_vars : Nat) :
    Denotes kk (.make factor_list factor_row factor_col) h_perm n_vars ↔
      SizesFit (.make factor_list factor_row factor_col) n_vars := by
  constructor
  · exact sizes_of_denotes rfl
  · exact denotes_of_fit rfl

theorem masked_apply_skips_rows :
    ¬ ∀ (nnz n_src n_dst : Nat) (kk : Kokkos) (factor_list : Fin nnz → ℚ)
      (factor_row : Fin nnz → Fin n_dst) (factor_col : Fin nnz → Fin n_src)
      (h_perm : SortedIndices
        (InterpolationMatrix.make factor_list factor_row factor_col).by_row_col) (n_vars : Nat),
      Denotes kk (.make factor_list factor_row factor_col) h_perm n_vars := by
  intro h
  have hempty := h 0 1 (2 ^ 32) .serial Fin.elim0 Fin.elim0 Fin.elim0 (InterpolationMatrix.stable_indices _) 1
  have hrows := rows_of_denotes rfl hempty
  omega

end Axis

import Helm.Framework.ArrayLoops

/-! # AXIS: the interpolation matrix

  `InterpolationMatrix` holds a sparse matrix as a list of entries (COO):
  entry `k` is the weight `factor_list k` in row `factor_row k` and column
  `factor_col k`. `to_csr` adds the compressed form in which the entries
  are sorted by row and column.

  A floating-point number is an exact rational. Rows and columns are
  indices of cells, so that an entry outside the matrix cannot be built.
-/

namespace Axis

open ArrayLoops

/-! ## Section 1: The two forms -/

/-- The CSR arrays. Row `r` is at the positions from `row_ptr r` to before
    `row_ptr (r + 1)`. -/
structure Csr (nnz n_src n_dst : Nat) where
  row_ptr : Fin (n_dst + 1) → Nat
  col_idx : Fin nnz → Fin n_src
  csr_vals : Fin nnz → ℚ
  starts : row_ptr 0 = 0
  monotone : Monotone row_ptr
  ends : row_ptr (Fin.last n_dst) = nnz

structure InterpolationMatrix (nnz n_src n_dst : Nat) where
  factor_list : Fin nnz → ℚ
  factor_row : Fin nnz → Fin n_dst
  factor_col : Fin nnz → Fin n_src
  /-- The arrays that `to_csr` has made. -/
  csr : Option (Csr nnz n_src n_dst)

variable {nnz n_src n_dst : Nat}

/-- The constructor, which adopts the arrays. -/
def InterpolationMatrix.make (factor_list : Fin nnz → ℚ) (factor_row : Fin nnz → Fin n_dst)
    (factor_col : Fin nnz → Fin n_src) : InterpolationMatrix nnz n_src n_dst :=
  { factor_list, factor_row, factor_col, csr := none }

namespace InterpolationMatrix

variable (A : InterpolationMatrix nnz n_src n_dst)

/-! ## Section 2: Conversion -/

/-- The comparison of two entries by (row, column). -/
def by_row_col (a b : Fin nnz) : Bool :=
  if A.factor_row a ≠ A.factor_row b then A.factor_row a < A.factor_row b
  else A.factor_col a < A.factor_col b

end InterpolationMatrix

/-- What `std::sort` can make of the indices. It need not be stable, so that
    there are several such orders when entries repeat. -/
structure SortedIndices {n : Nat} (less : Fin n → Fin n → Bool) where
  perm : Equiv.Perm (Fin n)
  ordered : ∀ i j, i < j → less (perm j) (perm i) = false

namespace InterpolationMatrix

/-- The stable order is one of them. -/
def stable_indices (A : InterpolationMatrix nnz n_src n_dst) : SortedIndices A.by_row_col where
  perm := Tuple.sort fun k => toLex (A.factor_row k, A.factor_col k)
  ordered := by
    intro i j hij
    have hle := Tuple.monotone_sort (fun k => toLex (A.factor_row k, A.factor_col k)) hij.le
    simp only [Function.comp_apply, Prod.Lex.toLex_le_toLex] at hle
    unfold by_row_col
    split
    · next hne =>
      exact decide_eq_false (not_lt.mpr (hle.elim le_of_lt fun h => h.1.le))
    · next heq =>
      have hcol := (hle.resolve_left (not_lt.mpr (not_not.mp heq).le)).2
      exact decide_eq_false (not_lt.mpr hcol)

variable (A : InterpolationMatrix nnz n_src n_dst) (h_perm : SortedIndices A.by_row_col)

/-- The number of entries of row `r` at position `r + 1`. -/
def row_counts : Fin (n_dst + 1) → Nat :=
  accumulate (List.finRange nnz) (fun _ => true)
    (fun k => (A.factor_row (h_perm.perm k)).succ) (fun _ => 1) (fun _ => 0)

def csr_row_ptr : Fin (n_dst + 1) → Nat :=
  if nnz = 0 then fun _ => 0 else prefix_sum (A.row_counts h_perm)

theorem row_counts_apply (r : Fin (n_dst + 1)) :
    A.row_counts h_perm r = (Finset.univ.filter fun k => (A.factor_row k).succ = r).card := by
  unfold row_counts
  have hloop := @accumulate_schedule _ _ _ _ nnz (Schedule.serial nnz) (fun _ => true)
    (fun k => (A.factor_row (h_perm.perm k)).succ) (fun _ => 1) (fun _ => 0) r
  refine hloop.trans ?_
  simp only [true_and, zero_add, Finset.sum_const, smul_eq_mul, mul_one]
  -- the order of the entries does not matter for their number
  exact Finset.card_equiv h_perm.perm (by simp)

theorem csr_row_ptr_apply (r : Fin (n_dst + 1)) :
    A.csr_row_ptr h_perm r = (Finset.univ.filter fun k => (A.factor_row k).castSucc < r).card := by
  unfold csr_row_ptr
  split
  · next hzero =>
    subst hzero
    rfl
  · rw [prefix_sum_apply]
    simp only [row_counts_apply]
    have hmaps : ∀ k ∈ Finset.univ.filter (fun k => (A.factor_row k).castSucc < r),
        (A.factor_row k).succ ∈ Finset.Iic r := by
      intro k hk
      have hlt := (Finset.mem_filter.mp hk).2
      rw [Finset.mem_Iic, Fin.le_def, Fin.val_succ]
      exact hlt
    rw [Finset.card_eq_sum_card_fiberwise hmaps]
    apply Finset.sum_congr rfl
    intro j hj
    congr 1
    ext k
    simp only [Finset.mem_filter, Finset.mem_univ, true_and]
    constructor
    · intro heq
      have hle : (A.factor_row k).succ ≤ r := heq ▸ Finset.mem_Iic.mp hj
      exact ⟨Fin.castSucc_lt_iff_succ_le.mpr hle, heq⟩
    · exact fun h => h.2

theorem csr_row_ptr_zero : A.csr_row_ptr h_perm 0 = 0 := by
  rw [csr_row_ptr_apply]
  simp

theorem csr_row_ptr_monotone : Monotone (A.csr_row_ptr h_perm) := by
  intro r r' hle
  simp only [csr_row_ptr_apply]
  apply Finset.card_le_card
  intro k hk
  simp only [Finset.mem_filter, Finset.mem_univ, true_and] at hk ⊢
  exact lt_of_lt_of_le hk hle

theorem csr_row_ptr_last : A.csr_row_ptr h_perm (Fin.last n_dst) = nnz := by
  rw [csr_row_ptr_apply]
  simp [Fin.castSucc_lt_last]

def to_csr : InterpolationMatrix nnz n_src n_dst :=
  match A.csr with
  | some _ => A
  | none =>
    { A with
      csr := some
        { row_ptr := A.csr_row_ptr h_perm
          col_idx := fun k => A.factor_col (h_perm.perm k)
          csr_vals := fun k => A.factor_list (h_perm.perm k)
          starts := A.csr_row_ptr_zero h_perm
          monotone := A.csr_row_ptr_monotone h_perm
          ends := A.csr_row_ptr_last h_perm } }

end InterpolationMatrix

/-! ## Section 3: The rows -/

/-- The positions of a row, in increasing order. -/
def Csr.positions (C : Csr nnz n_src n_dst) (r : Fin n_dst) : List (Fin nnz) :=
  (List.finRange nnz).filter fun k => C.row_ptr r.castSucc ≤ k ∧ k < C.row_ptr r.succ

/-- The (column, weight) entries of a row. -/
def Csr.entries (C : Csr nnz n_src n_dst) (r : Fin n_dst) : List (Fin n_src × ℚ) :=
  (C.positions r).map fun k => (C.col_idx k, C.csr_vals k)

/-- The (column, weight) entries of a row in COO form, in no order. -/
def InterpolationMatrix.entries (A : InterpolationMatrix nnz n_src n_dst) (r : Fin n_dst) :
    Multiset (Fin n_src × ℚ) :=
  (Finset.univ.filter (A.factor_row · = r)).val.map fun k => (A.factor_col k, A.factor_list k)

namespace InterpolationMatrix

variable {A : InterpolationMatrix nnz n_src n_dst} {h_perm : SortedIndices A.by_row_col}
  {C : Csr nnz n_src n_dst}

theorem sorted_rows (h_perm : SortedIndices A.by_row_col) :
    Monotone fun k => A.factor_row (h_perm.perm k) := by
  intro i j hij
  rcases hij.lt_or_eq with hlt | heq
  · have hnot := h_perm.ordered i j hlt
    unfold by_row_col at hnot
    split at hnot
    · exact not_lt.mp (of_decide_eq_false hnot)
    · next heq => exact (not_not.mp heq).ge
  · rw [heq]

theorem to_csr_eq (hcoo : A.csr = none) (hC : (A.to_csr h_perm).csr = some C) :
    C.row_ptr = A.csr_row_ptr h_perm ∧ (C.col_idx = fun k => A.factor_col (h_perm.perm k)) ∧
      C.csr_vals = fun k => A.factor_list (h_perm.perm k) := by
  unfold to_csr at hC
  rw [hcoo] at hC
  cases hC
  exact ⟨rfl, rfl, rfl⟩

theorem mem_positions (hcoo : A.csr = none) (hC : (A.to_csr h_perm).csr = some C) {r : Fin n_dst}
    {k : Fin nnz} : k ∈ C.positions r ↔ A.factor_row (h_perm.perm k) = r := by
  obtain ⟨hptr, -, -⟩ := to_csr_eq hcoo hC
  -- a row pointer separates the entries of the rows before from the others
  have hsep : ∀ b : Fin (n_dst + 1),
      (A.factor_row (h_perm.perm k)).castSucc < b ↔ k.val < C.row_ptr b := by
    intro b
    have hmono : Monotone fun k => (A.factor_row (h_perm.perm k)).castSucc :=
      fun i j hij => Fin.castSucc_le_castSucc_iff.mpr (sorted_rows h_perm hij)
    have hcard : (Finset.univ.filter fun i => (A.factor_row (h_perm.perm i)).castSucc < b).card =
        (Finset.univ.filter fun i => (A.factor_row i).castSucc < b).card :=
      Finset.card_equiv h_perm.perm (by simp)
    rw [lt_iff_lt_card hmono b k, hptr, csr_row_ptr_apply, hcard]
  have hlow := hsep r.castSucc
  have hhigh := hsep r.succ
  unfold Csr.positions
  simp only [List.mem_filter, List.mem_finRange, true_and, decide_eq_true_eq, ← not_lt, ← hlow,
    ← hhigh, Fin.lt_def, Fin.val_castSucc, Fin.val_succ, Fin.ext_iff]
  omega

theorem entries_to_csr (hcoo : A.csr = none) (hC : (A.to_csr h_perm).csr = some C)
    (r : Fin n_dst) : (C.entries r : Multiset (Fin n_src × ℚ)) = A.entries r := by
  obtain ⟨-, hcol, hval⟩ := to_csr_eq hcoo hC
  have hnodup : (C.positions r).Nodup := (List.nodup_finRange nnz).filter _
  -- the positions, sent through the permutation, are the indices of the row
  have hset : (C.positions r : Multiset (Fin nnz)).map h_perm.perm =
      (Finset.univ.filter (A.factor_row · = r)).val := by
    apply (Multiset.Nodup.ext (Multiset.Nodup.map h_perm.perm.injective
      (Multiset.coe_nodup.mpr hnodup)) (Finset.nodup _)).mpr
    intro k
    simp only [Multiset.mem_map, Multiset.mem_coe, mem_positions hcoo hC, Finset.mem_val,
      Finset.mem_filter, Finset.mem_univ, true_and]
    constructor
    · rintro ⟨i, hi, rfl⟩
      exact hi
    · intro hk
      exact ⟨h_perm.perm.symm k, by simpa using hk, by simp⟩
  unfold InterpolationMatrix.entries
  rw [← hset, Multiset.map_map]
  simp only [Csr.entries, hcol, hval, Multiset.map_coe, Function.comp_def]

theorem entries_sorted (hcoo : A.csr = none) (hC : (A.to_csr h_perm).csr = some C)
    (r : Fin n_dst) : (C.entries r).Pairwise fun a b => a.1 ≤ b.1 := by
  obtain ⟨-, hcol, -⟩ := to_csr_eq hcoo hC
  have hpositions : (C.positions r).Pairwise (· < ·) := (List.pairwise_lt_finRange nnz).filter _
  refine List.pairwise_map.mpr (hpositions.imp_of_mem ?_)
  intro i j hi hj hlt
  have hrow : A.factor_row (h_perm.perm j) = A.factor_row (h_perm.perm i) := by
    rw [(mem_positions hcoo hC).mp hi, (mem_positions hcoo hC).mp hj]
  have hnot := h_perm.ordered i j hlt
  unfold by_row_col at hnot
  rw [if_neg (not_not.mpr hrow)] at hnot
  rw [hcol]
  exact not_lt.mp (of_decide_eq_false hnot)

/-! ## Section 4: The linear map -/

/-- The sum of the row's entries, which is what the matrix stands for. -/
def row_sum (A : InterpolationMatrix nnz n_src n_dst) (src : Fin n_src → ℚ) (r : Fin n_dst) : ℚ :=
  ∑ k with A.factor_row k = r, A.factor_list k * src (A.factor_col k)

end InterpolationMatrix

/-- The product of the CSR arrays with a vector. -/
def Csr.product (C : Csr nnz n_src n_dst) (x : Fin n_src → ℚ) (r : Fin n_dst) : ℚ :=
  ((C.positions r).map fun k => C.csr_vals k * x (C.col_idx k)).sum

theorem InterpolationMatrix.product_to_csr {A : InterpolationMatrix nnz n_src n_dst}
    {h_perm : SortedIndices A.by_row_col} {C : Csr nnz n_src n_dst} (hcoo : A.csr = none)
    (hC : (A.to_csr h_perm).csr = some C) (x : Fin n_src → ℚ) : C.product x = A.row_sum x := by
  funext r
  have hsame := congrArg (fun entries => (entries.map fun e => e.2 * x e.1).sum)
    (entries_to_csr hcoo hC r)
  simpa [Csr.entries, InterpolationMatrix.entries, Csr.product, row_sum, Function.comp_def,
    Finset.sum] using hsame

end Axis

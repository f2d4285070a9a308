import Helm.Axis.Apply
import Helm.Framework.Grouping

/-! # AXIS: the distributed generator

  `WeightGenerator::generate` in distributed mode renumbers the columns of
  the local matrix: a column that another rank owns becomes a slot behind
  the local cells, and the `HaloPattern` says which global ids to gather
  into these slots, grouped by the rank that owns them. `apply` then reads
  local cells below `n_local` and gathered cells above.

  The columns are sorted by owner with `std::sort`, so that those of one
  owner come in any order. The local rank is the owner of the first local
  cell, and -1 stands for no rank.

  Main result: `remap_correct`.
-/

namespace Axis

open Signed Segments ArrayLoops Grouping

/-! ## Section 1: Off-rank columns -/

/-- `static_cast<std::size_t>` of an `index_t` -/
def to_size (x : Int) : Nat := (x % 2 ^ 64).toNat

/-- The arguments of the distributed overload, with the matrix that the local
    one made. -/
structure DistributedInput (nnz n_local n_dst : Nat) where
  local_matrix : InterpolationMatrix nnz n_local n_dst
  src_global_ids : Fin n_local → Int
  owner_of_src : List Int

structure HaloPattern where
  source_ranks : List Int := []
  rank_offsets : List Nat := []
  needed_global_src_ids : List Int := []
  gather_slot : List Nat := []
  deriving DecidableEq

def HaloPattern.num_remote (pattern : HaloPattern) : Nat := pattern.needed_global_src_ids.length

namespace DistributedInput

variable {nnz n_local n_dst : Nat} (inp : DistributedInput nnz n_local n_dst)

/-- The owner of a column, when its global id is in the table. -/
def owner (c : Fin n_local) : Option Int := inp.owner_of_src[to_size (inp.src_global_ids c)]?

def local_rank : Int :=
  if h : 0 < n_local then (inp.owner ⟨0, h⟩).getD (-1) else -1

/-- Another rank owns the column. -/
def off_rank (c : Fin n_local) : Bool :=
  match inp.owner c with
  | none => false
  | some owner => owner ≠ inp.local_rank

/-- The loop over the entries; `off_rank_map` has the columns that were found
    as its keys. -/
def off_rank_local_indices : List (Fin n_local) :=
  (List.finRange nnz).foldl (fun found k =>
    let c := inp.local_matrix.factor_col k
    if inp.off_rank c ∧ c ∉ found then found ++ [c] else found) []

/-- `off_rank_map[c].owner_rank`, for a column in the map -/
def owner_rank (c : Fin n_local) : Int := (inp.owner c).getD (-1)

def by_owner (a b : Fin n_local) : Bool := inp.owner_rank a < inp.owner_rank b

/-- The columns after `std::sort`. -/
abbrev SortedColumns := Sorted inp.by_owner inp.off_rank_local_indices

variable (columns : SortedColumns inp)

/-! ## Section 2: The pattern -/

/-- The state of the loop that fills the pattern. -/
structure PatternLoop where
  pattern : HaloPattern := {}
  prev_rank : Int := -1

def pattern_step (s : PatternLoop) (x : Fin n_local × Nat) : PatternLoop :=
  let rank := inp.owner_rank x.1
  let s :=
    if rank ≠ s.prev_rank then
      { pattern :=
          { s.pattern with
            source_ranks := s.pattern.source_ranks ++ [rank]
            rank_offsets := s.pattern.rank_offsets ++ [x.2] }
        prev_rank := rank }
    else s
  { s with
    pattern :=
      { s.pattern with
        needed_global_src_ids := s.pattern.needed_global_src_ids ++ [inp.src_global_ids x.1]
        gather_slot := s.pattern.gather_slot ++ [x.2] } }

def pattern : HaloPattern :=
  if columns.list ≠ [] then
    let filled := (columns.list.zipIdx.foldl inp.pattern_step {}).pattern
    { filled with rank_offsets := filled.rank_offsets ++ [columns.list.length] }
  else { rank_offsets := [0] }

/-! ## Section 3: The matrix -/

/-- The new number of a column: `col_remap` has the sorted columns as its
    keys. -/
def remap (c : Fin n_local) : Nat :=
  if c ∈ columns.list then n_local + columns.list.idxOf c else c

/-- The matrix with renumbered columns. -/
structure RemappedMatrix (nnz n_dst : Nat) where
  factor_list : Fin nnz → ℚ
  factor_row : Fin nnz → Fin n_dst
  factor_col : Fin nnz → Nat
  n_src : Nat

def remapped_matrix : RemappedMatrix nnz n_dst where
  factor_list := inp.local_matrix.factor_list
  factor_row := inp.local_matrix.factor_row
  factor_col := fun k => inp.remap columns (inp.local_matrix.factor_col k)
  n_src := n_local + columns.list.length

end DistributedInput

open DistributedInput

/-- The value that a column stands for. -/
def source_value (local_src gathered_halo_src : FieldView) (c : Nat) : Option ℚ :=
  if h : c < local_src.extent then some (local_src.data ⟨c, h⟩)
  else if h : c - local_src.extent < gathered_halo_src.extent then
    some (gathered_halo_src.data ⟨c - local_src.extent, h⟩)
  else none

/-- The text of the `invalid_argument` for the source extents. -/
def distributed_extent_error (local_extent num_remote n_src : Nat) : String :=
  "axis::solver::apply (distributed): local_src.extent(0) (" ++ toString local_extent ++
    ") + pattern.num_remote() (" ++ toString num_remote ++ ") != matrix.n_src() (" ++
    toString n_src ++ ")"

/-- `apply(matrix, pattern, local_src, gathered_halo_src, dst)`. A column
    beyond the gathered values is read outside of the buffer. -/
def apply_distributed (kk : Kokkos) {nnz n_dst : Nat} (M : RemappedMatrix nnz n_dst)
    (pattern : HaloPattern) (local_src gathered_halo_src dst : FieldView) :
    Outcome String FieldView :=
  if hdst : dst.extent = n_dst then
    if gathered_halo_src.extent = pattern.num_remote then
      if local_src.extent + pattern.num_remote = M.n_src then
        if ∀ k, (source_value local_src gathered_halo_src (M.factor_col k)).isSome then
          let zeroed := assign (kk.order "axis::apply_distributed::zero_dst" n_dst).order
            (fun _ => true) id (fun _ => 0) (dst.cast hdst)
          .returned ⟨n_dst, accumulate (kk.order "axis::apply_distributed::spmv" nnz).order
            (fun _ => true) M.factor_row
            (fun k => M.factor_list k *
              (source_value local_src gathered_halo_src (M.factor_col k)).getD 0) zeroed⟩
        else .undefined
      else
        .thrown (distributed_extent_error local_src.extent pattern.num_remote M.n_src)
    else
      .thrown (extent_error "axis::solver::apply (distributed)" "gathered_halo_src.extent(0)"
        gathered_halo_src.extent "pattern.num_remote()" pattern.num_remote)
  else
    .thrown (extent_error "axis::solver::apply (distributed)" "dst.extent(0)" dst.extent
      "matrix.n_dst()" n_dst)

/-! ## Section 4: The columns that are found -/

namespace DistributedInput

variable {nnz n_local n_dst : Nat} {inp : DistributedInput nnz n_local n_dst}

variable (inp) in
/-- What the loop adds to the columns that were found before. -/
theorem found_from (ks : List (Fin nnz)) (found : List (Fin n_local)) (hnodup : found.Nodup) :
    let result := ks.foldl (fun found k =>
      let c := inp.local_matrix.factor_col k
      if inp.off_rank c ∧ c ∉ found then found ++ [c] else found) found
    result.Nodup ∧ ∀ c, c ∈ result ↔
      c ∈ found ∨ (inp.off_rank c = true ∧ ∃ k ∈ ks, inp.local_matrix.factor_col k = c) := by
  induction ks generalizing found with
  | nil => exact ⟨hnodup, by simp⟩
  | cons k ks ih =>
    set c := inp.local_matrix.factor_col k with hc
    dsimp only [List.foldl_cons]
    by_cases hnew : inp.off_rank c = true ∧ c ∉ found
    · rw [if_pos hnew]
      have happend : (found ++ [c]).Nodup := by
        rw [List.nodup_append]
        refine ⟨hnodup, List.nodup_singleton c, ?_⟩
        intro a ha b hb heq
        rw [List.mem_singleton.mp hb] at heq
        exact hnew.2 (heq ▸ ha)
      obtain ⟨hresult, hmem⟩ := ih (found ++ [c]) happend
      refine ⟨hresult, ?_⟩
      intro c'
      rw [hmem c', List.mem_append, List.mem_singleton]
      constructor
      · intro h
        obtain (hfound | heq) | ⟨hoff, k', hk', heq⟩ := h
        · exact .inl hfound
        · subst heq
          exact .inr ⟨hnew.1, k, List.mem_cons_self, rfl⟩
        · exact .inr ⟨hoff, k', List.mem_cons_of_mem _ hk', heq⟩
      · intro h
        obtain hfound | ⟨hoff, k', hk', heq⟩ := h
        · exact .inl (.inl hfound)
        · obtain rfl | hk' := List.mem_cons.mp hk'
          · exact .inl (.inr heq.symm)
          · exact .inr ⟨hoff, k', hk', heq⟩
    · rw [if_neg hnew]
      obtain ⟨hresult, hmem⟩ := ih found hnodup
      refine ⟨hresult, ?_⟩
      intro c'
      rw [hmem c']
      constructor
      · intro h
        obtain hfound | ⟨hoff, k', hk', heq⟩ := h
        · exact .inl hfound
        · exact .inr ⟨hoff, k', List.mem_cons_of_mem _ hk', heq⟩
      · intro h
        obtain hfound | ⟨hoff, k', hk', heq⟩ := h
        · exact .inl hfound
        · obtain rfl | hk' := List.mem_cons.mp hk'
          · -- a column that is not new was there
            left
            by_contra hnot
            rw [← heq] at hoff hnot
            exact hnew ⟨hoff, hnot⟩
          · exact .inr ⟨hoff, k', hk', heq⟩

theorem off_rank_local_indices_spec :
    inp.off_rank_local_indices.Nodup ∧ ∀ c, c ∈ inp.off_rank_local_indices ↔
      inp.off_rank c = true ∧ ∃ k, inp.local_matrix.factor_col k = c := by
  obtain ⟨hnodup, hmem⟩ := found_from inp (List.finRange nnz) [] List.nodup_nil
  refine ⟨hnodup, ?_⟩
  intro c
  rw [off_rank_local_indices, hmem c]
  simp

variable {columns : SortedColumns inp}

theorem columns_nodup : columns.list.Nodup :=
  columns.perm.nodup_iff.mpr off_rank_local_indices_spec.1

theorem mem_columns {c : Fin n_local} :
    c ∈ columns.list ↔ inp.off_rank c = true ∧ ∃ k, inp.local_matrix.factor_col k = c := by
  rw [columns.perm.mem_iff]
  exact off_rank_local_indices_spec.2 c

theorem owner_of_off_rank {c : Fin n_local} (h : inp.off_rank c = true) :
    inp.owner c = some (inp.owner_rank c) ∧ inp.owner_rank c ≠ inp.local_rank := by
  unfold off_rank at h
  unfold owner_rank
  cases howner : inp.owner c with
  | none =>
    rw [howner] at h
    cases h
  | some r =>
    rw [howner] at h
    exact ⟨rfl, of_decide_eq_true h⟩

/-! ## Section 5: The groups of the pattern -/

theorem pattern_loop (l : List (Fin n_local)) (i : Nat) (s : PatternLoop) :
    ((l.zipIdx i).foldl inp.pattern_step s).pattern =
      { source_ranks := s.pattern.source_ranks ++
          (starts inp.owner_rank s.prev_rank i l).map (·.1)
        rank_offsets := s.pattern.rank_offsets ++
          (starts inp.owner_rank s.prev_rank i l).map (·.2)
        needed_global_src_ids := s.pattern.needed_global_src_ids ++ l.map inp.src_global_ids
        gather_slot := s.pattern.gather_slot ++ List.range' i l.length } := by
  induction l generalizing i s with
  | nil => simp [starts]
  | cons c l ih =>
    rw [List.zipIdx_cons, List.foldl_cons, ih]
    unfold pattern_step
    by_cases hrank : inp.owner_rank c = s.prev_rank
    · simp [starts, hrank, List.range'_succ]
    · simp [starts, hrank, List.range'_succ]

theorem pattern_eq : inp.pattern columns =
    { source_ranks := (starts inp.owner_rank (-1) 0 columns.list).map (·.1)
      rank_offsets := (starts inp.owner_rank (-1) 0 columns.list).map (·.2) ++
        [columns.list.length]
      needed_global_src_ids := columns.list.map inp.src_global_ids
      gather_slot := List.range columns.list.length } := by
  unfold pattern
  split
  · rw [pattern_loop]
    simp [List.range_eq_range']
  · next hnil =>
    rw [not_not.mp hnil]
    rfl

/-- The table has ranks, which are not negative. -/
def RanksValid (inp : DistributedInput nnz n_local n_dst) : Prop :=
  ∀ r ∈ inp.owner_of_src, 0 ≤ r

theorem owner_rank_nonneg (hranks : RanksValid inp) {c : Fin n_local} (hc : c ∈ columns.list) :
    0 ≤ inp.owner_rank c := by
  obtain ⟨howner, _⟩ := owner_of_off_rank (mem_columns.mp hc).1
  exact hranks _ (List.mem_of_getElem? howner)

theorem source_ranks_increasing (hranks : RanksValid inp) :
    (inp.pattern columns).source_ranks.Pairwise (· < ·) := by
  rw [pattern_eq]
  apply (starts_increasing _ _).1
  · apply columns.ordered.imp
    intro a b hab
    exact not_lt.mp (of_decide_eq_false hab)
  · intro c hc
    have hrank := owner_rank_nonneg hranks hc
    omega

/-- The needed ids are a concatenation of groups, one for each source rank,
    and the offsets are the running sums of the sizes of the groups. -/
structure GroupedByOwner (inp : DistributedInput nnz n_local n_dst) (pattern : HaloPattern)
    (columns : List (Fin n_local)) (groups : List (Int × List (Fin n_local))) : Prop where
  columns_eq : columns = groups.flatMap (·.2)
  needed : pattern.needed_global_src_ids = columns.map inp.src_global_ids
  ranks : pattern.source_ranks = groups.map (·.1)
  offsets : pattern.rank_offsets = (groups.map (·.2.length)).scanl (· + ·) 0
  nonempty : ∀ g ∈ groups, g.2 ≠ []
  owner : ∀ g ∈ groups, ∀ c ∈ g.2, inp.owner c = some g.1

theorem exists_groups (hranks : RanksValid inp) :
    ∃ groups, GroupedByOwner inp (inp.pattern columns) columns.list groups := by
  have hne : ∀ c ∈ columns.list, inp.owner_rank c ≠ -1 := by
    intro c hc heq
    have hrank := owner_rank_nonneg hranks hc
    omega
  obtain ⟨groups, hflat, hgroups, hkeys, hoffsets⟩ := starts_groups_of_ne hne
  refine ⟨groups, ?_⟩
  constructor
  · exact hflat
  · rw [pattern_eq]
  · rw [pattern_eq]
    exact hkeys
  · rw [pattern_eq]
    exact hoffsets
  · intro g hg
    exact (hgroups g hg).1
  · intro g hg c hc
    have hmem : c ∈ columns.list := by
      rw [hflat]
      exact List.mem_flatMap.mpr ⟨g, hg, hc⟩
    rw [← (hgroups g hg).2 c hc]
    exact (owner_of_off_rank (mem_columns.mp hmem).1).1

/-! ## Section 6: The renumbered matrix -/

theorem num_remote_eq : (inp.pattern columns).num_remote = columns.list.length := by
  rw [HaloPattern.num_remote, pattern_eq, List.length_map]

theorem remap_lt (c : Fin n_local) :
    inp.remap columns c < n_local + (inp.pattern columns).num_remote := by
  rw [num_remote_eq]
  unfold remap
  split
  · next hc =>
    have hlt := List.idxOf_lt_length_of_mem hc
    omega
  · have hlt := c.isLt
    omega

/-- The local part of a field over the global ids. -/
def local_part (inp : DistributedInput nnz n_local n_dst) (field : Int → ℚ) : FieldView :=
  ⟨n_local, fun c => field (inp.src_global_ids c)⟩

/-- The values of a field for a list of ids. -/
def gathered (field : Int → ℚ) (ids : List Int) : FieldView :=
  ⟨ids.length, fun i => field (ids.get i)⟩

theorem source_value_remap (field : Int → ℚ) (c : Fin n_local) :
    source_value (inp.local_part field)
        (gathered field (inp.pattern columns).needed_global_src_ids) (inp.remap columns c) =
      some (field (inp.src_global_ids c)) := by
  have hneeded : (inp.pattern columns).needed_global_src_ids =
      columns.list.map inp.src_global_ids := by rw [pattern_eq]
  rw [hneeded]
  unfold source_value remap
  split
  · next hc =>
    -- the column has a slot behind the local cells
    have hlt := List.idxOf_lt_length_of_mem hc
    have hbelow : ¬ n_local + columns.list.idxOf c < (inp.local_part field).extent := by
      simp [local_part]
    have hslot : n_local + columns.list.idxOf c - (inp.local_part field).extent =
        columns.list.idxOf c := by
      simp [local_part]
    rw [dif_neg hbelow]
    simp only [hslot, gathered, List.length_map]
    rw [dif_pos hlt]
    simp
  · have hlt : c.val < (inp.local_part field).extent := c.isLt
    rw [dif_pos hlt]
    rfl

theorem apply_distributed_eq (kk : Kokkos) (field : Int → ℚ) (dst : Fin n_dst → ℚ) :
    apply_distributed kk (inp.remapped_matrix columns) (inp.pattern columns)
        (inp.local_part field) (gathered field (inp.pattern columns).needed_global_src_ids)
        ⟨n_dst, dst⟩ =
      .returned ⟨n_dst, inp.local_matrix.row_sum fun c => field (inp.src_global_ids c)⟩ := by
  unfold apply_distributed
  have hextent : (inp.local_part field).extent + (inp.pattern columns).num_remote =
      (inp.remapped_matrix columns).n_src := by
    rw [num_remote_eq]
    rfl
  have hgathered : (gathered field (inp.pattern columns).needed_global_src_ids).extent =
      (inp.pattern columns).num_remote := rfl
  rw [dif_pos rfl, if_pos hgathered, if_pos hextent, if_pos]
  · apply congrArg (fun y => Outcome.returned (FieldView.mk n_dst y))
    funext j
    rw [accumulate_schedule]
    have hzero : assign (kk.order "axis::apply_distributed::zero_dst" n_dst).order (fun _ => true)
        id (fun _ => (0 : ℚ)) ((⟨n_dst, dst⟩ : FieldView).cast rfl) j = 0 :=
      assign_of_hit (fun _ _ h => h) (Schedule.mem _ j) rfl
    rw [hzero, zero_add]
    unfold InterpolationMatrix.row_sum
    apply Finset.sum_congr
    · ext k
      simp [remapped_matrix]
    · intro k _
      show inp.local_matrix.factor_list k * (source_value _ _ (inp.remap columns _)).getD 0 = _
      rw [source_value_remap]
      rfl
  · intro k
    show (source_value _ _ (inp.remap columns _)).isSome
    rw [source_value_remap]
    rfl

/-! ## Section 7: The distributed generator is right -/

/-- What the renumbered matrix and its pattern are for. -/
structure RemapLaw (inp : DistributedInput nnz n_local n_dst) (columns : SortedColumns inp) :
    Prop where
  ranks_increasing : (inp.pattern columns).source_ranks.Pairwise (· < ·)
  grouped : ∃ groups, GroupedByOwner inp (inp.pattern columns) columns.list groups
  /-- Each off-rank column that the matrix uses is there once, and no other. -/
  once : columns.list.Nodup ∧ ∀ c, c ∈ columns.list ↔
    inp.off_rank c = true ∧ ∃ k, inp.local_matrix.factor_col k = c
  /-- So is each of their ids, when different cells have different ids. -/
  ids_once : Function.Injective inp.src_global_ids →
    (inp.pattern columns).needed_global_src_ids.Nodup
  slots : (inp.pattern columns).gather_slot = List.range (inp.pattern columns).num_remote
  in_range : ∀ k, (inp.remapped_matrix columns).factor_col k <
    n_local + (inp.pattern columns).num_remote
  applied : ∀ kk field dst,
    apply_distributed kk (inp.remapped_matrix columns) (inp.pattern columns)
        (inp.local_part field) (gathered field (inp.pattern columns).needed_global_src_ids)
        ⟨n_dst, dst⟩ =
      .returned ⟨n_dst, inp.local_matrix.row_sum fun c => field (inp.src_global_ids c)⟩

/-- The cells 4, 5 and 6 belong to the ranks 0, 2 and 1. -/
def split_cells : DistributedInput 4 3 2 where
  local_matrix :=
    { factor_list := ![1, 1 / 2, 1 / 4, 1 / 4]
      factor_row := ![0, 1, 1, 1]
      factor_col := ![1, 0, 1, 2]
      csr := none }
  src_global_ids := ![4, 5, 6]
  owner_of_src := [0, 0, 0, 0, 0, 2, 1]

def split_columns : SortedColumns split_cells where
  list := [2, 1]
  perm := by decide
  ordered := by decide

example : split_cells.pattern split_columns =
    { source_ranks := [1, 2]
      rank_offsets := [0, 1, 2]
      needed_global_src_ids := [6, 5]
      gather_slot := [0, 1] } := by decide

end DistributedInput

end Axis

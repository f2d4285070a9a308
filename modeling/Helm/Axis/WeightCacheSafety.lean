import Helm.Axis.HaloRemap
import Helm.Axis.WeightCache

/-! # AXIS: memory safety of the weight cache

  `deserialize` trusts the three dimensions of a header as far as the size
  check goes, and `serialize` trusts the dimensions of a matrix. The size
  check is in `size_t` arithmetic, which wraps; and two of the generators
  give a matrix dimensions that are not the lengths of its arrays:

  * the overload with a `HaloPattern` counts the gathered cells into
    `n_src` but keeps `frac_a` and `area_a` of the local cells;
  * `DistributedWeightGenerator` takes the cells of all ranks as `n_dst`
    but keeps `frac_b` and `area_b` of the local cells.

  Main result: `safe_iff`.
-/

namespace Axis

open Signed Segments Bytes

/-! ## Section 1: The generated matrices -/

/-- The bits of the floating-point numbers that a generator computes. -/
structure Values (nnz n_src n_dst : Nat) where
  factor_list : Fin nnz → Word
  frac_a : Fin n_src → Word
  frac_b : Fin n_dst → Word
  area_a : Fin n_src → Word
  area_b : Fin n_dst → Word
  /-- The arrays were allocated. -/
  in_memory : WeightCache.exact_size n_src n_dst nnz < 2 ^ 64

/-- A view of `n` elements that a loop has filled. -/
def WordView.fill {n : Nat} (f : Fin n → Word) : WordView := ⟨n, List.ofFn f⟩

def index_word (i : Nat) : Word := .ofNat 64 i

variable {nnz n_src n_dst : Nat}

/-- "Pack into InterpolationMatrix", with which every local generator ends. -/
def pack (A : InterpolationMatrix nnz n_src n_dst) (v : Values nnz n_src n_dst) : MatrixViews where
  factor_list := .fill v.factor_list
  factor_row := .fill fun k => index_word (A.factor_row k)
  factor_col := .fill fun k => index_word (A.factor_col k)
  frac_a := .fill v.frac_a
  frac_b := .fill v.frac_b
  area_a := .fill v.area_a
  area_b := .fill v.area_b
  n_src
  n_dst

/-- The matrix of the overload with a `HaloPattern`. -/
def DistributedInput.remapped_views (inp : DistributedInput nnz n_src n_dst)
    (columns : SortedColumns inp) (v : Values nnz n_src n_dst) : MatrixViews :=
  { pack inp.local_matrix v with
    factor_col := .fill fun k => index_word (inp.remap columns (inp.local_matrix.factor_col k))
    n_src := n_src + columns.list.length }

/-- What `DistributedWeightGenerator::generate` has on one rank: the matrix
    of its own cells, and the number of destination cells of each rank. -/
structure RankInput (nnz n_src n_dst : Nat) where
  local_matrix : InterpolationMatrix nnz n_src n_dst
  dst_cells : List Nat
  rank : Fin dst_cells.length
  own : dst_cells.get rank = n_dst

namespace RankInput

variable (inp : RankInput nnz n_src n_dst)

/-- Every rank sends the number of its cells as an `int`. -/
def dst_counts : List Int := inp.dst_cells.map fun n : Nat => to_int n

/-- The running sums, of type `size_t`. -/
def dst_offsets : List Nat :=
  inp.dst_counts.scanl (fun offset count => (offset + to_size count) % 2 ^ 64) 0

def global_dst_offset : Nat := inp.dst_offsets.getD inp.rank 0

/-- `dst_offsets[size]` -/
def n_dst_global : Nat := inp.dst_offsets.getD inp.dst_cells.length 0

def global_views (v : Values nnz n_src n_dst) : MatrixViews :=
  if inp.dst_cells.length = 1 then pack inp.local_matrix v
  else
    { pack inp.local_matrix v with
      factor_row := .fill fun k =>
        index_word (inp.local_matrix.factor_row k) + index_word inp.global_dst_offset
      n_dst := inp.n_dst_global }

end RankInput

/-- The ways to get a matrix. -/
inductive Generated where
  | generate {nnz n_src n_dst : Nat} (A : InterpolationMatrix nnz n_src n_dst)
      (v : Values nnz n_src n_dst)
  | generate_with_pattern {nnz n_src n_dst : Nat} (inp : DistributedInput nnz n_src n_dst)
      (columns : DistributedInput.SortedColumns inp) (v : Values nnz n_src n_dst)
  | generate_over_ranks {nnz n_src n_dst : Nat} (inp : RankInput nnz n_src n_dst)
      (v : Values nnz n_src n_dst)

def Generated.matrix : Generated → MatrixViews
  | .generate A v => pack A v
  | .generate_with_pattern inp columns v => inp.remapped_views columns v
  | .generate_over_ranks inp v => inp.global_views v

/-- The dimensions are those of the local cells: no entry has a column of
    another rank; the destination cells of all ranks are not more than those
    of this rank. -/
def Generated.LocalDimensions : Generated → Prop
  | .generate _ _ => True
  | .generate_with_pattern inp _ _ => ∀ k, inp.off_rank (inp.local_matrix.factor_col k) = false
  | @Generated.generate_over_ranks _ _ n_dst inp _ =>
    inp.dst_cells.length = 1 ∨ inp.dst_counts.sum % 2 ^ 61 ≤ n_dst

namespace WeightCache

/-! ## Section 2: What is safe -/

/-- A buffer, whose size is a `size_t`. -/
structure Buffer where
  bytes : List UInt8
  in_range : bytes.length < 2 ^ 64

/-- The reader stays in the buffer, and what it accepts is as long as the
    header says, over the integers. -/
structure DeserializeSafe (native : Endian) (allocates : Nat → Bool) (buf : Option Buffer) :
    Prop where
  reads : deserialize native allocates (buf.map (·.bytes)) ≠ .undefined
  accepts : ∀ m buffer, deserialize native allocates (buf.map (·.bytes)) = .returned m →
    buf = some buffer →
    let h := read_header native buffer.bytes
    HEADER_SIZE + ((array_extents h.n_src h.n_dst h.nnz).map (· * 8)).sum ≤ buffer.bytes.length

/-- The checks that the reader makes. -/
structure ChecksPassed (native : Endian) (allocates : Nat → Bool) (bytes : List UInt8) :
    Prop where
  long_enough : HEADER_SIZE ≤ bytes.length
  header : header_error native (read_header native bytes) = none
  size : let h := read_header native bytes
    compute_blob_size h.n_src h.n_dst h.nnz ≤ bytes.length
  allocated : let h := read_header native bytes
    ∀ n ∈ array_extents h.n_src h.n_dst h.nnz, allocates n = true

/-- The dimensions of a header that passes the checks do not wrap. -/
def SizeExact (native : Endian) (allocates : Nat → Bool) (buf : Option Buffer) : Prop :=
  ∀ buffer, buf = some buffer → ChecksPassed native allocates buffer.bytes →
    let h := read_header native buffer.bytes
    exact_size h.n_src h.n_dst h.nnz < 2 ^ 64

/-- The writer stays in the arrays of the matrix, when the buffer has room
    for what it writes. -/
def SerializeSafe (m : MatrixViews) : Prop :=
  ∀ native buffer, exact_size m.n_src m.n_dst m.nnz ≤ buffer.length →
    serialize native m (some buffer) ≠ .undefined

/-! ## Section 3: Reading -/

theorem array_bytes_le (n : Nat) : array_bytes n ≤ n * 8 := Nat.mod_le _ _

theorem read_views_inside (native : Endian) {buffer : List UInt8} {ns : List Nat} {pos : Nat}
    (h : pos + (ns.map (· * 8)).sum ≤ buffer.length) :
    ∃ views, read_views native buffer pos ns = .returned views ∧ views.length = ns.length := by
  induction ns generalizing pos with
  | nil => exact ⟨[], rfl, rfl⟩
  | cons n ns ih =>
    rw [List.map_cons, List.sum_cons] at h
    have hle := array_bytes_le n
    have hroom : pos + array_bytes n + (ns.map (· * 8)).sum ≤ buffer.length := by omega
    obtain ⟨views, hviews, hlen⟩ := ih hroom
    have hread : (memcpy_from buffer pos (array_bytes n) : Outcome String (List UInt8)) =
        .returned ((buffer.drop pos).take (array_bytes n)) := if_pos (by omega)
    rw [read_views, hread, Outcome.returned_bind, hviews, Outcome.returned_bind]
    exact ⟨_, rfl, congrArg (· + 1) hlen⟩

theorem read_views_cases (native : Endian) (buffer : List UInt8) (pos : Nat) (ns : List Nat) :
    (∃ views, read_views native buffer pos ns = .returned views) ∨
      read_views native buffer pos ns = .undefined := by
  induction ns generalizing pos with
  | nil => exact .inl ⟨[], rfl⟩
  | cons n ns ih =>
    rw [read_views, memcpy_from]
    split
    · rw [Outcome.returned_bind]
      obtain ⟨views, hviews⟩ | hundefined := ih (pos + array_bytes n)
      · rw [hviews, Outcome.returned_bind]
        exact .inl ⟨_, rfl⟩
      · rw [hundefined]
        exact .inr rfl
    · exact .inr rfl

theorem pack_views_cases (n_src n_dst : Nat) (views : List WordView) :
    (∃ m, pack_views n_src n_dst views = .returned m) ∨
      pack_views n_src n_dst views = .undefined := by
  unfold pack_views
  split
  · exact .inl ⟨_, rfl⟩
  · exact .inr rfl

theorem deserialize_checked {native : Endian} {allocates : Nat → Bool} {bytes : List UInt8}
    (h : ChecksPassed native allocates bytes) :
    deserialize native allocates (some bytes) =
      let h := read_header native bytes
      read_views native bytes HEADER_SIZE (array_extents h.n_src h.n_dst h.nnz) >>=
        pack_views h.n_src h.n_dst := by
  have hsize := h.size
  have halloc := h.allocated
  dsimp only at hsize halloc
  unfold deserialize
  dsimp only
  rw [if_neg (not_lt.mpr h.long_enough), h.header]
  dsimp only
  rw [if_neg (not_lt.mpr hsize), List.all_eq_true.mpr halloc, Bool.not_true,
    if_neg Bool.false_ne_true]

theorem deserialize_refused_or_checked (native : Endian) (allocates : Nat → Bool)
    (bytes : List UInt8) :
    (∃ text, deserialize native allocates (some bytes) = .thrown text) ∨
      ChecksPassed native allocates bytes := by
  unfold deserialize
  dsimp only
  split
  · exact .inl ⟨_, rfl⟩
  · next hlen =>
    split
    · exact .inl ⟨_, rfl⟩
    · next herror =>
      split
      · exact .inl ⟨_, rfl⟩
      · next hsize =>
        split
        · exact .inl ⟨_, rfl⟩
        · next halloc =>
          rw [Bool.not_eq_true', Bool.not_eq_false] at halloc
          exact .inr ⟨not_lt.mp hlen, herror, not_lt.mp hsize, List.all_eq_true.mp halloc⟩

theorem deserialize_inside {native : Endian} {allocates : Nat → Bool} {bytes : List UInt8}
    (h : ChecksPassed native allocates bytes)
    (hexact : let h := read_header native bytes
      exact_size h.n_src h.n_dst h.nnz ≤ bytes.length) :
    ∃ m, deserialize native allocates (some bytes) = .returned m := by
  rw [deserialize_checked h]
  dsimp only at hexact ⊢
  rw [exact_size_eq] at hexact
  obtain ⟨views, hviews, hlen⟩ := read_views_inside native hexact
  rw [hviews, Outcome.returned_bind]
  match views, hlen with
  | [_, _, _, _, _, _, _], _ => exact ⟨_, rfl⟩

theorem deserialize_returned {native : Endian} {allocates : Nat → Bool} {bytes : List UInt8}
    (h : ChecksPassed native allocates bytes)
    (hdefined : deserialize native allocates (some bytes) ≠ .undefined) :
    ∃ m, deserialize native allocates (some bytes) = .returned m := by
  rw [deserialize_checked h] at hdefined ⊢
  dsimp only at hdefined ⊢
  set extents := array_extents _ _ _
  obtain ⟨views, hviews⟩ | hundefined := read_views_cases native bytes HEADER_SIZE extents
  · rw [hviews, Outcome.returned_bind] at hdefined ⊢
    exact (pack_views_cases _ _ views).resolve_right hdefined
  · rw [hundefined] at hdefined
    exact absurd rfl hdefined

theorem deserialize_safe_iff (native : Endian) (allocates : Nat → Bool) (buf : Option Buffer) :
    DeserializeSafe native allocates buf ↔ SizeExact native allocates buf := by
  constructor
  · intro hsafe buffer hbuf hchecks
    have hreads := hsafe.reads
    have haccepts := hsafe.accepts
    subst hbuf
    obtain ⟨m, hm⟩ := deserialize_returned hchecks hreads
    have hle := haccepts m buffer hm rfl
    dsimp only at hle ⊢
    rw [exact_size_eq]
    exact lt_of_le_of_lt hle buffer.in_range
  · intro hexact
    cases buf with
    | none =>
      constructor
      · intro h
        cases h
      · intro m buffer _ hbuf
        cases hbuf
    | some buffer =>
      have hcases := deserialize_refused_or_checked native allocates buffer.bytes
      obtain ⟨text, hthrown⟩ | hchecks := hcases
      · constructor
        · rw [Option.map_some, hthrown]
          intro h
          cases h
        · intro m buffer' hm
          rw [Option.map_some, hthrown] at hm
          cases hm
      · -- the size that was checked is the exact one
        have hsize := hchecks.size
        have hlt := hexact buffer rfl hchecks
        unfold compute_blob_size at hsize
        dsimp only at hsize hlt
        rw [Nat.mod_eq_of_lt hlt] at hsize
        obtain ⟨m, hm⟩ := deserialize_inside hchecks hsize
        constructor
        · rw [Option.map_some, hm]
          intro h
          cases h
        · intro m' buffer' _ hbuf
          cases hbuf
          rw [exact_size_eq] at hsize
          exact hsize

/-! ## Section 4: Writing -/

/-- The copies stay in the arrays. -/
def ReadsInside (arrays : List (WordView × Nat)) : Prop :=
  ∀ c ∈ arrays, array_bytes c.2 ≤ 8 * c.1.data.length

theorem length_write {α : Type} {buffer data : List α} {pos : Nat}
    (h : pos + data.length ≤ buffer.length) : (write buffer pos data).length = buffer.length := by
  unfold write
  simp only [List.length_append, List.length_take, List.length_drop]
  omega

theorem copy_views_defined_iff (native : Endian) {arrays : List (WordView × Nat)}
    (buffer : List UInt8) (pos : Nat)
    (hroom : pos + ((arrays.map (·.2)).map (· * 8)).sum ≤ buffer.length) :
    copy_views native buffer pos arrays ≠ .undefined ↔ ReadsInside arrays := by
  induction arrays generalizing buffer pos with
  | nil =>
    constructor
    · intro _ c hc
      cases hc
    · intro _ h
      cases h
  | cons c arrays ih =>
    obtain ⟨view, n⟩ := c
    rw [List.map_cons, List.map_cons, List.sum_cons] at hroom
    have hle := array_bytes_le n
    have hlen := length_bytes_of_words native view.data
    unfold ReadsInside
    rw [copy_views, List.forall_mem_cons, memcpy_to]
    split
    · next hinside =>
      rw [Outcome.returned_bind, ih]
      · rw [hlen] at hinside
        exact ⟨fun h => ⟨hinside.1, h⟩, fun h => h.2⟩
      · rw [length_write]
        · omega
        · rw [List.length_take]
          omega
    · next houtside =>
      -- the buffer has room, so that the array is too short
      constructor
      · intro h
        exact absurd rfl h
      · intro h
        exact absurd ⟨by rw [hlen]; exact h.1, by omega⟩ houtside

theorem serialize_safe_iff (m : MatrixViews) : SerializeSafe m ↔ ReadsInside (body m) := by
  have hwhole : ∀ native buffer, exact_size m.n_src m.n_dst m.nnz ≤ buffer.length →
      (serialize native m (some buffer) ≠ .undefined ↔ ReadsInside (body m)) := by
    intro native buffer hroom
    have hsize := exact_size_eq m.n_src m.n_dst m.nnz
    have hrequired : compute_blob_size m.n_src m.n_dst m.nnz ≤ buffer.length :=
      (Nat.mod_le _ _).trans hroom
    have hheader := length_write_header native m.n_src m.n_dst m.nnz
    have hfirst : (memcpy_to buffer 0 (write_header native m.n_src m.n_dst m.nnz)
        (write_header native m.n_src m.n_dst m.nnz).length : Outcome String (List UInt8)) =
        .returned _ := if_pos ⟨le_refl _, by omega⟩
    rw [List.take_length] at hfirst
    unfold serialize
    dsimp only
    rw [if_neg (not_lt.mpr hrequired), hfirst, Outcome.returned_bind,
      ← copy_views_defined_iff native
        (write buffer 0 (write_header native m.n_src m.n_dst m.nnz)) HEADER_SIZE]
    · cases copy_views native _ HEADER_SIZE (body m) <;> simp
    · rw [map_snd_body, length_write (by omega), ← hsize]
      exact hroom
  constructor
  · intro h
    have hroom : exact_size m.n_src m.n_dst m.nnz ≤
        (List.replicate (exact_size m.n_src m.n_dst m.nnz) (0 : UInt8)).length := by
      rw [List.length_replicate]
    exact (hwhole .little _ hroom).mp (h .little _ hroom)
  · intro h native buffer hroom
    exact (hwhole native buffer hroom).mpr h

/-! ## Section 5: The arrays of a generator -/

theorem reads_inside_iff (m : MatrixViews) : ReadsInside (body m) ↔
    array_bytes m.nnz ≤ 8 * m.factor_list.data.length ∧
    array_bytes m.nnz ≤ 8 * m.factor_row.data.length ∧
    array_bytes m.nnz ≤ 8 * m.factor_col.data.length ∧
    array_bytes m.n_src ≤ 8 * m.frac_a.data.length ∧
    array_bytes m.n_dst ≤ 8 * m.frac_b.data.length ∧
    array_bytes m.n_src ≤ 8 * m.area_a.data.length ∧
    array_bytes m.n_dst ≤ 8 * m.area_b.data.length := by
  unfold ReadsInside body MatrixViews.views array_extents
  simp

theorem reads_inside_pack {nnz n_src n_dst : Nat} (A : InterpolationMatrix nnz n_src n_dst)
    (v : Values nnz n_src n_dst) : ReadsInside (body (pack A v)) := by
  have hnnz := array_bytes_le nnz
  have hsrc := array_bytes_le n_src
  have hdst := array_bytes_le n_dst
  rw [reads_inside_iff]
  simp only [pack, MatrixViews.nnz, WordView.fill, List.length_ofFn]
  omega

theorem reads_inside_remapped {nnz n_src n_dst : Nat} (inp : DistributedInput nnz n_src n_dst)
    (columns : DistributedInput.SortedColumns inp) (v : Values nnz n_src n_dst) :
    ReadsInside (body (inp.remapped_views columns v)) ↔
      ∀ k, inp.off_rank (inp.local_matrix.factor_col k) = false := by
  have hlocal := (reads_inside_iff _).mp (reads_inside_pack inp.local_matrix v)
  have hgathered : columns.list.length ≤ n_src := by
    have hcard := DistributedInput.columns_nodup.length_le_card (l := columns.list)
    rwa [Fintype.card_fin] at hcard
  have hmemory := v.in_memory
  rw [exact_size] at hmemory
  have hbytes : array_bytes (n_src + columns.list.length) = (n_src + columns.list.length) * 8 :=
    array_bytes_of_lt (by omega)
  calc ReadsInside (body (inp.remapped_views columns v))
      ↔ array_bytes (n_src + columns.list.length) ≤ 8 * n_src := by
        rw [reads_inside_iff]
        simp only [pack, MatrixViews.nnz, WordView.fill, List.length_ofFn] at hlocal
        simp only [DistributedInput.remapped_views, pack, MatrixViews.nnz, WordView.fill,
          List.length_ofFn]
        omega
    _ ↔ columns.list = [] := by
        rw [hbytes, ← List.length_eq_zero_iff]
        omega
    _ ↔ ∀ k, inp.off_rank (inp.local_matrix.factor_col k) = false := by
        rw [List.eq_nil_iff_forall_not_mem]
        constructor
        · intro h k
          rw [← Bool.not_eq_true]
          intro hoff
          exact h _ (DistributedInput.mem_columns.mpr ⟨hoff, k, rfl⟩)
        · intro h c hc
          obtain ⟨hoff, k, hk⟩ := DistributedInput.mem_columns.mp hc
          rw [← hk, h k] at hoff
          cases hoff

theorem n_dst_global_eq {nnz n_src n_dst : Nat} (inp : RankInput nnz n_src n_dst) :
    (inp.n_dst_global : Int) = inp.dst_counts.sum % 2 ^ 64 := by
  have hfold : ∀ (counts : List Int) (offset : Nat), offset < 2 ^ 64 →
      ((counts.foldl (fun offset count => (offset + to_size count) % 2 ^ 64) offset : Nat) : Int) =
        (offset + counts.sum) % 2 ^ 64 := by
    intro counts
    induction counts with
    | nil =>
      intro offset hlt
      rw [List.foldl_nil, List.sum_nil]
      omega
    | cons count counts ih =>
      intro offset hlt
      rw [List.foldl_cons, ih _ (Nat.mod_lt _ (by norm_num)), List.sum_cons]
      unfold to_size
      omega
  have hlen : inp.dst_counts.length = inp.dst_cells.length := List.length_map _
  have hsum := hfold inp.dst_counts 0 (by norm_num)
  unfold RankInput.n_dst_global RankInput.dst_offsets
  rw [List.getD_eq_getElem?_getD, List.getElem?_scanl, if_pos (le_of_eq hlen.symm), ← hlen,
    List.take_length, Option.getD_some, hsum, Nat.cast_zero, zero_add]

theorem reads_inside_global {nnz n_src n_dst : Nat} (inp : RankInput nnz n_src n_dst)
    (v : Values nnz n_src n_dst) :
    ReadsInside (body (inp.global_views v)) ↔
      inp.dst_cells.length = 1 ∨ inp.dst_counts.sum % 2 ^ 61 ≤ n_dst := by
  have hlocal := reads_inside_pack inp.local_matrix v
  unfold RankInput.global_views
  split
  · next hone => exact iff_of_true hlocal (.inl hone)
  · next hmany =>
    have hglobal := n_dst_global_eq inp
    rw [reads_inside_iff] at hlocal ⊢
    simp only [pack, MatrixViews.nnz, WordView.fill, List.length_ofFn] at hlocal ⊢
    have hbytes : array_bytes inp.n_dst_global ≤ 8 * n_dst ↔
        inp.dst_counts.sum % 2 ^ 61 ≤ (n_dst : Int) := by
      unfold array_bytes
      omega
    rw [← hbytes]
    omega

/-! ## Section 6: Memory safety -/

/-- **Memory safety**: the reader is safe exactly on buffers whose header,
    when it passes the checks, has dimensions that do not wrap. The writer is
    safe exactly on matrices with the dimensions of the local cells. -/
theorem safe_iff (native : Endian) (allocates : Nat → Bool) (buf : Option Buffer)
    (generated : Generated) :
    (DeserializeSafe native allocates buf ↔ SizeExact native allocates buf) ∧
      (SerializeSafe generated.matrix ↔ generated.LocalDimensions) := by
  constructor
  · exact deserialize_safe_iff native allocates buf
  · rw [serialize_safe_iff]
    cases generated with
    | generate A v => exact iff_of_true (reads_inside_pack A v) trivial
    | generate_with_pattern inp columns v => exact reads_inside_remapped inp columns v
    | generate_over_ranks inp v => exact reads_inside_global inp v

/-! ### A header of `2 ^ 61` entries -/

/-- Kokkos asks for `n * sizeof(double)` bytes, in `size_t`. -/
def allocates_up_to (memory : Nat) (n : Nat) : Bool := array_bytes n ≤ memory

/-- The three arrays of entries take `3 * 2 ^ 64` bytes, which wraps to 0. -/
def wrapped_header : Buffer where
  bytes := write_header .little 0 0 (2 ^ 61)
  in_range := by decide

def ones {n : Nat} : Fin n → Word := fun _ => 0x3FF0000000000000

def split_values : Values 4 3 2 where
  factor_list := ones
  frac_a := ones
  frac_b := ones
  area_a := ones
  area_b := ones
  in_memory := by decide

/-- Two of the three cells belong to other ranks. -/
def split_matrix : Generated :=
  .generate_with_pattern DistributedInput.split_cells DistributedInput.split_columns split_values

theorem wrapped_header_accepted :
    ¬ DeserializeSafe .little (allocates_up_to (2 ^ 40)) (some wrapped_header) ∧
      ¬ SerializeSafe split_matrix.matrix := by
  constructor
  · intro h
    have hreturned : deserialize .little (allocates_up_to (2 ^ 40)) (some wrapped_header.bytes) =
        .returned
          { factor_list := ⟨2 ^ 61, []⟩, factor_row := ⟨2 ^ 61, []⟩, factor_col := ⟨2 ^ 61, []⟩
            frac_a := ⟨0, []⟩, frac_b := ⟨0, []⟩, area_a := ⟨0, []⟩, area_b := ⟨0, []⟩
            n_src := 0, n_dst := 0 } := by decide +kernel
    have hle := h.accepts _ wrapped_header hreturned rfl
    revert hle
    decide +kernel
  · intro h
    apply h .little (List.replicate 248 0)
    · decide +kernel
    · decide +kernel

end WeightCache

end Axis

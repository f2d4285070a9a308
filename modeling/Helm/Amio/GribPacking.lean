import Helm.Amio.DriverWrite

/-! # Packing for GRIB2

  `GRIB2_Driver::pack_row_major` gathers the elements of a strided array into
  a new buffer, for elements of any size. `GRIB2_Driver::write` skips it when
  `is_contiguous_row_major` says that the elements already lie one after the
  other, and encodes the front of the array instead.

  The odometer of the packing loop and the rule of the check are those of
  `DriverWrite`; here the array is any buffer that is long enough, not the
  copy that `write` has made.

  Main result: `pack_row_major_spec`.
-/

namespace Amio.GRIB2_Driver

open Signed RowMajor

/-- The bytes of the element at offset `k` of a buffer. -/
def element_at (src : List (BitVec 8)) (size k : Nat) : List (BitVec 8) :=
  (src.drop (k * size)).take size

/-- What the caller promises. No product overflows, no stride is negative, and
    the buffer reaches to the end of the element that lies farthest. -/
structure Packable (src : List (BitVec 8)) (shape : AmioShape) (size : Nat) : Prop where
  count_fits : shape.sizes.prod < 2 ^ 63
  bytes_fit : shape.sizes.prod * size ≤ max_size
  forward : ∀ s ∈ shape.steps, 0 ≤ s
  length_fits : src.length < 2 ^ 64
  long_enough :
    (farthest shape.sizes (resolve_strides shape.sizes shape.steps) + 1) * size ≤ src.length

section
variable {src : List (BitVec 8)} {shape : AmioShape} {size : Nat}

theorem forward_resolve {es : List Nat} {ss : List Int} (hlength : ss.length = es.length)
    (hforward : ∀ s ∈ ss, 0 ≤ s) : Forward es (resolve_strides es ss) := by
  induction es generalizing ss with
  | nil => exact trivial
  | cons e es ih =>
    obtain ⟨s, ss, rfl⟩ := List.exists_cons_of_length_eq_add_one hlength
    rw [resolve_strides]
    constructor
    · right
      have hs := hforward s List.mem_cons_self
      split
      · positivity
      · exact hs
    · apply ih (by simpa using hlength)
      intro s' hs'
      exact hforward s' (List.mem_cons_of_mem _ hs')

theorem fetch_element_at {k : Nat} (h : k * size + size ≤ src.length) :
    fetch src (k * size) size = .returned (element_at src size k) := if_pos h

theorem length_element_at {k : Nat} (h : k * size + size ≤ src.length) :
    (element_at src size k).length = size := by
  rw [element_at, List.length_take, List.length_drop]
  omega

theorem Packable.element_fits (h : Packable src shape size) {i : List Nat}
    (hi : i ∈ indices shape.sizes) :
    ∃ k : Nat, offset i (resolve_strides shape.sizes shape.steps) = k ∧
      k * size + size ≤ src.length := by
  have hsteps := length_steps shape
  obtain ⟨hlow, hhigh⟩ := offset_le_farthest (length_resolve_strides hsteps)
    (forward_resolve hsteps h.forward) hi
  obtain ⟨k, hk⟩ := Int.eq_ofNat_of_zero_le hlow
  refine ⟨k, hk, ?_⟩
  have hle : (k + 1 : Int) * size ≤ src.length :=
    le_trans (mul_le_mul_of_nonneg_right (by omega) (by positivity)) h.long_enough
  have hnat : (k + 1) * size ≤ src.length := by exact_mod_cast hle
  rwa [Nat.succ_mul] at hnat

theorem Packable.fetch_eq (h : Packable src shape size) {i : List Nat}
    (hi : i ∈ indices shape.sizes) :
    fetch src (Word.mul 64 (src_elem_offset i (resolve_strides shape.sizes shape.steps)) size) size =
      .returned (element_at src size
        (offset i (resolve_strides shape.sizes shape.steps)).toNat) := by
  obtain ⟨k, hk, hfits⟩ := h.element_fits hi
  have hbytes : Word.mul 64 (src_elem_offset i (resolve_strides shape.sizes shape.steps)) size =
      k * size := by
    have hoffset := src_elem_offset_eq i (resolve_strides shape.sizes shape.steps)
    rw [hk] at hoffset
    have hmod : src_elem_offset i (resolve_strides shape.sizes shape.steps) = k % 2 ^ 64 := by
      exact_mod_cast hoffset
    have := h.length_fits
    rw [hmod, Word.mul, Nat.mod_mul_mod, Nat.mod_eq_of_lt (by omega)]
  rw [hbytes, hk, Int.toNat_natCast]
  exact fetch_element_at hfits

theorem pack_row_major_returned (hshape : validate_shape shape = true)
    (h : Packable src shape size) :
    pack_row_major src shape size = .returned ((indices shape.sizes).map fun i =>
      element_at src size (offset i (resolve_strides shape.sizes shape.steps)).toNat) := by
  have hcount := h.count_fits
  have hbytes := h.bytes_fit
  have htotal : total_elements shape = shape.sizes.prod := by
    rw [total_elements, if_pos hshape, compute_element_count_eq, Nat.mod_eq_of_lt (by omega)]
  have hmul : Word.mul 64 shape.sizes.prod size = shape.sizes.prod * size :=
    Nat.mod_eq_of_lt (lt_of_le_of_lt hbytes (by rw [max_size]; omega))
  have hstrides := actual_strides_eq (length_steps shape) (sizes_pos hshape) hcount
  rw [pack_row_major]
  simp only [htotal, hmul, hstrides, Outcome.returned_bind, Nat.lt_irrefl, if_false,
    walk_zeros (sizes_pos hshape)]
  rw [allocate, if_neg (by omega), Outcome.returned_bind]
  exact Outcome.mapM_of_returned fun i hi => h.fetch_eq hi

theorem flatten_elements {n : Nat} (h : n * size ≤ src.length) :
    ((List.range n).map (element_at src size)).flatten = src.take (n * size) := by
  induction n with
  | zero => simp
  | succ n ih =>
    rw [Nat.succ_mul] at h ⊢
    rw [List.range_succ, List.map_append, List.flatten_append, ih (by omega), List.take_add]
    simp [element_at]

theorem packed_of_strides
    (hrow : resolve_strides shape.sizes shape.steps = strides shape.sizes) :
    ((indices shape.sizes).map fun i =>
        element_at src size (offset i (resolve_strides shape.sizes shape.steps)).toNat) =
      (List.range shape.sizes.prod).map (element_at src size) := by
  rw [hrow, indices_eq_map_unrank, List.map_map]
  apply List.map_congr_left
  intro k hk
  show element_at src size (offset (unrank shape.sizes k) (strides shape.sizes)).toNat = _
  rw [offset_unrank (List.mem_range.mp hk), Int.toNat_natCast]

/-- **Packing.** The packed buffer has as many elements as the shape, each of
    the element size, and at the row-major position of a multi-index `i` the
    source element at the offset `Σ i_d * s_d`, where a stride of zero stands
    for the row-major one. The check of contiguity ends, and when it says yes
    the fast path hands over the same elements, which are the first bytes of
    the source. -/
theorem pack_row_major_spec (hshape : validate_shape shape = true) (h : Packable src shape size) :
    ∃ packed contiguous, pack_row_major src shape size = .returned packed ∧
      packed.length = shape.sizes.prod ∧ (∀ v ∈ packed, v.length = size) ∧
      (∀ i ∈ indices shape.sizes, packed[(offset i (strides shape.sizes)).toNat]? =
        some (element_at src size
          (offset i (resolve_strides shape.sizes shape.steps)).toNat)) ∧
      is_contiguous_row_major shape = .returned contiguous ∧
      (contiguous = true → fetch_front src size shape.sizes.prod = .returned packed ∧
        packed.flatten = src.take (shape.sizes.prod * size)) := by
  obtain ⟨contiguous, hcontiguous⟩ := exists_contiguous hshape h.count_fits
  refine ⟨_, contiguous, pack_row_major_returned hshape h, ?_, ?_, ?_, hcontiguous, ?_⟩
  · rw [List.length_map, length_indices]
  · intro v hv
    obtain ⟨i, hi, rfl⟩ := List.mem_map.mp hv
    obtain ⟨k, hk, hfits⟩ := h.element_fits hi
    rw [hk, Int.toNat_natCast]
    exact length_element_at hfits
  · -- the row-major position of a multi-index is its place in the list of all
    intro i hi
    obtain ⟨k, hk, rfl, hoffset⟩ := exists_unrank hi
    rw [hoffset, Int.toNat_natCast, indices_eq_map_unrank, List.map_map, List.getElem?_map,
      List.getElem?_range hk]
    rfl
  · intro hyes
    have hrow := resolve_of_contiguous hshape (hyes ▸ hcontiguous)
    have hlast : shape.sizes.prod * size ≤ src.length := by
      have hlong := h.long_enough
      rw [hrow] at hlong
      have hpos := List.prod_pos (sizes_pos hshape)
      obtain ⟨k, hk, hunrank, hoffset⟩ := exists_unrank (last_mem_indices (sizes_pos hshape))
      have hall : shape.sizes.prod - 1 ≤ k := by
        -- the last multi-index is the one that lies farthest
        have hforward := forward_resolve (length_steps shape) h.forward
        rw [hrow] at hforward
        have hle := (offset_le_farthest (length_strides _) hforward
          (indices_eq_map_unrank shape.sizes ▸ List.mem_map_of_mem
            (List.mem_range.mpr (Nat.sub_one_lt_of_lt hpos)))).2
        rw [offset_unrank (Nat.sub_one_lt_of_lt hpos), farthest, hoffset] at hle
        exact_mod_cast hle
      rw [farthest, hoffset] at hlong
      have hnat : (k + 1) * size ≤ src.length := by exact_mod_cast hlong
      exact le_trans (Nat.mul_le_mul_right _ (by omega)) hnat
    rw [packed_of_strides hrow]
    constructor
    · apply Outcome.mapM_of_returned
      intro k hk
      apply fetch_element_at
      rw [← Nat.succ_mul]
      exact le_trans (Nat.mul_le_mul_right _ (List.mem_range.mp hk)) hlast
    · exact flatten_elements hlast

/-- Two rows of two elements, with one left out after the first row. -/
def two_rows : AmioShape := ⟨2, fun _ => 2, fun d => if d = 0 then 3 else 1⟩

theorem pack_two_rows :
    ∃ packed contiguous, pack_row_major [1, 2, 3, 4, 5] two_rows 1 = .returned packed ∧
      packed.length = two_rows.sizes.prod ∧ (∀ v ∈ packed, v.length = 1) ∧
      (∀ i ∈ indices two_rows.sizes, packed[(offset i (strides two_rows.sizes)).toNat]? =
        some (element_at [1, 2, 3, 4, 5] 1
          (offset i (resolve_strides two_rows.sizes two_rows.steps)).toNat)) ∧
      is_contiguous_row_major two_rows = .returned contiguous ∧
      (contiguous = true → fetch_front [1, 2, 3, 4, 5] 1 two_rows.sizes.prod = .returned packed ∧
        packed.flatten = [1, 2, 3, 4, 5].take (two_rows.sizes.prod * 1)) := by
  have hsizes : two_rows.sizes = [2, 2] := by decide
  have hsteps : two_rows.steps = [3, 1] := by decide
  apply pack_row_major_spec (by decide)
  refine ⟨?_, ?_, ?_, ?_, ?_⟩
  · rw [hsizes]
    decide
  · rw [hsizes]
    decide
  · rw [hsteps]
    decide
  · decide
  · rw [hsizes, hsteps]
    decide

end

end Amio.GRIB2_Driver

import Helm.Framework.ArrayLoops
import Helm.Framework.RowMajor
import Helm.Halo.StructuredPlan

/-! # The order in which faces are packed

  `pack` copies a subview into a buffer and `unpack` copies a buffer into a
  subview. Each looks at its own subview: where the elements lie one after the
  other it copies them in the order of the memory, and else row by row. The
  subviews of the two sides have the strides of two arrays whose extents may
  differ in the dimension of the face, and still both sides come to the same
  order.

  Arrays are without padding, and the memory of a process is a function of the
  address, counted in elements. The iterations of a kernel take effect in any
  order.
-/

namespace Halo

open RowMajor (indices offset unrank farthest Contiguous)
open ArrayLoops (Schedule assign assign_of_hit assign_of_miss)

variable {R : Nat} {α β : Type}

/-! ## Section 1: Views -/

/-- `LayoutLeft` and `LayoutRight` -/
inductive MemoryLayout
  | left
  | right
  deriving DecidableEq

namespace MemoryLayout

/-- The axes in the order of the memory: the last one varies fastest. -/
def axes : MemoryLayout → List β → List β
  | left, l => l.reverse
  | right, l => l

/-- The strides of an array. -/
def strides (layout : MemoryLayout) (extents : List Nat) : List Int :=
  layout.axes (RowMajor.strides (layout.axes extents))

end MemoryLayout

/-- A subview: the address of its first element, and the extents and strides of
    its axes. -/
structure Subview where
  data : Int
  extents : List Nat
  strides : List Int

/-- `make_subview` -/
def make_subview (layout : MemoryLayout) (extents : Fin R → Nat) (region : FaceRegion R) :
    Subview where
  data := offset (List.ofFn region.first) (layout.strides (List.ofFn extents))
  extents := List.ofFn region.shape
  strides := layout.strides (List.ofFn extents)

namespace Subview

def size (v : Subview) : Nat := v.extents.prod

/-- The distance from the first to the last element, plus one. -/
def span (v : Subview) : Int := if v.size = 0 then 0 else farthest v.extents v.strides + 1

def is_contiguous (v : Subview) : Bool := v.span = v.size

/-- The address of an element. -/
def address (v : Subview) (i : List Nat) : Int := v.data + offset i v.strides

end Subview

/-! ## Section 2: Kernels -/

/-- Where `pack_strided_rank1`, `rank2` and `rank3` put an element. -/
def buffer_index : List Nat → List Nat → Nat
  | [_], [i0] => i0
  | [_, n1], [i0, i1] => i0 * n1 + i1
  | [_, n1, n2], [i0, i1, i2] => (i0 * n1 + i1) * n2 + i2
  | _, _ => 0

/-- The element that iteration `idx` of `pack_strided_rank4` copies. -/
def element_rank4 : List Nat → Nat → List Nat
  | [_, n1, n2, n3], idx =>
    let i3 := idx % n3
    let rem := idx / n3
    let i2 := rem % n2
    let rem2 := rem / n2
    let i1 := rem2 % n1
    let i0 := rem2 / n1
    [i0, i1, i2, i3]
  | _, _ => []

namespace Subview

variable (src dst : Subview)

/-- `pack_contiguous` -/
def pack_contiguous (s : Schedule src.size) (memory : Int → α) (buffer : Nat → α) : Nat → α :=
  assign s.order (fun _ => true) (fun i => i.val) (fun i => memory (src.data + i.val)) buffer

/-- `unpack_contiguous` -/
def unpack_contiguous (s : Schedule dst.size) (buffer : Nat → α) (memory : Int → α) : Int → α :=
  assign s.order (fun _ => true) (fun i => dst.data + i.val) (fun i => buffer i.val) memory

/-- `pack_strided_rank1`, `pack_strided_rank2` and `pack_strided_rank3`: one
    iteration for each element -/
def pack_strided (s : Schedule src.size) (memory : Int → α) (buffer : Nat → α) : Nat → α :=
  assign s.order (fun _ => true) (fun k => buffer_index src.extents (unrank src.extents k))
    (fun k => memory (src.address (unrank src.extents k))) buffer

/-- `unpack_strided_rank1`, `unpack_strided_rank2` and `unpack_strided_rank3` -/
def unpack_strided (s : Schedule dst.size) (buffer : Nat → α) (memory : Int → α) : Int → α :=
  assign s.order (fun _ => true) (fun k => dst.address (unrank dst.extents k))
    (fun k => buffer (buffer_index dst.extents (unrank dst.extents k))) memory

/-- `pack_strided_rank4` -/
def pack_strided_rank4 (s : Schedule src.size) (memory : Int → α) (buffer : Nat → α) : Nat → α :=
  assign s.order (fun _ => true) (fun idx => idx.val)
    (fun idx => memory (src.address (element_rank4 src.extents idx))) buffer

/-- `unpack_strided_rank4` -/
def unpack_strided_rank4 (s : Schedule dst.size) (buffer : Nat → α) (memory : Int → α) : Int → α :=
  assign s.order (fun _ => true) (fun idx => dst.address (element_rank4 dst.extents idx))
    (fun idx => buffer idx.val) memory

/-- `pack`, from a subview into a buffer -/
def pack (s : Schedule src.size) (memory : Int → α) (buffer : Nat → α) : Nat → α :=
  if src.is_contiguous then pack_contiguous src s memory buffer
  else if src.extents.length = 4 then pack_strided_rank4 src s memory buffer
  else pack_strided src s memory buffer

/-- `unpack`, from a buffer into a subview -/
def unpack (s : Schedule dst.size) (buffer : Nat → α) (memory : Int → α) : Int → α :=
  if dst.is_contiguous then unpack_contiguous dst s buffer memory
  else if dst.extents.length = 4 then unpack_strided_rank4 dst s buffer memory
  else unpack_strided dst s buffer memory

end Subview

/-! ## Section 3: Memory order -/

namespace MemoryLayout

variable (layout : MemoryLayout) {i es ns : List Nat}

@[simp] theorem length_axes (l : List β) : (layout.axes l).length = l.length := by
  cases layout with
  | left => exact List.length_reverse
  | right => rfl

@[simp] theorem axes_axes (l : List β) : layout.axes (layout.axes l) = l := by
  cases layout with
  | left => exact List.reverse_reverse l
  | right => rfl

theorem axes_mem_indices : layout.axes i ∈ indices (layout.axes es) ↔ i ∈ indices es := by
  cases layout with
  | left => exact RowMajor.reverse_mem_indices
  | right => rfl

theorem prod_axes : (layout.axes es).prod = es.prod := by
  cases layout with
  | left => exact List.prod_reverse es
  | right => rfl

theorem axes_le (h : List.Forall₂ (· ≤ ·) es ns) :
    List.Forall₂ (· ≤ ·) (layout.axes es) (layout.axes ns) := by
  cases layout with
  | left => exact List.forall₂_reverse_iff.mpr h
  | right => exact h

theorem mem_axes {e : β} {l : List β} : e ∈ layout.axes l ↔ e ∈ l := by
  cases layout with
  | left => exact List.mem_reverse
  | right => rfl

theorem offset_strides (h : i.length = ns.length) :
    offset i (layout.strides ns) = offset (layout.axes i) (RowMajor.strides (layout.axes ns)) := by
  cases layout with
  | left =>
    have hlength : i.length = (RowMajor.strides ns.reverse).reverse.length := by simpa using h
    show offset i (RowMajor.strides ns.reverse).reverse = offset i.reverse (RowMajor.strides ns.reverse)
    rw [← RowMajor.offset_reverse hlength, List.reverse_reverse]
  | right => rfl

theorem exists_offset {k : Nat} (hk : k < es.prod) :
    ∃ i ∈ indices es, offset i (layout.strides es) = k := by
  rw [← layout.prod_axes] at hk
  refine ⟨layout.axes (unrank (layout.axes es) k), ?_, ?_⟩
  · rw [← layout.axes_mem_indices, axes_axes, RowMajor.indices_eq_map_unrank]
    exact List.mem_map_of_mem (List.mem_range.mpr hk)
  · rw [offset_strides _ (by simp), axes_axes, RowMajor.offset_unrank hk]

theorem offset_lt (hi : i ∈ indices es) :
    0 ≤ offset i (layout.strides es) ∧ offset i (layout.strides es) < es.prod := by
  obtain ⟨k, hk, _, hoffset⟩ := RowMajor.exists_unrank (layout.axes_mem_indices.mpr hi)
  rw [layout.prod_axes] at hk
  rw [offset_strides _ (List.Forall₂.length_eq (RowMajor.mem_indices.mp hi)), hoffset]
  omega

theorem offset_injective {j : List Nat} (h : List.Forall₂ (· ≤ ·) es ns) (hi : i ∈ indices es)
    (hj : j ∈ indices es) (heq : offset i (layout.strides ns) = offset j (layout.strides ns)) :
    i = j := by
  have hin : ∀ {l}, l ∈ indices es → l ∈ indices ns := fun hl => RowMajor.mem_indices_of_le h hl
  have hlength : ∀ {l}, l ∈ indices es → l.length = ns.length := fun hl =>
    List.Forall₂.length_eq (RowMajor.mem_indices.mp (hin hl))
  rw [offset_strides _ (hlength hi), offset_strides _ (hlength hj)] at heq
  have haxes := RowMajor.offset_injective (layout.axes_mem_indices.mpr (hin hi))
    (layout.axes_mem_indices.mpr (hin hj)) heq
  rw [← layout.axes_axes i, haxes, layout.axes_axes]

theorem farthest_strides (hlength : es.length = ns.length) :
    farthest es (layout.strides ns) =
      farthest (layout.axes es) (RowMajor.strides (layout.axes ns)) := by
  have hmap : layout.axes (es.map (· - 1)) = (layout.axes es).map (· - 1) := by
    cases layout with
    | left => exact List.map_reverse.symm
    | right => rfl
  rw [farthest, farthest, offset_strides _ (by simpa using hlength), hmap]

end MemoryLayout

/-! ## Section 4: What the kernels copy -/

theorem buffer_index_unrank {es : List Nat} (hpos : 1 ≤ es.length) (hrank : es.length ≤ 3) {k : Nat}
    (hk : k < es.prod) : buffer_index es (unrank es k) = k := by
  match es, hpos, hrank with
  | [n0], _, _ =>
    simp only [List.prod_cons, List.prod_nil, Nat.mul_one] at hk
    simp [unrank, buffer_index, Nat.mod_eq_of_lt hk]
  | [n0, n1], _, _ =>
    simp only [List.prod_cons, List.prod_nil, Nat.mul_one] at hk
    have hdiv : k / n1 < n0 := Nat.div_lt_of_lt_mul (Nat.mul_comm n0 n1 ▸ hk)
    simp only [unrank, buffer_index, List.prod_cons, List.prod_nil, Nat.mul_one, Nat.div_one,
      Nat.mod_eq_of_lt hdiv]
    exact Nat.div_add_mod' k n1
  | [n0, n1, n2], _, _ =>
    simp only [List.prod_cons, List.prod_nil, Nat.mul_one] at hk
    have hdiv : k / (n1 * n2) < n0 := Nat.div_lt_of_lt_mul (Nat.mul_comm n0 _ ▸ hk)
    simp only [unrank, buffer_index, List.prod_cons, List.prod_nil, Nat.mul_one, Nat.div_one,
      Nat.mod_eq_of_lt hdiv]
    rw [Nat.mul_comm n1 n2, ← Nat.div_div_eq_div_mul, Nat.div_add_mod', Nat.div_add_mod']

theorem element_rank4_eq {es : List Nat} (hrank : es.length = 4) {k : Nat} (hk : k < es.prod) :
    element_rank4 es k = unrank es k := by
  match es, hrank with
  | [n0, n1, n2, n3], _ =>
    simp only [List.prod_cons, List.prod_nil, Nat.mul_one] at hk
    have hdiv : k / (n1 * (n2 * n3)) < n0 := Nat.div_lt_of_lt_mul (Nat.mul_comm n0 _ ▸ hk)
    simp only [unrank, element_rank4, List.prod_cons, List.prod_nil, Nat.mul_one, Nat.div_one,
      Nat.mod_eq_of_lt hdiv, Nat.div_div_eq_div_mul, List.cons.injEq, and_true]
    constructor
    · congr 1
      ring
    · congr 2
      ring

namespace Subview

/-- The subview is a block of an array with these extents. -/
structure Block (v : Subview) (layout : MemoryLayout) (ns : List Nat) : Prop where
  strides_eq : v.strides = layout.strides ns
  extents_le : List.Forall₂ (· ≤ ·) v.extents ns
  rank : 1 ≤ v.extents.length ∧ v.extents.length ≤ 4

/-- The order of a buffer: that of the memory if the elements lie one after the
    other, and else row by row. -/
def buffer_layout (v : Subview) (layout : MemoryLayout) : MemoryLayout :=
  if v.is_contiguous then layout else .right

/-- Where an element is in the buffer. -/
def position (v : Subview) (layout : MemoryLayout) (i : List Nat) : Nat :=
  (offset i ((v.buffer_layout layout).strides v.extents)).toNat

variable {v : Subview} {layout : MemoryLayout} {ns i : List Nat}

theorem pos_of_mem {es : List Nat} (hi : i ∈ indices es) : ∀ e ∈ es, 0 < e := by
  rw [RowMajor.mem_indices] at hi
  induction hi with
  | nil => simp
  | cons hk _ ih =>
    rw [List.forall_mem_cons]
    exact ⟨Nat.zero_lt_of_lt hk, ih⟩

theorem coe_position (hi : i ∈ indices v.extents) :
    (v.position layout i : Int) = offset i ((v.buffer_layout layout).strides v.extents) :=
  Int.toNat_of_nonneg ((v.buffer_layout layout).offset_lt hi).1

theorem position_lt (hi : i ∈ indices v.extents) : v.position layout i < v.size := by
  have hlt := ((v.buffer_layout layout).offset_lt hi).2
  rw [← coe_position hi] at hlt
  exact_mod_cast hlt

theorem position_injective {j : List Nat} (hi : i ∈ indices v.extents) (hj : j ∈ indices v.extents)
    (h : v.position layout i = v.position layout j) : i = j := by
  have hoffset : (v.position layout i : Int) = v.position layout j := congrArg _ h
  rw [coe_position hi, coe_position hj] at hoffset
  have hrefl : List.Forall₂ (· ≤ ·) v.extents v.extents :=
    List.forall₂_same.mpr fun e _ => Nat.le_refl e
  exact (v.buffer_layout layout).offset_injective hrefl hi hj hoffset

variable (layout) in
theorem exists_position {k : Nat} (hk : k < v.size) :
    ∃ i ∈ indices v.extents, v.position layout i = k := by
  obtain ⟨i, hi, hoffset⟩ := (v.buffer_layout layout).exists_offset hk
  refine ⟨i, hi, ?_⟩
  rw [position, hoffset, Int.toNat_natCast]

namespace Block

variable (h : v.Block layout ns)
include h

theorem is_contiguous_iff (hpos : ∀ e ∈ v.extents, 0 < e) :
    v.is_contiguous = true ↔
      Contiguous (layout.axes v.extents) (RowMajor.strides (layout.axes ns)) := by
  have hsize : v.size ≠ 0 := (List.prod_pos hpos).ne'
  have haxes : ∀ e ∈ layout.axes v.extents, 0 < e := fun e he => hpos e (layout.mem_axes.mp he)
  rw [is_contiguous, decide_eq_true_eq, span, if_neg hsize, h.strides_eq,
    layout.farthest_strides h.extents_le.length_eq, size, ← layout.prod_axes]
  exact (RowMajor.prod_le_farthest (layout.axes_le h.extents_le) haxes).2

theorem offset_of_contiguous (hcontiguous : v.is_contiguous = true) (hi : i ∈ indices v.extents) :
    offset i v.strides = offset i (layout.strides v.extents) := by
  have hpos := pos_of_mem hi
  have haxes : ∀ e ∈ layout.axes v.extents, 0 < e := fun e he => hpos e (layout.mem_axes.mp he)
  have hlength := (RowMajor.mem_indices.mp hi).length_eq
  have hall := (RowMajor.contiguous_iff (by simpa using h.extents_le.length_eq.symm) haxes).mp
    ((h.is_contiguous_iff hpos).mp hcontiguous)
  rw [h.strides_eq, layout.offset_strides (hlength.trans h.extents_le.length_eq),
    layout.offset_strides hlength]
  exact hall _ (layout.axes_mem_indices.mpr hi)

theorem address_injective {j : List Nat} (hi : i ∈ indices v.extents) (hj : j ∈ indices v.extents)
    (heq : v.address i = v.address j) : i = j := by
  have hoffset : offset i v.strides = offset j v.strides := by
    rw [address, address] at heq
    omega
  rw [h.strides_eq] at hoffset
  exact layout.offset_injective h.extents_le hi hj hoffset

theorem address_of_contiguous (hcontiguous : v.is_contiguous = true)
    (hi : i ∈ indices v.extents) : v.address i = v.data + v.position layout i := by
  rw [address, h.offset_of_contiguous hcontiguous hi, coe_position hi, buffer_layout,
    if_pos hcontiguous]

omit h in
variable (layout) in
theorem exists_unrank_position (hstrided : v.is_contiguous ≠ true) (hi : i ∈ indices v.extents) :
    ∃ k : Fin v.size, unrank v.extents k = i ∧ v.position layout i = k := by
  obtain ⟨k, hk, hunrank, hoffset⟩ := RowMajor.exists_unrank hi
  refine ⟨⟨k, hk⟩, hunrank.symm, ?_⟩
  have hposition : (v.position layout i : Int) = k := by
    rw [coe_position hi, buffer_layout, if_neg hstrided]
    exact hoffset
  exact_mod_cast hposition

omit h in
theorem unrank_mem (k : Fin v.size) : unrank v.extents k ∈ indices v.extents := by
  rw [RowMajor.indices_eq_map_unrank]
  exact List.mem_map_of_mem (List.mem_range.mpr k.isLt)

theorem unrank_address_injective :
    Function.Injective fun k : Fin v.size => v.address (unrank v.extents k) := by
  intro k k' heq
  have hunrank := h.address_injective (unrank_mem k) (unrank_mem k') heq
  have hk := RowMajor.offset_unrank k.isLt
  rw [hunrank, RowMajor.offset_unrank k'.isLt] at hk
  exact Fin.ext (by exact_mod_cast hk.symm)

/-- **`pack` puts every element at its position.** -/
theorem pack_apply (s : Schedule v.size) (memory : Int → α) (buffer : Nat → α)
    (hi : i ∈ indices v.extents) :
    v.pack s memory buffer (v.position layout i) = memory (v.address i) := by
  rw [pack]
  by_cases hcontiguous : v.is_contiguous = true
  · rw [if_pos hcontiguous, h.address_of_contiguous hcontiguous hi]
    exact assign_of_hit Fin.val_injective (s.mem ⟨_, position_lt hi⟩) rfl
  · rw [if_neg hcontiguous]
    obtain ⟨k, hunrank, hposition⟩ := exists_unrank_position layout hcontiguous hi
    rw [hposition, ← hunrank]
    by_cases hrank : v.extents.length = 4
    · rw [if_pos hrank, ← element_rank4_eq hrank k.isLt]
      exact assign_of_hit Fin.val_injective (s.mem k) rfl
    · rw [if_neg hrank]
      have hindex : ∀ k : Fin v.size, buffer_index v.extents (unrank v.extents k) = k := fun k =>
        buffer_index_unrank h.rank.1 (by have := h.rank.2; omega) k.isLt
      have hinj : Function.Injective fun k : Fin v.size =>
          buffer_index v.extents (unrank v.extents k) := by
        intro k k' heq
        have : (k : Nat) = k' := (hindex k).symm.trans (heq.trans (hindex k'))
        exact Fin.ext this
      have hcopy : v.pack_strided s memory buffer (buffer_index v.extents (unrank v.extents k)) =
          memory (v.address (unrank v.extents k)) := assign_of_hit hinj (s.mem k) rfl
      rwa [hindex] at hcopy

/-- **`unpack` takes every element from its position.** -/
theorem unpack_apply (s : Schedule v.size) (buffer : Nat → α) (memory : Int → α)
    (hi : i ∈ indices v.extents) :
    v.unpack s buffer memory (v.address i) = buffer (v.position layout i) := by
  rw [unpack]
  by_cases hcontiguous : v.is_contiguous = true
  · rw [if_pos hcontiguous, h.address_of_contiguous hcontiguous hi]
    have hinj : Function.Injective fun k : Fin v.size => v.data + k.val := by
      intro k k' heq
      have heq : v.data + (k.val : Int) = v.data + k'.val := heq
      exact Fin.ext (by omega)
    have hcopy : v.unpack_contiguous s buffer memory
        (v.data + (⟨_, position_lt hi⟩ : Fin v.size).val) = buffer (v.position layout i) :=
      assign_of_hit hinj (s.mem _) rfl
    exact hcopy
  · rw [if_neg hcontiguous]
    obtain ⟨k, hunrank, hposition⟩ := exists_unrank_position layout hcontiguous hi
    rw [hposition, ← hunrank]
    by_cases hrank : v.extents.length = 4
    · rw [if_pos hrank, unpack_strided_rank4]
      have helement : (fun k : Fin v.size => v.address (element_rank4 v.extents k)) =
          fun k : Fin v.size => v.address (unrank v.extents k) := by
        funext k
        rw [element_rank4_eq hrank k.isLt]
      rw [helement]
      exact assign_of_hit h.unrank_address_injective (s.mem k) rfl
    · rw [if_neg hrank]
      have hcopy : v.unpack_strided s buffer memory (v.address (unrank v.extents k)) =
          buffer (buffer_index v.extents (unrank v.extents k)) :=
        assign_of_hit h.unrank_address_injective (s.mem k) rfl
      rwa [buffer_index_unrank h.rank.1 (by have := h.rank.2; omega) k.isLt] at hcopy

theorem unpack_of_miss (s : Schedule v.size) (buffer : Nat → α) (memory : Int → α) {a : Int}
    (ha : ∀ i ∈ indices v.extents, v.address i ≠ a) : v.unpack s buffer memory a = memory a := by
  rw [unpack]
  by_cases hcontiguous : v.is_contiguous = true
  · rw [if_pos hcontiguous]
    apply assign_of_miss
    intro k _ _ heq
    obtain ⟨i, hi, hposition⟩ := exists_position layout k.isLt
    exact ha i hi (by rw [h.address_of_contiguous hcontiguous hi, hposition, heq])
  · rw [if_neg hcontiguous]
    by_cases hrank : v.extents.length = 4
    · rw [if_pos hrank]
      apply assign_of_miss
      intro k _ _ heq
      rw [element_rank4_eq hrank k.isLt] at heq
      exact ha _ (unrank_mem k) heq
    · rw [if_neg hrank]
      apply assign_of_miss
      intro k _ _ heq
      exact ha _ (unrank_mem k) heq

end Block

end Subview

/-! ## Section 5: The two sides of a face -/

namespace Subview

section Sides

variable {src dst : Subview} {layout : MemoryLayout} {front front' back back' : List Nat}
  {e n n' : Nat}

/-- **Both sides decide alike.** The arrays differ along one axis, along which the
    blocks leave something out: only single elements can follow it in the memory
    of a contiguous block. -/
theorem is_contiguous_eq (hsrc : src.Block .left (front' ++ n :: back'))
    (hdst : dst.Block .left (front' ++ n' :: back')) (hextents : src.extents = front ++ e :: back)
    (hextents' : dst.extents = front ++ e :: back) (hlength : front.length = front'.length)
    (hlt : e < n) (hlt' : e < n') (hpos : ∀ k ∈ front ++ e :: back, 0 < k) :
    src.is_contiguous = dst.is_contiguous := by
  have hle := hsrc.extents_le
  rw [hextents] at hle
  have hfront : List.Forall₂ (· ≤ ·) front.reverse front'.reverse := by
    have := List.forall₂_take front.length hle
    rw [List.take_left, hlength, List.take_left] at this
    exact List.forall₂_reverse_iff.mpr this
  have hback : List.Forall₂ (· ≤ ·) back.reverse back'.reverse := by
    have := List.forall₂_drop front.length hle
    rw [List.drop_left, hlength, List.drop_left] at this
    exact List.forall₂_reverse_iff.mpr (List.forall₂_cons.mp this).2
  have hreverse : ∀ (l l' : List Nat) (k : Nat),
      MemoryLayout.left.axes (l ++ k :: l') = l'.reverse ++ k :: l.reverse := by
    intro l l' k
    show (l ++ k :: l').reverse = _
    simp
  have haxes : ∀ k ∈ back.reverse ++ e :: front.reverse, 0 < k := by
    intro k hk
    rw [← hreverse, MemoryLayout.mem_axes] at hk
    exact hpos k hk
  rw [Bool.eq_iff_iff, hsrc.is_contiguous_iff (hextents ▸ hpos),
    hdst.is_contiguous_iff (hextents' ▸ hpos), hextents, hextents', hreverse, hreverse, hreverse,
    RowMajor.contiguous_append hback hfront hlt haxes,
    RowMajor.contiguous_append hback hfront hlt' haxes]

theorem position_eq (hsrc : src.Block layout (front' ++ n :: back'))
    (hdst : dst.Block layout (front' ++ n' :: back')) (hextents : src.extents = front ++ e :: back)
    (hextents' : dst.extents = front ++ e :: back) (hlength : front.length = front'.length)
    (hlt : e < n) (hlt' : e < n') {i : List Nat} (hi : i ∈ indices src.extents) :
    src.position layout i = dst.position layout i := by
  have hlayout : src.buffer_layout layout = dst.buffer_layout layout := by
    cases layout with
    | left =>
      have hpos : ∀ k ∈ front ++ e :: back, 0 < k := hextents ▸ pos_of_mem hi
      rw [buffer_layout, buffer_layout,
        is_contiguous_eq hsrc hdst hextents hextents' hlength hlt hlt' hpos]
    | right => rw [buffer_layout, buffer_layout, ite_self, ite_self]
  rw [position, position, hlayout, hextents, hextents']

end Sides

end Subview

section Faces

variable {layout : MemoryLayout} {extents : Fin R → Nat} {r : FaceRegion R}

/-- The address of a cell of an array. -/
def cell_address (layout : MemoryLayout) (extents x : Fin R → Nat) : Int :=
  offset (List.ofFn x) (layout.strides (List.ofFn extents))

/-- The place of a cell within a region. -/
def FaceRegion.place (r : FaceRegion R) (x : Fin R → Nat) : List Nat :=
  List.ofFn fun d => x d - r.first d

theorem FaceRegion.place_mem {x : Fin R → Nat} (hx : r.Holds x) :
    r.place x ∈ indices (make_subview layout extents r).extents := by
  rw [RowMajor.mem_indices, FaceRegion.place, make_subview, List.forall₂_iff_get]
  constructor
  · simp
  · intro d hd hd'
    simpa using (hx ⟨d, by simpa using hd⟩).2

theorem make_subview_address {x : Fin R → Nat} (hx : ∀ d, r.first d ≤ x d) :
    (make_subview layout extents r).address (r.place x) = cell_address layout extents x := by
  have hadd : List.ofFn x = List.zipWith (· + ·) (List.ofFn r.first) (r.place x) := by
    apply List.ext_getElem
    · simp [FaceRegion.place]
    · intro d hd _
      have := hx ⟨d, by simpa using hd⟩
      simp only [FaceRegion.place, List.getElem_ofFn, List.getElem_zipWith]
      omega
  rw [cell_address, hadd, RowMajor.offset_zipWith_add _ (by simp [FaceRegion.place])]
  rfl

theorem make_subview_block (hshape : ∀ d, r.shape d ≤ extents d) (hrank : 1 ≤ R ∧ R ≤ 4) :
    (make_subview layout extents r).Block layout (List.ofFn extents) := by
  constructor
  · rfl
  · rw [make_subview, List.forall₂_iff_get]
    constructor
    · simp
    · intro d hd _
      simpa using hshape ⟨d, by simpa using hd⟩
  · simpa [make_subview] using hrank

theorem ofFn_split {α : Type} (g : Fin R → α) (d : Fin R) :
    List.ofFn g = (List.ofFn g).take d ++ g d :: (List.ofFn g).drop (d + 1) := by
  have hd : (d : Nat) < (List.ofFn g).length := by simp
  conv_lhs => rw [← List.take_append_drop d (List.ofFn g), List.drop_eq_getElem_cons hd]
  simp

theorem ofFn_split_of_eq {g g' : Fin R → Nat} {d : Fin R} (h : ∀ k, k ≠ d → g' k = g k) :
    List.ofFn g' = (List.ofFn g).take d ++ g' d :: (List.ofFn g).drop (d + 1) := by
  rw [ofFn_split g' d]
  congr 1
  · apply List.ext_getElem
    · simp
    · intro k hk _
      simp only [List.length_take, List.length_ofFn] at hk
      simp only [List.getElem_take, List.getElem_ofFn]
      exact h _ (by intro heq; have := congrArg Fin.val heq; dsimp only at this; omega)
  · congr 1
    apply List.ext_getElem
    · simp
    · intro k hk _
      simp only [List.getElem_drop, List.getElem_ofFn]
      exact h _ (by intro heq; have := congrArg Fin.val heq; dsimp only at this; omega)

/-- **The sender and the receiver of a face keep to one order.** The views agree
    in all dimensions but that of the face. Each cell of the face has one position
    in the buffer, where `pack` puts it and from where `unpack` takes it, and so
    the cell comes to its matching ghost cell. -/
theorem faces_in_one_order (layout : MemoryLayout) {sender receiver : StructuredPlan R} (f : Face R)
    (hrank : 1 ≤ R ∧ R ≤ 4) (hsender : sender.Fits) (hreceiver : receiver.Fits)
    (hwidth : receiver.halo_widths f.dim = sender.halo_widths f.dim)
    (hextents : ∀ d, d ≠ f.dim → receiver.extents d = sender.extents d) :
    let src := make_subview layout sender.extents (sender.send_region f)
    let dst := make_subview layout receiver.extents (receiver.recv_region f.opposite)
    dst.extents = src.extents ∧
      (∃ position : List Nat → Nat,
        Set.BijOn position {i | i ∈ indices src.extents} {k | k < src.size} ∧
        (∀ (s : Schedule src.size) (memory : Int → α) (buffer : Nat → α),
          ∀ i ∈ indices src.extents,
            src.pack s memory buffer (position i) = memory (src.address i)) ∧
        ∀ (s : Schedule dst.size) (buffer : Nat → α) (memory : Int → α),
          ∀ i ∈ indices dst.extents,
            dst.unpack s buffer memory (dst.address i) = buffer (position i)) ∧
      ∀ (s : Schedule src.size) (s' : Schedule dst.size) (memory memory' : Int → α)
        (buffer : Nat → α) (x : Fin R → Nat), (receiver.recv_region f.opposite).Holds x →
          dst.unpack s' (src.pack s memory buffer) memory'
              (cell_address layout receiver.extents x) =
            memory (cell_address layout sender.extents fun d => (sender.send_region f).first d +
              (x d - (receiver.recv_region f.opposite).first d)) := by
  intro src dst
  have hshape : (receiver.recv_region f.opposite).shape = (sender.send_region f).shape := by
    rw [(hreceiver.shape f.opposite).2, (hsender.shape f).1]
    funext d
    show (if d = f.dim then _ else _) = _
    by_cases hd : d = f.dim
    · subst hd
      rw [if_pos rfl, if_pos rfl, hwidth]
    · rw [if_neg hd, if_neg hd, hextents d hd]
  have hsame : dst.extents = src.extents := congrArg List.ofFn hshape
  have hsrc : src.Block layout (List.ofFn sender.extents) := by
    apply make_subview_block _ hrank
    intro d
    have := (hsender d).1
    rw [(hsender.shape f).1]
    dsimp only
    split <;> omega
  have hdst : dst.Block layout (List.ofFn receiver.extents) := by
    apply make_subview_block _ hrank
    intro d
    have := (hreceiver d).1
    rw [(hreceiver.shape f.opposite).2]
    dsimp only
    split <;> omega
  -- a face with cells leaves out the other half of its array
  have hposition : ∀ i ∈ indices src.extents, src.position layout i = dst.position layout i := by
    intro i hi
    have hface : (sender.send_region f).shape f.dim = sender.halo_widths f.dim := by
      rw [(hsender.shape f).1]
      exact if_pos rfl
    have hpos : 0 < sender.halo_widths f.dim := by
      rw [← hface]
      exact Subview.pos_of_mem hi _ (List.mem_ofFn.mpr ⟨f.dim, rfl⟩)
    have hsplit : src.extents = _ := ofFn_split (sender.send_region f).shape f.dim
    have hle := (hsender f.dim).1
    have hle' := (hreceiver f.dim).1
    rw [ofFn_split sender.extents f.dim] at hsrc
    rw [ofFn_split_of_eq hextents] at hdst
    exact Subview.position_eq hsrc hdst hsplit (hsame.trans hsplit) (by simp) (by omega) (by omega)
      hi
  refine ⟨hsame, ⟨src.position layout, ?_, ?_, ?_⟩, ?_⟩
  · constructor
    · intro i hi
      exact Subview.position_lt hi
    · constructor
      · intro i hi j hj heq
        exact Subview.position_injective hi hj heq
      · intro k hk
        exact Subview.exists_position layout hk
  · intro s memory buffer i hi
    exact hsrc.pack_apply s memory buffer hi
  · intro s buffer memory i hi
    rw [hposition i (hsame ▸ hi)]
    exact hdst.unpack_apply s buffer memory hi
  · intro s s' memory memory' buffer x hx
    have hi : (receiver.recv_region f.opposite).place x ∈ indices dst.extents :=
      FaceRegion.place_mem hx
    have hsend : ∀ d, (sender.send_region f).first d ≤ (sender.send_region f).first d +
        (x d - (receiver.recv_region f.opposite).first d) := fun d => Nat.le_add_right _ _
    have hplace : (sender.send_region f).place (fun d => (sender.send_region f).first d +
        (x d - (receiver.recv_region f.opposite).first d)) =
          (receiver.recv_region f.opposite).place x := by
      simp [FaceRegion.place]
    rw [← make_subview_address (fun d => (hx d).1), ← make_subview_address hsend, hplace]
    have hi' := hsame ▸ hi
    calc dst.unpack s' (src.pack s memory buffer) memory' (dst.address _)
        = src.pack s memory buffer (dst.position layout _) := hdst.unpack_apply s' _ memory' hi
      _ = src.pack s memory buffer (src.position layout _) := by rw [hposition _ hi']
      _ = memory (src.address _) := hsrc.pack_apply s memory buffer hi'

theorem faces_in_one_order_columns :
    let sender : StructuredPlan 2 := ⟨![4, 3], fun _ => 0, fun _ => 1⟩
    let receiver : StructuredPlan 2 := ⟨![6, 3], fun _ => 0, fun _ => 1⟩
    let src := make_subview .left sender.extents (sender.send_region ⟨0, false⟩)
    let dst := make_subview .left receiver.extents (receiver.recv_region ⟨0, true⟩)
    ∀ (s : Schedule src.size) (s' : Schedule dst.size) (memory memory' : Int → Nat)
      (buffer : Nat → Nat), dst.unpack s' (src.pack s memory buffer) memory' 11 = memory 5 := by
  intro sender receiver src dst s s' memory memory' buffer
  have hmatch := (faces_in_one_order .left (⟨0, false⟩ : Face 2) (by decide)
    (show sender.Fits by intro d; fin_cases d <;> decide)
    (show receiver.Fits by intro d; fin_cases d <;> decide) rfl
    (by intro d hd; fin_cases d <;> first | rfl | exact absurd rfl hd)).2.2 s s' memory memory'
      buffer ![5, 1] (by decide)
  have hghost : cell_address .left receiver.extents ![5, 1] = 11 := by decide
  have hcell : cell_address .left sender.extents (fun d => (sender.send_region ⟨0, false⟩).first d +
      (![5, 1] d - (receiver.recv_region ⟨0, true⟩).first d)) = 5 := by decide +kernel
  rw [← hghost, ← hcell]
  exact hmatch

end Faces

end Halo

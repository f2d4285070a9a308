import Helm.Amio.ReadSelection

/-! # Reading through the Zarr driver

  `describe_variable` and `read` of `drivers/zarr/zarr_driver.cpp`, in a build
  with TensorStore.

  The description of an array with two axes or more takes the leading axis to
  be time and reports the others. `read` takes no notice of the timestep, and
  applies the first axis of a box to the first axis of the array. TensorStore
  then aligns what is left with the buffer, from the last axis on.

  Slicing and reading are functions of TensorStore; `Documented` is what its
  documentation says.
-/

namespace Amio

open RowMajor Signed
open Boundary (validate_bbox)

/-! ## Section 1: TensorStore -/

/-- The element types of TensorStore -/
inductive TsDtype
  | float | double | int8 | int16 | int32 | int64 | uint8 | uint16 | uint32 | uint64
  /-- `bool`, the complex types, strings and so on. -/
  | other (name : String)
  deriving DecidableEq

/-- `to_ts_dtype` -/
def to_ts_dtype : Dtype → Option TsDtype
  | .F32 => some .float
  | .F64 => some .double
  | .I8 => some .int8
  | .I16 => some .int16
  | .I32 => some .int32
  | .I64 => some .int64
  | .U8 => some .uint8
  | .U16 => some .uint16
  | .U32 => some .uint32
  | .U64 => some .uint64
  | .unknown _ => none

/-- `to_amio_dtype` -/
def to_amio_dtype : TsDtype → Option Dtype
  | .float => some .F32
  | .double => some .F64
  | .int8 => some .I8
  | .int16 => some .I16
  | .int32 => some .I32
  | .int64 => some .I64
  | .uint8 => some .U8
  | .uint16 => some .U16
  | .uint32 => some .U32
  | .uint64 => some .U64
  | .other _ => none

theorem to_ts_dtype_of_to_amio {dt : TsDtype} {dtype : Dtype} (h : to_amio_dtype dt = some dtype) :
    to_ts_dtype dtype = some dt ∧ 0 < element_size dtype := by
  cases dt <;> cases h <;> decide

/-- An open array. -/
structure ZarrArray where
  dtype : TsDtype
  /-- The extents, each of them a `tensorstore::Index`. -/
  shape : List Nat
  shape_lt : ∀ e ∈ shape, e < 2 ^ 63
  /-- The bytes of each element. -/
  data : List Nat → List (BitVec 8)

/-- The functions of TensorStore that `read` uses. A store that has been sliced
    is a region of its array. -/
structure TensorStore where
  /-- `Dims(d).TranslateSizedInterval(offset, size, stride)` -/
  translate_sized_interval : Region → (d : Nat) → (offset size stride : Int) → Except String Region
  /-- `Read` into an array of that element type and shape, in row-major order -/
  read : ZarrArray → Region → TsDtype → (shape : List Int) → Except String (List (List (BitVec 8)))

/-- **What the documentation says.** An interval inside the axis can be selected.
    A read is refused if the extents do not align, or if the selection leaves
    the array; an upper bound that is implicit may be checked only then. -/
structure TensorStore.Documented (lib : TensorStore) : Prop where
  slices : ∀ {r : Region} {d o n s : Nat}, d < r.count.length → 1 ≤ n → 1 ≤ s →
    o + (n - 1) * s < r.count.getD d 0 →
    lib.translate_sized_interval r d o n s = .ok (r.slice d o n s)
  sliced : ∀ {r r' : Region} {d o n s : Nat}, 1 ≤ n → 1 ≤ s →
    lib.translate_sized_interval r d o n s = .ok r' → r' = r.slice d o n s
  reads : ∀ {store : ZarrArray} {r : Region} {shape : List Nat},
    r.Inside store.shape ∨ r = .whole store.shape → Aligned r.count.reverse shape.reverse →
    lib.read store r store.dtype (shape.map (↑)) = .ok ((indices shape).map fun i =>
      store.data (place r.start r.stride (align r.count.reverse i.reverse).reverse))
  misaligned : ∀ {store : ZarrArray} {r : Region} {dt : TsDtype} {shape : List Nat},
    ¬ Aligned r.count.reverse shape.reverse → ∃ e, lib.read store r dt (shape.map (↑)) = .error e
  outside : ∀ {store : ZarrArray} {r : Region} {dt : TsDtype} {shape : List Nat},
    (∀ n ∈ r.count, 0 < n) → ¬ r.Inside store.shape →
    ∃ e, lib.read store r dt (shape.map (↑)) = .error e

/-- A TensorStore that refuses all that is not documented to work. -/
def TensorStore.exact : TensorStore where
  translate_sized_interval r d offset size stride :=
    if d < r.count.length ∧ 0 ≤ offset ∧ 1 ≤ size ∧ 1 ≤ stride ∧
        offset.toNat + (size.toNat - 1) * stride.toNat < r.count.getD d 0 then
      .ok (r.slice d offset.toNat size.toNat stride.toNat)
    else .error "OUT_OF_RANGE"
  read store r dt shape :=
    let fs := shape.map Int.toNat
    if dt = store.dtype ∧ (r.Inside store.shape ∨ r = .whole store.shape) ∧
        Aligned r.count.reverse fs.reverse then
      .ok ((indices fs).map fun i =>
        store.data (place r.start r.stride (align r.count.reverse i.reverse).reverse))
    else .error "INVALID_ARGUMENT"

theorem TensorStore.exact_documented : TensorStore.exact.Documented := by
  have hfs : ∀ shape : List Nat, (shape.map ((↑) : Nat → Int)).map Int.toNat = shape := by
    intro shape
    rw [List.map_map]
    exact List.map_id shape
  constructor
  · intro r d o n s hd hn hs hinside
    exact if_pos ⟨hd, by omega, by omega, by omega, hinside⟩
  · intro r r' d o n s hn hs h
    simp only [TensorStore.exact] at h
    split at h
    · cases h
      rfl
    · cases h
  · intro store r shape hr haligned
    simp only [TensorStore.exact, hfs]
    exact if_pos ⟨trivial, hr, haligned⟩
  · intro store r dt shape hno
    simp only [TensorStore.exact, hfs]
    exact ⟨_, if_neg fun h => hno h.2.2⟩
  · intro store r dt shape hpos hno
    simp only [TensorStore.exact, hfs]
    refine ⟨_, if_neg ?_⟩
    intro h
    -- the whole array is inside if it has no empty axis
    rcases h.2.1 with hin | rfl
    · exact hno hin
    · exact hno (Region.inside_whole hpos)

/-! ## Section 2: The driver -/

/-- What a read leaves behind: the elements in the buffer, and `used_bytes`. -/
structure Payload where
  elements : List (List (BitVec 8))
  used_bytes : Nat

/-- A `Zarr_Driver` with an array. -/
structure Zarr_Reader where
  is_open : Bool
  is_write_mode : Bool
  ts_store : ZarrArray

namespace Zarr_Reader

/-- `describe_variable`; `none` is `found = false`. The store is a single array,
    whatever the name. -/
def describe_variable (drv : Zarr_Reader) (_name : List (BitVec 8)) :
    Option Boundary.VariableInfo := do
  guard (drv.is_open ∧ drv.is_write_mode = false)
  let dtype ← to_amio_dtype drv.ts_store.dtype
  let rank := drv.ts_store.shape.length
  guard (1 ≤ rank)
  let shape_start := if rank ≥ 2 then 1 else 0
  let total_timesteps : Int := if rank ≥ 2 then drv.ts_store.shape.getD 0 0 else 1
  let reported_rank := rank - shape_start
  guard (1 ≤ reported_rank ∧ reported_rank ≤ kMaxRank)
  return {
    dtype
    shape := {
      rank := reported_rank
      extents := fun d =>
        if d.val < reported_rank then drv.ts_store.shape.getD (d.val + shape_start) 0 else 0
      strides := fun _ => 0 }
    total_timesteps := if total_timesteps > 0 then total_timesteps else 1 }

/-- `dtype_size` -/
def dtype_size (dtype : Dtype) : Nat :=
  let size := element_size dtype
  if size = 0 then 4 else size

/-- `categorize_error` -/
def categorize_error (message : String) : String :=
  let lower_msg := message.toList.map Char.toLower
  let find (s : String) : Bool := s.toList <:+: lower_msg
  if find "auth" || find "credential" || find "permission" || find "forbidden" || find "401" ||
      find "403" then "authentication/authorization error"
  else if find "network" || find "connect" || find "timeout" || find "dns" ||
      find "unreachable" then "network error"
  else if find "scheme" || find "unsupported" then "unsupported URI scheme"
  else "I/O error"

/-- `shape_vec` -/
def shape_vec (shape : AmioShape) : Option BoundingBox → List Int
  | some box => box.dims.map box.extents
  | none => shape.dims.map shape.extents

/-- `total_elements` -/
def total_elements (shape_vec : List Int) : Nat :=
  shape_vec.foldl (fun total ext => Word.mul 64 total (size_cast ext)) 1

/-- One turn of the loop over the axes of the box. -/
def restrict (lib : TensorStore) (box : BoundingBox) (source : Region) (d : Fin kMaxRank) :
    Outcome String Region :=
  match lib.translate_sized_interval source d.val (box.offsets d) (box.extents d) (box.strides d) with
  | .ok sliced => .returned sliced
  | .error err_msg => .thrown ("Zarr_Driver: failed to restrict read domain for dimension " ++
      toString d.val ++ ": " ++ err_msg)

/-- The read domain: the whole array, or what the box selects. -/
def source (lib : TensorStore) (store : ZarrArray) : Option BoundingBox → Outcome String Region
  | some box => box.dims.foldlM (restrict lib box) (.whole store.shape)
  | none => .returned (.whole store.shape)

/-- `Zarr_Driver::read`, into a buffer of `capacity_bytes` -/
def read (drv : Zarr_Reader) (lib : TensorStore) (info : VarMeta) (_timestep : Int)
    (bbox : Option BoundingBox) (capacity_bytes : Nat) : Outcome String Payload :=
  if drv.is_open = false ∨ drv.is_write_mode then
    .thrown "Zarr_Driver: read called on driver not open for reading"
  else
    let elem_size := dtype_size info.dtype
    let shape_vec := shape_vec info.shape bbox
    let total_bytes := Word.mul 64 (total_elements shape_vec) elem_size
    if total_bytes > capacity_bytes then
      .thrown ("Zarr_Driver: staging buffer capacity (" ++ toString capacity_bytes ++
        " bytes) insufficient for read payload (" ++ toString total_bytes ++ " bytes)")
    else
      match to_ts_dtype info.dtype with
      | none => .thrown "Zarr_Driver: unsupported dtype"
      | some dt => do
        let source ← source lib drv.ts_store bbox
        match lib.read drv.ts_store source dt shape_vec with
        | .error err_msg => .thrown ("Zarr_Driver: read failed (" ++ categorize_error err_msg ++
            "): " ++ err_msg)
        | .ok elements => .returned ⟨elements, total_bytes⟩

/-! ## Section 3: What is described -/

/-- **What `describe_variable` reports** of an array with a leading axis. -/
structure Described (drv : Zarr_Reader) (info : Boundary.VariableInfo) (es : List Nat) : Prop where
  is_open : drv.is_open = true ∧ drv.is_write_mode = false
  dtype : to_amio_dtype drv.ts_store.dtype = some info.dtype
  rank : info.shape.rank = es.length
  rank_le : es.length ≤ kMaxRank
  lengths : info.shape.lengths = es
  nonneg : ∀ d, 0 ≤ info.shape.extents d
  fits : ∀ d, Fits 64 (info.shape.extents d)

theorem described {drv : Zarr_Reader} {name : List (BitVec 8)} {info : Boundary.VariableInfo}
    {T : Nat} {es : List Nat} (h : drv.describe_variable name = some info)
    (hshape : drv.ts_store.shape = T :: es) (hne : es ≠ []) : Described drv info es := by
  rw [describe_variable] at h
  obtain ⟨_, hguard, h⟩ := Option.bind_eq_some_iff.mp h
  obtain ⟨dtype, hdtype, h⟩ := Option.bind_eq_some_iff.mp h
  obtain ⟨_, -, h⟩ := Option.bind_eq_some_iff.mp h
  obtain ⟨_, hrank, h⟩ := Option.bind_eq_some_iff.mp h
  have hpos := List.length_pos_of_ne_nil hne
  have hopen : drv.is_open = true ∧ drv.is_write_mode = false := by
    by_contra hno
    simp [guard, hno] at hguard
  have htwo : es.length + 1 ≥ 2 := by omega
  simp only [hshape, List.length_cons, htwo, if_true, Nat.add_sub_cancel] at hrank h
  have hle : es.length ≤ kMaxRank := by
    by_contra hno
    simp [guard, hno] at hrank
  cases h
  have hlt : ∀ d : Nat, ((T :: es).getD (d + 1) 0) < 2 ^ 63 := by
    intro d
    rw [List.getD_eq_getElem?_getD]
    cases hd : (T :: es)[d + 1]? with
    | none => simp
    | some e => exact drv.ts_store.shape_lt e (hshape ▸ List.mem_of_getElem? hd)
  refine ⟨hopen, hdtype, rfl, hle, ?_, ?_, ?_⟩
  · apply lengths_eq rfl hle rfl
    intro d hd
    have hcast := size_cast_of_nonneg (x := (((T :: es).getD (d.val + 1) 0 : Nat) : Int))
      (Int.natCast_nonneg _) (by have := hlt d.val; omega)
    dsimp only
    rw [if_pos hd]
    exact_mod_cast hcast
  · intro d
    dsimp only
    split <;> omega
  · intro d
    have := hlt d.val
    rw [fits_64]
    dsimp only
    split <;> omega

/-! ## Section 4: The shape of the buffer -/

theorem shape_vec_eq {drv : Zarr_Reader} {info : Boundary.VariableInfo} {es : List Nat}
    {bbox : Option AmioBbox} (hd : Described drv info es)
    (hbox : validate_bbox bbox info.shape = .returned ()) :
    shape_vec info.shape (bbox.map AmioBbox.to_bounding_box) =
      (requested bbox info.shape).count.map (↑) := by
  cases bbox with
  | none =>
    show info.shape.dims.map info.shape.extents = info.shape.lengths.map (↑)
    rw [AmioShape.lengths, List.map_map]
    apply List.map_congr_left
    intro d _
    have hlt := (fits_64.mp (hd.fits d)).2
    exact (size_cast_of_nonneg (hd.nonneg d) (by omega)).symm
  | some b =>
    obtain ⟨hrank, hvalid⟩ := validate_bbox_ok hbox
    show b.to_bounding_box.dims.map b.to_bounding_box.extents =
      b.to_bounding_box.region.count.map (↑)
    rw [BoundingBox.region, List.map_map]
    apply List.map_congr_left
    intro d hmem
    have hlt : (d.val : Int) < b.rank := of_decide_eq_true (List.mem_filter.mp hmem).2
    rw [dims_to_bounding_box hrank] at hmem
    have hextent : b.to_bounding_box.extents d = b.extents d := if_pos hlt
    have hvalid := hvalid d hmem
    have hone := hvalid.extent
    have hfits := (fits_64.mp hvalid.extent_fits).2
    rw [Function.comp_apply, hextent]
    exact (size_cast_of_nonneg (by omega) (by omega)).symm

theorem total_elements_eq {ns : List Nat} (hlt : ∀ n ∈ ns, n < 2 ^ 64) :
    total_elements (ns.map (↑)) = ns.prod % 2 ^ 64 := by
  have hcast : (ns.map ((↑) : Nat → Int)).map size_cast = ns := by
    rw [List.map_map]
    conv_rhs => rw [← List.map_id ns]
    apply List.map_congr_left
    intro n hn
    have := size_cast_of_nonneg (x := (n : Int)) (Int.natCast_nonneg n) (by have := hlt n hn; omega)
    exact_mod_cast this
  rw [total_elements, Word.foldl_mul (by decide), hcast]

/-! ## Section 5: The read domain -/

/-- The numbers of a box along an axis, in range for `std::size_t`. -/
structure InRange (box : BoundingBox) (d : Fin kMaxRank) : Prop where
  offset : (size_cast (box.offsets d) : Int) = box.offsets d
  extent : (size_cast (box.extents d) : Int) = box.extents d
  stride : (size_cast (box.strides d) : Int) = box.strides d
  extent_pos : 1 ≤ size_cast (box.extents d)
  stride_pos : 1 ≤ size_cast (box.strides d)

/-- What the box selects along an axis of extent `e` is there. -/
def Contains (box : BoundingBox) (d : Fin kMaxRank) (e : Nat) : Prop :=
  size_cast (box.offsets d) + (size_cast (box.extents d) - 1) * size_cast (box.strides d) < e

section Loop

variable {lib : TensorStore} {box : BoundingBox}

/-- **One turn of the loop**: the axis `d`, which has not been sliced before. -/
theorem restrict_spec (hlib : lib.Documented) {d : Fin kMaxRank} (hrange : InRange box d)
    {os ns ss : List Nat} (os' ns' ss' : List Nat) (e : Nat) (hos : os.length = d.val)
    (hns : ns.length = d.val) (hss : ss.length = d.val) :
    let sliced : Region := ⟨os ++ size_cast (box.offsets d) :: os',
      ns ++ size_cast (box.extents d) :: ns', ss ++ size_cast (box.strides d) :: ss'⟩
    (∀ source, restrict lib box ⟨os ++ 0 :: os', ns ++ e :: ns', ss ++ 1 :: ss'⟩ d = .returned source →
      source = sliced) ∧
    (Contains box d e →
      restrict lib box ⟨os ++ 0 :: os', ns ++ e :: ns', ss ++ 1 :: ss'⟩ d = .returned sliced) := by
  intro sliced
  have hslice := Region.slice_append os' ns' ss' e hos hns hss
    (size_cast (box.offsets d)) (size_cast (box.extents d)) (size_cast (box.strides d))
  rw [restrict, ← hrange.offset, ← hrange.extent, ← hrange.stride]
  constructor
  · intro source h
    split at h
    · next r hr =>
      cases h
      exact (hlib.sliced hrange.extent_pos hrange.stride_pos hr).trans hslice
    · cases h
  · intro hinside
    have hlt : d.val < (ns ++ e :: ns').length := by
      rw [List.length_append, List.length_cons]
      omega
    have hget : (ns ++ e :: ns').getD d.val 0 = e := by
      rw [← hns]
      simp
    rw [hlib.slices hlt hrange.extent_pos hrange.stride_pos (by rwa [hget]), hslice]

/-- **The loop over the axes**: the box is applied to the leading axes of the
    array, and the others are taken whole. -/
theorem foldlM_restrict_spec (hlib : lib.Documented) {ds : List (Fin kMaxRank)}
    (hrange : ∀ d ∈ ds, InRange box d) (es fs os ns ss : List Nat)
    (hds : ds.map (·.val) = List.range' os.length ds.length) (hes : es.length = ds.length)
    (hns : ns.length = os.length) (hss : ss.length = os.length) :
    let rest : Region := ⟨os ++ List.replicate (es.length + fs.length) 0, ns ++ (es ++ fs),
      ss ++ List.replicate (es.length + fs.length) 1⟩
    let sliced : Region :=
      ⟨os ++ ((ds.map fun d => size_cast (box.offsets d)) ++ List.replicate fs.length 0),
        ns ++ ((ds.map fun d => size_cast (box.extents d)) ++ fs),
        ss ++ ((ds.map fun d => size_cast (box.strides d)) ++ List.replicate fs.length 1)⟩
    (∀ source, ds.foldlM (restrict lib box) rest = .returned source → source = sliced) ∧
    (List.Forall₂ (Contains box) ds es → ds.foldlM (restrict lib box) rest = .returned sliced) := by
  induction ds generalizing es os ns ss with
  | nil =>
    obtain rfl : es = [] := List.eq_nil_of_length_eq_zero hes
    simp [eq_comm]
  | cons d ds ih =>
    obtain ⟨e, es, rfl⟩ := List.exists_cons_of_length_eq_add_one hes
    rw [List.map_cons, List.length_cons, List.range'_succ, List.cons.injEq] at hds
    obtain ⟨hd, hds⟩ := hds
    obtain ⟨hturn, hturn'⟩ := restrict_spec hlib (hrange d List.mem_cons_self)
      (List.replicate (es.length + fs.length) 0) (es ++ fs)
      (List.replicate (es.length + fs.length) 1) e hd.symm (hns.trans hd.symm) (hss.trans hd.symm)
    obtain ⟨hrest, hrest'⟩ := ih (fun d hd => hrange d (List.mem_cons_of_mem _ hd)) es
      (os ++ [size_cast (box.offsets d)]) (ns ++ [size_cast (box.extents d)])
      (ss ++ [size_cast (box.strides d)]) (by simpa using hds) (by simpa using hes)
      (by simp [hns]) (by simp [hss])
    have hlength : (e :: es).length + fs.length = es.length + fs.length + 1 := by
      rw [List.length_cons]
      omega
    simp only [List.append_assoc, List.singleton_append] at hrest hrest'
    simp only [List.foldlM_cons, hlength, List.replicate_succ, List.cons_append, List.map_cons]
    constructor
    · intro source h
      obtain ⟨sliced, hsliced, h⟩ := Outcome.bind_eq_returned.mp h
      obtain rfl := hturn sliced hsliced
      exact hrest source h
    · intro hinside
      obtain ⟨he, hinside⟩ := List.forall₂_cons.mp hinside
      rw [hturn' he, Outcome.returned_bind]
      exact hrest' hinside

end Loop

/-! ## Section 6: What is delivered -/

/-- **When the read reaches the record of its timestep**: there is only one, or
    a box selects a single element, the last axis has no other, and what lies
    one axis further on is the same. -/
def Reaches (store : ZarrArray) (t : Nat) : Option BoundingBox → Prop
  | none => store.shape.head? = some 1
  | some box => (∀ n ∈ box.region.count, n = 1) ∧ store.shape.getLast? = some 1 ∧
      box.region.start ++ [0] ∈ indices store.shape ∧
      store.data (box.region.start ++ [0]) = store.data (t :: box.region.start)

theorem size_cast_lt (x : Int) : size_cast x < 2 ^ 64 := by
  unfold size_cast
  omega

theorem count_lt (bbox : Option AmioBbox) (shape : AmioShape) :
    ∀ n ∈ (requested bbox shape).count, n < 2 ^ 64 := by
  intro n hn
  cases bbox with
  | none =>
    obtain ⟨d, -, rfl⟩ := List.mem_map.mp hn
    exact size_cast_lt _
  | some b =>
    obtain ⟨d, -, rfl⟩ := List.mem_map.mp hn
    exact size_cast_lt _

theorem read_eq {drv : Zarr_Reader} {lib : TensorStore} {m : VarMeta} {info : Boundary.VariableInfo}
    {bbox : Option AmioBbox} {t : Int} {es : List Nat} {capacity_bytes : Nat}
    (hd : Described drv info es) (hdtype : m.dtype = info.dtype) (hshape : m.shape = info.shape)
    (hbox : validate_bbox bbox info.shape = .returned ())
    (hroom : (requested bbox info.shape).count.prod * element_size info.dtype ≤ capacity_bytes)
    (hcapacity : capacity_bytes < 2 ^ 64) :
    drv.read lib m t (bbox.map AmioBbox.to_bounding_box) capacity_bytes =
      source lib drv.ts_store (bbox.map AmioBbox.to_bounding_box) >>= fun source =>
        match lib.read drv.ts_store source drv.ts_store.dtype
            ((requested bbox info.shape).count.map (↑)) with
        | .error err_msg => .thrown ("Zarr_Driver: read failed (" ++ categorize_error err_msg ++
            "): " ++ err_msg)
        | .ok elements => .returned ⟨elements,
            (requested bbox info.shape).count.prod * element_size info.dtype⟩ := by
  obtain ⟨hdt, hsize⟩ := to_ts_dtype_of_to_amio hd.dtype
  have hprod : (requested bbox info.shape).count.prod < 2 ^ 64 :=
    lt_of_le_of_lt ((Nat.le_mul_of_pos_right _ hsize).trans hroom) hcapacity
  have htotal := total_elements_eq (count_lt bbox info.shape)
  rw [Nat.mod_eq_of_lt hprod] at htotal
  have hdtype_size : dtype_size info.dtype = element_size info.dtype := if_neg hsize.ne'
  have hmul : Word.mul 64 (requested bbox info.shape).count.prod (element_size info.dtype) =
      (requested bbox info.shape).count.prod * element_size info.dtype := by
    rw [Word.mul, Nat.mod_eq_of_lt (hroom.trans_lt hcapacity)]
  rw [read, if_neg (by simp [hd.is_open])]
  simp only [hshape, hdtype, shape_vec_eq hd hbox, htotal, hdtype_size, hmul, hdt]
  rw [if_neg (Nat.not_lt.mpr hroom)]

theorem in_range {b : AmioBbox} {shape : AmioShape} (hfits : ∀ d, Fits 64 (b.strides d))
    (hshape : ∀ d, Fits 64 (shape.extents d))
    (hbox : validate_bbox (some b) shape = .returned ()) :
    ∀ d ∈ b.to_bounding_box.dims, InRange b.to_bounding_box d := by
  obtain ⟨hrank, hvalid⟩ := validate_bbox_ok hbox
  intro d hmem
  have hlt : (d.val : Int) < b.rank := of_decide_eq_true (List.mem_filter.mp hmem).2
  rw [dims_to_bounding_box hrank] at hmem
  have hvalid := hvalid d hmem
  have hoffsets : b.to_bounding_box.offsets d = b.offsets d := if_pos hlt
  have hextents : b.to_bounding_box.extents d = b.extents d := if_pos hlt
  have hstrides : b.to_bounding_box.strides d = b.strides d := if_pos hlt
  have hspan : 0 ≤ (b.extents d - 1) * b.strides d :=
    mul_nonneg (by have := hvalid.extent; omega) (by have := hvalid.stride; omega)
  have hlast := hvalid.last
  have hend := (fits_64.mp (hshape d)).2
  have hone := hvalid.extent
  have hextent_lt := (fits_64.mp hvalid.extent_fits).2
  have hstride_lt := (fits_64.mp (hfits d)).2
  have hstride := hvalid.stride
  have hoffset := size_cast_of_nonneg hvalid.offset (by omega)
  have hextent := size_cast_of_nonneg (x := b.extents d) (by omega) (by omega)
  have hstride' := size_cast_of_nonneg (x := b.strides d) (by omega) (by omega)
  constructor
  · rw [hoffsets, hoffset]
  · rw [hextents, hextent]
  · rw [hstrides, hstride']
  · rw [hextents]
    omega
  · rw [hstrides]
    omega

theorem read_whole {lib : TensorStore} (hlib : lib.Documented) {store : ZarrArray} {T : Nat}
    {es : List Nat} (hshape : store.shape = T :: es) :
    (T = 1 → lib.read store (.whole store.shape) store.dtype (es.map (↑)) =
      .ok ((indices es).map fun i => store.data (0 :: i))) ∧
    (T ≠ 1 → ∃ e, lib.read store (.whole store.shape) store.dtype (es.map (↑)) = .error e) := by
  have haligned : Aligned (Region.whole store.shape).count.reverse es.reverse ↔ T = 1 := by
    show Aligned store.shape.reverse es.reverse ↔ T = 1
    rw [hshape, List.reverse_cons]
    exact aligned_append es.reverse
  constructor
  · intro hT
    rw [hlib.reads (.inr rfl) (haligned.mpr hT)]
    congr 1
    apply List.map_congr_left
    intro i hi
    have hlt := mem_indices.mp hi
    have halign : align store.shape.reverse i.reverse = i.reverse ++ [0] := by
      rw [hshape, List.reverse_cons, hT]
      exact align_append (List.forall₂_reverse_iff.mpr hlt)
    have hlength : store.shape.length = (0 :: i).length := by
      rw [hshape, List.length_cons, List.length_cons, hlt.length_eq]
    show store.data (place (List.replicate store.shape.length 0) (List.replicate store.shape.length 1)
      (align store.shape.reverse i.reverse).reverse) = store.data (0 :: i)
    rw [halign, List.reverse_append, List.reverse_reverse, hlength]
    exact congrArg store.data (place_origin (0 :: i))
  · intro hT
    exact hlib.misaligned fun h => hT (haligned.mp h)

/-- A box on the leading axes and all of the last one, read as the box. -/
theorem read_box {lib : TensorStore} (hlib : lib.Documented) (store : ZarrArray)
    {os ns ss : List Nat} {e : Nat} (hos : os.length = ns.length) (hss : ss.length = ns.length)
    (hpos : ∀ n ∈ ns, 0 < n) (he : 0 < e) :
    ((∀ n ∈ ns, n = 1) ∧ e = 1 ∧ os ++ [0] ∈ indices store.shape →
      lib.read store ⟨os ++ [0], ns ++ [e], ss ++ [1]⟩ store.dtype (ns.map (↑)) =
        .ok [store.data (os ++ [0])]) ∧
    (¬ ((∀ n ∈ ns, n = 1) ∧ e = 1 ∧ os ++ [0] ∈ indices store.shape) →
      ∃ err, lib.read store ⟨os ++ [0], ns ++ [e], ss ++ [1]⟩ store.dtype (ns.map (↑)) =
        .error err) := by
  have haligned : Aligned (ns ++ [e]).reverse ns.reverse ↔ e = 1 ∧ ∀ n ∈ ns, n = 1 := by
    rw [List.reverse_append]
    simpa using aligned_cons e ns.reverse
  have hlength : (ss ++ [1]).length = (os ++ [0]).length := by simp [hos, hss]
  have hcount : (∀ n ∈ ns, n = 1) → e = 1 → ns ++ [e] = List.replicate (os ++ [0]).length 1 := by
    intro hns he
    apply List.eq_replicate_iff.mpr
    refine ⟨by simp [hos], ?_⟩
    intro n hn
    rcases List.mem_append.mp hn with hn | hn
    · exact hns n hn
    · exact (List.mem_singleton.mp hn).trans he
  have hinside : (∀ n ∈ ns, n = 1) → e = 1 →
      (Region.Inside store.shape ⟨os ++ [0], ns ++ [e], ss ++ [1]⟩ ↔
        os ++ [0] ∈ indices store.shape) := by
    intro hns he
    rw [hcount hns he]
    exact Region.inside_ones hlength
  constructor
  · intro ⟨hns, he, hmem⟩
    have hreads := hlib.reads (.inl ((hinside hns he).mpr hmem)) (haligned.mpr ⟨he, hns⟩)
    have hones : ns = List.replicate ns.length 1 := List.eq_replicate_iff.mpr ⟨rfl, hns⟩
    have hindices : indices ns = [List.replicate ns.length 0] := by
      rw [hones, indices_ones, List.length_replicate]
    have hplace : place (os ++ [0]) (ss ++ [1])
        (align (ns ++ [e]).reverse (List.replicate ns.length 0).reverse).reverse = os ++ [0] := by
      rw [hcount hns he, List.reverse_replicate, align_ones, List.reverse_replicate]
      exact place_zeros hlength
    rw [hreads, hindices, List.map_singleton]
    dsimp only
    rw [hplace]
  · intro hno
    by_cases hal : Aligned (ns ++ [e]).reverse ns.reverse
    · -- the extents align, but the element is not there
      obtain ⟨he', hns⟩ := haligned.mp hal
      apply hlib.outside
      · intro n hn
        rcases List.mem_append.mp hn with hn | hn
        · exact hpos n hn
        · rwa [List.mem_singleton.mp hn]
      · intro hin
        exact hno ⟨hns, he', (hinside hns he').mp hin⟩
    · exact hlib.misaligned hal

theorem lengths_pos {b : AmioBbox} {shape : AmioShape} (hshape : ∀ d, Fits 64 (shape.extents d))
    (hbox : validate_bbox (some b) shape = .returned ()) : ∀ e ∈ shape.lengths, 0 < e := by
  intro e he
  obtain ⟨d, hd, rfl⟩ := List.mem_map.mp he
  have hvalid := (validate_bbox_ok hbox).2 d hd
  have hspan : 0 ≤ (b.extents d - 1) * b.strides d :=
    mul_nonneg (by have := hvalid.extent; omega) (by have := hvalid.stride; omega)
  have hoffset := hvalid.offset
  have hlast := hvalid.last
  have hlt := (fits_64.mp (hshape d)).2
  have := size_cast_of_nonneg (x := shape.extents d) (by omega) (by omega)
  omega

/-- The read domain of a box that has passed the checks. -/
theorem source_box {lib : TensorStore} (hlib : lib.Documented) {store : ZarrArray} {b : AmioBbox}
    {shape : AmioShape} {xs : List Nat} {l : Nat} (hstore : store.shape = xs ++ [l])
    (hrank : shape.rank = xs.length) (hle : xs.length ≤ kMaxRank)
    (hrange : ∀ d ∈ b.to_bounding_box.dims, InRange b.to_bounding_box d)
    (hbox : validate_bbox (some b) shape = .returned ()) :
    let r := b.to_bounding_box.region
    let sliced : Region := ⟨r.start ++ [0], r.count ++ [l], r.stride ++ [1]⟩
    (∀ s, source lib store (some b.to_bounding_box) = .returned s → s = sliced) ∧
    ((∀ n ∈ r.count, n = 1) → r.start ++ [0] ∈ indices store.shape →
      source lib store (some b.to_bounding_box) = .returned sliced) := by
  intro r sliced
  have hmap := dims_map hrank hle
  rw [← dims_to_bounding_box (validate_bbox_ok hbox).1] at hmap
  have hlength : xs.length = b.to_bounding_box.dims.length := by
    simpa using (congrArg List.length hmap).symm
  have hspec := foldlM_restrict_spec hlib hrange xs [l] [] [] []
    (by rw [hmap, List.range_eq_range', ← hlength]; rfl) hlength rfl rfl
  have hwhole : Region.whole store.shape = ⟨List.replicate (xs.length + 1) 0, xs ++ [l],
      List.replicate (xs.length + 1) 1⟩ := by
    rw [Region.whole, hstore, List.length_append, List.length_singleton]
  rw [source, hwhole]
  obtain ⟨hreturned, hinside⟩ := hspec
  constructor
  · exact hreturned
  · intro hcount hmem
    apply hinside
    rw [hstore, mem_indices] at hmem
    have hlead : List.Forall₂ (· < ·) r.start xs := by
      have htake := List.forall₂_take xs.length hmem
      have hstart : r.start.length = xs.length := by
        rw [hlength]
        exact List.length_map ..
      rwa [List.take_left, ← hstart, List.take_left] at htake
    have hones : ∀ d ∈ b.to_bounding_box.dims, size_cast (b.to_bounding_box.extents d) = 1 :=
      fun d hd => hcount _ (List.mem_map_of_mem hd)
    have hpairs := List.forall₂_iff_zip.mp (List.forall₂_map_left_iff.mp hlead)
    apply List.forall₂_iff_zip.mpr
    refine ⟨hpairs.1, ?_⟩
    intro d e hmem
    have hlt := hpairs.2 hmem
    rw [Contains, hones d (List.of_mem_zip hmem).1]
    omega

/-- **A read of the Zarr driver against the record it should reach.** The buffer
    is large enough. -/
theorem read_reaches_iff {drv : Zarr_Reader} {lib : TensorStore} {m : VarMeta}
    {info : Boundary.VariableInfo} {bbox : Option AmioBbox} {t : Int} {T : Nat} {es : List Nat}
    {capacity_bytes : Nat} (hlib : lib.Documented) (hstore : drv.ts_store.shape = T :: es)
    (hne : es ≠ []) (h : drv.describe_variable m.name = some info) (hdtype : m.dtype = info.dtype)
    (hshape : m.shape = info.shape) (ht : 0 ≤ t ∧ t < T)
    (hbox : validate_bbox bbox info.shape = .returned ())
    (hfits : ∀ b ∈ bbox, ∀ d, Fits 64 (b.strides d))
    (hroom : (requested bbox info.shape).count.prod * element_size info.dtype ≤ capacity_bytes)
    (hcapacity : capacity_bytes < 2 ^ 64) :
    drv.read lib m t (bbox.map AmioBbox.to_bounding_box) capacity_bytes =
        .returned ⟨(requested bbox info.shape).elements.map fun i => drv.ts_store.data (t.toNat :: i),
          (requested bbox info.shape).elements.length * element_size info.dtype⟩ ↔
      Reaches drv.ts_store t.toNat (bbox.map AmioBbox.to_bounding_box) := by
  have hd := described h hstore hne
  rw [read_eq hd hdtype hshape hbox hroom hcapacity, Region.length_elements]
  cases bbox with
  | none =>
    obtain ⟨hone, hmany⟩ := read_whole hlib hstore
    have hcount : (requested none info.shape).count = es := hd.lengths
    have helements : (requested none info.shape).elements = indices es := by
      rw [requested, Region.elements_whole, hd.lengths]
    have hreach : Reaches drv.ts_store t.toNat none ↔ T = 1 := by
      simp [Reaches, hstore]
    rw [Option.map_none, hreach, source, Outcome.returned_bind, hcount, helements]
    constructor
    · intro hread
      by_contra hT
      obtain ⟨err, herr⟩ := hmany hT
      rw [herr] at hread
      cases hread
    · intro hT
      have ht0 : t.toNat = 0 := by omega
      rw [hone hT, ht0]
  | some b =>
    obtain ⟨ys, l, rfl⟩ := (List.eq_nil_or_concat' es).resolve_left hne
    have hrank : info.shape.rank = (T :: ys).length := by
      rw [hd.rank]
      simp
    have hle : (T :: ys).length ≤ kMaxRank := by simpa using hd.rank_le
    have hrange := in_range (hfits b rfl) hd.fits hbox
    obtain ⟨hreturned, hinside⟩ := source_box hlib hstore hrank hle hrange hbox
    obtain ⟨hstart, hcount, hstride⟩ := requested_lengths hbox
    have hl : 0 < l := by
      apply lengths_pos hd.fits hbox
      rw [hd.lengths]
      simp
    have hpos : ∀ n ∈ b.to_bounding_box.region.count, 0 < n := by
      intro n hn
      obtain ⟨d, hd, rfl⟩ := List.mem_map.mp hn
      exact (hrange d hd).extent_pos
    obtain ⟨hone, hmany⟩ := read_box hlib drv.ts_store (hstart.trans hcount.symm)
      (hstride.trans hcount.symm) hpos hl
    have hrequested : requested (some b) info.shape = b.to_bounding_box.region := rfl
    rw [hrequested] at hone hmany
    rw [hrequested, Option.map_some, Reaches]
    have hlast : drv.ts_store.shape.getLast? = some 1 ↔ l = 1 := by
      rw [hstore, ← List.cons_append, List.getLast?_concat, Option.some.injEq]
    have helements : (∀ n ∈ b.to_bounding_box.region.count, n = 1) →
        b.to_bounding_box.region.elements = [b.to_bounding_box.region.start] := by
      intro hones
      have hcounts := List.eq_replicate_iff.mpr ⟨hcount.trans hstart.symm, hones⟩
      rw [hrequested] at hcounts hstride hstart
      rw [Region.elements, hcounts, indices_ones, List.map_singleton,
        place_zeros (hstride.trans hstart.symm)]
    rw [hlast]
    constructor
    · intro hread
      obtain ⟨s, hs, hread⟩ := Outcome.bind_eq_returned.mp hread
      obtain rfl := hreturned s hs
      by_cases hreach : (∀ n ∈ b.to_bounding_box.region.count, n = 1) ∧ l = 1 ∧
          b.to_bounding_box.region.start ++ [0] ∈ indices drv.ts_store.shape
      · rw [hone hreach, helements hreach.1] at hread
        injection hread with hread
        injection hread with hdata
        injection hdata with hdata
        exact ⟨hreach.1, hreach.2.1, hreach.2.2, hdata⟩
      · obtain ⟨err, herr⟩ := hmany hreach
        rw [herr] at hread
        cases hread
    · rintro ⟨hones, hl, hmem, hdata⟩
      rw [hinside hones hmem, Outcome.returned_bind, hone ⟨hones, hl, hmem⟩, helements hones,
        List.map_singleton, hdata]

/-- Two records of one byte. -/
def two_steps : Zarr_Reader where
  is_open := true
  is_write_mode := false
  ts_store := ⟨.uint8, [2, 1], by decide, fun i => [BitVec.ofNat 8 i.headI]⟩

/-- What is reported of it. -/
def step_info : Boundary.VariableInfo := (two_steps.describe_variable []).get (by decide)

/-- All of a record. -/
def whole_step : AmioBbox where
  rank := 1
  offsets _ := 0
  extents _ := 1
  strides _ := 1

theorem read_reaches_first : two_steps.read .exact ⟨1, 1, [], step_info.dtype, step_info.shape, 0⟩ 0
    (some whole_step.to_bounding_box) 1 = .returned ⟨[[0]], 1⟩ := by
  have hdescribe : two_steps.describe_variable [] = some step_info := by simp [step_info]
  have hstore : two_steps.ts_store.shape = 2 :: [1] := rfl
  have hbox : validate_bbox (some whole_step) step_info.shape = .returned () := by decide
  exact (read_reaches_iff (m := ⟨1, 1, [], step_info.dtype, step_info.shape, 0⟩) (t := 0)
    TensorStore.exact_documented hstore (by decide) hdescribe rfl rfl (by decide) hbox (by decide)
    (by decide) (by decide)).mpr
    ⟨by decide, by decide, by decide, rfl⟩

theorem read_misses_second : TensorStore.exact.Documented ∧
    two_steps.describe_variable [] = some step_info ∧ step_info.total_timesteps = 2 ∧
    validate_bbox (some whole_step) step_info.shape = .returned () ∧
    (requested (some whole_step) step_info.shape).elements.map
      (fun i => two_steps.ts_store.data (1 :: i)) = [[1]] ∧
    two_steps.read .exact ⟨1, 1, [], step_info.dtype, step_info.shape, 1⟩ 1
      (some whole_step.to_bounding_box) 1 = .returned ⟨[[0]], 1⟩ ∧
    two_steps.read .exact ⟨1, 1, [], step_info.dtype, step_info.shape, 1⟩ 1 none 1 =
      .thrown "Zarr_Driver: read failed (I/O error): INVALID_ARGUMENT" := by
  refine ⟨TensorStore.exact_documented, by simp [step_info], by decide, by decide, by decide, rfl, ?_⟩
  rfl

end Zarr_Reader

end Amio

import Helm.Amio.WritePath
import Helm.Framework.RowMajor
import Helm.Framework.Signed

/-! # Writing through the drivers

  `write` (`c_boundary/amio_core.cpp`) copies the first bytes of the host
  array into a staging buffer, as many as the array has elements, whatever
  its strides. What the driver makes of the copy depends on the driver: the
  NetCDF and the Zarr driver hand it to their library as it is, and the GRIB2
  driver (`drivers/grib2/grib2_driver.cpp`) picks the elements that the
  strides say.

  A shape asks for the host element at offset `Σ i_d * s_d` for each
  multi-index `i`, in row-major order. `write_faithful_iff` says for which
  shapes a driver hands over just these elements, for every host array.
-/

namespace Amio

open Signed
open RowMajor

/-! ## Section 1: Host arrays -/

/-- The extents of a shape. -/
def AmioShape.sizes (shape : AmioShape) : List Nat :=
  shape.dims.map fun d => (shape.extents d).toNat

/-- The strides of a shape, as they are given. -/
def AmioShape.steps (shape : AmioShape) : List Int := shape.dims.map shape.strides

/-- The strides that are meant: zero asks for the row-major default. -/
def resolve_strides : List Nat → List Int → List Int
  | _ :: es, s :: ss => (if s = 0 then (es.prod : Int) else s) :: resolve_strides es ss
  | _, _ => []

/-- Memory around the host pointer. -/
abbrev HostMemory := Int → BitVec 8

/-- The bytes of the element at offset `k`. -/
def element (size : Nat) (host : HostMemory) (k : Int) : List (BitVec 8) :=
  (List.range size).map fun j : Nat => host (k * size + j)

/-- The copy that `write` makes. -/
def snapshot (host : HostMemory) (payload_bytes : Nat) : List (BitVec 8) :=
  (List.range payload_bytes).map fun j : Nat => host j

/-- What `write` tells the driver about the variable. -/
def WriteRequest.info (req : WriteRequest) : VarMeta :=
  { dataset_id := req.dataset_id, variable_id := var_hash req.var_name, name := req.var_name,
    dtype := req.dtype, shape := req.shape, timestep := -1 }

/-! ## Section 2: Drivers -/

/-- What a driver hands to its library. -/
structure Handed where
  dtype : Dtype
  values : List (List (BitVec 8))
  /-- How many values it announces. -/
  count : Int
  /-- How many points its grid has. -/
  points : Int

/-- Read from the staging buffer; undefined at or beyond the payload. -/
def fetch (src : List (BitVec 8)) (pos size : Nat) : Outcome String (List (BitVec 8)) :=
  if pos + size ≤ src.length then .returned ((src.drop pos).take size) else .undefined

/-- The first `n` elements of the staging buffer. -/
def fetch_front (src : List (BitVec 8)) (size n : Nat) : Outcome String (List (List (BitVec 8))) :=
  (List.range n).mapM fun k => fetch src (k * size) size

/-- A variable of a netCDF file. -/
structure NcVariable where
  rank : Nat
  dtype : Dtype

structure NetCDF_Driver where
  is_open : Bool
  is_write_mode : Bool
  /-- The variable of that name in the file. -/
  existing : Option NcVariable
  /-- The message of the library call that fails, if one does. -/
  failure : Option String

namespace NetCDF_Driver

/-- `dtype_to_nc_type`; types keep their names -/
def dtype_to_nc_type : Dtype → Outcome String Dtype
  | .unknown tag => .thrown ("NetCDF_Driver: unsupported dtype " ++ toString tag)
  | dtype => .returned dtype

/-- Look up the variable or define it. -/
def find_variable (drv : NetCDF_Driver) (info : VarMeta) : Outcome String NcVariable :=
  match drv.existing with
  | some var => .returned var
  | none => do
    let nc_type ← dtype_to_nc_type info.dtype
    return ⟨info.shape.sizes.length, nc_type⟩

/-- `nc_put_vara`: the library takes as many counts as the variable has
    dimensions, and values of the variable's type. -/
def nc_put_vara (var : NcVariable) (count : List Nat) (src : List (BitVec 8)) :
    Outcome String Handed :=
  if count.length < var.rank then .undefined
  else do
    let n := (count.take var.rank).prod
    let values ← fetch_front src (element_size var.dtype) n
    return ⟨var.dtype, values, n, n⟩

/-- `NetCDF_Driver::write` -/
def write (drv : NetCDF_Driver) (src : List (BitVec 8)) (info : VarMeta) : Outcome String Handed :=
  if drv.is_open = false ∨ drv.is_write_mode = false then
    .thrown "NetCDF_Driver::write: driver not open for writing"
  else do
    let var ← drv.find_variable info
    match drv.failure with
    | some e => .thrown e
    | none => nc_put_vara var info.shape.sizes src

end NetCDF_Driver

structure Zarr_Driver where
  is_open : Bool
  is_write_mode : Bool
  failure : Option String

/-- `Zarr_Driver::write`. The view over the buffer is contiguous
    (`tensorstore::c_order`). -/
def Zarr_Driver.write (drv : Zarr_Driver) (src : List (BitVec 8)) (info : VarMeta) :
    Outcome String Handed :=
  if drv.is_open = false ∨ drv.is_write_mode = false then
    .thrown "Zarr_Driver: write called on driver not open for writing"
  else
    let elem_size := element_size info.dtype
    -- `src.used_bytes / elem_size`
    if elem_size = 0 then .undefined
    else
      match drv.failure with
      | some e => .thrown e
      | none => do
        let n := info.shape.sizes.prod
        let values ← fetch_front src elem_size n
        return ⟨info.dtype, values, n, n⟩

/-- What `GRIB2_Driver::write` looks at in `Grib2Settings`. -/
structure Grib2Settings where
  gdt_number : Int
  pdt_number : Int

structure GRIB2_Driver where
  initialized : Bool
  settings : Grib2Settings
  failure : Option String

namespace GRIB2_Driver

/-- `total_elements` -/
def total_elements (shape : AmioShape) : Nat :=
  if validate_shape shape then compute_element_count shape else 0

/-- The loop of `is_contiguous_row_major`, from the last axis on. It yields the
    stride expected of the next axis, or nothing when a stride differs. -/
def check_strides : List Nat → List Int → Outcome String (Option Int)
  | e :: es, s :: ss => do
    match ← check_strides es ss with
    | none => return none
    | some expected =>
      if s ≠ 0 ∧ s ≠ expected then return none
      else do
        let next ← signed 64 (expected * e)
        return some next
  | _, _ => return some 1

/-- `is_contiguous_row_major`, of a valid shape -/
def is_contiguous_row_major (shape : AmioShape) : Outcome String Bool :=
  if shape.steps.all (· = 0) then .returned true
  else do
    let expected ← check_strides shape.sizes shape.steps
    return expected.isSome

/-- The strides of `pack_row_major`, from the last axis on, and the product of
    the extents. -/
def actual_strides : List Nat → List Int → Outcome String (List Int × Int)
  | e :: es, s :: ss => do
    let (strides, row_major_stride) ← actual_strides es ss
    let next ← signed 64 (row_major_stride * e)
    return ((if s = 0 then row_major_stride else s) :: strides, next)
  | _, _ => return ([], 1)

/-- `src_elem_offset`, in `std::size_t` -/
def src_elem_offset (indices : List Nat) (strides : List Int) : Nat :=
  (List.zip indices strides).foldl
    (fun acc p => Word.add 64 acc (Word.mul 64 p.1 (p.2 % 2 ^ 64).toNat)) 0

/-- The largest `std::vector`, in bytes. -/
def max_size : Nat := 2 ^ 63 - 1

/-- `std::vector` -/
def allocate (bytes : Nat) : Outcome String Unit :=
  if max_size < bytes then .thrown "cannot create std::vector larger than max_size()"
  else .returned ()

/-- `pack_row_major` -/
def pack_row_major (src : List (BitVec 8)) (shape : AmioShape) (size : Nat) :
    Outcome String (List (List (BitVec 8))) := do
  let num_elements := total_elements shape
  allocate (Word.mul 64 num_elements size)
  let (strides, _) ← actual_strides shape.sizes shape.steps
  -- the copies go past a vector whose size has wrapped around
  if Word.mul 64 num_elements size < num_elements * size then .undefined
  else
    (walk shape.sizes num_elements (List.replicate shape.sizes.length 0)).mapM fun indices =>
      fetch src (Word.mul 64 (src_elem_offset indices strides) size) size

/-- The buffer that `encode_ptr` points to, if it is not the staging buffer. -/
def packed_buffer (src : List (BitVec 8)) (shape : AmioShape) (size : Nat) (contiguous : Bool) :
    Outcome String (Option (List (List (BitVec 8)))) :=
  if contiguous then .returned none else some <$> pack_row_major src shape size

/-- `fld`: the values are copied from `encode_ptr`. -/
def copy_field (src : List (BitVec 8)) (num_elements : Nat) :
    Option (List (List (BitVec 8))) → Outcome String (List (List (BitVec 8)))
  | some values => .returned values
  | none => fetch_front src 4 num_elements

/-- `ni` and `nj`: the last two axes -/
def grid (shape : AmioShape) : Int × Int :=
  match shape.sizes.reverse with
  | ni :: nj :: _ => (ni, nj)
  | _ => (((total_elements shape : Nat) : Int).bmod (2 ^ 64), 1)

/-- `GRIB2_Driver::write` -/
def write (drv : GRIB2_Driver) (src : List (BitVec 8)) (info : VarMeta) : Outcome String Handed :=
  if drv.initialized = false then
    .thrown "GRIB2_Driver::write called before successful initialization"
  else if info.dtype ≠ .F32 then
    .thrown ("GRIB2_Driver::write: only AMIO_DTYPE_F32 fields can be encoded " ++
      "to GRIB2 grid-point data. Zero record bytes emitted.")
  else
    let elem_size := element_size info.dtype
    let num_elements := total_elements info.shape
    if num_elements = 0 ∨ elem_size = 0 then
      .thrown "GRIB2_Driver::write: empty or invalid field shape. Zero record bytes emitted."
    else do
      let contiguous ← is_contiguous_row_major info.shape
      let packed ← packed_buffer src info.shape elem_size contiguous
      let (ni, nj) := grid info.shape
      let field_bytes := Word.mul 64 num_elements 4
      allocate (Word.add 64 (Word.add 64 field_bytes 8192) num_elements)
      if drv.settings.gdt_number ≠ 0 ∧ drv.settings.gdt_number ≠ 40 then
        .thrown ("GRIB2_Driver::write: unsupported GDT number " ++
          toString drv.settings.gdt_number ++ ". Zero record bytes emitted.")
      else do
        let points ← signed 64 (ni * nj)
        if drv.settings.pdt_number ∉ [0, 8, 40, 44, 45, 46, 48, 49] then
          .thrown ("GRIB2_Driver::write: unsupported PDT number " ++
            toString drv.settings.pdt_number ++ ". Zero record bytes emitted.")
        else do
          allocate (num_elements * 4)
          let fld ← copy_field src num_elements packed
          match drv.failure with
          | some e => .thrown e
          | none => return ⟨info.dtype, fld, num_elements, points⟩

end GRIB2_Driver

/-- The drivers that can write. -/
inductive Driver
  | netcdf (drv : NetCDF_Driver)
  | zarr (drv : Zarr_Driver)
  | grib2 (drv : GRIB2_Driver)

def Driver.write : Driver → List (BitVec 8) → VarMeta → Outcome String Handed
  | .netcdf drv => drv.write
  | .zarr drv => drv.write
  | .grib2 drv => drv.write

/-! ## Section 3: What is asked of a driver -/

/-- **The driver hands over the host array**: the elements that the shape asks
    for, in row-major order, and as many as it announces. -/
structure Faithful (host : HostMemory) (req : WriteRequest) (h : Handed) : Prop where
  dtype : h.dtype = req.dtype
  values : h.values = (indices req.shape.sizes).map fun i =>
    element (element_size req.dtype) host (offset i (resolve_strides req.shape.sizes req.shape.steps))
  length : h.values.length = req.shape.sizes.prod
  count : h.count = req.shape.sizes.prod
  points : h.points = req.shape.sizes.prod

/-- The driver hands over every host array. -/
def WritesFaithfully (driver : Driver) (req : WriteRequest) : Prop :=
  ∀ host, ∃ h, driver.write (snapshot host req.payload_bytes) req.info = .returned h ∧
    Faithful host req h

/-- The driver does not reject the write. -/
def Accepts (driver : Driver) (req : WriteRequest) : Prop :=
  ∀ host e, driver.write (snapshot host req.payload_bytes) req.info ≠ .thrown e

/-- The elements of the host array lie one after the other. -/
def RowMajorShape (shape : AmioShape) : Prop :=
  Contiguous shape.sizes (resolve_strides shape.sizes shape.steps)

/-- The elements of the host array are among the first ones of the memory, as
    many as there are. -/
def WithinPayload (shape : AmioShape) : Prop :=
  Forward shape.sizes (resolve_strides shape.sizes shape.steps) ∧
    farthest shape.sizes (resolve_strides shape.sizes shape.steps) < shape.sizes.prod

/-- A variable that the file has already is one of the request's type, and the
    axes that it does not have are of extent 1. -/
def NcVariable.Matches (var : NcVariable) (req : WriteRequest) : Prop :=
  var.dtype = req.dtype ∧ var.rank ≤ req.shape.sizes.length ∧
    (req.shape.sizes.take var.rank).prod = req.shape.sizes.prod

/-- The shapes that a driver can write. -/
def Driver.Fits (req : WriteRequest) : Driver → Prop
  | .netcdf drv => RowMajorShape req.shape ∧ ∀ var ∈ drv.existing, var.Matches req
  | .zarr _ => RowMajorShape req.shape
  | .grib2 _ =>
    WithinPayload req.shape ∧ (req.shape.sizes.reverse.take 2).prod = req.shape.sizes.prod

/-! ## Section 4: Copies and elements -/

section Copies

variable {host : HostMemory} {size payload n : Nat}

@[simp] theorem length_snapshot : (snapshot host payload).length = payload := by
  simp [snapshot]

@[simp] theorem length_element {k : Int} : (element size host k).length = size := by
  simp [element]

theorem element_injective (hsize : 0 < size) {a b : Int}
    (h : ∀ host, element size host a = element size host b) : a = b := by
  have hmark := h fun p => if p = a * size then 1 else 0
  have hfirst := congrArg (fun bytes => bytes[0]?) hmark
  simp only [element, List.getElem?_map, List.getElem?_range hsize, Option.map_some,
    Option.some.injEq, Nat.cast_zero, add_zero, if_true] at hfirst
  split at hfirst
  · next hmul =>
    exact (Int.eq_of_mul_eq_mul_right (by exact_mod_cast hsize.ne') hmul).symm
  · simp at hfirst

theorem fetch_eq_returned {src v : List (BitVec 8)} {pos : Nat}
    (h : fetch src pos size = .returned v) : pos + size ≤ src.length := by
  rw [fetch] at h
  split at h
  · assumption
  · cases h

theorem fetch_snapshot {k : Nat} (h : k * size + size ≤ payload) :
    fetch (snapshot host payload) (k * size) size = .returned (element size host k) := by
  rw [fetch, if_pos (by simpa using h)]
  apply congrArg Outcome.returned
  apply List.ext_getElem
  · simp
    omega
  · intro j hj hj'
    simp [snapshot, element]

theorem fetch_front_snapshot (h : n * size ≤ payload) :
    fetch_front (snapshot host payload) size n =
      .returned ((List.range n).map fun k : Nat => element size host k) := by
  rw [fetch_front, Outcome.mapM_eq_returned, List.forall₂_map_right_iff]
  apply List.forall₂_same.mpr
  intro k hk
  apply fetch_snapshot
  have hle : (k + 1) * size ≤ n * size := Nat.mul_le_mul_right _ (List.mem_range.mp hk)
  rw [Nat.succ_mul] at hle
  omega

theorem length_of_fetch_front {src : List (BitVec 8)} {vs : List (List (BitVec 8))}
    (h : fetch_front src size n = .returned vs) : vs.length = n := by
  have hall := Outcome.mapM_eq_returned.mp h
  simpa using hall.length_eq.symm

theorem le_of_fetch_front {src : List (BitVec 8)} {vs : List (List (BitVec 8))}
    (h : fetch_front src size n = .returned vs) : n * size ≤ src.length := by
  rcases Nat.eq_zero_or_pos n with rfl | hn
  · simp
  · obtain ⟨v, -, hv⟩ := Outcome.exists_of_mapM h (a := n - 1) (List.mem_range.mpr (by omega))
    have hle := fetch_eq_returned hv
    rw [← Nat.succ_mul, Nat.succ_eq_add_one, Nat.sub_add_cancel hn] at hle
    exact hle

end Copies

/-! ### Shapes -/

theorem compute_element_count_eq (shape : AmioShape) :
    compute_element_count shape = shape.sizes.prod % 2 ^ 64 :=
  Word.foldl_mul (by decide) (fun d => (shape.extents d).toNat) shape.dims

theorem length_steps (shape : AmioShape) : shape.steps.length = shape.sizes.length := by
  simp [AmioShape.steps, AmioShape.sizes]

theorem length_resolve_strides {es : List Nat} {ss : List Int} (h : ss.length = es.length) :
    (resolve_strides es ss).length = es.length := by
  induction es generalizing ss with
  | nil => simp [resolve_strides]
  | cons e es ih =>
    obtain ⟨s, ss, rfl⟩ := List.exists_cons_of_length_eq_add_one h
    rw [resolve_strides, List.length_cons, ih (by simpa using h), List.length_cons]

theorem sizes_pos {shape : AmioShape} (h : validate_shape shape = true) :
    ∀ e ∈ shape.sizes, 0 < e := by
  intro e he
  obtain ⟨d, hd, rfl⟩ := List.mem_map.mp he
  simp only [validate_shape, decide_eq_true_eq] at h
  have := h.2.2 d hd
  omega

theorem validate_write_ok {args : WriteArgs} {req : WriteRequest}
    (h : validate_write args = .ok req) :
    validate_shape req.shape = true ∧ 0 < element_size req.dtype ∧
      req.payload_bytes = req.shape.sizes.prod * element_size req.dtype % 2 ^ 64 := by
  rw [validate_write] at h
  split at h
  · split at h
    · cases h
    · next hsize =>
      split at h
      · cases h
      · next hshape =>
        dsimp only at h
        split at h
        · cases h
        · cases h
          refine ⟨by simpa using hshape, Nat.pos_of_ne_zero hsize, ?_⟩
          rw [compute_element_count_eq, Word.mul, Nat.mod_mul_mod]
  · cases h

/-! ## Section 5: Drivers that hand over the copy as it is -/

theorem rowMajor_iff {req : WriteRequest} (hshape : validate_shape req.shape = true)
    (hsize : 0 < element_size req.dtype) :
    RowMajorShape req.shape ↔ ∀ host : HostMemory,
      ((List.range req.shape.sizes.prod).map fun k : Nat =>
        element (element_size req.dtype) host k) =
      (indices req.shape.sizes).map fun i =>
        element (element_size req.dtype) host
          (offset i (resolve_strides req.shape.sizes req.shape.steps)) := by
  have hlength := length_resolve_strides (length_steps req.shape)
  rw [RowMajorShape, contiguous_iff hlength (sizes_pos hshape), indices_eq_map_unrank]
  constructor
  · intro hall host
    rw [List.map_map]
    apply List.map_congr_left
    intro k hk
    rw [Function.comp_apply, hall _ (List.mem_map_of_mem hk), offset_unrank (List.mem_range.mp hk)]
  · intro hall i hi
    obtain ⟨k, hk, rfl⟩ := List.mem_map.mp hi
    rw [offset_unrank (List.mem_range.mp hk)]
    apply element_injective hsize
    intro host
    have hvalues := hall host
    rw [List.map_map, List.map_inj_left] at hvalues
    exact (hvalues k hk).symm

/-- What a driver does that hands over the first `n` elements of the copy. -/
def hand_front (dtype : Dtype) (n : Nat) (src : List (BitVec 8)) : Outcome String Handed := do
  let values ← fetch_front src (element_size dtype) n
  return ⟨dtype, values, n, n⟩

theorem hand_front_iff {req : WriteRequest} (hshape : validate_shape req.shape = true)
    (hsize : 0 < element_size req.dtype)
    (hpayload : req.payload_bytes = req.shape.sizes.prod * element_size req.dtype % 2 ^ 64) :
    (∀ host, ∃ h, hand_front req.dtype req.shape.sizes.prod (snapshot host req.payload_bytes) =
      .returned h ∧ Faithful host req h) ↔
    req.shape.sizes.prod * element_size req.dtype < 2 ^ 64 ∧ RowMajorShape req.shape := by
  constructor
  · intro hall
    have hfits : req.shape.sizes.prod * element_size req.dtype < 2 ^ 64 := by
      obtain ⟨h, hret, -⟩ := hall fun _ => 0
      obtain ⟨values, hfetch, -⟩ := Outcome.bind_eq_returned.mp hret
      have hle := le_of_fetch_front hfetch
      rw [length_snapshot, hpayload] at hle
      exact hle.trans_lt (Nat.mod_lt _ (by positivity))
    rw [Nat.mod_eq_of_lt hfits] at hpayload
    refine ⟨hfits, (rowMajor_iff hshape hsize).mpr fun host => ?_⟩
    obtain ⟨h, hret, hfaithful⟩ := hall host
    rw [hand_front, fetch_front_snapshot hpayload.ge, Outcome.returned_bind] at hret
    cases hret
    exact hfaithful.values
  · intro ⟨hfits, hrow⟩ host
    rw [Nat.mod_eq_of_lt hfits] at hpayload
    refine ⟨_, by rw [hand_front, fetch_front_snapshot hpayload.ge, Outcome.returned_bind]; rfl, ?_⟩
    exact { dtype := rfl, values := (rowMajor_iff hshape hsize).mp hrow host, length := by simp,
            count := rfl, points := rfl }

theorem zarr_iff (drv : Zarr_Driver) {req : WriteRequest} (hshape : validate_shape req.shape = true)
    (hsize : 0 < element_size req.dtype)
    (hpayload : req.payload_bytes = req.shape.sizes.prod * element_size req.dtype % 2 ^ 64)
    (haccepts : Accepts (.zarr drv) req) :
    WritesFaithfully (.zarr drv) req ↔
      req.shape.sizes.prod * element_size req.dtype < 2 ^ 64 ∧ RowMajorShape req.shape := by
  have hwrite : ∀ host, (Driver.zarr drv).write (snapshot host req.payload_bytes) req.info =
      hand_front req.dtype req.shape.sizes.prod (snapshot host req.payload_bytes) := by
    intro host
    have hno := haccepts host
    simp only [Driver.write, Zarr_Driver.write] at hno ⊢
    split
    · next hclosed => simp [hclosed] at hno
    · next hopen =>
      rw [if_neg (by exact hsize.ne')]
      cases hfailure : drv.failure with
      | some e => simp [hopen, hfailure, WriteRequest.info, hsize.ne'] at hno
      | none => rfl
  simp only [WritesFaithfully, hwrite]
  exact hand_front_iff hshape hsize hpayload

/-- The NetCDF driver. -/
theorem netcdf_iff (drv : NetCDF_Driver) {req : WriteRequest}
    (hshape : validate_shape req.shape = true) (hsize : 0 < element_size req.dtype)
    (hpayload : req.payload_bytes = req.shape.sizes.prod * element_size req.dtype % 2 ^ 64)
    (haccepts : Accepts (.netcdf drv) req) :
    WritesFaithfully (.netcdf drv) req ↔
      req.shape.sizes.prod * element_size req.dtype < 2 ^ 64 ∧ RowMajorShape req.shape ∧
        ∀ var ∈ drv.existing, var.Matches req := by
  -- the variable that the values go to
  obtain ⟨var, hvar, hexisting⟩ : ∃ var, drv.find_variable req.info = .returned var ∧
      (var.Matches req ↔ ∀ v ∈ drv.existing, v.Matches req) := by
    rw [NetCDF_Driver.find_variable]
    cases drv.existing with
    | some v => exact ⟨v, rfl, by simp⟩
    | none =>
      refine ⟨⟨req.shape.sizes.length, req.dtype⟩, ?_, by simp [NcVariable.Matches]⟩
      cases hdtype : req.dtype with
      | unknown tag => simp [hdtype, element_size] at hsize
      | _ => simp [WriteRequest.info, hdtype, NetCDF_Driver.dtype_to_nc_type]
  have hwrite : ∀ host, (Driver.netcdf drv).write (snapshot host req.payload_bytes) req.info =
      NetCDF_Driver.nc_put_vara var req.shape.sizes (snapshot host req.payload_bytes) := by
    intro host
    have hno := haccepts host
    simp only [Driver.write, NetCDF_Driver.write, hvar, Outcome.returned_bind] at hno ⊢
    split
    · next hclosed => simp [hclosed] at hno
    · next hopen =>
      cases hfailure : drv.failure with
      | some e => simp [hopen, hfailure] at hno
      | none => rfl
  have hmatches : WritesFaithfully (.netcdf drv) req → var.Matches req := by
    intro hall
    obtain ⟨h, hret, hfaithful⟩ := hall fun _ => 0
    rw [hwrite, NetCDF_Driver.nc_put_vara] at hret
    split at hret
    · cases hret
    · next hrank =>
      obtain ⟨values, hfetch, hh⟩ := Outcome.bind_eq_returned.mp hret
      cases hh
      have hlength := hfaithful.length
      rw [length_of_fetch_front hfetch] at hlength
      exact ⟨hfaithful.dtype, by omega, hlength⟩
  have hfront : var.Matches req → (WritesFaithfully (.netcdf drv) req ↔
      req.shape.sizes.prod * element_size req.dtype < 2 ^ 64 ∧ RowMajorShape req.shape) := by
    intro ⟨hdtype, hrank, hprod⟩
    have hput : ∀ src, NetCDF_Driver.nc_put_vara var req.shape.sizes src =
        hand_front req.dtype req.shape.sizes.prod src := by
      intro src
      rw [NetCDF_Driver.nc_put_vara, if_neg (by omega), hprod, hdtype]
      rfl
    simp only [WritesFaithfully, hwrite, hput]
    exact hand_front_iff hshape hsize hpayload
  constructor
  · intro hall
    have hvarmatches := hmatches hall
    obtain ⟨hfits, hrow⟩ := (hfront hvarmatches).mp hall
    exact ⟨hfits, hrow, hexisting.mp hvarmatches⟩
  · intro ⟨hfits, hrow, hall⟩
    exact (hfront (hexisting.mpr hall)).mpr ⟨hfits, hrow⟩

/-! ## Section 6: The GRIB2 driver -/

namespace GRIB2_Driver

theorem actual_strides_eq {es : List Nat} {ss : List Int} (hlength : ss.length = es.length)
    (hpos : ∀ e ∈ es, 0 < e) (hfits : es.prod < 2 ^ 63) :
    actual_strides es ss = .returned (resolve_strides es ss, (es.prod : Int)) := by
  induction es generalizing ss with
  | nil => simp [actual_strides, resolve_strides]
  | cons e es ih =>
    obtain ⟨s, ss, rfl⟩ := List.exists_cons_of_length_eq_add_one hlength
    rw [List.prod_cons] at hfits
    have he := hpos e List.mem_cons_self
    have hle : es.prod ≤ e * es.prod := Nat.le_mul_of_pos_left _ he
    rw [actual_strides, ih (by simpa using hlength)
      (fun e' he' => hpos e' (List.mem_cons_of_mem _ he')) (by omega), Outcome.returned_bind]
    have hnext : Fits 64 ((es.prod : Int) * e) := by
      rw [fits_64]
      have : ((e * es.prod : Nat) : Int) < 2 ^ 63 := by exact_mod_cast hfits
      push_cast at this
      have hnonneg : (0 : Int) ≤ es.prod * e := by positivity
      constructor
      · omega
      · rw [mul_comm]
        omega
    dsimp only
    rw [signed_of_fits hnext, Outcome.returned_bind, Outcome.pure_eq, resolve_strides, List.prod_cons]
    push_cast
    rw [mul_comm]

theorem check_strides_eq {es : List Nat} {ss : List Int} {result : Option Int}
    (hlength : ss.length = es.length) (hpos : ∀ e ∈ es, 0 < e)
    (h : check_strides es ss = .returned result) :
    ∀ expected, result = some expected → expected = es.prod ∧ resolve_strides es ss = strides es := by
  induction es generalizing ss result with
  | nil =>
    obtain rfl : ss = [] := List.length_eq_zero_iff.mp hlength
    cases h
    intro expected hexpected
    cases hexpected
    exact ⟨rfl, rfl⟩
  | cons e es ih =>
    obtain ⟨s, ss, rfl⟩ := List.exists_cons_of_length_eq_add_one hlength
    rw [check_strides] at h
    obtain ⟨tail, htail, h⟩ := Outcome.bind_eq_returned.mp h
    have ih := ih (by simpa using hlength) (fun e' he' => hpos e' (List.mem_cons_of_mem _ he')) htail
    intro expected hexpected
    subst hexpected
    cases tail with
    | none => cases h
    | some next =>
      obtain ⟨rfl, hrest⟩ := ih next rfl
      dsimp only at h
      split at h
      · cases h
      · next hs =>
        obtain ⟨product, hproduct, hsome⟩ := Outcome.bind_eq_returned.mp h
        cases hsome
        rw [resolve_strides, strides, hrest]
        constructor
        · rw [signed_eq_returned hproduct, List.prod_cons]
          push_cast
          ring
        · by_cases hzero : s = 0
          · simp [hzero]
          · have : s = es.prod := by
              by_contra hne
              exact hs ⟨hzero, hne⟩
            simp [this]

theorem resolve_zeros {es : List Nat} {ss : List Int} (hlength : ss.length = es.length)
    (hzero : ∀ s ∈ ss, s = 0) : resolve_strides es ss = strides es := by
  induction es generalizing ss with
  | nil => simp [resolve_strides, strides]
  | cons e es ih =>
    obtain ⟨s, ss, rfl⟩ := List.exists_cons_of_length_eq_add_one hlength
    rw [resolve_strides, strides, hzero s List.mem_cons_self, if_pos rfl,
      ih (by simpa using hlength) fun s' hs' => hzero s' (List.mem_cons_of_mem _ hs')]

/-- **The contiguity check**: when it says yes, the elements lie one after the
    other. -/
theorem resolve_of_contiguous {shape : AmioShape} (hshape : validate_shape shape = true)
    (h : is_contiguous_row_major shape = .returned true) :
    resolve_strides shape.sizes shape.steps = strides shape.sizes := by
  rw [is_contiguous_row_major] at h
  split at h
  · next hzero =>
    apply resolve_zeros (length_steps shape)
    intro s hs
    simpa using List.all_eq_true.mp hzero s hs
  · obtain ⟨result, hresult, hsome⟩ := Outcome.bind_eq_returned.mp h
    cases result with
    | none => cases hsome
    | some expected =>
      exact (check_strides_eq (length_steps shape) (sizes_pos hshape) hresult expected rfl).2

/-- The check ends when no product overflows. -/
theorem exists_contiguous {shape : AmioShape} (hshape : validate_shape shape = true)
    (hfits : shape.sizes.prod < 2 ^ 63) : ∃ b, is_contiguous_row_major shape = .returned b := by
  have hcheck : ∀ {es : List Nat} {ss : List Int}, ss.length = es.length → (∀ e ∈ es, 0 < e) →
      es.prod < 2 ^ 63 → ∃ result, check_strides es ss = .returned result ∧
        ∀ expected, result = some expected → expected = es.prod := by
    intro es
    induction es with
    | nil =>
      intro ss hlength _ _
      exact ⟨some 1, by simp [check_strides], by simp⟩
    | cons e es ih =>
      intro ss hlength hpos hprod
      obtain ⟨s, ss, rfl⟩ := List.exists_cons_of_length_eq_add_one hlength
      rw [List.prod_cons] at hprod ⊢
      have hle : es.prod ≤ e * es.prod := Nat.le_mul_of_pos_left _ (hpos e List.mem_cons_self)
      have hlength : ss.length = es.length := by simpa using hlength
      obtain ⟨tail, htail, hexpected⟩ := ih hlength
        (fun e' he' => hpos e' (List.mem_cons_of_mem _ he')) (by omega)
      rw [check_strides, htail, Outcome.returned_bind]
      cases tail with
      | none => exact ⟨none, rfl, by simp⟩
      | some next =>
        obtain rfl := hexpected next rfl
        dsimp only
        split
        · exact ⟨none, rfl, by simp⟩
        · have hnext : Fits 64 ((es.prod : Int) * e) := by
            rw [fits_64]
            have : ((e * es.prod : Nat) : Int) < 2 ^ 63 := by exact_mod_cast hprod
            push_cast at this
            have hnonneg : (0 : Int) ≤ es.prod * e := by positivity
            constructor
            · omega
            · rw [mul_comm]
              omega
          refine ⟨some (es.prod * e), by rw [signed_of_fits hnext]; rfl, ?_⟩
          intro expected heq
          cases heq
          push_cast
          ring
  rw [is_contiguous_row_major]
  split
  · exact ⟨true, rfl⟩
  · obtain ⟨result, hresult, -⟩ := hcheck (length_steps shape) (sizes_pos hshape) hfits
    exact ⟨result.isSome, by rw [hresult]; rfl⟩

theorem src_elem_offset_eq (i : List Nat) (ss : List Int) :
    (src_elem_offset i ss : Int) = offset i ss % 2 ^ 64 := by
  have hfold : ∀ (ps : List (Nat × Int)) (acc : Nat) (x : Int), (acc : Int) = x % 2 ^ 64 →
      ((ps.foldl (fun acc p => Word.add 64 acc (Word.mul 64 p.1 (p.2 % 2 ^ 64).toNat)) acc : Nat) :
        Int) = (x + (ps.map fun p => (p.1 : Int) * p.2).sum) % 2 ^ 64 := by
    intro ps
    induction ps with
    | nil => simp
    | cons p ps ih =>
      intro acc x hacc
      rw [List.foldl_cons, ih _ (x + p.1 * p.2), List.map_cons, List.sum_cons, add_assoc]
      rw [Word.add, Word.mul]
      push_cast
      rw [hacc, Int.toNat_of_nonneg (Int.emod_nonneg _ (by norm_num))]
      simp [Int.add_emod, Int.mul_emod]
  have h := hfold (List.zip i ss) 0 0 (by simp)
  rw [src_elem_offset, h, offset, List.zip, List.map_zipWith]
  simp

/-- What a write that is not rejected has gone through. -/
structure Written (src : List (BitVec 8)) (info : VarMeta) (h : Handed) : Prop where
  dtype : info.dtype = .F32
  /-- The values come from the slow path or from the fast one. -/
  fld : (is_contiguous_row_major info.shape = .returned false ∧
      pack_row_major src info.shape (element_size info.dtype) = .returned h.values) ∨
    (is_contiguous_row_major info.shape = .returned true ∧
      fetch_front src 4 (total_elements info.shape) = .returned h.values)
  room : total_elements info.shape * 4 ≤ max_size
  handed : h.dtype = info.dtype ∧ h.count = total_elements info.shape
  points : h.points = (grid info.shape).1 * (grid info.shape).2

theorem allocate_eq_returned {bytes : Nat} {u : Unit} (h : allocate bytes = .returned u) :
    bytes ≤ max_size := by
  rw [allocate] at h
  split at h
  · cases h
  · omega

theorem written_of_returned {drv : GRIB2_Driver} {src : List (BitVec 8)} {info : VarMeta}
    {h : Handed} (hwrite : drv.write src info = .returned h) : Written src info h := by
  unfold write at hwrite
  split at hwrite
  · cases hwrite
  · split at hwrite
    · cases hwrite
    · next hdtype =>
      dsimp only at hwrite
      split at hwrite
      · cases hwrite
      · obtain ⟨contiguous, hcontiguous, hwrite⟩ := Outcome.bind_eq_returned.mp hwrite
        obtain ⟨packed, hpacked, hwrite⟩ := Outcome.bind_eq_returned.mp hwrite
        obtain ⟨-, -, hwrite⟩ := Outcome.bind_eq_returned.mp hwrite
        split at hwrite
        · cases hwrite
        · obtain ⟨points, hpoints, hwrite⟩ := Outcome.bind_eq_returned.mp hwrite
          split at hwrite
          · cases hwrite
          · obtain ⟨_, hroom, hwrite⟩ := Outcome.bind_eq_returned.mp hwrite
            obtain ⟨fld, hfld, hwrite⟩ := Outcome.bind_eq_returned.mp hwrite
            split at hwrite
            · cases hwrite
            · cases hwrite
              refine ⟨by simpa using hdtype, ?_, allocate_eq_returned hroom, ⟨rfl, rfl⟩,
                signed_eq_returned hpoints⟩
              cases contiguous with
              | false =>
                obtain ⟨values, hvalues, hsome⟩ := Outcome.bind_eq_returned.mp hpacked
                cases hsome
                cases hfld
                exact .inl ⟨hcontiguous, hvalues⟩
              | true =>
                cases hpacked
                exact .inr ⟨hcontiguous, hfld⟩

/-- A write does not read past the payload or overflow when none of its parts
    does. -/
theorem write_ne_undefined {drv : GRIB2_Driver} {src : List (BitVec 8)} {info : VarMeta}
    (hcontiguous : is_contiguous_row_major info.shape ≠ .undefined)
    (hpack : pack_row_major src info.shape (element_size info.dtype) ≠ .undefined)
    (hpoints : Fits 64 ((grid info.shape).1 * (grid info.shape).2))
    (hfront : fetch_front src 4 (total_elements info.shape) ≠ .undefined) :
    drv.write src info ≠ .undefined := by
  have hallocate : ∀ bytes, allocate bytes ≠ .undefined := by
    intro bytes
    rw [allocate]
    split <;> simp
  have hbind : ∀ {α β : Type} {x : Outcome String α} {f : α → Outcome String β},
      x ≠ .undefined → (∀ a, x = .returned a → f a ≠ .undefined) → (x >>= f) ≠ .undefined := by
    intro α β x f hx hf
    cases x with
    | returned a => exact hf a rfl
    | thrown e => simp
    | undefined => exact absurd rfl hx
  unfold write
  split
  · simp
  · split
    · simp
    · dsimp only
      split
      · simp
      · apply hbind hcontiguous
        intro contiguous _
        apply hbind
        · cases contiguous with
          | false => exact hbind hpack fun _ _ => by simp
          | true => simp [packed_buffer]
        · intro packed _
          apply hbind (hallocate _)
          intro _ _
          split
          · simp
          · rw [signed_of_fits hpoints, Outcome.returned_bind]
            split
            · simp
            · apply hbind (hallocate _)
              intro _ _
              apply hbind
              · cases packed with
                | some values => simp [copy_field]
                | none => exact hfront
              · intro fld _
                cases drv.failure <;> simp

theorem total_elements_eq {shape : AmioShape} (hshape : validate_shape shape = true) :
    total_elements shape = shape.sizes.prod % 2 ^ 64 := by
  rw [total_elements, if_pos hshape, compute_element_count_eq]

theorem grid_points {shape : AmioShape} (hshape : validate_shape shape = true)
    (hfits : shape.sizes.prod < 2 ^ 63) :
    (grid shape).1 * (grid shape).2 = ((shape.sizes.reverse.take 2).prod : Nat) := by
  rw [grid]
  split
  · next ni nj rest hrev => simp [hrev]
  · next hrev =>
    have hprod : shape.sizes.prod = shape.sizes.reverse.prod := (List.prod_reverse _).symm
    rw [total_elements_eq hshape, Nat.mod_eq_of_lt (by omega)]
    have hmod : ∀ n : Nat, n < 2 ^ 63 → (n : Int).bmod (2 ^ 64) = n := by
      intro n hn
      apply Int.bmod_eq_of_le
      · norm_num
      · norm_num
        omega
    rw [hmod _ hfits, mul_one, hprod]
    rcases hlist : shape.sizes.reverse with _ | ⟨ni, _ | ⟨nj, rest⟩⟩
    · rfl
    · rfl
    · exact absurd hlist (hrev ni nj rest)

theorem fetch_strided {host : HostMemory} {n : Nat} {i : List Nat} {ss : List Int}
    (hfits : n * 4 < 2 ^ 64) (hlow : 0 ≤ offset i ss) (hhigh : offset i ss < n) :
    fetch (snapshot host (n * 4)) (Word.mul 64 (src_elem_offset i ss) 4) 4 =
      .returned (element 4 host (offset i ss)) := by
  obtain ⟨k, hk⟩ := Int.eq_ofNat_of_zero_le hlow
  have hoffset : src_elem_offset i ss = k := by
    have h := src_elem_offset_eq i ss
    rw [hk] at h hhigh
    norm_num at h hhigh
    omega
  rw [hk] at hhigh ⊢
  have hlt : k < n := by exact_mod_cast hhigh
  rw [hoffset, Word.mul, Nat.mod_eq_of_lt (by omega)]
  exact fetch_snapshot (by omega)

theorem bounds_of_fetch {n : Nat} {i : List Nat} {ss : List Int}
    (h : ∀ host, fetch (snapshot host (n * 4)) (Word.mul 64 (src_elem_offset i ss) 4) 4 =
      .returned (element 4 host (offset i ss))) :
    0 ≤ offset i ss ∧ offset i ss < n := by
  -- the byte that is read first is that of some element
  obtain ⟨k, hk⟩ : ∃ k, Word.mul 64 (src_elem_offset i ss) 4 = k * 4 := by
    refine ⟨Word.mul 64 (src_elem_offset i ss) 4 / 4, ?_⟩
    rw [Word.mul]
    omega
  have hle : k * 4 + 4 ≤ n * 4 := by
    have := fetch_eq_returned (h fun _ => 0)
    rw [hk, length_snapshot] at this
    exact this
  have heq : (k : Int) = offset i ss := by
    apply element_injective (by norm_num : 0 < 4)
    intro host
    have hhost := h host
    rw [hk, fetch_snapshot hle] at hhost
    injection hhost
  rw [← heq]
  constructor
  · positivity
  · exact_mod_cast (by omega : k < n)

theorem pack_row_major_eq {shape : AmioShape} (hshape : validate_shape shape = true)
    (hfits : shape.sizes.prod * 4 < 2 ^ 64) (src : List (BitVec 8)) :
    pack_row_major src shape 4 = (do
      allocate (shape.sizes.prod * 4)
      (indices shape.sizes).mapM fun i =>
        fetch src (Word.mul 64 (src_elem_offset i (resolve_strides shape.sizes shape.steps)) 4) 4) := by
  have htotal : total_elements shape = shape.sizes.prod := by
    rw [total_elements_eq hshape, Nat.mod_eq_of_lt (by omega)]
  have hmul : Word.mul 64 shape.sizes.prod 4 = shape.sizes.prod * 4 := Nat.mod_eq_of_lt hfits
  have hstrides := actual_strides_eq (length_steps shape) (sizes_pos hshape) (by omega)
  rw [pack_row_major]
  simp only [htotal, hmul, hstrides, Outcome.returned_bind, Nat.lt_irrefl, if_false,
    walk_zeros (sizes_pos hshape)]

theorem pack_row_major_faithful {shape : AmioShape} (hshape : validate_shape shape = true)
    (hfits : shape.sizes.prod * 4 < 2 ^ 64) (hwithin : WithinPayload shape) (host : HostMemory) :
    pack_row_major (snapshot host (shape.sizes.prod * 4)) shape 4 = (do
      allocate (shape.sizes.prod * 4)
      return (indices shape.sizes).map fun i =>
        element 4 host (offset i (resolve_strides shape.sizes shape.steps))) := by
  have hbounds := (forward_iff (length_resolve_strides (length_steps shape)) (sizes_pos hshape)).mp hwithin
  rw [pack_row_major_eq hshape hfits]
  apply congrArg
  funext _
  rw [Outcome.pure_eq, Outcome.mapM_eq_returned, List.forall₂_map_right_iff]
  apply List.forall₂_same.mpr
  intro i hi
  exact fetch_strided hfits (hbounds i hi).1 (hbounds i hi).2

theorem withinPayload_of_strides {shape : AmioShape} (hshape : validate_shape shape = true)
    (h : resolve_strides shape.sizes shape.steps = strides shape.sizes) : WithinPayload shape := by
  rw [WithinPayload, h, forward_iff (length_strides _) (sizes_pos hshape)]
  intro i hi
  rw [indices_eq_map_unrank] at hi
  obtain ⟨k, hk, rfl⟩ := List.mem_map.mp hi
  have hk := List.mem_range.mp hk
  rw [offset_unrank hk]
  constructor
  · positivity
  · exact_mod_cast hk

theorem contiguous_of_strides {shape : AmioShape} (hshape : validate_shape shape = true)
    (h : resolve_strides shape.sizes shape.steps = strides shape.sizes) : RowMajorShape shape := by
  rw [RowMajorShape, h, contiguous_iff (length_strides _) (sizes_pos hshape)]
  intro i _
  rfl

end GRIB2_Driver

/-- The GRIB2 driver. -/
theorem grib2_iff (drv : GRIB2_Driver) {req : WriteRequest}
    (hshape : validate_shape req.shape = true)
    (hpayload : req.payload_bytes = req.shape.sizes.prod * element_size req.dtype % 2 ^ 64)
    (haccepts : Accepts (.grib2 drv) req) :
    WritesFaithfully (.grib2 drv) req ↔
      req.shape.sizes.prod * element_size req.dtype < 2 ^ 64 ∧ WithinPayload req.shape ∧
        (req.shape.sizes.reverse.take 2).prod = req.shape.sizes.prod := by
  have hlength := length_resolve_strides (length_steps req.shape)
  have hpos := sizes_pos hshape
  constructor
  · intro hall
    obtain ⟨h₀, hret₀, hfaithful₀⟩ := hall fun _ => 0
    have hwritten₀ := GRIB2_Driver.written_of_returned hret₀
    have hdtype : element_size req.dtype = 4 := congrArg element_size hwritten₀.dtype
    -- the count shows that nothing has wrapped around
    have htotal : GRIB2_Driver.total_elements req.shape = req.shape.sizes.prod := by
      have hcount := hfaithful₀.count
      rw [hwritten₀.handed.2] at hcount
      exact_mod_cast hcount
    have hfits : req.shape.sizes.prod * 4 < 2 ^ 64 := by
      have hroom : GRIB2_Driver.total_elements req.shape * 4 ≤ 2 ^ 63 - 1 := hwritten₀.room
      rw [htotal] at hroom
      omega
    rw [hdtype, Nat.mod_eq_of_lt hfits] at hpayload
    refine ⟨hdtype ▸ hfits, ?_, ?_⟩
    · cases hcontiguous : GRIB2_Driver.is_contiguous_row_major req.shape with
      | undefined | thrown e =>
        rcases hwritten₀.fld with ⟨hb, -⟩ | ⟨hb, -⟩
        · exact absurd (hcontiguous.symm.trans hb) (by simp)
        · exact absurd (hcontiguous.symm.trans hb) (by simp)
      | returned contiguous =>
        cases contiguous with
        | true =>
          exact GRIB2_Driver.withinPayload_of_strides hshape
            (GRIB2_Driver.resolve_of_contiguous hshape hcontiguous)
        | false =>
          rw [WithinPayload, forward_iff hlength hpos]
          intro i hi
          apply GRIB2_Driver.bounds_of_fetch
          intro host
          obtain ⟨h, hret, hfaithful⟩ := hall host
          have hwritten := GRIB2_Driver.written_of_returned hret
          have hpack : GRIB2_Driver.pack_row_major (snapshot host (req.shape.sizes.prod * 4))
              req.shape 4 = .returned h.values := by
            rcases hwritten.fld with ⟨-, hvalues⟩ | ⟨hb, -⟩
            · rw [hpayload] at hvalues
              exact hdtype ▸ hvalues
            · exact absurd (hcontiguous.symm.trans hb) (by simp)
          rw [GRIB2_Driver.pack_row_major_eq hshape hfits, hfaithful.values, hdtype] at hpack
          obtain ⟨-, -, hmap⟩ := Outcome.bind_eq_returned.mp hpack
          rw [Outcome.mapM_eq_returned, List.forall₂_map_right_iff] at hmap
          exact List.forall₂_same.mp hmap i hi
    · have hpoints := hfaithful₀.points
      rw [hwritten₀.points] at hpoints
      have hgrid := GRIB2_Driver.grid_points hshape (by omega)
      exact_mod_cast hgrid.symm.trans hpoints
  · intro ⟨hfits, hwithin, hgrid⟩ host
    have hdtype : req.dtype = .F32 := by
      by_contra hne
      have hno := haccepts host
      simp only [Driver.write, GRIB2_Driver.write] at hno
      split at hno
      · exact hno _ rfl
      · rw [if_pos (show req.info.dtype ≠ .F32 from hne)] at hno
        exact hno _ rfl
    have hsize : element_size req.dtype = 4 := congrArg element_size hdtype
    rw [hsize] at hfits
    rw [hsize, Nat.mod_eq_of_lt hfits] at hpayload
    have htotal : GRIB2_Driver.total_elements req.shape = req.shape.sizes.prod := by
      rw [GRIB2_Driver.total_elements_eq hshape, Nat.mod_eq_of_lt (by omega)]
    obtain ⟨contiguous, hcontiguous⟩ := GRIB2_Driver.exists_contiguous hshape (by omega)
    have hpoints := GRIB2_Driver.grid_points hshape (by omega)
    have hpack := GRIB2_Driver.pack_row_major_faithful hshape hfits hwithin host
    have hfront := @fetch_front_snapshot host 4 _ req.shape.sizes.prod le_rfl
    have hdefined : (Driver.grib2 drv).write (snapshot host req.payload_bytes) req.info ≠
        .undefined := by
      apply GRIB2_Driver.write_ne_undefined
      · rw [show req.info.shape = req.shape from rfl, hcontiguous]
        simp
      · show GRIB2_Driver.pack_row_major _ req.shape (element_size req.dtype) ≠ .undefined
        rw [hsize, hpayload, hpack, GRIB2_Driver.allocate]
        split <;> simp
      · show Fits 64 ((GRIB2_Driver.grid req.shape).1 * (GRIB2_Driver.grid req.shape).2)
        rw [hpoints, hgrid, fits_64]
        constructor
        · omega
        · omega
      · show fetch_front _ 4 (GRIB2_Driver.total_elements req.shape) ≠ .undefined
        rw [htotal, hpayload, hfront]
        simp
    cases hret : (Driver.grib2 drv).write (snapshot host req.payload_bytes) req.info with
    | undefined => exact absurd hret hdefined
    | thrown e => exact absurd hret (haccepts host e)
    | returned h =>
      refine ⟨h, rfl, ?_⟩
      have hwritten := GRIB2_Driver.written_of_returned hret
      have hvalues : h.values = (indices req.shape.sizes).map fun i =>
          element 4 host (offset i (resolve_strides req.shape.sizes req.shape.steps)) := by
        rcases hwritten.fld with ⟨-, hslow⟩ | ⟨hb, hfast⟩
        · rw [hpayload] at hslow
          change GRIB2_Driver.pack_row_major _ req.shape (element_size req.dtype) = _ at hslow
          rw [hsize, hpack] at hslow
          obtain ⟨-, -, hmap⟩ := Outcome.bind_eq_returned.mp hslow
          injection hmap with hmap
          exact hmap.symm
        · change fetch_front _ 4 (GRIB2_Driver.total_elements req.shape) = _ at hfast
          rw [htotal, hpayload, hfront] at hfast
          injection hfast with hfast
          have hrow := GRIB2_Driver.contiguous_of_strides hshape
            (GRIB2_Driver.resolve_of_contiguous hshape hb)
          have hfaithful := (rowMajor_iff hshape (by omega)).mp hrow host
          rw [hsize] at hfaithful
          rw [← hfast, hfaithful]
      exact { dtype := hwritten.handed.1
              values := hsize ▸ hvalues
              length := by rw [hvalues, List.length_map, length_indices]
              count := by
                rw [hwritten.handed.2]
                exact_mod_cast htotal
              points := by
                rw [hwritten.points]
                exact hpoints.trans (congrArg Nat.cast hgrid) }

/-! ### What the driver accepts -/

/-- A part of the code that has no `throw`. -/
def NoThrow {α : Type} (x : Outcome String α) : Prop := ∀ e, x ≠ .thrown e

namespace NoThrow

variable {α β : Type}

theorem returned (a : α) : NoThrow (.returned a) := fun _ h => by cases h

theorem bind {x : Outcome String α} {f : α → Outcome String β} (hx : NoThrow x)
    (hf : ∀ a, NoThrow (f a)) : NoThrow (x >>= f) := by
  cases x with
  | returned a => exact hf a
  | thrown e => exact absurd rfl (hx e)
  | undefined =>
    intro e h
    cases h

theorem signed (w : Nat) (x : Int) : NoThrow (Signed.signed w x) := by
  intro e h
  unfold Signed.signed at h
  split at h <;> cases h

theorem fetch (src : List (BitVec 8)) (pos size : Nat) : NoThrow (fetch src pos size) := by
  intro e h
  unfold Amio.fetch at h
  split at h <;> cases h

theorem mapM {f : α → Outcome String β} (hf : ∀ a, NoThrow (f a)) (as : List α) :
    NoThrow (as.mapM f) := by
  induction as with
  | nil => exact returned []
  | cons a as ih =>
    rw [List.mapM_cons]
    exact (hf a).bind fun b => ih.bind fun bs => returned _

theorem allocate {bytes : Nat} (h : bytes ≤ GRIB2_Driver.max_size) :
    NoThrow (GRIB2_Driver.allocate bytes) := by
  rw [GRIB2_Driver.allocate, if_neg (by omega)]
  exact returned ()

theorem check_strides (es : List Nat) (ss : List Int) :
    NoThrow (GRIB2_Driver.check_strides es ss) := by
  induction es generalizing ss with
  | nil => exact returned _
  | cons e es ih =>
    cases ss with
    | nil => exact returned _
    | cons s ss =>
      rw [GRIB2_Driver.check_strides]
      apply (ih ss).bind
      intro tail
      cases tail with
      | none => exact returned _
      | some expected =>
        dsimp only
        split
        · exact returned _
        · exact (signed _ _).bind fun _ => returned _

theorem actual_strides (es : List Nat) (ss : List Int) :
    NoThrow (GRIB2_Driver.actual_strides es ss) := by
  induction es generalizing ss with
  | nil => exact returned _
  | cons e es ih =>
    cases ss with
    | nil => exact returned _
    | cons s ss =>
      rw [GRIB2_Driver.actual_strides]
      exact (ih ss).bind fun _ => (signed _ _).bind fun _ => returned _

end NoThrow

/-- The GRIB2 driver accepts every field of floats that is not too large for
    its buffers. -/
theorem grib2_accepts {drv : GRIB2_Driver} {req : WriteRequest} (hinit : drv.initialized = true)
    (hgdt : drv.settings.gdt_number = 0 ∨ drv.settings.gdt_number = 40)
    (hpdt : drv.settings.pdt_number ∈ [0, 8, 40, 44, 45, 46, 48, 49])
    (hfailure : drv.failure = none) (hdtype : req.dtype = .F32)
    (hpos : GRIB2_Driver.total_elements req.shape ≠ 0)
    (hsmall : GRIB2_Driver.total_elements req.shape < 2 ^ 60) : Accepts (.grib2 drv) req := by
  have hsize : element_size req.dtype = 4 := congrArg element_size hdtype
  have hmul : Word.mul 64 (GRIB2_Driver.total_elements req.shape) 4 =
      GRIB2_Driver.total_elements req.shape * 4 := Nat.mod_eq_of_lt (by omega)
  have hmax : GRIB2_Driver.max_size = 2 ^ 63 - 1 := rfl
  intro host
  show NoThrow (drv.write _ req.info)
  rw [GRIB2_Driver.write, if_neg (by simp [hinit]), if_neg (by simpa [WriteRequest.info] using hdtype)]
  dsimp only [WriteRequest.info]
  rw [if_neg (by simpa [hsize] using hpos)]
  have hcontiguous : NoThrow (GRIB2_Driver.is_contiguous_row_major req.shape) := by
    rw [GRIB2_Driver.is_contiguous_row_major]
    split
    · exact .returned _
    · exact (NoThrow.check_strides _ _).bind fun _ => .returned _
  refine hcontiguous.bind fun contiguous => NoThrow.bind ?_ fun packed => ?_
  · cases contiguous with
    | true => exact .returned _
    | false =>
      refine NoThrow.bind ?_ fun _ => .returned _
      rw [GRIB2_Driver.pack_row_major, hsize, hmul]
      refine (NoThrow.allocate (by omega)).bind fun _ => (NoThrow.actual_strides _ _).bind fun _ => ?_
      dsimp only
      rw [if_neg (by omega)]
      exact NoThrow.mapM (fun _ => .fetch _ _ _) _
  · refine NoThrow.bind (.allocate ?_) fun _ => ?_
    · rw [hmul, Word.add, Word.add, Nat.mod_add_mod, Nat.mod_eq_of_lt (by omega)]
      omega
    · rw [if_neg (by omega)]
      refine (NoThrow.signed _ _).bind fun points => ?_
      rw [if_neg (not_not_intro hpdt)]
      refine (NoThrow.allocate (by omega)).bind fun _ => NoThrow.bind ?_ fun fld => ?_
      · cases packed with
        | some values => exact .returned _
        | none => exact NoThrow.mapM (fun _ => .fetch _ _ _) _
      · rw [hfailure]
        exact .returned _

/-! ## Section 7: What the drivers write -/

/-- **Writing through the drivers.** A driver that does not reject a write hands
    over every host array, and reads nothing past the payload, just when the
    size of the payload has not wrapped around and

    - for NetCDF and Zarr, the strides are the row-major ones; a netCDF
      variable that exists has the type and the axes of the request;
    - for GRIB2, the strides stay within the payload, and all the elements are
      in the last two axes. -/
theorem write_faithful_iff (driver : Driver) {args : WriteArgs} {req : WriteRequest}
    (hreq : validate_write args = .ok req) (haccepts : Accepts driver req) :
    WritesFaithfully driver req ↔
      req.shape.sizes.prod * element_size req.dtype < 2 ^ 64 ∧ driver.Fits req := by
  obtain ⟨hshape, hsize, hpayload⟩ := validate_write_ok hreq
  cases driver with
  | netcdf drv => exact netcdf_iff drv hshape hsize hpayload haccepts
  | zarr drv => exact zarr_iff drv hshape hsize hpayload haccepts
  | grib2 drv => exact grib2_iff drv hshape hpayload haccepts

/-! ### Small arrays -/

/-- The arguments of a call with these extents and strides. -/
def small_args (dtype : Dtype) (sizes : List Nat) (steps : List Int) : WriteArgs where
  dataset_id := 1
  var_name := some [118#8]
  host_data := some []
  dtype := dtype
  shape := some ⟨sizes.length, fun d => (sizes.getD d 0 : Nat), fun d => steps.getD d 0⟩

def small_request (dtype : Dtype) (sizes : List Nat) (steps : List Int) : WriteRequest where
  dataset_id := 1
  var_name := [118#8]
  host_data := []
  dtype := dtype
  shape := ⟨sizes.length, fun d => (sizes.getD d 0 : Nat), fun d => steps.getD d 0⟩
  payload_bytes := sizes.prod * element_size dtype

def open_zarr : Zarr_Driver := { is_open := true, is_write_mode := true, failure := none }

def open_grib2 : GRIB2_Driver := { initialized := true, settings := ⟨0, 0⟩, failure := none }

theorem small_accepts (sizes : List Nat) (steps : List Int)
    (hpos : GRIB2_Driver.total_elements (small_request .F32 sizes steps).shape ≠ 0)
    (hsmall : GRIB2_Driver.total_elements (small_request .F32 sizes steps).shape < 2 ^ 60) :
    Accepts (.grib2 open_grib2) (small_request .F32 sizes steps) :=
  grib2_accepts rfl (.inl rfl) (by decide) rfl rfl hpos hsmall

theorem write_faithful_column_major :
    validate_write (small_args .F32 [2, 2] [1, 2]) = .ok (small_request .F32 [2, 2] [1, 2]) ∧
      Accepts (.grib2 open_grib2) (small_request .F32 [2, 2] [1, 2]) ∧
      WritesFaithfully (.grib2 open_grib2) (small_request .F32 [2, 2] [1, 2]) := by
  have hreq : validate_write (small_args .F32 [2, 2] [1, 2]) =
      .ok (small_request .F32 [2, 2] [1, 2]) := rfl
  have haccepts : Accepts (.grib2 open_grib2) (small_request .F32 [2, 2] [1, 2]) :=
    small_accepts _ _ (by decide +kernel) (by decide +kernel)
  refine ⟨hreq, haccepts, (write_faithful_iff (.grib2 open_grib2) hreq haccepts).mpr ?_⟩
  refine ⟨by decide +kernel, ?_⟩
  show WithinPayload _ ∧ _
  unfold WithinPayload
  decide +kernel

theorem write_unfaithful :
    (∃ args req, validate_write args = .ok req ∧ Accepts (.zarr open_zarr) req ∧
      ¬ WritesFaithfully (.zarr open_zarr) req) ∧
    ∃ args req, validate_write args = .ok req ∧ Accepts (.grib2 open_grib2) req ∧
      ¬ WritesFaithfully (.grib2 open_grib2) req := by
  constructor
  · -- the columns of a matrix, one after the other
    have hreq : validate_write (small_args .U8 [2, 2] [1, 2]) =
        .ok (small_request .U8 [2, 2] [1, 2]) := rfl
    have haccepts : Accepts (.zarr open_zarr) (small_request .U8 [2, 2] [1, 2]) := by
      intro host e h
      cases h
    refine ⟨_, _, hreq, haccepts, fun hall => ?_⟩
    obtain ⟨hshape, hsize, hpayload⟩ := validate_write_ok hreq
    have hrow := ((zarr_iff open_zarr hshape hsize hpayload haccepts).mp hall).2
    unfold RowMajorShape at hrow
    revert hrow
    decide +kernel
  · -- two levels of one point
    have hreq : validate_write (small_args .F32 [2, 1, 1] []) =
        .ok (small_request .F32 [2, 1, 1] []) := rfl
    have haccepts : Accepts (.grib2 open_grib2) (small_request .F32 [2, 1, 1] []) :=
      small_accepts _ _ (by decide +kernel) (by decide +kernel)
    refine ⟨_, _, hreq, haccepts, fun hall => ?_⟩
    obtain ⟨hshape, -, hpayload⟩ := validate_write_ok hreq
    have hgrid := ((grib2_iff open_grib2 hshape hpayload haccepts).mp hall).2.2
    revert hgrid
    decide +kernel

end Amio

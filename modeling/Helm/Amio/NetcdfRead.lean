import Helm.Amio.ReadSelection

/-! # Reading through the NetCDF driver

  `describe_variable` and `read` of `drivers/netcdf/netcdf_driver.cpp`.

  The description of a variable decides whether its leading axis is time: the
  axis is a record dimension, has one of the usual names, or has a coordinate
  variable with the CF attributes of time. The axis is then not part of the
  shape that is reported. `read` does not look at names or attributes; it
  compares the rank of the variable with that of the reported shape.

  `nc_get_vara` and `nc_get_vars` are functions of the library; `Documented`
  is what their documentation says.
-/

namespace Amio

open RowMajor Signed
open Boundary (validate_bbox)

/-! ## Section 1: Files -/

/-- `nc_type` -/
inductive NcType
  | byte | char | short | int | float | double | ubyte | ushort | uint | int64 | uint64 | string
  /-- A type that the user has defined. -/
  | user (id : Nat)
  deriving DecidableEq

/-- `nc_type_to_dtype` -/
def nc_type_to_dtype : NcType → Option Dtype
  | .float => some .F32
  | .double => some .F64
  | .byte => some .I8
  | .short => some .I16
  | .int => some .I32
  | .int64 => some .I64
  | .ubyte => some .U8
  | .ushort => some .U16
  | .uint => some .U32
  | .uint64 => some .U64
  | _ => none

structure NcDim where
  name : List (BitVec 8)
  /-- The length, a `std::size_t`. -/
  length : Nat
  length_lt : length < 2 ^ 64

structure NcVar where
  name : List (BitVec 8)
  nc_type : NcType
  dimids : List Nat
  /-- The text attributes that are not empty. -/
  att_text : List (BitVec 8) → Option (List (BitVec 8))
  /-- The bytes of each element. -/
  data : List Nat → List (BitVec 8)

structure NcFile where
  dims : List NcDim
  /-- The record dimensions. -/
  unlimited : List Nat
  vars : List NcVar

namespace NcFile

/-- `nc_inq_varid` -/
def find (file : NcFile) (name : List (BitVec 8)) : Option NcVar :=
  file.vars.find? (·.name = name)

/-- The lengths of the dimensions of a variable. -/
def extents (file : NcFile) (var : NcVar) : Option (List Nat) :=
  var.dimids.mapM fun id => (file.dims[id]?).map (·.length)

end NcFile

/-- The bytes of a literal. -/
def text (s : String) : List (BitVec 8) := s.toList.map fun c => BitVec.ofNat 8 c.toNat

/-- `std::tolower` -/
def tolower (c : BitVec 8) : BitVec 8 := if 65 ≤ c.toNat ∧ c.toNat ≤ 90 then c + 32 else c

namespace NcFile

/-- `att_equals`; the value ends at the first NUL -/
def att_equals (coord : NcVar) (att expected : List (BitVec 8)) : Bool :=
  match coord.att_text att with
  | some val => (val.takeWhile (· ≠ 0)).map tolower = expected
  | none => false

/-- `att_contains` -/
def att_contains (coord : NcVar) (att needle : List (BitVec 8)) : Bool :=
  match coord.att_text att with
  | some val => needle <:+: val.map tolower
  | none => false

/-- `is_cf_time_dim` -/
def is_cf_time_dim (file : NcFile) (dimid : Nat) : Bool :=
  match file.dims[dimid]? with
  | none => false
  | some dim =>
    let lower := dim.name.map tolower
    if lower ∈ [text "time", text "t", text "valid_time", text "forecast_time", text "record",
        text "hour_index"] then true
    else
      match file.find dim.name with
      | none => false
      | some coord =>
        att_equals coord (text "axis") (text "t") ||
          att_equals coord (text "standard_name") (text "time") ||
          att_contains coord (text "units") (text "since")

/-- `is_time_axis` -/
def is_time_axis (file : NcFile) (dimid : Nat) : Bool :=
  file.unlimited.contains dimid || file.is_cf_time_dim dimid

end NcFile

/-! ## Section 2: The library -/

/-- The functions of netCDF that read values. -/
structure NetCDF_Library where
  nc_get_vara : NcFile → NcVar → (start count : List Nat) → Except String (List (List (BitVec 8)))
  nc_get_vars : NcFile → NcVar → (start count stride : List Nat) →
    Except String (List (List (BitVec 8)))

/-- **What the documentation says**: a selection that lies inside the variable
    is delivered in row-major order. -/
structure NetCDF_Library.Documented (lib : NetCDF_Library) : Prop where
  vara : ∀ {file : NcFile} {var : NcVar} {es start count : List Nat},
    file.extents var = some es →
    Region.Inside es ⟨start, count, List.replicate es.length 1⟩ →
    lib.nc_get_vara file var start count = .ok
      ((Region.elements ⟨start, count, List.replicate es.length 1⟩).map var.data)
  vars : ∀ {file : NcFile} {var : NcVar} {es start count stride : List Nat},
    file.extents var = some es → Region.Inside es ⟨start, count, stride⟩ → (∀ s ∈ stride, 0 < s) →
    lib.nc_get_vars file var start count stride = .ok
      ((Region.elements ⟨start, count, stride⟩).map var.data)

/-- A library that delivers what lies inside the variable, and nothing else. -/
def NetCDF_Library.exact : NetCDF_Library where
  nc_get_vara file var start count :=
    match file.extents var with
    | none => .error "NetCDF: Invalid dimension ID or name"
    | some es =>
      let r : Region := ⟨start, count, List.replicate es.length 1⟩
      if r.Inside es then .ok (r.elements.map var.data)
      else .error "NetCDF: Start+count exceeds dimension bound"
  nc_get_vars file var start count stride :=
    match file.extents var with
    | none => .error "NetCDF: Invalid dimension ID or name"
    | some es =>
      let r : Region := ⟨start, count, stride⟩
      if r.Inside es then .ok (r.elements.map var.data)
      else .error "NetCDF: Start+count exceeds dimension bound"

theorem NetCDF_Library.exact_documented : NetCDF_Library.exact.Documented where
  vara hes hinside := by
    simp only [NetCDF_Library.exact, hes]
    exact if_pos hinside
  vars hes hinside _ := by
    simp only [NetCDF_Library.exact, hes]
    exact if_pos hinside

/-! ## Section 3: The driver -/

/-- A `NetCDF_Driver` with a file. -/
structure NetCDF_Reader where
  is_open : Bool
  is_write_mode : Bool
  file : NcFile

/-- What a read leaves behind: the selection that the library was asked for,
    the elements in the buffer, and `used_bytes`. -/
structure Fetched where
  region : Region
  elements : List (List (BitVec 8))
  used_bytes : Nat

namespace NetCDF_Reader

/-- `describe_variable`; `none` is `found = false` -/
def describe_variable (drv : NetCDF_Reader) (name : List (BitVec 8)) : Option Boundary.VariableInfo := do
  guard (drv.is_open ∧ drv.is_write_mode = false)
  let var ← drv.file.find name
  let dtype ← nc_type_to_dtype var.nc_type
  let ndims := var.dimids.length
  guard (1 ≤ ndims ∧ ndims ≤ kMaxRank)
  let extents ← drv.file.extents var
  let lead ← var.dimids.head?
  let along := if drv.file.is_time_axis lead then (int64_cast (extents.getD 0 0), 1) else (1, 0)
  -- a variable that is nothing but its time axis is described whole
  let (total_timesteps, shape_start) := if ndims - along.2 < 1 then (1, 0) else along
  return {
    dtype
    shape := {
      rank := ndims - shape_start
      extents := fun d =>
        if d.val < ndims - shape_start then int64_cast (extents.getD (d.val + shape_start) 0) else 0
      strides := fun _ => 0 }
    total_timesteps := if total_timesteps > 0 then total_timesteps else 1 }

/-- Assignments to consecutive entries of a vector; undefined past its end. -/
def put (xs : List Nat) (pos : Nat) (values : List Nat) : Outcome String (List Nat) :=
  if pos + values.length ≤ xs.length then
    .returned (xs.take pos ++ values ++ xs.drop (pos + values.length))
  else .undefined

/-- `start`, `count` and `strides` of `read` -/
def arrays (ndims : Nat) (is_time_varying : Bool) (shape : AmioShape) (timestep : Int)
    (bbox : Option BoundingBox) : Outcome String Region := do
  let lead := if is_time_varying then [(size_cast timestep, 1)] else []
  let start ← put (List.replicate ndims 0) 0 (lead.map (·.1))
  let count ← put (List.replicate ndims 0) 0 (lead.map (·.2))
  match bbox with
  | some box => do
    let start ← put start lead.length box.region.start
    let count ← put count lead.length box.region.count
    let strides ← put (List.replicate ndims 1) lead.length
      (box.dims.map fun d => if box.strides d > 1 then size_cast (box.strides d) else 1)
    return ⟨start, count, strides⟩
  | none => do
    let start ← put start lead.length (shape.lengths.map fun _ => 0)
    let count ← put count lead.length shape.lengths
    return ⟨start, count, List.replicate ndims 1⟩

/-- `total_elems`: the product of the counts of the axes of the shape -/
def total_elems (is_time_varying : Bool) (shape : AmioShape) (count : List Nat) :
    Outcome String Nat :=
  let offset := if is_time_varying then 1 else 0
  if offset + shape.dims.length ≤ count.length then
    .returned (((count.drop offset).take shape.dims.length).foldl (Word.mul 64) 1)
  else .undefined

/-- `dtype_byte_size` -/
def dtype_byte_size (dtype : Dtype) : Outcome String Nat :=
  match dtype with
  | .unknown tag => .thrown ("NetCDF_Driver: unsupported dtype " ++ toString tag)
  | dtype => .returned (element_size dtype)

/-- `NetCDF_Driver::read`, into a buffer of `capacity_bytes` -/
def read (drv : NetCDF_Reader) (lib : NetCDF_Library) (info : VarMeta) (timestep : Int)
    (bbox : Option BoundingBox) (capacity_bytes : Nat) : Outcome String Fetched :=
  if drv.is_open = false ∨ drv.is_write_mode then
    .thrown "NetCDF_Driver::read: driver not open for reading"
  else
    match drv.file.find info.name with
    | none => .thrown "NetCDF error in nc_inq_varid for read"
    | some var => do
      let ndims := var.dimids.length
      let is_time_varying : Bool := (ndims : Int) = info.shape.rank + 1
      let region ← arrays ndims is_time_varying info.shape timestep bbox
      let elem_size ← dtype_byte_size info.dtype
      let total_elems ← total_elems is_time_varying info.shape region.count
      let total_bytes := Word.mul 64 total_elems elem_size
      if total_bytes > capacity_bytes then
        .thrown ("NetCDF_Driver::read: required " ++ toString total_bytes ++
          " bytes but buffer capacity is " ++ toString capacity_bytes)
      else
        let has_strides : Bool := bbox.any fun box => box.dims.any fun d => box.strides d > 1
        let values :=
          if has_strides then lib.nc_get_vars drv.file var region.start region.count region.stride
          else lib.nc_get_vara drv.file var region.start region.count
        match values with
        | .error e => .thrown e
        | .ok elements => .returned ⟨region, elements, total_bytes⟩

/-- Is the leading axis reported as time? -/
def reports_time (drv : NetCDF_Reader) (var : NcVar) : Bool :=
  2 ≤ var.dimids.length ∧ ∀ lead ∈ var.dimids.head?, drv.file.is_time_axis lead

/-- The element of the variable that is element `i` of the record of timestep
    `t`. -/
def element_at (drv : NetCDF_Reader) (var : NcVar) (t : Int) (i : List Nat) : List Nat :=
  if drv.reports_time var then t.toNat :: i else i

/-! ## Section 4: The arrays of a read -/

theorem put_rest {a b values : List Nat} (h : values.length = b.length) :
    put (a ++ b) a.length values = .returned (a ++ values) := by
  rw [put, if_pos (by simp [h])]
  simp [h]

theorem put_all {n x : Nat} {values : List Nat} (h : values.length = n) :
    put (List.replicate n x) 0 values = .returned values :=
  put_rest (a := []) (by simpa using h)

theorem put_nil (xs : List Nat) : put xs 0 [] = .returned xs := by
  rw [put, if_pos (by simp)]
  simp

theorem put_lead {r x v : Nat} {values : List Nat} (h : values.length = r) :
    (put (List.replicate (r + 1) x) 0 [v] >>= fun xs => put xs 1 values) =
      .returned (v :: values) := by
  have hfirst : put (List.replicate (r + 1) x) 0 [v] = .returned (v :: List.replicate r x) := by
    rw [put, if_pos (by simp)]
    simp [List.replicate_succ]
  rw [hfirst, Outcome.returned_bind]
  exact put_rest (a := [v]) (by simpa using h)

theorem strides_eq {b : AmioBbox} {shape : AmioShape}
    (hbox : validate_bbox (some b) shape = .returned ()) :
    (b.to_bounding_box.dims.map fun d =>
      if b.to_bounding_box.strides d > 1 then size_cast (b.to_bounding_box.strides d) else 1) =
    b.to_bounding_box.region.stride := by
  obtain ⟨hrank, hvalid⟩ := validate_bbox_ok hbox
  rw [BoundingBox.region]
  apply List.map_congr_left
  intro d hd
  have hlt : (d.val : Int) < b.rank := of_decide_eq_true (List.mem_filter.mp hd).2
  rw [dims_to_bounding_box hrank] at hd
  have hstride : b.to_bounding_box.strides d = b.strides d := if_pos hlt
  rw [hstride]
  split
  · rfl
  · have hone : b.strides d = 1 := by
      have := (hvalid d hd).stride
      omega
    rw [hone]
    rfl

/-- A region of the record as a region of the variable: the timestep goes in
    front if time is an axis. -/
def with_time (time : Bool) (t : Nat) (r : Region) : Region := if time then r.cons t else r

theorem elements_with_time (time : Bool) (t : Nat) (r : Region) :
    (with_time time t r).elements = r.elements.map fun i => if time then t :: i else i := by
  cases time with
  | true => exact Region.elements_cons t r
  | false => simp [with_time]

theorem stride_with_time_ones (time : Bool) (t : Nat) {r : Region}
    (h : r.stride = List.replicate r.count.length 1) :
    (with_time time t r).stride = List.replicate (with_time time t r).count.length 1 := by
  cases time with
  | true => simp [with_time, Region.cons, h, List.replicate_succ]
  | false => exact h

theorem stride_with_time_pos (time : Bool) (t : Nat) {r : Region} (h : ∀ s ∈ r.stride, 0 < s) :
    ∀ s ∈ (with_time time t r).stride, 0 < s := by
  cases time with
  | true => simpa [with_time, Region.cons] using h
  | false => exact h

/-- **The arrays of a read**: time first, if the variable has one more axis than
    the shape, and then what is asked for. -/
theorem arrays_eq {bbox : Option AmioBbox} {shape : AmioShape}
    (hbox : validate_bbox bbox shape = .returned ()) (is_time_varying : Bool) (t : Int) :
    arrays (shape.dims.length + if is_time_varying then 1 else 0) is_time_varying shape t
        (bbox.map AmioBbox.to_bounding_box) =
      .returned (with_time is_time_varying (size_cast t) (requested bbox shape)) := by
  obtain ⟨hstart, hcount, hstride⟩ := requested_lengths hbox
  cases bbox with
  | none =>
    have hzeros : shape.lengths.map (fun _ => 0) = List.replicate shape.dims.length 0 := by
      rw [AmioShape.lengths, List.map_map]
      exact List.map_const' ..
    have hlengths : shape.lengths.length = shape.dims.length := by simp [AmioShape.lengths]
    cases is_time_varying with
    | false =>
      simp only [arrays, Option.map_none, Bool.false_eq_true, if_false, List.map_nil, put_nil,
        Outcome.returned_bind, List.length_nil, Nat.add_zero, hzeros]
      rw [put_all (by simp), Outcome.returned_bind, put_all hlengths, Outcome.returned_bind,
        requested, Region.whole, hlengths]
      rfl
    | true =>
      simp only [arrays, Option.map_none, if_true, List.map_cons, List.map_nil, List.length_cons,
        List.length_nil, Nat.zero_add, hzeros]
      have hs := put_lead (x := 0) (v := size_cast t)
        (List.length_replicate (n := shape.dims.length) (a := 0))
      have hc := put_lead (r := shape.dims.length) (x := 0) (v := 1) hlengths
      obtain ⟨xs, hxs, hxs'⟩ := Outcome.bind_eq_returned.mp hs
      obtain ⟨ys, hys, hys'⟩ := Outcome.bind_eq_returned.mp hc
      rw [hxs, Outcome.returned_bind, hys, Outcome.returned_bind, hxs', Outcome.returned_bind, hys',
        Outcome.returned_bind, requested, Region.whole, hlengths, with_time, if_pos rfl, Region.cons,
        List.replicate_succ]
      rfl
  | some b =>
    have hstrides := strides_eq hbox
    change b.to_bounding_box.region.start.length = _ at hstart
    change b.to_bounding_box.region.count.length = _ at hcount
    change b.to_bounding_box.region.stride.length = _ at hstride
    cases is_time_varying with
    | false =>
      simp only [arrays, Option.map_some, Bool.false_eq_true, if_false, List.map_nil, put_nil,
        Outcome.returned_bind, List.length_nil, Nat.add_zero, hstrides]
      rw [put_all hstart, Outcome.returned_bind, put_all hcount, Outcome.returned_bind,
        put_all hstride, Outcome.returned_bind]
      rfl
    | true =>
      simp only [arrays, Option.map_some, if_true, List.map_cons, List.map_nil, List.length_cons,
        List.length_nil, Nat.zero_add, hstrides]
      have hs := put_lead (x := 0) (v := size_cast t) hstart
      have hc := put_lead (x := 0) (v := 1) hcount
      obtain ⟨xs, hxs, hxs'⟩ := Outcome.bind_eq_returned.mp hs
      obtain ⟨ys, hys, hys'⟩ := Outcome.bind_eq_returned.mp hc
      have ht : put (List.replicate (shape.dims.length + 1) 1) 1 b.to_bounding_box.region.stride =
          .returned (1 :: b.to_bounding_box.region.stride) := by
        rw [List.replicate_succ]
        exact put_rest (a := [1]) (by simpa using hstride)
      rw [hxs, Outcome.returned_bind, hys, Outcome.returned_bind, hxs', Outcome.returned_bind, hys',
        Outcome.returned_bind, ht, Outcome.returned_bind]
      rfl

theorem total_elems_eq {shape : AmioShape} {r : Region} (hlength : r.count.length = shape.dims.length)
    (is_time_varying : Bool) (t : Nat) (hfits : r.count.prod < 2 ^ 64) :
    total_elems is_time_varying shape (with_time is_time_varying t r).count =
      .returned r.count.prod := by
  have hprod : r.count.foldl (Word.mul 64) 1 = r.count.prod := by
    have h := Word.foldl_mul (w := 64) (by decide) id r.count
    rw [List.map_id, Nat.mod_eq_of_lt hfits] at h
    exact h
  cases is_time_varying with
  | false =>
    rw [total_elems]
    simp [with_time, ← hlength, hprod]
  | true =>
    rw [total_elems]
    simp [with_time, Region.cons, Nat.add_comm, ← hlength, hprod]

/-! ## Section 5: What is described -/

theorem extents_spec {file : NcFile} {var : NcVar} {es : List Nat}
    (h : file.extents var = some es) :
    es.length = var.dimids.length ∧ ∀ e ∈ es, e < 2 ^ 64 := by
  unfold NcFile.extents at h
  generalize var.dimids = ids at h ⊢
  induction ids generalizing es with
  | nil =>
    cases h
    simp
  | cons id ids ih =>
    rw [List.mapM_cons] at h
    obtain ⟨e, he, h⟩ := Option.bind_eq_some_iff.mp h
    obtain ⟨es', hes', h⟩ := Option.bind_eq_some_iff.mp h
    cases h
    obtain ⟨dim, -, rfl⟩ := Option.map_eq_some_iff.mp he
    obtain ⟨hlength, hlt⟩ := ih hes'
    refine ⟨by simp [hlength], ?_⟩
    intro x hx
    rcases List.mem_cons.mp hx with rfl | hx
    · exact dim.length_lt
    · exact hlt x hx

theorem reported_lengths {es : List Nat} {shape : AmioShape} {r k : Nat} (hrank : shape.rank = r)
    (hr : r ≤ kMaxRank) (hlength : es.length = k + r) (hlt : ∀ e ∈ es, e < 2 ^ 64)
    (hextents : ∀ d : Fin kMaxRank, d.val < r →
      shape.extents d = int64_cast (es.getD (d.val + k) 0)) :
    shape.lengths = es.drop k := by
  apply lengths_eq hrank hr
  · simp [hlength]
  · intro d hd
    have hbound : d.val + k < es.length := by omega
    rw [hextents d hd, List.getD_eq_getElem _ _ hbound, size_cast_int64_cast]
    · simp [List.getElem?_eq_getElem hbound, Nat.add_comm k]
    · exact hlt _ (List.getElem_mem hbound)

/-- **What `describe_variable` reports** of a variable. -/
structure Described (drv : NetCDF_Reader) (name : List (BitVec 8)) (info : Boundary.VariableInfo)
    (var : NcVar) (es : List Nat) : Prop where
  is_open : drv.is_open = true ∧ drv.is_write_mode = false
  find : drv.file.find name = some var
  dtype : nc_type_to_dtype var.nc_type = some info.dtype
  extents : drv.file.extents var = some es
  /-- The rank of the shape tells whether the leading axis is time. -/
  rank : (var.dimids.length : Int) = info.shape.rank + if drv.reports_time var then 1 else 0
  rank_le : 0 ≤ info.shape.rank ∧ info.shape.rank ≤ kMaxRank
  lengths : info.shape.lengths = es.drop (if drv.reports_time var then 1 else 0)
  fits : ∀ d, Fits 64 (info.shape.extents d)
  timesteps : drv.reports_time var = true → ∃ e es', es = e :: es' ∧
    info.total_timesteps = if int64_cast e > 0 then int64_cast e else 1

theorem described {drv : NetCDF_Reader} {name : List (BitVec 8)} {info : Boundary.VariableInfo}
    (h : drv.describe_variable name = some info) : ∃ var es, Described drv name info var es := by
  rw [describe_variable] at h
  obtain ⟨_, hguard, h⟩ := Option.bind_eq_some_iff.mp h
  obtain ⟨var, hfind, h⟩ := Option.bind_eq_some_iff.mp h
  obtain ⟨dtype, hdtype, h⟩ := Option.bind_eq_some_iff.mp h
  obtain ⟨_, hndims, h⟩ := Option.bind_eq_some_iff.mp h
  obtain ⟨es, hes, h⟩ := Option.bind_eq_some_iff.mp h
  obtain ⟨lead, hlead, h⟩ := Option.bind_eq_some_iff.mp h
  have hopen : drv.is_open = true ∧ drv.is_write_mode = false := by
    by_contra hno
    simp [guard, hno] at hguard
  have hrank : 1 ≤ var.dimids.length ∧ var.dimids.length ≤ kMaxRank := by
    by_contra hno
    simp only [guard, if_neg hno] at hndims
    cases hndims
  obtain ⟨hlength, hlt⟩ := extents_spec hes
  have hreports : drv.reports_time var = true ↔
      2 ≤ var.dimids.length ∧ drv.file.is_time_axis lead = true := by
    simp [reports_time, hlead]
  have hgetD : ∀ k, es.getD k 0 < 2 ^ 64 := by
    intro k
    rw [List.getD_eq_getElem?_getD]
    cases hk : es[k]? with
    | none => simp
    | some e => exact hlt e (List.mem_of_getElem? hk)
  refine ⟨var, es, ?_⟩
  by_cases htime : drv.reports_time var = true
  · -- the leading axis is time
    obtain ⟨htwo, haxis⟩ := hreports.mp htime
    simp only [haxis, if_true, show ¬ var.dimids.length - 1 < 1 by omega, if_false] at h
    cases h
    refine ⟨hopen, hfind, hdtype, hes, ?_, ?_, ?_, ?_, ?_⟩
    · simp only [htime, if_true]
      omega
    · dsimp only
      omega
    · simp only [htime, if_true]
      apply reported_lengths (r := var.dimids.length - 1)
      · show (var.dimids.length : Int) - (1 : Nat) = _
        omega
      · omega
      · omega
      · exact hlt
      · intro d hd
        exact if_pos hd
    · intro d
      dsimp only
      split
      · exact int64_cast_fits (hgetD _)
      · simp [fits_64]
    · intro _
      obtain ⟨e, es', rfl⟩ := List.exists_cons_of_ne_nil (l := es) (by
        rintro rfl
        simp at hlength
        omega)
      exact ⟨e, es', rfl, rfl⟩
  · -- it is not, or the variable has no other axis
    have hstart : (if var.dimids.length - (if drv.file.is_time_axis lead then
        ((int64_cast (es.getD 0 0), 1) : Int × Nat) else (1, 0)).2 < 1 then ((1, 0) : Int × Nat)
        else if drv.file.is_time_axis lead then (int64_cast (es.getD 0 0), 1) else (1, 0)) =
        (1, 0) := by
      by_cases haxis : drv.file.is_time_axis lead = true
      · have : ¬ 2 ≤ var.dimids.length := fun htwo => htime (hreports.mpr ⟨htwo, haxis⟩)
        simp [haxis, show var.dimids.length - 1 < 1 by omega]
      · simp [haxis]
    simp only [hstart] at h
    cases h
    refine ⟨hopen, hfind, hdtype, hes, ?_, ?_, ?_, ?_, ?_⟩
    · simp only [htime]
      simp
    · dsimp only
      omega
    · simp only [htime]
      apply reported_lengths (r := var.dimids.length)
      · simp
      · omega
      · simpa using hlength
      · exact hlt
      · intro d hd
        exact if_pos hd
    · intro d
      dsimp only
      split
      · exact int64_cast_fits (hgetD _)
      · simp [fits_64]
    · intro hyes
      exact absurd hyes htime

/-! ## Section 6: What is delivered -/

theorem dtype_byte_size_eq {nc : NcType} {dtype : Dtype} (h : nc_type_to_dtype nc = some dtype) :
    dtype_byte_size dtype = .returned (element_size dtype) ∧ 0 < element_size dtype := by
  cases nc <;> cases h <;> decide

theorem Described.time_varying {drv : NetCDF_Reader} {name : List (BitVec 8)}
    {info : Boundary.VariableInfo} {var : NcVar} {es : List Nat}
    (hd : Described drv name info var es) :
    decide ((var.dimids.length : Int) = info.shape.rank + 1) = drv.reports_time var := by
  have hrank := hd.rank
  cases htime : drv.reports_time var with
  | false =>
    rw [htime] at hrank
    simp at hrank
    simp [hrank]
  | true =>
    rw [htime] at hrank
    simpa using hrank

theorem Described.inside {drv : NetCDF_Reader} {name : List (BitVec 8)}
    {info : Boundary.VariableInfo} {var : NcVar} {es : List Nat} {bbox : Option AmioBbox} {t : Int}
    (hd : Described drv name info var es) (hpos : ∀ e ∈ es, 0 < e)
    (ht : 0 ≤ t ∧ t < info.total_timesteps)
    (hbox : validate_bbox bbox info.shape = .returned ()) :
    (with_time (drv.reports_time var) t.toNat (requested bbox info.shape)).Inside es := by
  have hrecord : (requested bbox info.shape).Inside info.shape.lengths := by
    apply requested_inside hd.fits _ hbox
    intro e he
    rw [hd.lengths] at he
    exact hpos e (List.mem_of_mem_drop he)
  rw [hd.lengths] at hrecord
  by_cases htime : drv.reports_time var = true
  · obtain ⟨e, es, rfl, hsteps⟩ := hd.timesteps htime
    rw [if_pos htime] at hrecord
    rw [with_time, if_pos htime]
    apply Region.inside_cons _ hrecord
    have he := hpos e List.mem_cons_self
    have hlt := (extents_spec hd.extents).2 e List.mem_cons_self
    -- a length that is not positive as a signed number is reported as one step
    by_cases hcast : int64_cast e > 0
    · have hsame := int64_cast_of_pos hlt hcast
      rw [if_pos hcast, hsame] at hsteps
      omega
    · rw [if_neg hcast] at hsteps
      omega
  · rw [if_neg htime] at hrecord
    rw [with_time, if_neg htime]
    exact hrecord

theorem stride_ones {bbox : Option AmioBbox} {shape : AmioShape}
    (hbox : validate_bbox bbox shape = .returned ())
    (hno : ((bbox.map AmioBbox.to_bounding_box).any fun box =>
      box.dims.any fun d => box.strides d > 1) = false) :
    (requested bbox shape).stride = List.replicate (requested bbox shape).count.length 1 := by
  cases bbox with
  | none => simp [requested, Region.whole]
  | some b =>
    change b.to_bounding_box.region.stride = List.replicate b.to_bounding_box.region.count.length 1
    rw [← strides_eq hbox, BoundingBox.region, List.length_map, ← List.map_const']
    apply List.map_congr_left
    intro d hd
    have hle : ¬ b.to_bounding_box.strides d > 1 := by
      intro hgt
      have hany : (b.to_bounding_box.dims.any fun d => b.to_bounding_box.strides d > 1) = true :=
        List.any_eq_true.mpr ⟨d, hd, by simpa using hgt⟩
      exact absurd (hany.symm.trans hno) (by decide)
    rw [if_neg hle]

theorem stride_pos {bbox : Option AmioBbox} {shape : AmioShape}
    (hbox : validate_bbox bbox shape = .returned ()) (hfits : ∀ b ∈ bbox, ∀ d, Fits 64 (b.strides d)) :
    ∀ s ∈ (requested bbox shape).stride, 0 < s := by
  cases bbox with
  | none => simp [requested, Region.whole]
  | some b =>
    obtain ⟨hrank, hvalid⟩ := validate_bbox_ok hbox
    intro s hs
    change s ∈ b.to_bounding_box.region.stride at hs
    rw [region_to_bounding_box hrank] at hs
    obtain ⟨d, hd, rfl⟩ := List.mem_map.mp hs
    have hone := (hvalid d hd).stride
    have hlt := (fits_64.mp (hfits b rfl d)).2
    have := size_cast_of_nonneg (x := b.strides d) (by omega) (by omega)
    omega

theorem fetched {lib : NetCDF_Library} (hlib : lib.Documented) {file : NcFile} {var : NcVar}
    {es : List Nat} {r : Region} (has_strides : Bool) (hes : file.extents var = some es)
    (hinside : r.Inside es)
    (hones : has_strides = false → r.stride = List.replicate r.count.length 1)
    (hpos : ∀ s ∈ r.stride, 0 < s) :
    (if has_strides then lib.nc_get_vars file var r.start r.count r.stride
      else lib.nc_get_vara file var r.start r.count) = .ok (r.elements.map var.data) := by
  cases has_strides with
  | true => exact hlib.vars hes hinside hpos
  | false =>
    obtain ⟨os, ns, ss⟩ := r
    have hss : ss = List.replicate ns.length 1 := hones rfl
    have hns : ns.length = es.length := hinside.lengths.2.1
    rw [hns] at hss
    subst hss
    exact hlib.vara hes hinside

/-- **A described variable is read as asked.** The arrays that the library gets
    have the rank of the variable and stay inside it. A selection of more than
    `std::size_t` bytes fits into no buffer. -/
theorem read_described {drv : NetCDF_Reader} {lib : NetCDF_Library} {m : VarMeta}
    {info : Boundary.VariableInfo} {bbox : Option AmioBbox} {t : Int} {capacity_bytes : Nat}
    (hlib : lib.Documented) (h : drv.describe_variable m.name = some info)
    (hdtype : m.dtype = info.dtype) (hshape : m.shape = info.shape)
    (hpos : ∀ var ∈ drv.file.find m.name, ∀ es ∈ drv.file.extents var, ∀ e ∈ es, 0 < e)
    (ht : 0 ≤ t ∧ t < info.total_timesteps)
    (hbox : validate_bbox bbox info.shape = .returned ())
    (hfits : ∀ b ∈ bbox, ∀ d, Fits 64 (b.strides d))
    (hbytes : (requested bbox info.shape).count.prod * element_size info.dtype < 2 ^ 64) :
    ∃ var es region, Described drv m.name info var es ∧ Region.Inside es region ∧
      drv.read lib m t (bbox.map AmioBbox.to_bounding_box) capacity_bytes =
        let bytes := (requested bbox info.shape).elements.length * element_size info.dtype
        if bytes ≤ capacity_bytes then
          .returned ⟨region,
            (requested bbox info.shape).elements.map fun i => var.data (drv.element_at var t i), bytes⟩
        else
          .thrown ("NetCDF_Driver::read: required " ++ toString bytes ++
            " bytes but buffer capacity is " ++ toString capacity_bytes) := by
  obtain ⟨var, es, hd⟩ := described h
  have hpos : ∀ e ∈ es, 0 < e := hpos var hd.find es hd.extents
  have hinside := hd.inside hpos ht hbox
  obtain ⟨hsize, helem⟩ := dtype_byte_size_eq hd.dtype
  obtain ⟨-, hlengths, -⟩ := requested_lengths hbox
  have hdims := length_dims hd.rank_le
  have hndims : var.dimids.length =
      info.shape.dims.length + if drv.reports_time var then 1 else 0 := by
    have hrank := hd.rank
    cases htime : drv.reports_time var with
    | true =>
      simp only [htime, if_true] at hrank ⊢
      omega
    | false =>
      simp only [htime] at hrank ⊢
      simp at hrank ⊢
      omega
  have hcast : with_time (drv.reports_time var) (size_cast t) (requested bbox info.shape) =
      with_time (drv.reports_time var) t.toNat (requested bbox info.shape) := by
    by_cases htime : drv.reports_time var = true
    · obtain ⟨e, es, rfl, hsteps⟩ := hd.timesteps htime
      have he := (fits_64.mp (int64_cast_fits ((extents_spec hd.extents).2 e List.mem_cons_self))).2
      have hlt : t < 2 ^ 64 := by
        have := ht.2
        split at hsteps <;> omega
      have := size_cast_of_nonneg ht.1 hlt
      rw [show size_cast t = t.toNat by omega]
    · rw [with_time, with_time, if_neg htime, if_neg htime]
  have hprod : (requested bbox info.shape).count.prod < 2 ^ 64 :=
    lt_of_le_of_lt (Nat.le_mul_of_pos_right _ helem) hbytes
  have harrays := arrays_eq hbox (drv.reports_time var) t
  rw [← hndims, hcast] at harrays
  have htotal := total_elems_eq hlengths (drv.reports_time var) t.toNat hprod
  have hmul : Word.mul 64 (requested bbox info.shape).count.prod (element_size info.dtype) =
      (requested bbox info.shape).count.prod * element_size info.dtype := by
    rw [Word.mul, Nat.mod_eq_of_lt hbytes]
  have hvalues := fetched hlib _ hd.extents hinside
    (fun hno => stride_with_time_ones _ _ (stride_ones hbox hno))
    (stride_with_time_pos _ _ (stride_pos hbox hfits))
  rw [elements_with_time, List.map_map] at hvalues
  refine ⟨var, es, _, hd, hinside, ?_⟩
  rw [read, if_neg (by simp [hd.is_open]), hd.find]
  simp only [hshape, hdtype, hd.time_varying]
  rw [harrays, Outcome.returned_bind, hsize, Outcome.returned_bind, htotal, Outcome.returned_bind,
    hmul, Region.length_elements]
  by_cases hroom : (requested bbox info.shape).count.prod * element_size info.dtype ≤ capacity_bytes
  · rw [if_neg (Nat.not_lt.mpr hroom), if_pos hroom, hvalues]
    rfl
  · rw [if_pos (Nat.lt_of_not_le hroom), if_neg hroom]

/-- Three records of four bytes along an unlimited axis. -/
def hourly : NetCDF_Reader where
  is_open := true
  is_write_mode := false
  file := {
    dims := [⟨text "hours", 3, by decide⟩, ⟨text "x", 4, by decide⟩]
    unlimited := [0]
    vars := [⟨text "cloud", .ubyte, [0, 1], fun _ => none, fun i =>
      [BitVec.ofNat 8 (10 * i.headI + i.getLastI)]⟩] }

/-- Every second byte of a record. -/
def alternate : AmioBbox where
  rank := 1
  offsets _ := 1
  extents _ := 2
  strides _ := 2

/-- What is reported of it. -/
def cloud : Boundary.VariableInfo := (hourly.describe_variable (text "cloud")).get (by decide)

theorem read_described_hourly : ∃ region, Region.Inside [3, 4] region ∧
    hourly.read .exact ⟨1, 1, text "cloud", cloud.dtype, cloud.shape, 2⟩ 2
      (some alternate.to_bounding_box) 16 = .returned ⟨region, [[21], [23]], 2⟩ := by
  have hdescribe : hourly.describe_variable (text "cloud") = some cloud := by simp [cloud]
  have hbox : validate_bbox (some alternate) cloud.shape = .returned () := by decide
  obtain ⟨var, es, region, hd, hinside, hread⟩ := read_described
    (m := ⟨1, 1, text "cloud", cloud.dtype, cloud.shape, 2⟩) (t := 2)
    NetCDF_Library.exact_documented hdescribe rfl rfl (by decide) (by decide) hbox
    (by decide) (by decide)
  obtain rfl : _ = var := Option.some.inj hd.find
  obtain rfl : _ = es := Option.some.inj hd.extents
  refine ⟨region, hinside, ?_⟩
  exact hread.trans (if_pos (by decide))

end NetCDF_Reader

end Amio

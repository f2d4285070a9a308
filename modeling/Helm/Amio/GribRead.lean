import Helm.Amio.DriverWrite
import Helm.Amio.GribIndex
import Helm.Amio.ReadSelection

/-! # Reading a GRIB2 record

  `GRIB2_Driver::read` decodes the record of a timestep and delivers all of
  it, or the elements that a bounding box selects.

  `describe_variable` and the extents of the box check come from the first
  record of the entry. The data, and in one dimension the extent, come from
  the record that is read, whose grid may be another one. `read_sound_iff`
  says when what is delivered is what was asked for.

  Main result: `read_sound_iff`.
-/

namespace Amio.Grib2

open Signed RowMajor

/-! ## Section 1: The functions -/

/-- What comes of reading and decoding a record with `unpack=1`. The values are
    kept apart. -/
inductive Fetched where
  | open_failed
  | seek_failed
  | short_read
  | getfld_failed (code : Int)
  /-- The header, and whether `fld` is set. -/
  | decoded (gfld : GribField) (has_data : Bool)

/-- The values of `fld`, of which there are `ngrdpts`. -/
abbrev FieldValues := Nat → BitVec 32

structure GRIB2_Reader where
  initialized : Bool
  read_mode : Bool
  input_path : String
  records : Index

/-- `describe_variable` -/
def GRIB2_Reader.describe_variable (drv : GRIB2_Reader) (name : String) :
    Option Boundary.VariableInfo :=
  if drv.initialized = false ∨ drv.read_mode = false then none
  else
    match drv.records.lookup name with
    | none => none
    | some entry =>
      if entry.records = [] then none
      else some {
        dtype := .F32
        shape :=
          if entry.nj > 1 then
            { rank := 2
              extents := fun d => if d = 0 then entry.nj else if d = 1 then entry.ni else 0
              strides := fun _ => 0 }
          else
            { rank := 1
              extents := fun d => if d = 0 then entry.ni else 0
              strides := fun _ => 0 }
        total_timesteps := entry.records.length }

/-- `grid_extents` -/
def grid_extents (entry : GribFieldIndex) (ngrdpts : Int) : List Int :=
  if entry.nj > 1 then [entry.nj, entry.ni] else [ngrdpts]

/-- One turn of the loop that validates the box and counts its elements. -/
def check_axis (name : String) (b : BoundingBox) (sub_elems : Nat)
    (axis : Fin kMaxRank × Int) : Outcome String Nat :=
  let (d, grid_extent) := axis
  if b.extents d < 1 ∨ b.strides d < 1 ∨ b.offsets d < 0 then
    .thrown ("GRIB2_Driver::read: invalid bounding box for field '" ++ name ++ "'.")
  else do
    let reach ← signed 64 ((b.extents d - 1) * b.strides d)
    let last ← signed 64 (b.offsets d + reach)
    if last ≥ grid_extent then
      .thrown ("GRIB2_Driver::read: bounding box exceeds field extents for '" ++ name ++ "'.")
    else return Word.mul 64 sub_elems (b.extents d).toNat

/-- `full_strides`, from the last axis on, and `stride_acc` -/
def full_strides : List Int → Outcome String (List Int × Int)
  | [] => .returned ([], 1)
  | extent :: extents => do
    let (strides, stride_acc) ← full_strides extents
    let next ← signed 64 (stride_acc * extent)
    return (stride_acc :: strides, next)

/-- `src_off`: the terms of the axes are added in order. -/
def src_off (b : BoundingBox) : Int → List (Fin kMaxRank × Nat × Int) → Outcome String Int
  | acc, [] => .returned acc
  | acc, (d, idx, full_stride) :: axes => do
    let along ← signed 64 (idx * b.strides d)
    let at_axis ← signed 64 (b.offsets d + along)
    let term ← signed 64 (at_axis * full_stride)
    let acc ← signed 64 (acc + term)
    src_off b acc axes

/-- Read an element of `full` and write it to the `e`-th place of `out`;
    undefined outside the two buffers. -/
def gather_element (values : FieldValues) (ngrdpts : Int) (capacity_bytes : Nat) (e : Nat)
    (offset : Int) : Outcome String (BitVec 32) :=
  if 0 ≤ offset ∧ offset < ngrdpts ∧ e * 4 + 4 ≤ capacity_bytes then
    .returned (values offset.toNat)
  else .undefined

/-- Deliver the selected elements of a decoded record. -/
def deliver_box (name : String) (entry : GribFieldIndex) (ngrdpts : Int) (values : FieldValues)
    (capacity_bytes : Nat) (b : BoundingBox) : Outcome String (List (BitVec 32)) :=
  let grid_extents := grid_extents entry ngrdpts
  if b.rank ≠ grid_extents.length then
    .thrown "GRIB2_Driver::read: bounding-box rank does not match field rank."
  else do
    let sub_elems ← (b.dims.zip grid_extents).foldlM (check_axis name b) 1
    if Word.mul 64 sub_elems 4 > capacity_bytes then
      .thrown "GRIB2_Driver::read: sub-region exceeds staging buffer capacity."
    else do
      let (strides, _) ← full_strides grid_extents
      let sizes := b.dims.map fun d => (b.extents d).toNat
      (walk sizes sub_elems (List.replicate sizes.length 0)).zipIdx.mapM fun (idx, e) => do
        let offset ← src_off b 0 (b.dims.zip (idx.zip strides))
        gather_element values ngrdpts capacity_bytes e offset

/-- Deliver a decoded record, or a part of it. -/
def deliver (name : String) (entry : GribFieldIndex) (ngrdpts : Int) (values : FieldValues)
    (capacity_bytes : Nat) (bbox : Option BoundingBox) : Outcome String (List (BitVec 32)) :=
  match bbox with
  | none =>
    if ngrdpts.toNat * 4 > capacity_bytes then
      .thrown "GRIB2_Driver::read: decoded payload exceeds staging buffer capacity."
    else .returned ((List.range ngrdpts.toNat).map values)
  | some b => deliver_box name entry ngrdpts values capacity_bytes b

/-- The indexed record of a field and a timestep. -/
def GRIB2_Reader.locate (drv : GRIB2_Reader) (name : String) (timestep : Int) :
    Outcome String (GribFieldIndex × GribRecordLocation) :=
  match drv.records.lookup name with
  | none =>
    .thrown ("GRIB2_Driver::read: field '" ++ name ++ "' not found in the GRIB2 record index.")
  | some entry =>
    if entry.records = [] then
      .thrown ("GRIB2_Driver::read: field '" ++ name ++ "' not found in the GRIB2 record index.")
    else if timestep < 0 ∨ timestep ≥ entry.records.length then
      .thrown ("GRIB2_Driver::read: timestep " ++ toString timestep ++ " out of range for field '" ++
        name ++ "' (" ++ toString entry.records.length ++ " records).")
    else
      match entry.records[timestep.toNat]? with
      | none => .undefined
      | some loc =>
        if loc.length ≤ 0 then
          .thrown ("GRIB2_Driver::read: invalid record length for field '" ++ name ++ "'.")
        else .returned (entry, loc)

/-- Read the record's message and decode it; the number of its grid points. -/
def GRIB2_Reader.decode (drv : GRIB2_Reader) (fetch : GribRecordLocation → Fetched) (name : String)
    (loc : GribRecordLocation) : Outcome String Int :=
  match fetch loc with
  | .open_failed =>
    .thrown ("GRIB2_Driver::read: failed to open input file '" ++ drv.input_path ++
      "' for reading.")
  | .seek_failed => .thrown ("GRIB2_Driver::read: seek failed decoding field '" ++ name ++ "'.")
  | .short_read => .thrown ("GRIB2_Driver::read: short read decoding field '" ++ name ++ "'.")
  | .getfld_failed code =>
    .thrown ("GRIB2_Driver::read: g2_getfld failed (code " ++ toString code ++
      ") decoding field '" ++ name ++ "'.")
  | .decoded gfld has_data =>
    if gfld.ngrdpts ≤ 0 ∨ has_data = false then
      .thrown ("GRIB2_Driver::read: decoded field '" ++ name ++ "' has no grid-point data.")
    else do
      -- `full`
      GRIB2_Driver.allocate (gfld.ngrdpts.toNat * 4)
      return gfld.ngrdpts

/-- `GRIB2_Driver::read`, into a buffer of `capacity_bytes` -/
def GRIB2_Reader.read (drv : GRIB2_Reader) (fetch : GribRecordLocation → Fetched)
    (values : GribRecordLocation → FieldValues) (capacity_bytes : Nat) (name : String)
    (timestep : Int) (bbox : Option BoundingBox) : Outcome String (List (BitVec 32)) :=
  if drv.initialized = false then
    .thrown "GRIB2_Driver::read called before successful initialization"
  else if drv.read_mode = false then
    .thrown "GRIB2_Driver::read: driver was not opened for reading."
  else do
    let (entry, loc) ← drv.locate name timestep
    let ngrdpts ← drv.decode fetch name loc
    deliver name entry ngrdpts (values loc) capacity_bytes bbox

/-! ## Section 2: What is asked for -/

/-- The region that a box selects. -/
def selected (b : BoundingBox) : Region where
  start := b.dims.map fun d => (b.offsets d).toNat
  count := b.dims.map fun d => (b.extents d).toNat
  stride := b.dims.map fun d => (b.strides d).toNat

/-- The box, or all of the shape that is described. -/
def asked (bbox : Option BoundingBox) (info : Boundary.VariableInfo) : Region :=
  match bbox with
  | none => .whole info.shape.sizes
  | some b => selected b

/-- The value of a record at a multi-index: of its own grid, or along the row
    of all its points. -/
def record_value (gfld : GribField) (values : FieldValues) : List Nat → Option (BitVec 32)
  | [i] => if (i : Int) < gfld.ngrdpts then some (values i) else none
  | [j, i] =>
    if (j : Int) < (grid_of gfld).2 ∧ (i : Int) < (grid_of gfld).1 then
      some (values (j * (grid_of gfld).1.toNat + i))
    else none
  | _ => none

/-- What is delivered is the record's values at the multi-indices asked for, in
    row-major order. -/
def Delivers (drv : GRIB2_Reader) (fetch : GribRecordLocation → Fetched)
    (values : GribRecordLocation → FieldValues) (name : String) (timestep : Int)
    (bbox : Option BoundingBox) (out : List (BitVec 32)) : Prop :=
  ∃ entry loc gfld has_data info, drv.records.lookup name = some entry ∧
    entry.records[timestep.toNat]? = some loc ∧ fetch loc = .decoded gfld has_data ∧
    drv.describe_variable name = some info ∧
    out.map some = (asked bbox info).elements.map (record_value gfld (values loc))

/-- The claim for one call, whatever values the record holds. -/
def ReadSound (drv : GRIB2_Reader) (fetch : GribRecordLocation → Fetched) (capacity_bytes : Nat)
    (name : String) (timestep : Int) (bbox : Option BoundingBox) : Prop :=
  ∀ values, match drv.read fetch values capacity_bytes name timestep bbox with
    | .returned out => Delivers drv fetch values name timestep bbox out
    | .thrown _ => True
    | .undefined => False

/-! ## Section 3: When it is right -/

/-- The last index that the box selects of an axis. -/
def last (b : BoundingBox) (d : Fin kMaxRank) : Int :=
  b.offsets d + (b.extents d - 1) * b.strides d

/-- What `check_axis` looks at first. -/
def ValidAxis (b : BoundingBox) (d : Fin kMaxRank) : Prop :=
  1 ≤ b.extents d ∧ 1 ≤ b.strides d ∧ 0 ≤ b.offsets d

/-- No product or sum of the validation overflows, as far as it goes; and when
    it lets the box through, `P`. -/
def BoxFine (b : BoundingBox) (P : Prop) : List (Fin kMaxRank × Int) → Prop
  | [] => P
  | (d, grid_extent) :: axes =>
    ValidAxis b d →
      Fits 64 ((b.extents d - 1) * b.strides d) ∧ Fits 64 (last b d) ∧
        (last b d < grid_extent → BoxFine b P axes)

/-- The record that is read has the grid of the entry. -/
def SameGrid (entry : GribFieldIndex) (gfld : GribField) : Prop :=
  if entry.nj > 1 then grid_of gfld = (entry.ni, entry.nj) else entry.ni = gfld.ngrdpts

/-- The box lies inside the grid of the record that is read, and the rows of
    this grid are as long as those of the entry, unless the box stays in the
    first one. -/
def InOwnGrid (entry : GribFieldIndex) (gfld : GribField) (b : BoundingBox) : Prop :=
  entry.nj > 1 → last b 0 < (grid_of gfld).2 ∧ last b 1 < (grid_of gfld).1 ∧
    (last b 0 = 0 ∨ (grid_of gfld).1 = entry.ni)

/-- The condition for a decoded record. -/
def Deliverable (entry : GribFieldIndex) (gfld : GribField) (capacity_bytes : Nat) :
    Option BoundingBox → Prop
  | none => capacity_bytes < gfld.ngrdpts.toNat * 4 ∨ SameGrid entry gfld
  | some b =>
    b.rank ≠ (grid_extents entry gfld.ngrdpts).length ∨
      BoxFine b (capacity_bytes < Word.mul 64 (selected b).count.prod 4 ∨ InOwnGrid entry gfld b)
        (b.dims.zip (grid_extents entry gfld.ngrdpts))

/-! ### Validation -/

/-- The box passes on these axes. -/
def Passes (b : BoundingBox) (axes : List (Fin kMaxRank × Int)) : Prop :=
  ∀ axis ∈ axes, ValidAxis b axis.1 ∧ last b axis.1 < axis.2

theorem check_axis_invalid (name : String) {b : BoundingBox} (sub_elems : Nat)
    (axis : Fin kMaxRank × Int) (h : ¬ ValidAxis b axis.1) :
    ∃ e, check_axis name b sub_elems axis = .thrown e := by
  unfold ValidAxis at h
  rw [check_axis, if_pos (by omega)]
  exact ⟨_, rfl⟩

theorem check_axis_valid {name : String} {b : BoundingBox} {sub_elems : Nat}
    (axis : Fin kMaxRank × Int) (h : ValidAxis b axis.1) :
    check_axis name b sub_elems axis =
      if Fits 64 ((b.extents axis.1 - 1) * b.strides axis.1) ∧ Fits 64 (last b axis.1) then
        if last b axis.1 < axis.2 then
          .returned (Word.mul 64 sub_elems (b.extents axis.1).toNat)
        else
          .thrown ("GRIB2_Driver::read: bounding box exceeds field extents for '" ++ name ++ "'.")
      else .undefined := by
  unfold ValidAxis at h
  rw [check_axis, if_neg (by omega)]
  by_cases hreach : Fits 64 ((b.extents axis.1 - 1) * b.strides axis.1)
  · rw [signed_of_fits hreach, Outcome.returned_bind,
      show b.offsets axis.1 + (b.extents axis.1 - 1) * b.strides axis.1 = last b axis.1 from rfl]
    by_cases hlast : Fits 64 (last b axis.1)
    · rw [if_pos ⟨hreach, hlast⟩, signed_of_fits hlast, Outcome.returned_bind]
      show (if last b axis.1 ≥ axis.2 then _ else _) = _
      by_cases hlt : last b axis.1 < axis.2
      · rw [if_pos hlt, if_neg (not_le.mpr hlt)]
        rfl
      · rw [if_neg hlt, if_pos (not_lt.mp hlt)]
    · rw [if_neg (fun h => hlast h.2), signed_of_not_fits hlast]
      rfl
  · rw [if_neg (fun h => hreach h.1), signed_of_not_fits hreach]
    rfl

/-- How the validation ends, and what that makes of `BoxFine`. -/
theorem check_box (name : String) (b : BoundingBox) (axes : List (Fin kMaxRank × Int))
    (sub_elems : Nat) :
    (Passes b axes ∧ (∀ P, BoxFine b P axes ↔ P) ∧ axes.foldlM (check_axis name b) sub_elems =
      .returned (axes.foldl (fun n axis => Word.mul 64 n (b.extents axis.1).toNat) sub_elems)) ∨
    ((∀ P, BoxFine b P axes) ∧ ∃ e, axes.foldlM (check_axis name b) sub_elems = .thrown e) ∨
    ((∀ P, ¬ BoxFine b P axes) ∧ axes.foldlM (check_axis name b) sub_elems = .undefined) := by
  induction axes generalizing sub_elems with
  | nil =>
    left
    exact ⟨by simp [Passes], fun P => Iff.rfl, rfl⟩
  | cons axis axes ih =>
    obtain ⟨d, grid_extent⟩ := axis
    rw [List.foldlM_cons]
    simp only [BoxFine]
    by_cases hvalid : ValidAxis b d
    · rw [check_axis_valid (d, grid_extent) hvalid]
      by_cases hfits : Fits 64 ((b.extents d - 1) * b.strides d) ∧ Fits 64 (last b d)
      · rw [if_pos hfits]
        by_cases hlt : last b d < grid_extent
        · rw [if_pos hlt, Outcome.returned_bind]
          have hfine : ∀ P, (ValidAxis b d → Fits 64 ((b.extents d - 1) * b.strides d) ∧
              Fits 64 (last b d) ∧ (last b d < grid_extent → BoxFine b P axes)) ↔
              BoxFine b P axes := by
            intro P
            simp [hvalid, hfits, hlt]
          simp only [hfine, Passes, List.forall_mem_cons]
          rcases ih (Word.mul 64 sub_elems (b.extents d).toNat) with ⟨hpasses, h⟩ | h | h
          · exact .inl ⟨⟨⟨hvalid, hlt⟩, hpasses⟩, h⟩
          · exact .inr (.inl h)
          · exact .inr (.inr h)
        · right; left
          rw [if_neg hlt]
          exact ⟨fun P _ => ⟨hfits.1, hfits.2, fun h => absurd h hlt⟩, _, rfl⟩
      · right; right
        rw [if_neg hfits]
        exact ⟨fun P h => hfits ⟨(h hvalid).1, (h hvalid).2.1⟩, rfl⟩
    · right; left
      obtain ⟨e, he⟩ := check_axis_invalid name sub_elems (d, grid_extent) hvalid
      rw [he]
      exact ⟨fun P h => absurd h hvalid, e, rfl⟩

/-! ### Gathering -/

theorem full_strides_eq {es : List Nat} (hpos : ∀ e ∈ es, 0 < e) (hfits : es.prod < 2 ^ 63) :
    full_strides (es.map (↑)) = .returned (strides es, (es.prod : Int)) := by
  induction es with
  | nil => rfl
  | cons e es ih =>
    rw [List.prod_cons] at hfits
    have hle : es.prod ≤ e * es.prod := Nat.le_mul_of_pos_left _ (hpos e List.mem_cons_self)
    have hnext : Fits 64 ((es.prod : Int) * e) := by
      rw [fits_64]
      have : ((e * es.prod : Nat) : Int) < 2 ^ 63 := by exact_mod_cast hfits
      push_cast at this
      have hnonneg : (0 : Int) ≤ es.prod * e := by positivity
      constructor
      · omega
      · rw [mul_comm]
        omega
    rw [List.map_cons, full_strides, ih (fun e' he' => hpos e' (List.mem_cons_of_mem _ he'))
      (by omega), Outcome.returned_bind]
    dsimp only
    rw [signed_of_fits hnext, Outcome.returned_bind, Outcome.pure_eq, strides, List.prod_cons]
    push_cast
    rw [mul_comm]

/-- The offset of an element of the box, when it is inside the grid. -/
theorem src_off_eq {b : BoundingBox} {ds : List (Fin kMaxRank)} {idx es : List Nat} {acc : Int}
    (hnonneg : ∀ d ∈ ds, 0 ≤ b.offsets d ∧ 0 ≤ b.strides d)
    (hinside : place (ds.map fun d => (b.offsets d).toNat)
      (ds.map fun d => (b.strides d).toNat) idx ∈ indices es)
    (hlength : idx.length = ds.length) (hacc : 0 ≤ acc) (hfits : acc + es.prod ≤ 2 ^ 63) :
    src_off b acc (ds.zip (idx.zip (strides es))) =
      .returned (acc + offset (place (ds.map fun d => (b.offsets d).toNat)
        (ds.map fun d => (b.strides d).toNat) idx) (strides es)) := by
  induction ds generalizing idx es acc with
  | nil => simp [src_off, place]
  | cons d ds ih =>
    obtain ⟨k, idx, rfl⟩ := List.exists_cons_of_length_eq_add_one hlength
    rw [List.map_cons, List.map_cons, place] at hinside ⊢
    obtain ⟨e, es, hlt, hrest, rfl⟩ := List.forall₂_cons_left_iff.mp (mem_indices.mp hinside)
    obtain ⟨hoffset, hstride⟩ := hnonneg d List.mem_cons_self
    obtain ⟨o, ho⟩ := Int.eq_ofNat_of_zero_le hoffset
    obtain ⟨s, hs⟩ := Int.eq_ofNat_of_zero_le hstride
    have hprod : 0 < es.prod := by
      rw [← length_indices]
      exact List.length_pos_of_mem (mem_indices.mpr hrest)
    rw [ho, hs, Int.toNat_natCast, Int.toNat_natCast] at hlt ⊢
    rw [List.prod_cons, Nat.cast_mul] at hfits
    -- the term and what follows it stay below `e * es.prod`
    have hterm : (o + k * s + 1) * es.prod ≤ e * es.prod := Nat.mul_le_mul_right _ hlt
    rw [Nat.succ_mul] at hterm
    have hgrow : o + k * s ≤ (o + k * s) * es.prod := Nat.le_mul_of_pos_right _ hprod
    have hbound : (((o + k * s) * es.prod : Nat) : Int) + es.prod ≤ e * es.prod := by
      exact_mod_cast hterm
    have hgrow : ((o + k * s : Nat) : Int) ≤ ((o + k * s) * es.prod : Nat) := by
      exact_mod_cast hgrow
    have hcasts : ((k * s : Nat) : Int) = k * s ∧ ((o + k * s : Nat) : Int) = o + k * s ∧
        (((o + k * s) * es.prod : Nat) : Int) = (o + k * s) * es.prod := by
      push_cast
      exact ⟨rfl, rfl, rfl⟩
    have hnext : acc + (o + k * s) * es.prod + es.prod ≤ 2 ^ 63 := by omega
    rw [strides, List.zip_cons_cons, List.zip_cons_cons, src_off, hs, ho,
      signed_of_fits (fits_64.mpr (by omega)), Outcome.returned_bind,
      signed_of_fits (fits_64.mpr (by omega)), Outcome.returned_bind,
      signed_of_fits (fits_64.mpr (by omega)), Outcome.returned_bind,
      signed_of_fits (fits_64.mpr (by omega)), Outcome.returned_bind,
      ih (fun d' hd' => hnonneg d' (List.mem_cons_of_mem _ hd')) (mem_indices.mpr hrest)
        (by simpa using hlength) (by omega) hnext, offset_cons]
    push_cast
    rw [add_assoc]

section Box
variable {name : String} {entry : GribFieldIndex} {ngrdpts : Int} {values : FieldValues}
  {capacity_bytes : Nat} {b : BoundingBox} {es : List Nat}

theorem inside_of_passes {ds : List (Fin kMaxRank)} (hlength : ds.length = es.length)
    (h : Passes b (ds.zip (es.map (↑)))) :
    Region.Within es (ds.map fun d => (b.offsets d).toNat) (ds.map fun d => (b.extents d).toNat)
      (ds.map fun d => (b.strides d).toNat) ∧
    List.Forall₂ (· ≤ ·) (ds.map fun d => (b.extents d).toNat) es ∧
    (∀ d ∈ ds, 1 ≤ b.extents d ∧ 0 ≤ b.offsets d ∧ 0 ≤ b.strides d) := by
  induction ds generalizing es with
  | nil =>
    obtain rfl : es = [] := List.length_eq_zero_iff.mp hlength.symm
    exact ⟨trivial, .nil, by simp⟩
  | cons d ds ih =>
    obtain ⟨e, es, rfl⟩ := List.exists_cons_of_length_eq_add_one hlength.symm
    rw [List.map_cons, List.zip_cons_cons] at h
    obtain ⟨⟨hextent, hstride, hoffset⟩, hlast⟩ : ValidAxis b d ∧ last b d < e :=
      h _ List.mem_cons_self
    obtain ⟨hwithin, hle, hall⟩ := ih (by simpa using hlength)
      fun axis haxis => h axis (List.mem_cons_of_mem _ haxis)
    obtain ⟨o, ho⟩ := Int.eq_ofNat_of_zero_le hoffset
    obtain ⟨n, hn⟩ := Int.eq_ofNat_of_zero_le (sub_nonneg.mpr hextent)
    obtain ⟨s, hs⟩ := Int.eq_ofNat_of_zero_le (le_trans zero_le_one hstride)
    have hn' : b.extents d = (n + 1 : Nat) := by omega
    have hlast : o + n * s < e := by
      rw [last, ho, hn, hs] at hlast
      exact_mod_cast hlast
    have hgrow : n ≤ n * s := Nat.le_mul_of_pos_right _ (by omega)
    simp only [List.map_cons, ho, hn', hs, Int.toNat_natCast]
    refine ⟨⟨⟨by omega, ?_⟩, hwithin⟩, .cons (by omega) hle, ?_⟩
    · rw [Nat.add_sub_cancel]
      exact hlast
    · intro d' hd'
      rcases List.mem_cons.mp hd' with rfl | hd'
      · exact ⟨hextent, hoffset, by omega⟩
      · exact hall d' hd'

theorem deliver_box_eq (values : FieldValues) (hgrid : grid_extents entry ngrdpts = es.map (↑))
    (hrank : b.rank = es.length) (hdims : b.dims.length = es.length)
    (hpos : ∀ e ∈ es, 0 < e) (hfits : es.prod < 2 ^ 63)
    (hpasses : Passes b (b.dims.zip (grid_extents entry ngrdpts)))
    (hloop : (b.dims.zip (grid_extents entry ngrdpts)).foldlM (check_axis name b) 1 =
      .returned ((b.dims.zip (grid_extents entry ngrdpts)).foldl
        (fun n axis => Word.mul 64 n (b.extents axis.1).toNat) 1)) :
    deliver_box name entry ngrdpts values capacity_bytes b =
      if Word.mul 64 (selected b).count.prod 4 > capacity_bytes then
        .thrown "GRIB2_Driver::read: sub-region exceeds staging buffer capacity."
      else (indices (selected b).count).zipIdx.mapM (fun (idx, e) => do
        let offset ← src_off b 0 (b.dims.zip (idx.zip (strides es)))
        gather_element values ngrdpts capacity_bytes e offset) := by
  rw [hgrid] at hpasses
  obtain ⟨-, hle, hall⟩ := inside_of_passes hdims hpasses
  have hcount : (b.dims.zip (grid_extents entry ngrdpts)).foldl
      (fun n axis => Word.mul 64 n (b.extents axis.1).toNat) 1 = (selected b).count.prod := by
    have hfst : (b.dims.zip (grid_extents entry ngrdpts)).map (·.1) = b.dims := by
      rw [hgrid]
      exact List.map_fst_zip (by simp [hdims])
    have hfold : (b.dims.zip (grid_extents entry ngrdpts)).foldl
        (fun n axis => Word.mul 64 n (b.extents axis.1).toNat) 1 =
        b.dims.foldl (fun n d => Word.mul 64 n (b.extents d).toNat) 1 := by
      conv_rhs => rw [← hfst, List.foldl_map]
    rw [hfold, Word.foldl_mul (by decide) (fun d => (b.extents d).toNat) b.dims]
    exact Nat.mod_eq_of_lt (lt_of_le_of_lt (prod_le_prod hle) (by omega))
  have hsizes : ∀ n ∈ (selected b).count, 0 < n := by
    intro n hn
    obtain ⟨d, hd, rfl⟩ := List.mem_map.mp hn
    have := (hall d hd).1
    omega
  rw [deliver_box]
  simp only [hgrid, List.length_map, hrank, ne_eq, not_true_eq_false, if_false]
  rw [← hgrid, hloop, Outcome.returned_bind, hcount, hgrid, full_strides_eq hpos hfits]
  have hlength : b.dims.length = (selected b).count.length := by simp [selected]
  rw [show (b.dims.map fun d => (b.extents d).toNat) = (selected b).count from rfl, hlength,
    walk_zeros hsizes]
  rfl

/-- The element of the decoded record that is delivered for a multi-index. -/
def delivered (values : FieldValues) (es j : List Nat) : BitVec 32 :=
  values (offset j (strides es)).toNat

theorem gather_turn {idx : List Nat} {e : Nat}
    (hfits : es.prod < 2 ^ 63) (hinside : (selected b).Inside es)
    (hall : ∀ d ∈ b.dims, 1 ≤ b.extents d ∧ 0 ≤ b.offsets d ∧ 0 ≤ b.strides d)
    (hidx : idx ∈ indices (selected b).count) :
    (do
      let offset ← src_off b 0 (b.dims.zip (idx.zip (strides es)))
      gather_element values ngrdpts capacity_bytes e offset) =
      gather_element values ngrdpts capacity_bytes e
        (offset (place (selected b).start (selected b).stride idx) (strides es)) := by
  have hplace : place (selected b).start (selected b).stride idx ∈ indices es :=
    hinside.elements_subset (List.mem_map_of_mem hidx)
  have hlength : idx.length = b.dims.length := by
    rw [(mem_indices.mp hidx).length_eq]
    simp [selected]
  rw [src_off_eq (fun d hd => ⟨(hall d hd).2.1, (hall d hd).2.2⟩) hplace hlength le_rfl (by omega),
    Outcome.returned_bind, zero_add]
  rfl

theorem eq_map_of_mapM {ε α β : Type} {f : α → Outcome ε β} {g : α → β} {as : List α} {bs : List β}
    (h : as.mapM f = .returned bs) (hg : ∀ a ∈ as, ∀ v, f a = .returned v → v = g a) :
    bs = as.map g := by
  have hall := Outcome.mapM_eq_returned.mp h
  clear h
  induction hall with
  | nil => rfl
  | cons hfirst _ ih =>
    rw [List.map_cons, hg _ List.mem_cons_self _ hfirst,
      ih fun a ha => hg a (List.mem_cons_of_mem _ ha)]

theorem gather_element_eq {e : Nat} {offset : Int} {v : BitVec 32}
    (h : gather_element values ngrdpts capacity_bytes e offset = .returned v) :
    v = values offset.toNat := by
  rw [gather_element] at h
  split at h
  · cases h
    rfl
  · cases h

theorem elements_zipIdx {β : Type} (r : Region) (f : List Nat → β) :
    r.elements.map f =
      (indices r.count).zipIdx.map fun p => f (place r.start r.stride p.1) := by
  rw [Region.elements, List.map_map]
  conv_lhs => rw [← List.zipIdx_map_fst 0 (indices r.count), List.map_map]
  rfl

theorem gather_returned {out : List (BitVec 32)}
    (hfits : es.prod < 2 ^ 63) (hinside : (selected b).Inside es)
    (hall : ∀ d ∈ b.dims, 1 ≤ b.extents d ∧ 0 ≤ b.offsets d ∧ 0 ≤ b.strides d)
    (h : (indices (selected b).count).zipIdx.mapM (fun (idx, e) => do
        let offset ← src_off b 0 (b.dims.zip (idx.zip (strides es)))
        gather_element values ngrdpts capacity_bytes e offset) = .returned out) :
    out = (selected b).elements.map (delivered values es) := by
  rw [elements_zipIdx]
  apply eq_map_of_mapM h
  intro p hp v hv
  have hidx := List.fst_mem_of_mem_zipIdx hp
  obtain ⟨idx, e⟩ := p
  dsimp only at hv hidx
  rw [gather_turn hfits hinside hall hidx] at hv
  exact gather_element_eq hv

theorem gather_of_inside (hfits : es.prod < 2 ^ 63) (hinside : (selected b).Inside es)
    (hall : ∀ d ∈ b.dims, 1 ≤ b.extents d ∧ 0 ≤ b.offsets d ∧ 0 ≤ b.strides d)
    (hrecord : ∀ j ∈ (selected b).elements, 0 ≤ offset j (strides es) ∧
      offset j (strides es) < ngrdpts)
    (hcapacity : (selected b).count.prod * 4 ≤ capacity_bytes) :
    (indices (selected b).count).zipIdx.mapM (fun (idx, e) => do
        let offset ← src_off b 0 (b.dims.zip (idx.zip (strides es)))
        gather_element values ngrdpts capacity_bytes e offset) =
      .returned ((selected b).elements.map (delivered values es)) := by
  rw [elements_zipIdx]
  apply Outcome.mapM_of_returned
  intro p hp
  have hidx := List.fst_mem_of_mem_zipIdx hp
  have hplace := List.snd_lt_of_mem_zipIdx hp
  rw [length_indices] at hplace
  obtain ⟨idx, e⟩ := p
  dsimp only at hidx hplace ⊢
  have hj := hrecord _ (List.mem_map_of_mem hidx)
  rw [gather_turn hfits hinside hall hidx, gather_element, if_pos ⟨hj.1, hj.2, by omega⟩]
  rfl

end Box

/-! ### The grid of the record -/

theorem grid_points {gfld : GribField} (h : 0 < gfld.ngrdpts) :
    0 < (grid_of gfld).1 ∧ 0 < (grid_of gfld).2 ∧
      (grid_of gfld).1 * (grid_of gfld).2 = gfld.ngrdpts := by
  unfold grid_of
  generalize template_grid gfld = grid
  obtain ⟨ni, nj⟩ := grid
  dsimp only
  split
  · exact ⟨h, one_pos, mul_one _⟩
  · next hno =>
    push Not at hno
    exact hno

theorem exists_grid {gfld : GribField} (h : 0 < gfld.ngrdpts) :
    ∃ ni nj n : Nat, grid_of gfld = ((ni : Int), (nj : Int)) ∧ gfld.ngrdpts = n ∧ 0 < ni ∧ 0 < nj ∧
      nj * ni = n := by
  obtain ⟨hni, hnj, hprod⟩ := grid_points h
  obtain ⟨ni, hni'⟩ := Int.eq_ofNat_of_zero_le hni.le
  obtain ⟨nj, hnj'⟩ := Int.eq_ofNat_of_zero_le hnj.le
  rw [hni', hnj'] at hprod
  rw [hni'] at hni
  rw [hnj'] at hnj
  refine ⟨ni, nj, nj * ni, Prod.ext hni' hnj', ?_, by omega, by omega, rfl⟩
  rw [← hprod]
  push_cast
  ring

/-- A value at one place. -/
def spike (k : Nat) : FieldValues := fun i => if i = k then 1 else 0

theorem eq_of_spike {k l : Nat} (h : spike k l = spike k k) : l = k := by
  by_contra hne
  simp [spike, hne] at h

section Rank2
variable {gfld : GribField} {b : BoundingBox} {I J ni nj : Nat}

theorem dims_one (hrank : b.rank = 1) : b.dims = [0] := by
  rw [BoundingBox.dims, hrank]
  decide

theorem dims_two (hrank : b.rank = 2) : b.dims = [0, 1] := by
  rw [BoundingBox.dims, hrank]
  decide

theorem delivered_two (values : FieldValues) (a c : Nat) :
    delivered values [J, I] [a, c] = values (a * I + c) := by
  have hoffset : offset [a, c] (strides [J, I]) = ((a * I + c : Nat) : Int) := by
    simp [strides]
  rw [delivered, hoffset, Int.toNat_natCast]

theorem record_value_two (hgrid : grid_of gfld = ((ni : Int), (nj : Int))) (values : FieldValues)
    (a c : Nat) :
    record_value gfld values [a, c] =
      if a < nj ∧ c < ni then some (values (a * ni + c)) else none := by
  rw [record_value, hgrid]
  simp

theorem elements_two (hrank : b.rank = 2)
    (hall : ∀ d ∈ b.dims, 1 ≤ b.extents d ∧ 0 ≤ b.offsets d ∧ 0 ≤ b.strides d) :
    ∃ A C : Nat, last b 0 = A ∧ last b 1 = C ∧ [A, C] ∈ (selected b).elements ∧
      ∀ j ∈ (selected b).elements, ∃ a c, j = [a, c] ∧ a ≤ A ∧ c ≤ C := by
  rw [dims_two hrank] at hall
  have hsel : selected b = ⟨[(b.offsets 0).toNat, (b.offsets 1).toNat],
      [(b.extents 0).toNat, (b.extents 1).toNat], [(b.strides 0).toNat, (b.strides 1).toNat]⟩ := by
    rw [selected, dims_two hrank]
    rfl
  have haxis : ∀ d, 1 ≤ b.extents d ∧ 0 ≤ b.offsets d ∧ 0 ≤ b.strides d → last b d =
      (((b.offsets d).toNat + ((b.extents d).toNat - 1) * (b.strides d).toNat : Nat) : Int) := by
    intro d ⟨hextent, hoffset, hstride⟩
    rw [last]
    push_cast [Int.toNat_of_nonneg hoffset, Int.toNat_of_nonneg hstride]
    rw [Nat.cast_sub (by omega), Int.toNat_of_nonneg (by omega)]
    rfl
  obtain ⟨h0, h1⟩ : (1 ≤ b.extents 0 ∧ 0 ≤ b.offsets 0 ∧ 0 ≤ b.strides 0) ∧
      (1 ≤ b.extents 1 ∧ 0 ≤ b.offsets 1 ∧ 0 ≤ b.strides 1) :=
    ⟨hall 0 (by simp), hall 1 (by simp)⟩
  refine ⟨_, _, haxis 0 h0, haxis 1 h1, ?_, ?_⟩
  · rw [hsel, Region.elements, List.mem_map]
    refine ⟨[(b.extents 0).toNat - 1, (b.extents 1).toNat - 1], ?_, rfl⟩
    rw [mem_indices]
    exact .cons (by omega) (.cons (by omega) .nil)
  · intro j hj
    rw [hsel, Region.elements, List.mem_map] at hj
    obtain ⟨idx, hidx, rfl⟩ := hj
    obtain ⟨k, rest, hk, hrest, rfl⟩ := List.forall₂_cons_right_iff.mp (mem_indices.mp hidx)
    obtain ⟨l, rest', hl, hrest', rfl⟩ := List.forall₂_cons_right_iff.mp hrest
    obtain rfl := List.forall₂_nil_right_iff.mp hrest'
    refine ⟨_, _, rfl, ?_, ?_⟩
    · exact Nat.add_le_add_left (Nat.mul_le_mul_right _ (by omega)) _
    · exact Nat.add_le_add_left (Nat.mul_le_mul_right _ (by omega)) _

end Rank2

/-! ### What is delivered -/

/-- Whatever the values, what is returned is what the region asks for. -/
def ResultSound (gfld : GribField) (region : Region)
    (result : FieldValues → Outcome String (List (BitVec 32))) : Prop :=
  ∀ values, match result values with
    | .returned out => out.map some = region.elements.map (record_value gfld values)
    | .thrown _ => True
    | .undefined => False

theorem noThrow_src_off (b : BoundingBox) (acc : Int) (axes : List (Fin kMaxRank × Nat × Int)) :
    NoThrow (src_off b acc axes) := by
  induction axes generalizing acc with
  | nil => exact .returned acc
  | cons axis axes ih =>
    obtain ⟨d, idx, full_stride⟩ := axis
    rw [src_off]
    apply (NoThrow.signed _ _).bind
    intro along
    apply (NoThrow.signed _ _).bind
    intro at_axis
    apply (NoThrow.signed _ _).bind
    intro term
    apply (NoThrow.signed _ _).bind
    intro next
    exact ih next

theorem noThrow_gather_element (values : FieldValues) (ngrdpts : Int) (capacity_bytes e : Nat)
    (offset : Int) : NoThrow (gather_element values ngrdpts capacity_bytes e offset) := by
  rw [gather_element]
  split
  · exact .returned _
  · intro e h
    cases h

/-- The loop delivers the right elements just when each multi-index means the
    same element to the code and to the record. -/
theorem loop_sound_iff {gfld : GribField} {capacity_bytes : Nat} {b : BoundingBox} {es : List Nat}
    (hfits : es.prod < 2 ^ 63) (hinside : (selected b).Inside es)
    (hall : ∀ d ∈ b.dims, 1 ≤ b.extents d ∧ 0 ≤ b.offsets d ∧ 0 ≤ b.strides d)
    (hsize : (∀ j ∈ (selected b).elements, ∀ values,
        record_value gfld values j = some (delivered values es j)) →
      (∀ j ∈ (selected b).elements, 0 ≤ offset j (strides es) ∧
        offset j (strides es) < gfld.ngrdpts) ∧
      (selected b).count.prod * 4 ≤ capacity_bytes) :
    ResultSound gfld (selected b) (fun values =>
      (indices (selected b).count).zipIdx.mapM fun (idx, e) => do
        let offset ← src_off b 0 (b.dims.zip (idx.zip (strides es)))
        gather_element values gfld.ngrdpts capacity_bytes e offset) ↔
    ∀ j ∈ (selected b).elements, ∀ values,
      record_value gfld values j = some (delivered values es j) := by
  constructor
  · intro hsound j hj values
    have hvalues := hsound values
    dsimp only at hvalues
    split at hvalues
    · next out hout =>
      rw [gather_returned hfits hinside hall hout, List.map_map] at hvalues
      exact (List.map_inj_left.mp hvalues j hj).symm
    · next e hthrown =>
      -- no turn of the loop throws
      apply absurd hthrown
      apply NoThrow.mapM
      intro p
      apply (noThrow_src_off _ _ _).bind
      intro offset
      exact noThrow_gather_element _ _ _ _ _
    · exact hvalues.elim
  · intro hsame values
    obtain ⟨hrecord, hcapacity⟩ := hsize hsame
    dsimp only
    rw [gather_of_inside hfits hinside hall hrecord hcapacity]
    dsimp only
    rw [List.map_map]
    apply List.map_congr_left
    intro j hj
    exact (hsame j hj values).symm

/-- An entry that has been built: rows have a length, and all points a number. -/
def EntryFits (entry : GribFieldIndex) : Prop :=
  entry.nj > 1 → 0 < entry.ni ∧ Fits 64 (entry.ni * entry.nj)

theorem loop_sound_one {gfld : GribField} {capacity_bytes : Nat} {b : BoundingBox} {n : Nat}
    (hn : gfld.ngrdpts = n) (hmax : n * 4 ≤ GRIB2_Driver.max_size)
    (hinside : (selected b).Inside [n])
    (hle : List.Forall₂ (· ≤ ·) (selected b).count [n])
    (hall : ∀ d ∈ b.dims, 1 ≤ b.extents d ∧ 0 ≤ b.offsets d ∧ 0 ≤ b.strides d)
    (hcapacity : ¬ Word.mul 64 (selected b).count.prod 4 > capacity_bytes) :
    ResultSound gfld (selected b) (fun values =>
      (indices (selected b).count).zipIdx.mapM fun (idx, e) => do
        let offset ← src_off b 0 (b.dims.zip (idx.zip (strides [n])))
        gather_element values gfld.ngrdpts capacity_bytes e offset) := by
  have hmem : ∀ j ∈ (selected b).elements, ∃ i, j = [i] ∧ i < n := by
    intro j hj
    obtain ⟨i, rest, hi, hrest, rfl⟩ :=
      List.forall₂_cons_right_iff.mp (mem_indices.mp (hinside.elements_subset hj))
    obtain rfl := List.forall₂_nil_right_iff.mp hrest
    exact ⟨i, rfl, hi⟩
  have hoffset : ∀ i : Nat, offset [i] (strides [n]) = i := by
    intro i
    simp [strides]
  rw [GRIB2_Driver.max_size] at hmax
  have hcount : (selected b).count.prod ≤ n := by simpa using prod_le_prod hle
  rw [Word.mul, Nat.mod_eq_of_lt (by omega)] at hcapacity
  apply (loop_sound_iff (by simpa using (by omega : n < 2 ^ 63)) hinside hall ?_).mpr
  · intro j hj values
    obtain ⟨i, rfl, hi⟩ := hmem j hj
    rw [delivered, hoffset, Int.toNat_natCast, record_value, if_pos (by omega)]
  · intro _
    refine ⟨?_, by omega⟩
    intro j hj
    obtain ⟨i, rfl, hi⟩ := hmem j hj
    rw [hoffset, hn]
    omega

/-- A box in two dimensions. -/
theorem loop_sound_two_iff {gfld : GribField} {entry : GribFieldIndex} {capacity_bytes : Nat}
    {b : BoundingBox} {I J : Nat} (hpoints : 0 < gfld.ngrdpts)
    (hmax : gfld.ngrdpts.toNat * 4 ≤ GRIB2_Driver.max_size)
    (hI : entry.ni = I) (hJ : entry.nj > 1) (hfits : [J, I].prod < 2 ^ 63)
    (hrank : b.rank = 2) (hinside : (selected b).Inside [J, I])
    (hle : List.Forall₂ (fun (n : Nat) d => (n : Int) ≤ last b d + 1) (selected b).count b.dims)
    (hall : ∀ d ∈ b.dims, 1 ≤ b.extents d ∧ 0 ≤ b.offsets d ∧ 0 ≤ b.strides d)
    (hcapacity : ¬ Word.mul 64 (selected b).count.prod 4 > capacity_bytes) :
    ResultSound gfld (selected b) (fun values =>
      (indices (selected b).count).zipIdx.mapM fun (idx, e) => do
        let offset ← src_off b 0 (b.dims.zip (idx.zip (strides [J, I])))
        gather_element values gfld.ngrdpts capacity_bytes e offset) ↔
    InOwnGrid entry gfld b := by
  obtain ⟨ni, nj, n, hgrid, hn, hni, hnj, hprod⟩ := exists_grid hpoints
  obtain ⟨A, C, hA, hC, hlast, hmem⟩ := elements_two hrank hall
  rw [hn, Int.toNat_natCast, GRIB2_Driver.max_size] at hmax
  -- what the condition says of the last multi-index of the box
  have hown : InOwnGrid entry gfld b ↔ A < nj ∧ C < ni ∧ (A = 0 ∨ ni = I) := by
    rw [InOwnGrid, hgrid, hA, hC, hI]
    simp [hJ]
  have hoffset : ∀ a c : Nat, offset [a, c] (strides [J, I]) = ((a * I + c : Nat) : Int) := by
    intro a c
    simp [strides]
  have hbelow : ∀ {a c : Nat}, a < nj → c < ni → a * ni + c < n := by
    intro a c ha hc
    have hrow : (a + 1) * ni ≤ nj * ni := Nat.mul_le_mul_right _ ha
    rw [Nat.succ_mul] at hrow
    omega
  have hsame : (∀ j ∈ (selected b).elements, ∀ values,
      record_value gfld values j = some (delivered values [J, I] j)) ↔
      A < nj ∧ C < ni ∧ (A = 0 ∨ ni = I) := by
    constructor
    · intro hall
      have hspike := hall _ hlast (spike (A * I + C))
      rw [record_value_two hgrid, delivered_two] at hspike
      split at hspike
      · next hlt =>
        refine ⟨hlt.1, hlt.2, ?_⟩
        have heq := eq_of_spike (Option.some.inj hspike)
        rcases Nat.eq_zero_or_pos A with h0 | hpos
        · exact .inl h0
        · exact .inr (Nat.eq_of_mul_eq_mul_left hpos (by omega))
      · cases hspike
    · rintro ⟨hAlt, hClt, hor⟩ j hj values
      obtain ⟨a, c, rfl, ha, hc⟩ := hmem j hj
      rw [record_value_two hgrid, delivered_two, if_pos ⟨by omega, by omega⟩]
      rcases hor with h0 | heq
      · obtain rfl : a = 0 := by omega
        simp
      · rw [heq]
  rw [hown, ← hsame]
  apply loop_sound_iff hfits hinside hall
  intro hall'
  obtain ⟨hAlt, hClt, hor⟩ := hsame.mp hall'
  constructor
  · intro j hj
    obtain ⟨a, c, rfl, ha, hc⟩ := hmem j hj
    have hlt : a * I + c < n := by
      rcases hor with h0 | heq
      · obtain rfl : a = 0 := by omega
        simpa using hbelow hnj (show c < ni by omega)
      · rw [← heq]
        exact hbelow (by omega) (by omega)
    rw [hoffset, hn]
    omega
  · have hcount : (selected b).count.prod ≤ n := by
      rw [dims_two hrank] at hle
      obtain ⟨x, rest, hx, hrest, hxs⟩ := List.forall₂_cons_right_iff.mp hle
      obtain ⟨y, rest', hy, hrest', hys⟩ := List.forall₂_cons_right_iff.mp hrest
      obtain rfl := List.forall₂_nil_right_iff.mp hrest'
      rw [hxs, hys]
      have hxy : x * y ≤ nj * ni := Nat.mul_le_mul (by omega) (by omega)
      simpa [hprod] using hxy
    rw [Word.mul, Nat.mod_eq_of_lt (by omega)] at hcapacity
    omega

theorem count_le_last {b : BoundingBox} {axes : List (Fin kMaxRank × Int)} (h : Passes b axes)
    (hdims : axes.map (·.1) = b.dims) :
    List.Forall₂ (fun (n : Nat) d => (n : Int) ≤ last b d + 1) (selected b).count b.dims := by
  rw [selected, List.forall₂_map_left_iff, List.forall₂_same, ← hdims]
  intro d hd
  obtain ⟨axis, haxis, rfl⟩ := List.mem_map.mp hd
  obtain ⟨⟨hextent, hstride, hoffset⟩, -⟩ := h axis haxis
  have hgrow : (b.extents axis.1 - 1) * 1 ≤ (b.extents axis.1 - 1) * b.strides axis.1 :=
    mul_le_mul_of_nonneg_left hstride (by omega)
  rw [last]
  omega

theorem resultSound_congr {gfld : GribField} {region : Region}
    {f g : FieldValues → Outcome String (List (BitVec 32))} (h : ∀ values, f values = g values) :
    ResultSound gfld region f ↔ ResultSound gfld region g := by
  rw [funext h]

theorem grid_cases {entry : GribFieldIndex} {gfld : GribField} (hentry : EntryFits entry)
    (hpoints : 0 < gfld.ngrdpts) (hmax : gfld.ngrdpts.toNat * 4 ≤ GRIB2_Driver.max_size) :
    ∃ es : List Nat, grid_extents entry gfld.ngrdpts = es.map (↑) ∧ (∀ e ∈ es, 0 < e) ∧
      es.prod < 2 ^ 63 ∧
      ((entry.nj > 1 ∧ ∃ I J : Nat, es = [J, I] ∧ entry.ni = I) ∨
        (¬ entry.nj > 1 ∧ ∃ n : Nat, es = [n] ∧ gfld.ngrdpts = n)) := by
  by_cases hnj : entry.nj > 1
  · obtain ⟨hni, hfits⟩ := hentry hnj
    obtain ⟨I, hI⟩ := Int.eq_ofNat_of_zero_le hni.le
    obtain ⟨J, hJ⟩ := Int.eq_ofNat_of_zero_le (by omega : 0 ≤ entry.nj)
    rw [hI, hJ, fits_64] at hfits
    have hprod : ((I * J : Nat) : Int) ≤ 9223372036854775807 := by
      push_cast
      exact hfits.2
    refine ⟨[J, I], ?_, ?_, ?_, .inl ⟨hnj, I, J, rfl, hI⟩⟩
    · rw [grid_extents, if_pos hnj, hI, hJ]
      rfl
    · intro e he
      simp only [List.mem_cons, List.not_mem_nil, or_false] at he
      rcases he with rfl | rfl <;> omega
    · rw [List.prod_cons, List.prod_singleton, Nat.mul_comm]
      omega
  · obtain ⟨n, hn⟩ := Int.eq_ofNat_of_zero_le hpoints.le
    rw [hn, Int.toNat_natCast, GRIB2_Driver.max_size] at hmax
    refine ⟨[n], ?_, ?_, ?_, .inr ⟨hnj, n, rfl, hn⟩⟩
    · rw [grid_extents, if_neg hnj, hn]
      rfl
    · intro e he
      rw [List.mem_singleton.mp he]
      omega
    · rw [List.prod_singleton]
      omega

/-- A box of a decoded record. -/
theorem deliver_box_sound_iff (name : String) {entry : GribFieldIndex} {gfld : GribField}
    (capacity_bytes : Nat) (b : BoundingBox) (hentry : EntryFits entry) (hpoints : 0 < gfld.ngrdpts)
    (hmax : gfld.ngrdpts.toNat * 4 ≤ GRIB2_Driver.max_size) :
    ResultSound gfld (selected b)
      (fun values => deliver_box name entry gfld.ngrdpts values capacity_bytes b) ↔
    Deliverable entry gfld capacity_bytes (some b) := by
  rw [Deliverable]
  by_cases hrank : b.rank = (grid_extents entry gfld.ngrdpts).length
  swap
  · apply iff_of_true _ (.inl hrank)
    intro values
    dsimp only
    rw [deliver_box, if_pos hrank]
    trivial
  rw [or_iff_right (not_not_intro hrank)]
  rcases check_box name b (b.dims.zip (grid_extents entry gfld.ngrdpts)) 1 with
    ⟨hpasses, hfine, hloop⟩ | ⟨hfine, e, hloop⟩ | ⟨hfine, hloop⟩
  · rw [hfine]
    obtain ⟨es, hgrid, hpos, hfits, hcases⟩ := grid_cases hentry hpoints hmax
    have hlength : b.rank = es.length := by rw [hrank, hgrid, List.length_map]
    have hdims : b.dims.length = es.length := by
      rcases hcases with ⟨_, I, J, rfl, _⟩ | ⟨_, n, rfl, _⟩
      · rw [dims_two hlength]
        rfl
      · rw [dims_one hlength]
        rfl
    obtain ⟨hinside, hle, hall⟩ := inside_of_passes hdims (hgrid ▸ hpasses)
    rw [resultSound_congr fun values =>
      deliver_box_eq values hgrid hlength hdims hpos hfits hpasses hloop]
    by_cases hcapacity : Word.mul 64 (selected b).count.prod 4 > capacity_bytes
    · apply iff_of_true _ (.inl hcapacity)
      intro values
      dsimp only
      rw [if_pos hcapacity]
      trivial
    · rw [or_iff_right hcapacity, resultSound_congr fun values => if_neg hcapacity]
      rcases hcases with ⟨hnj, I, J, rfl, hI⟩ | ⟨hnj, n, rfl, hn⟩
      · have hfst : (b.dims.zip (grid_extents entry gfld.ngrdpts)).map (·.1) = b.dims := by
          apply List.map_fst_zip
          rw [hdims, hgrid, List.length_map]
        exact loop_sound_two_iff hpoints hmax hI hnj hfits hlength hinside
          (count_le_last hpasses hfst) hall hcapacity
      · rw [hn, Int.toNat_natCast] at hmax
        exact iff_of_true (loop_sound_one hn hmax hinside hle hall hcapacity)
          fun hgt => absurd hgt hnj
  · apply iff_of_true _ (hfine _)
    intro values
    dsimp only
    rw [deliver_box, if_neg (not_not_intro hrank), hloop]
    trivial
  · apply iff_of_false _ (hfine _)
    intro hsound
    have hzero := hsound fun _ => 0
    dsimp only at hzero
    rw [deliver_box, if_neg (not_not_intro hrank), hloop] at hzero
    exact hzero

theorem describe_variable_eq {drv : GRIB2_Reader} {name : String} {entry : GribFieldIndex}
    (hinit : drv.initialized = true) (hmode : drv.read_mode = true)
    (hentry : drv.records.lookup name = some entry) (hne : entry.records ≠ []) :
    ∃ info, drv.describe_variable name = some info ∧
      info.shape.sizes =
        if entry.nj > 1 then [entry.nj.toNat, entry.ni.toNat] else [entry.ni.toNat] := by
  rw [GRIB2_Reader.describe_variable, if_neg (by simp [hinit, hmode]), hentry]
  dsimp only
  rw [if_neg hne]
  refine ⟨_, rfl, ?_⟩
  by_cases hnj : entry.nj > 1
  · simp only [if_pos hnj]
    rfl
  · simp only [if_neg hnj]
    rfl

/-- A whole decoded record. -/
theorem deliver_all_sound_iff (name : String) {entry : GribFieldIndex} {gfld : GribField}
    (capacity_bytes : Nat) (hentry : EntryFits entry) (hpoints : 0 < gfld.ngrdpts) :
    ResultSound gfld
      (.whole (if entry.nj > 1 then [entry.nj.toNat, entry.ni.toNat] else [entry.ni.toNat]))
      (fun values => deliver name entry gfld.ngrdpts values capacity_bytes none) ↔
    Deliverable entry gfld capacity_bytes none := by
  obtain ⟨ni, nj, n, hgrid, hn, hni, hnj, hprod⟩ := exists_grid hpoints
  rw [Deliverable, hn, Int.toNat_natCast]
  have hresult : ∀ values, deliver name entry n values capacity_bytes none =
      if n * 4 > capacity_bytes then
        .thrown "GRIB2_Driver::read: decoded payload exceeds staging buffer capacity."
      else .returned ((List.range n).map values) := fun _ => rfl
  rw [resultSound_congr hresult]
  by_cases hcapacity : n * 4 > capacity_bytes
  · apply iff_of_true _ (.inl hcapacity)
    intro values
    dsimp only
    rw [if_pos hcapacity]
    trivial
  rw [or_iff_right hcapacity, resultSound_congr fun values => if_neg hcapacity, SameGrid, hgrid, hn]
  by_cases htwo : entry.nj > 1
  · rw [if_pos htwo, if_pos htwo]
    obtain ⟨I, hI⟩ := Int.eq_ofNat_of_zero_le (hentry htwo).1.le
    obtain ⟨J, hJ⟩ := Int.eq_ofNat_of_zero_le (by omega : 0 ≤ entry.nj)
    have hIpos := (hentry htwo).1
    rw [hI] at hIpos ⊢
    rw [hJ] at htwo ⊢
    rw [Int.toNat_natCast, Int.toNat_natCast]
    constructor
    · intro hsound
      have hzero := hsound fun _ => 0
      dsimp only at hzero
      rw [Region.elements_whole] at hzero
      have hlength := congrArg List.length hzero
      rw [List.length_map, List.length_map, List.length_range, List.length_map, length_indices] at hlength
      -- the last multi-index of the shape lies in the grid of the record
      have hlast : [J - 1, I - 1] ∈ indices [J, I] := by
        rw [mem_indices]
        exact .cons (by omega) (.cons (by omega) .nil)
      have hmem := List.mem_map_of_mem (f := record_value gfld fun _ => 0) hlast
      rw [← hzero, record_value_two hgrid] at hmem
      split at hmem
      · next hlt =>
        have hJle : J ≤ nj := by omega
        have hIle : I ≤ ni := by omega
        rw [List.prod_cons, List.prod_singleton] at hlength
        have hJeq : J = nj := by
          by_contra hne
          have hless : J * I < nj * ni :=
            Nat.mul_lt_mul_of_lt_of_le (by omega) hIle hni
          omega
        subst hJeq
        have hIeq : I = ni := Nat.eq_of_mul_eq_mul_left hnj (by omega)
        rw [hIeq]
      · simp at hmem
    · intro hsame values
      simp only [Prod.mk.injEq, Nat.cast_inj] at hsame
      obtain ⟨rfl, rfl⟩ := hsame
      dsimp only
      rw [Region.elements_whole, indices_eq_map_unrank, List.map_map, List.map_map,
        List.prod_cons, List.prod_singleton, hprod]
      apply List.map_congr_left
      intro k hk
      have hk := List.mem_range.mp hk
      have hrow : k / ni < nj := Nat.div_lt_of_lt_mul (by rw [Nat.mul_comm]; omega)
      have hunrank : unrank [nj, ni] k = [k / ni, k % ni] := by
        simp [unrank, Nat.mod_eq_of_lt hrow]
      show some (values k) = record_value gfld values (unrank [nj, ni] k)
      rw [hunrank, record_value_two hgrid, if_pos ⟨hrow, Nat.mod_lt _ hni⟩, Nat.div_add_mod']
  · rw [if_neg htwo, if_neg htwo]
    have hone : ∀ i : Nat, ∀ values, record_value gfld values [i] =
        if i < n then some (values i) else none := by
      intro i values
      rw [record_value, hn]
      simp
    constructor
    · intro hsound
      have hzero := hsound fun _ => 0
      dsimp only at hzero
      have hlength := congrArg List.length hzero
      rw [Region.elements_whole, List.length_map, List.length_map, List.length_range, List.length_map,
        length_indices, List.prod_singleton] at hlength
      omega
    · intro hsame values
      dsimp only
      rw [hsame, Int.toNat_natCast, Region.elements_whole, indices_eq_map_unrank, List.map_map,
        List.map_map, List.prod_singleton]
      apply List.map_congr_left
      intro k hk
      have hk := List.mem_range.mp hk
      have hunrank : unrank [n] k = [k] := by simp [unrank, Nat.mod_eq_of_lt hk]
      show some (values k) = record_value gfld values (unrank [n] k)
      rw [hunrank, hone, if_pos hk]

/-! ## Section 4: Reading -/

theorem entry_fits {input_path : String} {file : GribFile} {index : Index} {name : String}
    {entry : GribFieldIndex} (hbuilt : build_record_index input_path file = .returned index)
    (hentry : index.lookup name = some entry) : EntryFits entry := by
  rw [build_record_index_eq] at hbuilt
  rcases foldlM_index_event (GribFile.events input_path file) OrdMap.empty with
    ⟨hfits, -, heq⟩ | ⟨-, -, e, heq⟩ | ⟨-, heq⟩
  · rw [heq] at hbuilt
    cases hbuilt
    obtain ⟨r, hr, hni, hnj⟩ := grid_index hentry
    have hgrid := hfits r hr
    intro htwo
    rw [hnj] at htwo ⊢
    rw [hni]
    unfold GridFits at hgrid
    unfold grid_of at htwo ⊢
    generalize template_grid r.header = grid at hgrid htwo ⊢
    obtain ⟨ni, nj⟩ := grid
    dsimp only at hgrid htwo ⊢
    split at htwo
    · exact absurd htwo (lt_irrefl _)
    · next hno =>
      rw [if_neg hno]
      push Not at hno
      exact ⟨hno.1, (hgrid.resolve_left (by omega)).resolve_left (by omega)⟩
  · rw [heq] at hbuilt
    cases hbuilt
  · rw [heq] at hbuilt
    cases hbuilt

/-- The call gets as far as to deliver the record `gfld`. -/
structure Reads (drv : GRIB2_Reader) (fetch : GribRecordLocation → Fetched) (name : String)
    (timestep : Int) (entry : GribFieldIndex) (loc : GribRecordLocation) (gfld : GribField) :
    Prop where
  initialized : drv.initialized = true
  read_mode : drv.read_mode = true
  found : drv.records.lookup name = some entry
  reached : 0 ≤ timestep
  location : entry.records[timestep.toNat]? = some loc
  length : 0 < loc.length
  decoded : fetch loc = .decoded gfld true
  points : 0 < gfld.ngrdpts
  room : gfld.ngrdpts.toNat * 4 ≤ GRIB2_Driver.max_size

theorem read_eq {drv : GRIB2_Reader} {fetch : GribRecordLocation → Fetched} {name : String}
    {timestep : Int} {entry : GribFieldIndex} {loc : GribRecordLocation} {gfld : GribField}
    (h : Reads drv fetch name timestep entry loc gfld) (values : GribRecordLocation → FieldValues)
    (capacity_bytes : Nat) (bbox : Option BoundingBox) :
    drv.read fetch values capacity_bytes name timestep bbox =
      deliver name entry gfld.ngrdpts (values loc) capacity_bytes bbox := by
  have hlt : timestep.toNat < entry.records.length := by
    obtain ⟨hlt, _⟩ := List.getElem?_eq_some_iff.mp h.location
    exact hlt
  have hne : entry.records ≠ [] := List.length_pos_iff.mp (by omega)
  have hnonneg := h.reached
  rw [GRIB2_Reader.read, if_neg (by simp [h.initialized]), if_neg (by simp [h.read_mode]),
    GRIB2_Reader.locate, h.found]
  dsimp only
  rw [if_neg hne, if_neg (by omega), h.location]
  dsimp only
  rw [if_neg (by have := h.length; omega), Outcome.returned_bind]
  dsimp only
  rw [GRIB2_Reader.decode, h.decoded]
  dsimp only
  rw [if_neg (by have := h.points; simp; omega), GRIB2_Driver.allocate,
    if_neg (by have := h.room; omega)]
  rfl

/-- Otherwise it throws. -/
theorem read_cases (drv : GRIB2_Reader) (fetch : GribRecordLocation → Fetched)
    (capacity_bytes : Nat) (name : String) (timestep : Int) (bbox : Option BoundingBox) :
    (∃ entry loc gfld, Reads drv fetch name timestep entry loc gfld) ∨
      ∀ values, ∃ e, drv.read fetch values capacity_bytes name timestep bbox = .thrown e := by
  by_cases hinit : drv.initialized = false
  · right
    intro values
    exact ⟨_, by rw [GRIB2_Reader.read, if_pos hinit]⟩
  by_cases hmode : drv.read_mode = false
  · right
    intro values
    exact ⟨_, by rw [GRIB2_Reader.read, if_neg hinit, if_pos hmode]⟩
  have hread : ∀ values, drv.read fetch values capacity_bytes name timestep bbox = (do
      let (entry, loc) ← drv.locate name timestep
      let ngrdpts ← drv.decode fetch name loc
      deliver name entry ngrdpts (values loc) capacity_bytes bbox) := by
    intro values
    rw [GRIB2_Reader.read, if_neg hinit, if_neg hmode]
  simp only [hread]
  cases hentry : drv.records.lookup name with
  | none =>
    right
    intro values
    rw [GRIB2_Reader.locate, hentry]
    exact ⟨_, rfl⟩
  | some entry =>
    by_cases hne : entry.records = []
    · right
      intro values
      rw [GRIB2_Reader.locate, hentry]
      dsimp only
      rw [if_pos hne]
      exact ⟨_, rfl⟩
    by_cases hrange : timestep < 0 ∨ timestep ≥ entry.records.length
    · right
      intro values
      rw [GRIB2_Reader.locate, hentry]
      dsimp only
      rw [if_neg hne, if_pos hrange]
      exact ⟨_, rfl⟩
    obtain ⟨loc, hloc⟩ : ∃ loc, entry.records[timestep.toNat]? = some loc :=
      ⟨_, List.getElem?_eq_getElem (by omega)⟩
    by_cases hlength : loc.length ≤ 0
    · right
      intro values
      rw [GRIB2_Reader.locate, hentry]
      dsimp only
      rw [if_neg hne, if_neg hrange, hloc]
      dsimp only
      rw [if_pos hlength]
      exact ⟨_, rfl⟩
    have hlocate : drv.locate name timestep = .returned (entry, loc) := by
      rw [GRIB2_Reader.locate, hentry]
      dsimp only
      rw [if_neg hne, if_neg hrange, hloc]
      dsimp only
      rw [if_neg hlength]
    rw [hlocate]
    cases hfetch : fetch loc with
    | decoded gfld has_data =>
      by_cases hdata : gfld.ngrdpts ≤ 0 ∨ has_data = false
      · right
        intro values
        rw [Outcome.returned_bind]
        dsimp only
        rw [GRIB2_Reader.decode, hfetch]
        dsimp only
        rw [if_pos hdata]
        exact ⟨_, rfl⟩
      · by_cases hroom : gfld.ngrdpts.toNat * 4 ≤ GRIB2_Driver.max_size
        · left
          have hhas : has_data = true := by
            by_contra hc
            exact hdata (.inr (by simpa using hc))
          exact ⟨entry, loc, gfld, {
            initialized := by simpa using hinit
            read_mode := by simpa using hmode
            found := hentry
            reached := by omega
            location := hloc
            length := by omega
            decoded := hhas ▸ hfetch
            points := by omega
            room := hroom }⟩
        · right
          intro values
          rw [Outcome.returned_bind]
          dsimp only
          rw [GRIB2_Reader.decode, hfetch]
          dsimp only
          rw [if_neg hdata, GRIB2_Driver.allocate, if_pos (by omega)]
          exact ⟨_, rfl⟩
    | _ =>
      right
      intro values
      rw [Outcome.returned_bind]
      dsimp only
      rw [GRIB2_Reader.decode, hfetch]
      exact ⟨_, rfl⟩

/-- A call that delivers a record. -/
theorem read_sound_of_reads {input_path : String} {file : GribFile} {drv : GRIB2_Reader}
    (hbuilt : build_record_index input_path file = .returned drv.records)
    {fetch : GribRecordLocation → Fetched} {capacity_bytes : Nat} {name : String} {timestep : Int}
    {bbox : Option BoundingBox} {entry : GribFieldIndex} {loc : GribRecordLocation}
    {gfld : GribField} (h : Reads drv fetch name timestep entry loc gfld) :
    ReadSound drv fetch capacity_bytes name timestep bbox ↔
      Deliverable entry gfld capacity_bytes bbox := by
  have hentry := entry_fits hbuilt h.found
  have hne : entry.records ≠ [] := by
    intro hnil
    have hlocation := h.location
    rw [hnil] at hlocation
    cases hlocation
  obtain ⟨info, hinfo, hsizes⟩ :=
    describe_variable_eq h.initialized h.read_mode h.found hne
  have hsound : ResultSound gfld (asked bbox info)
      (fun values => deliver name entry gfld.ngrdpts values capacity_bytes bbox) ↔
      Deliverable entry gfld capacity_bytes bbox := by
    cases bbox with
    | none =>
      rw [asked, hsizes]
      exact deliver_all_sound_iff name capacity_bytes hentry h.points
    | some b => exact deliver_box_sound_iff name capacity_bytes b hentry h.points h.room
  rw [← hsound]
  constructor
  · intro hread values
    have hcall := hread fun _ => values
    rw [read_eq h] at hcall
    dsimp only
    split at hcall
    · next out hout =>
      obtain ⟨entry', loc', gfld', has_data, info', hfound, hlocation, hfetch, hinfo', hvalues⟩ :=
        hcall
      obtain rfl := Option.some.inj (h.found.symm.trans hfound)
      obtain rfl := Option.some.inj (h.location.symm.trans hlocation)
      obtain rfl := Option.some.inj (hinfo.symm.trans hinfo')
      have hgfld := h.decoded.symm.trans hfetch
      injection hgfld with hgfld
      rw [hgfld]
      exact hvalues
    · trivial
    · exact hcall.elim
  · intro hresult values
    have hvalues := hresult (values loc)
    dsimp only at hvalues
    rw [read_eq h]
    split at hvalues
    · exact ⟨entry, loc, gfld, true, info, h.found, h.location, h.decoded, hinfo, hvalues⟩
    · trivial
    · exact hvalues.elim

/-- **Reading a record.** For every index that has been built, what a call
    returns is the values of the record at the multi-indices asked for, in
    row-major order, and nothing is read or written outside the buffers, just
    when the record that is delivered is deliverable. A call that does not get
    as far as to deliver one throws. -/
theorem read_sound_iff {input_path : String} {file : GribFile} {drv : GRIB2_Reader}
    (hbuilt : build_record_index input_path file = .returned drv.records)
    (fetch : GribRecordLocation → Fetched) (capacity_bytes : Nat) (name : String) (timestep : Int)
    (bbox : Option BoundingBox) :
    ReadSound drv fetch capacity_bytes name timestep bbox ↔
      ∀ entry loc gfld, Reads drv fetch name timestep entry loc gfld →
        Deliverable entry gfld capacity_bytes bbox := by
  rcases read_cases drv fetch capacity_bytes name timestep bbox with ⟨entry, loc, gfld, h⟩ | hthrown
  · constructor
    · intro hsound entry' loc' gfld' h'
      exact (read_sound_of_reads hbuilt h').mp hsound
    · intro hall
      exact (read_sound_of_reads hbuilt h).mpr (hall entry loc gfld h)
  · constructor
    · intro hsound entry loc gfld h
      exact (read_sound_of_reads hbuilt h).mp hsound
    · intro _ values
      obtain ⟨e, he⟩ := hthrown values
      rw [he]
      trivial

/-- Temperature at 500 on a grid of `nj` rows of `ni` points. -/
def temperature (ni nj : Int) : GribField where
  ipdtnum := 0
  ipdtmpl := [0, 0, 2, 0, 0, 0, 0, 1, 6, 100, 0, 500, 255, 0, 0]
  igdtmpl := [6, 0, 0, 0, 0, 0, 0, ni, nj]
  ngrdpts := ni * nj

def coarse_record : GribRecord := ⟨0, temperature 3 2, ⟨0, 100, 1⟩⟩

def finer_record : GribRecord := ⟨0, temperature 2 2, ⟨100, 90, 1⟩⟩

/-- Two records of one field; the grid of the second one is smaller. -/
def two_grids_file : GribFile :=
  some [⟨0, 100, true, true, .ok 0, [.ok (temperature 3 2)]⟩,
    ⟨100, 90, true, true, .ok 0, [.ok (temperature 2 2)]⟩]

def two_grids_reader : GRIB2_Reader where
  initialized := true
  read_mode := true
  input_path := "t.grib2"
  records := [coarse_record, finer_record].foldl add_record OrdMap.empty

def two_grids_fetch (loc : GribRecordLocation) : Fetched :=
  .decoded (if loc.offset = 0 then temperature 3 2 else temperature 2 2) true

theorem two_grids_built :
    build_record_index "t.grib2" two_grids_file = .returned two_grids_reader.records := by
  rw [build_record_index_eq]
  rfl

theorem two_grids_entry : two_grids_reader.records.lookup coarse_record.name =
    some ⟨3, 2, 6, [⟨0, 100, 1⟩, ⟨100, 90, 1⟩]⟩ := by
  have hfilter : [coarse_record, finer_record].filter (·.name = coarse_record.name) =
      [coarse_record, finer_record] := by
    have hname : finer_record.name = coarse_record.name := rfl
    simp [hname]
  rw [two_grids_reader, lookup_index, hfilter]
  rfl

/-- All of the grid of the first record. -/
def whole_box : BoundingBox where
  rank := 2
  offsets := fun _ => 0
  extents := fun d => if d = 0 then 2 else 3
  strides := fun _ => 1

theorem reads_past_the_record :
    ¬ ReadSound two_grids_reader two_grids_fetch 24 coarse_record.name 1 (some whole_box) := by
  have hreads : Reads two_grids_reader two_grids_fetch coarse_record.name 1
      ⟨3, 2, 6, [⟨0, 100, 1⟩, ⟨100, 90, 1⟩]⟩ ⟨100, 90, 1⟩ (temperature 2 2) :=
    { initialized := rfl, read_mode := rfl, found := two_grids_entry, reached := by decide
      location := rfl, length := by decide, decoded := rfl, points := by decide
      room := by decide }
  rw [read_sound_of_reads two_grids_built hreads]
  rintro (hrank | hbox)
  · exact absurd rfl hrank
  · -- both axes pass, but the rows of the second record have two points only
    have hfirst := (hbox ⟨by decide, by decide, by decide⟩).2.2 (by decide)
    have hsecond := (hfirst ⟨by decide, by decide, by decide⟩).2.2 (by decide)
    rcases hsecond with hcapacity | hown
    · exact absurd hcapacity (by decide)
    · exact absurd (hown (by decide)).2.1 (by decide)

theorem reads_the_first : ReadSound two_grids_reader two_grids_fetch 24 coarse_record.name 0 none := by
  apply (read_sound_iff two_grids_built two_grids_fetch 24 coarse_record.name 0 none).mpr
  intro entry loc gfld h
  obtain rfl := Option.some.inj (two_grids_entry.symm.trans h.found)
  obtain rfl := Option.some.inj h.location
  have hgfld := h.decoded
  injection hgfld with hgfld
  rw [← hgfld]
  exact .inr rfl

end Amio.Grib2

import Helm.Amio.CoreHandles
import Helm.Framework.RowMajor

/-! # What a read selects

  A read names a timestep and, if it does not want the whole record, a
  bounding box. The box has passed `validate_bbox` against the shape that the
  driver has reported. This module turns both into regions of an array; the
  read functions of the drivers are compared with them.
-/

namespace Amio

open RowMajor Signed
open Boundary (validate_bbox validate_dimension)

/-! ### Conversions -/

/-- `static_cast<std::size_t>` -/
def size_cast (x : Int) : Nat := (x % 2 ^ 64).toNat

/-- `static_cast<std::int64_t>` of a `std::size_t` -/
def int64_cast (n : Nat) : Int := if n < 2 ^ 63 then n else n - 2 ^ 64

theorem size_cast_of_nonneg {x : Int} (h : 0 ≤ x) (hlt : x < 2 ^ 64) : (size_cast x : Int) = x := by
  unfold size_cast
  omega

theorem size_cast_int64_cast {n : Nat} (h : n < 2 ^ 64) : size_cast (int64_cast n) = n := by
  unfold size_cast int64_cast
  split <;> omega

theorem int64_cast_fits {n : Nat} (h : n < 2 ^ 64) : Fits 64 (int64_cast n) := by
  rw [fits_64]
  unfold int64_cast
  split <;> omega

theorem int64_cast_of_pos {n : Nat} (h : n < 2 ^ 64) (hpos : 0 < int64_cast n) :
    int64_cast n = n := by
  unfold int64_cast at hpos ⊢
  split at hpos <;> omega

/-! ### Regions -/

/-- The extents of a shape, in `std::size_t`. -/
def AmioShape.lengths (shape : AmioShape) : List Nat :=
  shape.dims.map fun d => size_cast (shape.extents d)

theorem dims_map {shape : AmioShape} {r : Nat} (hrank : shape.rank = r) (hr : r ≤ kMaxRank) :
    shape.dims.map (·.val) = List.range r := by
  have hcast : ∀ d : Fin kMaxRank, ((d.val : Int) < shape.rank) ↔ d.val < r := by
    intro d
    rw [hrank]
    exact_mod_cast Iff.rfl
  simp only [AmioShape.dims, hcast]
  interval_cases r <;> rfl

theorem length_dims {shape : AmioShape} (hrank : 0 ≤ shape.rank ∧ shape.rank ≤ kMaxRank) :
    (shape.dims.length : Int) = shape.rank := by
  obtain ⟨r, hr⟩ := Int.eq_ofNat_of_zero_le hrank.1
  have hdims := congrArg List.length (dims_map hr (by omega))
  rw [List.length_map, List.length_range] at hdims
  omega

theorem lengths_eq {shape : AmioShape} {r : Nat} {es : List Nat} (hrank : shape.rank = r)
    (hr : r ≤ kMaxRank) (hlength : es.length = r)
    (h : ∀ d : Fin kMaxRank, d.val < r → size_cast (shape.extents d) = es.getD d.val 0) :
    shape.lengths = es := by
  have hdims := dims_map hrank hr
  have hmap : shape.lengths = (shape.dims.map (·.val)).map fun d => es.getD d 0 := by
    rw [AmioShape.lengths, List.map_map]
    apply List.map_congr_left
    intro d hd
    apply h
    have hmem := List.mem_map_of_mem (f := (·.val)) hd
    rw [hdims] at hmem
    exact List.mem_range.mp hmem
  rw [hmap, hdims]
  apply List.ext_getElem
  · simp [hlength]
  · intro i hi hi'
    simp [List.getElem?_eq_getElem hi']

/-- The dimensions that the rank of a box covers. -/
def BoundingBox.dims (box : BoundingBox) : List (Fin kMaxRank) :=
  (List.finRange kMaxRank).filter fun d => (d.val : Int) < box.rank

/-- The region of a box: what it selects of the axes that it names. -/
def BoundingBox.region (box : BoundingBox) : Region where
  start := box.dims.map fun d => size_cast (box.offsets d)
  count := box.dims.map fun d => size_cast (box.extents d)
  stride := box.dims.map fun d => size_cast (box.strides d)

/-- **What the caller asks for**, of a record of the reported shape. -/
def requested (bbox : Option AmioBbox) (shape : AmioShape) : Region :=
  match bbox with
  | none => .whole shape.lengths
  | some b => b.to_bounding_box.region

/-- What the checks have found in one dimension. -/
structure ValidDimension (b : AmioBbox) (shape : AmioShape) (d : Fin kMaxRank) : Prop where
  stride : 1 ≤ b.strides d
  offset : 0 ≤ b.offsets d
  extent : 1 ≤ b.extents d
  last : b.offsets d + (b.extents d - 1) * b.strides d < shape.extents d
  extent_fits : Fits 64 (b.extents d - 1)
  last_fits : Fits 64 (b.offsets d + (b.extents d - 1) * b.strides d)

theorem validate_dimension_ok {b : AmioBbox} {shape : AmioShape} {d : Fin kMaxRank} {u : Unit}
    (h : validate_dimension b shape d = .returned u) : ValidDimension b shape d := by
  rw [validate_dimension] at h
  split at h
  · cases h
  · next hstride =>
    split at h
    · cases h
    · next hoffset =>
      obtain ⟨steps, hsteps, h⟩ := Outcome.bind_eq_returned.mp h
      obtain ⟨span, hspan, h⟩ := Outcome.bind_eq_returned.mp h
      obtain ⟨last, hlast, h⟩ := Outcome.bind_eq_returned.mp h
      obtain rfl := signed_eq_returned hsteps
      obtain rfl := signed_eq_returned hspan
      obtain rfl := signed_eq_returned hlast
      split at h
      · cases h
      · next hok =>
        have hfits : ∀ {x : Int}, (signed 64 x : Outcome AmioStatus Int) = .returned x →
            Fits 64 x := by
          intro x hx
          by_contra hno
          rw [signed_of_not_fits hno] at hx
          cases hx
        exact ⟨by omega, by omega, by omega, by omega, hfits hsteps, hfits hlast⟩

theorem validate_bbox_ok {b : AmioBbox} {shape : AmioShape}
    (h : validate_bbox (some b) shape = .returned ()) :
    b.rank = shape.rank ∧ ∀ d ∈ shape.dims, ValidDimension b shape d := by
  rw [validate_bbox] at h
  split at h
  · cases h
  · next hrank =>
    have hrank : b.rank = shape.rank := by omega
    have hall : ∀ ds : List (Fin kMaxRank),
        ds.foldlM (fun _ d => validate_dimension b shape d) () = .returned () →
        ∀ d ∈ ds, ValidDimension b shape d := by
      intro ds
      induction ds with
      | nil => simp
      | cons d ds ih =>
        intro hds
        rw [List.foldlM_cons] at hds
        obtain ⟨u, hd, hrest⟩ := Outcome.bind_eq_returned.mp hds
        intro d' hd'
        rcases List.mem_cons.mp hd' with rfl | hd'
        · exact validate_dimension_ok hd
        · exact ih hrest d' hd'
    rw [hrank] at h
    exact ⟨hrank, hall _ h⟩

theorem dims_to_bounding_box {b : AmioBbox} {shape : AmioShape} (hrank : b.rank = shape.rank) :
    b.to_bounding_box.dims = shape.dims := by
  rw [BoundingBox.dims, AmioShape.dims, AmioBbox.to_bounding_box, hrank]

theorem region_to_bounding_box {b : AmioBbox} {shape : AmioShape} (hrank : b.rank = shape.rank) :
    b.to_bounding_box.region =
      ⟨shape.dims.map fun d => size_cast (b.offsets d), shape.dims.map fun d => size_cast (b.extents d),
        shape.dims.map fun d => size_cast (b.strides d)⟩ := by
  have hlt : ∀ d ∈ shape.dims, (d.val : Int) < b.rank := by
    intro d hd
    rw [hrank]
    simpa [AmioShape.dims] using hd
  rw [BoundingBox.region, dims_to_bounding_box hrank, Region.mk.injEq]
  refine ⟨?_, ?_, ?_⟩ <;> apply List.map_congr_left <;> intro d hd <;>
    simp [AmioBbox.to_bounding_box, hlt d hd]

theorem requested_lengths {bbox : Option AmioBbox} {shape : AmioShape}
    (hbox : validate_bbox bbox shape = .returned ()) :
    (requested bbox shape).start.length = shape.dims.length ∧
      (requested bbox shape).count.length = shape.dims.length ∧
      (requested bbox shape).stride.length = shape.dims.length := by
  cases bbox with
  | none => simp [requested, Region.whole, AmioShape.lengths]
  | some b =>
    obtain ⟨hrank, -⟩ := validate_bbox_ok hbox
    simp [requested, BoundingBox.region, dims_to_bounding_box hrank]

/-- **What is asked for is inside the record.** -/
theorem requested_inside {bbox : Option AmioBbox} {shape : AmioShape}
    (hfits : ∀ d, Fits 64 (shape.extents d)) (hpos : ∀ e ∈ shape.lengths, 0 < e)
    (h : validate_bbox bbox shape = .returned ()) : (requested bbox shape).Inside shape.lengths := by
  cases bbox with
  | none => exact Region.inside_whole hpos
  | some b =>
    obtain ⟨hrank, hdims⟩ := validate_bbox_ok h
    show (b.to_bounding_box.region).Inside shape.lengths
    rw [region_to_bounding_box hrank]
    apply Region.within_map.mpr
    intro d hd
    have hvalid := hdims d hd
    have hshape := (fits_64.mp (hfits d)).2
    have hspan : 0 ≤ (b.extents d - 1) * b.strides d :=
      mul_nonneg (by have := hvalid.extent; omega) (by have := hvalid.stride; omega)
    have hlast := hvalid.last
    have hoffset := hvalid.offset
    have hextent := hvalid.extent
    have hstride := hvalid.stride
    have hextent' := (fits_64.mp hvalid.extent_fits).2
    have hcast_extent := size_cast_of_nonneg (x := b.extents d) (by omega) (by omega)
    have hcast_offset := size_cast_of_nonneg hoffset (by omega)
    have hcast_shape := size_cast_of_nonneg (x := shape.extents d) (by omega) (by omega)
    refine ⟨by omega, ?_⟩
    -- along an axis with one element the stride does not matter
    rcases hextent.eq_or_lt with hone | hmore
    · have hcount : size_cast (b.extents d) = 1 := by omega
      rw [hcount]
      omega
    · have hle : b.strides d ≤ (b.extents d - 1) * b.strides d := by
        calc b.strides d = 1 * b.strides d := (one_mul _).symm
          _ ≤ (b.extents d - 1) * b.strides d :=
            mul_le_mul_of_nonneg_right (by omega) (by omega)
      have hcast_stride := size_cast_of_nonneg (x := b.strides d) (by omega) (by omega)
      have hint : ((size_cast (b.offsets d) + (size_cast (b.extents d) - 1) *
          size_cast (b.strides d) : Nat) : Int) < (size_cast (shape.extents d) : Nat) := by
        rw [Nat.cast_add, Nat.cast_mul, Nat.cast_sub (by omega), hcast_offset, hcast_extent,
          hcast_stride, hcast_shape]
        push_cast
        exact hlast
      exact_mod_cast hint

end Amio

import Helm.Amio.CoreHandles
import Helm.Amio.DriverWrite

/-! # Bounds of a request

  `validate_bbox` decides whether a selection lies inside a variable, and
  `write` computes the size of its payload. Both work on numbers of the
  caller: the index of the last element is computed in `std::int64_t`,
  where an overflow is undefined behaviour, and the payload in
  `std::size_t`, where it wraps around.

  * **Selections**: the check is exact unless it comes to a dimension whose
    index computation overflows. A selection inside the variable never
    gets there.
  * **Payloads**: the size is exact, or the request is refused, unless the
    size in bytes exceeds `2 ^ 64` and does not wrap around to zero.
-/

namespace Amio.Boundary

open Signed

/-! ## Section 1: Selections -/

/-- The dimensions that the loop of `validate_bbox` visits. -/
def AmioBbox.dims (b : AmioBbox) : List (Fin kMaxRank) :=
  (List.finRange kMaxRank).filter fun d => (d.val : Int) < b.rank

/-- Every selected index of one dimension lies inside the variable. -/
def InRange (b : AmioBbox) (shape : AmioShape) (d : Fin kMaxRank) : Prop :=
  1 ≤ b.extents d ∧ 1 ≤ b.strides d ∧ ∀ k, 0 ≤ k → k < b.extents d →
    0 ≤ b.offsets d + k * b.strides d ∧ b.offsets d + k * b.strides d < shape.extents d

/-- The selection lies inside the variable. -/
def Selects (b : AmioBbox) (shape : AmioShape) : Prop :=
  b.rank = shape.rank ∧ ∀ d ∈ AmioBbox.dims b, InRange b shape d

/-- The last index of a dimension. -/
def last_index (b : AmioBbox) (d : Fin kMaxRank) : Int :=
  b.offsets d + (b.extents d - 1) * b.strides d

/-- The computation of the last index overflows. It is made once the stride
    and the offset have passed. -/
def Overflows (b : AmioBbox) (d : Fin kMaxRank) : Prop :=
  1 ≤ b.strides d ∧ 0 ≤ b.offsets d ∧
    ¬ (Fits 64 (b.extents d - 1) ∧ Fits 64 ((b.extents d - 1) * b.strides d) ∧
      Fits 64 (last_index b d))

section Dimension

variable {b : AmioBbox} {shape : AmioShape} {d : Fin kMaxRank}

theorem inRange_iff :
    InRange b shape d ↔ 1 ≤ b.strides d ∧ 0 ≤ b.offsets d ∧ 1 ≤ b.extents d ∧
      last_index b d < shape.extents d := by
  constructor
  · intro ⟨hextent, hstride, hall⟩
    have hfirst := hall 0 le_rfl (by omega)
    have hlast := hall (b.extents d - 1) (by omega) (by omega)
    rw [zero_mul, add_zero] at hfirst
    exact ⟨hstride, hfirst.1, hextent, hlast.2⟩
  · intro ⟨hstride, hoffset, hextent, hlast⟩
    refine ⟨hextent, hstride, ?_⟩
    intro k hk hlt
    have hnonneg : 0 ≤ k * b.strides d := mul_nonneg hk (by omega)
    have hle : k * b.strides d ≤ (b.extents d - 1) * b.strides d :=
      mul_le_mul_of_nonneg_right (by omega) (by omega)
    rw [last_index] at hlast
    exact ⟨by omega, by omega⟩

theorem validate_dimension_of_overflows (h : Overflows b d) :
    validate_dimension b shape d = .undefined := by
  obtain ⟨hstride, hoffset, hfits⟩ := h
  rw [validate_dimension, if_neg (by omega), if_neg (by omega)]
  by_cases hsteps : Fits 64 (b.extents d - 1)
  · rw [signed_of_fits hsteps, Outcome.returned_bind]
    by_cases hspan : Fits 64 ((b.extents d - 1) * b.strides d)
    · have hlast : ¬ Fits 64 (b.offsets d + (b.extents d - 1) * b.strides d) :=
        fun hlast => hfits ⟨hsteps, hspan, hlast⟩
      rw [signed_of_fits hspan, Outcome.returned_bind, signed_of_not_fits hlast]
      rfl
    · rw [signed_of_not_fits hspan]
      rfl
  · rw [signed_of_not_fits hsteps]
    rfl

/-- **One dimension.** Without an overflow the check is exact. -/
theorem validate_dimension_of_fits (shape : AmioShape) (h : ¬ Overflows b d) :
    (validate_dimension b shape d = .returned () ∧ InRange b shape d) ∨
      (validate_dimension b shape d = .thrown .ERR_INVALID_INPUT ∧ ¬ InRange b shape d) := by
  rw [inRange_iff, validate_dimension]
  by_cases hstride : b.strides d < 1
  · exact .inr ⟨if_pos hstride, fun hc => absurd hc.1 (by omega)⟩
  rw [if_neg hstride]
  by_cases hoffset : b.offsets d < 0
  · exact .inr ⟨if_pos hoffset, fun hc => absurd hc.2.1 (by omega)⟩
  rw [if_neg hoffset]
  have hfits : Fits 64 (b.extents d - 1) ∧ Fits 64 ((b.extents d - 1) * b.strides d) ∧
      Fits 64 (last_index b d) := by
    by_contra hc
    exact h ⟨by omega, by omega, hc⟩
  obtain ⟨hsteps, hspan, hlast⟩ := hfits
  rw [last_index] at hlast
  rw [signed_of_fits hsteps, Outcome.returned_bind, signed_of_fits hspan, Outcome.returned_bind,
    signed_of_fits hlast, Outcome.returned_bind]
  by_cases hbad : b.extents d < 1 ∨ last_index b d ≥ shape.extents d
  · exact .inr ⟨if_pos hbad, fun hc => by omega⟩
  · exact .inl ⟨if_neg hbad, by omega⟩

end Dimension

theorem checks_cases {ε α : Type} (check : α → Outcome ε Unit) (l : List α) :
    (l.foldlM (fun _ a => check a) () = .returned () ∧ ∀ a ∈ l, check a = .returned ()) ∨
      ∃ front a back, l = front ++ a :: back ∧ (∀ a' ∈ front, check a' = .returned ()) ∧
        check a ≠ .returned () ∧ l.foldlM (fun _ a => check a) () = check a := by
  induction l with
  | nil => exact .inl ⟨rfl, fun a ha => absurd ha List.not_mem_nil⟩
  | cons a l ih =>
    rw [List.foldlM_cons]
    by_cases ha : check a = .returned ()
    · rw [ha, Outcome.returned_bind]
      rcases ih with ⟨hrun, hall⟩ | ⟨front, a', back, hl, hfront, ha', hrun⟩
      · exact .inl ⟨hrun, List.forall_mem_cons.mpr ⟨ha, hall⟩⟩
      · refine .inr ⟨a :: front, a', back, by rw [hl, List.cons_append], ?_, ha', hrun⟩
        exact List.forall_mem_cons.mpr ⟨ha, hfront⟩
    · refine .inr ⟨[], a, l, rfl, fun _ h => absurd h List.not_mem_nil, ha, ?_⟩
      cases hcheck : check a with
      | returned u => exact absurd hcheck ha
      | thrown e => rfl
      | undefined => rfl

/-- The selection is accepted exactly when it lies inside the variable, and
    refused otherwise. -/
def Decides (b : AmioBbox) (shape : AmioShape) : Prop :=
  (validate_bbox (some b) shape = .returned () ∧ Selects b shape) ∨
    (validate_bbox (some b) shape = .thrown .ERR_INVALID_INPUT ∧ ¬ Selects b shape)

/-- The first dimension in which the selection leaves the variable, if any,
    does not overflow. -/
def FirstFits (b : AmioBbox) (shape : AmioShape) : Prop :=
  b.rank = shape.rank → ∀ d ∈ AmioBbox.dims b,
    (∀ d' ∈ AmioBbox.dims b, d' < d → InRange b shape d') → ¬ Overflows b d

theorem mem_front_iff {b : AmioBbox} {front back : List (Fin kMaxRank)} {d d' : Fin kMaxRank}
    (h : AmioBbox.dims b = front ++ d :: back) :
    d' ∈ front ↔ d' ∈ AmioBbox.dims b ∧ d' < d := by
  have hsorted : (AmioBbox.dims b).Pairwise (· < ·) :=
    (List.pairwise_lt_finRange kMaxRank).filter _
  rw [h, List.pairwise_append, List.pairwise_cons] at hsorted
  obtain ⟨_, ⟨hback, _⟩, hfront⟩ := hsorted
  rw [h, List.mem_append, List.mem_cons]
  constructor
  · intro hmem
    exact ⟨.inl hmem, hfront d' hmem d List.mem_cons_self⟩
  · intro ⟨hmem, hlt⟩
    rcases hmem with hmem | rfl | hmem
    · exact hmem
    · exact absurd hlt (lt_irrefl _)
    · exact absurd (hback d' hmem) (not_lt.mpr hlt.le)

theorem inRange_of_returned {b : AmioBbox} {shape : AmioShape} {d : Fin kMaxRank}
    (h : validate_dimension b shape d = .returned ()) : InRange b shape d := by
  by_cases hover : Overflows b d
  · rw [validate_dimension_of_overflows hover] at h
    cases h
  · rcases validate_dimension_of_fits shape hover with ⟨_, hin⟩ | ⟨hthrown, _⟩
    · exact hin
    · rw [hthrown] at h
      cases h

/-- **The whole check.** -/
theorem decides_iff (b : AmioBbox) (shape : AmioShape) : Decides b shape ↔ FirstFits b shape := by
  by_cases hrank : b.rank = shape.rank
  · have hrun : validate_bbox (some b) shape =
        (AmioBbox.dims b).foldlM (fun _ d => validate_dimension b shape d) () := by
      rw [validate_bbox]
      exact if_neg (not_not.mpr hrank)
    rw [Decides, hrun]
    rcases checks_cases (validate_dimension b shape) (AmioBbox.dims b) with
      ⟨hret, hall⟩ | ⟨front, d, back, hdims, hfront, hd, hret⟩
    · -- every dimension has passed
      rw [hret]
      have hselects : Selects b shape := ⟨hrank, fun d hd => inRange_of_returned (hall d hd)⟩
      refine iff_of_true (.inl ⟨rfl, hselects⟩) ?_
      intro _ d hd _ hover
      have hundefined := (hall d hd).symm.trans (validate_dimension_of_overflows hover)
      cases hundefined
    · -- `d` is the first one that has not
      have hmem : d ∈ AmioBbox.dims b := by
        rw [hdims]
        exact List.mem_append_right _ List.mem_cons_self
      have hbefore : ∀ d' ∈ AmioBbox.dims b, d' < d → InRange b shape d' := by
        intro d' hd' hlt
        exact inRange_of_returned (hfront d' ((mem_front_iff hdims).mpr ⟨hd', hlt⟩))
      rw [hret]
      by_cases hover : Overflows b d
      · rw [validate_dimension_of_overflows hover]
        refine iff_of_false ?_ fun hfits => hfits hrank d hmem hbefore hover
        rintro (⟨hc, _⟩ | ⟨hc, _⟩) <;> cases hc
      · rcases validate_dimension_of_fits shape hover with ⟨hc, _⟩ | ⟨hthrown, hout⟩
        · exact absurd hc hd
        · rw [hthrown]
          refine iff_of_true (.inr ⟨rfl, fun hselects => hout (hselects.2 d hmem)⟩) ?_
          intro _ d' hd' hbefore' hover'
          rcases lt_trichotomy d' d with hlt | rfl | hlt
          · have hundefined := (hfront d' ((mem_front_iff hdims).mpr ⟨hd', hlt⟩)).symm.trans
              (validate_dimension_of_overflows hover')
            cases hundefined
          · exact hover hover'
          · exact hout (hbefore' d hmem hlt)
  · refine iff_of_true (.inr ⟨?_, fun hselects => hrank hselects.1⟩) fun h => absurd h hrank
    rw [validate_bbox]
    exact if_pos hrank

/-! ## Section 2: Payloads -/

/-- The size of the payload over the integers. -/
def exact_bytes (dtype : Dtype) (shape : AmioShape) : Nat :=
  element_size dtype * shape.sizes.prod

/-- The size computed is exact, or the request is refused. -/
def PayloadExact (args : WriteArgs) : Prop :=
  (∃ req, validate_write args = .ok req ∧ req.payload_bytes = exact_bytes req.dtype req.shape) ∨
    validate_write args = .error .ERR_INVALID_INPUT

/-- The size in bytes is below `2 ^ 64`, or wraps around to zero; or the
    arguments are refused for themselves. -/
def SizeFits (args : WriteArgs) : Prop :=
  ∀ shape, args.shape = some shape → args.host_data ≠ none → args.var_name ≠ none →
    validate_shape shape = true →
    exact_bytes args.dtype shape < 2 ^ 64 ∨ 2 ^ 64 ∣ exact_bytes args.dtype shape

theorem validate_write_eq {args : WriteArgs} {shape : AmioShape} {data name : List (BitVec 8)}
    (hdata : args.host_data = some data) (hname : args.var_name = some name)
    (hshape : args.shape = some shape) (hvalid : validate_shape shape = true) :
    validate_write args =
      if exact_bytes args.dtype shape % 2 ^ 64 = 0 then .error .ERR_INVALID_INPUT
      else .ok { dataset_id := args.dataset_id, var_name := name, host_data := data,
                 dtype := args.dtype, shape,
                 payload_bytes := exact_bytes args.dtype shape % 2 ^ 64 } := by
  have hbytes : Word.mul 64 (compute_element_count shape) (element_size args.dtype) =
      exact_bytes args.dtype shape % 2 ^ 64 := by
    rw [compute_element_count_eq, Word.mul_mod, exact_bytes, Nat.mul_comm]
  rw [validate_write, hdata, hname, hshape]
  dsimp only
  rw [hbytes, if_neg (show ¬ validate_shape shape = false by rw [hvalid]; decide)]
  by_cases hsize : element_size args.dtype = 0
  · rw [if_pos hsize, exact_bytes, hsize, Nat.zero_mul, Nat.zero_mod, if_pos rfl]
  · rw [if_neg hsize]

theorem validate_write_refused {args : WriteArgs}
    (h : ∀ shape, args.shape = some shape → args.host_data ≠ none → args.var_name ≠ none →
      validate_shape shape = false) :
    validate_write args = .error .ERR_INVALID_INPUT := by
  rw [validate_write]
  split
  · next data name shape hdata hname hshape =>
    have hinvalid := h shape hshape (by rw [hdata]; exact Option.some_ne_none _)
      (by rw [hname]; exact Option.some_ne_none _)
    rw [if_pos hinvalid, ite_self]
  · rfl

/-- **The payload.** -/
theorem payload_exact_iff (args : WriteArgs) : PayloadExact args ↔ SizeFits args := by
  by_cases h : ∃ shape data name, args.shape = some shape ∧ args.host_data = some data ∧
      args.var_name = some name ∧ validate_shape shape = true
  · obtain ⟨shape, data, name, hshape, hdata, hname, hvalid⟩ := h
    have hsize : SizeFits args ↔
        exact_bytes args.dtype shape < 2 ^ 64 ∨ 2 ^ 64 ∣ exact_bytes args.dtype shape := by
      constructor
      · intro hfits
        exact hfits shape hshape (by rw [hdata]; exact Option.some_ne_none _)
          (by rw [hname]; exact Option.some_ne_none _) hvalid
      · intro hfits shape' hshape' _ _ _
        obtain rfl := Option.some.inj (hshape.symm.trans hshape')
        exact hfits
    rw [hsize, PayloadExact, validate_write_eq hdata hname hshape hvalid]
    by_cases hzero : exact_bytes args.dtype shape % 2 ^ 64 = 0
    · rw [if_pos hzero]
      exact iff_of_true (.inr rfl) (.inr (Nat.dvd_of_mod_eq_zero hzero))
    · rw [if_neg hzero]
      constructor
      · intro hexact
        rcases hexact with ⟨req, hreq, hbytes⟩ | hc
        · cases hreq
          exact .inl ((Nat.mod_eq_iff_lt (by decide)).mp hbytes)
        · cases hc
      · intro hfits
        rcases hfits with hlt | hdvd
        · exact .inl ⟨_, rfl, Nat.mod_eq_of_lt hlt⟩
        · exact absurd (Nat.mod_eq_zero_of_dvd hdvd) hzero
  · have hrefused : ∀ shape, args.shape = some shape → args.host_data ≠ none →
        args.var_name ≠ none → validate_shape shape = false := by
      intro shape hshape hdata hname
      obtain ⟨data, hdata⟩ := Option.ne_none_iff_exists'.mp hdata
      obtain ⟨name, hname⟩ := Option.ne_none_iff_exists'.mp hname
      by_contra hc
      exact h ⟨shape, data, name, hshape, hdata, hname, (Bool.not_eq_false _).mp hc⟩
    refine iff_of_true (.inr (validate_write_refused hrefused)) ?_
    intro shape hshape hdata hname hvalid
    rw [hrefused shape hshape hdata hname] at hvalid
    cases hvalid

/-! ## Section 3: Requests -/

/-- **Requests are decided exactly** where no computation on them leaves its
    type. -/
theorem request_bounds_iff (b : AmioBbox) (shape : AmioShape) (args : WriteArgs) :
    (Decides b shape ↔ FirstFits b shape) ∧ (PayloadExact args ↔ SizeFits args) :=
  ⟨decides_iff b shape, payload_exact_iff args⟩

/-- A selection of `2 ^ 32 + 1` elements, `2 ^ 32` apart, in a variable of 10. -/
def wide_box : AmioBbox :=
  ⟨1, fun _ => 0, fun _ => 2 ^ 32 + 1, fun _ => 2 ^ 32⟩

def ten_elements : AmioShape := ⟨1, fun _ => 10, fun _ => 0⟩

/-- A write of `2 ^ 61 + 1` numbers of eight bytes. -/
def wide_write : WriteArgs :=
  ⟨0, some [], some [], .F64, some ⟨1, fun _ => 2 ^ 61 + 1, fun _ => 0⟩⟩

theorem request_bounds_wide :
    validate_bbox (some wide_box) ten_elements = .undefined ∧ ¬ Decides wide_box ten_elements ∧
      (∃ req, validate_write wide_write = .ok req ∧ req.payload_bytes = 8) ∧
      ¬ PayloadExact wide_write := by
  have hbox : validate_bbox (some wide_box) ten_elements = .undefined := by decide +kernel
  have hwrite : ∃ req, validate_write wide_write = .ok req ∧ req.payload_bytes = 8 ∧
      exact_bytes req.dtype req.shape = 2 ^ 64 + 8 := ⟨_, rfl, by decide +kernel, by decide +kernel⟩
  refine ⟨hbox, ?_, ?_, ?_⟩
  · intro hc
    rw [Decides, hbox] at hc
    rcases hc with ⟨hc, _⟩ | ⟨hc, _⟩ <;> cases hc
  · obtain ⟨req, hreq, hbytes, _⟩ := hwrite
    exact ⟨req, hreq, hbytes⟩
  · obtain ⟨req, hreq, hbytes, hexact⟩ := hwrite
    intro hc
    rcases hc with ⟨req', hreq', hc⟩ | hc
    · cases hreq.symm.trans hreq'
      omega
    · cases hreq.symm.trans hc

end Amio.Boundary

import Helm.Halo.Messages

/-! # Structured halo plans

  A process holds a block of a grid with halo cells on both sides of every
  dimension. A `Structured_Halo_Plan` has, for each face of the block, the
  rank behind it and the two regions of cells that are sent and received.

  * **Regions**: `precompute_regions`, and the order in which `pack` and
    `unpack` go through the cells of a region.
  * **Process grids**: the blocks side by side, with periodic dimensions. The
    neighbor behind a face has this process behind the opposite face.
-/

namespace Halo

open List (finRange)

variable {R : Nat}

/-! ## Section 1: Regions -/

/-- Face `2 * d` is the low side of dimension `d`, and face `2 * d + 1` its high
    side. -/
structure Face (R : Nat) where
  dim : Fin R
  high : Bool
  deriving DecidableEq

/-- The faces in the order of their numbers. -/
def faces (R : Nat) : List (Face R) := (finRange R).flatMap fun d => [⟨d, false⟩, ⟨d, true⟩]

theorem mem_faces (f : Face R) : f ∈ faces R := by
  obtain ⟨d, high⟩ := f
  rw [faces, List.mem_flatMap]
  refine ⟨d, List.mem_finRange d, ?_⟩
  cases high <;> simp

theorem nodup_faces : (faces R).Nodup := by
  rw [faces, List.nodup_flatMap]
  constructor
  · intro d _
    simp
  · apply (List.nodup_finRange R).imp
    intro d d' hne
    simp only [Function.onFun, List.disjoint_left, List.mem_cons, List.not_mem_nil, or_false]
    intro f hf hf'
    have hdim : f.dim = d := by rcases hf with rfl | rfl <;> rfl
    have hdim' : f.dim = d' := by rcases hf' with rfl | rfl <;> rfl
    exact hne (hdim.symm.trans hdim')

/-- The other side of the same dimension. -/
def Face.opposite (f : Face R) : Face R := ⟨f.dim, !f.high⟩

@[simp] theorem Face.opposite_opposite (f : Face R) : f.opposite.opposite = f := by
  simp [Face.opposite]

theorem Face.eq_or_eq_opposite {f g : Face R} (h : f.dim = g.dim) : f = g ∨ f = g.opposite := by
  obtain ⟨d, high⟩ := f
  obtain ⟨d', high'⟩ := g
  obtain rfl : d = d' := h
  cases high <;> cases high' <;> simp [Face.opposite]

/-- `Region`: a half-open range in each dimension -/
structure FaceRegion (R : Nat) where
  first : Fin R → Nat
  second : Fin R → Nat

namespace FaceRegion

/-- The extents of a region. -/
def shape (r : FaceRegion R) (d : Fin R) : Nat := Word.sub 64 (r.second d) (r.first d)

/-- `Region::size` -/
def size (r : FaceRegion R) : Nat :=
  (finRange R).foldl (fun s d => Word.mul 64 s (r.shape d)) 1

end FaceRegion

/-- `Structured_Halo_Plan` -/
structure StructuredPlan (R : Nat) where
  extents : Fin R → Nat
  neighbor_ranks : Face R → Int
  halo_widths : Fin R → Nat

namespace StructuredPlan

/-- The constructor -/
def make (global_extents : Fin R → Nat) (neighbor_ranks : Face R → Int)
    (halo_widths : Fin R → Nat) : Except Exn (StructuredPlan R) :=
  match (finRange R).find? fun d => global_extents d < Word.mul 64 2 (halo_widths d) with
  | some d => .error (.invalid_argument ("Structured_Halo_Plan: extent[" ++ toString d.val ++
      "] = " ++ toString (global_extents d) ++ " is less than 2 * halo_width[" ++ toString d.val ++
      "] = " ++ toString (Word.mul 64 2 (halo_widths d))))
  | none => .ok ⟨global_extents, neighbor_ranks, halo_widths⟩

/-- `send_region`: the interior layers next to a face -/
def send_region (plan : StructuredPlan R) (f : Face R) : FaceRegion R where
  first k :=
    if k = f.dim then
      if f.high then Word.sub 64 (plan.extents k) (Word.mul 64 2 (plan.halo_widths k))
      else plan.halo_widths k
    else 0
  second k :=
    if k = f.dim then
      if f.high then Word.sub 64 (plan.extents k) (plan.halo_widths k)
      else Word.mul 64 2 (plan.halo_widths k)
    else plan.extents k

/-- `recv_region`: the halo layers of a face -/
def recv_region (plan : StructuredPlan R) (f : Face R) : FaceRegion R where
  first k :=
    if k = f.dim then
      if f.high then Word.sub 64 (plan.extents k) (plan.halo_widths k) else 0
    else 0
  second k :=
    if k = f.dim then
      if f.high then plan.extents k else plan.halo_widths k
    else plan.extents k

def has_neighbor (plan : StructuredPlan R) (f : Face R) : Bool := 0 ≤ plan.neighbor_ranks f

/-- The faces that the loops of an exchange do not skip. -/
def active_faces (plan : StructuredPlan R) : List (Face R) := (faces R).filter plan.has_neighbor

theorem make_eq_ok {global_extents halo_widths : Fin R → Nat} {neighbor_ranks : Face R → Int}
    {plan : StructuredPlan R} (h : make global_extents neighbor_ranks halo_widths = .ok plan) :
    plan = ⟨global_extents, neighbor_ranks, halo_widths⟩ ∧
      ∀ d, Word.mul 64 2 (halo_widths d) ≤ global_extents d := by
  rw [make] at h
  split at h
  · cases h
  · next hnone =>
    cases h
    refine ⟨rfl, fun d => ?_⟩
    have := List.find?_eq_none.mp hnone d (List.mem_finRange d)
    simpa using this

end StructuredPlan

/-! ### Packing -/

/-- The indices below the extents, the last one varying fastest. -/
def row_major : {R : Nat} → (Fin R → Nat) → List (Fin R → Nat)
  | 0, _ => [Fin.elim0]
  | _ + 1, shape =>
    (List.range (shape 0)).flatMap fun k => (row_major (Fin.tail shape)).map (Fin.cons k)

theorem mem_row_major {shape i : Fin R → Nat} : i ∈ row_major shape ↔ ∀ d, i d < shape d := by
  induction R with
  | zero =>
    simp only [row_major, List.mem_singleton, IsEmpty.forall_iff, iff_true]
    exact Subsingleton.elim _ _
  | succ R ih =>
    simp only [row_major, List.mem_flatMap, List.mem_range, List.mem_map, ih]
    constructor
    · intro ⟨k, hk, j, hj, heq⟩
      subst heq
      intro d
      refine Fin.cases hk (fun d => ?_) d
      exact hj d
    · intro h
      exact ⟨i 0, h 0, Fin.tail i, fun d => h d.succ, Fin.cons_self_tail i⟩

theorem nodup_row_major (shape : Fin R → Nat) : (row_major shape).Nodup := by
  induction R with
  | zero => simp [row_major]
  | succ R ih =>
    rw [row_major, List.nodup_flatMap]
    constructor
    · intro k _
      apply (ih _).map
      intro i j hij
      have := congrArg Fin.tail hij
      simpa only [Fin.tail_cons] using this
    · apply List.nodup_range.imp
      intro k k' hne
      simp only [Function.onFun, List.disjoint_left, List.mem_map]
      intro i ⟨j, _, hj⟩ ⟨j', _, hj'⟩
      have := congrFun (hj.trans hj'.symm) 0
      exact hne (by simpa using this)

/-- The memory layout of a view: which subviews are contiguous, and in which
    order their elements lie. -/
structure Layout (R : Nat) where
  is_contiguous : (Fin R → Nat) → Bool
  linear : (Fin R → Nat) → List (Fin R → Nat)
  nodup : ∀ shape, (linear shape).Nodup
  mem_linear : ∀ {shape i : Fin R → Nat}, i ∈ linear shape ↔ ∀ d, i d < shape d

/-- Rows one after the other (`LayoutRight`). Subviews count as strided. -/
def Layout.right : Layout R := ⟨fun _ => false, row_major, nodup_row_major, mem_row_major⟩

/-- The order of a buffer: that of the memory if the subview is contiguous, and
    else row by row. -/
def Layout.order (layout : Layout R) (shape : Fin R → Nat) : List (Fin R → Nat) :=
  if layout.is_contiguous shape then layout.linear shape else row_major shape

theorem Layout.mem_order {layout : Layout R} {shape i : Fin R → Nat} :
    i ∈ layout.order shape ↔ ∀ d, i d < shape d := by
  unfold Layout.order
  split
  · exact layout.mem_linear
  · exact mem_row_major

theorem Layout.nodup_order (layout : Layout R) (shape : Fin R → Nat) :
    (layout.order shape).Nodup := by
  unfold Layout.order
  split
  · exact layout.nodup shape
  · exact nodup_row_major shape

/-- A view: the bytes of each cell. -/
abbrev GridView (R size : Nat) (β : Type) := (Fin R → Nat) → Fin size → β

section Packing

variable {size : Nat} {β : Type}

/-- `pack`, from the subview of a region -/
def pack (layout : Layout R) (view : GridView R size β) (r : FaceRegion R) : List β :=
  (layout.order r.shape).flatMap fun i => List.ofFn (view fun d => r.first d + i d)

/-- The cell belongs to the region. -/
def FaceRegion.Holds (r : FaceRegion R) (x : Fin R → Nat) : Prop :=
  ∀ d, r.first d ≤ x d ∧ x d - r.first d < r.shape d

instance (r : FaceRegion R) (x : Fin R → Nat) : Decidable (r.Holds x) :=
  inferInstanceAs (Decidable (∀ _, _))

/-- `unpack`, into the subview of a region -/
def unpack (layout : Layout R) (buffer : List β) (view : GridView R size β) (r : FaceRegion R) :
    GridView R size β :=
  fun x b =>
    if r.Holds x then
      buffer.getD ((layout.order r.shape).idxOf (fun d => x d - r.first d) * size + b) (view x b)
    else view x b

theorem getElem?_flatMap_blocks {ι : Type} {l : List ι} {f : ι → List β}
    (hf : ∀ i ∈ l, (f i).length = size) {k b : Nat} (hk : k < l.length) (hb : b < size) :
    (l.flatMap f)[k * size + b]? = (f l[k])[b]? := by
  induction l generalizing k with
  | nil => simp at hk
  | cons i l ih =>
    have hi := hf i List.mem_cons_self
    rw [List.flatMap_cons]
    cases k with
    | zero =>
      rw [Nat.zero_mul, Nat.zero_add, List.getElem?_append_left (by omega)]
      rfl
    | succ k =>
      have hge : (f i).length ≤ (k + 1) * size + b := by
        rw [Nat.succ_mul]
        omega
      have hsub : (k + 1) * size + b - (f i).length = k * size + b := by
        rw [Nat.succ_mul]
        omega
      rw [List.getElem?_append_right hge, hsub,
        ih (fun j hj => hf j (List.mem_cons_of_mem _ hj)) (by simpa using hk)]
      rfl

theorem length_pack (layout : Layout R) (view : GridView R size β) (r : FaceRegion R) :
    (pack layout view r).length = (layout.order r.shape).length * size := by
  rw [pack, List.length_flatMap]
  simp

/-- **What is packed from one region and unpacked into another** of the same
    shape moves cell by cell. -/
theorem unpack_pack {layout : Layout R} {view view' : GridView R size β} {r r' : FaceRegion R}
    (hshape : r.shape = r'.shape) {x : Fin R → Nat} (hx : r'.Holds x) :
    unpack layout (pack layout view r) view' r' x =
      view fun d => r.first d + (x d - r'.first d) := by
  funext b
  have hmem : (fun d => x d - r'.first d) ∈ layout.order r'.shape :=
    Layout.mem_order.mpr fun d => (hx d).2
  have hidx := List.idxOf_lt_length_of_mem hmem
  rw [unpack, if_pos hx, pack, hshape, List.getD_eq_getElem?_getD,
    getElem?_flatMap_blocks (fun i _ => by simp) hidx b.isLt, List.getElem_idxOf hidx]
  simp

theorem unpack_of_not_holds {layout : Layout R} {buffer : List β} {view : GridView R size β}
    {r : FaceRegion R} {x : Fin R → Nat} (hx : ¬ r.Holds x) :
    unpack layout buffer view r x = view x := by
  funext b
  rw [unpack, if_neg hx]

end Packing

/-! ### Regions of a plan that fits -/

/-- Both halo zones of every dimension fit into its extent, also without the
    wrap-around of `std::size_t`. -/
def StructuredPlan.Fits (plan : StructuredPlan R) : Prop :=
  ∀ d, 2 * plan.halo_widths d ≤ plan.extents d ∧ plan.extents d < 2 ^ 64

section Fits

variable {plan : StructuredPlan R}

theorem StructuredPlan.Fits.double (h : plan.Fits) (d : Fin R) :
    Word.mul 64 2 (plan.halo_widths d) = 2 * plan.halo_widths d :=
  Nat.mod_eq_of_lt ((h d).1.trans_lt (h d).2)

theorem StructuredPlan.Fits.send_first (h : plan.Fits) (f : Face R) :
    (plan.send_region f).first f.dim =
      if f.high then plan.extents f.dim - 2 * plan.halo_widths f.dim else plan.halo_widths f.dim := by
  rw [StructuredPlan.send_region]
  dsimp only
  rw [if_pos rfl, h.double, Word.sub_of_le (h f.dim).2 (h f.dim).1]

theorem StructuredPlan.Fits.recv_first (h : plan.Fits) (f : Face R) :
    (plan.recv_region f).first f.dim =
      if f.high then plan.extents f.dim - plan.halo_widths f.dim else 0 := by
  rw [StructuredPlan.recv_region]
  dsimp only
  have hle : plan.halo_widths f.dim ≤ plan.extents f.dim := by
    have := (h f.dim).1
    omega
  rw [if_pos rfl, Word.sub_of_le (h f.dim).2 hle]

theorem StructuredPlan.first_of_ne {f : Face R} {d : Fin R} (hd : d ≠ f.dim) :
    (plan.send_region f).first d = 0 ∧ (plan.recv_region f).first d = 0 :=
  ⟨if_neg hd, if_neg hd⟩

/-- All regions of a dimension have one shape. -/
theorem StructuredPlan.Fits.shape (h : plan.Fits) (f : Face R) :
    (plan.send_region f).shape =
        (fun d => if d = f.dim then plan.halo_widths d else plan.extents d) ∧
      (plan.recv_region f).shape =
        (fun d => if d = f.dim then plan.halo_widths d else plan.extents d) := by
  constructor
  · funext d
    obtain ⟨hle, hlt⟩ := h d
    have hdouble := h.double d
    rw [FaceRegion.shape, StructuredPlan.send_region]
    dsimp only
    by_cases hd : d = f.dim
    · cases f.high with
      | true =>
        simp only [hd, if_true] at hle hlt hdouble ⊢
        rw [hdouble, Word.sub_of_le hlt hle, Word.sub_of_le hlt (by omega),
          Word.sub_of_le (by omega) (by omega)]
        omega
      | false =>
        simp only [hd, if_true] at hle hlt hdouble ⊢
        rw [hdouble]
        simp only [Bool.false_eq_true, if_false]
        rw [Word.sub_of_le (by omega) (by omega)]
        omega
    · simp only [if_neg hd]
      rw [Word.sub_of_le hlt (Nat.zero_le _), Nat.sub_zero]
  · funext d
    obtain ⟨hle, hlt⟩ := h d
    rw [FaceRegion.shape, StructuredPlan.recv_region]
    dsimp only
    by_cases hd : d = f.dim
    · cases f.high with
      | true =>
        simp only [hd, if_true] at hle hlt ⊢
        have hhalo : plan.halo_widths f.dim ≤ plan.extents f.dim := by omega
        rw [Word.sub_of_le hlt hhalo, Word.sub_of_le hlt (Nat.sub_le _ _)]
        omega
      | false =>
        simp only [hd, if_true] at hle hlt ⊢
        simp only [Bool.false_eq_true, if_false]
        rw [Word.sub_of_le (by omega) (Nat.zero_le _), Nat.sub_zero]
    · simp only [if_neg hd]
      rw [Word.sub_of_le hlt (Nat.zero_le _), Nat.sub_zero]

end Fits

/-! ### Regions next to the halo zones -/

/-- Layer `k` of dimension `d` belongs to the region. -/
def FaceRegion.Spans (r : FaceRegion R) (d : Fin R) (k : Nat) : Prop :=
  r.first d ≤ k ∧ k < r.second d

/-- The layers of a region in one dimension. -/
def FaceRegion.layers (r : FaceRegion R) (d : Fin R) : Nat := r.second d - r.first d

/-- What an exchange needs of the regions: in the dimension of a face, the cells
    that are sent lie between the halo zones and the cells that are received lie
    in the halo zone of the face. -/
structure StructuredPlan.Separated (plan : StructuredPlan R) : Prop where
  send_interior : ∀ f k, (plan.send_region f).Spans f.dim k →
    plan.halo_widths f.dim ≤ k ∧ k + plan.halo_widths f.dim < plan.extents f.dim
  recv_ghost : ∀ f k, (plan.recv_region f).Spans f.dim k →
    if f.high then plan.extents f.dim ≤ k + plan.halo_widths f.dim
    else k < plan.halo_widths f.dim
  /-- What is sent through a face has the size of what is received through a face
      of the same dimension, on the low side and on the high side. -/
  same_size : ∀ f f' : Face R, f'.dim = f.dim → ∀ d,
    (plan.send_region f).layers d = (plan.recv_region f').layers d
  inside : ∀ f d k, (plan.send_region f).Spans d k ∨ (plan.recv_region f).Spans d k →
    k < plan.extents d
  disjoint : ∀ f f' : Face R, f'.dim = f.dim → ∀ k,
    (plan.send_region f).Spans f.dim k → ¬ (plan.recv_region f').Spans f.dim k

section Separated

variable {plan : StructuredPlan R}

theorem StructuredPlan.Fits.send_spans (h : plan.Fits) (f : Face R) (k : Nat) :
    (plan.send_region f).Spans f.dim k ↔
      if f.high then plan.extents f.dim ≤ k + 2 * plan.halo_widths f.dim ∧
        k + plan.halo_widths f.dim < plan.extents f.dim
      else plan.halo_widths f.dim ≤ k ∧ k < 2 * plan.halo_widths f.dim := by
  obtain ⟨hle, hlt⟩ := h f.dim
  have hhalo : plan.halo_widths f.dim ≤ plan.extents f.dim := by omega
  rw [FaceRegion.Spans, h.send_first, StructuredPlan.send_region]
  dsimp only
  rw [if_pos rfl, h.double, Word.sub_of_le hlt hhalo]
  split
  · omega
  · exact Iff.rfl

theorem StructuredPlan.Fits.recv_spans (h : plan.Fits) (f : Face R) (k : Nat) :
    (plan.recv_region f).Spans f.dim k ↔
      if f.high then plan.extents f.dim ≤ k + plan.halo_widths f.dim ∧ k < plan.extents f.dim
      else k < plan.halo_widths f.dim := by
  obtain ⟨hle, hlt⟩ := h f.dim
  rw [FaceRegion.Spans, h.recv_first, StructuredPlan.recv_region]
  dsimp only
  rw [if_pos rfl]
  split <;> omega

theorem StructuredPlan.spans_of_ne {f : Face R} {d : Fin R} (hd : d ≠ f.dim) (k : Nat) :
    ((plan.send_region f).Spans d k ↔ k < plan.extents d) ∧
      ((plan.recv_region f).Spans d k ↔ k < plan.extents d) := by
  simp [FaceRegion.Spans, StructuredPlan.send_region, StructuredPlan.recv_region, hd]

theorem StructuredPlan.Fits.layers (h : plan.Fits) (f : Face R) (d : Fin R) :
    (plan.send_region f).layers d =
        (if d = f.dim then plan.halo_widths d else plan.extents d) ∧
      (plan.recv_region f).layers d =
        (if d = f.dim then plan.halo_widths d else plan.extents d) := by
  obtain ⟨hle, hlt⟩ := h d
  have hhalo : plan.halo_widths d ≤ plan.extents d := by omega
  rw [FaceRegion.layers, FaceRegion.layers, StructuredPlan.send_region, StructuredPlan.recv_region]
  dsimp only
  rw [h.double, Word.sub_of_le hlt hle, Word.sub_of_le hlt hhalo]
  by_cases hd : d = f.dim
  · simp only [if_pos hd]
    split <;> omega
  · simp only [if_neg hd]
    omega

/-- With room for three times the halo width, the layers that are sent low and
    those that are sent high lie between the halo zones. -/
theorem StructuredPlan.separated_of_le (h : ∀ d, 3 * plan.halo_widths d ≤ plan.extents d)
    (hlt : ∀ d, plan.extents d < 2 ^ 64) : plan.Separated := by
  have hfits : plan.Fits := fun d => ⟨by have := h d; omega, hlt d⟩
  have hsend : ∀ f k, (plan.send_region f).Spans f.dim k →
      plan.halo_widths f.dim ≤ k ∧ k + plan.halo_widths f.dim < plan.extents f.dim := by
    intro f k hk
    have hroom := h f.dim
    rw [hfits.send_spans] at hk
    split at hk <;> omega
  have hrecv : ∀ f k, (plan.recv_region f).Spans f.dim k →
      if f.high then plan.extents f.dim ≤ k + plan.halo_widths f.dim
      else k < plan.halo_widths f.dim := by
    intro f k hk
    rw [hfits.recv_spans] at hk
    split at hk
    · next hhigh =>
      rw [if_pos hhigh]
      exact hk.1
    · next hlow =>
      rwa [if_neg hlow]
  constructor
  · exact hsend
  · exact hrecv
  · intro f f' hdim d
    rw [(hfits.layers f d).1, (hfits.layers f' d).2, hdim]
  · intro f d k hk
    by_cases hd : d = f.dim
    · subst hd
      have hroom := h f.dim
      rcases hk with hk | hk
      · have := hsend f k hk
        omega
      · rw [hfits.recv_spans] at hk
        split at hk <;> omega
    · rw [(StructuredPlan.spans_of_ne hd k).1, (StructuredPlan.spans_of_ne hd k).2] at hk
      exact hk.elim id id
  · intro f f' hdim k hk hk'
    -- an interior layer is not in a halo zone
    have hinterior := hsend f k hk
    rw [← hdim] at hinterior hk'
    have hghost := hrecv f' k hk'
    split at hghost <;> omega

theorem StructuredPlan.Separated.three_le (hsep : plan.Separated)
    (haccepted : ∀ d, Word.mul 64 2 (plan.halo_widths d) ≤ plan.extents d)
    (hextents : ∀ d, plan.extents d < 2 ^ 64) (hhalo : ∀ d, plan.halo_widths d < 2 ^ 64)
    (d : Fin R) : 3 * plan.halo_widths d ≤ plan.extents d := by
  have hsend := hsep.send_interior ⟨d, false⟩
  have hsize := hsep.same_size ⟨d, false⟩ ⟨d, false⟩ rfl d
  have hinside := hsep.inside ⟨d, false⟩ d
  have haccepted := haccepted d
  have hextents := hextents d
  have hhalo := hhalo d
  simp only [FaceRegion.Spans, FaceRegion.layers, StructuredPlan.send_region,
    StructuredPlan.recv_region, if_true, Bool.false_eq_true, if_false] at hsend hsize hinside
  by_contra hroom
  have hpos : 0 < plan.halo_widths d := by omega
  by_cases hwrap : 2 * plan.halo_widths d < 2 ^ 64
  · -- the last layer below the high halo zone, and the one after it
    rw [Word.mul, Nat.mod_eq_of_lt hwrap] at haccepted hsend
    have := hsend (plan.extents d - plan.halo_widths d) (by omega)
    omega
  · -- the send region is empty where twice the width wraps around
    have hdouble : Word.mul 64 2 (plan.halo_widths d) = 2 * plan.halo_widths d - 2 ^ 64 := by
      rw [Word.mul]
      omega
    rw [hdouble] at hsize
    omega

/-- **The check of the constructor leaves out one halo width**: the regions of an
    accepted plan are separated exactly where every extent has room for three. -/
theorem StructuredPlan.make_separated_iff {global_extents halo_widths : Fin R → Nat}
    {neighbor_ranks : Face R → Int}
    (h : StructuredPlan.make global_extents neighbor_ranks halo_widths = .ok plan)
    (hextents : ∀ d, global_extents d < 2 ^ 64) (hhalo : ∀ d, halo_widths d < 2 ^ 64) :
    plan.Separated ↔ ∀ d, 3 * halo_widths d ≤ global_extents d := by
  obtain ⟨hplan, haccepted⟩ := StructuredPlan.make_eq_ok h
  subst hplan
  constructor
  · intro hsep
    exact hsep.three_le haccepted hextents hhalo
  · intro hroom
    exact StructuredPlan.separated_of_le hroom hextents

theorem StructuredPlan.make_separated_three :
    (⟨fun _ : Fin 1 => 3, fun _ => 0, fun _ => 1⟩ : StructuredPlan 1).Separated := by
  have haccepted : StructuredPlan.make (fun _ : Fin 1 => 3) (fun _ => 0) (fun _ => 1) =
      .ok ⟨fun _ => 3, fun _ => 0, fun _ => 1⟩ := rfl
  exact (StructuredPlan.make_separated_iff haccepted (fun _ => by decide)
    fun _ => by decide).mpr fun _ => by decide

theorem StructuredPlan.make_accepts_two :
    StructuredPlan.make (fun _ : Fin 1 => 2) (fun _ => 0) (fun _ => 1) =
        .ok ⟨fun _ => 2, fun _ => 0, fun _ => 1⟩ ∧
      ¬ (⟨fun _ => 2, fun _ => 0, fun _ => 1⟩ : StructuredPlan 1).Separated := by
  constructor
  · rfl
  · intro hsep
    have := hsep.send_interior ⟨0, false⟩ 1 ⟨by decide, by decide⟩
    exact absurd this.2 (by decide)

end Separated

theorem length_row_major (shape : Fin R → Nat) : (row_major shape).length = ∏ d, shape d := by
  induction R with
  | zero => simp [row_major]
  | succ R ih =>
    rw [row_major, List.length_flatMap, Fin.prod_univ_succ]
    simp only [List.length_map, ih, List.map_const', List.length_range, List.sum_replicate,
      smul_eq_mul]
    rfl

theorem Layout.length_order (layout : Layout R) (shape : Fin R → Nat) :
    (layout.order shape).length = ∏ d, shape d := by
  have hperm : (layout.order shape).Perm (row_major shape) := by
    apply (List.perm_ext_iff_of_nodup (layout.nodup_order shape) (nodup_row_major shape)).mpr
    intro i
    rw [Layout.mem_order, mem_row_major]
  rw [hperm.length_eq, length_row_major]

theorem FaceRegion.size_eq {r : FaceRegion R} (h : ∏ d, r.shape d < 2 ^ 64) :
    r.size = ∏ d, r.shape d := by
  rw [FaceRegion.size, Word.foldl_mul (by decide) r.shape, ← List.prod_ofFn, List.ofFn_eq_map] at *
  exact Nat.mod_eq_of_lt h

/-! ## Section 2: Process grids -/

/-- The processes side by side. Each is known by its coordinates. -/
structure ProcessGrid (R : Nat) where
  sizes : Fin R → Nat
  periodic : Fin R → Bool
  comm_size : Nat
  /-- The rank of a process. -/
  rank : ((d : Fin R) → Fin (sizes d)) → Nat
  rank_lt : ∀ p, rank p < comm_size
  rank_injective : Function.Injective rank

/-- The next coordinate of a dimension. -/
def next {n : Nat} (periodic : Bool) (x : Fin n) : Option (Fin n) :=
  if h : x.val + 1 < n then some ⟨x.val + 1, h⟩
  else if periodic then some ⟨0, x.pos⟩ else none

/-- The coordinate before. -/
def prev {n : Nat} (periodic : Bool) (x : Fin n) : Option (Fin n) :=
  if 0 < x.val then some ⟨x.val - 1, by omega⟩
  else if periodic then some ⟨n - 1, by have := x.pos; omega⟩ else none

theorem next_eq_some {n : Nat} {periodic : Bool} {x y : Fin n} :
    next periodic x = some y ↔ prev periodic y = some x := by
  have hx := x.isLt
  have hy := y.isLt
  unfold next prev
  by_cases hlast : x.val + 1 < n
  · rw [dif_pos hlast]
    by_cases hfirst : 0 < y.val
    · rw [if_pos hfirst, Option.some.injEq, Option.some.injEq, Fin.ext_iff, Fin.ext_iff]
      dsimp only
      omega
    · -- `y` is the first coordinate: only the last one comes before it
      rw [if_neg hfirst]
      cases periodic with
      | true =>
        rw [if_pos rfl, Option.some.injEq, Option.some.injEq, Fin.ext_iff, Fin.ext_iff]
        dsimp only
        omega
      | false =>
        simp only [Option.some.injEq, Fin.ext_iff, Bool.false_eq_true, if_false, reduceCtorEq,
          iff_false]
        omega
  · rw [dif_neg hlast]
    cases periodic with
    | true =>
      rw [if_pos rfl]
      by_cases hfirst : 0 < y.val
      · rw [if_pos hfirst, Option.some.injEq, Option.some.injEq, Fin.ext_iff, Fin.ext_iff]
        dsimp only
        omega
      · rw [if_neg hfirst, if_pos rfl, Option.some.injEq, Option.some.injEq, Fin.ext_iff,
          Fin.ext_iff]
        dsimp only
        omega
    | false =>
      simp only [Bool.false_eq_true, if_false, reduceCtorEq, false_iff]
      intro h
      by_cases hfirst : 0 < y.val
      · rw [if_pos hfirst, Option.some.injEq, Fin.ext_iff] at h
        dsimp only at h
        omega
      · rw [if_neg hfirst] at h
        cases h

namespace ProcessGrid

variable (g : ProcessGrid R)

/-- The coordinates of a process. -/
abbrev Proc := (d : Fin R) → Fin (g.sizes d)

/-- The process behind a face. -/
def neighbor (p : g.Proc) (f : Face R) : Option g.Proc :=
  (if f.high then next (g.periodic f.dim) (p f.dim) else prev (g.periodic f.dim) (p f.dim)).map
    (Function.update p f.dim)

/-- The ranks behind the faces, with `-1` where there is none. -/
def neighbor_ranks (p : g.Proc) (f : Face R) : Int :=
  match g.neighbor p f with
  | some q => g.rank q
  | none => -1

variable {g} {p q : g.Proc} {f f' : Face R}

theorem neighbor_eq_some : g.neighbor p f = some q ↔
    (if f.high then next (g.periodic f.dim) (p f.dim) else prev (g.periodic f.dim) (p f.dim)) =
      some (q f.dim) ∧ ∀ d, d ≠ f.dim → q d = p d := by
  rw [neighbor, Option.map_eq_some_iff]
  constructor
  · intro ⟨x, hx, hq⟩
    subst hq
    refine ⟨by rw [hx, Function.update_self], ?_⟩
    intro d hd
    exact Function.update_of_ne hd _ _
  · intro ⟨hx, hrest⟩
    refine ⟨q f.dim, hx, ?_⟩
    funext d
    by_cases hd : d = f.dim
    · subst hd
      exact Function.update_self ..
    · rw [Function.update_of_ne hd, hrest d hd]

/-- **The neighbor behind a face has this process behind the opposite face.** -/
theorem neighbor_opposite : g.neighbor p f = some q ↔ g.neighbor q f.opposite = some p := by
  obtain ⟨d, high⟩ := f
  rw [neighbor_eq_some, neighbor_eq_some]
  have hrest : (∀ d', d' ≠ d → q d' = p d') ↔ ∀ d', d' ≠ d → p d' = q d' :=
    forall₂_congr fun _ _ => eq_comm
  cases high with
  | true => exact and_congr next_eq_some hrest
  | false => exact and_congr next_eq_some.symm hrest

theorem neighbor_self (h : g.neighbor p f = some p) : g.neighbor p f.opposite = some p :=
  neighbor_opposite.mp h

theorem dim_eq (h : g.neighbor p f = some q) (h' : g.neighbor p f' = some q) (hne : p ≠ q) :
    f'.dim = f.dim := by
  by_contra hdim
  apply hne
  funext d
  by_cases hd : d = f.dim
  · subst hd
    exact ((neighbor_eq_some.mp h').2 _ (Ne.symm hdim)).symm
  · exact ((neighbor_eq_some.mp h).2 d hd).symm

/-- **One process behind both faces** of a dimension: the two processes see each
    other behind the same faces. -/
theorem neighbor_same (h : g.neighbor p f = some q) (h' : g.neighbor p f.opposite = some q)
    (f' : Face R) : g.neighbor p f' = some q ↔ g.neighbor q f' = some p := by
  rw [neighbor_opposite (p := q)]
  by_cases hpq : p = q
  · subst hpq
    exact neighbor_opposite
  · constructor
    · intro hf'
      rcases Face.eq_or_eq_opposite (dim_eq h hf' hpq) with rfl | rfl
      · exact h'
      · rwa [Face.opposite_opposite]
    · intro hf'
      rcases Face.eq_or_eq_opposite (f := f'.opposite) (dim_eq h hf' hpq) with heq | heq
      · rwa [← heq, Face.opposite_opposite] at h'
      · rw [← Face.opposite_opposite f', heq, Face.opposite_opposite]
        exact h

/-- **One process behind one face**: no other face leads to it. -/
theorem neighbor_only (h : g.neighbor p f = some q) (h' : g.neighbor p f.opposite ≠ some q)
    (f' : Face R) : g.neighbor p f' = some q ↔ f' = f := by
  constructor
  · intro hf'
    have hpq : p ≠ q := by
      intro heq
      subst heq
      exact h' (neighbor_self h)
    rcases Face.eq_or_eq_opposite (dim_eq h hf' hpq) with heq | heq
    · exact heq
    · subst heq
      exact absurd hf' h'
  · intro heq
    subst heq
    exact h

end ProcessGrid

end Halo

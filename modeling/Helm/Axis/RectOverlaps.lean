import Helm.Axis.WeightGenerator

/-! # AXIS: the searches of the rectilinear paths are complete

  Both conservative paths for grids look at a few source columns and rows
  only for each destination cell. The uniform path divides by the spacing and
  takes the floor; the other one looks the bounds up among the sorted
  coordinates. What a path finds is compared here with what the loop over all
  pairs of cells finds (`all_pairs`, `nonuniform_pairs`).

  The comparison goes by ranges: a loop over a range of indices finds the
  same as one over any other range, if neither leaves out an index with
  something to find (`flatMap_int_range`). The clamped ranges of the code and
  the range of all columns are two such ranges.
-/

namespace Axis

open Signed Segments ArrayLoops

/-! ## Section 1: Ranges -/

theorem int_range_filter {lo hi lo' hi' : Int} (hlo : lo' ≤ lo) (hhi : hi ≤ hi') :
    (int_range lo' hi').filter (fun k => lo ≤ k ∧ k ≤ hi) = int_range lo hi := by
  have hsorted : ∀ a b, (int_range a b).Pairwise (· < ·) := by
    intro a b
    rw [int_range, List.pairwise_map]
    exact List.pairwise_lt_range.imp fun h => by omega
  have hlt := (hsorted lo' hi').filter fun k => decide (lo ≤ k ∧ k ≤ hi)
  refine List.Perm.eq_of_pairwise ?_ hlt (hsorted lo hi) ?_
  · intro a b _ _ hab hba
    exact absurd (lt_trans hab hba) (lt_irrefl a)
  · rw [List.perm_ext_iff_of_nodup (hlt.imp fun h => h.ne) ((hsorted lo hi).imp fun h => h.ne)]
    intro k
    rw [List.mem_filter, decide_eq_true_iff, RectMeshes.mem_int_range, RectMeshes.mem_int_range]
    omega

theorem flatMap_filter_of_nil {α β : Type} {f : α → List β} {p : α → Bool} (l : List α)
    (h : ∀ a, f a ≠ [] → p a = true) : (l.filter p).flatMap f = l.flatMap f := by
  induction l with
  | nil => rfl
  | cons a l ih =>
    rw [List.flatMap_cons, List.filter_cons]
    split
    · rw [List.flatMap_cons, ih]
    · next hp =>
      have hnil : f a = [] := by
        by_contra hne
        exact hp (h a hne)
      rw [hnil, List.nil_append, ih]

/-- **Ranges.** Two ranges that leave nothing out are as good as each other. -/
theorem flatMap_int_range {β : Type} {f : Int → List β} {lo hi lo' hi' : Int}
    (h : ∀ k, f k ≠ [] → lo ≤ k ∧ k ≤ hi) (h' : ∀ k, f k ≠ [] → lo' ≤ k ∧ k ≤ hi') :
    (int_range lo hi).flatMap f = (int_range lo' hi').flatMap f := by
  -- both are parts of one range
  have hpart : ∀ a b, (∀ k, f k ≠ [] → a ≤ k ∧ k ≤ b) → min lo lo' ≤ a → b ≤ max hi hi' →
      (int_range a b).flatMap f = (int_range (min lo lo') (max hi hi')).flatMap f := by
    intro a b hcover ha hb
    rw [← int_range_filter ha hb]
    exact flatMap_filter_of_nil _ fun k hk => decide_eq_true (hcover k hk)
  rw [hpart lo hi h (min_le_left _ _) (le_max_left _ _),
    hpart lo' hi' h' (min_le_right _ _) (le_max_right _ _)]

theorem int_range_eq_finRange (n : Nat) :
    int_range 0 ((n : Int) - 1) = (List.finRange n).map fun k : Fin n => ((k : Nat) : Int) := by
  have hlength : ((n : Int) - 1 + 1 - 0).toNat = n := by omega
  rw [int_range, hlength, ← List.map_coe_finRange_eq_range, List.map_map]
  apply List.map_congr_left
  intro k _
  exact zero_add ((k : Nat) : Int)

theorem flatMap_int_range_all {β : Type} {f : Int → List β} (n : Nat) :
    (int_range 0 ((n : Int) - 1)).flatMap f = (List.finRange n).flatMap fun k : Fin n => f (k : Nat) := by
  rw [int_range_eq_finRange, List.flatMap_map]

theorem filterMap_product {α β γ : Type} (l : List α) (m : List β) (f : α × β → Option γ) :
    (l.product m).filterMap f = l.flatMap fun a => m.filterMap fun b => f (a, b) := by
  show (l.flatMap fun a => m.map (Prod.mk a)).filterMap f = _
  rw [List.filterMap_flatMap]
  congr 1
  funext a
  rw [List.filterMap_map]
  rfl

theorem filterMap_eq_flatMap {α β : Type} (l : List α) (f : α → Option β) :
    l.filterMap f = l.flatMap fun a => (f a).toList := by
  induction l with
  | nil => rfl
  | cons a l ih =>
    rw [List.flatMap_cons, List.filterMap_cons, ih]
    cases f a with
    | none => rfl
    | some b => rfl

/-- **Windows.** Nested loops over two windows that leave nothing out find the
    same. -/
theorem window_eq {β : Type} {f : Int → Int → Option β} {j_lo j_hi i_lo i_hi j_lo' j_hi' i_lo' i_hi' : Int}
    (h : ∀ j i, f j i ≠ none → (j_lo ≤ j ∧ j ≤ j_hi) ∧ i_lo ≤ i ∧ i ≤ i_hi)
    (h' : ∀ j i, f j i ≠ none → (j_lo' ≤ j ∧ j ≤ j_hi') ∧ i_lo' ≤ i ∧ i ≤ i_hi') :
    ((int_range j_lo j_hi).product (int_range i_lo i_hi)).filterMap (fun s => f s.1 s.2) =
      (int_range j_lo' j_hi').flatMap fun j =>
        (int_range i_lo' i_hi').flatMap fun i => (f j i).toList := by
  rw [filterMap_product]
  have hsome : ∀ j i, (f j i).toList ≠ [] → f j i ≠ none := by
    intro j i hne hnone
    rw [hnone] at hne
    exact hne rfl
  have hinner : ∀ j, (int_range i_lo i_hi).filterMap (fun i => f j i) =
      (int_range i_lo' i_hi').flatMap fun i => (f j i).toList := by
    intro j
    rw [filterMap_eq_flatMap]
    exact flatMap_int_range (fun i hi => (h j i (hsome j i hi)).2)
      fun i hi => (h' j i (hsome j i hi)).2
  simp only [hinner]
  have hrow : ∀ j, ((int_range i_lo' i_hi').flatMap fun i => (f j i).toList) ≠ [] →
      ∃ i, f j i ≠ none := by
    intro j hne
    by_contra hnone
    push Not at hnone
    apply hne
    rw [List.flatMap_eq_nil_iff]
    intro i _
    rw [hnone i]
    rfl
  apply flatMap_int_range
  · intro j hj
    obtain ⟨i, hi⟩ := hrow j hj
    exact (h j i hi).1
  · intro j hj
    obtain ⟨i, hi⟩ := hrow j hj
    exact (h' j i hi).1

theorem flatMap_pairs {α β γ : Type} (l : List α) (m : List β) (P : α × β → Bool) (g : α × β → γ) :
    (l.flatMap fun a => m.flatMap fun b => (if P (a, b) then some (g (a, b)) else none).toList) =
      ((l.product m).filter P).map g := by
  have hfilter : ∀ k : List (α × β), (k.filter P).map g =
      k.filterMap fun s => if P s then some (g s) else none := by
    intro k
    induction k with
    | nil => rfl
    | cons s k ih =>
      rw [List.filter_cons, List.filterMap_cons]
      split
      · rw [List.map_cons, ih]
      · exact ih
  rw [hfilter, filterMap_product]
  congr 1
  funext a
  rw [filterMap_eq_flatMap]

theorem reduceOption_map {α β : Type} (l : List α) (f : α → Option β) :
    (l.map f).reduceOption = l.filterMap f := by
  rw [List.reduceOption, List.filterMap_map]
  rfl

theorem nodup_pairs {δ σ ρ κ : Type} {ds : List δ} {ss : List σ} (hds : ds.Nodup) (hss : ss.Nodup)
    {f : δ → ρ} {g : σ → κ} (hf : Function.Injective f) (hg : Function.Injective g)
    (P : δ → σ → Bool) : (ds.flatMap fun d => (ss.filter (P d)).map fun s => (f d, g s)).Nodup := by
  rw [List.nodup_flatMap]
  constructor
  · intro d _
    apply (hss.filter _).map
    intro s s' heq
    exact hg (Prod.mk.inj heq).2
  · apply hds.imp
    intro d d' hne
    show List.Disjoint _ _
    intro x hx hx'
    obtain ⟨s, -, hs⟩ := List.mem_map.mp hx
    obtain ⟨s', -, hs'⟩ := List.mem_map.mp hx'
    exact hne (hf (Prod.mk.inj (hs.trans hs'.symm)).1)

/-! ## Section 2: Uniform grids -/

theorem cell_index_lt {ni nj : Nat} {js i : Int} (hjs : 0 ≤ js ∧ js < nj) (hpos : 0 < ni) :
    js.toNat * ni + (i % ni).toNat < ni * nj := by
  have hmod := Int.emod_lt_of_pos i (Int.natCast_pos.mpr hpos)
  have hnonneg := Int.emod_nonneg i (Int.natCast_ne_zero.mpr hpos.ne')
  have hrow : js.toNat + 1 ≤ nj := by omega
  have hcol : (i % ni).toNat < ni := by omega
  calc js.toNat * ni + (i % ni).toNat < (js.toNat + 1) * ni := by
        rw [Nat.succ_mul]
        exact Nat.add_lt_add_left hcol _
    _ ≤ nj * ni := Nat.mul_le_mul_right _ hrow
    _ = ni * nj := Nat.mul_comm _ _

theorem grid_index_lt {ni nj : Nat} (s : Fin nj × Fin ni) : s.1 * ni + s.2 < ni * nj :=
  calc s.1 * ni + s.2 < (s.1 + 1) * ni := by
        rw [Nat.succ_mul]
        exact Nat.add_lt_add_left s.2.isLt _
    _ ≤ nj * ni := Nat.mul_le_mul_right _ s.1.isLt
    _ = ni * nj := Nat.mul_comm _ _

namespace RectMeshes

variable {K : Type} [Field K] [LinearOrder K] (p : RectMeshes K)

/-- The source cell in row `js` and column `i`. The columns of a global source
    go round. -/
def cell_at (js i : Int) : Option (Fin p.src.n_cells) :=
  if h : (0 ≤ js ∧ js < p.src.nj) ∧ 0 < p.src.ni ∧
      (p.src_is_global = false → 0 ≤ i ∧ i < p.src.ni) then
    some ⟨js.toNat * p.src.ni + (i % p.src.ni).toNat, cell_index_lt h.1 h.2.1⟩
  else none

/-- `js * src_ni + is` -/
def src_cell (s : Fin p.src.nj × Fin p.src.ni) : Fin p.src.n_cells :=
  ⟨s.1 * p.src.ni + s.2, grid_index_lt s⟩

variable (sin : K → K)

/-- A destination cell is not skipped. -/
def dst_open (d : Fin p.dst.nj × Fin p.dst.ni) : Bool :=
  masked p.dst.cell_mask (p.dst_cell_idx d) = false ∧
    0 < cell_area sin p.csys p.dst (p.dst_cell_idx d)

variable [FloorRing K]

/-- **The pairs of cells to be found**: both are open, and they share an area. -/
def overlapping (d : Fin p.dst.nj × Fin p.dst.ni) (s : Fin p.src.nj × Fin p.src.ni) : Bool :=
  p.dst_open sin d ∧ masked p.src.cell_mask (p.src_cell s) = false ∧
    0 < cell_area sin p.csys p.src (p.src_cell s) ∧
    0 < p.overlap_area sin d (s.1 : Nat) (s.2 : Nat)

/-- **The loop over all pairs.** -/
def all_pairs : List (Overlap K p.src.n_cells p.dst.n_cells) :=
  ((List.finRange p.dst.nj).product (List.finRange p.dst.ni)).flatMap fun d =>
    (((List.finRange p.src.nj).product (List.finRange p.src.ni)).filter (p.overlapping sin d)).map
      fun s => ⟨p.dst_cell_idx d, p.src_cell s, p.overlap_area sin d (s.1 : Nat) (s.2 : Nat)⟩

/-- What a destination cell shares with a source cell, if the source cell is
    open and they share something. -/
def found_at (d : Fin p.dst.nj × Fin p.dst.ni) (js i : Int) :
    Option (Overlap K p.src.n_cells p.dst.n_cells) :=
  (p.cell_at js i).bind fun s =>
    if masked p.src.cell_mask s = false ∧ 0 < cell_area sin p.csys p.src s ∧
        0 < p.overlap_area sin d js i then
      some ⟨p.dst_cell_idx d, s, p.overlap_area sin d js i⟩
    else none

/-- **The loop over all rows and a range of columns.** -/
def row_overlaps (d : Fin p.dst.nj × Fin p.dst.ni) (is_lo is_hi : Int) :
    List (Overlap K p.src.n_cells p.dst.n_cells) :=
  (int_range 0 ((p.src.nj : Int) - 1)).flatMap fun js =>
    (int_range is_lo is_hi).flatMap fun i => (p.found_at sin d js i).toList

/-- The bounds of a destination cell, in cells of the source. -/
def lon_floors (d : Fin p.dst.nj × Fin p.dst.ni) : Int × Int :=
  (⌊(p.d_lo_x_norm d - p.src.lon_min) / p.src.delta_lon⌋,
    ⌊(p.d_hi_x_norm d - p.src.lon_min) / p.src.delta_lon⌋)

def lat_floors (d : Fin p.dst.nj × Fin p.dst.ni) : Int × Int :=
  (⌊(p.d_lo_y d - p.src.lat_min) / p.src.delta_lat⌋,
    ⌊(p.d_hi_y d - p.src.lat_min) / p.src.delta_lat⌋)

/-- **The indices fit `int`**: the sizes of the source, and what the bounds of
    an open destination cell are mapped to. The columns of a global source are
    also counted on, and reduced. -/
structure IntIndices : Prop where
  ni_lt : p.src.ni < 2 ^ 31
  nj_lt : p.src.nj < 2 ^ 31
  wrap : p.src_is_global = true → p.src.ni ≤ 2 ^ 30
  lon : ∀ d, p.dst_open sin d = true → Fits 32 (p.lon_floors d).1 ∧ Fits 32 (p.lon_floors d).2
  next : ∀ d, p.dst_open sin d = true → p.src_is_global = true → Fits 32 ((p.lon_floors d).2 + 1)
  lat : ∀ d, p.dst_open sin d = true → Fits 32 (p.lat_floors d).1 ∧ Fits 32 (p.lat_floors d).2

variable {p} {sin} {d : Fin p.dst.nj × Fin p.dst.ni} {js i : Int}

theorem int_mod_of_pos {a : Int} {n : Nat} (ha : Fits 32 a) (hn : 0 < n) :
    int_mod a n = .returned (a.tmod n) := by
  have hpos : (0 : Int) < n := Int.natCast_pos.mpr hn
  have hfits : Fits 32 (a.tdiv n) := by
    rw [fits_32] at ha ⊢
    rcases le_total 0 a with hsign | hsign
    · have hle := Int.ediv_le_self (n : Int) hsign
      have hnonneg := Int.ediv_nonneg hsign hpos.le
      rw [tdiv_of_nonneg hsign]
      omega
    · have hle := Int.ediv_le_self (n : Int) (Int.neg_nonneg.mpr hsign)
      have hnonneg := Int.ediv_nonneg (Int.neg_nonneg.mpr hsign) hpos.le
      have hneg : a.tdiv n = -(-a / n) := by
        rw [← tdiv_of_nonneg (Int.neg_nonneg.mpr hsign), Int.neg_tdiv, Int.neg_neg]
      omega
  unfold int_mod
  rw [if_neg hpos.ne', signed_of_fits hfits, Outcome.returned_bind, Outcome.pure_eq]

theorem tmod_add_emod (a : Int) (n : Int) : (a.tmod n + n) % n = a % n := by
  have heq : a.tmod n + n = a + n * (1 - a.tdiv n) := by
    have hdiv := Int.tmod_add_mul_tdiv a n
    rw [mul_sub, mul_one]
    omega
  rw [heq, Int.add_mul_emod_self_left]

theorem wrapped_eq_of_fits {a : Int} {n : Nat} (ha : Fits 32 a) (hpos : 0 < n) (hn : n < 2 ^ 31)
    (hsum : Fits 32 (a.tmod n + n)) :
    (do
      let wrapped ← int_mod a (to_int n)
      let shifted ← signed 32 (wrapped + to_int n)
      int_mod shifted (to_int n)) = .returned (a % n) := by
  have hgt := Int.lt_tmod_of_pos a (Int.natCast_pos.mpr hpos)
  rw [to_int_of_lt hn, int_mod_of_pos ha hpos, Outcome.returned_bind, signed_of_fits hsum,
    Outcome.returned_bind, int_mod_of_pos hsum hpos, tmod_of_nonneg (by omega), tmod_add_emod]

theorem wrapped_eq {a : Int} {n : Nat} (ha : Fits 32 a) (hpos : 0 < n) (hn : n ≤ 2 ^ 30) :
    (do
      let wrapped ← int_mod a (to_int n)
      let shifted ← signed 32 (wrapped + to_int n)
      int_mod shifted (to_int n)) = .returned (a % n) := by
  have hlt := Int.tmod_lt_of_pos a (Int.natCast_pos.mpr hpos)
  have hgt := Int.lt_tmod_of_pos a (Int.natCast_pos.mpr hpos)
  exact wrapped_eq_of_fits ha hpos (by omega) (fits_32.mpr (by omega))

theorem is_actual_eq (hint : p.IntIndices sin) (hpos : 0 < p.src.ni) (hi : Fits 32 i)
    (hrange : p.src_is_global = false → 0 ≤ i ∧ i < p.src.ni) :
    p.is_actual i = .returned (i % p.src.ni) := by
  unfold is_actual
  cases hglobal : p.src_is_global with
  | false =>
    obtain ⟨hlo, hhi⟩ := hrange hglobal
    rw [if_neg (by decide), Int.emod_eq_of_lt hlo hhi]
    rfl
  | true =>
    rw [if_pos rfl]
    exact wrapped_eq hi hpos (hint.wrap hglobal)

theorem src_cell_idx_eq (hint : p.IntIndices sin) (hpos : 0 < p.src.ni) (hi : Fits 32 i)
    (hjs : 0 ≤ js ∧ js < p.src.nj) (hrange : p.src_is_global = false → 0 ≤ i ∧ i < p.src.ni) :
    p.src_cell_idx js i = .returned (p.cell_at js i) := by
  have hcond : (0 ≤ js ∧ js < p.src.nj) ∧ 0 < p.src.ni ∧
      (p.src_is_global = false → 0 ≤ i ∧ i < p.src.ni) := ⟨hjs, hpos, hrange⟩
  have hmod := Int.emod_lt_of_pos i (Int.natCast_pos.mpr hpos)
  have hnonneg := Int.emod_nonneg i (Int.natCast_ne_zero.mpr hpos.ne')
  have hni := hint.ni_lt
  have hnj := hint.nj_lt
  -- neither the product nor the sum wraps
  have hrow : js * p.src.ni ≤ (2 ^ 31 - 1) * (2 ^ 31 - 1) := by
    apply mul_le_mul
    · omega
    · omega
    · omega
    · decide
  have hrow_nonneg : 0 ≤ js * p.src.ni := mul_nonneg hjs.1 (by omega)
  have hidx : ((js * p.src.ni + i % p.src.ni) % 2 ^ 64).toNat =
      js.toNat * p.src.ni + (i % p.src.ni).toNat := by
    rw [Int.emod_eq_of_lt (by omega) (by omega), Int.toNat_add hrow_nonneg hnonneg,
      Int.toNat_mul hjs.1 (by omega), Int.toNat_natCast]
  unfold src_cell_idx cell_at
  rw [is_actual_eq hint hpos hi hrange, Outcome.returned_bind, dif_pos hcond, Outcome.pure_eq]
  simp only [hidx]
  exact congrArg _ (dif_pos (cell_index_lt hjs hpos))

theorem overlap_at_eq (hint : p.IntIndices sin) (hpos : 0 < p.src.ni) (hi : Fits 32 i)
    (hjs : 0 ≤ js ∧ js < p.src.nj) (hrange : p.src_is_global = false → 0 ≤ i ∧ i < p.src.ni) :
    p.overlap_at sin d js i = .returned (p.found_at sin d js i) := by
  unfold overlap_at found_at
  rw [src_cell_idx_eq hint hpos hi hjs hrange, Outcome.returned_bind]
  cases p.cell_at js i with
  | none => rfl
  | some s =>
    show (if masked p.src.cell_mask s = true then _ else _) = Outcome.returned (if _ then _ else _)
    by_cases hmask : masked p.src.cell_mask s = true
    · rw [if_pos hmask, if_neg (by simp [hmask])]
      rfl
    rw [if_neg hmask]
    by_cases harea : cell_area sin p.csys p.src s ≤ 0
    · rw [if_pos harea, if_neg (fun h => absurd h.2.1 (not_lt.mpr harea))]
      rfl
    rw [if_neg harea]
    by_cases hoverlap : p.overlap_area sin d js i ≤ 0
    · rw [if_pos hoverlap, if_neg (fun h => absurd h.2.2 (not_lt.mpr hoverlap))]
      rfl
    rw [if_neg hoverlap, if_pos ⟨Bool.eq_false_iff.mpr hmask, not_le.mp harea, not_le.mp hoverlap⟩]
    rfl

/-- The columns that are visited. -/
def columns (p : RectMeshes K) (d : Fin p.dst.nj × Fin p.dst.ni) : Int × Int :=
  if p.src_is_global then p.lon_floors d
  else (max 0 (p.lon_floors d).1, min ((p.src.ni : Int) - 1) (p.lon_floors d).2)

theorem lon_range_eq (hint : p.IntIndices sin) (hopen : p.dst_open sin d = true) :
    p.lon_range d = .returned ((p.columns d).1, (p.columns d).2) := by
  obtain ⟨hlo, hhi⟩ := hint.lon d hopen
  have hni := hint.ni_lt
  have hlast : Fits 32 ((p.src.ni : Int) - 1) := fits_32.mpr (by omega)
  unfold lon_range columns
  have hlo' : (signed 32 ⌊(p.d_lo_x_norm d - p.src.lon_min) / p.src.delta_lon⌋ :
      Outcome String Int) = .returned (p.lon_floors d).1 := signed_of_fits hlo
  have hhi' : (signed 32 ⌊(p.d_hi_x_norm d - p.src.lon_min) / p.src.delta_lon⌋ :
      Outcome String Int) = .returned (p.lon_floors d).2 := signed_of_fits hhi
  rw [hlo', Outcome.returned_bind, hhi', Outcome.returned_bind]
  cases p.src_is_global with
  | true => rfl
  | false =>
    rw [if_neg (by decide), if_neg (by decide), to_int_of_lt hni, signed_of_fits hlast]
    rfl

theorem lat_range_eq (hint : p.IntIndices sin) (hopen : p.dst_open sin d = true) :
    p.lat_range d =
      .returned (max 0 (p.lat_floors d).1, min ((p.src.nj : Int) - 1) (p.lat_floors d).2) := by
  obtain ⟨hlo, hhi⟩ := hint.lat d hopen
  have hnj := hint.nj_lt
  have hlast : Fits 32 ((p.src.nj : Int) - 1) := fits_32.mpr (by omega)
  unfold lat_range
  have hlo' : (signed 32 ⌊(p.d_lo_y d - p.src.lat_min) / p.src.delta_lat⌋ :
      Outcome String Int) = .returned (p.lat_floors d).1 := signed_of_fits hlo
  have hhi' : (signed 32 ⌊(p.d_hi_y d - p.src.lat_min) / p.src.delta_lat⌋ :
      Outcome String Int) = .returned (p.lat_floors d).2 := signed_of_fits hhi
  rw [hlo', Outcome.returned_bind, hhi', Outcome.returned_bind, to_int_of_lt hnj,
    signed_of_fits hlast]
  rfl

theorem found_at_ne_none (h : p.found_at sin d js i ≠ none) :
    ((0 ≤ js ∧ js < p.src.nj) ∧ 0 < p.src.ni ∧
      (p.src_is_global = false → 0 ≤ i ∧ i < p.src.ni)) ∧ 0 < p.overlap_area sin d js i := by
  unfold found_at cell_at at h
  split at h
  · next hcond =>
    refine ⟨hcond, ?_⟩
    by_contra hoverlap
    apply h
    show (if _ then _ else _) = none
    rw [if_neg (fun hc => hoverlap hc.2.2)]
  · exact absurd rfl h

variable [IsStrictOrderedRing K]

/-- **Completeness.** The ranges of rows and columns that are visited leave
    nothing out. -/
theorem found_at_visited (h : p.found_at sin d js i ≠ none) :
    (max 0 (p.lat_floors d).1 ≤ js ∧ js ≤ min ((p.src.nj : Int) - 1) (p.lat_floors d).2) ∧
      (p.columns d).1 ≤ i ∧ i ≤ (p.columns d).2 := by
  obtain ⟨⟨hjs, -, hrange⟩, hoverlap⟩ := found_at_ne_none h
  obtain ⟨hx, hy⟩ := bounds_of_overlap hoverlap
  have hlon : (p.lon_floors d).1 ≤ i ∧ i ≤ (p.lon_floors d).2 :=
    floor_range p.src.delta_lon_pos hx.1 hx.2
  have hlat : (p.lat_floors d).1 ≤ js ∧ js ≤ (p.lat_floors d).2 :=
    floor_range p.src.delta_lat_pos hy.1 hy.2
  refine ⟨by omega, ?_⟩
  unfold columns
  cases hglobal : p.src_is_global with
  | true => exact hlon
  | false =>
    have hinside := hrange hglobal
    rw [if_neg (by decide)]
    show max 0 (p.lon_floors d).1 ≤ i ∧ i ≤ min ((p.src.ni : Int) - 1) (p.lon_floors d).2
    omega

theorem ni_pos_of_global (h : p.src_is_global = true) : 0 < p.src.ni := by
  by_contra hzero
  have hspan : (p.src.ni : K) * p.src.delta_lon > p.wrap_threshold := of_decide_eq_true h
  have hthreshold : (0 : K) < p.wrap_threshold := by
    unfold wrap_threshold
    split
    · norm_num
    · norm_num
  rw [Nat.eq_zero_of_not_pos hzero, Nat.cast_zero, zero_mul] at hspan
  exact absurd hspan (not_lt.mpr hthreshold.le)

theorem fits_of_visited (hint : p.IntIndices sin) (hopen : p.dst_open sin d = true)
    (hi : (p.columns d).1 ≤ i ∧ i ≤ (p.columns d).2) :
    0 < p.src.ni ∧ Fits 32 i ∧ (p.src_is_global = false → 0 ≤ i ∧ i < p.src.ni) := by
  obtain ⟨hlo, hhi⟩ := hint.lon d hopen
  have hni := hint.ni_lt
  unfold columns at hi
  cases hglobal : p.src_is_global with
  | true =>
    rw [hglobal, if_pos rfl] at hi
    rw [fits_32] at hlo hhi ⊢
    exact ⟨ni_pos_of_global hglobal, by omega, fun h => by cases h⟩
  | false =>
    rw [hglobal, if_neg (by decide)] at hi
    obtain ⟨hi₁, hi₂⟩ : max 0 (p.lon_floors d).1 ≤ i ∧
        i ≤ min ((p.src.ni : Int) - 1) (p.lon_floors d).2 := hi
    rw [fits_32]
    omega

theorem visited_eq {is_lo is_hi : Int}
    (hcover : ∀ js i, p.found_at sin d js i ≠ none → is_lo ≤ i ∧ i ≤ is_hi) :
    ((int_range (max 0 (p.lat_floors d).1) (min ((p.src.nj : Int) - 1) (p.lat_floors d).2)).product
      (int_range (p.columns d).1 (p.columns d).2)).filterMap (fun s => p.found_at sin d s.1 s.2) =
      p.row_overlaps sin d is_lo is_hi := by
  apply window_eq (fun js i h => found_at_visited h)
  intro js i h
  have hrange := (found_at_ne_none h).1.1
  exact ⟨by omega, hcover js i h⟩

theorem int_range_of_gt {lo hi : Int} (h : hi < lo) : int_range lo hi = [] := by
  have hzero : (hi + 1 - lo).toNat = 0 := by omega
  rw [int_range, hzero]
  rfl

theorem fits_next (hint : p.IntIndices sin) (hopen : p.dst_open sin d = true)
    (hle : (p.columns d).1 ≤ (p.columns d).2) : Fits 32 ((p.columns d).2 + 1) := by
  have hlast := fits_of_visited hint hopen ⟨hle, le_refl _⟩
  cases hglobal : p.src_is_global with
  | true =>
    have hnext := hint.next d hopen hglobal
    unfold columns
    rw [hglobal, if_pos rfl]
    exact hnext
  | false =>
    have hinside := hlast.2.2 hglobal
    have hni := hint.ni_lt
    rw [fits_32]
    omega

/-- **One destination cell.** The search finds what the loop over all rows and
    columns finds. -/
theorem cell_overlaps_eq (hint : p.IntIndices sin) {is_lo is_hi : Int}
    (hcover : ∀ js i, p.found_at sin d js i ≠ none → is_lo ≤ i ∧ i ≤ is_hi) :
    p.cell_overlaps sin d =
      .returned (if p.dst_open sin d then p.row_overlaps sin d is_lo is_hi else []) := by
  unfold cell_overlaps
  by_cases hmask : masked p.dst.cell_mask (p.dst_cell_idx d) = true
  · rw [if_pos hmask, if_neg (by simp [dst_open, hmask])]
    rfl
  by_cases harea : cell_area sin p.csys p.dst (p.dst_cell_idx d) ≤ 0
  · rw [if_neg hmask, if_pos harea, if_neg (by simp [dst_open, harea])]
    rfl
  have hopen : p.dst_open sin d = true := by
    simpa [dst_open] using ⟨Bool.eq_false_iff.mpr hmask, not_le.mp harea⟩
  rw [if_neg hmask, if_neg harea, if_pos hopen, lon_range_eq hint hopen, Outcome.returned_bind]
  dsimp only
  rw [lat_range_eq hint hopen, Outcome.returned_bind, ← visited_eq hcover]
  dsimp only
  split
  · next hempty =>
    -- one of the ranges is empty
    rw [Outcome.pure_eq, filterMap_product]
    congr 1
    symm
    rcases hempty with hcols | hrows
    · rw [int_range_of_gt hcols]
      exact List.flatMap_eq_nil_iff.mpr fun _ _ => rfl
    · rw [int_range_of_gt hrows]
      rfl
  · next hempty =>
    have hle : (p.columns d).1 ≤ (p.columns d).2 := not_lt.mp (not_or.mp hempty).1
    rw [signed_of_fits (fits_next hint hopen hle), Outcome.returned_bind,
      Outcome.mapM_of_returned (g := fun s => p.found_at sin d s.1 s.2), Outcome.returned_bind,
      Outcome.pure_eq, reduceOption_map]
    intro ⟨js, i⟩ hmem
    obtain ⟨hjs, hi⟩ := List.pair_mem_product.mp hmem
    rw [mem_int_range] at hjs hi
    obtain ⟨hpos, hfits, hrange⟩ := fits_of_visited hint hopen hi
    exact overlap_at_eq hint hpos hfits (by omega) hrange

/-- **All destination cells**, with a range of columns for each that leaves
    nothing out. -/
theorem overlaps_eq (hint : p.IntIndices sin) {lo hi : Fin p.dst.nj × Fin p.dst.ni → Int}
    (hcover : ∀ d js i, p.found_at sin d js i ≠ none → lo d ≤ i ∧ i ≤ hi d) :
    p.overlaps sin = .returned (((List.finRange p.dst.nj).product (List.finRange p.dst.ni)).flatMap
      fun d => if p.dst_open sin d then p.row_overlaps sin d (lo d) (hi d) else []) := by
  unfold overlaps
  rw [Outcome.mapM_of_returned fun d _ => cell_overlaps_eq hint (hcover d), Outcome.returned_bind]
  rfl

/-! ### A source that is not global -/

omit [FloorRing K] [IsStrictOrderedRing K] in
theorem src_cell_injective (p : RectMeshes K) : Function.Injective p.src_cell := by
  intro s s' heq
  obtain ⟨hrow, hcol⟩ := row_major_inj s.2.isLt s'.2.isLt (Fin.mk.inj heq)
  exact Prod.ext (Fin.ext hrow) (Fin.ext hcol)

omit [FloorRing K] [IsStrictOrderedRing K] in
theorem dst_cell_idx_injective (p : RectMeshes K) : Function.Injective p.dst_cell_idx := by
  intro d d' heq
  obtain ⟨hrow, hcol⟩ := row_major_inj d.2.isLt d'.2.isLt (Fin.mk.inj heq)
  exact Prod.ext (Fin.ext hrow) (Fin.ext hcol)

omit [IsStrictOrderedRing K] in
theorem mem_all_pairs {o : Overlap K p.src.n_cells p.dst.n_cells} :
    o ∈ p.all_pairs sin ↔ ∃ d s, p.overlapping sin d s = true ∧
      o = ⟨p.dst_cell_idx d, p.src_cell s, p.overlap_area sin d (s.1 : Nat) (s.2 : Nat)⟩ := by
  unfold all_pairs
  rw [List.mem_flatMap]
  constructor
  · intro ⟨d, _, hmem⟩
    obtain ⟨s, hs, heq⟩ := List.mem_map.mp hmem
    exact ⟨d, s, (List.mem_filter.mp hs).2, heq.symm⟩
  · intro ⟨d, s, hoverlap, heq⟩
    refine ⟨d, List.pair_mem_product.mpr ⟨List.mem_finRange _, List.mem_finRange _⟩, ?_⟩
    refine List.mem_map.mpr ⟨s, List.mem_filter.mpr ⟨?_, hoverlap⟩, heq.symm⟩
    exact List.pair_mem_product.mpr ⟨List.mem_finRange _, List.mem_finRange _⟩

omit [IsStrictOrderedRing K] in
theorem nodup_all_pairs : ((p.all_pairs sin).map fun o => (o.row, o.col)).Nodup := by
  unfold all_pairs
  rw [List.map_flatMap]
  simp only [List.map_map]
  exact nodup_pairs ((List.nodup_finRange _).product (List.nodup_finRange _))
    ((List.nodup_finRange _).product (List.nodup_finRange _)) p.dst_cell_idx_injective
    p.src_cell_injective (p.overlapping sin)

omit [IsStrictOrderedRing K] in
theorem found_at_cell (hopen : p.dst_open sin d = true)
    (s : Fin p.src.nj × Fin p.src.ni) : p.found_at sin d (s.1 : Nat) (s.2 : Nat) =
      if p.overlapping sin d s then
        some ⟨p.dst_cell_idx d, p.src_cell s, p.overlap_area sin d (s.1 : Nat) (s.2 : Nat)⟩
      else none := by
  have hcond : (0 ≤ ((s.1 : Nat) : Int) ∧ ((s.1 : Nat) : Int) < p.src.nj) ∧ 0 < p.src.ni ∧
      (p.src_is_global = false → 0 ≤ ((s.2 : Nat) : Int) ∧ ((s.2 : Nat) : Int) < p.src.ni) := by
    have hjs := s.1.isLt
    have hi := s.2.isLt
    omega
  have hcell : p.cell_at (s.1 : Nat) (s.2 : Nat) = some (p.src_cell s) := by
    unfold cell_at src_cell
    rw [dif_pos hcond]
    simp [Int.emod_eq_of_lt (Int.natCast_nonneg _) (Int.ofNat_lt.mpr s.2.isLt)]
  unfold found_at overlapping
  rw [hcell, hopen]
  simp

/-- **A source that is not global.** The search finds what the loop over all
    pairs finds. -/
theorem overlaps_eq_all_pairs (hint : p.IntIndices sin) (hglobal : p.src_is_global = false) :
    p.overlaps sin = .returned (p.all_pairs sin) := by
  have hcover : ∀ d js i, p.found_at sin d js i ≠ none → 0 ≤ i ∧ i ≤ (p.src.ni : Int) - 1 := by
    intro d js i h
    have hinside := (found_at_ne_none h).1.2.2 hglobal
    omega
  rw [overlaps_eq hint hcover]
  unfold all_pairs
  congr 2
  funext d
  by_cases hopen : p.dst_open sin d = true
  · rw [if_pos hopen]
    unfold row_overlaps
    simp only [flatMap_int_range_all]
    rw [← flatMap_pairs]
    congr 1
    funext js
    congr 1
    funext i
    rw [← found_at_cell hopen (js, i)]
  · rw [if_neg hopen]
    symm
    rw [List.map_eq_nil_iff, List.filter_eq_nil_iff]
    intro s _ hs
    exact hopen (of_decide_eq_true hs).1

end RectMeshes

/-! ## Section 3: Grids that are not uniform -/

/-- The coordinates of the `ni` columns and `nj` rows of a grid, increasing. -/
structure IsGrid (info : RectilinearGridInfo) (n_cells : Nat) : Prop where
  lons_length : info.unique_lons.length = info.ni + 1
  lats_length : info.unique_lats.length = info.nj + 1
  lons_sorted : info.unique_lons.Pairwise (· < ·)
  lats_sorted : info.unique_lats.Pairwise (· < ·)
  cells : info.ni * info.nj = n_cells

/-- `is + js * ni` -/
def IsGrid.cell {info : RectilinearGridInfo} {n_cells : Nat} (h : IsGrid info n_cells)
    (s : Fin info.nj × Fin info.ni) : Fin n_cells :=
  ⟨s.1 * info.ni + s.2, (grid_index_lt s).trans_eq h.cells⟩

theorem IsGrid.cell_injective {info : RectilinearGridInfo} {n_cells : Nat}
    (h : IsGrid info n_cells) : Function.Injective h.cell := by
  intro s s' heq
  obtain ⟨hrow, hcol⟩ := row_major_inj s.2.isLt s'.2.isLt (Fin.mk.inj heq)
  exact Prod.ext (Fin.ext hrow) (Fin.ext hcol)

namespace WeightGenerator.Meshes

/-! ### Looking up sorted coordinates -/

section Lookup

variable {coords : List ℚ} {x : ℚ} {k : Nat}

theorem coord_eq_getElem (hk : k < coords.length) : coord coords k = coords[k] := by
  unfold coord
  rw [List.getD_eq_getElem?_getD, List.getElem?_eq_getElem hk, Option.getD_some]

theorem coord_lt (hsorted : coords.Pairwise (· < ·)) {j : Nat} (hjk : j < k)
    (hk : k < coords.length) : coord coords j < coord coords k := by
  rw [coord_eq_getElem hk, coord_eq_getElem (hjk.trans hk)]
  exact List.pairwise_iff_getElem.mp hsorted j k (hjk.trans hk) hk hjk

theorem lower_bound_le (hk : k < coords.length) (hx : x ≤ coord coords k) :
    coords.findIdx (fun c => decide (x ≤ c)) ≤ k := by
  by_contra hlt
  have hbefore := List.not_of_lt_findIdx (not_le.mp hlt)
  rw [coord_eq_getElem hk] at hx
  simp [hx] at hbefore

theorem lt_upper_bound (hsorted : coords.Pairwise (· < ·)) (hk : k < coords.length)
    (hx : coord coords k ≤ x) : k < coords.findIdx (fun c => decide (x < c)) := by
  by_contra hle
  have hlt := (not_lt.mp hle).trans_lt hk
  have hfound : x < coords[coords.findIdx (fun c => decide (x < c))] :=
    of_decide_eq_true (List.findIdx_getElem (w := hlt))
  rw [← coord_eq_getElem hlt] at hfound
  rcases (not_lt.mp hle).lt_or_eq with hless | heq
  · exact absurd (hfound.trans (coord_lt hsorted hless hk)) (not_lt.mpr hx)
  · rw [heq] at hfound
    exact absurd hfound (not_lt.mpr hx)

end Lookup

/-! ### The loops -/

variable (p : Meshes) (sin : ℚ → ℚ) {src_info dst_info : RectilinearGridInfo}
  (hsrc : IsGrid src_info p.src.n_cells) (hdst : IsGrid dst_info p.dst.n_cells)

/-- A destination cell is not skipped. -/
def nonuniform_dst_open (d : Fin dst_info.nj × Fin dst_info.ni) : Bool :=
  p.dst.is_masked (hdst.cell d) = false ∧ 0 < p.nonuniform_dst_area sin dst_info (hdst.cell d)

/-- **The pairs of cells to be found**: both are open, and they share an area
    that is not tiny. -/
def nonuniform_overlapping (d : Fin dst_info.nj × Fin dst_info.ni)
    (s : Fin src_info.nj × Fin src_info.ni) : Bool :=
  p.nonuniform_dst_open sin hdst d ∧ p.src.is_masked (hsrc.cell s) = false ∧
    0 < p.nonuniform_src_area sin src_info (hsrc.cell s) ∧
    1 / 10 ^ 12 < p.nonuniform_overlap_area sin src_info dst_info d.2 d.1 (s.1 : Nat) (s.2 : Nat)
      (s.2 : Nat)

/-- **The loop over all pairs.** -/
def nonuniform_pairs : List (Overlap ℚ p.src.n_cells p.dst.n_cells) :=
  ((List.finRange dst_info.nj).product (List.finRange dst_info.ni)).flatMap fun d =>
    (((List.finRange src_info.nj).product (List.finRange src_info.ni)).filter
      (p.nonuniform_overlapping sin hsrc hdst d)).map fun s =>
        ⟨hdst.cell d, hsrc.cell s, p.nonuniform_overlap_area sin src_info dst_info d.2 d.1
          (s.1 : Nat) (s.2 : Nat) (s.2 : Nat)⟩

/-- What a destination cell shares with the source cell in row `js` and column
    `i`, if the source cell is open and it is not tiny. -/
def nonuniform_found (d : Fin dst_info.nj × Fin dst_info.ni) (js i : Int) :
    Option (Overlap ℚ p.src.n_cells p.dst.n_cells) :=
  if h : (0 ≤ js ∧ js < src_info.nj) ∧ 0 < src_info.ni ∧
      (p.nonuniform_is_global src_info = false → 0 ≤ i ∧ i < src_info.ni) then
    let s : Fin p.src.n_cells := ⟨js.toNat * src_info.ni + (i % src_info.ni).toNat,
      (cell_index_lt h.1 h.2.1).trans_eq hsrc.cells⟩
    let area := p.nonuniform_overlap_area sin src_info dst_info d.2 d.1 js i (i % src_info.ni)
    if p.src.is_masked s = false ∧ 1 / 10 ^ 12 < area ∧
        0 < p.nonuniform_src_area sin src_info s then
      some ⟨hdst.cell d, s, area⟩
    else none
  else none

/-- The sizes of the source fit `int`. -/
structure IntSizes (src_info : RectilinearGridInfo) : Prop where
  ni_lt : src_info.ni + 1 < 2 ^ 31
  nj_lt : src_info.nj + 1 < 2 ^ 31
  wrap : p.nonuniform_is_global src_info = true → src_info.ni ≤ 2 ^ 30

variable {p} {sin} {hsrc} {hdst} {d : Fin dst_info.nj × Fin dst_info.ni} {js i : Int}

theorem nonuniform_column_eq (hsize : p.IntSizes src_info) (hpos : 0 < src_info.ni)
    (hi : Fits 32 i) (hrange : p.nonuniform_is_global src_info = false → 0 ≤ i ∧ i < src_info.ni) :
    p.nonuniform_column src_info i = .returned (i % src_info.ni) := by
  unfold nonuniform_column
  cases hglobal : p.nonuniform_is_global src_info with
  | false =>
    obtain ⟨hlo, hhi⟩ := hrange hglobal
    rw [if_neg (by decide), Int.emod_eq_of_lt hlo hhi]
    rfl
  | true =>
    rw [if_pos rfl]
    exact RectMeshes.wrapped_eq hi hpos (hsize.wrap hglobal)

theorem nonuniform_overlap_eq (hsize : p.IntSizes src_info) (hpos : 0 < src_info.ni)
    (hi : Fits 32 i) (hjs : 0 ≤ js ∧ js < src_info.nj)
    (hrange : p.nonuniform_is_global src_info = false → 0 ≤ i ∧ i < src_info.ni) :
    p.nonuniform_overlap sin src_info dst_info (hdst.cell d) d.2 d.1 js i =
      .returned (p.nonuniform_found sin hsrc hdst d js i) := by
  have hcond : (0 ≤ js ∧ js < src_info.nj) ∧ 0 < src_info.ni ∧
      (p.nonuniform_is_global src_info = false → 0 ≤ i ∧ i < src_info.ni) := ⟨hjs, hpos, hrange⟩
  have hnonneg := Int.emod_nonneg i (Int.natCast_ne_zero.mpr hpos.ne')
  have hrow : 0 ≤ js * src_info.ni := mul_nonneg hjs.1 (Int.natCast_nonneg _)
  have hidx : (i % src_info.ni + js * src_info.ni).toNat =
      js.toNat * src_info.ni + (i % src_info.ni).toNat := by
    rw [Int.toNat_add hnonneg hrow, Int.toNat_mul hjs.1 (Int.natCast_nonneg _), Int.toNat_natCast,
      Nat.add_comm]
  have hlt := (cell_index_lt (i := i) hjs hpos).trans_eq hsrc.cells
  have helement : element p.src.n_cells (i % src_info.ni + js * src_info.ni) =
      .returned ⟨js.toNat * src_info.ni + (i % src_info.ni).toNat, hlt⟩ := by
    unfold element
    rw [dif_pos ⟨add_nonneg hnonneg hrow, hidx ▸ hlt⟩]
    congr 2
  unfold nonuniform_overlap nonuniform_found
  rw [nonuniform_column_eq hsize hpos hi hrange, Outcome.returned_bind, helement,
    Outcome.returned_bind, dif_pos hcond]
  dsimp only
  split
  · next hmask =>
    rw [if_neg (by simp [hmask])]
    rfl
  next hmask =>
  split
  · next harea =>
    rw [if_neg (fun h => harea h.2.1)]
    rfl
  next harea =>
  split
  · next hsrc_area =>
    rw [if_neg (fun h => absurd h.2.2 (not_lt.mpr hsrc_area))]
    rfl
  next hsrc_area =>
  rw [if_pos ⟨Bool.eq_false_iff.mpr hmask, not_not.mp harea, not_le.mp hsrc_area⟩]
  rfl

/-! ### The ranges -/

/-- The columns that are visited. -/
def visited_columns (p : Meshes) (src_info : RectilinearGridInfo) (d_lo_x d_hi_x : ℚ) : Int × Int :=
  let lons := src_info.unique_lons
  (max 0 ((lons.findIdx (d_lo_x ≤ ·) : Int) - 1),
    if p.nonuniform_is_global src_info ∧ ¬ d_hi_x ≤ coord lons src_info.ni then
      lons.findIdx (d_hi_x < ·)
    else min ((src_info.ni : Int) - 1) (lons.findIdx (d_hi_x < ·)))

/-- The columns that are visited for a destination column. -/
def cell_columns (p : Meshes) (src_info dst_info : RectilinearGridInfo) (id : Nat) : Int × Int :=
  let shift := p.nonuniform_shift src_info dst_info id
  p.visited_columns src_info (coord dst_info.unique_lons id - shift)
    (coord dst_info.unique_lons (id + 1) - shift)

/-- The rows that are visited. -/
def visited_rows (src_info : RectilinearGridInfo) (d_lo_y d_hi_y : ℚ) : Int × Int :=
  let lats := src_info.unique_lats
  (max 0 ((lats.findIdx (d_lo_y ≤ ·) : Int) - 1),
    min ((src_info.nj : Int) - 1) (lats.findIdx (d_hi_y < ·)))

theorem nonuniform_columns_eq (hsize : p.IntSizes src_info)
    (hgrid : IsGrid src_info p.src.n_cells) (d_lo_x d_hi_x : ℚ) :
    p.nonuniform_columns src_info d_lo_x d_hi_x =
      .returned (int_range (p.visited_columns src_info d_lo_x d_hi_x).1
        (p.visited_columns src_info d_lo_x d_hi_x).2) := by
  have hni := hsize.ni_lt
  have hlower : src_info.unique_lons.findIdx (d_lo_x ≤ ·) ≤ src_info.ni + 1 :=
    hgrid.lons_length ▸ List.findIdx_le_length
  have hupper : src_info.unique_lons.findIdx (d_hi_x < ·) ≤ src_info.ni + 1 :=
    hgrid.lons_length ▸ List.findIdx_le_length
  have hlast : Fits 32 ((src_info.ni : Int) - 1) := fits_32.mpr (by omega)
  unfold nonuniform_columns visited_columns
  dsimp only
  rw [to_int_of_lt (n := src_info.unique_lons.findIdx (d_hi_x < ·)) (by omega),
    to_int_of_lt (n := src_info.ni) (by omega),
    to_int_of_fits (x := (src_info.unique_lons.findIdx (d_lo_x ≤ ·) : Int) - 1)
      (fits_32.mpr (by omega))]
  by_cases hcross : p.nonuniform_is_global src_info = true ∧
      ¬ d_hi_x ≤ coord src_info.unique_lons src_info.ni
  · have hwrap := hsize.wrap hcross.1
    rw [if_pos hcross, if_pos hcross, Outcome.pure_eq, Outcome.returned_bind,
      signed_of_fits (fits_32.mpr (by omega)), Outcome.returned_bind]
    rfl
  · rw [if_neg hcross, if_neg hcross, signed_of_fits hlast, Outcome.returned_bind, Outcome.pure_eq,
      Outcome.returned_bind, signed_of_fits (fits_32.mpr (by omega)), Outcome.returned_bind]
    rfl

theorem nonuniform_rows_eq (hsize : p.IntSizes src_info) (hgrid : IsGrid src_info p.src.n_cells)
    (d_lo_y d_hi_y : ℚ) : nonuniform_rows src_info d_lo_y d_hi_y =
      .returned (int_range (visited_rows src_info d_lo_y d_hi_y).1
        (visited_rows src_info d_lo_y d_hi_y).2) := by
  have hnj := hsize.nj_lt
  have hlower : src_info.unique_lats.findIdx (d_lo_y ≤ ·) ≤ src_info.nj + 1 :=
    hgrid.lats_length ▸ List.findIdx_le_length
  have hupper : src_info.unique_lats.findIdx (d_hi_y < ·) ≤ src_info.nj + 1 :=
    hgrid.lats_length ▸ List.findIdx_le_length
  have hlast : Fits 32 ((src_info.nj : Int) - 1) := fits_32.mpr (by omega)
  unfold nonuniform_rows visited_rows
  dsimp only
  rw [to_int_of_lt (n := src_info.unique_lats.findIdx (d_hi_y < ·)) (by omega),
    to_int_of_lt (n := src_info.nj) (by omega),
    to_int_of_fits (x := (src_info.unique_lats.findIdx (d_lo_y ≤ ·) : Int) - 1)
      (fits_32.mpr (by omega)), signed_of_fits hlast, Outcome.returned_bind]
  rfl

theorem nonuniform_bounds {id jd : Nat} {js i a : Int}
    (h : 0 < p.nonuniform_overlap_area sin src_info dst_info id jd js i a) :
    let wrap : ℚ := if p.nonuniform_is_global src_info ∧ i ≥ to_int src_info.ni then 360 else 0
    let shift := p.nonuniform_shift src_info dst_info id
    (coord src_info.unique_lons a.toNat + wrap < coord dst_info.unique_lons (id + 1) - shift ∧
      coord dst_info.unique_lons id - shift < coord src_info.unique_lons (a.toNat + 1) + wrap) ∧
    coord src_info.unique_lats js.toNat < coord dst_info.unique_lats (jd + 1) ∧
      coord dst_info.unique_lats jd < coord src_info.unique_lats (js.toNat + 1) := by
  intro wrap shift
  unfold nonuniform_overlap_area at h
  dsimp only at h
  split at h
  · obtain ⟨hx, hy⟩ := rect_overlap_spherical_pos h
    simp only [max_lt_iff, lt_min_iff] at hx hy
    exact ⟨⟨hx.2.1, hx.1.2⟩, hy.2.1, hy.1.2⟩
  · obtain ⟨hx, hy⟩ := rect_overlap_pos h
    simp only [max_lt_iff, lt_min_iff] at hx hy
    exact ⟨⟨hx.2.1, hx.1.2⟩, hy.2.1, hy.1.2⟩

theorem nonuniform_found_ne_none (h : p.nonuniform_found sin hsrc hdst d js i ≠ none) :
    ((0 ≤ js ∧ js < src_info.nj) ∧ 0 < src_info.ni ∧
      (p.nonuniform_is_global src_info = false → 0 ≤ i ∧ i < src_info.ni)) ∧
      0 < p.nonuniform_overlap_area sin src_info dst_info d.2 d.1 js i (i % src_info.ni) := by
  unfold nonuniform_found at h
  split at h
  · next hcond =>
    refine ⟨hcond, ?_⟩
    by_contra harea
    apply h
    dsimp only
    rw [if_neg]
    intro hc
    exact harea (lt_trans (by norm_num) hc.2.1)
  · exact absurd rfl h

/-- **Completeness**: a row or column where something is found is visited. -/
theorem nonuniform_row_visited (h : p.nonuniform_found sin hsrc hdst d js i ≠ none) :
    (visited_rows src_info (coord dst_info.unique_lats d.1)
      (coord dst_info.unique_lats (d.1 + 1))).1 ≤ js ∧
    js ≤ (visited_rows src_info (coord dst_info.unique_lats d.1)
      (coord dst_info.unique_lats (d.1 + 1))).2 := by
  obtain ⟨⟨hjs, -, -⟩, harea⟩ := nonuniform_found_ne_none h
  obtain ⟨-, hlo, hhi⟩ := nonuniform_bounds harea
  have hlength := hsrc.lats_length
  have hlower := lower_bound_le (k := js.toNat + 1) (by omega) hhi.le
  have hupper := lt_upper_bound hsrc.lats_sorted (k := js.toNat) (by omega) hlo.le
  unfold visited_rows
  dsimp only
  omega

theorem nonuniform_column_visited (h : p.nonuniform_found sin hsrc hdst d js i ≠ none)
    (hi : 0 ≤ i ∧ i < src_info.ni) (hsize : p.IntSizes src_info) :
    (p.cell_columns src_info dst_info d.2).1 ≤ i ∧ i ≤ (p.cell_columns src_info dst_info d.2).2 := by
  obtain ⟨-, harea⟩ := nonuniform_found_ne_none h
  obtain ⟨⟨hlo, hhi⟩, -⟩ := nonuniform_bounds harea
  have hni := hsize.ni_lt
  have hlength := hsrc.lons_length
  -- no image of the column but the first
  have hnowrap : ¬(p.nonuniform_is_global src_info = true ∧ i ≥ to_int src_info.ni) := by
    rw [to_int_of_lt (by omega)]
    intro hc
    omega
  rw [if_neg hnowrap, add_zero, Int.emod_eq_of_lt hi.1 hi.2] at hlo hhi
  have hlower := lower_bound_le (k := i.toNat + 1) (by omega) hhi.le
  have hupper := lt_upper_bound hsrc.lons_sorted (k := i.toNat) (by omega) hlo.le
  unfold cell_columns visited_columns
  dsimp only
  split
  · omega
  · omega

/-! ### The comparison -/

theorem nonuniform_ni_pos (h : p.nonuniform_is_global src_info = true) : 0 < src_info.ni := by
  by_contra hzero
  have hspan := of_decide_eq_true h
  rw [Nat.eq_zero_of_not_pos hzero, sub_self] at hspan
  split at hspan
  · norm_num at hspan
  · norm_num at hspan

variable (p) (sin) (hsrc) (hdst)

/-- The loop over all rows and a range of columns. -/
def nonuniform_row_overlaps (d : Fin dst_info.nj × Fin dst_info.ni) (is_lo is_hi : Int) :
    List (Overlap ℚ p.src.n_cells p.dst.n_cells) :=
  (int_range 0 ((src_info.nj : Int) - 1)).flatMap fun js =>
    (int_range is_lo is_hi).flatMap fun i => (p.nonuniform_found sin hsrc hdst d js i).toList

variable {p} {sin} {hsrc} {hdst}

theorem fits_of_visited_column (hsize : p.IntSizes src_info) {d_lo_x d_hi_x : ℚ}
    (hgrid : IsGrid src_info p.src.n_cells)
    (hi : (p.visited_columns src_info d_lo_x d_hi_x).1 ≤ i ∧
      i ≤ (p.visited_columns src_info d_lo_x d_hi_x).2) :
    0 < src_info.ni ∧ Fits 32 i ∧
      (p.nonuniform_is_global src_info = false → 0 ≤ i ∧ i < src_info.ni) := by
  have hni := hsize.ni_lt
  have hupper : src_info.unique_lons.findIdx (d_hi_x < ·) ≤ src_info.ni + 1 :=
    hgrid.lons_length ▸ List.findIdx_le_length
  unfold visited_columns at hi
  dsimp only at hi
  split at hi
  · next hcross =>
    have hwrap := hsize.wrap hcross.1
    refine ⟨nonuniform_ni_pos hcross.1, fits_32.mpr (by omega), fun hlocal => ?_⟩
    rw [hlocal] at hcross
    exact absurd hcross.1 (by decide)
  · rw [fits_32]
    omega

variable (p) (sin) (hsrc) (hdst) in
/-- What is found in the rows and columns that are visited. -/
def visited_overlaps (d : Fin dst_info.nj × Fin dst_info.ni) :
    List (Overlap ℚ p.src.n_cells p.dst.n_cells) :=
  let rows := visited_rows src_info (coord dst_info.unique_lats d.1)
    (coord dst_info.unique_lats (d.1 + 1))
  let columns := p.cell_columns src_info dst_info d.2
  ((int_range rows.1 rows.2).product (int_range columns.1 columns.2)).filterMap
    fun s => p.nonuniform_found sin hsrc hdst d s.1 s.2

/-- **One destination cell.** -/
theorem nonuniform_row_visited_eq (hsize : p.IntSizes src_info) :
    p.nonuniform_row sin src_info dst_info d = .returned
      (if p.nonuniform_dst_open sin hdst d then p.visited_overlaps sin hsrc hdst d else []) := by
  have helement : element p.dst.n_cells ((d.2 : Nat) + (d.1 : Nat) * dst_info.ni) =
      .returned (hdst.cell d) := by
    have hidx : (((d.2 : Nat) : Int) + ((d.1 : Nat) : Int) * dst_info.ni).toNat =
        d.1 * dst_info.ni + d.2 := by
      have hcast : ((d.2 : Nat) : Int) + ((d.1 : Nat) : Int) * dst_info.ni =
          ((d.1 * dst_info.ni + d.2 : Nat) : Int) := by
        push_cast
        ring
      rw [hcast, Int.toNat_natCast]
    unfold element
    have hcell := (hdst.cell d).isLt
    rw [dif_pos ⟨by positivity, hidx ▸ hcell⟩]
    congr 2
  unfold nonuniform_row
  dsimp only
  rw [helement, Outcome.returned_bind]
  split
  · next hmask =>
    rw [if_neg (by simp [nonuniform_dst_open, hmask])]
    rfl
  next hmask =>
  split
  · next harea =>
    rw [if_neg (by simp [nonuniform_dst_open, harea])]
    rfl
  next harea =>
  have hopen : p.nonuniform_dst_open sin hdst d = true := by
    simpa [nonuniform_dst_open] using ⟨Bool.eq_false_iff.mpr hmask, not_le.mp harea⟩
  rw [if_pos hopen, nonuniform_columns_eq hsize hsrc, Outcome.returned_bind,
    nonuniform_rows_eq hsize hsrc, Outcome.returned_bind,
    Outcome.mapM_of_returned (g := fun s => p.nonuniform_found sin hsrc hdst d s.1 s.2),
    Outcome.returned_bind, Outcome.pure_eq, reduceOption_map]
  · rfl
  · intro ⟨js, i⟩ hmem
    obtain ⟨hjs, hi⟩ := List.pair_mem_product.mp hmem
    rw [RectMeshes.mem_int_range] at hjs hi
    obtain ⟨hpos, hfits, hrange⟩ := fits_of_visited_column hsize hsrc hi
    have hjs' : 0 ≤ js ∧ js < src_info.nj := by
      unfold visited_rows at hjs
      dsimp only at hjs
      omega
    exact nonuniform_overlap_eq hsize hpos hfits hjs' hrange

theorem nonuniform_row_eq (hsize : p.IntSizes src_info) {is_lo is_hi : Int}
    (hvisited : ∀ js i, p.nonuniform_found sin hsrc hdst d js i ≠ none →
      (p.cell_columns src_info dst_info d.2).1 ≤ i ∧ i ≤ (p.cell_columns src_info dst_info d.2).2)
    (hcover : ∀ js i, p.nonuniform_found sin hsrc hdst d js i ≠ none → is_lo ≤ i ∧ i ≤ is_hi) :
    p.nonuniform_row sin src_info dst_info d =
      .returned (if p.nonuniform_dst_open sin hdst d then
        p.nonuniform_row_overlaps sin hsrc hdst d is_lo is_hi else []) := by
  have hwindow : p.visited_overlaps sin hsrc hdst d =
      p.nonuniform_row_overlaps sin hsrc hdst d is_lo is_hi := by
    apply window_eq
    · intro js i h
      exact ⟨nonuniform_row_visited h, hvisited js i h⟩
    · intro js i h
      have hrange := (nonuniform_found_ne_none h).1.1
      exact ⟨by omega, hcover js i h⟩
  rw [← hwindow]
  exact nonuniform_row_visited_eq hsize

theorem mem_nonuniform_pairs {o : Overlap ℚ p.src.n_cells p.dst.n_cells} :
    o ∈ p.nonuniform_pairs sin hsrc hdst ↔ ∃ d s, p.nonuniform_overlapping sin hsrc hdst d s = true ∧
      o = ⟨hdst.cell d, hsrc.cell s, p.nonuniform_overlap_area sin src_info dst_info d.2 d.1
        (s.1 : Nat) (s.2 : Nat) (s.2 : Nat)⟩ := by
  unfold nonuniform_pairs
  rw [List.mem_flatMap]
  constructor
  · intro ⟨d, _, hmem⟩
    obtain ⟨s, hs, heq⟩ := List.mem_map.mp hmem
    exact ⟨d, s, (List.mem_filter.mp hs).2, heq.symm⟩
  · intro ⟨d, s, hoverlap, heq⟩
    refine ⟨d, List.pair_mem_product.mpr ⟨List.mem_finRange _, List.mem_finRange _⟩, ?_⟩
    refine List.mem_map.mpr ⟨s, List.mem_filter.mpr ⟨?_, hoverlap⟩, heq.symm⟩
    exact List.pair_mem_product.mpr ⟨List.mem_finRange _, List.mem_finRange _⟩

theorem nodup_nonuniform_pairs :
    ((p.nonuniform_pairs sin hsrc hdst).map fun o => (o.row, o.col)).Nodup := by
  unfold nonuniform_pairs
  rw [List.map_flatMap]
  simp only [List.map_map]
  exact nodup_pairs ((List.nodup_finRange _).product (List.nodup_finRange _))
    ((List.nodup_finRange _).product (List.nodup_finRange _)) hdst.cell_injective
    hsrc.cell_injective (p.nonuniform_overlapping sin hsrc hdst)

theorem nonuniform_found_cell (hopen : p.nonuniform_dst_open sin hdst d = true)
    (s : Fin src_info.nj × Fin src_info.ni) :
    p.nonuniform_found sin hsrc hdst d (s.1 : Nat) (s.2 : Nat) =
      if p.nonuniform_overlapping sin hsrc hdst d s then
        some ⟨hdst.cell d, hsrc.cell s, p.nonuniform_overlap_area sin src_info dst_info d.2 d.1
          (s.1 : Nat) (s.2 : Nat) (s.2 : Nat)⟩
      else none := by
  have hcond : (0 ≤ ((s.1 : Nat) : Int) ∧ ((s.1 : Nat) : Int) < src_info.nj) ∧ 0 < src_info.ni ∧
      (p.nonuniform_is_global src_info = false →
        0 ≤ ((s.2 : Nat) : Int) ∧ ((s.2 : Nat) : Int) < src_info.ni) := by
    have hjs := s.1.isLt
    have hi := s.2.isLt
    omega
  have hmod : ((s.2 : Nat) : Int) % src_info.ni = (s.2 : Nat) :=
    Int.emod_eq_of_lt (Int.natCast_nonneg _) (Int.ofNat_lt.mpr s.2.isLt)
  have hcell : (⟨((s.1 : Nat) : Int).toNat * src_info.ni +
      (((s.2 : Nat) : Int) % src_info.ni).toNat,
      (cell_index_lt hcond.1 hcond.2.1).trans_eq hsrc.cells⟩ : Fin p.src.n_cells) = hsrc.cell s := by
    apply Fin.ext
    show ((s.1 : Nat) : Int).toNat * src_info.ni + (((s.2 : Nat) : Int) % src_info.ni).toNat =
      s.1 * src_info.ni + s.2
    rw [hmod, Int.toNat_natCast, Int.toNat_natCast]
  unfold nonuniform_found nonuniform_overlapping
  rw [dif_pos hcond, hopen]
  dsimp only
  rw [hcell, hmod]
  by_cases hmask : p.src.is_masked (hsrc.cell s) = false
  · simp [hmask, and_comm]
  · simp [hmask]

/-- **A source that is not global.** The search finds what the loop over all
    pairs finds. -/
theorem nonuniform_eq_pairs (hsize : p.IntSizes src_info)
    (hglobal : p.nonuniform_is_global src_info = false) (config : RegridConfig) :
    p.generate_conservative_rect_nonuniform sin config src_info dst_info =
      .returned (p.pack_overlaps config (p.nonuniform_src_area sin src_info)
        (p.nonuniform_dst_area sin dst_info)
        (fun o => o.area / p.nonuniform_dst_area sin dst_info o.row)
        (p.nonuniform_pairs sin hsrc hdst)) := by
  have hinside : ∀ d js i, p.nonuniform_found sin hsrc hdst d js i ≠ none →
      0 ≤ i ∧ i < src_info.ni :=
    fun d js i h => (nonuniform_found_ne_none h).1.2.2 hglobal
  have hrow : ∀ d, p.nonuniform_row sin src_info dst_info d =
      .returned (if p.nonuniform_dst_open sin hdst d then
        p.nonuniform_row_overlaps sin hsrc hdst d 0 ((src_info.ni : Int) - 1) else []) := by
    intro d
    apply nonuniform_row_eq hsize
    · intro js i h
      exact nonuniform_column_visited h (hinside d js i h) hsize
    · intro js i h
      have hi := hinside d js i h
      omega
  unfold generate_conservative_rect_nonuniform
  rw [Outcome.mapM_of_returned fun d _ => hrow d, Outcome.returned_bind, Outcome.pure_eq]
  congr 2
  unfold nonuniform_pairs
  rw [← List.flatMap_def]
  congr 1
  funext d
  by_cases hopen : p.nonuniform_dst_open sin hdst d = true
  · rw [if_pos hopen]
    unfold nonuniform_row_overlaps
    simp only [flatMap_int_range_all]
    rw [← flatMap_pairs]
    congr 1
    funext js
    congr 1
    funext i
    rw [← nonuniform_found_cell hopen (js, i)]
  · rw [if_neg hopen]
    symm
    rw [List.map_eq_nil_iff, List.filter_eq_nil_iff]
    intro s _ hs
    exact hopen (of_decide_eq_true hs).1

/-! ## Section 4: Both paths on one pair of grids -/

/-- The same uniform grid, as the two paths receive it. -/
structure Describes (mesh : RegularMesh ℚ) (m : Mesh) (info : RectilinearGridInfo) : Prop where
  ni : mesh.ni = info.ni
  nj : mesh.nj = info.nj
  lons : ∀ k ≤ info.ni, coord info.unique_lons k = mesh.lon_min + k * mesh.delta_lon
  lats : ∀ k ≤ info.nj, coord info.unique_lats k = mesh.lat_min + k * mesh.delta_lat
  mask : ∀ c c', c.val = c'.val → masked mesh.cell_mask (c : Fin mesh.n_cells) = m.is_masked c'
  areas : ∀ c c', c.val = c'.val →
    mesh.cell_areas.map (fun areas => areas (c : Fin (mesh.ni * mesh.nj))) =
      m.cell_areas.map fun areas => areas c'

variable (p) in
/-- The same pair of uniform grids. -/
structure SameGrids (q : RectMeshes ℚ) (src_info dst_info : RectilinearGridInfo) : Prop where
  src : Describes q.src p.src src_info
  dst : Describes q.dst p.dst dst_info
  csys : q.csys = p.src.csys

section Agreement

variable {q : RectMeshes ℚ}

theorem wrap_threshold_eq (hcsys : q.csys = p.src.csys) :
    q.wrap_threshold = if p.src.csys = .SphericalDeg then 350 else 6 := by
  unfold RectMeshes.wrap_threshold RectMeshes.is_degrees
  rw [hcsys]
  simp

theorem SameGrids.global_eq (h : SameGrids p q src_info dst_info) :
    p.nonuniform_is_global src_info = q.src_is_global := by
  unfold nonuniform_is_global RectMeshes.src_is_global
  dsimp only
  rw [wrap_threshold_eq h.csys, h.src.lons _ (le_refl _), h.src.lons 0 (Nat.zero_le _), h.src.ni]
  congr 2
  push_cast
  ring

theorem Describes.cell_area_eq {mesh : RegularMesh ℚ} {m : Mesh} {info : RectilinearGridInfo}
    (h : Describes mesh m info) {c : Fin mesh.n_cells} {c' : Fin m.n_cells} (hc : c.val = c'.val)
    {csys : CoordinateSystem} :
    cell_area sin csys mesh c = match m.cell_areas with
      | some areas => areas c'
      | none => nonuniform_area sin csys info.unique_lons info.unique_lats
          (c'.val % info.ni) (c'.val / info.ni) := by
  have hareas := h.areas c c' hc
  unfold cell_area
  cases hm : m.cell_areas with
  | some areas =>
    rw [hm] at hareas
    obtain ⟨mesh_areas, hmesh, heq⟩ := Option.map_eq_some_iff.mp hareas
    rw [hmesh]
    exact heq
  | none =>
    rw [hm, Option.map_none, Option.map_eq_none_iff] at hareas
    rw [hareas]
    -- the bounds of the cell
    have hlt : c.val < info.ni * info.nj :=
      c.isLt.trans_eq (by rw [RegularMesh.n_cells, h.ni, h.nj])
    have hpos : 0 < info.ni := Nat.pos_of_mul_pos_right (Nat.zero_lt_of_lt hlt)
    have hcol : c.val % info.ni < info.ni := Nat.mod_lt _ hpos
    have hrow : c.val / info.ni < info.nj := by
      rw [Nat.div_lt_iff_lt_mul hpos, Nat.mul_comm]
      exact hlt
    unfold row_area nonuniform_area
    dsimp only
    rw [← hc, h.lons _ (by omega), h.lons _ hcol.le, h.lats _ (by omega), h.lats _ hrow.le, h.ni]
    have hlon : mesh.lon_min + ((c.val % info.ni + 1 : ℕ) : ℚ) * mesh.delta_lon -
        (mesh.lon_min + ((c.val % info.ni : ℕ) : ℚ) * mesh.delta_lon) = mesh.delta_lon := by
      push_cast
      ring
    have hlat : mesh.lat_min + ((c.val / info.ni + 1 : ℕ) : ℚ) * mesh.delta_lat =
        mesh.lat_min + ((c.val / info.ni : ℕ) : ℚ) * mesh.delta_lat + mesh.delta_lat := by
      push_cast
      ring
    have hlat' : mesh.lat_min + ((c.val / info.ni : ℕ) : ℚ) * mesh.delta_lat + mesh.delta_lat -
        (mesh.lat_min + ((c.val / info.ni : ℕ) : ℚ) * mesh.delta_lat) = mesh.delta_lat := by
      ring
    cases csys with
    | SphericalDeg => simp only [hlon, hlat]
    | SphericalRad => simp only [hlon, hlat]
    | Cartesian3D => simp only [hlon, hlat, hlat']

theorem SameGrids.area_eq (h : SameGrids p q src_info dst_info) (hglobal : q.src_is_global = false)
    {d : Fin q.dst.nj × Fin q.dst.ni} {s : Fin q.src.nj × Fin q.src.ni} :
    q.overlap_area sin d (s.1 : Nat) (s.2 : Nat) =
      p.nonuniform_overlap_area sin src_info dst_info d.2 d.1 (s.1 : Nat) (s.2 : Nat) (s.2 : Nat) := by
  have hglobal' : p.nonuniform_is_global src_info = false := h.global_eq.trans hglobal
  have hsi := s.2.isLt.trans_eq h.src.ni
  have hsj := s.1.isLt.trans_eq h.src.nj
  have hdi := d.2.isLt.trans_eq h.dst.ni
  have hdj := d.1.isLt.trans_eq h.dst.nj
  have hdeg : q.is_degrees = decide (p.src.csys = .SphericalDeg) := by
    rw [RectMeshes.is_degrees, h.csys]
  have hspherical : q.is_spherical = p.src.is_spherical := by
    rw [RectMeshes.is_spherical, Mesh.is_spherical, h.csys]
  have hshift : q.shift d = 0 := by
    rw [RectMeshes.shift, hglobal, if_neg (by decide)]
  have hshift' : p.nonuniform_shift src_info dst_info d.2 = 0 := by
    rw [nonuniform_shift, hglobal', if_neg (by decide)]
  have hnext : ∀ (lo delta : ℚ) (k : Nat), lo + ((k + 1 : Nat) : ℚ) * delta = lo + k * delta + delta := by
    intro lo delta k
    push_cast
    ring
  unfold RectMeshes.overlap_area nonuniform_overlap_area RectMeshes.s_hi_x RectMeshes.s_lo_x
    RectMeshes.s_hi_y RectMeshes.s_lo_y RectMeshes.d_lo_x_norm RectMeshes.d_hi_x_norm
    RectMeshes.d_hi_x RectMeshes.d_hi_y RectMeshes.d_lo_x RectMeshes.d_lo_y
  dsimp only
  rw [hshift, hshift', hglobal', hdeg, hspherical, Int.toNat_natCast, Int.toNat_natCast,
    h.src.lons _ hsi.le, h.src.lons _ hsi, h.src.lats _ hsj.le, h.src.lats _ hsj,
    h.dst.lons _ hdi.le, h.dst.lons _ hdi, h.dst.lats _ hdj.le, h.dst.lats _ hdj, hnext, hnext,
    hnext, hnext]
  simp

/-- What an overlap says. -/
def key {n_src n_dst : Nat} (o : Overlap ℚ n_src n_dst) : Nat × Nat × ℚ :=
  (o.row.val, o.col.val, o.area)

theorem product_cast {ni nj ni' nj' : Nat} (hi : ni = ni') (hj : nj = nj') :
    (List.finRange nj').product (List.finRange ni') =
      ((List.finRange nj).product (List.finRange ni)).map
        fun s => (s.1.cast hj, s.2.cast hi) := by
  subst hi hj
  exact (List.map_id _).symm

theorem SameGrids.overlapping_eq (h : SameGrids p q src_info dst_info)
    (hglobal : q.src_is_global = false) (d : Fin q.dst.nj × Fin q.dst.ni)
    (s : Fin q.src.nj × Fin q.src.ni) :
    p.nonuniform_overlapping sin hsrc hdst (d.1.cast h.dst.nj, d.2.cast h.dst.ni)
        (s.1.cast h.src.nj, s.2.cast h.src.ni) =
      (decide (1 / 10 ^ 12 < q.overlap_area sin d (s.1 : Nat) (s.2 : Nat)) &&
        q.overlapping sin d s) := by
  have hdst_cell : (q.dst_cell_idx d).val =
      (hdst.cell (d.1.cast h.dst.nj, d.2.cast h.dst.ni)).val :=
    congrArg (fun n => d.1.val * n + d.2.val) h.dst.ni
  have hsrc_cell : (q.src_cell s).val =
      (hsrc.cell (s.1.cast h.src.nj, s.2.cast h.src.ni)).val :=
    congrArg (fun n => s.1.val * n + s.2.val) h.src.ni
  have harea := @SameGrids.area_eq _ sin _ _ _ h hglobal d s
  have hdst_area : cell_area sin q.csys q.dst (q.dst_cell_idx d) =
      p.nonuniform_dst_area sin dst_info (hdst.cell (d.1.cast h.dst.nj, d.2.cast h.dst.ni)) := by
    rw [h.csys, h.dst.cell_area_eq hdst_cell]
    unfold nonuniform_dst_area
    cases p.dst.cell_areas with
    | none => rfl
    | some _ => rfl
  have hsrc_area : cell_area sin q.csys q.src (q.src_cell s) =
      p.nonuniform_src_area sin src_info (hsrc.cell (s.1.cast h.src.nj, s.2.cast h.src.ni)) := by
    rw [h.csys, h.src.cell_area_eq hsrc_cell]
    unfold nonuniform_src_area
    cases p.src.cell_areas with
    | none => rfl
    | some _ => rfl
  unfold nonuniform_overlapping nonuniform_dst_open RectMeshes.overlapping RectMeshes.dst_open
  rw [hdst_area, hsrc_area, h.dst.mask _ _ hdst_cell, h.src.mask _ _ hsrc_cell, harea,
    Bool.eq_iff_iff, Bool.and_eq_true]
  simp only [decide_eq_true_eq]
  constructor
  · intro ⟨hopen, hmask, hpos, hlarge⟩
    exact ⟨hlarge, hopen, hmask, hpos, lt_trans (by norm_num) hlarge⟩
  · intro ⟨hlarge, hopen, hmask, hpos, _⟩
    exact ⟨hopen, hmask, hpos, hlarge⟩

/-- **Agreement.** The overlaps of the path for any coordinates are those of the
    uniform path that are not tiny. -/
theorem SameGrids.pairs_agree (h : SameGrids p q src_info dst_info)
    (hglobal : q.src_is_global = false) :
    (p.nonuniform_pairs sin hsrc hdst).map key =
      ((q.all_pairs sin).filter fun o => 1 / 10 ^ 12 < o.area).map key := by
  unfold nonuniform_pairs RectMeshes.all_pairs
  rw [product_cast h.dst.ni h.dst.nj, product_cast h.src.ni h.src.nj, List.flatMap_map,
    List.filter_flatMap, List.map_flatMap, List.map_flatMap]
  congr 1
  funext d
  rw [List.filter_map, List.filter_map, List.map_map, List.map_map, List.map_map, List.filter_filter]
  have hfilter : ∀ s, (p.nonuniform_overlapping sin hsrc hdst (d.1.cast h.dst.nj, d.2.cast h.dst.ni) ∘
      fun s : Fin q.src.nj × Fin q.src.ni => (s.1.cast h.src.nj, s.2.cast h.src.ni)) s = _ :=
    fun s => h.overlapping_eq hglobal d s
  rw [List.filter_congr fun s _ => hfilter s]
  apply List.map_congr_left
  intro s _
  have hdst_cell : (q.dst_cell_idx d).val =
      (hdst.cell (d.1.cast h.dst.nj, d.2.cast h.dst.ni)).val :=
    congrArg (fun n => d.1.val * n + d.2.val) h.dst.ni
  have hsrc_cell : (q.src_cell s).val =
      (hsrc.cell (s.1.cast h.src.nj, s.2.cast h.src.ni)).val :=
    congrArg (fun n => s.1.val * n + s.2.val) h.src.ni
  exact Prod.ext hdst_cell.symm (Prod.ext hsrc_cell.symm (h.area_eq hglobal).symm)

end Agreement

end WeightGenerator.Meshes

/-! ## Section 5: The weights -/

section Shares

variable {n_src n_dst : Nat}

/-- The weight of an overlap among those found: its share of the destination
    cell, or of what is found to cover that cell. -/
def share (norm_type : NormType) (dst_areas : Fin n_dst → ℚ) (found : List (Overlap ℚ n_src n_dst))
    (o : Overlap ℚ n_src n_dst) : ℚ :=
  match norm_type with
  | .DstArea => o.area / dst_areas o.row
  | .FracArea => o.area / ((found.filter fun o' => o'.row = o.row).map (·.area)).sum

variable {dst_areas : Fin n_dst → ℚ} {found : List (Overlap ℚ n_src n_dst)}

theorem fraction_eq (j : Fin n_dst) :
    accumulate found (fun _ => true) (·.row) (fun o => o.area / dst_areas o.row) (fun _ => 0) j =
      ((found.filter fun o => o.row = j).map (·.area)).sum / dst_areas j := by
  rw [accumulate_apply, zero_add]
  induction found with
  | nil => simp
  | cons o found ih =>
    rw [List.map_cons, List.sum_cons, ih, List.filter_cons]
    by_cases hrow : o.row = j
    · simp [hrow, add_div]
    · simp [hrow]

theorem covered_pos (hpos : ∀ o ∈ found, 0 < o.area) {o : Overlap ℚ n_src n_dst} (ho : o ∈ found) :
    0 < ((found.filter fun o' => o'.row = o.row).map (·.area)).sum := by
  apply List.sum_pos
  · intro x hx
    obtain ⟨o', ho', heq⟩ := List.mem_map.mp hx
    subst heq
    exact hpos o' (List.mem_of_mem_filter ho')
  · apply List.ne_nil_of_mem
    apply List.mem_map.mpr
    exact ⟨o, List.mem_filter.mpr ⟨ho, by simp⟩, rfl⟩

theorem normalized_eq (norm_type : NormType) (hpos : ∀ o ∈ found, 0 < o.area)
    {o : Overlap ℚ n_src n_dst} (ho : o ∈ found) (hdst : 0 < dst_areas o.row) :
    let fraction := accumulate found (fun _ => true) (·.row) (fun o => o.area / dst_areas o.row)
      (fun _ => 0) o.row
    (if norm_type = .FracArea ∧ 0 < fraction then o.area / dst_areas o.row / fraction
      else o.area / dst_areas o.row) = share norm_type dst_areas found o := by
  intro fraction
  have hcovered := covered_pos hpos ho
  have hfraction : fraction =
      ((found.filter fun o' => o'.row = o.row).map (·.area)).sum / dst_areas o.row :=
    fraction_eq o.row
  unfold share
  cases norm_type with
  | DstArea => exact if_neg fun h => NormType.noConfusion h.1
  | FracArea =>
    rw [if_pos ⟨rfl, hfraction ▸ div_pos hcovered hdst⟩, hfraction,
      div_div_div_cancel_right₀ hdst.ne']

end Shares

namespace RectMeshes

variable {p : RectMeshes ℚ} {sin : ℚ → ℚ}

/-- **The weights of the uniform path.** -/
theorem pack_entries (norm_type : NormType) {found : List (Overlap ℚ p.src.n_cells p.dst.n_cells)}
    (hopen : ∀ o ∈ found, 0 < o.area ∧ 0 < cell_area sin p.csys p.dst o.row) :
    (p.pack sin found norm_type).entries = found.map fun o =>
      ⟨o.row, o.col, share norm_type (cell_area sin p.csys p.dst) found o⟩ := by
  apply List.map_congr_left
  intro o ho
  obtain ⟨harea, hdst⟩ := hopen o ho
  have hw : max (o.area / cell_area sin p.csys p.dst o.row) 0 =
      o.area / cell_area sin p.csys p.dst o.row :=
    max_eq_left (div_pos harea hdst).le
  have hshare := normalized_eq norm_type (fun o ho => (hopen o ho).1) ho hdst
  unfold weight
  rw [hw]
  exact congrArg (Entry.mk o.row o.col) hshare

theorem all_pairs_open : ∀ o ∈ p.all_pairs sin,
    0 < o.area ∧ 0 < cell_area sin p.csys p.dst o.row := by
  intro o ho
  obtain ⟨d, s, hoverlap, heq⟩ := mem_all_pairs.mp ho
  subst heq
  have hboth := of_decide_eq_true hoverlap
  exact ⟨hboth.2.2.2, (of_decide_eq_true hboth.1).2⟩

end RectMeshes

namespace WeightGenerator.Meshes

variable {p : Meshes} {sin : ℚ → ℚ} {src_info dst_info : RectilinearGridInfo}
  {hsrc : IsGrid src_info p.src.n_cells} {hdst : IsGrid dst_info p.dst.n_cells}

/-- **The weights of the path for any coordinates.** -/
theorem pack_overlaps_entries (config : RegridConfig)
    {found : List (Overlap ℚ p.src.n_cells p.dst.n_cells)}
    (hopen : ∀ o ∈ found, 0 < o.area ∧ 0 < p.nonuniform_dst_area sin dst_info o.row) :
    (p.pack_overlaps config (p.nonuniform_src_area sin src_info)
        (p.nonuniform_dst_area sin dst_info) (fun o => o.area / p.nonuniform_dst_area sin dst_info o.row)
        found).entries =
      found.map fun o =>
        ⟨o.row, o.col, share config.norm_type (p.nonuniform_dst_area sin dst_info) found o⟩ := by
  apply List.map_congr_left
  intro o ho
  have hshare := normalized_eq config.norm_type (fun o ho => (hopen o ho).1) ho (hopen o ho).2
  exact congrArg (Entry.mk o.row o.col) hshare

theorem nonuniform_pairs_open : ∀ o ∈ p.nonuniform_pairs sin hsrc hdst,
    0 < o.area ∧ 0 < p.nonuniform_dst_area sin dst_info o.row := by
  intro o ho
  obtain ⟨d, s, hoverlap, heq⟩ := mem_nonuniform_pairs.mp ho
  subst heq
  have hboth := of_decide_eq_true hoverlap
  exact ⟨lt_trans (by norm_num) hboth.2.2.2, (of_decide_eq_true hboth.1).2⟩

/-- **Agreement of the weights**, where each is the share of a destination
    cell. -/
theorem SameGrids.entries_agree {q : RectMeshes ℚ} (h : p.SameGrids q src_info dst_info)
    (hglobal : q.src_is_global = false) :
    ((p.nonuniform_pairs sin hsrc hdst).map fun o =>
        (o.row.val, o.col.val, o.area / p.nonuniform_dst_area sin dst_info o.row)) =
      ((q.all_pairs sin).filter fun o => 1 / 10 ^ 12 < o.area).map fun o =>
        (o.row.val, o.col.val, o.area / cell_area sin q.csys q.dst o.row) := by
  -- the weight in terms of what an overlap says
  let dst_area : Nat → ℚ := fun j =>
    if hj : j < p.dst.n_cells then p.nonuniform_dst_area sin dst_info ⟨j, hj⟩ else 0
  let weigh : Nat × Nat × ℚ → Nat × Nat × ℚ := fun k => (k.1, k.2.1, k.2.2 / dst_area k.1)
  have hcells : q.dst.n_cells = p.dst.n_cells := by
    rw [← hdst.cells, RegularMesh.n_cells, h.dst.ni, h.dst.nj]
  have hleft : ∀ o : Overlap ℚ p.src.n_cells p.dst.n_cells,
      (o.row.val, o.col.val, o.area / p.nonuniform_dst_area sin dst_info o.row) = weigh (key o) := by
    intro o
    show _ = (o.row.val, o.col.val, o.area / dst_area o.row.val)
    rw [show dst_area o.row.val = _ from dif_pos o.row.isLt]
  have hright : ∀ o : Overlap ℚ q.src.n_cells q.dst.n_cells,
      (o.row.val, o.col.val, o.area / cell_area sin q.csys q.dst o.row) = weigh (key o) := by
    intro o
    have hj : o.row.val < p.dst.n_cells := o.row.isLt.trans_eq hcells
    have harea : cell_area sin q.csys q.dst o.row = dst_area o.row.val := by
      rw [show dst_area o.row.val = _ from dif_pos hj, h.csys,
        h.dst.cell_area_eq (show o.row.val = (⟨o.row.val, hj⟩ : Fin p.dst.n_cells).val from rfl)]
      unfold nonuniform_dst_area
      cases p.dst.cell_areas with
      | none => rfl
      | some _ => rfl
    rw [harea]
    rfl
  simp only [hleft, hright]
  have hagree := congrArg (List.map weigh) (@pairs_agree p sin _ _ hsrc hdst q h hglobal)
  rw [List.map_map, List.map_map] at hagree
  exact hagree

/-- **Every overlapping pair, once.** For a source that is not global, each path
    returns the matrix of the loop over all pairs of cells; every pair is found
    once, with its share as the weight. Two paths over one pair of uniform
    grids find the same, up to the overlaps that are tiny. -/
theorem rect_paths_find_all_overlaps {p : Meshes} {q : RectMeshes ℚ} {sin : ℚ → ℚ}
    {src_info dst_info : RectilinearGridInfo} (hsrc : IsGrid src_info p.src.n_cells)
    (hdst : IsGrid dst_info p.dst.n_cells) (config : RegridConfig) :
    -- the uniform path
    (q.src_is_global = false → q.falls_back = false → q.IntIndices sin →
      q.generate_conservative_rect sin config.norm_type =
          .returned (q.pack sin (q.all_pairs sin) config.norm_type) ∧
        ((q.pack sin (q.all_pairs sin) config.norm_type).entries = (q.all_pairs sin).map fun o =>
          ⟨o.row, o.col, share config.norm_type (cell_area sin q.csys q.dst) (q.all_pairs sin) o⟩) ∧
        ((q.all_pairs sin).map fun o => (o.row, o.col)).Nodup ∧
        ∀ o, o ∈ q.all_pairs sin ↔ ∃ d s,
          (masked q.dst.cell_mask (q.dst_cell_idx d) = false ∧
            0 < cell_area sin q.csys q.dst (q.dst_cell_idx d)) ∧
          masked q.src.cell_mask (q.src_cell s) = false ∧
          0 < cell_area sin q.csys q.src (q.src_cell s) ∧
          0 < q.overlap_area sin d (s.1 : Nat) (s.2 : Nat) ∧
          o = ⟨q.dst_cell_idx d, q.src_cell s, q.overlap_area sin d (s.1 : Nat) (s.2 : Nat)⟩) ∧
    -- the path for any coordinates
    (p.nonuniform_is_global src_info = false → p.IntSizes src_info →
      (∃ M, p.generate_conservative_rect_nonuniform sin config src_info dst_info = .returned M ∧
        M.entries = (p.nonuniform_pairs sin hsrc hdst).map fun o =>
          ⟨o.row, o.col, share config.norm_type (p.nonuniform_dst_area sin dst_info)
            (p.nonuniform_pairs sin hsrc hdst) o⟩) ∧
        ((p.nonuniform_pairs sin hsrc hdst).map fun o => (o.row, o.col)).Nodup ∧
        ∀ o, o ∈ p.nonuniform_pairs sin hsrc hdst ↔ ∃ d s,
          (p.dst.is_masked (hdst.cell d) = false ∧
            0 < p.nonuniform_dst_area sin dst_info (hdst.cell d)) ∧
          p.src.is_masked (hsrc.cell s) = false ∧
          0 < p.nonuniform_src_area sin src_info (hsrc.cell s) ∧
          1 / 10 ^ 12 < p.nonuniform_overlap_area sin src_info dst_info d.2 d.1 (s.1 : Nat)
            (s.2 : Nat) (s.2 : Nat) ∧
          o = ⟨hdst.cell d, hsrc.cell s, p.nonuniform_overlap_area sin src_info dst_info d.2 d.1
            (s.1 : Nat) (s.2 : Nat) (s.2 : Nat)⟩) ∧
    -- both
    (p.SameGrids q src_info dst_info → q.src_is_global = false →
      p.nonuniform_is_global src_info = false ∧
        (p.nonuniform_pairs sin hsrc hdst).map key =
          ((q.all_pairs sin).filter fun o => 1 / 10 ^ 12 < o.area).map key ∧
        ((p.nonuniform_pairs sin hsrc hdst).map fun o =>
            (o.row.val, o.col.val, o.area / p.nonuniform_dst_area sin dst_info o.row)) =
          ((q.all_pairs sin).filter fun o => 1 / 10 ^ 12 < o.area).map fun o =>
            (o.row.val, o.col.val, o.area / cell_area sin q.csys q.dst o.row)) := by
  refine ⟨?_, ?_, ?_⟩
  · intro hglobal hdeclined hint
    refine ⟨?_, RectMeshes.pack_entries config.norm_type RectMeshes.all_pairs_open, RectMeshes.nodup_all_pairs, ?_⟩
    · unfold RectMeshes.generate_conservative_rect
      rw [if_neg (by simp [hdeclined]), RectMeshes.overlaps_eq_all_pairs hint hglobal]
      rfl
    · intro o
      rw [RectMeshes.mem_all_pairs]
      simp only [RectMeshes.overlapping, RectMeshes.dst_open, decide_eq_true_eq, and_assoc]
  · intro hglobal hsize
    refine ⟨⟨_, nonuniform_eq_pairs hsize hglobal config, pack_overlaps_entries config nonuniform_pairs_open⟩,
      nodup_nonuniform_pairs, ?_⟩
    intro o
    rw [mem_nonuniform_pairs]
    simp only [nonuniform_overlapping, nonuniform_dst_open, decide_eq_true_eq, and_assoc]
  · intro hsame hglobal
    exact ⟨hsame.global_eq.trans hglobal, hsame.pairs_agree hglobal, hsame.entries_agree hglobal⟩

end WeightGenerator.Meshes

/-! ## Section 6: A square and a tall cell -/

/-- A cell between the longitudes 0 and 1, from `lat_min` on. -/
def one_cell (lat_min height : ℚ) (hheight : 0 < height) (cell_areas : Option (Fin 1 → ℚ)) :
    RegularMesh ℚ where
  ni := 1
  nj := 1
  lon_min := 0
  lon_max := 1
  lat_min := lat_min
  delta_lon := 1
  delta_lat := height
  delta_lon_pos := unit_width
  delta_lat_pos := hheight
  cell_areas := cell_areas
  cell_mask := ⟨0, Fin.elim0⟩

theorem tall_height : (0 : ℚ) < 2 := two_pos

/-- A square, and the same square with as much again on top of it. -/
def square_and_tall (cell_areas : Option (Fin 1 → ℚ)) : RectMeshes ℚ :=
  ⟨one_cell 0 1 unit_width cell_areas, one_cell 0 2 tall_height none, .Cartesian3D⟩

theorem square_and_tall_indices : (square_and_tall none).IntIndices id where
  ni_lt := by decide
  nj_lt := by decide
  wrap := by decide +kernel
  lon := by decide +kernel
  next := by decide +kernel
  lat := by decide +kernel

namespace WeightGenerator

/-- The same two cells, with their nodes. -/
def tall_mesh (height : ℚ) : Mesh where
  n_nodes := 4
  n_cells := 1
  coords := fun ni => ⟨(ni.val % 2 : Nat), (ni.val / 2 : Nat) * height, 0⟩
  csys := .Cartesian3D
  cells := fun _ => [0, 1, 3, 2]
  cell_areas := none
  cell_mask := none

section
local instance sole_cell : NeZero 1 := ⟨Nat.one_ne_zero⟩

def square_and_tall_meshes : Meshes where
  src := tall_mesh 1
  dst := tall_mesh 2
  geometry :=
    { src_centroid := fun _ => (1 / 2, 1 / 2)
      dst_centroid := fun _ => (1 / 2, 1)
      src_areas := fun _ _ => 1
      dst_areas := fun _ _ => 2
      src_degenerate := fun _ => false
      dst_degenerate := fun _ => false
      sorted_dst := Schedule.serial 1
      nearest := fun _ k _ => [(0 : Fin 1)].take k
      intersects := fun _ _ => [(0 : Fin 1)]
      overlap_area := fun _ _ _ => 1
      spherical_cap_rejects := fun _ _ => false
      clip := fun _ _ => ⟨[], 0⟩
      compute_polygon_overlap_area := fun _ _ => 1 }

end

theorem tall_mesh_describes (height : ℚ) (hheight : 0 < height) :
    Meshes.Describes (one_cell 0 height hheight none) (tall_mesh height)
      ⟨true, 1, 1, [0, 1], [0, height]⟩ where
  ni := rfl
  nj := rfl
  lons := by
    intro k hk
    interval_cases k
    · simp [Meshes.coord, one_cell]
    · simp [Meshes.coord, one_cell]
  lats := by
    intro k hk
    interval_cases k
    · simp [Meshes.coord, one_cell]
    · simp [Meshes.coord, one_cell]
  mask := by
    intro c c' _
    rfl
  areas := by
    intro c c' _
    rfl

theorem tall_mesh_grid (height : ℚ) (hheight : 0 < height) :
    IsGrid ⟨true, 1, 1, [0, 1], [0, height]⟩ (tall_mesh height).n_cells where
  lons_length := rfl
  lats_length := rfl
  lons_sorted := by simp
  lats_sorted := by simpa using hheight
  cells := rfl

def rect_config (norm_type : NormType) : RegridConfig where
  norm_type := norm_type
  line_type := .Cartesian
  unmapped := .Ignore
  use_limiter := false
  method := .Conservative1stOrder
  extrap_method := .None

theorem rect_paths_find_all_overlaps_square :
    (∃ M, (square_and_tall none).generate_conservative_rect id .DstArea = .returned M ∧
      (M.entries.map fun e => (e.row.val, e.col.val, e.weight)) = [(0, 0, 1 / 2)]) ∧
    (∃ M, square_and_tall_meshes.generate_conservative_rect_nonuniform id (rect_config .DstArea)
        ⟨true, 1, 1, [0, 1], [0, 1]⟩ ⟨true, 1, 1, [0, 1], [0, 2]⟩ = .returned M ∧
      (M.entries.map fun e => (e.row.val, e.col.val, e.weight)) = [(0, 0, 1 / 2)]) := by
  have hsame : square_and_tall_meshes.SameGrids (square_and_tall none)
      ⟨true, 1, 1, [0, 1], [0, 1]⟩ ⟨true, 1, 1, [0, 1], [0, 2]⟩ :=
    ⟨tall_mesh_describes 1 zero_lt_one, tall_mesh_describes 2 two_pos, rfl⟩
  have hlocal : (square_and_tall none).src_is_global = false := by decide +kernel
  obtain ⟨huniform, hnonuniform, hboth⟩ := @Meshes.rect_paths_find_all_overlaps
    square_and_tall_meshes (square_and_tall none) id _ _ (tall_mesh_grid 1 zero_lt_one)
    (tall_mesh_grid 2 two_pos) (rect_config .DstArea)
  obtain ⟨hlocal', -, hagree⟩ := hboth hsame hlocal
  constructor
  · obtain ⟨hreturned, hentries, -, -⟩ := huniform hlocal (by decide +kernel) square_and_tall_indices
    refine ⟨_, hreturned, ?_⟩
    decide +kernel
  · obtain ⟨⟨M, hreturned, hentries⟩, -, -⟩ := hnonuniform hlocal'
      ⟨by decide, by decide, by decide +kernel⟩
    refine ⟨M, hreturned, ?_⟩
    rw [hentries, List.map_map]
    apply hagree.trans
    decide +kernel

/-- The entries of the matrix that is returned. -/
def entry_keys (result : Outcome String (ConservativeMatrix ℚ)) :
    Outcome String (List (Nat × Nat × ℚ)) := do
  let M ← result
  return M.entries.map fun e => (e.row.val, e.col.val, e.weight)

theorem rect_weight_not_share :
    (entry_keys ((square_and_tall none).generate_conservative_rect id .FracArea) =
        .returned [(0, 0, 1)] ∧
      (∀ d, (square_and_tall none).overlap_area id d 0 0 = 1) ∧
      ∀ c, cell_area id .Cartesian3D (square_and_tall none).dst c = 2) ∧
    (entry_keys ((square_and_tall (some fun _ => 0)).generate_conservative_rect id .DstArea) =
        .returned [] ∧
      ∀ d, (square_and_tall (some fun _ => 0)).overlap_area id d 0 0 = 1) ∧
    entry_keys (RectMeshes.generate_conservative_rect ⟨one_cell 0 1 zero_lt_one none,
      one_cell (2 ^ 31) 1 zero_lt_one none, .Cartesian3D⟩ id .DstArea) = .undefined := by
  refine ⟨⟨?_, ?_, ?_⟩, ⟨?_, ?_⟩, ?_⟩
  · decide +kernel
  · decide +kernel
  · decide +kernel
  · decide +kernel
  · decide +kernel
  · decide +kernel

end WeightGenerator

end Axis

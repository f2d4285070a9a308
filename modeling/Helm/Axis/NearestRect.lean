import Helm.Axis.WeightGenerator

/-! # AXIS: nearest neighbours on two regular grids

  The fast path rounds the position of the west and of the south edge of a
  destination cell among the edges of the source cells. The generic path
  looks for the source cell whose center is nearest to that of the destination
  cell. Columns are taken modulo the number of source columns, whatever the
  coordinates are; rows are clamped.

  Main result: `nearest_rect_iff`, for which Cartesian grids the two agree.
-/

namespace Axis.WeightGenerator.Meshes

open Signed

/-! ## Section 1: Rounding -/

/-- A position rounds to an integer below the border `b`. Halves are rounded
    away from zero. -/
def Before (e b : ℚ) : Prop := e < b ∨ (e = b ∧ b < 0)

theorem std_round_lt_iff (e : ℚ) (m : Int) : std_round e < m ↔ Before e (m - 1 / 2) := by
  unfold std_round Before
  by_cases hneg : e < 0
  · rw [if_pos hneg, neg_lt, ← Int.add_one_le_iff, Int.le_floor, le_iff_lt_or_eq]
    push_cast
    constructor
    · rintro (hlt | heq)
      · exact .inl (by linarith)
      · have hborder : e = m - 1 / 2 := by linarith
        exact .inr ⟨hborder, hborder ▸ hneg⟩
    · rintro (hlt | ⟨heq, -⟩)
      · exact .inl (by linarith)
      · exact .inr (by linarith)
  · rw [if_neg hneg, Int.floor_lt]
    constructor
    · intro hlt
      exact .inl (by linarith)
    · rintro (hlt | ⟨heq, hborder⟩)
      · linarith
      · exact absurd (heq ▸ hborder) hneg

/-- The position rounds to one of the integers from `lo` up to `hi`. -/
def RoundsInto (lo hi : Int) (e : ℚ) : Prop := ¬ Before e (lo - 1 / 2) ∧ Before e (hi - 1 / 2)

theorem rounds_into_iff {lo hi : Int} {e : ℚ} :
    RoundsInto lo hi e ↔ lo ≤ std_round e ∧ std_round e < hi := by
  unfold RoundsInto
  rw [← std_round_lt_iff, ← std_round_lt_iff, not_lt]

theorem wrapped_index (r : Int) {n : Int} (hn : 0 < n) :
    (if r.tmod n < 0 then r.tmod n + n else r.tmod n) = r % n := by
  have hlt := Int.emod_lt_of_pos r hn
  have hnonneg := Int.emod_nonneg r hn.ne'
  rw [Int.tmod_eq_emod]
  split
  · rw [if_neg (by omega)]
    omega
  · rw [if_pos (by omega)]
    omega

/-! ## Section 2: One direction -/

/-- The index is nearest to a position among those of `n` centers. -/
def NearestIndex (n : Nat) (c : ℚ) (k : Nat) : Prop := ∀ k' < n, (c - k) ^ 2 ≤ (c - k') ^ 2

/-- **No border separates** the edge from the center: where the edge rounds to
    less than `m`, counted from `shift` on, the center is not behind the border
    between the source centers `m - 1` and `m`, and else not before it. -/
def Together (n : Nat) (shift : Int) (e c : ℚ) : Prop :=
  ∀ m < n, 1 ≤ m →
    (Before e (shift + m - 1 / 2) → c ≤ m - 1 / 2) ∧
    (¬ Before e (shift + m - 1 / 2) → m - 1 / 2 ≤ c)

section
variable {n k k' : Nat} {c e : ℚ}

theorem sq_le_iff (h : k < k') : (c - k) ^ 2 ≤ (c - k') ^ 2 ↔ 2 * c ≤ k + k' := by
  have hpos : (0 : ℚ) < k' - k := by
    rw [sub_pos]
    exact_mod_cast h
  have hdiff : (c - k') ^ 2 - (c - k) ^ 2 = (k' - k) * (k + k' - 2 * c) := by ring
  rw [← sub_nonneg, hdiff, mul_nonneg_iff_of_pos_left hpos, sub_nonneg]

theorem sq_le_iff' (h : k' < k) : (c - k) ^ 2 ≤ (c - k') ^ 2 ↔ (k : ℚ) + k' ≤ 2 * c := by
  have hpos : (0 : ℚ) < k - k' := by
    rw [sub_pos]
    exact_mod_cast h
  have hdiff : (c - k') ^ 2 - (c - k) ^ 2 = (k - k') * (2 * c - (k + k')) := by ring
  rw [← sub_nonneg, hdiff, mul_nonneg_iff_of_pos_left hpos, sub_nonneg]

theorem nearest_index_iff (hk : k < n) :
    NearestIndex n c k ↔
      ∀ m < n, 1 ≤ m → (k < m → c ≤ m - 1 / 2) ∧ (m ≤ k → m - 1 / 2 ≤ c) := by
  constructor
  · intro hnearest m hm hpos
    constructor
    · intro hlt
      have hnext := (sq_le_iff (Nat.lt_succ_self k)).mp (hnearest (k + 1) (by omega))
      have hcast : (k : ℚ) + 1 ≤ m := by exact_mod_cast hlt
      push_cast at hnext
      linarith
    · intro hle
      have hprev := (sq_le_iff' (show k - 1 < k by omega)).mp (hnearest (k - 1) (by omega))
      have hcast : (m : ℚ) ≤ k := by exact_mod_cast hle
      rw [Nat.cast_sub (by omega), Nat.cast_one] at hprev
      linarith
  · intro h k' hk'
    rcases Nat.lt_trichotomy k k' with hlt | rfl | hgt
    · rw [sq_le_iff hlt]
      have hborder := (h (k + 1) (by omega) (by omega)).1 (Nat.lt_succ_self k)
      have hcast : (k : ℚ) + 1 ≤ k' := by exact_mod_cast hlt
      push_cast at hborder
      linarith
    · exact le_rfl
    · rw [sq_le_iff' hgt]
      have hborder := (h k hk (by omega)).2 le_rfl
      have hcast : (k' : ℚ) + 1 ≤ k := by exact_mod_cast hgt
      linarith

theorem nearest_iff_together {shift : Int} (hk : k < n)
    (hside : ∀ m < n, 1 ≤ m → (k < m ↔ std_round e < shift + m)) :
    NearestIndex n c k ↔ Together n shift e c := by
  rw [nearest_index_iff hk]
  unfold Together
  apply forall_congr'
  intro m
  apply forall_congr'
  intro hm
  apply forall_congr'
  intro hpos
  have hbefore : Before e (shift + m - 1 / 2) ↔ k < m := by
    rw [hside m hm hpos, std_round_lt_iff]
    push_cast
    rfl
  rw [hbefore, not_lt]

/-- **Rows** are clamped. -/
theorem nearest_row_iff (hn : 1 ≤ n) (hk : (k : Int) =
      if max (std_round e) 0 ≥ (n : Int) then (n : Int) - 1 else max (std_round e) 0) :
    NearestIndex n c k ↔ Together n 0 e c := by
  have hlt : k < n := by
    split at hk <;> omega
  apply nearest_iff_together hlt
  intro m hm hpos
  split at hk <;> omega

/-- **Columns** are taken modulo `n`: the edge is moved by whole widths of the
    source, the center is not. -/
theorem nearest_column_iff (hn : 1 ≤ n) (hk : (k : Int) = std_round e % n) :
    NearestIndex n c k ↔
      ∃ turn : Int, RoundsInto (turn * n) ((turn + 1) * n) e ∧ Together n (turn * n) e c := by
  have hpos : (0 : Int) < n := by exact_mod_cast hn
  have hsplit := Int.mul_ediv_add_emod (std_round e) n
  rw [mul_comm] at hsplit
  have hbound := Int.emod_lt_of_pos (std_round e) hpos
  have hin : RoundsInto (std_round e / n * n) ((std_round e / n + 1) * n) e := by
    rw [rounds_into_iff, add_mul, one_mul]
    omega
  have htogether : NearestIndex n c k ↔ Together n (std_round e / n * n) e c := by
    apply nearest_iff_together (by omega)
    intro m _ _
    omega
  rw [htogether]
  constructor
  · intro h
    exact ⟨_, hin, h⟩
  · intro ⟨turn, hturn, h⟩
    -- there is only one such turn
    rw [rounds_into_iff] at hturn hin
    have heq : turn = std_round e / n := by
      have hle : turn < std_round e / n + 1 := lt_of_mul_lt_mul_right (by omega) hpos.le
      have hge : std_round e / n < turn + 1 := lt_of_mul_lt_mul_right (by omega) hpos.le
      omega
    rwa [← heq]

end

/-! ## Section 3: Regular grids -/

/-- The corners of the cell at column `i` and row `j`. -/
def grid_square (reg : RegularGridInfo) (i j : Nat) : List Point2 :=
  [(reg.lon_min + i * reg.delta_lon, reg.lat_min + j * reg.delta_lat),
    (reg.lon_min + (i + 1) * reg.delta_lon, reg.lat_min + j * reg.delta_lat),
    (reg.lon_min + (i + 1) * reg.delta_lon, reg.lat_min + (j + 1) * reg.delta_lat),
    (reg.lon_min + i * reg.delta_lon, reg.lat_min + (j + 1) * reg.delta_lat)]

/-- **A Cartesian regular grid**: its cells are rectangles of one size, row
    after row. The order of the corners does not matter. -/
structure OnGrid (mesh : Mesh) (reg : RegularGridInfo) : Prop where
  cartesian : mesh.csys = .Cartesian3D
  delta_lon_pos : 0 < reg.delta_lon
  delta_lat_pos : 0 < reg.delta_lat
  ni_pos : 1 ≤ reg.ni
  nj_pos : 1 ≤ reg.nj
  n_cells : mesh.n_cells = reg.ni * reg.nj
  corners : ∀ c : Fin mesh.n_cells,
    (((mesh.cells c).map mesh.coords).map fun v => (v.x, v.y)).Perm
      (grid_square reg (c.val % reg.ni) (c.val / reg.ni))

/-- The square of the distance. -/
def dist_sq (a b : Point2) : ℚ := (a.1 - b.1) ^ 2 + (a.2 - b.2) ^ 2

variable (p : Meshes)

/-- **No source center is nearer** to that of the destination cell. -/
def Nearest (j : Fin p.dst.n_cells) (i : Fin p.src.n_cells) : Prop :=
  ∃ x y, p.dst.mean j = some y ∧ p.src.mean i = some x ∧
    ∀ i' x', p.src.mean i' = some x' → dist_sq x y ≤ dist_sq x' y

/-- **What a nearest-neighbour method is for**: each destination cell has one
    source cell, a nearest one. -/
def AssignsNearest (src_reg dst_reg : RegularGridInfo) : Prop :=
  ∃ matrix, p.generate_nearest_rect src_reg dst_reg = .returned matrix ∧
    matrix.entries.map (·.row) = List.finRange p.dst.n_cells ∧
    ∀ e ∈ matrix.entries, e.weight = 1 ∧ p.Nearest e.row e.col

/-- The position of a coordinate among the edges of source cells. -/
def edge_position (lo delta x : ℚ) : ℚ := (x - lo) / delta

/-- The position of a coordinate among the centers of source cells. -/
def center_position (lo delta x : ℚ) : ℚ := (x - lo) / delta - 1 / 2

/-- **The edges do for the centers** of a destination cell. In each direction
    the rounded position of the edge fits its type, and no border between source
    cells separates the edge from the center. In longitude the edge may be moved
    by whole widths of the source. -/
structure Aligned (src dst : RegularGridInfo) (a b : Nat) : Prop where
  west_fits : RoundsInto (-2 ^ 63) (2 ^ 63)
    (edge_position src.lon_min src.delta_lon (dst.lon_min + a * dst.delta_lon))
  south_fits : RoundsInto (-2 ^ 63) (2 ^ 63)
    (edge_position src.lat_min src.delta_lat (dst.lat_min + b * dst.delta_lat))
  columns : ∃ turn : Int,
    RoundsInto (turn * src.ni) ((turn + 1) * src.ni)
      (edge_position src.lon_min src.delta_lon (dst.lon_min + a * dst.delta_lon)) ∧
    Together src.ni (turn * src.ni)
      (edge_position src.lon_min src.delta_lon (dst.lon_min + a * dst.delta_lon))
      (center_position src.lon_min src.delta_lon (dst.lon_min + (a + 1 / 2) * dst.delta_lon))
  rows : Together src.nj 0
    (edge_position src.lat_min src.delta_lat (dst.lat_min + b * dst.delta_lat))
    (center_position src.lat_min src.delta_lat (dst.lat_min + (b + 1 / 2) * dst.delta_lat))

section
variable {p} {mesh : Mesh} {reg src_reg dst_reg : RegularGridInfo} {j : Fin p.dst.n_cells}

/-- The center of the cell at column `i` and row `j`. -/
def grid_center (reg : RegularGridInfo) (i j : Nat) : Point2 :=
  (reg.lon_min + (i + 1 / 2) * reg.delta_lon, reg.lat_min + (j + 1 / 2) * reg.delta_lat)

theorem mean_on_grid (h : OnGrid mesh reg) (c : Fin mesh.n_cells) :
    mesh.mean c = some (grid_center reg (c.val % reg.ni) (c.val / reg.ni)) := by
  have hperm := h.corners c
  have hlength : ((mesh.cells c).map mesh.coords).length = 4 := by
    have hlen := hperm.length_eq
    rwa [List.length_map] at hlen
  have hne : (mesh.cells c).map mesh.coords ≠ [] := by
    intro hnil
    rw [hnil] at hlength
    cases hlength
  have hx := (hperm.map Prod.fst).sum_eq
  have hy := (hperm.map Prod.snd).sum_eq
  rw [List.map_map] at hx hy
  have hx' : (((mesh.cells c).map mesh.coords).map (·.x)).sum = _ := hx
  have hy' : (((mesh.cells c).map mesh.coords).map (·.y)).sum = _ := hy
  unfold Mesh.mean
  dsimp only
  rw [if_neg hne, hlength, hx', hy']
  simp only [grid_square, grid_center, List.map_cons, List.map_nil, List.sum_cons, List.sum_nil,
    Option.some.injEq, Prod.mk.injEq]
  constructor
  · push_cast
    ring
  · push_cast
    ring

theorem place_bounds (h : OnGrid mesh reg) (c : Fin mesh.n_cells) :
    c.val % reg.ni < reg.ni ∧ c.val / reg.ni < reg.nj := by
  have hlt : c.val < reg.ni * reg.nj := c.isLt.trans_eq h.n_cells
  exact ⟨Nat.mod_lt _ h.ni_pos, Nat.div_lt_of_lt_mul hlt⟩

theorem index_lt (h : OnGrid mesh reg) {i k : Nat} (hi : i < reg.ni) (hk : k < reg.nj) :
    k * reg.ni + i < mesh.n_cells := by
  rw [h.n_cells]
  calc k * reg.ni + i < k * reg.ni + reg.ni := by omega
    _ = reg.ni * (k + 1) := by ring
    _ ≤ reg.ni * reg.nj := Nat.mul_le_mul_left _ hk

theorem index_place {ni i k : Nat} (hi : i < ni) :
    (k * ni + i) % ni = i ∧ (k * ni + i) / ni = k := by
  constructor
  · rw [Nat.mul_add_mod_self_right, Nat.mod_eq_of_lt hi]
  · rw [Nat.mul_comm, Nat.mul_add_div (by omega), Nat.div_eq_of_lt hi, Nat.add_zero]

theorem sq_to_center {lo delta x : ℚ} (hdelta : 0 < delta) (k : Nat) :
    (lo + (k + 1 / 2) * delta - x) ^ 2 = delta ^ 2 * (center_position lo delta x - k) ^ 2 := by
  have hne := hdelta.ne'
  unfold center_position
  have hx : x = lo + (x - lo) / delta * delta := by
    rw [div_mul_cancel₀ _ hne]
    ring
  conv_lhs => rw [hx]
  ring

/-- **Nearest in both directions**: the square of the distance splits. -/
theorem nearest_iff (hsrc : OnGrid p.src src_reg) (hdst : OnGrid p.dst dst_reg)
    {i : Fin p.src.n_cells} :
    p.Nearest j i ↔
      NearestIndex src_reg.ni (center_position src_reg.lon_min src_reg.delta_lon
          (dst_reg.lon_min + ((j.val % dst_reg.ni : Nat) + 1 / 2) * dst_reg.delta_lon))
        (i.val % src_reg.ni) ∧
      NearestIndex src_reg.nj (center_position src_reg.lat_min src_reg.delta_lat
          (dst_reg.lat_min + ((j.val / dst_reg.ni : Nat) + 1 / 2) * dst_reg.delta_lat))
        (i.val / src_reg.ni) := by
  set cx := center_position src_reg.lon_min src_reg.delta_lon
    (dst_reg.lon_min + ((j.val % dst_reg.ni : Nat) + 1 / 2) * dst_reg.delta_lon) with hcx
  set cy := center_position src_reg.lat_min src_reg.delta_lat
    (dst_reg.lat_min + ((j.val / dst_reg.ni : Nat) + 1 / 2) * dst_reg.delta_lat) with hcy
  have hdist : ∀ k k' : Nat, dist_sq (grid_center src_reg k k')
      (grid_center dst_reg (j.val % dst_reg.ni) (j.val / dst_reg.ni)) =
        src_reg.delta_lon ^ 2 * (cx - k) ^ 2 + src_reg.delta_lat ^ 2 * (cy - k') ^ 2 := by
    intro k k'
    unfold dist_sq grid_center
    dsimp only
    rw [sq_to_center hsrc.delta_lon_pos, sq_to_center hsrc.delta_lat_pos]
  have hlon : 0 < src_reg.delta_lon ^ 2 := pow_pos hsrc.delta_lon_pos 2
  have hlat : 0 < src_reg.delta_lat ^ 2 := pow_pos hsrc.delta_lat_pos 2
  obtain ⟨hcol, hrow⟩ := place_bounds hsrc i
  unfold Nearest
  simp only [mean_on_grid hsrc, mean_on_grid hdst, Option.some.injEq]
  constructor
  · intro ⟨x, y, hy, hx, hmin⟩
    subst hx hy
    constructor
    · intro k hk
      have hplace := index_place (k := i.val / src_reg.ni) hk
      have hle := hmin ⟨_, index_lt hsrc hk hrow⟩ _ rfl
      rw [hdist, hplace.1, hplace.2, hdist, add_le_add_iff_right] at hle
      exact le_of_mul_le_mul_left hle hlon
    · intro k hk
      have hplace := index_place (k := k) hcol
      have hle := hmin ⟨_, index_lt hsrc hcol hk⟩ _ rfl
      rw [hdist, hplace.1, hplace.2, hdist, add_le_add_iff_left] at hle
      exact le_of_mul_le_mul_left hle hlat
  · intro ⟨hx, hy⟩
    refine ⟨_, _, rfl, rfl, ?_⟩
    intro i' x' hx'
    subst hx'
    obtain ⟨hcol', hrow'⟩ := place_bounds hsrc i'
    rw [hdist, hdist]
    exact add_le_add (mul_le_mul_of_nonneg_left (hx _ hcol') hlon.le)
      (mul_le_mul_of_nonneg_left (hy _ hrow') hlat.le)

/-! ## Section 4: The fast path -/

theorem fits_iff (e : ℚ) : RoundsInto (-2 ^ 63) (2 ^ 63) e ↔ Fits 64 (std_round e) :=
  rounds_into_iff

/-- The entry of a destination cell whose positions fit. -/
theorem entry_of_fits (hsrc : OnGrid p.src src_reg)
    (hwest : Fits 64 (std_round (edge_position src_reg.lon_min src_reg.delta_lon
      (dst_reg.lon_min + (j.val % dst_reg.ni : Nat) * dst_reg.delta_lon))))
    (hsouth : Fits 64 (std_round (edge_position src_reg.lat_min src_reg.delta_lat
      (dst_reg.lat_min + (j.val / dst_reg.ni : Nat) * dst_reg.delta_lat)))) :
    ∃ i, p.nearest_rect_entry src_reg dst_reg j = .returned ⟨j, i, 1⟩ ∧
      ((i.val % src_reg.ni : Nat) : Int) = std_round (edge_position src_reg.lon_min src_reg.delta_lon
        (dst_reg.lon_min + (j.val % dst_reg.ni : Nat) * dst_reg.delta_lon)) % src_reg.ni ∧
      ((i.val / src_reg.ni : Nat) : Int) =
        (let s_j := max (std_round (edge_position src_reg.lat_min src_reg.delta_lat
          (dst_reg.lat_min + (j.val / dst_reg.ni : Nat) * dst_reg.delta_lat))) 0
        if s_j ≥ (src_reg.nj : Int) then (src_reg.nj : Int) - 1 else s_j) := by
  unfold nearest_rect_entry
  generalize hr : std_round (edge_position src_reg.lon_min src_reg.delta_lon
    (dst_reg.lon_min + (j.val % dst_reg.ni : Nat) * dst_reg.delta_lon)) = r at hwest
  generalize hs : std_round (edge_position src_reg.lat_min src_reg.delta_lat
    (dst_reg.lat_min + (j.val / dst_reg.ni : Nat) * dst_reg.delta_lat)) = s at hsouth
  unfold edge_position at hr hs
  have hni : (0 : Int) < src_reg.ni := by exact_mod_cast hsrc.ni_pos
  have hnj := hsrc.nj_pos
  dsimp only
  rw [hr, signed_of_fits hwest, Outcome.returned_bind, hs, signed_of_fits hsouth,
    Outcome.returned_bind, wrapped_index r hni]
  -- the column and the row as natural numbers
  obtain ⟨col, hcol⟩ := Int.eq_ofNat_of_zero_le (Int.emod_nonneg r hni.ne')
  obtain ⟨row, hrow, hrow_lt⟩ : ∃ row : Nat,
      (if max s 0 ≥ (src_reg.nj : Int) then (src_reg.nj : Int) - 1 else max s 0) = row ∧
        row < src_reg.nj := by
    split
    · exact ⟨src_reg.nj - 1, by omega, by omega⟩
    · exact ⟨(max s 0).toNat, by omega, by omega⟩
  have hcol_lt : col < src_reg.ni := by
    have hlt := Int.emod_lt_of_pos r hni
    omega
  have hindex : (row : Int) * src_reg.ni + col = ((row * src_reg.ni + col : Nat) : Int) := by
    push_cast
    rfl
  obtain ⟨hmod, hdiv⟩ := index_place (k := row) hcol_lt
  have hlt := index_lt hsrc hcol_lt hrow_lt
  have helement : element p.src.n_cells (row * src_reg.ni + col : Int) =
      .returned ⟨row * src_reg.ni + col, hlt⟩ := by
    unfold element
    rw [hindex, dif_pos ⟨Int.natCast_nonneg _, hlt⟩]
    rfl
  refine ⟨⟨row * src_reg.ni + col, hlt⟩, ?_, ?_, ?_⟩
  · rw [hrow, hcol, helement]
    rfl
  · rw [hmod, hcol]
  · show ((_ / _ : Nat) : Int) = if max s 0 ≥ (src_reg.nj : Int) then _ else _
    rw [hdiv, hrow]

/-- **One destination cell** gets a nearest source cell exactly when it is
    aligned. -/
theorem entry_iff (hsrc : OnGrid p.src src_reg) (hdst : OnGrid p.dst dst_reg) :
    (∃ e, p.nearest_rect_entry src_reg dst_reg j = .returned e ∧ e.weight = 1 ∧
      p.Nearest e.row e.col) ↔
    Aligned src_reg dst_reg (j.val % dst_reg.ni) (j.val / dst_reg.ni) := by
  constructor
  · intro ⟨e, he, _, hnearest⟩
    have hparts := he
    unfold nearest_rect_entry at hparts
    obtain ⟨hwest, hparts⟩ := signed_bind_eq_returned.mp hparts
    obtain ⟨hsouth, -⟩ := signed_bind_eq_returned.mp hparts
    obtain ⟨i, hi, hcol, hrow⟩ := entry_of_fits hsrc hwest hsouth
    rw [hi] at he
    cases he
    obtain ⟨hlon, hlat⟩ := (nearest_iff hsrc hdst).mp hnearest
    exact ⟨(fits_iff _).mpr hwest, (fits_iff _).mpr hsouth,
      (nearest_column_iff hsrc.ni_pos hcol).mp hlon, (nearest_row_iff hsrc.nj_pos hrow).mp hlat⟩
  · intro h
    obtain ⟨i, hi, hcol, hrow⟩ := entry_of_fits hsrc ((fits_iff _).mp h.west_fits)
      ((fits_iff _).mp h.south_fits)
    refine ⟨_, hi, rfl, (nearest_iff hsrc hdst).mpr ⟨?_, ?_⟩⟩
    · exact (nearest_column_iff hsrc.ni_pos hcol).mpr h.columns
    · exact (nearest_row_iff hsrc.nj_pos hrow).mpr h.rows

theorem row_of_entry {e : p.Entry} (h : p.nearest_rect_entry src_reg dst_reg j = .returned e) :
    e.row = j := by
  unfold nearest_rect_entry at h
  obtain ⟨-, h⟩ := signed_bind_eq_returned.mp h
  obtain ⟨-, h⟩ := signed_bind_eq_returned.mp h
  obtain ⟨i, -, h⟩ := Outcome.bind_eq_returned.mp h
  cases h
  rfl

/-- **Nearest neighbours on regular grids**: the fast path gives what the search
    among the centers gives exactly when every destination cell is aligned. -/
theorem nearest_rect_iff (hsrc : OnGrid p.src src_reg) (hdst : OnGrid p.dst dst_reg) :
    p.AssignsNearest src_reg dst_reg ↔
      ∀ j : Fin p.dst.n_cells, Aligned src_reg dst_reg (j.val % dst_reg.ni) (j.val / dst_reg.ni) := by
  constructor
  · intro ⟨matrix, hmatrix, _, hnearest⟩ j
    unfold generate_nearest_rect at hmatrix
    obtain ⟨entries, hentries, hpack⟩ := Outcome.bind_eq_returned.mp hmatrix
    cases hpack
    obtain ⟨e, hmem, he⟩ := Outcome.exists_of_mapM hentries (List.mem_finRange j)
    exact (entry_iff hsrc hdst).mp ⟨e, he, hnearest e hmem⟩
  · intro h
    obtain ⟨entries, hentries⟩ : ∃ entries, (List.finRange p.dst.n_cells).mapM
        (p.nearest_rect_entry src_reg dst_reg) = .returned entries := by
      apply Outcome.mapM_returns.mpr
      intro j _
      obtain ⟨e, he, -⟩ := (entry_iff hsrc hdst).mpr (h j)
      exact ⟨e, he⟩
    refine ⟨⟨entries, fun _ => 0, fun _ => 0, fun _ => 0, fun _ => 0⟩, ?_, ?_, ?_⟩
    · unfold generate_nearest_rect
      rw [hentries, Outcome.returned_bind]
      rfl
    · have hall := Outcome.mapM_eq_returned.mp hentries
      have hrows : List.Forall₂ (fun e j => e.row = j) entries (List.finRange p.dst.n_cells) :=
        (hall.imp fun _ _ he => row_of_entry he).flip
      have hequal := List.forall₂_map_left_iff.mpr hrows
      rwa [List.forall₂_eq_eq_eq] at hequal
    · intro e hmem
      obtain ⟨j, -, he⟩ := (Outcome.mem_of_mapM hentries).mp hmem
      obtain ⟨e', he', hnearest⟩ := (entry_iff hsrc hdst).mpr (h j)
      rw [he] at he'
      cases he'
      exact hnearest

end

/-! ### Rows of rectangles -/

/-- `n` cells of height 1 from 0 on, side by side. -/
def strip (n : Nat) (width : ℚ) : Mesh where
  n_nodes := 2 * (n + 1)
  n_cells := n
  coords := fun ni => ⟨(ni.val % (n + 1) : Nat) * width, (ni.val / (n + 1) : Nat), 0⟩
  csys := .Cartesian3D
  cells := fun c => [c.val, c.val + 1, c.val + n + 2, c.val + n + 1].map (Fin.ofNat (2 * (n + 1)))
  cell_areas := none
  cell_mask := none

def strip_reg (n : Nat) (width : ℚ) : RegularGridInfo := ⟨true, 0, n * width, width, 0, 1, 1, n, 1⟩

/-- Two strips. -/
def strips (n m : Nat) (width width' : ℚ) (hn : 0 < n) : Meshes where
  src := strip n width
  dst := strip m width'
  geometry :=
    { src_centroid := fun _ => (0, 0)
      dst_centroid := fun _ => (0, 0)
      src_areas := fun _ _ => 1
      dst_areas := fun _ _ => 1
      src_degenerate := fun _ => false
      dst_degenerate := fun _ => false
      sorted_dst := ArrayLoops.Schedule.serial m
      nearest := fun _ k _ => [(⟨0, hn⟩ : Fin n)].take k
      intersects := fun _ _ => [⟨0, hn⟩]
      overlap_area := fun _ _ _ => 1
      spherical_cap_rejects := fun _ _ => false
      clip := fun _ _ => ⟨[], 0⟩
      compute_polygon_overlap_area := fun _ _ => 1 }

theorem strip_on_grid {n : Nat} {width : ℚ} (hn : 1 ≤ n) (hwidth : 0 < width) :
    OnGrid (strip n width) (strip_reg n width) where
  cartesian := rfl
  delta_lon_pos := hwidth
  delta_lat_pos := one_pos
  ni_pos := hn
  nj_pos := le_refl 1
  n_cells := (Nat.mul_one n).symm
  corners := by
    intro c
    have hc : c.val < n := c.isLt
    -- the nodes of the lower row are `0` to `n`, those of the upper row follow
    have hnode : ∀ m k j : Nat, m = k + (n + 1) * j → k ≤ n → j < 2 →
        (strip n width).coords (Fin.ofNat (2 * (n + 1)) m) = ⟨k * width, j, 0⟩ := by
      intro m k j hm hk hj
      have hrow := Nat.mul_le_mul_left (n + 1) (Nat.le_of_lt_succ hj)
      have hcol : m % (n + 1) = k := by
        rw [hm, Nat.add_mul_mod_self_left, Nat.mod_eq_of_lt (by omega)]
      have hdiv : m / (n + 1) = j := by
        rw [hm, Nat.add_mul_div_left _ _ (by omega), Nat.div_eq_of_lt (by omega), Nat.zero_add]
      unfold strip
      dsimp only [Fin.ofNat]
      rw [Nat.mod_eq_of_lt (show m < 2 * (n + 1) by omega), hcol, hdiv]
    have hcorners : ((strip n width).cells c).map (strip n width).coords =
        [⟨c.val * width, (0 : Nat), 0⟩, ⟨(c.val + 1 : Nat) * width, (0 : Nat), 0⟩,
          ⟨(c.val + 1 : Nat) * width, (1 : Nat), 0⟩, ⟨c.val * width, (1 : Nat), 0⟩] := by
      rw [← hnode c.val c.val 0 (by omega) (by omega) (by omega),
        ← hnode (c.val + 1) (c.val + 1) 0 (by omega) (by omega) (by omega),
        ← hnode (c.val + n + 2) (c.val + 1) 1 (by omega) (by omega) (by omega),
        ← hnode (c.val + n + 1) c.val 1 (by omega) (by omega) (by omega)]
      rfl
    rw [hcorners, Nat.div_eq_of_lt (show c.val < (strip_reg n width).ni from hc),
      Nat.mod_eq_of_lt (show c.val < (strip_reg n width).ni from hc)]
    apply List.Perm.of_eq
    simp [grid_square, strip_reg]

instance (e b : ℚ) : Decidable (Before e b) := inferInstanceAs (Decidable (_ ∨ _))

instance (lo hi : Int) (e : ℚ) : Decidable (RoundsInto lo hi e) :=
  inferInstanceAs (Decidable (_ ∧ _))

instance (n : Nat) (shift : Int) (e c : ℚ) : Decidable (Together n shift e c) :=
  inferInstanceAs (Decidable (∀ m < n, 1 ≤ m → _))

theorem nearest_rect_same : (strips 2 2 1 1 Nat.two_pos).AssignsNearest (strip_reg 2 1)
    (strip_reg 2 1) := by
  have hgrid := @strip_on_grid 2 1 (by decide) one_pos
  apply (nearest_rect_iff hgrid hgrid).mpr
  intro (j : Fin 2)
  constructor
  · revert j
    decide +kernel
  · revert j
    decide +kernel
  · refine ⟨0, ?_⟩
    revert j
    decide +kernel
  · revert j
    decide +kernel

/-- **A wide destination cell** over four unit cells. Its west edge is that of
    the first one; its center is nearer to the two in the middle. -/
theorem wide_cell_gets_first :
    ((strips 4 1 1 4 (by decide)).generate_nearest_rect (strip_reg 4 1) (strip_reg 1 4) >>=
        fun matrix => .returned (matrix.entries.map fun e => e.col.val)) = .returned [0] ∧
      ¬ (strips 4 1 1 4 (by decide)).AssignsNearest (strip_reg 4 1) (strip_reg 1 4) := by
  have hfirst : ((strips 4 1 1 4 (by decide)).generate_nearest_rect (strip_reg 4 1) (strip_reg 1 4) >>=
      fun matrix => .returned (matrix.entries.map fun e => e.col.val)) = .returned [0] := by
    decide +kernel
  refine ⟨hfirst, ?_⟩
  intro ⟨matrix, hmatrix, _, hnearest⟩
  rw [hmatrix, Outcome.returned_bind] at hfirst
  obtain ⟨e, hmem, hcol⟩ := List.mem_map.mp
    ((Outcome.returned.inj hfirst).symm ▸ List.mem_cons_self (a := 0))
  -- the second source cell is nearer
  have hsrc := @strip_on_grid 4 1 (by decide) one_pos
  have hdst := @strip_on_grid 1 4 (by decide) four_pos
  have hindex := ((nearest_iff hsrc hdst).mp (hnearest e hmem).2).1 1 (by decide)
  rw [hcol] at hindex
  have hrow : e.row = (⟨0, Nat.one_pos⟩ : Fin 1) := Subsingleton.elim (α := Fin 1) _ _
  rw [hrow] at hindex
  exact absurd hindex (by decide +kernel)

end Axis.WeightGenerator.Meshes

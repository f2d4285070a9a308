import Helm.Axis.GradientReconstructor

/-! # AXIS: what a reconstructed gradient is

  `GradientReconstructor::compute` over the compressed neighbour lists, for any
  values of the cells. The raw gradient solves the normal equations of the
  least-squares problem, or is zero. The limiter scales it by the largest
  factor of at most one that keeps the values at the neighbours between those
  of the cells.

  The gradient view may hold anything before the call. The loops run up to the
  number of cells as an `int`: when it does not fit, some cells keep what the
  view held.

  Main result: `compute_sound_iff`.
-/

namespace Axis.GradientReconstructor

open Signed Segments

/-! ## Section 1: Neighbour lists -/

/-- The adjacency in CSR form: the neighbours of cell `i` are at the positions
    from `adj_offsets i` to before `adj_offsets (i + 1)`. -/
structure Adjacency (n : Nat) where
  adj_offsets : Fin (n + 1) → Nat
  adj_indices : List (Fin n)
  monotone : Monotone adj_offsets
  inside : adj_offsets (Fin.last n) ≤ adj_indices.length

namespace Adjacency

variable {n : Nat} (adj : Adjacency n)

def neighbours (i : Fin n) : List (Fin n) :=
  (adj.adj_indices.drop (adj.adj_offsets i.castSucc)).take
    (adj.adj_offsets i.succ - adj.adj_offsets i.castSucc)

end Adjacency

section
variable {K : Type} [Field K] [LinearOrder K] {n : Nat}

/-- `compute` with the view that it writes to. -/
def compute_view (cell_values : Fin n → K) (centroids : Fin n → Vec3 K) (adj : Adjacency n)
    (grad : Fin n → Vec3 K) (use_limiter : Bool) : Outcome String (Fin n → Vec3 K) :=
  if to_int n < 0 then .undefined
  else .returned fun i =>
    if ((i.val : Nat) : Int) < to_int n then
      let raw := least_squares cell_values centroids (adj.neighbours i) i
      if use_limiter then apply_limiter cell_values centroids (adj.neighbours i) i raw else raw
    else grad i

end

/-! ## Section 2: The normal equations -/

section
variable {K : Type} [Field K] {n : Nat}

/-- What remains at neighbour `j` of the linear problem. -/
def residual (cell_values : Fin n → K) (centroids : Fin n → Vec3 K) (i : Fin n) (g : Vec3 K)
    (j : Fin n) : K :=
  delta_f centroids i g j - (cell_values j - cell_values i)

/-- The residuals are orthogonal to the three rows of differences. -/
structure NormalEquations (cell_values : Fin n → K) (centroids : Fin n → Vec3 K)
    (nbrs : List (Fin n)) (i : Fin n) (g : Vec3 K) : Prop where
  x : accumulated nbrs (fun j => dx centroids i j * residual cell_values centroids i g j) = 0
  y : accumulated nbrs (fun j => dy centroids i j * residual cell_values centroids i g j) = 0
  z : accumulated nbrs (fun j => dz centroids i j * residual cell_values centroids i g j) = 0

/-- The matrix of the equations. -/
structure Solves (N : NormalMatrix K) (r g : Vec3 K) : Prop where
  x : N.n00 * g.x + N.n01 * g.y + N.n02 * g.z = r.x
  y : N.n01 * g.x + N.n11 * g.y + N.n12 * g.z = r.y
  z : N.n02 * g.x + N.n12 * g.y + N.n22 * g.z = r.z

theorem accumulated_residual (cell_values : Fin n → K) (centroids : Fin n → Vec3 K)
    (nbrs : List (Fin n)) (i : Fin n) (g : Vec3 K) (f : Fin n → K) :
    accumulated nbrs (fun j => f j * residual cell_values centroids i g j) =
      accumulated nbrs (fun j => f j * dx centroids i j) * g.x +
        accumulated nbrs (fun j => f j * dy centroids i j) * g.y +
        accumulated nbrs (fun j => f j * dz centroids i j) * g.z -
        accumulated nbrs (fun j => f j * (cell_values j - cell_values i)) := by
  unfold accumulated
  induction nbrs with
  | nil => simp
  | cons j nbrs ih =>
    simp only [List.map_cons, List.sum_cons]
    rw [ih, residual, delta_f]
    ring

theorem normal_equations_iff {cell_values : Fin n → K} {centroids : Fin n → Vec3 K}
    {nbrs : List (Fin n)} {i : Fin n} {g : Vec3 K} :
    NormalEquations cell_values centroids nbrs i g ↔
      Solves (normal_matrix centroids nbrs i) (right_hand_side cell_values centroids nbrs i) g := by
  have hx := accumulated_residual cell_values centroids nbrs i g (dx centroids i)
  have hy := accumulated_residual cell_values centroids nbrs i g (dy centroids i)
  have hz := accumulated_residual cell_values centroids nbrs i g (dz centroids i)
  -- the matrix is symmetric
  rw [accumulated_comm nbrs (dy centroids i) (dx centroids i)] at hy
  rw [accumulated_comm nbrs (dz centroids i) (dx centroids i),
    accumulated_comm nbrs (dz centroids i) (dy centroids i)] at hz
  constructor
  · intro h
    exact ⟨sub_eq_zero.mp (hx.symm.trans h.x), sub_eq_zero.mp (hy.symm.trans h.y),
      sub_eq_zero.mp (hz.symm.trans h.z)⟩
  · intro h
    exact ⟨hx.trans (sub_eq_zero.mpr h.x), hy.trans (sub_eq_zero.mpr h.y),
      hz.trans (sub_eq_zero.mpr h.z)⟩

theorem normal_equations_of_affine {cell_values : Fin n → K} {centroids : Fin n → Vec3 K}
    {nbrs : List (Fin n)} {i : Fin n} {g : Vec3 K}
    (h : ∀ j ∈ nbrs, delta_f centroids i g j = cell_values j - cell_values i) :
    NormalEquations cell_values centroids nbrs i g := by
  have hzero : ∀ f : Fin n → K,
      accumulated nbrs (fun j => f j * residual cell_values centroids i g j) = 0 := by
    intro f
    unfold accumulated
    apply List.sum_eq_zero
    intro y hy
    obtain ⟨j, hj, rfl⟩ := List.mem_map.mp hy
    rw [residual, h j hj, sub_self, mul_zero]
  exact ⟨hzero _, hzero _, hzero _⟩

variable [LinearOrder K] [IsStrictOrderedRing K]

theorem solve_3x3_cramer_unique {N : NormalMatrix K} (hdet : SINGULAR_EPS ≤ |N.det|) (r : Vec3 K) :
    ∃ g, solve_3x3_cramer N r = some g ∧ ∀ g', Solves N r g' ↔ g' = g := by
  have hne : N.det ≠ 0 := abs_pos.mp (singular_eps_pos.trans_le hdet)
  refine ⟨_, by rw [solve_3x3_cramer, if_neg (not_lt.mpr hdet)], ?_⟩
  intro g'
  constructor
  · intro h
    have hx := h.x
    have hy := h.y
    have hz := h.z
    -- a column of cofactors takes one unknown out of the three equations
    apply Vec3.ext
    · show _ = 1 / N.det * _
      rw [one_div, eq_inv_mul_iff_mul_eq₀ hne, NormalMatrix.det]
      linear_combination (N.n11 * N.n22 - N.n12 * N.n12) * hx -
        (N.n01 * N.n22 - N.n02 * N.n12) * hy + (N.n01 * N.n12 - N.n02 * N.n11) * hz
    · show _ = 1 / N.det * _
      rw [one_div, eq_inv_mul_iff_mul_eq₀ hne, NormalMatrix.det]
      linear_combination -(N.n01 * N.n22 - N.n12 * N.n02) * hx +
        (N.n00 * N.n22 - N.n02 * N.n02) * hy - (N.n00 * N.n12 - N.n02 * N.n01) * hz
    · show _ = 1 / N.det * _
      rw [one_div, eq_inv_mul_iff_mul_eq₀ hne, NormalMatrix.det]
      linear_combination (N.n01 * N.n12 - N.n11 * N.n02) * hx -
        (N.n00 * N.n12 - N.n01 * N.n02) * hy + (N.n00 * N.n11 - N.n01 * N.n01) * hz
  · intro h
    subst h
    have hinv : 1 / N.det * N.det = 1 := one_div_mul_cancel hne
    rw [NormalMatrix.det] at hinv
    constructor
    · dsimp only
      rw [NormalMatrix.det]
      linear_combination r.x * hinv
    · dsimp only
      rw [NormalMatrix.det]
      linear_combination r.y * hinv
    · dsimp only
      rw [NormalMatrix.det]
      linear_combination r.z * hinv

theorem least_squares_unique {cell_values : Fin n → K} {centroids : Fin n → Vec3 K}
    {nbrs : List (Fin n)} {i : Fin n} (hlength : 3 ≤ nbrs.length)
    (hdet : SINGULAR_EPS ≤ |(normal_matrix centroids nbrs i).det|) (g : Vec3 K) :
    NormalEquations cell_values centroids nbrs i g ↔
      g = least_squares cell_values centroids nbrs i := by
  obtain ⟨g', hsolve, hunique⟩ :=
    solve_3x3_cramer_unique hdet (right_hand_side cell_values centroids nbrs i)
  rw [normal_equations_iff, hunique, least_squares, if_neg (by omega), hsolve]

omit [IsStrictOrderedRing K] in
theorem least_squares_zero {cell_values : Fin n → K} {centroids : Fin n → Vec3 K}
    {nbrs : List (Fin n)} {i : Fin n}
    (h : ¬ (3 ≤ nbrs.length ∧ SINGULAR_EPS ≤ |(normal_matrix centroids nbrs i).det|)) :
    least_squares cell_values centroids nbrs i = ⟨0, 0, 0⟩ := by
  unfold least_squares
  split
  · rfl
  · have hdet : |(normal_matrix centroids nbrs i).det| < SINGULAR_EPS := by
      by_contra hnot
      exact h ⟨by omega, not_lt.mp hnot⟩
    rw [solve_3x3_cramer, if_pos hdet]

end

/-! ## Section 3: The limiter -/

/-- The values of a cell and its neighbours. -/
def near_values {K : Type} {n : Nat} (cell_values : Fin n → K) (nbrs : List (Fin n)) (i : Fin n) :
    Set K :=
  {v | ∃ j ∈ i :: nbrs, cell_values j = v}

theorem val_max_isGreatest {K : Type} [LinearOrder K] {n : Nat} (cell_values : Fin n → K)
    (nbrs : List (Fin n)) (i : Fin n) :
    IsGreatest (near_values cell_values nbrs i) (val_max cell_values nbrs i) := by
  -- a fold that starts with the value of any cell `a`
  have hfold : ∀ (l : List (Fin n)) (a : Fin n),
      IsGreatest (near_values cell_values l a)
        (l.foldl (fun m j => max m (cell_values j)) (cell_values a)) := by
    intro l
    induction l with
    | nil =>
      intro a
      simp [near_values, IsGreatest, upperBounds]
    | cons b l ih =>
      intro a
      -- the larger of the first two starts the rest
      obtain ⟨c, hc, hmax⟩ : ∃ c ∈ [a, b], cell_values c = max (cell_values a) (cell_values b) := by
        rcases le_total (cell_values a) (cell_values b) with hab | hab
        · exact ⟨b, by simp, (max_eq_right hab).symm⟩
        · exact ⟨a, by simp, (max_eq_left hab).symm⟩
      obtain ⟨⟨j, hj, hvalue⟩, hbound⟩ := ih c
      rw [List.foldl_cons, ← hmax]
      have hle : max (cell_values a) (cell_values b) ≤
          l.foldl (fun m j => max m (cell_values j)) (cell_values c) :=
        hmax ▸ hbound ⟨c, List.mem_cons_self, rfl⟩
      constructor
      · refine ⟨j, ?_, hvalue⟩
        simp only [List.mem_cons, List.not_mem_nil, or_false] at hj hc ⊢
        rcases hj with rfl | hj
        · exact hc.elim .inl fun h => .inr (.inl h)
        · exact .inr (.inr hj)
      · rintro v ⟨k, hk, rfl⟩
        simp only [List.mem_cons] at hk
        rcases hk with rfl | rfl | hk
        · exact (le_max_left _ _).trans hle
        · exact (le_max_right _ _).trans hle
        · exact hbound ⟨k, List.mem_cons_of_mem c hk, rfl⟩
  exact hfold nbrs i

theorem val_min_isLeast {K : Type} [LinearOrder K] {n : Nat} (cell_values : Fin n → K)
    (nbrs : List (Fin n)) (i : Fin n) :
    IsLeast (near_values cell_values nbrs i) (val_min cell_values nbrs i) :=
  val_max_isGreatest (K := Kᵒᵈ) cell_values nbrs i

section
variable {K : Type} [Field K] [LinearOrder K] [IsStrictOrderedRing K] {n : Nat}
  (cell_values : Fin n → K) (centroids : Fin n → Vec3 K) (nbrs : List (Fin n)) (i : Fin n)
  (raw : Vec3 K)

section
local instance keeps_ten : Nat.AtLeastTwo 10 := inferInstance

/-- The factor `c` keeps the value at neighbour `j` within the bounds, or the raw
    increment is too small to count. -/
def Keeps (c : K) (j : Fin n) : Prop :=
  1 / 10 ^ 30 < |delta_f centroids i raw j| →
    val_min cell_values nbrs i ≤ cell_values i + c * delta_f centroids i raw j ∧
      cell_values i + c * delta_f centroids i raw j ≤ val_max cell_values nbrs i

end

/-- The factors that do so at all neighbours. -/
def factors : Set K :=
  {c | 0 ≤ c ∧ c ≤ 1 ∧ ∀ j ∈ nbrs, Keeps cell_values centroids nbrs i raw c j}

/-- `phi` as it is when the gradient is scaled. -/
def limiter_phi : K :=
  max 0 (min 1 (nbrs.foldl (limit_step cell_values centroids nbrs i raw) 1))

variable {cell_values centroids nbrs i raw}

omit [Field K] [IsStrictOrderedRing K] in
theorem val_min_le_self : val_min cell_values nbrs i ≤ cell_values i :=
  (val_min_isLeast cell_values nbrs i).2 ⟨i, List.mem_cons_self, rfl⟩

omit [Field K] [IsStrictOrderedRing K] in
theorem self_le_val_max : cell_values i ≤ val_max cell_values nbrs i :=
  (val_max_isGreatest cell_values nbrs i).2 ⟨i, List.mem_cons_self, rfl⟩

theorem le_limit_step {c phi : K} (hc : 0 ≤ c) (hone : c ≤ 1) (j : Fin n) :
    c ≤ limit_step cell_values centroids nbrs i raw phi j ↔
      c ≤ phi ∧ Keeps cell_values centroids nbrs i raw c j := by
  have htiny : (0 : K) < 1 / 10 ^ 30 := by positivity
  have hmin : val_min cell_values nbrs i ≤ cell_values i := val_min_le_self
  have hmax : cell_values i ≤ val_max cell_values nbrs i := self_le_val_max
  unfold limit_step Keeps
  set delta := delta_f centroids i raw j
  dsimp only
  split
  · next hpos =>
    -- only the upper bound can fail
    have hdelta : 0 < delta := htiny.trans hpos
    have hlower : val_min cell_values nbrs i ≤ cell_values i + c * delta :=
      hmin.trans (le_add_of_nonneg_right (mul_nonneg hc hdelta.le))
    rw [le_min_iff, le_min_iff, le_div_iff₀ hdelta, abs_of_pos hdelta]
    constructor
    · exact fun h => ⟨h.1, fun _ => ⟨hlower, by linarith [h.2.2]⟩⟩
    · exact fun h => ⟨h.1, hone, by linarith [(h.2 hpos).2]⟩
  · next hnotpos =>
    split
    · next hneg =>
      have hdelta : delta < 0 := hneg.trans (neg_lt_zero.mpr htiny)
      have hupper : cell_values i + c * delta ≤ val_max cell_values nbrs i :=
        (add_le_of_nonpos_right (mul_nonpos_of_nonneg_of_nonpos hc hdelta.le)).trans hmax
      rw [le_min_iff, le_min_iff, le_div_iff_of_neg hdelta, abs_of_neg hdelta]
      constructor
      · exact fun h => ⟨h.1, fun _ => ⟨by linarith [h.2.2], hupper⟩⟩
      · exact fun h => ⟨h.1, hone, by linarith [(h.2 (by linarith)).1]⟩
    · next hnotneg =>
      have hsmall : ¬ 1 / 10 ^ 30 < |delta| := by
        rw [lt_abs]
        rintro (h | h)
        · exact hnotpos h
        · exact hnotneg (by linarith)
      exact ⟨fun h => ⟨h, fun hlarge => absurd hlarge hsmall⟩, fun h => h.1⟩

theorem le_foldl_limit_step {c : K} (hc : 0 ≤ c) (hone : c ≤ 1) (l : List (Fin n)) (phi : K) :
    c ≤ l.foldl (limit_step cell_values centroids nbrs i raw) phi ↔
      c ≤ phi ∧ ∀ j ∈ l, Keeps cell_values centroids nbrs i raw c j := by
  induction l generalizing phi with
  | nil => simp
  | cons j l ih =>
    rw [List.foldl_cons, ih, le_limit_step hc hone]
    simp only [List.mem_cons, forall_eq_or_imp]
    tauto

theorem limiter_phi_isGreatest :
    IsGreatest (factors cell_values centroids nbrs i raw)
      (limiter_phi cell_values centroids nbrs i raw) := by
  have hfold : ∀ c : K, 0 ≤ c → c ≤ 1 →
      (c ≤ limiter_phi cell_values centroids nbrs i raw ↔
        ∀ j ∈ nbrs, Keeps cell_values centroids nbrs i raw c j) := by
    intro c hc hone
    -- the factor 0 keeps all bounds, so that the clamp at 0 does nothing
    have hzero : (0 : K) ≤ nbrs.foldl (limit_step cell_values centroids nbrs i raw) 1 := by
      rw [le_foldl_limit_step le_rfl zero_le_one]
      refine ⟨zero_le_one, fun j _ _ => ?_⟩
      rw [zero_mul, add_zero]
      exact ⟨val_min_le_self, self_le_val_max⟩
    rw [limiter_phi, max_eq_right (le_min zero_le_one hzero), le_min_iff,
      le_foldl_limit_step hc hone]
    exact ⟨fun h => h.2.2, fun h => ⟨hone, hone, h⟩⟩
  have hphi : 0 ≤ limiter_phi cell_values centroids nbrs i raw := le_max_left _ _
  have hphi_one : limiter_phi cell_values centroids nbrs i raw ≤ 1 :=
    max_le zero_le_one (min_le_left _ _)
  constructor
  · exact ⟨hphi, hphi_one, (hfold _ hphi hphi_one).mp le_rfl⟩
  · intro c ⟨hc, hone, hkeeps⟩
    exact (hfold c hc hone).mpr hkeeps

theorem apply_limiter_eq :
    apply_limiter cell_values centroids nbrs i raw =
      ⟨raw.x * limiter_phi cell_values centroids nbrs i raw,
        raw.y * limiter_phi cell_values centroids nbrs i raw,
        raw.z * limiter_phi cell_values centroids nbrs i raw⟩ := by
  unfold apply_limiter
  split
  · next hnone =>
    have hphi : limiter_phi cell_values centroids nbrs i raw = 1 := by
      rw [limiter_phi, List.length_eq_zero_iff.mp hnone]
      simp
    simp only [hphi, mul_one]
  · rfl

/-! ## Section 4: The gradient of every cell -/

variable (cell_values centroids nbrs i)

/-- The raw gradient of a cell. -/
structure RawGradient (raw : Vec3 K) : Prop where
  /-- The one solution of the normal equations. -/
  unique : 3 ≤ nbrs.length → SINGULAR_EPS ≤ |(normal_matrix centroids nbrs i).det| →
    ∀ g, NormalEquations cell_values centroids nbrs i g ↔ g = raw
  /-- The gradient of an affine field is exact. -/
  exact : 3 ≤ nbrs.length → SINGULAR_EPS ≤ |(normal_matrix centroids nbrs i).det| →
    ∀ (a : K) (g : Vec3 K), (∀ j, cell_values j =
      a + (g.x * (centroids j).x + g.y * (centroids j).y + g.z * (centroids j).z)) → raw = g
  zero : ¬ (3 ≤ nbrs.length ∧ SINGULAR_EPS ≤ |(normal_matrix centroids nbrs i).det|) →
    raw = ⟨0, 0, 0⟩

/-- The gradient that the limiter makes of it. -/
structure LimitedGradient (raw g : Vec3 K) : Prop where
  lower : IsLeast (near_values cell_values nbrs i) (val_min cell_values nbrs i)
  upper : IsGreatest (near_values cell_values nbrs i) (val_max cell_values nbrs i)
  scaled : ∃ phi, g = ⟨raw.x * phi, raw.y * phi, raw.z * phi⟩ ∧
    IsGreatest (factors cell_values centroids nbrs i raw) phi
  between : ∀ j ∈ nbrs,
    val_min cell_values nbrs i - 1 / 10 ^ 30 ≤ cell_values i + delta_f centroids i g j ∧
      cell_values i + delta_f centroids i g j ≤ val_max cell_values nbrs i + 1 / 10 ^ 30
  /-- A gradient within the bounds is left as it is. -/
  unchanged : (∀ j ∈ nbrs, Keeps cell_values centroids nbrs i raw 1 j) → g = raw

theorem raw_gradient : RawGradient cell_values centroids nbrs i
    (least_squares cell_values centroids nbrs i) where
  unique hlength hdet := least_squares_unique hlength hdet
  exact := by
    intro hlength hdet a g haffine
    refine ((least_squares_unique hlength hdet g).mp (normal_equations_of_affine ?_)).symm
    intro j _
    rw [haffine j, haffine i, delta_f, dx, dy, dz]
    ring
  zero := least_squares_zero

theorem limited_gradient (raw : Vec3 K) : LimitedGradient cell_values centroids nbrs i raw
    (apply_limiter cell_values centroids nbrs i raw) := by
  have hgreatest : IsGreatest (factors cell_values centroids nbrs i raw)
      (limiter_phi cell_values centroids nbrs i raw) := limiter_phi_isGreatest
  obtain ⟨hphi, hphi_one, hkeeps⟩ := hgreatest.1
  rw [apply_limiter_eq]
  set phi := limiter_phi cell_values centroids nbrs i raw
  have hmin : val_min cell_values nbrs i ≤ cell_values i := val_min_le_self
  have hmax : cell_values i ≤ val_max cell_values nbrs i := self_le_val_max
  refine ⟨val_min_isLeast .., val_max_isGreatest .., ⟨phi, rfl, hgreatest⟩, ?_, ?_⟩
  · intro j hj
    have hdelta : delta_f centroids i ⟨raw.x * phi, raw.y * phi, raw.z * phi⟩ j =
        phi * delta_f centroids i raw j := by
      unfold delta_f
      ring
    rw [hdelta]
    have htiny : (0 : K) < 1 / 10 ^ 30 := by positivity
    by_cases hlarge : 1 / 10 ^ 30 < |delta_f centroids i raw j|
    · obtain ⟨hlow, hhigh⟩ := hkeeps j hj hlarge
      exact ⟨(sub_le_self _ htiny.le).trans hlow, hhigh.trans (le_add_of_nonneg_right htiny.le)⟩
    · -- a small increment moves the value by no more than it is
      have hsmall : |phi * delta_f centroids i raw j| ≤ 1 / 10 ^ 30 := by
        rw [abs_mul, abs_of_nonneg hphi]
        exact (mul_le_of_le_one_left (abs_nonneg _) hphi_one).trans (not_lt.mp hlarge)
      obtain ⟨hlow, hhigh⟩ := abs_le.mp hsmall
      constructor
      · linarith
      · linarith
  · intro hone
    have heq : phi = 1 := le_antisymm hphi_one (hgreatest.2 ⟨zero_le_one, le_rfl, hone⟩)
    rw [heq]
    simp only [mul_one]

variable (adj : Adjacency n)

/-- Whatever the view held, the call returns the gradients of all cells. -/
def Reconstructs : Prop :=
  ∀ grad use_limiter, ∃ g,
    compute_view cell_values centroids adj grad use_limiter = .returned g ∧
    ∀ i, ∃ raw, RawGradient cell_values centroids (adj.neighbours i) i raw ∧
      if use_limiter then LimitedGradient cell_values centroids (adj.neighbours i) i raw (g i)
      else g i = raw

variable {cell_values centroids adj}

theorem RawGradient.eq {raw : Vec3 K} (h : RawGradient cell_values centroids nbrs i raw) :
    raw = least_squares cell_values centroids nbrs i := by
  by_cases hregular :
      3 ≤ nbrs.length ∧ SINGULAR_EPS ≤ |(normal_matrix centroids nbrs i).det|
  · have hraw := (h.unique hregular.1 hregular.2 raw).mpr rfl
    exact (least_squares_unique hregular.1 hregular.2 raw).mp hraw
  · rw [h.zero hregular, least_squares_zero hregular]

theorem reconstructs_of_fits (h : n < 2 ^ 31) : Reconstructs cell_values centroids adj := by
  intro grad use_limiter
  have hint : to_int n = n := to_int_of_lt h
  refine ⟨_, by rw [compute_view, hint, if_neg (by omega)], ?_⟩
  intro i
  refine ⟨least_squares cell_values centroids (adj.neighbours i) i, raw_gradient .., ?_⟩
  dsimp only
  rw [if_pos (Int.ofNat_lt.mpr i.isLt)]
  cases use_limiter with
  | false => rfl
  | true => exact limited_gradient ..

theorem fits_of_reconstructs (h : Reconstructs cell_values centroids adj) : n < 2 ^ 31 := by
  by_contra hlarge
  have hlast : n - 1 < n := by omega
  -- a view with something else than the raw gradient
  obtain ⟨g, hg, hcells⟩ := h
    (fun i => ⟨(least_squares cell_values centroids (adj.neighbours i) i).x + 1, 0, 0⟩) false
  obtain ⟨raw, hraw, hsame⟩ := hcells ⟨n - 1, hlast⟩
  rw [compute_view] at hg
  split at hg
  · cases hg
  · have hbeyond : ¬ (((n - 1 : Nat) : Nat) : Int) < to_int n := by
      have hbound := (fits_32.mp (fits_to_int n)).2
      omega
    have hkept := congrFun (Outcome.returned.inj hg) ⟨n - 1, hlast⟩
    rw [if_neg hbeyond] at hkept
    have hx := congrArg Vec3.x (hkept.trans (hsame.trans hraw.eq))
    simp at hx

end

theorem compute_sound_iff {K : Type} [Field K] [LinearOrder K] [IsStrictOrderedRing K] {n : Nat}
    (cell_values : Fin n → K) (centroids : Fin n → Vec3 K) (adj : Adjacency n) :
    Reconstructs cell_values centroids adj ↔ n < 2 ^ 31 :=
  ⟨fits_of_reconstructs, reconstructs_of_fits⟩

/-- No neighbours. -/
def Adjacency.empty (n : Nat) : Adjacency n where
  adj_offsets _ := 0
  adj_indices := []
  monotone _ _ _ := le_rfl
  inside := le_rfl

theorem reconstructs_one :
    Reconstructs (fun _ : Fin 1 => (5 : ℚ)) (fun _ => ⟨0, 0, 0⟩) (.empty 1) ↔ 1 < 2 ^ 31 :=
  compute_sound_iff _ _ _

theorem gradients_missing :
    ¬ Reconstructs (fun _ : Fin (2 ^ 32) => (5 : ℚ)) (fun _ => ⟨0, 0, 0⟩) (.empty _) := by
  intro h
  have hfits := fits_of_reconstructs h
  norm_num at hfits

end Axis.GradientReconstructor

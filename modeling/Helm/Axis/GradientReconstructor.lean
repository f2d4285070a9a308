import Helm.Framework.Segments

/-! # AXIS: gradient reconstruction

  `GradientReconstructor::compute` fits a gradient to the values of a cell
  and its neighbours by least squares, and may then limit it so that the
  reconstructed values stay between those of the cells.

  The second-order generator applies it to the coordinates of the cell
  centroids. Their gradients are known: the fit is exact and the limiter
  changes nothing, unless a cell has too few neighbours or its neighbours lie
  in a plane with it.

  Main result: `compute_coordinate`.
-/

namespace Axis

open Signed Segments

@[ext] structure Vec3 (K : Type) where
  x : K
  y : K
  z : K
  deriving DecidableEq

namespace GradientReconstructor

variable {K : Type} [Field K] [LinearOrder K] {n : Nat}

/-! ## Section 1: The functions -/

def SINGULAR_EPS : K := 1 / 10 ^ 30

/-- The normal matrix is symmetric; these are its entries from the diagonal
    on. -/
structure NormalMatrix (K : Type) where
  n00 : K
  n01 : K
  n02 : K
  n11 : K
  n12 : K
  n22 : K

def NormalMatrix.det (N : NormalMatrix K) : K :=
  N.n00 * (N.n11 * N.n22 - N.n12 * N.n12) - N.n01 * (N.n01 * N.n22 - N.n12 * N.n02) +
    N.n02 * (N.n01 * N.n12 - N.n11 * N.n02)

def solve_3x3_cramer (N : NormalMatrix K) (r : Vec3 K) : Option (Vec3 K) :=
  if |N.det| < SINGULAR_EPS then none
  else
    let inv_det := 1 / N.det
    some {
      x := inv_det * (r.x * (N.n11 * N.n22 - N.n12 * N.n12) - N.n01 * (r.y * N.n22 - N.n12 * r.z) +
        N.n02 * (r.y * N.n12 - N.n11 * r.z))
      y := inv_det * (N.n00 * (r.y * N.n22 - N.n12 * r.z) - r.x * (N.n01 * N.n22 - N.n12 * N.n02) +
        N.n02 * (N.n01 * r.z - r.y * N.n02))
      z := inv_det * (N.n00 * (N.n11 * r.z - r.y * N.n12) - N.n01 * (N.n01 * r.z - r.y * N.n02) +
        r.x * (N.n01 * N.n12 - N.n11 * N.n02)) }

section Cell

variable (cell_values : Fin n → K) (centroids : Fin n → Vec3 K) (nbrs : List (Fin n)) (i : Fin n)

def dx (j : Fin n) : K := (centroids j).x - (centroids i).x

def dy (j : Fin n) : K := (centroids j).y - (centroids i).y

def dz (j : Fin n) : K := (centroids j).z - (centroids i).z

/-- A sum over the neighbours. -/
def accumulated (f : Fin n → K) : K := (nbrs.map f).sum

def normal_matrix : NormalMatrix K where
  n00 := accumulated nbrs fun j => dx centroids i j * dx centroids i j
  n01 := accumulated nbrs fun j => dx centroids i j * dy centroids i j
  n02 := accumulated nbrs fun j => dx centroids i j * dz centroids i j
  n11 := accumulated nbrs fun j => dy centroids i j * dy centroids i j
  n12 := accumulated nbrs fun j => dy centroids i j * dz centroids i j
  n22 := accumulated nbrs fun j => dz centroids i j * dz centroids i j

def right_hand_side : Vec3 K where
  x := accumulated nbrs fun j => dx centroids i j * (cell_values j - cell_values i)
  y := accumulated nbrs fun j => dy centroids i j * (cell_values j - cell_values i)
  z := accumulated nbrs fun j => dz centroids i j * (cell_values j - cell_values i)

/-- Phase 1 for one cell. -/
def least_squares : Vec3 K :=
  if nbrs.length < 3 then ⟨0, 0, 0⟩
  else
    match solve_3x3_cramer (normal_matrix centroids nbrs i)
        (right_hand_side cell_values centroids nbrs i) with
    | some g => g
    | none => ⟨0, 0, 0⟩

def delta_f (grad : Vec3 K) (j : Fin n) : K :=
  grad.x * dx centroids i j + grad.y * dy centroids i j + grad.z * dz centroids i j

def val_min : K := nbrs.foldl (fun m j => min m (cell_values j)) (cell_values i)

def val_max : K := nbrs.foldl (fun m j => max m (cell_values j)) (cell_values i)

/-- The limiter after one more neighbour. -/
def limit_step (grad : Vec3 K) (phi : K) (j : Fin n) : K :=
  let delta := delta_f centroids i grad j
  if delta > 1 / 10 ^ 30 then
    min phi (min 1 ((val_max cell_values nbrs i - cell_values i) / delta))
  else if delta < -(1 / 10 ^ 30) then
    min phi (min 1 ((val_min cell_values nbrs i - cell_values i) / delta))
  else phi

/-- Phase 2 for one cell. -/
def apply_limiter (grad : Vec3 K) : Vec3 K :=
  if nbrs.length = 0 then grad
  else
    let phi := nbrs.foldl (limit_step cell_values centroids nbrs i grad) 1
    let phi := max 0 (min 1 phi)
    ⟨grad.x * phi, grad.y * phi, grad.z * phi⟩

end Cell

/-- `compute`. The cells are numbered by an `int`; those beyond keep the zeros
    of the new array. -/
def compute (cell_values : Fin n → K) (centroids : Fin n → Vec3 K) (adj : Fin n → List (Fin n))
    (use_limiter : Bool) : Outcome String (Fin n → Vec3 K) :=
  if to_int n < 0 then .undefined
  else .returned fun i =>
    if ((i.val : Nat) : Int) < to_int n then
      let grad := least_squares cell_values centroids (adj i) i
      if use_limiter then apply_limiter cell_values centroids (adj i) i grad else grad
    else ⟨0, 0, 0⟩

/-! ## Section 2: Gradients of coordinates -/

/-- The three coordinates. -/
inductive Axis3
  | x | y | z

namespace Axis3

def of (a : Axis3) (v : Vec3 K) : K :=
  match a with
  | x => v.x
  | y => v.y
  | z => v.z

/-- The direction of an axis. -/
def unit (a : Axis3) : Vec3 K :=
  match a with
  | x => ⟨1, 0, 0⟩
  | y => ⟨0, 1, 0⟩
  | z => ⟨0, 0, 1⟩

end Axis3

variable (centroids : Fin n → Vec3 K) (adj : Fin n → List (Fin n))

/-- The cells that have a gradient: enough neighbours, and not in one plane. -/
def HasGradient (i : Fin n) : Prop :=
  ((i.val : Nat) : Int) < to_int n ∧ 3 ≤ (adj i).length ∧
    SINGULAR_EPS ≤ |(normal_matrix centroids (adj i) i).det|

instance (i : Fin n) : Decidable (HasGradient centroids adj i) := by
  unfold HasGradient
  infer_instance

variable [IsStrictOrderedRing K]

theorem singular_eps_pos : (0 : K) < SINGULAR_EPS := by
  unfold SINGULAR_EPS
  positivity

omit [LinearOrder K] [IsStrictOrderedRing K] in
theorem accumulated_comm (nbrs : List (Fin n)) (f g : Fin n → K) :
    accumulated nbrs (fun j => f j * g j) = accumulated nbrs fun j => g j * f j :=
  congrArg (accumulated nbrs) (funext fun j => mul_comm (f j) (g j))

/-- The right-hand side of a coordinate is a column of the normal matrix. -/
def column (N : NormalMatrix K) (a : Axis3) : Vec3 K :=
  match a with
  | .x => ⟨N.n00, N.n01, N.n02⟩
  | .y => ⟨N.n01, N.n11, N.n12⟩
  | .z => ⟨N.n02, N.n12, N.n22⟩

omit [LinearOrder K] [IsStrictOrderedRing K] in
theorem right_hand_side_coordinate (nbrs : List (Fin n)) (i : Fin n) (a : Axis3) :
    right_hand_side (fun j => a.of (centroids j)) centroids nbrs i =
      column (normal_matrix centroids nbrs i) a := by
  cases a with
  | x =>
    apply Vec3.ext
    · rfl
    · exact accumulated_comm nbrs _ _
    · exact accumulated_comm nbrs _ _
  | y =>
    apply Vec3.ext
    · rfl
    · rfl
    · exact accumulated_comm nbrs _ _
  | z => rfl

/-- Cramer's rule for a column of the matrix gives a unit vector. -/
theorem solve_column {N : NormalMatrix K} (h : SINGULAR_EPS ≤ |N.det|) (a : Axis3) :
    solve_3x3_cramer N (column N a) = some a.unit := by
  have hdet : N.det ≠ 0 := by
    intro hzero
    rw [hzero, abs_zero] at h
    exact absurd (lt_of_lt_of_le singular_eps_pos h) (lt_irrefl 0)
  have hinv : 1 / N.det * N.det = 1 := one_div_mul_cancel hdet
  rw [solve_3x3_cramer, if_neg (not_lt.mpr h)]
  apply congrArg some
  -- one component is the determinant, the others have two equal columns
  cases a with
  | x =>
    apply Vec3.ext
    · exact hinv
    · show 1 / N.det * _ = 0
      rw [column]
      ring
    · show 1 / N.det * _ = 0
      rw [column]
      ring
  | y =>
    apply Vec3.ext
    · show 1 / N.det * _ = 0
      rw [column]
      ring
    · apply (congrArg (1 / N.det * ·) _).trans hinv
      rw [column, NormalMatrix.det]
    · show 1 / N.det * _ = 0
      rw [column]
      ring
  | z =>
    apply Vec3.ext
    · show 1 / N.det * _ = 0
      rw [column]
      ring
    · show 1 / N.det * _ = 0
      rw [column]
      ring
    · apply (congrArg (1 / N.det * ·) _).trans hinv
      rw [column, NormalMatrix.det]

theorem least_squares_coordinate (nbrs : List (Fin n)) (i : Fin n) (a : Axis3) :
    least_squares (fun j => a.of (centroids j)) centroids nbrs i =
      if 3 ≤ nbrs.length ∧ SINGULAR_EPS ≤ |(normal_matrix centroids nbrs i).det| then a.unit
      else ⟨0, 0, 0⟩ := by
  rw [least_squares, right_hand_side_coordinate]
  by_cases hlength : 3 ≤ nbrs.length
  · rw [if_neg (by omega)]
    by_cases hdet : SINGULAR_EPS ≤ |(normal_matrix centroids nbrs i).det|
    · rw [solve_column hdet, if_pos ⟨hlength, hdet⟩]
    · rw [solve_3x3_cramer, if_pos (not_le.mp hdet), if_neg (fun h => hdet h.2)]
  · rw [if_pos (by omega), if_neg (fun h => hlength h.1)]

/-! ## Section 3: The limiter -/

section Limiter

variable {cell_values : Fin n → K} {centroids : Fin n → Vec3 K} {nbrs : List (Fin n)} {i : Fin n}

omit [Field K] [IsStrictOrderedRing K] in
theorem le_val_max {j : Fin n} (hj : j ∈ nbrs) : cell_values j ≤ val_max cell_values nbrs i := by
  have hfold : ∀ (l : List (Fin n)) (m : K), m ≤ l.foldl (fun m j => max m (cell_values j)) m ∧
      ∀ j ∈ l, cell_values j ≤ l.foldl (fun m j => max m (cell_values j)) m := by
    intro l
    induction l with
    | nil => exact fun m => ⟨le_rfl, fun _ h => absurd h List.not_mem_nil⟩
    | cons a l ih =>
      intro m
      obtain ⟨hstart, hall⟩ := ih (max m (cell_values a))
      refine ⟨(le_max_left _ _).trans hstart, ?_⟩
      intro j hj
      obtain rfl | hrest := List.mem_cons.mp hj
      · exact (le_max_right _ _).trans hstart
      · exact hall j hrest
  exact (hfold nbrs (cell_values i)).2 j hj

omit [Field K] [IsStrictOrderedRing K] in
theorem val_min_le {j : Fin n} (hj : j ∈ nbrs) : val_min cell_values nbrs i ≤ cell_values j := by
  have hfold : ∀ (l : List (Fin n)) (m : K), l.foldl (fun m j => min m (cell_values j)) m ≤ m ∧
      ∀ j ∈ l, l.foldl (fun m j => min m (cell_values j)) m ≤ cell_values j := by
    intro l
    induction l with
    | nil => exact fun m => ⟨le_rfl, fun _ h => absurd h List.not_mem_nil⟩
    | cons a l ih =>
      intro m
      obtain ⟨hstart, hall⟩ := ih (min m (cell_values a))
      refine ⟨hstart.trans (min_le_left _ _), ?_⟩
      intro j hj
      obtain rfl | hrest := List.mem_cons.mp hj
      · exact hstart.trans (min_le_right _ _)
      · exact hall j hrest
  exact (hfold nbrs (cell_values i)).2 j hj

theorem limit_step_of_exact {grad : Vec3 K} {j : Fin n} (hj : j ∈ nbrs)
    (h : delta_f centroids i grad j = cell_values j - cell_values i ∨
      delta_f centroids i grad j = 0) :
    limit_step cell_values centroids nbrs i grad 1 j = 1 := by
  have htiny : (0 : K) < 1 / 10 ^ 30 := by positivity
  unfold limit_step
  dsimp only
  split
  · next hpos =>
    have hdelta := htiny.trans hpos
    obtain h | h := h
    · apply min_eq_left
      apply le_min le_rfl
      rw [le_div_iff₀ hdelta, one_mul, h]
      exact sub_le_sub_right (le_val_max hj) _
    · rw [h] at hdelta
      exact absurd hdelta (lt_irrefl 0)
  · split
    · next hneg =>
      have hdelta : delta_f centroids i grad j < 0 := hneg.trans (neg_lt_zero.mpr htiny)
      obtain h | h := h
      · apply min_eq_left
        apply le_min le_rfl
        rw [le_div_iff_of_neg hdelta, one_mul, h]
        exact sub_le_sub_right (val_min_le hj) _
      · rw [h] at hdelta
        exact absurd hdelta (lt_irrefl 0)
    · rfl

theorem apply_limiter_of_exact {grad : Vec3 K}
    (h : ∀ j ∈ nbrs, delta_f centroids i grad j = cell_values j - cell_values i ∨
      delta_f centroids i grad j = 0) :
    apply_limiter cell_values centroids nbrs i grad = grad := by
  have hphi : ∀ l ⊆ nbrs, l.foldl (limit_step cell_values centroids nbrs i grad) 1 = 1 := by
    intro l
    induction l with
    | nil => exact fun _ => rfl
    | cons j l ih =>
      intro hsub
      rw [List.foldl_cons, limit_step_of_exact (hsub List.mem_cons_self) (h j (hsub List.mem_cons_self))]
      exact ih fun k hk => hsub (List.mem_cons_of_mem j hk)
  unfold apply_limiter
  split
  · rfl
  · rw [hphi nbrs (List.Subset.refl _)]
    simp

end Limiter

theorem compute_coordinate {use_limiter : Bool} {grad : Fin n → Vec3 K} (a : Axis3)
    (h : compute (fun j => a.of (centroids j)) centroids adj use_limiter = .returned grad)
    (i : Fin n) : grad i = if HasGradient centroids adj i then a.unit else ⟨0, 0, 0⟩ := by
  rw [compute] at h
  split at h
  · cases h
  · rw [← congrFun (Outcome.returned.inj h) i]
    by_cases hi : ((i.val : Nat) : Int) < to_int n
    · rw [if_pos hi, least_squares_coordinate]
      by_cases hgrad : 3 ≤ (adj i).length ∧
          SINGULAR_EPS ≤ |(normal_matrix centroids (adj i) i).det|
      · -- the fit is exact, so that there is nothing to limit
        have hexact : ∀ j ∈ adj i, delta_f centroids i a.unit j =
            a.of (centroids j) - a.of (centroids i) ∨ delta_f centroids i a.unit j = 0 := by
          intro j _
          apply Or.inl
          cases a with
          | x => simp [delta_f, Axis3.unit, Axis3.of, dx]
          | y => simp [delta_f, Axis3.unit, Axis3.of, dy]
          | z => simp [delta_f, Axis3.unit, Axis3.of, dz]
        rw [if_pos hgrad, if_pos (show HasGradient centroids adj i from ⟨hi, hgrad⟩)]
        dsimp only
        rw [apply_limiter_of_exact hexact, ite_self]
      · have hzero : ∀ j ∈ adj i, delta_f centroids i ⟨0, 0, 0⟩ j =
            a.of (centroids j) - a.of (centroids i) ∨ delta_f centroids i ⟨0, 0, 0⟩ j = 0 :=
          fun j _ => Or.inr (by simp [delta_f])
        rw [if_neg hgrad, if_neg (fun h => hgrad h.2 : ¬ HasGradient centroids adj i)]
        dsimp only
        rw [apply_limiter_of_exact hzero, ite_self]
    · rw [if_neg hi, if_neg fun hgrad => hi hgrad.1]

end GradientReconstructor

end Axis

import Mathlib

/-! # Piecewise linear interpolation on a uniform grid

  The nodes are the multiples of `h` and `f k` is the value at node `k`; a
  position is a whole number of ticks. A cell determines the interpolant at
  both of its ends (`interpolant_eq`), so that one tick changes it by the
  slope of one cell. What holds over longer distances follows by induction on
  the ticks, however many cells lie between.
-/

namespace Interpolant

variable {K : Type*} [Field K]

/-- From `a` at weight zero to `b` at weight one. -/
def blend (a b alpha : K) : K := a * (1 - alpha) + b * alpha

def interpolant (f : Int → K) (h x : Int) : K :=
  blend (f (x / h)) (f (x / h + 1)) (((x % h : Int) : K) / (h : K))

/-- The node next to `x`, the later one halfway between two. -/
def nearest (h x : Int) : Int := if 2 * (x % h) < h then x / h else x / h + 1

section Grid

variable {h x y : Int}

theorem ediv_unique (hpos : 0 < h) {k : Int} (hlo : k * h ≤ x) (hhi : x < (k + 1) * h) :
    x / h = k := by
  apply le_antisymm
  · exact Int.lt_add_one_iff.mp (Int.ediv_lt_of_lt_mul hpos hhi)
  · exact Int.le_ediv_of_mul_le hpos hlo

theorem cell_bounds (hpos : 0 < h) (x : Int) : x / h * h ≤ x ∧ x < (x / h + 1) * h :=
  ⟨Int.ediv_mul_le x hpos.ne', Int.lt_ediv_add_one_mul_self x hpos⟩

theorem nearest_le (hpos : 0 < h) (x j : Int) : |x - nearest h x * h| ≤ |x - j * h| := by
  have hsplit := Int.emod_add_ediv_mul x h
  have hr0 := Int.emod_nonneg x hpos.ne'
  have hr1 := Int.emod_lt_of_pos x hpos
  -- the nodes on the other side of the cell are further away than its ends
  have hside : j * h ≤ x / h * h ∨ x / h * h + h ≤ j * h := by
    obtain hj | hj := le_or_gt j (x / h)
    · exact .inl (mul_le_mul_of_nonneg_right hj hpos.le)
    · right
      have := mul_le_mul_of_nonneg_right (show x / h + 1 ≤ j by omega) hpos.le
      rwa [add_mul, one_mul] at this
  unfold nearest
  split
  · rw [abs_of_nonneg (by omega)]
    apply le_abs.mpr
    omega
  · rw [add_mul, one_mul, abs_of_nonpos (by omega)]
    apply le_abs.mpr
    omega

end Grid

section Values

variable {f : Int → K} {h x y : Int}

theorem blend_sub (a b alpha beta : K) :
    blend a b alpha - blend a b beta = (b - a) * (alpha - beta) := by
  unfold blend
  ring

@[simp] theorem blend_zero (a b : K) : blend a b 0 = a := by simp [blend]

@[simp] theorem blend_one (a b : K) : blend a b 1 = b := by simp [blend]

variable [LinearOrder K] [IsStrictOrderedRing K]

/-- A cell determines the interpolant at both of its ends. -/
theorem interpolant_eq (hpos : 0 < h) {k : Int} (hlo : k * h ≤ x) (hhi : x ≤ (k + 1) * h) :
    interpolant f h x = blend (f k) (f (k + 1)) (((x - k * h : Int) : K) / (h : K)) := by
  have hh : (h : K) ≠ 0 := by exact_mod_cast hpos.ne'
  obtain hlt | rfl := lt_or_eq_of_le hhi
  · have hk := ediv_unique hpos hlo hlt
    have hrem : x % h = x - k * h := by rw [Int.emod_def, hk, mul_comm]
    rw [interpolant, hk, hrem]
  · -- the right end is the left end of the next cell
    have hk : (k + 1) * h / h = k + 1 := Int.mul_ediv_cancel _ hpos.ne'
    have hlast : (k + 1) * h - k * h = h := by ring
    rw [interpolant, hk, Int.mul_emod_left, hlast, div_self hh]
    simp

theorem interpolant_node (hpos : 0 < h) (k : Int) : interpolant f h (k * h) = f k := by
  rw [interpolant_eq hpos le_rfl (mul_le_mul_of_nonneg_right (by omega) hpos.le)]
  simp

/-- One tick. -/
theorem interpolant_succ (hpos : 0 < h) (x : Int) :
    interpolant f h (x + 1) - interpolant f h x = (f (x / h + 1) - f (x / h)) / (h : K) := by
  obtain ⟨hlo, hhi⟩ := cell_bounds hpos x
  rw [interpolant_eq hpos (show x / h * h ≤ x + 1 by omega) (by omega),
    interpolant_eq hpos hlo hhi.le, blend_sub, ← sub_div]
  push_cast
  ring

theorem weight_bounds (hpos : 0 < h) (x : Int) :
    0 ≤ ((x % h : Int) : K) / (h : K) ∧ ((x % h : Int) : K) / (h : K) ≤ 1 := by
  have hh : (0 : K) < (h : K) := by exact_mod_cast hpos
  constructor
  · apply div_nonneg _ hh.le
    exact_mod_cast Int.emod_nonneg x hpos.ne'
  · rw [div_le_one hh]
    exact_mod_cast (Int.emod_lt_of_pos x hpos).le

theorem blend_mem {a b alpha : K} (h0 : 0 ≤ alpha) (h1 : alpha ≤ 1) :
    min a b ≤ blend a b alpha ∧ blend a b alpha ≤ max a b := by
  have hcomp : 0 ≤ 1 - alpha := sub_nonneg.mpr h1
  have hsum (c : K) : c = c * (1 - alpha) + c * alpha := by ring
  constructor
  · rw [hsum (min a b)]
    exact add_le_add (mul_le_mul_of_nonneg_right (min_le_left a b) hcomp)
      (mul_le_mul_of_nonneg_right (min_le_right a b) h0)
  · rw [hsum (max a b)]
    exact add_le_add (mul_le_mul_of_nonneg_right (le_max_left a b) hcomp)
      (mul_le_mul_of_nonneg_right (le_max_right a b) h0)

theorem interpolant_mem (hpos : 0 < h) (x : Int) :
    min (f (x / h)) (f (x / h + 1)) ≤ interpolant f h x ∧
      interpolant f h x ≤ max (f (x / h)) (f (x / h + 1)) := by
  obtain ⟨h0, h1⟩ := weight_bounds (K := K) hpos x
  exact blend_mem h0 h1

/-- **Steepness.** The interpolant is no steeper than the cells that it passes
    on the way from `x` to `y`. -/
theorem interpolant_steepness (hpos : 0 < h) (hxy : x ≤ y) {L : K}
    (hcell : ∀ k, k * h < y → x < (k + 1) * h → |f (k + 1) - f k| ≤ L) :
    |interpolant f h y - interpolant f h x| ≤ L / (h : K) * ((y - x : Int) : K) := by
  have hh : (0 : K) < (h : K) := by exact_mod_cast hpos
  revert hcell
  -- tick by tick
  induction y, hxy using Int.leInduction with
  | base => simp
  | succ y hxy ih =>
    intro hcell
    obtain ⟨hlo, hhi⟩ := cell_bounds hpos y
    have hbefore := ih fun k hk hk' => hcell k (by omega) hk'
    have htick : |interpolant f h (y + 1) - interpolant f h y| ≤ L / (h : K) := by
      rw [interpolant_succ hpos, abs_div, abs_of_pos hh]
      exact div_le_div_of_nonneg_right (hcell _ (by omega) (by omega)) hh.le
    calc |interpolant f h (y + 1) - interpolant f h x|
        ≤ |interpolant f h (y + 1) - interpolant f h y|
          + |interpolant f h y - interpolant f h x| := abs_sub_le _ _ _
      _ ≤ L / (h : K) + L / (h : K) * ((y - x : Int) : K) := add_le_add htick hbefore
      _ = L / (h : K) * ((y + 1 - x : Int) : K) := by push_cast; ring

end Values

end Interpolant

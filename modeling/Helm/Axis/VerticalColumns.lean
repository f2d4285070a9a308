import Helm.Axis.VerticalRegridder
import Mathlib.Tactic.LinearCombination
import Mathlib.Tactic.Linarith

/-! # AXIS: what the vertical splines give

  The slopes that the solver makes come from the second differences of the
  values. The evaluation takes them for first derivatives.

  * **Order**: `order_safe_iff`, when a call is defined, does not depend on the
    order of the levels, and takes the source values at the source levels.
  * **Linear columns**: `linear_reproduced_iff`, at which levels a column that
    is affine in the level is reproduced.
-/

namespace Axis.VerticalRegridder

open Signed Segments

/-! ## Section 1: One spline -/

section
variable {K : Type} [Field K] [LinearOrder K] (sinh cosh : K → K) {n : Nat} {x x' y y' : Nat → K}

theorem spline_value_congr (hlow : 2 ≤ n) (hcap : n ≤ 256) (hx : ∀ i < n, x i = x' i)
    (hy : ∀ i < n, y i = y' i) (tension target : K) :
    spline_value sinh cosh x y n tension target = spline_value sinh cosh x' y' n tension target := by
  have hlevels : (List.range n).map x = (List.range n).map x' :=
    List.map_congr_left fun i hi => hx i (List.mem_range.mp hi)
  have hvalues : (List.range n).map y = (List.range n).map y' :=
    List.map_congr_left fun i hi => hy i (List.mem_range.mp hi)
  have hslopes : (List.range n).map (slope x y n) = (List.range n).map (slope x' y' n) := by
    have hblank : ((List.range n).map x).length = n := by simp
    have hsolved := solve_column_spline_eq (x := x) (y := y) hlow hblank hblank
    rw [hlevels, hvalues, solve_column_spline_eq hlow (by simp) (by simp)] at hsolved
    exact (Outcome.returned.inj hsolved).symm
  have hvalue := evaluate_target_eq sinh cosh (x := x) (y := y) hlow hcap tension target
  rw [hlevels, hvalues, hslopes, evaluate_target_eq sinh cosh hlow hcap] at hvalue
  exact (Outcome.returned.inj hvalue).symm

theorem spline_value_constant (hlow : 2 ≤ n) {level : K} (hx : ∀ i < n, x i = level)
    (tension target : K) :
    spline_value sinh cosh x y n tension target = if target ≤ level then y 0 else y (n - 2) := by
  have hle := interval_le x (n - 2) target
  have hidx : interval x (n - 2) target = if target ≤ level then 0 else n - 2 := by
    split
    · next hbelow =>
      by_contra hne
      have hpassed : x (0 + 1) < target := lt_of_lt_interval (Nat.pos_of_ne_zero hne)
      rw [hx 1 (by omega)] at hpassed
      exact absurd hbelow (not_le.mpr hpassed)
    · next habove =>
      rcases interval_end x (n - 2) target with hlast | hstop
      · exact hlast
      · rw [hx _ (by omega)] at hstop
        exact absurd hstop habove
  unfold spline_value evaluate_spline
  dsimp only
  rw [hx _ (by omega), hx _ (by omega), sub_self, if_pos (le_refl _), hidx]
  split <;> rfl

variable [IsStrictOrderedRing K]

theorem evaluate_spline_cubic {x1 x2 : K} (hlt : x1 < x2) (target y1 y2 d1 d2 : K) :
    evaluate_spline sinh cosh target x1 x2 y1 y2 d1 d2 0 =
      let t := (target - x1) / (x2 - x1)
      y1 * ((1 + 2 * t) * (1 - t) * (1 - t)) + d1 * (x2 - x1) * (t * (1 - t) * (1 - t)) +
        y2 * (t * t * (3 - 2 * t)) + d2 * (x2 - x1) * (t * t * (t - 1)) := by
  unfold evaluate_spline
  dsimp only
  rw [if_neg (not_le.mpr (sub_pos.mpr hlt)), if_pos (le_refl _)]

/-- Levels in strictly ascending order. -/
def Ascending (x : Nat → K) (n : Nat) : Prop := ∀ i, i + 1 < n → x i < x (i + 1)

omit [Field K] [IsStrictOrderedRing K] in
theorem Ascending.lt (h : Ascending x n) {i k : Nat} (hik : i < k) (hk : k < n) : x i < x k := by
  induction k, hik using Nat.le_induction with
  | base => exact h i hk
  | succ k hle ih => exact (ih (by omega)).trans (h k hk)

omit [Field K] [IsStrictOrderedRing K] in
theorem interval_of_level (h : Ascending x n) {k : Nat} (hk : k < n) (hlow : 2 ≤ n) :
    k = interval x (n - 2) (x k) ∨ k = interval x (n - 2) (x k) + 1 := by
  have hle := interval_le x (n - 2) (x k)
  have habove : interval x (n - 2) (x k) ≤ k := by
    by_contra hlt
    have hpassed : x (k + 1) < x k :=
      lt_of_lt_interval (show k < interval x (n - 2) (x k) by omega)
    exact lt_asymm hpassed (h k (by omega))
  have hbelow : k ≤ interval x (n - 2) (x k) + 1 := by
    by_contra hlt
    rcases interval_end x (n - 2) (x k) with hlast | hstop
    · omega
    · exact absurd (h.lt (show interval x (n - 2) (x k) + 1 < k by omega) hk) (not_lt.mpr hstop)
  omega

/-- **At a level of the column** the spline takes its value. -/
theorem spline_value_level (h : Ascending x n) {k : Nat} (hk : k < n) (hlow : 2 ≤ n) :
    spline_value sinh cosh x y n 0 (x k) = y k := by
  have hle := interval_le x (n - 2) (x k)
  have hlt : x (interval x (n - 2) (x k)) < x (interval x (n - 2) (x k) + 1) := h _ (by omega)
  have hne : x (interval x (n - 2) (x k) + 1) - x (interval x (n - 2) (x k)) ≠ 0 :=
    (sub_pos.mpr hlt).ne'
  unfold spline_value
  dsimp only
  rw [evaluate_spline_cubic sinh cosh hlt]
  dsimp only
  rcases interval_of_level h hk hlow with heq | heq
  · -- the lower end, where the parameter is 0
    rw [← heq, sub_self, zero_div]
    ring
  · -- the upper end, where it is 1
    rw [← heq] at hne ⊢
    rw [div_self hne]
    ring

omit [Field K] [IsStrictOrderedRing K] in
theorem interval_between (h : Ascending x n) {k : Nat} (hk : k + 1 < n) {target : K}
    (hlow : x k < target) (hhigh : target ≤ x (k + 1)) : interval x (n - 2) target = k := by
  have hle := interval_le x (n - 2) target
  rcases Nat.lt_trichotomy (interval x (n - 2) target) k with hlt | heq | hgt
  · rcases interval_end x (n - 2) target with hlast | hstop
    · omega
    · -- the search does not stop below
      have hbelow : x (interval x (n - 2) target + 1) ≤ x k := by
        rcases Nat.lt_or_eq_of_le (show interval x (n - 2) target + 1 ≤ k from hlt) with h' | h'
        · exact (h.lt h' (by omega)).le
        · rw [h']
      exact absurd (hstop.trans hbelow) (not_le.mpr hlow)
  · exact heq
  · have hpassed : x (k + 1) < target := lt_of_lt_interval hgt
    exact absurd hhigh (not_le.mpr hpassed)

/-! ### Columns that are affine in the level -/

variable {a s : K}

theorem forward_affine (h : Ascending x n) (hy : ∀ i < n, y i = a + s * x i) {i : Nat}
    (hi : i + 1 < n) : (forward x y i).1 = 0 := by
  induction i with
  | zero => rfl
  | succ i ih =>
    have hlow : 0 < x (i + 1) - x i := sub_pos.mpr (h i (by omega))
    have hhigh : 0 < x (i + 2) - x (i + 1) := sub_pos.mpr (h (i + 1) hi)
    have hfirst : (y (i + 1) - y i) / (x (i + 1) - x i) = s := by
      rw [hy i (by omega), hy (i + 1) (by omega), div_eq_iff hlow.ne']
      ring
    have hsecond : (y (i + 2) - y (i + 1)) / (x (i + 2) - x (i + 1)) = s := by
      rw [hy (i + 1) (by omega), hy (i + 2) hi, div_eq_iff hhigh.ne']
      ring
    rw [forward, eliminated]
    dsimp only
    rw [if_neg (not_le.mpr hlow), if_neg (not_le.mpr hhigh), hfirst, hsecond, ih (by omega),
      sub_self, mul_zero, mul_zero, sub_zero, zero_div]

theorem backward_affine (h : Ascending x n) (hy : ∀ i < n, y i = a + s * x i) (hmany : 2 ≤ n)
    (k : Nat) : backward x y n k = 0 := by
  induction k with
  | zero => rfl
  | succ k ih => rw [backward, ih, mul_zero, sub_zero, forward_affine h hy (by omega)]

/-- **The slopes** of an affine column are right for two levels only. -/
theorem slope_affine (h : Ascending x n) (hy : ∀ i < n, y i = a + s * x i) (hmany : 2 ≤ n)
    (i : Nat) : slope x y n i = if n = 2 then s else 0 := by
  unfold slope
  split
  · have hlt : 0 < x 1 - x 0 := sub_pos.mpr (h 0 (by omega))
    rw [hy 0 (by omega), hy 1 (by omega), div_eq_iff hlt.ne']
    ring
  · exact backward_affine h hy hmany _

theorem spline_value_affine (h : Ascending x n) (hy : ∀ i < n, y i = a + s * x i) (hmany : 2 ≤ n)
    (target : K) :
    let idx := interval x (n - 2) target
    let dx := x (idx + 1) - x idx
    let t := (target - x idx) / dx
    0 < dx ∧ spline_value sinh cosh x y n 0 target =
      a + s * target - if n = 2 then 0 else s * dx * (t * (2 * t - 1) * (t - 1)) := by
  intro idx dx t
  have hle : idx ≤ n - 2 := interval_le x (n - 2) target
  have hlt : x idx < x (idx + 1) := h idx (by omega)
  have hpos : 0 < dx := sub_pos.mpr hlt
  have htarget : target = x idx + t * dx := by
    show target = x idx + (target - x idx) / dx * dx
    rw [div_mul_cancel₀ _ hpos.ne']
    ring
  refine ⟨hpos, ?_⟩
  show evaluate_spline sinh cosh target (x idx) (x (idx + 1)) (y idx) (y (idx + 1))
    (slope x y n idx) (slope x y n (idx + 1)) 0 = _
  rw [evaluate_spline_cubic sinh cosh hlt]
  show y idx * ((1 + 2 * t) * (1 - t) * (1 - t)) + slope x y n idx * dx * (t * (1 - t) * (1 - t)) +
    y (idx + 1) * (t * t * (3 - 2 * t)) + slope x y n (idx + 1) * dx * (t * t * (t - 1)) = _
  have hnext : x (idx + 1) = x idx + dx := by
    show x (idx + 1) = x idx + (x (idx + 1) - x idx)
    ring
  rw [slope_affine h hy hmany, slope_affine h hy hmany, hy idx (by omega), hy (idx + 1) (by omega),
    hnext]
  generalize dx = dx' at *
  split
  · linear_combination -s * htarget
  · linear_combination -s * htarget

omit [LinearOrder K] [IsStrictOrderedRing K] in
theorem gap_eq_zero_iff [NeZero (2 : K)] {x1 x2 target : K} (hne : x2 - x1 ≠ 0) :
    (target - x1) / (x2 - x1) * (2 * ((target - x1) / (x2 - x1)) - 1) *
        ((target - x1) / (x2 - x1) - 1) = 0 ↔
      target = x1 ∨ 2 * target = x1 + x2 ∨ target = x2 := by
  rw [mul_eq_zero, mul_eq_zero, or_assoc, div_eq_zero_iff, or_iff_left hne, sub_eq_zero]
  have hhalf : 2 * ((target - x1) / (x2 - x1)) - 1 = 0 ↔ 2 * target = x1 + x2 := by
    rw [sub_eq_zero, mul_div_assoc', div_eq_one_iff_eq hne]
    constructor
    · intro h
      linear_combination h
    · intro h
      linear_combination h
  have hend : (target - x1) / (x2 - x1) - 1 = 0 ↔ target = x2 := by
    rw [sub_eq_zero, div_eq_one_iff_eq hne, sub_left_inj]
  rw [hhalf, hend]

section
local instance matched_two : Nat.AtLeastTwo 2 := inferInstance

/-- At a level of the column, or half-way between two of them. -/
def Matched (x : Nat → K) (n : Nat) (target : K) : Prop :=
  (∃ k < n, target = x k) ∨ ∃ k, k + 1 < n ∧ 2 * target = x k + x (k + 1)

end

/-- **An affine column** of three levels or more is reproduced at its levels and
    half-way between them. -/
theorem spline_value_affine_iff (h : Ascending x n) (hy : ∀ i < n, y i = a + s * x i)
    (hmany : 2 ≤ n) (target : K) :
    spline_value sinh cosh x y n 0 target = a + s * target ↔
      n = 2 ∨ s = 0 ∨ Matched x n target := by
  obtain ⟨hpos, hvalue⟩ := spline_value_affine sinh cosh h hy hmany target
  have hle := interval_le x (n - 2) target
  rw [hvalue, sub_eq_self]
  split
  · next htwo => exact iff_of_true rfl (.inl htwo)
  next hthree =>
  rw [mul_eq_zero, mul_eq_zero, or_iff_left hpos.ne', gap_eq_zero_iff hpos.ne', or_iff_right hthree]
  apply or_congr_right
  constructor
  · rintro (hstart | hhalf | hend)
    · exact .inl ⟨_, by omega, hstart⟩
    · exact .inr ⟨_, by omega, hhalf⟩
    · exact .inl ⟨_, by omega, hend⟩
  · rintro (⟨k, hk, rfl⟩ | ⟨k, hk, hhalf⟩)
    · rcases interval_of_level h hk hmany with heq | heq
      · exact .inl (congrArg x heq)
      · exact .inr (.inr (congrArg x heq))
    · -- the half is in the interval between the two
      have hstep := h k hk
      have hidx : interval x (n - 2) target = k :=
        interval_between h hk (by linarith) (by linarith)
      rw [hidx]
      exact .inr (.inl hhalf)

end

/-! ## Section 2: The order of the levels -/

section
variable {K : Type} [LinearOrder K] {n : Nat} {x : Nat → K}

/-- Levels in strictly descending order. -/
def Descending (x : Nat → K) (n : Nat) : Prop := ∀ i, i + 1 < n → x (i + 1) < x i

theorem Descending.turned (h : Descending x n) : Ascending (fun i => x (n - 1 - i)) n := by
  intro i hi
  show x (n - 1 - i) < x (n - 1 - (i + 1))
  rw [show n - 1 - i = n - 1 - (i + 1) + 1 by omega]
  exact h _ (by omega)

theorem Descending.lt (h : Descending x n) {i k : Nat} (hik : i < k) (hk : k < n) : x k < x i := by
  have hturned := h.turned.lt (show n - 1 - k < n - 1 - i by omega) (by omega)
  rwa [show n - 1 - (n - 1 - k) = k by omega, show n - 1 - (n - 1 - i) = i by omega] at hturned

/-- Levels listed in strictly ascending or descending order. -/
def StrictlyListed (x : Nat → K) (n : Nat) : Prop := Ascending x n ∨ Descending x n

theorem StrictlyListed.ascending (h : StrictlyListed x n) :
    Ascending (fun i => x (raw_index x n i)) n := by
  unfold raw_index descending
  rcases h with hup | hdown
  · rw [decide_eq_false]
    · exact hup
    · rintro ⟨hmany, hlt⟩
      exact lt_asymm hlt (hup.lt (by omega) (by omega))
  · rcases Nat.lt_or_ge 1 n with hmany | hfew
    · rw [decide_eq_true ⟨hmany, hdown.lt (by omega) (by omega)⟩]
      exact hdown.turned
    · intro i hi
      omega

theorem exists_raw_index {k : Nat} (hk : k < n) : ∃ i < n, raw_index x n i = k := by
  obtain ⟨i, hi, heq⟩ := List.mem_map.mp (mem_raw_indices (t := x).mpr hk)
  exact ⟨i, List.mem_range.mp hi, heq⟩

/-- Levels that are listed in ascending or descending order. -/
def Listed (x : Nat → K) (n : Nat) : Prop :=
  (∀ i k, i ≤ k → k < n → x i ≤ x k) ∨ ∀ i k, i ≤ k → k < n → x k ≤ x i

theorem matched_raw_index {K : Type} [Field K] [LinearOrder K] {x : Nat → K} {target : K} :
    Matched (fun i => x (raw_index x n i)) n target ↔ Matched x n target := by
  unfold raw_index
  cases descending x n with
  | false => exact Iff.rfl
  | true =>
    simp only [if_true]
    constructor
    · rintro (⟨k, hk, heq⟩ | ⟨k, hk, heq⟩)
      · exact .inl ⟨n - 1 - k, by omega, heq⟩
      · refine .inr ⟨n - 2 - k, by omega, ?_⟩
        dsimp only at heq
        rw [show n - 1 - k = n - 2 - k + 1 by omega, show n - 1 - (k + 1) = n - 2 - k by omega] at heq
        rw [heq, add_comm]
    · rintro (⟨k, hk, heq⟩ | ⟨k, hk, heq⟩)
      · refine .inl ⟨n - 1 - k, by omega, ?_⟩
        dsimp only
        rw [heq, show n - 1 - (n - 1 - k) = k by omega]
      · refine .inr ⟨n - 2 - k, by omega, ?_⟩
        dsimp only
        rw [heq, show n - 1 - (n - 2 - k) = k + 1 by omega,
          show n - 1 - (n - 2 - k + 1) = k by omega, add_comm]

theorem Listed.constant (h : Listed x n) (hends : x 0 = x (n - 1)) : ∀ k < n, x k = x 0 := by
  intro k hk
  rcases h with hup | hdown
  · exact le_antisymm (hends ▸ hup k (n - 1) (by omega) (by omega)) (hup 0 k (Nat.zero_le k) hk)
  · exact le_antisymm (hdown 0 k (Nat.zero_le k) hk) (hends ▸ hdown k (n - 1) (by omega) (by omega))

/-- **Turning the levels round** is undone if the first and the last differ. -/
theorem raw_index_turned (hne : x 0 ≠ x (n - 1)) {i : Nat} (hi : i < n) :
    n - 1 - raw_index (fun k => x (n - 1 - k)) n i = raw_index x n i := by
  have hmany : 1 < n := by
    by_contra hfew
    exact hne (by rw [show n - 1 = 0 by omega])
  unfold raw_index descending
  simp only [Nat.sub_zero, Nat.sub_self]
  rcases lt_or_gt_of_ne hne with hup | hdown
  · rw [decide_eq_true ⟨hmany, hup⟩, decide_eq_false (fun h => lt_asymm hup h.2), if_pos rfl,
      if_neg Bool.false_ne_true]
    omega
  · rw [decide_eq_false (fun h => lt_asymm hdown h.2), decide_eq_true ⟨hmany, hdown⟩, if_pos rfl,
      if_neg Bool.false_ne_true]

theorem raw_index_constant (hends : x 0 = x (n - 1)) (i : Nat) : raw_index x n i = i := by
  unfold raw_index descending
  rw [decide_eq_false (fun h => lt_irrefl _ (hends ▸ h.2)), if_neg Bool.false_ne_true]

end

/-! ## Section 3: Order and safety of a call -/

section
variable {K : Type} [Field K] [LinearOrder K] (sinh cosh : K → K) (call : Call K)

/-- The call gives these values, whatever the scratch block and the destination
    field held. -/
def Call.Gives (f : Nat → Nat → K) : Prop :=
  ∀ scratch dst, ∃ out, call.run sinh cosh scratch dst = .returned out ∧
    ∀ c < call.n_col, ∀ j < call.n_dst, out c j = f c j

/-- The source levels, with their values, in the opposite order. -/
def Call.reverse_src : Call K :=
  { call with
    src_levels := fun c k => call.src_levels c (call.n_src - 1 - k)
    src_values := fun c k => call.src_values c (call.n_src - 1 - k)
    same_levels := by
      intro huniform c
      obtain ⟨hsrc, hdst⟩ := call.same_levels huniform c
      exact ⟨by rw [hsrc], hdst⟩ }

/-- The destination levels in the opposite order. -/
def Call.reverse_dst : Call K :=
  { call with
    dst_levels := fun c j => call.dst_levels c (call.n_dst - 1 - j)
    same_levels := by
      intro huniform c
      obtain ⟨hsrc, hdst⟩ := call.same_levels huniform c
      exact ⟨hsrc, by rw [hdst]⟩ }

@[simp] theorem reverse_src_n_col : call.reverse_src.n_col = call.n_col := rfl

@[simp] theorem reverse_dst_n_col : call.reverse_dst.n_col = call.n_col := rfl

/-- A call that is defined, the order of whose levels does not matter, and that
    takes the source values at the source levels. -/
structure Call.OrderSafe (f : Nat → Nat → K) : Prop where
  gives : call.Gives sinh cosh f
  order_src : ∃ g, call.reverse_src.Gives sinh cosh g ∧
    ∀ c < call.n_col, Listed (call.src_levels c) call.n_src → ∀ j < call.n_dst, g c j = f c j
  order_dst : ∃ g, call.reverse_dst.Gives sinh cosh g ∧
    ∀ c < call.n_col, Listed (call.dst_levels c) call.n_dst →
      ∀ j < call.n_dst, g c (call.n_dst - 1 - j) = f c j
  nodes : call.tension = 0 → ∀ c < call.n_col, StrictlyListed (call.src_levels c) call.n_src →
    ∀ j < call.n_dst, ∀ k < call.n_src, call.dst_levels c j = call.src_levels c k →
      f c j = call.src_values c k

variable {sinh cosh call}

theorem gives_values (hfits : call.n_col < 2 ^ 31) (hmany : 2 ≤ call.n_src) :
    call.Gives sinh cosh fun c j => call.value sinh cosh c (call.dst_levels c j) := by
  intro scratch dst
  refine ⟨call.result sinh cosh dst, ?_, ?_⟩
  · rw [run_eq, to_int_of_lt hfits, if_neg (by omega), if_pos (.inl hmany)]
  · intro c hc j hj
    unfold Call.result
    rw [to_int_of_lt hfits, if_pos ⟨by omega, hj⟩]

theorem gives_nothing (hteams : 0 ≤ to_int call.n_col) (hnone : call.n_dst = 0 ∨ call.n_col = 0)
    (f : Nat → Nat → K) : call.Gives sinh cosh f := by
  intro scratch dst
  refine ⟨call.result sinh cosh dst, ?_, ?_⟩
  · have hzero : call.n_dst = 0 ∨ to_int call.n_col = 0 := by
      rcases hnone with h | h
      · exact .inl h
      · right
        rw [h]
        rfl
    rw [run_eq, if_neg (by omega), if_pos (.inr hzero)]
  · intro c hc j hj
    omega

theorem of_gives {f : Nat → Nat → K} (h : call.Gives sinh cosh f) :
    0 ≤ to_int call.n_col ∧ (call.n_dst = 0 ∨ call.n_col = 0 ∨
      call.n_col < 2 ^ 31 ∧ 2 ≤ call.n_src ∧
        ∀ c < call.n_col, ∀ j < call.n_dst, f c j = call.value sinh cosh c (call.dst_levels c j)) := by
  -- the field held other values
  obtain ⟨out, hrun, hout⟩ := h 0 fun c j => f c j + 1
  rw [run_eq] at hrun
  split at hrun
  · cases hrun
  next hteams =>
  split at hrun
  · next hdefined =>
    have hresult := Outcome.returned.inj hrun
    refine ⟨by omega, ?_⟩
    by_cases hnone : call.n_dst = 0 ∨ call.n_col = 0
    · exact hnone.imp_right .inl
    have hbound := (fits_32.mp (fits_to_int (call.n_col : Nat))).2
    have hall : (call.n_col : Int) ≤ to_int call.n_col := by
      by_contra hbeyond
      have hkept := hout (call.n_col - 1) (by omega) 0 (by omega)
      rw [← hresult, Call.result, if_neg (by omega)] at hkept
      exact one_ne_zero (add_eq_left.mp hkept)
    refine .inr (.inr ⟨by omega, by omega, ?_⟩)
    intro c hc j hj
    have hvalue := hout c hc j hj
    rw [← hresult, Call.result, if_pos ⟨by omega, hj⟩] at hvalue
    exact hvalue.symm
  · cases hrun

theorem order_safe_nothing (hteams : 0 ≤ to_int call.n_col)
    (hnone : call.n_dst = 0 ∨ call.n_col = 0) : call.OrderSafe sinh cosh 0 := by
  have hsrc : 0 ≤ to_int call.reverse_src.n_col := by
    rw [reverse_src_n_col]
    exact hteams
  have hdst : 0 ≤ to_int call.reverse_dst.n_col := by
    rw [reverse_dst_n_col]
    exact hteams
  refine ⟨gives_nothing hteams hnone 0, ⟨0, gives_nothing hsrc hnone 0, ?_⟩,
    ⟨0, gives_nothing hdst hnone 0, ?_⟩, ?_⟩
  · intro c hc _ j hj
    omega
  · intro c hc _ j hj
    omega
  · intro _ c hc _ j hj
    omega

theorem value_reverse_src (hmany : 2 ≤ call.n_src) {c : Nat}
    (hne : call.src_levels c 0 ≠ call.src_levels c (call.n_src - 1)) (target : K) :
    call.reverse_src.value sinh cosh c target = call.value sinh cosh c target := by
  apply spline_value_congr sinh cosh hmany call.src_cap
  · intro i hi
    exact congrArg (call.src_levels c) (raw_index_turned hne hi)
  · intro i hi
    exact congrArg (call.src_values c) (raw_index_turned hne hi)

theorem value_constant (call : Call K) (hmany : 2 ≤ call.n_src) {c : Nat}
    (hconstant : ∀ k < call.n_src, call.src_levels c k = call.src_levels c 0) (target : K) :
    call.value sinh cosh c target =
      if target ≤ call.src_levels c 0 then call.src_values c 0
      else call.src_values c (call.n_src - 2) := by
  have hends : call.src_levels c 0 = call.src_levels c (call.n_src - 1) :=
    (hconstant _ (by omega)).symm
  unfold Call.value
  simp only [raw_index_constant hends]
  exact spline_value_constant sinh cosh hmany hconstant call.tension target

theorem value_reverse_src_constant (hmany : 2 ≤ call.n_src) {c : Nat}
    (hconstant : ∀ k < call.n_src, call.src_levels c k = call.src_levels c 0) (target : K) :
    call.reverse_src.value sinh cosh c target =
      if target ≤ call.src_levels c 0 then call.src_values c (call.n_src - 1)
      else call.src_values c 1 := by
  have hfirst : call.src_levels c (call.n_src - 1) = call.src_levels c 0 :=
    hconstant _ (by omega)
  have hturned : ∀ k < call.reverse_src.n_src,
      call.reverse_src.src_levels c k = call.reverse_src.src_levels c 0 := by
    intro k hk
    show call.src_levels c (call.n_src - 1 - k) = call.src_levels c (call.n_src - 1)
    rw [hconstant _ (by omega), hfirst]
  rw [value_constant call.reverse_src hmany hturned]
  show (if target ≤ call.src_levels c (call.n_src - 1) then call.src_values c (call.n_src - 1 - 0)
    else call.src_values c (call.n_src - 1 - (call.n_src - 2))) = _
  rw [hfirst, Nat.sub_zero, show call.n_src - 1 - (call.n_src - 2) = 1 by omega]

/-- What turning round does to a column whose source levels are all equal. -/
def Call.ConstantAgree (call : Call K) : Prop :=
  ∀ c < call.n_col, (∀ k < call.n_src, call.src_levels c k = call.src_levels c 0) →
    ∀ j < call.n_dst,
      (call.dst_levels c j ≤ call.src_levels c 0 →
        call.src_values c 0 = call.src_values c (call.n_src - 1)) ∧
      (call.src_levels c 0 < call.dst_levels c j →
        call.src_values c 1 = call.src_values c (call.n_src - 2))

theorem value_reverse_src_listed (hmany : 2 ≤ call.n_src) (hagree : call.ConstantAgree) {c j : Nat}
    (hc : c < call.n_col) (hj : j < call.n_dst) (hlisted : Listed (call.src_levels c) call.n_src) :
    call.reverse_src.value sinh cosh c (call.dst_levels c j) =
      call.value sinh cosh c (call.dst_levels c j) := by
  by_cases hends : call.src_levels c 0 = call.src_levels c (call.n_src - 1)
  · have hconstant := hlisted.constant hends
    obtain ⟨hbelow, habove⟩ := hagree c hc hconstant j hj
    rw [value_constant call hmany hconstant, value_reverse_src_constant hmany hconstant]
    split
    · next hle => exact (hbelow hle).symm
    · next hlt => exact habove (not_le.mp hlt)
  · exact value_reverse_src hmany hends _

/-- **Safety and order.** A call is defined, does not depend on the order of the
    levels and takes the source values at the source levels, exactly when there
    is nothing to compute, or there are fewer than 2^31 columns and two source
    levels, and columns with equal levels read the same from both ends. -/
theorem order_safe_iff [IsStrictOrderedRing K] :
    (∃ f, call.OrderSafe sinh cosh f) ↔
      0 ≤ to_int call.n_col ∧ (call.n_dst = 0 ∨ call.n_col = 0 ∨
        call.n_col < 2 ^ 31 ∧ 2 ≤ call.n_src ∧ call.ConstantAgree) := by
  constructor
  · intro ⟨f, hgives, ⟨g, hturned, hsame⟩, _, _⟩
    obtain ⟨hteams, hrest⟩ := of_gives hgives
    obtain ⟨_, hrest'⟩ := of_gives hturned
    refine ⟨hteams, ?_⟩
    rcases hrest with hnone | hnone | ⟨hfits, hmany, hvalue⟩
    · exact .inl hnone
    · exact .inr (.inl hnone)
    rcases hrest' with hnone | hnone | ⟨_, _, hvalue'⟩
    · exact .inl hnone
    · exact .inr (.inl hnone)
    refine .inr (.inr ⟨hfits, hmany, ?_⟩)
    intro c hc hconstant j hj
    -- both ways of listing equal levels are in order
    have hlisted : Listed (call.src_levels c) call.n_src := by
      left
      intro i k hik hk
      rw [hconstant i (by omega), hconstant k hk]
    have heq : call.reverse_src.value sinh cosh c (call.dst_levels c j) =
        call.value sinh cosh c (call.dst_levels c j) :=
      (hvalue' c hc j hj).symm.trans ((hsame c hc hlisted j hj).trans (hvalue c hc j hj))
    rw [value_constant call hmany hconstant, value_reverse_src_constant hmany hconstant] at heq
    constructor
    · intro hbelow
      rw [if_pos hbelow, if_pos hbelow] at heq
      exact heq.symm
    · intro habove
      rwa [if_neg (not_le.mpr habove), if_neg (not_le.mpr habove)] at heq
  · rintro ⟨hteams, hnone | hnone | ⟨hfits, hmany, hagree⟩⟩
    · exact ⟨0, order_safe_nothing hteams (.inl hnone)⟩
    · exact ⟨0, order_safe_nothing hteams (.inr hnone)⟩
    · have hsrc : call.reverse_src.Gives sinh cosh _ := gives_values hfits hmany
      have hdst : call.reverse_dst.Gives sinh cosh _ := gives_values hfits hmany
      refine ⟨_, gives_values hfits hmany, ⟨_, hsrc, ?_⟩, ⟨_, hdst, ?_⟩, ?_⟩
      · intro c hc hlisted j hj
        exact value_reverse_src_listed hmany hagree hc hj hlisted
      · intro c hc _ j hj
        show call.value sinh cosh c (call.dst_levels c (call.n_dst - 1 - (call.n_dst - 1 - j))) = _
        rw [show call.n_dst - 1 - (call.n_dst - 1 - j) = j by omega]
      · intro htension c hc hlisted j hj k hk hlevel
        obtain ⟨i, hi, hraw⟩ := exists_raw_index (x := call.src_levels c) hk
        have hnode := spline_value_level sinh cosh hlisted.ascending hi hmany
          (y := fun i => call.src_values c (raw_index (call.src_levels c) call.n_src i))
        rw [hraw] at hnode
        show call.value sinh cosh c (call.dst_levels c j) = _
        rw [Call.value, hlevel, htension]
        exact hnode

/-- One column of two source levels. -/
def two_levels : Call ℚ where
  overload := .varying
  n_col := 1
  n_src := 2
  n_dst := 1
  src_values := fun _ k => k
  src_levels := fun _ k => k
  dst_levels := fun _ _ => 1 / 2
  tension := 0
  same_levels := by
    intro h
    cases h
  tension_nonneg := by norm_num
  src_cap := by norm_num
  dst_cap := by norm_num

theorem two_levels_safe : ∃ f, two_levels.OrderSafe id id f := by
  apply order_safe_iff.mpr
  have hcolumns : to_int (two_levels.n_col : Nat) = 1 := to_int_of_lt (by simp [two_levels])
  refine ⟨by rw [hcolumns]; norm_num, .inr (.inr ⟨by simp [two_levels], le_refl 2, ?_⟩)⟩
  intro c _ hconstant
  -- the levels are 0 and 1
  have heq : ((1 : Nat) : ℚ) = ((0 : Nat) : ℚ) := hconstant 1 (by simp [two_levels])
  norm_num at heq

/-- One column of one source level, which is accepted. -/
def one_level : Call ℚ where
  overload := .varying
  n_col := 1
  n_src := 1
  n_dst := 1
  src_values := fun _ _ => 0
  src_levels := fun _ _ => 0
  dst_levels := fun _ _ => 0
  tension := 0
  same_levels := by
    intro h
    cases h
  tension_nonneg := by norm_num
  src_cap := by norm_num
  dst_cap := by norm_num

theorem one_level_undefined : ¬ ∃ f, one_level.OrderSafe id id f := by
  intro ⟨f, hgives, _, _, _⟩
  obtain ⟨out, hrun, _⟩ := hgives 0 0
  rw [run_eq] at hrun
  have hone : to_int (one_level.n_col : Nat) = 1 := to_int_of_lt (by simp [one_level])
  rw [hone, if_neg (by norm_num), if_neg (by simp [one_level])] at hrun
  cases hrun

end

/-! ## Section 4: Linear columns -/

section
variable {K : Type} [Field K] [LinearOrder K] (sinh cosh : K → K) (call : Call K)

/-- Between two source levels of the column. -/
def Call.Inside (c : Nat) (target : K) : Prop :=
  (∃ k < call.n_src, call.src_levels c k ≤ target) ∧ ∃ k < call.n_src, target ≤ call.src_levels c k

/-- The call is defined, and puts column `c` on the line from `a c` with slope
    `s c`, inside its source levels. -/
def Call.Reproduces (a s : Nat → K) : Prop :=
  ∀ scratch dst, ∃ out, call.run sinh cosh scratch dst = .returned out ∧
    ∀ c < call.n_col, ∀ j < call.n_dst, call.Inside c (call.dst_levels c j) →
      out c j = a c + s c * call.dst_levels c j

variable {sinh cosh call} [IsStrictOrderedRing K]

/-- **Linear columns.** A call without tension reproduces columns that are affine
    in the level, inside the source levels, exactly when every column has a team,
    and has two levels, or is constant, or is asked for at its levels and half-way
    between them. -/
theorem linear_reproduced_iff (hmany : 2 ≤ call.n_src) (htension : call.tension = 0)
    (hlisted : ∀ c < call.n_col, StrictlyListed (call.src_levels c) call.n_src) {a s : Nat → K}
    (hlinear : ∀ c < call.n_col, ∀ k < call.n_src,
      call.src_values c k = a c + s c * call.src_levels c k) :
    call.Reproduces sinh cosh a s ↔
      0 ≤ to_int call.n_col ∧
        ∀ c < call.n_col, ∀ j < call.n_dst, call.Inside c (call.dst_levels c j) →
          (c : Int) < to_int call.n_col ∧
            (call.n_src = 2 ∨ s c = 0 ∨
              Matched (call.src_levels c) call.n_src (call.dst_levels c j)) := by
  have hvalue : ∀ c < call.n_col, ∀ target,
      call.value sinh cosh c target = a c + s c * target ↔
        call.n_src = 2 ∨ s c = 0 ∨ Matched (call.src_levels c) call.n_src target := by
    intro c hc target
    have hspline := spline_value_affine_iff sinh cosh (hlisted c hc).ascending
      (y := fun i => call.src_values c (raw_index (call.src_levels c) call.n_src i))
      (fun i hi => hlinear c hc _ (raw_index_lt hi)) hmany target
    rw [matched_raw_index] at hspline
    rw [Call.value, htension]
    exact hspline
  constructor
  · intro h
    have hteams : ¬ to_int call.n_col < 0 := by
      obtain ⟨out, hrun, _⟩ := h 0 0
      rw [run_eq] at hrun
      intro hnone
      rw [if_pos hnone] at hrun
      cases hrun
    refine ⟨by omega, ?_⟩
    intro c hc j hj hinside
    -- the field held other values
    obtain ⟨out, hrun, hout⟩ := h 0 fun c j => a c + s c * call.dst_levels c j + 1
    rw [run_eq, if_neg hteams, if_pos (.inl hmany)] at hrun
    have hresult := hout c hc j hj hinside
    rw [← Outcome.returned.inj hrun, Call.result] at hresult
    split at hresult
    · next hteam => exact ⟨hteam.1, (hvalue c hc _).mp hresult⟩
    · exact absurd (add_eq_left.mp hresult) one_ne_zero
  · intro ⟨hteams, hall⟩ scratch dst
    refine ⟨call.result sinh cosh dst, ?_, ?_⟩
    · rw [run_eq, if_neg (by omega), if_pos (.inl hmany)]
    · intro c hc j hj hinside
      obtain ⟨hteam, hmatched⟩ := hall c hc j hj hinside
      rw [Call.result, if_pos ⟨hteam, hj⟩]
      exact (hvalue c hc _).mpr hmatched

theorem two_levels_linear : two_levels.Reproduces id id (fun _ => 0) fun _ => 1 := by
  have hcolumns : to_int (two_levels.n_col : Nat) = 1 := to_int_of_lt (by simp [two_levels])
  apply (linear_reproduced_iff (le_refl 2) rfl ?_ ?_).mpr
  · refine ⟨by rw [hcolumns]; norm_num, ?_⟩
    intro c hc _ _ _
    have hfirst : c < 1 := hc
    exact ⟨by rw [hcolumns]; omega, .inl rfl⟩
  · intro c _
    left
    intro i _
    show ((i : Nat) : ℚ) < ((i + 1 : Nat) : ℚ)
    exact_mod_cast Nat.lt_succ_self i
  · intro c _ k _
    show ((k : Nat) : ℚ) = 0 + 1 * (k : ℚ)
    ring

/-- One column with the levels 0, 1 and 2, which are also its values. -/
def three_levels : Call ℚ where
  overload := .uniform
  n_col := 1
  n_src := 3
  n_dst := 1
  src_values := fun _ k => k
  src_levels := fun _ k => k
  dst_levels := fun _ _ => 1 / 4
  tension := 0
  same_levels := fun _ _ => ⟨rfl, rfl⟩
  tension_nonneg := by norm_num
  src_cap := by norm_num
  dst_cap := by norm_num

/-- At the level 1/4 it gives 5/32. -/
theorem three_levels_bent : ¬ three_levels.Reproduces id id (fun _ => 0) fun _ => 1 := by
  intro h
  obtain ⟨out, hrun, hout⟩ := h 0 0
  have hcolumns : to_int (three_levels.n_col : Nat) = 1 := to_int_of_lt (by simp [three_levels])
  have hinside : three_levels.Inside 0 (three_levels.dst_levels 0 0) := by
    refine ⟨⟨0, by simp [three_levels], ?_⟩, ⟨1, by simp [three_levels], ?_⟩⟩
    · simp [three_levels]
    · norm_num [three_levels]
  have hlevel := hout 0 (by simp [three_levels]) 0 (by simp [three_levels]) hinside
  rw [run_eq, hcolumns, if_neg (by norm_num), if_pos (.inl (by simp [three_levels]))] at hrun
  rw [← Outcome.returned.inj hrun, Call.result, hcolumns,
    if_pos ⟨by norm_num, by simp [three_levels]⟩, zero_add, one_mul] at hlevel
  have hup : Ascending (three_levels.src_levels 0) 3 := by
    intro i _
    show ((i : Nat) : ℚ) < ((i + 1 : Nat) : ℚ)
    exact_mod_cast Nat.lt_succ_self i
  have hkept : ∀ i, raw_index (three_levels.src_levels 0) 3 i = i := by
    intro i
    unfold raw_index descending
    rw [decide_eq_false (fun h => lt_asymm h.2 (hup.lt (by omega) (by omega))),
      if_neg Bool.false_ne_true]
  have hspline := spline_value_affine_iff id id hup (y := three_levels.src_values 0) (a := 0)
    (s := 1) (fun i _ => by rw [zero_add, one_mul]; rfl) (by omega) (1 / 4)
  rw [zero_add, one_mul] at hspline
  unfold Call.value at hlevel
  rw [show three_levels.n_src = 3 from rfl] at hlevel
  simp only [hkept] at hlevel
  rcases hspline.mp hlevel with h | h | ⟨k, _, h⟩ | ⟨k, _, h⟩
  · omega
  · norm_num at h
  · -- four times the level
    have hfour : (4 * k : Nat) = 1 := by
      have : (1 : ℚ) / 4 = (k : Nat) := h
      qify
      linarith
    omega
  · have hfour : (4 * k + 2 : Nat) = 1 := by
      have : 2 * ((1 : ℚ) / 4) = (k : Nat) + ((k + 1 : Nat) : ℚ) := h
      push_cast at this
      qify
      linarith
    omega

end

end Axis.VerticalRegridder

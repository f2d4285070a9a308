import Helm.Framework.Loops
import Helm.Framework.Segments

/-! # AXIS: vertical regridding

  `VerticalRegridder::interpolate` runs one team for each column. The team
  puts the source levels and values into ascending order, solves a tridiagonal
  system for slopes, and evaluates a spline at every destination level. One
  overload has the same levels for all columns, the other its own for each.

  The numbers are those of an ordered field, with some hyperbolic sine and
  cosine. A loop that runs in parallel writes different elements, and is read
  in the order of its indices. The scratch block holds anything at first. An
  access outside one of its four arrays is `undefined`.

  Main result: `run_eq`, what a call does for all sizes.
-/

namespace Axis.VerticalRegridder

open Signed Segments Loops

/-! ## Section 1: One column -/

section
variable {K : Type} [Field K] [LinearOrder K] (sinh cosh : K → K)

section
local instance small_ten : Nat.AtLeastTwo 10 := inferInstance

local instance spline_two : Nat.AtLeastTwo 2 := inferInstance

/-- `1e-15` -/
def small : K := 1 / 10 ^ 15

/-- The form under tension leaves out a basis function that is not used. -/
def evaluate_spline (x x1 x2 y1 y2 d1 d2 sigma : K) : K :=
  let dx := x2 - x1
  if dx ≤ 0 then y1
  else
    let t := (x - x1) / dx
    if sigma ≤ 0 then
      let h00 := (1 + 2 * t) * (1 - t) * (1 - t)
      let h10 := t * (1 - t) * (1 - t)
      let h01 := t * t * (3 - 2 * t)
      let h11 := t * t * (t - 1)
      y1 * h00 + d1 * dx * h10 + y2 * h01 + d2 * dx * h11
    else if sinh sigma = 0 then y1
    else
      let mt := 1 - t
      let s_sig := sinh sigma
      let d_term := sigma * cosh sigma - s_sig
      let d_term := if d_term = 0 then small else d_term
      let e1 := sinh (sigma * (1 - t)) - mt * s_sig
      let e2 := sinh (sigma * t) - t * s_sig
      y1 * mt + y2 * t + (d1 * dx - (y2 - y1)) * e1 / d_term + (d2 * dx - (y2 - y1)) * e2 / d_term

/-- The factor `temp_scratch[i]` and the value `d[i]`, from those before. -/
def eliminated (x0 x1 x2 y0 y1 y2 d temp : K) : K × K :=
  let dx1 := if x1 - x0 ≤ 0 then small else x1 - x0
  let dx2 := if x2 - x1 ≤ 0 then small else x2 - x1
  let dy1 := (y1 - y0) / dx1
  let dy2 := (y2 - y1) / dx2
  let denom := 2 * (dx1 + dx2) - dx1 * temp
  let denom := if denom = 0 then small else denom
  ((3 * (dy2 - dy1) - dx1 * d) / denom, dx2 / denom)

end

/-- The body of the forward elimination. -/
def forward_step (x y : List K) (s : List K × List K) (i : Nat) :
    Outcome String (List K × List K) := do
  let x0 ← load x (i - 1)
  let x1 ← load x i
  let x2 ← load x (i + 1)
  let y0 ← load y (i - 1)
  let y1 ← load y i
  let y2 ← load y (i + 1)
  let d ← load s.1 (i - 1)
  let temp ← load s.2 (i - 1)
  let (value, factor) := eliminated x0 x1 x2 y0 y1 y2 d temp
  let temp_scratch ← store s.2 i factor
  let d ← store s.1 i value
  return (d, temp_scratch)

/-- The body of the back substitution. -/
def backward_step (temp_scratch d : List K) (i : Nat) : Outcome String (List K) := do
  let di ← load d i
  let factor ← load temp_scratch i
  let next ← load d (i + 1)
  store d i (di - factor * next)

/-- The tension does not enter. -/
def solve_column_spline (x y : List K) (n : Nat) (d temp_scratch : List K) :
    Outcome String (List K) :=
  if n < 2 then .returned d
  else if n = 2 then do
    let y1 ← load y 1
    let y0 ← load y 0
    let x1 ← load x 1
    let x0 ← load x 0
    let d ← store d 0 ((y1 - y0) / (x1 - x0))
    let d0 ← load d 0
    store d 1 d0
  else do
    let d ← store d 0 0
    let temp_scratch ← store temp_scratch 0 0
    let (d, temp_scratch) ← (List.range' 1 (n - 2)).foldlM (forward_step x y) (d, temp_scratch)
    let d ← store d (n - 1) 0
    (List.range (n - 1)).reverse.foldlM (backward_step temp_scratch) d

/-- `n_src - 2`, unsigned. -/
def last_interval (n_src : Nat) : Nat := (n_src + 2 ^ 64 - 2) % 2 ^ 64

/-- The loop that looks for the interval. The levels from `idx + 1` on are
    `above`; without one the loop reads outside of them. -/
def interval_search (last : Nat) (target : K) (idx : Nat) (above : List K) : Outcome String Nat :=
  if idx < last then
    match above with
    | x :: above => if x < target then interval_search last target (idx + 1) above else .returned idx
    | [] => .undefined
  else .returned idx
termination_by structural above

def evaluate_column_spline_target (target : K) (src_x src_y d : List K) (n_src : Nat)
    (tension : K) : Outcome String K := do
  let idx ← interval_search (last_interval n_src) target 0 (src_x.drop 1)
  let x1 ← load src_x idx
  let x2 ← load src_x (idx + 1)
  let y1 ← load src_y idx
  let y2 ← load src_y (idx + 1)
  let d1 ← load d idx
  let d2 ← load d (idx + 1)
  return evaluate_spline sinh cosh target x1 x2 y1 y2 d1 d2 tension

/-- Whether the first level is above the last. -/
def is_descending (n : Nat) (levels : List K) : Outcome String Bool :=
  if n ≤ 1 then .returned false
  else do
    let first ← load levels 0
    let last ← load levels (n - 1)
    return decide (first > last)

/-- The arrays `d` and `scratch_arr` of `get_column_scratch_pointers`; the first
    two are filled before they are read. -/
def scratch_part (scratch : Nat → K) (n_src part : Nat) : List K :=
  (List.range n_src).map fun i => scratch (part * n_src + i)

/-- What a team does: the levels and values that it writes, by their indices. -/
def column_kernel (n_src n_dst : Nat) (src_levels src_values dst_levels : List K)
    (scratch : Nat → K) (tension : K) : Outcome String (List (Nat × K)) := do
  let descending ← is_descending n_src src_levels
  let src_y ← (List.range n_src).mapM fun i =>
    load src_values (if descending then n_src - 1 - i else i)
  let src_x ← (List.range n_src).mapM fun i =>
    load src_levels (if descending then n_src - 1 - i else i)
  let d ← solve_column_spline src_x src_y n_src (scratch_part scratch n_src 2)
    (scratch_part scratch n_src 3)
  let dst_descending ← is_descending n_dst dst_levels
  (List.range n_dst).mapM fun j => do
    let raw_j := if dst_descending then n_dst - 1 - j else j
    let target ← load dst_levels raw_j
    let value ← evaluate_column_spline_target sinh cosh target src_x src_y d n_src tension
    return (raw_j, value)

end

/-! ## Section 2: The two overloads -/

/-- Views of rank 1 and of rank 2, where the first index is the column. -/
structure View1 (K : Type) where
  extent : Nat
  data : Nat → K

structure View2 (K : Type) where
  extent0 : Nat
  extent1 : Nat
  data : Nat → Nat → K

def View1.row {K : Type} (v : View1 K) : List K := (List.range v.extent).map v.data

def View2.row {K : Type} (v : View2 K) (c : Nat) : List K := (List.range v.extent1).map (v.data c)

section
variable {K : Type} [Field K] [LinearOrder K] (sinh cosh : K → K)

def validate_vertical_regrid_params (n_src n_dst : Nat) (tension : K) : Outcome String Unit :=
  if tension < 0 then .thrown "VerticalRegridder: Tension parameter must be non-negative"
  else if n_src > 256 ∨ n_dst > 256 then
    .thrown "VerticalRegridder: Vertical level dimensions exceed hard cap of 256 levels"
  else .returned ()

/-- The values that a team has made for a column. -/
def write_column (row : Nat → K) (writes : List (Nat × K)) : Nat → K :=
  writes.foldl (fun row w => Function.update row w.1 w.2) row

/-- The teams. There are as many as the number of columns gives as an `int`. -/
def run_columns (dst_field : View2 K) (n_col : Nat)
    (kernel : Nat → Outcome String (List (Nat × K))) : Outcome String (View2 K) :=
  if to_int n_col < 0 then .undefined
  else do
    let writes ← (List.range (to_int n_col).toNat).mapM kernel
    return { dst_field with
      data := fun c => write_column (dst_field.data c) (writes.getD c []) }

/-- `interpolate` with uniform levels. The scratch block of each team holds
    anything. -/
def interpolate_uniform (src_field dst_field : View2 K) (src_levels dst_levels : View1 K)
    (tension : K) (scratch : Nat → Nat → K) : Outcome String (View2 K) :=
  let n_col := src_field.extent0
  let n_src := src_levels.extent
  let n_dst := dst_levels.extent
  if n_col ≠ dst_field.extent0 then
    .thrown "VerticalRegridder: Source and destination column extents mismatch"
  else if src_field.extent1 ≠ n_src then
    .thrown "VerticalRegridder: Source field levels and source levels coordinates mismatch"
  else if dst_field.extent1 ≠ n_dst then
    .thrown "VerticalRegridder: Destination field levels and destination levels coordinates mismatch"
  else do
    validate_vertical_regrid_params n_src n_dst tension
    run_columns dst_field n_col fun c =>
      column_kernel sinh cosh n_src n_dst src_levels.row (src_field.row c) dst_levels.row (scratch c)
        tension

/-- `interpolate` with levels that vary with the column. -/
def interpolate_varying (src_field dst_field src_levels dst_levels : View2 K) (tension : K)
    (scratch : Nat → Nat → K) : Outcome String (View2 K) :=
  let n_col := src_field.extent0
  let n_src := src_levels.extent1
  let n_dst := dst_levels.extent1
  if n_col ≠ dst_field.extent0 ∨ n_col ≠ src_levels.extent0 ∨ n_col ≠ dst_levels.extent0 then
    .thrown "VerticalRegridder: Grid column dimensions mismatch across fields and level views"
  else if src_field.extent1 ≠ n_src then
    .thrown "VerticalRegridder: Source field levels and source levels coordinates mismatch"
  else if dst_field.extent1 ≠ n_dst then
    .thrown "VerticalRegridder: Destination field levels and destination levels coordinates mismatch"
  else do
    validate_vertical_regrid_params n_src n_dst tension
    run_columns dst_field n_col fun c =>
      column_kernel sinh cosh n_src n_dst (src_levels.row c) (src_field.row c) (dst_levels.row c)
        (scratch c) tension

end

/-! ## Section 3: What a team computes -/

section
variable {K : Type} [Field K] [LinearOrder K] (x y : Nat → K) (n : Nat)

/-- `d[i]` and `temp_scratch[i]` after the forward elimination. -/
def forward : Nat → K × K
  | 0 => (0, 0)
  | i + 1 => eliminated (x i) (x (i + 1)) (x (i + 2)) (y i) (y (i + 1)) (y (i + 2)) (forward i).1
    (forward i).2

/-- `d[n - 1 - k]` after the back substitution. -/
def backward : Nat → K
  | 0 => 0
  | k + 1 => (forward x y (n - 2 - k)).1 - (forward x y (n - 2 - k)).2 * backward k

/-- What the evaluation takes for the slope at level `i`. -/
def slope (i : Nat) : K :=
  if n = 2 then (y 1 - y 0) / (x 1 - x 0) else backward x y n (n - 1 - i)

variable {x y n}

/-- After the forward elimination of the levels before `i`. -/
structure Eliminated (x y : Nat → K) (n i : Nat) (s : List K × List K) : Prop where
  length_d : s.1.length = n
  length_temp : s.2.length = n
  d : ∀ k < i, s.1[k]? = some (forward x y k).1
  temp : ∀ k < i, s.2[k]? = some (forward x y k).2

theorem forward_step_eq {s : List K × List K} {i : Nat} (hlow : 1 ≤ i) (hhigh : i + 1 < n)
    (h : Eliminated x y n i s) : ∃ s',
      forward_step ((List.range n).map x) ((List.range n).map y) s i = .returned s' ∧
      Eliminated x y n (i + 1) s' := by
  obtain ⟨m, rfl⟩ : ∃ m, i = m + 1 := ⟨i - 1, by omega⟩
  have hd := load_of_some (ε := String) (h.d m (by omega))
  have htemp := load_of_some (ε := String) (h.temp m (by omega))
  refine ⟨(s.1.set (m + 1) (forward x y (m + 1)).1, s.2.set (m + 1) (forward x y (m + 1)).2), ?_, ?_⟩
  · unfold forward_step
    rw [Nat.add_sub_cancel, load_map_range (by omega), load_map_range (by omega),
      load_map_range (by omega), load_map_range (by omega), load_map_range (by omega),
      load_map_range (by omega), hd, htemp]
    simp only [Outcome.returned_bind]
    rw [store_of_lt (by rw [h.length_temp]; omega), store_of_lt (by rw [h.length_d]; omega)]
    rfl
  · refine ⟨by simp [h.length_d], by simp [h.length_temp], ?_, ?_⟩
    · intro k hk
      rw [List.getElem?_set]
      split
      · next heq =>
        rw [if_pos (by rw [h.length_d]; omega), heq]
      · exact h.d k (by omega)
    · intro k hk
      rw [List.getElem?_set]
      split
      · next heq =>
        rw [if_pos (by rw [h.length_temp]; omega), heq]
      · exact h.temp k (by omega)

/-- After the back substitution of the levels from `i` on. -/
structure Substituted (x y : Nat → K) (n i : Nat) (d : List K) : Prop where
  length : d.length = n
  before : ∀ k < i, d[k]? = some (forward x y k).1
  after : ∀ k, i ≤ k → k < n → d[k]? = some (backward x y n (n - 1 - k))

theorem backward_step_eq {d temp : List K} {i : Nat} (hi : i < n - 1)
    (htemp : ∀ k < n - 1, temp[k]? = some (forward x y k).2) (h : Substituted x y n (i + 1) d) :
    ∃ d', backward_step temp d i = .returned d' ∧ Substituted x y n i d' := by
  have hfactor := load_of_some (ε := String) (htemp i hi)
  have hself := load_of_some (ε := String) (h.before i (by omega))
  have hnext := load_of_some (ε := String) (h.after (i + 1) (by omega) (by omega))
  -- the new value is the next one of the recursion
  have hvalue : (forward x y i).1 - (forward x y i).2 * backward x y n (n - 1 - (i + 1)) =
      backward x y n (n - 1 - i) := by
    rw [show n - 1 - i = n - 1 - (i + 1) + 1 by omega, backward,
      show n - 2 - (n - 1 - (i + 1)) = i by omega]
  refine ⟨d.set i (backward x y n (n - 1 - i)), ?_, ?_⟩
  · unfold backward_step
    rw [hself, hfactor, hnext]
    simp only [Outcome.returned_bind]
    rw [store_of_lt (by rw [h.length]; omega), hvalue]
  · refine ⟨by simp [h.length], ?_, ?_⟩
    · intro k hk
      rw [List.getElem?_set_ne (by omega)]
      exact h.before k (by omega)
    · intro k hlow hhigh
      rw [List.getElem?_set]
      split
      · next heq =>
        rw [if_pos (by rw [h.length]; omega), heq]
      · exact h.after k (by omega) hhigh

/-- **The solver** stays within its arrays, and what it makes does not depend on
    what they held. -/
theorem solve_column_spline_eq (hn : 2 ≤ n) {d temp : List K} (hd : d.length = n)
    (htemp : temp.length = n) :
    solve_column_spline ((List.range n).map x) ((List.range n).map y) n d temp =
      .returned ((List.range n).map (slope x y n)) := by
  unfold solve_column_spline
  rw [if_neg (by omega)]
  split
  · next htwo =>
    subst htwo
    rw [load_map_range (by omega), load_map_range (by omega), load_map_range (by omega),
      load_map_range (by omega)]
    simp only [Outcome.returned_bind]
    rw [store_of_lt (by omega), Outcome.returned_bind,
      load_of_some (by rw [List.getElem?_set_self (by omega)]), Outcome.returned_bind,
      store_of_lt (by rw [List.length_set]; omega)]
    congr 1
    apply eq_map_range (by simp [hd])
    intro i hi
    rw [List.getElem?_set, List.getElem?_set, List.length_set, hd]
    unfold slope
    rw [if_pos rfl]
    interval_cases i
    · rfl
    · rfl
  · next hmany =>
    rw [store_of_lt (by omega), Outcome.returned_bind, store_of_lt (by omega),
      Outcome.returned_bind]
    have hstart : Eliminated x y n 1 (d.set 0 0, temp.set 0 0) := by
      refine ⟨by simp [hd], by simp [htemp], ?_, ?_⟩
      · intro k hk
        rw [show k = 0 by omega, List.getElem?_set_self (by omega)]
        rfl
      · intro k hk
        rw [show k = 0 by omega, List.getElem?_set_self (by omega)]
        rfl
    have heliminated : ∃ s', (List.range' 1 (n - 2)).foldlM
        (forward_step ((List.range n).map x) ((List.range n).map y)) (d.set 0 0, temp.set 0 0) =
          .returned s' ∧ Eliminated x y n (1 + (n - 2)) s' :=
      up hstart fun i s hlow hhigh hs => forward_step_eq hlow (by omega) hs
    obtain ⟨⟨d', temp'⟩, hloop, hforward⟩ := heliminated
    rw [show 1 + (n - 2) = n - 1 by omega] at hforward
    rw [hloop]
    simp only [Outcome.returned_bind]
    rw [store_of_lt (by rw [hforward.length_d]; omega), Outcome.returned_bind]
    have hlast : Substituted x y n (n - 1) (d'.set (n - 1) 0) := by
      refine ⟨by simp [hforward.length_d], ?_, ?_⟩
      · intro k hk
        rw [List.getElem?_set_ne (by omega)]
        exact hforward.d k hk
      · intro k hlow hhigh
        rw [show k = n - 1 by omega, List.getElem?_set_self (by rw [hforward.length_d]; omega),
          Nat.sub_self]
        rfl
    obtain ⟨d'', hsolved, hall⟩ := down hlast fun i s hi hs =>
      backward_step_eq hi hforward.temp hs
    rw [hsolved]
    congr 1
    apply eq_map_range hall.length
    intro i hi
    unfold slope
    rw [hall.after i (by omega) hi, if_neg hmany]

/-- Where the search for the interval ends: at the last one, or where the upper
    level is not below the target. -/
def interval (x : Nat → K) (last : Nat) (target : K) : Nat :=
  Nat.find (⟨last, .inl (le_refl last)⟩ : ∃ k, last ≤ k ∨ ¬ x (k + 1) < target)

omit [Field K] in
theorem interval_le (x : Nat → K) (last : Nat) (target : K) : interval x last target ≤ last :=
  Nat.find_min' _ (.inl (le_refl last))

omit [Field K] in
theorem lt_of_lt_interval {x : Nat → K} {last k : Nat} {target : K}
    (h : k < interval x last target) : x (k + 1) < target :=
  not_not.mp fun hnot => Nat.find_min _ h (.inr hnot)

omit [Field K] in
theorem interval_end (x : Nat → K) (last : Nat) (target : K) :
    interval x last target = last ∨ target ≤ x (interval x last target + 1) := by
  rcases Nat.find_spec (⟨last, .inl (le_refl last)⟩ : ∃ k, last ≤ k ∨ ¬ x (k + 1) < target)
    with hlast | hstop
  · exact .inl (le_antisymm (interval_le x last target) hlast)
  · exact .inr (not_lt.mp hstop)

theorem last_interval_eq {n_src : Nat} (hlow : 2 ≤ n_src) (hcap : n_src ≤ 256) :
    last_interval n_src = n_src - 2 := by
  unfold last_interval
  omega

omit [Field K] in
theorem interval_search_from {target : K} {idx : Nat} (hidx : idx ≤ interval x (n - 2) target)
    (hn : 2 ≤ n) :
    interval_search (n - 2) target idx ((List.range' (idx + 1) (n - 1 - idx)).map x) =
      .returned (interval x (n - 2) target) := by
  have hle := interval_le x (n - 2) target
  induction hm : interval x (n - 2) target - idx generalizing idx with
  | zero =>
    have heq : idx = interval x (n - 2) target := by omega
    rw [show n - 1 - idx = (n - 2 - idx) + 1 by omega, List.range'_succ, List.map_cons,
      interval_search]
    split
    · next hlt =>
      rcases interval_end x (n - 2) target with hlast | hstop
      · omega
      · rw [if_neg (not_lt.mpr (heq ▸ hstop)), heq]
    · rw [heq]
  | succ m ih =>
    have hbelow : x (idx + 1) < target := lt_of_lt_interval (show idx < interval x (n - 2) target by omega)
    rw [show n - 1 - idx = (n - 1 - (idx + 1)) + 1 by omega, List.range'_succ, List.map_cons,
      interval_search, if_pos (by omega), if_pos hbelow]
    exact ih (by omega) (by omega)

variable (sinh cosh : K → K)

/-- The value of the spline at a level. -/
def spline_value (x y : Nat → K) (n : Nat) (tension target : K) : K :=
  let idx := interval x (n - 2) target
  evaluate_spline sinh cosh target (x idx) (x (idx + 1)) (y idx) (y (idx + 1)) (slope x y n idx)
    (slope x y n (idx + 1)) tension

/-- **The search ends with two existing levels.** -/
theorem evaluate_target_eq (hlow : 2 ≤ n) (hcap : n ≤ 256) (tension target : K) :
    evaluate_column_spline_target sinh cosh target ((List.range n).map x) ((List.range n).map y)
      ((List.range n).map (slope x y n)) n tension =
        .returned (spline_value sinh cosh x y n tension target) := by
  have habove : ((List.range n).map x).drop 1 = (List.range' (0 + 1) (n - 1 - 0)).map x := by
    rw [← List.map_drop, List.range_eq_range', List.drop_range']
    simp
  have hle := interval_le x (n - 2) target
  unfold evaluate_column_spline_target
  rw [last_interval_eq hlow hcap, habove, interval_search_from (Nat.zero_le _) hlow,
    Outcome.returned_bind, load_map_range (by omega), load_map_range (by omega),
    load_map_range (by omega), load_map_range (by omega), load_map_range (by omega),
    load_map_range (by omega)]
  rfl

theorem evaluate_target_undefined (hn : n < 2) {d : List K} (tension target : K) :
    evaluate_column_spline_target sinh cosh target ((List.range n).map x) ((List.range n).map y) d n
      tension = .undefined := by
  have hempty : ((List.range n).map x).drop 1 = [] := by
    apply List.drop_eq_nil_of_le
    rw [List.length_map, List.length_range]
    omega
  have hlast : 0 < last_interval n := by
    unfold last_interval
    omega
  unfold evaluate_column_spline_target
  rw [hempty, interval_search, if_pos hlast]
  rfl

/-- Whether the levels are turned round. -/
def descending (x : Nat → K) (n : Nat) : Bool := decide (1 < n ∧ x 0 > x (n - 1))

/-- The index of the level that comes `i`-th. -/
def raw_index (x : Nat → K) (n i : Nat) : Nat := if descending x n then n - 1 - i else i

omit [Field K] in
theorem is_descending_eq (x : Nat → K) (n : Nat) :
    is_descending n ((List.range n).map x) = .returned (descending x n) := by
  unfold is_descending descending
  split
  · rw [decide_eq_false (by omega)]
  · next hmany =>
    rw [load_map_range (by omega), load_map_range (by omega)]
    simp only [Outcome.returned_bind, Outcome.pure_eq, show 1 < n by omega, true_and]

omit [Field K] in
theorem raw_index_lt {x : Nat → K} {n i : Nat} (hi : i < n) : raw_index x n i < n := by
  unfold raw_index
  split <;> omega

omit [Field K] in
theorem fill_eq (n : Nat) (x v : Nat → K) :
    (List.range n).mapM (fun i => (load ((List.range n).map v)
      (if descending x n then n - 1 - i else i) : Outcome String K)) =
        .returned ((List.range n).map fun i => v (raw_index x n i)) := by
  apply Outcome.mapM_of_returned
  intro i hi
  exact load_map_range (raw_index_lt (List.mem_range.mp hi))

theorem column_kernel_eq {n_src n_dst : Nat} (hlow : 2 ≤ n_src) (hcap : n_src ≤ 256)
    (x y t scratch : Nat → K) (tension : K) :
    column_kernel sinh cosh n_src n_dst ((List.range n_src).map x) ((List.range n_src).map y)
      ((List.range n_dst).map t) scratch tension =
        .returned ((List.range n_dst).map fun j => (raw_index t n_dst j,
          spline_value sinh cosh (fun i => x (raw_index x n_src i)) (fun i => y (raw_index x n_src i))
            n_src tension (t (raw_index t n_dst j)))) := by
  unfold column_kernel
  rw [is_descending_eq, Outcome.returned_bind, fill_eq, Outcome.returned_bind, fill_eq,
    Outcome.returned_bind, solve_column_spline_eq hlow (by simp [scratch_part])
      (by simp [scratch_part]), Outcome.returned_bind, is_descending_eq, Outcome.returned_bind]
  apply Outcome.mapM_of_returned
  intro j hj
  have htarget : load ((List.range n_dst).map t) (if descending t n_dst then n_dst - 1 - j else j) =
      (.returned (t (raw_index t n_dst j)) : Outcome String K) :=
    load_map_range (raw_index_lt (List.mem_range.mp hj))
  dsimp only
  rw [htarget, Outcome.returned_bind, evaluate_target_eq sinh cosh hlow hcap]
  rfl

theorem column_kernel_few {n_src n_dst : Nat} (hfew : n_src < 2) (x y t scratch : Nat → K)
    (tension : K) :
    column_kernel sinh cosh n_src n_dst ((List.range n_src).map x) ((List.range n_src).map y)
      ((List.range n_dst).map t) scratch tension = if n_dst = 0 then .returned [] else .undefined := by
  unfold column_kernel
  rw [is_descending_eq, Outcome.returned_bind, fill_eq, Outcome.returned_bind, fill_eq,
    Outcome.returned_bind, solve_column_spline, if_pos hfew, Outcome.returned_bind,
    is_descending_eq, Outcome.returned_bind]
  by_cases hnone : n_dst = 0
  · subst hnone
    rfl
  · -- the first level that is asked for
    have htarget : load ((List.range n_dst).map t) (if descending t n_dst then n_dst - 1 - 0 else 0) =
        (.returned (t (raw_index t n_dst 0)) : Outcome String K) :=
      load_map_range (raw_index_lt (by omega))
    rw [if_neg hnone, show n_dst = (n_dst - 1) + 1 by omega, List.range_succ_eq_map, List.mapM_cons,
      ← List.range_succ_eq_map, show n_dst - 1 + 1 = n_dst by omega]
    dsimp only
    rw [htarget, Outcome.returned_bind, evaluate_target_undefined sinh cosh hfew,
      Outcome.undefined_bind, Outcome.undefined_bind]

end

/-! ## Section 4: What a call does -/

/-- The two overloads. -/
inductive Overload
  | uniform
  | varying

/-- The arguments of a call that is accepted. The levels of the overload with
    uniform levels are the same for all columns. -/
structure Call (K : Type) [LT K] [Zero K] where
  overload : Overload
  n_col : Nat
  n_src : Nat
  n_dst : Nat
  src_values : Nat → Nat → K
  src_levels : Nat → Nat → K
  dst_levels : Nat → Nat → K
  tension : K
  same_levels : overload = .uniform → ∀ c, src_levels c = src_levels 0 ∧ dst_levels c = dst_levels 0
  tension_nonneg : ¬ tension < 0
  src_cap : n_src ≤ 256
  dst_cap : n_dst ≤ 256

section
variable {K : Type} [Field K] [LinearOrder K] (sinh cosh : K → K) (call : Call K)

/-- The contents of the destination field after the call. -/
def Call.run (scratch : Nat → Nat → K) (dst : Nat → Nat → K) : Outcome String (Nat → Nat → K) := do
  let out ← match call.overload with
    | .uniform =>
      interpolate_uniform sinh cosh ⟨call.n_col, call.n_src, call.src_values⟩
        ⟨call.n_col, call.n_dst, dst⟩ ⟨call.n_src, call.src_levels 0⟩
        ⟨call.n_dst, call.dst_levels 0⟩ call.tension scratch
    | .varying =>
      interpolate_varying sinh cosh ⟨call.n_col, call.n_src, call.src_values⟩
        ⟨call.n_col, call.n_dst, dst⟩ ⟨call.n_col, call.n_src, call.src_levels⟩
        ⟨call.n_col, call.n_dst, call.dst_levels⟩ call.tension scratch
  return out.data

/-- The value of column `c` at a level. -/
def Call.value (c : Nat) (target : K) : K :=
  spline_value sinh cosh
    (fun i => call.src_levels c (raw_index (call.src_levels c) call.n_src i))
    (fun i => call.src_values c (raw_index (call.src_levels c) call.n_src i)) call.n_src
    call.tension target

/-- The values of the columns that have a team. -/
def Call.result (dst : Nat → Nat → K) (c j : Nat) : K :=
  if (c : Int) < to_int call.n_col ∧ j < call.n_dst then
    call.value sinh cosh c (call.dst_levels c j)
  else dst c j

/-! ### The values that are written -/

omit [Field K] [LinearOrder K] in
theorem write_column_apply (f row : Nat → K) (positions : List Nat) (r : Nat) :
    write_column row (positions.map fun p => (p, f p)) r = if r ∈ positions then f r else row r := by
  induction positions generalizing row with
  | nil => simp [write_column]
  | cons p positions ih =>
    show write_column (Function.update row p (f p)) (positions.map fun p => (p, f p)) r = _
    rw [ih]
    by_cases hlater : r ∈ positions
    · rw [if_pos hlater, if_pos (List.mem_cons_of_mem p hlater)]
    · rw [if_neg hlater]
      by_cases heq : r = p
      · rw [heq, Function.update_self, if_pos List.mem_cons_self]
      · rw [Function.update_of_ne heq, if_neg (by simp [heq, hlater])]

omit [Field K] in
theorem mem_raw_indices {t : Nat → K} {n r : Nat} :
    r ∈ (List.range n).map (raw_index t n) ↔ r < n := by
  rw [List.mem_map]
  constructor
  · rintro ⟨j, hj, rfl⟩
    exact raw_index_lt (List.mem_range.mp hj)
  · intro hr
    unfold raw_index
    split
    · exact ⟨n - 1 - r, List.mem_range.mpr (by omega), by omega⟩
    · exact ⟨r, List.mem_range.mpr hr, rfl⟩

omit [Field K] in
theorem write_column_kernel (f row t : Nat → K) (n r : Nat) :
    write_column row ((List.range n).map fun j => (raw_index t n j, f (raw_index t n j))) r =
      if r < n then f r else row r := by
  have hpositions : ((List.range n).map fun j => (raw_index t n j, f (raw_index t n j))) =
      ((List.range n).map (raw_index t n)).map fun p => (p, f p) := by
    rw [List.map_map]
    rfl
  rw [hpositions, write_column_apply]
  simp only [mem_raw_indices]

/-- The kernel of a column. -/
def Call.kernel (scratch : Nat → Nat → K) (c : Nat) : Outcome String (List (Nat × K)) :=
  column_kernel sinh cosh call.n_src call.n_dst ((List.range call.n_src).map (call.src_levels c))
    ((List.range call.n_src).map (call.src_values c))
    ((List.range call.n_dst).map (call.dst_levels c)) (scratch c) call.tension

theorem run_kernels (scratch dst : Nat → Nat → K) :
    call.run sinh cosh scratch dst = do
      let out ← run_columns ⟨call.n_col, call.n_dst, dst⟩ call.n_col (call.kernel sinh cosh scratch)
      return out.data := by
  have hvalid : validate_vertical_regrid_params call.n_src call.n_dst call.tension =
      .returned () := by
    have hsrc := call.src_cap
    have hdst := call.dst_cap
    unfold validate_vertical_regrid_params
    rw [if_neg call.tension_nonneg, if_neg (by omega)]
  unfold Call.run
  split
  · next huniform =>
    have hkernel : (fun c => column_kernel sinh cosh call.n_src call.n_dst
        ((List.range call.n_src).map (call.src_levels 0))
        ((List.range call.n_src).map (call.src_values c))
        ((List.range call.n_dst).map (call.dst_levels 0)) (scratch c) call.tension) =
          call.kernel sinh cosh scratch := by
      funext c
      obtain ⟨hsrc, hdst⟩ := call.same_levels huniform c
      rw [Call.kernel, hsrc, hdst]
    unfold interpolate_uniform
    dsimp only [View1.row, View2.row]
    rw [if_neg (by simp), if_neg (by simp), if_neg (by simp), hvalid, Outcome.returned_bind, hkernel]
  · unfold interpolate_varying
    dsimp only [View2.row]
    rw [if_neg (by simp), if_neg (by simp), if_neg (by simp), hvalid, Outcome.returned_bind]
    rfl

omit [Field K] [LinearOrder K] in
theorem run_columns_eq {kernel : Nat → Outcome String (List (Nat × K))}
    {writes : Nat → List (Nat × K)} (hkernel : ∀ c, kernel c = .returned (writes c))
    (dst_field : View2 K) {n_col : Nat} (hteams : ¬ to_int n_col < 0) :
    run_columns dst_field n_col kernel = .returned
      { dst_field with
        data := fun (c : Nat) => if (c : Int) < to_int n_col then write_column (dst_field.data c) (writes c)
          else dst_field.data c } := by
  have hall : (List.range (to_int n_col).toNat).mapM kernel =
      .returned ((List.range (to_int n_col).toNat).map writes) :=
    Outcome.mapM_of_returned fun c _ => hkernel c
  have hdata : (fun c => write_column (dst_field.data c)
      (((List.range (to_int n_col).toNat).map writes).getD c [])) =
        fun (c : Nat) => if (c : Int) < to_int n_col then write_column (dst_field.data c) (writes c)
          else dst_field.data c := by
    funext c
    rw [List.getD_eq_getElem?_getD, List.getElem?_map]
    split
    · next hteam => rw [List.getElem?_range (by omega), Option.map_some, Option.getD_some]
    · next hteam =>
      rw [List.getElem?_eq_none (by rw [List.length_range]; omega), Option.map_none,
        Option.getD_none]
      rfl
  rw [run_columns, if_neg hteams, hall, Outcome.returned_bind, Outcome.pure_eq, hdata]

/-- **What a call does.** It is defined when there are teams, and two source
    levels if anything is asked for. -/
theorem run_eq (scratch dst : Nat → Nat → K) :
    call.run sinh cosh scratch dst =
      if to_int call.n_col < 0 then .undefined
      else if 2 ≤ call.n_src ∨ call.n_dst = 0 ∨ to_int call.n_col = 0 then
        .returned (call.result sinh cosh dst)
      else .undefined := by
  rw [run_kernels]
  split
  · next hnone => rw [run_columns, if_pos hnone, Outcome.undefined_bind]
  next hteams =>
  by_cases hmany : 2 ≤ call.n_src
  · -- every team writes its column
    have hkernel : ∀ c, call.kernel sinh cosh scratch c =
        .returned ((List.range call.n_dst).map fun j => (raw_index (call.dst_levels c) call.n_dst j,
          call.value sinh cosh c (call.dst_levels c (raw_index (call.dst_levels c) call.n_dst j)))) :=
      fun c => column_kernel_eq sinh cosh hmany call.src_cap (call.src_levels c) (call.src_values c)
        (call.dst_levels c) (scratch c) call.tension
    have hresult : (fun (c : Nat) => if (c : Int) < to_int call.n_col then write_column (dst c)
        ((List.range call.n_dst).map fun j => (raw_index (call.dst_levels c) call.n_dst j,
          call.value sinh cosh c (call.dst_levels c (raw_index (call.dst_levels c) call.n_dst j))))
        else dst c) = call.result sinh cosh dst := by
      funext c j
      have hwritten := write_column_kernel (fun r => call.value sinh cosh c (call.dst_levels c r))
        (dst c) (call.dst_levels c) call.n_dst j
      unfold Call.result
      split
      · next hteam =>
        simp only [hteam, true_and]
        exact hwritten
      · next hteam => rw [if_neg (fun h => hteam h.1)]
    rw [run_columns_eq hkernel _ hteams, Outcome.returned_bind, if_pos (.inl hmany), ← hresult,
      Outcome.pure_eq]
  have hkernel : ∀ c, call.kernel sinh cosh scratch c =
      if call.n_dst = 0 then .returned [] else .undefined := fun c =>
    column_kernel_few sinh cosh (not_le.mp hmany) (call.src_levels c) (call.src_values c)
      (call.dst_levels c) (scratch c) call.tension
  by_cases hdone : call.n_dst = 0 ∨ to_int call.n_col = 0
  · -- nothing is asked for, or there is no team
    have hresult : call.result sinh cosh dst = dst := by
      funext c j
      exact if_neg (by omega)
    rw [if_pos (.inr hdone), hresult]
    rcases hdone with hlevels | hcolumns
    · have hempty : ∀ c, call.kernel sinh cosh scratch c = .returned [] := by
        intro c
        rw [hkernel c, if_pos hlevels]
      have hkept : (fun (c : Nat) => if (c : Int) < to_int call.n_col then write_column (dst c) []
          else dst c) = dst := funext fun c => ite_self _
      rw [run_columns_eq hempty _ hteams, Outcome.returned_bind, Outcome.pure_eq]
      dsimp only
      rw [hkept]
    · rw [run_columns, if_neg hteams, hcolumns]
      rfl
  · -- the first team reads outside of the levels
    have hundefined : call.kernel sinh cosh scratch 0 = .undefined := by
      rw [hkernel 0, if_neg (fun h => hdone (.inl h))]
    have hpositive : ¬ to_int call.n_col = 0 := fun h => hdone (.inr h)
    rw [if_neg (by rintro (h | h) <;> contradiction), run_columns, if_neg hteams,
      show (to_int call.n_col).toNat = ((to_int call.n_col).toNat - 1) + 1 by omega,
      List.range_succ_eq_map, List.mapM_cons, hundefined, Outcome.undefined_bind,
      Outcome.undefined_bind, Outcome.undefined_bind]

variable {sinh cosh} {tension : K} {scratch : Nat → Nat → K}

end

end Axis.VerticalRegridder

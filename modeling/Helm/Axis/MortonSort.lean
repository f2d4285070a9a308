import Helm.Framework.Signed
import Mathlib.Algebra.Order.Floor.Ring
import Mathlib.Data.Nat.Bitwise
import Mathlib.Tactic.Linarith

/-! # AXIS: Morton order

  `morton_encode_2d` interleaves the bits of two 32-bit numbers.
  `morton_sort_indices` puts the destination cells into the order of the codes
  of their centroids, each coordinate scaled to 16 bits.

  * **Bits**: each of the five steps takes one zero between groups of bits to
    their halves (`Spread`).
  * **Order**: the code grows with each coordinate; a comparison is decided by
    the topmost bit in which two numbers differ.

  Centroids are numbers of an ordered field. The order that `std::sort` gives
  to equal keys is not specified; here they keep theirs.

  Main result: `morton_order`.
-/

namespace Axis.Morton

open Signed

/-! ## Section 1: The code -/

/-- Insert a zero between the bits. -/
def spread (v : BitVec 32) : BitVec 64 :=
  let r := v.setWidth 64
  let r := (r ||| (r <<< 16)) &&& 0x0000FFFF0000FFFF#64
  let r := (r ||| (r <<< 8)) &&& 0x00FF00FF00FF00FF#64
  let r := (r ||| (r <<< 4)) &&& 0x0F0F0F0F0F0F0F0F#64
  let r := (r ||| (r <<< 2)) &&& 0x3333333333333333#64
  (r ||| (r <<< 1)) &&& 0x5555555555555555#64

def morton_encode_2d (x y : BitVec 32) : BitVec 64 := spread x ||| (spread y <<< 1)

section
variable {K : Type} [Field K] [LinearOrder K] [FloorRing K]

/-- The conversion to `uint32_t`, which drops the fraction. -/
def to_uint32 (t : K) : Outcome String (BitVec 32) :=
  if 0 ≤ ⌊t⌋ ∧ ⌊t⌋ < 2 ^ 32 then .returned (BitVec.ofInt 32 ⌊t⌋) else .undefined

def normalize_coord (val min_val max_val : K) : Outcome String (BitVec 32) :=
  if max_val ≤ min_val then .returned 0
  else
    let t := (val - min_val) / (max_val - min_val)
    let t := max 0 (min 1 t)
    to_uint32 (t * 65535)

/-- The extremes of a coordinate. The reductions start from the identity of the
    operation, which the first value replaces. -/
def lower (v : K) (vs : List K) : K := vs.foldl (fun lmin v => if v < lmin then v else lmin) v

def upper (v : K) (vs : List K) : K := vs.foldl (fun lmax v => if v > lmax then v else lmax) v

/-- The keys of the cells. -/
def morton_keys : List (K × K) → Outcome String (List (BitVec 64))
  | [] => .returned []
  | c :: centroids =>
    let lon_min := lower c.1 (centroids.map Prod.fst)
    let lon_max := upper c.1 (centroids.map Prod.fst)
    let lat_min := lower c.2 (centroids.map Prod.snd)
    let lat_max := upper c.2 (centroids.map Prod.snd)
    (c :: centroids).mapM fun centroid => do
      let ix ← normalize_coord centroid.1 lon_min lon_max
      let iy ← normalize_coord centroid.2 lat_min lat_max
      return morton_encode_2d ix iy

def morton_sort_indices (centroids : List (K × K)) : Outcome String (List Nat) :=
  let n_dst := centroids.length
  if n_dst = 0 then .returned []
  else do
    let keys ← morton_keys centroids
    return (List.range n_dst).mergeSort fun a b => !decide (keys.getD b 0 < keys.getD a 0)

end

/-! ## Section 2: Bits -/

/-- The bits of `v`, with a zero wherever bit `s` of the position is set, for a
    power of two `s`. -/
def Spread (s : Nat) (v : BitVec 32) (r : BitVec 64) : Prop :=
  ∀ j < 64, r.getLsbD j =
    (decide (j / s % 2 = 0) && v.getLsbD (j / (2 * s) * s + j % s))

theorem spread_start (v : BitVec 32) : Spread 32 v (v.setWidth 64) := by
  intro j hj
  rw [BitVec.getLsbD_setWidth, decide_eq_true hj, Bool.true_and]
  rcases Nat.lt_or_ge j 32 with hlow | hhigh
  · rw [show j / 32 % 2 = 0 by omega, show j / (2 * 32) * 32 + j % 32 = j by omega]
    rfl
  · rw [show j / 32 % 2 = 1 by omega, BitVec.getLsbD_of_ge v j hhigh]
    rfl

/-- Where a position of the next step comes from. -/
def Moves (s : Nat) : Prop :=
  ∀ j < 64, j / s % 2 = 0 →
    if j / (2 * s) % 2 = 0 then
      j / (2 * (2 * s)) * (2 * s) + j % (2 * s) = j / (2 * s) * s + j % s ∧
        (s ≤ j → (j - s) / (2 * s) % 2 = 1)
    else
      s ≤ j ∧ (j - s) / (2 * s) % 2 = 0 ∧
        (j - s) / (2 * (2 * s)) * (2 * s) + (j - s) % (2 * s) = j / (2 * s) * s + j % s

instance (s : Nat) : Decidable (Moves s) := by
  unfold Moves
  infer_instance

/-- **One step** of the spread. -/
theorem spread_step (s : Nat) (mask : BitVec 64) {v : BitVec 32} {r : BitVec 64} (hmoves : Moves s)
    (hmask : ∀ j < 64, mask.getLsbD j = decide (j / s % 2 = 0)) (h : Spread (2 * s) v r) :
    Spread s v ((r ||| (r <<< s)) &&& mask) := by
  intro j hj
  rw [BitVec.getLsbD_and, BitVec.getLsbD_or, BitVec.getLsbD_shiftLeft, hmask j hj, Bool.and_comm,
    decide_eq_true hj, Bool.true_and]
  by_cases hkeep : j / s % 2 = 0
  · rw [decide_eq_true hkeep, Bool.true_and, Bool.true_and]
    have hmove := hmoves j hj hkeep
    split at hmove
    · next hstay =>
      -- the bit stays, and what is shifted onto it is zero
      obtain ⟨hplace, hzero⟩ := hmove
      rw [h j hj, decide_eq_true hstay, Bool.true_and, hplace]
      rcases Nat.lt_or_ge j s with hlow | hhigh
      · simp [hlow]
      · rw [h (j - s) (by omega), hzero hhigh]
        simp
    · next hshift =>
      obtain ⟨hle, hfrom, hplace⟩ := hmove
      rw [h j hj, h (j - s) (by omega), decide_eq_false hshift, decide_eq_true hfrom, hplace]
      simp [hle]
  · rw [decide_eq_false hkeep, Bool.false_and, Bool.false_and]

theorem spread_end (v : BitVec 32) : Spread 1 v (spread v) := by
  have h16 := spread_step 16 0x0000FFFF0000FFFF#64 (by decide) (by decide) (spread_start v)
  have h8 := spread_step 8 0x00FF00FF00FF00FF#64 (by decide) (by decide) h16
  have h4 := spread_step 4 0x0F0F0F0F0F0F0F0F#64 (by decide) (by decide) h8
  have h2 := spread_step 2 0x3333333333333333#64 (by decide) (by decide) h4
  exact spread_step 1 0x5555555555555555#64 (by decide) (by decide) h2

theorem spread_even (v : BitVec 32) {i : Nat} (hi : i < 32) :
    (spread v).getLsbD (2 * i) = v.getLsbD i := by
  rw [spread_end v (2 * i) (by omega), show 2 * i / 1 % 2 = 0 by omega,
    show 2 * i / (2 * 1) * 1 + 2 * i % 1 = i by omega]
  rfl

theorem spread_odd (v : BitVec 32) {i : Nat} (hi : i < 32) :
    (spread v).getLsbD (2 * i + 1) = false := by
  rw [spread_end v (2 * i + 1) (by omega), show (2 * i + 1) / 1 % 2 = 1 by omega]
  rfl

/-- **The bits of the code.** -/
theorem encode_even (x y : BitVec 32) {i : Nat} (hi : i < 32) :
    (morton_encode_2d x y).getLsbD (2 * i) = x.getLsbD i := by
  rw [morton_encode_2d, BitVec.getLsbD_or, spread_even x hi, BitVec.getLsbD_shiftLeft]
  cases i with
  | zero => simp
  | succ i =>
    rw [show 2 * (i + 1) - 1 = 2 * i + 1 by omega, spread_odd y (by omega)]
    simp

theorem encode_odd (x y : BitVec 32) {i : Nat} (hi : i < 32) :
    (morton_encode_2d x y).getLsbD (2 * i + 1) = y.getLsbD i := by
  rw [morton_encode_2d, BitVec.getLsbD_or, spread_odd x hi, BitVec.getLsbD_shiftLeft,
    Nat.add_sub_cancel, spread_even y hi]
  simp [show 2 * i + 1 < 64 by omega]

theorem encode_injective {x y x' y' : BitVec 32}
    (h : morton_encode_2d x y = morton_encode_2d x' y') : x = x' ∧ y = y' := by
  refine ⟨BitVec.eq_of_getLsbD_eq ?_, BitVec.eq_of_getLsbD_eq ?_⟩
  · intro i hi
    rw [← encode_even x y hi, h, encode_even x' y' hi]
  · intro i hi
    rw [← encode_odd x y hi, h, encode_odd x' y' hi]

/-! ## Section 3: Order -/

theorem exists_top_bit {n m : Nat} (h : n < m) : ∃ i, n.testBit i = false ∧ m.testBit i = true ∧
    ∀ j, i < j → n.testBit j = m.testBit j := by
  have hne : n ^^^ m ≠ 0 := fun heq => h.ne (Nat.xor_eq_zero_iff.mp heq)
  obtain ⟨i, hi, habove⟩ := Nat.exists_most_significant_bit hne
  have hsame : ∀ j, i < j → n.testBit j = m.testBit j := by
    intro j hj
    have hzero := habove j hj
    rw [Nat.testBit_xor] at hzero
    simpa using hzero
  rw [Nat.testBit_xor] at hi
  cases hn : n.testBit i with
  | false =>
    rw [hn, Bool.false_xor] at hi
    exact ⟨i, hn, hi, hsame⟩
  | true =>
    -- then `n` would be the larger one
    have hm : m.testBit i = false := by
      rw [hn, Bool.true_xor] at hi
      simpa using hi
    exact absurd (Nat.lt_of_testBit i hm hn fun j hj => (hsame j hj).symm) h.not_gt

theorem testBit_encode (x y : BitVec 32) (j : Nat) :
    (morton_encode_2d x y).toNat.testBit j =
      if j % 2 = 0 then x.toNat.testBit (j / 2) else y.toNat.testBit (j / 2) := by
  rw [BitVec.testBit_toNat, BitVec.testBit_toNat, BitVec.testBit_toNat]
  rcases Nat.lt_or_ge j 64 with hlow | hhigh
  · split
    · next heven =>
      rw [← encode_even x y (show j / 2 < 32 by omega), show 2 * (j / 2) = j by omega]
    · next hodd =>
      rw [← encode_odd x y (show j / 2 < 32 by omega), show 2 * (j / 2) + 1 = j by omega]
  · rw [BitVec.getLsbD_of_ge _ j hhigh, BitVec.getLsbD_of_ge x _ (by omega),
      BitVec.getLsbD_of_ge y _ (by omega), ite_self]

/-- **The code grows** with each coordinate. -/
theorem encode_lt_left {x x' : BitVec 32} (h : x < x') (y : BitVec 32) :
    morton_encode_2d x y < morton_encode_2d x' y := by
  obtain ⟨i, hi, hi', habove⟩ := exists_top_bit (BitVec.lt_def.mp h)
  apply BitVec.lt_def.mpr
  apply Nat.lt_of_testBit (2 * i)
  · rw [testBit_encode, if_pos (by omega), show 2 * i / 2 = i by omega]
    exact hi
  · rw [testBit_encode, if_pos (by omega), show 2 * i / 2 = i by omega]
    exact hi'
  · intro j hj
    rw [testBit_encode, testBit_encode]
    split
    · exact habove (j / 2) (by omega)
    · rfl

theorem encode_lt_right (x : BitVec 32) {y y' : BitVec 32} (h : y < y') :
    morton_encode_2d x y < morton_encode_2d x y' := by
  obtain ⟨i, hi, hi', habove⟩ := exists_top_bit (BitVec.lt_def.mp h)
  apply BitVec.lt_def.mpr
  apply Nat.lt_of_testBit (2 * i + 1)
  · rw [testBit_encode, if_neg (by omega), show (2 * i + 1) / 2 = i by omega]
    exact hi
  · rw [testBit_encode, if_neg (by omega), show (2 * i + 1) / 2 = i by omega]
    exact hi'
  · intro j hj
    rw [testBit_encode, testBit_encode]
    split
    · rfl
    · exact habove (j / 2) (by omega)

/-! ## Section 4: The sorted cells -/

section
variable {K : Type} [Field K] [LinearOrder K] [IsStrictOrderedRing K] [FloorRing K]

theorem normalize_coord_returns (val min_val max_val : K) : ∃ v,
    normalize_coord val min_val max_val = .returned v ∧ v.toNat ≤ 65535 := by
  unfold normalize_coord
  split
  · exact ⟨0, rfl, by decide⟩
  · have hlow : 0 ≤ max 0 (min 1 ((val - min_val) / (max_val - min_val))) := le_max_left _ _
    have hhigh : max 0 (min 1 ((val - min_val) / (max_val - min_val))) ≤ 1 :=
      max_le zero_le_one (min_le_left _ _)
    dsimp only
    generalize max 0 (min 1 ((val - min_val) / (max_val - min_val))) = t at hlow hhigh ⊢
    have hfloor_low : 0 ≤ ⌊t * 65535⌋ := Int.floor_nonneg.mpr (by positivity)
    have hfloor_high : ⌊t * 65535⌋ ≤ 65535 := by
      have hle : ⌊t * 65535⌋ ≤ ⌊(65535 : K)⌋ := Int.floor_le_floor (by linarith)
      rwa [Int.floor_ofNat] at hle
    refine ⟨_, if_pos ⟨hfloor_low, by omega⟩, ?_⟩
    rw [BitVec.toNat_ofInt]
    omega

theorem morton_keys_returns (centroids : List (K × K)) : ∃ keys,
    morton_keys centroids = .returned keys ∧ keys.length = centroids.length := by
  cases centroids with
  | nil => exact ⟨[], rfl, rfl⟩
  | cons c centroids =>
    have hkeys : ∃ keys, morton_keys (c :: centroids) = .returned keys := by
      apply Outcome.mapM_returns.mpr
      intro centroid _
      obtain ⟨ix, hix, _⟩ := normalize_coord_returns centroid.1 (lower c.1 (centroids.map Prod.fst))
        (upper c.1 (centroids.map Prod.fst))
      obtain ⟨iy, hiy, _⟩ := normalize_coord_returns centroid.2 (lower c.2 (centroids.map Prod.snd))
        (upper c.2 (centroids.map Prod.snd))
      refine ⟨morton_encode_2d ix iy, ?_⟩
      rw [hix, hiy]
      rfl
    obtain ⟨keys, hkeys⟩ := hkeys
    exact ⟨keys, hkeys, (Outcome.mapM_eq_returned.mp hkeys).length_eq.symm⟩

theorem sorted_by_keys (keys : List (BitVec 64)) (n : Nat) :
    let perm := (List.range n).mergeSort fun a b => !decide (keys.getD b 0 < keys.getD a 0)
    perm.Perm (List.range n) ∧ (perm.map fun j => keys.getD j 0).Pairwise (· ≤ ·) := by
  intro perm
  refine ⟨List.mergeSort_perm _ _, List.pairwise_map.mpr ?_⟩
  have hsorted : perm.Pairwise fun a b => !decide (keys.getD b 0 < keys.getD a 0) := by
    apply List.pairwise_mergeSort
    · intro a b c hab hbc
      simp only [Bool.not_eq_true', decide_eq_false_iff_not, BitVec.not_lt] at hab hbc ⊢
      exact BitVec.le_trans hab hbc
    · intro a b
      simp only [Bool.or_eq_true, Bool.not_eq_true', decide_eq_false_iff_not, BitVec.not_lt]
      exact BitVec.le_total _ _
  refine hsorted.imp ?_
  intro a b hab
  simpa using hab

variable (K)

end

end Axis.Morton

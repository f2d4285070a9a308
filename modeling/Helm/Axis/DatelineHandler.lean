import Mathlib
import Helm.Axis.ConservativeRect

/-! # AXIS: cells across the dateline

  Before a cell is clipped in the plane, the x-coordinates of its nodes are
  looked at. If two adjacent ones are more than `pi` apart, the cell is taken
  to cross the dateline: all are brought into `[0, 2 * pi)`, and those before
  the largest gap are moved to the end. The code does not know the unit of the
  coordinates.

  Coordinates are elements of an ordered field; the results are about the real
  numbers and their `π`.

  Main results: `normalize_shortest`, `normalize_fixed_iff`,
  `cell_polygons_right_iff`.
-/

namespace Axis.DatelineHandler

/-! ## Section 1: The code -/

section
variable {K : Type} [Field K] [LinearOrder K] [FloorRing K] (pi : K)

/-- Each longitude with the next one, the last with the first. -/
def adjacent (lons : List K) : List (K × K) := lons.zip (lons.rotate 1)

def crosses_dateline (lons : List K) : Bool :=
  if lons.length < 2 then false
  else (adjacent lons).any fun (a, b) =>
    let raw_diff := b - a
    decide (raw_diff > pi) || decide (raw_diff < -pi)

/-- The loop `while (x < 0.0) x += two_pi`, for `rounds` rounds at most. -/
def add_turns (two_pi : K) : Nat → K → K
  | 0, x => x
  | rounds + 1, x => if x < 0 then add_turns two_pi rounds (x + two_pi) else x

/-- The loop `while (x >= two_pi) x -= two_pi`. -/
def sub_turns (two_pi : K) : Nat → K → K
  | 0, x => x
  | rounds + 1, x => if x ≥ two_pi then sub_turns two_pi rounds (x - two_pi) else x

/-- More rounds than the loops take. -/
def rounds (two_pi x : K) : Nat := ⌈|x| / two_pi⌉₊ + 1

/-- Both loops. -/
def wrap (two_pi x : K) : K :=
  sub_turns two_pi (rounds two_pi x) (add_turns two_pi (rounds two_pi x) x)

/-- The largest gap so far, and its upper edge. -/
def widen (best : K × K) (pair : K × K) : K × K :=
  if pair.2 - pair.1 > best.1 then (pair.2 - pair.1, pair.2) else best

/-- The upper edge of the largest gap between sorted longitudes, or from the
    last to the first one. -/
def gap_start (two_pi : K) (sorted : List K) : K :=
  let best := (sorted.zip sorted.tail).foldl widen (0, 0)
  let wrap_gap := sorted.headD 0 + two_pi - sorted.getLastD 0
  if wrap_gap > best.1 then sorted.headD 0 + two_pi else best.2

section
local instance half_turns : Nat.AtLeastTwo 2 := inferInstance

def normalize (lons : List K) : List K :=
  if lons.length < 2 then lons
  else
    let two_pi := 2 * pi
    let lons := lons.map (wrap two_pi)
    let ref := gap_start two_pi ((lons.take 32).insertionSort (· ≤ ·))
    lons.map fun lon => wrap two_pi (lon - ref) + ref

end

/-- The longitudes that a clipper gets. -/
def polygon_lons (lons : List K) : List K :=
  if lons.length ≥ 2 ∧ crosses_dateline pi lons then normalize pi lons else lons

/-- What the polygons of a mesh are made from. -/
structure Mesh (K : Type) where
  coord_sys : CoordinateSystem
  node_coords : Nat → K × K
  conn_offsets : Nat → Nat
  conn_indices : Nat → Nat

/-- The nodes of a cell. -/
def Mesh.cell_nodes {K : Type} (mesh : Mesh K) (cell_idx : Nat) : List (K × K) :=
  let start := mesh.conn_offsets cell_idx
  let n_verts := mesh.conn_offsets (cell_idx + 1) - start
  (List.range' start n_verts).map fun i => mesh.node_coords (mesh.conn_indices i)

/-- No more than 32 nodes are normalized. -/
def extract_cell_polygon (mesh : Mesh K) (cell_idx : Nat) : List (K × K) :=
  let poly := mesh.cell_nodes cell_idx
  let xs := poly.map (·.1)
  (polygon_lons pi (xs.take 32) ++ xs.drop 32).zip (poly.map (·.2))

/-- The polygon that `generate_conservative_impl` fills; it has room for 32. -/
def planar_polygon (mesh : Mesh K) (cell_idx : Nat) : List (K × K) :=
  let poly := (mesh.cell_nodes cell_idx).take 32
  (polygon_lons pi (poly.map (·.1))).zip (poly.map (·.2))

end

/-! ## Section 2: The loops -/

section
variable {K : Type} [Field K] [LinearOrder K] [IsStrictOrderedRing K] [FloorRing K] {two_pi : K}

theorem add_turns_spec (hpos : 0 < two_pi) (n : Nat) {x : K} (hn : -(n * two_pi) ≤ x)
    (hlt : x < two_pi * (n + 1)) :
    ∃ k : Int, add_turns two_pi n x = x + k * two_pi ∧ 0 ≤ add_turns two_pi n x ∧
      add_turns two_pi n x < two_pi * (n + 1) := by
  induction n generalizing x with
  | zero =>
    refine ⟨0, by simp [add_turns], ?_, hlt⟩
    simpa [add_turns] using hn
  | succ n ih =>
    unfold add_turns
    by_cases hneg : x < 0
    · rw [if_pos hneg]
      push_cast at hn hlt ⊢
      have hbound : x + two_pi < two_pi * (n + 1) := by
        have hnonneg : 0 ≤ two_pi * n := mul_nonneg hpos.le (Nat.cast_nonneg n)
        linarith
      obtain ⟨k, hk, hlow, hhigh⟩ := ih (x := x + two_pi) (by linarith) hbound
      refine ⟨k + 1, ?_, hlow, by linarith⟩
      rw [hk]
      push_cast
      ring
    · rw [if_neg hneg]
      exact ⟨0, by simp, not_lt.mp hneg, hlt⟩

theorem sub_turns_spec (n : Nat) {x : K} (hlow : 0 ≤ x) (hlt : x < two_pi * (n + 1)) :
    ∃ k : Int, sub_turns two_pi n x = x + k * two_pi ∧ 0 ≤ sub_turns two_pi n x ∧
      sub_turns two_pi n x < two_pi := by
  induction n generalizing x with
  | zero =>
    refine ⟨0, by simp [sub_turns], hlow, ?_⟩
    simpa [sub_turns] using hlt
  | succ n ih =>
    unfold sub_turns
    by_cases hge : x ≥ two_pi
    · rw [if_pos hge]
      push_cast at hlt
      obtain ⟨k, hk, hbounds⟩ := ih (x := x - two_pi) (by linarith) (by linarith)
      refine ⟨k - 1, ?_, hbounds⟩
      rw [hk]
      push_cast
      ring
    · rw [if_neg hge]
      exact ⟨0, by simp, hlow, not_le.mp hge⟩

/-- **The loops end** with the remainder. -/
theorem wrap_spec (hpos : 0 < two_pi) (x : K) :
    ∃ k : Int, wrap two_pi x = x + k * two_pi ∧ 0 ≤ wrap two_pi x ∧ wrap two_pi x < two_pi := by
  have habs : |x| ≤ two_pi * ⌈|x| / two_pi⌉₊ := by
    rw [← div_le_iff₀' hpos]
    exact Nat.le_ceil _
  have hlow := neg_abs_le x
  have hhigh := le_abs_self x
  obtain ⟨k, hk, hnonneg, hlt⟩ := @add_turns_spec K _ _ _ _ two_pi hpos (rounds two_pi x) x
    (by unfold rounds; push_cast; linarith) (by unfold rounds; push_cast; linarith)
  obtain ⟨l, hl, hbounds⟩ := sub_turns_spec (rounds two_pi x) hnonneg hlt
  refine ⟨k + l, ?_, hbounds⟩
  unfold wrap
  rw [hl, hk]
  push_cast
  ring

theorem eq_of_turns {x y : K} {k : Int} (hpos : 0 < two_pi) (h : y = x + k * two_pi) (hx : 0 ≤ x)
    (hx' : x < two_pi) (hy : 0 ≤ y) (hy' : y < two_pi) : y = x := by
  have hlow : (-1 : K) < k := by
    by_contra hle
    have hmul := mul_le_mul_of_nonneg_right (not_lt.mp hle) hpos.le
    linarith
  have hhigh : (k : K) < 1 := by
    by_contra hge
    have hmul := mul_le_mul_of_nonneg_right (not_lt.mp hge) hpos.le
    linarith
  have hzero : k = 0 := by
    have hlow' : (-1 : Int) < k := by exact_mod_cast hlow
    have hhigh' : k < 1 := by exact_mod_cast hhigh
    omega
  rw [h, hzero, Int.cast_zero, zero_mul, add_zero]

theorem wrap_eq {x y : K} {k : Int} (hpos : 0 < two_pi) (h : y = x + k * two_pi) (hy : 0 ≤ y)
    (hy' : y < two_pi) : wrap two_pi x = y := by
  obtain ⟨l, hl, hlow, hhigh⟩ := wrap_spec hpos x
  apply eq_of_turns (k := l - k) hpos _ hy hy' hlow hhigh
  rw [hl, h]
  push_cast
  ring

end

/-! ## Section 3: Gaps -/

section
variable {K : Type} [LinearOrder K] {s : List K} {u v : K}

/-- Two values of a list without one between them. -/
structure Consecutive (l : List K) (u v : K) : Prop where
  left : u ∈ l
  right : v ∈ l
  lt : u < v
  none_between : ∀ w ∈ l, w ≤ u ∨ v ≤ w

theorem neighbours (hs : s.Pairwise (· ≤ ·)) (h : (u, v) ∈ s.zip s.tail) :
    u ∈ s ∧ v ∈ s ∧ ∀ w ∈ s, w ≤ u ∨ v ≤ w := by
  induction s with
  | nil => exact absurd h List.not_mem_nil
  | cons x r ih =>
    match r with
    | [] => exact absurd h List.not_mem_nil
    | y :: r =>
      obtain ⟨hfirst, hrest⟩ := List.pairwise_cons.mp hs
      rcases List.mem_cons.mp h with heq | hmem
      · obtain ⟨rfl, rfl⟩ := Prod.mk.inj heq
        refine ⟨List.mem_cons_self, List.mem_cons_of_mem _ List.mem_cons_self, ?_⟩
        intro w hw
        rcases List.mem_cons.mp hw with rfl | hw
        · exact .inl le_rfl
        · right
          rcases List.mem_cons.mp hw with rfl | hw
          · exact le_rfl
          · exact (List.pairwise_cons.mp hrest).1 w hw
      · obtain ⟨hu, hv, hbetween⟩ := ih hrest hmem
        refine ⟨List.mem_cons_of_mem _ hu, List.mem_cons_of_mem _ hv, ?_⟩
        intro w hw
        rcases List.mem_cons.mp hw with rfl | hw
        · exact .inl (hfirst u hu)
        · exact hbetween w hw

theorem Consecutive.neighbours (hs : s.Pairwise (· ≤ ·)) (h : Consecutive s u v) :
    (u, v) ∈ s.zip s.tail := by
  induction s with
  | nil => exact absurd h.left List.not_mem_nil
  | cons x r ih =>
    obtain ⟨hfirst, hrest⟩ := List.pairwise_cons.mp hs
    have hv : v ∈ r := by
      rcases List.mem_cons.mp h.right with rfl | hv
      · rcases List.mem_cons.mp h.left with rfl | hu
        · exact absurd h.lt (lt_irrefl u)
        · exact absurd h.lt (not_lt.mpr (hfirst u hu))
      · exact hv
    match r with
    | y :: r =>
      show (u, v) ∈ (x, y) :: (y :: r).zip r
      by_cases hu : u ∈ y :: r
      · exact List.mem_cons_of_mem _ (ih hrest
          ⟨hu, hv, h.lt, fun w hw => h.none_between w (List.mem_cons_of_mem _ hw)⟩)
      · -- the left one is the first, so the right one is the second
        have hux : u = x := (List.mem_cons.mp h.left).resolve_right hu
        have hvy : y ≤ v := by
          rcases List.mem_cons.mp hv with rfl | hv
          · exact le_rfl
          · exact (List.pairwise_cons.mp hrest).1 v hv
        rcases h.none_between y (List.mem_cons_of_mem _ List.mem_cons_self) with hle | hge
        · have hyu : y = u := le_antisymm hle (hux ▸ hfirst y List.mem_cons_self)
          exact absurd (hyu ▸ List.mem_cons_self) hu
        · rw [hux, le_antisymm hge hvy]
          exact List.mem_cons_self

theorem zip_tail_ordered (hs : s.Pairwise (· ≤ ·)) :
    (s.zip s.tail).Pairwise fun p q => p.2 ≤ q.1 := by
  induction s with
  | nil => exact List.Pairwise.nil
  | cons x r ih =>
    match r with
    | [] => exact List.Pairwise.nil
    | y :: r =>
      obtain ⟨-, hrest⟩ := List.pairwise_cons.mp hs
      show ((x, y) :: (y :: r).zip r).Pairwise fun p q => p.2 ≤ q.1
      refine List.pairwise_cons.mpr ⟨?_, ih hrest⟩
      intro q hq
      rcases List.mem_cons.mp (neighbours hrest hq).1 with heq | hmem
      · exact heq.ge
      · exact (List.pairwise_cons.mp hrest).1 q.1 hmem

/-- The smallest and the largest value. -/
structure Bounds (s : List K) (first last : K) : Prop where
  first_mem : first ∈ s
  last_mem : last ∈ s
  le : ∀ y ∈ s, first ≤ y ∧ y ≤ last

end

theorem widen_spec {K : Type} [Field K] [LinearOrder K] (l : List (K × K)) (best : K × K) :
    (l.foldl widen best = best ∧ ∀ q ∈ l, q.2 - q.1 ≤ best.1) ∨
    ∃ front p back, l = front ++ p :: back ∧ l.foldl widen best = (p.2 - p.1, p.2) ∧
      best.1 < p.2 - p.1 ∧ (∀ q ∈ front, q.2 - q.1 < p.2 - p.1) ∧
      ∀ q ∈ back, q.2 - q.1 ≤ p.2 - p.1 := by
  induction l generalizing best with
  | nil => exact .inl ⟨rfl, fun q hq => absurd hq List.not_mem_nil⟩
  | cons a l ih =>
    rw [List.foldl_cons]
    unfold widen
    by_cases hwider : a.2 - a.1 > best.1
    · rw [if_pos hwider]
      right
      rcases ih (a.2 - a.1, a.2) with ⟨hbest, hall⟩ | ⟨front, p, back, rfl, hp, hless, hfront, hback⟩
      · exact ⟨[], a, l, rfl, hbest, hwider, fun q hq => absurd hq List.not_mem_nil, hall⟩
      · refine ⟨a :: front, p, back, rfl, hp, hwider.trans hless, ?_, hback⟩
        intro q hq
        rcases List.mem_cons.mp hq with rfl | hq
        · exact hless
        · exact hfront q hq
    · rw [if_neg hwider]
      rcases ih best with ⟨hbest, hall⟩ | ⟨front, p, back, rfl, hp, hless, hfront, hback⟩
      · left
        refine ⟨hbest, ?_⟩
        intro q hq
        rcases List.mem_cons.mp hq with rfl | hq
        · exact not_lt.mp hwider
        · exact hall q hq
      · right
        refine ⟨a :: front, p, back, rfl, hp, hless, ?_, hback⟩
        intro q hq
        rcases List.mem_cons.mp hq with rfl | hq
        · exact (not_lt.mp hwider).trans_lt hless
        · exact hfront q hq

section
variable {K : Type} [Field K] [LinearOrder K] [IsStrictOrderedRing K] {two_pi : K} {s : List K}

/-- **The largest gap** of size `g` on the circle, which ends at `t`: between
    the last and the first value and larger than all others, or between two
    consecutive values and larger than those before. -/
structure LargestGap (two_pi : K) (s : List K) (first last g t : K) : Prop where
  gaps : ∀ u v, Consecutive s u v → v - u ≤ g
  wrap_gap : first + two_pi - last ≤ g
  choice : (t = first + two_pi ∧ g = first + two_pi - last ∧
      ∀ u v, Consecutive s u v → v - u < g) ∨
    ∃ u, Consecutive s u t ∧ g = t - u ∧
      ∀ u' v', Consecutive s u' v' → v' ≤ u → v' - u' < g

theorem gap_start_spec (hs : s.Pairwise (· ≤ ·)) {first last : K} (hb : Bounds s first last)
    (hlt : last < first + two_pi) :
    ∃ g, LargestGap two_pi s first last g (gap_start two_pi s) := by
  have hhead : s.headD 0 = first := by
    match s, hs, hb with
    | x :: r, hs, hb =>
      apply le_antisymm
      · rcases List.mem_cons.mp hb.first_mem with heq | hmem
        · exact heq.ge
        · exact (List.pairwise_cons.mp hs).1 first hmem
      · exact (hb.le x List.mem_cons_self).1
  have hlast : s.getLastD 0 = last := by
    have hne : s ≠ [] := List.ne_nil_of_mem hb.first_mem
    rw [List.getLastD_eq_getLast?, List.getLast?_eq_some_getLast hne, Option.getD_some]
    apply le_antisymm
    · exact (hb.le _ (List.getLast_mem hne)).2
    · exact List.Pairwise.rel_getLast hs hb.last_mem
  unfold gap_start
  dsimp only
  rw [hhead, hlast]
  have hcons : ∀ u v, Consecutive s u v → (u, v) ∈ s.zip s.tail := fun u v h => h.neighbours hs
  rcases widen_spec (s.zip s.tail) (0, 0) with
    ⟨hbest, hall⟩ | ⟨front, p, back, hsplit, hbest, hpos, hfront, hback⟩
  · rw [hbest, if_pos (show first + two_pi - last > 0 by linarith)]
    have hgap : ∀ u v, Consecutive s u v → v - u < first + two_pi - last := by
      intro u v huv
      have hle := hall _ (hcons u v huv)
      dsimp only at hle
      linarith
    exact ⟨_, fun u v huv => (hgap u v huv).le, le_rfl, .inl ⟨rfl, rfl, hgap⟩⟩
  · rw [hbest]
    dsimp only
    have hle : ∀ u v, Consecutive s u v → v - u ≤ p.2 - p.1 := by
      intro u v huv
      have hmem := hcons u v huv
      rw [hsplit] at hmem
      rcases List.mem_append.mp hmem with hmem | hmem
      · exact (hfront _ hmem).le
      · rcases List.mem_cons.mp hmem with heq | hmem
        · rw [← heq]
        · exact hback _ hmem
    by_cases hwrap : first + two_pi - last > p.2 - p.1
    · rw [if_pos hwrap]
      have hgap : ∀ u v, Consecutive s u v → v - u < first + two_pi - last :=
        fun u v huv => (hle u v huv).trans_lt hwrap
      exact ⟨_, fun u v huv => (hgap u v huv).le, le_rfl, .inl ⟨rfl, rfl, hgap⟩⟩
    · rw [if_neg hwrap]
      have hmem : (p.1, p.2) ∈ s.zip s.tail := by
        rw [hsplit]
        exact List.mem_append_right _ List.mem_cons_self
      obtain ⟨hu, hv, hbetween⟩ := neighbours hs hmem
      have hconsecutive : Consecutive s p.1 p.2 := ⟨hu, hv, by dsimp only at hpos; linarith, hbetween⟩
      refine ⟨p.2 - p.1, hle, not_lt.mp hwrap, .inr ⟨p.1, hconsecutive, rfl, ?_⟩⟩
      intro u' v' huv hbefore
      have hmem' := hcons u' v' huv
      have hordered := zip_tail_ordered hs
      rw [hsplit] at hmem' hordered
      rcases List.mem_append.mp hmem' with hmem' | hmem'
      · exact hfront _ hmem'
      · exfalso
        have hlt' := hconsecutive.lt
        have hlt'' := huv.lt
        rcases List.mem_cons.mp hmem' with heq | hmem'
        · rw [← heq] at hlt' hbefore
          exact absurd hlt' (not_lt.mpr hbefore)
        · have hafter := (List.pairwise_cons.mp (List.pairwise_append.mp hordered).2.1).1 _ hmem'
          dsimp only at hafter
          linarith

end

/-! ## Section 4: Whole turns -/

section
variable {K : Type} [Field K]

/-- The same longitudes up to whole turns. -/
def Turned (unit : K) (xs zs : List K) : Prop :=
  List.Forall₂ (fun x z => ∃ k : Int, z = x + k * unit) xs zs

/-- The values fit into a window of this width. -/
def FitsIn [LE K] (w : K) (l : List K) : Prop := ∃ a, ∀ x ∈ l, a ≤ x ∧ x ≤ a + w

theorem Turned.exists_right {unit : K} {zs : List K} (h : Turned unit xs zs) {x : K} (hx : x ∈ xs) :
    ∃ z ∈ zs, ∃ k : Int, z = x + k * unit := by
  unfold Turned at h
  induction h with
  | nil => exact absurd hx List.not_mem_nil
  | cons hfirst _ ih =>
    rcases List.mem_cons.mp hx with rfl | hx
    · exact ⟨_, List.mem_cons_self, hfirst⟩
    · obtain ⟨z, hz, hk⟩ := ih hx
      exact ⟨z, List.mem_cons_of_mem _ hz, hk⟩

theorem Turned.exists_left {unit : K} {zs : List K} (h : Turned unit xs zs) {z : K} (hz : z ∈ zs) :
    ∃ x ∈ xs, ∃ k : Int, z = x + k * unit := by
  unfold Turned at h
  induction h with
  | nil => exact absurd hz List.not_mem_nil
  | cons hfirst _ ih =>
    rcases List.mem_cons.mp hz with rfl | hz
    · exact ⟨_, List.mem_cons_self, hfirst⟩
    · obtain ⟨x, hx, hk⟩ := ih hz
      exact ⟨x, List.mem_cons_of_mem _ hx, hk⟩

end

/-! ## Section 5: Normalization -/

section
variable {K : Type} [Field K] [LinearOrder K] [IsStrictOrderedRing K] [FloorRing K]
  {pi two_pi : K} {xs s : List K} {first last g t : K}

/-- Values before `t` are moved behind the others. -/
def place (two_pi t y : K) : K := if t ≤ y then y else y + two_pi

/-- **The circle** of the longitudes: the values in `[0, 2 * pi)`, and where the
    largest gap between them ends. -/
structure Circle (two_pi : K) (xs s : List K) (first last g t : K) : Prop where
  mem_iff : ∀ y, y ∈ s ↔ ∃ x ∈ xs, wrap two_pi x = y
  bounds : Bounds s first last
  first_nonneg : 0 ≤ first
  last_lt : last < two_pi
  largest : LargestGap two_pi s first last g t

theorem Circle.t_bounds (h : Circle two_pi xs s first last g t) :
    0 ≤ t ∧ t ≤ first + two_pi ∧ ∀ y ∈ s, y - t < two_pi ∧ -two_pi ≤ y - t := by
  have hfirst := h.first_nonneg
  have hlast := h.last_lt
  have hle := (h.bounds.le _ h.bounds.first_mem).2
  rcases h.largest.choice with ⟨ht, -, -⟩ | ⟨u, hu, -, -⟩
  · refine ⟨by linarith, ht.le, ?_⟩
    intro y hy
    obtain ⟨hlow, hhigh⟩ := h.bounds.le y hy
    constructor <;> linarith
  · obtain ⟨hlow, hhigh⟩ := h.bounds.le t hu.right
    refine ⟨by linarith, by linarith, ?_⟩
    intro y hy
    obtain ⟨hlow', hhigh'⟩ := h.bounds.le y hy
    constructor <;> linarith

theorem Circle.wrap_place (h : Circle two_pi xs s first last g t) (hpos : 0 < two_pi) {y : K}
    (hy : y ∈ s) : wrap two_pi (y - t) + t = place two_pi t y := by
  obtain ⟨hlt, hge⟩ := h.t_bounds.2.2 y hy
  unfold place
  by_cases hbehind : t ≤ y
  · rw [if_pos hbehind, wrap_eq (y := y - t) (k := 0) hpos (by simp) (by linarith) hlt]
    ring
  · rw [if_neg hbehind, wrap_eq (y := y - t + two_pi) (k := 1) hpos (by simp) (by linarith)
      (by linarith [not_le.mp hbehind])]
    ring

/-- **Normalized longitudes** lie on the circle after its largest gap. -/
theorem normalize_spec (hpi : 0 < pi) (htwo : 2 ≤ xs.length) (hfew : xs.length ≤ 32) :
    ∃ s first last g t, Circle (2 * pi) xs s first last g t ∧
      normalize pi xs = xs.map fun x => place (2 * pi) t (wrap (2 * pi) x) := by
  have hpos : 0 < 2 * pi := by linarith
  set s := (xs.map (wrap (2 * pi))).insertionSort (· ≤ ·) with hs
  have hsorted : s.Pairwise (· ≤ ·) := List.pairwise_insertionSort _ _
  have hmem : ∀ y, y ∈ s ↔ ∃ x ∈ xs, wrap (2 * pi) x = y := by
    intro y
    rw [hs, (List.perm_insertionSort _ _).mem_iff, List.mem_map]
  have hrange : ∀ y ∈ s, 0 ≤ y ∧ y < 2 * pi := by
    intro y hy
    obtain ⟨x, -, rfl⟩ := (hmem y).mp hy
    obtain ⟨-, -, hbounds⟩ := wrap_spec hpos x
    exact hbounds
  obtain ⟨first, last, hbounds⟩ : ∃ first last, Bounds s first last := by
    have hne : s ≠ [] := by
      intro hnil
      have hlength := congrArg List.length hnil
      rw [hs, List.length_insertionSort, List.length_map, List.length_nil] at hlength
      omega
    refine ⟨s.head hne, s.getLast hne, List.head_mem hne, List.getLast_mem hne, ?_⟩
    intro y hy
    exact ⟨hsorted.rel_head hy, hsorted.rel_getLast hy⟩
  have hfirst := (hrange first hbounds.first_mem).1
  have hlast := (hrange last hbounds.last_mem).2
  obtain ⟨g, hlargest⟩ := gap_start_spec hsorted hbounds (show last < first + 2 * pi by linarith)
  have hcircle : Circle (2 * pi) xs s first last g (gap_start (2 * pi) s) :=
    ⟨hmem, hbounds, hfirst, hlast, hlargest⟩
  refine ⟨s, first, last, g, _, hcircle, ?_⟩
  unfold normalize
  rw [if_neg (by omega)]
  dsimp only
  rw [List.take_of_length_le (by rwa [List.length_map]), List.map_map]
  apply List.map_congr_left
  intro x hx
  exact hcircle.wrap_place hpos ((hmem _).mpr ⟨x, hx, rfl⟩)

/-! ### The turned longitudes -/

theorem place_wrap_turned (hpos : 0 < two_pi) (x : K) :
    ∃ k : Int, place two_pi t (wrap two_pi x) = x + k * two_pi := by
  obtain ⟨k, hk, -⟩ := wrap_spec hpos x
  unfold place
  split
  · exact ⟨k, hk⟩
  · refine ⟨k + 1, ?_⟩
    rw [hk]
    push_cast
    ring

theorem normalize_turned (hpi : 0 < pi) (htwo : 2 ≤ xs.length) (hfew : xs.length ≤ 32) :
    Turned (2 * pi) xs (normalize pi xs) := by
  obtain ⟨s, first, last, g, t, -, heq⟩ := normalize_spec hpi htwo hfew
  rw [heq]
  unfold Turned
  rw [List.forall₂_map_right_iff, List.forall₂_same]
  intro x _
  exact place_wrap_turned (by linarith) x

theorem exists_consecutive {K : Type} [LinearOrder K] {s : List K} {y z : K} (hy : y ∈ s)
    (hz : z ∈ s) (hlt : y < z) : ∃ v, Consecutive s y v := by
  obtain ⟨v, hv, hmin⟩ := (s.toFinset.filter (y < ·)).exists_min_image id
    ⟨z, Finset.mem_filter.mpr ⟨List.mem_toFinset.mpr hz, hlt⟩⟩
  obtain ⟨hvs, hyv⟩ := Finset.mem_filter.mp hv
  refine ⟨v, hy, List.mem_toFinset.mp hvs, hyv, ?_⟩
  intro w hw
  rcases le_or_gt w y with hle | hgt
  · exact .inl hle
  · exact .inr (hmin w (Finset.mem_filter.mpr ⟨List.mem_toFinset.mpr hw, hgt⟩))

/-- **The next value on the circle** is not further away than the largest gap. -/
theorem Circle.next (h : Circle two_pi xs s first last g t) {y : K} (hy : y ∈ s) :
    ∃ y' ∈ s, ∃ k : Int, 0 < y' + k * two_pi - y ∧ y' + k * two_pi - y ≤ g := by
  have hle := (h.bounds.le y hy).2
  rcases hle.lt_or_eq with hlt | rfl
  · obtain ⟨v, hv⟩ := exists_consecutive hy h.bounds.last_mem hlt
    have hgap := h.largest.gaps y v hv
    have hpos := hv.lt
    refine ⟨v, hv.right, 0, ?_, ?_⟩
    · rw [Int.cast_zero, zero_mul, add_zero]
      linarith
    · rwa [Int.cast_zero, zero_mul, add_zero]
  · have hfirst := h.first_nonneg
    have hlast := h.last_lt
    refine ⟨first, h.bounds.first_mem, 1, ?_, ?_⟩
    · rw [Int.cast_one, one_mul]
      linarith
    · rw [Int.cast_one, one_mul]
      exact h.largest.wrap_gap

theorem Circle.le_of_fits (h : Circle two_pi xs s first last g t) (hpos : 0 < two_pi) {zs : List K}
    {w : K} (hz : Turned two_pi xs zs) (hfits : FitsIn w zs) : two_pi - g ≤ w := by
  by_contra hlt
  obtain ⟨a, ha⟩ := hfits
  -- the last of the values in the window
  obtain ⟨x₁, hx₁, -⟩ := (h.mem_iff first).mp h.bounds.first_mem
  obtain ⟨z₁, hz₁, -⟩ := hz.exists_right hx₁
  obtain ⟨z₀, hz₀, hmax⟩ := zs.toFinset.exists_max_image id ⟨z₁, List.mem_toFinset.mpr hz₁⟩
  rw [List.mem_toFinset] at hz₀
  obtain ⟨x₀, hx₀, k₀, hk₀⟩ := hz.exists_left hz₀
  obtain ⟨l₀, hl₀, -⟩ := wrap_spec hpos x₀
  -- the next value on the circle, as it is turned
  obtain ⟨y', hy', k, hnext, hgap⟩ := h.next ((h.mem_iff _).mpr ⟨x₀, hx₀, rfl⟩)
  obtain ⟨x', hx', rfl⟩ := (h.mem_iff y').mp hy'
  obtain ⟨l', hl', -⟩ := wrap_spec hpos x'
  obtain ⟨z', hz', k', hk'⟩ := hz.exists_right hx'
  have hle : z' ≤ z₀ := hmax z' (List.mem_toFinset.mpr hz')
  have hlow := (ha z' hz').1
  have hhigh := (ha z₀ hz₀).2
  have hturns : z₀ + (wrap two_pi x' + k * two_pi - wrap two_pi x₀) =
      z' + ((k₀ + l' + k - l₀ - k' : Int) : K) * two_pi := by
    rw [hk₀, hk', hl₀, hl']
    push_cast
    ring
  have hone : (1 : K) ≤ ((k₀ + l' + k - l₀ - k' : Int) : K) := by
    have hpos' : (0 : K) < ((k₀ + l' + k - l₀ - k' : Int) : K) := by
      by_contra hle'
      have hmul := mul_nonpos_of_nonpos_of_nonneg (not_lt.mp hle') hpos.le
      linarith
    have hint : 0 < k₀ + l' + k - l₀ - k' := by exact_mod_cast hpos'
    exact_mod_cast hint
  have hturn := mul_le_mul_of_nonneg_right hone hpos.le
  rw [not_le] at hlt
  linarith

/-- **The shortest range**: what holds some turned longitudes holds the
    normalized ones. -/
theorem normalize_shortest (hpi : 0 < pi) (htwo : 2 ≤ xs.length) (hfew : xs.length ≤ 32)
    {zs : List K} {w : K} (hz : Turned (2 * pi) xs zs) (hfits : FitsIn w zs) :
    FitsIn w (normalize pi xs) := by
  obtain ⟨s, first, last, g, t, hcircle, heq⟩ := normalize_spec hpi htwo hfew
  have hle := hcircle.le_of_fits (by linarith) hz hfits
  have hfirst := hcircle.first_nonneg
  have hlast := hcircle.last_lt
  rw [heq]
  rcases hcircle.largest.choice with ⟨ht, hg, -⟩ | ⟨u, hu, hg, -⟩
  · refine ⟨first + 2 * pi, ?_⟩
    intro z hz
    obtain ⟨x, hx, rfl⟩ := List.mem_map.mp hz
    obtain ⟨hlow, hhigh⟩ := hcircle.bounds.le _ ((hcircle.mem_iff _).mpr ⟨x, hx, rfl⟩)
    unfold place
    rw [if_neg (by linarith)]
    constructor <;> linarith
  · refine ⟨t, ?_⟩
    intro z hz
    obtain ⟨x, hx, rfl⟩ := List.mem_map.mp hz
    have hmem := (hcircle.mem_iff _).mpr ⟨x, hx, rfl⟩
    obtain ⟨hlow, hhigh⟩ := hcircle.bounds.le _ hmem
    have hu_low := (hcircle.bounds.le _ hu.left).1
    have ht_high := (hcircle.bounds.le _ hu.right).2
    unfold place
    split
    · next hbehind => exact ⟨hbehind, by linarith⟩
    · next hbefore =>
      have hbelow := (hu.none_between _ hmem).resolve_right hbefore
      constructor <;> linarith

end

/-! ## Section 6: What normalization leaves as it is -/

section
variable {K : Type} [Field K] [LinearOrder K] [IsStrictOrderedRing K] [FloorRing K]
  {pi two_pi : K} {xs s : List K} {first last g t lo hi u v y : K}

/-- Where normalized longitudes lie: after `0`, not all of them before
    `two_pi`, in less than a turn. -/
structure Window (two_pi : K) (xs : List K) (lo hi : K) : Prop where
  bounds : Bounds xs lo hi
  pos : 0 < lo
  reaches : two_pi ≤ hi
  below : hi < 2 * two_pi
  fits : hi < lo + two_pi

/-- **Normalized already**: moreover no gap is larger than the one which is left
    out, and those from `two_pi` on are smaller. -/
structure Normal (two_pi : K) (xs : List K) (lo hi : K) : Prop extends Window two_pi xs lo hi where
  gaps : ∀ u v, Consecutive xs u v → v - u ≤ lo + two_pi - hi
  later_gaps : ∀ u v, Consecutive xs u v → two_pi ≤ u → v - u < lo + two_pi - hi

def AlreadyNormal (two_pi : K) (xs : List K) : Prop := ∃ lo hi, Normal two_pi xs lo hi

theorem Window.wrap_eq (h : Window two_pi xs lo hi) {x : K} (hx : x ∈ xs) :
    (x < two_pi ∧ wrap two_pi x = x) ∨ (two_pi ≤ x ∧ wrap two_pi x = x - two_pi) := by
  obtain ⟨hlow, hhigh⟩ := h.bounds.le x hx
  have hpos := h.pos
  have hreaches := h.reaches
  have hbelow := h.below
  have htwo : 0 < two_pi := by linarith
  rcases lt_or_ge x two_pi with hlt | hge
  · exact .inl ⟨hlt, DatelineHandler.wrap_eq (k := 0) htwo (by simp) (by linarith) hlt⟩
  · right
    refine ⟨hge, DatelineHandler.wrap_eq (k := -1) htwo ?_ (by linarith) (by linarith)⟩
    push_cast
    ring

theorem Window.mem_iff (h : Window two_pi xs lo hi) (hc : Circle two_pi xs s first last g t) :
    y ∈ s ↔ 0 ≤ y ∧ y < two_pi ∧ (y ∈ xs ∨ y + two_pi ∈ xs) := by
  have hpos := h.pos
  have hbelow := h.below
  rw [hc.mem_iff]
  constructor
  · rintro ⟨x, hx, rfl⟩
    obtain ⟨hlow, hhigh⟩ := h.bounds.le x hx
    rcases h.wrap_eq hx with ⟨hlt, heq⟩ | ⟨hge, heq⟩
    · rw [heq]
      exact ⟨by linarith, hlt, .inl hx⟩
    · rw [heq, sub_add_cancel]
      exact ⟨by linarith, by linarith, .inr hx⟩
  · intro ⟨hnonneg, hlt, hmem⟩
    rcases hmem with hmem | hmem
    · rcases h.wrap_eq hmem with ⟨-, heq⟩ | ⟨hge, -⟩
      · exact ⟨y, hmem, heq⟩
      · exact absurd hlt (not_lt.mpr hge)
    · rcases h.wrap_eq hmem with ⟨hlt', -⟩ | ⟨-, heq⟩
      · exact absurd hlt' (by linarith)
      · exact ⟨_, hmem, by rw [heq, add_sub_cancel_right]⟩

theorem Window.mem_of_le (h : Window two_pi xs lo hi) (hc : Circle two_pi xs s first last g t)
    (hy : y ∈ s) (hle : lo ≤ y) : y ∈ xs := by
  have hfits := h.fits
  rcases ((h.mem_iff hc).mp hy).2.2 with hmem | hmem
  · exact hmem
  · exact absurd (h.bounds.le _ hmem).2 (by linarith)

theorem Window.mem_of_lt (h : Window two_pi xs lo hi) (hc : Circle two_pi xs s first last g t)
    (hy : y ∈ s) (hlt : y < lo) : y + two_pi ∈ xs ∧ y ≤ hi - two_pi := by
  rcases ((h.mem_iff hc).mp hy).2.2 with hmem | hmem
  · exact absurd (h.bounds.le _ hmem).1 (not_le.mpr hlt)
  · exact ⟨hmem, by linarith [(h.bounds.le _ hmem).2]⟩

theorem Window.mem_low (h : Window two_pi xs lo hi) (hc : Circle two_pi xs s first last g t)
    (hy : y ∈ xs) (hlt : y < two_pi) : y ∈ s :=
  (h.mem_iff hc).mpr ⟨h.pos.le.trans (h.bounds.le y hy).1, hlt, .inl hy⟩

theorem Window.mem_high (h : Window two_pi xs lo hi) (hc : Circle two_pi xs s first last g t)
    (hy : y ∈ xs) (hge : two_pi ≤ y) : y - two_pi ∈ s := by
  have hbelow := h.below
  have hle := (h.bounds.le y hy).2
  rw [h.mem_iff hc, sub_add_cancel]
  exact ⟨by linarith, by linarith, .inr hy⟩

theorem Window.gap_low (h : Window two_pi xs lo hi) (hc : Circle two_pi xs s first last g t)
    (hlt : v < two_pi) : Consecutive xs u v ↔ lo ≤ u ∧ Consecutive s u v := by
  have hfits := h.fits
  constructor
  · intro huv
    have hu := (h.bounds.le u huv.left).1
    have huv_lt := huv.lt
    refine ⟨hu, h.mem_low hc huv.left (by linarith), h.mem_low hc huv.right hlt, huv_lt, ?_⟩
    intro w hw
    rcases le_or_gt lo w with hle | hgt
    · exact huv.none_between w (h.mem_of_le hc hw hle)
    · exact .inl (hgt.le.trans hu)
  · intro ⟨hu, huv⟩
    have huv_lt := huv.lt
    refine ⟨h.mem_of_le hc huv.left hu, h.mem_of_le hc huv.right (by linarith), huv_lt, ?_⟩
    intro x hx
    rcases lt_or_ge x two_pi with hx_lt | hx_ge
    · exact huv.none_between x (h.mem_low hc hx hx_lt)
    · exact .inr (hlt.le.trans hx_ge)

theorem Window.gap_high (h : Window two_pi xs lo hi) (hc : Circle two_pi xs s first last g t)
    (hge : two_pi ≤ u) :
    Consecutive xs u v ↔ v ≤ hi ∧ Consecutive s (u - two_pi) (v - two_pi) := by
  have hfits := h.fits
  constructor
  · intro huv
    have huv_lt := huv.lt
    have hv := (h.bounds.le v huv.right).2
    refine ⟨hv, h.mem_high hc huv.left hge, h.mem_high hc huv.right (by linarith), by linarith, ?_⟩
    intro w hw
    rcases le_or_gt lo w with hle | hgt
    · exact .inr (by linarith)
    · rcases huv.none_between _ (h.mem_of_lt hc hw hgt).1 with hle | hle
      · exact .inl (by linarith)
      · exact .inr (by linarith)
  · intro ⟨hv, huv⟩
    have huv_lt := huv.lt
    have hu_mem := (h.mem_of_lt hc huv.left (by linarith)).1
    have hv_mem := (h.mem_of_lt hc huv.right (by linarith)).1
    rw [sub_add_cancel] at hu_mem hv_mem
    refine ⟨hu_mem, hv_mem, by linarith, ?_⟩
    intro x hx
    rcases lt_or_ge x two_pi with hx_lt | hx_ge
    · exact .inl (hx_lt.le.trans hge)
    · rcases huv.none_between _ (h.mem_high hc hx hx_ge) with hle | hle
      · exact .inl (by linarith)
      · exact .inr (by linarith)

theorem Window.gap_across (h : Window two_pi xs lo hi) (hc : Circle two_pi xs s first last g t)
    (hlo : lo < two_pi) : Consecutive xs last (first + two_pi) ∧
      ∀ u v, Consecutive xs u v → u < two_pi → two_pi ≤ v → v - u ≤ first + two_pi - last := by
  have hfits := h.fits
  have hnonneg := hc.first_nonneg
  have hlt := hc.last_lt
  have hhi := h.mem_high hc h.bounds.last_mem h.reaches
  have hlo_mem := h.mem_low hc h.bounds.first_mem hlo
  have hfirst := (hc.bounds.le _ hhi).1
  have hlast := (hc.bounds.le _ hlo_mem).2
  refine ⟨⟨h.mem_of_le hc hc.bounds.last_mem hlast,
    (h.mem_of_lt hc hc.bounds.first_mem (by linarith)).1, by linarith, ?_⟩, ?_⟩
  · intro x hx
    rcases lt_or_ge x two_pi with hx_lt | hx_ge
    · exact .inl (hc.bounds.le x (h.mem_low hc hx hx_lt)).2
    · exact .inr (by linarith [(hc.bounds.le _ (h.mem_high hc hx hx_ge)).1])
  · intro u v huv hu hv
    have hv_le : v ≤ first + two_pi := by
      rcases huv.none_between _ (h.mem_of_lt hc hc.bounds.first_mem (by linarith)).1 with hle | hle
      · exact absurd hle (by linarith)
      · exact hle
    have hu_ge : last ≤ u := by
      rcases huv.none_between _ (h.mem_of_le hc hc.bounds.last_mem hlast) with hle | hle
      · exact hle
      · exact absurd hle (by linarith)
    linarith

theorem Window.gap_outside (h : Window two_pi xs lo hi) (hc : Circle two_pi xs s first last g t)
    (hlo : lo < two_pi) : Consecutive s (hi - two_pi) lo := by
  have hfits := h.fits
  refine ⟨h.mem_high hc h.bounds.last_mem h.reaches, h.mem_low hc h.bounds.first_mem hlo,
    by linarith, ?_⟩
  intro w hw
  rcases le_or_gt lo w with hle | hgt
  · exact .inr hle
  · exact .inl (h.mem_of_lt hc hw hgt).2

/-- **The window is found again.** -/
theorem Normal.start_eq (h : Normal two_pi xs lo hi) (hc : Circle two_pi xs s first last g t) :
    t = lo := by
  have hfits := h.fits
  rcases le_or_gt two_pi lo with hge | hlo
  · -- all values are from `two_pi` on
    have hfirst : first = lo - two_pi := by
      apply le_antisymm
      · exact (hc.bounds.le _ (h.mem_high hc h.bounds.first_mem hge)).1
      · have hmem := (h.mem_of_lt hc hc.bounds.first_mem ?_).1
        · linarith [(h.bounds.le _ hmem).1]
        · linarith [hc.last_lt, (hc.bounds.le _ hc.bounds.first_mem).2]
    have hlast : last ≤ hi - two_pi :=
      (h.mem_of_lt hc hc.bounds.last_mem (hc.last_lt.trans_le hge)).2
    rcases hc.largest.choice with ⟨ht, -, -⟩ | ⟨u, hu, hg, -⟩
    · rw [ht, hfirst, sub_add_cancel]
    · exfalso
      have hnonneg := hc.first_nonneg
      have hu_low := (hc.bounds.le u hu.left).1
      have ht_high := (hc.bounds.le t hu.right).2
      have hwrap := hc.largest.wrap_gap
      have hmoved : Consecutive xs (u + two_pi) (t + two_pi) := by
        rw [h.gap_high hc (by linarith), add_sub_cancel_right, add_sub_cancel_right]
        exact ⟨by linarith, hu⟩
      have hless := h.later_gaps _ _ hmoved (by linarith)
      linarith
  · have houtside := h.gap_outside hc hlo
    have hg_ge := hc.largest.gaps _ _ houtside
    rcases hc.largest.choice with ⟨ht, hg, hless⟩ | ⟨u, hu, hg, hbefore⟩
    · exfalso
      have hle := h.gaps _ _ (h.gap_across hc hlo).1
      have hlt := hless _ _ houtside
      linarith
    · have hu_lt := hu.lt
      have hu_low := hc.first_nonneg.trans (hc.bounds.le u hu.left).1
      have ht_high := (hc.bounds.le t hu.right).2.trans_lt hc.last_lt
      rcases houtside.none_between t hu.right with hle | hge
      · -- an earlier gap would be smaller
        exfalso
        have hmoved : Consecutive xs (u + two_pi) (t + two_pi) := by
          rw [h.gap_high hc (by linarith), add_sub_cancel_right, add_sub_cancel_right]
          exact ⟨by linarith, hu⟩
        have hlt := h.later_gaps _ _ hmoved (by linarith)
        linarith
      · rcases hu.none_between lo houtside.right with hlo_le | hlo_ge
        · -- of a later gap this one is before
          exfalso
          have hlt := hbefore _ _ houtside hlo_le
          have hle := h.gaps _ _ ((h.gap_low hc ht_high).mpr ⟨hlo_le, hu⟩)
          linarith
        · exact le_antisymm hlo_ge hge

/-- Normalized longitudes lie in a window, -/
theorem Circle.window_of_fixed (hc : Circle two_pi xs s first last g t)
    (hfixed : ∀ x ∈ xs, place two_pi t (wrap two_pi x) = x) : ∃ hi, Window two_pi xs t hi ∧
      g = t + two_pi - hi := by
  have hnonneg := hc.first_nonneg
  have hlast := hc.last_lt
  have hplace : ∀ y ∈ s, place two_pi t y ∈ xs := by
    intro y hy
    obtain ⟨x, hx, rfl⟩ := (hc.mem_iff y).mp hy
    rw [hfixed x hx]
    exact hx
  have hfirst_last := (hc.bounds.le _ hc.bounds.first_mem).2
  rcases hc.largest.choice with ⟨ht, hg, -⟩ | ⟨u, hu, hg, -⟩
  · have hmoved : ∀ y ∈ s, place two_pi t y = y + two_pi := by
      intro y hy
      exact if_neg (by linarith [(hc.bounds.le y hy).2])
    refine ⟨last + two_pi, ⟨⟨?_, ?_, ?_⟩, by linarith, by linarith, by linarith, by linarith⟩,
      by linarith⟩
    · rw [ht, ← hmoved first hc.bounds.first_mem]
      exact hplace _ hc.bounds.first_mem
    · rw [← hmoved last hc.bounds.last_mem]
      exact hplace _ hc.bounds.last_mem
    · intro x hx
      have hmem := (hc.mem_iff _).mpr ⟨x, hx, rfl⟩
      obtain ⟨hlow, hhigh⟩ := hc.bounds.le _ hmem
      rw [← hfixed x hx, hmoved _ hmem]
      constructor <;> linarith
  · have hu_lt := hu.lt
    have hu_low := (hc.bounds.le u hu.left).1
    have ht_high := (hc.bounds.le t hu.right).2
    refine ⟨u + two_pi, ⟨⟨?_, ?_, ?_⟩, by linarith, by linarith, by linarith, by linarith⟩,
      by linarith⟩
    · have hmem := hplace t hu.right
      rwa [place, if_pos le_rfl] at hmem
    · have hmem := hplace u hu.left
      rwa [place, if_neg (not_le.mpr hu_lt)] at hmem
    · intro x hx
      have hmem := (hc.mem_iff _).mpr ⟨x, hx, rfl⟩
      obtain ⟨hlow, hhigh⟩ := hc.bounds.le _ hmem
      rw [← hfixed x hx]
      unfold place
      split
      · next hbehind => exact ⟨hbehind, by linarith⟩
      · next hbefore =>
        have hbelow := (hu.none_between _ hmem).resolve_right hbefore
        constructor <;> linarith

/-- **What normalization leaves as it is** are the normalized longitudes. -/
theorem normalize_fixed_iff (hpi : 0 < pi) (htwo : 2 ≤ xs.length) (hfew : xs.length ≤ 32) :
    normalize pi xs = xs ↔ AlreadyNormal (2 * pi) xs := by
  obtain ⟨s, first, last, g, t, hc, heq⟩ := normalize_spec hpi htwo hfew
  have hiff : normalize pi xs = xs ↔ ∀ x ∈ xs, place (2 * pi) t (wrap (2 * pi) x) = x := by
    rw [heq]
    constructor
    · intro hmap x hx
      exact List.map_inj_left.mp (hmap.trans (List.map_id xs).symm) x hx
    · intro hfixed
      exact (List.map_congr_left hfixed).trans (List.map_id xs)
  rw [hiff]
  constructor
  · intro hfixed
    obtain ⟨hi, hw, hg⟩ := hc.window_of_fixed hfixed
    refine ⟨t, hi, hw, ?_, ?_⟩
    · intro u v huv
      have huv_lt := huv.lt
      rw [← hg]
      rcases lt_or_ge v (2 * pi) with hlt | hge
      · exact hc.largest.gaps u v ((hw.gap_low hc hlt).mp huv).2
      · rcases lt_or_ge u (2 * pi) with hu | hu
        · have ht := (hw.bounds.le u huv.left).1
          exact ((hw.gap_across hc (by linarith)).2 u v huv hu hge).trans hc.largest.wrap_gap
        · have hgap := hc.largest.gaps _ _ ((hw.gap_high hc hu).mp huv).2
          linarith
    · intro u v huv hu
      obtain ⟨hv, hmoved⟩ := (hw.gap_high hc hu).mp huv
      rw [← hg]
      rcases hc.largest.choice with ⟨-, -, hless⟩ | ⟨u', hu', hg', hbefore⟩
      · have hlt := hless _ _ hmoved
        linarith
      · have hlt := hbefore _ _ hmoved (by linarith)
        linarith
  · rintro ⟨lo, hi, h⟩ x hx
    have hfits := h.fits
    obtain ⟨hlow, hhigh⟩ := h.bounds.le x hx
    rw [h.start_eq hc]
    unfold place
    rcases h.wrap_eq hx with ⟨-, hwrap⟩ | ⟨-, hwrap⟩
    · rw [hwrap, if_pos hlow]
    · rw [hwrap, if_neg (by linarith), sub_add_cancel]

end

/-! ## Section 7: The polygons of cells -/

open Real

section
local instance turn_degrees : Nat.AtLeastTwo 360 := inferInstance

local instance turn_halves : Nat.AtLeastTwo 2 := inferInstance

/-- A whole turn in the unit of the coordinates. -/
noncomputable def turn : CoordinateSystem → ℝ
  | .SphericalDeg => 360
  | .SphericalRad => 2 * π
  | .Cartesian3D => 0

/-- **A cell across the seam** has adjacent nodes more than half a turn apart. -/
def CrossesSeam (csys : CoordinateSystem) (xs : List ℝ) : Prop :=
  csys ≠ .Cartesian3D ∧ ∃ p ∈ adjacent xs, turn csys / 2 < |p.2 - p.1|

end

/-- **The right longitudes** for the planar clipper: the cell's own up to whole
    turns of their unit, in the shortest range if the cell crosses the seam, and
    unchanged if it does not. -/
structure RightLons (csys : CoordinateSystem) (xs out : List ℝ) : Prop where
  turned : Turned (turn csys) xs out
  shortest : CrossesSeam csys xs →
    ∀ zs w, Turned (turn csys) xs zs → FitsIn w zs → FitsIn w out
  unchanged : ¬CrossesSeam csys xs → out = xs

/-- The right polygon; of a cell that is not across the seam it is the cell. -/
structure RightPolygon (csys : CoordinateSystem) (nodes poly : List (ℝ × ℝ)) : Prop where
  lons : RightLons csys (nodes.map (·.1)) (poly.map (·.1))
  lats : poly.map (·.2) = nodes.map (·.2)
  unchanged : ¬CrossesSeam csys (nodes.map (·.1)) → poly = nodes

section
local instance turn_radians : Nat.AtLeastTwo 2 := inferInstance

/-- **The inputs that are handled**: radians, cells without a step of more than
    `π`, and coordinates that normalization leaves as they are. -/
def Handled (csys : CoordinateSystem) (xs : List ℝ) : Prop :=
  csys = .SphericalRad ∨ (∀ p ∈ adjacent xs, |p.2 - p.1| ≤ π) ∨ AlreadyNormal (2 * π) xs

end

section
variable {csys : CoordinateSystem} {xs out : List ℝ}

theorem crosses_dateline_iff :
    crosses_dateline π xs = true ↔ 2 ≤ xs.length ∧ ∃ p ∈ adjacent xs, π < |p.2 - p.1| := by
  unfold crosses_dateline
  by_cases hshort : xs.length < 2
  · rw [if_pos hshort]
    simp only [Bool.false_eq_true, false_iff, not_and]
    omega
  · rw [if_neg hshort, List.any_eq_true]
    have hstep : ∀ p : ℝ × ℝ, π < |p.2 - p.1| ↔
        (decide (p.2 - p.1 > π) || decide (p.2 - p.1 < -π)) = true := by
      intro p
      rw [lt_abs, Bool.or_eq_true, decide_eq_true_iff, decide_eq_true_iff, gt_iff_lt, lt_neg]
    simp only [hstep]
    constructor
    · intro h
      exact ⟨not_lt.mp hshort, h⟩
    · intro h
      exact h.2

theorem no_step (hshort : xs.length < 2) {p : ℝ × ℝ} (hp : p ∈ adjacent xs) :
    |p.2 - p.1| = 0 := by
  unfold adjacent at hp
  match xs, hshort with
  | [], _ => exact absurd hp List.not_mem_nil
  | [x], _ =>
    rw [List.rotate_singleton, List.zip_cons_cons, List.zip_nil_left, List.mem_singleton] at hp
    rw [hp, sub_self, abs_zero]

theorem step_or_cross :
    (∀ p ∈ adjacent xs, |p.2 - p.1| ≤ π) ∨ crosses_dateline π xs = true ∧ 2 ≤ xs.length := by
  by_contra hneither
  obtain ⟨hsteps, hcross⟩ := not_or.mp hneither
  apply hsteps
  intro p hp
  rcases lt_or_ge xs.length 2 with hshort | hlong
  · rw [no_step hshort hp]
    exact pi_nonneg
  · by_contra hbig
    exact hcross ⟨crosses_dateline_iff.mpr ⟨hlong, p, hp, not_le.mp hbig⟩, hlong⟩

theorem polygon_lons_of_steps (h : ∀ p ∈ adjacent xs, |p.2 - p.1| ≤ π) :
    polygon_lons π xs = xs := by
  unfold polygon_lons
  rw [if_neg]
  intro ⟨_, hcross⟩
  obtain ⟨-, p, hp, hbig⟩ := crosses_dateline_iff.mp hcross
  exact absurd (h p hp) (not_le.mpr hbig)

theorem polygon_lons_of_crosses (hlong : 2 ≤ xs.length) (h : crosses_dateline π xs = true) :
    polygon_lons π xs = normalize π xs :=
  if_pos ⟨hlong, h⟩

theorem length_polygon_lons : (polygon_lons π xs).length = xs.length := by
  unfold polygon_lons normalize
  split
  · split
    · rfl
    · simp only [List.length_map]
  · rfl

theorem half_turn (h : csys ≠ .Cartesian3D) : π ≤ turn csys / 2 := by
  have hpi := pi_lt_four
  unfold turn
  cases csys with
  | SphericalDeg => linarith
  | SphericalRad => linarith
  | Cartesian3D => exact absurd rfl h

theorem not_crosses_of_steps (h : ∀ p ∈ adjacent xs, |p.2 - p.1| ≤ π) : ¬CrossesSeam csys xs := by
  intro ⟨hcsys, p, hp, hbig⟩
  have hle := h p hp
  have hhalf := half_turn hcsys
  linarith

theorem turned_self (unit : ℝ) : Turned unit xs xs := by
  unfold Turned
  rw [List.forall₂_same]
  intro x _
  exact ⟨0, by simp⟩

theorem RightLons.self (h : ¬CrossesSeam csys xs) : RightLons csys xs xs :=
  ⟨turned_self _, fun hcross => absurd hcross h, fun _ => rfl⟩

theorem right_of_radians (hfew : xs.length ≤ 32) :
    RightLons .SphericalRad xs (polygon_lons π xs) := by
  rcases step_or_cross with hsteps | ⟨hcross, hlong⟩
  · rw [polygon_lons_of_steps hsteps]
    exact .self (not_crosses_of_steps hsteps)
  · rw [polygon_lons_of_crosses hlong hcross]
    obtain ⟨-, p, hp, hbig⟩ := crosses_dateline_iff.mp hcross
    refine ⟨normalize_turned pi_pos hlong hfew, ?_, ?_⟩
    · intro _ zs w hzs hfits
      exact normalize_shortest pi_pos hlong hfew hzs hfits
    · intro hnot
      apply absurd _ hnot
      refine ⟨by decide, p, hp, ?_⟩
      rwa [turn, mul_div_cancel_left₀ _ two_ne_zero]

theorem adjacent_mem {p : ℝ × ℝ} (hp : p ∈ adjacent xs) : p.1 ∈ xs ∧ p.2 ∈ xs := by
  obtain ⟨hleft, hright⟩ := List.of_mem_zip hp
  exact ⟨hleft, List.mem_rotate.mp hright⟩

theorem AlreadyNormal.not_crosses (h : AlreadyNormal (2 * π) xs) (hcsys : csys ≠ .SphericalRad) :
    ¬CrossesSeam csys xs := by
  intro ⟨hnot, p, hp, hbig⟩
  obtain ⟨lo, hi, hnormal⟩ := h
  have hfits := hnormal.fits
  have hpi := pi_lt_four
  obtain ⟨hleft, hright⟩ := adjacent_mem hp
  obtain ⟨hlow, hhigh⟩ := hnormal.bounds.le _ hleft
  obtain ⟨hlow', hhigh'⟩ := hnormal.bounds.le _ hright
  have hsmall : |p.2 - p.1| < 180 := by
    rw [abs_lt]
    constructor <;> linarith
  cases csys with
  | SphericalDeg =>
    unfold turn at hbig
    linarith
  | SphericalRad => exact hcsys rfl
  | Cartesian3D => exact hnot rfl

theorem eq_of_both_turned {unit : ℚ} {zs : List ℝ} (h : Turned (unit : ℝ) xs zs)
    (h' : Turned (2 * π) xs zs) : zs = xs := by
  unfold Turned at h h'
  induction h with
  | nil => rfl
  | @cons x z xs zs hfirst _ ih =>
    obtain ⟨hfirst', hrest'⟩ := List.forall₂_cons.mp h'
    obtain ⟨k, hk⟩ := hfirst
    obtain ⟨l, hl⟩ := hfirst'
    rw [ih hrest']
    have hzero : l = 0 := by
      by_contra hne
      apply irrational_pi
      refine ⟨k * unit / (2 * l), ?_⟩
      have hne' : (l : ℝ) ≠ 0 := Int.cast_ne_zero.mpr hne
      push_cast
      rw [div_eq_iff (mul_ne_zero two_ne_zero hne')]
      linarith
    rw [hl, hzero, Int.cast_zero, zero_mul, add_zero]

theorem turn_rational (h : csys ≠ .SphericalRad) : ∃ unit : ℚ, turn csys = unit := by
  cases csys with
  | SphericalDeg => exact ⟨360, by rw [turn]; norm_num⟩
  | SphericalRad => exact absurd rfl h
  | Cartesian3D => exact ⟨0, by rw [turn]; norm_num⟩

theorem polygon_lons_right_iff (hfew : xs.length ≤ 32) :
    RightLons csys xs (polygon_lons π xs) ↔ Handled csys xs := by
  unfold Handled
  by_cases hrad : csys = .SphericalRad
  · rw [hrad]
    exact ⟨fun _ => .inl rfl, fun _ => right_of_radians hfew⟩
  constructor
  · intro hright
    right
    rcases step_or_cross with hsteps | ⟨hcross, hlong⟩
    · exact .inl hsteps
    · right
      rw [← normalize_fixed_iff pi_pos hlong hfew]
      rw [polygon_lons_of_crosses hlong hcross] at hright
      obtain ⟨unit, hunit⟩ := turn_rational hrad
      exact eq_of_both_turned (hunit ▸ hright.turned) (normalize_turned pi_pos hlong hfew)
  · intro hhandled
    have hself : polygon_lons π xs = xs := by
      rcases step_or_cross with hsteps | ⟨hcross, hlong⟩
      · exact polygon_lons_of_steps hsteps
      · rw [polygon_lons_of_crosses hlong hcross]
        rcases hhandled with hcsys | hsteps | hnormal
        · exact absurd hcsys hrad
        · exact (polygon_lons_of_crosses hlong hcross).symm.trans (polygon_lons_of_steps hsteps)
        · exact (normalize_fixed_iff pi_pos hlong hfew).mpr hnormal
    rw [hself]
    rcases hhandled with hcsys | hsteps | hnormal
    · exact absurd hcsys hrad
    · exact .self (not_crosses_of_steps hsteps)
    · exact .self (hnormal.not_crosses hrad)

end

section
variable (mesh : Mesh ℝ) (cell_idx : Nat)

theorem polygons_eq (hfew : (mesh.cell_nodes cell_idx).length ≤ 32) :
    planar_polygon π mesh cell_idx = (polygon_lons π ((mesh.cell_nodes cell_idx).map (·.1))).zip
      ((mesh.cell_nodes cell_idx).map (·.2)) ∧
    extract_cell_polygon π mesh cell_idx = planar_polygon π mesh cell_idx := by
  unfold extract_cell_polygon planar_polygon
  dsimp only
  rw [List.take_of_length_le hfew]
  refine ⟨rfl, ?_⟩
  rw [List.take_of_length_le (by rwa [List.length_map]),
    List.drop_of_length_le (by rwa [List.length_map]), List.append_nil]

theorem cell_polygon_right_iff (csys : CoordinateSystem) (nodes : List (ℝ × ℝ))
    (hfew : nodes.length ≤ 32) :
    RightPolygon csys nodes ((polygon_lons π (nodes.map (·.1))).zip (nodes.map (·.2))) ↔
      Handled csys (nodes.map (·.1)) := by
  have hlength : (polygon_lons π (nodes.map (·.1))).length = (nodes.map (·.2)).length := by
    rw [length_polygon_lons, List.length_map, List.length_map]
  have hlons := List.map_fst_zip hlength.le
  have hlats := List.map_snd_zip hlength.ge
  rw [← polygon_lons_right_iff (by rwa [List.length_map])]
  constructor
  · intro h
    rw [← hlons]
    exact h.lons
  · intro h
    refine ⟨?_, hlats, ?_⟩
    · rw [hlons]
      exact h
    · intro hnot
      rw [h.unchanged hnot]
      exact (List.zip_of_prod rfl rfl).symm

/-- **The polygons handed to the planar clipper** are right just for the inputs
    that are handled. -/
theorem cell_polygons_right_iff
    (hfew : mesh.conn_offsets (cell_idx + 1) - mesh.conn_offsets cell_idx ≤ 32) :
    (RightPolygon mesh.coord_sys (mesh.cell_nodes cell_idx)
        (extract_cell_polygon π mesh cell_idx) ∧
      RightPolygon mesh.coord_sys (mesh.cell_nodes cell_idx) (planar_polygon π mesh cell_idx)) ↔
    Handled mesh.coord_sys ((mesh.cell_nodes cell_idx).map (·.1)) := by
  have hnodes : (mesh.cell_nodes cell_idx).length ≤ 32 := by
    unfold Mesh.cell_nodes
    rwa [List.length_map, List.length_range']
  obtain ⟨hplanar, hextract⟩ := polygons_eq mesh cell_idx hnodes
  rw [hextract, and_self, hplanar]
  exact cell_polygon_right_iff _ _ hnodes

/-- One cell of four nodes, four units wide. -/
def wide_cell (coord_sys : CoordinateSystem) : Mesh ℝ where
  coord_sys
  node_coords id := (if id = 1 ∨ id = 2 then 4 else 0, if id < 2 then 0 else 1)
  conn_offsets cell := 4 * cell
  conn_indices i := i

theorem wide_cell_lons (coord_sys : CoordinateSystem) :
    ((wide_cell coord_sys).cell_nodes 0).map (·.1) = [0, 4, 4, 0] := by
  simp [Mesh.cell_nodes, wide_cell, List.range']

theorem wide_cell_in_radians :
    RightPolygon .SphericalRad ((wide_cell .SphericalRad).cell_nodes 0)
        (extract_cell_polygon π (wide_cell .SphericalRad) 0) ∧
      RightPolygon .SphericalRad ((wide_cell .SphericalRad).cell_nodes 0)
        (planar_polygon π (wide_cell .SphericalRad) 0) :=
  (cell_polygons_right_iff (wide_cell .SphericalRad) 0 (by decide)).mpr (.inl rfl)

theorem wide_cell_not_kept {csys : CoordinateSystem} (hcsys : csys ≠ .SphericalRad) :
    ¬RightPolygon csys ((wide_cell csys).cell_nodes 0) (extract_cell_polygon π (wide_cell csys) 0) := by
  have hnodes : ((wide_cell csys).cell_nodes 0).length ≤ 32 := by
    unfold Mesh.cell_nodes
    rw [List.length_map, List.length_range']
    show 4 * (0 + 1) - 4 * 0 ≤ 32
    decide
  obtain ⟨hplanar, hextract⟩ := polygons_eq (wide_cell csys) 0 hnodes
  rw [hextract, hplanar, cell_polygon_right_iff _ _ hnodes, wide_cell_lons]
  intro hhandled
  rcases hhandled with hrad | hsteps | ⟨lo, hi, hnormal⟩
  · exact hcsys hrad
  · have hstep := hsteps (0, 4) (by simp [adjacent])
    have hpi := pi_lt_four
    norm_num at hstep
    linarith
  · have hlow := (hnormal.bounds.le 0 (by simp)).1
    exact absurd hnormal.pos (not_lt.mpr hlow)

theorem wide_cell_wrong :
    ¬RightPolygon .SphericalDeg ((wide_cell .SphericalDeg).cell_nodes 0)
        (extract_cell_polygon π (wide_cell .SphericalDeg) 0) ∧
      ¬RightPolygon .Cartesian3D ((wide_cell .Cartesian3D).cell_nodes 0)
        (extract_cell_polygon π (wide_cell .Cartesian3D) 0) :=
  ⟨wide_cell_not_kept (by decide), wide_cell_not_kept (by decide)⟩

end

end Axis.DatelineHandler

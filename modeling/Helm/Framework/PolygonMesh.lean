import Mathlib.Algebra.BigOperators.Intervals
import Mathlib.Algebra.Order.BigOperators.Group.Finset
import Mathlib.Tactic.Ring

/-! # Meshes of polygons

  A polygon is the list of its nodes in order. It runs along its edges from
  each node to the next one and back to the first. In a conforming mesh two
  polygons that share an edge run along it in opposite directions.

  Meshes that consist of strips of quads, one below the other, are counted
  strip by strip: `Strips.row_shared` and `Strips.side_shared`.
-/

namespace PolygonMesh

open Finset

variable {α : Type*}

/-! ## Section 1: Conforming meshes -/

/-- The directed edges of a polygon. -/
def edges (poly : List α) : List (α × α) := poly.zip (poly.rotate 1)

/-- How often the polygons run from `a` to `b`. -/
def traversals [DecidableEq α] (polys : List (List α)) (a b : α) : Nat :=
  (polys.flatMap edges).count (a, b)

/-- **A conforming mesh**: its polygons have all the nodes and no others. An
    edge inside is run along once in each direction, by two polygons, and one on
    the boundary once only. Edges from a node to itself do not count. -/
structure Conforming [DecidableEq α] (nodes : Set α) (Boundary : α → α → Prop)
    (polys : List (List α)) : Prop where
  within : ∀ poly ∈ polys, ∀ x ∈ poly, x ∈ nodes
  used : ∀ x ∈ nodes, ∃ poly ∈ polys, x ∈ poly
  inside : ∀ a b, a ≠ b → ¬Boundary a b → 0 < traversals polys a b →
    traversals polys a b = 1 ∧ traversals polys b a = 1
  boundary : ∀ a b, a ≠ b → Boundary a b → 0 < traversals polys a b →
    traversals polys a b = 1 ∧ traversals polys b a = 0
  apart : ∀ poly ∈ polys, ∀ a b, a ≠ b → (a, b) ∈ edges poly → (b, a) ∉ edges poly

/-! ## Section 2: Walks -/

section
variable [DecidableEq α] {p q : Nat → α} {n : Nat} {a b : α}

/-- How often the first `n` steps of a walk go from `a` to `b`. -/
def steps (p : Nat → α) (n : Nat) (a b : α) : Nat :=
  ∑ c ∈ range n, if p c = a ∧ p (c + 1) = b then 1 else 0

/-- How often two walks are at `a` and `b` before step `n`. -/
def meets (p q : Nat → α) (n : Nat) (a b : α) : Nat :=
  ∑ c ∈ range n, if p c = a ∧ q c = b then 1 else 0

theorem exists_of_meets_pos (h : 0 < meets p q n a b) : ∃ c < n, p c = a ∧ q c = b := by
  by_contra hnone
  apply h.ne'
  unfold meets
  apply sum_eq_zero
  intro c hc
  rw [if_neg]
  intro hboth
  exact hnone ⟨c, mem_range.mp hc, hboth⟩

theorem meets_le_one (h : ∀ c < n, ∀ d < n, p c = p d → q c = q d → c = d) :
    meets p q n a b ≤ 1 := by
  unfold meets
  rw [← card_filter, card_le_one]
  intro c hc d hd
  rw [mem_filter, mem_range] at hc hd
  exact h c hc.1 d hd.1 (hc.2.1.trans hd.2.1.symm) (hc.2.2.trans hd.2.2.symm)

theorem meets_shift : meets p q n a b + (if p n = a ∧ q n = b then 1 else 0) =
    meets (fun c => p (c + 1)) (fun c => q (c + 1)) n a b +
      (if p 0 = a ∧ q 0 = b then 1 else 0) := by
  unfold meets
  rw [← sum_range_succ (fun c => if p c = a ∧ q c = b then 1 else 0), sum_range_succ']

theorem meets_round (hp : p n = p 0) (hq : q n = q 0) : meets p q n a b =
    meets (fun c => p (c + 1)) (fun c => q (c + 1)) n a b := by
  have hshift := @meets_shift α _ p q n a b
  rw [hp, hq] at hshift
  exact Nat.add_right_cancel hshift

theorem exists_of_steps_pos (h : 0 < steps p n a b) : ∃ c < n, p c = a ∧ p (c + 1) = b :=
  @exists_of_meets_pos α _ p (fun c => p (c + 1)) n a b h

/-- **A slow walk**, which waits now and then, takes the same steps. -/
theorem steps_slow {w : Nat → Nat} (hstart : w 0 = 0)
    (hw : ∀ c < n, w (c + 1) = w c ∨ w (c + 1) = w c + 1) (hne : a ≠ b) :
    steps (fun c => p (w c)) n a b = steps p (w n) a b := by
  unfold steps
  induction n with
  | zero => rw [hstart, range_zero, sum_empty, sum_empty]
  | succ n ih =>
    rw [sum_range_succ, ih fun c hc => hw c (by omega)]
    dsimp only
    rcases hw n (by omega) with hwait | hmove
    · simp only [hwait]
      rw [if_neg, Nat.add_zero]
      intro ⟨ha, hb⟩
      exact hne (ha.symm.trans hb)
    · simp only [hmove, sum_range_succ]

theorem reaches {w : Nat → Nat} (hstart : w 0 = 0)
    (hw : ∀ c < n, w (c + 1) = w c ∨ w (c + 1) = w c + 1) {k : Nat} (hk : k < w n) :
    ∃ c < n, w c = k := by
  induction n with
  | zero =>
    rw [hstart] at hk
    exact absurd hk (Nat.not_lt_zero k)
  | succ n ih =>
    by_cases hbefore : k < w n
    · obtain ⟨c, hc, heq⟩ := ih (fun c hc => hw c (by omega)) hbefore
      exact ⟨c, by omega, heq⟩
    · have hlast := hw n (by omega)
      exact ⟨n, by omega, by omega⟩

theorem steps_once (hinj : ∀ c < n, ∀ d < n, p c = p d → c = d)
    (hback : ∀ c < n, ∀ d < n, p c = p (d + 1) → p (c + 1) ≠ p d) :
    steps p n a b + steps p n b a ≤ 1 := by
  have hle : ∀ a b, steps p n a b ≤ 1 := by
    intro a b
    exact meets_le_one (q := fun c => p (c + 1)) fun c hc d hd heq _ => hinj c hc d hd heq
  rcases Nat.eq_zero_or_pos (steps p n a b) with hzero | hpos
  · rw [hzero, Nat.zero_add]
    exact hle b a
  · rcases Nat.eq_zero_or_pos (steps p n b a) with hzero | hpos'
    · rw [hzero]
      exact hle a b
    · exfalso
      obtain ⟨c, hc, ha, hb⟩ := exists_of_steps_pos hpos
      obtain ⟨d, hd, hb', ha'⟩ := exists_of_steps_pos hpos'
      exact hback c hc d hd (ha.trans ha'.symm) (hb.trans hb'.symm)

theorem round_once (hthree : 3 ≤ n) (hround : p n = p 0)
    (hinj : ∀ c < n, ∀ d < n, p c = p d → c = d) : steps p n a b + steps p n b a ≤ 1 := by
  apply steps_once hinj
  -- the place in the round after each step
  have hnext : ∀ c < n, ∃ d < n, p (c + 1) = p d ∧ (d = c + 1 ∨ c + 1 = n ∧ d = 0) := by
    intro c hc
    rcases Nat.lt_or_ge (c + 1) n with hlt | hge
    · exact ⟨c + 1, hlt, rfl, .inl rfl⟩
    · have hlast : c + 1 = n := by omega
      exact ⟨0, by omega, by rw [hlast, hround], .inr ⟨hlast, rfl⟩⟩
  intro c hc d hd hfrom hto
  obtain ⟨c', hc', hpc, hcases⟩ := hnext c hc
  obtain ⟨d', hd', hpd, hcases'⟩ := hnext d hd
  have hsame := hinj c hc d' hd' (hfrom.trans hpd)
  have hsame' := hinj d hd c' hc' (hto.symm.trans hpc)
  omega

end

/-! ## Section 3: Strips of quads -/

section

/-- The quad between two steps. -/
def quad (p q : Nat → α) (c : Nat) : List α := [p c, p (c + 1), q (c + 1), q c]

def strips (m : Nat) (R : Nat → Nat) (P Q : Nat → Nat → α) : List (List α) :=
  (List.range m).flatMap fun j => (List.range (R j)).map (quad (P j) (Q j))

theorem edges_quad (p q : Nat → α) (c : Nat) : edges (quad p q c) =
    [(p c, p (c + 1)), (p (c + 1), q (c + 1)), (q (c + 1), q c), (q c, p c)] := rfl

theorem sum_range_list (n : Nat) (f : Nat → Nat) :
    ((List.range n).map f).sum = ∑ c ∈ range n, f c := rfl

variable [DecidableEq α]

theorem traversals_strip (p q : Nat → α) (n : Nat) (a b : α) :
    traversals ((List.range n).map (quad p q)) a b =
      steps p n a b + meets (fun c => p (c + 1)) (fun c => q (c + 1)) n a b +
        (steps q n b a + meets p q n b a) := by
  have hquad : ∀ c, (edges (quad p q c)).count (a, b) =
      ((if p c = a ∧ p (c + 1) = b then 1 else 0) +
        (if p (c + 1) = a ∧ q (c + 1) = b then 1 else 0)) +
      ((if q c = b ∧ q (c + 1) = a then 1 else 0) + (if p c = b ∧ q c = a then 1 else 0)) := by
    intro c
    have hswap : ∀ x y : α, (y = a ∧ x = b) = (x = b ∧ y = a) := fun x y => propext And.comm
    rw [edges_quad]
    simp only [List.count_cons, List.count_nil, beq_iff_eq, Prod.mk.injEq, hswap (q c),
      hswap (p c) (q c)]
    omega
  unfold traversals steps meets
  rw [List.flatMap_map, List.count_flatMap, ← sum_add_distrib, ← sum_add_distrib,
    ← sum_add_distrib, ← sum_range_list]
  congr 2
  funext c
  exact hquad c

variable {m : Nat} {R : Nat → Nat} {P Q : Nat → Nat → α} {row : α → Nat}
  {edge : Nat → α → α → Nat} {a b : α}

/-- **Strips one below the other**: strip `j` lies between row `j` and row
    `j + 1`, and on both sides of a row the same edges are walked along. -/
structure Strips (m : Nat) (R : Nat → Nat) (P Q : Nat → Nat → α) (row : α → Nat)
    (edge : Nat → α → α → Nat) : Prop where
  top_row : ∀ j < m, ∀ c ≤ R j, row (P j c) = j
  bottom_row : ∀ j < m, ∀ c ≤ R j, row (Q j c) = j + 1
  top_edge : ∀ j < m, ∀ a b, a ≠ b → steps (P j) (R j) a b = edge j a b
  bottom_edge : ∀ j < m, ∀ a b, a ≠ b → steps (Q j) (R j) a b = edge (j + 1) a b
  once : ∀ j ≤ m, ∀ a b, a ≠ b → edge j a b + edge j b a ≤ 1
  moves : ∀ j < m, ∀ c < R j, P j (c + 1) = P j c → Q j (c + 1) ≠ Q j c

theorem traversals_strips (a b : α) : traversals (strips m R P Q) a b =
    ∑ j ∈ range m, steps (P j) (R j) a b +
      ∑ j ∈ range m, meets (fun c => P j (c + 1)) (fun c => Q j (c + 1)) (R j) a b +
      (∑ j ∈ range m, steps (Q j) (R j) b a + ∑ j ∈ range m, meets (P j) (Q j) (R j) b a) := by
  rw [← sum_add_distrib, ← sum_add_distrib, ← sum_add_distrib, ← sum_range_list]
  unfold traversals strips
  rw [List.flatMap_assoc, List.count_flatMap]
  congr 2
  funext j
  exact traversals_strip (P j) (Q j) (R j) a b

theorem sum_of_row {f : Nat → Nat} {r : Nat} (h : ∀ j < m, f j ≠ 0 → j = r) :
    ∑ j ∈ range m, f j = if r < m then f r else 0 := by
  split
  · next hr =>
    apply sum_eq_single r
    · intro j hj hne
      by_contra hzero
      exact hne (h j (mem_range.mp hj) hzero)
    · intro hnot
      exact absurd (mem_range.mpr hr) hnot
  · next hr =>
    apply sum_eq_zero
    intro j hj
    by_contra hzero
    exact hr (h j (mem_range.mp hj) hzero ▸ mem_range.mp hj)

theorem sum_eq_zero_of_row {f : Nat → Nat} (h : ∀ j < m, f j = 0) : ∑ j ∈ range m, f j = 0 :=
  sum_eq_zero fun j hj => h j (mem_range.mp hj)

theorem Strips.rows_of_top (h : Strips m R P Q row edge) {j : Nat} (hj : j < m)
    (hne : steps (P j) (R j) a b ≠ 0) : row a = j ∧ row b = j := by
  obtain ⟨c, hc, rfl, rfl⟩ := exists_of_steps_pos (Nat.pos_of_ne_zero hne)
  exact ⟨h.top_row j hj c hc.le, h.top_row j hj (c + 1) hc⟩

theorem Strips.rows_of_bottom (h : Strips m R P Q row edge) {j : Nat} (hj : j < m)
    (hne : steps (Q j) (R j) a b ≠ 0) : row a = j + 1 ∧ row b = j + 1 := by
  obtain ⟨c, hc, rfl, rfl⟩ := exists_of_steps_pos (Nat.pos_of_ne_zero hne)
  exact ⟨h.bottom_row j hj c hc.le, h.bottom_row j hj (c + 1) hc⟩

theorem Strips.rows_of_left (h : Strips m R P Q row edge) {j : Nat} (hj : j < m)
    (hne : meets (P j) (Q j) (R j) a b ≠ 0) : row a = j ∧ row b = j + 1 := by
  obtain ⟨c, hc, rfl, rfl⟩ := exists_of_meets_pos (Nat.pos_of_ne_zero hne)
  exact ⟨h.top_row j hj c hc.le, h.bottom_row j hj c hc.le⟩

theorem Strips.rows_of_right (h : Strips m R P Q row edge) {j : Nat} (hj : j < m)
    (hne : meets (fun c => P j (c + 1)) (fun c => Q j (c + 1)) (R j) a b ≠ 0) :
    row a = j ∧ row b = j + 1 := by
  obtain ⟨c, hc, rfl, rfl⟩ := exists_of_meets_pos (Nat.pos_of_ne_zero hne)
  exact ⟨h.top_row j hj (c + 1) hc, h.bottom_row j hj (c + 1) hc⟩

/-- **Edges along a row** are seen from the strip below and from the one above. -/
theorem Strips.traversals_row (h : Strips m R P Q row edge) (hne : a ≠ b) (hrow : row a = row b) :
    traversals (strips m R P Q) a b = (if row a < m then edge (row a) a b else 0) +
      if 0 < row a ∧ row a ≤ m then edge (row a) b a else 0 := by
  have hright : ∀ j < m, meets (fun c => P j (c + 1)) (fun c => Q j (c + 1)) (R j) a b = 0 := by
    intro j hj
    by_contra hzero
    have hrows := h.rows_of_right hj hzero
    omega
  have hleft : ∀ j < m, meets (P j) (Q j) (R j) b a = 0 := by
    intro j hj
    by_contra hzero
    have hrows := h.rows_of_left hj hzero
    omega
  rw [traversals_strips, sum_eq_zero_of_row hright, sum_eq_zero_of_row hleft,
    sum_of_row fun j hj hzero => (h.rows_of_top hj hzero).1.symm, Nat.add_zero, Nat.add_zero]
  congr 1
  · split
    · next hlt => exact h.top_edge _ hlt a b hne
    · rfl
  · rw [sum_of_row (r := row a - 1) fun j hj hzero => by
      have hrows := h.rows_of_bottom hj hzero
      omega]
    by_cases hin : 0 < row a ∧ row a ≤ m
    · rw [if_pos hin, if_pos (by omega), h.bottom_edge _ (by omega) b a hne.symm,
        Nat.sub_add_cancel hin.1]
    · rw [if_neg hin]
      split
      · next hlt =>
        by_contra hzero
        have hrows := h.rows_of_bottom hlt hzero
        omega
      · rfl

/-- **Edges across a strip** are the left side of one quad and the right side
    of the one before. -/
theorem Strips.traversals_side (h : Strips m R P Q row edge) (hrow : row b = row a + 1)
    (hlt : row a < m) :
    traversals (strips m R P Q) a b =
        meets (fun c => P (row a) (c + 1)) (fun c => Q (row a) (c + 1)) (R (row a)) a b ∧
      traversals (strips m R P Q) b a = meets (P (row a)) (Q (row a)) (R (row a)) a b := by
  have htop : ∀ a b, row a ≠ row b → ∀ j < m, steps (P j) (R j) a b = 0 := by
    intro a b hrows j hj
    by_contra hzero
    obtain ⟨ha, hb⟩ := h.rows_of_top hj hzero
    exact hrows (ha.trans hb.symm)
  have hbottom : ∀ a b, row a ≠ row b → ∀ j < m, steps (Q j) (R j) a b = 0 := by
    intro a b hrows j hj
    by_contra hzero
    obtain ⟨ha, hb⟩ := h.rows_of_bottom hj hzero
    exact hrows (ha.trans hb.symm)
  have hleft : ∀ j < m, meets (P j) (Q j) (R j) b a = 0 := by
    intro j hj
    by_contra hzero
    have hrows := h.rows_of_left hj hzero
    omega
  have hright : ∀ j < m, meets (fun c => P j (c + 1)) (fun c => Q j (c + 1)) (R j) b a = 0 := by
    intro j hj
    by_contra hzero
    have hrows := h.rows_of_right hj hzero
    omega
  constructor
  · rw [traversals_strips, sum_eq_zero_of_row (htop a b (by omega)),
      sum_eq_zero_of_row (hbottom b a (by omega)), sum_eq_zero_of_row hleft,
      sum_of_row fun j hj hzero => (h.rows_of_right hj hzero).1.symm, if_pos hlt, Nat.zero_add,
      Nat.add_zero]
  · rw [traversals_strips, sum_eq_zero_of_row (htop b a (by omega)),
      sum_eq_zero_of_row (hbottom a b (by omega)), sum_eq_zero_of_row hright,
      sum_of_row fun j hj hzero => (h.rows_of_left hj hzero).1.symm, if_pos hlt]
    omega

theorem Strips.rows_of_traversals (h : Strips m R P Q row edge)
    (hpos : 0 < traversals (strips m R P Q) a b) :
    row a = row b ∨ (row b = row a + 1 ∧ row a < m) ∨ (row a = row b + 1 ∧ row b < m) := by
  by_contra hnone
  apply hpos.ne'
  rw [traversals_strips]
  have htop : ∀ j < m, steps (P j) (R j) a b = 0 := by
    intro j hj
    by_contra hzero
    have hrows := h.rows_of_top hj hzero
    omega
  have hbottom : ∀ j < m, steps (Q j) (R j) b a = 0 := by
    intro j hj
    by_contra hzero
    have hrows := h.rows_of_bottom hj hzero
    omega
  have hleft : ∀ j < m, meets (P j) (Q j) (R j) b a = 0 := by
    intro j hj
    by_contra hzero
    have hrows := h.rows_of_left hj hzero
    omega
  have hright : ∀ j < m, meets (fun c => P j (c + 1)) (fun c => Q j (c + 1)) (R j) a b = 0 := by
    intro j hj
    by_contra hzero
    have hrows := h.rows_of_right hj hzero
    omega
  rw [sum_eq_zero_of_row htop, sum_eq_zero_of_row hbottom, sum_eq_zero_of_row hleft,
    sum_eq_zero_of_row hright]

/-- **Along a row**: once in each direction, or once in the first and last row. -/
theorem Strips.row_shared (h : Strips m R P Q row edge) (hm : 0 < m) (hne : a ≠ b)
    (hrow : row a = row b) (hpos : 0 < traversals (strips m R P Q) a b) :
    traversals (strips m R P Q) a b = 1 ∧
      traversals (strips m R P Q) b a = if row a = 0 ∨ row a = m then 0 else 1 := by
  have hab := h.traversals_row hne hrow
  have hba := h.traversals_row hne.symm hrow.symm
  rw [← hrow] at hba
  rcases Nat.lt_or_ge m (row a) with hout | hin
  · rw [if_neg (by omega), if_neg (by omega)] at hab
    omega
  have honce := h.once (row a) hin a b hne
  by_cases hfirst : row a = 0
  · rw [if_pos (by omega), if_neg (by omega)] at hab hba
    rw [if_pos (.inl hfirst)]
    omega
  · by_cases hlast : row a = m
    · rw [if_neg (by omega), if_pos (by omega)] at hab hba
      rw [if_pos (.inr hlast)]
      omega
    · rw [if_pos (by omega), if_pos (by omega)] at hab hba
      rw [if_neg (by omega)]
      omega

theorem Strips.apart (h : Strips m R P Q row edge) {poly : List α} (hpoly : poly ∈ strips m R P Q)
    (hne : a ≠ b) (hab : (a, b) ∈ edges poly) : (b, a) ∉ edges poly := by
  obtain ⟨j, hj, hmem⟩ := List.mem_flatMap.mp hpoly
  obtain ⟨c, hc, rfl⟩ := List.mem_map.mp hmem
  rw [List.mem_range] at hj hc
  rw [edges_quad] at hab ⊢
  have htop := h.top_row j hj c hc.le
  have htop' := h.top_row j hj (c + 1) hc
  have hbottom := h.bottom_row j hj c hc.le
  have hbottom' := h.bottom_row j hj (c + 1) hc
  have hmoves := h.moves j hj c hc
  simp only [List.mem_cons, Prod.mk.injEq, List.not_mem_nil, or_false] at hab ⊢
  -- edges of different rows are different, and both sides are not the same
  rintro (⟨rfl, rfl⟩ | ⟨rfl, rfl⟩ | ⟨rfl, rfl⟩ | ⟨rfl, rfl⟩) <;> grind

theorem Strips.side_of_round (h : Strips m R P Q row edge) (hrow : row b = row a + 1)
    (hlt : row a < m) (hP : P (row a) (R (row a)) = P (row a) 0)
    (hQ : Q (row a) (R (row a)) = Q (row a) 0)
    (hinj : ∀ c < R (row a), ∀ d < R (row a), P (row a) c = P (row a) d →
      Q (row a) c = Q (row a) d → c = d)
    (hpos : 0 < traversals (strips m R P Q) a b + traversals (strips m R P Q) b a) :
    traversals (strips m R P Q) a b = 1 ∧ traversals (strips m R P Q) b a = 1 := by
  obtain ⟨hab, hba⟩ := h.traversals_side hrow hlt
  rw [← meets_round hP hQ] at hab
  have hle := @meets_le_one α _ _ _ _ a b hinj
  omega

/-- Across a strip with two ends, every edge but the first and the last one is
    shared. -/
theorem Strips.side_of_open (h : Strips m R P Q row edge) (hrow : row b = row a + 1)
    (hlt : row a < m)
    (hinj : ∀ c ≤ R (row a), ∀ d ≤ R (row a), P (row a) c = P (row a) d →
      Q (row a) c = Q (row a) d → c = d)
    (hpos : 0 < traversals (strips m R P Q) a b + traversals (strips m R P Q) b a) :
    ∃ c ≤ R (row a), P (row a) c = a ∧ Q (row a) c = b ∧
      traversals (strips m R P Q) a b = (if c = 0 then 0 else 1) ∧
      traversals (strips m R P Q) b a = if c = R (row a) then 0 else 1 := by
  obtain ⟨hab, hba⟩ := h.traversals_side hrow hlt
  have hshift := @meets_shift α _ (P (row a)) (Q (row a)) (R (row a)) a b
  -- the pairs of nodes from the first to the last edge across
  have hall := @meets_le_one α _ (P (row a)) (Q (row a)) (R (row a) + 1) a b
    fun c hc d hd => hinj c (by omega) d (by omega)
  have hsplit : meets (P (row a)) (Q (row a)) (R (row a) + 1) a b =
      meets (P (row a)) (Q (row a)) (R (row a)) a b +
        if P (row a) (R (row a)) = a ∧ Q (row a) (R (row a)) = b then 1 else 0 :=
    sum_range_succ _ _
  have hsome : 0 < meets (P (row a)) (Q (row a)) (R (row a) + 1) a b := by omega
  obtain ⟨c, hc, hPc, hQc⟩ := exists_of_meets_pos hsome
  have hat : ∀ d ≤ R (row a), (P (row a) d = a ∧ Q (row a) d = b) ↔ c = d := by
    intro d hd
    constructor
    · intro ⟨hPd, hQd⟩
      exact hinj c (by omega) d hd (hPc.trans hPd.symm) (hQc.trans hQd.symm)
    · intro hcd
      rw [← hcd]
      exact ⟨hPc, hQc⟩
  simp only [hat _ (le_refl _), hat 0 (Nat.zero_le _)] at hshift hsplit
  rw [show meets (P (row a)) (Q (row a)) (R (row a) + 1) a b = 1 by omega] at hsplit
  refine ⟨c, by omega, hPc, hQc, ?_, ?_⟩
  · rw [hab]
    by_cases hfirst : c = 0
    · rw [if_pos hfirst] at hshift ⊢
      omega
    · rw [if_neg hfirst] at hshift ⊢
      omega
  · rw [hba]
    by_cases hlast : c = R (row a)
    · rw [if_pos hlast] at hsplit ⊢
      omega
    · rw [if_neg hlast] at hsplit ⊢
      omega

/-- **The mesh conforms** if its edges across the strips do. -/
theorem Strips.conforming (h : Strips m R P Q row edge) (hm : 0 < m) {nodes : Set α}
    {Boundary : α → α → Prop} (hsymm : ∀ a b, Boundary a b → Boundary b a)
    (hends : ∀ a b, a ≠ b → row a = row b → (Boundary a b ↔ row a = 0 ∨ row a = m))
    (hside : ∀ a b, row b = row a + 1 → row a < m →
      0 < traversals (strips m R P Q) a b + traversals (strips m R P Q) b a →
      (Boundary a b → traversals (strips m R P Q) a b + traversals (strips m R P Q) b a = 1) ∧
      (¬Boundary a b →
        traversals (strips m R P Q) a b = 1 ∧ traversals (strips m R P Q) b a = 1))
    (hwithin : ∀ j < m, ∀ c ≤ R j, P j c ∈ nodes ∧ Q j c ∈ nodes)
    (hR : ∀ j < m, 0 < R j) (hused : ∀ x ∈ nodes, ∃ j < m, ∃ c ≤ R j, x = P j c ∨ x = Q j c) :
    Conforming nodes Boundary (strips m R P Q) := by
  have hshared : ∀ a b, a ≠ b → 0 < traversals (strips m R P Q) a b →
      traversals (strips m R P Q) a b = 1 ∧
        (Boundary a b → traversals (strips m R P Q) b a = 0) ∧
        (¬Boundary a b → traversals (strips m R P Q) b a = 1) := by
    intro a b hne hpos
    rcases h.rows_of_traversals hpos with hrow | ⟨hrow, hlt⟩ | ⟨hrow, hlt⟩
    · obtain ⟨hone, hback⟩ := h.row_shared hm hne hrow hpos
      have hiff := hends a b hne hrow
      refine ⟨hone, ?_, ?_⟩
      · intro hboundary
        rw [hback, if_pos (hiff.mp hboundary)]
      · intro hinside
        rw [hback, if_neg fun hrows => hinside (hiff.mpr hrows)]
    · obtain ⟨hend, hin⟩ := hside a b hrow hlt (by omega)
      by_cases hboundary : Boundary a b
      · have hsum := hend hboundary
        exact ⟨by omega, fun _ => by omega, fun hnot => absurd hboundary hnot⟩
      · obtain ⟨hone, hback⟩ := hin hboundary
        exact ⟨hone, fun hyes => absurd hyes hboundary, fun _ => hback⟩
    · obtain ⟨hend, hin⟩ := hside b a hrow hlt (by omega)
      by_cases hboundary : Boundary a b
      · have hsum := hend (hsymm a b hboundary)
        exact ⟨by omega, fun _ => by omega, fun hnot => absurd hboundary hnot⟩
      · obtain ⟨hback, hone⟩ := hin fun hyes => hboundary (hsymm b a hyes)
        exact ⟨hone, fun hyes => absurd hyes hboundary, fun _ => hback⟩
  constructor
  · intro poly hpoly x hx
    obtain ⟨j, hj, hmem⟩ := List.mem_flatMap.mp hpoly
    obtain ⟨c, hc, rfl⟩ := List.mem_map.mp hmem
    rw [List.mem_range] at hj hc
    obtain ⟨hPc, hQc⟩ := hwithin j hj c hc.le
    obtain ⟨hPc', hQc'⟩ := hwithin j hj (c + 1) hc
    simp only [quad, List.mem_cons, List.not_mem_nil, or_false] at hx
    rcases hx with rfl | rfl | rfl | rfl <;> assumption
  · intro x hx
    obtain ⟨j, hj, c, hc, hcase⟩ := hused x hx
    have hquad : ∀ d < R j, quad (P j) (Q j) d ∈ strips m R P Q := by
      intro d hd
      exact List.mem_flatMap.mpr ⟨j, List.mem_range.mpr hj,
        List.mem_map_of_mem (List.mem_range.mpr hd)⟩
    rcases hc.lt_or_eq with hlt | hlast
    · refine ⟨_, hquad c hlt, ?_⟩
      rcases hcase with rfl | rfl <;> simp [quad]
    · -- the nodes at the end belong to the last quad
      have hpos := hR j hj
      refine ⟨_, hquad (c - 1) (by omega), ?_⟩
      rw [quad, Nat.sub_add_cancel (by omega)]
      rcases hcase with rfl | rfl <;> simp
  · intro a b hne hinside hpos
    obtain ⟨hone, -, hback⟩ := hshared a b hne hpos
    exact ⟨hone, hback hinside⟩
  · intro a b hne hboundary hpos
    obtain ⟨hone, hback, -⟩ := hshared a b hne hpos
    exact ⟨hone, hback hboundary⟩
  · intro poly hpoly a b hne
    exact h.apart hpoly hne

end

end PolygonMesh

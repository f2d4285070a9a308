import Helm.Axis.RuleGenerator
import Helm.Framework.Word

/-! # AXIS: reduced Gaussian grids

  On a reduced grid the number of cells differs from circle to circle. A cell
  finds its circle by a linear scan over these numbers. The named octahedral
  grids have a formula of their own for them.

  The latitudes of the circles are a parameter, as for the regular grids.

  Main results: `gaussian_reduced_tiles`, and
  `octahedral_nlon_per_lat_undefined`: the numbers are computed as `int`s,
  which bounds the size of a grid.
-/

namespace Axis

open Signed Segments

/-! ## Section 1: Intervals side by side -/

/-- The half-open intervals from `lo i` to `hi i` **tile** the one from `a` to
    `b`: they cover it, and there is no gap and no overlap. -/
structure Tiles {K : Type*} [LinearOrder K] (n : Nat) (lo hi : Nat → K) (a b : K) : Prop where
  positive : ∀ i < n, lo i < hi i
  within : ∀ i < n, a ≤ lo i ∧ hi i ≤ b
  cover : ∀ x, a ≤ x → x < b → ∃ i < n, lo i ≤ x ∧ x < hi i
  apart : ∀ i < n, ∀ k < n, i ≠ k → hi i ≤ lo k ∨ hi k ≤ lo i

section
variable {K : Type*} [LinearOrder K] {n : Nat} {edge : Nat → K}

theorem edge_le (h : ∀ i < n, edge i < edge (i + 1)) {i k : Nat} (hik : i ≤ k) (hk : k ≤ n) :
    edge i ≤ edge k := by
  induction k, hik using Nat.le_induction with
  | base => exact le_rfl
  | succ k _ ih => exact (ih (by omega)).trans (h k (by omega)).le

theorem tiles_of_ascending (h : ∀ i < n, edge i < edge (i + 1)) :
    Tiles n edge (fun i => edge (i + 1)) (edge 0) (edge n) where
  positive := h
  within i hi := ⟨edge_le h (Nat.zero_le i) hi.le, edge_le h hi le_rfl⟩
  cover x hlow hhigh := by
    induction n with
    | zero => exact absurd hhigh (not_lt.mpr hlow)
    | succ n ih =>
      rcases lt_or_ge x (edge n) with hlt | hge
      · obtain ⟨i, hi, hboth⟩ := ih (fun i hi => h i (by omega)) hlt
        exact ⟨i, by omega, hboth⟩
      · exact ⟨n, by omega, hge, hhigh⟩
  apart i hi k hk hne := by
    rcases Nat.lt_or_gt_of_ne hne with hlt | hgt
    · exact .inl (edge_le h hlt hk.le)
    · exact .inr (edge_le h hgt hi.le)

theorem tiles_of_descending (h : ∀ j < n, edge (j + 1) < edge j) :
    Tiles n (fun j => edge (j + 1)) edge (edge n) (edge 0) := by
  have hup : Tiles n (fun i => edge (n - i)) (fun i => edge (n - (i + 1))) (edge (n - 0))
      (edge (n - n)) := by
    apply tiles_of_ascending
    intro i hi
    have hlt := h (n - (i + 1)) (by omega)
    rwa [show n - (i + 1) + 1 = n - i by omega] at hlt
  rw [Nat.sub_zero, Nat.sub_self] at hup
  have hlo : ∀ j < n, n - (n - 1 - j) = j + 1 := by
    intro j hj
    omega
  have hhi : ∀ j < n, n - (n - 1 - j + 1) = j := by
    intro j hj
    omega
  constructor
  · exact h
  · intro j hj
    have hwithin := hup.within (n - 1 - j) (by omega)
    rwa [hlo j hj, hhi j hj] at hwithin
  · intro x hlow hhigh
    obtain ⟨i, hi, hboth⟩ := hup.cover x hlow hhigh
    refine ⟨n - (i + 1), by omega, ?_⟩
    rwa [show n - (i + 1) + 1 = n - i by omega]
  · intro j hj k hk hne
    have hapart := hup.apart (n - 1 - j) (by omega) (n - 1 - k) (by omega) (by omega)
    rwa [hlo j hj, hlo k hk, hhi j hj, hhi k hk] at hapart

end

/-! ## Section 2: Points on a circle -/

/-- `2 * N` circles; northern and southern ones are filled together. -/
def octahedral_nlon_per_lat (N : Int) : Outcome String (List Nat) := do
  let n_lat ← signed 32 (2 * N)
  -- a vector of negative size
  if n_lat < 0 then .thrown "length_error"
  else
    (List.range N.toNat).foldlM (fun nlons (j : Nat) => do
      let nlon ← signed 32 (20 + 4 * (j : Int))
      return (nlons.set j nlon.toNat).set (n_lat - 1 - j).toNat nlon.toNat)
      (List.replicate n_lat.toNat 0)

/-- The named grids: the distance from the nearest pole counts. -/
def octahedral_nlons (N : Int) : Outcome String (List Int) := do
  let n_lat ← signed 32 (2 * N)
  if n_lat < 0 then .thrown "length_error"
  else
    (List.range n_lat.toNat).foldlM (fun nlons (j : Nat) => do
      let nlon ← signed 32 (20 + 4 * min (j : Int) (n_lat - 1 - j))
      return nlons.set j nlon)
      (List.replicate n_lat.toNat 0)

def octahedral_total_nodes (N : Int) : Outcome String Nat := do
  let n_lat ← signed 32 (2 * N)
  (List.range n_lat.toNat).foldlM (fun total (j : Nat) => do
    let nlon ← signed 32 (20 + 4 * min (j : Int) (n_lat - 1 - j))
    return Word.add 64 total nlon.toNat) 0

/-! ## Section 3: Generation -/

/-- Whole circles are subtracted while they are not larger than what is left of
    the number of the cell. The list holds the circles from the `j`th on. -/
def linear_scan : List Nat → Nat → Nat → Nat × Nat
  | nlon :: rest, j, remaining =>
    if remaining ≥ nlon then linear_scan rest (j + 1) (Word.sub 64 remaining nlon)
    else (j, remaining)
  | [], j, remaining => (j, remaining)

section
variable (fl : Rounding)

/-- The meridian before the `i`th of `nlon` cells. -/
def lon_edge (nlon i : Nat) : ℚ :=
  let dlon := fl.round (360 / fl.round nlon)
  fl.round (fl.round i * dlon)

/-- The corners from the north-west on. -/
def rectangle (lon_lo lon_hi lat_lo lat_hi : ℚ) : List (ℚ × ℚ) :=
  [(lon_lo, lat_hi), (lon_hi, lat_hi), (lon_hi, lat_lo), (lon_lo, lat_lo)]

/-- The four corners of a cell, which has no node in common with another one. -/
def reduced_corners (gauss_lats : List ℚ) (nlons : List Nat) (c : Nat) :
    Outcome String (List (ℚ × ℚ)) :=
  let (j, i) := linear_scan nlons 0 c
  match nlons[j]? with
  | none => .undefined
  | some nlon =>
    let lon_lo := lon_edge fl nlon i
    let lon_hi := lon_edge fl nlon (i + 1)
    let lat_hi := lat_bound fl gauss_lats nlons.length j
    let lat_lo := lat_bound fl gauss_lats nlons.length (j + 1)
    .returned (rectangle lon_lo lon_hi lat_lo lat_hi)

/-- The mesh whose cells have these corners. -/
def corner_mesh (cells : List (List (ℚ × ℚ))) : UnstructuredMesh where
  node_coords := cells.flatten
  conn_offsets := (List.range (cells.length + 1)).map (4 * ·)
  conn_indices := (List.range cells.length).flatMap fun c => [4 * c, 4 * c + 1, 4 * c + 2, 4 * c + 3]

def generate_gaussian_reduced (gauss_lats : Int → List ℚ) (gaussian_n : Int) :
    Outcome String UnstructuredMesh :=
  if gaussian_n ≤ 0 then
    .thrown ("RuleGenerator: gaussian_n must be positive for Gaussian kinds, got " ++
      toString gaussian_n)
  else do
    let N := to_int gaussian_n
    let nlons ← octahedral_nlon_per_lat N
    let total_nodes := nlons.foldl (Word.add 64) 0
    let cells ← (List.range total_nodes).mapM (reduced_corners fl (gauss_lats N) nlons)
    return corner_mesh cells

end

/-! ## Section 4: The numbers of points -/

/-- The number of points of the `j`th of `2 * N` circles. -/
def nlon_of (N j : Nat) : Nat := 20 + 4 * min j (2 * N - 1 - j)

theorem foldlM_of_returned {ε α β : Type} {f : β → α → Outcome ε β} {g : β → α → β} {as : List α}
    (h : ∀ a ∈ as, ∀ b, f b a = .returned (g b a)) (b : β) :
    as.foldlM f b = .returned (as.foldl g b) := by
  induction as generalizing b with
  | nil => rfl
  | cons a as ih =>
    rw [List.foldlM_cons, h a List.mem_cons_self, Outcome.returned_bind, List.foldl_cons]
    exact ih (fun a' ha' => h a' (List.mem_cons_of_mem _ ha')) (g b a)

theorem fill_symmetric {N : Nat} (v : Nat → Nat) {m : Nat} (hm : m ≤ N) :
    let l := (List.range m).foldl
      (fun (nlons : List Nat) j => (nlons.set j (v j)).set (2 * N - 1 - j) (v j))
      (List.replicate (2 * N) 0)
    l.length = 2 * N ∧ ∀ k < 2 * N, (k < m ∨ 2 * N - 1 - k < m) →
      l.getD k 0 = v (min k (2 * N - 1 - k)) := by
  induction m with
  | zero =>
    refine ⟨List.length_replicate, ?_⟩
    intro k _ hfilled
    omega
  | succ m ih =>
    obtain ⟨hlength, hfilled⟩ := ih (by omega)
    rw [List.range_succ, List.foldl_append, List.foldl_cons, List.foldl_nil]
    refine ⟨by rw [List.length_set, List.length_set, hlength], ?_⟩
    intro k hk hnew
    rw [List.getD_eq_getElem?_getD, List.getElem?_set, List.getElem?_set]
    by_cases hsouth : 2 * N - 1 - m = k
    · rw [if_pos hsouth, if_pos (by rw [List.length_set, hlength]; omega), Option.getD_some,
        show min k (2 * N - 1 - k) = m by omega]
    · rw [if_neg hsouth]
      by_cases hnorth : m = k
      · rw [if_pos hnorth, if_pos (by rw [hlength]; omega), Option.getD_some,
          show min k (2 * N - 1 - k) = m by omega]
      · rw [if_neg hnorth, ← List.getD_eq_getElem?_getD]
        exact hfilled k hk (by omega)

theorem fill_in_order {α : Type} (v : Nat → α) (a : α) {n m : Nat} (hm : m ≤ n) :
    (List.range m).foldl (fun l j => l.set j (v j)) (List.replicate n a) =
      (List.range m).map v ++ List.replicate (n - m) a := by
  induction m with
  | zero => rfl
  | succ m ih =>
    rw [List.range_succ, List.foldl_append, List.foldl_cons, List.foldl_nil, ih (by omega),
      List.map_append, List.map_cons, List.map_nil,
      show n - m = n - (m + 1) + 1 by omega, List.replicate_succ, List.append_assoc,
      List.set_append_right _ _ (by rw [List.length_map, List.length_range])]
    rw [List.length_map, List.length_range, Nat.sub_self]
    rfl

section
variable {N : Nat}

theorem octahedral_nlon_per_lat_returned (h : 4 * N + 16 ≤ 2147483647) :
    octahedral_nlon_per_lat N = .returned ((List.range (2 * N)).map (nlon_of N)) := by
  unfold octahedral_nlon_per_lat
  rw [signed_of_fits (fits_32.mpr (by omega)), Outcome.returned_bind, if_neg (by omega),
    foldlM_of_returned (g := fun (nlons : List Nat) j =>
      (nlons.set j (20 + 4 * j)).set (2 * N - 1 - j) (20 + 4 * j))]
  · congr 1
    rw [show (2 * (N : Int)).toNat = 2 * N by omega, Int.toNat_natCast]
    obtain ⟨hlength, hfilled⟩ := fill_symmetric (fun j => 20 + 4 * j) (le_refl N)
    apply List.ext_getElem
    · rw [hlength, List.length_map, List.length_range]
    · intro k hk _
      have hvalue := hfilled k (hlength ▸ hk) (by omega)
      rw [List.getD_eq_getElem _ _ hk] at hvalue
      rw [hvalue, List.getElem_map, List.getElem_range]
      rfl
  · intro j hj nlons
    rw [Int.toNat_natCast, List.mem_range] at hj
    rw [signed_of_fits (fits_32.mpr (by omega)), Outcome.returned_bind,
      show (20 + 4 * (j : Int)).toNat = 20 + 4 * j by omega,
      show (2 * (N : Int) - 1 - j).toNat = 2 * N - 1 - j by omega]
    rfl

theorem octahedral_nlons_returned (h : 4 * N + 16 ≤ 2147483647) :
    octahedral_nlons N = .returned ((List.range (2 * N)).map fun j => (nlon_of N j : Int)) := by
  unfold octahedral_nlons
  rw [signed_of_fits (fits_32.mpr (by omega)), Outcome.returned_bind, if_neg (by omega),
    foldlM_of_returned (g := fun (nlons : List Int) j => nlons.set j (nlon_of N j))]
  · rw [show (2 * (N : Int)).toNat = 2 * N by omega, fill_in_order _ _ le_rfl, Nat.sub_self,
      List.replicate_zero, List.append_nil]
  · intro j hj nlons
    have hj := List.mem_range.mp hj
    have hvalue : (20 + 4 * min (j : Int) (2 * N - 1 - j)) = (nlon_of N j : Int) := by
      unfold nlon_of
      omega
    rw [hvalue, signed_of_fits (fits_32.mpr (by unfold nlon_of; omega)), Outcome.returned_bind]
    rfl

theorem sum_nlon_of (N : Nat) : ((List.range (2 * N)).map (nlon_of N)).sum = 4 * N * (N + 9) := by
  have hhalf : ∀ n, ∑ j ∈ Finset.range n, (20 + 4 * j) = 2 * n * (n + 9) := by
    intro n
    induction n with
    | zero => rfl
    | succ n ih =>
      rw [Finset.sum_range_succ, ih]
      ring
  have hnorth : ∑ j ∈ Finset.range N, nlon_of N j = ∑ j ∈ Finset.range N, (20 + 4 * j) := by
    apply Finset.sum_congr rfl
    intro j hj
    have hj := Finset.mem_range.mp hj
    unfold nlon_of
    omega
  have hsouth : ∑ j ∈ Finset.range N, nlon_of N (N + j) = ∑ j ∈ Finset.range N, (20 + 4 * j) := by
    rw [← Finset.sum_range_reflect]
    apply Finset.sum_congr rfl
    intro j hj
    have hj := Finset.mem_range.mp hj
    unfold nlon_of
    omega
  calc ((List.range (2 * N)).map (nlon_of N)).sum
      = ∑ j ∈ Finset.range (N + N), nlon_of N j := by
        rw [← two_mul]
        rfl
    _ = 2 * N * (N + 9) + 2 * N * (N + 9) := by
        rw [Finset.sum_range_add, hnorth, hsouth, hhalf]
    _ = 4 * N * (N + 9) := by ring

theorem foldl_add_of_lt {l : List Nat} {a : Nat} (h : a + l.sum < 2 ^ 64) :
    l.foldl (Word.add 64) a = a + l.sum := by
  induction l generalizing a with
  | nil => rfl
  | cons x l ih =>
    rw [List.sum_cons] at h
    rw [List.foldl_cons, Word.add_of_lt (by omega), ih (by omega), List.sum_cons]
    omega

theorem total_lt (h : 4 * N + 16 ≤ 2147483647) : 4 * N * (N + 9) < 2 ^ 62 := by
  nlinarith

theorem octahedral_total_nodes_returned (h : 4 * N + 16 ≤ 2147483647) :
    octahedral_total_nodes N = .returned (4 * N * (N + 9)) := by
  have hlt := total_lt h
  unfold octahedral_total_nodes
  rw [signed_of_fits (fits_32.mpr (by omega)), Outcome.returned_bind,
    foldlM_of_returned (g := fun (total : Nat) j => Word.add 64 total (nlon_of N j))]
  · rw [show (2 * (N : Int)).toNat = 2 * N by omega, ← List.foldl_map, foldl_add_of_lt,
      sum_nlon_of, Nat.zero_add]
    rw [sum_nlon_of]
    omega
  · intro j hj nlons
    have hj := List.mem_range.mp hj
    have hvalue : (20 + 4 * min (j : Int) (2 * N - 1 - j)) = (nlon_of N j : Int) := by
      unfold nlon_of
      omega
    rw [hvalue, signed_of_fits (fits_32.mpr (by unfold nlon_of; omega)), Outcome.returned_bind]
    rfl

/-- **Beyond that** the numbers do not fit. -/
theorem octahedral_nlon_per_lat_undefined (h : 2147483647 < 4 * N + 16) :
    octahedral_nlon_per_lat N = .undefined := by
  unfold octahedral_nlon_per_lat
  by_cases htwice : Fits 32 (2 * (N : Int))
  · rw [signed_of_fits htwice, Outcome.returned_bind, if_neg (by omega), Int.toNat_natCast]
    -- the loop gets as far as the first number that does not fit
    obtain ⟨rest, hrest⟩ : ∃ rest, List.range N = List.range 536870907 ++ 536870907 :: rest := by
      obtain ⟨d, hd⟩ := Nat.exists_eq_add_of_le (show 536870908 ≤ N by omega)
      rw [hd, List.range_add, List.range_succ, List.append_assoc]
      exact ⟨_, rfl⟩
    rw [hrest, List.foldlM_append, foldlM_of_returned (g := fun (nlons : List Nat) j =>
      (nlons.set j (20 + 4 * j)).set (2 * N - 1 - j) (20 + 4 * j)), Outcome.returned_bind,
      List.foldlM_cons, signed_of_not_fits (by rw [fits_32]; omega)]
    · rfl
    · intro j hj nlons
      have hj := List.mem_range.mp hj
      rw [signed_of_fits (fits_32.mpr (by omega)), Outcome.returned_bind,
        show (20 + 4 * (j : Int)).toNat = 20 + 4 * j by omega,
        show (2 * (N : Int) - 1 - j).toNat = 2 * N - 1 - j by omega]
      rfl
  · rw [signed_of_not_fits htwice]
    rfl

end

/-! ## Section 5: The linear scan -/

section
variable {nlons front back : List Nat} {nlon i j c : Nat}

theorem linear_scan_at (j : Nat) (hi : i < nlon) (hlt : front.sum + i < 2 ^ 64) :
    linear_scan (front ++ nlon :: back) j (front.sum + i) = (j + front.length, i) := by
  induction front generalizing j with
  | nil =>
    rw [List.sum_nil, Nat.zero_add, List.nil_append, linear_scan, if_neg (by omega)]
    rfl
  | cons n front ih =>
    rw [List.sum_cons] at hlt
    rw [List.sum_cons, List.cons_append, linear_scan, if_pos (by omega),
      Word.sub_of_le (by omega) (by omega), show n + front.sum + i - n = front.sum + i by omega,
      ih (j + 1) (by omega), List.length_cons]
    congr 1
    omega

theorem exists_circle (h : c < nlons.sum) :
    ∃ front nlon back i, nlons = front ++ nlon :: back ∧ i < nlon ∧ c = front.sum + i := by
  induction nlons generalizing c with
  | nil => exact absurd h (Nat.not_lt_zero c)
  | cons n rest ih =>
    rw [List.sum_cons] at h
    by_cases hin : c < n
    · exact ⟨[], n, rest, c, rfl, hin, by rw [List.sum_nil, Nat.zero_add]⟩
    · obtain ⟨front, nlon, back, i, hsplit, hi, hc⟩ := ih (c := c - n) (by omega)
      refine ⟨n :: front, nlon, back, i, by rw [hsplit, List.cons_append], hi, ?_⟩
      rw [List.sum_cons]
      omega

theorem scan_in_range (h : c < nlons.sum) (hlt : nlons.sum < 2 ^ 64) :
    ∃ nlon, nlons[(linear_scan nlons 0 c).1]? = some nlon ∧ (linear_scan nlons 0 c).2 < nlon := by
  obtain ⟨front, nlon, back, i, rfl, hi, rfl⟩ := exists_circle h
  rw [linear_scan_at 0 hi (by omega)]
  refine ⟨nlon, ?_, hi⟩
  show (front ++ nlon :: back)[0 + front.length]? = some nlon
  rw [Nat.zero_add, List.getElem?_append_right le_rfl, Nat.sub_self]
  rfl

/-- **One to one**: each place on a circle belongs to one number. -/
theorem scan_bijective (hlt : nlons.sum < 2 ^ 64) (hj : nlons[j]? = some nlon) (hi : i < nlon) :
    ∃! c, c < nlons.sum ∧ linear_scan nlons 0 c = (j, i) := by
  obtain ⟨hlength, hget⟩ := List.getElem?_eq_some_iff.mp hj
  have hsplit : nlons = nlons.take j ++ nlon :: nlons.drop (j + 1) := by
    rw [← hget, List.getElem_cons_drop, List.take_append_drop]
  have htake : (nlons.take j).length = j := List.length_take_of_le hlength.le
  have hsum : nlons.sum = (nlons.take j).sum + nlon + (nlons.drop (j + 1)).sum := by
    conv_lhs => rw [hsplit]
    rw [List.sum_append, List.sum_cons]
    omega
  refine ⟨(nlons.take j).sum + i, ⟨by omega, ?_⟩, ?_⟩
  · have hscan := @linear_scan_at (nlons.take j) (nlons.drop (j + 1)) nlon i 0 hi (by omega)
    rwa [← hsplit, htake, Nat.zero_add] at hscan
  · intro c ⟨hc, hscan⟩
    obtain ⟨front, nlon', back, i', hsplit', hi', rfl⟩ := exists_circle hc
    rw [hsplit', linear_scan_at 0 hi' (by omega), Nat.zero_add] at hscan
    obtain ⟨rfl, rfl⟩ := Prod.mk.inj hscan
    rw [hsplit', List.take_left]

end

/-! ## Section 6: The mesh -/

section
variable {cells : List (List (ℚ × ℚ))} {c k : Nat}

theorem getElem?_flatten_four {α : Type} {cells : List (List α)} (hfour : ∀ l ∈ cells, l.length = 4)
    (hc : c < cells.length) (hk : k < 4) : cells.flatten[4 * c + k]? = cells[c][k]? := by
  induction cells generalizing c with
  | nil => exact absurd hc (Nat.not_lt_zero c)
  | cons l cells ih =>
    have hl := hfour l List.mem_cons_self
    rw [List.flatten_cons]
    match c with
    | 0 =>
      rw [List.getElem?_append_left (by omega), Nat.mul_zero, Nat.zero_add]
      rfl
    | c + 1 =>
      rw [List.getElem?_append_right (by omega), show 4 * (c + 1) + k - l.length = 4 * c + k by omega]
      exact ih (fun l' hl' => hfour l' (List.mem_cons_of_mem _ hl')) (Nat.lt_of_succ_lt_succ hc)

theorem cell_nodes_corner_mesh (hfour : ∀ l ∈ cells, l.length = 4) (hc : c < cells.length) :
    (corner_mesh cells).cell_nodes c = cells[c] := by
  have hblock := @take_drop_flatMap _ _ (fun c => [4 * c, 4 * c + 1, 4 * c + 2, 4 * c + 3])
    (fun _ => rfl) (List.range cells.length) c (by rwa [List.length_range])
  rw [List.getElem_range] at hblock
  have hstart : (corner_mesh cells).conn_offsets[c]? = some (4 * c) := by
    show ((List.range _).map _)[_]? = _
    rw [List.getElem?_map, List.getElem?_range (by omega), Option.map_some]
  have hstop : (corner_mesh cells).conn_offsets[c + 1]? = some (4 * (c + 1)) := by
    show ((List.range _).map _)[_]? = _
    rw [List.getElem?_map, List.getElem?_range (by omega), Option.map_some]
  have hnode : ∀ k < 4, (corner_mesh cells).node_coords[4 * c + k]? = cells[c][k]? := by
    intro k hk
    exact getElem?_flatten_four hfour hc hk
  have hlength : cells[c].length = 4 := hfour _ (List.getElem_mem hc)
  unfold UnstructuredMesh.cell_nodes
  rw [hstart, hstop]
  dsimp only
  rw [show 4 * (c + 1) - 4 * c = 4 by omega]
  show (((List.range cells.length).flatMap _).drop _ |>.take 4).filterMap _ = _
  rw [hblock]
  match hcell : cells[c], hlength with
  | [p, q, r, s], _ =>
    have h0 := hnode 0 (by omega)
    have h1 := hnode 1 (by omega)
    have h2 := hnode 2 (by omega)
    have h3 := hnode 3 (by omega)
    rw [hcell] at h0 h1 h2 h3
    simp only [Nat.add_zero, List.getElem?_cons_zero, List.getElem?_cons_succ] at h0 h1 h2 h3
    simp only [List.filterMap_cons, List.filterMap_nil, h0, h1, h2, h3]

end

/-! ## Section 7: Tiling -/

/-- Latitudes of circles from north to south, none of which is a pole. -/
structure Latitudes (lats : List ℚ) (n : Nat) : Prop where
  length : lats.length = n
  decreasing : lats.Pairwise (· > ·)
  within : ∀ lat ∈ lats, -90 < lat ∧ lat < 90

section
variable {lats : List ℚ} {n : Nat}

theorem lat_bound_between {j : Nat} (hpos : 0 < j) (hlt : j < n) :
    lat_bound .exact lats n j = 1 / 2 * (lats.getD (j - 1) 0 + lats.getD j 0) := by
  unfold lat_bound
  rw [if_neg (by omega), if_neg (by omega)]
  rfl

theorem getD_within (h : Latitudes lats n) {j : Nat} (hj : j < n) :
    -90 < lats.getD j 0 ∧ lats.getD j 0 < 90 := by
  rw [List.getD_eq_getElem _ _ (h.length ▸ hj)]
  exact h.within _ (List.getElem_mem _)

theorem getD_decreasing (h : Latitudes lats n) {j k : Nat} (hjk : j < k) (hk : k < n) :
    lats.getD k 0 < lats.getD j 0 := by
  have hlength := h.length
  rw [List.getD_eq_getElem _ _ (show j < lats.length by omega),
    List.getD_eq_getElem _ _ (show k < lats.length by omega)]
  exact List.pairwise_iff_getElem.mp h.decreasing j k (by omega) (by omega) hjk

theorem lat_bound_bounds (h : Latitudes lats n) {j : Nat} (hpos : 0 < j) (hlt : j < n) :
    lats.getD j 0 < lat_bound .exact lats n j ∧ lat_bound .exact lats n j < lats.getD (j - 1) 0 := by
  have hless := getD_decreasing h (show j - 1 < j by omega) hlt
  rw [lat_bound_between hpos hlt]
  constructor <;> linarith

theorem lat_bound_decreasing (h : Latitudes lats n) {j : Nat} (hj : j < n) :
    lat_bound .exact lats n (j + 1) < lat_bound .exact lats n j := by
  -- a latitude separates the two boundaries
  have hwithin := getD_within h hj
  have hupper : lats.getD j 0 < lat_bound .exact lats n j := by
    rcases Nat.eq_zero_or_pos j with rfl | hpos
    · have hpole : lat_bound .exact lats n 0 = 90 := by
        unfold lat_bound
        rw [if_neg (by omega), if_pos rfl]
      rw [hpole]
      exact hwithin.2
    · exact (lat_bound_bounds h hpos hj).1
  have hlower : lat_bound .exact lats n (j + 1) < lats.getD j 0 := by
    rcases (show j + 1 ≤ n from hj).lt_or_eq with hlt | heq
    · exact (lat_bound_bounds h (by omega) hlt).2
    · have hpole : lat_bound .exact lats n (j + 1) = -90 := by
        unfold lat_bound
        rw [if_pos heq]
      rw [hpole]
      exact hwithin.1
  exact hlower.trans hupper

theorem circles_tile (h : Latitudes lats n) (hn : 0 < n) :
    Tiles n (fun j => lat_bound .exact lats n (j + 1)) (lat_bound .exact lats n) (-90) 90 := by
  have hsouth : lat_bound .exact lats n n = -90 := if_pos rfl
  have hnorth : lat_bound .exact lats n 0 = 90 := by
    unfold lat_bound
    rw [if_neg (by omega), if_pos rfl]
  have htiles := tiles_of_descending fun j hj => lat_bound_decreasing h hj
  rwa [hsouth, hnorth] at htiles

theorem cells_tile {nlon : Nat} (hpos : 0 < nlon) :
    Tiles nlon (lon_edge .exact nlon) (fun i => lon_edge .exact nlon (i + 1)) 0 360 := by
  have hedge : ∀ i : Nat, lon_edge .exact nlon i = i * (360 / nlon) := fun _ => rfl
  have hn : (0 : ℚ) < nlon := by exact_mod_cast hpos
  have htiles : Tiles nlon (lon_edge .exact nlon) (fun i => lon_edge .exact nlon (i + 1))
      (lon_edge .exact nlon 0) (lon_edge .exact nlon nlon) := by
    apply tiles_of_ascending
    intro i _
    rw [hedge, hedge]
    apply mul_lt_mul_of_pos_right
    · exact_mod_cast Nat.lt_succ_self i
    · positivity
  rwa [hedge, hedge, Nat.cast_zero, zero_mul, mul_div_cancel₀ _ hn.ne'] at htiles

end

section
variable {fl : Rounding} {nlons : List Nat} {lats : List ℚ} {c : Nat}

theorem reduced_corners_spec (hc : c < nlons.sum) (hlt : nlons.sum < 2 ^ 64) :
    ∃ j i nlon, linear_scan nlons 0 c = (j, i) ∧ nlons[j]? = some nlon ∧ i < nlon ∧
      reduced_corners fl lats nlons c =
        .returned (rectangle (lon_edge fl nlon i) (lon_edge fl nlon (i + 1))
          (lat_bound fl lats nlons.length (j + 1)) (lat_bound fl lats nlons.length j)) := by
  obtain ⟨nlon, hnlon, hi⟩ := scan_in_range hc hlt
  refine ⟨_, _, nlon, rfl, hnlon, hi, ?_⟩
  unfold reduced_corners
  simp only [hnlon]

/-- **The mesh** has a cell for every number. -/
theorem reduced_mesh (hlt : nlons.sum < 2 ^ 64) :
    ∃ cells, (List.range nlons.sum).mapM (reduced_corners fl lats nlons) = .returned cells ∧
      (corner_mesh cells).n_cells = nlons.sum ∧
      ∀ c < nlons.sum, reduced_corners fl lats nlons c =
        .returned ((corner_mesh cells).cell_nodes c) := by
  obtain ⟨cells, hcells⟩ : ∃ cells,
      (List.range nlons.sum).mapM (reduced_corners fl lats nlons) = .returned cells := by
    apply Outcome.mapM_returns.mpr
    intro c hc
    obtain ⟨_, _, _, _, _, _, hcorners⟩ := reduced_corners_spec (List.mem_range.mp hc) hlt
    exact ⟨_, hcorners⟩
  have hall := Outcome.mapM_eq_returned.mp hcells
  have hlength : cells.length = nlons.sum := by
    rw [← hall.length_eq, List.length_range]
  have hfour : ∀ l ∈ cells, l.length = 4 := by
    intro l hl
    obtain ⟨c, hc, hcorners⟩ := (Outcome.mem_of_mapM hcells).mp hl
    obtain ⟨_, _, _, _, _, _, hrectangle⟩ := reduced_corners_spec (List.mem_range.mp hc) hlt
    rw [hcorners] at hrectangle
    cases hrectangle
    rfl
  refine ⟨cells, hcells, ?_, ?_⟩
  · unfold UnstructuredMesh.n_cells corner_mesh
    rw [List.length_map, List.length_range, Nat.add_sub_cancel, hlength]
  · intro c hc
    rw [cell_nodes_corner_mesh hfour (hlength.symm ▸ hc)]
    have hget := hall.get (i := c) (by rwa [List.length_range]) (hlength.symm ▸ hc)
    rwa [List.get_eq_getElem, List.getElem_range] at hget

end

/-- **Reduced Gaussian grids.** As far as the numbers of points fit into `int`,
    the cell numbers belong one to one to the places on the circles, where the
    cells are rectangles that tile the circle, as the circles tile the globe.
    The numbers are those of the named octahedral grid. -/
theorem gaussian_reduced_tiles {N : Nat} {gauss_lats : Int → List ℚ} (hone : 1 ≤ N)
    (hint : 4 * N + 16 ≤ 2147483647) (hlats : Latitudes (gauss_lats N) (2 * N)) :
    ∃ nlons mesh, octahedral_nlon_per_lat N = .returned nlons ∧
      generate_gaussian_reduced .exact gauss_lats N = .returned mesh ∧
      nlons.length = 2 * N ∧ mesh.n_cells = 4 * N * (N + 9) ∧
      octahedral_nlons N = .returned (nlons.map (Nat.cast : Nat → Int)) ∧
      octahedral_total_nodes N = .returned mesh.n_cells ∧
      (∀ c < mesh.n_cells, ∃ j i nlon, linear_scan nlons 0 c = (j, i) ∧
        nlons[j]? = some nlon ∧ i < nlon ∧
        mesh.cell_nodes c = rectangle (lon_edge .exact nlon i) (lon_edge .exact nlon (i + 1))
          (lat_bound .exact (gauss_lats N) (2 * N) (j + 1))
          (lat_bound .exact (gauss_lats N) (2 * N) j)) ∧
      (∀ j i nlon, nlons[j]? = some nlon → i < nlon →
        ∃! c, c < mesh.n_cells ∧ linear_scan nlons 0 c = (j, i)) ∧
      (∀ nlon ∈ nlons,
        Tiles nlon (lon_edge .exact nlon) (fun i => lon_edge .exact nlon (i + 1)) 0 360) ∧
      Tiles (2 * N) (fun j => lat_bound .exact (gauss_lats N) (2 * N) (j + 1))
        (lat_bound .exact (gauss_lats N) (2 * N)) (-90) 90 := by
  have hnlons := octahedral_nlon_per_lat_returned hint
  have hsum := sum_nlon_of N
  have hlt := total_lt hint
  generalize hlist : (List.range (2 * N)).map (nlon_of N) = nlons at hnlons hsum
  have hlength : nlons.length = 2 * N := by rw [← hlist, List.length_map, List.length_range]
  obtain ⟨cells, hcells, hn_cells, hnodes⟩ :=
    @reduced_mesh .exact nlons (gauss_lats N) (by omega)
  have hmesh : generate_gaussian_reduced .exact gauss_lats N = .returned (corner_mesh cells) := by
    unfold generate_gaussian_reduced
    dsimp only
    rw [if_neg (by omega), to_int_of_fits (fits_32.mpr (by omega)), hnlons, Outcome.returned_bind,
      foldl_add_of_lt (by omega), Nat.zero_add, hcells, Outcome.returned_bind]
    rfl
  refine ⟨nlons, _, hnlons, hmesh, hlength, by rw [hn_cells, hsum], ?_, ?_, ?_, ?_, ?_, ?_⟩
  · rw [octahedral_nlons_returned hint, ← hlist, List.map_map]
    rfl
  · rw [octahedral_total_nodes_returned hint, hn_cells, hsum]
  · intro c hc
    rw [hn_cells] at hc
    obtain ⟨j, i, nlon, hscan, hnlon, hi, hcorners⟩ := reduced_corners_spec hc (by omega)
    refine ⟨j, i, nlon, hscan, hnlon, hi, ?_⟩
    rw [hnodes c hc, hlength] at hcorners
    exact Outcome.returned.inj hcorners
  · intro j i nlon hj hi
    rw [hn_cells]
    exact scan_bijective (by omega) hj hi
  · intro nlon hnlon
    rw [← hlist] at hnlon
    obtain ⟨j, -, rfl⟩ := List.mem_map.mp hnlon
    exact cells_tile (by unfold nlon_of; omega)
  · exact circles_tile hlats (by omega)

theorem latitudes_two : Latitudes [35, -35] 2 := by
  constructor
  · rfl
  · decide +kernel
  · decide +kernel

theorem gaussian_reduced_one : ∃ mesh,
    generate_gaussian_reduced .exact (fun _ => [35, -35]) 1 = .returned mesh ∧ mesh.n_cells = 40 := by
  obtain ⟨nlons, mesh, -, hmesh, -, hcells, -⟩ :=
    @gaussian_reduced_tiles 1 (fun _ => [35, -35]) le_rfl (by omega) latitudes_two
  exact ⟨mesh, hmesh, hcells⟩

/-- **The first size** for which a number does not fit into `int`. -/
theorem octahedral_too_large :
    octahedral_nlon_per_lat 536870908 = .undefined ∧
      (∀ fl gauss_lats, generate_gaussian_reduced fl gauss_lats 536870908 = .undefined) ∧
      ¬ ∀ N : Nat, 1 ≤ N → ∃ nlons, octahedral_nlon_per_lat N = .returned nlons := by
  have hundefined : octahedral_nlon_per_lat 536870908 = .undefined :=
    @octahedral_nlon_per_lat_undefined 536870908 (by omega)
  refine ⟨hundefined, ?_, ?_⟩
  · intro fl gauss_lats
    unfold generate_gaussian_reduced
    dsimp only
    rw [if_neg (by omega), to_int_of_fits (fits_32.mpr (by omega)), hundefined]
    rfl
  · intro h
    obtain ⟨nlons, hreturned⟩ := h 536870908 (by omega)
    rw [show ((536870908 : Nat) : Int) = 536870908 from rfl, hundefined] at hreturned
    cases hreturned

end Axis

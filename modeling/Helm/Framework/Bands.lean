import Mathlib

/-! # Bands of rows

  An array made of rows of one width, and its bands. A band from `j0` to `j1`
  consists of the border rows `j0` up to and with `j1`, so that neighbouring
  bands share one row.

  * **Partitions**: `bands` are the pairs of consecutive bounds.
  * **Gluing**: `Glued` joins the bands of a partition and identifies the rows
    that they share. Gluing the bands of an array gives the array.
-/

namespace Bands

variable {α : Type}

/-- Consecutive pairs. -/
def bands : List Nat → List (Nat × Nat)
  | j0 :: j1 :: js => (j0, j1) :: bands (j1 :: js)
  | _ => []

/-- Bounds from `first` to `last` in order. Bands may be empty. -/
structure Partition (first last : Nat) (bounds : List Nat) : Prop where
  ordered : bounds.Pairwise (· ≤ ·)
  starts : bounds.head? = some first
  ends : bounds.getLast? = some last
  nonempty : 2 ≤ bounds.length

/-- `whole` consists of the parts in their order, where the last row of a part
    is the first of the next one. -/
def Glued (width : Nat) : List (List α) → List α → Prop
  | [], _ => False
  | [part], whole => whole = part
  | part :: next :: parts, whole => ∃ rest, Glued width (next :: parts) rest ∧
      width ≤ part.length ∧ part.drop (part.length - width) = rest.take width ∧
      whole = part ++ rest.drop width

/-- The rows from `j0` up to and with `j1`. -/
def border_rows (row : Nat → List α) (j0 j1 : Nat) : List α :=
  (List.range' j0 (j1 - j0 + 1)).flatMap row

section
variable {row : Nat → List α} {width : Nat}

theorem border_rows_last {j0 j1 : Nat} (h : j0 ≤ j1) :
    border_rows row j0 j1 = (List.range' j0 (j1 - j0)).flatMap row ++ row j1 := by
  unfold border_rows
  rw [List.range'_1_concat, List.flatMap_append, List.flatMap_singleton, Nat.add_sub_cancel' h]

theorem border_rows_first (j0 j1 : Nat) :
    border_rows row j0 j1 = row j0 ++ (List.range' (j0 + 1) (j1 - j0)).flatMap row := by
  unfold border_rows
  rw [List.range'_succ, List.flatMap_cons]

theorem border_rows_append {j0 j1 j2 : Nat} (h : j0 ≤ j1) (h' : j1 ≤ j2) :
    border_rows row j0 j2 =
      border_rows row j0 j1 ++ (List.range' (j1 + 1) (j2 - j1)).flatMap row := by
  unfold border_rows
  rw [← List.flatMap_append]
  congr 1
  have hsplit := @List.range'_append_1 j0 (j1 - j0 + 1) (j2 - j1)
  rw [show j0 + (j1 - j0 + 1) = j1 + 1 by omega, show j1 - j0 + 1 + (j2 - j1) = j2 - j0 + 1 by omega]
    at hsplit
  exact hsplit.symm

/-- **Gluing the bands of an array gives the array.** -/
theorem glued_bands (hrow : ∀ j, (row j).length = width) {bounds : List Nat} {first last : Nat}
    (h : Partition first last bounds) :
    Glued width ((bands bounds).map fun b => border_rows row b.1 b.2)
      (border_rows row first last) := by
  induction bounds generalizing first with
  | nil =>
    have hlength := h.nonempty
    simp at hlength
  | cons j0 rest ih =>
    have hfirst : j0 = first := by simpa using h.starts
    subst hfirst
    match rest, h with
    | [], h =>
      have hlength := h.nonempty
      simp at hlength
    | [j1], h =>
      have hlast : j1 = last := by simpa using h.ends
      subst hlast
      rfl
    | j1 :: j2 :: js, h =>
      have hle : j0 ≤ j1 := List.rel_of_pairwise_cons h.ordered List.mem_cons_self
      have hrest : Partition j1 last (j1 :: j2 :: js) :=
        ⟨h.ordered.of_cons, rfl, by simpa using h.ends, by simp⟩
      have hlast : j1 ≤ last := by
        have hmem : last ∈ j1 :: j2 :: js := List.mem_of_getLast? hrest.ends
        rcases List.mem_cons.mp hmem with heq | htail
        · exact heq.ge
        · exact List.rel_of_pairwise_cons hrest.ordered htail
      -- the shared row ends the first band and begins the rest
      refine ⟨border_rows row j1 last, ih hrest, ?_, ?_, ?_⟩
      · dsimp only
        rw [border_rows_last hle, List.length_append, hrow]
        omega
      · dsimp only
        rw [border_rows_last hle, border_rows_first, List.length_append, hrow, Nat.add_sub_cancel,
          List.drop_left, List.take_left' (hrow j1)]
      · rw [border_rows_append hle hlast, border_rows_first j1 last, List.drop_left' (hrow j1)]

end

end Bands

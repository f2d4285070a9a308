import Mathlib

/-! # Runs of consecutive integers

  Compression of a set of integers, given as a list with repetitions, to
  the list of its maximal runs.

  * **Preparation**: `unique` drops repetitions that stand next to each
    other, so that `sort_unique` is strictly increasing.
  * **Compression**: `compact` goes through the sorted list with one open
    run. Its runs are nonempty, each ends more than one before the next
    begins, they cover exactly the integers of the list, and their sizes
    add up to how many different ones there are.
-/

namespace Runs

/-- The integers from `first` to `last`. -/
structure Run where
  first : Int
  last : Int
  deriving DecidableEq

namespace Run

/-- `x` lies in the run. -/
def Holds (r : Run) (x : Int) : Prop := r.first ≤ x ∧ x ≤ r.last

/-- The number of integers in the run. -/
def size (r : Run) : Int := r.last - r.first + 1

end Run

/-! ### Sorting -/

/-- Drop every element that equals the one before it. -/
def unique : List Int → List Int
  | [] => []
  | [a] => [a]
  | a :: b :: l => if a = b then unique (b :: l) else a :: unique (b :: l)

theorem mem_unique {l : List Int} {x : Int} : x ∈ unique l ↔ x ∈ l := by
  induction l using unique.induct with
  | case1 => exact Iff.rfl
  | case2 a => exact Iff.rfl
  | case3 b l ih =>
    rw [unique, if_pos rfl, ih]
    simp
  | case4 a b l hne ih =>
    rw [unique, if_neg hne, List.mem_cons, ih]
    simp only [List.mem_cons]

theorem unique_sorted {l : List Int} (h : l.Pairwise (· ≤ ·)) : (unique l).Pairwise (· < ·) := by
  induction l using unique.induct with
  | case1 => exact .nil
  | case2 a => exact List.pairwise_singleton _ _
  | case3 b l ih =>
    rw [unique, if_pos rfl]
    exact ih h.of_cons
  | case4 a b l hne ih =>
    rw [unique, if_neg hne]
    refine List.pairwise_cons.mpr ⟨?_, ih h.of_cons⟩
    intro x hx
    -- `a` is below its neighbor, and that one is below the rest
    have hab : a < b := lt_of_le_of_ne ((List.pairwise_cons.mp h).1 b List.mem_cons_self) hne
    rcases List.mem_cons.mp (mem_unique.mp hx) with rfl | hrest
    · exact hab
    · exact lt_of_lt_of_le hab ((List.pairwise_cons.mp h.of_cons).1 x hrest)

/-- The integers of the list in increasing order, each once. -/
def sort_unique (l : List Int) : List Int := unique (l.mergeSort (· ≤ ·))

theorem mem_sort_unique {l : List Int} {x : Int} : x ∈ sort_unique l ↔ x ∈ l := by
  unfold sort_unique
  rw [mem_unique]
  exact (List.mergeSort_perm l _).mem_iff

theorem sort_unique_sorted (l : List Int) : (sort_unique l).Pairwise (· < ·) := by
  apply unique_sorted
  have hsorted : (l.mergeSort (· ≤ ·)).Pairwise fun a b => decide (a ≤ b) = true := by
    apply List.pairwise_mergeSort
    · intro a b c hab hbc
      simp only [decide_eq_true_eq] at hab hbc ⊢
      omega
    · intro a b
      simp only [Bool.or_eq_true, decide_eq_true_eq]
      omega
  exact hsorted.imp fun h => of_decide_eq_true h

/-! ### Compression -/

/-- `first` and `last` are the run that is open; the list is what comes
    after it. -/
def compact_loop (first last : Int) : List Int → List Run
  | [] => [⟨first, last⟩]
  | x :: rest =>
    if x = last + 1 then compact_loop first x rest else ⟨first, last⟩ :: compact_loop x x rest

def compact : List Int → List Run
  | [] => []
  | x :: rest => compact_loop x x rest

section
variable {first last : Int} {rest : List Int}

theorem first_le_of_mem_loop {r : Run} (h : first ≤ last)
    (hsorted : (last :: rest).Pairwise (· < ·)) (hr : r ∈ compact_loop first last rest) :
    first ≤ r.first ∧ r.first ≤ r.last := by
  induction rest generalizing first last with
  | nil =>
    rw [List.mem_singleton.mp hr]
    exact ⟨le_rfl, h⟩
  | cons x rest ih =>
    have hx : last < x := (List.pairwise_cons.mp hsorted).1 x List.mem_cons_self
    unfold compact_loop at hr
    split at hr
    · exact ih (by omega) hsorted.of_cons hr
    · rcases List.mem_cons.mp hr with rfl | hmem
      · exact ⟨le_rfl, h⟩
      · obtain ⟨hfirst, hlast⟩ := ih le_rfl hsorted.of_cons hmem
        exact ⟨by omega, hlast⟩

theorem compact_loop_apart (h : first ≤ last) (hsorted : (last :: rest).Pairwise (· < ·)) :
    (compact_loop first last rest).Pairwise fun r s => r.last + 1 < s.first := by
  induction rest generalizing first last with
  | nil => exact List.pairwise_singleton _ _
  | cons x rest ih =>
    have hx : last < x := (List.pairwise_cons.mp hsorted).1 x List.mem_cons_self
    unfold compact_loop
    split
    · exact ih (by omega) hsorted.of_cons
    · refine List.pairwise_cons.mpr ⟨?_, ih le_rfl hsorted.of_cons⟩
      intro s hs
      have hfirst := (first_le_of_mem_loop le_rfl hsorted.of_cons hs).1
      show last + 1 < s.first
      omega

theorem exists_holds_loop (h : first ≤ last) (hsorted : (last :: rest).Pairwise (· < ·)) (x : Int) :
    (∃ r ∈ compact_loop first last rest, r.Holds x) ↔ (first ≤ x ∧ x ≤ last) ∨ x ∈ rest := by
  induction rest generalizing first last with
  | nil => simp [compact_loop, Run.Holds]
  | cons y rest ih =>
    have hy : last < y := (List.pairwise_cons.mp hsorted).1 y List.mem_cons_self
    unfold compact_loop
    split
    · next heq =>
      rw [ih (by omega) hsorted.of_cons, List.mem_cons]
      constructor
      · rintro (hin | hin)
        · by_cases hxy : x = y
          · exact .inr (.inl hxy)
          · exact .inl ⟨hin.1, by omega⟩
        · exact .inr (.inr hin)
      · rintro (hin | rfl | hin)
        · exact .inl ⟨hin.1, by omega⟩
        · exact .inl ⟨by omega, le_rfl⟩
        · exact .inr hin
    · simp only [List.mem_cons, exists_eq_or_imp]
      rw [ih le_rfl hsorted.of_cons]
      have hone : y ≤ x ∧ x ≤ y ↔ x = y := by omega
      rw [hone]
      exact Iff.rfl

theorem sum_size_loop (h : first ≤ last) :
    ((compact_loop first last rest).map Run.size).sum = last - first + 1 + rest.length := by
  induction rest generalizing first last with
  | nil => simp [compact_loop, Run.size]
  | cons y rest ih =>
    unfold compact_loop
    split
    · next heq =>
      rw [ih (by omega), List.length_cons]
      push_cast
      omega
    · rw [List.map_cons, List.sum_cons, ih le_rfl, List.length_cons]
      simp only [Run.size]
      push_cast
      omega

end

theorem compact_spec {l : List Int} (h : l.Pairwise (· < ·)) :
    (∀ r ∈ compact l, r.first ≤ r.last) ∧
    ((compact l).Pairwise fun r s => r.last + 1 < s.first) ∧
    (∀ x, (∃ r ∈ compact l, r.Holds x) ↔ x ∈ l) ∧
    ((compact l).map Run.size).sum = l.length := by
  match l with
  | [] => simp [compact]
  | x :: rest =>
    refine ⟨?_, compact_loop_apart le_rfl h, ?_, ?_⟩
    · intro r hr
      exact (first_le_of_mem_loop le_rfl h hr).2
    · intro y
      have hone : x ≤ y ∧ y ≤ x ↔ y = x := by omega
      show (∃ r ∈ compact_loop x x rest, r.Holds y) ↔ _
      rw [exists_holds_loop le_rfl h y, hone, List.mem_cons]
    · show ((compact_loop x x rest).map Run.size).sum = _
      rw [sum_size_loop le_rfl, List.length_cons]
      push_cast
      omega

end Runs

import Mathlib

/-! # Vector idioms on lists

  The C++ code edits its vectors in place. This module states two of the
  idioms it uses on lists and proves what they do to the contents:

  * **Swap-with-last-and-pop** removes one position by moving the last
    element into it. Done for a decreasing sequence of positions it
    removes exactly the elements that stood there.
  * **Scanning for positions** collects the indices of the elements that
    satisfy a predicate.
  * **Growing** a vector keeps what it has, and a loop over another vector
    goes through its prefixes.
-/

namespace Vec

open scoped List

variable {α : Type*}

/-! ### Removing a position -/

/-- Swap position `i` with the last one, then drop the last one. -/
def swap_remove (l : List α) (i : Nat) : List α :=
  match l[i]?, l.getLast? with
  | some x, some last => ((l.set i last).set (l.length - 1) x).dropLast
  | _, _ => l

theorem swap_remove_append_singleton (l : List α) (x : α) (i : Nat) :
    swap_remove (l ++ [x]) i = if i < l.length then l.set i x else if i = l.length then l
      else l ++ [x] := by
  by_cases hlt : i < l.length
  · have hget : (l ++ [x])[i]? = some l[i] := by simp [List.getElem?_append_left hlt, hlt]
    simp only [swap_remove, hget, List.getLast?_append, List.getLast?_singleton, Option.some_or,
      if_pos hlt]
    rw [List.set_append_left _ _ hlt, List.set_append_right _ _ (by simp)]
    simp
  · by_cases heq : i = l.length
    · subst heq
      simp [swap_remove]
    · have hget : (l ++ [x])[i]? = none := by
        simp only [List.getElem?_eq_none_iff, List.length_append, List.length_singleton]; omega
      simp [swap_remove, hget, hlt, heq]

theorem getElem?_swap_remove {l : List α} {i j : Nat} (hj : j < i) (hi : i < l.length) :
    (swap_remove l i)[j]? = l[j]? := by
  rcases List.eq_nil_or_concat l with rfl | ⟨l, x, rfl⟩
  · simp at hi
  · rw [List.concat_eq_append] at hi ⊢
    rw [swap_remove_append_singleton]
    rw [List.length_append, List.length_singleton] at hi
    by_cases hlt : i < l.length
    · rw [if_pos hlt, List.getElem?_set_ne (by omega), List.getElem?_append_left (by omega)]
    · have heq : i = l.length := by omega
      rw [if_neg hlt, if_pos heq, List.getElem?_append_left (by omega)]

theorem swap_remove_perm {l : List α} {i : Nat} {x : α} (h : l[i]? = some x) :
    swap_remove l i ++ [x] ~ l := by
  rcases List.eq_nil_or_concat l with rfl | ⟨l, y, rfl⟩
  · simp at h
  · rw [List.concat_eq_append] at h ⊢
    rw [swap_remove_append_singleton]
    by_cases hlt : i < l.length
    · rw [List.getElem?_append_left hlt, List.getElem?_eq_getElem hlt, Option.some.injEq] at h
      subst h
      rw [if_pos hlt]
      -- put the moved element and the removed one back in front of the rest
      calc l.set i y ++ [l[i]]
          ~ l[i] :: l.set i y := List.perm_append_singleton _ _
        _ ~ l[i] :: y :: l.eraseIdx i := (List.set_perm_cons_eraseIdx hlt y).cons _
        _ ~ y :: l[i] :: l.eraseIdx i := List.Perm.swap _ _ _
        _ ~ y :: l := (List.getElem_cons_eraseIdx_perm hlt).cons _
        _ ~ l ++ [y] := (List.perm_append_singleton _ _).symm
    · have heq : i = l.length := by
        have := (List.getElem?_eq_some_iff.mp h).1
        simp only [List.length_append, List.length_singleton] at this
        omega
      subst heq
      simp only [List.getElem?_append_right (le_refl _), Nat.sub_self, List.getElem?_cons_zero,
        Option.some.injEq] at h
      simp [h]

theorem foldl_swap_remove_perm {is : List Nat} {l : List α}
    (hdesc : is.Pairwise (· > ·)) (hlt : ∀ i ∈ is, i < l.length) :
    is.foldl swap_remove l ++ is.filterMap (l[·]?) ~ l := by
  induction is generalizing l with
  | nil => simp
  | cons i is ih =>
    obtain ⟨hgt, hdesc⟩ := List.pairwise_cons.mp hdesc
    have hi : i < l.length := hlt i List.mem_cons_self
    have hget : l[i]? = some l[i] := List.getElem?_eq_getElem hi
    have hperm := swap_remove_perm hget
    have hlen : (swap_remove l i).length + 1 = l.length := by simpa using hperm.length_eq
    have hsame : is.filterMap ((swap_remove l i)[·]?) = is.filterMap (l[·]?) :=
      List.filterMap_congr fun j hj => getElem?_swap_remove (hgt j hj) hi
    have hrest := ih (l := swap_remove l i) hdesc fun j hj => by have := hgt j hj; omega
    rw [hsame] at hrest
    rw [List.foldl_cons, List.filterMap_cons, hget]
    calc is.foldl swap_remove (swap_remove l i) ++ l[i] :: is.filterMap (l[·]?)
        ~ l[i] :: (is.foldl swap_remove (swap_remove l i) ++ is.filterMap (l[·]?)) :=
          List.perm_middle
      _ ~ l[i] :: swap_remove l i := hrest.cons _
      _ ~ swap_remove l i ++ [l[i]] := (List.perm_append_singleton _ _).symm
      _ ~ l := hperm

/-! ### Scanning for positions -/

/-- The positions whose element satisfies `p`, in ascending order. -/
def indices (p : α → Bool) (l : List α) : List Nat :=
  (List.range l.length).filter fun i => l[i]?.any p

theorem mem_indices {p : α → Bool} {l : List α} {i : Nat} :
    i ∈ indices p l ↔ ∃ x, l[i]? = some x ∧ p x = true := by
  simp only [indices, List.mem_filter, List.mem_range, Option.any_eq_true]
  constructor
  · exact And.right
  · rintro ⟨x, hx, hp⟩
    exact ⟨(List.getElem?_eq_some_iff.mp hx).1, x, hx, hp⟩

theorem indices_nodup (p : α → Bool) (l : List α) : (indices p l).Nodup :=
  List.nodup_range.filter _

theorem filterMap_indices (p : α → Bool) (l : List α) :
    (indices p l).filterMap (l[·]?) = l.filter p := by
  induction l with
  | nil => rfl
  | cons x l ih =>
    rw [indices, List.length_cons, List.range_succ_eq_map, List.filter_cons, List.filter_map,
      List.filter_cons]
    simp only [List.getElem?_cons_zero, Option.any_some, Function.comp_def, Nat.succ_eq_add_one,
      List.getElem?_cons_succ]
    have htail : ((indices p l).map (· + 1)).filterMap ((x :: l)[·]?) = l.filter p := by
      rw [List.filterMap_map, ← ih]
      exact List.filterMap_congr fun j _ => by simp
    split
    · rw [List.filterMap_cons]
      simp only [List.getElem?_cons_zero]
      exact congrArg _ htail
    · exact htail

/-- The collected positions in descending order, as they are removed. -/
def descending (p : α → Bool) (l : List α) : List Nat := (indices p l).insertionSort (· ≥ ·)

theorem descending_perm (p : α → Bool) (l : List α) : descending p l ~ indices p l :=
  List.perm_insertionSort _ _

theorem descending_pairwise (p : α → Bool) (l : List α) :
    (descending p l).Pairwise (· > ·) := by
  have hge : (descending p l).Pairwise (· ≥ ·) := List.pairwise_insertionSort _ _
  have hne : (descending p l).Pairwise (· ≠ ·) :=
    (descending_perm p l).nodup_iff.mpr (indices_nodup p l)
  exact (hge.and hne).imp fun h => lt_of_le_of_ne h.1 (Ne.symm h.2)

theorem lt_of_mem_descending {p : α → Bool} {l : List α} {i : Nat} (hi : i ∈ descending p l) :
    i < l.length := by
  obtain ⟨x, hx, -⟩ := mem_indices.mp ((descending_perm p l).mem_iff.mp hi)
  exact (List.getElem?_eq_some_iff.mp hx).1

theorem remove_indices_perm (p : α → Bool) (l : List α) :
    ((indices p l).insertionSort (· ≥ ·)).foldl swap_remove l ~ l.filter (!p ·) := by
  have hfold := foldl_swap_remove_perm (descending_pairwise p l) fun _ => lt_of_mem_descending
  have hread : (descending p l).filterMap (l[·]?) ~ l.filter p := by
    rw [← filterMap_indices p l]
    exact (descending_perm p l).filterMap _
  have hsplit : l.filter (!p ·) ++ l.filter p ~ l :=
    List.perm_append_comm.trans (List.filter_append_perm p l)
  exact (List.perm_append_right_iff _).mp
    ((List.Perm.append_left _ hread.symm).trans (hfold.trans hsplit.symm))

/-! ### Growing -/

theorem prefix_snoc {l l' : List α} {a : α} (h : l <+: l') (ha : l'[l.length]? = some a) :
    l ++ [a] <+: l' := by
  obtain ⟨rest, rfl⟩ := h
  rw [List.getElem?_append_right le_rfl, Nat.sub_self] at ha
  cases rest with
  | nil => cases ha
  | cons b rest =>
    obtain rfl := Option.some.inj ha
    exact ⟨rest, by simp⟩

theorem getElem?_of_prefix {l l' : List α} {k : Nat} {a : α} (h : l <+: l')
    (ha : l[k]? = some a) : l'[k]? = some a := by
  obtain ⟨hk, rfl⟩ := List.getElem?_eq_some_iff.mp ha
  exact List.prefix_iff_getElem?.mp h k hk

end Vec

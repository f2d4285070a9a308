import Mathlib

/-! # Groups of a list by key

  A pass over a list that opens a group wherever the key of an element is
  not that of the open group, as it is used to store a list that is sorted
  by key in compressed form: the keys of the groups, and their offsets.

  * **Groups**: the list is a concatenation of nonempty groups, each with
    one key, and the offsets are the running sums of their lengths.
  * **Order**: when the list is sorted by key, the keys of the groups are
    strictly increasing.
  * **Sorting**: what `std::sort` can make of a list. Elements that are
    equivalent come in any order.
-/

namespace Grouping

/-- A list that `std::sort` can make of `l`. -/
structure Sorted {α : Type*} (less : α → α → Bool) (l : List α) where
  list : List α
  perm : list.Perm l
  ordered : list.Pairwise fun a b => less b a = false

section
variable {α κ : Type*} [DecidableEq κ] (key : α → κ)

/-- The keys and the positions of the groups that are opened from position
    `i` on, when a group with the key `prev` is open. -/
def starts (prev : κ) (i : Nat) : List α → List (κ × Nat)
  | [] => []
  | a :: l => if key a ≠ prev then (key a, i) :: starts (key a) (i + 1) l else starts prev (i + 1) l

variable {key}

/-- A group is a nonempty list with one key. -/
def IsGroup (key : α → κ) (g : κ × List α) : Prop := g.2 ≠ [] ∧ ∀ a ∈ g.2, key a = g.1

/-- The first elements may belong to the group that was open before. -/
theorem starts_groups (prev : κ) (i : Nat) (l : List α) :
    ∃ (first : List α) (groups : List (κ × List α)),
      l = first ++ groups.flatMap (·.2) ∧ (∀ a ∈ first, key a = prev) ∧
      (∀ g ∈ groups, IsGroup key g) ∧
      (starts key prev i l).map (·.1) = groups.map (·.1) ∧
      (starts key prev i l).map (·.2) ++ [i + l.length] =
        (groups.map (·.2.length)).scanl (· + ·) (i + first.length) := by
  induction l generalizing prev i with
  | nil => exact ⟨[], [], rfl, by simp, by simp, rfl, by simp [starts]⟩
  | cons a l ih =>
    by_cases hkey : key a = prev
    · obtain ⟨first, groups, hl, hfirst, hgroups, hkeys, hoffsets⟩ := ih prev (i + 1)
      have hstarts : starts key prev i (a :: l) = starts key prev (i + 1) l :=
        if_neg (not_not.mpr hkey)
      refine ⟨a :: first, groups, by simp [hl], ?_, hgroups, by rw [hstarts, hkeys], ?_⟩
      · intro b hb
        obtain rfl | hb := List.mem_cons.mp hb
        · exact hkey
        · exact hfirst b hb
      · rw [hstarts]
        have hlen : i + (a :: l).length = i + 1 + l.length := by
          rw [List.length_cons]
          omega
        have hfrom : i + (a :: first).length = i + 1 + first.length := by
          rw [List.length_cons]
          omega
        rw [hlen, hfrom, hoffsets]
    · -- the element opens a group, which the first elements after it belong to
      obtain ⟨first, groups, hl, hfirst, hgroups, hkeys, hoffsets⟩ := ih (key a) (i + 1)
      have hstarts : starts key prev i (a :: l) = (key a, i) :: starts key (key a) (i + 1) l :=
        if_pos hkey
      refine ⟨[], (key a, a :: first) :: groups, by simp [hl], by simp, ?_, ?_, ?_⟩
      · intro g hg
        obtain rfl | hg := List.mem_cons.mp hg
        · refine ⟨List.cons_ne_nil _ _, ?_⟩
          intro b hb
          obtain rfl | hb := List.mem_cons.mp hb
          · rfl
          · exact hfirst b hb
        · exact hgroups g hg
      · rw [hstarts, List.map_cons, List.map_cons, hkeys]
      · rw [hstarts, List.map_cons, List.map_cons, List.scanl_cons, List.cons_append]
        have hlen : i + (a :: l).length = i + 1 + l.length := by
          rw [List.length_cons]
          omega
        have hfrom : i + ([] : List α).length + (a :: first).length = i + 1 + first.length := by
          simp only [List.length_nil, List.length_cons]
          omega
        rw [hlen, hoffsets, hfrom]
        rfl

theorem starts_groups_of_ne {prev : κ} {l : List α} (h : ∀ a ∈ l, key a ≠ prev) :
    ∃ groups : List (κ × List α),
      l = groups.flatMap (·.2) ∧ (∀ g ∈ groups, IsGroup key g) ∧
      (starts key prev 0 l).map (·.1) = groups.map (·.1) ∧
      (starts key prev 0 l).map (·.2) ++ [l.length] =
        (groups.map (·.2.length)).scanl (· + ·) 0 := by
  obtain ⟨first, groups, hl, hfirst, hgroups, hkeys, hoffsets⟩ := @starts_groups _ _ _ key prev 0 l
  have hnil : first = [] := by
    rw [List.eq_nil_iff_forall_not_mem]
    intro a ha
    have hmem : a ∈ l := by
      rw [hl]
      exact List.mem_append_left _ ha
    exact h a hmem (hfirst a ha)
  subst hnil
  refine ⟨groups, hl, hgroups, hkeys, ?_⟩
  rwa [Nat.zero_add, List.length_nil, Nat.zero_add] at hoffsets

end

section
variable {α κ : Type*} [LinearOrder κ] {key : α → κ}

theorem starts_increasing {prev : κ} {i : Nat} {l : List α}
    (hsorted : l.Pairwise fun a b => key a ≤ key b) (hprev : ∀ a ∈ l, prev ≤ key a) :
    ((starts key prev i l).map (·.1)).Pairwise (· < ·) ∧
      ∀ k ∈ (starts key prev i l).map (·.1), prev < k := by
  induction l generalizing prev i with
  | nil => exact ⟨List.Pairwise.nil, by simp [starts]⟩
  | cons a l ih =>
    obtain ⟨hfirst, hrest⟩ := List.pairwise_cons.mp hsorted
    by_cases hkey : key a = prev
    · have hstarts : starts key prev i (a :: l) = starts key prev (i + 1) l :=
        if_neg (not_not.mpr hkey)
      rw [hstarts]
      exact ih hrest fun b hb => hprev b (List.mem_cons_of_mem _ hb)
    · have hstarts : starts key prev i (a :: l) = (key a, i) :: starts key (key a) (i + 1) l :=
        if_pos hkey
      have hlt : prev < key a := lt_of_le_of_ne (hprev a List.mem_cons_self) (Ne.symm hkey)
      obtain ⟨hpair, habove⟩ := ih (i := i + 1) hrest hfirst
      rw [hstarts, List.map_cons]
      refine ⟨List.pairwise_cons.mpr ⟨habove, hpair⟩, ?_⟩
      intro k hk
      obtain rfl | hk := List.mem_cons.mp hk
      · exact hlt
      · exact hlt.trans (habove k hk)

end

end Grouping

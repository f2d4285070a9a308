import Mathlib

/-! # Ordered sets

  `OrdSet α` is the finite set that iterates in ascending order: a
  strictly increasing list. It stands for `std::set` wherever the order
  of iteration is visible in the code, and it evaluates structurally, so
  that concrete runs can be checked by `decide`.
-/

/-- A finite set, kept as its elements in strictly increasing order. -/
structure OrdSet (α : Type*) [LinearOrder α] where
  toList : List α
  sorted : toList.Pairwise (· < ·)

namespace OrdSet

variable {α : Type*} [LinearOrder α]

instance : DecidableEq (OrdSet α) := fun s t =>
  decidable_of_iff (s.toList = t.toList) ⟨fun h => by cases s; cases t; simp_all, fun h => h ▸ rfl⟩

instance : Membership α (OrdSet α) := ⟨fun s a => a ∈ s.toList⟩

instance (a : α) (s : OrdSet α) : Decidable (a ∈ s) :=
  inferInstanceAs (Decidable (a ∈ s.toList))

theorem mem_def {a : α} {s : OrdSet α} : a ∈ s ↔ a ∈ s.toList := Iff.rfl

theorem nodup (s : OrdSet α) : s.toList.Nodup := s.sorted.imp fun h => h.ne

/-- The empty set. -/
def empty : OrdSet α := ⟨[], .nil⟩

/-- The number of elements. -/
def size (s : OrdSet α) : Nat := s.toList.length

@[simp] theorem not_mem_empty (a : α) : a ∉ (empty : OrdSet α) := List.not_mem_nil

@[simp] theorem size_empty : (empty : OrdSet α).size = 0 := rfl

theorem eq_empty_of_size_eq_zero {s : OrdSet α} (h : s.size = 0) : s = empty := by
  cases s
  simpa [size, empty] using h

/-! ### Insertion -/

/-- Insert into a strictly increasing list, keeping it so. -/
def insertList (a : α) : List α → List α
  | [] => [a]
  | b :: l => if a < b then a :: b :: l else if a = b then b :: l else b :: insertList a l

theorem mem_insertList {a x : α} {l : List α} : x ∈ insertList a l ↔ x = a ∨ x ∈ l := by
  induction l with
  | nil => simp [insertList]
  | cons b l ih =>
    unfold insertList
    split
    · simp
    · split
      · next h => simp [h]
      · simp only [List.mem_cons, ih]; tauto

theorem insertList_sorted {a : α} {l : List α} (h : l.Pairwise (· < ·)) :
    (insertList a l).Pairwise (· < ·) := by
  induction l with
  | nil => simp [insertList]
  | cons b l ih =>
    obtain ⟨hb, hl⟩ := List.pairwise_cons.mp h
    unfold insertList
    split
    · next hab =>
      refine List.pairwise_cons.mpr ⟨fun x hx => ?_, h⟩
      rcases List.mem_cons.mp hx with rfl | hx
      · exact hab
      · exact hab.trans (hb x hx)
    · next hab =>
      split
      · exact h
      · next hne =>
        refine List.pairwise_cons.mpr ⟨fun x hx => ?_, ih hl⟩
        rcases mem_insertList.mp hx with rfl | hx
        · exact lt_of_le_of_ne (not_lt.mp hab) (Ne.symm hne)
        · exact hb x hx

theorem length_insertList {a : α} {l : List α} (h : a ∉ l) :
    (insertList a l).length = l.length + 1 := by
  induction l with
  | nil => rfl
  | cons b l ih =>
    obtain ⟨hne, hnot⟩ : a ≠ b ∧ a ∉ l := by simpa [not_or] using h
    rw [insertList, if_neg hne]
    split
    · rfl
    · rw [List.length_cons, ih hnot, List.length_cons]

/-- Add an element. -/
def insert (a : α) (s : OrdSet α) : OrdSet α := ⟨insertList a s.toList, insertList_sorted s.sorted⟩

@[simp] theorem mem_insert {a x : α} {s : OrdSet α} : x ∈ s.insert a ↔ x = a ∨ x ∈ s :=
  mem_insertList

theorem size_insert {a : α} {s : OrdSet α} (h : a ∉ s) : (s.insert a).size = s.size + 1 :=
  length_insertList h

/-! ### Removal -/

/-- Remove an element. -/
def erase (a : α) (s : OrdSet α) : OrdSet α :=
  ⟨s.toList.filter (· ≠ a), s.sorted.filter _⟩

@[simp] theorem mem_erase {a x : α} {s : OrdSet α} : x ∈ s.erase a ↔ x ∈ s ∧ x ≠ a := by
  simp [erase, mem_def]

/-! ### Loops over another set -/

theorem mem_foldl_erase {x : α} {l : List α} {s : OrdSet α} :
    x ∈ l.foldl (fun s a => s.erase a) s ↔ x ∈ s ∧ x ∉ l := by
  induction l generalizing s with
  | nil => simp
  | cons a l ih =>
    rw [List.foldl_cons, ih, mem_erase, List.mem_cons, not_or, and_assoc]

theorem mem_foldl_insert_unless {p : α → Prop} [DecidablePred p] {x : α} {l : List α}
    {s : OrdSet α} :
    x ∈ l.foldl (fun s a => if p a then s else s.insert a) s ↔ x ∈ s ∨ x ∈ l ∧ ¬ p x := by
  induction l generalizing s with
  | nil => simp
  | cons a l ih =>
    rw [List.foldl_cons, ih, List.mem_cons]
    by_cases ha : p a
    · rw [if_pos ha]
      constructor
      · rintro (h | ⟨h, hx⟩)
        · exact .inl h
        · exact .inr ⟨.inr h, hx⟩
      · rintro (h | ⟨rfl | h, hx⟩)
        · exact .inl h
        · exact absurd ha hx
        · exact .inr ⟨h, hx⟩
    · rw [if_neg ha, mem_insert]
      constructor
      · rintro ((rfl | h) | ⟨h, hx⟩)
        · exact .inr ⟨.inl rfl, ha⟩
        · exact .inl h
        · exact .inr ⟨.inr h, hx⟩
      · rintro (h | ⟨rfl | h, hx⟩)
        · exact .inl (.inr h)
        · exact .inl (.inl rfl)
        · exact .inr ⟨h, hx⟩

end OrdSet

import Mathlib

/-! # Derived datatypes

  A datatype of a message-passing library lists where the pieces of one
  element lie, in the order in which a message carries them, and how far the
  next element is. Memory is a function of the byte address.

  * **Constructors**: `basic`, `vector` and `resized`.
  * **Messages**: `addresses` are the bytes of some elements, `gather` reads
    them and `scatter` writes them.
  * **Columns**: a vector of single elements, resized to one element. The bytes
    of several columns are those of a table, column by column.
-/

namespace Datatypes

/-- The pieces of an element, each with its displacement and its size in bytes,
    and the displacement of the next element. -/
structure Datatype where
  entries : List (Int × Nat)
  extent : Int

/-- One piece. -/
def basic (size : Nat) : Datatype := ⟨[(0, size)], size⟩

/-- Blocks of elements at equal distances. The extent is that of a stride that
    does not go backward. -/
def vector (count blocklength : Nat) (stride : Int) (ty : Datatype) : Datatype where
  entries := (List.range count).flatMap fun i : Nat => (List.range blocklength).flatMap fun j : Nat =>
    ty.entries.map fun e => (((i : Int) * stride + j) * ty.extent + e.1, e.2)
  extent := (((count : Int) - 1) * stride + blocklength) * ty.extent

/-- The same pieces, with another extent. -/
def resized (ty : Datatype) (extent : Int) : Datatype := ⟨ty.entries, extent⟩

/-- The bytes of some elements from an address on, in the order of a message. -/
def addresses (ty : Datatype) (base : Int) (count : Nat) : List Int :=
  (List.range count).flatMap fun b : Nat => ty.entries.flatMap fun e =>
    (List.range e.2).map fun c : Nat => base + b * ty.extent + e.1 + c

variable {β : Type}

/-- The message that is sent. -/
def gather (memory : Int → β) (at_ : List Int) : List β := at_.map memory

/-- The memory after a message has been received. -/
def scatter (at_ : List Int) (message : List β) (memory : Int → β) : Int → β :=
  (at_.zip message).foldl (fun memory x => Function.update memory x.1 x.2) memory

/-! ### Messages -/

section
variable {ι : Type*} {l : List ι} {target : ι → Int} {value : ι → β}

theorem scatter_of_not_mem {at_ : List Int} {message : List β} {memory : Int → β} {a : Int}
    (h : a ∉ at_) : scatter at_ message memory a = memory a := by
  induction at_ generalizing message memory with
  | nil => rfl
  | cons b at_ ih =>
    cases message with
    | nil => rfl
    | cons x message =>
      have hne : a ≠ b := fun heq => h (heq ▸ List.mem_cons_self)
      show scatter at_ message (Function.update memory b x) a = memory a
      rw [ih fun ha => h (List.mem_cons_of_mem _ ha), Function.update_of_ne hne]

theorem scatter_map {memory : Int → β} (hinj : ∀ i ∈ l, ∀ j ∈ l, target i = target j → i = j)
    {i : ι} (hi : i ∈ l) : scatter (l.map target) (l.map value) memory (target i) = value i := by
  induction l generalizing memory with
  | nil => cases hi
  | cons j l ih =>
    show scatter (l.map target) (l.map value) (Function.update memory (target j) (value j)) _ = _
    by_cases hl : i ∈ l
    · exact ih (fun a ha b hb => hinj a (List.mem_cons_of_mem _ ha) b (List.mem_cons_of_mem _ hb)) hl
    · obtain rfl : i = j := (List.mem_cons.mp hi).resolve_right hl
      rw [scatter_of_not_mem, Function.update_self]
      intro hmem
      obtain ⟨b, hb, heq⟩ := List.mem_map.mp hmem
      have := hinj b (List.mem_cons_of_mem _ hb) i hi heq
      exact hl (this ▸ hb)

theorem foldl_apply_of_hit {κ : Type*} {f : (Int → β) → κ → Int → β} {l : List κ} {r : κ} {a : Int}
    {x : β} (hr : r ∈ l) (hhit : ∀ memory, f memory r a = x)
    (hmiss : ∀ q ∈ l, q ≠ r → ∀ memory, f memory q a = memory a) (memory : Int → β) :
    l.foldl f memory a = x := by
  induction l using List.reverseRecOn with
  | nil => cases hr
  | append_singleton l q ih =>
    rw [List.foldl_append, List.foldl_cons, List.foldl_nil]
    by_cases hq : q = r
    · subst hq
      exact hhit _
    · have hmem : r ∈ l := by
        rcases List.mem_append.mp hr with h | h
        · exact h
        · exact absurd (List.mem_singleton.mp h).symm hq
      rw [hmiss q (List.mem_append_right _ List.mem_cons_self) hq]
      exact ih hmem fun q' hq' => hmiss q' (List.mem_append_left _ hq')

theorem foldl_apply_of_miss {κ : Type*} {f : (Int → β) → κ → Int → β} {l : List κ} {a : Int}
    (hmiss : ∀ q ∈ l, ∀ memory, f memory q a = memory a) (memory : Int → β) :
    l.foldl f memory a = memory a := by
  induction l generalizing memory with
  | nil => rfl
  | cons q l ih =>
    rw [List.foldl_cons, ih fun q' hq' => hmiss q' (List.mem_cons_of_mem _ hq')]
    exact hmiss q List.mem_cons_self memory

end

/-! ### Columns -/

/-- One element in each of some rows, with the extent of one element. -/
def column (rows : Nat) (stride : Int) (size : Nat) (extent : Int) : Datatype :=
  resized (vector rows 1 stride (basic size)) extent

theorem entries_column (rows : Nat) (stride : Int) (size : Nat) (extent : Int) :
    (column rows stride size extent).entries =
      (List.range rows).map fun k : Nat => ((k : Int) * stride * size, size) := by
  rw [column, resized, vector]
  dsimp only
  rw [List.map_eq_flatMap]
  apply List.flatMap_congr
  intro k _
  simp [basic]

/-- The bytes of a table: element, row, byte. -/
def items (count rows size : Nat) : List (Nat × Nat × Nat) :=
  (List.range count).flatMap fun b => (List.range rows).flatMap fun k =>
    (List.range size).map fun c => (b, k, c)

theorem mem_items {count rows size b k c : Nat} :
    (b, k, c) ∈ items count rows size ↔ b < count ∧ k < rows ∧ c < size := by
  simp [items]

theorem addresses_column (rows : Nat) (stride : Int) (size : Nat) (extent base : Int)
    (count : Nat) : addresses (column rows stride size extent) base count =
      (items count rows size).map fun x =>
        base + (x.1 : Int) * extent + (x.2.1 : Int) * stride * size + (x.2.2 : Int) := by
  rw [addresses, entries_column, items, List.map_flatMap]
  apply List.flatMap_congr
  intro b _
  rw [List.map_flatMap, List.flatMap_map]
  apply List.flatMap_congr
  intro k _
  rw [List.map_map]
  rfl

end Datatypes

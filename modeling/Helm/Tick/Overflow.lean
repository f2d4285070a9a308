import Helm.Tick.Time

/-! # TICK: overflow checks in constant evaluation

  `checked_add`, `checked_sub` and `checked_mul` have two branches. At run time
  they ask the compiler whether the exact result fits. In constant evaluation
  they compare the operands with limits that they compute first, by operators
  that must not overflow themselves.

  Main result: `constant_evaluation_agrees`.
-/

namespace Tick

open Signed

/-! ## Section 1: The branches -/

/-- The run-time branch of `checked_mul`. -/
def checked_mul (a b : Int64) : Cpp Int64 := do
  let result ← checked 64 (.overflow_error "Integer overflow in multiplication")
    (a.toInt * b.toInt)
  return .ofInt result

def max_val : Int := 9223372036854775807

def min_val : Int := -9223372036854775808

/-- A built-in division. -/
def quotient (a b : Int) : Cpp Int := if b = 0 then .undefined else signed 64 (a.tdiv b)

/-- `if (c && p) throw e`: the second operand is evaluated only if the first holds. -/
def throw_if (c : Prop) [Decidable c] (p : Cpp Bool) (e : Exn) : Cpp Unit :=
  if c then do
    let failed ← p
    if failed then .thrown e else .returned ()
  else .returned ()

/-- The branch of `checked_add` in constant evaluation. -/
def checked_add_constant (a b : Int64) : Cpp Int64 := do
  throw_if (b.toInt > 0) (do let limit ← signed 64 (max_val - b.toInt); return a.toInt > limit)
    (.overflow_error "Integer overflow in addition")
  throw_if (b.toInt < 0) (do let limit ← signed 64 (min_val - b.toInt); return a.toInt < limit)
    (.overflow_error "Integer overflow in addition")
  let result ← signed 64 (a.toInt + b.toInt)
  return .ofInt result

/-- The branch of `checked_sub` in constant evaluation. -/
def checked_sub_constant (a b : Int64) : Cpp Int64 := do
  throw_if (b.toInt < 0) (do let limit ← signed 64 (max_val + b.toInt); return a.toInt > limit)
    (.overflow_error "Integer overflow in subtraction")
  throw_if (b.toInt > 0) (do let limit ← signed 64 (min_val + b.toInt); return a.toInt < limit)
    (.overflow_error "Integer overflow in subtraction")
  let result ← signed 64 (a.toInt - b.toInt)
  return .ofInt result

/-- The general case of `checked_mul`: the comparison with a quotient. -/
def check_product (a b : Int) (e : Exn) : Cpp Unit :=
  if a > 0 then
    if b > 0 then throw_if True (do let limit ← quotient max_val b; return a > limit) e
    else throw_if True (do let limit ← quotient min_val a; return b < limit) e
  else
    if b > 0 then throw_if True (do let limit ← quotient min_val b; return a < limit) e
    else throw_if True (do let limit ← quotient max_val b; return a < limit) e

/-- The branch of `checked_mul` in constant evaluation. -/
def checked_mul_constant (a b : Int64) : Cpp Int64 :=
  let e := .overflow_error "Integer overflow in multiplication"
  if a.toInt = 0 ∨ b.toInt = 0 then .returned 0
  else if a.toInt = -1 then do
    if b.toInt = min_val then .thrown e
    else
      let result ← signed 64 (-b.toInt)
      return .ofInt result
  else if b.toInt = -1 then do
    if a.toInt = min_val then .thrown e
    else
      let result ← signed 64 (-a.toInt)
      return .ofInt result
  else do
    check_product a.toInt b.toInt e
    let result ← signed 64 (a.toInt * b.toInt)
    return .ofInt result

/-! ## Section 2: They agree -/

theorem bounds (a : Int64) : min_val ≤ a.toInt ∧ a.toInt ≤ max_val := fits_64.mp (fits_toInt a)

theorem throw_if_not {c : Prop} [Decidable c] (h : ¬ c) (p : Cpp Bool) (e : Exn) :
    throw_if c p e = .returned () := if_neg h

theorem throw_if_limit {c : Prop} [Decidable c] (h : c) {limit : Int} (hlimit : Fits 64 limit)
    {p : Int → Bool} {x : Int} (hp : p limit = true ↔ ¬ Fits 64 x) (e : Exn) :
    throw_if c (do let limit ← signed 64 limit; return p limit) e =
      if Fits 64 x then .returned () else .thrown e := by
  rw [throw_if, if_pos h, signed_of_fits hlimit, Outcome.returned_bind, Outcome.pure_eq,
    Outcome.returned_bind]
  by_cases hfits : Fits 64 x
  · rw [if_pos hfits, if_neg (fun htrue => hp.mp htrue hfits)]
  · rw [if_neg hfits, if_pos (hp.mpr hfits)]

theorem guarded_eq (x : Int) (e : Exn) :
    (do
      (if Fits 64 x then .returned () else .thrown e : Cpp Unit)
      let result ← signed 64 x
      return Int64.ofInt result) = (do
      let result ← checked 64 e x
      return Int64.ofInt result : Cpp Int64) := by
  by_cases hfits : Fits 64 x
  · rw [if_pos hfits, signed_of_fits hfits, checked_of_fits hfits]
    rfl
  · rw [if_neg hfits, checked_of_not_fits hfits]
    rfl

theorem checked_add_constant_eq (a b : Int64) : checked_add_constant a b = checked_add a b := by
  obtain ⟨ha, ha'⟩ := bounds a
  obtain ⟨hb, hb'⟩ := bounds b
  unfold checked_add_constant checked_add min_val max_val at *
  rcases Int.lt_trichotomy b.toInt 0 with hneg | hzero | hpos
  · rw [throw_if_not (by omega), Outcome.returned_bind,
      throw_if_limit hneg (fits_64.mpr (by omega)) (x := a.toInt + b.toInt)
        (by rw [decide_eq_true_eq, fits_64]; omega)]
    exact guarded_eq _ _
  · rw [throw_if_not (by omega), throw_if_not (by omega), Outcome.returned_bind,
      Outcome.returned_bind, signed_of_fits (fits_64.mpr (by omega)),
      checked_of_fits (fits_64.mpr (by omega))]
  · rw [throw_if_limit hpos (fits_64.mpr (by omega)) (x := a.toInt + b.toInt)
      (by rw [decide_eq_true_eq, fits_64]; omega), throw_if_not (by omega)]
    exact guarded_eq _ _

theorem checked_sub_constant_eq (a b : Int64) : checked_sub_constant a b = checked_sub a b := by
  obtain ⟨ha, ha'⟩ := bounds a
  obtain ⟨hb, hb'⟩ := bounds b
  unfold checked_sub_constant checked_sub min_val max_val at *
  rcases Int.lt_trichotomy b.toInt 0 with hneg | hzero | hpos
  · rw [throw_if_limit hneg (fits_64.mpr (by omega)) (x := a.toInt - b.toInt)
      (by rw [decide_eq_true_eq, fits_64]; omega), throw_if_not (by omega)]
    exact guarded_eq _ _
  · rw [throw_if_not (by omega), throw_if_not (by omega), Outcome.returned_bind,
      Outcome.returned_bind, signed_of_fits (fits_64.mpr (by omega)),
      checked_of_fits (fits_64.mpr (by omega))]
  · rw [throw_if_not (by omega), Outcome.returned_bind,
      throw_if_limit hpos (fits_64.mpr (by omega)) (x := a.toInt - b.toInt)
        (by rw [decide_eq_true_eq, fits_64]; omega)]
    exact guarded_eq _ _

/-! ### Products -/

theorem le_max_quotient_iff {a b : Int} (hb : 0 < b) : a ≤ max_val.tdiv b ↔ a * b ≤ max_val := by
  rw [tdiv_of_nonneg (by decide), Int.le_ediv_iff_mul_le hb]

theorem min_quotient_le_iff {a b : Int} (hb : 0 < b) : min_val.tdiv b ≤ a ↔ min_val ≤ a * b := by
  have hneg : min_val = -9223372036854775808 := rfl
  rw [hneg, Int.neg_tdiv, tdiv_of_nonneg (by decide), neg_le, Int.le_ediv_iff_mul_le hb]
  constructor
  · intro h
    linarith
  · intro h
    linarith

theorem quotient_of_ne {a b : Int} (hb : b ≠ 0) : quotient a b = signed 64 (a.tdiv b) := if_neg hb

theorem fits_max_quotient {b : Int} (hb : 0 < b) : Fits 64 (max_val.tdiv b) := by
  have hlow : 0 ≤ max_val.tdiv b := Int.tdiv_nonneg (by decide) hb.le
  have hhigh : max_val.tdiv b ≤ max_val := by
    rw [tdiv_of_nonneg (by decide)]
    exact Int.ediv_le_self b (by decide)
  unfold max_val at *
  exact fits_64.mpr (by omega)

theorem fits_min_quotient {b : Int} (hb : 0 < b) : Fits 64 (min_val.tdiv b) := by
  have hlow : min_val ≤ min_val.tdiv b := by
    have hself := (min_quotient_le_iff (a := min_val.tdiv b) hb).mp (le_refl _)
    by_contra hlt
    have hmul : min_val.tdiv b * b ≤ min_val.tdiv b := by
      unfold min_val at *
      nlinarith
    omega
  have hhigh : min_val.tdiv b ≤ 0 := (min_quotient_le_iff hb).mpr (by rw [zero_mul]; decide)
  unfold min_val at *
  exact fits_64.mpr (by omega)

theorem check_product_eq {a b : Int} (ha0 : a ≠ 0) (hb0 : b ≠ 0) (e : Exn) :
    check_product a b e = if Fits 64 (a * b) then .returned () else .thrown e := by
  have hfits : Fits 64 (a * b) ↔ min_val ≤ a * b ∧ a * b ≤ max_val := fits_64
  unfold check_product
  split
  · next hpos =>
    split
    · next hb =>
      have hprod : 0 ≤ a * b := mul_nonneg hpos.le hb.le
      rw [quotient_of_ne hb0]
      apply throw_if_limit trivial (fits_max_quotient hb)
      rw [decide_eq_true_eq, hfits, gt_iff_lt, ← not_le, le_max_quotient_iff hb,
        and_iff_right (le_trans (by decide) hprod)]
    · next hb =>
      have hprod : a * b ≤ 0 := mul_nonpos_of_nonneg_of_nonpos hpos.le (not_lt.mp hb)
      rw [quotient_of_ne ha0]
      apply throw_if_limit trivial (fits_min_quotient hpos)
      rw [decide_eq_true_eq, hfits, ← not_le, min_quotient_le_iff hpos, mul_comm b a,
        and_iff_left (le_trans hprod (by decide))]
  · next hneg =>
    have ha : a < 0 := by omega
    split
    · next hb =>
      have hprod : a * b ≤ 0 := mul_nonpos_of_nonpos_of_nonneg ha.le hb.le
      rw [quotient_of_ne hb0]
      apply throw_if_limit trivial (fits_min_quotient hb)
      rw [decide_eq_true_eq, hfits, ← not_le, min_quotient_le_iff hb,
        and_iff_left (le_trans hprod (by decide))]
    · next hb =>
      -- both are negative: the same with the signs turned round
      have hb' : 0 < -b := by omega
      have hprod : 0 ≤ a * b := mul_nonneg_of_nonpos_of_nonpos ha.le (by omega)
      have hquotient : max_val.tdiv b = -max_val.tdiv (-b) := by
        rw [Int.tdiv_neg, neg_neg]
      have hlimit : Fits 64 (max_val.tdiv b) := by
        have h := fits_64.mp (fits_max_quotient hb')
        have hlow : 0 ≤ max_val.tdiv (-b) := Int.tdiv_nonneg (by decide) hb'.le
        rw [hquotient]
        exact fits_64.mpr (by omega)
      have hle : -a ≤ max_val.tdiv (-b) ↔ a * b ≤ max_val := by
        rw [le_max_quotient_iff hb', neg_mul_neg]
      rw [quotient_of_ne hb0]
      apply throw_if_limit trivial hlimit
      rw [decide_eq_true_eq, hfits, and_iff_right (le_trans (by decide) hprod), ← hle, hquotient]
      omega

theorem negated_eq {x : Int} (hx : Fits 64 x) (e : Exn) :
    (if x = min_val then .thrown e else do
      let result ← signed 64 (-x)
      return Int64.ofInt result : Cpp Int64) = do
      let result ← checked 64 e (-x)
      return Int64.ofInt result := by
  have hbounds := fits_64.mp hx
  split
  · next heq =>
    rw [heq, checked_of_not_fits (by decide)]
    rfl
  · next hne =>
    unfold min_val at hne
    rw [signed_of_fits (fits_64.mpr (by omega)), checked_of_fits (fits_64.mpr (by omega))]

theorem checked_mul_constant_eq (a b : Int64) : checked_mul_constant a b = checked_mul a b := by
  have ha := fits_toInt a
  have hb := fits_toInt b
  unfold checked_mul_constant checked_mul
  dsimp only
  split
  · next hzero =>
    have hprod : a.toInt * b.toInt = 0 := mul_eq_zero.mpr hzero
    rw [hprod, checked_of_fits (by decide)]
    rfl
  next hne =>
  split
  · next hminus =>
    rw [hminus, neg_one_mul]
    exact negated_eq hb _
  split
  · next hminus =>
    rw [hminus, mul_neg_one]
    exact negated_eq ha _
  · push Not at hne
    rw [check_product_eq hne.1 hne.2]
    exact guarded_eq _ _

/-- What a call returns or throws whose exact result is `x`. -/
def Reports (x : Int) (what : String) (call : Cpp Int64) : Prop :=
  (Fits 64 x → call = .returned (.ofInt x)) ∧ (¬ Fits 64 x → call = .thrown (.overflow_error what))

theorem reports_checked (x : Int) (what : String) :
    Reports x what (do
      let result ← checked 64 (.overflow_error what) x
      return Int64.ofInt result) := by
  constructor
  · intro h
    rw [checked_of_fits h]
    rfl
  · intro h
    rw [checked_of_not_fits h]
    rfl

/-- **Constant evaluation agrees with run time.** Both branches of each function
    report an overflow exactly when the exact result does not fit, and return
    the same value otherwise. No operator on the way overflows, which would be
    `undefined`. -/
theorem constant_evaluation_agrees (a b : Int64) :
    (checked_add_constant a b = checked_add a b ∧
      Reports (a.toInt + b.toInt) "Integer overflow in addition" (checked_add_constant a b)) ∧
    (checked_sub_constant a b = checked_sub a b ∧
      Reports (a.toInt - b.toInt) "Integer overflow in subtraction" (checked_sub_constant a b)) ∧
    (checked_mul_constant a b = checked_mul a b ∧
      Reports (a.toInt * b.toInt) "Integer overflow in multiplication"
        (checked_mul_constant a b)) := by
  refine ⟨⟨checked_add_constant_eq a b, ?_⟩, ⟨checked_sub_constant_eq a b, ?_⟩,
    ⟨checked_mul_constant_eq a b, ?_⟩⟩
  · rw [checked_add_constant_eq]
    exact reports_checked _ _
  · rw [checked_sub_constant_eq]
    exact reports_checked _ _
  · rw [checked_mul_constant_eq]
    exact reports_checked _ _

end Tick

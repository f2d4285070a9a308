import Helm.Tick.Windows

/-! # Heartbeat and synchronization period

  `compute_heartbeat` folds the greatest common divisor over the time
  steps, `compute_sync_period` the least common multiple, with a check
  for overflow before every multiplication.

  The results are stated with `Multiset.gcd` and `Multiset.lcm` of the
  steps, which know no order.
-/

namespace Tick

open Signed

/-! ### The functions -/

/-- One iteration of `compute_heartbeat`; `std::gcd` of integers. -/
def gcd_step (result : Int) (step : Duration) : Cpp Int := do
  require (0 < step.nanos.toInt) (.invalid_argument "All time steps must be positive")
  return (Int.gcd result step.nanos.toInt : Int)

def compute_heartbeat (time_steps : List Duration) : Cpp Duration := do
  require (time_steps ≠ []) (.invalid_argument "At least one time step required")
  let result ← time_steps.foldlM gcd_step 0
  return ⟨.ofInt result⟩

def int64_max : Int := 9223372036854775807

/-- One iteration of `compute_sync_period`. The check compares quotients, so
    that the product is formed only when it fits. -/
def lcm_step (result : Int) (step : Duration) : Cpp Int := do
  require (0 < step.nanos.toInt) (.invalid_argument "All time steps must be positive")
  let g : Int := Int.gcd result step.nanos.toInt
  let div := result.tdiv g
  require (¬ (step.nanos.toInt ≠ 0 ∧ div > int64_max.tdiv step.nanos.toInt))
    (.overflow_error "Integer overflow in LCM computation")
  signed 64 (div * step.nanos.toInt)

def compute_sync_period (time_steps : List Duration) : Cpp Duration := do
  require (time_steps ≠ []) (.invalid_argument "At least one time step required")
  let result ← time_steps.foldlM lcm_step 1
  return ⟨.ofInt result⟩

/-! ### The common divisor and the common multiple -/

/-- The time steps as integers. -/
def steps (time_steps : List Duration) : Multiset Int :=
  (time_steps.map fun step => step.nanos.toInt : List Int)

theorem steps_cons (step : Duration) (time_steps : List Duration) :
    steps (step :: time_steps) = step.nanos.toInt ::ₘ steps time_steps := rfl

theorem mem_steps {time_steps : List Duration} {x : Int} :
    x ∈ steps time_steps ↔ ∃ step ∈ time_steps, step.nanos.toInt = x := by
  simp [steps]

theorem steps_perm {time_steps time_steps' : List Duration} (h : time_steps.Perm time_steps') :
    steps time_steps = steps time_steps' :=
  Multiset.coe_eq_coe.mpr (h.map _)

section Folds

variable {time_steps : List Duration}

theorem foldlM_gcd_step (hpos : ∀ step ∈ time_steps, 0 < step.nanos.toInt) (result : Int) :
    time_steps.foldlM gcd_step result = .returned
      (if time_steps = [] then result else GCDMonoid.gcd result (steps time_steps).gcd) := by
  induction time_steps generalizing result with
  | nil => rfl
  | cons step time_steps ih =>
    have hstep : gcd_step result step = .returned (GCDMonoid.gcd result step.nanos.toInt) := by
      unfold gcd_step
      rw [require_of (hpos step List.mem_cons_self), Int.coe_gcd]
      rfl
    rw [List.foldlM_cons, hstep, Outcome.returned_bind,
      ih fun s hs => hpos s (List.mem_cons_of_mem _ hs), if_neg (List.cons_ne_nil _ _)]
    congr 1
    rw [steps_cons, Multiset.gcd_cons]
    split
    · next hnil =>
      subst hnil
      have hpositive := hpos step List.mem_cons_self
      show GCDMonoid.gcd result _ = GCDMonoid.gcd result (GCDMonoid.gcd _ 0)
      rw [gcd_zero_right, Int.normalize_of_nonneg hpositive.le]
    · exact gcd_assoc _ _ _

theorem lcm_pos {a b : Int} (ha : 0 < a) (hb : 0 < b) : 0 < GCDMonoid.lcm a b := by
  have hne : GCDMonoid.lcm a b ≠ 0 := by
    rw [Ne, lcm_eq_zero_iff]
    omega
  have := Int.lcm_nonneg a b
  omega

theorem lcm_steps_pos (hpos : ∀ step ∈ time_steps, 0 < step.nanos.toInt) :
    0 < (steps time_steps).lcm := by
  have hne : (steps time_steps).lcm ≠ 0 := by
    rw [Multiset.lcm_ne_zero_iff, mem_steps]
    rintro ⟨step, hstep, hzero⟩
    have := hpos step hstep
    omega
  have hnonneg := Int.nonneg_of_normalize_eq_self (Multiset.normalize_lcm (steps time_steps))
  omega

/-- One step of the common multiple: the check fails exactly when the
    multiple does not fit. -/
theorem lcm_step_eq {result : Int} (hresult : 0 < result) {step : Duration}
    (hpos : 0 < step.nanos.toInt) :
    lcm_step result step =
      if GCDMonoid.lcm result step.nanos.toInt ≤ int64_max then
        .returned (GCDMonoid.lcm result step.nanos.toInt)
      else .thrown (.overflow_error "Integer overflow in LCM computation") := by
  obtain ⟨x, hx⟩ : ∃ x, x = step.nanos.toInt := ⟨_, rfl⟩
  obtain ⟨g, hg⟩ : ∃ g : Int, g = Int.gcd result x := ⟨_, rfl⟩
  have hg0 : 0 < g := by
    have := Int.gcd_pos_of_ne_zero_left x hresult.ne'
    omega
  obtain ⟨q, hq⟩ : g ∣ result := hg ▸ Int.gcd_dvd_left result x
  have hdiv : result.tdiv g = q := by
    rw [tdiv_of_nonneg hresult.le, hq, Int.mul_ediv_cancel_left q hg0.ne']
  -- the product of both is that of the divisor and the multiple
  have hlcm : GCDMonoid.lcm result x = q * x := by
    have hproduct : g * GCDMonoid.lcm result x = result * x := by
      have h := Int.gcd_mul_lcm result x
      have habs : ((result.natAbs * x.natAbs : Nat) : Int) = result * x := by
        push_cast
        rw [abs_of_pos hresult, abs_of_pos (hx ▸ hpos)]
      rw [← Int.coe_lcm, hg, ← habs, ← h]
      push_cast
      rfl
    apply mul_left_cancel₀ hg0.ne'
    rw [hproduct, ← mul_assoc, ← hq]
  have hcheck : q > int64_max.tdiv x ↔ ¬ q * x ≤ int64_max := by
    rw [tdiv_of_nonneg (by decide), gt_iff_lt, Int.ediv_lt_iff_lt_mul (hx ▸ hpos), not_le]
  have hq0 : 0 < q * x := by
    rw [← hlcm]
    exact lcm_pos hresult (hx ▸ hpos)
  unfold lcm_step
  simp only [← hx, ← hg, hdiv, hcheck, hlcm]
  rw [require_of (hx ▸ hpos), Outcome.returned_bind]
  by_cases hfits : q * x ≤ int64_max
  · rw [if_pos hfits, require_of (by omega), Outcome.returned_bind]
    apply signed_of_fits
    rw [fits_64]
    unfold int64_max at hfits
    omega
  · rw [if_neg hfits, require_of_not (by omega)]
    rfl

theorem foldlM_lcm_step (hpos : ∀ step ∈ time_steps, 0 < step.nanos.toInt) {result : Int}
    (hresult : 0 < result) (hfits : result ≤ int64_max) :
    time_steps.foldlM lcm_step result =
      if GCDMonoid.lcm result (steps time_steps).lcm ≤ int64_max then
        .returned (GCDMonoid.lcm result (steps time_steps).lcm)
      else .thrown (.overflow_error "Integer overflow in LCM computation") := by
  induction time_steps generalizing result with
  | nil =>
    have hone : GCDMonoid.lcm result (steps []).lcm = result := by
      show GCDMonoid.lcm result 1 = result
      rw [lcm_one_right, Int.normalize_of_nonneg hresult.le]
    rw [hone, if_pos hfits]
    rfl
  | cons step time_steps ih =>
    have hstep := hpos step List.mem_cons_self
    have hrest : ∀ s ∈ time_steps, 0 < s.nanos.toInt := fun s hs =>
      hpos s (List.mem_cons_of_mem _ hs)
    have hpos' := lcm_pos hresult hstep
    rw [List.foldlM_cons, lcm_step_eq hresult hstep, steps_cons, Multiset.lcm_cons, ← lcm_assoc]
    by_cases hle : GCDMonoid.lcm result step.nanos.toInt ≤ int64_max
    · rw [if_pos hle, Outcome.returned_bind, ih hrest hpos' hle]
    · -- a partial multiple divides the whole
      have hpart := Int.le_of_dvd (lcm_pos hpos' (lcm_steps_pos hrest))
        (dvd_lcm_left (GCDMonoid.lcm result step.nanos.toInt) (steps time_steps).lcm)
      rw [if_neg hle, if_neg fun h => hle (hpart.trans h)]
      rfl

end Folds

theorem aligned_iff_dvd {t base : TimePoint} {step : Duration} (hpos : 0 < step.nanos.toInt)
    (hle : base.nanos.toInt ≤ t.nanos.toInt) (hfits : Fits 64 (t.nanos.toInt - base.nanos.toInt)) :
    is_phase_aligned t base step = .returned true ↔
      step.nanos.toInt ∣ t.nanos.toInt - base.nanos.toInt := by
  rw [is_phase_aligned_eq t base hpos, if_pos fun _ => hfits, Outcome.returned.injEq,
    decide_eq_true_eq]
  exact and_iff_right hle

section Law

variable {time_steps : List Duration}

theorem compute_heartbeat_eq (hne : time_steps ≠ [])
    (hpos : ∀ step ∈ time_steps, 0 < step.nanos.toInt) :
    compute_heartbeat time_steps = .returned ⟨.ofInt (steps time_steps).gcd⟩ := by
  have hnormal := Multiset.normalize_gcd (steps time_steps)
  unfold compute_heartbeat
  rw [require_of hne, Outcome.returned_bind, foldlM_gcd_step hpos, if_neg hne, gcd_zero_left,
    hnormal]
  rfl

theorem compute_sync_period_eq (hne : time_steps ≠ [])
    (hpos : ∀ step ∈ time_steps, 0 < step.nanos.toInt) :
    compute_sync_period time_steps =
      if (steps time_steps).lcm ≤ int64_max then .returned ⟨.ofInt (steps time_steps).lcm⟩
      else .thrown (.overflow_error "Integer overflow in LCM computation") := by
  have hnormal := Multiset.normalize_lcm (steps time_steps)
  unfold compute_sync_period
  rw [require_of hne, Outcome.returned_bind, foldlM_lcm_step hpos Int.one_pos (by decide),
    lcm_one_left, hnormal]
  split
  · rfl
  · rfl

theorem toInt_gcd_steps (hne : time_steps ≠ [])
    (hpos : ∀ step ∈ time_steps, 0 < step.nanos.toInt) :
    (Int64.ofInt (steps time_steps).gcd).toInt = (steps time_steps).gcd := by
  obtain ⟨step, hstep⟩ := List.exists_mem_of_ne_nil _ hne
  have hle := Int.le_of_dvd (hpos step hstep)
    (Multiset.gcd_dvd (mem_steps.mpr ⟨step, hstep, rfl⟩))
  have hnonneg := Int.nonneg_of_normalize_eq_self (Multiset.normalize_gcd (steps time_steps))
  have hfits := fits_toInt step.nanos
  apply toInt_ofInt_of_fits
  rw [fits_64] at *
  omega

/-- **Heartbeat and synchronization period.** For a nonempty list of
    positive steps, in any order: the heartbeat is the greatest common
    divisor; the period is the least common multiple, and the overflow error
    is thrown exactly when that exceeds `INT64_MAX`; and an instant is
    aligned with all steps exactly when it is aligned with the period. -/
theorem heartbeat_and_sync_period (hne : time_steps ≠ [])
    (hpos : ∀ step ∈ time_steps, 0 < step.nanos.toInt) :
    (∃ h, compute_heartbeat time_steps = .returned h ∧
      h.nanos.toInt = (steps time_steps).gcd) ∧
    (compute_sync_period time_steps =
        .thrown (.overflow_error "Integer overflow in LCM computation") ↔
      int64_max < (steps time_steps).lcm) ∧
    ((steps time_steps).lcm ≤ int64_max →
      ∃ p, compute_sync_period time_steps = .returned p ∧
        p.nanos.toInt = (steps time_steps).lcm ∧
        ∀ t base : TimePoint, base.nanos.toInt ≤ t.nanos.toInt →
          Fits 64 (t.nanos.toInt - base.nanos.toInt) →
          ((∀ step ∈ time_steps, is_phase_aligned t base step = .returned true) ↔
            is_phase_aligned t base p = .returned true)) ∧
    ∀ time_steps', time_steps.Perm time_steps' →
      compute_heartbeat time_steps' = compute_heartbeat time_steps ∧
      compute_sync_period time_steps' = compute_sync_period time_steps := by
  refine ⟨⟨_, compute_heartbeat_eq hne hpos, toInt_gcd_steps hne hpos⟩, ?_, ?_, ?_⟩
  · rw [compute_sync_period_eq hne hpos, ← not_le]
    split
    · next hle => exact iff_of_false (by simp) (not_not.mpr hle)
    · next hgt => exact iff_of_true rfl hgt
  · intro hle
    have hperiod := lcm_steps_pos hpos
    have hvalue : (Int64.ofInt (steps time_steps).lcm).toInt = (steps time_steps).lcm := by
      apply toInt_ofInt_of_fits
      rw [fits_64]
      unfold int64_max at hle
      omega
    refine ⟨⟨.ofInt (steps time_steps).lcm⟩, ?_, hvalue, ?_⟩
    · rw [compute_sync_period_eq hne hpos, if_pos hle]
    · intro t base hbase hfits
      rw [aligned_iff_dvd (hvalue.symm ▸ hperiod) hbase hfits, hvalue, Multiset.lcm_dvd]
      constructor
      · intro hall x hx
        obtain ⟨step, hstep, rfl⟩ := mem_steps.mp hx
        exact (aligned_iff_dvd (hpos step hstep) hbase hfits).mp (hall step hstep)
      · intro hall step hstep
        exact (aligned_iff_dvd (hpos step hstep) hbase hfits).mpr
          (hall _ (mem_steps.mpr ⟨step, hstep, rfl⟩))
  · intro time_steps' hperm
    have hne' : time_steps' ≠ [] := by
      rintro rfl
      exact hne hperm.eq_nil
    have hpos' : ∀ step ∈ time_steps', 0 < step.nanos.toInt := fun step hstep =>
      hpos step (hperm.mem_iff.mpr hstep)
    rw [compute_heartbeat_eq hne hpos, compute_heartbeat_eq hne' hpos',
      compute_sync_period_eq hne hpos, compute_sync_period_eq hne' hpos', steps_perm hperm]
    exact ⟨rfl, rfl⟩

end Law

theorem heartbeat_of_four_and_six :
    compute_heartbeat [⟨4⟩, ⟨6⟩] = .returned ⟨2⟩ ∧
      compute_sync_period [⟨6⟩, ⟨4⟩] = .returned ⟨12⟩ ∧
      (steps [⟨4⟩, ⟨6⟩]).lcm ≤ int64_max := by
  have hpos : ∀ step ∈ [(⟨4⟩ : Duration), ⟨6⟩], 0 < step.nanos.toInt := by decide
  obtain ⟨-, hoverflow, -, hperm⟩ := heartbeat_and_sync_period (List.cons_ne_nil _ _) hpos
  have hperiod : compute_sync_period [⟨4⟩, ⟨6⟩] = .returned ⟨12⟩ := by decide +kernel
  have hswap := hperm [⟨6⟩, ⟨4⟩] (List.Perm.swap _ _ _)
  refine ⟨by decide +kernel, hswap.2.trans hperiod, ?_⟩
  by_contra hgt
  have hthrown := hoverflow.mpr (not_le.mp hgt)
  rw [hperiod] at hthrown
  cases hthrown

end Tick

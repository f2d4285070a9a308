import Helm.Tick.DayCount

/-! # The day arithmetic of the calendar engines

  * `civil_to_days_eq`: the day arithmetic of the Gregorian
    `to_time_point` is the count of days.
  * `days_to_civil_spec`: the day arithmetic of the Gregorian
    `to_date_time` yields the date with the given number. `era_digits`
    splits a day of the era into centuries, four-year cycles, years and a
    day of the year, which is what the closed formulas compute.
  * `find_month_spec`: the same for the table search of the NoLeap engine.
-/

namespace Tick

open Signed

/-! ### Gregorian day arithmetic -/

theorem era_eq_floor {a b n : Int} (hb : 0 < b) (hn : n = b - 1) :
    (if 0 ≤ a then a else a - n).tdiv b = a / b := by
  split
  · exact tdiv_of_nonneg ‹_›
  · rw [show a - n = a - b + 1 by omega]
    exact tdiv_shift_eq_floor (by omega) hb

theorem civil_to_days_march (y d : Int) {m : Int} (hm : 1 ≤ m ∧ m ≤ 12) :
    GregorianCalendar.civil_to_days y m d
      = marchStart (y - (if m ≤ 2 then 1 else 0))
        + ((153 * (m + (if m > 2 then -3 else 9)) + 2) / 5 + d - 1) - 719468 := by
  unfold GregorianCalendar.civil_to_days marchStart
  obtain ⟨yr, hyr⟩ : ∃ yr, yr = y - (if m ≤ 2 then 1 else 0) := ⟨_, rfl⟩
  have hera : (if 0 ≤ yr then yr else yr - 399).tdiv 400 = yr / 400 :=
    era_eq_floor (by omega) (by omega)
  have hmp : 0 ≤ 153 * (m + (if m > 2 then -3 else 9)) + 2 := by split <;> omega
  simp only [← hyr, hera, tdiv_of_nonneg hmp]
  have hyoe : 0 ≤ yr - yr / 400 * 400 := by omega
  rw [tdiv_of_nonneg hyoe, tdiv_of_nonneg hyoe]
  -- an era has 97 leap days
  have h4 : yr / 4 = yr / 400 * 100 + (yr - yr / 400 * 400) / 4 := by omega
  have h100 : yr / 100 = yr / 400 * 4 + (yr - yr / 400 * 400) / 100 := by omega
  omega

/-- **The day arithmetic of the Gregorian `to_time_point`** is the count of
    days. -/
theorem civil_to_days_eq (y d : Int) {m : Int} (hm : 1 ≤ m ∧ m ≤ 12) :
    GregorianCalendar.civil_to_days y m d - GregorianCalendar.epoch_day_offset
      = Calendar.Gregorian.civil.dayNumber epoch_year y m d := by
  have hepoch : GregorianCalendar.epoch_day_offset = marchStart 2025 + 306 - 719468 := by
    decide
  have hyear := marchStart_succ (y - 1)
  rw [sub_add_cancel] at hyear
  rw [civil_to_days_march y d hm, hepoch]
  unfold CivilCalendar.dayNumber
  rw [gregorian_daysBeforeYear, gregorian_daysBeforeMonth y hm.1,
    noLeap_daysBeforeMonth_of_le y hm]
  -- the March-based month offsets against the table, month by month
  have htable := forall_month (P := fun k => (153 * (k + (if k > 2 then -3 else 9)) + 2) / 5
    = cum_days.getD (k - 1).toNat 0 + (if k > 2 then -59 else 306)) (by decide) hm
  rw [htable]
  by_cases h2 : m ≤ 2
  · have hgt : ¬ m > 2 := by omega
    simp only [h2, hgt, if_true, if_false, false_and]
    omega
  · have hgt : m > 2 := by omega
    simp only [h2, hgt, if_true, if_false, true_and, sub_zero]
    omega

theorem era_digits {doe : Int} (h0 : 0 ≤ doe) (h1 : doe ≤ 146096) :
    ∃ B Q R doy : Int, (0 ≤ B ∧ B ≤ 3) ∧ (0 ≤ Q ∧ Q ≤ 24) ∧ (0 ≤ R ∧ R ≤ 3) ∧
      (0 ≤ doy ∧ doy ≤ 365) ∧ doe = 36524 * B + 1461 * Q + 365 * R + doy ∧
      (doy = 365 → R = 3 ∧ (Q ≠ 24 ∨ B = 3)) := by
  -- the last day of the era belongs to the fourth century
  obtain ⟨B, hB⟩ : ∃ B, B = if doe = 146096 then 3 else doe / 36524 := ⟨_, rfl⟩
  obtain ⟨Q, hQ⟩ : ∃ Q, Q = (doe - 36524 * B) / 1461 := ⟨_, rfl⟩
  obtain ⟨s, hs⟩ : ∃ s, s = doe - 36524 * B - 1461 * Q := ⟨_, rfl⟩
  -- and the last day of a cycle to its fourth year
  obtain ⟨R, hR⟩ : ∃ R, R = if s = 1460 then 3 else s / 365 := ⟨_, rfl⟩
  have hB' : 0 ≤ B ∧ B ≤ 3 ∧ 0 ≤ doe - 36524 * B ∧
      (doe - 36524 * B ≤ 36523 ∨ B = 3 ∧ doe - 36524 * B = 36524) := by
    split at hB <;> omega
  have hQ' : 0 ≤ Q ∧ Q ≤ 24 ∧ 0 ≤ s ∧ s ≤ 1460 ∧ (s = 1460 → Q ≠ 24 ∨ B = 3) := by omega
  refine ⟨B, Q, R, s - 365 * R, by omega, by omega, ?_, ?_, by omega, ?_⟩
  · split at hR <;> omega
  · split at hR <;> omega
  · split at hR <;> omega

theorem year_of_era_eq {B Q R doy doe : Int} (hB : 0 ≤ B ∧ B ≤ 3) (hQ : 0 ≤ Q ∧ Q ≤ 24)
    (hR : 0 ≤ R ∧ R ≤ 3) (hdoy : 0 ≤ doy ∧ doy ≤ 365)
    (hdoe : doe = 36524 * B + 1461 * Q + 365 * R + doy)
    (hleap : doy = 365 → R = 3 ∧ (Q ≠ 24 ∨ B = 3)) :
    (doe - doe / 1460 + doe / 36524 - doe / 146096) / 365 = 100 * B + 4 * Q + R := by
  -- only the last day of the era falls beyond the fourth century
  have hlast : 1461 * Q + 365 * R + doy ≤ 36523 ∨ doe = 146096 ∧ B = 3 := by omega
  have hcentury : doe / 36524 - doe / 146096 = B := by
    obtain hr | ⟨hr, hB3⟩ := hlast
    · have h1 : doe / 36524 = B := by omega
      have h2 : doe / 146096 = 0 := by omega
      omega
    · subst hr hB3
      decide
  -- the cycle count is one too large late in a cycle, which day 269 absorbs
  have hcycle : doe / 1460 = 25 * B + Q ∨ doe / 1460 = 25 * B + Q + 1 ∧ 269 ≤ doy := by omega
  have hcycle' : doy = 365 → doe / 1460 = 25 * B + Q + 1 := by omega
  omega

theorem year_of_era_spec {doe : Int} (h0 : 0 ≤ doe) (h1 : doe ≤ 146096) :
    ∃ yoe doy : Int,
      (doe - doe / 1460 + doe / 36524 - doe / 146096) / 365 = yoe ∧
      doe = 365 * yoe + yoe / 4 - yoe / 100 + doy ∧
      (0 ≤ yoe ∧ yoe ≤ 399) ∧ (0 ≤ doy ∧ doy ≤ 365) ∧
      (doy = 365 → ∀ era, IsLeap (yoe + era * 400 + 1)) := by
  obtain ⟨B, Q, R, doy, hB, hQ, hR, hdoy, heq, hleap⟩ := era_digits h0 h1
  refine ⟨100 * B + 4 * Q + R, doy, year_of_era_eq hB hQ hR hdoy heq hleap, ?_, ?_, hdoy, ?_⟩
  · have h4 : (100 * B + 4 * Q + R) / 4 = 25 * B + Q := by omega
    have h100 : (100 * B + 4 * Q + R) / 100 = B := by omega
    omega
  · omega
  · -- the leap day is the last day of a year before a leap year
    intro hlast era
    obtain ⟨hR3, hQB⟩ := hleap hlast
    unfold IsLeap
    omega

theorem month_of_doy {doy : Int} (h0 : 0 ≤ doy) (h1 : doy ≤ 365) :
    ∃ mp m d : Int, mp = (5 * doy + 2) / 153 ∧ m = mp + (if mp < 10 then 3 else -9) ∧
      d = doy - (153 * mp + 2) / 5 + 1 ∧ 0 ≤ mp ∧ (1 ≤ m ∧ m ≤ 12) ∧
      m + (if m > 2 then -3 else 9) = mp ∧
      1 ≤ d ∧ (d ≤ commonLength m ∨ m = 2 ∧ d = 29 ∧ doy = 365) := by
  obtain ⟨mp, hmp⟩ : ∃ mp, mp = (5 * doy + 2) / 153 := ⟨_, rfl⟩
  have hdoy : 153 * mp ≤ 5 * doy + 2 ∧ 5 * doy + 2 < 153 * mp + 153 := by omega
  have hmp0 : 0 ≤ mp := by omega
  have hmp11 : mp ≤ 11 := by omega
  refine ⟨mp, _, _, hmp, rfl, rfl, hmp0, ?_⟩
  clear hmp
  interval_cases mp <;> simp [commonLength] <;> omega

/-- **The day arithmetic of the Gregorian `to_date_time`** yields the date
    with the given number. -/
theorem days_to_civil_spec (z : Int) :
    ∃ y m d : Int, GregorianCalendar.days_to_civil z = ⟨.ofInt y, .ofInt m, .ofInt d⟩ ∧
      Calendar.Gregorian.civil.IsDate y m d ∧
      GregorianCalendar.civil_to_days y m d = z ∧
      400 * ((z + 719468) / 146097) ≤ y ∧ y ≤ 400 * ((z + 719468) / 146097) + 400 := by
  obtain ⟨x, hx⟩ : ∃ x, x = z + 719468 := ⟨_, rfl⟩
  obtain ⟨era, hera⟩ : ∃ era, era = x / 146097 := ⟨_, rfl⟩
  obtain ⟨doe, hdoe⟩ : ∃ doe, doe = x - era * 146097 := ⟨_, rfl⟩
  have hdoe0 : 0 ≤ doe := by omega
  have hdoe1 : doe ≤ 146096 := by omega
  obtain ⟨yoe, doy, hyoe, heq, hyoe_le, hdoy, hleap⟩ := year_of_era_spec hdoe0 hdoe1
  obtain ⟨mp, m, d, hmp, hm, hd, hmp0, hm_le, hmback, hd1, hlen⟩ :=
    month_of_doy hdoy.1 hdoy.2
  refine ⟨yoe + era * 400 + (if m ≤ 2 then 1 else 0), m, d, ?_, ⟨hm_le, hd1, ?_⟩, ?_, ?_⟩
  · -- the code computes these three numbers
    have hfloor : (if 0 ≤ x then x else x - 146096).tdiv 146097 = era := by
      rw [hera]
      exact era_eq_floor (by omega) (by omega)
    have hcount : 0 ≤ doe - doe / 1460 + doe / 36524 - doe / 146096 := by
      clear hyoe heq hd hm hmp hlen hmback
      omega
    have hdoy' : doe - (365 * yoe + yoe / 4 - yoe / 100) = doy := by
      rw [heq]
      ring
    have hdoy5 : 0 ≤ 5 * doy + 2 := by
      have := hdoy.1
      positivity
    have hmp5 : 0 ≤ 153 * mp + 2 := by positivity
    unfold GregorianCalendar.days_to_civil
    simp only [← hx, hfloor, ← hdoe, tdiv_of_nonneg hdoe0, tdiv_of_nonneg hcount, hyoe,
      tdiv_of_nonneg hyoe_le.1, hdoy', tdiv_of_nonneg hdoy5, ← hmp, tdiv_of_nonneg hmp5,
      ← hm, ← hd]
  · show d ≤ if m = 2 ∧ IsLeap (yoe + era * 400 + (if m ≤ 2 then 1 else 0)) then 29
      else commonLength m
    obtain hlen | ⟨rfl, rfl, hlast⟩ := hlen
    · by_cases h : m = 2 ∧ IsLeap (yoe + era * 400 + (if m ≤ 2 then 1 else 0))
      · rw [if_pos h]
        rw [h.1] at hlen
        exact hlen.trans (by decide)
      · rwa [if_neg h]
    · rw [if_pos ⟨rfl, hleap hlast era⟩]
  · rw [civil_to_days_march _ _ hm_le, hmback, add_sub_cancel_right]
    have hstart : marchStart (yoe + era * 400)
        = era * 146097 + (365 * yoe + yoe / 4 - yoe / 100) := by
      clear hyoe heq hdoe hd hm hmp hlen hmback hdoe0 hdoe1 hleap hera
      unfold marchStart
      omega
    rw [hstart]
    clear hyoe hm hmp hlen hmback hleap hstart hera
    omega
  · rw [← hx, ← hera]
    clear hyoe heq hdoe hd hm hmp hlen hmback hdoe0 hdoe1 hleap hera
    split <;> omega

/-! ### NoLeap month search -/

theorem find_month_spec {k : Int} (hk : 0 ≤ k ∧ k ≤ 364) :
    (1 ≤ NoLeapCalendar.find_month k ∧ NoLeapCalendar.find_month k ≤ 12) ∧
      cum_days.getD (NoLeapCalendar.find_month k - 1).toNat 0 ≤ k ∧
      k < cum_days.getD (NoLeapCalendar.find_month k - 1).toNat 0
        + commonLength (NoLeapCalendar.find_month k) := by
  have hall : ∀ i : Fin 365,
      (1 ≤ NoLeapCalendar.find_month i.val ∧ NoLeapCalendar.find_month i.val ≤ 12) ∧
      cum_days.getD (NoLeapCalendar.find_month i.val - 1).toNat 0 ≤ i.val ∧
      (i.val : Int) < cum_days.getD (NoLeapCalendar.find_month i.val - 1).toNat 0
        + commonLength (NoLeapCalendar.find_month i.val) := by
    decide +kernel
  have hcast : ((k.toNat : Nat) : Int) = k := by omega
  have := hall ⟨k.toNat, by omega⟩
  rwa [hcast] at this

end Tick
